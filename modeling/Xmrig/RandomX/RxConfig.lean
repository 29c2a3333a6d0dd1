import Xmrig.Hw.MsrItem

/-! The RandomX part of the configuration.

A platform is what the build and the processor decide: the features, the system, the
vendor and the bits of `unsigned long`.
-/

set_option autoImplicit false

namespace Xmrig

structure RxPlatform where
  msr : Bool
  hwloc : Bool
  linux : Bool
  intel : Bool
  long : Nat
  wide : 32 ≤ long

namespace RxConfig

inductive Mode where
  | auto
  | fast
  | light
  deriving DecidableEq, Repr

inductive ScratchpadPrefetchMode where
  | off
  | t0
  | nta
  | mov
  deriving DecidableEq, Repr

/-- `modeNames`, in the order of the modes. -/
def modeNames : List (Mode × String) := [(.auto, "auto"), (.fast, "fast"), (.light, "light")]

def Mode.name : Mode → String
  | auto => "auto"
  | fast => "fast"
  | light => "light"

/-- The mode of a number, the last one for those that are too large. -/
def Mode.ofUint : Nat → Mode
  | 0 => auto
  | 1 => fast
  | _ => light

def ScratchpadPrefetchMode.toInt : ScratchpadPrefetchMode → Int
  | off => 0
  | t0 => 1
  | nta => 2
  | mov => 3

/-- The mode of an `int` that is cast to `uint32_t` and below the number of modes. -/
def ScratchpadPrefetchMode.ofInt : Int → Option ScratchpadPrefetchMode
  | 0 => some off
  | 1 => some t0
  | 2 => some nta
  | 3 => some mov
  | _ => none

end RxConfig

open RxConfig

structure RxConfig where
  wrmsr : Bool
  msrPreset : List MsrItem := []
  cacheQoS : Bool := false
  oneGbPages : Bool := false
  rdmsr : Bool := true
  threads : Int := -1
  initDatasetAVX2 : Int := -1
  mode : Mode := .auto
  scratchpadPrefetchMode : ScratchpadPrefetchMode := .t0
  numa : Bool := true
  nodeset : List Nat := []
  deriving DecidableEq, Repr

namespace RxConfig
variable (platform : RxPlatform)

def fresh : RxConfig := { wrmsr := platform.msr }

def readMode (value : Json) : Mode :=
  match value.asUint with
  | some number => .ofUint number
  | none =>
    match value.asString with
    | some chars => ((modeNames.find? fun entry => sameName chars (text entry.2)).map Prod.fst).getD .auto
    | none => .auto

def presetOf (elements : List Json) : List MsrItem :=
  (elements.map (MsrItem.ofJson platform.long)).filter MsrItem.isValid

def readMSR (config : RxConfig) (value : Json) : RxConfig :=
  match value with
  | .bool wrmsr => { config with wrmsr }
  | .arr elements =>
    let msrPreset := config.msrPreset ++ presetOf platform elements
    { config with msrPreset, wrmsr := !msrPreset.isEmpty }
  | value =>
    match value.asInt with
    | none => config
    | some number =>
      let i := min number 15
      if 0 ≤ i then
        if platform.intel then
          { config with msrPreset := config.msrPreset ++ [{ reg := 0x1a4, value := BitVec.ofInt 64 i }] }
        else config
      else { config with wrmsr := false }

def readNuma (config : RxConfig) (value : Json) : RxConfig :=
  match value with
  | .arr elements => { config with nodeset := config.nodeset ++ elements.filterMap Json.asUint }
  | .bool numa => { config with numa }
  | _ => config

def readPrefetch (config : RxConfig) (value : Json) : RxConfig :=
  let mode := value.getInt "scratchpad_prefetch_mode" config.scratchpadPrefetchMode.toInt
  { config with scratchpadPrefetchMode := (ScratchpadPrefetchMode.ofInt mode).getD config.scratchpadPrefetchMode }

def readOptions (config : RxConfig) (value : Json) : RxConfig :=
  let config := {
    config with
    threads := value.getInt "init" config.threads
    initDatasetAVX2 := value.getInt "init-avx2" config.initDatasetAVX2
    mode := readMode (value.getValue "mode")
    rdmsr := value.getBool "rdmsr" config.rdmsr }
  let config := if platform.msr then readMSR platform config (value.getValue "wrmsr") else config
  {
    config with
    cacheQoS := value.getBool "cache_qos" config.cacheQoS
    oneGbPages := if platform.linux then value.getBool "1gb-pages" config.oneGbPages else config.oneGbPages }

/-- The source returns early in the light mode if it has NUMA options. -/
def readNodes (config : RxConfig) (value : Json) : RxConfig :=
  if platform.hwloc then
    if config.mode = .light then { config with numa := false }
    else readPrefetch (readNuma config (value.getValue "numa")) value
  else readPrefetch config value

def read (config : RxConfig) (value : Json) : Bool × RxConfig :=
  if value.isObject then (true, readNodes platform (readOptions platform config value) value) else (false, config)

def wrmsrJSON (config : RxConfig) : Json :=
  if platform.msr then
    if config.msrPreset.isEmpty then .bool config.wrmsr else .arr (config.msrPreset.map MsrItem.toJSON)
  else .bool false

def numaJSON (config : RxConfig) : Json :=
  if config.nodeset.isEmpty then .bool config.numa else .arr (config.nodeset.map fun node : Nat => .int (Int.ofNat node))

def toJSON (config : RxConfig) : Json :=
  .obj ([("init", .int config.threads),
    ("init-avx2", .int config.initDatasetAVX2),
    ("mode", .str (text config.mode.name)),
    ("1gb-pages", .bool config.oneGbPages),
    ("rdmsr", .bool config.rdmsr),
    ("wrmsr", config.wrmsrJSON platform),
    ("cache_qos", .bool config.cacheQoS)] ++
    (if platform.hwloc then [("numa", config.numaJSON)] else []) ++
    [("scratchpad_prefetch_mode", .int config.scratchpadPrefetchMode.toInt)])

/-! ## What a read configuration is like -/

/-- The range of an `int`. -/
def IsInt (number : Int) : Prop := -2 ^ 31 ≤ number ∧ number < 2 ^ 31

theorem asInt_int {number : Int} (range : IsInt number) : (Json.int number).asInt = some number := if_pos range

theorem isInt_getInt (value : Json) (key : String) {fallback : Int} (range : IsInt fallback) :
    IsInt (value.getInt key fallback) := by
  unfold Json.getInt
  cases found : (value.findMember key).bind Json.asInt with
  | none => exact range
  | some number =>
    obtain ⟨json, _, read⟩ := Option.bind_eq_some_iff.mp found
    cases json with
    | int inner =>
      by_cases inside : IsInt inner
      · rw [asInt_int inside] at read
        exact Option.some.inj read ▸ inside
      · rw [show (Json.int inner).asInt = none from if_neg inside] at read
        cases read
    | _ => cases read

structure MsrReadable (platform : RxPlatform) (config : RxConfig) : Prop where
  valid : ∀ item ∈ config.msrPreset, item.isValid = true
  applied : config.msrPreset ≠ [] → config.wrmsr = true
  without : platform.msr = false → config.wrmsr = false ∧ config.msrPreset = []

/-- The NUMA options and the prefetch mode fit together. -/
structure NodesReadable (platform : RxPlatform) (config : RxConfig) : Prop where
  nodes : ∀ node ∈ config.nodeset, node < 2 ^ 32
  bound : config.nodeset ≠ [] → config.numa = true
  without : platform.hwloc = false → config.numa = true ∧ config.nodeset = []
  light : platform.hwloc = true → config.mode = .light →
    config.numa = false ∧ config.nodeset = [] ∧ config.scratchpadPrefetchMode = .t0

structure Readable (platform : RxPlatform) (config : RxConfig) : Prop where
  threads : IsInt config.threads
  initDatasetAVX2 : IsInt config.initDatasetAVX2
  pages : platform.linux = false → config.oneGbPages = false
  msr : MsrReadable platform config
  nodes : NodesReadable platform config

variable {platform}

theorem presetOf_valid (elements : List Json) : ∀ item ∈ presetOf platform elements, item.isValid = true :=
  fun _ member => (List.mem_filter.mp member).2

/-- The MSR options of a configuration without a preset. -/
theorem readMSR_readable {config : RxConfig} (feature : platform.msr = true) (empty : config.msrPreset = [])
    (on : config.wrmsr = true) (value : Json) : MsrReadable platform (readMSR platform config value) := by
  have kept : MsrReadable platform config :=
    ⟨by simp [empty], fun _ => on, fun none => by rw [feature] at none; cases none⟩
  have number (json : Json) (given : readMSR platform config json =
      match json.asInt with
      | none => config
      | some number =>
        if 0 ≤ min number 15 then
          if platform.intel then
            { config with msrPreset := config.msrPreset ++ [{ reg := 0x1a4, value := BitVec.ofInt 64 (min number 15) }] }
          else config
        else { config with wrmsr := false }) : MsrReadable platform (readMSR platform config json) := by
    rw [given]
    split
    · exact kept
    · split
      · split
        · refine ⟨?_, fun _ => on, fun none => by rw [feature] at none; cases none⟩
          intro item member
          rw [empty, List.nil_append, List.mem_singleton] at member
          rw [member]
          rfl
        · exact kept
      · refine ⟨kept.valid, fun some => absurd empty some, fun none => by rw [feature] at none; cases none⟩
  cases value with
  | bool wrmsr => exact ⟨kept.valid, fun some => absurd empty some, fun none => by rw [feature] at none; cases none⟩
  | arr elements =>
    refine ⟨?_, ?_, fun none => by rw [feature] at none; cases none⟩
    · simp only [readMSR, empty, List.nil_append]
      exact presetOf_valid elements
    · intro some
      simp only [readMSR] at some ⊢
      simpa using some
  | int inner => exact number _ rfl
  | null => exact number _ rfl
  | double bits => exact number _ rfl
  | str chars => exact number _ rfl
  | obj members => exact number _ rfl

theorem readMSR_other (config : RxConfig) (value : Json) :
    readMSR platform config value = {
      config with
      wrmsr := (readMSR platform config value).wrmsr
      msrPreset := (readMSR platform config value).msrPreset } := by
  unfold readMSR
  split
  · rfl
  · rfl
  · split
    · rfl
    · dsimp only
      split
      · split <;> rfl
      · rfl

def msrOptions (platform : RxPlatform) (config : RxConfig) (value : Json) : RxConfig :=
  if platform.msr then readMSR platform config value else config

theorem readOptions_eq (config : RxConfig) (value : Json) :
    ∃ before : RxConfig, before.wrmsr = config.wrmsr ∧ before.msrPreset = config.msrPreset ∧
      readOptions platform config value = {
        config with
        threads := value.getInt "init" config.threads
        initDatasetAVX2 := value.getInt "init-avx2" config.initDatasetAVX2
        mode := readMode (value.getValue "mode")
        rdmsr := value.getBool "rdmsr" config.rdmsr
        wrmsr := (msrOptions platform before (value.getValue "wrmsr")).wrmsr
        msrPreset := (msrOptions platform before (value.getValue "wrmsr")).msrPreset
        cacheQoS := value.getBool "cache_qos" config.cacheQoS
        oneGbPages := if platform.linux then value.getBool "1gb-pages" config.oneGbPages else config.oneGbPages } := by
  refine ⟨{
    config with
    threads := value.getInt "init" config.threads
    initDatasetAVX2 := value.getInt "init-avx2" config.initDatasetAVX2
    mode := readMode (value.getValue "mode")
    rdmsr := value.getBool "rdmsr" config.rdmsr }, rfl, rfl, ?_⟩
  unfold readOptions msrOptions
  cases platform.msr with
  | false => rfl
  | true =>
    simp only [if_true]
    rw [readMSR_other]

theorem msrOptions_congr {first second : RxConfig} (wrmsr : first.wrmsr = second.wrmsr)
    (preset : first.msrPreset = second.msrPreset) (value : Json) :
    (msrOptions platform first value).wrmsr = (msrOptions platform second value).wrmsr ∧
      (msrOptions platform first value).msrPreset = (msrOptions platform second value).msrPreset := by
  unfold msrOptions readMSR
  rw [preset]
  split
  · split
    · exact ⟨rfl, rfl⟩
    · exact ⟨rfl, rfl⟩
    · split
      · exact ⟨wrmsr, preset⟩
      · dsimp only
        split
        · split
          · exact ⟨wrmsr, rfl⟩
          · exact ⟨wrmsr, preset⟩
        · exact ⟨rfl, rfl⟩
  · exact ⟨wrmsr, preset⟩

theorem readOptions_fresh (value : Json) :
    readOptions platform (fresh platform) value = {
      threads := value.getInt "init" (-1)
      initDatasetAVX2 := value.getInt "init-avx2" (-1)
      mode := readMode (value.getValue "mode")
      rdmsr := value.getBool "rdmsr" true
      wrmsr := (msrOptions platform (fresh platform) (value.getValue "wrmsr")).wrmsr
      msrPreset := (msrOptions platform (fresh platform) (value.getValue "wrmsr")).msrPreset
      cacheQoS := value.getBool "cache_qos" false
      oneGbPages := if platform.linux then value.getBool "1gb-pages" false else false } := by
  obtain ⟨before, wrmsr, preset, same⟩ := @readOptions_eq platform (fresh platform) value
  obtain ⟨first, second⟩ := @msrOptions_congr platform _ _ wrmsr preset (value.getValue "wrmsr")
  rw [same, first, second]
  rfl

theorem msrOptions_readable (value : Json) : MsrReadable platform (msrOptions platform (fresh platform) value) := by
  unfold msrOptions
  split
  · rename_i feature
    exact readMSR_readable feature rfl feature value
  · rename_i without
    refine ⟨by simp [fresh], fun some => absurd rfl some, fun none => ⟨none, rfl⟩⟩

theorem readNodes_other (config : RxConfig) (value : Json) :
    readNodes platform config value = {
      config with
      numa := (readNodes platform config value).numa
      nodeset := (readNodes platform config value).nodeset
      scratchpadPrefetchMode := (readNodes platform config value).scratchpadPrefetchMode } := by
  unfold readNodes readPrefetch readNuma
  split
  · split
    · rfl
    · split <;> rfl
  · rfl

theorem asUint_lt {value : Json} {number : Nat} (read : value.asUint = some number) : number < 2 ^ 32 := by
  obtain ⟨inner, found, rfl⟩ := Option.map_eq_some_iff.mp read
  cases value with
  | int given =>
    by_cases range : (0 : Int) ≤ given ∧ given < 2 ^ 32
    · rw [show (Json.int given).asInteger 0 (2 ^ 32) = some given from if_pos range] at found
      cases found
      omega
    · rw [show (Json.int given).asInteger 0 (2 ^ 32) = none from if_neg range] at found
      cases found
  | _ => cases found

theorem readNodes_readable {config : RxConfig} (numa : config.numa = true) (nodeset : config.nodeset = [])
    (prefetch : config.scratchpadPrefetchMode = .t0) (value : Json) :
    NodesReadable platform (readNodes platform config value) := by
  unfold readNodes
  cases feature : platform.hwloc with
  | false =>
    refine ⟨?_, fun _ => numa, fun _ => ⟨numa, nodeset⟩, fun some => absurd (feature.symm.trans some) Bool.false_ne_true⟩
    simp [readPrefetch, nodeset]
  | true =>
    simp only [if_true]
    split
    · refine ⟨by simp [nodeset], fun some => absurd nodeset some, fun none => ?_, fun _ _ => ⟨rfl, nodeset, prefetch⟩⟩
      rw [feature] at none
      cases none
    · rename_i other
      have light : ¬ (readPrefetch (readNuma config (value.getValue "numa")) value).mode = .light := by
        unfold readPrefetch readNuma
        split <;> exact other
      refine ⟨?_, ?_, fun none => absurd (none.symm.trans feature) Bool.false_ne_true, fun _ same => absurd same light⟩
      · unfold readPrefetch readNuma
        split
        · intro node member
          rw [nodeset, List.nil_append] at member
          obtain ⟨_, _, read⟩ := List.mem_filterMap.mp member
          exact asUint_lt read
        · simp [nodeset]
        · simp [nodeset]
      · unfold readPrefetch readNuma
        split
        · exact fun _ => numa
        · exact fun some => absurd nodeset some
        · exact fun _ => numa

theorem read_readable {value : Json} (isObject : value.isObject = true) :
    Readable platform (read platform (fresh platform) value).2 := by
  have minusOne : IsInt (-1) := ⟨by decide, by decide⟩
  have msr := @msrOptions_readable platform (value.getValue "wrmsr")
  rw [read, if_pos isObject]
  have options := @readOptions_fresh platform value
  generalize readOptions platform (fresh platform) value = config at options ⊢
  have nodes : NodesReadable platform (readNodes platform config value) := by
    apply readNodes_readable <;> rw [options]
  have rest := @readNodes_other platform config value
  refine ⟨?_, ?_, ?_, ?_, nodes⟩
  · rw [rest, options]
    exact isInt_getInt value _ minusOne
  · rw [rest, options]
    exact isInt_getInt value _ minusOne
  · intro other
    rw [rest, options]
    exact if_neg (by rw [other]; decide)
  · rw [rest, options]
    exact ⟨msr.valid, msr.applied, msr.without⟩

/-! ## Reading what is saved -/

section Members
variable (config : RxConfig)

theorem find_init : (toJSON platform config).findMember "init" = some (.int config.threads) := rfl

theorem find_avx2 : (toJSON platform config).findMember "init-avx2" = some (.int config.initDatasetAVX2) := rfl

theorem find_mode : (toJSON platform config).findMember "mode" = some (.str (text config.mode.name)) := rfl

theorem find_pages : (toJSON platform config).findMember "1gb-pages" = some (.bool config.oneGbPages) := rfl

theorem find_rdmsr : (toJSON platform config).findMember "rdmsr" = some (.bool config.rdmsr) := rfl

theorem find_wrmsr : (toJSON platform config).findMember "wrmsr" = some (config.wrmsrJSON platform) := rfl

theorem find_cacheQoS : (toJSON platform config).findMember "cache_qos" = some (.bool config.cacheQoS) := rfl

theorem find_numa (feature : platform.hwloc = true) :
    (toJSON platform config).findMember "numa" = some config.numaJSON := by
  unfold toJSON
  rw [feature]
  rfl

theorem find_prefetch : (toJSON platform config).findMember "scratchpad_prefetch_mode" =
    some (.int config.scratchpadPrefetchMode.toInt) := by
  unfold toJSON
  cases platform.hwloc <;> rfl

end Members

theorem readMode_name (mode : Mode) : readMode (.str (text mode.name)) = mode := by
  cases mode <;> decide

theorem ofInt_toInt (mode : ScratchpadPrefetchMode) : ScratchpadPrefetchMode.ofInt mode.toInt = some mode := by
  cases mode <;> rfl

theorem isInt_toInt (mode : ScratchpadPrefetchMode) : IsInt mode.toInt := by
  cases mode <;> exact ⟨by decide, by decide⟩

/-- A member that is saved as an `int` is read back. -/
theorem getInt_saved {value : Json} {key : String} {number : Int} (found : value.findMember key = some (.int number))
    (range : IsInt number) (fallback : Int) : value.getInt key fallback = number := by
  rw [Json.getInt, found, Option.bind_some, asInt_int range]
  rfl

theorem getBool_saved {value : Json} {key : String} {flag : Bool} (found : value.findMember key = some (.bool flag))
    (fallback : Bool) : value.getBool key fallback = flag := by
  rw [Json.getBool, found]
  rfl

theorem getValue_saved {value saved : Json} {key : String} (found : value.findMember key = some saved) :
    value.getValue key = saved := by
  rw [Json.getValue, found]
  rfl

theorem asInteger_int {low high number : Int} (range : low ≤ number ∧ number < high) :
    (Json.int number).asInteger low high = some number :=
  if_pos range

theorem asUint_int {number : Nat} (small : number < 2 ^ 32) :
    (Json.int (Int.ofNat number)).asUint = some number := by
  have inside : Int.ofNat number < 2 ^ 32 := by
    rw [Int.ofNat_eq_natCast]
    omega
  rw [Json.asUint, @asInteger_int _ _ (Int.ofNat number) ⟨Int.natCast_nonneg number, inside⟩]
  rfl

theorem nodes_saved {nodes : List Nat} (small : ∀ node ∈ nodes, node < 2 ^ 32) :
    (nodes.map fun node : Nat => Json.int (Int.ofNat node)).filterMap Json.asUint = nodes := by
  induction nodes with
  | nil => rfl
  | cons node rest ih =>
    obtain ⟨first, others⟩ := List.forall_mem_cons.mp small
    rw [List.map_cons, List.filterMap_cons_some (asUint_int first), ih others]

theorem kept_iff {change : MsrItem → MsrItem} {items : List MsrItem} (valid : ∀ item ∈ items, item.isValid = true) :
    (items.map change).filter MsrItem.isValid = items ↔ ∀ item ∈ items, change item = item := by
  induction items with
  | nil => simp
  | cons item rest ih =>
    obtain ⟨first, others⟩ := List.forall_mem_cons.mp valid
    rw [List.map_cons, List.forall_mem_cons, ← ih others]
    cases still : (change item).isValid with
    | true => rw [List.filter_cons_of_pos still, List.cons.injEq]
    | false =>
      rw [List.filter_cons_of_neg (by rw [still]; decide)]
      constructor
      · intro same
        have shorter := List.length_filter_le MsrItem.isValid (rest.map change)
        rw [same, List.length_map, List.length_cons] at shorter
        omega
      · rintro ⟨same, _⟩
        rw [same, first] at still
        cases still

theorem presetOf_saved {items : List MsrItem} (valid : ∀ item ∈ items, item.isValid = true) :
    presetOf platform (items.map MsrItem.toJSON) = items ↔ ∀ item ∈ items, ¬ item.Cut := by
  rw [presetOf, List.map_map, kept_iff valid]
  exact forall₂_congr fun item _ => MsrItem.ofJson_toString platform.wide item

theorem msrOptions_saved {config : RxConfig} (readable : MsrReadable platform config) :
    (msrOptions platform (fresh platform) (config.wrmsrJSON platform)).wrmsr = config.wrmsr ∧
      (msrOptions platform (fresh platform) (config.wrmsrJSON platform)).msrPreset = config.msrPreset ↔
    ∀ item ∈ config.msrPreset, ¬ item.Cut := by
  unfold msrOptions wrmsrJSON
  cases feature : platform.msr with
  | false =>
    obtain ⟨off, empty⟩ := readable.without feature
    simp [fresh, feature, off, empty]
  | true =>
    rw [← @presetOf_saved platform _ readable.valid]
    cases preset : config.msrPreset with
    | nil => simp [readMSR, presetOf, fresh]
    | cons item rest =>
      have on : config.wrmsr = true := readable.applied (by rw [preset]; exact List.cons_ne_nil _ _)
      simp only [if_true, List.isEmpty_cons, Bool.false_eq_true, if_false, readMSR, fresh, List.nil_append, on]
      constructor
      · exact And.right
      · intro same
        exact ⟨by rw [same]; rfl, same⟩

theorem readNodes_saved {config before : RxConfig} (readable : NodesReadable platform config)
    (mode : before.mode = config.mode) (numa : before.numa = true) (nodeset : before.nodeset = [])
    (prefetch : before.scratchpadPrefetchMode = .t0) :
    readNodes platform before (toJSON platform config) = {
      before with
      numa := config.numa
      nodeset := config.nodeset
      scratchpadPrefetchMode := config.scratchpadPrefetchMode } := by
  have saved (given : RxConfig) : readPrefetch given (toJSON platform config) =
      { given with scratchpadPrefetchMode := config.scratchpadPrefetchMode } := by
    rw [readPrefetch, getInt_saved (find_prefetch config) (isInt_toInt _), ofInt_toInt]
    rfl
  unfold readNodes
  cases feature : platform.hwloc with
  | false =>
    obtain ⟨on, empty⟩ := readable.without feature
    rw [if_neg Bool.false_ne_true, saved, on, empty, ← numa, ← nodeset]
  | true =>
    rw [if_pos rfl]
    by_cases light : config.mode = .light
    · obtain ⟨off, empty, first⟩ := readable.light feature light
      rw [if_pos (mode.trans light), off, empty, first, ← nodeset, ← prefetch]
    · rw [if_neg (by rw [mode]; exact light), saved, getValue_saved (find_numa config feature), numaJSON]
      cases nodes : config.nodeset with
      | nil =>
        simp only [List.isEmpty_nil, if_true, readNuma]
        rw [← nodeset]
      | cons node rest =>
        have on : config.numa = true := readable.bound (by rw [nodes]; exact List.cons_ne_nil _ _)
        have small : ∀ other ∈ node :: rest, other < 2 ^ 32 := nodes ▸ readable.nodes
        simp only [List.isEmpty_cons, Bool.false_eq_true, if_false, readNuma]
        rw [nodeset, nodes_saved small, on, ← numa]
        rfl

/-- A readable configuration comes back exactly when no text of its preset is cut. -/
theorem read_toJSON_iff {config : RxConfig} (readable : Readable platform config) :
    (read platform (fresh platform) (toJSON platform config)).2 = config ↔ ∀ item ∈ config.msrPreset, ¬ item.Cut := by
  rw [← msrOptions_saved readable.msr]
  have options := @readOptions_fresh platform (toJSON platform config)
  rw [getInt_saved (find_init config) readable.threads, getInt_saved (find_avx2 config) readable.initDatasetAVX2,
    getValue_saved (find_mode config), readMode_name, getBool_saved (find_rdmsr config),
    getValue_saved (find_wrmsr config), getBool_saved (find_cacheQoS config),
    getBool_saved (find_pages config)] at options
  have pages : (if platform.linux then config.oneGbPages else false) = config.oneGbPages := by
    split
    · rfl
    · rename_i other
      exact (readable.pages (Bool.eq_false_of_not_eq_true other)).symm
  rw [pages] at options
  have back : (read platform (fresh platform) (toJSON platform config)).2 = {
      config with
      wrmsr := (msrOptions platform (fresh platform) (config.wrmsrJSON platform)).wrmsr
      msrPreset := (msrOptions platform (fresh platform) (config.wrmsrJSON platform)).msrPreset } := by
    have isObject : (toJSON platform config).isObject = true := rfl
    rw [read, if_pos isObject, readNodes_saved readable.nodes (by rw [options]) (by rw [options]) (by rw [options])
      (by rw [options]), options]
  rw [back]
  constructor
  · intro same
    have wrmsr := congrArg RxConfig.wrmsr same
    have preset := congrArg RxConfig.msrPreset same
    exact ⟨wrmsr, preset⟩
  · rintro ⟨wrmsr, preset⟩
    rw [wrmsr, preset]

def entries (value : Json) : List Json :=
  match value.getValue "wrmsr" with
  | .arr elements => elements
  | _ => []

theorem presetOf_cut (elements : List Json) :
    (∀ item ∈ presetOf platform elements, ¬ item.Cut) ↔
      ∀ entry ∈ elements, ¬ (MsrItem.ofJson platform.long entry).Cut := by
  constructor
  · intro whole entry member cut
    have valid : (MsrItem.ofJson platform.long entry).isValid = true := by
      have large := cut.1
      simp only [MsrItem.isValid, BitVec.lt_def, decide_eq_true_eq]
      exact Nat.lt_of_lt_of_le (by decide) large
    exact whole _ (List.mem_filter.mpr ⟨List.mem_map_of_mem member, valid⟩) cut
  · intro whole item member
    obtain ⟨entry, given, rfl⟩ := List.mem_map.mp (List.mem_filter.mp member).1
    exact whole entry given

theorem prefetchers_whole (value : BitVec 64) : ¬ ({ reg := 0x1a4, value } : MsrItem).Cut :=
  fun cut => absurd (show 2 ^ 28 ≤ (0x1a4 : BitVec 32).toNat from cut.1) (by decide)

theorem readMSR_whole {value : Json} (other : ∀ elements, value ≠ .arr elements) :
    ∀ item ∈ (readMSR platform (fresh platform) value).msrPreset, ¬ item.Cut := by
  unfold readMSR
  split
  · simp [fresh]
  · rename_i elements
    exact absurd rfl (other elements)
  · split
    · simp [fresh]
    · dsimp only
      split
      · split
        · intro item member
          rw [show (fresh platform).msrPreset = [] from rfl, List.nil_append, List.mem_singleton] at member
          rw [member]
          exact prefetchers_whole _
        · simp [fresh]
      · simp [fresh]

theorem msrOptions_cut (feature : platform.msr = true) (value : Json) :
    (∀ item ∈ (msrOptions platform (fresh platform) (value.getValue "wrmsr")).msrPreset, ¬ item.Cut) ↔
      ∀ entry ∈ entries value, ¬ (MsrItem.ofJson platform.long entry).Cut := by
  rw [msrOptions, if_pos feature]
  unfold entries
  split
  · rename_i elements given
    rw [given]
    exact presetOf_cut elements
  · rename_i other
    exact iff_of_true (readMSR_whole other) fun entry member => absurd member List.not_mem_nil

theorem read_preset (members : List (String × Json)) :
    (read platform (fresh platform) (.obj members)).2.msrPreset =
      (msrOptions platform (fresh platform) ((Json.obj members).getValue "wrmsr")).msrPreset := by
  have isObject : (Json.obj members).isObject = true := rfl
  rw [read, if_pos isObject, readNodes_other, readOptions_fresh]

/-- A configuration that was read from an object comes back exactly when the build has no MSR
options or no text of its preset is cut. -/
theorem read_saved_iff (platform : RxPlatform) (members : List (String × Json)) :
    (read platform (fresh platform) (toJSON platform (read platform (fresh platform) (.obj members)).2)).2 =
        (read platform (fresh platform) (.obj members)).2 ↔
      (platform.msr = true →
        ∀ entry ∈ entries (.obj members), ¬ (MsrItem.ofJson platform.long entry).Cut) := by
  have isObject : (Json.obj members).isObject = true := rfl
  have readable := @read_readable platform _ isObject
  rw [read_toJSON_iff readable]
  cases feature : platform.msr with
  | false =>
    rw [(readable.msr.without feature).2]
    exact iff_of_true (fun item member => absurd member List.not_mem_nil) fun none => absurd none Bool.false_ne_true
  | true =>
    rw [read_preset, msrOptions_cut feature]
    exact ⟨fun whole _ => whole, fun whole => whole rfl⟩

/-- A configuration that was read from an object comes back exactly when the build has no MSR
options or no entry of the preset has eight digits, sixteen and sixteen. -/
theorem rxConfig_comesBack (platform : RxPlatform) :
    (∀ item : MsrItem, MsrItem.ofJson platform.long (.str item.toString) = item ↔ ¬ item.Cut) ∧
      ∀ members : List (String × Json),
        (read platform (fresh platform) (toJSON platform (read platform (fresh platform) (.obj members)).2)).2 =
            (read platform (fresh platform) (.obj members)).2 ↔
          (platform.msr = true →
            ∀ entry ∈ entries (.obj members), ¬ (MsrItem.ofJson platform.long entry).Cut) :=
  ⟨MsrItem.ofJson_toString platform.wide, read_saved_iff platform⟩

def ryzen : RxPlatform where
  msr := true
  hwloc := true
  linux := true
  intel := false
  long := 64
  wide := by decide

def oneEntry (chars : List Byte) : List (String × Json) := [("wrmsr", .arr [.str chars])]

theorem shortEntry_comesBack :
    (read ryzen (fresh ryzen) (toJSON ryzen
        (read ryzen (fresh ryzen) (.obj (oneEntry (text "0xc0011020:0x4480000000000")))).2)).2 =
      (read ryzen (fresh ryzen) (.obj (oneEntry (text "0xc0011020:0x4480000000000")))).2 :=
  ((rxConfig_comesBack ryzen).2 (oneEntry (text "0xc0011020:0x4480000000000"))).mpr fun _ => by decide

/-- The last digit of a mask is lost when all the numbers are long. -/
theorem longEntry_changes :
    (read ryzen (fresh ryzen) (toJSON ryzen
        (read ryzen (fresh ryzen) (.obj (oneEntry (text "0xc0011021:0x8000000000000000:0xffffffffffffffdf")))).2)).2 ≠
      (read ryzen (fresh ryzen) (.obj (oneEntry (text "0xc0011021:0x8000000000000000:0xffffffffffffffdf")))).2 := by
  decide

end RxConfig

end Xmrig
