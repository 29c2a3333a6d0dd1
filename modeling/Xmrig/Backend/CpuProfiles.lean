import Mathlib.Data.List.TakeWhile
import Xmrig.Backend.CpuConfig

/-! Profiles that are read back from what was saved.

Every list in a configuration is one that its own JSON is read as, so the profiles survive.
An alias survives if there is a profile of its name: then the saved configuration is a fixed
point, and otherwise the algorithm is off when it is read back. Nothing is generated again.
-/

set_option autoImplicit false

namespace Xmrig

open Foundation

section Lists
variable {union : Json → BitVec 32}

theorem Json.asInteger_inside {low high number : Int} {value : Json}
    (found : value.asInteger low high = some number) : low ≤ number ∧ number < high := by
  cases value with
  | int other =>
    unfold Json.asInteger at found
    dsimp only at found
    split at found
    · rename_i inside
      cases found
      exact inside
    · cases found
  | _ => cases found

theorem Json.asUint_nat {number : Nat} (small : number < 2 ^ 32) :
    Json.asUint (.int (number : Int)) = some number := by
  unfold Json.asUint Json.asInteger
  dsimp only
  rw [if_pos ⟨Int.natCast_nonneg number, by exact_mod_cast small⟩]
  rfl

theorem Json.getUint_of_lookup {members : List (String × Json)} {key : String} {number defaultValue : Nat}
    (found : members.lookup key = some (.int (number : Int))) (small : number < 2 ^ 32) :
    (Json.obj members).getUint key defaultValue = number := by
  unfold Json.getUint Json.findMember
  dsimp only
  rw [found, Option.bind_some, Json.asUint_nat small, Option.getD_some]

theorem getAffinityMask_inside {value : Json} : -2 ^ 63 ≤ getAffinityMask value ∧ getAffinityMask value < 2 ^ 63 := by
  have clamped (radix : Nat) (chars : List Byte) :
      -2 ^ 63 ≤ strtoll radix chars ∧ strtoll radix chars < 2 ^ 63 := by
    unfold strtoll
    dsimp only
    split
    · constructor
      · exact le_max_right _ _
      · omega
    · constructor
      · omega
      · omega
  unfold getAffinityMask
  split
  · rename_i mask found
    exact Json.asInteger_inside found
  · split
    · split
      · exact clamped 16 _
      · exact clamped 10 _
    · decide

/-- The lists that are read as themselves: threads with an intensity and a unit that fit, or as
many as an object asks for. -/
inductive CpuThreads.Readable : CpuThreads → Prop where
  | array (data : List CpuThread)
      (bounded : ∀ thread ∈ data, thread.intensity ≤ 8 ∧ -2 ^ 31 ≤ thread.affinity ∧ thread.affinity < 2 ^ 31) :
      Readable { format := .array, affinity := -1, data }
  | object (affinity : Int) (intensity count : Nat) (mask : -2 ^ 63 ≤ affinity ∧ affinity < 2 ^ 63)
      (some : 1 ≤ intensity) (few : intensity ≤ 5) (short : count ≤ 1024) :
      Readable
        { format := .object, affinity,
          data := (List.range count).map fun i => { affinity := getAffinity i affinity, intensity } }

theorem CpuThread.read_bounded {value : Json} (valid : (CpuThread.read union value).isValid = true) :
    (CpuThread.read union value).intensity ≤ 8 ∧ -2 ^ 31 ≤ (CpuThread.read union value).affinity ∧
      (CpuThread.read union value).affinity < 2 ^ 31 := by
  refine ⟨of_decide_eq_true valid, ?_⟩
  unfold CpuThread.read
  split
  · rename_i first second rest
    exact ⟨BitVec.le_toInt _, BitVec.toInt_lt⟩
  · split
    · rename_i affinity found
      exact Json.asInteger_inside found
    · decide

theorem CpuThread.read_toJSON {thread : CpuThread} (few : thread.intensity ≤ 8)
    (low : -2 ^ 31 ≤ thread.affinity) (high : thread.affinity < 2 ^ 31) :
    CpuThread.read union thread.toJSON = thread := by
  have affinity : (BitVec.ofInt 32 thread.affinity).toInt = thread.affinity := by
    rw [BitVec.toInt_ofInt]
    exact Int.bmod_eq_of_le (by omega) (by omega)
  have intensity : (BitVec.ofInt 32 (thread.intensity : Int)).toNat = thread.intensity := by
    rw [BitVec.ofInt_natCast, BitVec.toNat_ofNat, Nat.mod_eq_of_lt (by omega)]
  unfold CpuThread.toJSON
  split
  · rename_i zero
    have inside : Json.asInt (.int thread.affinity) = some thread.affinity := if_pos ⟨low, high⟩
    unfold CpuThread.read
    dsimp only
    rw [inside, ← zero]
  · change CpuThread.mk (BitVec.ofInt 32 thread.affinity).toInt
      (BitVec.ofInt 32 (thread.intensity : Int)).toNat = thread
    rw [affinity, intensity]

theorem CpuThreads.read_readable (value : Json) : (CpuThreads.read union value).Readable := by
  unfold CpuThreads.read
  split
  · rename_i elements
    apply Readable.array
    intro thread member
    obtain ⟨listed, valid⟩ := List.mem_filter.mp member
    obtain ⟨element, -, rfl⟩ := List.mem_map.mp listed
    exact CpuThread.read_bounded valid
  · dsimp only
    apply Readable.object
    · exact getAffinityMask_inside
    · split
      · decide
      · omega
    · split
      · decide
      · omega
    · exact Nat.min_le_right _ _
  · exact Readable.array [] fun thread member => by cases member

theorem CpuThreads.Readable.read_toJSON {threads : CpuThreads} (readable : threads.Readable)
    (nonempty : threads.data ≠ []) : CpuThreads.read union threads.toJSON = threads := by
  cases readable with
  | array data bounded =>
    have each : ∀ thread ∈ data, CpuThread.read union thread.toJSON = thread := fun thread member =>
      CpuThread.read_toJSON (bounded thread member).1 (bounded thread member).2.1 (bounded thread member).2.2
    have same : (data.map CpuThread.toJSON).map (CpuThread.read union) = data := by
      rw [List.map_map]
      exact (List.map_congr_left each).trans (List.map_id data)
    change CpuThreads.mk .array (-1) (((data.map CpuThread.toJSON).map (CpuThread.read union)).filter CpuThread.isValid) = _
    rw [same, List.filter_eq_self.mpr]
    intro thread member
    exact decide_eq_true (bounded thread member).1
  | object affinity intensity count mask some few short =>
    obtain ⟨last, rfl⟩ : ∃ last, count = last + 1 := by
      cases count with
      | zero => exact (nonempty rfl).elim
      | succ last => exact ⟨last, rfl⟩
    have number : ((List.range (last + 1)).map
        fun i => ({ affinity := getAffinity i affinity, intensity } : CpuThread)).length = last + 1 := by
      rw [List.length_map, List.length_range]
    have first : ((((List.range (last + 1)).map
        fun i => ({ affinity := getAffinity i affinity, intensity } : CpuThread)).head?.map
          CpuThread.getIntensity).getD 1) = intensity := by
      rw [List.range_succ_eq_map]
      exact if_neg (Nat.ne_of_gt some)
    have three : (Json.obj [("intensity", .int (intensity : Int)), ("threads", .int ((last + 1 : Nat) : Int)),
        ("affinity", .int affinity)]).getUint "intensity" 1 = intensity ∧
      (Json.obj [("intensity", .int (intensity : Int)), ("threads", .int ((last + 1 : Nat) : Int)),
        ("affinity", .int affinity)]).getUint "threads" 0 = last + 1 ∧
      (Json.obj [("intensity", .int (intensity : Int)), ("threads", .int ((last + 1 : Nat) : Int)),
        ("affinity", .int affinity)]).getValue "affinity" = .int affinity := by
      refine ⟨Json.getUint_of_lookup (by simp) (by omega),
        Json.getUint_of_lookup (by simp [List.lookup_cons]) (by omega), ?_⟩
      simp [Json.getValue, Json.findMember, List.lookup_cons]
    have mask_eq : getAffinityMask (.int affinity) = affinity := by
      have inside : Json.asInt64 (.int affinity) = Option.some affinity := if_pos mask
      unfold getAffinityMask
      rw [inside]
    unfold CpuThreads.toJSON CpuThreads.count
    dsimp only
    rw [number, first]
    unfold CpuThreads.read
    dsimp only
    rw [three.1, three.2.1, three.2.2, mask_eq, if_neg (by omega), Nat.min_eq_left short]

end Lists

section Names

theorem text_memberName (name : List Byte) : text (memberName name) = name := by
  unfold text memberName
  rw [String.toList_ofList, List.map_map]
  refine (List.map_congr_left fun byte _ => ?_).trans (List.map_id name)
  change BitVec.ofNat 8 (Char.ofNat byte.toNat).toNat = byte
  have valid : byte.toNat.isValidChar := .inl (by omega)
  have number : (Char.ofNat byte.toNat).toNat = byte.toNat := by
    unfold Char.ofNat
    rw [dif_pos valid]
    rfl
  rw [number, BitVec.ofNat_toNat, BitVec.setWidth_eq]

theorem Json.cString_eq_self {chars : List Byte} (whole : (0 : Byte) ∉ chars) : cString chars = chars := by
  unfold cString
  apply List.takeWhile_eq_self_iff.mpr
  intro char member
  apply decide_eq_true
  rintro rfl
  exact whole member

theorem Json.cString_whole (chars : List Byte) : (0 : Byte) ∉ cString chars := by
  intro member
  have kept := List.mem_takeWhile_imp member
  exact of_decide_eq_true kept rfl

/-- An algorithm that its own name is read as. -/
def Algorithm.Listed (algorithm : Algorithm) : Prop :=
  algorithm.isValid = true ∧ Algorithm.parse (some (Json.cString (text algorithm.name))) = algorithm

theorem Algorithm.parse_listed {chars : Option (List Byte)} (valid : (parse chars).isValid = true) :
    (parse chars).Listed := by
  refine ⟨valid, ?_⟩
  rcases parse_cases chars with none | ⟨entry, listed, same⟩
  · rw [none] at valid
    cases valid
  · rw [same, cString_text_name]
    exact (aliases_roundTrip entry listed).2

theorem Algorithm.listed_of_known {algorithm : Algorithm} (known : algorithm ∈ aliases.map Prod.fst) :
    algorithm.Listed := by
  obtain ⟨entry, listed, rfl⟩ := List.mem_map.mp known
  obtain ⟨valid, again⟩ := aliases_roundTrip entry listed
  refine ⟨valid, ?_⟩
  rw [cString_text_name]
  exact again

def Algorithm.ofId (id : BitVec 32) : Algorithm :=
  ((invalid :: [cnGr0, cnGr1, cnGr2, cnGr3, cnGr4, cnGr5] ++ aliases.map Prod.fst).find? (·.id = id)).getD invalid

theorem Algorithm.ofId_id (algorithm : Algorithm) : ofId algorithm.id = algorithm := by
  cases algorithm <;> rfl

theorem algorithmOrder_total : algorithmOrder.Total := by
  intro first second equal
  obtain ⟨one, other⟩ := KeyOrder.same_iff.mp equal
  have notBelow := of_decide_eq_false one
  have notAbove := of_decide_eq_false other
  have ids : first.id = second.id := BitVec.eq_of_toNat_eq (by omega)
  rw [← first.ofId_id, ids, second.ofId_id]

end Names

namespace Threads

/-- What is kept of every entry: it can be read back from what is written of it. -/
structure Kept {T : Type} (list : ThreadList T) (threads : Threads T) : Prop where
  profiles : ∀ entry ∈ threads.profiles.entries, (0 : Byte) ∉ entry.1 ∧
    list.ofJson (list.toJSON entry.2) = entry.2 ∧ list.isEmpty entry.2 = false
  aliases : ∀ entry ∈ threads.aliases.entries, entry.1.Listed ∧ (0 : Byte) ∉ entry.2
  disabled : ∀ entry ∈ threads.disabled.entries, entry.1.Listed

/-- There is a profile for every alias. -/
def Alive {T : Type} (threads : Threads T) : Prop :=
  ∀ entry ∈ threads.aliases.entries, threads.has entry.2 = true

section Read
variable {T : Type} {list : ThreadList T} {threads : Threads T}

theorem kept_empty : Kept list {} where
  profiles _ member := by cases member
  aliases _ member := by cases member
  disabled _ member := by cases member

theorem Kept.disable (kept : Kept list threads) {algo : Algorithm} (listed : algo.Listed) :
    Kept list (threads.disable algo) where
  profiles := kept.profiles
  aliases := kept.aliases
  disabled entry member := by
    rcases (OrderedMap.mem_insert _).mp member with old | ⟨-, rfl⟩
    · exact kept.disabled entry old
    · exact listed

theorem Kept.insertAlias (kept : Kept list threads) {algo : Algorithm} {profile : List Byte}
    (listed : algo.Listed) (whole : (0 : Byte) ∉ profile) :
    Kept list { threads with aliases := threads.aliases.insert algo profile } where
  profiles := kept.profiles
  disabled := kept.disabled
  aliases entry member := by
    rcases (OrderedMap.mem_insert _).mp member with old | ⟨-, rfl⟩
    · exact kept.aliases entry old
    · exact ⟨listed, whole⟩

theorem Kept.move (kept : Kept list threads) {profile : List Byte} {moved : T}
    (whole : (0 : Byte) ∉ profile)
    (again : list.isEmpty moved = false → list.ofJson (list.toJSON moved) = moved) :
    Kept list (threads.move list profile moved).1 := by
  unfold Threads.move
  split
  · exact kept
  · dsimp only
    split
    · exact kept
    · rename_i nonempty
      rw [Bool.not_eq_true] at nonempty
      refine ⟨fun entry member => ?_, kept.aliases, kept.disabled⟩
      rcases (OrderedMap.mem_insert _).mp member with old | ⟨-, rfl⟩
      · exact kept.profiles entry old
      · exact ⟨whole, again nonempty, nonempty⟩

/-- A list that is not empty is read as itself, from an array or an object. -/
structure Rereads (list : ThreadList T) : Prop where
  again : ∀ value, list.isEmpty (list.ofJson value) = false →
    list.ofJson (list.toJSON (list.ofJson value)) = list.ofJson value
  shape : ∀ threads, ((list.toJSON threads).isArray || (list.toJSON threads).isObject) = true

theorem Kept.readProfile (rereads : Rereads list) (kept : Kept list threads) (member : String × Json) :
    Kept list (threads.readProfile list member) := by
  unfold Threads.readProfile
  split
  · dsimp only
    split
    · exact kept
    · exact kept.move (Json.cString_whole _) (rereads.again member.2)
  · exact kept

theorem Kept.readAlgorithm (kept : Kept list threads) (member : String × Json) :
    Kept list (threads.readAlgorithm member) := by
  unfold Threads.readAlgorithm
  split
  · exact kept
  · dsimp only
    split
    · exact kept
    · rename_i valid
      rw [Bool.not_eq_true, Bool.not_eq_false'] at valid
      have listed := Algorithm.parse_listed valid
      split
      · exact kept.disable listed
      · split
        · exact kept.insertAlias listed (Json.cString_whole _)
        · exact kept.disable listed
      · exact kept

theorem Alive.readAlgorithm (alive : threads.Alive) (member : String × Json) :
    (threads.readAlgorithm member).Alive := by
  unfold Threads.readAlgorithm
  split
  · exact alive
  · dsimp only
    split
    · exact alive
    · split
      · exact alive
      · split
        · rename_i there
          intro entry inserted
          rcases (OrderedMap.mem_insert _).mp inserted with old | ⟨-, rfl⟩
          · exact alive entry old
          · exact there
        · exact alive
      · exact alive

theorem readProfile_aliases (threads : Threads T) (member : String × Json) :
    (threads.readProfile list member).aliases = threads.aliases := by
  unfold Threads.readProfile Threads.move
  dsimp only
  split_ifs
  · rfl
  · rfl
  · rfl
  · rfl

theorem Kept.foldl_readProfile (rereads : Rereads list) (kept : Kept list threads)
    (members : List (String × Json)) : Kept list (members.foldl (Threads.readProfile list) threads) := by
  induction members generalizing threads with
  | nil => exact kept
  | cons member rest ih => exact ih (kept.readProfile rereads member)

theorem Kept.foldl_readAlgorithm (kept : Kept list threads) (members : List (String × Json)) :
    Kept list (members.foldl Threads.readAlgorithm threads) := by
  induction members generalizing threads with
  | nil => exact kept
  | cons member rest ih => exact ih (kept.readAlgorithm member)

theorem Kept.read (rereads : Rereads list) (kept : Kept list threads) (members : List (String × Json)) :
    Kept list (threads.read list members) :=
  (kept.foldl_readProfile rereads members).foldl_readAlgorithm members

theorem foldl_readProfile_aliases (members : List (String × Json)) :
    (members.foldl (Threads.readProfile list) threads).aliases = threads.aliases := by
  induction members generalizing threads with
  | nil => rfl
  | cons member rest ih => exact ih.trans (readProfile_aliases threads member)

theorem Alive.foldl_readAlgorithm (alive : threads.Alive) (members : List (String × Json)) :
    (members.foldl Threads.readAlgorithm threads).Alive := by
  induction members generalizing threads with
  | nil => exact alive
  | cons member rest ih => exact ih (alive.readAlgorithm member)

theorem Alive.read (unaliased : threads.aliases.entries = []) (members : List (String × Json)) :
    (threads.read list members).Alive := by
  have alive : (members.foldl (Threads.readProfile list) threads).Alive := by
    intro entry member
    rw [foldl_readProfile_aliases, unaliased] at member
    cases member
  exact alive.foldl_readAlgorithm members

end Read

/-! ### Reading back -/

section Reread
variable {T : Type} {list : ThreadList T} {threads : Threads T}

/-- What was saved as it is read: an algorithm whose alias names no profile is off. -/
def reread (threads : Threads T) : Threads T where
  profiles := threads.profiles
  aliases := threads.aliases.filter fun entry => threads.has entry.2
  disabled := threads.disabled.insertAll
    ((threads.aliases.entries.filter fun entry => !threads.has entry.2).map fun entry => (entry.1, ()))

/-- A member that is neither a profile nor about an algorithm. -/
def Plain (member : String × Json) : Prop :=
  (member.2.isArray || member.2.isObject) = false ∧
    (Algorithm.parse (some (Json.cString (text member.1)))).isValid = false

theorem foldl_readProfile_skip {members : List (String × Json)}
    (none : ∀ member ∈ members, (member.2.isArray || member.2.isObject) = false) :
    members.foldl (readProfile list) threads = threads := by
  induction members with
  | nil => rfl
  | cons member rest ih =>
    have same : threads.readProfile list member = threads := by
      unfold readProfile
      rw [none member List.mem_cons_self, if_neg Bool.false_ne_true]
    rw [List.foldl_cons, same, ih fun member there => none member (List.mem_cons_of_mem _ there)]

theorem foldl_readAlgorithm_skip {members : List (String × Json)}
    (none : ∀ member ∈ members, (member.2.isArray || member.2.isObject) = true ∨
      (Algorithm.parse (some (Json.cString (text member.1)))).isValid = false) :
    members.foldl readAlgorithm threads = threads := by
  induction members with
  | nil => rfl
  | cons member rest ih =>
    have same : threads.readAlgorithm member = threads := by
      unfold readAlgorithm
      rcases none member List.mem_cons_self with list | invalid
      · rw [if_pos list]
      · dsimp only
        rw [invalid, Bool.not_false, if_pos rfl, ite_self]
    rw [List.foldl_cons, same, ih fun member there => none member (List.mem_cons_of_mem _ there)]

theorem foldl_readProfile_entries (rereads : Rereads list) {entries : List (List Byte × T)}
    (kept : ∀ entry ∈ entries, (0 : Byte) ∉ entry.1 ∧
      list.ofJson (list.toJSON entry.2) = entry.2 ∧ list.isEmpty entry.2 = false) :
    (entries.map fun entry => (memberName entry.1, list.toJSON entry.2)).foldl (readProfile list) threads =
      { threads with profiles := threads.profiles.insertAll entries } := by
  induction entries generalizing threads with
  | nil => rfl
  | cons entry rest ih =>
    obtain ⟨whole, again, nonempty⟩ := kept entry List.mem_cons_self
    have step : threads.readProfile list (memberName entry.1, list.toJSON entry.2) =
        { threads with profiles := threads.profiles.insert entry.1 entry.2 } := by
      unfold readProfile
      rw [if_pos (rereads.shape entry.2)]
      dsimp only
      rw [again, nonempty, if_neg Bool.false_ne_true, text_memberName, Json.cString_eq_self whole]
      unfold move
      cases there : threads.has entry.1 with
      | true => rw [if_pos rfl, OrderedMap.insert_of_has _ there]
      | false => rw [if_neg Bool.false_ne_true, nonempty, if_neg Bool.false_ne_true]
    rw [List.map_cons, List.foldl_cons, step,
      ih fun entry member => kept entry (List.mem_cons_of_mem _ member)]
    rfl

theorem readAlgorithm_off {algo : Algorithm} (listed : algo.Listed) :
    threads.readAlgorithm (algo.name, .bool false) = threads.disable algo := by
  unfold readAlgorithm
  dsimp only
  rw [listed.2, listed.1]
  rfl

theorem readAlgorithm_alias {algo : Algorithm} (listed : algo.Listed) {profile : List Byte}
    (whole : (0 : Byte) ∉ profile) :
    threads.readAlgorithm (algo.name, .str profile) =
      if threads.has profile then { threads with aliases := threads.aliases.insert algo profile }
      else threads.disable algo := by
  unfold readAlgorithm
  dsimp only
  rw [listed.2, listed.1, Json.cString_eq_self whole]
  rfl

theorem foldl_readAlgorithm_disabled {entries : List (Algorithm × Unit)}
    (listed : ∀ entry ∈ entries, entry.1.Listed) :
    (entries.map fun entry => (entry.1.name, Json.bool false)).foldl readAlgorithm threads =
      { threads with disabled := threads.disabled.insertAll entries } := by
  induction entries generalizing threads with
  | nil => rfl
  | cons entry rest ih =>
    rw [List.map_cons, List.foldl_cons, readAlgorithm_off (listed entry List.mem_cons_self)]
    exact ih fun entry member => listed entry (List.mem_cons_of_mem _ member)

theorem foldl_readAlgorithm_aliases {entries : List (Algorithm × List Byte)}
    (listed : ∀ entry ∈ entries, entry.1.Listed ∧ (0 : Byte) ∉ entry.2) :
    (entries.map fun entry => (entry.1.name, Json.str entry.2)).foldl readAlgorithm threads =
      { threads with
        aliases := threads.aliases.insertAll (entries.filter fun entry => threads.has entry.2)
        disabled := threads.disabled.insertAll
          ((entries.filter fun entry => !threads.has entry.2).map fun entry => (entry.1, ())) } := by
  induction entries generalizing threads with
  | nil => rfl
  | cons entry rest ih =>
    have later := fun entry member => listed entry (List.mem_cons_of_mem _ member)
    obtain ⟨name, whole⟩ := listed entry List.mem_cons_self
    rw [List.map_cons, List.foldl_cons, readAlgorithm_alias name whole, List.filter_cons, List.filter_cons]
    cases there : threads.has entry.2 with
    | true =>
      rw [if_pos rfl, if_pos rfl, Bool.not_true, if_neg Bool.false_ne_true, ih later]
      rfl
    | false =>
      rw [if_neg Bool.false_ne_true, if_neg Bool.false_ne_true, Bool.not_false, if_pos rfl, ih later]
      rfl

theorem read_toJSON (rereads : Rereads list) (kept : Kept list threads) {options : List (String × Json)}
    (plain : ∀ member ∈ options, Plain member) :
    Threads.read list {} (options ++ threads.toJSON list) = threads.reread := by
  have profiles : (options ++ threads.toJSON list).foldl (readProfile list) {} =
      { profiles := threads.profiles } := by
    unfold toJSON
    rw [List.foldl_append, foldl_readProfile_skip fun member there => (plain member there).1,
      List.foldl_append, List.foldl_append, foldl_readProfile_entries rereads kept.profiles,
      OrderedMap.insertAll_entries, foldl_readProfile_skip, foldl_readProfile_skip]
    · intro member there
      obtain ⟨entry, -, rfl⟩ := List.mem_map.mp there
      rfl
    · intro member there
      obtain ⟨entry, -, rfl⟩ := List.mem_map.mp there
      rfl
  have lists : ∀ member ∈ threads.profiles.entries.map fun entry => (memberName entry.1, list.toJSON entry.2),
      (member.2.isArray || member.2.isObject) = true ∨
        (Algorithm.parse (some (Json.cString (text member.1)))).isValid = false := by
    intro member there
    obtain ⟨entry, -, rfl⟩ := List.mem_map.mp there
    exact .inl (rereads.shape entry.2)
  unfold Threads.read
  rw [profiles]
  unfold toJSON
  rw [List.foldl_append, foldl_readAlgorithm_skip fun member there => .inr (plain member there).2,
    List.foldl_append, List.foldl_append, foldl_readAlgorithm_skip lists,
    foldl_readAlgorithm_disabled kept.disabled, OrderedMap.insertAll_entries,
    foldl_readAlgorithm_aliases kept.aliases]
  unfold reread
  congr 1
  apply OrderedMap.ext
  exact OrderedMap.insertAll_sorted (threads.aliases.sorted.filter _)

/-- Everything that was there still is, as a profile, an alias or a disabled algorithm. -/
structure Grows (threads later : Threads T) : Prop where
  exist : ∀ algo, threads.isExist algo = true → later.isExist algo = true
  has : ∀ profile, threads.has profile = true → later.has profile = true

theorem Grows.refl (threads : Threads T) : Grows threads threads := ⟨fun _ => id, fun _ => id⟩

theorem Grows.trans {first second third : Threads T} (one : Grows first second) (two : Grows second third) :
    Grows first third :=
  ⟨fun algo there => two.exist algo (one.exist algo there),
    fun profile there => two.has profile (one.has profile there)⟩

theorem isExist_iff {algo : Algorithm} : threads.isExist algo = true ↔
    threads.isDisabled algo = true ∨ threads.aliases.has algo = true ∨ threads.has (text algo.name) = true := by
  unfold isExist
  rw [Bool.or_eq_true, Bool.or_eq_true, or_assoc]

theorem reread_isDisabled {algo : Algorithm} : threads.reread.isDisabled algo = true ↔
    threads.isDisabled algo = true ∨
      ∃ profile, (algo, profile) ∈ threads.aliases.entries ∧ threads.has profile = false := by
  unfold isDisabled reread
  rw [OrderedMap.has_insertAll _ algorithmOrder_total]
  apply or_congr Iff.rfl
  constructor
  · rintro ⟨_, member⟩
    obtain ⟨⟨_, profile⟩, filtered, same⟩ := List.mem_map.mp member
    cases same
    obtain ⟨there, missing⟩ := List.mem_filter.mp filtered
    rw [Bool.not_eq_true'] at missing
    exact ⟨profile, there, missing⟩
  · rintro ⟨profile, there, missing⟩
    refine ⟨(), List.mem_map.mpr ⟨(algo, profile), List.mem_filter.mpr ⟨there, ?_⟩, rfl⟩⟩
    dsimp only
    rw [missing]
    rfl

theorem reread_alias {algo : Algorithm} {profile : List Byte} :
    (algo, profile) ∈ threads.reread.aliases.entries ↔
      (algo, profile) ∈ threads.aliases.entries ∧ threads.has profile = true :=
  List.mem_filter

theorem grows_reread (threads : Threads T) : Grows threads threads.reread := by
  refine ⟨fun algo there => ?_, fun _ => id⟩
  rw [isExist_iff] at there ⊢
  rcases there with off | aliased | profile
  · exact .inl (reread_isDisabled.mpr (.inl off))
  · obtain ⟨profile, member⟩ := (OrderedMap.has_iff_mem _ algorithmOrder_total).mp aliased
    cases found : threads.has profile with
    | true =>
      exact .inr (.inl ((OrderedMap.has_iff_mem _ algorithmOrder_total).mpr
        ⟨profile, reread_alias.mpr ⟨member, found⟩⟩))
    | false => exact .inl (reread_isDisabled.mpr (.inr ⟨profile, member, found⟩))
  · exact .inr (.inr profile)

/-- Saving loses nothing exactly where there is a profile for every alias. -/
theorem reread_eq_iff : (threads.reread.aliases = threads.aliases ∧ threads.reread.disabled = threads.disabled) ↔
    threads.Alive := by
  constructor
  · rintro ⟨same, -⟩ entry member
    rw [← same] at member
    exact (reread_alias.mp member).2
  · intro alive
    have all : threads.aliases.entries.filter (fun entry => threads.has entry.2) = threads.aliases.entries :=
      List.filter_eq_self.mpr alive
    have none : threads.aliases.entries.filter (fun entry => !threads.has entry.2) = [] := by
      apply List.filter_eq_nil_iff.mpr
      intro entry member
      rw [alive entry member]
      exact Bool.false_ne_true
    constructor
    · exact OrderedMap.ext all
    · unfold reread
      rw [none]
      rfl

theorem find_of_missing {profile : List Byte} (missing : threads.has profile = false) :
    threads.profiles.find profile = none := (OrderedMap.find_eq_none_iff _).mpr missing

theorem get_reread (list : ThreadList T) (algo : Algorithm) (strict : Bool)
    (unnamed : ∀ profile, (algo, profile) ∈ threads.aliases.entries → threads.has profile = false →
      threads.has (text algo.name) = false) :
    threads.reread.get list algo strict = threads.get list algo strict := by
  cases off : threads.isDisabled algo with
  | true =>
    have still : threads.reread.isDisabled algo = true := reread_isDisabled.mpr (.inl off)
    unfold get profileName
    rw [off, still]
    rfl
  | false =>
    by_cases lost : ∃ profile, (algo, profile) ∈ threads.aliases.entries ∧ threads.has profile = false
    · obtain ⟨profile, member, missing⟩ := lost
      have now : threads.reread.isDisabled algo = true := reread_isDisabled.mpr (.inr ⟨profile, member, missing⟩)
      have before : threads.profileName algo strict = some profile := by
        unfold profileName
        dsimp only
        rw [off, unnamed profile member missing, threads.aliases.find_of_mem algorithmOrder_total member]
        rfl
      have after : threads.reread.profileName algo strict = none := by
        unfold profileName
        rw [now]
        rfl
      unfold get
      rw [before, after]
      unfold getProfile
      rw [Option.bind_some, find_of_missing missing]
      rfl
    · have now : threads.reread.isDisabled algo = false := by
        rw [← Bool.not_eq_true, reread_isDisabled]
        rintro (still | found)
        · rw [off] at still
          cases still
        · exact lost found
      have same : threads.reread.aliases.find algo = threads.aliases.find algo := by
        apply Option.ext
        intro profile
        rw [OrderedMap.find_eq_some_iff _ algorithmOrder_total,
          OrderedMap.find_eq_some_iff _ algorithmOrder_total, reread_alias]
        constructor
        · exact And.left
        · intro member
          refine ⟨member, ?_⟩
          rw [← Bool.not_eq_false]
          exact fun missing => lost ⟨profile, member, missing⟩
      have named : threads.reread.profileName algo strict = threads.profileName algo strict := by
        unfold profileName
        rw [now, off, same]
        rfl
      unfold get
      rw [named]
      rfl

end Reread

end Threads

end Xmrig
