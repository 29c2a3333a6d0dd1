import Xmrig.Backend.CpuThreads
import Xmrig.CryptonightR.Compiler

/-! The configuration of the processor: its options, the profiles in it and those generated.

A machine is what it suggests for an algorithm and a limit in percent.
-/

set_option autoImplicit false

namespace Xmrig.Profiles

open Foundation
open CryptonightR (Assembly)

/-! ### What a machine suggests -/

/-- `Cpu::info()->threads`. The threads that it suggests are those of some processing units, and
the limit takes some of them away but never all. -/
structure CpuInfo where
  threads : Algorithm → Nat → CpuThreads
  listed : ∀ algorithm limit, (threads algorithm limit).format = .array ∧ (threads algorithm limit).affinity = -1
  bounded : ∀ algorithm limit, ∀ thread ∈ (threads algorithm limit).data,
    thread.intensity ≤ 8 ∧ -2 ^ 31 ≤ thread.affinity ∧ thread.affinity < 2 ^ 31
  limited : ∀ algorithm first second,
    (threads algorithm first).data = [] ↔ (threads algorithm second).data = []

def cpuThreadList (union : Json → BitVec 32) : ThreadList CpuThreads where
  ofJson := CpuThreads.read union
  toJSON := CpuThreads.toJSON
  count := CpuThreads.count
  empty := {}

/-- `BasicCpuInfo::threads`, of a machine with so many hardware threads. -/
def basicThreads (count : Nat) (algorithm : Algorithm) : CpuThreads :=
  if count = 1 then .ofCount 1 0
  else if algorithm.family = 0x63140000 then .ofCount count 1
  else if algorithm.family = 0x63120000 then .ofCount count 2
  else if algorithm.family = 0x63110000 then .ofCount count 2
  else if algorithm.family = Algorithm.cnHeavy then .ofCount (max (count / 4) 1) 1
  else if algorithm.family = Algorithm.randomX then
    if algorithm = .rxWow then .ofCount count 0 else .ofCount (max (count / 2) 1) 0
  else if algorithm.family = 0x61000000 then .ofCount count 0
  else if algorithm.family = Algorithm.ghostrider then .ofCount (max (count / 2) 1) 8
  else .ofCount (max (count / 2) 1) 1

theorem basicThreads_eq (count : Nat) (algorithm : Algorithm) :
    ∃ number intensity, intensity ≤ 8 ∧ basicThreads count algorithm = .ofCount number intensity := by
  unfold basicThreads
  split_ifs
  all_goals exact ⟨_, _, by decide, rfl⟩

def basicCpuInfo (count : Nat) : CpuInfo where
  threads algorithm _ := basicThreads count algorithm
  listed algorithm _ := by
    obtain ⟨number, intensity, -, same⟩ := basicThreads_eq count algorithm
    rw [same]
    exact ⟨rfl, rfl⟩
  bounded algorithm _ thread member := by
    obtain ⟨number, intensity, few, same⟩ := basicThreads_eq count algorithm
    rw [same] at member
    cases List.eq_of_mem_replicate member
    exact ⟨few, (by decide : (-2 ^ 31 : Int) ≤ -1), (by decide : (-1 : Int) < 2 ^ 31)⟩
  limited _ _ _ := Iff.rfl

/-! ### Generated profiles -/

section Generate
variable (cpu : CpuInfo) (list : ThreadList CpuThreads) (limit : Nat)

/-- The profiles and how many threads were added to them. -/
abbrev Generation := Threads CpuThreads × Nat

def generateKey (key : String) (threads : Threads CpuThreads) (algorithm : Algorithm) : Generation :=
  if threads.isExist algorithm || threads.has (text key) then (threads, 0)
  else threads.move list (text key) (cpu.threads algorithm limit)

/-- A family whose first algorithm is off unless it was asked for. -/
def generateFirstOff (key : String) (algorithm first : Algorithm) (threads : Threads CpuThreads) :
    Generation :=
  let (threads, count) := generateKey cpu list limit key threads algorithm
  if !threads.isExist first then (threads.disable first, count + 1) else (threads, count)

def generateCN : Threads CpuThreads → Generation := generateFirstOff cpu list limit "cn" .cn1 .cn0

def generateCNLite : Threads CpuThreads → Generation :=
  generateFirstOff cpu list limit "cn-lite" .cnLite1 .cnLite0

def generateCNHeavy (threads : Threads CpuThreads) : Generation :=
  generateKey cpu list limit "cn-heavy" threads .cnHeavy0

def generateCNPico (threads : Threads CpuThreads) : Generation :=
  generateKey cpu list limit "cn-pico" threads .cnPico0

def generateCNFemto (threads : Threads CpuThreads) : Generation :=
  generateKey cpu list limit "cn/upx2" threads .cnUpx2

/-- The part of `generate<RANDOM_X>` about `rx/arq`. -/
def generateArq (threads : Threads CpuThreads) : Generation :=
  let wow := cpu.threads .rxWow limit
  if !threads.isExist .rxArq then
    let arq := cpu.threads .rxArq limit
    if arq.isEqual wow then (threads.setAlias .rxArq (text Algorithm.rxWow.name), 1)
    else threads.move list (text Algorithm.rxArq.name) arq
  else (threads, 0)

def generateWow (threads : Threads CpuThreads) : Generation :=
  if !threads.isExist .rxWow then
    threads.move list (text Algorithm.rxWow.name) (cpu.threads .rxWow limit)
  else (threads, 0)

def generateRx (threads : Threads CpuThreads) : Generation :=
  generateKey cpu list limit "rx" threads .rx0

def generateArgon2 (threads : Threads CpuThreads) : Generation :=
  generateKey cpu list limit "argon2" threads .ar2ChukwaV2

def generateGhostRider (threads : Threads CpuThreads) : Generation :=
  generateKey cpu list limit "ghostrider" threads .ghostriderRtm

/-- One generator after the other; `generate<RANDOM_X>` is three of them. -/
def generators : List (Nat → Threads CpuThreads → Generation) :=
  [generateCN cpu list, generateCNLite cpu list, generateCNHeavy cpu list, generateCNPico cpu list,
    generateCNFemto cpu list, generateArq cpu list, generateWow cpu list, generateRx cpu list,
    generateArgon2 cpu list, generateGhostRider cpu list]

def generateWith (generation : Generation) (generator : Nat → Threads CpuThreads → Generation) : Generation :=
  let (threads, count) := generator limit generation.1
  (threads, generation.2 + count)

def generateAll (threads : Threads CpuThreads) : Generation :=
  (generators cpu list).foldl (generateWith limit) (threads, 0)

end Generate

/-! ### The configuration -/

inductive AesMode where
  | auto
  | hw
  | soft
  deriving DecidableEq, Repr

def asmNames : List (String × Assembly) :=
  [("none", .none), ("auto", .auto), ("intel", .intel), ("ryzen", .ryzen), ("bulldozer", .bulldozer)]

def parseAssembly (value : Json) (defaultValue : Assembly) : Assembly :=
  match value.asBool with
  | some on => if on then .auto else .none
  | none =>
    match value.asString with
    | some chars =>
      ((asmNames.find? fun entry => sameName chars (text entry.1)).map Prod.snd).getD defaultValue
    | none => defaultValue

def assemblyToJSON (assembly : Assembly) : Json :=
  match assembly with
  | .none => .bool false
  | .auto => .bool true
  | other => .str (text (((asmNames.find? fun entry => entry.2 = other).map Prod.fst).getD ""))

structure CpuConfig where
  aes : AesMode := .auto
  assembly : Assembly := .auto
  enabled : Bool := true
  hugePagesJit : Bool := false
  shouldSave : Bool := false
  yield : Bool := true
  memoryPool : Int := 0
  priority : Int := -1
  hugePageSize : Nat := 2048
  argon2Impl : Option (List Byte) := none
  threads : Threads CpuThreads := {}
  limit : Nat := 100

namespace CpuConfig

def kDefaultHugePageSizeKb : Nat := 2048
def kOneGbPageSizeKb : Nat := 1048576

variable (union : Json → BitVec 32) (cpu : CpuInfo) (config : CpuConfig)

def isHugePages : Bool := 0 < config.hugePageSize

def optionsToJSON : List (String × Json) :=
  [("enabled", Json.bool config.enabled),
    ("huge-pages",
      if config.hugePageSize = 0 ∨ config.hugePageSize = kDefaultHugePageSizeKb then
        .bool config.isHugePages
      else .int config.hugePageSize),
    ("huge-pages-jit", .bool config.hugePagesJit),
    ("hw-aes", if config.aes = .auto then .null else .bool (config.aes = .hw)),
    ("priority", if config.priority ≠ -1 then .int config.priority else .null),
    ("memory-pool",
      if config.memoryPool < 1 then .bool (config.memoryPool < 0) else .int config.memoryPool),
    ("yield", .bool config.yield)] ++
    (if config.threads.profiles.entries = [] then [("max-threads-hint", Json.int config.limit)] else []) ++
    [("asm", assemblyToJSON config.assembly), ("argon2-impl", (config.argon2Impl.map Json.str).getD .null)]

def toJSON : Json := .obj (config.optionsToJSON ++ config.threads.toJSON (cpuThreadList union))

def setAesMode (value : Json) : CpuConfig :=
  match value.asBool with
  | some on => { config with aes := if on then .hw else .soft }
  | none => { config with aes := .auto }

def setHugePages (value : Json) : CpuConfig :=
  match value.asBool with
  | some on => { config with hugePageSize := if on then kDefaultHugePageSizeKb else 0 }
  | none =>
    match value.asUint with
    | some size =>
      { config with hugePageSize := if size < kOneGbPageSizeKb then size else kDefaultHugePageSizeKb }
    | none => config

def setMemoryPool (value : Json) : CpuConfig :=
  match value.asBool with
  | some on => { config with memoryPool := if on then -1 else 0 }
  | none =>
    match value.asInt with
    | some size => { config with memoryPool := size }
    | none => config

def setPriority (priority : Int) : CpuConfig :=
  { config with priority := if -1 ≤ priority ∧ priority ≤ 5 then priority else -1 }

def generate : CpuConfig :=
  if !config.enabled || config.threads.has Threads.kAsterisk then config
  else
    let (threads, count) := generateAll cpu (cpuThreadList union) config.limit config.threads
    { config with threads, shouldSave := config.shouldSave || decide (0 < count) }

def readOptions (value : Json) : CpuConfig :=
  let config := { config with
    enabled := value.getBool "enabled" config.enabled
    hugePagesJit := value.getBool "huge-pages-jit" config.hugePagesJit
    limit := value.getUint "max-threads-hint" config.limit
    yield := value.getBool "yield" config.yield }
  let config := ((config.setAesMode (value.getValue "hw-aes")).setHugePages
    (value.getValue "huge-pages")).setMemoryPool (value.getValue "memory-pool")
  { config.setPriority (value.getInt "priority" (-1)) with
    assembly := parseAssembly (value.getValue "asm") .auto
    argon2Impl := value.getString "argon2-impl" }

def readGiven (value : Json) : CpuConfig :=
  match value with
  | .obj members =>
    let options := config.readOptions value
    { options with threads := options.threads.read (cpuThreadList union) members }
  | .bool enabled => { config with enabled }
  | _ => config

def read (value : Json) : CpuConfig := (config.readGiven union value).generate union cpu

end CpuConfig

end Xmrig.Profiles
