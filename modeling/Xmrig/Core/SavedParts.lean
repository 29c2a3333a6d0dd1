import Xmrig.Backend.CpuGenerated
import Xmrig.Core.BenchConfig
import Xmrig.RandomX.RxConfig

/-! The parts of the configuration for the processor, RandomX and benchmarks.

Whether such a part comes back from its JSON depends on the document that it was read from. The
processor keeps no limit beside a profile and no size of a memory pool below −1.
-/

set_option autoImplicit false

namespace Xmrig

namespace RxConfig
variable (platform : RxPlatform)

def codec : Codec RxConfig where
  fresh := fresh platform
  read value config := (read platform config value).2
  toJSON := toJSON platform

theorem read_empty : (read platform (fresh platform) (.obj [])).2 = fresh platform := by
  obtain ⟨msr, hwloc, linux, intel, long, wide⟩ := platform
  cases msr <;> cases hwloc <;> cases linux <;> rfl

/-- What is no object is read as nothing, like an empty object. -/
theorem codec_stable_iff (value : Json) :
    (codec platform).Stable ((codec platform).read value (codec platform).fresh) ↔
      (platform.msr = true → ∀ entry ∈ entries value, ¬ (MsrItem.ofJson platform.long entry).Cut) := by
  have empty := read_saved_iff platform []
  rw [read_empty] at empty
  cases value with
  | obj members => exact read_saved_iff platform members
  | _ => exact empty

end RxConfig

namespace Profiles.CpuConfig
variable {union : Json → BitVec 32} {cpu : CpuInfo}

/-- What a configuration that was read is like, but for its threads. -/
structure Readable (config : CpuConfig) : Prop where
  pages : config.hugePageSize < kOneGbPageSizeKb
  priority : -1 ≤ config.priority ∧ config.priority ≤ 5
  pool : config.memoryPool < 2147483648
  limit : config.limit < 4294967296
  argon2 : Pool.Terminated config.argon2Impl

theorem readable_fresh : Readable {} where
  pages := by decide
  priority := by decide
  pool := by decide
  limit := by decide
  argon2 := nofun

theorem setHugePages_small {config : CpuConfig} (small : config.hugePageSize < kOneGbPageSizeKb) (value : Json) :
    (config.setHugePages value).hugePageSize < kOneGbPageSizeKb := by
  have default : kDefaultHugePageSizeKb < kOneGbPageSizeKb := by decide
  unfold setHugePages
  split
  · dsimp only
    split
    · exact default
    · exact Nat.zero_lt_of_lt default
  · split
    · dsimp only
      split
      · assumption
      · exact default
    · exact small

theorem setMemoryPool_small {config : CpuConfig} (small : config.memoryPool < 2147483648) (value : Json) :
    (config.setMemoryPool value).memoryPool < 2147483648 := by
  unfold setMemoryPool
  split
  · dsimp only
    split <;> decide
  · split
    · rename_i size read
      have range := (Json.asInteger_inside read).2
      dsimp only
      omega
    · exact small

/-- The options that each setter leaves alone. -/
theorem readOptions_eq (config : CpuConfig) (value : Json) : config.readOptions value =
    { config with
      aes := (config.setAesMode (value.getValue "hw-aes")).aes
      assembly := parseAssembly (value.getValue "asm") .auto
      enabled := value.getBool "enabled" config.enabled
      hugePagesJit := value.getBool "huge-pages-jit" config.hugePagesJit
      yield := value.getBool "yield" config.yield
      memoryPool := (config.setMemoryPool (value.getValue "memory-pool")).memoryPool
      priority := (config.setPriority (value.getInt "priority" (-1))).priority
      hugePageSize := (config.setHugePages (value.getValue "huge-pages")).hugePageSize
      argon2Impl := value.getString "argon2-impl"
      limit := value.getUint "max-threads-hint" config.limit } := by
  unfold readOptions setPriority setMemoryPool setHugePages setAesMode
  dsimp only
  split <;> split <;> split <;> first | rfl | (split <;> first | rfl | (split <;> rfl))

theorem readable_readOptions (value : Json) : (({} : CpuConfig).readOptions value).Readable := by
  rw [readOptions_eq]
  refine ⟨setHugePages_small readable_fresh.pages _, ?_, setMemoryPool_small readable_fresh.pool _, ?_,
    Pool.terminated_getString value _⟩
  · unfold setPriority
    dsimp only
    split
    · assumption
    · decide
  · dsimp only
    unfold Json.getUint
    cases found : (value.findMember "max-threads-hint").bind Json.asUint with
    | none => decide
    | some number =>
      obtain ⟨json, -, read⟩ := Option.bind_eq_some_iff.mp found
      obtain ⟨integer, inside, rfl⟩ := Option.map_eq_some_iff.mp read
      have range := Json.asInteger_inside inside
      rw [Option.getD_some]
      omega

theorem generate_options (config : CpuConfig) :
    ∃ threads shouldSave, config.generate union cpu = { config with threads, shouldSave } := by
  unfold generate
  split
  · exact ⟨config.threads, config.shouldSave, rfl⟩
  · exact ⟨_, _, rfl⟩

theorem readable_read (value : Json) : (({} : CpuConfig).read union cpu value).Readable := by
  obtain ⟨threads, shouldSave, same⟩ := @generate_options union cpu (({} : CpuConfig).readGiven union value)
  have given : (({} : CpuConfig).readGiven union value).Readable := by
    cases value with
    | obj members =>
      obtain ⟨pages, priority, pool, limit, argon2⟩ := readable_readOptions (.obj members)
      exact ⟨pages, priority, pool, limit, argon2⟩
    | bool enabled =>
      obtain ⟨pages, priority, pool, limit, argon2⟩ := readable_fresh
      exact ⟨pages, priority, pool, limit, argon2⟩
    | _ => exact readable_fresh
  rw [read, same]
  obtain ⟨pages, priority, pool, limit, argon2⟩ := given
  exact ⟨pages, priority, pool, limit, argon2⟩

/-! The options as they are read from what is written. -/

theorem parseAssembly_toJSON (assembly : CryptonightR.Assembly) :
    parseAssembly (assemblyToJSON assembly) .auto = assembly := by
  cases assembly <;> decide

theorem setAesMode_written (config other : CpuConfig) :
    (other.setAesMode (if config.aes = .auto then .null else .bool (config.aes = .hw))).aes = config.aes := by
  cases mode : config.aes <;> rfl

theorem setHugePages_of_uint {config : CpuConfig} {value : Json} {size : Nat} (noBool : value.asBool = none)
    (uint : value.asUint = some size) :
    (config.setHugePages value).hugePageSize = if size < kOneGbPageSizeKb then size else kDefaultHugePageSizeKb := by
  unfold setHugePages
  rw [noBool, uint]

theorem setMemoryPool_of_int {config : CpuConfig} {value : Json} {size : Int} (noBool : value.asBool = none)
    (int : value.asInt = some size) : (config.setMemoryPool value).memoryPool = size := by
  unfold setMemoryPool
  rw [noBool, int]

theorem setHugePages_written {config : CpuConfig} (readable : config.Readable) (other : CpuConfig) :
    (other.setHugePages (if config.hugePageSize = 0 ∨ config.hugePageSize = kDefaultHugePageSizeKb then
      .bool config.isHugePages else .int config.hugePageSize)).hugePageSize = config.hugePageSize := by
  split
  · rename_i default
    rcases default with none | default
    · have off : config.isHugePages = false := by
        rw [isHugePages, none]
        rfl
      rw [off, none]
      rfl
    · have on : config.isHugePages = true := by
        rw [isHugePages, default]
        rfl
      rw [on, default]
      rfl
  · have small := readable.pages
    have size : (Json.int config.hugePageSize).asUint = some config.hugePageSize := by
      apply Config.asUint_natCast
      rw [show kOneGbPageSizeKb = 1048576 from rfl] at small
      omega
    rw [setHugePages_of_uint rfl size, if_pos small]

theorem setMemoryPool_written {config : CpuConfig} (readable : config.Readable) (other : CpuConfig) :
    (other.setMemoryPool (if config.memoryPool < 1 then .bool (config.memoryPool < 0) else .int config.memoryPool)).memoryPool =
      max config.memoryPool (-1) := by
  split
  · rename_i few
    -- No number below 1 is written: 0 becomes `false`, and `true` is read as −1.
    rw [setMemoryPool]
    dsimp only [Json.asBool]
    split
    · rename_i below
      have negative := of_decide_eq_true below
      omega
    · rename_i above
      have positive := of_decide_eq_false (Bool.eq_false_of_not_eq_true above)
      omega
  · have below := readable.pool
    have size : (Json.int config.memoryPool).asInt = some config.memoryPool :=
      RxConfig.asInt_int ⟨by omega, by omega⟩
    rw [setMemoryPool_of_int rfl size]
    omega

theorem setPriority_written {config : CpuConfig} (readable : config.Readable) (other : CpuConfig) {document : Json}
    (found : document.findMember "priority" = some (if config.priority ≠ -1 then .int config.priority else .null)) :
    (other.setPriority (document.getInt "priority" (-1))).priority = config.priority := by
  have read : document.getInt "priority" (-1) = config.priority := by
    rw [Json.getInt, found, Option.bind_some]
    split
    · have range := readable.priority
      rw [RxConfig.asInt_int ⟨by omega, by omega⟩]
      rfl
    · rename_i default
      rw [not_not.mp default]
      rfl
  rw [read, setPriority]
  exact if_pos readable.priority

/-- No member that the threads write is a number. -/
theorem threads_noUint {threads : Threads CpuThreads} {key : String} :
    ((threads.toJSON (cpuThreadList union)).lookup key).bind Json.asUint = none := by
  cases found : (threads.toJSON (cpuThreadList union)).lookup key with
  | none => rfl
  | some value =>
    obtain ⟨entry, member, same⟩ : ∃ entry ∈ threads.toJSON (cpuThreadList union), entry.2 = value := by
      obtain ⟨before, after, split, -⟩ := List.lookup_eq_some_iff.mp found
      exact ⟨(key, value), by rw [split]; simp, rfl⟩
    rw [Option.bind_some, ← same]
    simp only [Threads.toJSON, List.mem_append, List.mem_map] at member
    -- A profile is written as a list or an object, `false` or the name of an alias otherwise.
    rcases member with (⟨profile, -, rfl⟩ | ⟨off, -, rfl⟩) | ⟨other, -, rfl⟩
    · have shape := (@cpuThreadList_rereads union).shape profile.2
      cases kind : (cpuThreadList union).toJSON profile.2 with
      | int number =>
        rw [kind] at shape
        cases shape
      | _ => rfl
    · rfl
    · rfl

theorem readOptions_written {config : CpuConfig} (readable : config.Readable) :
    ({} : CpuConfig).readOptions (config.toJSON union) =
      { config with
        memoryPool := max config.memoryPool (-1)
        limit := if config.threads.profiles.entries = [] then config.limit else 100
        threads := {}
        shouldSave := false } := by
  have assembly : (config.toJSON union).getValue "asm" = assemblyToJSON config.assembly := by
    rw [toJSON, optionsToJSON]
    by_cases none : config.threads.profiles.entries = []
    · rw [if_pos none]
      rfl
    · rw [if_neg none]
      rfl
  have argon2 : (config.toJSON union).getString "argon2-impl" = config.argon2Impl := by
    have found : (config.toJSON union).findMember "argon2-impl" = some (stringJSON config.argon2Impl) := by
      have value : (config.argon2Impl.map Json.str).getD .null = stringJSON config.argon2Impl := by
        cases config.argon2Impl <;> rfl
      rw [toJSON, optionsToJSON, value]
      by_cases none : config.threads.profiles.entries = []
      · rw [if_pos none]
        rfl
      · rw [if_neg none]
        rfl
    exact Config.getString_of_find found readable.argon2
  -- Beside a profile the limit is not written, and its default is read.
  have limit : (config.toJSON union).getUint "max-threads-hint" 100 =
      if config.threads.profiles.entries = [] then config.limit else 100 := by
    by_cases none : config.threads.profiles.entries = []
    · have found : (config.toJSON union).findMember "max-threads-hint" = some (.int config.limit) := by
        rw [toJSON, optionsToJSON, if_pos none]
        rfl
      have small := readable.limit
      rw [if_pos none, Json.getUint, found, Option.bind_some, Config.asUint_natCast (by omega)]
      rfl
    · have found : (config.toJSON union).findMember "max-threads-hint" =
          (config.threads.toJSON (cpuThreadList union)).lookup "max-threads-hint" := by
        rw [toJSON, optionsToJSON, if_neg none]
        rfl
      rw [if_neg none, Json.getUint, found, threads_noUint]
      rfl
  have enabled : (config.toJSON union).getBool "enabled" true = config.enabled := Config.getBool_of_find rfl _
  have jit : (config.toJSON union).getBool "huge-pages-jit" false = config.hugePagesJit := Config.getBool_of_find rfl _
  have yield_ : (config.toJSON union).getBool "yield" true = config.yield := Config.getBool_of_find rfl _
  have aes := setAesMode_written config {}
  have pages := setHugePages_written readable {}
  have pool := setMemoryPool_written readable {}
  have priority := @setPriority_written config readable {} (config.toJSON union) rfl
  rw [readOptions_eq, assembly, parseAssembly_toJSON, argon2, limit, enabled, jit, yield_, priority]
  congr 1

/-- `shouldSave` is no setting. -/
def codec (union : Json → BitVec 32) (cpu : CpuInfo) : Codec CpuConfig where
  fresh := {}
  read value config := { config.read union cpu value with shouldSave := false }
  toJSON := toJSON union

theorem reread_iff (threads : Threads CpuThreads) : threads.reread = threads ↔ threads.Alive := by
  rw [← Threads.reread_eq_iff]
  constructor
  · intro same
    rw [same]
    exact ⟨rfl, rfl⟩
  · rintro ⟨aliases, disabled⟩
    have parts : threads.reread =
        { threads with aliases := threads.reread.aliases, disabled := threads.reread.disabled } := rfl
    rw [parts, aliases, disabled]

theorem codec_stable_iff (value : Json) :
    (codec union cpu).Stable ((codec union cpu).read value (codec union cpu).fresh) ↔
      ¬ GeneratesLost cpu (({} : CpuConfig).readGiven union value) ∧
        ((({} : CpuConfig).read union cpu value).threads.profiles.entries = [] ∨
          (({} : CpuConfig).read union cpu value).limit = 100) ∧
        -1 ≤ (({} : CpuConfig).read union cpu value).memoryPool := by
  unfold Codec.Stable codec
  dsimp only
  have readable := @readable_read union cpu value
  obtain ⟨threads, fresh⟩ := @read_toJSON union cpu value
  rw [← (@read_aliases union cpu value).alive, ← reread_iff]
  generalize ({} : CpuConfig).read union cpu value = config at readable threads fresh ⊢
  have again : ({} : CpuConfig).read union cpu (config.toJSON union) =
      { config with
        memoryPool := max config.memoryPool (-1)
        limit := if config.threads.profiles.entries = [] then config.limit else 100
        threads := config.threads.reread
        shouldSave := false } := by
    obtain ⟨given, parts⟩ : ∃ given, ({} : CpuConfig).readGiven union (config.toJSON union) =
        { ({} : CpuConfig).readOptions (config.toJSON union) with threads := given } := ⟨_, rfl⟩
    rw [readOptions_written readable] at parts
    -- The options do not depend on the threads that are generated after them.
    obtain ⟨made, saved, same⟩ := @generate_options union cpu (({} : CpuConfig).readGiven union (config.toJSON union))
    rw [parts] at same
    have whole : ({} : CpuConfig).read union cpu (config.toJSON union) = _ :=
      (congrArg (fun given : CpuConfig => given.generate union cpu) parts).trans same
    rw [whole] at threads fresh ⊢
    dsimp only at threads fresh
    rw [threads, fresh]
  rw [show toJSON union { config with shouldSave := false } = toJSON union config from rfl, again]
  constructor
  · intro same
    have aliases := congrArg CpuConfig.threads same
    have limit := congrArg CpuConfig.limit same
    have pool := congrArg CpuConfig.memoryPool same
    dsimp only at aliases limit pool
    refine ⟨aliases, ?_, by omega⟩
    split at limit
    · exact .inl ‹_›
    · exact .inr limit.symm
  · rintro ⟨aliases, limit, pool⟩
    have written : (if config.threads.profiles.entries = [] then config.limit else 100) = config.limit := by
      split
      · rfl
      · rename_i profiles
        exact (limit.resolve_left profiles).symm
    rw [aliases, written, max_eq_left pool]

end Profiles.CpuConfig

namespace Config
variable (parts : ConfigParts) (platform : RxPlatform) (union : Json → BitVec 32) (cpu : Profiles.CpuInfo)

/-- The parts with the ones for benchmarks, RandomX and the processor. -/
def minerParts : ConfigParts :=
  { parts with
    bench := BenchConfig.codec
    Rx := RxConfig
    rx := RxConfig.codec platform
    Cpu := Profiles.CpuConfig
    cpu := Profiles.CpuConfig.codec union cpu }

/-- What these parts ask of a document. -/
structure PartsKept (document : Json) : Prop where
  randomx : platform.msr = true →
    ∀ entry ∈ RxConfig.entries (document.getValue "randomx"), ¬ (MsrItem.ofJson platform.long entry).Cut
  aliases : ¬ Profiles.CpuConfig.GeneratesLost cpu (({} : Profiles.CpuConfig).readGiven union (document.getValue "cpu"))
  limit : (({} : Profiles.CpuConfig).read union cpu (document.getValue "cpu")).threads.profiles.entries = [] ∨
    (({} : Profiles.CpuConfig).read union cpu (document.getValue "cpu")).limit = 100
  memoryPool : -1 ≤ (({} : Profiles.CpuConfig).read union cpu (document.getValue "cpu")).memoryPool
  rotation : (Pools.load ({} : Pools BenchConfig.codec) document).benchmark ≠ none →
    BenchConfig.rotationOf (document.getObject "benchmark") = 0

variable {parts platform union cpu} in
/-- A document whose settings are kept has nothing that one of these parts drops. -/
theorem kept_parts_iff (document : Json) :
    ((minerParts parts platform union cpu).rx.Stable
        ((minerParts parts platform union cpu).rx.read (document.getValue "randomx")
          (minerParts parts platform union cpu).rx.fresh) ∧
      (minerParts parts platform union cpu).cpu.Stable
        ((minerParts parts platform union cpu).cpu.read (document.getValue "cpu")
          (minerParts parts platform union cpu).cpu.fresh) ∧
      ∀ bench, (Pools.load ({} : Pools (minerParts parts platform union cpu).bench) document).benchmark = some bench →
        (minerParts parts platform union cpu).bench.create ((minerParts parts platform union cpu).bench.toJSON bench)
          (document.getBool "dmi" true) = some bench) ↔
      PartsKept platform union cpu document := by
  have rx := RxConfig.codec_stable_iff platform (document.getValue "randomx")
  have processor := @Profiles.CpuConfig.codec_stable_iff union cpu (document.getValue "cpu")
  constructor
  · rintro ⟨randomx, stable, benchmark⟩
    obtain ⟨aliases, limit, memoryPool⟩ := processor.mp stable
    refine ⟨rx.mp randomx, aliases, limit, memoryPool, fun listed => ?_⟩
    obtain ⟨bench, loaded⟩ := Option.ne_none_iff_exists'.mp listed
    exact (BenchConfig.create_toJSON_iff (Pools.create_of_load loaded)).mp (benchmark bench loaded)
  · rintro ⟨randomx, aliases, limit, memoryPool, rotation⟩
    refine ⟨rx.mpr randomx, processor.mpr ⟨aliases, limit, memoryPool⟩, fun bench loaded => ?_⟩
    exact (BenchConfig.create_toJSON_iff (Pools.create_of_load loaded)).mpr
      (rotation (Option.ne_none_iff_exists'.mpr ⟨bench, loaded⟩))

end Config

end Xmrig
