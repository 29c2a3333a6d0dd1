import Xmrig.Stratum.Pool

/-! The list of pools with its settings, and their JSON.

The configuration of a benchmark is left open: it stands in the place of the
list, with its own one pool.
-/

set_option autoImplicit false

namespace Xmrig

/-- `BenchConfig`: what makes one from an object and the switch for DMI, and what writes it. -/
structure BenchCodec where
  Bench : Type
  create : Json → Bool → Option Bench
  toJSON : Bench → Json
  create_null : ∀ dmi, create .null dmi = none
  object : ∀ bench, (toJSON bench).isObject = true

@[ext] structure Pools (codec : BenchCodec) where
  benchmark : Option codec.Bench := none
  data : List Pool := []
  donateLevel : Int := 0
  proxyDonate : Int := 1
  retries : Int := 5
  retryPause : Int := 5

namespace Pools
variable {codec : BenchCodec}

def proxyDonateAuto : Int := 1

def defaultDonateLevel : Int := 0

def minimumDonateLevel : Int := 0

def active (pools : Pools codec) : Nat :=
  if pools.benchmark.isSome then 1 else pools.data.countP Pool.enabled

def setDonateLevel (pools : Pools codec) (level : Int) : Pools codec :=
  if minimumDonateLevel ≤ level ∧ level ≤ 99 then { pools with donateLevel := level } else pools

/-- `PROXY_DONATE_NONE`, `PROXY_DONATE_AUTO` and `PROXY_DONATE_ALWAYS` are accepted. -/
def setProxyDonate (pools : Pools codec) (value : Int) : Pools codec :=
  if value = 0 ∨ value = 1 ∨ value = 2 then { pools with proxyDonate := value } else pools

def setRetries (pools : Pools codec) (retries : Int) : Pools codec :=
  if 0 < retries ∧ retries ≤ 1000 then { pools with retries } else pools

def setRetryPause (pools : Pools codec) (retryPause : Int) : Pools codec :=
  if 0 < retryPause ∧ retryPause ≤ 3600 then { pools with retryPause } else pools

/-- The pools of an array; elements that are no objects or no valid pools are left out. -/
def ofElements (elements : List Json) : List Pool :=
  ((elements.filter Json.isObject).map Pool.ofJSON).filter Pool.isValid

def loadSettings (pools : Pools codec) (reader : Json) : Pools codec :=
  (((pools.setDonateLevel (reader.getInt "donate-level" defaultDonateLevel)).setProxyDonate
    (reader.getInt "donate-over-proxy" proxyDonateAuto)).setRetries (reader.getInt "retries" 0)).setRetryPause
      (reader.getInt "retry-pause" 0)

def load (pools : Pools codec) (reader : Json) : Pools codec :=
  match codec.create (reader.getObject "benchmark") (reader.getBool "dmi" true) with
  | some benchmark => { pools with benchmark := some benchmark, data := [] }
  | none =>
    match reader.getArray "pools" with
    | .arr elements => loadSettings { pools with benchmark := none, data := ofElements elements } reader
    | _ => { pools with benchmark := none, data := [] }

def arrayJSON (pools : Pools codec) : Json := .arr (pools.data.map Pool.toJSON)

def members (pools : Pools codec) : List (String × Json) :=
  match pools.benchmark with
  | some benchmark => [("benchmark", codec.toJSON benchmark)]
  | none =>
    [("donate-level", .int pools.donateLevel), ("donate-over-proxy", .int pools.proxyDonate), ("pools", pools.arrayJSON),
      ("retries", .int pools.retries), ("retry-pause", .int pools.retryPause)]

/-! ## Reading back -/

/-- The settings are inside of their ranges, and the pools were read from JSON. -/
structure Readable (pools : Pools codec) : Prop where
  donateLevel : 0 ≤ pools.donateLevel ∧ pools.donateLevel ≤ 99
  proxyDonate : pools.proxyDonate = 0 ∨ pools.proxyDonate = 1 ∨ pools.proxyDonate = 2
  retries : 0 < pools.retries ∧ pools.retries ≤ 1000
  retryPause : 0 < pools.retryPause ∧ pools.retryPause ≤ 3600
  data : ∀ pool ∈ pools.data, pool.Readable

section Setters
variable {pools : Pools codec}

theorem Readable.setDonateLevel (readable : pools.Readable) (level : Int) : (pools.setDonateLevel level).Readable := by
  unfold Pools.setDonateLevel
  split
  · exact { readable with donateLevel := by assumption }
  · exact readable

theorem Readable.setProxyDonate (readable : pools.Readable) (value : Int) : (pools.setProxyDonate value).Readable := by
  unfold Pools.setProxyDonate
  split
  · exact { readable with proxyDonate := by assumption }
  · exact readable

theorem Readable.setRetries (readable : pools.Readable) (retries : Int) : (pools.setRetries retries).Readable := by
  unfold Pools.setRetries
  split
  · exact { readable with retries := by assumption }
  · exact readable

theorem Readable.setRetryPause (readable : pools.Readable) (pause : Int) : (pools.setRetryPause pause).Readable := by
  unfold Pools.setRetryPause
  split
  · exact { readable with retryPause := by assumption }
  · exact readable

theorem ofElements_readable (elements : List Json) : ∀ pool ∈ ofElements elements, pool.Readable := by
  intro pool member
  obtain ⟨made, valid⟩ := List.mem_filter.mp member
  obtain ⟨element, -, rfl⟩ := List.mem_map.mp made
  exact Pool.readable_ofJSON valid

theorem readable_of_data {benchmark : Option codec.Bench} {data : List Pool} (each : ∀ pool ∈ data, pool.Readable) :
    Readable { benchmark, data : Pools codec } := by
  refine ⟨?_, .inr (.inl rfl), ?_, ?_, each⟩
  all_goals
    dsimp only
    omega

theorem load_readable (reader : Json) : (load ({} : Pools codec) reader).Readable := by
  unfold load
  split
  · exact readable_of_data fun pool member => absurd member List.not_mem_nil
  · split
    · exact ((((readable_of_data (ofElements_readable _)).setDonateLevel _).setProxyDonate _).setRetries _).setRetryPause _
    · exact readable_of_data fun pool member => absurd member List.not_mem_nil

theorem loadSettings_benchmark (start : Pools codec) (reader : Json) :
    (loadSettings start reader).benchmark = start.benchmark := by
  unfold loadSettings setRetryPause setRetries setProxyDonate setDonateLevel
  repeat' split
  all_goals rfl

theorem create_of_load {reader : Json} {benchmark : codec.Bench}
    (found : (load ({} : Pools codec) reader).benchmark = some benchmark) :
    codec.create (reader.getObject "benchmark") (reader.getBool "dmi" true) = some benchmark := by
  cases made : codec.create (reader.getObject "benchmark") (reader.getBool "dmi" true) with
  | some other =>
    simp only [load, made] at found
    exact found
  | none =>
    simp only [load, made] at found
    split at found
    · rw [loadSettings_benchmark] at found
      cases found
    · cases found

theorem load_benchmark {reader : Json} {benchmark : codec.Bench}
    (found : (load ({} : Pools codec) reader).benchmark = some benchmark) :
    load ({} : Pools codec) reader = { benchmark := some benchmark } := by
  simp only [load, create_of_load found]

end Setters

theorem ofElements_toJSON {data : List Pool} (readable : ∀ pool ∈ data, pool.Readable) :
    ofElements (data.map Pool.toJSON) = data.map Pool.written := by
  induction data with
  | nil => rfl
  | cons pool rest ih =>
    have first := readable pool (.head _)
    have valid : pool.written.isValid = true := by
      rw [← first.valid]
      unfold Pool.written Pool.isValid
      split <;> rfl
    have later := ih fun other member => readable other (.tail _ member)
    unfold ofElements at later ⊢
    rw [List.map_cons, List.filter_cons_of_pos (show pool.toJSON.isObject = true from rfl), List.map_cons,
      first.ofJSON_toJSON, List.filter_cons_of_pos valid, later, List.map_cons]

theorem map_written_iff (data : List Pool) : data.map Pool.written = data ↔ ∀ pool ∈ data, pool.Lossless := by
  induction data with
  | nil => exact ⟨fun _ pool member => absurd member List.not_mem_nil, fun _ => rfl⟩
  | cons pool rest ih =>
    rw [List.map_cons, List.cons.injEq, Pool.written_eq_iff, ih, List.forall_mem_cons]

/-- What is left of a list that was written with some switch for DMI. -/
def written (pools : Pools codec) (dmi : Bool) : Pools codec :=
  match pools.benchmark with
  | some benchmark => { benchmark := codec.create (codec.toJSON benchmark) dmi }
  | none => { pools with data := pools.data.map Pool.written }

theorem Readable.load_members {pools : Pools codec} (readable : pools.Readable) {reader : Json} {dmi : Bool}
    (switch : reader.getBool "dmi" true = dmi)
    (listed : ∀ key ∈ ["benchmark", "donate-level", "donate-over-proxy", "pools", "retries", "retry-pause"],
      reader.findMember key = pools.members.lookup key) :
    load ({} : Pools codec) reader = pools.written dmi := by
  obtain ⟨benchmarkFound, donateFound, proxyFound, poolsFound, retriesFound, pauseFound, -⟩ :
      _ ∧ _ ∧ _ ∧ _ ∧ _ ∧ _ ∧ _ := by simpa only [List.forall_mem_cons] using listed
  cases chosen : pools.benchmark with
  | some benchmark =>
    have object : reader.getObject "benchmark" = codec.toJSON benchmark := by
      unfold Json.getObject
      rw [benchmarkFound, members, chosen]
      exact congrArg (Option.getD · Json.null) (Option.filter_some_pos (codec.object benchmark))
    have noArray : reader.getArray "pools" = .null := by
      unfold Json.getArray
      rw [poolsFound, members, chosen]
      rfl
    have result : pools.written dmi = { benchmark := codec.create (codec.toJSON benchmark) dmi } := by
      rw [written, chosen]
    rw [load, object, noArray, switch, result]
    cases codec.create (codec.toJSON benchmark) dmi <;> rfl
  | none =>
    have noObject : reader.getObject "benchmark" = .null := by
      unfold Json.getObject
      rw [benchmarkFound, members, chosen]
      rfl
    have array : reader.getArray "pools" = pools.arrayJSON := by
      unfold Json.getArray
      rw [poolsFound, members, chosen]
      rfl
    simp only [members, chosen] at donateFound proxyFound retriesFound pauseFound
    have donate := Pool.getInt_of_find donateFound (by have := readable.donateLevel; omega) defaultDonateLevel
    have proxy := Pool.getInt_of_find proxyFound (by have := readable.proxyDonate; omega) proxyDonateAuto
    have retries := Pool.getInt_of_find retriesFound (by have := readable.retries; omega) 0
    have pause := Pool.getInt_of_find pauseFound (by have := readable.retryPause; omega) 0
    rw [load, noObject, codec.create_null, array, arrayJSON]
    simp only [loadSettings, donate, proxy, retries, pause, ofElements_toJSON readable.data, written, chosen]
    have level : minimumDonateLevel ≤ pools.donateLevel ∧ pools.donateLevel ≤ 99 := readable.donateLevel
    rw [Pools.setDonateLevel, if_pos level, Pools.setProxyDonate, if_pos readable.proxyDonate,
      Pools.setRetries, if_pos readable.retries, Pools.setRetryPause, if_pos readable.retryPause]

end Pools

end Xmrig
