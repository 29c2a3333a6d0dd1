import Xmrig.Stratum.Pools

/-! Detection of changes in the list of pools when a configuration is loaded again.

`Pool::isEqual` compares field by field. Pools whose difference it does not see keep the
strategy, and with it the clients, that were made from the old ones.
-/

set_option autoImplicit false

namespace Xmrig

namespace Pool

/-- The pools write the same JSON, the fields that a comparison may leave out included. -/
structure Alike (pool other : Pool) : Prop where
  toJSON : pool.toJSON = other.toJSON
  zmqPort : pool.zmqPort = other.zmqPort
  spendSecretKey : pool.spendSecretKey = other.spendSecretKey
  submitToOrigin : pool.submitToOrigin = other.submitToOrigin

/-- The pools differ in the ZMQ port, the spend secret key or the submission to the origin,
and in nothing else. -/
def DiffersUnseen (pool other : Pool) : Prop :=
  pool ≠ other ∧
    pool = { other with
      zmqPort := pool.zmqPort
      spendSecretKey := pool.spendSecretKey
      submitToOrigin := pool.submitToOrigin }

instance (pool other : Pool) : Decidable (DiffersUnseen pool other) := inferInstanceAs (Decidable (_ ∧ _))

/-- What `isEqual` compares are all fields but three. -/
theorem isEqual_iff (pool other : Pool) :
    pool.isEqual other = true ↔
      pool = { other with
        zmqPort := pool.zmqPort
        spendSecretKey := pool.spendSecretKey
        submitToOrigin := pool.submitToOrigin } := by
  rw [← same_iff]
  simp [Same, isEqual, Url.isEqual]

theorem alike_iff {pool other : Pool} (equal : pool.isEqual other = true) :
    Alike pool other ↔ ¬ DiffersUnseen pool other := by
  constructor
  · rintro alike ⟨different, -⟩
    exact different ((same_iff pool other).mp
      ⟨equal, alike.zmqPort, alike.spendSecretKey, alike.submitToOrigin⟩)
  · intro seen
    by_cases same : pool = other
    · subst same
      exact ⟨rfl, rfl, rfl, rfl⟩
    · exact absurd ⟨same, (isEqual_iff pool other).mp equal⟩ seen

end Pool

namespace Pools
variable {codec : BenchCodec}

/-- `Pools::isEqual` of two lists of pools. -/
def isEqual (pools other : Pools codec) : Bool :=
  if pools.data.length ≠ other.data.length ∨ pools.retries ≠ other.retries ∨ pools.retryPause ≠ other.retryPause
  then false
  else (pools.data.zip other.data).all fun pair => pair.1.isEqual pair.2

/-- `Network::onConfigChanged` returns before it stops the old strategy. -/
def keepsStrategy (config previous : Pools codec) : Bool := config.isEqual previous || config.active = 0

theorem isEqual_pools {pools other : Pools codec} (equal : pools.isEqual other = true) :
    ∀ pair ∈ pools.data.zip other.data, pair.1.isEqual pair.2 = true := by
  unfold isEqual at equal
  split at equal
  · cases equal
  · exact List.all_eq_true.mp equal

end Pools

/-- Two pools that were read and compare as equal are alike exactly if they do not differ in an
unseen field only, and so are the pools of two configurations that compare as equal. -/
theorem changeDetection_complete_iff (codec : BenchCodec) (first second : Json) (config previous : Pools codec) :
    (((Pool.ofJSON first).isEqual (Pool.ofJSON second) = true →
        Pool.Alike (Pool.ofJSON first) (Pool.ofJSON second)) ↔
      ¬ Pool.DiffersUnseen (Pool.ofJSON first) (Pool.ofJSON second)) ∧
    (config.isEqual previous = true →
      ((∀ pair ∈ config.data.zip previous.data, Pool.Alike pair.1 pair.2) ↔
        ∀ pair ∈ config.data.zip previous.data, ¬ Pool.DiffersUnseen pair.1 pair.2)) := by
  refine ⟨⟨fun complete unseen => ?_, fun seen equal => (Pool.alike_iff equal).mpr seen⟩, fun equal => ?_⟩
  · have equal := (Pool.isEqual_iff _ _).mpr unseen.2
    exact (Pool.alike_iff equal).mp (complete equal) unseen
  · apply forall₂_congr
    intro pair listed
    exact Pool.alike_iff (Pools.isEqual_pools equal pair listed)

def daemonWithZmq (port : Int) : Json :=
  .obj [("url", .str (text "node:18081")), ("daemon", .bool true), ("daemon-zmq-port", .int port)]

theorem changeDetection_misses_zmqPort :
    (Pool.ofJSON (daemonWithZmq 18083)).isEqual (Pool.ofJSON (daemonWithZmq 18084)) = true ∧
      (Pool.ofJSON (daemonWithZmq 18083)).toJSON ≠ (Pool.ofJSON (daemonWithZmq 18084)).toJSON ∧
      ∀ codec : BenchCodec, Pools.keepsStrategy ({ data := [Pool.ofJSON (daemonWithZmq 18083)] } : Pools codec)
        { data := [Pool.ofJSON (daemonWithZmq 18084)] } = true := by
  have equal : (Pool.ofJSON (daemonWithZmq 18083)).isEqual (Pool.ofJSON (daemonWithZmq 18084)) = true := by
    decide
  refine ⟨equal, ?_, fun codec => ?_⟩
  · intro same
    have ports := congrArg (fun object => object.getInt "daemon-zmq-port" 0) same
    exact absurd ports (by decide)
  · simp [Pools.keepsStrategy, Pools.isEqual, equal]

end Xmrig
