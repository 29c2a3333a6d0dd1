import Xmrig.Crypto.Kawpow

/-! KawPow results of a GPU, verified on the CPU before they are submitted.

All bundles share one light cache. `getResults` asks for the cache of the job's
epoch, does not look at the answer, and hashes with what is there. Every call of
`KPHash::calculate` is recorded with the cache it got, also one that the source
leaves undefined; such a call ends the verification.
-/

set_option autoImplicit false

namespace Xmrig

open Foundation

/-- `*job.nonce() = nonce`. -/
def Job.writeNonce (job : Job) (nonce : Word) : Job :=
  let bytes := (Memory.ofBytes job.blob).writeWord job.nonceOffset nonce
  { job with blob := (List.range job.size).map bytes }

namespace JobResults

structure JobBundle where
  job : Job
  nonces : List Word
  deriving DecidableEq, Repr

/-- A `JobResult` of KawPow. -/
structure KawpowResult where
  job : Job
  nonce : BitVec 64
  result : List Word
  headerHash : List Byte
  mixHash : List Word
  deriving DecidableEq, Repr

/-- The arguments that decide what `KPHash::calculate` works with. -/
structure Hashing where
  cache : KPCache
  blockHeight : Word
  deriving DecidableEq, Repr

structure Verification where
  cache : KPCache
  job : Job
  hashings : List Hashing := []
  results : List KawpowResult := []
  errors : Nat := 0
  fault : Option KawpowFault := none
  deriving DecidableEq, Repr

def hashValue (output : List Word) : BitVec 64 :=
  let byte := fun i => (output.getD (i / 4) 0).extractLsb' (8 * (i % 4)) 8
  byte 0 ++ byte 1 ++ byte 2 ++ byte 3 ++ byte 4 ++ byte 5 ++ byte 6 ++ byte 7

variable (ethash : Ethash) (hasPopcnt : Bool)

/-- The epoch that is asked for; the height is a `uint64_t`, the argument a `uint32_t`. -/
def epochOf (job : Job) : Word := BitVec.ofNat 32 (job.height.toNat / KPHash.epochLength)

def verifyNonce (state : Verification) (nonce : Word) : Verification :=
  if state.fault.isSome then state
  else
    let job := state.job.writeNonce nonce
    let headerHash := job.blob.take 32
    let fullNonce := (Memory.ofBytes job.blob).readWord 36 ++ (Memory.ofBytes job.blob).readWord 32
    match KPCache.init ethash state.cache (epochOf job) with
    | .error fault => { state with job, fault := some fault }
    | .ok (_, cache) =>
      let blockHeight := job.height.setWidth 32
      let state := { state with job, cache, hashings := state.hashings ++ [Hashing.mk cache blockHeight] }
      match KPHash.calculate ethash hasPopcnt cache blockHeight headerHash fullNonce with
      | .error fault => { state with fault := some fault }
      | .ok (output, mixHash) =>
        if hashValue output < job.target then
          { state with results := state.results ++ [KawpowResult.mk job fullNonce output headerHash mixHash] }
        else { state with errors := state.errors + 1 }

/-- The branch of `getResults` for KawPow. -/
def getResults (cache : KPCache) (bundle : JobBundle) : Verification :=
  bundle.nonces.foldl (verifyNonce ethash hasPopcnt) { cache, job := bundle.job }

/-- What happens to the shared cache: a bundle is verified, or a GPU runner prepares an epoch. -/
inductive Event where
  | verify (bundle : JobBundle)
  | prepare (epoch : Word)

/-- The cache after an event; nothing is said about what follows a fault. -/
def step (cache : KPCache) : Event → Option KPCache
  | .verify bundle =>
      let state := getResults ethash hasPopcnt cache bundle
      if state.fault.isSome then none else some state.cache
  | .prepare epoch =>
      match KPCache.init ethash cache epoch with
      | .error _ => none
      | .ok (_, cache) => some cache

/-! ## What a verification should do -/

variable {ethash hasPopcnt}

/-- A call of `KPHash::calculate` with the cache of its height, inside the tables. -/
structure Hashing.Fits (ethash : Ethash) (hashing : Hashing) (height : Nat) : Prop where
  cache : ∃ epoch size, epoch.toNat = height / KPHash.epochLength ∧ hashing.cache.OfEpoch ethash epoch size
  table : hashing.cache.epoch.toNat < ethash.dagSizes.length
  numItems : ∃ items, KPHash.numItems ethash hashing.cache.epoch = .ok items ∧ items ≠ 0
  numParentNodes : BitVec.ofNat 32 (hashing.cache.size / KPCache.nodeSize) ≠ 0

/-- Only the right cache is used, an epoch outside the tables is not hashed, and nothing is undefined. -/
structure Sound (ethash : Ethash) (height : Nat) (state : Verification) : Prop where
  fits : ∀ hashing ∈ state.hashings, hashing.Fits ethash height
  outside : ethash.dagSizes.length ≤ height / KPHash.epochLength → state.hashings = [] ∧ state.results = []
  defined : state.fault = none

variable {state : Verification} {cache : KPCache} {height : Nat}

theorem writeNonce_height (job : Job) (nonce : Word) : (job.writeNonce nonce).height = job.height := rfl

theorem inside_iff : height / KPHash.epochLength < 2048 ↔ height < 15360000 := by
  unfold KPHash.epochLength
  omega

theorem epochOf_toNat {job : Job} (small : job.height.toNat < 2 ^ 32) :
    (epochOf job).toNat = job.height.toNat / KPHash.epochLength := by
  rw [epochOf, BitVec.toNat_ofNat]
  apply Nat.mod_eq_of_lt
  exact Nat.lt_of_le_of_lt (Nat.div_le_self _ _) small

/-- A state of the loop, with the bundle's height and a cache in order. -/
structure Going (ethash : Ethash) (height : Nat) (state : Verification) : Prop where
  same : state.job.height.toNat = height
  cache : state.cache.Inv ethash
  sound : Sound ethash height state

theorem verifyNonce_going (inside : height < 15360000) (going : Going ethash height state) (nonce : Word) :
    Going ethash height (verifyNonce ethash hasPopcnt state nonce) := by
  have small : state.job.height.toNat < 2 ^ 32 := by
    rw [going.same]
    exact Nat.lt_trans inside (by decide)
  have epoch : (epochOf (state.job.writeNonce nonce)).toNat = height / KPHash.epochLength := by
    rw [epochOf_toNat (by exact small), writeNonce_height, going.same]
  have listed : (epochOf (state.job.writeNonce nonce)).toNat < ethash.cacheSizes.length := by
    rw [epoch, ethash.cacheSizes_length]
    exact inside_iff.mpr inside
  obtain ⟨after, made, ofEpoch⟩ := KPCache.init_ofEpoch going.cache (List.getElem?_eq_getElem listed)
  have kept : after.Inv ethash := .inr ⟨_, by rw [ofEpoch.tag]; exact ofEpoch⟩
  have fits : Hashing.Fits ethash ⟨after, (state.job.writeNonce nonce).height.setWidth 32⟩ height := by
    refine ⟨⟨_, _, epoch, ofEpoch⟩, ?_, ?_, ?_⟩
    · rw [ofEpoch.tag, ethash.dagSizes_length, ← ethash.cacheSizes_length]
      exact listed
    · rw [ofEpoch.tag]
      exact KPHash.numItems_ok ofEpoch.listed
    · rw [ofEpoch.length]
      exact KPCache.parentNodes_ne_zero ofEpoch.listed
  have every : ∀ hashing ∈ state.hashings ++ [⟨after, (state.job.writeNonce nonce).height.setWidth 32⟩],
      hashing.Fits ethash height := by
    intro hashing member
    rcases List.mem_append.mp member with old | new
    · exact going.sound.fits hashing old
    · rw [List.mem_singleton.mp new]
      exact fits
  have within : ¬ethash.dagSizes.length ≤ height / KPHash.epochLength := by
    rw [ethash.dagSizes_length, Nat.not_le]
    exact inside_iff.mpr inside
  obtain ⟨⟨output, mixHash⟩, hashed⟩ := KPHash.calculate_ok ofEpoch hasPopcnt
    ((state.job.writeNonce nonce).height.setWidth 32) ((state.job.writeNonce nonce).blob.take 32)
    ((Memory.ofBytes (state.job.writeNonce nonce).blob).readWord 36 ++
      (Memory.ofBytes (state.job.writeNonce nonce).blob).readWord 32)
  unfold verifyNonce
  rw [going.sound.defined, if_neg (by decide)]
  simp only [made, hashed]
  split
  · exact ⟨going.same, kept, every, fun outside => absurd outside within, rfl⟩
  · exact ⟨going.same, kept, every, fun outside => absurd outside within, rfl⟩

theorem getResults_going (inside : height < 15360000) (cache : KPCache) (inv : cache.Inv ethash) (bundle : JobBundle)
    (same : bundle.job.height.toNat = height) : Going ethash height (getResults ethash hasPopcnt cache bundle) := by
  have start : Going ethash height { cache, job := bundle.job } :=
    ⟨same, inv, fun hashing member => absurd member List.not_mem_nil, fun _ => ⟨rfl, rfl⟩, rfl⟩
  unfold getResults
  generalize bundle.nonces = nonces
  generalize ({ cache, job := bundle.job } : Verification) = state at start
  induction nonces generalizing state with
  | nil => exact start
  | cons nonce rest ih => exact ih _ (verifyNonce_going inside start nonce)

/-! ## The shared cache over all bundles -/

theorem verifyNonce_inv (inv : state.cache.Inv ethash) (nonce : Word) :
    (verifyNonce ethash hasPopcnt state nonce).cache.Inv ethash := by
  obtain ⟨ready, after, made, kept⟩ := KPCache.init_inv inv (epochOf (state.job.writeNonce nonce))
  unfold verifyNonce
  split
  · exact inv
  · simp only [made]
    split
    · exact kept
    · split <;> exact kept

theorem getResults_inv (inv : cache.Inv ethash) (bundle : JobBundle) :
    (getResults ethash hasPopcnt cache bundle).cache.Inv ethash := by
  unfold getResults
  have start : ({ cache, job := bundle.job } : Verification).cache.Inv ethash := inv
  generalize ({ cache, job := bundle.job } : Verification) = state at start ⊢
  generalize bundle.nonces = nonces
  induction nonces generalizing state with
  | nil => exact start
  | cons nonce rest ih => exact ih _ (verifyNonce_inv start nonce)

theorem step_inv (inv : cache.Inv ethash) {event : Event} {next : KPCache}
    (stepped : step ethash hasPopcnt cache event = some next) : next.Inv ethash := by
  cases event with
  | verify bundle =>
    simp only [step] at stepped
    split at stepped
    · cases stepped
    · cases stepped
      exact getResults_inv inv bundle
  | prepare epoch =>
    obtain ⟨ready, after, made, kept⟩ := KPCache.init_inv inv epoch
    simp only [step, made] at stepped
    cases stepped
    exact kept

/-! ## Outside the tables -/

theorem hashings_kept (some_ : state.hashings ≠ []) (nonces : List Word) :
    (nonces.foldl (verifyNonce ethash hasPopcnt) state).hashings ≠ [] := by
  induction nonces generalizing state with
  | nil => exact some_
  | cons nonce rest ih =>
    apply ih
    unfold verifyNonce
    split
    · exact some_
    · dsimp only
      split
      · exact some_
      · split
        · simp
        · split <;> simp

theorem getResults_outside (small : height < 2 ^ 32) (outside : 2048 ≤ height / KPHash.epochLength) {bundle : JobBundle}
    (same : bundle.job.height.toNat = height) (nonces : bundle.nonces ≠ []) :
    (getResults ethash hasPopcnt cache bundle).hashings ≠ [] := by
  obtain ⟨nonce, rest, found⟩ := List.exists_cons_of_ne_nil nonces
  have epoch : (epochOf (bundle.job.writeNonce nonce)).toNat = height / KPHash.epochLength := by
    rw [epochOf_toNat (by rw [writeNonce_height, same]; exact small), writeNonce_height, same]
  have refused : KPCache.init ethash cache (epochOf (bundle.job.writeNonce nonce)) = .ok (false, cache) := by
    apply KPCache.init_refused
    rw [ethash.cacheSizes_length, epoch]
    exact outside
  rw [getResults, found, List.foldl_cons]
  apply hashings_kept
  unfold verifyNonce
  simp only [Option.isSome_none, Bool.false_eq_true, if_false, refused]
  split
  · simp
  · split <;> simp

/-- After any history, a bundle is verified as it should be exactly if its height lies in the 2048
epochs of the tables, or there is nothing to verify. -/
theorem getResults_sound_iff {events : List Event} (executed : run (step ethash hasPopcnt) {} events = some cache)
    (bundle : JobBundle) (small : bundle.job.height.toNat < 2 ^ 32) :
    Sound ethash bundle.job.height.toNat (getResults ethash hasPopcnt cache bundle) ↔
      bundle.nonces = [] ∨ bundle.job.height.toNat < 15360000 := by
  have inv : cache.Inv ethash :=
    run_keeps (fun _ _ _ inv stepped => step_inv inv stepped) (show KPCache.Inv ethash {} from .inl rfl) executed
  constructor
  · intro sound
    by_contra other
    rw [not_or, Nat.not_lt, ← Nat.not_lt, ← inside_iff, Nat.not_lt] at other
    refine getResults_outside small other.2 rfl other.1 (sound.outside ?_).1
    rw [ethash.dagSizes_length]
    exact other.2
  · rintro (none | inside)
    · rw [getResults, none]
      exact ⟨fun hashing member => absurd member List.not_mem_nil, fun _ => ⟨rfl, rfl⟩, rfl⟩
    · exact (getResults_going inside cache inv bundle rfl).sound

def sampleEthash : Ethash where
  cacheSizes := List.replicate 2048 16776896
  dagSizes := List.replicate 2048 1073739904
  cacheSizes_length := List.length_replicate
  dagSizes_length := List.length_replicate
  cacheSizes_range size member := by
    rw [List.eq_of_mem_replicate member]
    decide
  dagSizes_range size member := by
    rw [List.eq_of_mem_replicate member]
    decide
  getSeedhash _ := List.replicate 32 0
  computeCacheNodes size _ := List.replicate (size / 4) 0
  calculateDagItem _ index := List.replicate 16 (BitVec.ofNat 32 index)
  calculateDagItem_length _ _ := List.length_replicate
  keccakf800 state := state
  hugePageSize := 2097152

def sampleBundle (height : BitVec 64) : JobBundle :=
  { job := { algorithm := .kawpowRvn, blob := List.replicate 40 0, height, target := 1 }, nonces := [7] }

theorem samplePrepared : run (step sampleEthash true) {} [.prepare 4096] = some {} := by
  rw [run_cons_iff]
  refine ⟨{}, ?_, rfl⟩
  simp only [step]
  rw [KPCache.init_refused (by rw [sampleEthash.cacheSizes_length]; decide)]

/-- A runner asked for an epoch in vain; a height of epoch 0 is verified with its own cache. -/
theorem getResults_sound_first :
    Sound sampleEthash 7499 (getResults sampleEthash true {} (sampleBundle 7499)) :=
  (getResults_sound_iff samplePrepared (sampleBundle 7499) (by decide)).mpr (.inr (by decide))

theorem calculate_fresh (blockHeight : Word) (headerHash : List Byte) (nonce : BitVec 64) :
    KPHash.calculate ethash hasPopcnt {} blockHeight headerHash nonce = .error .dagSizes := by
  have behind : KPHash.numItems ethash ({} : KPCache).epoch = .error .dagSizes := by
    unfold KPHash.numItems
    rw [List.getElem?_eq_none (by rw [ethash.dagSizes_length]; decide)]
  unfold KPHash.calculate
  simp only [behind]
  rfl

theorem getResults_fresh {bundle : JobBundle} {nonce : Word} (single : bundle.nonces = [nonce])
    (outside : ethash.cacheSizes.length ≤ (epochOf (bundle.job.writeNonce nonce)).toNat) :
    getResults ethash hasPopcnt {} bundle =
      { cache := {}
        job := bundle.job.writeNonce nonce
        hashings := [⟨{}, bundle.job.height.setWidth 32⟩]
        fault := some .dagSizes } := by
  rw [getResults, single, List.foldl_cons, List.foldl_nil, verifyNonce]
  simp only [Option.isSome_none, Bool.false_eq_true, if_false, KPCache.init_refused outside, calculate_fresh]
  rfl

/-- The first height behind the tables: the hash is computed with a cache of no epoch, and the table
is read at the sentinel. -/
theorem getResults_unsound_behind :
    (getResults sampleEthash true {} (sampleBundle 15360000)).hashings = [⟨{}, 15360000⟩] ∧
      (getResults sampleEthash true {} (sampleBundle 15360000)).fault = some .dagSizes ∧
      ¬Sound sampleEthash 15360000 (getResults sampleEthash true {} (sampleBundle 15360000)) := by
  have outside : 2048 ≤ (epochOf ((sampleBundle 15360000).job.writeNonce 7)).toNat := by decide
  rw [← sampleEthash.cacheSizes_length] at outside
  rw [getResults_fresh (show (sampleBundle 15360000).nonces = [7] from rfl) outside]
  refine ⟨rfl, rfl, fun sound => ?_⟩
  cases sound.defined

end JobResults

end Xmrig
