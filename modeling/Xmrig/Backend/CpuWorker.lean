import Xmrig.Backend.WorkerRounds
import Xmrig.RandomX.CalculateHash

/-! The main loop of a processor worker, `CpuWorker<N>::start`.

`N` is the field `lanes` of the configuration. A step ends where other threads
can act: every call of `Nonce::next`, every value that is added to the benchmark
and every test of the sequence is a step of its own. What the threads share is
an argument and a result of the step.
-/

set_option autoImplicit false

namespace Xmrig

open Foundation

def Algorithm.l3 (algorithm : Algorithm) : Nat := 1 <<< ((algorithm.id >>> 16) &&& 0xff).toNat

/-- What a worker computes hashes and signatures with. RandomX comes in two halves, the second
of which also does the first half of the next input. A signature depends on random numbers. -/
structure Hasher where
  Machine : Type
  first : Job → Machine → List Byte → Machine
  next : Job → Machine → List Byte → BitVec 256 × Machine
  randomX : Job → List Byte → BitVec 256
  direct : Job → List Byte → BitVec 256
  sign : Job → List Byte → Nat → Vector Byte 64
  /-- The first half was done for an input. -/
  Ready : Job → List Byte → Machine → Prop
  first_ready : ∀ job machine input, Ready job input (first job machine input)
  next_output : ∀ job machine input other, Ready job input machine →
    (next job machine other).1 = randomX job input
  next_ready : ∀ job machine input other, Ready job input machine →
    Ready job other (next job machine other).2

def RandomX.hasher {size : Nat} (prims : Job → RandomX.Primitives (size / 16)) (programCount : Job → BitVec 32)
    (softAes unroll : Nat) (vm : RandomX.Vm) (aligned : 256 ∣ size) (large : RandomX.prefetchDistance ≤ size)
    (direct : Job → List Byte → BitVec 256) (sign : Job → List Byte → Nat → Vector Byte 64) : Hasher where
  Machine := RandomX.Lanes × RandomX.Vm
  first job machine input := RandomX.calculateHashFirst (prims job) machine.2 input
  next job machine input := RandomX.calculateHashNext (prims job) (programCount job) softAes unroll machine input
  randomX job input := (RandomX.calculateHash (prims job) (programCount job) vm input).1
  direct := direct
  sign := sign
  Ready job input machine := RandomX.Ready (prims job) input machine
  first_ready job machine input := RandomX.calculateHashFirst_ready (prims job) aligned machine.2 input
  next_output job _ _ other ready :=
    (RandomX.calculateHashNext_spec (prims job) (programCount job) aligned large softAes unroll ready other vm).1
  next_ready job _ _ other ready :=
    (RandomX.calculateHashNext_spec (prims job) (programCount job) aligned large softAes unroll ready other vm).2

/-- Where the loop stands. `resume` tells the call of `consumeJob` behind a pause from the one at
the end of the loop. -/
inductive CpuStage where
  | outer
  | paused
  | consume (resume : Bool)
  | adding (job : Job) (resume : Bool)
  | saving (lane : Nat) (resume : Bool)
  | inner
  | round
  | reserving (lane : Nat)
  | rounded
  | checking (lane : Nat)
  | leave
  | stopped
  | finished
  deriving DecidableEq, Repr

/-- The template argument and the launch data of a worker. -/
structure CpuConfig where
  lanes : Nat
  algorithm : Algorithm
  threads : Nat
  positive : 0 < lanes

/-- The members of a worker and the variables of its loop: `first`, `current_job_nonces`,
`m_hash` and `miner_signature_saved`. -/
structure CpuWorker (hasher : Hasher) where
  job : WorkerJob := {}
  benchSize : BitVec 32 := 0
  stage : CpuStage := .outer
  first : Bool := true
  machine : hasher.Machine
  nonces : Nat → BitVec 32 := fun _ => 0
  hashes : Nat → BitVec 256 := fun _ => 0
  saved : Vector Byte 64 := Vector.replicate 64 0

/-- What the threads share: the counters, the miner's job with its benchmark size, and the state
of the benchmark with the number of its completion signals. -/
structure CpuShared where
  nonce : Nonce := {}
  job : Job := {}
  benchSize : BitVec 32 := 0
  data : BitVec 64 := 0
  remaining : BitVec 32 := 0
  sends : Nat := 0

/-- A call of `JobResults::submit`. -/
structure Submission where
  job : Job
  nonce : BitVec 32
  hash : BitVec 256
  signature : Option (Vector Byte 64)
  deriving DecidableEq

/-- What becomes known of a worker: a hash that is available, a submitted result, and that the
nonces of a job are used up. -/
inductive CpuOutput where
  | hashed (job : Job) (nonce : BitVec 32) (hash : BitVec 256)
  | submit (submission : Submission)
  | done (job : Job)
  deriving DecidableEq

/-- `BenchState::add`. -/
def CpuShared.add (shared : CpuShared) (value : BitVec 64) : CpuShared :=
  { shared with data := shared.data ^^^ value }

/-- `BenchState::done`. -/
def CpuShared.done (shared : CpuShared) : CpuShared :=
  let remaining := shared.remaining - 1
  { shared with remaining, sends := if remaining = 0 then shared.sends + 1 else shared.sends }

def hashValue (hash : BitVec 256) : BitVec 64 := hash.extractLsb' 192 64

namespace CpuWorker
variable {hasher : Hasher}

abbrev Step (hasher : Hasher) := Option (CpuWorker hasher × CpuShared × List CpuOutput)

def at_ (worker : CpuWorker hasher) (stage : CpuStage) : CpuWorker hasher := { worker with stage }

def input (worker : CpuWorker hasher) (lane : Nat) : List Byte :=
  (List.range worker.job.currentJob.size).map fun position =>
    worker.job.blob (lane * worker.job.currentJob.size + position)

/-- `kReserveCount`, or 1 in a benchmark. -/
def reserveCount (worker : CpuWorker hasher) : BitVec 32 := if worker.benchSize ≠ 0 then 1 else 32768

/-- `miner_signature_ptr` from the start of the blob. -/
def signaturePlace (worker : CpuWorker hasher) : Nat :=
  worker.job.currentJob.nonceOffset + worker.job.currentJob.nonceSize

def signature (worker : CpuWorker hasher) : Vector Byte 64 :=
  Vector.ofFn fun index => worker.job.blob (worker.signaturePlace + index)

/-- `generateMinerSignature` of the blob, into the blob. The signature is over the blob with
zeros in its place. -/
def generateMinerSignature (worker : CpuWorker hasher) (random : Nat) : CpuWorker hasher :=
  let job := worker.job.currentJob
  let unsigned := worker.job.blob.copy worker.signaturePlace (List.replicate 64 0)
  let message := (List.range job.size).map unsigned
  { worker with
    job := worker.job.setBlob (worker.job.blob.copy worker.signaturePlace (hasher.sign job message random).toList) }

def signIf (worker : CpuWorker hasher) (random : Nat) : CpuWorker hasher :=
  if worker.job.currentJob.hasMinerSignature then worker.generateMinerSignature random else worker

/-- `*(uint64_t*)(m_job.blob()) ^= BenchState::data()`. -/
def mixData (worker : CpuWorker hasher) (data : BitVec 64) : CpuWorker hasher :=
  { worker with
    job := worker.job.setBlob fun position =>
      if position < 8 then worker.job.blob position ^^^ data.extractLsb' (8 * position) 8
      else worker.job.blob position }

/-- The only worker of a benchmark makes its blob depend on the hashes so far. -/
def mixIf (config : CpuConfig) (worker : CpuWorker hasher) (data : BitVec 64) : CpuWorker hasher :=
  if worker.benchSize ≠ 0 ∧ config.threads = 1 then worker.mixData data else worker

/-- `current_job_nonces`. -/
def readNonces (worker : CpuWorker hasher) : CpuWorker hasher :=
  { worker with nonces := fun lane => (worker.job.words lane).lo }

/-- Back to the head of the outer loop body, where the pipeline is empty. -/
def enter (worker : CpuWorker hasher) : CpuWorker hasher := { worker with first := true, stage := .inner }

/-- Behind `consumeJob`. -/
def consumed (worker : CpuWorker hasher) (resume : Bool) : CpuWorker hasher :=
  if resume then worker.enter else worker.at_ .outer

def isRandomX (worker : CpuWorker hasher) : Bool := worker.job.currentJob.algorithm.family = Algorithm.randomX

def valid (config : CpuConfig) (worker : CpuWorker hasher) : Bool :=
  worker.isRandomX || worker.job.currentJob.algorithm.family ≠ Algorithm.ghostrider || config.lanes = 8

/-- The first half of the pipeline, if it has not been done for the blob. -/
def beginHash (worker : CpuWorker hasher) (random : Nat) : CpuWorker hasher :=
  if worker.first then
    let signed := signIf { worker with first := false } random
    { signed with machine := hasher.first signed.job.currentJob signed.machine (signed.input 0) }
  else worker

def hashLanes (config : CpuConfig) (worker : CpuWorker hasher) : CpuWorker hasher :=
  if worker.valid config then
    { worker with hashes := fun lane => hasher.direct worker.job.currentJob (worker.input lane) }
  else worker

def available (worker : CpuWorker hasher) (lanes : Nat) : List CpuOutput :=
  (List.range lanes).map fun lane => .hashed worker.job.currentJob (worker.nonces lane) (worker.hashes lane)

/-- `add` up to the loop of `save`. -/
def addJob (worker : CpuWorker hasher) (shared : CpuShared) (job : Job) (resume : Bool) : CpuWorker hasher :=
  let slots := { worker.job with sequence := shared.nonce.sequence .cpu }
  let worker := { worker with job := slots }
  if slots.currentJob.isEqual job then worker.consumed resume
  else if slots.index = donateIndex ∧ job.index = userIndex ∧ job.isEqual (slots.jobs userIndex) then
    { worker with job := { slots with index := userIndex } }.consumed resume
  else { worker with job := slots.openSlot job .cpu, stage := .saving 0 resume }

/-- One lane of `save`. -/
def saveLane (config : CpuConfig) (worker : CpuWorker hasher) (shared : CpuShared) (lane : Nat) (resume : Bool) :
    CpuWorker hasher × CpuShared :=
  if lane < config.lanes then
    let reserved := (worker.job.load lane worker.job.currentJob).next shared.nonce lane worker.reserveCount fun _ => 0
    ({ worker with job := reserved.worker, stage := .saving (lane + 1) resume },
      { shared with nonce := reserved.nonce })
  else (worker.consumed resume, shared)

/-- The hashing in front of `nextRound`. -/
def launch (config : CpuConfig) (worker : CpuWorker hasher) (shared : CpuShared) (random : Nat) :
    CpuWorker hasher × CpuShared × List CpuOutput :=
  if worker.isRandomX then ((worker.beginHash random).at_ .round, shared, [])
  else ((worker.hashLanes config).at_ .round, shared,
    if worker.valid config then (worker.hashLanes config).available config.lanes else [])

/-- The body of the inner loop up to `nextRound`. -/
def innerStep (config : CpuConfig) (worker : CpuWorker hasher) (shared : CpuShared) (random : Nat) :
    CpuWorker hasher × CpuShared × List CpuOutput :=
  if shared.nonce.isOutdated .cpu worker.job.sequence then (worker.at_ .leave, shared, [])
  else if worker.job.currentJob.algorithm.l3 ≠ config.algorithm.l3 then (worker.at_ .leave, shared, [])
  else if worker.benchSize ≠ 0 ∧ worker.benchSize ≤ worker.readNonces.nonces 0 then
    (worker.readNonces.at_ .finished, shared.done, [])
  else
    (worker.readNonces.mixIf config shared.data).launch config shared random

/-- The head of `WorkerJob::nextRound`. -/
def roundStep (config : CpuConfig) (worker : CpuWorker hasher) : CpuWorker hasher :=
  let slots := worker.job.countRound
  if slots.rounds slots.index &&& (worker.reserveCount - 1) = 0 then
    { worker with job := slots, stage := .reserving 0 }
  else { worker with job := WorkerJob.advanceLanes 1 config.lanes 0 slots, stage := .rounded }

/-- One lane of a reservation; the first refusal ends the round and is reported. -/
def reserveLane (config : CpuConfig) (worker : CpuWorker hasher) (shared : CpuShared) (lane : Nat) :
    CpuWorker hasher × CpuShared × List CpuOutput :=
  if lane < config.lanes then
    let reserved := worker.job.next shared.nonce lane worker.reserveCount fun _ => 0
    let shared := { shared with nonce := reserved.nonce }
    if reserved.granted.isSome then
      ({ worker with job := reserved.worker, stage := .reserving (lane + 1) }, shared, [])
    else ({ worker with job := reserved.worker, stage := .leave }, shared, [.done reserved.worker.currentJob])
  else if config.lanes = 1 ∧ worker.job.currentJob.nonceSize = 8 then
    ({ worker with job := worker.job.setJobNonceHigh (worker.job.words 0).hi, stage := .rounded }, shared, [])
  else (worker.at_ .rounded, shared, [])

/-- The second half of the pipeline: the hash of the last blob, with the signature that was in it. -/
def finishHash (worker : CpuWorker hasher) (random : Nat) : CpuWorker hasher :=
  let signed := signIf
    { worker with saved := if worker.job.currentJob.hasMinerSignature then worker.signature else worker.saved } random
  let output := hasher.next signed.job.currentJob signed.machine (signed.input 0)
  { signed with machine := output.2, hashes := Function.update signed.hashes 0 output.1 }

def checkLane (worker : CpuWorker hasher) (shared : CpuShared) (lane : Nat) : CpuShared × List CpuOutput :=
  let job := worker.job.currentJob
  let value := hashValue (worker.hashes lane)
  if worker.benchSize ≠ 0 then (if worker.nonces lane < worker.benchSize then shared.add value else shared, [])
  else if value < job.target then
    (shared, [.submit ⟨job, worker.nonces lane, worker.hashes lane,
      if job.hasMinerSignature then some worker.saved else none⟩])
  else (shared, [])

/-- One step; nothing is done any more behind the end of `start`. -/
def step (config : CpuConfig) (worker : CpuWorker hasher) (shared : CpuShared) (random : Nat) : Step hasher :=
  match worker.stage with
  | .outer =>
    if shared.nonce.sequence .cpu = 0 then some (worker.at_ .stopped, shared, [])
    else if shared.nonce.paused then some (worker.at_ .paused, shared, [])
    else some (worker.enter, shared, [])
  | .paused =>
    if shared.nonce.sequence .cpu = 0 then some (worker.at_ .stopped, shared, [])
    else if shared.nonce.paused then some (worker, shared, [])
    else some (worker.at_ (.consume true), shared, [])
  | .consume resume =>
    if shared.nonce.sequence .cpu = 0 then some (worker.consumed resume, shared, [])
    else some ({ worker with benchSize := shared.benchSize, stage := .adding shared.job resume }, shared, [])
  | .adding job resume => some (worker.addJob shared job resume, shared, [])
  | .saving lane resume =>
    let after := worker.saveLane config shared lane resume
    some (after.1, after.2, [])
  | .inner => some (worker.innerStep config shared random)
  | .round => some (worker.roundStep config, shared, [])
  | .reserving lane => some (worker.reserveLane config shared lane)
  | .rounded =>
    if worker.isRandomX then
      some ((worker.finishHash random).at_ (.checking 0), shared, (worker.finishHash random).available 1)
    else some (worker.at_ (.checking 0), shared, [])
  | .checking lane =>
    if worker.valid config ∧ lane < config.lanes then
      let after := worker.checkLane shared lane
      some (worker.at_ (.checking (lane + 1)), after.1, after.2)
    else some (worker.at_ .inner, shared, [])
  | .leave => some (worker.at_ (if shared.nonce.paused then .outer else .consume false), shared, [])
  | .stopped => none
  | .finished => none

section Paths
variable {config : CpuConfig} {worker : CpuWorker hasher} {shared : CpuShared}

theorem innerStep_of_current (current : shared.nonce.isOutdated .cpu worker.job.sequence = false)
    (size : worker.job.currentJob.algorithm.l3 = config.algorithm.l3)
    (going : worker.benchSize ≠ 0 → (worker.job.words 0).lo < worker.benchSize)
    (mixed : worker.benchSize = 0 ∨ config.threads ≠ 1) (random : Nat) :
    worker.innerStep config shared random = worker.readNonces.launch config shared random := by
  have alone : worker.readNonces.mixIf config shared.data = worker.readNonces := by
    refine if_neg ?_
    rintro ⟨bench, one⟩
    rcases mixed with none_ | several
    · exact bench none_
    · exact several one
  have short : ¬ (worker.benchSize ≠ 0 ∧ worker.benchSize ≤ worker.readNonces.nonces 0) := by
    rintro ⟨bench, reached⟩
    exact absurd (going bench) (BitVec.not_lt.mpr reached)
  rw [innerStep, if_neg (by rw [current]; decide), if_neg (not_not.mpr size), if_neg short, alone]

theorem launch_direct (direct : worker.isRandomX = false) (valid : worker.valid config = true) (random : Nat) :
    worker.launch config shared random =
      ((worker.hashLanes config).at_ .round, shared, (worker.hashLanes config).available config.lanes) := by
  rw [launch, if_neg (by rw [direct]; decide), if_pos valid]

theorem hashLanes_of_valid (valid : worker.valid config = true) :
    worker.hashLanes config =
      { worker with hashes := fun lane => hasher.direct worker.job.currentJob (worker.input lane) } :=
  if_pos valid

end Paths

theorem step_shared {config : CpuConfig} {worker after : CpuWorker hasher} {shared sharedAfter : CpuShared}
    {random : Nat} {outputs : List CpuOutput}
    (stepped : worker.step config shared random = some (after, sharedAfter, outputs)) :
    sharedAfter.job = shared.job ∧ sharedAfter.benchSize = shared.benchSize := by
  unfold step at stepped
  cases stage : worker.stage with
  | outer | paused | consume =>
    simp only [stage] at stepped
    repeat' split at stepped
    all_goals
      cases stepped
      exact ⟨rfl, rfl⟩
  | adding | round | rounded | leave =>
    simp only [stage] at stepped
    repeat' split at stepped
    all_goals
      cases stepped
      exact ⟨rfl, rfl⟩
  | saving lane resume =>
    simp only [stage, saveLane] at stepped
    cases stepped
    split <;> exact ⟨rfl, rfl⟩
  | inner =>
    simp only [stage, innerStep, launch, Option.some.injEq] at stepped
    repeat' split at stepped
    all_goals
      cases stepped
      exact ⟨rfl, rfl⟩
  | reserving lane =>
    simp only [stage, reserveLane, Option.some.injEq] at stepped
    repeat' split at stepped
    all_goals
      cases stepped
      exact ⟨rfl, rfl⟩
  | checking lane =>
    simp only [stage, checkLane] at stepped
    split at stepped
    · cases stepped
      repeat' split
      all_goals exact ⟨rfl, rfl⟩
    · cases stepped
      exact ⟨rfl, rfl⟩
  | stopped | finished =>
    simp only [stage] at stepped
    cases stepped

end CpuWorker

end Xmrig
