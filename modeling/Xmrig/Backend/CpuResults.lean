import Xmrig.Backend.CpuWorker

/-! What a processor worker hands in.

One worker runs against an environment that may change everything that is shared
between two of its steps. In the pipeline a hash comes out one round behind its
blob, so the blob that a hash belongs to is named by an invariant: the one the
machine was begun with.
-/

set_option autoImplicit false

namespace Xmrig

open Foundation

/-- A worker with what it shares and what has become known of it. -/
structure CpuRun (hasher : Hasher) where
  worker : CpuWorker hasher
  shared : CpuShared
  outputs : List CpuOutput := []

inductive CpuEvent where
  | work (random : Nat)
  | environment (shared : CpuShared)

namespace CpuRun
variable {hasher : Hasher}

def step (config : CpuConfig) (state : CpuRun hasher) : CpuEvent → Option (CpuRun hasher)
  | .work random =>
    (state.worker.step config state.shared random).map fun after =>
      ⟨after.1, after.2.1, state.outputs ++ after.2.2⟩
  | .environment shared => some { state with shared }

theorem step_work {config : CpuConfig} {state : CpuRun hasher} {random : Nat} {after : CpuWorker hasher}
    {shared : CpuShared} {outputs : List CpuOutput}
    (stepped : state.worker.step config state.shared random = some (after, shared, outputs)) :
    state.step config (.work random) = some ⟨after, shared, state.outputs ++ outputs⟩ := by
  rw [step, stepped]
  rfl

def start (machine : hasher.Machine) : CpuRun hasher := { worker := { machine }, shared := {} }

end CpuRun

/-! ## The blob of a hash -/

def Job.nonceIn (job : Job) (blob : List Byte) : BitVec 32 := (Memory.ofBytes blob).readWord job.nonceOffset

def Job.signatureIn (job : Job) (blob : List Byte) : Vector Byte 64 :=
  Vector.ofFn fun index => Memory.ofBytes blob (job.nonceOffset + job.nonceSize + index)

def Hasher.hash (hasher : Hasher) (job : Job) (blob : List Byte) : BitVec 256 :=
  if job.algorithm.family = Algorithm.randomX then hasher.randomX job blob else hasher.direct job blob

/-- One blob of the job's size contains the submitted nonce and, for a signed job, the submitted
signature, and has the submitted hash. -/
def Submission.Consistent (hasher : Hasher) (submission : Submission) : Prop :=
  ∃ blob : List Byte, blob.length = submission.job.size ∧
    submission.job.nonceOffset + 4 ≤ blob.length ∧ submission.job.nonceIn blob = submission.nonce ∧
    hasher.hash submission.job blob = submission.hash ∧
    if submission.job.hasMinerSignature then
      submission.job.nonceOffset + submission.job.nonceSize + 64 ≤ blob.length ∧
        submission.signature = some (submission.job.signatureIn blob)
    else submission.signature = none

/-- A job for the processor, which has no KawPow. Its blob was accepted and has room for the
signature, and only RandomX jobs are signed. -/
structure Job.ForCpu (job : Job) : Prop where
  sized : job.Sized
  narrow : job.algorithm.family ≠ Algorithm.kawpow
  signed : job.hasMinerSignature = true → job.algorithm.family = Algorithm.randomX ∧
    job.nonceOffset + job.nonceSize + 64 ≤ job.size

/-- No hash is below a target of zero. -/
def Job.Offered (job : Job) : Prop := job.target = 0 ∨ job.ForCpu

namespace CpuWorker
variable {hasher : Hasher}

/-! ## Bytes of a lane -/

section Bytes
variable {worker : CpuWorker hasher}

theorem input_length (worker : CpuWorker hasher) (lane : Nat) :
    (worker.input lane).length = worker.job.currentJob.size := by
  simp [input]

theorem ofBytes_input {position : Nat} (inside : position < worker.job.currentJob.size) (lane : Nat) :
    Memory.ofBytes (worker.input lane) position =
      worker.job.blob (lane * worker.job.currentJob.size + position) := by
  simp [Memory.ofBytes, input, inside]

theorem nonceIn_input (sized : worker.job.currentJob.Sized) (lane : Nat) :
    worker.job.currentJob.nonceIn (worker.input lane) = (worker.job.words lane).lo := by
  have room := sized.nonce
  have least := worker.job.currentJob.nonceSize_ge
  apply Memory.readWord_congr
  intro offset small
  rw [ofBytes_input (by omega), WorkerJob.nonce, ← Nat.add_assoc]

theorem signatureIn_input (room : worker.job.currentJob.nonceOffset + worker.job.currentJob.nonceSize + 64 ≤
    worker.job.currentJob.size) : worker.job.currentJob.signatureIn (worker.input 0) = worker.signature := by
  apply Vector.ext
  intro index small
  simp only [Job.signatureIn, signature, Vector.getElem_ofFn]
  rw [ofBytes_input (by omega), Nat.zero_mul, Nat.zero_add]
  rfl

/-- The machine was begun with a blob that contains a nonce and the signature of the worker's blob. -/
def Begun (worker : CpuWorker hasher) (nonce : BitVec 32) : Prop :=
  ∃ blob : List Byte, hasher.Ready worker.job.currentJob blob worker.machine ∧
    blob.length = worker.job.currentJob.size ∧ worker.job.currentJob.nonceIn blob = nonce ∧
    (worker.job.currentJob.hasMinerSignature = true →
      worker.job.currentJob.signatureIn blob = worker.signature)

/-- The hash of the first lane is that of a blob with the nonce that was read and the signature
that was saved. -/
def Computed (worker : CpuWorker hasher) : Prop :=
  ∃ blob : List Byte, blob.length = worker.job.currentJob.size ∧
    worker.job.currentJob.nonceIn blob = worker.nonces 0 ∧
    hasher.hash worker.job.currentJob blob = worker.hashes 0 ∧
    (worker.job.currentJob.hasMinerSignature = true →
      worker.job.currentJob.signatureIn blob = worker.saved)

theorem Begun.frame {after : CpuWorker hasher} {nonce : BitVec 32} (begun : worker.Begun nonce)
    (job : after.job.currentJob = worker.job.currentJob) (machine : after.machine = worker.machine)
    (signature : after.signature = worker.signature) : after.Begun nonce := by
  obtain ⟨blob, ready, length, contains, signed⟩ := begun
  refine ⟨blob, ?_, ?_, ?_, ?_⟩
  · rw [job, machine]
    exact ready
  · rw [job, length]
  · rw [job, contains]
  · rw [job, signature]
    exact signed

theorem Computed.frame {after : CpuWorker hasher} (computed : worker.Computed)
    (job : after.job.currentJob = worker.job.currentJob) (nonces : after.nonces = worker.nonces)
    (hashes : after.hashes = worker.hashes) (saved : after.saved = worker.saved) : after.Computed := by
  obtain ⟨blob, length, contains, hash, signed⟩ := computed
  refine ⟨blob, ?_, ?_, ?_, ?_⟩
  · rw [job, length]
  · rw [job, contains, nonces]
  · rw [job, hash, hashes]
  · rw [job, saved]
    exact signed

theorem signature_of_touched {before : WorkerJob} {after : CpuWorker hasher}
    (touched : WorkerJob.Touched before after.job worker.job.currentJob 0) (blob : before.blob = worker.job.blob)
    (job : after.job.currentJob = worker.job.currentJob) : after.signature = worker.signature := by
  apply Vector.ext
  intro index small
  simp only [signature, signaturePlace, job, Vector.getElem_ofFn, ← blob]
  apply touched.blob
  right
  omega

theorem nonce_of_outside {memory : Memory}
    (outside : ∀ offset < 4, memory (worker.job.currentJob.nonceOffset + offset) =
      worker.job.blob (worker.job.currentJob.nonceOffset + offset)) :
    ((worker.job.setBlob memory).words 0).lo = (worker.job.words 0).lo := by
  have place : (worker.job.setBlob memory).nonce 0 = worker.job.currentJob.nonceOffset := by
    rw [WorkerJob.setBlob_nonce, WorkerJob.nonce, Nat.zero_mul, Nat.zero_add]
  simp only [WorkerJob.words, place, WorkerJob.setBlob_blob]
  rw [WorkerJob.nonce, Nat.zero_mul, Nat.zero_add]
  exact Memory.readWord_congr outside

theorem nonceOffset_ge (job : Job) : 32 ≤ job.nonceOffset := by
  unfold Job.nonceOffset
  split
  · exact Nat.le_refl _
  · split
    · decide
    · split <;> decide

@[simp] theorem signIf_currentJob (worker : CpuWorker hasher) (random : Nat) :
    (worker.signIf random).job.currentJob = worker.job.currentJob := by
  unfold signIf
  split <;> rfl

theorem signIf_eq (worker : CpuWorker hasher) (random : Nat) :
    worker.signIf random = { worker with job := (worker.signIf random).job } := by
  unfold signIf
  split <;> rfl

theorem signIf_nonce (worker : CpuWorker hasher) (random : Nat) :
    ((worker.signIf random).job.words 0).lo = (worker.job.words 0).lo := by
  unfold signIf
  split
  · have least := worker.job.currentJob.nonceSize_ge
    apply nonce_of_outside
    intro offset small
    apply Memory.copy_outside
    left
    simp only [signaturePlace]
    omega
  · rfl

theorem mixData_nonce (worker : CpuWorker hasher) (data : BitVec 64) :
    ((worker.mixData data).job.words 0).lo = (worker.job.words 0).lo := by
  have far := nonceOffset_ge worker.job.currentJob
  apply nonce_of_outside
  intro offset small
  exact if_neg (by omega)

theorem mixData_signature (worker : CpuWorker hasher) (data : BitVec 64) :
    (worker.mixData data).signature = worker.signature := by
  have far := nonceOffset_ge worker.job.currentJob
  apply Vector.ext
  intro index small
  have place : (worker.mixData data).signaturePlace = worker.signaturePlace := rfl
  simp only [signature, Vector.getElem_ofFn, place]
  rw [mixData, WorkerJob.setBlob_blob, if_neg]
  simp only [signaturePlace]
  omega

end Bytes

/-! ## The job slots -/

/-- Each slot has a job that was offered, with its index and mask. -/
def Slots (slots : WorkerJob) : Prop :=
  ∀ slot, (slots.jobs slot).target = 0 ∨ ((slots.jobs slot).ForCpu ∧ (slots.jobs slot).index = slot ∧
    slots.nonceMasks slot = (slots.jobs slot).nonceMask)

section Slots
variable {slots : WorkerJob}

theorem Slots.frame {after : WorkerJob} (offered : Slots slots) (jobs : after.jobs = slots.jobs)
    (masks : after.nonceMasks = slots.nonceMasks) : Slots after := by
  intro slot
  rw [jobs, masks]
  exact offered slot

theorem Slots.carries (offered : Slots slots) (positive : slots.currentJob.target ≠ 0) :
    slots.currentJob.ForCpu ∧ slots.Carries slots.currentJob := by
  obtain ⟨forCpu, index, mask⟩ := (offered slots.index).resolve_left positive
  exact ⟨forCpu, index.symm, rfl, rfl, mask⟩

theorem next_jobs (slots : WorkerJob) (nonce : Nonce) (lane : Nat) (count : BitVec 32) (others : Nat → BitVec 62) :
    (slots.next nonce lane count others).worker.jobs = slots.jobs ∧
      (slots.next nonce lane count others).worker.nonceMasks = slots.nonceMasks := by
  simp only [WorkerJob.next]
  split <;> exact ⟨rfl, rfl⟩

theorem openSlot_slots {job : Job} (offered : Slots slots) (new : job.Offered) (backend : Backend) :
    Slots (slots.openSlot job backend) := by
  intro slot
  by_cases here : slot = job.index
  · subst here
    simp only [WorkerJob.openSlot, Function.update_self]
    rcases new with zero | forCpu
    · exact .inl zero
    · exact .inr ⟨⟨⟨forCpu.sized.nonce, forCpu.sized.fits⟩, forCpu.narrow, forCpu.signed⟩, trivial, rfl⟩
  · simp only [WorkerJob.openSlot, Function.update_of_ne here]
    exact offered slot

theorem nonceSize_of_narrow {job : Job} (narrow : job.algorithm.family ≠ Algorithm.kawpow) : job.nonceSize = 4 :=
  if_neg narrow

end Slots

/-! ## The pipeline of one lane -/

/-- The machine is free for a blob, or begun with the worker's own. -/
def Prepared (worker : CpuWorker hasher) : Prop :=
  worker.first = true ∨ (worker.isRandomX = true ∧ worker.Begun (worker.job.words 0).lo)

/-- What holds of the next hash during a round. -/
def Awaited (config : CpuConfig) (worker : CpuWorker hasher) : Prop :=
  if worker.isRandomX then worker.Begun (worker.nonces 0)
  else worker.first = true ∧ (worker.valid config = true → worker.Computed)

/-- What the loop knows of the blob whose hash comes next, by where it stands. -/
def Staged (config : CpuConfig) (worker : CpuWorker hasher) : Prop :=
  match worker.stage with
  | .inner => worker.Prepared
  | .round | .reserving _ | .rounded => worker.Awaited config
  | .checking _ => (worker.valid config = true → worker.Computed) ∧ worker.Prepared
  | _ => True

/-- A worker with one lane between two steps. -/
structure Sound (config : CpuConfig) (worker : CpuWorker hasher) : Prop where
  slots : Slots worker.job
  adding : ∀ job resume, worker.stage = .adding job resume → job.Offered
  staged : worker.job.currentJob.target ≠ 0 → worker.Staged config

section Steps
variable {config : CpuConfig} {worker : CpuWorker hasher}

def CpuStage.idle : CpuStage → Bool
  | .outer | .paused | .consume _ | .saving _ _ | .leave | .stopped | .finished => true
  | _ => false

theorem sound_idle {after : CpuWorker hasher} (slots : Slots after.job) (idle : CpuStage.idle after.stage = true) :
    after.Sound config := by
  refine ⟨slots, ?_, fun _ => ?_⟩
  · intro job resume adding
    rw [adding] at idle
    cases idle
  · cases stage : after.stage with
    | inner | round | reserving | rounded | checking => rw [stage] at idle; cases idle
    | _ => simp only [Staged, stage]

theorem enter_sound (slots : Slots worker.job) : worker.enter.Sound config := by
  refine ⟨slots, ?_, fun _ => .inl rfl⟩
  intro job resume adding
  cases adding

theorem consumed_sound (slots : Slots worker.job) (resume : Bool) : (worker.consumed resume).Sound config := by
  cases resume with
  | true => exact enter_sound slots
  | false => exact sound_idle slots rfl

theorem addJob_sound {job : Job} {shared : CpuShared} (slots : Slots worker.job) (offered : job.Offered)
    (resume : Bool) : (worker.addJob shared job resume).Sound config := by
  have kept : Slots { worker.job with sequence := shared.nonce.sequence .cpu } := slots
  simp only [addJob]
  split
  · apply consumed_sound
    exact kept
  · split
    · apply consumed_sound
      exact kept.frame rfl rfl
    · exact sound_idle (openSlot_slots kept offered .cpu) rfl

theorem saveLane_sound {shared : CpuShared} (slots : Slots worker.job) (lane : Nat) (resume : Bool) :
    (worker.saveLane config shared lane resume).1.Sound config := by
  simp only [saveLane]
  split
  · obtain ⟨jobs, masks⟩ := next_jobs (worker.job.load lane worker.job.currentJob) shared.nonce lane
      worker.reserveCount fun _ => 0
    exact sound_idle (slots.frame jobs masks) rfl
  · exact consumed_sound slots resume

theorem beginHash_begun (forCpu : worker.job.currentJob.ForCpu) (random : Nat)
    (prepared : worker.Prepared) : (worker.beginHash random).Begun (worker.job.words 0).lo := by
  unfold beginHash
  split
  · let signed := signIf { worker with first := false } random
    have job : signed.job.currentJob = worker.job.currentJob := signIf_currentJob _ _
    have whole := forCpu
    rw [← job] at whole
    refine ⟨signed.input 0, hasher.first_ready _ _ _, input_length _ _, ?_, fun isSigned => ?_⟩
    · exact (nonceIn_input whole.sized 0).trans (signIf_nonce _ _)
    · exact signatureIn_input (whole.signed isSigned).2
  · rename_i begun
    exact (prepared.resolve_left begun).2

def CpuStage.inRound : CpuStage → Bool
  | .round | .reserving _ | .rounded => true
  | _ => false

theorem sound_inRound {after : CpuWorker hasher} (slots : Slots after.job) (stage : CpuStage.inRound after.stage = true)
    (awaited : after.job.currentJob.target ≠ 0 → after.Awaited config) : after.Sound config := by
  refine ⟨slots, ?_, fun positive => ?_⟩
  · intro job resume adding
    rw [adding] at stage
    cases stage
  · have known := awaited positive
    cases here : after.stage with
    | round | reserving | rounded => simpa only [Staged, here] using known
    | _ => rw [here] at stage; cases stage

theorem Sound.awaited (sound : worker.Sound config) (stage : CpuStage.inRound worker.stage = true)
    (positive : worker.job.currentJob.target ≠ 0) : worker.Awaited config := by
  have known := sound.staged positive
  cases here : worker.stage with
  | round | reserving | rounded => simpa only [Staged, here] using known
  | _ => rw [here] at stage; cases stage

theorem Prepared.frame {after : CpuWorker hasher} (prepared : worker.Prepared) (first : after.first = worker.first)
    (job : after.job.currentJob = worker.job.currentJob) (machine : after.machine = worker.machine)
    (signature : after.signature = worker.signature)
    (nonce : (after.job.words 0).lo = (worker.job.words 0).lo) : after.Prepared := by
  rcases prepared with free | ⟨randomX, begun⟩
  · exact .inl (first.trans free)
  · refine .inr ⟨?_, ?_⟩
    · simpa only [isRandomX, job] using randomX
    · rw [nonce]
      exact begun.frame job machine signature

theorem begin_awaited (forCpu : worker.job.currentJob.ForCpu) (random : Nat) (prepared : worker.Prepared)
    (read : worker.nonces 0 = (worker.job.words 0).lo) :
    (worker.isRandomX = true → (worker.beginHash random).Awaited config) ∧
      (worker.isRandomX = false → (worker.hashLanes config).Awaited config) := by
  constructor
  · intro randomX
    have kept : (worker.beginHash random).isRandomX = true := by
      rw [← randomX, isRandomX, isRandomX, beginHash]
      split
      · rw [signIf_currentJob]
      · rfl
    have same : (worker.beginHash random).nonces = worker.nonces := by
      unfold beginHash
      split
      · simp only [signIf]
        split <;> rfl
      · rfl
    rw [Awaited, if_pos kept, same, read]
    exact beginHash_begun forCpu random prepared
  · intro other
    have kept : (worker.hashLanes config).isRandomX = false := by
      rw [← other, hashLanes]
      split <;> rfl
    have free : worker.first = true := by
      refine prepared.resolve_right ?_
      rintro ⟨randomX, -⟩
      rw [other] at randomX
      cases randomX
    rw [Awaited, if_neg (by rw [kept]; decide)]
    have notFamily : ¬ worker.job.currentJob.algorithm.family = Algorithm.randomX := by
      simpa only [isRandomX, decide_eq_false_iff_not] using other
    unfold hashLanes
    split
    · rename_i valid
      refine ⟨free, fun _ => ⟨worker.input 0, input_length _ _, ?_, ?_, ?_⟩⟩
      · exact (nonceIn_input forCpu.sized 0).trans read.symm
      · exact if_neg notFamily
      · intro isSigned
        exact absurd (forCpu.signed isSigned).1 notFamily
    · rename_i invalid
      exact ⟨free, fun valid => absurd valid invalid⟩

theorem signIf_slots (slots : Slots worker.job) (random : Nat) : Slots (worker.signIf random).job := by
  unfold signIf
  split
  · exact slots.frame rfl rfl
  · exact slots

theorem beginHash_slots (slots : Slots worker.job) (random : Nat) : Slots (worker.beginHash random).job := by
  unfold beginHash
  split
  · apply signIf_slots
    exact slots
  · exact slots

theorem beginHash_currentJob (worker : CpuWorker hasher) (random : Nat) :
    (worker.beginHash random).job.currentJob = worker.job.currentJob := by
  unfold beginHash
  split
  · exact signIf_currentJob _ _
  · rfl

theorem hashLanes_job (config : CpuConfig) (worker : CpuWorker hasher) : (worker.hashLanes config).job = worker.job := by
  unfold hashLanes
  split <;> rfl

theorem launch_sound {shared : CpuShared} (slots : Slots worker.job) (random : Nat)
    (prepared : worker.job.currentJob.target ≠ 0 → worker.Prepared)
    (read : worker.nonces 0 = (worker.job.words 0).lo) :
    (worker.launch config shared random).1.Sound config := by
  have awaited (positive : worker.job.currentJob.target ≠ 0) :=
    @begin_awaited _ config _ (slots.carries positive).1 random (prepared positive) read
  simp only [launch]
  split
  · rename_i randomX
    refine sound_inRound (beginHash_slots slots random) rfl fun positive => ?_
    exact (awaited (beginHash_currentJob worker random ▸ positive)).1 randomX
  · rename_i other
    refine sound_inRound (hashLanes_job config worker ▸ slots) rfl fun positive => ?_
    exact (awaited (hashLanes_job config worker ▸ positive)).2 (Bool.not_eq_true _ ▸ other)

theorem innerStep_sound {shared : CpuShared} (slots : Slots worker.job) (random : Nat)
    (prepared : worker.job.currentJob.target ≠ 0 → worker.Prepared) :
    (worker.innerStep config shared random).1.Sound config := by
  simp only [innerStep]
  split
  · exact sound_idle slots rfl
  · split
    · exact sound_idle slots rfl
    · split
      · exact sound_idle slots rfl
      · unfold mixIf
        split
        · have nonce := mixData_nonce worker.readNonces shared.data
          have signature := mixData_signature worker.readNonces shared.data
          apply launch_sound
          · exact slots.frame rfl rfl
          · intro positive
            exact (prepared positive).frame rfl rfl rfl signature nonce
          · exact nonce.symm
        · apply launch_sound
          · exact slots
          · exact prepared
          · rfl

theorem Awaited.frame {after : CpuWorker hasher} (awaited : worker.Awaited config)
    (job : after.job.currentJob = worker.job.currentJob) (machine : after.machine = worker.machine)
    (signature : after.signature = worker.signature) (first : after.first = worker.first)
    (nonces : after.nonces = worker.nonces) (hashes : after.hashes = worker.hashes)
    (saved : after.saved = worker.saved) : after.Awaited config := by
  have kind : after.isRandomX = worker.isRandomX := by rw [isRandomX, isRandomX, job]
  have valid : after.valid config = worker.valid config := by
    rw [CpuWorker.valid, CpuWorker.valid, kind, job]
  unfold Awaited at awaited ⊢
  rw [kind, nonces, first, valid]
  split
  · rename_i randomX
    rw [if_pos randomX] at awaited
    exact awaited.frame job machine signature
  · rename_i other
    rw [if_neg other] at awaited
    exact ⟨awaited.1, fun isValid => (awaited.2 isValid).frame job nonces hashes saved⟩

theorem roundStep_sound (one : config.lanes = 1) (slots : Slots worker.job)
    (awaited : worker.job.currentJob.target ≠ 0 → worker.Awaited config) : (worker.roundStep config).Sound config := by
  simp only [roundStep, one]
  split
  · refine sound_inRound (slots.frame rfl rfl) rfl fun positive => ?_
    exact (awaited positive).frame rfl rfl rfl rfl rfl rfl rfl
  · refine sound_inRound (slots.frame rfl rfl) rfl fun positive => ?_
    have carries := WorkerJob.countRound_carries (slots.carries positive).2
    refine (awaited positive).frame rfl rfl ?_ rfl rfl rfl rfl
    exact signature_of_touched (WorkerJob.advance_touched 0 carries 1) rfl rfl

theorem setJobNonceHigh_slots (slots : Slots worker.job) (wide : worker.job.currentJob.nonceSize = 8)
    (word : BitVec 32) : Slots (worker.job.setJobNonceHigh word) := by
  intro slot
  by_cases here : slot = worker.job.index
  · subst here
    rcases slots worker.job.index with zero | ⟨forCpu, -, -⟩
    · left
      simp only [WorkerJob.setJobNonceHigh, Function.update_self]
      exact zero
    · have narrow : worker.job.currentJob.nonceSize = 4 := nonceSize_of_narrow forCpu.narrow
      omega
  · simp only [WorkerJob.setJobNonceHigh, Function.update_of_ne here]
    exact slots slot

theorem reserveLane_sound {shared : CpuShared} {lane : Nat} (one : config.lanes = 1) (slots : Slots worker.job)
    (awaited : worker.job.currentJob.target ≠ 0 → worker.Awaited config) :
    (worker.reserveLane config shared lane).1.Sound config := by
  obtain ⟨jobs, masks⟩ := next_jobs worker.job shared.nonce lane worker.reserveCount fun _ => 0
  simp only [reserveLane, one]
  split
  · rename_i inside
    obtain rfl : lane = 0 := by omega
    split
    · refine sound_inRound (slots.frame jobs masks) rfl fun positive => ?_
      have job := WorkerJob.next_currentJob worker.job shared.nonce 0 worker.reserveCount fun _ => 0
      have known : worker.job.currentJob.target ≠ 0 := by rwa [← job]
      refine (awaited known).frame job rfl ?_ rfl rfl rfl rfl
      exact signature_of_touched (WorkerJob.next_touched 0 (slots.carries known).2 _ _ _) rfl job
    · exact sound_idle (slots.frame jobs masks) rfl
  · split
    · rename_i wide
      refine sound_inRound (setJobNonceHigh_slots slots wide.2 _) rfl fun positive => ?_
      have target : (worker.job.setJobNonceHigh (worker.job.words 0).hi).currentJob.target =
          worker.job.currentJob.target := by
        simp [WorkerJob.setJobNonceHigh, WorkerJob.currentJob]
      have narrow := nonceSize_of_narrow (slots.carries (target ▸ positive)).1.narrow
      omega
    · refine sound_inRound slots rfl fun positive => ?_
      exact (awaited positive).frame rfl rfl rfl rfl rfl rfl rfl

theorem finishHash_sound (slots : Slots worker.job) (randomX : worker.isRandomX = true) (random : Nat)
    (awaited : worker.job.currentJob.target ≠ 0 → worker.Awaited config) :
    ((worker.finishHash random).at_ (.checking 0)).Sound config := by
  let before : CpuWorker hasher :=
    { worker with saved := if worker.job.currentJob.hasMinerSignature then worker.signature else worker.saved }
  let signed := signIf before random
  have job : signed.job.currentJob = worker.job.currentJob := signIf_currentJob _ _
  have kept : Slots signed.job := @signIf_slots hasher before slots random
  refine ⟨kept, ?_, fun positive => ?_⟩
  · intro other resume adding
    cases adding
  · have known : worker.job.currentJob.target ≠ 0 := job ▸ positive
    have forCpu := (slots.carries known).1
    have begun := awaited known
    rw [Awaited, if_pos randomX] at begun
    obtain ⟨blob, ready, length, contains, isSigned⟩ := begun
    have equal : signed = { before with job := signed.job } := signIf_eq before random
    have machine : signed.machine = worker.machine := by rw [equal]
    have nonces : signed.nonces = worker.nonces := by rw [equal]
    have saved : signed.saved = before.saved := by rw [equal]
    have family : signed.job.currentJob.algorithm.family = Algorithm.randomX := by
      rw [job]
      simpa only [isRandomX, decide_eq_true_eq] using randomX
    have whole : signed.job.currentJob.ForCpu := job ▸ forCpu
    rw [← job, ← machine] at ready
    rw [← job] at length contains isSigned
    refine ⟨fun _ => ⟨blob, length, ?_, ?_, ?_⟩, .inr ⟨?_, signed.input 0, ?_, input_length _ _, ?_, ?_⟩⟩
    · exact contains.trans (congrFun nonces.symm 0)
    · change hasher.hash signed.job.currentJob blob =
        Function.update signed.hashes 0 (hasher.next signed.job.currentJob signed.machine (signed.input 0)).1 0
      rw [Function.update_self, hasher.next_output _ _ _ _ ready, Hasher.hash, if_pos family]
    · intro hasOne
      change signed.job.currentJob.signatureIn blob = signed.saved
      rw [saved, isSigned hasOne]
      exact (if_pos (job ▸ hasOne)).symm
    · exact decide_eq_true family
    · exact hasher.next_ready _ _ _ _ ready
    · exact nonceIn_input whole.sized 0
    · intro hasOne
      exact signatureIn_input (whole.signed hasOne).2

theorem checkLane_consistent {shared : CpuShared} {submission : Submission} (slots : Slots worker.job)
    (computed : worker.job.currentJob.target ≠ 0 → worker.Computed)
    (submitted : .submit submission ∈ (worker.checkLane shared 0).2) : submission.Consistent hasher := by
  simp only [checkLane] at submitted
  split at submitted
  · cases submitted
  · split at submitted
    · rename_i below
      obtain rfl := CpuOutput.submit.inj (List.mem_singleton.mp submitted)
      have positive : worker.job.currentJob.target ≠ 0 := by
        intro zero
        rw [zero] at below
        exact absurd below (BitVec.not_lt_zero)
      have forCpu := (slots.carries positive).1
      have room := forCpu.sized.nonce
      have least := worker.job.currentJob.nonceSize_ge
      obtain ⟨blob, length, contains, hash, isSigned⟩ := computed positive
      refine ⟨blob, length, by dsimp only; omega, contains, hash, ?_⟩
      dsimp only
      split
      · rename_i hasOne
        exact ⟨by rw [length]; exact (forCpu.signed hasOne).2, by rw [isSigned hasOne]⟩
      · rfl
    · cases submitted

theorem innerStep_quiet {shared : CpuShared} {submission : Submission} (random : Nat) :
    .submit submission ∉ (worker.innerStep config shared random).2.2 := by
  simp only [innerStep]
  split
  · exact List.not_mem_nil
  · split
    · exact List.not_mem_nil
    · split
      · exact List.not_mem_nil
      · simp only [launch]
        split
        · exact List.not_mem_nil
        · dsimp only
          split
          · simp [available]
          · exact List.not_mem_nil

theorem reserveLane_quiet {shared : CpuShared} {submission : Submission} (lane : Nat) :
    .submit submission ∉ (worker.reserveLane config shared lane).2.2 := by
  simp only [reserveLane]
  split
  · split
    · exact List.not_mem_nil
    · simp
  · split
    · exact List.not_mem_nil
    · exact List.not_mem_nil

theorem step_sound {shared sharedAfter : CpuShared} {after : CpuWorker hasher} {outputs : List CpuOutput}
    {random : Nat} (one : config.lanes = 1) (sound : worker.Sound config) (offered : shared.job.Offered)
    (stepped : worker.step config shared random = some (after, sharedAfter, outputs)) :
    after.Sound config ∧ ∀ submission, .submit submission ∈ outputs → submission.Consistent hasher := by
  have slots := sound.slots
  have none_ (submission : Submission) : .submit submission ∈ ([] : List CpuOutput) → submission.Consistent hasher :=
    fun member => absurd member List.not_mem_nil
  unfold step at stepped
  cases stage : worker.stage with
  | outer =>
    simp only [stage] at stepped
    split at stepped
    · cases stepped
      exact ⟨sound_idle slots rfl, none_⟩
    · split at stepped
      · cases stepped
        exact ⟨sound_idle slots rfl, none_⟩
      · cases stepped
        exact ⟨enter_sound slots, none_⟩
  | paused =>
    simp only [stage] at stepped
    split at stepped
    · cases stepped
      exact ⟨sound_idle slots rfl, none_⟩
    · split at stepped
      · cases stepped
        exact ⟨sound, none_⟩
      · cases stepped
        exact ⟨sound_idle slots rfl, none_⟩
  | consume resume =>
    simp only [stage] at stepped
    split at stepped
    · cases stepped
      exact ⟨consumed_sound slots resume, none_⟩
    · cases stepped
      refine ⟨⟨slots, ?_, fun _ => trivial⟩, none_⟩
      intro job again adding
      cases adding
      exact offered
  | adding job resume =>
    simp only [stage] at stepped
    cases stepped
    exact ⟨addJob_sound slots (sound.adding job resume stage) resume, none_⟩
  | saving lane resume =>
    simp only [stage] at stepped
    cases stepped
    exact ⟨saveLane_sound slots lane resume, none_⟩
  | inner =>
    simp only [stage, Option.some.injEq] at stepped
    have prepared (positive : worker.job.currentJob.target ≠ 0) : worker.Prepared := by
      simpa only [Staged, stage] using sound.staged positive
    have quiet (submission : Submission) := @innerStep_quiet _ config worker shared submission random
    have result := @innerStep_sound _ config _ shared slots random prepared
    rw [stepped] at result quiet
    exact ⟨result, fun submission member => absurd member (quiet submission)⟩
  | round =>
    simp only [stage] at stepped
    cases stepped
    exact ⟨roundStep_sound one slots (sound.awaited (by rw [stage]; rfl)), none_⟩
  | reserving lane =>
    simp only [stage, Option.some.injEq] at stepped
    have quiet (submission : Submission) := @reserveLane_quiet _ config worker shared submission lane
    have result := @reserveLane_sound _ config _ shared lane one slots (sound.awaited (by rw [stage]; rfl))
    rw [stepped] at result quiet
    exact ⟨result, fun submission member => absurd member (quiet submission)⟩
  | rounded =>
    have awaited := sound.awaited (by rw [stage]; rfl)
    simp only [stage] at stepped
    split at stepped
    · rename_i randomX
      cases stepped
      refine ⟨finishHash_sound slots randomX random awaited, ?_⟩
      intro submission member
      simp [available] at member
    · rename_i other
      cases stepped
      refine ⟨⟨slots, ?_, fun positive => ?_⟩, none_⟩
      · intro job resume adding
        cases adding
      · have known := awaited positive
        rw [Awaited, if_neg other] at known
        exact ⟨known.2, .inl known.1⟩
  | checking lane =>
    have known (positive : worker.job.currentJob.target ≠ 0) :
        (worker.valid config = true → worker.Computed) ∧ worker.Prepared := by
      simpa only [Staged, stage] using sound.staged positive
    simp only [stage] at stepped
    split at stepped
    · rename_i inside
      obtain rfl : lane = 0 := by omega
      cases stepped
      refine ⟨⟨slots, ?_, fun positive => known positive⟩, ?_⟩
      · intro job resume adding
        cases adding
      · intro submission member
        exact checkLane_consistent slots (fun positive => (known positive).1 inside.1) member
    · cases stepped
      refine ⟨⟨slots, ?_, fun positive => (known positive).2⟩, none_⟩
      intro job resume adding
      cases adding
  | leave =>
    simp only [stage] at stepped
    cases stepped
    refine ⟨sound_idle slots ?_, none_⟩
    simp only [at_]
    split <;> rfl
  | stopped =>
    simp only [stage] at stepped
    cases stepped
  | finished =>
    simp only [stage] at stepped
    cases stepped

end Steps

end CpuWorker

/-! ## Whole runs -/

/-- The miner has a job for the processor. -/
def CpuEvent.Offers : CpuEvent → Prop
  | .work _ => True
  | .environment shared => shared.job.Offered

/-- Every submitted nonce, hash and signature belong to one hashed blob, in every run of a worker
with one lane that is offered jobs for the processor only. -/
theorem CpuRun.submissions_consistent (hasher : Hasher) (config : CpuConfig) (one : config.lanes = 1)
    (machine : hasher.Machine) (events : List CpuEvent)
    (offered : ∀ event ∈ events, event.Offers) (final : CpuRun hasher)
    (executed : run (CpuRun.step config) (CpuRun.start machine) events = some final) :
    ∀ submission, .submit submission ∈ final.outputs → submission.Consistent hasher := by
  let Inv (state : CpuRun hasher) : Prop := state.worker.Sound config ∧ state.shared.job.Offered ∧
    ∀ submission, .submit submission ∈ state.outputs → submission.Consistent hasher
  have fresh : Inv (CpuRun.start machine) := by
    refine ⟨CpuWorker.sound_idle (fun _ => .inl rfl) rfl, .inl rfl, ?_⟩
    intro submission member
    exact absurd member List.not_mem_nil
  refine (run_invariant (P := Inv) ?_ fresh (guarded_of_mem offered _) executed).2.2
  rintro state event next ⟨sound, job, consistent⟩ permitted stepped
  cases event with
  | environment shared =>
    cases stepped
    exact ⟨sound, permitted, consistent⟩
  | work random =>
    simp only [CpuRun.step, Option.map_eq_some_iff] at stepped
    obtain ⟨⟨after, shared, outputs⟩, moved, rfl⟩ := stepped
    obtain ⟨soundAfter, fine⟩ := CpuWorker.step_sound one sound job moved
    refine ⟨soundAfter, (CpuWorker.step_shared moved).1 ▸ job, ?_⟩
    intro submission member
    rcases List.mem_append.mp member with older | newer
    · exact consistent submission older
    · exact fine submission newer

def sampleHasher : Hasher where
  Machine := List Byte
  first _ _ input := input
  next _ machine input := ((Memory.ofBytes machine 39).setWidth 256, input)
  randomX _ input := (Memory.ofBytes input 39).setWidth 256
  direct _ input := (Memory.ofBytes input 39).setWidth 256
  sign _ message random := Vector.replicate 64 (BitVec.ofNat 8 (random + (Memory.ofBytes message 39).toNat))
  Ready _ input machine := machine = input
  first_ready _ _ _ := rfl
  next_output _ _ _ _ ready := by rw [ready]
  next_ready _ _ _ _ _ := rfl

def signedJob (size : Nat) : Job :=
  { algorithm := .rxWow, blob := List.replicate size 0, target := 1, diff := 1, hasMinerSignature := true }

def sampleConfig : CpuConfig := ⟨1, .rxWow, 4, by decide⟩

/-- The miner offers a job, and the worker goes on from there with different random numbers. -/
def sampleEvents (job : Job) (count : Nat) : List CpuEvent :=
  .environment { nonce := { paused := false }, job } :: (List.range count).map .work

theorem signedJob_forCpu : (signedJob 112).ForCpu :=
  ⟨by decide, by decide, fun _ => by decide⟩

theorem signedJob_outputs (size : Nat) (either : size = 112 ∨ size = 76) :
    (run (CpuRun.step sampleConfig) (@CpuRun.start sampleHasher []) (sampleEvents (signedJob size) 13)).map
        CpuRun.outputs =
      some [.hashed (signedJob size) 0 0, .submit ⟨signedJob size, 0, 0, some (Vector.replicate 64 8)⟩] := by
  rcases either with rfl | rfl
  · decide +kernel
  · decide +kernel

theorem submissions_consistent_signed :
    Submission.Consistent sampleHasher ⟨signedJob 112, 0, 0, some (Vector.replicate 64 8)⟩ := by
  obtain ⟨final, executed, outputs⟩ := Option.map_eq_some_iff.mp (signedJob_outputs 112 (.inl rfl))
  refine CpuRun.submissions_consistent sampleHasher sampleConfig rfl [] (sampleEvents (signedJob 112) 13) ?_ final
    executed _ ?_
  · intro event member
    rcases List.mem_cons.mp member with rfl | listed
    · exact .inr signedJob_forCpu
    · obtain ⟨random, -, rfl⟩ := List.mem_map.mp listed
      trivial
  · rw [outputs]
    exact List.mem_cons_of_mem _ (List.mem_singleton.mpr rfl)

/-- A signed job whose blob ends before the signature does: what is submitted as the signature was
not all hashed. -/
theorem short_blob_not_consistent :
    (signedJob 76).Sized ∧ (signedJob 76).algorithm.family = Algorithm.randomX ∧
    ∃ final submission, run (CpuRun.step sampleConfig) (@CpuRun.start sampleHasher [])
        (sampleEvents (signedJob 76) 13) = some final ∧
      .submit submission ∈ final.outputs ∧ ¬ submission.Consistent sampleHasher := by
  obtain ⟨final, executed, outputs⟩ := Option.map_eq_some_iff.mp (signedJob_outputs 76 (.inr rfl))
  refine ⟨by decide, by decide, final, ⟨signedJob 76, 0, 0, some (Vector.replicate 64 8)⟩, executed, ?_, ?_⟩
  · rw [outputs]
    exact List.mem_cons_of_mem _ (List.mem_singleton.mpr rfl)
  · rintro ⟨blob, length, -, -, -, signed⟩
    have room : (signedJob 76).nonceOffset + (signedJob 76).nonceSize + 64 ≤ blob.length := signed.1
    rw [length] at room
    exact absurd room (by decide)

end Xmrig
