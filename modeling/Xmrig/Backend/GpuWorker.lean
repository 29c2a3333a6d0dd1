import Xmrig.Backend.WorkerRounds

/-! The loop of a graphics worker, `OclWorker::start` and `CudaWorker::start`.

The two loops differ in timing only. The jobs are whatever the miner has at the
time; one of them is followed, and what the runner is given for it is kept as a
list of ranges. A runner that fails ends the run.
-/

set_option autoImplicit false

namespace Xmrig

open Foundation WorkerJob

/-- Where the loop stands: `ran` is behind a call of the runner. `resume` tells the call of
`consumeJob` behind a pause from the one at the end of the loop. -/
inductive GpuStage where
  | outer
  | waiting
  | consume (resume : Bool)
  | inner
  | ran
  | stopped
  deriving DecidableEq, Repr

/-- The job that is followed, and `intensity()` as the round size. -/
structure GpuSetup where
  backend : Backend
  job : Job
  roundSize : BitVec 32

def GpuSetup.setup (gpu : GpuSetup) : Setup := ⟨1, gpu.job, 1, gpu.roundSize⟩

/-- A worker with the shared counters and flags, the ranges that the runner was given for the job
that is followed and the calls of `JobResults::done`. `held` says that the slot of the job was last
saved for it, and `scanned` that the range in that slot is one of the ranges. -/
structure GpuWorker where
  job : WorkerJob := {}
  nonce : Nonce
  ready : Bool := true
  stage : GpuStage := .outer
  held : Bool := false
  scanned : Bool := false
  ranges : List Block := []
  done : Nat := 0

/-- A step of the worker, with the job that the miner has and the advances of the counter during it,
or a change of what the threads share. A counter may be reset in it. -/
inductive GpuEvent where
  | work (job : Job) (others : Nat → Nat → BitVec 62)
  | environment (sequences : Backend → BitVec 64) (paused ready : Bool) (resets : Fin 2 → Bool)

/-- The slot that `add` goes on with, if it does not save the job. -/
def WorkerJob.resumes (worker : WorkerJob) (job : Job) : Option (Fin 2) :=
  if worker.currentJob.isEqual job then some worker.index
  else if worker.index = donateIndex ∧ job.index = userIndex ∧ job.isEqual (worker.jobs userIndex) then some userIndex
  else none

namespace GpuWorker

def at_ (worker : GpuWorker) (stage : GpuStage) : GpuWorker := { worker with stage }

def isReady (worker : GpuWorker) : Bool := !worker.nonce.paused && worker.ready

def isOutdated (gpu : GpuSetup) (worker : GpuWorker) : Bool :=
  worker.nonce.isOutdated gpu.backend worker.job.sequence

def isActive (gpu : GpuSetup) (worker : GpuWorker) : Bool := worker.held && worker.job.index = gpu.job.index

def leave (worker : GpuWorker) : GpuWorker := worker.at_ (if worker.isReady then .consume false else .outer)

/-- `m_job.add(m_miner->job(), intensity(), backend)`. -/
def consumeJob (gpu : GpuSetup) (worker : GpuWorker) (resume : Bool) (job : Job) (others : Nat → Nat → BitVec 62) :
    GpuWorker :=
  let outcome := worker.job.add 1 worker.nonce job gpu.roundSize gpu.backend others
  -- A slot that is gone on with keeps its nonce, so what was scanned there stays scanned.
  let saved := (worker.job.resumes job).isNone && job.index = gpu.job.index
  { worker with
    job := outcome.worker
    nonce := outcome.nonce
    held := if saved then job = gpu.job else worker.held
    scanned := !saved && worker.scanned
    stage := if resume then .inner else .outer }

/-- `m_runner->run(readUnaligned(m_job.nonce()), ...)`. -/
def runRunner (gpu : GpuSetup) (worker : GpuWorker) : GpuWorker :=
  if worker.isActive gpu then
    { worker with ranges := gpu.setup.range worker.job 0 :: worker.ranges, scanned := true, stage := .ran }
  else worker.at_ .ran

/-- `m_job.nextRound(1, intensity())`; a refusal is reported, and the loop goes on. -/
def nextRound (gpu : GpuSetup) (worker : GpuWorker) (others : Nat → Nat → BitVec 62) : GpuWorker :=
  let outcome := worker.job.nextRound 1 worker.nonce 1 gpu.roundSize others
  { worker with
    job := outcome.worker
    nonce := outcome.nonce
    -- A refusal leaves the range in the blob that the runner has just been given.
    scanned := if worker.isActive gpu then !outcome.ok else worker.scanned
    stage := .inner
    done := if outcome.ok then worker.done else worker.done + 1 }

def work (gpu : GpuSetup) (worker : GpuWorker) (job : Job) (others : Nat → Nat → BitVec 62) : Option GpuWorker :=
  match worker.stage with
  | .outer =>
    if worker.nonce.sequence gpu.backend = 0 then some (worker.at_ .stopped)
    else some (worker.at_ (if worker.isReady then .inner else .waiting))
  | .waiting =>
    if worker.nonce.sequence gpu.backend = 0 then some (worker.at_ .stopped)
    else some (worker.at_ (if worker.isReady then .consume true else .waiting))
  | .consume resume =>
    if worker.nonce.sequence gpu.backend = 0 then some (worker.at_ .stopped)
    else some (worker.consumeJob gpu resume job others)
  | .inner => if worker.isOutdated gpu then some worker.leave else some (worker.runRunner gpu)
  -- Where the sequence was touched during the scan, `nextRound` is skipped.
  | .ran => if worker.isOutdated gpu then some (worker.at_ .inner) else some (worker.nextRound gpu others)
  | .stopped => none

def resetCounters (nonce : Nonce) (resets : Fin 2 → Bool) : Nonce :=
  { nonce with nonces := fun index => if resets index then 0 else nonce.nonces index }

def step (gpu : GpuSetup) (worker : GpuWorker) : GpuEvent → Option GpuWorker
  | .work job others => worker.work gpu job others
  | .environment sequences paused ready resets =>
    some { worker with nonce := { resetCounters worker.nonce resets with sequence := sequences, paused }, ready }

/-! ## The condition -/

/-- The worker has taken the job up. -/
def Taken (worker : GpuWorker) : Prop := worker.held = true ∨ worker.ranges ≠ []

instance decidableTaken (worker : GpuWorker) : Decidable worker.Taken := inferInstanceAs (Decidable (_ ∨ _))

/-- The counter of the slot has a block of nonces for a round inside of a mask. -/
def Left (gpu : GpuSetup) (worker : GpuWorker) (mask : BitVec 64) (others : Nat → Nat → BitVec 62) : Prop :=
  (worker.nonce.next gpu.job.index ⟨0, 0⟩ gpu.roundSize mask (others 0)).granted.isSome = true

instance decidableLeft (gpu : GpuSetup) (worker : GpuWorker) (mask : BitVec 64) (others : Nat → Nat → BitVec 62) :
    Decidable (worker.Left gpu mask others) := inferInstanceAs (Decidable (_ = true))

/-- The slot of the job is gone on with only if its range has not been scanned, and what is saved
in the slot gets nonces. -/
def MayConsume (gpu : GpuSetup) (worker : GpuWorker) (job : Job) (others : Nat → Nat → BitVec 62) : Prop :=
  match worker.job.resumes job with
  | some index => index = gpu.job.index → worker.held = true → worker.scanned = false
  | none => job.index = gpu.job.index → job = gpu.job ∨ worker.Taken → worker.Left gpu job.nonceMask others

/-- `MayConsume` where a job is consumed; a round in the slot of the job gets nonces. -/
def MayWork (gpu : GpuSetup) (worker : GpuWorker) (job : Job) (others : Nat → Nat → BitVec 62) : GpuStage → Prop
  | .consume _ => worker.MayConsume gpu job others
  | .ran => worker.isOutdated gpu = false → worker.job.index = gpu.job.index → worker.Taken →
      worker.Left gpu worker.job.nonceMask others
  | _ => True

/-- An outdated job is so until the worker consumes a job, and the counter of the slot is not reset
once the job is taken up. -/
def MayStep (gpu : GpuSetup) (worker : GpuWorker) : GpuEvent → Prop
  | .work job others => worker.MayWork gpu job others worker.stage
  | .environment sequences _ _ resets =>
    (worker.isOutdated gpu = true → sequences gpu.backend ≠ worker.job.sequence) ∧
      (worker.Taken → resets gpu.job.index = false)

instance decidableMayConsume (gpu : GpuSetup) (worker : GpuWorker) (job : Job) (others : Nat → Nat → BitVec 62) :
    Decidable (worker.MayConsume gpu job others) :=
  match resumed : worker.job.resumes job with
  | some index =>
    decidable_of_iff (index = gpu.job.index → worker.held = true → worker.scanned = false)
      (by simp only [MayConsume, resumed])
  | none =>
    decidable_of_iff (job.index = gpu.job.index → job = gpu.job ∨ worker.Taken → worker.Left gpu job.nonceMask others)
      (by simp only [MayConsume, resumed])

instance decidableMayWork (gpu : GpuSetup) (worker : GpuWorker) (job : Job) (others : Nat → Nat → BitVec 62) :
    (stage : GpuStage) → Decidable (worker.MayWork gpu job others stage)
  | .consume _ => decidableMayConsume gpu worker job others
  | .ran => inferInstanceAs (Decidable (_ → _ → _ → _))
  | .outer | .waiting | .inner | .stopped => .isTrue trivial

instance decidableMayStep (gpu : GpuSetup) (worker : GpuWorker) :
    (event : GpuEvent) → Decidable (worker.MayStep gpu event)
  | .work job others => decidableMayWork gpu worker job others worker.stage
  | .environment _ _ _ _ => inferInstanceAs (Decidable (_ ∧ _))

/-! ## The range in the slot -/

def view (gpu : GpuSetup) (job : WorkerJob) : WorkerJob := { job with index := gpu.job.index }

/-- The blob holds the last block that was granted, and it and the ranges before are apart. -/
def Holds (gpu : GpuSetup) (job : WorkerJob) (nonce : Nonce) (used : List Block) : Prop :=
  ∃ blocks firsts bound, Session.Inv gpu.setup ⟨job, nonce, blocks, used⟩ firsts bound

/-- What was scanned lies below the counter. -/
def Spent (gpu : GpuSetup) (nonce : Nonce) (used : List Block) : Prop :=
  ∃ bound, Base bound (nonce.nonces gpu.job.index).toNat ∧ Allocated used bound

structure SameSlot (index : Fin 2) (before after : WorkerJob) : Prop where
  blobs : after.blobs index = before.blobs index
  jobs : after.jobs index = before.jobs index
  rounds : after.rounds index = before.rounds index
  nonceMasks : after.nonceMasks index = before.nonceMasks index

section Slots
variable {index : Fin 2} {before middle after : WorkerJob}

theorem SameSlot.refl (worker : WorkerJob) : SameSlot index worker worker := ⟨rfl, rfl, rfl, rfl⟩

theorem SameSlot.trans (first : SameSlot index before middle) (second : SameSlot index middle after) :
    SameSlot index before after :=
  ⟨second.blobs.trans first.blobs, second.jobs.trans first.jobs, second.rounds.trans first.rounds,
    second.nonceMasks.trans first.nonceMasks⟩

theorem setBlob_sameSlot {worker : WorkerJob} (apart : index ≠ worker.index) (memory : Memory) :
    SameSlot index worker (worker.setBlob memory) :=
  ⟨Function.update_of_ne apart .., rfl, rfl, rfl⟩

theorem next_index (worker : WorkerJob) (nonce : Nonce) (lane : Nat) (count : BitVec 32) (others : Nat → BitVec 62) :
    (worker.next nonce lane count others).worker.index = worker.index := by
  simp only [WorkerJob.next]
  split <;> rfl

theorem next_sameSlot {worker : WorkerJob} (apart : index ≠ worker.index) (nonce : Nonce) (lane : Nat)
    (count : BitVec 32) (others : Nat → BitVec 62) :
    SameSlot index worker (worker.next nonce lane count others).worker := by
  simp only [WorkerJob.next]
  split
  · exact setBlob_sameSlot apart _
  · exact .refl worker

theorem save_sameSlot {worker : WorkerJob} {job : Job} (apart : index ≠ job.index) (nonce : Nonce)
    (count : BitVec 32) (backend : Backend) (others : Nat → Nat → BitVec 62) :
    SameSlot index worker (worker.save 1 nonce job count backend others).worker := by
  have opened : SameSlot index worker (worker.openSlot job backend) :=
    ⟨rfl, Function.update_of_ne apart .., Function.update_of_ne apart .., Function.update_of_ne apart ..⟩
  have loaded : SameSlot index (worker.openSlot job backend) ((worker.openSlot job backend).load 0 job) :=
    setBlob_sameSlot apart _
  exact (opened.trans loaded).trans (next_sameSlot apart nonce 0 count (others 0))

/-- A round of one lane is one call of `Nonce::next`. -/
theorem nextRound_single (worker : WorkerJob) (nonce : Nonce) (size : BitVec 32) (others : Nat → Nat → BitVec 62) :
    (worker.nextRound 1 nonce 1 size others).ok =
        (worker.countRound.next nonce 0 size (others 0)).granted.isSome ∧
      (worker.nextRound 1 nonce 1 size others).nonce = (worker.countRound.next nonce 0 size (others 0)).nonce ∧
      ((worker.nextRound 1 nonce 1 size others).worker = (worker.countRound.next nonce 0 size (others 0)).worker ∨
        ∃ word, (worker.nextRound 1 nonce 1 size others).worker =
          (worker.countRound.next nonce 0 size (others 0)).worker.setJobNonceHigh word) := by
  have boundary : worker.countRound.rounds worker.countRound.index &&& (1 - 1) = 0 := by
    rw [show (1 - 1 : BitVec 32) = 0#32 from rfl, BitVec.and_zero]
    rfl
  simp only [WorkerJob.nextRound, if_pos boundary, reserveLanes, show 1 * size = size from BitVec.one_mul size]
  cases granted : (worker.countRound.next nonce 0 size (others 0)).granted with
  | none => simp
  | some first =>
    simp only [Option.isSome_some, if_true, true_and]
    split
    · exact ⟨rfl, rfl, .inr ⟨_, rfl⟩⟩
    · exact ⟨rfl, rfl, .inl rfl⟩

theorem nextRound_sameSlot {worker : WorkerJob} (apart : index ≠ worker.index) (nonce : Nonce)
    (size : BitVec 32) (others : Nat → Nat → BitVec 62) :
    SameSlot index worker (worker.nextRound 1 nonce 1 size others).worker := by
  have counted : SameSlot index worker worker.countRound := ⟨rfl, rfl, Function.update_of_ne apart .., rfl⟩
  have reserved := counted.trans (@next_sameSlot index worker.countRound apart nonce 0 size (others 0))
  obtain ⟨_, _, same | ⟨word, same⟩⟩ := nextRound_single worker nonce size others
  · rw [same]
    exact reserved
  · rw [same]
    have other := (next_index worker.countRound nonce 0 size (others 0)).symm ▸ apart
    exact reserved.trans ⟨rfl, Function.update_of_ne other .., rfl, rfl⟩

theorem nextRound_nonceMasks (worker : WorkerJob) (nonce : Nonce) (size : BitVec 32)
    (others : Nat → Nat → BitVec 62) :
    (worker.nextRound 1 nonce 1 size others).worker.nonceMasks = worker.nonceMasks := by
  have kept : (worker.countRound.next nonce 0 size (others 0)).worker.nonceMasks = worker.nonceMasks := by
    simp only [WorkerJob.next]
    split <;> rfl
  obtain ⟨_, _, same | ⟨word, same⟩⟩ := nextRound_single worker nonce size others
  · rw [same, kept]
  · rw [same]
    exact kept

theorem save_index (worker : WorkerJob) (nonce : Nonce) (job : Job) (count : BitVec 32) (backend : Backend)
    (others : Nat → Nat → BitVec 62) :
    (worker.save 1 nonce job count backend others).worker.index = job.index :=
  next_index ..

theorem nextRound_index (worker : WorkerJob) (nonce : Nonce) (size : BitVec 32) (others : Nat → Nat → BitVec 62) :
    (worker.nextRound 1 nonce 1 size others).worker.index = worker.index := by
  obtain ⟨_, _, same | ⟨word, same⟩⟩ := nextRound_single worker nonce size others
  · rw [same, next_index]
    rfl
  · rw [same]
    exact next_index ..

theorem save_nonceMask (worker : WorkerJob) (nonce : Nonce) (job : Job) (count : BitVec 32) (backend : Backend)
    (others : Nat → Nat → BitVec 62) :
    (worker.save 1 nonce job count backend others).worker.nonceMasks job.index = job.nonceMask := by
  change (((worker.openSlot job backend).load 0 job).next nonce 0 count (others 0)).worker.nonceMasks job.index = _
  simp only [WorkerJob.next]
  split <;> exact Function.update_self ..

theorem save_counter (worker : WorkerJob) (nonce : Nonce) (job : Job) (count : BitVec 32) (backend : Backend)
    (others : Nat → Nat → BitVec 62) :
    (worker.save 1 nonce job count backend others).nonce =
      (nonce.next job.index ⟨0, 0⟩ count job.nonceMask (others 0)).nonce :=
  (next_counters (load_carries 0 (Session.openSlot_carries worker job backend))).2

theorem nextRound_counter (worker : WorkerJob) (nonce : Nonce) (size : BitVec 32) (others : Nat → Nat → BitVec 62) :
    (worker.nextRound 1 nonce 1 size others).nonce =
      (nonce.next worker.index ⟨0, 0⟩ size worker.nonceMask (others 0)).nonce := by
  rw [(nextRound_single worker nonce size others).2.1]
  exact (Nonce.next_words _).2

end Slots

/-! ## The counter -/

section Counter
variable {gpu : GpuSetup} {nonce : Nonce} {used : List Block} {others : Nat → Nat → BitVec 62}

theorem Spent.nil (gpu : GpuSetup) (nonce : Nonce) : Spent gpu nonce [] := ⟨0, .inl rfl, Allocated.nil 0⟩

theorem Spent.frame (spent : Spent gpu nonce used) {other : Nonce}
    (same : other.nonces gpu.job.index = nonce.nonces gpu.job.index) : Spent gpu other used := by
  obtain ⟨bound, base, allocated⟩ := spent
  exact ⟨bound, by rw [same]; exact base, allocated⟩

theorem Spent.tail {block : Block} (spent : Spent gpu nonce (block :: used)) : Spent gpu nonce used := by
  obtain ⟨bound, base, allocated⟩ := spent
  exact ⟨bound, base, fun other member => allocated.below other (List.mem_cons_of_mem _ member),
    (List.pairwise_cons.mp allocated.disjoint).2⟩

theorem Spent.next (spent : Spent gpu nonce used) {words : Nonce.Words} {count : BitVec 32} {mask : BitVec 64}
    {advances : Nat → BitVec 62} (low : Nonce.IsLow (Nonce.effective mask))
    (left : (nonce.next gpu.job.index words count mask advances).granted.isSome = true) :
    Spent gpu (nonce.next gpu.job.index words count mask advances).nonce used := by
  obtain ⟨bound, base, allocated⟩ := spent
  obtain ⟨first, granted⟩ := Option.isSome_iff_exists.mp left
  have block := Nonce.next_granted low granted
  have end_ := block.fits.lt low
  have counter := block.counter
  refine ⟨bound, ?_, allocated⟩
  rcases base with zero | ⟨behind, small⟩
  · exact .inl zero
  · have advanced := (advances 0).isLt
    have fresh := Nonce.next_fresh low (by omega) granted
    exact .inr ⟨by omega, by omega⟩

end Counter

/-! ## The range in the blob -/

section Blob
variable {gpu : GpuSetup} {job : WorkerJob} {nonce : Nonce} {used : List Block} {others : Nat → Nat → BitVec 62}

theorem setup_valid (sized : gpu.job.Sized) : gpu.setup.Valid := by
  refine ⟨sized, ⟨0, rfl⟩, ?_⟩
  have small := gpu.roundSize.isLt
  change 1 * gpu.roundSize.toNat < 2 ^ 32
  omega

theorem setup_count : gpu.setup.count = gpu.roundSize := BitVec.one_mul gpu.roundSize

theorem ranges_single : gpu.setup.ranges job = [gpu.setup.range job 0] := rfl

theorem Holds.spent (holds : Holds gpu job nonce used) : Spent gpu nonce used := by
  obtain ⟨blocks, firsts, bound, inv⟩ := holds
  exact ⟨bound, inv.base, inv.used, inv.shared.history⟩

theorem Holds.carries (holds : Holds gpu job nonce used) : job.Carries gpu.job := by
  obtain ⟨blocks, firsts, bound, inv⟩ := holds
  exact inv.lanes.carries

theorem Holds.frame {after : WorkerJob} (holds : Holds gpu (view gpu job) nonce used) (sized : gpu.job.Sized)
    (slot : SameSlot gpu.job.index job after) {other : Nonce}
    (counter : other.nonces gpu.job.index = nonce.nonces gpu.job.index) :
    Holds gpu (view gpu after) other used := by
  obtain ⟨blocks, firsts, bound, inv⟩ := holds
  have carries := inv.lanes.carries
  have kept : (view gpu after).Carries gpu.job :=
    ⟨rfl, (congrArg Job.size slot.jobs).trans carries.size, (congrArg Job.algorithm slot.jobs).trans carries.algorithm,
      slot.nonceMasks.trans carries.mask⟩
  have amount : Session.consumed gpu.setup (view gpu after) = Session.consumed gpu.setup (view gpu job) := by
    change (after.rounds gpu.job.index).toNat % _ * _ = (job.rounds gpu.job.index).toNat % _ * _
    rw [slot.rounds]
  have lanes : Session.Lanes gpu.setup (view gpu after) firsts (Session.consumed gpu.setup (view gpu job)) :=
    ⟨kept, inv.lanes.room, inv.lanes.fits, fun lane inside =>
      (inv.lanes.holds lane inside).frame sized carries kept fun position _ => congrFun slot.blobs _⟩
  refine ⟨blocks, firsts, bound, ⟨amount ▸ lanes, ?_, inv.blocks, inv.below, inv.used, ?_⟩⟩
  · change Base bound (other.nonces gpu.job.index).toNat
    rw [counter]
    exact inv.base
  · change Shared used (Session.unused gpu.setup firsts (Session.consumed gpu.setup (view gpu after))) _
    rw [amount]
    exact inv.shared

theorem range_frame {after : WorkerJob} (slot : SameSlot gpu.job.index job after) :
    gpu.setup.range (view gpu after) 0 = gpu.setup.range (view gpu job) 0 := by
  have words : (view gpu after).words 0 = (view gpu job).words 0 := by
    simp only [words, blob, WorkerJob.nonce, currentJob, view, slot.blobs, slot.jobs]
  rw [Setup.range, words]
  rfl

theorem Holds.frameRange {after : WorkerJob}
    (holds : Holds gpu (view gpu job) nonce (gpu.setup.range (view gpu job) 0 :: used)) (sized : gpu.job.Sized)
    (slot : SameSlot gpu.job.index job after) {other : Nonce}
    (counter : other.nonces gpu.job.index = nonce.nonces gpu.job.index) :
    Holds gpu (view gpu after) other (gpu.setup.range (view gpu after) 0 :: used) := by
  rw [range_frame slot]
  exact holds.frame sized slot counter

theorem view_of_index (same : job.index = gpu.job.index) : view gpu job = job := by
  rw [view, ← same]

theorem Spent.save (spent : Spent gpu nonce used) (sized : gpu.job.Sized) (positive : 0 < gpu.roundSize.toNat)
    (left : (nonce.next gpu.job.index ⟨0, 0⟩ gpu.roundSize gpu.job.nonceMask (others 0)).granted.isSome = true) :
    Holds gpu (job.save 1 nonce gpu.job gpu.roundSize gpu.backend others).worker
      (job.save 1 nonce gpu.job gpu.roundSize gpu.backend others).nonce
      (gpu.setup.range (job.save 1 nonce gpu.job gpu.roundSize gpu.backend others).worker 0 :: used) := by
  obtain ⟨bound, base, allocated⟩ := spent
  obtain ⟨first, granted⟩ := Option.isSome_iff_exists.mp left
  have room : reserveAll gpu.setup.job.index gpu.setup.count gpu.setup.job.nonceMask others gpu.setup.lanes 0 nonce =
      some ([first], (nonce.next gpu.job.index ⟨0, 0⟩ gpu.roundSize gpu.job.nonceMask (others 0)).nonce) := by
    rw [setup_count]
    change reserveAll gpu.job.index gpu.roundSize gpu.job.nonceMask others 1 0 nonce = _
    rw [reserveAll_cons granted]
    rfl
  obtain ⟨high, inv⟩ := @Session.save_inv _ job _ _ gpu.backend _ _ (setup_valid sized) positive _ _ base
    allocated.disjoint allocated.below room
  rw [Session.start, setup_count, ranges_single] at inv
  exact ⟨_, _, high, inv⟩

theorem Holds.nextRound (holds : Holds gpu job nonce used) (sized : gpu.job.Sized) (positive : 0 < gpu.roundSize.toNat)
    (left : (nonce.next gpu.job.index ⟨0, 0⟩ gpu.roundSize job.nonceMask (others 0)).granted.isSome = true) :
    (job.nextRound 1 nonce 1 gpu.roundSize others).ok = true ∧
      Holds gpu (job.nextRound 1 nonce 1 gpu.roundSize others).worker
        (job.nextRound 1 nonce 1 gpu.roundSize others).nonce
        (gpu.setup.range (job.nextRound 1 nonce 1 gpu.roundSize others).worker 0 :: used) := by
  have ok : (job.nextRound 1 nonce 1 gpu.roundSize others).ok = true := by
    have counters := @next_counters _ _ gpu.roundSize others 0 nonce (countRound_carries holds.carries)
    rw [(nextRound_single job nonce gpu.roundSize others).1, counters.1, ← holds.carries.mask]
    exact left
  obtain ⟨blocks, firsts, bound, inv⟩ := holds
  have stepped : Session.step gpu.setup ⟨job, nonce, blocks, used⟩ others = some _ := if_pos ok
  obtain ⟨later, high, next⟩ := Session.step_inv (setup_valid sized) positive inv stepped
  exact ⟨ok, _, later, high, next⟩

end Blob

/-! ## Whole runs -/

/-- Stages at which the loop may go on with the range in the blob. -/
def AtHead (worker : GpuWorker) : Prop := worker.stage = .outer ∨ worker.stage = .waiting ∨ worker.stage = .inner

/-- The scanned ranges are apart, the slot of the job holds one that is apart from all of them or
was the last, and a range that was scanned is not looked at again. -/
structure Sound (gpu : GpuSetup) (worker : GpuWorker) : Prop where
  low : Nonce.IsLow (Nonce.effective (worker.job.nonceMasks gpu.job.index))
  spent : Spent gpu worker.nonce worker.ranges
  fresh : worker.held = true → worker.scanned = false → Holds gpu (view gpu worker.job) worker.nonce
    (gpu.setup.range (view gpu worker.job) 0 :: worker.ranges)
  last : worker.stage = .ran → worker.isActive gpu = true →
    worker.scanned = true ∧ Holds gpu (view gpu worker.job) worker.nonce worker.ranges
  stale : worker.AtHead → worker.isActive gpu = true → worker.scanned = true → worker.isOutdated gpu = true

section Steps
variable {gpu : GpuSetup} {worker next : GpuWorker} {job : Job} {others : Nat → Nat → BitVec 62}

theorem isActive_iff : worker.isActive gpu = true ↔ worker.held = true ∧ worker.job.index = gpu.job.index := by
  simp [isActive]

theorem not_atHead {stage : GpuStage} (outer : stage ≠ .outer) (waiting : stage ≠ .waiting) (inner : stage ≠ .inner) :
    ¬(worker.at_ stage).AtHead := by
  rintro (same | same | same)
  · exact outer same
  · exact waiting same
  · exact inner same

theorem Sound.at_ (sound : worker.Sound gpu) {stage : GpuStage} (ran : stage ≠ .ran)
    (stale : (worker.at_ stage).AtHead → worker.isActive gpu = true → worker.scanned = true →
      worker.isOutdated gpu = true) :
    (worker.at_ stage).Sound gpu :=
  ⟨sound.low, sound.spent, sound.fresh, fun reached => absurd reached ran, stale⟩

theorem Sound.leave (sound : worker.Sound gpu) (outdated : worker.isOutdated gpu = true) : worker.leave.Sound gpu := by
  refine sound.at_ ?_ fun _ _ _ => outdated
  split <;> decide

/-- Nothing that was scanned is lost where the counter is reset. -/
theorem Sound.environment (sound : worker.Sound gpu) (sized : gpu.job.Sized) {sequence : Backend → BitVec 64}
    {paused ready : Bool} {resets : Fin 2 → Bool}
    (allowed : (worker.isOutdated gpu = true → sequence gpu.backend ≠ worker.job.sequence) ∧
      (worker.Taken → resets gpu.job.index = false)) :
    Sound gpu { worker with nonce := { resetCounters worker.nonce resets with sequence, paused }, ready } := by
  have counter : worker.Taken → (resetCounters worker.nonce resets).nonces gpu.job.index =
      worker.nonce.nonces gpu.job.index := fun taken => by
    simp only [resetCounters, allowed.2 taken, Bool.false_eq_true, if_false]
  have holds : ∀ {used}, worker.Taken → Holds gpu (view gpu worker.job) worker.nonce used →
      Holds gpu (view gpu worker.job) { resetCounters worker.nonce resets with sequence, paused } used :=
    fun taken holds => holds.frame sized (.refl _) (counter taken)
  refine ⟨sound.low, ?_, fun held scanned => holds (.inl held) (sound.fresh held scanned), fun ran active => ?_,
    fun head active scanned => decide_eq_true (allowed.1 (sound.stale head active scanned))⟩
  -- Before the job is taken up nothing lies below the counter, so that it may be reset.
  · by_cases empty : worker.ranges = []
    · simp only [empty]
      exact .nil ..
    · exact sound.spent.frame (counter (.inr empty))
  · obtain ⟨scanned, last⟩ := sound.last ran active
    exact ⟨scanned, holds (.inl (isActive_iff.mp active).1) last⟩

theorem add_resumed {index : Fin 2} (resumed : worker.job.resumes job = some index) :
    worker.job.add 1 worker.nonce job gpu.roundSize gpu.backend others =
      ⟨true, { worker.job with sequence := worker.nonce.sequence gpu.backend, index }, worker.nonce, []⟩ := by
  unfold WorkerJob.resumes at resumed
  unfold WorkerJob.add
  split at resumed
  · rename_i equal
    cases resumed
    exact if_pos equal
  · rename_i other
    split at resumed
    · rename_i switched
      cases resumed
      exact (if_neg other).trans (if_pos switched)
    · cases resumed

theorem add_saved (saved : worker.job.resumes job = none) :
    worker.job.add 1 worker.nonce job gpu.roundSize gpu.backend others =
      WorkerJob.save 1 { worker.job with sequence := worker.nonce.sequence gpu.backend } worker.nonce job
        gpu.roundSize gpu.backend others := by
  unfold WorkerJob.resumes at saved
  unfold WorkerJob.add
  split at saved
  · cases saved
  · rename_i other
    split at saved
    · cases saved
    · rename_i apart
      exact (if_neg other).trans (if_neg apart)

theorem consumeJob_resumed (sound : worker.Sound gpu) (sized : gpu.job.Sized) (resume : Bool) {index : Fin 2}
    (resumed : worker.job.resumes job = some index)
    (allowed : index = gpu.job.index → worker.held = true → worker.scanned = false) :
    (worker.consumeJob gpu resume job others).Sound gpu := by
  have same : worker.consumeJob gpu resume job others =
      { worker with
        job := { worker.job with sequence := worker.nonce.sequence gpu.backend, index }
        stage := if resume then .inner else .outer } := by
    simp only [consumeJob, add_resumed resumed, resumed, Option.isNone_some, Bool.false_and, Bool.false_eq_true,
      if_false, Bool.not_false, Bool.true_and]
  have slot : SameSlot gpu.job.index worker.job
      { worker.job with sequence := worker.nonce.sequence gpu.backend, index } := ⟨rfl, rfl, rfl, rfl⟩
  rw [same]
  refine ⟨sound.low, sound.spent, fun held scanned => ?_, fun ran => ?_, fun _ active scanned => ?_⟩
  · exact (sound.fresh held scanned).frameRange sized slot rfl
  · split at ran <;> cases ran
  -- A range that was scanned is excluded by the condition, both for the current job and for a switch.
  · obtain ⟨held, here⟩ := isActive_iff.mp active
    rw [allowed here held] at scanned
    cases scanned

theorem consumeJob_saved (sound : worker.Sound gpu) (sized : gpu.job.Sized) (positive : 0 < gpu.roundSize.toNat)
    (resume : Bool) (saved : worker.job.resumes job = none)
    (allowed : job.index = gpu.job.index → job = gpu.job ∨ worker.Taken → worker.Left gpu job.nonceMask others) :
    (worker.consumeJob gpu resume job others).Sound gpu := by
  generalize started : { worker.job with sequence := worker.nonce.sequence gpu.backend } = start
  have slot : SameSlot gpu.job.index worker.job start := by
    subst started
    exact ⟨rfl, rfl, rfl, rfl⟩
  have stage : (worker.consumeJob gpu resume job others).stage ≠ .ran := by
    change (if resume then GpuStage.inner else GpuStage.outer) ≠ .ran
    split <;> decide
  have added := @add_saved gpu worker job others saved
  rw [started] at added
  have index := save_index start worker.nonce job gpu.roundSize gpu.backend others
  have counter := save_counter start worker.nonce job gpu.roundSize gpu.backend others
  by_cases here : job.index = gpu.job.index
  · have low := Nonce.effective_nonceMask_low job
    have mask := save_nonceMask start worker.nonce job gpu.roundSize gpu.backend others
    rw [here] at index counter mask
    have spent : Spent gpu (start.save 1 worker.nonce job gpu.roundSize gpu.backend others).nonce worker.ranges := by
      by_cases empty : worker.ranges = []
      · rw [empty]
        exact .nil ..
      · rw [counter]
        exact sound.spent.next low (allowed here (.inr (.inr empty)))
    refine ⟨?_, ?_, ?_, fun ran => absurd ran stage, ?_⟩
    · simp only [consumeJob, added, mask]
      exact low
    · simp only [consumeJob, added]
      exact spent
    · simp only [consumeJob, added, saved, here, Option.isNone_none, decide_true, Bool.and_self, if_true]
      intro same _
      -- The slot holds the job only if it was the job itself that was saved.
      have equal := of_decide_eq_true same
      subst equal
      rw [view_of_index index]
      exact sound.spent.save sized positive (allowed here (.inl rfl))
    · simp [consumeJob, saved, here]
  · -- The other slot is in use from here on.
    have same : SameSlot gpu.job.index worker.job
        (start.save 1 worker.nonce job gpu.roundSize gpu.backend others).worker :=
      slot.trans (save_sameSlot (Ne.symm here) worker.nonce gpu.roundSize gpu.backend others)
    have kept : (start.save 1 worker.nonce job gpu.roundSize gpu.backend others).nonce.nonces gpu.job.index =
        worker.nonce.nonces gpu.job.index := by
      rw [counter]
      exact Nonce.next_other (Ne.symm here)
    refine ⟨?_, ?_, ?_, fun ran => absurd ran stage, fun _ active _ => ?_⟩
    · simp only [consumeJob, added, same.nonceMasks]
      exact sound.low
    · simp only [consumeJob, added]
      exact sound.spent.frame kept
    · simp only [consumeJob, added, here, decide_false, Bool.and_false, Bool.false_eq_true, if_false, Bool.not_false,
        Bool.true_and]
      exact fun held scanned => (sound.fresh held scanned).frameRange sized same kept
    · have moved := (isActive_iff.mp active).2
      simp only [consumeJob, added, index] at moved
      exact absurd moved here

theorem consumeJob_sound (sound : worker.Sound gpu) (sized : gpu.job.Sized) (positive : 0 < gpu.roundSize.toNat)
    (resume : Bool) (allowed : worker.MayConsume gpu job others) :
    (worker.consumeJob gpu resume job others).Sound gpu := by
  cases resumed : worker.job.resumes job with
  | some index =>
    simp only [MayConsume, resumed] at allowed
    exact consumeJob_resumed sound sized resume resumed allowed
  | none =>
    simp only [MayConsume, resumed] at allowed
    exact consumeJob_saved sound sized positive resume resumed allowed

theorem runRunner_sound (sound : worker.Sound gpu) (current : worker.isActive gpu = true → worker.scanned = false) :
    (worker.runRunner gpu).Sound gpu := by
  unfold runRunner
  split
  · rename_i active
    obtain ⟨held, here⟩ := isActive_iff.mp active
    have holds := sound.fresh held (current active)
    rw [view_of_index here] at holds
    refine ⟨sound.low, holds.spent, fun _ scanned => Bool.noConfusion scanned, fun _ _ => ⟨rfl, ?_⟩, fun head => ?_⟩
    · rw [view_of_index here]
      exact holds
    · exact absurd head (@not_atHead worker _ (by decide) (by decide) (by decide))
  · rename_i other
    exact ⟨sound.low, sound.spent, sound.fresh, fun _ active => absurd active other,
      fun _ active => absurd active other⟩

theorem nextRound_sound (sound : worker.Sound gpu) (sized : gpu.job.Sized) (positive : 0 < gpu.roundSize.toNat)
    (ran : worker.stage = .ran)
    (left : worker.job.index = gpu.job.index → worker.Taken → worker.Left gpu worker.job.nonceMask others) :
    (worker.nextRound gpu others).Sound gpu := by
  have index := nextRound_index worker.job worker.nonce gpu.roundSize others
  have counter := nextRound_counter worker.job worker.nonce gpu.roundSize others
  have masks := nextRound_nonceMasks worker.job worker.nonce gpu.roundSize others
  have low : Nonce.IsLow (Nonce.effective ((worker.nextRound gpu others).job.nonceMasks gpu.job.index)) := by
    simp only [nextRound, masks]
    exact sound.low
  by_cases here : worker.job.index = gpu.job.index
  · have spent : Spent gpu (worker.job.nextRound 1 worker.nonce 1 gpu.roundSize others).nonce worker.ranges := by
      by_cases empty : worker.ranges = []
      · rw [empty]
        exact .nil ..
      · have granted := left here (.inr empty)
        have narrow := sound.low
        rw [counter, here]
        rw [← here] at narrow
        exact sound.spent.next narrow granted
    cases held : worker.held with
    | true =>
      have active : worker.isActive gpu = true := isActive_iff.mpr ⟨held, here⟩
      obtain ⟨_, holds⟩ := sound.last ran active
      rw [view_of_index here] at holds
      obtain ⟨ok, later⟩ := holds.nextRound sized positive (left here (.inl held))
      refine ⟨low, spent, fun _ _ => ?_, (fun reached => by cases reached), fun _ _ scanned => ?_⟩
      · simp only [nextRound]
        rw [view_of_index (index.trans here)]
        exact later
      · simp only [nextRound, active, if_true, ok, Bool.not_true] at scanned
        cases scanned
    | false =>
      have never : (worker.nextRound gpu others).held ≠ true := by
        simp only [nextRound, held]
        decide
      exact ⟨low, spent, fun taken => absurd taken never, (fun reached => by cases reached),
        fun _ active => absurd (isActive_iff.mp active).1 never⟩
  · have same := nextRound_sameSlot (Ne.symm here) worker.nonce gpu.roundSize others
    have kept : (worker.job.nextRound 1 worker.nonce 1 gpu.roundSize others).nonce.nonces gpu.job.index =
        worker.nonce.nonces gpu.job.index := by
      rw [counter]
      exact Nonce.next_other (Ne.symm here)
    have inactive : worker.isActive gpu ≠ true := fun active => here (isActive_iff.mp active).2
    refine ⟨low, sound.spent.frame kept, fun held scanned => ?_, (fun reached => by cases reached), fun _ active _ => ?_⟩
    · simp only [nextRound, if_neg inactive] at scanned
      exact (sound.fresh held scanned).frameRange sized same kept
    · exact absurd (index.symm.trans (isActive_iff.mp active).2) here

theorem step_sound {event : GpuEvent} (sized : gpu.job.Sized) (positive : 0 < gpu.roundSize.toNat)
    (sound : worker.Sound gpu) (allowed : worker.MayStep gpu event) (stepped : worker.step gpu event = some next) :
    next.Sound gpu := by
  cases event with
  | environment sequence paused ready resets =>
    cases stepped
    exact sound.environment sized allowed
  | work job others =>
    simp only [step, work] at stepped
    simp only [MayStep, MayWork] at allowed
    cases stage : worker.stage with
    | outer =>
      have stale := sound.stale (.inl stage)
      simp only [stage] at stepped
      split at stepped
      · cases stepped
        exact sound.at_ (by decide) fun _ => stale
      · cases stepped
        exact sound.at_ (by split <;> decide) fun _ => stale
    | waiting =>
      have stale := sound.stale (.inr (.inl stage))
      simp only [stage] at stepped
      split at stepped
      · cases stepped
        exact sound.at_ (by decide) fun _ => stale
      · cases stepped
        exact sound.at_ (by split <;> decide) fun _ => stale
    | consume resume =>
      simp only [stage] at stepped allowed
      split at stepped
      · cases stepped
        exact sound.at_ (by decide) fun head => absurd head (not_atHead (by decide) (by decide) (by decide))
      · cases stepped
        exact consumeJob_sound sound sized positive resume allowed
    | inner =>
      simp only [stage] at stepped
      split at stepped
      · rename_i outdated
        cases stepped
        exact sound.leave outdated
      · rename_i current
        cases stepped
        refine runRunner_sound sound fun active => Bool.eq_false_iff.mpr fun scanned => ?_
        exact current (sound.stale (.inr (.inr stage)) active scanned)
    | ran =>
      simp only [stage] at stepped allowed
      split at stepped
      · rename_i outdated
        cases stepped
        exact sound.at_ (by decide) fun _ _ _ => outdated
      · rename_i current
        cases stepped
        exact nextRound_sound sound sized positive stage (allowed (Bool.eq_false_iff.mpr current))
    | stopped =>
      simp only [stage] at stepped
      cases stepped

end Steps

theorem step_empty {gpu : GpuSetup} {worker next : GpuWorker} {event : GpuEvent} (zero : gpu.roundSize = 0)
    (empty : ∀ block ∈ worker.ranges, block.count = 0) (stepped : worker.step gpu event = some next) :
    ∀ block ∈ next.ranges, block.count = 0 := by
  cases event with
  | environment sequence paused ready resets =>
    cases stepped
    exact empty
  | work job others =>
    simp only [step, work] at stepped
    split at stepped
    all_goals try split at stepped
    all_goals cases stepped
    all_goals try exact empty
    unfold runRunner
    split
    · intro block member
      rcases List.mem_cons.mp member with rfl | old
      · change gpu.roundSize.toNat = 0
        rw [zero]
        rfl
      · exact empty block old
    · exact empty

/-- The ranges that the runner is given for a job are apart, in every run of a worker in which nonces
are left wherever the worker asks for them, a slot is not gone on with whose range was scanned, and
the counter is not reset behind the worker. -/
theorem ranges_disjoint (gpu : GpuSetup) (sized : gpu.job.Sized) (nonce : Nonce) (events : List GpuEvent)
    (allowed : Guarded (step gpu) (MayStep gpu) { nonce } events) (final : GpuWorker)
    (executed : run (step gpu) { nonce } events = some final) : final.ranges.Pairwise Block.Disjoint := by
  by_cases zero : gpu.roundSize = 0
  · have empty : ∀ block ∈ final.ranges, block.count = 0 := by
      refine run_keeps (P := fun worker => ∀ block ∈ worker.ranges, block.count = 0) ?_ ?_ executed
      · exact fun worker event next empty stepped => step_empty zero empty stepped
      · exact fun block member => absurd member List.not_mem_nil
    refine List.Pairwise.imp_of_mem (R := fun _ _ => True) ?_ (List.pairwise_of_forall fun _ _ => trivial)
    rintro block other member - - value ⟨inside, -⟩
    have nothing := empty block member
    have low := inside.1
    have high := inside.2
    omega
  · have positive : 0 < gpu.roundSize.toNat := by
      apply Nat.pos_of_ne_zero
      exact fun same => zero (BitVec.eq_of_toNat_eq same)
    have noMask : Nonce.IsLow (Nonce.effective 0) := ⟨0, by decide, by decide⟩
    have start : Sound gpu { nonce } :=
      ⟨noMask, .nil .., (fun held => Bool.noConfusion held), (fun reached => by cases reached),
        fun _ active => Bool.noConfusion active⟩
    have sound := run_invariant (P := Sound gpu)
      (fun worker event next sound allowed stepped => step_sound sized positive sound allowed stepped) start allowed
      executed
    obtain ⟨bound, base, allocated⟩ := sound.spent
    exact allocated.disjoint

def sampleGpu : GpuSetup := ⟨.opencl, { algorithm := .cn0, blob := List.replicate 76 0, diff := 1 }, 256⟩

def sampleDonation : Job := { sampleGpu.job with id := some "donation", index := donateIndex }

def works (job : Job) (count : Nat) : List GpuEvent := List.replicate count (.work job fun _ _ => 0)

def touched (sequence : BitVec 64) : GpuEvent := .environment (fun _ => sequence) false true fun _ => false

def sampleEvents (rounds : Nat) : List GpuEvent := touched 1 :: works sampleGpu.job (4 + 2 * rounds)

def switchEvents : List GpuEvent :=
  sampleEvents 2 ++ touched 2 :: works sampleDonation 5 ++ touched 3 :: works sampleGpu.job 4

theorem switchEvents_runs : (run (step sampleGpu) { nonce := {} } switchEvents).isSome = true := by
  decide +kernel

theorem ranges_disjoint_sample :
    ∃ final, run (step sampleGpu) { nonce := {} } switchEvents = some final ∧
      final.ranges = [⟨512, 256⟩, ⟨256, 256⟩, ⟨0, 256⟩] ∧ final.ranges.Pairwise Block.Disjoint := by
  have executed := (Option.some_get switchEvents_runs).symm
  exact ⟨_, executed, by decide +kernel,
    ranges_disjoint sampleGpu (by decide) {} switchEvents (by decide +kernel) _ executed⟩

def lastNonce : Nonce := { nonces := fun _ => 0xFFFFFE00 }

theorem lastNonce_runs :
    (run (step sampleGpu) { nonce := lastNonce } (sampleEvents 3)).isSome = true := by
  decide +kernel

/-- Behind a refusal the runner is given the same range again. -/
theorem refused_round_rescans :
    ∃ (gpu : GpuSetup) (nonce : Nonce) (events : List GpuEvent) (final : GpuWorker), gpu.job.Sized ∧
      run (step gpu) { nonce } events = some final ∧ ¬ final.ranges.Pairwise Block.Disjoint := by
  refine ⟨sampleGpu, lastNonce, sampleEvents 3, _, by decide, (Option.some_get lastNonce_runs).symm, ?_⟩
  have scanned : ((run (step sampleGpu) { nonce := lastNonce } (sampleEvents 3)).get lastNonce_runs).ranges =
      [⟨0xFFFFFF00, 256⟩, ⟨0xFFFFFF00, 256⟩, ⟨0xFFFFFE00, 256⟩] := by
    decide +kernel
  rw [scanned]
  intro disjoint
  have apart := (List.pairwise_cons.mp disjoint).1 _ (.head _)
  exact apart 0xFFFFFF00 ⟨⟨by decide, by decide⟩, ⟨by decide, by decide⟩⟩

end GpuWorker

end Xmrig
