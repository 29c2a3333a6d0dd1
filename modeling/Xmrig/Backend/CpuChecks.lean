import Xmrig.Backend.CpuResults

/-! No hash of a processor worker is thrown away, as long as there are nonces left.

A hash is in flight from where it becomes available to the check of its lane. In
the direct path `nextRound` stands between the two, and a refusal there leaves
the loop.
-/

set_option autoImplicit false

namespace Xmrig

open Foundation

namespace CpuWorker
variable {hasher : Hasher}

/-- Stages at which the hash of a lane is still to be checked. -/
def Unchecked (worker : CpuWorker hasher) (lane : Nat) : Prop :=
  match worker.stage with
  | .round | .reserving _ | .rounded => worker.isRandomX = false
  | .checking reached => reached ≤ lane
  | _ => False

/-- A hash of the current job that the loop is about to check. -/
def InFlight (config : CpuConfig) (worker : CpuWorker hasher) (job : Job) (nonce : BitVec 32) (hash : BitVec 256) :
    Prop :=
  worker.job.currentJob = job ∧ worker.valid config = true ∧
    ∃ lane < config.lanes, worker.nonces lane = nonce ∧ worker.hashes lane = hash ∧ worker.Unchecked lane

/-- A hash was submitted, or is not below the target. -/
def Settled (outputs : List CpuOutput) (job : Job) (nonce : BitVec 32) (hash : BitVec 256) : Prop :=
  (∃ signature, .submit ⟨job, nonce, hash, signature⟩ ∈ outputs) ∨ ¬ hashValue hash < job.target

theorem Settled.append {outputs : List CpuOutput} {job : Job} {nonce : BitVec 32} {hash : BitVec 256}
    (settled : Settled outputs job nonce hash) (more : List CpuOutput) : Settled (outputs ++ more) job nonce hash := by
  rcases settled with ⟨signature, member⟩ | high
  · exact .inl ⟨signature, List.mem_append_left _ member⟩
  · exact .inr high

end CpuWorker

namespace CpuRun
variable {hasher : Hasher}

/-- The next block of nonces for a lane fits the nonce space, wherever a worker of the direct path
asks for one. -/
def Enough (config : CpuConfig) (state : CpuRun hasher) : Prop :=
  ∀ lane < config.lanes, state.worker.stage = .reserving lane → state.worker.isRandomX = false →
    Nonce.Fits (Nonce.effective state.worker.job.nonceMask) state.worker.reserveCount
      (state.shared.nonce.nonces state.worker.job.index)

/-- The miner has no benchmark and no KawPow, and nonces are left where they are asked for. -/
def mayStep (config : CpuConfig) (state : CpuRun hasher) : CpuEvent → Prop
  | .work _ => state.Enough config
  | .environment shared => shared.benchSize = 0 ∧ shared.job.algorithm.family ≠ Algorithm.kawpow

instance decidableEnough (config : CpuConfig) (state : CpuRun hasher) : Decidable (state.Enough config) :=
  inferInstanceAs (Decidable (∀ lane < config.lanes, state.worker.stage = .reserving lane →
    state.worker.isRandomX = false → Nonce.Fits (Nonce.effective state.worker.job.nonceMask)
      state.worker.reserveCount (state.shared.nonce.nonces state.worker.job.index)))

instance decidableMayStep (config : CpuConfig) (state : CpuRun hasher) :
    (event : CpuEvent) → Decidable (state.mayStep config event)
  | .work _ => decidableEnough config state
  | .environment shared =>
    inferInstanceAs (Decidable (shared.benchSize = 0 ∧ shared.job.algorithm.family ≠ Algorithm.kawpow))

end CpuRun

namespace CpuWorker
variable {hasher : Hasher}

def CpuStage.isAdding : CpuStage → Bool
  | .adding _ _ => true
  | _ => false

/-- What the slots and the stage need for the loop to keep its hashes. -/
structure Plain (worker : CpuWorker hasher) : Prop where
  benchSize : worker.benchSize = 0
  narrow : ∀ slot, (worker.job.jobs slot).algorithm.family ≠ Algorithm.kawpow
  masks : ∀ slot, Nonce.IsLow (Nonce.effective (worker.job.nonceMasks slot))
  adding : ∀ job resume, worker.stage = .adding job resume → job.algorithm.family ≠ Algorithm.kawpow

section Plain
variable {config : CpuConfig} {worker after : CpuWorker hasher} {shared sharedAfter : CpuShared}
  {random : Nat} {outputs : List CpuOutput}

theorem Plain.frame (plain : worker.Plain) (benchSize : after.benchSize = worker.benchSize)
    (jobs : after.job.jobs = worker.job.jobs) (masks : after.job.nonceMasks = worker.job.nonceMasks)
    (adding : CpuStage.isAdding after.stage = false) : after.Plain where
  benchSize := benchSize.trans plain.benchSize
  narrow slot := jobs ▸ plain.narrow slot
  masks slot := masks ▸ plain.masks slot
  adding job resume here := by
    rw [here] at adding
    cases adding

theorem consumed_plain (plain : worker.Plain) (resume : Bool) : (worker.consumed resume).Plain := by
  cases resume with
  | true => exact plain.frame rfl rfl rfl rfl
  | false => exact plain.frame rfl rfl rfl rfl

theorem openSlot_plain (plain : worker.Plain) {job : Job} (narrow : job.algorithm.family ≠ Algorithm.kawpow)
    {slots : WorkerJob} (jobs : slots.jobs = worker.job.jobs) (masks : slots.nonceMasks = worker.job.nonceMasks)
    (resume : Bool) : Plain { worker with job := slots.openSlot job .cpu, stage := .saving 0 resume } where
  benchSize := plain.benchSize
  narrow slot := by
    by_cases here : slot = job.index
    · subst here
      simpa [WorkerJob.openSlot] using narrow
    · simpa [WorkerJob.openSlot, Function.update_of_ne here, jobs] using plain.narrow slot
  masks slot := by
    by_cases here : slot = job.index
    · subst here
      simpa [WorkerJob.openSlot] using Nonce.effective_nonceMask_low job
    · simpa [WorkerJob.openSlot, Function.update_of_ne here, masks] using plain.masks slot
  adding other again adding := by cases adding

theorem addJob_plain (plain : worker.Plain) {job : Job} (narrow : job.algorithm.family ≠ Algorithm.kawpow)
    (resume : Bool) : (worker.addJob shared job resume).Plain := by
  have kept (slots : WorkerJob) (jobs : slots.jobs = worker.job.jobs) (masks : slots.nonceMasks = worker.job.nonceMasks) :
      Plain { worker with job := slots, stage := .outer } :=
    plain.frame rfl jobs masks rfl
  simp only [addJob]
  split
  · have known := kept { worker.job with sequence := shared.nonce.sequence .cpu } rfl rfl
    cases resume with
    | true => exact known.frame rfl rfl rfl rfl
    | false => exact known
  · split
    · have known := kept { worker.job with sequence := shared.nonce.sequence .cpu, index := userIndex } rfl rfl
      cases resume with
      | true => exact known.frame rfl rfl rfl rfl
      | false => exact known
    · apply openSlot_plain plain narrow
      · rfl
      · rfl

theorem signIf_jobs (worker : CpuWorker hasher) (random : Nat) :
    (worker.signIf random).benchSize = worker.benchSize ∧ (worker.signIf random).job.jobs = worker.job.jobs ∧
      (worker.signIf random).job.nonceMasks = worker.job.nonceMasks := by
  unfold signIf
  split <;> exact ⟨rfl, rfl, rfl⟩

theorem launch_plain (plain : worker.Plain) : (worker.launch config shared random).1.Plain := by
  simp only [launch]
  split
  · unfold beginHash
    split
    · obtain ⟨benchSize, jobs, masks⟩ := signIf_jobs { worker with first := false } random
      exact plain.frame benchSize jobs masks rfl
    · exact plain.frame rfl rfl rfl rfl
  · unfold hashLanes
    split
    · exact plain.frame rfl rfl rfl rfl
    · exact plain.frame rfl rfl rfl rfl

theorem innerStep_plain (plain : worker.Plain) : (worker.innerStep config shared random).1.Plain := by
  simp only [innerStep]
  split
  · exact plain.frame rfl rfl rfl rfl
  · split
    · exact plain.frame rfl rfl rfl rfl
    · split
      · exact plain.frame rfl rfl rfl rfl
      · have read : worker.readNonces.Plain := ⟨plain.benchSize, plain.narrow, plain.masks, plain.adding⟩
        apply launch_plain
        unfold mixIf
        split
        · exact ⟨plain.benchSize, plain.narrow, plain.masks, plain.adding⟩
        · exact read

theorem advanceLanes_jobs (size : BitVec 32) (left lane : Nat) (slots : WorkerJob) :
    (WorkerJob.advanceLanes size left lane slots).jobs = slots.jobs ∧
      (WorkerJob.advanceLanes size left lane slots).nonceMasks = slots.nonceMasks ∧
      (WorkerJob.advanceLanes size left lane slots).index = slots.index := by
  induction left generalizing lane slots with
  | zero => exact ⟨rfl, rfl, rfl⟩
  | succ left ih =>
    obtain ⟨jobs, masks, index⟩ := ih (lane + 1) (slots.advance lane size)
    exact ⟨jobs, masks, index⟩

theorem roundStep_plain (plain : worker.Plain) : (worker.roundStep config).Plain := by
  obtain ⟨jobs, masks, -⟩ := advanceLanes_jobs 1 config.lanes 0 worker.job.countRound
  simp only [roundStep]
  split
  · exact plain.frame rfl rfl rfl rfl
  · exact plain.frame rfl jobs masks rfl

theorem Plain.nonceSize (plain : worker.Plain) : worker.job.currentJob.nonceSize = 4 :=
  nonceSize_of_narrow (plain.narrow worker.job.index)

theorem reserveLane_plain (plain : worker.Plain) (lane : Nat) : (worker.reserveLane config shared lane).1.Plain := by
  obtain ⟨jobs, masks⟩ := next_jobs worker.job shared.nonce lane worker.reserveCount fun _ => 0
  have narrow := plain.nonceSize
  simp only [reserveLane]
  split
  · split
    · exact plain.frame rfl jobs masks rfl
    · exact plain.frame rfl jobs masks rfl
  · split
    · omega
    · exact plain.frame rfl rfl rfl rfl

theorem step_plain (plain : worker.Plain) (bench : shared.benchSize = 0)
    (narrow : shared.job.algorithm.family ≠ Algorithm.kawpow)
    (stepped : worker.step config shared random = some (after, sharedAfter, outputs)) : after.Plain := by
  unfold step at stepped
  cases stage : worker.stage with
  | outer | paused | leave | checking =>
    simp only [stage] at stepped
    repeat' split at stepped
    all_goals
      cases stepped
      exact plain.frame rfl rfl rfl (by simp only [at_, enter, stage]; rfl)
  | consume resume =>
    simp only [stage] at stepped
    split at stepped
    · cases stepped
      exact consumed_plain plain resume
    · cases stepped
      refine ⟨bench, plain.narrow, plain.masks, ?_⟩
      intro job again adding
      cases adding
      exact narrow
  | adding job resume =>
    simp only [stage] at stepped
    cases stepped
    exact addJob_plain plain (plain.adding job resume stage) resume
  | saving lane resume =>
    simp only [stage, saveLane] at stepped
    cases stepped
    split
    · obtain ⟨jobs, masks⟩ := next_jobs (worker.job.load lane worker.job.currentJob) shared.nonce lane
        worker.reserveCount fun _ => 0
      exact plain.frame rfl jobs masks rfl
    · exact consumed_plain plain resume
  | inner =>
    simp only [stage, Option.some.injEq] at stepped
    have result := @innerStep_plain _ config _ shared random plain
    rwa [stepped] at result
  | round =>
    simp only [stage] at stepped
    cases stepped
    exact roundStep_plain plain
  | reserving lane =>
    simp only [stage, Option.some.injEq] at stepped
    have result := @reserveLane_plain _ config _ shared plain lane
    rwa [stepped] at result
  | rounded =>
    simp only [stage] at stepped
    split at stepped
    · cases stepped
      obtain ⟨benchSize, jobs, masks⟩ := signIf_jobs
        { worker with saved := if worker.job.currentJob.hasMinerSignature then worker.signature else worker.saved }
        random
      exact plain.frame benchSize jobs masks rfl
    · cases stepped
      exact plain.frame rfl rfl rfl rfl
  | stopped | finished =>
    simp only [stage] at stepped
    cases stepped

end Plain

end CpuWorker

/-! ## Hashes in flight -/

section Flight
open CpuWorker
variable {hasher : Hasher} {config : CpuConfig} {worker after : CpuWorker hasher}
  {shared sharedAfter : CpuShared} {random : Nat} {outputs more : List CpuOutput}

/-- Every hash was settled or is in flight. -/
def Accounted (config : CpuConfig) (worker : CpuWorker hasher) (outputs : List CpuOutput) : Prop :=
  ∀ job nonce hash, .hashed job nonce hash ∈ outputs →
    Settled outputs job nonce hash ∨ worker.InFlight config job nonce hash

theorem Accounted.settled (accounted : Accounted config worker outputs) (idle : ∀ lane < config.lanes,
    worker.valid config = true → ¬ worker.Unchecked lane) {job : Job} {nonce : BitVec 32} {hash : BitVec 256}
    (member : .hashed job nonce hash ∈ outputs) : Settled outputs job nonce hash := by
  refine (accounted job nonce hash member).resolve_right ?_
  rintro ⟨-, valid, lane, inside, -, -, unchecked⟩
  exact idle lane inside valid unchecked

theorem Accounted.launch (accounted : Accounted config worker outputs) (idle : ∀ lane < config.lanes,
    worker.valid config = true → ¬ worker.Unchecked lane)
    (new : ∀ job nonce hash, .hashed job nonce hash ∈ more → after.InFlight config job nonce hash) :
    Accounted config after (outputs ++ more) := by
  intro job nonce hash member
  rcases List.mem_append.mp member with older | newer
  · exact .inl ((accounted.settled idle older).append more)
  · exact .inr (new job nonce hash newer)

theorem Accounted.fly (accounted : Accounted config worker outputs)
    (job : after.job.currentJob = worker.job.currentJob) (nonces : after.nonces = worker.nonces)
    (hashes : after.hashes = worker.hashes) (unchecked : ∀ lane, worker.Unchecked lane → after.Unchecked lane) :
    Accounted config after (outputs ++ []) := by
  have valid : after.valid config = worker.valid config := by
    simp only [CpuWorker.valid, CpuWorker.isRandomX, job]
  intro aJob nonce hash member
  rw [List.append_nil] at member ⊢
  refine (accounted aJob nonce hash member).imp_right ?_
  rintro ⟨same, isValid, lane, inside, isNonce, isHash, waiting⟩
  exact ⟨job.trans same, valid.trans isValid, lane, inside, by rw [nonces, isNonce], by rw [hashes, isHash],
    unchecked lane waiting⟩

theorem Accounted.check {reached : Nat} (accounted : Accounted config worker outputs)
    (bench : worker.benchSize = 0) (stage : worker.stage = .checking reached) :
    Accounted config (worker.at_ (.checking (reached + 1))) (outputs ++ (worker.checkLane shared reached).2) := by
  intro job nonce hash member
  have older : .hashed job nonce hash ∈ outputs := by
    refine (List.mem_append.mp member).resolve_right ?_
    simp only [checkLane, bench, ne_eq, not_true_eq_false, if_false]
    split
    · simp
    · exact List.not_mem_nil
  rcases accounted job nonce hash older with settled | ⟨same, valid, lane, inside, isNonce, isHash, waiting⟩
  · exact .inl (settled.append _)
  · simp only [Unchecked, stage] at waiting
    rcases Nat.eq_or_lt_of_le waiting with here | later
    · subst here
      left
      by_cases below : hashValue hash < job.target
      · refine .inl ⟨if job.hasMinerSignature then some worker.saved else none, List.mem_append_right _ ?_⟩
        simp only [checkLane, bench, ne_eq, not_true_eq_false, if_false]
        rw [if_pos (by rwa [isHash, same]), List.mem_singleton, isNonce, isHash, same]
      · exact .inr below
    · exact .inr ⟨same, valid, lane, inside, isNonce, isHash, later⟩

theorem isRandomX_congr (job : after.job.currentJob = worker.job.currentJob) : after.isRandomX = worker.isRandomX := by
  rw [isRandomX, isRandomX, job]

theorem launch_flies {job : Job} {nonce : BitVec 32} {hash : BitVec 256}
    (member : .hashed job nonce hash ∈ (worker.launch config shared random).2.2) :
    (worker.launch config shared random).1.InFlight config job nonce hash := by
  simp only [CpuWorker.launch] at member ⊢
  split at member
  · cases member
  · rename_i other
    rw [if_neg other]
    dsimp only at member ⊢
    split at member
    · rename_i valid
      simp only [available, List.mem_map, List.mem_range, CpuOutput.hashed.injEq] at member
      obtain ⟨lane, inside, rfl, rfl, rfl⟩ := member
      have kept : ((worker.hashLanes config).at_ .round).job = worker.job := hashLanes_job config worker
      refine ⟨rfl, ?_, lane, inside, rfl, rfl, ?_⟩
      · simpa only [CpuWorker.valid, isRandomX, kept] using valid
      · simpa [Unchecked, at_, isRandomX, hashLanes_job] using other
    · cases member

theorem not_unchecked (idle : CpuStage.inRound worker.stage = false)
    (checking : ∀ reached, worker.stage ≠ .checking reached) (lane : Nat) : ¬ worker.Unchecked lane := by
  cases stage : worker.stage with
  | round | reserving | rounded => rw [stage] at idle; cases idle
  | checking reached => exact absurd stage (checking reached)
  | _ => simp [Unchecked, stage]

theorem innerStep_accounted (accounted : Accounted config worker outputs) (stage : worker.stage = .inner) :
    Accounted config (worker.innerStep config shared random).1
      (outputs ++ (worker.innerStep config shared random).2.2) := by
  have idle : ∀ lane < config.lanes, worker.valid config = true → ¬ worker.Unchecked lane := by
    intro lane _ _
    simp [Unchecked, stage]
  have quiet : ∀ after : CpuWorker hasher, Accounted config after (outputs ++ []) := fun after =>
    accounted.launch idle fun job nonce hash member => absurd member List.not_mem_nil
  simp only [innerStep]
  split
  · exact quiet _
  · split
    · exact quiet _
    · split
      · exact quiet _
      · exact accounted.launch idle fun job nonce hash member => launch_flies member

theorem reserveLane_accounted (accounted : Accounted config worker outputs) (plain : worker.Plain) {lane : Nat}
    (stage : worker.stage = .reserving lane) (enough : lane < config.lanes → worker.isRandomX = false →
      Nonce.Fits (Nonce.effective worker.job.nonceMask) worker.reserveCount (shared.nonce.nonces worker.job.index)) :
    Accounted config (worker.reserveLane config shared lane).1
      (outputs ++ (worker.reserveLane config shared lane).2.2) := by
  have narrow := plain.nonceSize
  have job := WorkerJob.next_currentJob worker.job shared.nonce lane worker.reserveCount fun _ => 0
  simp only [reserveLane]
  split
  · rename_i inside
    cases kind : worker.isRandomX with
    | true =>
      -- Nothing is in flight while the machine is still busy with the blob.
      have idle : ∀ lane < config.lanes, worker.valid config = true → ¬ worker.Unchecked lane := by
        intro lane _ _
        simp [Unchecked, stage, kind]
      split
      · exact accounted.launch idle fun job nonce hash member => absurd member List.not_mem_nil
      · refine accounted.launch idle fun job nonce hash member => ?_
        simp at member
    | false =>
      have fetched : (shared.nonce.fetchAdd worker.job.index worker.reserveCount 0).1 =
          shared.nonce.nonces worker.job.index := by
        simp [Nonce.fetchAdd]
      have granted := (@Nonce.next_of_fits _ _ (worker.job.words lane) _ _ (fun _ => 0)
        (plain.masks worker.job.index) (fetched.symm ▸ enough inside kind)).1
      rw [if_pos (by simp only [WorkerJob.next]; rw [WorkerJob.nonceMask, granted]; rfl)]
      refine accounted.fly job rfl rfl fun other waiting => ?_
      simp only [Unchecked, stage] at waiting ⊢
      exact (isRandomX_congr job).trans waiting
  · split
    · omega
    · refine accounted.fly rfl rfl rfl fun other waiting => ?_
      simp only [Unchecked, stage] at waiting
      exact waiting

theorem step_accounted (accounted : Accounted config worker outputs) (plain : worker.Plain)
    (enough : ∀ lane < config.lanes, worker.stage = .reserving lane → worker.isRandomX = false →
      Nonce.Fits (Nonce.effective worker.job.nonceMask) worker.reserveCount (shared.nonce.nonces worker.job.index))
    (stepped : worker.step config shared random = some (after, sharedAfter, more)) :
    Accounted config after (outputs ++ more) := by
  have quiet (idle : CpuStage.inRound worker.stage = false) (checking : ∀ reached, worker.stage ≠ .checking reached)
      (later : CpuWorker hasher) : Accounted config later (outputs ++ []) :=
    accounted.launch (fun lane _ _ => not_unchecked idle checking lane)
      fun job nonce hash member => absurd member List.not_mem_nil
  unfold step at stepped
  cases stage : worker.stage with
  | outer | paused | consume | adding | saving | leave =>
    simp only [stage] at stepped
    repeat' split at stepped
    all_goals
      cases stepped
      exact quiet (by rw [stage]; rfl) (by rw [stage]; intro reached same; cases same) _
  | inner =>
    simp only [stage, Option.some.injEq] at stepped
    have result := @innerStep_accounted _ config _ shared random _ accounted stage
    rwa [stepped] at result
  | round =>
    simp only [stage] at stepped
    cases stepped
    obtain ⟨jobs, -, index⟩ := advanceLanes_jobs 1 config.lanes 0 worker.job.countRound
    have job : (worker.roundStep config).job.currentJob = worker.job.currentJob := by
      simp only [roundStep]
      split
      · rfl
      · simp only [WorkerJob.currentJob, jobs, index]
        rfl
    refine accounted.fly job ?_ ?_ ?_
    · simp only [roundStep]
      split <;> rfl
    · simp only [roundStep]
      split <;> rfl
    · intro lane waiting
      have direct : (worker.roundStep config).isRandomX = false := by
        rw [isRandomX_congr job]
        simpa only [Unchecked, stage] using waiting
      have there : (worker.roundStep config).stage = .reserving 0 ∨ (worker.roundStep config).stage = .rounded := by
        simp only [roundStep]
        split
        · exact .inl rfl
        · exact .inr rfl
      rcases there with reserving | rounded
      · simpa only [Unchecked, reserving] using direct
      · simpa only [Unchecked, rounded] using direct
  | reserving lane =>
    simp only [stage, Option.some.injEq] at stepped
    have result := @reserveLane_accounted _ config _ shared _ accounted plain _ stage (fun inside => enough lane inside stage)
    rwa [stepped] at result
  | rounded =>
    simp only [stage] at stepped
    split at stepped
    · rename_i randomX
      cases stepped
      refine accounted.launch (fun lane _ _ => by simp [Unchecked, stage, randomX]) ?_
      intro job nonce hash member
      simp only [available, List.mem_map, List.mem_range, CpuOutput.hashed.injEq] at member
      obtain ⟨lane, inside, rfl, rfl, rfl⟩ := member
      obtain rfl : lane = 0 := by omega
      have kind : (worker.finishHash random).isRandomX = true := by
        rw [← randomX]
        exact isRandomX_congr (signIf_currentJob _ _)
      refine ⟨rfl, ?_, 0, config.positive, rfl, rfl, Nat.le_refl 0⟩
      rw [CpuWorker.valid, show ((worker.finishHash random).at_ (.checking 0)).isRandomX = true from kind]
      rfl
    · cases stepped
      exact accounted.fly rfl rfl rfl fun lane _ => Nat.zero_le lane
  | checking reached =>
    simp only [stage] at stepped
    split at stepped
    · cases stepped
      exact accounted.check plain.benchSize stage
    · rename_i past
      cases stepped
      refine accounted.launch ?_ fun job nonce hash member => absurd member List.not_mem_nil
      intro lane inside valid waiting
      simp only [Unchecked, stage] at waiting
      exact past ⟨valid, by omega⟩
  | stopped | finished =>
    simp only [stage] at stepped
    cases stepped

end Flight

/-! ## Whole runs -/

/-- Every available hash was submitted, or is not below the target, or is still on its way to the
check of its lane, in every run in which the direct path finds the nonces it asks for. -/
theorem CpuRun.hashes_accounted (hasher : Hasher) (config : CpuConfig) (machine : hasher.Machine)
    (events : List CpuEvent)
    (allowed : Guarded (CpuRun.step config) (CpuRun.mayStep config) (CpuRun.start machine) events)
    (final : CpuRun hasher) (executed : run (CpuRun.step config) (CpuRun.start machine) events = some final) :
    Accounted config final.worker final.outputs := by
  let Inv (state : CpuRun hasher) : Prop := Accounted config state.worker state.outputs ∧ state.worker.Plain ∧
    state.shared.benchSize = 0 ∧ state.shared.job.algorithm.family ≠ Algorithm.kawpow
  have fresh : Inv (CpuRun.start machine) := by
    have family : ({} : Job).algorithm.family ≠ Algorithm.kawpow := by decide
    have mask : (Nonce.effective 0).toNat = 2 ^ 0 - 1 := by decide
    refine ⟨fun job nonce hash member => absurd member List.not_mem_nil, ⟨rfl, ?_, ?_, ?_⟩, rfl, family⟩
    · exact fun _ => family
    · exact fun _ => ⟨0, by decide, mask⟩
    · intro job resume adding
      cases adding
  refine (run_invariant (P := Inv) ?_ fresh allowed executed).1
  rintro state event next ⟨accounted, plain, bench, narrow⟩ permitted stepped
  cases event with
  | environment shared =>
    cases stepped
    exact ⟨accounted, plain, permitted.1, permitted.2⟩
  | work random =>
    simp only [CpuRun.step, Option.map_eq_some_iff] at stepped
    obtain ⟨⟨after, shared, outputs⟩, moved, rfl⟩ := stepped
    have same := CpuWorker.step_shared moved
    refine ⟨step_accounted accounted plain permitted moved, CpuWorker.step_plain plain bench narrow moved, ?_, ?_⟩
    · rw [same.2, bench]
    · rw [same.1]
      exact narrow

/-! ## A lost hash -/

/-- A hasher of the direct path for which one nonce of the first block is a hit. -/
def lastHasher : Hasher where
  Machine := Unit
  first _ _ _ := ()
  next _ _ _ := (0, ())
  randomX _ _ := 0
  direct job input := if job.nonceIn input = 32767 then 0 else BitVec.allOnes 256
  sign _ _ _ := Vector.replicate 64 0
  Ready _ _ _ := True
  first_ready _ _ _ := trivial
  next_output _ _ _ _ _ := rfl
  next_ready _ _ _ _ _ := trivial

def directJob : Job := { algorithm := .cn0, blob := List.replicate 76 0, target := 1, diff := 1 }

def directConfig : CpuConfig := ⟨1, .cn0, 4, Nat.one_pos⟩

def directShared (counter : BitVec 64) (paused : Bool) : CpuShared :=
  { nonce := { paused, nonces := fun _ => counter }, job := directJob }

def directOpening : List CpuEvent := .environment (directShared 0 false) :: List.replicate 8 (.work 0)

theorem directOpening_runs :
    (run (CpuRun.step directConfig) (@CpuRun.start lastHasher ()) directOpening).isSome = true := by
  decide

theorem directOpening_guarded :
    Guarded (CpuRun.step directConfig) (CpuRun.mayStep directConfig) (@CpuRun.start lastHasher ())
      (directOpening ++ List.replicate 7 (.work 0)) := by
  decide +kernel

theorem directRun_runs :
    (run (CpuRun.step directConfig) (@CpuRun.start lastHasher ())
      (directOpening ++ List.replicate 7 (.work 0))).isSome = true := by
  decide +kernel

theorem hashes_accounted_direct :
    ∃ final, run (CpuRun.step directConfig) (@CpuRun.start lastHasher ())
        (directOpening ++ List.replicate 7 (.work 0)) = some final ∧
      final.outputs = [.hashed directJob 0 (BitVec.allOnes 256), .hashed directJob 1 (BitVec.allOnes 256)] ∧
      Accounted directConfig final.worker final.outputs := by
  have executed := (Option.some_get directRun_runs).symm
  exact ⟨_, executed, by decide +kernel,
    CpuRun.hashes_accounted lastHasher directConfig () _ directOpening_guarded _ executed⟩

/-- Between two rounds of the first block, when the other threads have taken all the rest. -/
structure Cruising (done : Nat) (state : CpuRun lastHasher) : Prop where
  stage : state.worker.stage = .inner
  benchSize : state.worker.benchSize = 0
  job : state.worker.job.currentJob = directJob
  rounds : state.worker.job.rounds state.worker.job.index = BitVec.ofNat 32 done
  sequence : state.worker.job.sequence = 1
  mask : state.worker.job.nonceMask = 0xFFFFFFFF
  nonce : (state.worker.job.words 0).lo = BitVec.ofNat 32 done
  shared : state.shared = directShared 0x100000000 true
  silent : ∀ submission, .submit submission ∉ state.outputs

section Cruise
open CpuWorker
variable {done : Nat} {state : CpuRun lastHasher}

theorem Cruising.hashed (cruising : Cruising done state) :
    ∃ next, CpuRun.step directConfig state (.work 0) = some next ∧ next.worker.stage = .round ∧
      next.worker.job = state.worker.job ∧ next.worker.benchSize = 0 ∧ next.shared = state.shared ∧
      next.worker.hashes 0 = (if BitVec.ofNat 32 done = 32767#32 then 0 else BitVec.allOnes 256) ∧
      next.outputs = state.outputs ++ [.hashed directJob (BitVec.ofNat 32 done) (next.worker.hashes 0)] := by
  have current : state.shared.nonce.isOutdated .cpu state.worker.job.sequence = false := by
    rw [cruising.shared, cruising.sequence]
    decide
  have sized : state.worker.job.currentJob.Sized := by
    rw [cruising.job]
    decide
  have size : state.worker.job.currentJob.algorithm.l3 = directConfig.algorithm.l3 := by
    rw [cruising.job]
    rfl
  have kind : state.worker.readNonces.isRandomX = false := by
    change decide (state.worker.job.currentJob.algorithm.family = Algorithm.randomX) = false
    rw [cruising.job]
    decide
  have valid : state.worker.readNonces.valid directConfig = true := by
    rw [CpuWorker.valid, kind]
    change (false || decide (state.worker.job.currentJob.algorithm.family ≠ Algorithm.ghostrider) || _) = true
    rw [cruising.job]
    decide
  have stepped : state.worker.step directConfig state.shared 0 =
      some ((state.worker.readNonces.hashLanes directConfig).at_ .round, state.shared,
        (state.worker.readNonces.hashLanes directConfig).available directConfig.lanes) := by
    simp only [CpuWorker.step, cruising.stage]
    rw [innerStep_of_current current size (fun bench => absurd cruising.benchSize bench) (.inl cruising.benchSize),
      launch_direct kind valid]
  have hash : lastHasher.direct state.worker.job.currentJob (state.worker.input 0) =
      if BitVec.ofNat 32 done = 32767#32 then 0 else BitVec.allOnes 256 := by
    change (if _ then _ else _) = _
    rw [nonceIn_input sized, cruising.nonce]
    rfl
  rw [hashLanes_of_valid valid] at stepped
  refine ⟨_, CpuRun.step_work stepped, rfl, rfl, cruising.benchSize, rfl, hash, ?_⟩
  have listed : ([CpuOutput.hashed state.worker.job.currentJob (state.worker.job.words 0).lo
      (lastHasher.direct state.worker.job.currentJob (state.worker.input 0))]) =
        [.hashed directJob (BitVec.ofNat 32 done)
          (lastHasher.direct state.worker.job.currentJob (state.worker.input 0))] := by
    rw [cruising.nonce]
    nth_rewrite 1 [cruising.job]
    rfl
  exact congrArg (state.outputs ++ ·) listed

theorem Cruising.counted (cruising : Cruising done state) :
    state.worker.job.countRound.rounds state.worker.job.countRound.index = BitVec.ofNat 32 (done + 1) := by
  rw [show state.worker.job.countRound.index = state.worker.job.index from rfl, WorkerJob.countRound_rounds,
    cruising.rounds, BitVec.ofNat_add]
  rfl

theorem Cruising.round (cruising : Cruising done state) (small : done + 1 < 32768) :
    ∃ next, run (CpuRun.step directConfig) state (List.replicate 5 (.work 0)) = some next ∧
      Cruising (done + 1) next := by
  obtain ⟨first, stepped, stage, job, benchSize, shared, hash, outputs⟩ := cruising.hashed
  have count : first.worker.reserveCount = 32768 := if_neg (not_not.mpr benchSize)
  have inner : ¬ BitVec.ofNat 32 (done + 1) &&& ((32768 : BitVec 32) - 1) = 0 := by
    intro zero
    have number := congrArg BitVec.toNat zero
    rw [BitVec.toNat_and, show ((32768 : BitVec 32) - 1).toNat = 2 ^ 15 - 1 by decide,
      Nat.and_two_pow_sub_one_eq_mod, BitVec.toNat_ofNat, show BitVec.toNat (0 : BitVec 32) = 0 from rfl] at number
    omega
  let moved : CpuWorker lastHasher :=
    { first.worker with job := first.worker.job.countRound.advance 0 1, stage := .rounded }
  have rounded : first.worker.roundStep directConfig = moved := by
    refine if_neg ?_
    rw [count, job, cruising.counted]
    exact inner
  have current : moved.job.currentJob = directJob := by
    change first.worker.job.currentJob = directJob
    rw [job, cruising.job]
  have kind : moved.isRandomX = false := by
    rw [isRandomX, current]
    decide
  have valid : moved.valid directConfig = true := by
    rw [CpuWorker.valid, kind, current]
    decide
  have high : ¬ hashValue (moved.hashes 0) < directJob.target := by
    change ¬ hashValue (first.worker.hashes 0) < directJob.target
    rw [hash, if_neg]
    · decide
    · intro same
      have number := congrArg BitVec.toNat same
      rw [BitVec.toNat_ofNat, show (32767#32).toNat = 32767 from rfl] at number
      omega
  have second : first.worker.step directConfig first.shared 0 = some (moved, first.shared, []) := by
    simp only [CpuWorker.step, stage]
    rw [rounded]
  have third : moved.step directConfig first.shared 0 = some (moved.at_ (.checking 0), first.shared, []) :=
    if_neg (by rw [kind]; decide)
  have fourth : (moved.at_ (.checking 0)).step directConfig first.shared 0 =
      some (moved.at_ (.checking 1), first.shared, []) := by
    have checked : moved.checkLane first.shared 0 = (first.shared, []) := by
      simp only [checkLane]
      rw [if_neg (not_not.mpr benchSize), current, if_neg high]
    refine (if_pos ⟨valid, by decide⟩).trans ?_
    exact congrArg (fun after => some (moved.at_ (.checking 1), after.1, after.2)) checked
  have fifth : (moved.at_ (.checking 1)).step directConfig first.shared 0 =
      some (moved.at_ .inner, first.shared, []) := by
    refine if_neg ?_
    rintro ⟨-, less⟩
    exact absurd less (by decide)
  have executed : run (CpuRun.step directConfig) state (List.replicate 5 (.work 0)) =
      some ⟨moved.at_ .inner, first.shared, first.outputs ++ [] ++ [] ++ [] ++ []⟩ := by
    refine run_cons_iff.mpr ⟨_, stepped, run_cons_iff.mpr ⟨_, CpuRun.step_work second, ?_⟩⟩
    refine run_cons_iff.mpr ⟨_, CpuRun.step_work third, run_cons_iff.mpr ⟨_, CpuRun.step_work fourth, ?_⟩⟩
    exact run_cons_iff.mpr ⟨_, CpuRun.step_work fifth, rfl⟩
  refine ⟨_, executed, rfl, benchSize, current, ?_, ?_, ?_, ?_, ?_, ?_⟩
  · change first.worker.job.countRound.rounds first.worker.job.countRound.index = _
    rw [job, cruising.counted]
  · change first.worker.job.sequence = 1
    rw [job, cruising.sequence]
  · change first.worker.job.nonceMask = _
    rw [job, cruising.mask]
  · change ((first.worker.job.countRound.advance 0 1).words 0).lo = _
    rw [WorkerJob.advance_words, job]
    change (state.worker.job.words 0).lo + 1 = _
    rw [cruising.nonce, BitVec.ofNat_add]
    rfl
  · exact shared.trans cruising.shared
  · intro submission member
    simp only [List.append_nil, outputs, List.mem_append, List.mem_singleton, reduceCtorEq, or_false] at member
    exact cruising.silent submission member

theorem Cruising.refused (cruising : Cruising 32767 state) :
    ∃ next, run (CpuRun.step directConfig) state (List.replicate 3 (.work 0)) = some next ∧
      next.worker.stage = .leave ∧ .hashed directJob 32767 0 ∈ next.outputs ∧
      ∀ submission, .submit submission ∉ next.outputs := by
  obtain ⟨first, stepped, stage, job, benchSize, shared, hash, outputs⟩ := cruising.hashed
  have count : first.worker.reserveCount = 32768 := if_neg (not_not.mpr benchSize)
  let moved : CpuWorker lastHasher := { first.worker with job := first.worker.job.countRound, stage := .reserving 0 }
  have rounded : first.worker.roundStep directConfig = moved := by
    refine if_pos ?_
    rw [count, job, cruising.counted]
    decide
  have second : first.worker.step directConfig first.shared 0 = some (moved, first.shared, []) := by
    simp only [CpuWorker.step, stage]
    rw [rounded]
  have refused : (moved.job.next first.shared.nonce 0 moved.reserveCount fun _ => 0).granted = none := by
    have mask : moved.job.nonceMask = 0xFFFFFFFF := by
      change first.worker.job.nonceMask = _
      rw [job, cruising.mask]
    simp only [WorkerJob.next]
    rw [mask, show moved.reserveCount = 32768 from count, shared, cruising.shared,
      (Nonce.next_words (⟨0, 0⟩ : Nonce.Words)).1]
    generalize moved.job.index = index
    revert index
    decide
  have third : moved.step directConfig first.shared 0 =
      some ({ moved with job := (moved.job.next first.shared.nonce 0 moved.reserveCount fun _ => 0).worker, stage := .leave },
        { first.shared with nonce := (moved.job.next first.shared.nonce 0 moved.reserveCount fun _ => 0).nonce },
        [.done (moved.job.next first.shared.nonce 0 moved.reserveCount fun _ => 0).worker.currentJob]) := by
    change some (moved.reserveLane directConfig first.shared 0) = _
    simp only [reserveLane]
    rw [if_pos (by decide), if_neg (by rw [refused]; decide)]
  have found : CpuOutput.hashed directJob 32767 0 ∈ first.outputs := by
    rw [outputs, hash]
    exact List.mem_append_right _ (List.mem_singleton.mpr rfl)
  refine ⟨_, run_cons_iff.mpr ⟨_, stepped, run_cons_iff.mpr ⟨_, CpuRun.step_work second,
    run_cons_iff.mpr ⟨_, CpuRun.step_work third, rfl⟩⟩⟩, rfl, ?_, ?_⟩
  · exact List.mem_append_left _ (List.mem_append_left _ found)
  · intro submission member
    simp only [List.append_nil, outputs, List.mem_append, List.mem_singleton, reduceCtorEq, or_false] at member
    exact cruising.silent submission member

end Cruise

/-- The rest of the nonce space goes to other threads, and the worker goes through its block. -/
def directExhausted : List CpuEvent :=
  directOpening ++ [.environment (directShared 0x100000000 true)] ++
    (List.replicate 32767 (List.replicate 5 (.work 0))).flatten ++ List.replicate 3 (.work 0)

theorem directOpening_cruising :
    ∃ state, run (CpuRun.step directConfig) (@CpuRun.start lastHasher ())
        (directOpening ++ [.environment (directShared 0x100000000 true)]) = some state ∧ Cruising 0 state := by
  have executed := (Option.some_get directOpening_runs).symm
  have silent : ((run (CpuRun.step directConfig) (@CpuRun.start lastHasher ()) directOpening).get
      directOpening_runs).outputs = [] := by decide
  refine ⟨_, (run_append _ _ _).trans ((congrArg (Option.bind · _) executed).trans rfl), ?_⟩
  refine ⟨by decide, by decide, by decide, by decide, by decide,
    by decide, by decide, rfl, ?_⟩
  intro submission
  change _ ∉ ((run (CpuRun.step directConfig) (@CpuRun.start lastHasher ()) directOpening).get
    directOpening_runs).outputs
  rw [silent]
  exact List.not_mem_nil

/-- The hash of the last nonce of the block is below the target, and it is neither submitted nor on
its way to be. -/
theorem exhausted_block_loses :
    ∃ final, run (CpuRun.step directConfig) (@CpuRun.start lastHasher ()) directExhausted = some final ∧
      ¬ Accounted directConfig final.worker final.outputs := by
  obtain ⟨opened, opening, cruising⟩ := directOpening_cruising
  obtain ⟨last, rounds, arrived⟩ := @run_repeat _ _ (CpuRun.step directConfig) Cruising _ 32767
    (fun done state small reached => reached.round (by omega)) _ cruising
  obtain ⟨final, ended, stage, available, silent⟩ := arrived.refused
  refine ⟨final, ?_, ?_⟩
  · rw [directExhausted, run_append, run_append, opening, Option.bind_some, rounds, Option.bind_some, ended]
  · intro accounted
    rcases accounted _ _ _ available with (⟨signature, member⟩ | high) | ⟨-, -, lane, -, -, -, waiting⟩
    · exact silent _ member
    · exact high (by decide)
    · simp only [CpuWorker.Unchecked, stage] at waiting

end Xmrig
