import Xmrig.Backend.WorkerJob
import Xmrig.Core.Miner

/-! The miner and any number of workers on its nonce counters.

A worker takes the current job with `add` and goes through its rounds with
`nextRound`; each call is one step here. The crew also keeps a record that the
program does not: per job index the last blob, the blocks granted since that
blob came, and whether the miner still waits for the dataset of its job.
-/

set_option autoImplicit false

namespace Xmrig

open Foundation

structure Crew where
  mining : Mining := {}
  workers : Nat → WorkerJob := fun _ => {}
  blobs : Fin 2 → List Byte := fun _ => []
  log : Fin 2 → List Block := fun _ => []
  waiting : Bool := false

namespace Crew

inductive Event where
  | main (event : Mining.Event)
  | add (worker : Nat) (reserveCount : BitVec 32) (backend : Backend)
  | nextRound (worker : Nat) (rounds roundSize : BitVec 32)

/-- The blocks behind the replies of one operation, newest first. -/
def granted (count : BitVec 32) (replies : List (Option (BitVec 64))) : List Block :=
  (replies.filterMap fun reply => reply.map fun first => ⟨first.toNat, count.toNat⟩).reverse

def recordJob (crew : Crew) (job : Job) (index : Fin 2) : Crew :=
  { crew with
    blobs := Function.update crew.blobs index job.blob
    log := if job.blob = crew.blobs index then crew.log else Function.update crew.log index [] }

def wakes (mining : Mining) : Bool :=
  mining.queue.onReady.1 && mining.queue.isReady mining.miner.job.rxSeed

def record (crew : Crew) (after : Mining) : Mining.Event → Crew
  | .setJob job donate _ _ =>
      { crew.recordJob job (Job.slot donate) with
        mining := after
        waiting := after.unready after.miner.job }
  | .ready => { crew with mining := after, waiting := crew.waiting && !wakes crew.mining }
  | _ => { crew with mining := after }

def work (crew : Crew) (worker : Nat) (index : Fin 2) (count : BitVec 32)
    (outcome : WorkerJob.Outcome) : Crew :=
  { crew with
    mining := { crew.mining with nonce := outcome.nonce }
    workers := Function.update crew.workers worker outcome.worker
    log := Function.update crew.log index (granted count outcome.replies ++ crew.log index) }

/-- `lanes` is the number of nonces that a worker hashes at once. -/
def step (lanes : Nat → Nat) (crew : Crew) : Event → Option Crew
  | .main event => (crew.mining.step event).map fun after => crew.record after event
  | .add worker reserveCount backend =>
      some (crew.work worker crew.mining.miner.job.index reserveCount
        ((crew.workers worker).add (lanes worker) crew.mining.nonce crew.mining.miner.job
          reserveCount backend fun _ _ => 0))
  | .nextRound worker rounds roundSize =>
      some (crew.work worker (crew.workers worker).index (rounds * roundSize)
        ((crew.workers worker).nextRound (lanes worker) crew.mining.nonce rounds roundSize
          fun _ _ => 0))

/-- `add` starts the job afresh instead of going on with it. -/
def saves (worker : WorkerJob) (job : Job) : Bool :=
  !worker.currentJob.isEqual job &&
    !(worker.index = donateIndex && job.index = userIndex && job.isEqual (worker.jobs userIndex))

/-- The 64-bit counter stays below overflow while a worker reserves. -/
def Headroom (lanes : Nat) (nonce : Nonce) : Prop :=
  ∀ index, max (nonce.nonces index).toNat (2 ^ 63) + lanes * 2 ^ 32 ≤ 2 ^ 64

/-- The conditions under which a step is looked at. A job that repeats the blob
of its index finds its dataset and calls for no reset, or the miner still waits
at that index. A wakeup that would reset the counter finds the miner waiting. No
worker reserves at the current index while the miner waits. -/
def Admissible (lanes : Nat → Nat) (crew : Crew) : Event → Prop
  | .main (.setJob job donate nodeset between) =>
      job.blob = crew.blobs (Job.slot donate) →
        (crew.waiting = true ∧ crew.mining.miner.job.index = Job.slot donate) ∨
          (((crew.mining.queue.advance between).init job nodeset).1 = true ∧
            Mining.resetFor crew.mining.miner job (Job.slot donate) = false)
  | .main .ready =>
      wakes crew.mining = true → crew.mining.miner.reset = true → crew.waiting = true
  | .main _ => True
  | .add worker _ _ => Headroom (lanes worker) crew.mining.nonce ∧
      (crew.waiting = true → saves (crew.workers worker) crew.mining.miner.job = false)
  | .nextRound worker rounds _ => Headroom (lanes worker) crew.mining.nonce ∧
      (crew.waiting = true → (crew.workers worker).index = crew.mining.miner.job.index →
        (crew.workers worker).rounds (crew.workers worker).index + 1 &&& (rounds - 1) ≠ 0)

instance (lanes : Nat) (nonce : Nonce) : Decidable (Headroom lanes nonce) :=
  inferInstanceAs (Decidable (∀ _ : Fin 2, _ ≤ _))

instance (lanes : Nat → Nat) (crew : Crew) : (event : Event) → Decidable (Admissible lanes crew event)
  | .main (.setJob _ _ _ _) => inferInstanceAs (Decidable (_ → _))
  | .main .ready => inferInstanceAs (Decidable (_ → _ → _))
  | .main (.setEnabled _) | .main (.battery _) | .main .pause | .main .stop | .main (.background _)
  | .main .exhausted => .isTrue trivial
  | .add _ _ _ => inferInstanceAs (Decidable (_ ∧ _))
  | .nextRound _ _ _ => inferInstanceAs (Decidable (_ ∧ _))

/-! ## Blocks of one operation -/

section Operation
variable {worker : WorkerJob} {nonce : Nonce} {index : Fin 2} {count : BitVec 32}

/-- What an operation does to the counters and to the record of one index. -/
structure Extends (worker : WorkerJob) (nonce : Nonce) (index : Fin 2) (count : BitVec 32)
    (outcome : WorkerJob.Outcome) : Prop where
  masks : outcome.worker.nonceMasks = worker.nonceMasks
  allocated : ∀ log, Allocated log (nonce.nonces index).toNat →
    Allocated (granted count outcome.replies ++ log) (outcome.nonce.nonces index).toNat
  other : ∀ other, other ≠ index → outcome.nonce.nonces other = nonce.nonces other

theorem granted_cons (count : BitVec 32) (reply : Option (BitVec 64))
    (replies : List (Option (BitVec 64))) :
    granted count (reply :: replies) = granted count replies ++ granted count [reply] := by
  cases reply <;> simp [granted]

theorem next_masks (lane : Nat) (others : Nat → BitVec 62) :
    (worker.next nonce lane count others).worker.nonceMasks = worker.nonceMasks ∧
      (worker.next nonce lane count others).worker.index = worker.index := by
  simp only [WorkerJob.next]
  split <;> exact ⟨rfl, rfl⟩

theorem next_allocated (lane : Nat) (low : Nonce.IsLow (Nonce.effective worker.nonceMask))
    (room : (nonce.nonces worker.index).toNat + 2 ^ 32 ≤ 2 ^ 64) {log : List Block}
    (allocated : Allocated log (nonce.nonces worker.index).toNat) :
    Allocated (granted count [(worker.next nonce lane count fun _ => 0).granted] ++ log)
        ((worker.next nonce lane count fun _ => 0).nonce.nonces worker.index).toNat ∧
      ((worker.next nonce lane count fun _ => 0).nonce.nonces worker.index).toNat ≤
        max (nonce.nonces worker.index).toNat (2 ^ 63) + 2 ^ 32 := by
  have small := count.isLt
  have mask := low.lt
  have zero : (0 : BitVec 62).toNat = 0 := rfl
  constructor
  · simp only [WorkerJob.next]
    cases reply : (nonce.next worker.index (worker.words lane) count worker.nonceMask
        fun _ => 0).granted with
    | none =>
      exact allocated.mono (Nonce.next_monotone low (by rw [zero]; omega))
    | some first =>
      have fresh := Nonce.next_fresh low (by rw [zero]; omega) reply
      have counter := (Nonce.next_granted low reply).counter
      exact allocated.push fresh (Nat.le_of_eq counter.symm)
  · have bound := @Nonce.next_bound nonce worker.index (worker.words lane) count worker.nonceMask
      (by omega) low
    simp only [WorkerJob.next]
    omega

theorem next_others (lane : Nat) {other : Fin 2} (apart : other ≠ worker.index) :
    (worker.next nonce lane count fun _ => 0).nonce.nonces other = nonce.nonces other :=
  Nonce.next_other apart

theorem headroom_next {before after : Nat} {left : Nat}
    (room : max before (2 ^ 63) + (left + 1) * 2 ^ 32 ≤ 2 ^ 64)
    (bound : after ≤ max before (2 ^ 63) + 2 ^ 32) :
    max after (2 ^ 63) + left * 2 ^ 32 ≤ 2 ^ 64 := by
  omega

theorem saveLanes_extends {job : Job} {left lane : Nat}
    (low : Nonce.IsLow (Nonce.effective worker.nonceMask))
    (room : max (nonce.nonces worker.index).toNat (2 ^ 63) + left * 2 ^ 32 ≤ 2 ^ 64) :
    Extends worker nonce worker.index count
      (WorkerJob.saveLanes job count (fun _ _ => 0) left lane worker nonce) := by
  induction left generalizing lane worker nonce with
  | zero => exact ⟨rfl, fun _ allocated => allocated, fun _ _ => rfl⟩
  | succ left ih =>
    -- Copying the blob changes neither the index nor the masks.
    generalize loaded : worker.load lane job = middle
    have masks : middle.nonceMasks = worker.nonceMasks := by rw [← loaded]; rfl
    have index : middle.index = worker.index := by rw [← loaded]; rfl
    have lowMiddle : Nonce.IsLow (Nonce.effective middle.nonceMask) := by
      rw [WorkerJob.nonceMask, masks, index]
      exact low
    obtain ⟨nextMasks, nextIndex⟩ := @next_masks middle nonce count lane fun _ => 0
    have lowNext : Nonce.IsLow (Nonce.effective
        (middle.next nonce lane count fun _ => 0).worker.nonceMask) := by
      rw [WorkerJob.nonceMask, nextMasks, nextIndex]
      exact lowMiddle
    have bound := (@next_allocated middle nonce count lane lowMiddle (by rw [index]; omega) []
      (.nil _)).2
    have rest := @ih _ (middle.next nonce lane count fun _ => 0).nonce (lane + 1) lowNext (by
      rw [nextIndex]
      rw [index] at bound ⊢
      exact headroom_next room bound)
    rw [nextIndex, index] at rest
    simp only [WorkerJob.saveLanes, loaded]
    refine ⟨rest.masks.trans (nextMasks.trans masks), ?_, ?_⟩
    · intro log allocated
      dsimp only
      rw [granted_cons, List.append_assoc]
      refine rest.allocated _ ?_
      rw [← index]
      exact (next_allocated lane lowMiddle (by rw [index]; omega) (by rw [index]; exact allocated)).1
    · intro other apart
      rw [rest.other other apart]
      exact next_others lane (by rw [index]; exact apart)

theorem reserveLanes_extends {left lane : Nat}
    (low : Nonce.IsLow (Nonce.effective worker.nonceMask))
    (room : max (nonce.nonces worker.index).toNat (2 ^ 63) + left * 2 ^ 32 ≤ 2 ^ 64) :
    Extends worker nonce worker.index count
      (WorkerJob.reserveLanes count (fun _ _ => 0) left lane worker nonce) := by
  induction left generalizing lane worker nonce with
  | zero => exact ⟨rfl, fun _ allocated => allocated, fun _ _ => rfl⟩
  | succ left ih =>
    obtain ⟨masks, index⟩ := @next_masks worker nonce count lane fun _ => 0
    have step := fun log => @next_allocated worker nonce count lane low (by omega) log
    simp only [WorkerJob.reserveLanes]
    split
    · have rest := @ih _ (worker.next nonce lane count fun _ => 0).nonce (lane + 1)
        (by rw [WorkerJob.nonceMask, masks, index]; exact low)
        (by rw [index]; exact headroom_next room (step [] (.nil _)).2)
      rw [index] at rest
      refine ⟨rest.masks.trans masks, ?_, ?_⟩
      · intro log allocated
        dsimp only
        rw [granted_cons, List.append_assoc]
        exact rest.allocated _ (step log allocated).1
      · intro other apart
        rw [rest.other other apart]
        exact next_others lane apart
    · exact ⟨masks, fun log allocated => (step log allocated).1,
        fun other apart => next_others lane apart⟩

theorem advanceLanes_masks (roundSize : BitVec 32) (left lane : Nat) :
    (WorkerJob.advanceLanes roundSize left lane worker).nonceMasks = worker.nonceMasks := by
  induction left generalizing lane worker with
  | zero => rfl
  | succ left ih => exact ih (lane + 1)

theorem nextRound_quiet {lanes : Nat} {rounds roundSize : BitVec 32} {others : Nat → Nat → BitVec 62}
    (inner : worker.rounds worker.index + 1 &&& (rounds - 1) ≠ 0) :
    worker.nextRound lanes nonce rounds roundSize others =
      ⟨true, WorkerJob.advanceLanes roundSize lanes 0 worker.countRound, nonce, []⟩ := by
  have test : worker.countRound.rounds worker.countRound.index = worker.rounds worker.index + 1 :=
    Function.update_self ..
  simp only [WorkerJob.nextRound, test, inner, if_false]

theorem nextRound_extends {lanes : Nat} {rounds roundSize : BitVec 32}
    (low : Nonce.IsLow (Nonce.effective worker.nonceMask))
    (room : max (nonce.nonces worker.index).toNat (2 ^ 63) + lanes * 2 ^ 32 ≤ 2 ^ 64) :
    Extends worker nonce worker.index (rounds * roundSize)
      (worker.nextRound lanes nonce rounds roundSize fun _ _ => 0) := by
  by_cases inner : worker.rounds worker.index + 1 &&& (rounds - 1) = 0
  · have rest := @reserveLanes_extends worker.countRound nonce (rounds * roundSize) lanes 0 low room
    have test : worker.countRound.rounds worker.countRound.index = worker.rounds worker.index + 1 :=
      Function.update_self ..
    simp only [WorkerJob.nextRound, test, inner, if_true]
    split
    · exact ⟨rest.masks, rest.allocated, rest.other⟩
    · exact ⟨rest.masks, rest.allocated, rest.other⟩
  · rw [nextRound_quiet inner]
    exact ⟨advanceLanes_masks _ _ _, fun _ allocated => allocated, fun _ _ => rfl⟩

theorem add_quiet {lanes : Nat} {job : Job} {backend : Backend} {others : Nat → Nat → BitVec 62}
    (keeps : saves worker job = false) :
    (worker.add lanes nonce job count backend others).replies = [] ∧
      (worker.add lanes nonce job count backend others).nonce = nonce ∧
      (worker.add lanes nonce job count backend others).worker.nonceMasks = worker.nonceMasks := by
  simp only [saves, Bool.and_eq_false_iff, Bool.not_eq_false'] at keeps
  unfold WorkerJob.add
  dsimp only
  split
  · exact ⟨rfl, rfl, rfl⟩
  · rename_i other
    rcases keeps with same | back
    · exact absurd same other
    · rw [if_pos (by simpa [Bool.and_eq_true, and_assoc] using back)]
      exact ⟨rfl, rfl, rfl⟩

theorem add_saves {lanes : Nat} {job : Job} {backend : Backend} {others : Nat → Nat → BitVec 62}
    (fresh : saves worker job = true) :
    worker.add lanes nonce job count backend others =
      WorkerJob.save lanes { worker with sequence := nonce.sequence backend } nonce job count backend
        others := by
  simp only [saves, Bool.and_eq_true, Bool.not_eq_true'] at fresh
  unfold WorkerJob.add
  dsimp only
  rw [if_neg (by rw [Bool.not_eq_true]; exact fresh.1), if_neg]
  intro back
  have same : (decide (worker.index = donateIndex) && decide (job.index = userIndex) &&
      job.isEqual (worker.jobs userIndex)) = true := by
    simpa [Bool.and_eq_true, and_assoc] using back
  rw [fresh.2] at same
  cases same

theorem save_extends {lanes : Nat} (worker : WorkerJob) (job : Job) (backend : Backend)
    (room : max (nonce.nonces job.index).toNat (2 ^ 63) + lanes * 2 ^ 32 ≤ 2 ^ 64) :
    Extends (worker.openSlot job backend) nonce job.index count
      (worker.save lanes nonce job count backend fun _ _ => 0) := by
  have mask : (worker.openSlot job backend).nonceMask = job.nonceMask := Function.update_self ..
  exact @saveLanes_extends (worker.openSlot job backend) nonce count job lanes 0
    (by rw [mask]; exact Nonce.effective_nonceMask_low job) room

theorem openSlot_masks (worker : WorkerJob) (job : Job) (backend : Backend)
    (low : ∀ index, Nonce.IsLow (Nonce.effective (worker.nonceMasks index))) (index : Fin 2) :
    Nonce.IsLow (Nonce.effective ((worker.openSlot job backend).nonceMasks index)) := by
  by_cases same : index = job.index
  · subst same
    rw [show (worker.openSlot job backend).nonceMasks job.index = job.nonceMask from
      Function.update_self ..]
    exact Nonce.effective_nonceMask_low job
  · rw [show (worker.openSlot job backend).nonceMasks index = worker.nonceMasks index from
      Function.update_of_ne same ..]
    exact low index

end Operation

/-! ## The invariant -/

structure Inv (crew : Crew) : Prop where
  masks : ∀ worker index, Nonce.IsLow (Nonce.effective ((crew.workers worker).nonceMasks index))
  allocated : ∀ index, Allocated (crew.log index) (crew.mining.nonce.nonces index).toNat
  waiting : crew.waiting = true → crew.log crew.mining.miner.job.index = []

variable {crew after : Crew} {lanes : Nat → Nat}

theorem start_inv : ({} : Crew).Inv where
  masks _ _ := show Nonce.IsLow (Nonce.effective 0) from ⟨0, by omega, by decide⟩
  allocated _ := .nil _
  waiting asleep := by cases asleep

theorem work_inv (inv : crew.Inv) {worker : Nat} {index : Fin 2} {count : BitVec 32}
    {outcome : WorkerJob.Outcome}
    (masks : ∀ index, Nonce.IsLow (Nonce.effective (outcome.worker.nonceMasks index)))
    (allocated : ∀ log, Allocated log (crew.mining.nonce.nonces index).toNat →
      Allocated (granted count outcome.replies ++ log) (outcome.nonce.nonces index).toNat)
    (other : ∀ other, other ≠ index → outcome.nonce.nonces other = crew.mining.nonce.nonces other)
    (quiet : crew.waiting = true → index = crew.mining.miner.job.index → outcome.replies = []) :
    (crew.work worker index count outcome).Inv where
  masks user slot := by
    by_cases same : user = worker
    · subst same
      simpa [work] using masks slot
    · simpa [work, same] using inv.masks user slot
  allocated slot := by
    by_cases same : slot = index
    · subst same
      simpa [work] using allocated _ (inv.allocated slot)
    · simpa [work, same, other slot same] using inv.allocated slot
  waiting asleep := by
    by_cases same : index = crew.mining.miner.job.index
    · have silent := quiet asleep same
      have empty := inv.waiting asleep
      simp [work, same, silent, granted, empty]
    · have empty := inv.waiting asleep
      simpa [work, Ne.symm same] using empty

/-! ## Job changes -/

theorem handleJobChange_nonces (mining : Mining) :
    mining.handleJobChange.nonce.nonces =
      if mining.miner.reset then Function.update mining.nonce.nonces mining.miner.job.index 0
      else mining.nonce.nonces := by
  cases enabled : mining.miner.enabled <;> cases active : mining.miner.active <;>
    cases reset : mining.miner.reset <;>
    simp [Mining.handleJobChange, enabled, active, reset, Nonce.pause, Nonce.reset, Nonce.touch]

theorem hold_nonces (mining : Mining) (job : Job) :
    (mining.hold job).nonce.nonces = mining.nonce.nonces := by
  unfold Mining.hold
  dsimp only
  split
  · split <;> rfl
  · rfl

theorem hold_miner (mining : Mining) (job : Job) :
    (mining.hold job).miner = { mining.miner with algorithm := job.algorithm } := by
  unfold Mining.hold
  dsimp only
  split
  · split <;> rfl
  · rfl

/-- `setJob` resets the counter of its index only if the dataset is there and
the job calls for a reset. -/
theorem setJob_nonces (mining : Mining) (job : Job) (donate : Bool) (nodeset : List Nat)
    (between : List Bool) :
    (mining.setJob job donate nodeset between).miner.job.index = Job.slot donate ∧
      (mining.setJob job donate nodeset between).nonce.nonces =
        if ((mining.queue.advance between).init job nodeset).1 = true ∧
            Mining.resetFor mining.miner job (Job.slot donate) = true then
          Function.update mining.nonce.nonces (Job.slot donate) 0
        else mining.nonce.nonces := by
  have ready : (mining.queue.advance between).init
      (Mining.store (mining.hold job).miner job (Job.slot donate)).job nodeset =
      (mining.queue.advance between).init job nodeset := rfl
  have flag : Mining.resetFor (mining.hold job).miner job (Job.slot donate) =
      Mining.resetFor mining.miner job (Job.slot donate) := by
    rw [hold_miner]
    rfl
  simp only [Mining.setJob, Mining.hold_queue, ready]
  cases there : ((mining.queue.advance between).init job nodeset).1 with
  | false => simp [Mining.store, hold_nonces]
  | true =>
    simp only [if_true, Mining.handleJobChange_job, handleJobChange_nonces, Mining.store, flag,
      hold_nonces, Bool.not_true, Bool.or_false, true_and]

theorem onReady_eq (mining : Mining) :
    mining.onReady =
      if wakes mining then { mining with queue := mining.queue.onReady.2 }.handleJobChange
      else { mining with queue := mining.queue.onReady.2 } := by
  have asked : mining.queue.onReady.2.isReady mining.miner.job.rxSeed =
      mining.queue.isReady mining.miner.job.rxSeed := rfl
  unfold Mining.onReady Mining.onDatasetReady wakes
  by_cases idle : mining.queue.onReady.1 = true
  · by_cases there : mining.queue.isReady mining.miner.job.rxSeed = true
    · simp [idle, there, asked]
    · simp [idle, there, asked]
  · simp [idle]

theorem onReady_nonces (mining : Mining) :
    mining.onReady.miner.job = mining.miner.job ∧
      mining.onReady.nonce.nonces =
        if wakes mining = true ∧ mining.miner.reset = true then
          Function.update mining.nonce.nonces mining.miner.job.index 0
        else mining.nonce.nonces := by
  rw [onReady_eq]
  by_cases woken : wakes mining = true
  · simp only [woken, if_true, Mining.handleJobChange_job, handleJobChange_nonces, true_and]
  · simp [woken]

theorem allocated_reset {log : Fin 2 → List Block} {nonces : Fin 2 → BitVec 64} {index : Fin 2}
    {condition : Prop} [Decidable condition] (allocated : ∀ slot, Allocated (log slot) (nonces slot).toNat)
    (empty : condition → log index = []) (slot : Fin 2) :
    Allocated (log slot)
      ((if condition then Function.update nonces index 0 else nonces) slot).toNat := by
  split
  · rename_i resets
    by_cases same : slot = index
    · subst same
      rw [empty resets]
      exact .nil _
    · rw [Function.update_of_ne same]
      exact allocated slot
  · exact allocated slot

theorem recordJob_inv (inv : crew.Inv) {job : Job} {index : Fin 2} (slot : Fin 2) :
    Allocated ((crew.recordJob job index).log slot) (crew.mining.nonce.nonces slot).toNat := by
  unfold recordJob
  dsimp only
  split
  · exact inv.allocated slot
  · by_cases same : slot = index
    · subst same
      rw [Function.update_self]
      exact .nil _
    · rw [Function.update_of_ne same]
      exact inv.allocated slot

/-- A job that may be reset for, now or later, comes to an index without blocks. -/
theorem recordJob_empty (inv : crew.Inv) {job : Job} {donate : Bool} {nodeset : List Nat}
    {between : List Bool}
    (admissible : Admissible lanes crew (.main (.setJob job donate nodeset between)))
    (resets : ((crew.mining.queue.advance between).init job nodeset).1 = false ∨
      Mining.resetFor crew.mining.miner job (Job.slot donate) = true) :
    (crew.recordJob job (Job.slot donate)).log (Job.slot donate) = [] := by
  unfold recordJob
  dsimp only
  split
  · rename_i same
    rcases admissible same with ⟨asleep, here⟩ | ⟨there, keeps⟩
    · rw [← here]
      exact inv.waiting asleep
    · rcases resets with missing | flag
      · rw [there] at missing
        cases missing
      · rw [keeps] at flag
        cases flag
  · rw [Function.update_self]

theorem setJob_inv (inv : crew.Inv) {job : Job} {donate : Bool} {nodeset : List Nat}
    {between : List Bool}
    (admissible : Admissible lanes crew (.main (.setJob job donate nodeset between))) :
    (crew.record (crew.mining.setJob job donate nodeset between)
      (.setJob job donate nodeset between)).Inv := by
  obtain ⟨index, nonces⟩ := setJob_nonces crew.mining job donate nodeset between
  refine ⟨inv.masks, fun slot => ?_, fun asleep => ?_⟩
  · simp only [record]
    rw [nonces]
    exact allocated_reset (recordJob_inv inv)
      (fun resets => recordJob_empty inv admissible (.inr resets.2)) slot
  · simp only [record] at asleep ⊢
    rw [index]
    refine recordJob_empty inv admissible (.inl ?_)
    -- A dataset that the second look found is still there afterwards.
    by_contra there
    rw [Bool.not_eq_false] at there
    have found := RxQueue.init_ready there
    have ready : (crew.mining.setJob job donate nodeset between).unready
        (crew.mining.setJob job donate nodeset between).miner.job = false := by
      rw [Mining.unready_iff]
      simp only [Mining.setJob, Mining.hold_queue]
      rw [show (crew.mining.queue.advance between).init
        (Mining.store (crew.mining.hold job).miner job (Job.slot donate)).job nodeset =
        (crew.mining.queue.advance between).init job nodeset from rfl, if_pos there]
      intro family
      rw [Mining.handleJobChange_queue, found.1]
      exact found.2 family
    rw [ready] at asleep
    cases asleep

theorem ready_inv (inv : crew.Inv) (admissible : Admissible lanes crew (.main .ready)) :
    (crew.record crew.mining.onReady .ready).Inv := by
  obtain ⟨job, nonces⟩ := onReady_nonces crew.mining
  refine ⟨inv.masks, fun slot => ?_, fun asleep => ?_⟩
  · simp only [record]
    rw [nonces]
    exact allocated_reset inv.allocated
      (fun resets => inv.waiting (admissible resets.1 resets.2)) slot
  · simp only [record, Bool.and_eq_true] at asleep ⊢
    rw [job]
    exact inv.waiting asleep.1

theorem quiet_inv (inv : crew.Inv) {mining : Mining} (job : mining.miner.job = crew.mining.miner.job)
    (nonces : mining.nonce.nonces = crew.mining.nonce.nonces) :
    Inv { crew with mining } where
  masks := inv.masks
  allocated slot := by
    simp only [nonces]
    exact inv.allocated slot
  waiting asleep := by
    simp only [job]
    exact inv.waiting asleep

theorem setEnabled_quiet (mining : Mining) (enabled : Bool) :
    (mining.setEnabled enabled).miner.job = mining.miner.job ∧
      (mining.setEnabled enabled).nonce.nonces = mining.nonce.nonces := by
  unfold Mining.setEnabled
  split
  · exact ⟨rfl, rfl⟩
  · split
    · exact ⟨rfl, rfl⟩
    · dsimp only
      split <;> exact ⟨rfl, rfl⟩

theorem main_inv (inv : crew.Inv) {event : Mining.Event} (admissible : Admissible lanes crew (.main event))
    {mining : Mining} (stepped : crew.mining.step event = some mining) :
    (crew.record mining event).Inv := by
  cases event with
  | setJob job donate nodeset between => cases stepped; exact setJob_inv inv admissible
  | setEnabled enabled =>
    cases stepped
    exact quiet_inv inv (setEnabled_quiet _ _).1 (setEnabled_quiet _ _).2
  | battery power => cases stepped; exact quiet_inv inv rfl rfl
  | pause => cases stepped; exact quiet_inv inv rfl rfl
  | stop => cases stepped; exact quiet_inv inv rfl rfl
  | background allocates =>
    obtain ⟨queue, _, rfl⟩ := Option.map_eq_some_iff.mp stepped
    exact quiet_inv inv rfl rfl
  | ready =>
    simp only [Mining.step] at stepped
    split at stepped
    · cases stepped; exact ready_inv inv admissible
    · cases stepped
  | exhausted => cases stepped; exact quiet_inv inv rfl rfl

theorem step_inv (inv : crew.Inv) {event : Event} (admissible : Admissible lanes crew event)
    (stepped : crew.step lanes event = some after) : after.Inv := by
  cases event with
  | main event =>
    obtain ⟨mining, moved, rfl⟩ := Option.map_eq_some_iff.mp stepped
    exact main_inv inv admissible moved
  | add worker reserveCount backend =>
    obtain ⟨room, still⟩ := admissible
    cases stepped
    by_cases fresh : saves (crew.workers worker) crew.mining.miner.job = true
    · rw [add_saves fresh]
      have result := @save_extends crew.mining.nonce reserveCount (lanes worker)
        { crew.workers worker with sequence := crew.mining.nonce.sequence backend }
        crew.mining.miner.job backend (room _)
      refine work_inv inv (fun index => ?_) result.allocated result.other fun asleep _ => ?_
      · rw [result.masks]
        exact openSlot_masks _ _ backend (inv.masks worker) index
      · rw [still asleep] at fresh
        cases fresh
    · rw [Bool.not_eq_true] at fresh
      obtain ⟨replies, nonce, masks⟩ := @add_quiet (crew.workers worker) crew.mining.nonce reserveCount
        (lanes worker) crew.mining.miner.job backend (fun _ _ => 0) fresh
      refine work_inv inv (fun index => ?_) ?_ (fun _ _ => by rw [nonce]) fun _ _ => replies
      · rw [masks]
        exact inv.masks worker index
      · intro log allocated
        rw [replies, nonce]
        exact allocated
  | nextRound worker rounds roundSize =>
    obtain ⟨room, still⟩ := admissible
    cases stepped
    have result := @nextRound_extends (crew.workers worker) crew.mining.nonce (lanes worker) rounds
      roundSize (inv.masks worker _) (room _)
    refine work_inv inv (fun index => ?_) result.allocated result.other fun asleep here => ?_
    · rw [result.masks]
      exact inv.masks worker index
    · rw [nextRound_quiet (still asleep here)]

/-- Between two changes of the blob of an index no nonce is handed out twice. -/
theorem blocks_disjoint (lanes : Nat → Nat) {events : List Event} {final : Crew}
    (admissible : Guarded (step lanes) (Admissible lanes) {} events)
    (executed : run (step lanes) {} events = some final) (index : Fin 2) :
    (final.log index).Pairwise Block.Disjoint := by
  have inv := run_invariant (fun crew event next inv good stepped => step_inv inv good stepped)
    start_inv admissible executed
  exact (inv.allocated index).disjoint

def sampleJob (seed : Byte) (id : String) : Job :=
  { algorithm := .rx0, seed := [seed], blob := List.replicate 76 0, id := some id }

def settle : List Event := List.replicate 6 (.main (.background true)) ++ [.main .ready]

def repeatedBlobRun : List Event :=
  .main (.setJob (sampleJob 1 "a") false [] []) :: settle ++
    [.add 0 4 .cpu, .nextRound 0 4 1, .main (.setJob (sampleJob 1 "b") false [] []), .add 1 4 .cpu]

theorem repeatedBlobRun_runs : (run (step fun _ => 1) {} repeatedBlobRun).isSome = true := by
  decide

theorem blocks_disjoint_repeated :
    ∃ final, run (step fun _ => 1) {} repeatedBlobRun = some final ∧
      final.log 0 = [⟨4, 4⟩, ⟨0, 4⟩] ∧ (final.log 0).Pairwise Block.Disjoint := by
  have executed := (Option.some_get repeatedBlobRun_runs).symm
  exact ⟨_, executed, by decide, blocks_disjoint (fun _ => 1) (by decide) executed 0⟩

/-- The pool repeats the blob with another seed: the dataset changes, the
counter starts again, and the blob does not change. -/
def changedSeedRun : List Event :=
  .main (.setJob (sampleJob 1 "a") false [] []) :: settle ++ [.add 0 4 .cpu] ++
    .main (.setJob (sampleJob 2 "a") false [] []) :: settle ++ [.add 1 4 .cpu]

theorem changedSeedRun_runs : (run (step fun _ => 1) {} changedSeedRun).isSome = true := by
  decide

theorem changed_seed_repeats_blocks :
    ∃ final, run (step fun _ => 1) {} changedSeedRun = some final ∧
      ¬ (final.log 0).Pairwise Block.Disjoint := by
  refine ⟨_, (Option.some_get changedSeedRun_runs).symm, ?_⟩
  have log : ((run (step fun _ => 1) {} changedSeedRun).get changedSeedRun_runs).log 0 =
      [⟨0, 4⟩, ⟨0, 4⟩] := by decide
  rw [log, List.pairwise_pair]
  intro apart
  exact apart 0 ⟨⟨by decide, by decide⟩, ⟨by decide, by decide⟩⟩

end Crew

end Xmrig
