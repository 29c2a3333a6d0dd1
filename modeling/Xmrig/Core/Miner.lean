import Xmrig.Crypto.Nonce
import Xmrig.Crypto.RxQueue

/-! The miner: which job is current, and when workers may hash.

`Mining` puts the miner next to the process-wide state it writes, the nonce
counters and the dataset queue. Everything here runs on the main thread except
the background thread of the queue, which may also move in the middle of
`setJob`. Of the backends only whether they have workers is kept.
-/

set_option autoImplicit false

namespace Xmrig

open Foundation

/-- The members of `MinerPrivate` that job changes read and write. -/
structure Miner where
  algorithm : Algorithm := .invalid
  active : Bool := false
  batteryPower : Bool := false
  enabled : Bool := true
  reset : Bool := true
  job : Job := {}
  userJobId : Option String := none
  ticks : Nat := 0
  deriving DecidableEq, Repr

structure Mining where
  miner : Miner := {}
  nonce : Nonce := {}
  queue : RxQueue := {}
  running : Bool := false
  pauseOnBattery : Bool := false

/-- Steps of the background thread that happen while the main thread is elsewhere. -/
def RxQueue.advance (queue : RxQueue) (allocations : List Bool) : RxQueue :=
  allocations.foldl (fun queue allocates => (queue.background allocates).getD queue) queue

/-- `Rx::init`; only the RandomX family needs a dataset. -/
def RxQueue.init (queue : RxQueue) (job : Job) (nodeset : List Nat) : Bool × RxQueue :=
  if job.algorithm.family ≠ Algorithm.randomX then (true, queue)
  else if queue.isReady job.rxSeed then (true, queue)
  else (false, queue.enqueue job.rxSeed nodeset)

namespace Mining

def unready (mining : Mining) (job : Job) : Bool :=
  job.algorithm.family = Algorithm.randomX && !mining.queue.isReady job.rxSeed

/-- `Nonce::stop` lets go of the workers, and the backends join them. -/
def stop (mining : Mining) : Mining := { mining with nonce := mining.nonce.stop, running := false }

def handleJobChange (mining : Mining) : Mining :=
  let miner := mining.miner
  let nonce := if miner.enabled then mining.nonce else mining.nonce.pause true
  let nonce := if miner.reset then nonce.reset miner.job.index else nonce
  let nonce := nonce.touch
  let nonce := if miner.active && miner.enabled then nonce.pause false else nonce
  { mining with
    miner := { miner with ticks := if miner.ticks = 0 then 1 else miner.ticks }
    nonce
    running := true }

/-- The part of `setJob` that stops or pauses workers when their dataset goes away. -/
def hold (mining : Mining) (job : Job) : Mining :=
  let mining :=
    if mining.unready job then
      if mining.miner.algorithm ≠ job.algorithm then mining.stop
      else { mining with nonce := (mining.nonce.pause true).touch }
    else mining
  { mining with miner := { mining.miner with algorithm := job.algorithm } }

/-- The `reset` flag that `setJob` derives from the job before and the new one. -/
def resetFor (miner : Miner) (job : Job) (index : Fin 2) : Bool :=
  !(miner.job.index = donateIndex && index = userIndex && miner.userJobId = job.id) && !miner.job.isEqualBlob job

def store (miner : Miner) (job : Job) (index : Fin 2) : Miner :=
  { miner with
    reset := resetFor miner job index
    job := { job with index }
    userJobId := if index = userIndex then job.id else miner.userJobId }

/-- `between` are the steps of the background thread between the two looks at the dataset. -/
def setJob (mining : Mining) (job : Job) (donate : Bool) (nodeset : List Nat) (between : List Bool) :
    Mining :=
  let mining := mining.hold job
  let miner := store mining.miner job (Job.slot donate)
  let (ready, queue) := (mining.queue.advance between).init miner.job nodeset
  let mining :=
    { mining with
      miner := { miner with reset := miner.reset || !ready, active := true }
      queue }
  if ready then mining.handleJobChange else mining

def pause (mining : Mining) : Mining :=
  { mining with
    miner := { mining.miner with active := false }
    nonce := (mining.nonce.pause true).touch }

def setEnabled (mining : Mining) (enabled : Bool) : Mining :=
  if mining.miner.enabled = enabled then mining
  else if mining.pauseOnBattery && mining.miner.batteryPower && enabled then mining
  else
    let mining := { mining with miner := { mining.miner with enabled } }
    if mining.miner.active then { mining with nonce := (mining.nonce.pause !enabled).touch } else mining

def onDatasetReady (mining : Mining) : Mining :=
  if mining.queue.isReady mining.miner.job.rxSeed then mining.handleJobChange else mining

def onReady (mining : Mining) : Mining :=
  let woken := mining.queue.onReady
  let mining := { mining with queue := woken.2 }
  if woken.1 then mining.onDatasetReady else mining

inductive Event where
  | setJob (job : Job) (donate : Bool) (nodeset : List Nat) (between : List Bool)
  | setEnabled (enabled : Bool)
  | battery (power : Bool)
  | pause
  | stop
  | background (allocates : Bool)
  | ready
  | exhausted

/-- `battery` is the write of `onTimer` to the flag, `exhausted` a worker that
finds no nonces left. -/
def step (mining : Mining) : Event → Option Mining
  | .setJob job donate nodeset between => some (mining.setJob job donate nodeset between)
  | .setEnabled enabled => some (mining.setEnabled enabled)
  | .battery power => some { mining with miner := { mining.miner with batteryPower := power } }
  | .pause => some mining.pause
  | .stop => some mining.stop
  | .background allocates =>
      (mining.queue.background allocates).map fun queue => { mining with queue }
  | .ready => if mining.queue.async then some mining.onReady else none
  | .exhausted => some { mining with nonce := mining.nonce.pause true }

end Mining

/-! ## The queue under the miner -/

namespace RxQueue

variable {queue : RxQueue} {latest : Option RxSeed}

theorem Inv.background_idle (inv : queue.Inv latest) (idle : queue.state = .idle) (allocates : Bool) :
    queue.background allocates = none := by
  have start : queue.phase = .head := by
    by_contra moved
    exact (inv.inside moved).1 idle
  simp [background, start, idle]

theorem Inv.advance (inv : queue.Inv latest) (allocations : List Bool) :
    (queue.advance allocations).Inv latest := by
  induction allocations generalizing queue with
  | nil => exact inv
  | cons allocates rest ih =>
    have kept : ((queue.background allocates).getD queue).Inv latest := by
      cases moved : queue.background allocates with
      | none => exact inv
      | some after => exact background_inv inv moved
    exact ih kept

theorem isReady_idle {seed : RxSeed} (ready : queue.isReady seed = true) : queue.state = .idle := by
  unfold isReady isReadyUnsafe at ready
  split at ready
  · cases ready
  · simp only [Bool.and_eq_true, decide_eq_true_eq] at ready
    exact ready.1.2

theorem Inv.advance_idle (inv : queue.Inv latest) (idle : queue.state = .idle) (allocations : List Bool) :
    queue.advance allocations = queue := by
  induction allocations with
  | nil => rfl
  | cons allocates rest ih =>
    rw [RxQueue.advance, List.foldl_cons, inv.background_idle idle allocates]
    exact ih

theorem Inv.init (inv : queue.Inv latest) (job : Job) (nodeset : List Nat) :
    ∃ newest, (queue.init job nodeset).2.Inv newest := by
  unfold RxQueue.init
  split
  · exact ⟨latest, inv⟩
  · split
    · exact ⟨latest, inv⟩
    · exact ⟨some job.rxSeed, enqueue_inv inv job.rxSeed nodeset⟩

/-- `Rx::init` says ready exactly when no dataset is needed or it is there, and
then it leaves the queue alone. -/
theorem init_ready {job : Job} {nodeset : List Nat} (ready : (queue.init job nodeset).1 = true) :
    (queue.init job nodeset).2 = queue ∧
      (job.algorithm.family = Algorithm.randomX → queue.isReady job.rxSeed = true) := by
  unfold RxQueue.init at ready ⊢
  split
  · rename_i other
    exact ⟨rfl, fun family => absurd family other⟩
  · rename_i family
    rw [if_neg family] at ready
    split
    · rename_i there
      exact ⟨rfl, fun _ => there⟩
    · rename_i missing
      rw [if_neg missing] at ready
      cases ready

theorem init_of_ready {job : Job} {nodeset : List Nat}
    (ready : job.algorithm.family = Algorithm.randomX → queue.isReady job.rxSeed = true) :
    (queue.init job nodeset).1 = true := by
  unfold RxQueue.init
  split
  · rfl
  · rename_i family
    rw [if_pos (ready (Decidable.not_not.mp family))]

end RxQueue

/-! ## Pausing -/

namespace Mining

variable {mining after : Mining}

theorem unready_iff {job : Job} :
    mining.unready job = false ↔
      (job.algorithm.family = Algorithm.randomX → mining.queue.isReady job.rxSeed = true) := by
  unfold unready
  by_cases family : job.algorithm.family = Algorithm.randomX <;> simp [family]

/-- While an active miner lacks the dataset of its job, workers are paused or gone. -/
def Held (mining : Mining) : Prop :=
  mining.miner.active = true → mining.unready mining.miner.job = true →
    mining.nonce.paused = true ∨ mining.running = false

structure Inv (mining : Mining) : Prop where
  queue : ∃ latest, mining.queue.Inv latest
  held : mining.Held

/-- A resume that takes effect finds the dataset of the current job, or no workers. -/
def Event.Admissible (mining : Mining) : Event → Prop
  | .setEnabled true => mining.miner.enabled = true ∨
      (mining.pauseOnBattery && mining.miner.batteryPower) = true ∨ mining.miner.active = false ∨
      mining.unready mining.miner.job = false ∨ mining.running = false
  | _ => True

@[simp] theorem handleJobChange_queue (mining : Mining) :
    mining.handleJobChange.queue = mining.queue := rfl

@[simp] theorem handleJobChange_job (mining : Mining) :
    mining.handleJobChange.miner.job = mining.miner.job := rfl

@[simp] theorem hold_queue (mining : Mining) (job : Job) : (mining.hold job).queue = mining.queue := by
  unfold hold
  dsimp only
  split
  · split <;> rfl
  · rfl

/-- After the first part of `setJob` workers wait or are gone if the dataset is missing. -/
theorem hold_held {job : Job} (missing : mining.unready job = true) :
    (mining.hold job).nonce.paused = true ∨ (mining.hold job).running = false := by
  unfold hold
  rw [if_pos missing]
  split
  · exact .inr rfl
  · exact .inl rfl

theorem setJob_inv (inv : mining.Inv) (job : Job) (donate : Bool) (nodeset : List Nat)
    (between : List Bool) : (mining.setJob job donate nodeset between).Inv := by
  obtain ⟨latest, queueInv⟩ := inv.queue
  have moved := queueInv.advance between
  simp only [setJob, hold_queue]
  generalize result : (mining.queue.advance between).init
    (store (mining.hold job).miner job (Job.slot donate)).job nodeset = outcome
  have stored : (store (mining.hold job).miner job (Job.slot donate)).job.rxSeed = job.rxSeed := rfl
  have kept : ∃ newest, outcome.2.Inv newest := result ▸ moved.init _ nodeset
  by_cases ready : outcome.1 = true
  · -- The dataset is there, or none is needed.
    rw [if_pos ready]
    refine ⟨kept, fun _ unready => ?_⟩
    have found := RxQueue.init_ready (by rw [result]; exact ready)
    rw [result] at found
    rw [← found.1] at found
    exact absurd unready (by rw [Bool.not_eq_true, unready_iff]; exact found.2)
  · rw [if_neg ready]
    refine ⟨kept, fun _ _ => ?_⟩
    apply hold_held
    by_contra there
    rw [Bool.not_eq_true, unready_iff] at there
    apply ready
    rw [← result]
    refine RxQueue.init_of_ready fun family => ?_
    have found := there family
    rw [queueInv.advance_idle (RxQueue.isReady_idle found) between]
    exact found

theorem handleJobChange_inv (inv : mining.Inv) (ready : mining.unready mining.miner.job = false) :
    mining.handleJobChange.Inv := by
  refine ⟨inv.queue, fun _ missing => ?_⟩
  rw [show mining.handleJobChange.unready mining.handleJobChange.miner.job = false from ready] at missing
  cases missing

theorem onReady_inv (inv : mining.Inv) : mining.onReady.Inv := by
  obtain ⟨latest, queueInv⟩ := inv.queue
  have cleared : Inv { mining with queue := mining.queue.onReady.2 } :=
    ⟨⟨latest, RxQueue.onReady_inv queueInv⟩, inv.held⟩
  simp only [onReady]
  split
  · unfold onDatasetReady
    split
    · rename_i there
      exact handleJobChange_inv cleared (unready_iff.mpr fun _ => there)
    · exact cleared
  · exact cleared

theorem setEnabled_inv (inv : mining.Inv) {enabled : Bool}
    (admissible : (Event.setEnabled enabled).Admissible mining) : (mining.setEnabled enabled).Inv := by
  unfold setEnabled
  split
  · exact inv
  · rename_i changes
    split
    · exact inv
    · rename_i allowed
      dsimp only
      split
      · rename_i active
        refine ⟨inv.queue, fun _ missing => ?_⟩
        cases enabled with
        | false => exact .inl rfl
        | true =>
          rcases admissible with same | power | inactive | there | gone
          · exact absurd same changes
          · exact absurd (by simpa using power) allowed
          · exact absurd active (by simp [inactive])
          · exact absurd missing (by rw [Bool.not_eq_true]; exact there)
          · exact .inr gone
      · rename_i inactive
        exact ⟨inv.queue, fun active => absurd active inactive⟩

theorem step_inv (inv : mining.Inv) {event : Event} (admissible : event.Admissible mining)
    (stepped : mining.step event = some after) : after.Inv := by
  cases event with
  | setJob job donate nodeset between => cases stepped; exact setJob_inv inv job donate nodeset between
  | setEnabled enabled => cases stepped; exact setEnabled_inv inv admissible
  | battery power => cases stepped; exact ⟨inv.queue, inv.held⟩
  | pause => cases stepped; exact ⟨inv.queue, fun active => by cases active⟩
  | stop => cases stepped; exact ⟨inv.queue, fun _ _ => .inr rfl⟩
  | background allocates =>
    obtain ⟨queue, moved, rfl⟩ := Option.map_eq_some_iff.mp stepped
    obtain ⟨latest, queueInv⟩ := inv.queue
    refine ⟨⟨latest, RxQueue.background_inv queueInv moved⟩, fun active missing => inv.held active ?_⟩
    -- The thread only moves while nothing is ready.
    by_contra there
    rw [Bool.not_eq_true, unready_iff] at there
    by_cases family : mining.miner.job.algorithm.family = Algorithm.randomX
    · rw [queueInv.background_idle (RxQueue.isReady_idle (there family))] at moved
      cases moved
    · simp [unready, family] at missing
  | ready =>
    simp only [step] at stepped
    split at stepped
    · cases stepped; exact onReady_inv inv
    · cases stepped
  | exhausted => cases stepped; exact ⟨inv.queue, fun _ _ => .inl rfl⟩

/-- Whatever jobs arrive, workers do not hash without the dataset of the current
job: they are paused, or stopped until the dataset is there. -/
theorem held_while_unready {start final : Mining} {events : List Event}
    (fresh : start.miner = {} ∧ start.queue = {} ∧ start.running = false)
    (admissible : Guarded step (fun mining event => event.Admissible mining) start events)
    (executed : run step start events = some final) (active : final.miner.active = true)
    (family : final.miner.job.algorithm.family = Algorithm.randomX)
    (missing : final.queue.isReady final.miner.job.rxSeed = false) :
    final.nonce.paused = true ∨ final.running = false := by
  have started : start.Inv :=
    ⟨⟨none, by rw [fresh.2.1]; exact RxQueue.init_inv⟩, fun _ _ => .inr fresh.2.2⟩
  have inv := run_invariant (fun mining event next inv good stepped => step_inv inv good stepped)
    started admissible executed
  exact inv.held active (by simp [unready, family, missing])

/-- The dataset of a first job is computed, then a second job needs another one. -/
def secondJobRun : List Event :=
  [.setJob { algorithm := .rx0, seed := [1] } false [] [], .background true, .background true,
    .background true, .background true, .background true, .background true, .ready,
    .setJob { algorithm := .rx0, seed := [2] } false [] []]

theorem secondJobRun_runs : (run step {} secondJobRun).isSome = true := by decide

theorem held_while_unready_second :
    ∃ final, run step {} secondJobRun = some final ∧ final.miner.active = true ∧
      final.running = true ∧ (final.nonce.paused = true ∨ final.running = false) := by
  have executed := (Option.some_get secondJobRun_runs).symm
  refine ⟨_, executed, by decide, by decide, ?_⟩
  refine held_while_unready ⟨rfl, rfl, rfl⟩ ?_ executed (by decide) (by decide)
    (by decide)
  simp [secondJobRun, Guarded, Event.Admissible]

/-- The first RandomX job stops the workers, and stopping them clears the flag. -/
theorem stop_unpauses :
    ∃ final, run step {} [.setJob { algorithm := .rx0, seed := [1] } false [] []] = some final ∧
      final.miner.active = true ∧ final.queue.isReady final.miner.job.rxSeed = false ∧
      final.nonce.paused = false := by
  exact ⟨_, rfl, by decide, by decide, by decide⟩

end Mining

end Xmrig
