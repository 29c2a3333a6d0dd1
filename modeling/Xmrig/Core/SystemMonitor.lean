import Mathlib.Data.Rat.Defs
import Xmrig.Core.MinerPause
import Xmrig.Foundation.Run

/-! The cycles of the system monitor.

A cycle looks at the load of the processor, then for processes and for windows, and pauses the
miner with the first reason it finds. A paused miner is resumed after so many cycles without a
reason as the delay has intervals. Both durations are unsigned numbers of the configuration, which
can be another one in every cycle.
-/

set_option autoImplicit false

namespace Xmrig

open Foundation

namespace SystemMonitor

structure Config where
  cpuHighPause : BitVec 32 := 95
  cpuLowResume : BitVec 32 := 30
  controlInterval : BitVec 32 := 3
  resumeDelay : BitVec 32 := 30
  deriving DecidableEq, Repr

/-- What a cycle can see: the load, and whether a process or a window of the lists is there. -/
structure Observation where
  cpuUsage : ℚ
  processes : Bool := false
  windows : Bool := false
  deriving DecidableEq, Repr

/-- The reasons as bits; a later one is looked for only without an earlier one. -/
def pauseReasonOf (config : Config) (seen : Observation) : Nat :=
  if (config.cpuHighPause.toNat : ℚ) ≤ seen.cpuUsage then 1
  else if seen.processes then 2
  else if seen.windows then 4
  else 0

def pauseMining (reason : Nat) : SystemMonitor := { paused := true, pauseReason := reason }

def resumeMining : SystemMonitor := { paused := false, pauseReason := 0 }

end SystemMonitor

open SystemMonitor

/-- The members that the monitor thread reads and writes. -/
structure MonitorThread where
  monitor : SystemMonitor := {}
  config : SystemMonitor.Config := {}
  resumeCountdown : BitVec 32 := 0
  deriving DecidableEq, Repr

namespace MonitorThread

/-- The body of the loop in `monitorThread`; nothing is left of a division by zero. -/
def cycle (thread : MonitorThread) (seen : Observation) : Option MonitorThread :=
  let pauseReason := pauseReasonOf thread.config seen
  if pauseReason ≠ 0 then
    some { thread with
      resumeCountdown := 0
      monitor := if thread.monitor.paused then thread.monitor else pauseMining pauseReason }
  else if thread.monitor.paused then
    if thread.config.controlInterval = 0 then none
    else
      let requiredCycles := thread.config.resumeDelay / thread.config.controlInterval
      let resumeCountdown := thread.resumeCountdown + 1
      if requiredCycles ≤ resumeCountdown then
        some { thread with monitor := resumeMining, resumeCountdown := 0 }
      else some { thread with resumeCountdown }
  else some thread

end MonitorThread

namespace SystemMonitor

/-- A cycle that has been, with the state of the miner before and behind it. -/
structure Cycle where
  config : Config
  seen : Observation
  before : Bool
  after : Bool
  deriving DecidableEq, Repr

/-- The thread with its cycles, the newest first, until it ends in a division by zero. -/
structure Watch where
  thread : MonitorThread := {}
  cycles : List Cycle := []
  crashed : Bool := false
  deriving DecidableEq, Repr

inductive Event where
  | updateConfig (config : Config)
  | cycle (seen : Observation)
  deriving DecidableEq, Repr

def step (watch : Watch) (event : Event) : Option Watch :=
  if watch.crashed then none
  else
    match event with
    | .updateConfig config => some { watch with thread := { watch.thread with config } }
    | .cycle seen =>
      match watch.thread.cycle seen with
      | none => some { watch with crashed := true }
      | some thread =>
        let done := ⟨watch.thread.config, seen, watch.thread.monitor.paused, thread.monitor.paused⟩
        some { watch with thread, cycles := done :: watch.cycles }

/-! ## Pausing and resuming as configured -/

/-- The load has reached the upper threshold, or there is a process or a window. -/
def Triggered (config : Config) (seen : Observation) : Prop :=
  (config.cpuHighPause.toNat : ℚ) ≤ seen.cpuUsage ∨ seen.processes = true ∨ seen.windows = true

instance (config : Config) (seen : Observation) : Decidable (Triggered config seen) :=
  inferInstanceAs (Decidable (_ ∨ _ ∨ _))

/-- A cycle without a reason, and with a load not beyond the lower threshold. -/
def Calm (cycle : Cycle) : Prop :=
  ¬Triggered cycle.config cycle.seen ∧ cycle.seen.cpuUsage ≤ (cycle.config.cpuLowResume.toNat : ℚ)

instance (cycle : Cycle) : Decidable (Calm cycle) := inferInstanceAs (Decidable (_ ∧ _))

def calmCycles (cycles : List Cycle) : Nat := (cycles.takeWhile fun cycle => decide (Calm cycle)).length

/-- The miner is paused by the first cycle with a reason, and by none without; it is resumed only
after as many calm cycles as the delay has intervals. -/
def Obeys : List Cycle → Prop
  | [] => True
  | cycle :: earlier =>
      (Triggered cycle.config cycle.seen → cycle.after = true) ∧
      (cycle.before = false → cycle.after = true → Triggered cycle.config cycle.seen) ∧
      (cycle.before = true → cycle.after = false →
        cycle.config.resumeDelay.toNat / cycle.config.controlInterval.toNat ≤ calmCycles (cycle :: earlier)) ∧
      Obeys earlier

/-- What should hold of a monitor with its cycles. -/
structure Sound (watch : Watch) : Prop where
  divides : watch.crashed = false
  reason : watch.thread.monitor.pauseReason ≠ 0 ↔ watch.thread.monitor.paused = true
  obeys : Obeys watch.cycles

/-- While the miner is paused, a cycle without a reason has an interval that is not zero and a load
not beyond the lower threshold. -/
def Resumable (watch : Watch) : Event → Prop
  | .updateConfig _ => True
  | .cycle seen =>
      watch.thread.monitor.paused = true → ¬Triggered watch.thread.config seen →
        watch.thread.config.controlInterval ≠ 0 ∧ seen.cpuUsage ≤ (watch.thread.config.cpuLowResume.toNat : ℚ)

instance (watch : Watch) : (event : Event) → Decidable (Resumable watch event)
  | .updateConfig _ => .isTrue trivial
  | .cycle seen => inferInstanceAs (Decidable (watch.thread.monitor.paused = true →
      ¬Triggered watch.thread.config seen → watch.thread.config.controlInterval ≠ 0 ∧
        seen.cpuUsage ≤ (watch.thread.config.cpuLowResume.toNat : ℚ)))

/-! ## One cycle -/

section Cycles
variable {watch next : Watch} {config : Config} {seen : Observation}

theorem pauseReasonOf_ne_zero : pauseReasonOf config seen ≠ 0 ↔ Triggered config seen := by
  unfold pauseReasonOf Triggered
  split
  · rename_i high
    exact iff_of_true (by decide) (.inl high)
  · rename_i low
    split
    · rename_i process
      exact iff_of_true (by decide) (.inr (.inl process))
    · rename_i quiet
      split
      · rename_i window
        exact iff_of_true (by decide) (.inr (.inr window))
      · rename_i clear
        simp [low, quiet, clear]

/-- The countdown counts calm cycles at the end, and is small. -/
structure Inv (watch : Watch) : Prop where
  sound : Sound watch
  idle : watch.thread.monitor.paused = false → watch.thread.resumeCountdown = 0
  counted : watch.thread.resumeCountdown.toNat ≤ calmCycles watch.cycles
  small : watch.thread.resumeCountdown.toNat + 1 < 2 ^ 32

inductive Done (thread : MonitorThread) (seen : Observation) : Option MonitorThread → Prop
  | trigger : Triggered thread.config seen → Done thread seen (some { thread with
      resumeCountdown := 0
      monitor := if thread.monitor.paused then thread.monitor else pauseMining (pauseReasonOf thread.config seen) })
  | clear : ¬Triggered thread.config seen → thread.monitor.paused = false → Done thread seen (some thread)
  | crash : ¬Triggered thread.config seen → thread.monitor.paused = true → thread.config.controlInterval = 0 →
      Done thread seen none
  | resume : ¬Triggered thread.config seen → thread.monitor.paused = true →
      thread.config.resumeDelay / thread.config.controlInterval ≤ thread.resumeCountdown + 1 →
      Done thread seen (some { thread with monitor := resumeMining, resumeCountdown := 0 })
  | count : ¬Triggered thread.config seen → thread.monitor.paused = true →
      thread.resumeCountdown + 1 < thread.config.resumeDelay / thread.config.controlInterval →
      Done thread seen (some { thread with resumeCountdown := thread.resumeCountdown + 1 })

theorem cycle_done (thread : MonitorThread) (seen : Observation) : Done thread seen (thread.cycle seen) := by
  unfold MonitorThread.cycle
  dsimp only
  split
  · rename_i trigger
    exact .trigger (pauseReasonOf_ne_zero.mp trigger)
  · rename_i quiet
    have clear : ¬Triggered thread.config seen := fun trigger => quiet (pauseReasonOf_ne_zero.mpr trigger)
    split
    · rename_i paused
      split
      · rename_i zero
        exact .crash clear paused zero
      · split
        · rename_i enough
          exact .resume clear paused enough
        · rename_i short
          exact .count clear paused (BitVec.not_le.mp short)
    · rename_i running
      exact .clear clear (Bool.not_eq_true _ ▸ running)

theorem calmCycles_cons {cycle : Cycle} {earlier : List Cycle} (calm : Calm cycle) :
    calmCycles (cycle :: earlier) = calmCycles earlier + 1 := by
  rw [calmCycles, List.takeWhile_cons_of_pos (by simpa using calm)]
  rfl

theorem cycle_inv (inv : Inv watch) (allowed : Resumable watch (.cycle seen))
    (stepped : step watch (.cycle seen) = some next) : Inv next := by
  obtain ⟨⟨divides, reason, obeys⟩, idle, counted, small⟩ := inv
  rw [step, divides, if_neg Bool.false_ne_true] at stepped
  dsimp only at stepped
  have counts : (watch.thread.resumeCountdown + 1).toNat = watch.thread.resumeCountdown.toNat + 1 := by
    rw [BitVec.toNat_add]
    exact Nat.mod_eq_of_lt small
  have done := cycle_done watch.thread seen
  generalize watch.thread.cycle seen = result at done stepped
  cases done with
  | trigger trigger =>
    cases stepped
    have after : (if watch.thread.monitor.paused then watch.thread.monitor
        else pauseMining (pauseReasonOf watch.thread.config seen)).paused = true := by
      split
      · assumption
      · rfl
    refine ⟨⟨rfl, iff_of_true ?_ after, ?_⟩, fun _ => rfl, Nat.zero_le _, show 0 + 1 < 2 ^ 32 by decide⟩
    · dsimp only
      split
      · rename_i paused
        exact reason.mpr paused
      · exact pauseReasonOf_ne_zero.mpr trigger
    · refine ⟨fun _ => after, fun _ _ => trigger, fun _ resumed => ?_, obeys⟩
      exact absurd (after.symm.trans resumed) (by decide)
  | clear clear running =>
    cases stepped
    have none_counted : watch.thread.resumeCountdown.toNat = 0 := congrArg BitVec.toNat (idle running)
    refine ⟨⟨rfl, reason, ?_⟩, idle, ?_, small⟩
    · refine ⟨fun trigger => absurd trigger clear, fun _ paused => ?_, fun paused => ?_, obeys⟩
      · exact absurd (running.symm.trans paused) (by decide)
      · exact absurd (running.symm.trans paused) (by decide)
    · exact none_counted ▸ Nat.zero_le _
  | crash clear paused zero => exact absurd zero (allowed paused clear).1
  | resume clear paused enough =>
    cases stepped
    have reset : resumeMining.pauseReason ≠ 0 ↔ resumeMining.paused = true := by decide
    refine ⟨⟨rfl, reset, ?_⟩, fun _ => rfl, Nat.zero_le _, show 0 + 1 < 2 ^ 32 by decide⟩
    refine ⟨fun trigger => absurd trigger clear, fun running => ?_, fun _ _ => ?_, obeys⟩
    · exact absurd (running.symm.trans paused) (by decide)
    · rw [calmCycles_cons ⟨clear, (allowed paused clear).2⟩]
      rw [BitVec.le_def, BitVec.toNat_udiv, counts] at enough
      exact Nat.le_trans enough (Nat.succ_le_succ counted)
  | count clear paused short =>
    cases stepped
    refine ⟨⟨rfl, reason, ?_⟩, fun running => ?_, ?_, ?_⟩
    · refine ⟨fun trigger => absurd trigger clear, fun running => ?_, fun _ running => ?_, obeys⟩
      · exact absurd (running.symm.trans paused) (by decide)
      · exact absurd (running.symm.trans paused) (by decide)
    · exact absurd (running.symm.trans paused) (by decide)
    · rw [calmCycles_cons ⟨clear, (allowed paused clear).2⟩]
      exact counts ▸ Nat.succ_le_succ counted
    · have bound := (watch.thread.config.resumeDelay / watch.thread.config.controlInterval).isLt
      rw [BitVec.lt_def] at short
      exact Nat.lt_of_le_of_lt (Nat.succ_le_of_lt short) bound

theorem step_inv {event : Event} (inv : Inv watch) (allowed : Resumable watch event)
    (stepped : step watch event = some next) : Inv next := by
  cases event with
  | cycle seen => exact cycle_inv inv allowed stepped
  | updateConfig config =>
    obtain ⟨⟨divides, reason, obeys⟩, idle, counted, small⟩ := inv
    rw [step, divides, if_neg Bool.false_ne_true] at stepped
    cases stepped
    exact ⟨⟨rfl, reason, obeys⟩, idle, counted, small⟩

theorem inv_start (config : Config) : Inv { thread := { config } } :=
  ⟨⟨rfl, show (0 : Nat) ≠ 0 ↔ false = true by decide, trivial⟩, fun _ => rfl, Nat.le_refl _, show 0 + 1 < 2 ^ 32 by decide⟩

end Cycles

/-- A monitor whose miner is, while paused, only seen with a load that is high enough to pause or
low enough to resume, and never with an interval of zero, pauses and resumes as configured. -/
theorem sound_throughout (config : Config) {events : List Event}
    (allowed : Guarded step Resumable { thread := { config } } events) :
    Throughout step Sound { thread := { config } } events :=
  throughout_of_guarded (fun _ inv => inv.sound) (fun _ _ _ inv allowed stepped => step_inv inv allowed stepped)
    (inv_start config) allowed

def quietEvents : List Event :=
  [.cycle ⟨96, false, false⟩, .updateConfig { resumeDelay := 6 }, .cycle ⟨20, false, false⟩, .cycle ⟨20, false, false⟩,
    .cycle ⟨50, false, true⟩]

theorem sound_throughout_quiet : Throughout step Sound { thread := { config := {} } } quietEvents :=
  sound_throughout {} (by decide)

/-- A delay of one interval ends with a load of 94, far beyond the lower threshold of 30; an interval
of zero ends in a division by zero. -/
theorem step_unsound :
    (∃ final, run step { thread := { config := { resumeDelay := 3 } } }
        [.cycle ⟨96, false, false⟩, .cycle ⟨94, false, false⟩] = some final ∧ ¬Sound final) ∧
      ∃ final, run step { thread := { config := { controlInterval := 0 } } }
        [.cycle ⟨96, false, false⟩, .cycle ⟨20, false, false⟩] = some final ∧ ¬Sound final := by
  refine ⟨⟨_, rfl, fun sound => ?_⟩, ⟨_, rfl, fun sound => ?_⟩⟩
  · exact absurd (sound.obeys.2.2.1 (by decide) (by decide)) (by decide)
  · exact absurd sound.divides (by decide)

end SystemMonitor

end Xmrig
