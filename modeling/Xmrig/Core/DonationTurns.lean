import Mathlib.Order.Fin.Basic
import Xmrig.Core.Background

/-! Mining for the user and for the donation in turns.

The controller looks at the clock when a job comes. What it means is a turn of a fixed length,
which ends with the first job behind it. It adds up, at every job, the time since the last switch,
so that jobs inside of a turn count the same time again.
-/

set_option autoImplicit false

namespace Xmrig

/-- `steady_clock::now()`, in nanoseconds. -/
abbrev SteadyTime := Fin (2 ^ 63)

namespace DonationController

/-- `currentTimeMs`. -/
def milliseconds (now : SteadyTime) : Nat := now.val / 1000000

def onJob (controller : DonationController) (now : SteadyTime) : DonationController :=
  controller.updateState (milliseconds now)

def restart (level : Nat) (donating : Bool) (now : SteadyTime) : DonationController :=
  { config := { donateLevel := level }
    isDonating := donating
    startTime := milliseconds now
    lastSwitchTime := milliseconds now }

/-- What is mined for, and since when, in milliseconds. -/
structure Turn where
  donating : Bool
  since : Nat
  deriving DecidableEq, Repr

structure Switch where
  turn : Turn
  now : Nat
  deriving DecidableEq, Repr

def turn (controller : DonationController) : Turn := ⟨controller.isDonating, controller.lastSwitchTime⟩

def switches (controller : DonationController) : List SteadyTime → List Switch
  | [] => []
  | now :: rest =>
      let after := controller.onJob now
      if after.isDonating = controller.isDonating then after.switches rest
      else ⟨controller.turn, milliseconds now⟩ :: after.switches rest

/-! ## Turns as they are configured -/

def period (level : Nat) (donating : Bool) : Nat := 6000000 * (if donating then level else 100 - level) / 100

/-- A turn that was long enough. -/
def Switch.Due (level : Nat) (switch : Switch) : Prop :=
  period level switch.turn.donating ≤ switch.now - switch.turn.since

instance (level : Nat) (switch : Switch) : Decidable (switch.Due level) := inferInstanceAs (Decidable (_ ≤ _))

def Turn.next (level : Nat) (turn : Turn) (now : Nat) : Turn :=
  if period level turn.donating ≤ now - turn.since then ⟨!turn.donating, now⟩ else turn

/-- The times, counted from the start of a turn, at which jobs come before its end add up to less
than its length. -/
def Sparse (level : Nat) : Turn → Nat → List Nat → Prop
  | _, _, [] => True
  | turn, total, now :: rest =>
      if period level turn.donating ≤ now - turn.since then Sparse level ⟨!turn.donating, now⟩ 0 rest
      else total + (now - turn.since) < period level turn.donating ∧ Sparse level turn (total + (now - turn.since)) rest

instance decidableSparse (level : Nat) : (turn : Turn) → (total : Nat) → (jobs : List Nat) →
    Decidable (Sparse level turn total jobs)
  | _, _, [] => .isTrue trivial
  | turn, total, now :: rest =>
      have := decidableSparse level ⟨!turn.donating, now⟩ 0 rest
      have := decidableSparse level turn (total + (now - turn.since)) rest
      inferInstanceAs (Decidable (if period level turn.donating ≤ now - turn.since then Sparse level ⟨!turn.donating, now⟩ 0 rest
        else total + (now - turn.since) < period level turn.donating ∧
          Sparse level turn (total + (now - turn.since)) rest))

/-! ## One job -/

def spent (controller : DonationController) : Nat :=
  if controller.isDonating then controller.donationTime else controller.userTime

def unspent (controller : DonationController) : Nat :=
  if controller.isDonating then controller.userTime else controller.donationTime

section Level
variable {level : Nat}

theorem period_eq (small : level < 100) (donating : Bool) :
    (if donating then cycleTime * level / 100 else cycleTime - cycleTime * level / 100) = period level donating := by
  unfold period
  rw [show cycleTime = 6000000 from rfl]
  cases donating with
  | true => rfl
  | false =>
    simp only [Bool.false_eq_true, if_false]
    omega

theorem period_le (small : level < 100) (donating : Bool) : period level donating ≤ 6000000 := by
  unfold period
  split <;> omega

theorem period_pos (positive : 0 < level) (small : level < 100) (donating : Bool) : 0 < period level donating := by
  unfold period
  split <;> omega

end Level

/-- The controller is in a turn, and its timer holds a total. -/
structure Tracks (controller : DonationController) (level : Nat) (turn : Turn) (total : Nat) : Prop where
  configured : controller.config.donateLevel = level
  current : controller.turn = turn
  spent : controller.spent = total
  unspent : controller.unspent = 0
  below : total < period level turn.donating

variable {controller : DonationController} {level : Nat} {turn : Turn} {total : Nat} {now : SteadyTime}

theorem milliseconds_lt (now : SteadyTime) : milliseconds now < 2 ^ 44 := by
  have bound : now.val < 2 ^ 63 := now.isLt
  unfold milliseconds
  omega

theorem milliseconds_mono {earlier later : SteadyTime} (le : earlier ≤ later) : milliseconds earlier ≤ milliseconds later :=
  Nat.div_le_div_right le

theorem Tracks.onJob (tracks : controller.Tracks level turn total) (positive : 0 < level) (small : level < 100)
    (later : turn.since ≤ milliseconds now) :
    if period level turn.donating ≤ total + (milliseconds now - turn.since) then
      (controller.onJob now).Tracks level ⟨!turn.donating, milliseconds now⟩ 0
    else (controller.onJob now).Tracks level turn (total + (milliseconds now - turn.since)) := by
  obtain ⟨rfl, rfl, rfl, unspent, below⟩ := tracks
  have bound := milliseconds_lt now
  have length := period_le small controller.turn.donating
  have elapsed : (milliseconds now + (2 ^ 64 - controller.lastSwitchTime)) % 2 ^ 64 =
      milliseconds now - controller.lastSwitchTime := by
    change controller.lastSwitchTime ≤ _ at later
    omega
  have sum : addTime controller.spent (milliseconds now - controller.lastSwitchTime) =
      controller.spent + (milliseconds now - controller.lastSwitchTime) := by
    apply Nat.mod_eq_of_lt
    omega
  have started := period_pos positive small (!controller.isDonating)
  have configured := period_eq small controller.isDonating
  rw [DonationController.onJob, updateState, if_neg (Nat.ne_of_gt positive), if_neg (Nat.ne_of_lt small)]
  obtain ⟨config, donating, start, last, donation, user⟩ := controller
  cases donating with
  | true =>
    simp only [turn, DonationController.spent, DonationController.unspent, if_true] at *
    rw [elapsed, configured, sum]
    by_cases reached : period config.donateLevel true ≤ donation + (milliseconds now - last)
    · rw [if_pos reached, if_pos reached]
      exact ⟨rfl, rfl, unspent, rfl, started⟩
    · rw [if_neg reached, if_neg reached]
      exact ⟨rfl, rfl, rfl, unspent, Nat.lt_of_not_le reached⟩
  | false =>
    simp only [turn, DonationController.spent, DonationController.unspent, Bool.false_eq_true, if_false] at *
    rw [elapsed, configured, sum]
    by_cases reached : period config.donateLevel false ≤ user + (milliseconds now - last)
    · rw [if_pos reached, if_pos reached]
      exact ⟨rfl, rfl, unspent, rfl, started⟩
    · rw [if_neg reached, if_neg reached]
      exact ⟨rfl, rfl, rfl, unspent, Nat.lt_of_not_le reached⟩

/-! ## Many jobs -/

/-- The times of the jobs go forward from the start of the turn. -/
def Forward (turn : Turn) (times : List SteadyTime) : Prop :=
  (∀ now ∈ times, turn.since ≤ milliseconds now) ∧ times.Pairwise (· ≤ ·)

theorem Forward.tail {rest : List SteadyTime} (forward : Forward turn (now :: rest)) : Forward turn rest :=
  ⟨fun other member => forward.1 other (List.mem_cons_of_mem now member), (List.pairwise_cons.mp forward.2).2⟩

theorem Forward.switched {rest : List SteadyTime} (forward : Forward turn (now :: rest)) (donating : Bool) :
    Forward ⟨donating, milliseconds now⟩ rest :=
  ⟨fun other member => milliseconds_mono ((List.pairwise_cons.mp forward.2).1 other member),
    (List.pairwise_cons.mp forward.2).2⟩

theorem switches_of_next {rest : List SteadyTime} {level : Nat} {before after : Turn} {total later : Nat}
    (tracks : controller.Tracks level before total) (next : (controller.onJob now).Tracks level after later) :
    controller.switches (now :: rest) =
      (if after.donating = before.donating then [] else [⟨before, milliseconds now⟩]) ++
        (controller.onJob now).switches rest := by
  have old : controller.turn = before := tracks.current
  have new : (controller.onJob now).turn = after := next.current
  subst old new
  rw [switches]
  by_cases same : (controller.onJob now).turn.donating = controller.turn.donating
  · rw [if_pos same, List.nil_append]
    exact if_pos same
  · rw [if_neg same, List.singleton_append]
    exact if_neg same

/-- From any point of a turn, all turns that end have had their length exactly if the jobs are sparse. -/
theorem Tracks.due_iff (tracks : controller.Tracks level turn total) (positive : 0 < level) (small : level < 100)
    {times : List SteadyTime} (forward : Forward turn times) :
    (∀ switch ∈ controller.switches times, switch.Due level) ↔
      Sparse level turn total (times.map milliseconds) := by
  induction times generalizing controller turn total with
  | nil => simp [switches, Sparse]
  | cons now rest ih =>
    have later := forward.1 now (by simp)
    have next := tracks.onJob positive small later
    rw [List.map_cons, Sparse]
    by_cases due : period level turn.donating ≤ milliseconds now - turn.since
    · rw [if_pos (Nat.le_trans due (Nat.le_add_left _ _))] at next
      rw [if_pos due, ← ih next (forward.switched _), switches_of_next tracks next]
      simp [Switch.Due, due]
    · rw [if_neg due]
      by_cases full : period level turn.donating ≤ total + (milliseconds now - turn.since)
      · rw [if_pos full] at next
        rw [switches_of_next tracks next]
        simp [Switch.Due, due, Nat.not_lt.mpr full]
      · rw [if_neg full] at next
        rw [← ih next forward.tail, switches_of_next tracks next]
        simp [Nat.lt_of_not_le full]

/-- With sparse jobs the turns are the configured ones, however many jobs there are. -/
theorem Tracks.turn_foldl (tracks : controller.Tracks level turn total) (positive : 0 < level)
    (small : level < 100) {times : List SteadyTime} (forward : Forward turn times)
    (sparse : Sparse level turn total (times.map milliseconds)) :
    (times.foldl DonationController.onJob controller).turn =
      (times.map milliseconds).foldl (Turn.next level) turn := by
  induction times generalizing controller turn total with
  | nil => exact tracks.current
  | cons now rest ih =>
    have later := forward.1 now (by simp)
    have next := tracks.onJob positive small later
    rw [List.map_cons, Sparse] at sparse
    rw [List.map_cons, List.foldl_cons, List.foldl_cons, Turn.next]
    by_cases due : period level turn.donating ≤ milliseconds now - turn.since
    · rw [if_pos (Nat.le_trans due (Nat.le_add_left _ _))] at next
      rw [if_pos due] at sparse ⊢
      exact ih next (forward.switched _) sparse
    · rw [if_neg due] at sparse ⊢
      rw [if_neg (Nat.not_le.mpr sparse.1)] at next
      exact ih next forward.tail sparse.2

theorem restart_tracks (positive : 0 < level) (small : level < 100) (donating : Bool) (start : SteadyTime) :
    (restart level donating start).Tracks level ⟨donating, milliseconds start⟩ 0 := by
  refine ⟨rfl, ?_, ?_, ?_, period_pos positive small donating⟩
  · rfl
  · cases donating <;> rfl
  · cases donating <;> rfl

/-- No turn is cut short exactly if the times at which jobs come inside of it, counted from its
start, add up to less than its length; the turns are then those of the clock alone. -/
theorem due_iff_sparse (positive : 0 < level) (small : level < 100) (donating : Bool) (start : SteadyTime)
    (times : List SteadyTime) (forward : (start :: times).Pairwise (· ≤ ·)) :
    ((∀ switch ∈ (restart level donating start).switches times, switch.Due level) ↔
      Sparse level ⟨donating, milliseconds start⟩ 0 (times.map milliseconds)) ∧
    (Sparse level ⟨donating, milliseconds start⟩ 0 (times.map milliseconds) →
      (times.foldl onJob (restart level donating start)).turn =
        (times.map milliseconds).foldl (Turn.next level) ⟨donating, milliseconds start⟩) := by
  have ordered := List.pairwise_cons.mp forward
  have ahead : Forward ⟨donating, milliseconds start⟩ times :=
    ⟨fun now member => milliseconds_mono (ordered.1 now member), ordered.2⟩
  have tracks := restart_tracks positive small donating start
  exact ⟨tracks.due_iff positive small ahead, tracks.turn_foldl positive small ahead⟩

/-- One job in a turn and one behind it. -/
theorem due_iff_sparse_half :
    (∀ switch ∈ (restart 50 false 0).switches [1600000000000, 3100000000000], switch.Due 50) ∧
      ([1600000000000, 3100000000000].foldl onJob (restart 50 false 0)).turn = ⟨true, 3100000⟩ := by
  obtain ⟨due, turns⟩ := @due_iff_sparse 50 (by decide) (by decide) false 0 [1600000000000, 3100000000000] (by decide)
  have sparse : Sparse 50 ⟨false, 0⟩ 0 [1600000, 3100000] := by decide
  exact ⟨due.mpr sparse, (turns sparse).trans (by decide)⟩

/-- Two jobs in the second half of a turn of fifty minutes: it ends with the second one. -/
theorem restart_ends_early :
    (restart 50 false 0).switches [1600000000000, 1700000000000] = [⟨⟨false, 0⟩, 1700000⟩] ∧
      ¬Switch.Due 50 ⟨⟨false, 0⟩, 1700000⟩ := by
  decide

end DonationController

end Xmrig
