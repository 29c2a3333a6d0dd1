import Mathlib.Logic.Basic

/-! Loops that advance a position by a fixed stride until it reaches a bound.

A loop that is entered a whole number of strides before its bound stops
exactly there, in the state that its passes lead to.
-/

set_option autoImplicit false

namespace Foundation

universe u

variable {State : Type u}

/-- `while (position < stop) { body; position += stride; }` -/
def sweep (stride : Nat) (forward : 0 < stride) (body : Nat → State → State) (stop : Nat)
    (position : Nat) (state : State) : Nat × State :=
  if position < stop then sweep stride forward body stop (position + stride) (body position state)
  else (position, state)
termination_by stop - position

variable {stride : Nat} {forward : 0 < stride} {body : Nat → State → State}

theorem sweep_done {stop position : Nat} (done : stop ≤ position) (state : State) :
    sweep stride forward body stop position state = (position, state) := by
  rw [sweep, if_neg (by omega)]

theorem sweep_step {stop position : Nat} (running : position < stop) (state : State) :
    sweep stride forward body stop position state =
      sweep stride forward body stop (position + stride) (body position state) := by
  rw [sweep, if_pos running]

/-- The loop rule: passes that follow a trace of states from one stride to the next take it
to the bound, from any point of it. -/
theorem sweep_trace (forward : 0 < stride) (body : Nat → State → State) (trace : Nat → State)
    (pass : ∀ i, body (stride * i) (trace i) = trace (i + 1)) (i passes : Nat) :
    sweep stride forward body (stride * (i + passes)) (stride * i) (trace i) =
      (stride * (i + passes), trace (i + passes)) := by
  induction passes generalizing i with
  | zero => exact sweep_done (Nat.le_refl _) (trace i)
  | succ passes ih =>
    have running : stride * i < stride * (i + (passes + 1)) :=
      Nat.mul_lt_mul_of_pos_left (by omega) forward
    have next := ih (i + 1)
    rw [show i + 1 + passes = i + (passes + 1) by omega] at next
    rw [sweep_step running, pass, ← Nat.mul_succ]
    exact next

theorem sweep_rule (P : Nat → State → Prop) {i passes : Nat} {state : State} (start : P i state)
    (pass : ∀ j < i + passes, ∀ state, P j state → P (j + 1) (body (stride * j) state)) :
    ∃ final, sweep stride forward body (stride * (i + passes)) (stride * i) state = (stride * (i + passes), final) ∧
      P (i + passes) final := by
  induction passes generalizing i state with
  | zero => exact ⟨state, sweep_done (Nat.le_refl _) state, start⟩
  | succ passes ih =>
    have running : stride * i < stride * (i + (passes + 1)) :=
      Nat.mul_lt_mul_of_pos_left (by omega) forward
    have count : i + 1 + passes = i + (passes + 1) := by omega
    obtain ⟨final, ran, holds⟩ := ih (pass i (by omega) state start) (by rwa [count])
    rw [count] at ran holds
    exact ⟨final, by rw [sweep_step running, ← Nat.mul_succ, ran], holds⟩

/-- `do { body; position += stride; } while (position < stop)` -/
def doSweep (stride : Nat) (forward : 0 < stride) (body : Nat → State → State) (stop : Nat)
    (position : Nat) (state : State) : Nat × State :=
  sweep stride forward body stop (position + stride) (body position state)

theorem doSweep_eq_sweep {stop position : Nat} (running : position < stop) (state : State) :
    doSweep stride forward body stop position state = sweep stride forward body stop position state :=
  (sweep_step running state).symm

section Simulation

variable {Other : Type u} {R : State → Other → Prop} {scale small : Nat} {other : Nat → Other → Other}

theorem sweep_scale (large : 0 < scale) (ahead : 0 < small) (larger : 0 < scale * small)
    (pass : ∀ position first second, R first second → R (body (scale * position) first) (other position second))
    (stop position : Nat) {first : State} {second : Other} (related : R first second) :
    (sweep (scale * small) larger body (scale * stop) (scale * position) first).1 =
        scale * (sweep small ahead other stop position second).1 ∧
      R (sweep (scale * small) larger body (scale * stop) (scale * position) first).2
        (sweep small ahead other stop position second).2 := by
  by_cases running : position < stop
  · have further : scale * position < scale * stop := Nat.mul_lt_mul_of_pos_left running large
    rw [sweep_step running, sweep_step further, ← Nat.mul_add]
    exact sweep_scale large ahead larger pass stop (position + small) (pass position first second related)
  · have ended : scale * stop ≤ scale * position := Nat.mul_le_mul_left _ (by omega)
    rw [sweep_done ended, sweep_done (by omega)]
    exact ⟨rfl, related⟩
termination_by stop - position

theorem doSweep_scale (large : 0 < scale) (ahead : 0 < small) (larger : 0 < scale * small)
    (pass : ∀ position first second, R first second → R (body (scale * position) first) (other position second))
    (stop position : Nat) {first : State} {second : Other} (related : R first second) :
    (doSweep (scale * small) larger body (scale * stop) (scale * position) first).1 =
        scale * (doSweep small ahead other stop position second).1 ∧
      R (doSweep (scale * small) larger body (scale * stop) (scale * position) first).2
        (doSweep small ahead other stop position second).2 := by
  unfold doSweep
  rw [← Nat.mul_add]
  exact sweep_scale large ahead larger pass stop (position + small) (pass position first second related)

end Simulation

section Together

variable {Left Right Both : Type u} {R : Left → Right → Both → Prop} {left : Nat → Left → Left}
  {right : Nat → Right → Right} {both : Nat → Both → Both}

theorem sweep_together
    (pass : ∀ position first second third, R first second third →
      R (left position first) (right position second) (both position third))
    (stop position : Nat) {first : Left} {second : Right} {third : Both} (related : R first second third) :
    (sweep stride forward left stop position first).1 = (sweep stride forward both stop position third).1 ∧
      (sweep stride forward right stop position second).1 = (sweep stride forward both stop position third).1 ∧
      R (sweep stride forward left stop position first).2 (sweep stride forward right stop position second).2
        (sweep stride forward both stop position third).2 := by
  by_cases running : position < stop
  · rw [sweep_step running, sweep_step running, sweep_step running]
    exact sweep_together pass stop (position + stride) (pass position first second third related)
  · rw [sweep_done (by omega), sweep_done (by omega), sweep_done (by omega)]
    exact ⟨rfl, rfl, related⟩
termination_by stop - position

theorem doSweep_together
    (pass : ∀ position first second third, R first second third →
      R (left position first) (right position second) (both position third))
    (stop position : Nat) {first : Left} {second : Right} {third : Both} (related : R first second third) :
    (doSweep stride forward left stop position first).1 = (doSweep stride forward both stop position third).1 ∧
      (doSweep stride forward right stop position second).1 = (doSweep stride forward both stop position third).1 ∧
      R (doSweep stride forward left stop position first).2 (doSweep stride forward right stop position second).2
        (doSweep stride forward both stop position third).2 :=
  sweep_together pass stop (position + stride) (pass position first second third related)

end Together

end Foundation
