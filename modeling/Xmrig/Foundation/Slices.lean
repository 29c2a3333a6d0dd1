import Mathlib.Algebra.Order.Ring.Nat
import Mathlib.Order.Monotone.Basic

/-! Ranges cut into slices at growing bounds.

A slice is what lies between two neighbouring bounds. The proportional bounds cut a
range into slices that differ by at most one in size.
-/

set_option autoImplicit false

namespace Foundation

section Bounds
variable {bound : Nat → Nat}

theorem exists_slice (start : bound 0 = 0) {count item : Nat} (below : item < bound count) :
    ∃ i, i < count ∧ bound i ≤ item ∧ item < bound (i + 1) := by
  induction count with
  | zero =>
    rw [start] at below
    cases below
  | succ count ih =>
    by_cases earlier : item < bound count
    · obtain ⟨i, inside, slice⟩ := ih earlier
      exact ⟨i, Nat.lt_succ_of_lt inside, slice⟩
    · exact ⟨count, Nat.lt_succ_self count, Nat.le_of_not_lt earlier, below⟩

theorem slice_unique (grows : Monotone bound) {first second item : Nat} (before : first < second)
    (inFirst : item < bound (first + 1)) : ¬ bound second ≤ item := by
  have ordered : bound (first + 1) ≤ bound second := grows before
  omega

theorem slices_flatten (start : bound 0 = 0) (grows : Monotone bound) (count : Nat) :
    ((List.range count).map fun i => List.range' (bound i) (bound (i + 1) - bound i)).flatten =
      List.range (bound count) := by
  induction count with
  | zero => rw [start]; rfl
  | succ count ih =>
    have grown : bound count ≤ bound (count + 1) := grows (Nat.le_succ count)
    have joined := @List.range'_append_1 0 (bound count) (bound (count + 1) - bound count)
    rw [Nat.zero_add, Nat.add_sub_cancel' grown] at joined
    rw [List.range_succ, List.map_append, List.flatten_append, ih, List.range_eq_range', List.range_eq_range', ← joined]
    simp only [List.map_cons, List.map_nil, List.flatten_cons, List.flatten_nil, List.append_nil]

end Bounds

/-- The bound of the slice `i` of `count`. -/
def share (total count i : Nat) : Nat := total * i / count

section Shares
variable {total count : Nat}

@[simp] theorem share_zero : share total count 0 = 0 := by simp [share]

theorem share_last (some : 0 < count) : share total count count = total :=
  Nat.mul_div_cancel total some

theorem share_mono : Monotone (share total count) := fun _ _ le =>
  Nat.div_le_div_right (Nat.mul_le_mul_left total le)

theorem share_wide {width : Nat} (some : 0 < count) (enough : width * count ≤ total) (i : Nat) :
    share total count i + width ≤ share total count (i + 1) := by
  unfold share
  rw [← Nat.add_mul_div_right _ _ some, Nat.mul_succ]
  exact Nat.div_le_div_right (Nat.add_le_add_left enough _)

end Shares

end Foundation
