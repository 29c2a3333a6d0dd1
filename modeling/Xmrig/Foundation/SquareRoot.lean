import Mathlib.Analysis.Real.Sqrt
import Mathlib.Tactic.FieldSimp
import Mathlib.Tactic.Linarith
import Mathlib.Tactic.Positivity
import Mathlib.Tactic.Ring

/-! Square roots of doubles under the directed rounding modes.

The root of a double of [1, 2) is in [1, 2) again, so its 52 fraction bits are those
of an integer square root. The last theorems say what that means for the values of
the doubles.
-/

set_option autoImplicit false

namespace Foundation

/-- A directed rounding mode; on positive numbers, toward zero is down. -/
inductive Rounding where
  | towardZero
  | up
  deriving DecidableEq, Repr

def ceilSqrt (n : Nat) : Nat := if n.sqrt * n.sqrt = n then n.sqrt else n.sqrt + 1

def Rounding.root : Rounding → Nat → Nat
  | towardZero, n => n.sqrt
  | up, n => ceilSqrt n

/-- `sqrtsd` on a double of [1, 2), by its bits. -/
def sqrtsd (mode : Rounding) (x : BitVec 64) : BitVec 64 :=
  BitVec.ofNat 64 (1022 * 2 ^ 52 + mode.root ((2 ^ 52 + x.toNat % 2 ^ 52) * 2 ^ 52))

noncomputable def binadeValue (x : BitVec 64) : ℝ := 1 + (x.toNat % 2 ^ 52 : ℕ) / 2 ^ 52

section Roots

theorem ceilSqrt_le_iff {n m : Nat} : ceilSqrt n ≤ m ↔ n ≤ m * m := by
  have down : n.sqrt * n.sqrt ≤ n := Nat.sqrt_le n
  have above : n < (n.sqrt + 1) * (n.sqrt + 1) := Nat.lt_succ_sqrt n
  unfold ceilSqrt
  split
  · rename_i square
    rw [← Nat.mul_self_le_mul_self_iff, square]
  · rename_i other
    constructor
    · intro greater
      exact above.le.trans (Nat.mul_le_mul greater greater)
    · intro below
      by_contra less
      have root : m * m ≤ n.sqrt * n.sqrt := Nat.mul_self_le_mul_self_iff.mpr (by omega)
      omega

theorem lt_ceilSqrt_iff {n m : Nat} : m < ceilSqrt n ↔ m * m < n := by
  rw [← Nat.not_le, ceilSqrt_le_iff, Nat.not_le]

theorem sqrt_mul_self_div (n : Nat) {d : Nat} (positive : 0 < d) : (n * (d * d)).sqrt / d = n.sqrt := by
  apply eq_of_forall_le_iff
  intro k
  have split : k * d * (k * d) = k * k * (d * d) := by ring
  rw [Nat.le_div_iff_mul_le positive, Nat.le_sqrt, split, Nat.le_sqrt]
  exact Nat.mul_le_mul_right_iff (Nat.mul_pos positive positive)

theorem root_bounds (mode : Rounding) {n : Nat} (low : 2 ^ 52 ≤ n) (high : n < 2 ^ 53) :
    2 ^ 52 ≤ mode.root (n * 2 ^ 52) ∧ mode.root (n * 2 ^ 52) < 2 ^ 53 := by
  cases mode with
  | towardZero =>
    constructor
    · exact Nat.le_sqrt.mpr (Nat.mul_le_mul low le_rfl)
    · apply Nat.sqrt_lt.mpr
      omega
  | up =>
    constructor
    · have below : 2 ^ 52 - 1 < ceilSqrt (n * 2 ^ 52) := lt_ceilSqrt_iff.mpr (by omega)
      exact Nat.le_of_pred_lt below
    · have above : ceilSqrt (n * 2 ^ 52) ≤ 2 ^ 53 - 1 := ceilSqrt_le_iff.mpr (by omega)
      exact Nat.lt_of_le_pred (by decide) above

end Roots

section Doubles
variable (mode : Rounding) (x : BitVec 64)

theorem significand_bounds : 2 ^ 52 ≤ 2 ^ 52 + x.toNat % 2 ^ 52 ∧ 2 ^ 52 + x.toNat % 2 ^ 52 < 2 ^ 53 := by
  have fraction : x.toNat % 2 ^ 52 < 2 ^ 52 := Nat.mod_lt _ (by decide)
  omega

theorem sqrtsd_toNat :
    (sqrtsd mode x).toNat = 1022 * 2 ^ 52 + mode.root ((2 ^ 52 + x.toNat % 2 ^ 52) * 2 ^ 52) := by
  obtain ⟨low, high⟩ := significand_bounds x
  have bounds := root_bounds mode low high
  rw [sqrtsd, BitVec.toNat_ofNat]
  apply Nat.mod_eq_of_lt
  omega

theorem binadeValue_eq : binadeValue x = (2 ^ 52 + x.toNat % 2 ^ 52 : ℕ) / 2 ^ 52 := by
  rw [binadeValue, Nat.cast_add, add_div]
  congr 1
  norm_num

theorem binadeValue_sqrtsd :
    binadeValue (sqrtsd mode x) = (mode.root ((2 ^ 52 + x.toNat % 2 ^ 52) * 2 ^ 52) : ℕ) / 2 ^ 52 := by
  obtain ⟨low, high⟩ := significand_bounds x
  have bounds := root_bounds mode low high
  have whole : 2 ^ 52 + (sqrtsd mode x).toNat % 2 ^ 52 =
      mode.root ((2 ^ 52 + x.toNat % 2 ^ 52) * 2 ^ 52) := by
    rw [sqrtsd_toNat]
    omega
  rw [binadeValue_eq, whole]

theorem le_sqrt_binadeValue_iff (r : Nat) :
    (r : ℝ) / 2 ^ 52 ≤ √(binadeValue x) ↔ r * r ≤ (2 ^ 52 + x.toNat % 2 ^ 52) * 2 ^ 52 := by
  rw [binadeValue_eq, Real.le_sqrt (by positivity) (by positivity), div_pow,
    div_le_div_iff₀ (by positivity) (by positivity), ← Nat.cast_le (α := ℝ)]
  push_cast
  constructor
  · intro below
    nlinarith
  · intro below
    nlinarith

theorem sqrt_binadeValue_le_iff (r : Nat) :
    √(binadeValue x) ≤ (r : ℝ) / 2 ^ 52 ↔ (2 ^ 52 + x.toNat % 2 ^ 52) * 2 ^ 52 ≤ r * r := by
  rw [binadeValue_eq, Real.sqrt_le_left (by positivity), div_pow,
    div_le_div_iff₀ (by positivity) (by positivity), ← Nat.cast_le (α := ℝ)]
  push_cast
  constructor
  · intro above
    nlinarith
  · intro above
    nlinarith

theorem sqrtsd_towardZero :
    binadeValue (sqrtsd .towardZero x) ≤ √(binadeValue x) ∧
      √(binadeValue x) < binadeValue (sqrtsd .towardZero x) + 1 / 2 ^ 52 := by
  have next (r : Nat) : (r : ℝ) / 2 ^ 52 + 1 / 2 ^ 52 = (r + 1 : ℕ) / 2 ^ 52 := by
    push_cast
    ring
  rw [binadeValue_sqrtsd, next, ← not_le, le_sqrt_binadeValue_iff, le_sqrt_binadeValue_iff, not_le]
  exact ⟨Nat.sqrt_le _, Nat.lt_succ_sqrt _⟩

theorem sqrtsd_up :
    binadeValue (sqrtsd .up x) - 1 / 2 ^ 52 < √(binadeValue x) ∧ √(binadeValue x) ≤ binadeValue (sqrtsd .up x) := by
  obtain ⟨low, high⟩ := significand_bounds x
  obtain ⟨last, root⟩ := Nat.exists_eq_succ_of_ne_zero
    (Nat.ne_of_gt (Nat.lt_of_lt_of_le (by decide) (root_bounds .up low high).1))
  have before : ((last + 1 : ℕ) : ℝ) / 2 ^ 52 - 1 / 2 ^ 52 = (last : ℝ) / 2 ^ 52 := by
    push_cast
    ring
  have ceil : ceilSqrt ((2 ^ 52 + x.toNat % 2 ^ 52) * 2 ^ 52) = last + 1 := root
  rw [binadeValue_sqrtsd, root, Nat.succ_eq_add_one, before]
  constructor
  · rw [← not_le, sqrt_binadeValue_le_iff, not_le, ← lt_ceilSqrt_iff, ceil]
    exact Nat.lt_succ_self last
  · rw [sqrt_binadeValue_le_iff, ← ceilSqrt_le_iff, ceil]

end Doubles

end Foundation
