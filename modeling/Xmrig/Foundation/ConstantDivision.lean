import Mathlib.Algebra.Order.Ring.Nat
import Mathlib.Data.Nat.Basic
import Mathlib.Data.Nat.Log

/-! Division by a constant through multiplication.

The reciprocal of the divisor is scaled by a power of two above every dividend times the divisor,
and rounded down, with one added to the dividend, or up.
-/

set_option autoImplicit false

namespace Foundation

section Rounding
variable {a d scale : Nat}

theorem quotient_of_bounds {product quotient : Nat} (positive : 0 < d)
    (least : quotient * scale * d ≤ product * d) (most : product * d < (quotient + 1) * scale * d) :
    product / scale = quotient :=
  Nat.div_eq_of_lt_le (Nat.le_of_mul_le_mul_right least positive) (Nat.lt_of_mul_lt_mul_right most)

theorem below_next (a : Nat) (positive : 0 < d) : a + 1 ≤ (a / d + 1) * d := by
  have rest := Nat.mod_lt a positive
  have whole := Nat.div_add_mod' a d
  rw [Nat.add_mul]
  omega

theorem div_rounded_down (positive : 0 < d) (inexact : scale % d ≠ 0) (small : (a + 1) * (scale % d) ≤ scale) :
    (a + 1) * (scale / d) / scale = a / d := by
  have remainder := Nat.mod_lt scale positive
  have scaled : (a + 1) * (scale / d) * d + (a + 1) * (scale % d) = (a + 1) * scale := by
    rw [Nat.mul_assoc, ← Nat.mul_add, Nat.div_add_mod']
  apply quotient_of_bounds positive
  · have floor : a / d * d * scale ≤ a * scale := Nat.mul_le_mul_right _ (Nat.div_mul_le_self a d)
    have split : (a + 1) * scale = a * scale + scale := Nat.succ_mul a scale
    rw [Nat.mul_right_comm]
    omega
  · have next : (a + 1) * scale ≤ (a / d + 1) * d * scale := Nat.mul_le_mul_right _ (below_next a positive)
    have error : 0 < (a + 1) * (scale % d) := Nat.mul_pos (Nat.succ_pos a) (Nat.pos_of_ne_zero inexact)
    rw [Nat.mul_right_comm (a / d + 1)]
    omega

theorem div_rounded_up (positive : 0 < d) (small : a * (d - scale % d) < scale) :
    a * (scale / d + 1) / scale = a / d := by
  have remainder := Nat.mod_lt scale positive
  have rounded : (scale / d + 1) * d = scale + (d - scale % d) := by
    have whole := Nat.div_add_mod' scale d
    rw [Nat.succ_mul]
    omega
  have scaled : a * (scale / d + 1) * d = a * scale + a * (d - scale % d) := by
    rw [Nat.mul_assoc, rounded, Nat.mul_add]
  apply quotient_of_bounds positive
  · have floor : a / d * d * scale ≤ a * scale := Nat.mul_le_mul_right _ (Nat.div_mul_le_self a d)
    rw [Nat.mul_right_comm, scaled]
    omega
  · have next : (a + 1) * scale ≤ (a / d + 1) * d * scale := Nat.mul_le_mul_right _ (below_next a positive)
    have split : (a + 1) * scale = a * scale + scale := Nat.succ_mul a scale
    rw [Nat.mul_right_comm (a / d + 1), scaled]
    omega

end Rounding

/-! Words of `width` bits, and a divisor whose highest bit is the one of `2 ^ top`. -/

section Words
variable {width top a d : Nat}

theorem word_div_rounded_down (word : a < 2 ^ width) (top_le : 2 ^ top ≤ d) (d_lt : d < 2 ^ (top + 1))
    (inexact : 2 ^ (width + top) % d ≠ 0) (low : 2 ^ (width + top) % d * 2 < d) :
    (a + 1) * (2 ^ (width + top) / d) / 2 ^ (width + top) = a / d := by
  have positive : 0 < d := lt_of_lt_of_le (Nat.pow_pos (by decide)) top_le
  apply div_rounded_down positive inexact
  have half : 2 ^ (width + top) % d ≤ 2 ^ top := by
    rw [pow_succ] at d_lt
    omega
  calc (a + 1) * (2 ^ (width + top) % d) ≤ 2 ^ width * 2 ^ top := Nat.mul_le_mul word half
    _ = 2 ^ (width + top) := (pow_add _ _ _).symm

theorem word_div_rounded_up (word : a < 2 ^ width) (top_le : 2 ^ top ≤ d) (d_lt : d < 2 ^ (top + 1))
    (high : d ≤ 2 ^ (width + top) % d * 2) :
    a * (2 ^ (width + top) / d + 1) / 2 ^ (width + top) = a / d := by
  have positive : 0 < d := lt_of_lt_of_le (Nat.pow_pos (by decide)) top_le
  apply div_rounded_up positive
  have half : d - 2 ^ (width + top) % d ≤ 2 ^ top := by
    rw [pow_succ] at d_lt
    omega
  calc a * (d - 2 ^ (width + top) % d) ≤ a * 2 ^ top := Nat.mul_le_mul_left _ half
    _ < 2 ^ width * 2 ^ top := Nat.mul_lt_mul_of_pos_right word (Nat.pow_pos (by decide))
    _ = 2 ^ (width + top) := (pow_add _ _ _).symm

theorem reciprocal_fits (top_lt : 2 ^ top < d) (d_lt : d < 2 ^ (top + 1)) (narrow : top < width) :
    2 ^ (width + top) / d + 1 < 2 ^ width := by
  -- a quotient of `2 ^ width - 1` is too large already for the least divisor
  have wider : 2 * 2 ^ top ≤ 2 ^ width := by
    rw [← pow_succ']
    exact Nat.pow_le_pow_right (by decide) narrow
  have above : 1 < 2 ^ top := by
    rw [pow_succ] at d_lt
    omega
  have product : 2 ^ (width + top) / d * (2 ^ top + 1) ≤ 2 ^ width * 2 ^ top := by
    rw [← pow_add]
    exact (Nat.mul_le_mul_left _ top_lt).trans (Nat.div_mul_le_self _ d)
  generalize 2 ^ (width + top) / d = quotient at product ⊢
  generalize 2 ^ width = word at wider product ⊢
  by_contra large
  have many : (word - 1) * (2 ^ top + 1) ≤ quotient * (2 ^ top + 1) := Nat.mul_le_mul_right _ (by omega)
  have expanded : (word - 1) * (2 ^ top + 1) + (2 ^ top + 1) = word * 2 ^ top + word := by
    rw [← Nat.succ_mul, Nat.mul_succ]
    congr 2 <;> omega
  omega

end Words

end Foundation
