import Mathlib.Algebra.Order.Floor.Ring
import Mathlib.Data.Int.Log
import Mathlib.Data.Rat.Floor
import Mathlib.Tactic.Ring

/-! Numbers with 53 binary digits, rounded to the nearest.

A number is scaled to an integer of 53 digits, rounded there and scaled back. The exponent has no
limits here; that a number is in the range of normal ones is a predicate.
-/

set_option autoImplicit false

namespace Foundation.Binary64

def roundEven (x : ℚ) : ℤ :=
  if x - ⌊x⌋ < 1 / 2 then ⌊x⌋
  else if 1 / 2 < x - ⌊x⌋ then ⌊x⌋ + 1
  else if ⌊x⌋ % 2 = 0 then ⌊x⌋
  else ⌊x⌋ + 1

def lastPlace (x : ℚ) : ℤ := Int.log 2 |x| - 52

def round (x : ℚ) : ℚ := roundEven (x / 2 ^ lastPlace x) * 2 ^ lastPlace x

def IsNormal (x : ℚ) : Prop := (2 : ℚ) ^ (-1022 : ℤ) ≤ |x| ∧ |x| < 2 ^ (1024 : ℤ)

instance (x : ℚ) : Decidable (IsNormal x) := inferInstanceAs (Decidable (_ ∧ _))

section Bounds
variable {x : ℚ}

theorem le_roundEven {low : ℤ} (le : (low : ℚ) ≤ x) : low ≤ roundEven x := by
  have floor := Int.le_floor.mpr le
  unfold roundEven
  split_ifs <;> omega

theorem roundEven_le {high : ℤ} (le : x ≤ high) : roundEven x ≤ high := by
  have floor : ⌊x⌋ ≤ high := by
    exact_mod_cast (Int.floor_le x).trans le
  by_cases whole : x = ⌊x⌋
  · have gap : x - ⌊x⌋ < 1 / 2 := by
      rw [← whole, sub_self]
      norm_num
    rw [roundEven, if_pos gap]
    exact floor
  · have above : (⌊x⌋ : ℚ) < x := lt_of_le_of_ne (Int.floor_le x) fun same => whole same.symm
    have more : ⌊x⌋ < high := by exact_mod_cast above.trans_le le
    unfold roundEven
    split_ifs <;> omega

theorem roundEven_intCast (n : ℤ) : roundEven n = n :=
  le_antisymm (roundEven_le le_rfl) (le_roundEven le_rfl)

theorem scaled_bounds (positive : 0 < x) :
    (((2 ^ 52 : ℤ) : ℤ) : ℚ) ≤ x / 2 ^ lastPlace x ∧ x / 2 ^ lastPlace x < ((2 ^ 53 : ℤ) : ℚ) := by
  have place : (0 : ℚ) < 2 ^ lastPlace x := zpow_pos two_pos _
  have magnitude : lastPlace x = Int.log 2 x - 52 := by rw [lastPlace, abs_of_pos positive]
  have unit (digits : ℤ) : (2 : ℚ) ^ digits * 2 ^ lastPlace x = 2 ^ (digits + lastPlace x) :=
    (zpow_add₀ two_ne_zero _ _).symm
  constructor
  · rw [le_div_iff₀ place]
    calc (((2 ^ 52 : ℤ) : ℤ) : ℚ) * 2 ^ lastPlace x = 2 ^ (52 : ℤ) * 2 ^ lastPlace x := by norm_num
      _ = 2 ^ Int.log 2 x := by rw [unit, magnitude, add_sub_cancel]
      _ ≤ x := Int.zpow_log_le_self one_lt_two positive
  · rw [div_lt_iff₀ place]
    calc x < 2 ^ (Int.log 2 x + 1) := Int.lt_zpow_succ_log_self one_lt_two x
      _ = 2 ^ (53 : ℤ) * 2 ^ lastPlace x := by
        rw [unit, magnitude]
        congr 1
        ring
      _ = ((2 ^ 53 : ℤ) : ℚ) * 2 ^ lastPlace x := by norm_num

theorem round_zpow (n : ℤ) : round ((2 : ℚ) ^ n) = 2 ^ n := by
  have positive : (0 : ℚ) < 2 ^ n := zpow_pos two_pos n
  have place : lastPlace ((2 : ℚ) ^ n) = n - 52 := by
    rw [lastPlace, abs_of_pos positive]
    exact congrArg (· - 52) (Int.log_zpow one_lt_two n)
  have scaled : (2 : ℚ) ^ n / 2 ^ (n - 52) = ((2 ^ 52 : ℤ) : ℚ) := by
    rw [← zpow_sub₀ two_ne_zero, sub_sub_cancel]
    norm_num
  rw [round, place, scaled, roundEven_intCast, ← scaled]
  exact div_mul_cancel₀ _ (zpow_pos two_pos _).ne'

theorem round_bounds (positive : 0 < x) {low high : ℤ} (lower : (2 : ℚ) ^ low ≤ x) (upper : x ≤ (2 : ℚ) ^ high) :
    (2 : ℚ) ^ low ≤ round x ∧ round x ≤ (2 : ℚ) ^ high := by
  have place : (0 : ℚ) < 2 ^ lastPlace x := zpow_pos two_pos _
  have magnitude : lastPlace x = Int.log 2 x - 52 := by rw [lastPlace, abs_of_pos positive]
  obtain ⟨least, most⟩ := scaled_bounds positive
  constructor
  · have exponent : low ≤ Int.log 2 x := (Int.zpow_le_iff_le_log one_lt_two positive).mp lower
    calc (2 : ℚ) ^ low ≤ 2 ^ Int.log 2 x := zpow_le_zpow_right₀ one_le_two exponent
      _ = 2 ^ (52 : ℤ) * 2 ^ lastPlace x := by rw [← zpow_add₀ two_ne_zero, magnitude, add_sub_cancel]
      _ = ((2 ^ 52 : ℤ) : ℚ) * 2 ^ lastPlace x := by norm_num
      _ ≤ round x := mul_le_mul_of_nonneg_right (by exact_mod_cast le_roundEven least) place.le
  · rcases upper.eq_or_lt with same | below
    · rw [same, round_zpow]
    · have exponent : Int.log 2 x + 1 ≤ high := (Int.lt_zpow_iff_log_lt one_lt_two positive).mp below
      calc round x ≤ ((2 ^ 53 : ℤ) : ℚ) * 2 ^ lastPlace x :=
            mul_le_mul_of_nonneg_right (by exact_mod_cast roundEven_le most.le) place.le
        _ = 2 ^ (53 : ℤ) * 2 ^ lastPlace x := by norm_num
        _ = 2 ^ (Int.log 2 x + 1) := by
          rw [← zpow_add₀ two_ne_zero, magnitude]
          congr 1
          ring
        _ ≤ 2 ^ high := zpow_le_zpow_right₀ one_le_two exponent

end Bounds

end Foundation.Binary64
