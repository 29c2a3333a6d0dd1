import Mathlib.Algebra.Order.Ring.Nat
import Mathlib.Tactic.Ring

/-! Products of 64-bit words from 32-bit partial products.

The low word, the high word of the unsigned product with the carry out of the
middle sum, and the high word of the signed product as the unsigned one with
two corrections.
-/

set_option autoImplicit false

namespace Foundation

def mulLow32 (x y : BitVec 64) : BitVec 64 := (x &&& 0xFFFFFFFF) * (y &&& 0xFFFFFFFF)

def mulHigh (x y : BitVec 64) : BitVec 64 :=
  ((x.setWidth 128 * y.setWidth 128) >>> 64).setWidth 64

def mulHighSigned (x y : BitVec 64) : BitVec 64 :=
  ((x.signExtend 128 * y.signExtend 128) >>> 64).setWidth 64

section Halves

theorem toNat_low32 (x : BitVec 64) : (x &&& 0xFFFFFFFF).toNat = x.toNat % 2 ^ 32 := by
  rw [BitVec.toNat_and]
  exact Nat.and_two_pow_sub_one_eq_mod x.toNat 32

theorem toNat_high32 (x : BitVec 64) : (x >>> 32).toNat = x.toNat / 2 ^ 32 := by
  rw [BitVec.toNat_ushiftRight, Nat.shiftRight_eq_div_pow]

theorem toNat_mulLow32 (x y : BitVec 64) :
    (mulLow32 x y).toNat = x.toNat % 2 ^ 32 * (y.toNat % 2 ^ 32) := by
  unfold mulLow32
  rw [BitVec.toNat_mul, toNat_low32, toNat_low32]
  apply Nat.mod_eq_of_lt
  have left := Nat.mod_lt x.toNat (show 0 < 2 ^ 32 by decide)
  have right := Nat.mod_lt y.toNat (show 0 < 2 ^ 32 by decide)
  calc x.toNat % 2 ^ 32 * (y.toNat % 2 ^ 32)
      ≤ (2 ^ 32 - 1) * (2 ^ 32 - 1) := Nat.mul_le_mul (by omega) (by omega)
    _ < 2 ^ 64 := by decide

theorem toNat_high32_mod (x : BitVec 64) : (x >>> 32).toNat % 2 ^ 32 = x.toNat / 2 ^ 32 := by
  rw [toNat_high32]
  omega

/-- Long multiplication in base `2 ^ 32`. -/
theorem mul_halves (a b : Nat) :
    a * b = a % 2 ^ 32 * (b % 2 ^ 32) +
      2 ^ 32 * (a / 2 ^ 32 * (b % 2 ^ 32) + a % 2 ^ 32 * (b / 2 ^ 32)) +
      2 ^ 64 * (a / 2 ^ 32 * (b / 2 ^ 32)) := by
  conv_lhs => rw [← Nat.div_add_mod a (2 ^ 32), ← Nat.div_add_mod b (2 ^ 32)]
  ring

end Halves

theorem mul_eq_mulLow32 (x y : BitVec 64) :
    x * y = mulLow32 x y + mulLow32 (y >>> 32) x <<< 32 + mulLow32 (x >>> 32) y <<< 32 := by
  apply BitVec.eq_of_toNat_eq
  simp only [BitVec.toNat_mul, BitVec.toNat_add, BitVec.toNat_shiftLeft, toNat_mulLow32,
    toNat_high32_mod, Nat.shiftLeft_eq, Nat.add_mod_mod, Nat.mod_add_mod]
  rw [mul_halves x.toNat y.toNat, Nat.add_mul_mod_self_left]
  congr 1
  ring

def middle (x y : BitVec 64) : BitVec 64 :=
  mulLow32 (x >>> 32) y + mulLow32 x (y >>> 32) + mulLow32 x y >>> 32

def middleCarry (x y : BitVec 64) : Bool := (middle x y).ult (mulLow32 (x >>> 32) y)

section High
variable (x y : BitVec 64)

/-- The exact value of the middle sum, which may exceed one word. -/
def middleNat : Nat :=
  x.toNat / 2 ^ 32 * (y.toNat % 2 ^ 32) + x.toNat % 2 ^ 32 * (y.toNat / 2 ^ 32) +
    x.toNat % 2 ^ 32 * (y.toNat % 2 ^ 32) / 2 ^ 32

theorem toNat_middle : (middle x y).toNat = middleNat x y % 2 ^ 64 := by
  unfold middle middleNat
  simp only [BitVec.toNat_add, toNat_mulLow32, toNat_high32, Nat.mod_add_mod]
  rw [Nat.mod_eq_of_lt (show x.toNat / 2 ^ 32 < 2 ^ 32 by omega),
    Nat.mod_eq_of_lt (show y.toNat / 2 ^ 32 < 2 ^ 32 by omega)]

/-- All but the first summand stay below one word, so the sum is smaller than the first
summand exactly when it has overflowed. -/
theorem middleCarry_toNat : (middleCarry x y).toNat = middleNat x y / 2 ^ 64 := by
  have first : (mulLow32 (x >>> 32) y).toNat = x.toNat / 2 ^ 32 * (y.toNat % 2 ^ 32) := by
    rw [toNat_mulLow32, toNat_high32_mod]
  have fits := (mulLow32 (x >>> 32) y).isLt
  have low := Nat.mod_lt x.toNat (show 0 < 2 ^ 32 by decide)
  have rest : x.toNat % 2 ^ 32 * (y.toNat / 2 ^ 32) +
      x.toNat % 2 ^ 32 * (y.toNat % 2 ^ 32) / 2 ^ 32 < 2 ^ 64 := by
    have cross : x.toNat % 2 ^ 32 * (y.toNat / 2 ^ 32) ≤ (2 ^ 32 - 1) * (2 ^ 32 - 1) :=
      Nat.mul_le_mul (by omega) (by have := y.isLt; omega)
    have small : x.toNat % 2 ^ 32 * (y.toNat % 2 ^ 32) ≤ (2 ^ 32 - 1) * (2 ^ 32 - 1) :=
      Nat.mul_le_mul (by omega) (by omega)
    omega
  unfold middleCarry
  rw [BitVec.ult, toNat_middle, first]
  unfold middleNat
  rw [first] at fits
  generalize x.toNat / 2 ^ 32 * (y.toNat % 2 ^ 32) = p at *
  generalize x.toNat % 2 ^ 32 * (y.toNat / 2 ^ 32) = q at *
  generalize x.toNat % 2 ^ 32 * (y.toNat % 2 ^ 32) / 2 ^ 32 = l at *
  by_cases wraps : 2 ^ 64 ≤ p + q + l
  · rw [decide_eq_true (by omega)]
    simp only [Bool.toNat_true]
    omega
  · rw [decide_eq_false (by omega)]
    simp only [Bool.toNat_false]
    omega

theorem toNat_mulHigh : (mulHigh x y).toNat = x.toNat * y.toNat / 2 ^ 64 := by
  have bound : x.toNat * y.toNat < 2 ^ 64 * 2 ^ 64 := Nat.mul_lt_mul'' x.isLt y.isLt
  unfold mulHigh
  rw [BitVec.toNat_setWidth, BitVec.toNat_ushiftRight, BitVec.toNat_mul, BitVec.toNat_setWidth,
    BitVec.toNat_setWidth, Nat.mod_eq_of_lt (show x.toNat < 2 ^ 128 by omega),
    Nat.mod_eq_of_lt (show y.toNat < 2 ^ 128 by omega), Nat.shiftRight_eq_div_pow,
    Nat.mod_eq_of_lt (by omega), Nat.mod_eq_of_lt (by omega)]

theorem mulHigh_eq :
    mulHigh x y = middle x y >>> 32 +
      ((if middleCarry x y then (0x100000000 : BitVec 64) else 0) + mulLow32 (x >>> 32) (y >>> 32)) := by
  apply BitVec.eq_of_toNat_eq
  have carried : (if middleCarry x y then (0x100000000 : BitVec 64) else 0).toNat =
      2 ^ 32 * (middleNat x y / 2 ^ 64) := by
    rw [← middleCarry_toNat]
    cases middleCarry x y <;> rfl
  have total : x.toNat * y.toNat / 2 ^ 64 =
      x.toNat / 2 ^ 32 * (y.toNat / 2 ^ 32) + middleNat x y / 2 ^ 32 := by
    unfold middleNat
    rw [mul_halves x.toNat y.toNat]
    generalize x.toNat / 2 ^ 32 * (y.toNat % 2 ^ 32) = p
    generalize x.toNat % 2 ^ 32 * (y.toNat / 2 ^ 32) = q
    generalize x.toNat % 2 ^ 32 * (y.toNat % 2 ^ 32) = l
    omega
  have bound := (mulHigh x y).isLt
  rw [toNat_mulHigh, total] at bound
  rw [toNat_mulHigh, total, BitVec.toNat_add, BitVec.toNat_add, carried, toNat_high32, toNat_middle,
    toNat_mulLow32, toNat_high32_mod, toNat_high32_mod]
  omega

/-- A sign extended word is the word, less `2 ^ 64` when it is negative. -/
theorem toNat_signExtend_128 :
    (x.signExtend 128).toNat = x.toNat + x.msb.toNat * (2 ^ 128 - 2 ^ 64) := by
  rw [BitVec.toNat_signExtend, BitVec.toNat_setWidth,
    Nat.mod_eq_of_lt (show x.toNat < 2 ^ 128 by have := x.isLt; omega)]
  cases x.msb <;> simp

/-- The signed product differs from the unsigned one by a multiple of `2 ^ 64`. -/
theorem toNat_mulHighSigned :
    (mulHighSigned x y).toNat = (x.toNat * y.toNat / 2 ^ 64 +
      (2 ^ 64 - 1) * (x.msb.toNat * y.toNat + y.msb.toNat * x.toNat)) % 2 ^ 64 := by
  have product : (x.toNat + x.msb.toNat * (2 ^ 128 - 2 ^ 64)) *
      (y.toNat + y.msb.toNat * (2 ^ 128 - 2 ^ 64)) =
      x.toNat * y.toNat +
        2 ^ 64 * ((2 ^ 64 - 1) * (x.msb.toNat * y.toNat + y.msb.toNat * x.toNat)) +
        2 ^ 128 * (x.msb.toNat * y.msb.toNat * (2 ^ 64 - 1) * (2 ^ 64 - 1)) := by
    norm_num
    ring
  unfold mulHighSigned
  rw [BitVec.toNat_setWidth, BitVec.toNat_ushiftRight, BitVec.toNat_mul, toNat_signExtend_128,
    toNat_signExtend_128, product, Nat.add_mul_mod_self_left, Nat.shiftRight_eq_div_pow]
  generalize (2 ^ 64 - 1) * (x.msb.toNat * y.toNat + y.msb.toNat * x.toNat) = k
  generalize x.toNat * y.toNat = p
  omega

/-- The high word of the signed product: the unsigned one, less each factor whose partner is
negative. -/
theorem mulHighSigned_eq :
    mulHighSigned x y = mulHigh x y - (if x.msb then y else 0) - (if y.msb then x else 0) := by
  apply BitVec.eq_of_toNat_eq
  rw [toNat_mulHighSigned, BitVec.toNat_sub, BitVec.toNat_sub, toNat_mulHigh]
  have := x.isLt
  have := y.isLt
  generalize x.toNat * y.toNat / 2 ^ 64 = p
  cases x.msb <;> cases y.msb <;> simp <;> omega

end High

section Comparison

theorem add_sign_of_msb {x : BitVec 64} (positive : x.msb = false) :
    x + BitVec.twoPow 64 63 = x ^^^ BitVec.twoPow 64 63 := by
  have bit : x.getLsbD 63 = false := by simpa [BitVec.msb_eq_getLsbD_last] using positive
  rw [BitVec.add_eq_or_of_and_eq_zero]
  · apply BitVec.eq_of_getLsbD_eq
    intro i _
    rw [BitVec.getLsbD_or, BitVec.getLsbD_xor, BitVec.getLsbD_twoPow]
    by_cases last : i = 63
    · rw [last, bit]
      rfl
    · simp [Ne.symm last]
  · rw [BitVec.and_twoPow, bit]
    rfl

theorem xor_sign (x : BitVec 64) : x ^^^ BitVec.twoPow 64 63 = x + BitVec.twoPow 64 63 := by
  cases sign : x.msb with
  | false => exact (add_sign_of_msb sign).symm
  | true =>
    have flipped : (x ^^^ BitVec.twoPow 64 63).msb = false := by simp [BitVec.msb_xor, sign]
    have back := add_sign_of_msb flipped
    rw [BitVec.xor_assoc, BitVec.xor_self, BitVec.xor_zero] at back
    conv_rhs => rw [← back]
    rw [BitVec.add_assoc, show BitVec.twoPow 64 63 + BitVec.twoPow 64 63 = 0#64 from rfl,
      BitVec.add_zero]

theorem slt_xor_sign (x y : BitVec 64) :
    (x ^^^ 0x8000000000000000#64).slt (y ^^^ 0x8000000000000000#64) = x.ult y := by
  have flipped : ∀ z : BitVec 64, (z ^^^ 0x8000000000000000#64).toInt = z.toNat - 2 ^ 63 := by
    intro z
    rw [show 0x8000000000000000#64 = BitVec.twoPow 64 63 from rfl, xor_sign,
      BitVec.toInt_eq_toNat_cond, BitVec.toNat_add,
      show (BitVec.twoPow 64 63).toNat = 2 ^ 63 from rfl]
    have := z.isLt
    split <;> omega
  rw [BitVec.slt, flipped, flipped, BitVec.ult]
  simp

end Comparison

end Foundation
