import Xmrig.Foundation.WideMul
import Xmrig.RandomX.Bytecode

/-! Wide products on machines without an instruction for them.

The products of the halves are added with room for the carries, or with the carries as comparisons.
The signed product is corrected from the unsigned one; its subtractions wrap, as the machine's do.
-/

set_option autoImplicit false

namespace Xmrig

open Foundation

namespace RandomX.Portable

def lo (x : BitVec 64) : BitVec 64 := x &&& 0xffffffff

def hi (x : BitVec 64) : BitVec 64 := x >>> 32

def mulh (a b : BitVec 64) : BitVec 64 :=
  let ah := hi a
  let al := lo a
  let bh := hi b
  let bl := lo b
  let x00 := al * bl
  let x01 := al * bh
  let x10 := ah * bl
  let x11 := ah * bh
  let m1 := lo x10 + lo x01 + hi x00
  let m2 := hi x10 + hi x01 + lo x11 + hi m1
  let m3 := hi x11 + hi m2
  (m3 <<< 32) + lo m2

def smulh (a b : BitVec 64) : BitVec 64 :=
  let high := mulh a b
  let high := if a.slt 0 then high - b else high
  if b.slt 0 then high - a else high

end RandomX.Portable

/-- `__umul128` without 128-bit integers: the low word, and the high one that is stored. -/
def umul128 (multiplier multiplicand : BitVec 64) : BitVec 64 × BitVec 64 :=
  let a := multiplier >>> 32
  let b := multiplier &&& 0xFFFFFFFF
  let c := multiplicand >>> 32
  let d := multiplicand &&& 0xFFFFFFFF
  let ad := a * d
  let bd := b * d
  let adbc := ad + (b * c)
  let adbcCarry : BitVec 64 := if adbc < ad then 1 else 0
  let productLo := bd + (adbc <<< 32)
  let productLoCarry : BitVec 64 := if productLo < bd then 1 else 0
  (productLo, (a * c) + (adbc >>> 32) + (adbcCarry <<< 32) + productLoCarry)

/-! ## The halves -/

section Halves
variable {x y : BitVec 64}

theorem toNat_mul_of_lt (left : x.toNat < 2 ^ 32) (right : y.toNat < 2 ^ 32) : (x * y).toNat = x.toNat * y.toNat := by
  rw [BitVec.toNat_mul]
  apply Nat.mod_eq_of_lt
  calc x.toNat * y.toNat ≤ (2 ^ 32 - 1) * (2 ^ 32 - 1) := Nat.mul_le_mul (by omega) (by omega)
    _ < 2 ^ 64 := by decide

theorem toNat_add_carry (x y : BitVec 64) :
    x.toNat + y.toNat = (x + y).toNat + 2 ^ 64 * (if x + y < x then 1 else 0 : BitVec 64).toNat := by
  have left := x.isLt
  have right := y.isLt
  have sum := BitVec.toNat_add x y
  by_cases wraps : x + y < x
  · rw [if_pos wraps]
    rw [BitVec.lt_def] at wraps
    change _ = _ + 2 ^ 64 * 1
    omega
  · rw [if_neg wraps]
    rw [BitVec.lt_def] at wraps
    change _ = _ + 2 ^ 64 * 0
    omega

theorem high_half_lt (x : BitVec 64) : x.toNat / 2 ^ 32 < 2 ^ 32 := by
  have bound := x.isLt
  omega

theorem product_half_le {m n : Nat} (left : m < 2 ^ 32) (right : n < 2 ^ 32) : m * n ≤ 2 ^ 64 - 2 ^ 33 + 1 :=
  Nat.le_trans (Nat.mul_le_mul (Nat.le_pred_of_lt left) (Nat.le_pred_of_lt right)) (by decide)

end Halves

namespace RandomX.Portable

theorem toNat_lo (x : BitVec 64) : (lo x).toNat = x.toNat % 2 ^ 32 := toNat_low32 x

theorem toNat_hi (x : BitVec 64) : (hi x).toNat = x.toNat / 2 ^ 32 := toNat_high32 x

theorem lo_lt (x : BitVec 64) : (lo x).toNat < 2 ^ 32 := by
  rw [toNat_lo]
  exact Nat.mod_lt _ (by decide)

theorem hi_lt (x : BitVec 64) : (hi x).toNat < 2 ^ 32 := by
  rw [toNat_hi]
  exact high_half_lt x

theorem toNat_mulh (a b : BitVec 64) : (mulh a b).toNat = a.toNat * b.toNat / 2 ^ 64 := by
  have bound : a.toNat * b.toNat < 2 ^ 64 * 2 ^ 64 := Nat.mul_lt_mul'' a.isLt b.isLt
  have product := mul_halves a.toNat b.toNat
  have x00 := product_half_le (lo_lt a) (lo_lt b)
  have x01 := product_half_le (lo_lt a) (hi_lt b)
  have x10 := product_half_le (hi_lt a) (lo_lt b)
  have x11 := product_half_le (hi_lt a) (hi_lt b)
  unfold mulh
  simp only [BitVec.toNat_add, BitVec.toNat_shiftLeft, Nat.shiftLeft_eq, toNat_lo, toNat_hi,
    toNat_mul_of_lt (lo_lt _) (lo_lt _), toNat_mul_of_lt (lo_lt _) (hi_lt _), toNat_mul_of_lt (hi_lt _) (lo_lt _),
    toNat_mul_of_lt (hi_lt _) (hi_lt _)] at x00 x01 x10 x11 ⊢
  rw [Nat.mul_add] at product
  generalize a.toNat * b.toNat = whole at *
  generalize a.toNat % 2 ^ 32 * (b.toNat % 2 ^ 32) = p00 at *
  generalize a.toNat % 2 ^ 32 * (b.toNat / 2 ^ 32) = p01 at *
  generalize a.toNat / 2 ^ 32 * (b.toNat % 2 ^ 32) = p10 at *
  generalize a.toNat / 2 ^ 32 * (b.toNat / 2 ^ 32) = p11 at *
  omega

/-- The product the interpreter's `IMULH` takes. -/
theorem mulh_eq : mulh = RandomX.mulh := by
  funext a b
  apply BitVec.eq_of_toNat_eq
  rw [toNat_mulh]
  exact (toNat_mulHigh a b).symm

theorem smulh_eq : smulh = RandomX.smulh := by
  funext a b
  have corrected : RandomX.smulh a b = mulh a b - (if a.msb then b else 0) - (if b.msb then a else 0) := by
    rw [mulh_eq]
    exact mulHighSigned_eq a b
  rw [corrected]
  unfold smulh
  rw [show a.slt 0 = a.msb from BitVec.slt_zero_eq_msb, show b.slt 0 = b.msb from BitVec.slt_zero_eq_msb]
  cases a.msb with
  | false => cases b.msb <;> simp
  | true => cases b.msb <;> simp

/-- The subtraction for a negative `a` leaves the signed range exactly when `b` is negative too and the unsigned
product is below `2 ^ 127`; the subtraction for `b` then wraps back. -/
theorem correction_overflows_iff {a : BitVec 64} (b : BitVec 64) (negative : a.slt 0) :
    (mulh a b).ssubOverflow b ↔ b.slt 0 ∧ a.toNat * b.toNat < 2 ^ 127 := by
  rw [show a.slt 0 = a.msb from BitVec.slt_zero_eq_msb, BitVec.msb_eq_decide, decide_eq_true_iff] at negative
  rw [show b.slt 0 = b.msb from BitVec.slt_zero_eq_msb, BitVec.msb_eq_decide, decide_eq_true_iff]
  have least := Nat.mul_le_mul_right b.toNat negative
  have most := Nat.mul_le_mul_right b.toNat (Nat.le_of_lt a.isLt)
  have high := toNat_mulh a b
  have bound := b.isLt
  unfold BitVec.ssubOverflow
  rw [BitVec.toInt_eq_toNat_cond, BitVec.toInt_eq_toNat_cond, high, Bool.or_eq_true, decide_eq_true_iff,
    decide_eq_true_iff]
  generalize a.toNat * b.toNat = product at *
  split <;> split <;> omega

end RandomX.Portable

/-! ## Both words -/

section Words
variable (a b : BitVec 64)

/-- The carry out of the middle sum is worth `2 ^ 96`, the one out of the low word `2 ^ 64`; the high word itself has
room for what it collects, since the product has 128 bits. -/
theorem toNat_umul128 : (umul128 a b).1.toNat + 2 ^ 64 * (umul128 a b).2.toNat = a.toNat * b.toNat := by
  have whole : a.toNat * b.toNat < 2 ^ 64 * 2 ^ 64 := Nat.mul_lt_mul'' a.isLt b.isLt
  have product := mul_halves a.toNat b.toNat
  have lows : ∀ x : BitVec 64, (x &&& 0xFFFFFFFF).toNat < 2 ^ 32 := RandomX.Portable.lo_lt
  have highs : ∀ x : BitVec 64, (x >>> 32).toNat < 2 ^ 32 := RandomX.Portable.hi_lt
  rw [← toNat_low32 a, ← toNat_low32 b, ← toNat_high32 a, ← toNat_high32 b, ← toNat_mul_of_lt (highs a) (lows b),
    ← toNat_mul_of_lt (lows a) (highs b), ← toNat_mul_of_lt (lows a) (lows b),
    ← toNat_mul_of_lt (highs a) (highs b)] at product
  unfold umul128
  dsimp only
  generalize (a >>> 32) * (b &&& 0xFFFFFFFF) = ad at *
  generalize (a &&& 0xFFFFFFFF) * (b >>> 32) = bc at *
  generalize (a &&& 0xFFFFFFFF) * (b &&& 0xFFFFFFFF) = bd at *
  generalize (a >>> 32) * (b >>> 32) = ac at *
  have cross := toNat_add_carry ad bc
  have last := toNat_add_carry bd ((ad + bc) <<< 32)
  have carry : (if ad + bc < ad then 1 else 0 : BitVec 64).toNat ≤ 1 := by split <;> decide
  generalize (if ad + bc < ad then 1 else 0 : BitVec 64) = adbcCarry at *
  generalize (if bd + (ad + bc) <<< 32 < bd then 1 else 0 : BitVec 64) = productLoCarry at *
  generalize bd + (ad + bc) <<< 32 = productLo at *
  simp only [BitVec.toNat_add ac, BitVec.toNat_add (ac + _), BitVec.toNat_add (ac + _ + _), BitVec.toNat_shiftLeft,
    BitVec.toNat_ushiftRight, Nat.shiftLeft_eq, Nat.shiftRight_eq_div_pow] at last ⊢
  generalize a.toNat * b.toNat = total at *
  omega

theorem umul128_append :
    (umul128 a b).2 ++ (umul128 a b).1 = a.setWidth 128 * b.setWidth 128 := by
  have whole : a.toNat * b.toNat < 2 ^ 64 * 2 ^ 64 := Nat.mul_lt_mul'' a.isLt b.isLt
  have left := a.isLt
  have right := b.isLt
  apply BitVec.eq_of_toNat_eq
  rw [BitVec.toNat_append, ← Nat.shiftLeft_add_eq_or_of_lt (umul128 a b).1.isLt, Nat.shiftLeft_eq, BitVec.toNat_mul,
    BitVec.toNat_setWidth, BitVec.toNat_setWidth, Nat.mod_eq_of_lt (show a.toNat < 2 ^ 128 by omega),
    Nat.mod_eq_of_lt (show b.toNat < 2 ^ 128 by omega), ← toNat_umul128] at *
  omega

end Words

namespace RandomX.Portable

/-- All three products are exact for every pair of words. -/
theorem products_exact (a b : BitVec 64) :
    mulh a b = ((a.setWidth 128 * b.setWidth 128) >>> 64).setWidth 64 ∧
      smulh a b = ((a.signExtend 128 * b.signExtend 128) >>> 64).setWidth 64 ∧
      (umul128 a b).2 ++ (umul128 a b).1 = a.setWidth 128 * b.setWidth 128 :=
  ⟨congrFun₂ mulh_eq a b, congrFun₂ smulh_eq a b, umul128_append a b⟩

end RandomX.Portable

end Xmrig
