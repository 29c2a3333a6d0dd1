import Xmrig.Foundation.SquareRoot

/-! The integer square root of the CryptoNight v2 family.

The root is estimated from the upper 52 bits of the input and corrected by one
comparison of 64-bit words. Without the wrap-around the comparison is exact, and the
product it is made with lies between 2^64 and 2^65 up to the last inputs.
-/

set_option autoImplicit false

namespace Xmrig.Cryptonight

open Foundation

def doubleOne : BitVec 64 := 1023#64 <<< 52

/-- The root rounded toward zero, as `VARIANT2_SET_ROUNDING_MODE` has it. -/
def intSqrtV2 (n0 : BitVec 64) : BitVec 64 :=
  let x := (n0 >>> 12) + doubleOne
  let r := sqrtsd .towardZero x
  let s := r >>> 20
  let r := r >>> 19
  let x2 := (s - (1022#64 <<< 32)) * (r - s - (1022#64 <<< 32) + 1#64)
  if x2 < n0 then r + 1#64 else r

def corrected (root n0 : BitVec 64) : BitVec 64 :=
  if ((root >>> 20) - (1022#64 <<< 32)) * ((root >>> 19) - (root >>> 20) - (1022#64 <<< 32) + 1#64) < n0
  then (root >>> 19) + 1#64 else root >>> 19

theorem intSqrtV2_eq (n0 : BitVec 64) :
    intSqrtV2 n0 = corrected (sqrtsd .towardZero ((n0 >>> 12) + doubleOne)) n0 := rfl

/-! ## The integers -/

/-- The product that is compared, for an estimate of the doubled root. -/
def product (estimate : Nat) : Nat := estimate / 2 * (estimate - estimate / 2 + 1)

/-- The input with 2^64 added and the bits cleared that the double does not hold. -/
def coarse (n0 : BitVec 64) : Nat := 2 ^ 64 + n0.toNat / 2 ^ 12 * 2 ^ 12

def doubledRoot (n0 : BitVec 64) : Nat := (4 * (2 ^ 64 + n0.toNat)).sqrt

/-- No input has a greater estimate, and this one wraps around twice. -/
def lastEstimate : Nat := 12148001999

def firstWrong : Nat := 18446744068217450496

theorem floor_doubledRoot (n0 : BitVec 64) :
    ⌊2 * √(2 ^ 64 + n0.toNat : ℝ)⌋₊ = doubledRoot n0 := by
  have four : √(4 : ℝ) = 2 := by
    rw [show (4 : ℝ) = 2 * 2 by norm_num]
    exact Real.sqrt_mul_self (by norm_num)
  have inside : 2 * √(2 ^ 64 + n0.toNat : ℝ) = √((4 * (2 ^ 64 + n0.toNat) : ℕ) : ℝ) := by
    rw [Nat.cast_mul, Real.sqrt_mul (by positivity), Nat.cast_ofNat, four, Nat.cast_add, Nat.cast_pow,
      Nat.cast_ofNat]
  rw [inside]
  exact Real.nat_floor_real_sqrt_eq_nat_sqrt

theorem product_lt_iff (estimate bound : Nat) :
    product estimate < bound ↔ (estimate + 1) * (estimate + 1) ≤ 4 * bound := by
  unfold product
  obtain ⟨half, even | odd⟩ := Nat.even_or_odd' estimate
  · have low : 2 * half / 2 = half := by omega
    have high : 2 * half - half + 1 = half + 1 := by omega
    have square : (2 * half + 1) * (2 * half + 1) = 4 * (half * (half + 1)) + 1 := by ring
    rw [even, low, high, square]
    omega
  · have low : (2 * half + 1) / 2 = half := by omega
    have high : 2 * half + 1 - half + 1 = half + 2 := by omega
    have square : (2 * half + 1 + 1) * (2 * half + 1 + 1) = 4 * (half * (half + 2)) + 4 := by ring
    rw [odd, low, high, square]
    omega

theorem product_mono {first second : Nat} (le : first ≤ second) : product first ≤ product second := by
  unfold product
  exact Nat.mul_le_mul (by omega) (by omega)

/-! ## The words -/

theorem corrected_toNat {root : BitVec 64} {R : Nat} (n0 : BitVec 64)
    (bits : root.toNat = 1022 * 2 ^ 52 + R) (small : R < 2 ^ 53) :
    (corrected root n0).toNat = 1022 * 2 ^ 33 + R / 2 ^ 19 +
      if product (R / 2 ^ 19) % 2 ^ 64 < n0.toNat then 1 else 0 := by
  have s : root >>> 20 = BitVec.ofNat 64 (R / 2 ^ 19 / 2) + 1022#64 <<< 32 := by
    apply BitVec.eq_of_toNat_eq
    rw [BitVec.toNat_ushiftRight, BitVec.toNat_add, BitVec.toNat_ofNat, bits, Nat.shiftRight_eq_div_pow,
      show (1022#64 <<< 32).toNat = 1022 * 2 ^ 32 by decide]
    omega
  have r : root >>> 19 =
      BitVec.ofNat 64 (R / 2 ^ 19 - R / 2 ^ 19 / 2) + 1022#64 <<< 32 + (root >>> 20) := by
    apply BitVec.eq_of_toNat_eq
    rw [BitVec.toNat_ushiftRight, BitVec.toNat_add, BitVec.toNat_add, BitVec.toNat_ofNat,
      BitVec.toNat_ushiftRight, bits, Nat.shiftRight_eq_div_pow, Nat.shiftRight_eq_div_pow,
      show (1022#64 <<< 32).toNat = 1022 * 2 ^ 32 by decide]
    omega
  have x2 : ((root >>> 20) - (1022#64 <<< 32)) * ((root >>> 19) - (root >>> 20) - (1022#64 <<< 32) + 1#64) =
      BitVec.ofNat 64 (product (R / 2 ^ 19)) := by
    rw [r, BitVec.add_sub_cancel, BitVec.add_sub_cancel, s, BitVec.add_sub_cancel, product, BitVec.ofNat_mul,
      BitVec.ofNat_add]
  have whole : (root >>> 19).toNat = 1022 * 2 ^ 33 + R / 2 ^ 19 := by
    rw [BitVec.toNat_ushiftRight, bits, Nat.shiftRight_eq_div_pow]
    omega
  have test : BitVec.ofNat 64 (product (R / 2 ^ 19)) < n0 ↔ product (R / 2 ^ 19) % 2 ^ 64 < n0.toNat := by
    rw [BitVec.lt_def, BitVec.toNat_ofNat]
  unfold corrected
  rw [x2]
  by_cases less : BitVec.ofNat 64 (product (R / 2 ^ 19)) < n0
  · rw [if_pos less, if_pos (test.mp less), BitVec.toNat_add, whole, show (1#64).toNat = 1 from rfl]
    omega
  · rw [if_neg less, if_neg (fun other => less (test.mpr other)), whole, Nat.add_zero]

/-- The root that the word before the fixed point stands for. -/
def InRange (estimate : Nat) : Prop := 2 ^ 33 ≤ estimate ∧ estimate < lastEstimate

theorem product_lt {estimate : Nat} (range : InRange estimate) :
    2 ^ 64 ≤ product estimate ∧ product estimate < 2 ^ 65 := by
  have low : product (2 ^ 33) ≤ product estimate := product_mono range.1
  have high : product estimate ≤ product (lastEstimate - 1) := product_mono (Nat.le_pred_of_lt range.2)
  have first : 2 ^ 64 ≤ product (2 ^ 33) := by decide
  have last : product (lastEstimate - 1) < 2 ^ 65 := by decide
  omega

theorem corrected_exact {root : BitVec 64} {R : Nat} {n0 : BitVec 64}
    (bits : root.toNat = 1022 * 2 ^ 52 + R) (range : InRange (R / 2 ^ 19))
    (below : R / 2 ^ 19 ≤ doubledRoot n0) (close : doubledRoot n0 ≤ R / 2 ^ 19 + 1) :
    (corrected root n0).toNat = 1022 * 2 ^ 33 + doubledRoot n0 := by
  obtain ⟨low, high⟩ := product_lt range
  have small : R < 2 ^ 53 := by
    have last := range.2
    unfold lastEstimate at last
    omega
  have above : product (R / 2 ^ 19) < 2 ^ 64 + n0.toNat ↔ R / 2 ^ 19 + 1 ≤ doubledRoot n0 := by
    rw [product_lt_iff, doubledRoot, Nat.le_sqrt]
  have wrapped : product (R / 2 ^ 19) % 2 ^ 64 < n0.toNat ↔ product (R / 2 ^ 19) < 2 ^ 64 + n0.toNat := by
    omega
  rw [corrected_toNat n0 bits small, Nat.add_assoc]
  by_cases more : product (R / 2 ^ 19) < 2 ^ 64 + n0.toNat
  · rw [if_pos (wrapped.mpr more)]
    have := above.mp more
    omega
  · rw [if_neg (mt wrapped.mp more)]
    have := mt above.mpr more
    omega

/-! ## The estimate -/

theorem coarse_bounds (n0 : BitVec 64) :
    2 ^ 64 ≤ coarse n0 ∧ coarse n0 ≤ 2 ^ 64 + n0.toNat ∧ 2 ^ 64 + n0.toNat < coarse n0 + 2 ^ 12 ∧
      coarse n0 ≤ 2 ^ 65 - 2 ^ 12 := by
  have bound := n0.isLt
  unfold coarse
  omega

theorem significand_eq (n0 : BitVec 64) :
    (2 ^ 52 + ((n0 >>> 12) + doubleOne).toNat % 2 ^ 52) * 2 ^ 52 = 4 * coarse n0 * (2 ^ 19 * 2 ^ 19) := by
  have bound := n0.isLt
  rw [BitVec.toNat_add, BitVec.toNat_ushiftRight, Nat.shiftRight_eq_div_pow,
    show doubleOne.toNat = 1023 * 2 ^ 52 by decide, coarse]
  omega

def estimate (n0 : BitVec 64) : Nat := (4 * coarse n0).sqrt

theorem estimate_bounds (n0 : BitVec 64) :
    2 ^ 33 ≤ estimate n0 ∧ estimate n0 ≤ lastEstimate ∧ estimate n0 ≤ doubledRoot n0 ∧
      doubledRoot n0 ≤ estimate n0 + 1 := by
  obtain ⟨low, down, up, high⟩ := coarse_bounds n0
  have start : 2 ^ 33 ≤ estimate n0 := Nat.le_sqrt.mpr (by omega)
  have stop : estimate n0 < lastEstimate + 1 := Nat.sqrt_lt.mpr (by unfold lastEstimate; omega)
  have less : 4 * coarse n0 < (estimate n0 + 1) * (estimate n0 + 1) := Nat.lt_succ_sqrt _
  have square : (estimate n0 + 2) * (estimate n0 + 2) =
      (estimate n0 + 1) * (estimate n0 + 1) + 2 * estimate n0 + 3 := by ring
  have close : doubledRoot n0 < estimate n0 + 2 := Nat.sqrt_lt.mpr (by omega)
  exact ⟨start, Nat.le_of_lt_succ stop, Nat.sqrt_le_sqrt (by omega), Nat.le_of_lt_succ close⟩

theorem estimate_eq_last_iff (n0 : BitVec 64) : estimate n0 = lastEstimate ↔ firstWrong ≤ n0.toNat := by
  have upper := (estimate_bounds n0).2.1
  have reached : lastEstimate ≤ estimate n0 ↔ firstWrong ≤ n0.toNat := by
    rw [estimate, Nat.le_sqrt, coarse, lastEstimate, firstWrong]
    omega
  omega

/-! ## The result -/

theorem intSqrtV2_bits (n0 : BitVec 64) : (sqrtsd .towardZero ((n0 >>> 12) + doubleOne)).toNat =
    1022 * 2 ^ 52 + (4 * coarse n0 * (2 ^ 19 * 2 ^ 19)).sqrt := by
  rw [sqrtsd_toNat, significand_eq]
  rfl

theorem intSqrtV2_exact {n0 : BitVec 64} (early : n0.toNat < firstWrong) :
    (intSqrtV2 n0).toNat = 1022 * 2 ^ 33 + doubledRoot n0 := by
  obtain ⟨start, stop, below, close⟩ := estimate_bounds n0
  have before : estimate n0 ≠ lastEstimate := fun last =>
    absurd ((estimate_eq_last_iff n0).mp last) (Nat.not_le.mpr early)
  have same : (4 * coarse n0 * (2 ^ 19 * 2 ^ 19)).sqrt / 2 ^ 19 = estimate n0 :=
    sqrt_mul_self_div _ (by decide)
  rw [intSqrtV2_eq]
  apply corrected_exact (intSqrtV2_bits n0)
  · rw [same]
    exact ⟨start, Nat.lt_of_le_of_ne stop before⟩
  · rw [same]
    exact below
  · rw [same]
    exact close

theorem intSqrtV2_last {n0 : BitVec 64} (late : firstWrong ≤ n0.toNat) :
    (intSqrtV2 n0).toNat = 1022 * 2 ^ 33 + doubledRoot n0 + 1 ∧ doubledRoot n0 = lastEstimate := by
  have last := (estimate_eq_last_iff n0).mpr late
  have bound := n0.isLt
  have same : (4 * coarse n0 * (2 ^ 19 * 2 ^ 19)).sqrt / 2 ^ 19 = estimate n0 :=
    sqrt_mul_self_div _ (by decide)
  have small : (4 * coarse n0 * (2 ^ 19 * 2 ^ 19)).sqrt < 2 ^ 53 := by
    unfold lastEstimate at last
    omega
  have root : doubledRoot n0 = lastEstimate := by
    have below := (estimate_bounds n0).2.2.1
    have above : doubledRoot n0 < lastEstimate + 1 := Nat.sqrt_lt.mpr (by unfold lastEstimate; omega)
    omega
  have wrapped : product lastEstimate % 2 ^ 64 < n0.toNat := by
    have word : product lastEstimate % 2 ^ 64 < firstWrong := by decide
    omega
  rw [intSqrtV2_eq, corrected_toNat n0 (intSqrtV2_bits n0) small, same, last, if_pos wrapped, root]
  exact ⟨rfl, rfl⟩

theorem doubledRoot_bounds (n0 : BitVec 64) : 2 ^ 33 ≤ doubledRoot n0 ∧ doubledRoot n0 < 2 ^ 34 - 1 := by
  obtain ⟨start, stop, below, close⟩ := estimate_bounds n0
  unfold lastEstimate at stop
  omega

/-- The lower 33 bits are those of the root exactly before the inputs whose product wraps around
twice; these are the last 5492101120 of the range, and they come out one too high. -/
theorem intSqrtV2_exact_iff (n0 : BitVec 64) :
    (intSqrtV2 n0).toNat % 2 ^ 33 = ⌊2 * √(2 ^ 64 + n0.toNat : ℝ)⌋₊ - 2 ^ 33 ↔ n0.toNat < firstWrong := by
  have bounds := doubledRoot_bounds n0
  rw [floor_doubledRoot]
  by_cases early : n0.toNat < firstWrong
  · rw [intSqrtV2_exact early]
    exact iff_of_true (by omega) early
  · rw [(intSqrtV2_last (Nat.le_of_not_lt early)).1]
    exact iff_of_false (by omega) early

theorem intSqrtV2_greatest_wrong :
    (intSqrtV2 (BitVec.allOnes 64)).toNat % 2 ^ 33 ≠
      ⌊2 * √(2 ^ 64 + (BitVec.allOnes 64).toNat : ℝ)⌋₊ - 2 ^ 33 := by
  have late : firstWrong ≤ (BitVec.allOnes 64).toNat := by decide
  obtain ⟨result, root⟩ := intSqrtV2_last late
  rw [floor_doubledRoot, result, root]
  decide

end Xmrig.Cryptonight
