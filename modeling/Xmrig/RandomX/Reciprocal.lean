import Mathlib.Data.Nat.Size
import Mathlib.Logic.Function.Iterate
import Mathlib.Tactic.Ring
import Xmrig.RandomX.Bytecode

/-! The long division of `randomx_reciprocal`.

A pass doubles the dividend: the quotient grows by one bit, and the difference that is compared
stands for the doubled remainder, which need not fit.
-/

set_option autoImplicit false

namespace Xmrig.RandomX

def reciprocalPass (divisor : BitVec 64) (state : BitVec 64 × BitVec 64) : BitVec 64 × BitVec 64 :=
  if divisor - state.2 ≤ state.2 then (state.1 * 2 + 1, state.2 * 2 - divisor)
  else (state.1 * 2, state.2 * 2)

def reciprocalAfter (divisor : BitVec 64) (passes : Nat) : BitVec 64 × BitVec 64 :=
  (reciprocalPass divisor)^[passes] ((1 <<< 63) / divisor, (1 <<< 63) % divisor)

theorem reciprocalLoop_eq (divisor : BitVec 64) (passes : Nat) (quotient remainder : BitVec 64) :
    reciprocalLoop divisor passes quotient remainder =
      ((reciprocalPass divisor)^[passes] (quotient, remainder)).1 := by
  induction passes generalizing quotient remainder with
  | zero => rfl
  | succ passes ih =>
    rw [reciprocalLoop, Function.iterate_succ_apply, reciprocalPass]
    split
    · exact ih _ _
    · exact ih _ _

theorem reciprocal_eq (divisor : BitVec 64) : reciprocal divisor = (reciprocalAfter divisor divisor.toNat.size).1 :=
  reciprocalLoop_eq divisor _ _ _

section Passes
variable {divisor : BitVec 64}

/-- A pass divides the doubled dividend; only the quotient can leave the word. -/
theorem reciprocalPass_toNat {state : BitVec 64 × BitVec 64} (less : state.2.toNat < divisor.toNat) :
    (reciprocalPass divisor state).1.toNat = (state.1.toNat * 2 + state.2.toNat * 2 / divisor.toNat) % 2 ^ 64 ∧
      (reciprocalPass divisor state).2.toNat = state.2.toNat * 2 % divisor.toNat := by
  have bound := divisor.isLt
  have difference : (divisor - state.2).toNat = divisor.toNat - state.2.toNat :=
    BitVec.toNat_sub_of_le (BitVec.le_def.mpr less.le)
  unfold reciprocalPass
  by_cases fits : divisor - state.2 ≤ state.2
  · rw [if_pos fits]
    rw [BitVec.le_def, difference] at fits
    have once : state.2.toNat * 2 / divisor.toNat = 1 :=
      Nat.div_eq_of_lt_le (by omega) (by omega)
    constructor
    · rw [once, BitVec.toNat_add, BitVec.toNat_mul, Nat.mod_add_mod]
      rfl
    · -- the doubled remainder may leave the word, the difference is back inside
      have rest : state.2.toNat * 2 % divisor.toNat = state.2.toNat * 2 - divisor.toNat := by
        rw [Nat.mod_eq_sub_mod (by omega)]
        exact Nat.mod_eq_of_lt (by omega)
      rw [rest, BitVec.toNat_sub, BitVec.toNat_mul]
      change (2 ^ 64 - divisor.toNat + state.2.toNat * 2 % 2 ^ 64) % 2 ^ 64 = _
      omega
  · rw [if_neg fits]
    rw [BitVec.le_def, difference] at fits
    have small : state.2.toNat * 2 < divisor.toNat := by omega
    constructor
    · rw [Nat.div_eq_of_lt small, BitVec.toNat_mul]
      rfl
    · rw [Nat.mod_eq_of_lt small, BitVec.toNat_mul]
      exact Nat.mod_eq_of_lt (show state.2.toNat * 2 < 2 ^ 64 by omega)

theorem double_divMod (dividend divisor : Nat) (positive : 0 < divisor) :
    dividend * 2 / divisor = dividend / divisor * 2 + dividend % divisor * 2 / divisor ∧
      dividend * 2 % divisor = dividend % divisor * 2 % divisor := by
  have split : dividend * 2 = dividend % divisor * 2 + divisor * (dividend / divisor * 2) := by
    rw [← Nat.mul_assoc, ← Nat.add_mul, Nat.mod_add_div]
  constructor
  · rw [split, Nat.add_mul_div_left _ _ positive, Nat.add_comm]
  · rw [split, Nat.add_mul_mod_self_left]

/-- The invariant of the loop: after `k` passes the dividend is `2 ^ (63 + k)`. -/
theorem reciprocalAfter_toNat (positive : 0 < divisor.toNat) (passes : Nat) :
    (reciprocalAfter divisor passes).1.toNat = 2 ^ (63 + passes) / divisor.toNat % 2 ^ 64 ∧
      (reciprocalAfter divisor passes).2.toNat = 2 ^ (63 + passes) % divisor.toNat := by
  induction passes with
  | zero =>
    have first : (reciprocalAfter divisor 0).1.toNat = 2 ^ 63 / divisor.toNat := BitVec.toNat_udiv
    have least : 2 ^ 63 / divisor.toNat ≤ 2 ^ 63 := Nat.div_le_self _ _
    refine ⟨first.trans (Nat.mod_eq_of_lt ?_).symm, BitVec.toNat_umod⟩
    exact lt_of_le_of_lt least (by decide)
  | succ passes ih =>
    have less : (reciprocalAfter divisor passes).2.toNat < divisor.toNat := by
      rw [ih.2]
      exact Nat.mod_lt _ positive
    have step : reciprocalAfter divisor (passes + 1) = reciprocalPass divisor (reciprocalAfter divisor passes) :=
      Function.iterate_succ_apply' _ _ _
    obtain ⟨quotient, remainder⟩ := reciprocalPass_toNat less
    obtain ⟨doubled, left⟩ := double_divMod (2 ^ (63 + passes)) divisor.toNat positive
    have grown : 2 ^ (63 + (passes + 1)) = 2 ^ (63 + passes) * 2 := by rw [← Nat.add_assoc, pow_succ]
    rw [step, quotient, remainder, ih.1, ih.2, grown, doubled, left]
    refine ⟨?_, rfl⟩
    rw [Nat.add_mod, Nat.mod_mul_mod, ← Nat.add_mod]

theorem reciprocal_toNat (positive : 0 < divisor.toNat) :
    (reciprocal divisor).toNat = 2 ^ (63 + divisor.toNat.size) / divisor.toNat % 2 ^ 64 := by
  rw [reciprocal_eq]
  exact (reciprocalAfter_toNat positive _).1

theorem between_powers {n : Nat} (positive : 0 < n) (other : ∀ k, n ≠ 2 ^ k) :
    ∃ k, n.size = k + 1 ∧ 2 ^ k < n ∧ n < 2 ^ (k + 1) := by
  obtain ⟨k, size⟩ := Nat.exists_eq_succ_of_ne_zero (Nat.size_pos.mpr positive).ne'
  have least : 2 ^ k ≤ n := Nat.lt_size.mp (by omega)
  refine ⟨k, size, lt_of_le_of_ne least (other k).symm, ?_⟩
  exact Nat.size_le.mp size.le

/-- The quotient of the last pass has exactly 64 bits. -/
theorem reciprocal_range {n : Nat} (positive : 0 < n) (other : ∀ k, n ≠ 2 ^ k) :
    2 ^ 63 ≤ 2 ^ (63 + n.size) / n ∧ 2 ^ (63 + n.size) / n < 2 ^ 64 := by
  obtain ⟨k, size, above, below⟩ := between_powers positive other
  rw [size]
  constructor
  · rw [Nat.le_div_iff_mul_le positive]
    calc 2 ^ 63 * n ≤ 2 ^ 63 * 2 ^ (k + 1) := Nat.mul_le_mul_left _ below.le
      _ = 2 ^ (63 + (k + 1)) := (pow_add _ _ _).symm
  · rw [Nat.div_lt_iff_lt_mul positive]
    calc 2 ^ (63 + (k + 1)) = 2 ^ 64 * 2 ^ k := by
          rw [← pow_add]
          congr 1
          omega
      _ < 2 ^ 64 * n := Nat.mul_lt_mul_of_pos_left above (by decide)

/-- The reciprocal is the quotient of `2 ^ (63 + shift)`, where `shift` is the bit length of the
divisor, and fills the word; for a divisor of 32 bits nothing leaves the word on the way. -/
theorem reciprocal_scaled (divisor : BitVec 64) (positive : divisor ≠ 0) (other : ∀ k, divisor.toNat ≠ 2 ^ k) :
    (reciprocal divisor).toNat = 2 ^ (63 + divisor.toNat.size) / divisor.toNat ∧
      2 ^ 63 ≤ 2 ^ (63 + divisor.toNat.size) / divisor.toNat ∧
      2 ^ (63 + divisor.toNat.size) / divisor.toNat < 2 ^ 64 ∧
      (divisor.toNat < 2 ^ 32 → ∀ passes < divisor.toNat.size,
        (reciprocalAfter divisor passes).1.toNat * 2 + 1 < 2 ^ 64 ∧
          (reciprocalAfter divisor passes).2.toNat * 2 < 2 ^ 64) := by
  have nonzero : 0 < divisor.toNat := Nat.pos_of_ne_zero fun zero => positive (BitVec.eq_of_toNat_eq zero)
  obtain ⟨least, most⟩ := reciprocal_range nonzero other
  refine ⟨?_, least, most, fun small passes before => ?_⟩
  · rw [reciprocal_toNat nonzero, Nat.mod_eq_of_lt most]
  · obtain ⟨quotient, remainder⟩ := reciprocalAfter_toNat nonzero passes
    have less := Nat.mod_lt (2 ^ (63 + passes)) nonzero
    -- the quotient of this pass is at most half of the final one
    have half : 2 ^ (63 + passes) / divisor.toNat * 2 ≤ 2 ^ (63 + divisor.toNat.size) / divisor.toNat := by
      calc 2 ^ (63 + passes) / divisor.toNat * 2 ≤ 2 ^ (63 + passes) * 2 / divisor.toNat := by
            rw [(double_divMod (2 ^ (63 + passes)) divisor.toNat nonzero).1]
            exact Nat.le_add_right _ _
        _ = 2 ^ (63 + (passes + 1)) / divisor.toNat := by rw [← pow_succ, Nat.add_assoc]
        _ ≤ 2 ^ (63 + divisor.toNat.size) / divisor.toNat :=
            Nat.div_le_div_right (Nat.pow_le_pow_right (by decide) (by omega))
    constructor
    · rw [quotient]
      have within := Nat.mod_le (2 ^ (63 + passes) / divisor.toNat) (2 ^ 64)
      omega
    · rw [remainder]
      omega

/-- A divisor of five bits. -/
theorem reciprocal_scaled_nineteen : (reciprocal 19).toNat = 2 ^ 68 / 19 ∧ 2 ^ 63 ≤ 2 ^ 68 / 19 := by
  have other : ∀ k, (19 : BitVec 64).toNat ≠ 2 ^ k := by
    intro k same
    have small : k < 5 := (Nat.pow_lt_pow_iff_right (by decide : 1 < 2)).mp (same ▸ by decide : 2 ^ k < 2 ^ 5)
    revert same
    revert k
    decide
  obtain ⟨value, least, _⟩ := reciprocal_scaled 19 (by decide) other
  exact ⟨value, least⟩

end Passes

end Xmrig.RandomX
