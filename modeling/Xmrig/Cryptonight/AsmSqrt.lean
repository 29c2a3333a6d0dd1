import Xmrig.Cryptonight.IntSqrt

/-! The square root of the assembly main loops of CryptoNight v2.

The loops round up and correct the root only if its lower 19 bits are zero. The
correction is that of the C code on the root less one, reached by other
instructions.
-/

set_option autoImplicit false

namespace Xmrig.Cryptonight

open Foundation

/-- `sqrt_fixup_ivybridge` from the root in `rdx` and the input in `r9`. -/
def sqrtFixupIvybridge (rdx r9 : BitVec 64) : BitVec 64 :=
  let rdx := rdx - 1#64
  let r13 := (BitVec.ofInt 32 (-1022)).setWidth 64 <<< 32
  let rax := rdx
  let rdx := rdx >>> 19
  let rax := rax >>> 20
  let rcx := rdx
  let rcx := rcx - rax
  let rax := rax + r13
  let r13 := ~~~r13
  let rcx := rcx - r13
  let rcx := rcx * rax
  let carry := if rcx < r9 then 1#64 else 0#64
  rdx + carry

/-- The part of `main_loop_ivybridge` from the input in `r9` to the root in `xmm3`. -/
def sqrtIvybridge (r9 : BitVec 64) : BitVec 64 :=
  let rax := r9 >>> 12
  let xmm0 := rax + doubleOne
  let xmm3 := sqrtsd .up xmm0
  let xmm3 := xmm3 - 0#64
  let rdx := xmm3
  if rdx.setWidth 32 &&& 524287#32 = 0#32 then sqrtFixupIvybridge rdx r9 else xmm3 >>> 19

/-- `sqrt_fixup_ryzen` from the root in `rdi` and the input in `r9`. -/
def sqrtFixupRyzen (rdi r9 : BitVec 64) : BitVec 64 :=
  let rdi := rdi - 1#64
  let rdx := (BitVec.ofInt 32 (-1022)).setWidth 64 <<< 32
  let rax := rdi
  let rdi := rdi >>> 19
  let rax := rax >>> 20
  let rcx := rdi
  let rcx := rcx - rax
  let rcx := rcx + rdx + 1#64
  let rax := rax + rdx
  let rcx := rcx * rax
  let carry := if rcx < r9 then 1#64 else 0#64
  rdi + carry

/-- The part of `main_loop_ryzen` from the input in `xmm2` to the root in `rdi`. -/
def sqrtRyzen (xmm2 : BitVec 64) : BitVec 64 :=
  let xmm0 := xmm2 >>> 12
  let xmm0 := xmm0 + doubleOne
  let xmm1 := sqrtsd .up xmm0
  let rdi := xmm1
  if rdi &&& 524287#64 = 0#64 then sqrtFixupRyzen rdi xmm2 else rdi >>> 19

/-! ## The instructions -/

theorem add_carry (root : BitVec 64) (test : Prop) [Decidable test] :
    root + (if test then 1#64 else 0#64) = if test then root + 1#64 else root := by
  split
  · rfl
  · exact BitVec.add_zero root

theorem sqrtFixupIvybridge_eq (root n0 : BitVec 64) :
    sqrtFixupIvybridge root n0 = corrected (root - 1#64) n0 := by
  have low (s : BitVec 64) : s + (BitVec.ofInt 32 (-1022)).setWidth 64 <<< 32 = s - (1022#64 <<< 32) := by
    rw [BitVec.sub_eq_add_neg]
    congr 1
  have high (d : BitVec 64) : d - ~~~((BitVec.ofInt 32 (-1022)).setWidth 64 <<< 32) =
      d - (1022#64 <<< 32) + 1#64 := by
    rw [BitVec.sub_eq_add_neg, BitVec.sub_eq_add_neg, BitVec.add_assoc]
    congr 1
  unfold sqrtFixupIvybridge corrected
  dsimp only
  rw [add_carry, low, high, BitVec.mul_comm]

theorem sqrtFixupRyzen_eq (root n0 : BitVec 64) : sqrtFixupRyzen root n0 = corrected (root - 1#64) n0 := by
  have low (s : BitVec 64) : s + (BitVec.ofInt 32 (-1022)).setWidth 64 <<< 32 = s - (1022#64 <<< 32) := by
    rw [BitVec.sub_eq_add_neg]
    congr 1
  unfold sqrtFixupRyzen corrected
  dsimp only
  rw [add_carry, low, low, BitVec.mul_comm]

def rounded (root n0 : BitVec 64) : BitVec 64 :=
  if root.toNat % 2 ^ 19 = 0 then corrected (root - 1#64) n0 else root >>> 19

theorem sqrtIvybridge_eq (n0 : BitVec 64) :
    sqrtIvybridge n0 = rounded (sqrtsd .up ((n0 >>> 12) + doubleOne)) n0 := by
  have test (x : BitVec 64) : x.setWidth 32 &&& 524287#32 = 0#32 ↔ x.toNat % 2 ^ 19 = 0 := by
    rw [← BitVec.toNat_inj, BitVec.toNat_and, BitVec.toNat_setWidth]
    change x.toNat % 2 ^ 32 &&& (2 ^ 19 - 1) = 0 ↔ _
    rw [Nat.and_two_pow_sub_one_eq_mod]
    omega
  unfold sqrtIvybridge rounded
  dsimp only
  rw [BitVec.sub_zero, sqrtFixupIvybridge_eq]
  simp only [test]

theorem sqrtRyzen_eq (n0 : BitVec 64) :
    sqrtRyzen n0 = rounded (sqrtsd .up ((n0 >>> 12) + doubleOne)) n0 := by
  have test (x : BitVec 64) : x &&& 524287#64 = 0#64 ↔ x.toNat % 2 ^ 19 = 0 := by
    rw [← BitVec.toNat_inj, BitVec.toNat_and]
    change x.toNat &&& (2 ^ 19 - 1) = 0 ↔ _
    rw [Nat.and_two_pow_sub_one_eq_mod]
  unfold sqrtRyzen rounded
  dsimp only
  rw [sqrtFixupRyzen_eq]
  simp only [test]

/-! ## The result -/

def upper (n0 : BitVec 64) : Nat := ceilSqrt (4 * coarse n0 * (2 ^ 19 * 2 ^ 19))

theorem upper_bits (n0 : BitVec 64) :
    (sqrtsd .up ((n0 >>> 12) + doubleOne)).toNat = 1022 * 2 ^ 52 + upper n0 := by
  rw [sqrtsd_toNat, significand_eq]
  rfl

theorem upper_bounds (n0 : BitVec 64) : 2 ^ 52 ≤ upper n0 ∧ upper n0 < 2 ^ 53 := by
  obtain ⟨low, high⟩ := significand_bounds ((n0 >>> 12) + doubleOne)
  have bounds := root_bounds .up low high
  rw [significand_eq] at bounds
  exact bounds

theorem cut_exact {n0 : BitVec 64} (extra : upper n0 % 2 ^ 19 ≠ 0) :
    upper n0 / 2 ^ 19 = doubledRoot n0 := by
  obtain ⟨low, down, up, high⟩ := coarse_bounds n0
  obtain ⟨start, stop⟩ := upper_bounds n0
  obtain ⟨v, digits⟩ : ∃ v, v = upper n0 / 2 ^ 19 := ⟨_, rfl⟩
  have less : v * 2 ^ 19 * (v * 2 ^ 19) < 4 * coarse n0 * (2 ^ 19 * 2 ^ 19) :=
    lt_ceilSqrt_iff.mp (show v * 2 ^ 19 < upper n0 by omega)
  have greater : 4 * coarse n0 * (2 ^ 19 * 2 ^ 19) ≤ (v * 2 ^ 19 + (2 ^ 19 - 1)) * (v * 2 ^ 19 + (2 ^ 19 - 1)) :=
    ceilSqrt_le_iff.mp (show upper n0 ≤ v * 2 ^ 19 + (2 ^ 19 - 1) by omega)
  have first : v * 2 ^ 19 * (v * 2 ^ 19) = v * v * (2 ^ 19 * 2 ^ 19) := by ring
  have second : (v * 2 ^ 19 + (2 ^ 19 - 1)) * (v * 2 ^ 19 + (2 ^ 19 - 1)) =
      v * v * (2 ^ 19 * 2 ^ 19) + v * (2 * 2 ^ 19 * (2 ^ 19 - 1)) + (2 ^ 19 - 1) * (2 ^ 19 - 1) := by ring
  have next : (v + 1) * (v + 1) = v * v + 2 * v + 1 := by ring
  rw [← digits, doubledRoot]
  apply Nat.eq_sqrt.mpr
  constructor
  · omega
  · rw [next]
    omega

theorem fixup_exact {n0 : BitVec 64} (extra : upper n0 % 2 ^ 19 = 0) (large : 2 ^ 12 ≤ n0.toNat) :
    InRange ((upper n0 - 1) / 2 ^ 19) ∧ (upper n0 - 1) / 2 ^ 19 ≤ doubledRoot n0 ∧
      doubledRoot n0 ≤ (upper n0 - 1) / 2 ^ 19 + 1 := by
  obtain ⟨low, down, up, high⟩ := coarse_bounds n0
  obtain ⟨start, stop⟩ := upper_bounds n0
  obtain ⟨v, digits⟩ : ∃ v, v + 1 = upper n0 / 2 ^ 19 := ⟨upper n0 / 2 ^ 19 - 1, by omega⟩
  have same : (upper n0 - 1) / 2 ^ 19 = v := by omega
  have less : v * 2 ^ 19 * (v * 2 ^ 19) < 4 * coarse n0 * (2 ^ 19 * 2 ^ 19) :=
    lt_ceilSqrt_iff.mp (show v * 2 ^ 19 < upper n0 by omega)
  have greater : 4 * coarse n0 * (2 ^ 19 * 2 ^ 19) ≤ (v + 1) * 2 ^ 19 * ((v + 1) * 2 ^ 19) :=
    ceilSqrt_le_iff.mp (show upper n0 ≤ (v + 1) * 2 ^ 19 by omega)
  have first : v * 2 ^ 19 * (v * 2 ^ 19) = v * v * (2 ^ 19 * 2 ^ 19) := by ring
  have second : (v + 1) * 2 ^ 19 * ((v + 1) * 2 ^ 19) = (v + 1) * (v + 1) * (2 ^ 19 * 2 ^ 19) := by ring
  have next : (v + 2) * (v + 2) = (v + 1) * (v + 1) + 2 * v + 3 := by ring
  rw [same]
  refine ⟨⟨?_, ?_⟩, ?_, ?_⟩
  · by_contra small
    have one : v + 1 = 2 ^ 33 := by omega
    rw [second, one, coarse] at greater
    omega
  · by_contra last
    have least : 12148001999 * 2 ^ 19 + (2 ^ 19 - 1) < upper n0 := by
      unfold lastEstimate at last
      omega
    have square := lt_ceilSqrt_iff.mp least
    omega
  · apply Nat.le_sqrt.mpr
    omega
  · have close : doubledRoot n0 < v + 2 := Nat.sqrt_lt.mpr (by omega)
    exact Nat.le_of_lt_succ close

theorem rounded_exact {n0 : BitVec 64} (large : 2 ^ 12 ≤ n0.toNat) :
    (rounded (sqrtsd .up ((n0 >>> 12) + doubleOne)) n0).toNat = 1022 * 2 ^ 33 + doubledRoot n0 := by
  have bits := upper_bits n0
  obtain ⟨start, stop⟩ := upper_bounds n0
  unfold rounded
  by_cases extra : upper n0 % 2 ^ 19 = 0
  · rw [if_pos (by omega)]
    obtain ⟨range, below, close⟩ := fixup_exact extra large
    apply corrected_exact _ range below close
    rw [BitVec.toNat_sub, bits, show (1#64).toNat = 1 from rfl]
    omega
  · rw [if_neg (by omega), BitVec.toNat_ushiftRight, bits, Nat.shiftRight_eq_div_pow, ← cut_exact extra]
    omega

theorem rounded_small {n0 : BitVec 64} (small : n0.toNat < 2 ^ 12) :
    (rounded (sqrtsd .up ((n0 >>> 12) + doubleOne)) n0).toNat = 1022 * 2 ^ 33 + (2 ^ 33 - 1) := by
  have bits := upper_bits n0
  obtain ⟨start, stop⟩ := upper_bounds n0
  have one : upper n0 = 2 ^ 52 := by
    apply Nat.le_antisymm _ start
    apply ceilSqrt_le_iff.mpr
    unfold coarse
    omega
  have before : (sqrtsd .up ((n0 >>> 12) + doubleOne) - 1#64).toNat = 1022 * 2 ^ 52 + (2 ^ 52 - 1) := by
    rw [BitVec.toNat_sub, bits, one]
    rfl
  have word : product ((2 ^ 52 - 1) / 2 ^ 19) % 2 ^ 64 = 2 ^ 64 - 1 := by decide
  have cut : (2 ^ 52 - 1) / 2 ^ 19 = 2 ^ 33 - 1 := by decide
  unfold rounded
  rw [if_pos (by omega), corrected_toNat n0 before (by decide), word, if_neg (by omega), cut, Nat.add_zero]

theorem rounded_agrees_iff (n0 : BitVec 64) :
    (rounded (sqrtsd .up ((n0 >>> 12) + doubleOne)) n0).toNat % 2 ^ 33 = (intSqrtV2 n0).toNat % 2 ^ 33 ↔
      2 ^ 12 ≤ n0.toNat ∧ n0.toNat < firstWrong := by
  have bounds := doubledRoot_bounds n0
  by_cases large : 2 ^ 12 ≤ n0.toNat
  · rw [rounded_exact large]
    by_cases early : n0.toNat < firstWrong
    · rw [intSqrtV2_exact early]
      exact iff_of_true rfl ⟨large, early⟩
    · rw [(intSqrtV2_last (Nat.le_of_not_lt early)).1]
      exact iff_of_false (by omega) fun both => early both.2
  · have small : n0.toNat < 2 ^ 12 := Nat.lt_of_not_le large
    have early : n0.toNat < firstWrong := small.trans (by decide)
    have root : doubledRoot n0 < 2 ^ 33 + 1 := Nat.sqrt_lt.mpr (by omega)
    rw [rounded_small small, intSqrtV2_exact early]
    exact iff_of_false (by omega) fun both => large both.1

/-- The lower 33 bits of the assembly root are those of the C root exactly from 4096 on and before
the inputs for which the C root is one too high. -/
theorem sqrtAsm_agrees_iff (n0 : BitVec 64) :
    ((sqrtIvybridge n0).toNat % 2 ^ 33 = (intSqrtV2 n0).toNat % 2 ^ 33 ↔
        2 ^ 12 ≤ n0.toNat ∧ n0.toNat < firstWrong) ∧
      ((sqrtRyzen n0).toNat % 2 ^ 33 = (intSqrtV2 n0).toNat % 2 ^ 33 ↔
        2 ^ 12 ≤ n0.toNat ∧ n0.toNat < firstWrong) := by
  rw [sqrtIvybridge_eq, sqrtRyzen_eq]
  exact ⟨rounded_agrees_iff n0, rounded_agrees_iff n0⟩

/-- On zero the assembly has all bits set where the C code has none. -/
theorem sqrtAsm_zero :
    (sqrtIvybridge 0#64).toNat % 2 ^ 33 ≠ (intSqrtV2 0#64).toNat % 2 ^ 33 ∧
      (sqrtRyzen 0#64).toNat % 2 ^ 33 ≠ (intSqrtV2 0#64).toNat % 2 ^ 33 := by
  have root : doubledRoot 0#64 = 2 ^ 33 := by
    apply Nat.le_antisymm
    · exact Nat.le_of_lt_succ (Nat.sqrt_lt.mpr (by decide))
    · exact (doubledRoot_bounds 0#64).1
  rw [sqrtIvybridge_eq, sqrtRyzen_eq, rounded_small (by decide), intSqrtV2_exact (by decide), root]
  decide

end Xmrig.Cryptonight
