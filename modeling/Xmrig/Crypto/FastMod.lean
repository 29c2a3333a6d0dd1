import Mathlib.Data.Nat.Prime.Basic
import Xmrig.Crypto.Kawpow
import Xmrig.Foundation.ConstantDivision
import Xmrig.Foundation.Slices

/-! The fast remainders of KawPow, and the threads that compute the DAG cache. -/

set_option autoImplicit false

namespace Xmrig.KPCache

open Foundation

/-- `fast_mod`, whose quotient is a `uint32_t`. -/
def fastMod (a d r i s : BitVec 64) : Word :=
  let q : Word := (((a + i) * r) >>> s.toNat).setWidth 32
  (a - q.setWidth 64 * d).setWidth 32

def scaledReciprocal (divisor shift : Nat) : Nat :=
  if divisor = 2 ^ shift then 1
  else if 2 ^ shift % divisor * 2 < divisor then 2 ^ shift / divisor
  else 2 ^ shift / divisor + 1

section FastMod
variable {divisor : Word}

theorem and_pred_eq_zero_iff (positive : divisor ≠ 0) :
    divisor &&& (divisor - 1) = 0 ↔ divisor.toNat = 2 ^ divisor.toNat.log2 := by
  have nonzero : divisor.toNat ≠ 0 := fun zero => positive (BitVec.eq_of_toNat_eq zero)
  have pred : (divisor - 1).toNat = divisor.toNat - 1 :=
    BitVec.toNat_sub_of_le (BitVec.le_def.mpr (Nat.one_le_iff_ne_zero.mpr nonzero))
  rw [← BitVec.toNat_inj, BitVec.toNat_and, pred]
  change divisor.toNat &&& divisor.toNat - 1 = 0 ↔ _
  rw [Nat.and_sub_one_eq_zero_iff_isPowerOfTwo nonzero]
  constructor
  · rintro ⟨k, power⟩
    rw [power, Nat.log2_two_pow]
  · exact fun power => ⟨_, power⟩

theorem shift_toNat (positive : divisor ≠ 0) :
    divisor.toNat.log2 < 32 ∧
      (31 - (31 - BitVec.ofNat 32 divisor.toNat.log2) : Word).toNat = divisor.toNat.log2 ∧
      (63 - (31 - BitVec.ofNat 32 divisor.toNat.log2) : Word).toNat = 32 + divisor.toNat.log2 := by
  have nonzero : divisor.toNat ≠ 0 := fun zero => positive (BitVec.eq_of_toNat_eq zero)
  have small : divisor.toNat.log2 < 32 := (Nat.log2_lt nonzero).mpr divisor.isLt
  generalize divisor.toNat.log2 = top at small ⊢
  have inner : (31 - BitVec.ofNat 32 top : Word).toNat = 31 - top := by
    rw [BitVec.toNat_sub_of_le]
    · rw [BitVec.toNat_ofNat, Nat.mod_eq_of_lt (by omega)]
      rfl
    · rw [BitVec.le_def, BitVec.toNat_ofNat, Nat.mod_eq_of_lt (by omega)]
      change top ≤ 31
      omega
  refine ⟨small, ?_, ?_⟩
  · rw [BitVec.toNat_sub_of_le, inner]
    · change 31 - (31 - top) = top
      omega
    · rw [BitVec.le_def, inner]
      exact Nat.sub_le 31 top
  · rw [BitVec.toNat_sub_of_le, inner]
    · change 63 - (31 - top) = 32 + top
      omega
    · rw [BitVec.le_def, inner]
      change 31 - top ≤ 63
      omega

theorem scale_toNat {top : Nat} (small : top < 32) : (1 <<< (32 + top) : BitVec 64).toNat = 2 ^ (32 + top) := by
  change (BitVec.ofNat 64 (1 <<< (32 + top))).toNat = 2 ^ (32 + top)
  rw [BitVec.toNat_ofNat, Nat.one_shiftLeft]
  exact Nat.mod_eq_of_lt (Nat.pow_lt_pow_right (by decide) (by omega))

theorem rounded_spec {top : Nat} (above : 2 ^ top < divisor.toNat) (below : divisor.toNat < 2 ^ (top + 1))
    (small : top < 32) :
      let n : BitVec 64 := 1 <<< (32 + top)
    let q := n / divisor.setWidth 64
    let r := n - q * divisor.setWidth 64
    q.toNat = 2 ^ (32 + top) / divisor.toNat ∧ r.toNat = 2 ^ (32 + top) % divisor.toNat ∧
      (q + 1).toNat = 2 ^ (32 + top) / divisor.toNat + 1 ∧
      (r * 2 < divisor.setWidth 64 ↔ 2 ^ (32 + top) % divisor.toNat * 2 < divisor.toNat) := by
  have wide : (divisor.setWidth 64).toNat = divisor.toNat := BitVec.toNat_setWidth_of_le (by decide)
  have word := divisor.isLt
  have fits := reciprocal_fits above below small
  have rest := Nat.mod_lt (2 ^ (32 + top)) (Nat.zero_lt_of_lt above)
  have whole := Nat.div_add_mod' (2 ^ (32 + top)) divisor.toNat
  have scale : 2 ^ (32 + top) < 2 ^ 64 := Nat.pow_lt_pow_right (by decide) (by omega)
  intro n q r
  have quotient : q.toNat = 2 ^ (32 + top) / divisor.toNat := by
    rw [BitVec.toNat_udiv, wide, scale_toNat small]
  have product : (q * divisor.setWidth 64).toNat = 2 ^ (32 + top) / divisor.toNat * divisor.toNat := by
    rw [BitVec.toNat_mul, wide, quotient]
    exact Nat.mod_eq_of_lt (by omega)
  have remainder : r.toNat = 2 ^ (32 + top) % divisor.toNat := by
    rw [BitVec.toNat_sub_of_le, product, scale_toNat small]
    · omega
    · rw [BitVec.le_def, product, scale_toNat small]
      omega
  refine ⟨quotient, remainder, ?_, ?_⟩
  · rw [BitVec.toNat_add, quotient]
    exact Nat.mod_eq_of_lt (show _ + 1 < 2 ^ 64 by omega)
  · rw [BitVec.lt_def, BitVec.toNat_mul, wide, remainder]
    change _ * 2 % 2 ^ 64 < _ ↔ _
    rw [Nat.mod_eq_of_lt (by omega)]

/-- What the data of a divisor are for. -/
structure Divides (divisor reciprocal increment shift : Word) : Prop where
  shift_lt : shift.toNat < 64
  increment_le : increment.toNat ≤ 1
  scaled : reciprocal.toNat = scaledReciprocal divisor.toNat shift.toNat
  quotient : ∀ a < 2 ^ 32, (a + increment.toNat) * reciprocal.toNat / 2 ^ shift.toNat = a / divisor.toNat

theorem setWidth_toNat {value : BitVec 64} (small : value.toNat < 2 ^ 32) : (value.setWidth 32).toNat = value.toNat := by
  rw [BitVec.toNat_setWidth]
  exact Nat.mod_eq_of_lt small

theorem calculateFastModData_divides (positive : divisor ≠ 0) :
    ∃ reciprocal increment shift, calculateFastModData divisor = .ok (reciprocal, increment, shift) ∧
      Divides divisor reciprocal increment shift := by
  obtain ⟨small, exact, scaled⟩ := shift_toNat positive
  have nonzero : divisor.toNat ≠ 0 := fun zero => positive (BitVec.eq_of_toNat_eq zero)
  have word := divisor.isLt
  unfold calculateFastModData clz
  rw [if_neg positive]
  dsimp only
  by_cases power : divisor &&& (divisor - 1) = 0
  · rw [if_pos power]
    rw [and_pred_eq_zero_iff positive] at power
    refine ⟨_, _, _, rfl, ?_, by decide, ?_, fun a _ => ?_⟩
    · rw [exact]
      omega
    · rw [exact, scaledReciprocal, if_pos power]
      rfl
    · rw [exact, ← power]
      change (a + 0) * 1 / divisor.toNat = _
      rw [Nat.add_zero, Nat.mul_one]
  · rw [if_neg power, scaled]
    rw [and_pred_eq_zero_iff positive] at power
    have above : 2 ^ divisor.toNat.log2 < divisor.toNat :=
      lt_of_le_of_ne (Nat.log2_self_le nonzero) (Ne.symm power)
    have below : divisor.toNat < 2 ^ (divisor.toNat.log2 + 1) := Nat.lt_log2_self
    obtain ⟨quotient, remainder, next, compare⟩ := rounded_spec above below small
    have fits := reciprocal_fits above below small
    -- the scale is above every word
    have other : divisor.toNat ≠ 2 ^ (32 + divisor.toNat.log2) := by
      have least : 2 ^ 32 ≤ 2 ^ (32 + divisor.toNat.log2) := Nat.pow_le_pow_right (by decide) (Nat.le_add_right _ _)
      omega
    by_cases low : 2 ^ (32 + divisor.toNat.log2) % divisor.toNat * 2 < divisor.toNat
    · rw [if_pos (compare.mpr low)]
      refine ⟨_, _, _, rfl, ?_, by decide, ?_, fun a within => ?_⟩
      · rw [scaled]
        omega
      · rw [setWidth_toNat (by omega), quotient, scaled, scaledReciprocal, if_neg other, if_pos low]
      · rw [setWidth_toNat (by omega), quotient, scaled]
        apply word_div_rounded_down within above.le below _ low
        intro divides
        obtain ⟨k, _, same⟩ := (Nat.dvd_prime_pow Nat.prime_two).mp (Nat.dvd_of_mod_eq_zero divides)
        rw [same, Nat.log2_two_pow] at power
        exact power rfl
    · rw [if_neg fun less => low (compare.mp less)]
      refine ⟨_, _, _, rfl, ?_, by decide, ?_, fun a within => ?_⟩
      · rw [scaled]
        omega
      · rw [setWidth_toNat (by omega), next, scaled, scaledReciprocal, if_neg other, if_neg low]
      · rw [setWidth_toNat (by omega), next, scaled]
        exact word_div_rounded_up within above.le below (Nat.not_lt.mp low)

theorem Divides.product_lt {reciprocal increment shift : Word} (divides : Divides divisor reciprocal increment shift) (a : Word) :
    (a.toNat + increment.toNat) * reciprocal.toNat < 2 ^ 64 := by
  have increased : a.toNat + increment.toNat ≤ 2 ^ 32 := by
    have word := a.isLt
    have one := divides.increment_le
    omega
  calc (a.toNat + increment.toNat) * reciprocal.toNat ≤ 2 ^ 32 * reciprocal.toNat := Nat.mul_le_mul_right _ increased
    _ < 2 ^ 32 * 2 ^ 32 := Nat.mul_lt_mul_of_pos_left reciprocal.isLt (by decide)
    _ = 2 ^ 64 := by decide

theorem fastMod_toNat {reciprocal increment shift : Word} (divides : Divides divisor reciprocal increment shift) (a : Word) :
    (fastMod (a.setWidth 64) (divisor.setWidth 64) (reciprocal.setWidth 64) (increment.setWidth 64) (shift.setWidth 64)).toNat =
      a.toNat % divisor.toNat := by
  have wide (word : Word) : (word.setWidth 64).toNat = word.toNat := BitVec.toNat_setWidth_of_le (by decide)
  have product := divides.product_lt a
  have one := divides.increment_le
  have word := a.isLt
  have rest := Nat.mod_le a.toNat divisor.toNat
  have least := Nat.div_le_self a.toNat divisor.toNat
  have whole := Nat.div_add_mod' a.toNat divisor.toNat
  have quotient : ((((a.setWidth 64 + increment.setWidth 64) * reciprocal.setWidth 64) >>>
      (shift.setWidth 64).toNat).setWidth 32 : Word).toNat = a.toNat / divisor.toNat := by
    rw [BitVec.toNat_setWidth, BitVec.toNat_ushiftRight, BitVec.toNat_mul, BitVec.toNat_add, wide, wide, wide, wide,
      Nat.shiftRight_eq_div_pow, Nat.mod_eq_of_lt (show a.toNat + increment.toNat < 2 ^ 64 by omega),
      Nat.mod_eq_of_lt product, divides.quotient a.toNat word]
    exact Nat.mod_eq_of_lt (lt_of_le_of_lt least word)
  unfold fastMod
  dsimp only
  generalize ((((a.setWidth 64 + increment.setWidth 64) * reciprocal.setWidth 64) >>>
      (shift.setWidth 64).toNat).setWidth 32 : Word) = q at quotient
  have multiple : (q.setWidth 64 * divisor.setWidth 64).toNat = a.toNat / divisor.toNat * divisor.toNat := by
    rw [BitVec.toNat_mul, wide, wide, quotient]
    exact Nat.mod_eq_of_lt (by omega)
  have difference : (a.setWidth 64 - q.setWidth 64 * divisor.setWidth 64).toNat = a.toNat % divisor.toNat := by
    rw [BitVec.toNat_sub_of_le, multiple, wide]
    · omega
    · rw [BitVec.le_def, multiple, wide]
      omega
  rw [setWidth_toNat (by omega), difference]

end FastMod

/-! ## The threads of `init` -/

def cacheNodes (size : Nat) : Nat := (size + nodeSize * 4 - 1) / nodeSize

/-- Where the nodes of thread `i` begin. -/
def firstNode (nodes n i : BitVec 64) : Word := ((nodes * i) / n).setWidth 32

/-- The loop over four nodes at a time: the nodes it computes, and `j` behind it. -/
def fourNodes : (rounds : Nat) → (j b : Word) → Option (List Nat × Word)
  | 0, _, _ => none
  | rounds + 1, j, b =>
    if j + 4 ≤ b then
      (fourNodes rounds (j + 4) b).map fun rest => (List.range' j.toNat 4 ++ rest.1, rest.2)
    else some ([], j)

def singleNodes : (rounds : Nat) → (j b : Word) → Option (List Nat)
  | 0, _, _ => none
  | rounds + 1, j, b => if j < b then (singleNodes rounds (j + 1) b).map (j.toNat :: ·) else some []

def threadNodes (rounds : Nat) (a b : Word) : Option (List Nat) :=
  (fourNodes rounds a b).bind fun front => (singleNodes rounds front.2 b).map (front.1 ++ ·)

def initNodes (rounds size : Nat) (hardwareConcurrency : Word) : List (Option (List Nat)) :=
  let nodes : BitVec 64 := BitVec.ofNat 64 (cacheNodes size)
  let n : Word := if hardwareConcurrency < 1 then 1 else hardwareConcurrency
  (List.range n.toNat).map fun i =>
    threadNodes rounds (firstNode nodes (n.setWidth 64) (BitVec.ofNat 64 i))
      (firstNode nodes (n.setWidth 64) (BitVec.ofNat 64 (i + 1)))

section Threads
variable {rounds : Nat} {j b : Word}

theorem singleNodes_eq (ordered : j.toNat ≤ b.toNat) (enough : b.toNat - j.toNat < rounds) :
    singleNodes rounds j b = some (List.range' j.toNat (b.toNat - j.toNat)) := by
  induction rounds generalizing j with
  | zero => exact absurd enough (Nat.not_lt_zero _)
  | succ rounds ih =>
    have word := b.isLt
    rw [singleNodes]
    by_cases less : j < b
    · rw [if_pos less]
      rw [BitVec.lt_def] at less
      have next : (j + 1).toNat = j.toNat + 1 := by
        rw [BitVec.toNat_add]
        exact Nat.mod_eq_of_lt (show j.toNat + 1 < 2 ^ 32 by omega)
      rw [ih (by omega) (by omega), next, Option.map_some]
      have count : b.toNat - j.toNat = (b.toNat - (j.toNat + 1)) + 1 := by omega
      rw [count, List.range'_succ]
    · rw [if_neg less]
      rw [BitVec.lt_def] at less
      rw [Nat.sub_eq_zero_of_le (Nat.not_lt.mp less)]
      rfl

theorem fourNodes_eq (ordered : j.toNat ≤ b.toNat) (room : b.toNat + 4 < 2 ^ 32) (enough : b.toNat - j.toNat < rounds) :
    ∃ front last, fourNodes rounds j b = some (front, last) ∧ j.toNat ≤ last.toNat ∧ last.toNat ≤ b.toNat ∧
      front = List.range' j.toNat (last.toNat - j.toNat) := by
  induction rounds generalizing j with
  | zero => exact absurd enough (Nat.not_lt_zero _)
  | succ rounds ih =>
    have next : (j + 4).toNat = j.toNat + 4 := by
      rw [BitVec.toNat_add]
      exact Nat.mod_eq_of_lt (show j.toNat + 4 < 2 ^ 32 by omega)
    rw [fourNodes]
    by_cases fits : j + 4 ≤ b
    · rw [if_pos fits]
      rw [BitVec.le_def, next] at fits
      obtain ⟨front, last, ran, behind, inside, nodes⟩ := @ih (j + 4) (by omega) (by omega)
      rw [next] at behind nodes
      refine ⟨_, last, by rw [ran]; rfl, by omega, inside, ?_⟩
      have joined := @List.range'_append_1 j.toNat 4 (last.toNat - (j.toNat + 4))
      rw [nodes, joined]
      congr 1
      omega
    · rw [if_neg fits]
      exact ⟨[], j, rfl, le_rfl, ordered, by rw [Nat.sub_self]; rfl⟩

theorem threadNodes_eq (ordered : j.toNat ≤ b.toNat) (room : b.toNat + 4 < 2 ^ 32) (enough : b.toNat - j.toNat < rounds) :
    threadNodes rounds j b = some (List.range' j.toNat (b.toNat - j.toNat)) := by
  obtain ⟨front, last, ran, behind, inside, nodes⟩ := fourNodes_eq ordered room enough
  unfold threadNodes
  rw [ran, Option.bind_some, singleNodes_eq inside (by omega), Option.map_some, nodes]
  have joined := @List.range'_append_1 j.toNat (last.toNat - j.toNat) (b.toNat - last.toNat)
  rw [Nat.add_sub_cancel' behind] at joined
  rw [joined]
  congr 2
  omega

theorem cacheNodes_le {ethash : Ethash} {epoch size : Nat} (listed : ethash.cacheSizes[epoch]? = some size) :
    cacheNodes size < 2 ^ 23 := by
  have range := ethash.cacheSizes_range size (List.mem_of_getElem? listed)
  simp only [cacheNodes, nodeSize]
  omega

theorem firstNode_toNat {nodes n i : Nat} (small : nodes < 2 ^ 23) (threads : n < 2 ^ 32) (inside : i ≤ n) :
    (firstNode (BitVec.ofNat 64 nodes) (BitVec.ofNat 64 n) (BitVec.ofNat 64 i)).toNat = share nodes n i := by
  have product : nodes * i ≤ 2 ^ 23 * 2 ^ 32 := Nat.mul_le_mul small.le (by omega)
  have share_le : share nodes n i ≤ nodes := Nat.div_le_of_le_mul (by
    rw [Nat.mul_comm n]
    exact Nat.mul_le_mul_left nodes inside)
  have whole : ((BitVec.ofNat 64 nodes * BitVec.ofNat 64 i) / BitVec.ofNat 64 n).toNat = share nodes n i := by
    rw [BitVec.toNat_udiv, BitVec.toNat_mul, BitVec.toNat_ofNat, BitVec.toNat_ofNat, BitVec.toNat_ofNat,
      Nat.mod_eq_of_lt (show nodes < 2 ^ 64 by omega), Nat.mod_eq_of_lt (show i < 2 ^ 64 by omega),
      Nat.mod_eq_of_lt (show n < 2 ^ 64 by omega), Nat.mod_eq_of_lt (by omega)]
    rfl
  rw [firstNode, setWidth_toNat (by omega), whole]

/-- The threads of `init` compute every node once, in the order of the threads. -/
theorem initNodes_eq {rounds size : Nat} (small : cacheNodes size < 2 ^ 23) (enough : 2 ^ 32 ≤ rounds)
    (hardwareConcurrency : Word) :
    ∃ threads : List (List Nat), initNodes rounds size hardwareConcurrency = threads.map some ∧
      threads.flatten = List.range (cacheNodes size) := by
  unfold initNodes
  generalize some : (if hardwareConcurrency < 1 then 1 else hardwareConcurrency : Word) = n
  have positive : 0 < n.toNat := by
    rw [← some]
    split
    · decide
    · rename_i several
      rw [BitVec.lt_def] at several
      exact Nat.not_lt.mp several
  have threads := n.isLt
  have wide : n.setWidth 64 = BitVec.ofNat 64 n.toNat := by
    apply BitVec.eq_of_toNat_eq
    rw [BitVec.toNat_setWidth, BitVec.toNat_ofNat]
  have total : share (cacheNodes size) n.toNat n.toNat = cacheNodes size := share_last positive
  have whole := @slices_flatten (share (cacheNodes size) n.toNat) share_zero share_mono n.toNat
  rw [total] at whole
  refine ⟨_, ?_, whole⟩
  rw [List.map_map]
  apply List.map_congr_left
  intro i member
  have inside := List.mem_range.mp member
  have first := @firstNode_toNat _ n.toNat i small threads inside.le
  have last := @firstNode_toNat _ n.toNat (i + 1) small threads inside
  have ordered : share (cacheNodes size) n.toNat i ≤ share (cacheNodes size) n.toNat (i + 1) := share_mono (Nat.le_succ i)
  have most : share (cacheNodes size) n.toNat (i + 1) ≤ share (cacheNodes size) n.toNat n.toNat := share_mono inside
  rw [wide, threadNodes_eq (by omega) (by omega) (by omega), first, last]
  rfl

end Threads

/-- The fast remainder is exact for all words, with a reciprocal that is not narrowed and a product
in 64 bits, and the threads of `init` compute every node of the DAG cache once. -/
theorem fastMod_exact :
    (∀ divisor : Word, divisor ≠ 0 → ∃ reciprocal increment shift : Word,
      calculateFastModData divisor = .ok (reciprocal, increment, shift) ∧ shift.toNat < 64 ∧
      reciprocal.toNat = scaledReciprocal divisor.toNat shift.toNat ∧ ∀ a : Word,
        (a.toNat + increment.toNat) * reciprocal.toNat < 2 ^ 64 ∧
        divisor.toNat * ((a.toNat + increment.toNat) * reciprocal.toNat / 2 ^ shift.toNat) ≤ a.toNat ∧
        a.toNat - divisor.toNat * ((a.toNat + increment.toNat) * reciprocal.toNat / 2 ^ shift.toNat) =
          a.toNat % divisor.toNat ∧
        (fastMod (a.setWidth 64) (divisor.setWidth 64) (reciprocal.setWidth 64) (increment.setWidth 64)
          (shift.setWidth 64)).toNat = a.toNat % divisor.toNat) ∧
    ∀ (ethash : Ethash) (epoch size : Nat), ethash.cacheSizes[epoch]? = some size →
      ∀ (hardwareConcurrency : Word) (rounds : Nat), 2 ^ 32 ≤ rounds → ∃ threads : List (List Nat),
        initNodes rounds size hardwareConcurrency = threads.map some ∧
          threads.flatten = List.range (cacheNodes size) := by
  constructor
  · intro divisor positive
    obtain ⟨reciprocal, increment, shift, found, divides⟩ := calculateFastModData_divides positive
    refine ⟨reciprocal, increment, shift, found, divides.shift_lt, divides.scaled, fun a => ?_⟩
    have quotient := divides.quotient a.toNat a.isLt
    have whole := Nat.div_add_mod a.toNat divisor.toNat
    refine ⟨divides.product_lt a, ?_, ?_, fastMod_toNat divides a⟩
    · rw [quotient]
      exact Nat.mul_div_le _ _
    · rw [quotient]
      omega
  · intro ethash epoch size listed hardwareConcurrency rounds enough
    exact initNodes_eq (cacheNodes_le listed) enough hardwareConcurrency

/-- The divisor of epoch 0. -/
theorem fastMod_exact_first : ∃ reciprocal increment shift : Word,
    calculateFastModData 262139 = .ok (reciprocal, increment, shift) ∧
      (fastMod ((0xFFFFFFFF : Word).setWidth 64) ((262139 : Word).setWidth 64) (reciprocal.setWidth 64)
        (increment.setWidth 64) (shift.setWidth 64)).toNat = 4294967295 % 262139 := by
  obtain ⟨reciprocal, increment, shift, found, _, _, exact⟩ := fastMod_exact.1 262139 (by decide)
  exact ⟨reciprocal, increment, shift, found, (exact 0xFFFFFFFF).2.2.2⟩

end Xmrig.KPCache
