import Mathlib.Algebra.Order.Ring.Nat
import Mathlib.Tactic.Ring

/-! Numbers of variable length.

Seven bits a byte from the low ones on, with the high bit set in every byte but the
last. What the bytes stand for is a natural number of any size; a reader that adds up
words is compared with it.
-/

set_option autoImplicit false

namespace Foundation

def varint (n : Nat) : List (BitVec 8) :=
  if n < 128 then [BitVec.ofNat 8 n] else BitVec.ofNat 8 (n % 128 + 128) :: varint (n / 128)
termination_by n
decreasing_by omega

/-- The number at the start of some bytes and how many of them it takes; nothing if they end
inside of it. -/
def varintValue : List (BitVec 8) → Option (Nat × Nat)
  | [] => none
  | byte :: rest =>
    if byte.toNat < 128 then some (byte.toNat, 1)
    else (varintValue rest).map fun read => (byte.toNat - 128 + 128 * read.1, read.2 + 1)

theorem varintValue_last {byte : BitVec 8} (last : byte.toNat < 128) (rest : List (BitVec 8)) :
    varintValue (byte :: rest) = some (byte.toNat, 1) := if_pos last

theorem varintValue_more {byte : BitVec 8} (more : 128 ≤ byte.toNat) (rest : List (BitVec 8)) :
    varintValue (byte :: rest) =
      (varintValue rest).map fun read => (byte.toNat - 128 + 128 * read.1, read.2 + 1) :=
  if_neg (Nat.not_lt.mpr more)

/-- A number is read back from its bytes, whatever follows. -/
theorem varintValue_varint (n : Nat) (rest : List (BitVec 8)) :
    varintValue (varint n ++ rest) = some (n, (varint n).length) := by
  induction n using Nat.strongRecOn with
  | ind n ih =>
    rw [varint]
    split
    · rename_i small
      have byte : (BitVec.ofNat 8 n).toNat = n := by
        rw [BitVec.toNat_ofNat]
        omega
      rw [List.singleton_append, varintValue_last (by omega), byte]
      rfl
    · rename_i large
      have byte : (BitVec.ofNat 8 (n % 128 + 128)).toNat = n % 128 + 128 := by
        rw [BitVec.toNat_ofNat]
        omega
      have whole : n % 128 + 128 - 128 + 128 * (n / 128) = n := by omega
      rw [List.cons_append, varintValue_more (by omega), ih (n / 128) (by omega), byte, Option.map_some, whole]
      rfl

theorem varintValue_lt {data : List (BitVec 8)} {value size : Nat} (stands : varintValue data = some (value, size)) :
    value < 128 ^ size ∧ size ≤ data.length := by
  induction data generalizing value size with
  | nil => cases stands
  | cons byte rest ih =>
    rw [varintValue] at stands
    split at stands
    · rename_i last
      simp only [Option.some.injEq, Prod.mk.injEq] at stands
      obtain ⟨rfl, rfl⟩ := stands
      exact ⟨last, Nat.succ_le_succ (Nat.zero_le _)⟩
    · obtain ⟨⟨high, used⟩, later, made⟩ := Option.map_eq_some_iff.mp stands
      simp only [Prod.mk.injEq] at made
      obtain ⟨rfl, rfl⟩ := made
      obtain ⟨small, inside⟩ := ih later
      rw [pow_succ]
      exact ⟨by omega, Nat.succ_le_succ inside⟩

theorem varint_length_pos (n : Nat) : 0 < (varint n).length := by
  rw [varint]
  split <;> simp

theorem varint_length_le {groups n : Nat} (small : n < 128 ^ (groups + 1)) :
    (varint n).length ≤ groups + 1 := by
  induction groups generalizing n with
  | zero =>
    rw [varint, if_pos (by omega)]
    rfl
  | succ groups ih =>
    rw [varint]
    split
    · exact Nat.succ_le_succ (Nat.zero_le _)
    · have less : n / 128 < 128 ^ (groups + 1) := Nat.div_lt_of_lt_mul (by rw [Nat.mul_comm, ← pow_succ]; exact small)
      exact Nat.succ_le_succ (ih less)

theorem lt_varint_length {groups n : Nat} (large : 128 ^ groups ≤ n) : groups < (varint n).length := by
  induction groups generalizing n with
  | zero => exact varint_length_pos n
  | succ groups ih =>
    have wide : 128 ≤ 128 ^ (groups + 1) := Nat.le_self_pow (Nat.succ_ne_zero groups) 128
    have more : 128 ^ groups ≤ n / 128 := by
      rw [Nat.le_div_iff_mul_le (by decide), ← pow_succ]
      exact large
    rw [varint, if_neg (by omega)]
    exact Nat.succ_lt_succ (ih more)

theorem varint_length_word {width n : Nat} (some : 0 < width) (word : n < 2 ^ width) :
    (varint n).length ≤ (width + 6) / 7 := by
  obtain ⟨groups, size⟩ : ∃ groups, (width + 6) / 7 = groups + 1 := ⟨(width + 6) / 7 - 1, by omega⟩
  have wide : 2 ^ width ≤ 128 ^ (groups + 1) := by
    rw [show 128 = 2 ^ 7 from rfl, ← pow_mul]
    exact Nat.pow_le_pow_right (by decide) (by omega)
  rw [size]
  exact varint_length_le (Nat.lt_of_lt_of_le word wide)

end Foundation
