import Xmrig.Cryptonote.AddressFields
import Xmrig.Foundation.Varint

/-! Varints as the sources write and read them.

The writers shift a word of `size_t` or `uint64_t`; the reader adds up shifted bytes in
a word of 64 bits. Both are compared with the number that the bytes stand for.
-/

set_option autoImplicit false

namespace Xmrig

open Foundation
open Cryptonote.WalletAddress (readVarint varintFrom_eq)

/-- The bytes that `while (k >= 0x80)` writes, and the last one behind the loop. -/
def putVarint {width : Nat} (k : BitVec width) : List Byte :=
  if 0x80 ≤ k.toNat then ((k.setWidth 8 &&& 0x7F#8) ||| 0x80#8) :: putVarint (k >>> 7) else [k.setWidth 8]
termination_by k.toNat
decreasing_by
  rw [BitVec.toNat_ushiftRight, Nat.shiftRight_eq_div_pow]
  omega

theorem toNat_low7 (byte : Byte) : (byte &&& 0x7f).toNat = byte.toNat % 128 := by
  rw [BitVec.toNat_and]
  exact Nat.and_two_pow_sub_one_eq_mod byte.toNat 7

theorem toNat_more {width : Nat} (k : BitVec width) :
    ((k.setWidth 8 &&& 0x7F#8) ||| 0x80#8).toNat = k.toNat % 128 + 128 := by
  have low : (k.setWidth 8 &&& 0x7F#8).toNat = k.toNat % 128 := by
    have seven : (k.setWidth 8 &&& 0x7F#8).toNat = (k.setWidth 8).toNat % 128 := toNat_low7 (k.setWidth 8)
    rw [seven, BitVec.toNat_setWidth]
    omega
  rw [BitVec.toNat_or, low, Nat.or_comm]
  change 2 ^ 7 * 1 ||| k.toNat % 128 = _
  rw [← Nat.two_pow_add_eq_or_of_lt (Nat.mod_lt _ (by decide))]
  omega

theorem putVarint_eq {width : Nat} (k : BitVec width) : putVarint k = varint k.toNat := by
  induction n : k.toNat using Nat.strongRecOn generalizing k with
  | ind n ih =>
    subst n
    rw [putVarint, varint]
    by_cases more : 0x80 ≤ k.toNat
    · have shifted : (k >>> 7).toNat = k.toNat / 128 := by
        rw [BitVec.toNat_ushiftRight, Nat.shiftRight_eq_div_pow]
      rw [if_pos more, if_neg (Nat.not_lt.mpr more), ih _ (by omega) (k >>> 7) rfl, shifted]
      congr 1
      apply BitVec.eq_of_toNat_eq
      rw [toNat_more, BitVec.toNat_ofNat]
      omega
    · rw [if_neg more, if_pos (Nat.not_le.mp more)]
      congr 1
      apply BitVec.eq_of_toNat_eq
      rw [BitVec.toNat_setWidth, BitVec.toNat_ofNat]

theorem last_iff (byte : Byte) : byte &&& 0x80 = 0 ↔ byte.toNat < 128 := by
  revert byte
  decide

theorem toNat_or_shifted {width : Nat} {sum : BitVec width} {byte : Byte} {shift : Nat} (bytes : 8 ≤ width)
    (low : sum.toNat < 2 ^ shift) (fits : byte.toNat % 128 * 2 ^ shift < 2 ^ width) :
    (sum ||| ((byte &&& 0x7f).setWidth width <<< shift)).toNat = sum.toNat + byte.toNat % 128 * 2 ^ shift := by
  have wide : 2 ^ 8 ≤ 2 ^ width := Nat.pow_le_pow_right (by decide) bytes
  have narrow : byte.toNat % 128 < 2 ^ width := by omega
  rw [BitVec.toNat_or, BitVec.toNat_shiftLeft, BitVec.toNat_setWidth, toNat_low7, Nat.mod_eq_of_lt narrow,
    Nat.shiftLeft_eq, Nat.mod_eq_of_lt fits, Nat.or_comm, Nat.mul_comm, ← Nat.two_pow_add_eq_or_of_lt low, Nat.add_comm]

/-- The shift count does not matter for a group without a bit. -/
theorem or_shifted_zero {width : Nat} (sum : BitVec width) {byte : Byte} (shift : Nat)
    (zero : byte.toNat % 128 = 0) : sum ||| ((byte &&& 0x7f).setWidth width <<< shift) = sum := by
  have empty : byte &&& 0x7f = 0#8 := BitVec.eq_of_toNat_eq (by rw [toNat_low7, zero]; rfl)
  rw [empty, BitVec.setWidth_zero, BitVec.zero_shiftLeft, BitVec.or_zero]

theorem toNat_or_round {sum : BitVec 64} {byte : Byte} {shift : Nat} (low : sum.toNat < 2 ^ shift)
    (fits : byte.toNat % 128 * 2 ^ shift < 2 ^ 64) :
    (sum ||| ((byte &&& 0x7f).setWidth 64 <<< (shift % 64))).toNat = sum.toNat + byte.toNat % 128 * 2 ^ shift := by
  by_cases zero : byte.toNat % 128 = 0
  · rw [or_shifted_zero sum _ zero, zero, Nat.zero_mul, Nat.add_zero]
  · have positive : 2 ^ shift ≤ byte.toNat % 128 * 2 ^ shift :=
      Nat.le_mul_of_pos_left _ (Nat.pos_of_ne_zero zero)
    have short : shift < 64 := (Nat.pow_lt_pow_iff_right (by decide)).mp (Nat.lt_of_le_of_lt positive fits)
    rw [Nat.mod_eq_of_lt short]
    exact toNat_or_shifted (by decide) low fits

theorem readVarint_endless {data : List Byte} (endless : varintValue data = none) (sum : BitVec 64) (shift : Nat) :
    readVarint sum shift data = none := by
  induction data generalizing sum shift with
  | nil => rfl
  | cons byte rest ih =>
    rw [varintValue] at endless
    split at endless
    · cases endless
    · rename_i more
      rw [readVarint, if_neg (fun last => more ((last_iff byte).mp last)), ih (Option.map_eq_none_iff.mp endless)]
      rfl

theorem readVarint_value {data : List Byte} {value size : Nat} (stands : varintValue data = some (value, size))
    {sum : BitVec 64} {shift : Nat} (low : sum.toNat < 2 ^ shift) (fits : sum.toNat + value * 2 ^ shift < 2 ^ 64) :
    ∃ word, readVarint sum shift data = some (word, size) ∧ word.toNat = sum.toNat + value * 2 ^ shift := by
  induction data generalizing value size sum shift with
  | nil => cases stands
  | cons byte rest ih =>
    rw [varintValue] at stands
    split at stands
    · rename_i last
      cases stands
      have same : byte.toNat % 128 = byte.toNat := Nat.mod_eq_of_lt last
      have added := @toNat_or_round sum byte shift low (by rw [same]; omega)
      rw [same] at added
      rw [readVarint, if_pos ((last_iff byte).mpr last)]
      exact ⟨_, rfl, added⟩
    · rename_i more
      obtain ⟨⟨high, used⟩, later, made⟩ := Option.map_eq_some_iff.mp stands
      simp only [Prod.mk.injEq] at made
      obtain ⟨rfl, rfl⟩ := made
      have same : byte.toNat % 128 = byte.toNat - 128 := by omega
      have whole : (byte.toNat - 128 + 128 * high) * 2 ^ shift =
          (byte.toNat - 128) * 2 ^ shift + high * 2 ^ (shift + 7) := by ring
      have added := @toNat_or_round sum byte shift low (by rw [same]; omega)
      rw [same] at added
      have next : (byte.toNat - 128) * 2 ^ shift ≤ 127 * 2 ^ shift := Nat.mul_le_mul_right _ (by omega)
      have seven : 2 ^ (shift + 7) = 128 * 2 ^ shift := by ring
      obtain ⟨word, read, total⟩ := @ih _ _ later (sum ||| ((byte &&& 0x7f).setWidth 64 <<< (shift % 64)))
        (shift + 7) (by omega) (by omega)
      rw [readVarint, if_neg (fun last => more ((last_iff byte).mp last))]
      refine ⟨word, ?_, by omega⟩
      simp only [read, Option.map_some]

theorem getVarint_behind (before rest : List Byte) :
    (⟨0, (before ++ rest).length, before.length⟩ : BlobReader).getVarint (before ++ rest) =
      match readVarint 0 0 rest with
      | none => .error .outOfRange
      | some (tag, size) => .ok (tag, ⟨0, (before ++ rest).length, before.length + size⟩) := by
  apply varintFrom_eq
  have left : (⟨0, (before ++ rest).length, before.length⟩ : BlobReader).remaining = rest.length := by
    rw [BlobReader.remaining, List.length_append, Nat.add_sub_cancel_left]
  omega

theorem getVarint_value (before : List Byte) {rest : List Byte} {value size : Nat}
    (stands : varintValue rest = some (value, size)) (word : value < 2 ^ 64) :
    ∃ tag, (⟨0, (before ++ rest).length, before.length⟩ : BlobReader).getVarint (before ++ rest) =
      .ok (tag, ⟨0, (before ++ rest).length, before.length + size⟩) ∧ tag.toNat = value := by
  have total : (0 : BitVec 64).toNat + value * 2 ^ 0 = value := by
    rw [pow_zero, Nat.mul_one]
    exact Nat.zero_add value
  obtain ⟨tag, read, same⟩ := @readVarint_value rest value size stands 0 0 (by decide) (by rw [total]; exact word)
  refine ⟨tag, ?_, same.trans total⟩
  rw [getVarint_behind, read]

/-- Bytes without an end are refused, behind any bytes. -/
theorem getVarint_endless (before : List Byte) {rest : List Byte} (endless : varintValue rest = none) :
    (⟨0, (before ++ rest).length, before.length⟩ : BlobReader).getVarint (before ++ rest) = .error .outOfRange := by
  rw [getVarint_behind, readVarint_endless endless]

end Xmrig
