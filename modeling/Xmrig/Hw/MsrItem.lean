import Mathlib.Data.List.TakeWhile
import Xmrig.Backend.CpuThreads
import Xmrig.Base.Cvt
import Xmrig.Foundation.Numerals

/-! One entry of an MSR preset and its text.

The text is printed into 48 bytes, the last of which is the terminating zero.
-/

set_option autoImplicit false

namespace Xmrig

open Foundation.Numerals

/-- The base that the text of a number shows, and what is read to it. -/
def splitRadix : List Byte → Nat × List Byte
  | 48#8 :: x :: char :: rest =>
    if (x = 120 ∨ x = 88) ∧ (digit 16 char).isSome then (16, char :: rest) else (8, 48#8 :: x :: char :: rest)
  | 48#8 :: rest => (8, 48#8 :: rest)
  | chars => (10, chars)

/-- `strtoul(.., nullptr, 0)` of a type with so many bits. -/
def strtoul (width : Nat) (chars : List Byte) : BitVec width :=
  let (negative, rest) := splitSign (chars.dropWhile isSpace)
  let (base, rest) := splitRadix rest
  match readDigits base rest with
  | none => 0
  | some magnitude =>
    if 2 ^ width ≤ magnitude then BitVec.allOnes width
    else if negative then -BitVec.ofNat width magnitude else BitVec.ofNat width magnitude

structure MsrItem where
  reg : BitVec 32 := 0
  value : BitVec 64 := 0
  mask : BitVec 64 := BitVec.allOnes 64
  deriving DecidableEq, Repr

namespace MsrItem

def kNoMask : BitVec 64 := BitVec.allOnes 64

def isValid (item : MsrItem) : Bool := 0 < item.reg

/-- `MsrItem::MsrItem`, with so many bits in `unsigned long`. -/
def ofJson (long : Nat) (json : Json) : MsrItem :=
  match json.asString with
  | none => {}
  | some chars =>
    match split 58 chars with
    | reg :: value :: rest =>
      { reg := (strtoul long reg).setWidth 32
        value := strtoul 64 value
        mask := (rest.head?.map (strtoul 64)).getD kNoMask }
    | _ => {}

/-- `0x%x`. -/
def hexText {width : Nat} (number : BitVec width) : List Byte := text "0x" ++ writeDigits 16 number.toNat

/-- What `snprintf` formats. -/
def format (item : MsrItem) : List Byte :=
  if item.mask ≠ kNoMask then
    hexText item.reg ++ 58 :: (hexText item.value ++ 58 :: hexText item.mask)
  else hexText item.reg ++ 58 :: hexText item.value

def toString (item : MsrItem) : List Byte := item.format.take 47

def toJSON (item : MsrItem) : Json := .str item.toString

/-- The text has a digit more than there is room for. -/
def Cut (item : MsrItem) : Prop :=
  2 ^ 28 ≤ item.reg.toNat ∧ 2 ^ 60 ≤ item.value.toNat ∧ 2 ^ 60 ≤ item.mask.toNat ∧ item.mask ≠ kNoMask

instance (item : MsrItem) : Decidable item.Cut := inferInstanceAs (Decidable (_ ∧ _ ∧ _ ∧ _))

end MsrItem

/-! ## Numbers in text -/

section Numbers
variable {width : Nat}

theorem strtoul_digits {number : Nat} (fits : number < 2 ^ width) :
    strtoul width (text "0x" ++ writeDigits 16 number) = BitVec.ofNat width number := by
  have read := @readDigits_writeDigits 16 (by decide) (by decide) number [] (fun char none => by cases none)
  rw [List.append_nil] at read
  have radix : splitRadix (text "0x" ++ writeDigits 16 number) = (16, writeDigits 16 number) := by
    cases digits : writeDigits 16 number with
    | nil => exact absurd digits writeDigits_ne_nil
    | cons char rest =>
      obtain ⟨value, small, rfl⟩ := @mem_writeDigits 16 number (by decide) char (by rw [digits]; exact List.mem_cons_self)
      have valid : (digit 16 (digitChar value)).isSome = true := by
        rw [digit_digitChar (Nat.le_refl _) small]
        rfl
      change (if ((120 : Byte) = 120 ∨ (120 : Byte) = 88) ∧ _ then _ else _) = _
      rw [if_pos ⟨.inl rfl, valid⟩]
  have sign : splitSign ((text "0x" ++ writeDigits 16 number).dropWhile isSpace) =
      (false, text "0x" ++ writeDigits 16 number) := rfl
  simp only [strtoul, sign, radix, read, if_neg (Nat.not_le.mpr fits)]
  rfl

theorem strtoul_hexText (number : BitVec width) : strtoul width (MsrItem.hexText number) = number := by
  rw [MsrItem.hexText, strtoul_digits number.isLt, BitVec.ofNat_toNat, BitVec.setWidth_eq]

theorem strtoul_hexText_wide {long : Nat} (wide : width ≤ long) (number : BitVec width) :
    (strtoul long (MsrItem.hexText number)).setWidth width = number := by
  have fits : number.toNat < 2 ^ long := Nat.lt_of_lt_of_le number.isLt (Nat.pow_le_pow_right (by decide) wide)
  rw [MsrItem.hexText, strtoul_digits fits]
  apply BitVec.eq_of_toNat_eq
  rw [BitVec.toNat_setWidth, BitVec.toNat_ofNat, Nat.mod_eq_of_lt fits, Nat.mod_eq_of_lt number.isLt]

theorem separator_free (number : Nat) :
    (58 : Byte) ∉ text "0x" ++ writeDigits 16 number ∧ (0 : Byte) ∉ text "0x" ++ writeDigits 16 number := by
  have letters : ∀ value < 16, digitChar value ≠ 58 ∧ digitChar value ≠ 0 := by decide
  constructor
  · intro member
    rcases List.mem_append.mp member with front | digits
    · revert front
      decide
    · obtain ⟨value, small, same⟩ := mem_writeDigits (by decide) digits
      exact (letters value small).1 same.symm
  · intro member
    rcases List.mem_append.mp member with front | digits
    · revert front
      decide
    · obtain ⟨value, small, same⟩ := mem_writeDigits (by decide) digits
      exact (letters value small).2 same.symm

end Numbers

/-! ## The text of an item -/

namespace MsrItem

/-- A text without separators and zeros. -/
def Piece (chars : List Byte) : Prop := chars ≠ [] ∧ (58 : Byte) ∉ chars ∧ (0 : Byte) ∉ chars

theorem piece_digits (number : Nat) : Piece (text "0x" ++ writeDigits 16 number) :=
  ⟨List.cons_ne_nil _ _, separator_free number⟩

theorem piece_hexText {width : Nat} (number : BitVec width) : Piece (hexText number) := piece_digits number.toNat

theorem split_one {chars : List Byte} (piece : Piece chars) : split 58 chars = [chars] := by
  rw [split, if_neg (by simpa using piece.1), List.splitOn_eq_singleton piece.2.1]
  simpa using piece.1

theorem split_more {chars rest : List Byte} (piece : Piece chars) (more : rest ≠ []) :
    split 58 (chars ++ 58 :: rest) = chars :: split 58 rest := by
  have filled : (chars ++ 58 :: rest).isEmpty = false := by simp
  rw [split, split, if_neg (by rw [filled]; decide), if_neg (by simpa using more),
    List.splitOn_append_cons_self_of_not_mem piece.2.1, List.filter_cons_of_pos]
  simpa using piece.1

theorem cString_piece {chars : List Byte} (free : (0 : Byte) ∉ chars) : Json.cString chars = chars := by
  rw [Json.cString, List.takeWhile_eq_self_iff]
  intro char member
  have other : char ≠ 0 := by
    rintro rfl
    exact free member
  simpa using other

theorem ofJson_three {long : Nat} {first second third : List Byte} (one : Piece first) (two : Piece second)
    (three : Piece third) :
    ofJson long (.str (first ++ 58 :: (second ++ 58 :: third))) =
      ⟨(strtoul long first).setWidth 32, strtoul 64 second, strtoul 64 third⟩ := by
  have free : (0 : Byte) ∉ first ++ 58 :: (second ++ 58 :: third) := by
    simpa using ⟨one.2.2, two.2.2, three.2.2⟩
  simp only [ofJson, Json.asString, cString_piece free]
  rw [split_more one (by simp), split_more two three.1, split_one three]
  rfl

theorem ofJson_two {long : Nat} {first second : List Byte} (one : Piece first) (two : Piece second) :
    ofJson long (.str (first ++ 58 :: second)) = ⟨(strtoul long first).setWidth 32, strtoul 64 second, kNoMask⟩ := by
  have free : (0 : Byte) ∉ first ++ 58 :: second := by
    simpa using ⟨one.2.2, two.2.2⟩
  simp only [ofJson, Json.asString, cString_piece free]
  rw [split_more one two.1, split_one two]
  rfl

theorem ofJson_format {long : Nat} (wide : 32 ≤ long) (item : MsrItem) : ofJson long (.str item.format) = item := by
  unfold format
  split
  · rw [ofJson_three (piece_hexText _) (piece_hexText _) (piece_hexText _), strtoul_hexText_wide wide, strtoul_hexText,
      strtoul_hexText]
  · rename_i full
    rw [ofJson_two (piece_hexText _) (piece_hexText _), strtoul_hexText_wide wide, strtoul_hexText,
      ← not_not.mp full]

theorem hexText_length_le {width : Nat} (number : BitVec width) (groups : Nat) :
    (hexText number).length ≤ groups + 3 ↔ number.toNat < 16 ^ (groups + 1) := by
  rw [← writeDigits_length_le (by decide), hexText, List.length_append]
  change 2 + _ ≤ _ ↔ _
  omega

/-- The text fits unless all three numbers have all their digits. -/
theorem format_length (item : MsrItem) : item.format.length ≤ 48 ∧ (item.format.length ≤ 47 ↔ ¬ item.Cut) := by
  have reg := (hexText_length_le item.reg 7).mpr item.reg.isLt
  have value := (hexText_length_le item.value 15).mpr item.value.isLt
  have mask := (hexText_length_le item.mask 15).mpr item.mask.isLt
  have shortReg := hexText_length_le item.reg 6
  have shortValue := hexText_length_le item.value 14
  have shortMask := hexText_length_le item.mask 14
  unfold format Cut
  split
  · rename_i masked
    simp only [List.length_append, List.length_cons]
    have seven : (16 : Nat) ^ (6 + 1) = 2 ^ 28 := by decide
    have fifteen : (16 : Nat) ^ (14 + 1) = 2 ^ 60 := by decide
    rw [seven] at shortReg
    rw [fifteen] at shortValue shortMask
    simp only [masked, ne_eq, not_false_eq_true, and_true]
    omega
  · rename_i full
    simp only [List.length_append, List.length_cons]
    refine ⟨by omega, iff_of_true (by omega) fun cut => full cut.2.2.2⟩

theorem toString_cut {item : MsrItem} (cut : item.Cut) :
    item.toString = hexText item.reg ++ 58 :: (hexText item.value ++ 58 :: (text "0x" ++
      writeDigits 16 (item.mask.toNat / 16))) := by
  have long : item.format.length = 48 := by
    have length := item.format_length
    have longer := not_iff_not.mpr length.2
    rw [not_not] at longer
    have more := longer.mpr cut
    omega
  have last : item.format = (hexText item.reg ++ 58 :: (hexText item.value ++ 58 :: (text "0x" ++
      writeDigits 16 (item.mask.toNat / 16)))) ++ [digitChar (item.mask.toNat % 16)] := by
    have large : 16 ≤ item.mask.toNat := le_trans (by decide) cut.2.2.1
    rw [format, if_pos cut.2.2.2, hexText, hexText, hexText, writeDigits_div (by decide) large]
    simp only [List.append_assoc, List.cons_append]
  have all : item.toString = item.format.dropLast := by
    rw [toString, List.dropLast_eq_take, long]
  rw [all, last, List.dropLast_concat]

/-- An item is read back from its text unless the text was cut. -/
theorem ofJson_toString {long : Nat} (wide : 32 ≤ long) (item : MsrItem) :
    ofJson long (.str item.toString) = item ↔ ¬ item.Cut := by
  constructor
  · intro same cut
    have bound := item.mask.isLt
    have large := cut.2.2.1
    have fits : item.mask.toNat / 16 < 2 ^ 64 := by omega
    rw [toString_cut cut, ofJson_three (piece_hexText _) (piece_hexText _) (piece_digits _), strtoul_digits fits] at same
    have mask := congrArg (fun item => item.mask.toNat) same
    simp only [BitVec.toNat_ofNat, Nat.mod_eq_of_lt fits] at mask
    omega
  · intro whole
    have short := item.format_length.2.mpr whole
    rw [toString, List.take_of_length_le short, ofJson_format wide]

end MsrItem

end Xmrig
