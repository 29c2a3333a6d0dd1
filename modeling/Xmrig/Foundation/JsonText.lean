import Mathlib.Data.Nat.Digits.Lemmas

/-! JSON texts without blanks, and the writer of a value.

The grammar is over bytes, so that a text is what stands in a buffer. Bytes from 128
on are characters of a string; their encoding is not looked at.
-/

set_option autoImplicit false

namespace Foundation.JsonText

abbrev Text := List (BitVec 8)

/-! ## Grammar -/

def IsDigit (char : BitVec 8) : Prop := 48 ≤ char.toNat ∧ char.toNat ≤ 57

def IsHexDigit (char : BitVec 8) : Prop :=
  IsDigit char ∨ (65 ≤ char.toNat ∧ char.toNat ≤ 70) ∨ (97 ≤ char.toNat ∧ char.toNat ≤ 102)

def IsDigits (text : Text) : Prop := text ≠ [] ∧ ∀ char ∈ text, IsDigit char

/-- The digits of a whole number: a zero leads only by itself. -/
def IsWhole (text : Text) : Prop := text = [48] ∨ (IsDigits text ∧ text.head? ≠ some 48)

def IsFraction (text : Text) : Prop := text = [] ∨ ∃ digits, IsDigits digits ∧ text = 46 :: digits

def IsExponent (text : Text) : Prop :=
  text = [] ∨ ∃ letter sign digits, (letter = 69 ∨ letter = 101) ∧ (sign = [] ∨ sign = [43] ∨ sign = [45]) ∧
    IsDigits digits ∧ text = letter :: (sign ++ digits)

inductive IsNumber : Text → Prop where
  | mk {sign whole fraction exponent : Text} : (sign = [] ∨ sign = [45]) → IsWhole whole → IsFraction fraction →
      IsExponent exponent → IsNumber (sign ++ whole ++ fraction ++ exponent)

/-- What stands between the quotes of a string. -/
inductive IsChars : Text → Prop where
  | nil : IsChars []
  | plain {char : BitVec 8} {rest : Text} : 32 ≤ char.toNat → char ≠ 34 → char ≠ 92 → IsChars rest →
      IsChars (char :: rest)
  | escape {char : BitVec 8} {rest : Text} : char ∈ [34#8, 92, 47, 98, 102, 110, 114, 116] → IsChars rest →
      IsChars (92 :: char :: rest)
  | unicode {first second third fourth : BitVec 8} {rest : Text} : IsHexDigit first → IsHexDigit second →
      IsHexDigit third → IsHexDigit fourth → IsChars rest →
      IsChars (92 :: 117 :: first :: second :: third :: fourth :: rest)

inductive IsString : Text → Prop where
  | mk {chars : Text} : IsChars chars → IsString (34 :: (chars ++ [34]))

mutual

inductive IsJson : Text → Prop where
  | null : IsJson [110, 117, 108, 108]
  | true : IsJson [116, 114, 117, 101]
  | false : IsJson [102, 97, 108, 115, 101]
  | number {text : Text} : IsNumber text → IsJson text
  | string {text : Text} : IsString text → IsJson text
  | emptyArray : IsJson [91, 93]
  | array {items : Text} : IsItems items → IsJson (91 :: (items ++ [93]))
  | emptyObject : IsJson [123, 125]
  | object {members : Text} : IsMembers members → IsJson (123 :: (members ++ [125]))

inductive IsItems : Text → Prop where
  | one {item : Text} : IsJson item → IsItems item
  | more {item rest : Text} : IsJson item → IsItems rest → IsItems (item ++ 44 :: rest)

inductive IsMembers : Text → Prop where
  | one {key value : Text} : IsString key → IsJson value → IsMembers (key ++ 58 :: value)
  | more {key value rest : Text} : IsString key → IsJson value → IsMembers rest →
      IsMembers (key ++ 58 :: (value ++ 44 :: rest))

end

/-! ## Values and their texts -/

/-- The decimal text of a number that is no integer. -/
structure Decimal where
  text : Text
  number : IsNumber text

inductive Value where
  | null
  | bool (value : Bool)
  | int (value : Int)
  | double (value : Decimal)
  | string (chars : Text)
  | array (items : List Value)
  | object (members : List (Text × Value))

def writeNat (number : Nat) : Text :=
  if number = 0 then [48] else (Nat.digits 10 number).reverse.map fun digit => BitVec.ofNat 8 (48 + digit)

def writeInt (number : Int) : Text :=
  if number < 0 then 45 :: writeNat number.natAbs else writeNat number.natAbs

def hexChar (nibble : BitVec 8) : BitVec 8 := if nibble.toNat < 10 then 48 + nibble else 55 + nibble

/-- A character of a string, with the short escapes where there is one. -/
def writeChar (char : BitVec 8) : Text :=
  if char = 34 then [92, 34]
  else if char = 92 then [92, 92]
  else if char = 8 then [92, 98]
  else if char = 9 then [92, 116]
  else if char = 10 then [92, 110]
  else if char = 12 then [92, 102]
  else if char = 13 then [92, 114]
  else if char.toNat < 32 then [92, 117, 48, 48, hexChar (char >>> 4), hexChar (char &&& 0xf)]
  else [char]

def writeString (chars : Text) : Text := 34 :: (chars.flatMap writeChar ++ [34])

mutual

def write : Value → Text
  | .null => [110, 117, 108, 108]
  | .bool value => if value then [116, 114, 117, 101] else [102, 97, 108, 115, 101]
  | .int value => writeInt value
  | .double value => value.text
  | .string chars => writeString chars
  | .array items => 91 :: (writeItems items ++ [93])
  | .object members => 123 :: (writeMembers members ++ [125])

def writeItems : List Value → Text
  | [] => []
  | item :: rest => write item ++ (if rest.isEmpty then [] else 44 :: writeItems rest)

def writeMembers : List (Text × Value) → Text
  | [] => []
  | (key, value) :: rest =>
    writeString key ++ 58 :: (write value ++ (if rest.isEmpty then [] else 44 :: writeMembers rest))

end

theorem isDigit_digit {digit : Nat} (small : digit < 10) : IsDigit (BitVec.ofNat 8 (48 + digit)) := by
  rw [IsDigit, BitVec.toNat_ofNat]
  omega

theorem isWhole_writeNat (number : Nat) : IsWhole (writeNat number) := by
  unfold writeNat
  split
  · exact .inl rfl
  · rename_i nonzero
    have given : Nat.digits 10 number ≠ [] := Nat.digits_ne_nil_iff_ne_zero.mpr nonzero
    refine .inr ⟨⟨by simpa using given, ?_⟩, ?_⟩
    · intro char listed
      obtain ⟨digit, member, rfl⟩ := List.mem_map.mp listed
      exact isDigit_digit (Nat.digits_lt_base (by decide) (List.mem_reverse.mp member))
    · rw [List.head?_map, List.head?_reverse, List.getLast?_eq_some_getLast given, Option.map_some]
      have leading := Nat.getLast_digit_ne_zero 10 nonzero
      have small := Nat.digits_lt_base (b := 10) (by decide) (List.getLast_mem given)
      intro zero
      have value := congrArg BitVec.toNat (Option.some.inj zero)
      rw [BitVec.toNat_ofNat] at value
      change (48 + (Nat.digits 10 number).getLast given) % 2 ^ 8 = 48 at value
      omega

theorem isNumber_writeInt (number : Int) : IsNumber (writeInt number) := by
  have whole := isWhole_writeNat number.natAbs
  unfold writeInt
  split
  · have signed := @IsNumber.mk [45] _ [] [] (.inr rfl) whole (.inl rfl) (.inl rfl)
    simpa using signed
  · have plain := @IsNumber.mk [] _ [] [] (.inl rfl) whole (.inl rfl) (.inl rfl)
    simpa using plain

theorem isChars_of_plain {chars : Text} (plain : ∀ char ∈ chars, 32 ≤ char.toNat ∧ char ≠ 34 ∧ char ≠ 92) :
    IsChars chars := by
  induction chars with
  | nil => exact .nil
  | cons char rest ih =>
    rw [List.forall_mem_cons] at plain
    obtain ⟨⟨printable, quote, backslash⟩, rest⟩ := plain
    exact .plain printable quote backslash (ih rest)

theorem isHexDigit_hexChar : ∀ char : BitVec 8,
    IsHexDigit (hexChar (char >>> 4)) ∧ IsHexDigit (hexChar (char &&& 0xf)) := by
  unfold IsHexDigit IsDigit
  decide

theorem isChars_writeChar (char : BitVec 8) {rest : Text} (more : IsChars rest) :
    IsChars (writeChar char ++ rest) := by
  have hex := isHexDigit_hexChar char
  have zero : IsHexDigit 48 := .inl ⟨by decide, by decide⟩
  unfold writeChar
  split_ifs with quote backslash
  · exact .escape (by decide) more
  · exact .escape (by decide) more
  · exact .escape (by decide) more
  · exact .escape (by decide) more
  · exact .escape (by decide) more
  · exact .escape (by decide) more
  · exact .escape (by decide) more
  · exact .unicode zero zero hex.1 hex.2 more
  · exact .plain (by omega) quote backslash more

theorem isString_writeString (chars : Text) : IsString (writeString chars) := by
  apply IsString.mk
  induction chars with
  | nil => exact .nil
  | cons char rest ih =>
    rw [List.flatMap_cons]
    exact isChars_writeChar char ih

mutual

theorem isJson_write : (value : Value) → IsJson (write value)
  | .null => by rw [write]; exact .null
  | .bool true => by rw [write]; exact .true
  | .bool false => by rw [write]; exact .false
  | .int value => by rw [write]; exact .number (isNumber_writeInt value)
  | .double value => by rw [write]; exact .number value.number
  | .string chars => by rw [write]; exact .string (isString_writeString chars)
  | .array [] => .emptyArray
  | .array (item :: rest) => by rw [write]; exact .array (isItems_writeItems (item :: rest) (by simp))
  | .object [] => .emptyObject
  | .object (member :: rest) => by rw [write]; exact .object (isMembers_writeMembers (member :: rest) (by simp))

theorem isItems_writeItems : (items : List Value) → items ≠ [] → IsItems (writeItems items)
  | [], empty => absurd rfl empty
  | [item], _ => by
    rw [writeItems, List.isEmpty_nil, if_pos rfl, List.append_nil]
    exact .one (isJson_write item)
  | item :: next :: rest, _ => by
    rw [writeItems, List.isEmpty_cons, if_neg Bool.false_ne_true]
    exact .more (isJson_write item) (isItems_writeItems (next :: rest) (by simp))

theorem isMembers_writeMembers : (members : List (Text × Value)) → members ≠ [] → IsMembers (writeMembers members)
  | [], empty => absurd rfl empty
  | [(key, value)], _ => by
    rw [writeMembers, List.isEmpty_nil, if_pos rfl, List.append_nil]
    exact .one (isString_writeString key) (isJson_write value)
  | (key, value) :: next :: rest, _ => by
    rw [writeMembers, List.isEmpty_cons, if_neg Bool.false_ne_true]
    exact .more (isString_writeString key) (isJson_write value) (isMembers_writeMembers (next :: rest) (by simp))

end

end Foundation.JsonText
