import Xmrig.Base.Job

/-! Hexadecimal decoding into a caller's buffer.

The decoder writes bytes as it goes, so a rejected text leaves the bytes decoded
before the rejection in the buffer. Characters are bytes of a C string.
-/

set_option autoImplicit false

namespace Xmrig.Cvt

/-- The value of one hex digit, computed without branches as the source does it. -/
def digit (c : Byte) : Option Byte :=
  let num := c ^^^ 48
  let num0 := ((num.setWidth 32 - 10#32) >>> 8).setWidth 8
  let alpha := (c &&& ~~~32#8) - 55
  let alpha0 := (((alpha.setWidth 32 - 10#32) ^^^ (alpha.setWidth 32 - 16#32)) >>> 8).setWidth 8
  if num0 ||| alpha0 = 0 then none else some ((num0 &&& num) ||| (alpha0 &&& alpha))

/-- What `cvt_hex2bin` wrote and whether it succeeded. -/
structure Decoded where
  written : List Byte
  ok : Bool
  deriving DecidableEq, Repr

/-- `cvt_hex2bin` with neither ignored characters nor an end pointer. `high` is the
nibble that waits for its second half, `capacity` the room left behind `bin_pos`. -/
def hex2bin : List Byte → (capacity : Nat) → (high : Option Byte) → Decoded
  | [], _, high => ⟨[], high = none⟩
  | c :: rest, capacity, high =>
    match digit c with
    | none => ⟨[], false⟩
    | some value =>
      if capacity = 0 then ⟨[], false⟩
      else match high with
        | none => hex2bin rest capacity (some (value * 16))
        | some upper =>
          let tail := hex2bin rest (capacity - 1) none
          ⟨(upper ||| value) :: tail.written, tail.ok⟩

/-- The lower-case character of a nibble, as `cvt_bin2hex` computes it. -/
def hexDigit (c : Byte) : Byte :=
  (87#32 + c.setWidth 32 + (((c.setWidth 32 - 10#32) >>> 8) &&& ~~~38#32)).setWidth 8

/-- The characters that `toHex` writes. -/
def toHex (bin : List Byte) : List Byte :=
  bin.flatMap fun byte : Byte => [hexDigit (byte >>> 4), hexDigit (byte &&& 0xf)]

/-- `std::vector::resize`: the kept bytes stay and new ones are zero. -/
def resize (bytes : List Byte) (size : Nat) : List Byte :=
  bytes.take size ++ List.replicate (size - bytes.length) 0

def fromHex (buf hex : List Byte) : List Byte × Bool :=
  if hex.length = 0 then (buf, false)
  else
    let decoded := hex2bin hex (hex.length / 2) none
    (decoded.written ++ (resize buf (hex.length / 2)).drop decoded.written.length, decoded.ok)

@[simp] theorem toHex_length (bin : List Byte) : (toHex bin).length = 2 * bin.length := by
  induction bin with
  | nil => rfl
  | cons byte rest ih =>
    simp only [toHex, List.flatMap_cons, List.length_append, List.length_cons, List.length_nil] at ih ⊢
    omega

@[simp] theorem resize_length (bytes : List Byte) (size : Nat) :
    (resize bytes size).length = size := by
  simp only [resize, List.length_append, List.length_take, List.length_replicate]
  omega

theorem hex2bin_written_le (hex : List Byte) (capacity : Nat) (high : Option Byte) :
    (hex2bin hex capacity high).written.length ≤ capacity := by
  induction hex generalizing capacity high with
  | nil => simp [hex2bin]
  | cons c rest ih =>
    simp only [hex2bin]
    split
    · simp
    · split
      · simp
      · cases high with
        | none => exact ih capacity _
        | some upper =>
          have room := ih (capacity - 1) none
          simp only [List.length_cons]
          omega

theorem fromHex_length (buf hex : List Byte) (nonempty : hex.length ≠ 0) :
    (fromHex buf hex).1.length = hex.length / 2 := by
  have room := hex2bin_written_le hex (hex.length / 2) none
  simp only [fromHex, if_neg nonempty, List.length_append, List.length_drop, resize_length]
  omega

theorem hex2bin_ok_length {hex : List Byte} {capacity : Nat} {high : Option Byte}
    (ok : (hex2bin hex capacity high).ok = true) :
    2 * (hex2bin hex capacity high).written.length = hex.length + (if high.isSome then 1 else 0) := by
  induction hex generalizing capacity high with
  | nil =>
    have waiting : high = none := by simpa [hex2bin] using ok
    simp [hex2bin, waiting]
  | cons c rest ih =>
    simp only [hex2bin] at ok ⊢
    split at ok
    · cases ok
    · rename_i value known
      split at ok
      · cases ok
      · rename_i room
        simp only [room, if_false]
        cases high with
        | none =>
          have tail := ih ok
          simp only [Option.isSome_some, if_true] at tail
          simp only [tail, List.length_cons, Option.isSome_none]
          simp
        | some upper =>
          have tail := ih ok
          simp only [Option.isSome_none] at tail
          simp only [List.length_cons, Option.isSome_some, if_true]
          simp only [Bool.false_eq_true, if_false] at tail
          omega

/-- The texts that are accepted: digits only, in pairs, and not more than there is room for. -/
theorem hex2bin_ok_iff (hex : List Byte) (capacity : Nat) (high : Option Byte) :
    (hex2bin hex capacity high).ok = true ↔ (∀ c ∈ hex, (digit c).isSome) ∧
      (hex.length + high.toList.length) % 2 = 0 ∧ hex.length + high.toList.length ≤ 2 * capacity := by
  induction hex generalizing capacity high with
  | nil => cases high <;> simp [hex2bin]
  | cons c rest ih =>
    simp only [hex2bin, List.forall_mem_cons, List.length_cons]
    cases known : digit c with
    | none => simp
    | some value =>
      by_cases full : capacity = 0
      · subst full
        simp only [if_true, Bool.false_eq_true, false_iff]
        omega
      · simp only [if_neg full]
        cases high with
        | none =>
          rw [ih]
          simp only [Option.toList_some, Option.toList_none, List.length_cons, List.length_nil, Option.isSome_some,
            true_and]
        | some upper =>
          simp only [ih, Option.toList_some, Option.toList_none, List.length_cons, List.length_nil,
            Option.isSome_some, true_and]
          constructor
          · rintro ⟨digits, even, room⟩
            exact ⟨digits, by omega, by omega⟩
          · rintro ⟨digits, even, room⟩
            exact ⟨digits, by omega, by omega⟩

theorem fromHex_ok_iff (buf hex : List Byte) :
    (fromHex buf hex).2 = true ↔ hex ≠ [] ∧ (∀ c ∈ hex, (digit c).isSome) ∧ hex.length % 2 = 0 := by
  unfold fromHex
  split
  · rename_i empty
    simp [List.length_eq_zero_iff.mp empty]
  · rename_i nonempty
    rw [hex2bin_ok_iff]
    simp only [Option.toList_none, List.length_nil, Nat.add_zero]
    constructor
    · rintro ⟨digits, even, -⟩
      exact ⟨fun empty => nonempty (by simp [empty]), digits, even⟩
    · rintro ⟨-, digits, even⟩
      exact ⟨digits, even, by omega⟩

theorem digit_hexDigit (byte : Byte) :
    (digit (hexDigit (byte >>> 4))).isSome ∧ (digit (hexDigit (byte &&& 0xf))).isSome := by
  revert byte
  decide

theorem digits_toHex (bin : List Byte) : ∀ c ∈ toHex bin, (digit c).isSome := by
  intro c listed
  simp only [toHex, List.mem_flatMap, List.mem_cons, List.not_mem_nil, or_false] at listed
  obtain ⟨byte, -, rfl | rfl⟩ := listed
  · exact (digit_hexDigit byte).1
  · exact (digit_hexDigit byte).2

theorem fromHex_of_ok {buf hex : List Byte} (ok : (fromHex buf hex).2 = true) (other : List Byte) :
    fromHex other hex = fromHex buf hex := by
  unfold fromHex at ok ⊢
  split at ok
  · cases ok
  · rename_i nonempty
    have whole := hex2bin_ok_length ok
    simp only [Option.isSome_none, Bool.false_eq_true, if_false, Nat.add_zero] at whole
    have full (bytes : List Byte) : (resize bytes (hex.length / 2)).drop
        (hex2bin hex (hex.length / 2) none).written.length = [] := by
      apply List.drop_eq_nil_of_le
      rw [resize_length]
      omega
    simp only [if_neg nonempty, full]

example : fromHex [] [48, 49, 102, 70] = ([1, 0xff], true) := by decide

end Xmrig.Cvt

namespace Xmrig

/-! Blanks and signs in front of numbers. -/

/-- `isspace` in the C locale. -/
def isSpace (char : Byte) : Bool := char = 32 ∨ (9 ≤ char ∧ char ≤ 13)

def splitSign : List Byte → Bool × List Byte
  | 45#8 :: rest => (true, rest)
  | 43#8 :: rest => (false, rest)
  | chars => (false, chars)

end Xmrig
