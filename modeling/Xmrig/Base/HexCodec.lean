import Xmrig.Base.Cvt
import Xmrig.Base.Names
import Xmrig.Foundation.Memory
import Mathlib.Logic.Function.Basic

/-! The hexadecimal codec on the memory of its callers.

The lists of `Cvt` are the contents that the loops leave behind; here the loops
write through a pointer, so that what they leave alone can be stated too.
-/

set_option autoImplicit false

namespace Xmrig.Cvt

open Foundation

/-- `SIZE_MAX / 2`. -/
def halfSize : Nat := (2 ^ 64 - 1) / 2

/-- The loop of `cvt_bin2hex` from the byte `i` on. -/
def bin2hexFrom : (bin : List Byte) → (i : Nat) → (hex : Memory) → Memory
  | [], _, hex => hex
  | byte :: rest, i, hex =>
    let first := Function.update hex (i * 2) (hexDigit (byte >>> 4))
    bin2hexFrom rest (i + 1) (Function.update first (i * 2 + 1) (hexDigit (byte &&& 0xf)))

/-- `cvt_bin2hex`. -/
def bin2hex (hex : Memory) (maxlen : Nat) (bin : List Byte) : Option Memory :=
  if halfSize ≤ bin.length ∨ maxlen < bin.length * 2 then none
  else
    let written := bin2hexFrom bin 0 hex
    some (if bin.length * 2 < maxlen then Function.update written (bin.length * 2) 0 else written)

def stringAt (memory : Memory) (size : Nat) : List Byte :=
  (memory.read size).takeWhile (· ≠ 0)

/-- `Cvt::toHex` into a new string; `fresh` is what `new` returned. -/
def toHexString (fresh : Memory) (bin : List Byte) : Option (List Byte) :=
  if bin.length = 0 then none
  else
    let maxlen := bin.length * 2 + 1
    (bin2hex fresh maxlen bin).map fun buf => stringAt buf maxlen

/-- The loop of `cvt_hex2bin` with `bin_pos` at `pos`. -/
def hex2binFrom (maxlen : Nat) : (hex : List Byte) → (bin : Memory) → (pos : Nat) →
    (high : Option Byte) → Memory × Bool
  | [], bin, _, high => (bin, high = none)
  | c :: rest, bin, pos, high =>
    match digit c with
    | none => (bin, false)
    | some value =>
      if maxlen ≤ pos then (bin, false)
      else match high with
        | none => hex2binFrom maxlen rest bin pos (some (value * 16))
        | some upper =>
          hex2binFrom maxlen rest (Function.update bin pos (upper ||| value)) (pos + 1) none

/-- `Cvt::fromHex` into a buffer of `maxlen` bytes. -/
def fromHexInto (bin : Memory) (maxlen : Nat) (hex : List Byte) : Memory × Bool :=
  if hex.length = 0 then (bin, false) else hex2binFrom maxlen hex bin 0 none

/-- The characters `0` to `9`, `a` to `f` and `A` to `F`. -/
def isHex (c : Byte) : Bool :=
  (48 ≤ c.toNat && c.toNat ≤ 57) || (97 ≤ c.toNat && c.toNat ≤ 102) || (65 ≤ c.toNat && c.toNat ≤ 70)

/-! ## Single characters -/

section Characters

theorem byte_tables :
    (∀ c : Byte, (digit c).isSome = isHex c) ∧
    (∀ c : Byte, (digit c).all fun value => value &&& 0xf#8 = value ∧ hexDigit value = toLower c) ∧
    (∀ byte : Byte, digit (hexDigit (byte &&& 0xf#8)) = some (byte &&& 0xf#8)) ∧
    (∀ byte : Byte, digit (hexDigit (byte >>> 4)) = some (byte >>> 4) ∧
      (byte >>> 4) * 16 ||| (byte &&& 0xf#8) = byte) ∧
    (∀ byte : Byte, hexDigit (byte >>> 4) ≠ 0 ∧ hexDigit (byte &&& 0xf#8) ≠ 0) ∧
    ∀ byte : Byte, byte &&& 0xf#8 = byte → byte.toNat < 16 := by
  refine ⟨?_, ?_, ?_, ?_, ?_, ?_⟩ <;> decide +kernel

theorem digit_isSome_iff : ∀ c : Byte, (digit c).isSome = isHex c := byte_tables.1

theorem digit_facts : ∀ c value : Byte, digit c = some value →
    value &&& 0xf#8 = value ∧ hexDigit value = toLower c := by
  intro c value known
  have here := byte_tables.2.1 c
  rw [known, Option.all_some] at here
  exact of_decide_eq_true here

theorem digit_hexDigit_nibble : ∀ byte : Byte,
    digit (hexDigit (byte &&& 0xf#8)) = some (byte &&& 0xf#8) :=
  byte_tables.2.2.1

theorem hexDigit_pair : ∀ byte : Byte, digit (hexDigit (byte >>> 4)) = some (byte >>> 4) ∧
    (byte >>> 4) * 16 ||| (byte &&& 0xf#8) = byte :=
  byte_tables.2.2.2.1

theorem hexDigit_ne_zero : ∀ byte : Byte, hexDigit (byte >>> 4) ≠ 0 ∧ hexDigit (byte &&& 0xf#8) ≠ 0 :=
  byte_tables.2.2.2.2.1

theorem nibbles_joined (upper value : Byte) (high : upper &&& 0xf#8 = upper) (low : value &&& 0xf#8 = value) :
    (upper * 16 ||| value) >>> 4 = upper ∧ (upper * 16 ||| value) &&& 0xf#8 = value := by
  have computed : ∀ first second : Fin 16,
      ((BitVec.ofNat 8 first * 16 ||| BitVec.ofNat 8 second) >>> 4 = BitVec.ofNat 8 first) ∧
      ((BitVec.ofNat 8 first * 16 ||| BitVec.ofNat 8 second) &&& 0xf#8 = BitVec.ofNat 8 second) := by
    decide
  have small := byte_tables.2.2.2.2.2
  have here := computed ⟨upper.toNat, small upper high⟩ ⟨value.toNat, small value low⟩
  simpa only [BitVec.ofNat_toNat, BitVec.setWidth_eq] using here

end Characters

/-! ## Texts -/

section Texts

theorem hex2bin_pair {first second upper lower : Byte} {rest : List Byte} {capacity : Nat}
    (high : digit first = some upper) (low : digit second = some lower) :
    hex2bin (first :: second :: rest) (capacity + 1) none =
      ⟨(upper * 16 ||| lower) :: (hex2bin rest capacity none).written, (hex2bin rest capacity none).ok⟩ := by
  simp only [hex2bin, high, low, Nat.add_one_ne_zero, if_false, Nat.add_sub_cancel]

theorem hex2bin_toHex (bytes rest : List Byte) (room : Nat) :
    hex2bin (toHex bytes ++ rest) (room + bytes.length) none =
      ⟨bytes ++ (hex2bin rest room none).written, (hex2bin rest room none).ok⟩ := by
  induction bytes with
  | nil => rfl
  | cons byte bytes ih =>
    obtain ⟨high, joined⟩ := hexDigit_pair byte
    have pair : toHex (byte :: bytes) ++ rest =
        hexDigit (byte >>> 4) :: hexDigit (byte &&& 0xf#8) :: (toHex bytes ++ rest) := rfl
    rw [pair, List.length_cons, ← Nat.add_assoc, hex2bin_pair high (digit_hexDigit_nibble byte), ih, joined]
    rfl

theorem fromHex_toHex (buf : List Byte) {bytes : List Byte} (nonempty : bytes ≠ []) :
    fromHex buf (toHex bytes) = (bytes, true) := by
  have positive := List.length_pos_iff.mpr nonempty
  have size : (toHex bytes).length / 2 = bytes.length := by
    rw [toHex_length]
    omega
  have whole : hex2bin (toHex bytes) bytes.length none = ⟨bytes, true⟩ := by
    have read := hex2bin_toHex bytes [] 0
    simp only [List.append_nil, Nat.zero_add, hex2bin, decide_true] at read
    exact read
  have none_left : (resize buf bytes.length).drop bytes.length = [] :=
    List.drop_eq_nil_of_le (Nat.le_of_eq (resize_length buf bytes.length))
  rw [fromHex, if_neg (by rw [toHex_length]; omega), size, whole]
  simp only [none_left, List.append_nil]

theorem toHex_hex2bin {hex : List Byte} {capacity : Nat} {high : Option Byte}
    (nibble : ∀ value ∈ high, value &&& 0xf#8 = value)
    (ok : (hex2bin hex capacity (high.map (· * 16))).ok = true) :
    toHex (hex2bin hex capacity (high.map (· * 16))).written = high.toList.map hexDigit ++ hex.map toLower := by
  induction hex generalizing capacity high with
  | nil =>
    cases high with
    | none => rfl
    | some value => simp [hex2bin] at ok
  | cons c rest ih =>
    simp only [hex2bin] at ok ⊢
    split at ok
    · cases ok
    · rename_i value known
      obtain ⟨low, back⟩ := digit_facts c value known
      split at ok
      · cases ok
      · rename_i room
        simp only [room, if_false]
        cases high with
        | none =>
          have tail := @ih capacity (some value) (by simpa using low) ok
          simpa only [Option.map_none, Option.map_some, Option.toList_some, Option.toList_none, List.map_cons,
            List.map_nil, List.nil_append, List.singleton_append, back] using tail
        | some upper =>
          have tail := @ih (capacity - 1) none (by simp) ok
          obtain ⟨left, right⟩ := nibbles_joined upper value (nibble upper rfl) low
          have whole : (upper * 16 ||| value) &&& 0xf = value := right
          simp only [Option.map_some, toHex, List.flatMap_cons, left, whole]
          simp only [Option.map_none, Option.toList_none, List.map_nil, List.nil_append, toHex] at tail
          rw [tail, back]
          rfl

end Texts

/-! ## Memory -/

section Written

/-- The loop writes the characters of `toHex` one after the other. -/
theorem bin2hexFrom_eq (bin : List Byte) (i : Nat) (hex : Memory) :
    bin2hexFrom bin i hex = hex.copy (i * 2) (toHex bin) := by
  induction bin generalizing i hex with
  | nil => exact (Memory.copy_nil _ _).symm
  | cons byte rest ih =>
    have two : (i + 1) * 2 = i * 2 + 1 + 1 := by omega
    rw [bin2hexFrom, ih, two, Memory.copy_cons, Memory.copy_cons]
    rfl

/-- The loop writes what `hex2bin` says, from `pos` on. -/
theorem hex2binFrom_eq (maxlen : Nat) (hex : List Byte) (bin : Memory) (pos : Nat) (high : Option Byte) :
    hex2binFrom maxlen hex bin pos high =
      (bin.copy pos (hex2bin hex (maxlen - pos) high).written, (hex2bin hex (maxlen - pos) high).ok) := by
  induction hex generalizing bin pos high with
  | nil => rw [hex2binFrom, hex2bin, Memory.copy_nil]
  | cons c rest ih =>
    rw [hex2binFrom, hex2bin]
    cases known : digit c with
    | none => rw [Memory.copy_nil]
    | some value =>
      by_cases full : maxlen ≤ pos
      · simp only [if_pos full, if_pos (Nat.sub_eq_zero_of_le full), Memory.copy_nil]
      · simp only [if_neg full, if_neg (show maxlen - pos ≠ 0 by omega)]
        cases high with
        | none => exact ih bin pos _
        | some upper =>
          have next := ih (Function.update bin pos (upper ||| value)) (pos + 1) none
          rwa [Memory.copy_cons, show maxlen - (pos + 1) = maxlen - pos - 1 by omega] at next

theorem toHex_ne_zero (bin : List Byte) : ∀ c ∈ toHex bin, c ≠ 0 := by
  intro c listed
  simp only [toHex, List.mem_flatMap, List.mem_cons, List.not_mem_nil, or_false] at listed
  obtain ⟨byte, -, rfl | rfl⟩ := listed
  · exact (hexDigit_ne_zero byte).1
  · exact (hexDigit_ne_zero byte).2

/-- The string that `toHex` allocates ends behind the last character. -/
theorem toHexString_eq (fresh : Memory) {bin : List Byte} (nonempty : bin ≠ []) (small : bin.length < halfSize) :
    toHexString fresh bin = some (toHex bin) := by
  have positive := List.length_pos_iff.mpr nonempty
  have size : bin.length * 2 = (toHex bin).length := by
    rw [toHex_length, Nat.mul_comm]
  have closed : bin2hex fresh (bin.length * 2 + 1) bin = some (fresh.copy 0 (toHex bin ++ [0])) := by
    simp only [bin2hex, bin2hexFrom_eq, Nat.zero_mul]
    rw [if_neg (by omega), if_pos (Nat.lt_succ_self _), size, Memory.copy_append, Memory.copy_singleton,
      Nat.zero_add]
  have content := Memory.read_copy fresh (toHex bin ++ [0])
  rw [List.length_append, List.length_singleton, ← size] at content
  simp only [toHexString, if_neg (show bin.length ≠ 0 by omega), closed, Option.map_some, stringAt, content]
  rw [List.takeWhile_append_of_pos (by simpa using toHex_ne_zero bin)]
  simp

theorem fromHexInto_eq (bin : Memory) (maxlen : Nat) {hex : List Byte} (nonempty : hex ≠ []) :
    fromHexInto bin maxlen hex = (bin.copy 0 (hex2bin hex maxlen none).written, (hex2bin hex maxlen none).ok) := by
  rw [fromHexInto, if_neg (by rwa [List.length_eq_zero_iff]), hex2binFrom_eq, Nat.sub_zero]

theorem fromHexInto_accepts_iff (bin : Memory) (maxlen : Nat) (hex : List Byte) :
    (fromHexInto bin maxlen hex).2 = true ↔
      hex ≠ [] ∧ hex.length % 2 = 0 ∧ (∀ c ∈ hex, isHex c = true) ∧ hex.length / 2 ≤ maxlen := by
  by_cases empty : hex = []
  · simp [fromHexInto, empty]
  · rw [fromHexInto_eq bin maxlen empty, hex2bin_ok_iff]
    simp only [Option.toList_none, List.length_nil, Nat.add_zero, digit_isSome_iff]
    constructor
    · rintro ⟨digits, even, room⟩
      exact ⟨empty, even, digits, by omega⟩
    · rintro ⟨-, even, digits, room⟩
      exact ⟨digits, even, by omega⟩

theorem fromHexInto_read {bin : Memory} {maxlen : Nat} {hex : List Byte}
    (ok : (fromHexInto bin maxlen hex).2 = true) :
    (fromHexInto bin maxlen hex).1.read (hex.length / 2) = (hex2bin hex maxlen none).written := by
  have nonempty := ((fromHexInto_accepts_iff bin maxlen hex).mp ok).1
  rw [fromHexInto_eq bin maxlen nonempty] at ok ⊢
  have size := hex2bin_ok_length ok
  simp only [Option.isSome_none, Bool.false_eq_true, if_false, Nat.add_zero] at size
  rw [← size, Nat.mul_div_cancel_left _ (by decide)]
  exact Memory.read_copy bin _

theorem fromHexInto_lower {bin : Memory} {maxlen : Nat} {hex : List Byte}
    (ok : (fromHexInto bin maxlen hex).2 = true) :
    toHex ((fromHexInto bin maxlen hex).1.read (hex.length / 2)) = hex.map toLower := by
  have nonempty := ((fromHexInto_accepts_iff bin maxlen hex).mp ok).1
  rw [fromHexInto_read ok]
  rw [fromHexInto_eq bin maxlen nonempty] at ok
  exact @toHex_hex2bin hex maxlen none (by simp) ok

theorem fromHexInto_frame (bin : Memory) (maxlen : Nat) (hex : List Byte) {position : Nat}
    (outside : maxlen ≤ position) : (fromHexInto bin maxlen hex).1 position = bin position := by
  by_cases empty : hex = []
  · simp [fromHexInto, empty]
  · rw [fromHexInto_eq bin maxlen empty]
    have written := hex2bin_written_le hex maxlen none
    exact Memory.copy_outside (.inr (by omega))

theorem fromHexInto_toHex (memory : Memory) {maxlen : Nat} {bin : List Byte} (nonempty : bin ≠ [])
    (room : bin.length ≤ maxlen) :
    (fromHexInto memory maxlen (toHex bin)).2 = true ∧
      (fromHexInto memory maxlen (toHex bin)).1.read bin.length = bin := by
  have positive := List.length_pos_iff.mpr nonempty
  have size := toHex_length bin
  have decoded : hex2bin (toHex bin) maxlen none = ⟨bin, true⟩ := by
    have pairs := hex2bin_toHex bin [] (maxlen - bin.length)
    rwa [List.append_nil, Nat.sub_add_cancel room, hex2bin, List.append_nil] at pairs
  rw [fromHexInto_eq memory maxlen (by rw [← List.length_pos_iff]; omega), decoded]
  exact ⟨rfl, Memory.read_copy memory bin⟩

theorem fromHex_eq (buf : List Byte) {hex : List Byte} (nonempty : hex ≠ []) :
    fromHex buf hex =
      ((fromHexInto (Memory.ofBytes (resize buf (hex.length / 2))) (hex.length / 2) hex).1.read (hex.length / 2),
        (fromHexInto (Memory.ofBytes (resize buf (hex.length / 2))) (hex.length / 2) hex).2) := by
  have written := hex2bin_written_le hex (hex.length / 2) none
  rw [fromHexInto_eq _ _ nonempty, fromHex, if_neg (by rwa [List.length_eq_zero_iff])]
  simp only [Prod.mk.injEq, and_true]
  apply List.ext_getElem
  · simp [Memory.read]
    omega
  · intro index _ inside
    simp only [Memory.read, List.length_map, List.length_range] at inside
    simp only [Memory.read, List.getElem_map, List.getElem_range, List.getElem_append, List.getElem_drop]
    by_cases early : index < (hex2bin hex (hex.length / 2) none).written.length
    · have here := @Memory.copy_inside (Memory.ofBytes (resize buf (hex.length / 2))) 0 _ _ early
      rw [Nat.zero_add] at here
      simp [early, here, Memory.ofBytes]
    · rw [Memory.copy_outside (.inr (by omega))]
      simp only [early, dite_false, Memory.ofBytes]
      rw [List.getD_eq_getElem _ _ (by rw [resize_length]; omega)]
      congr 1
      omega

theorem bin2hex_frame {hex after : Memory} {maxlen : Nat} {bin : List Byte}
    (written : bin2hex hex maxlen bin = some after) {position : Nat} (outside : maxlen ≤ position) :
    after position = hex position := by
  have size := toHex_length bin
  rw [bin2hex] at written
  split at written
  · cases written
  · rename_i fits
    simp only [Option.some.injEq, bin2hexFrom_eq, Nat.zero_mul] at written
    subst written
    split
    · rw [Function.update_of_ne (by omega)]
      exact Memory.copy_outside (.inr (by omega))
    · exact Memory.copy_outside (.inr (by omega))

end Written

/-- The codec: a byte string is read back from its own text, what is accepted is exactly
an even number of digits that fits, it is written back in lower case, and no buffer is
written outside. -/
theorem hexCodec_exact (fresh memory : Memory) (bin buf hex : List Byte) (maxlen : Nat)
    (nonempty : bin ≠ []) (small : bin.length < halfSize) :
    (∃ text, toHexString fresh bin = some text ∧ fromHex buf text = (bin, true) ∧
      (bin.length ≤ maxlen → (fromHexInto memory maxlen text).2 = true ∧
        (fromHexInto memory maxlen text).1.read bin.length = bin)) ∧
    ((fromHexInto memory maxlen hex).2 = true ↔
      hex ≠ [] ∧ hex.length % 2 = 0 ∧ (∀ c ∈ hex, isHex c = true) ∧ hex.length / 2 ≤ maxlen) ∧
    ((fromHex buf hex).2 = true ↔ hex ≠ [] ∧ hex.length % 2 = 0 ∧ ∀ c ∈ hex, isHex c = true) ∧
    ((fromHexInto memory maxlen hex).2 = true →
      toHex ((fromHexInto memory maxlen hex).1.read (hex.length / 2)) = hex.map toLower) ∧
    ((fromHex buf hex).2 = true → toHex (fromHex buf hex).1 = hex.map toLower) ∧
    (∀ position, maxlen ≤ position → (fromHexInto memory maxlen hex).1 position = memory position) ∧
    ∀ after, bin2hex memory maxlen bin = some after →
      ∀ position, maxlen ≤ position → after position = memory position := by
  refine ⟨⟨toHex bin, toHexString_eq fresh nonempty small, fromHex_toHex buf nonempty,
    fromHexInto_toHex memory nonempty⟩, fromHexInto_accepts_iff memory maxlen hex, ?_, fromHexInto_lower, ?_,
    fun _ => fromHexInto_frame memory maxlen hex, fun _ written _ => bin2hex_frame written⟩
  · rw [fromHex_ok_iff]
    simp only [digit_isSome_iff]
    tauto
  · intro ok
    have given := ((fromHex_ok_iff buf hex).mp ok).1
    rw [fromHex_eq buf given] at ok ⊢
    exact fromHexInto_lower ok

theorem hexCodec_exact_mixed : (fromHex [] [97, 66]).2 = true ∧ toHex (fromHex [] [97, 66]).1 = [97, 98] := by
  have both := hexCodec_exact (fun _ => 0) (fun _ => 0) [0xab] [] [97, 66] 1 (by decide) (by decide)
  have accepted : (fromHex [] [97, 66]).2 = true := by decide
  refine ⟨accepted, ?_⟩
  rw [both.2.2.2.2.1 accepted]
  decide

end Xmrig.Cvt
