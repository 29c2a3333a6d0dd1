import Mathlib.Logic.Function.Basic

/-! Byte-addressed memory with little-endian 32-bit words at any address. -/

set_option autoImplicit false

namespace Foundation

abbrev Memory := Nat → BitVec 8

namespace Memory

def readWord (memory : Memory) (address : Nat) : BitVec 32 :=
  memory (address + 3) ++ memory (address + 2) ++ memory (address + 1) ++ memory address

def writeWord (memory : Memory) (address : Nat) (word : BitVec 32) : Memory := fun position =>
  if address ≤ position ∧ position < address + 4 then word.extractLsb' (8 * (position - address)) 8
  else memory position

/-- `memcpy` of a byte string to an address. -/
def copy (memory : Memory) (address : Nat) (bytes : List (BitVec 8)) : Memory := fun position =>
  if address ≤ position ∧ position < address + bytes.length then bytes.getD (position - address) 0
  else memory position

def ofBytes (bytes : List (BitVec 8)) : Memory := fun position => bytes.getD position 0

variable {memory other : Memory} {address : Nat} {word : BitVec 32}

theorem readWord_congr {second : Nat}
    (same : ∀ offset < 4, memory (address + offset) = other (second + offset)) :
    readWord memory address = readWord other second := by
  simp only [readWord, same 3 (by omega), same 2 (by omega), same 1 (by omega)]
  rw [show memory address = other second from same 0 (by omega)]

theorem writeWord_outside {position : Nat} (outside : position < address ∨ address + 4 ≤ position) :
    writeWord memory address word position = memory position := if_neg (by omega)

theorem extract_readWord {offset : Nat} (small : offset < 4) :
    (readWord memory address).extractLsb' (8 * offset) 8 = memory (address + offset) := by
  apply BitVec.eq_of_getLsbD_eq
  intro position bound
  obtain rfl | rfl | rfl | rfl : offset = 0 ∨ offset = 1 ∨ offset = 2 ∨ offset = 3 := by omega
  all_goals
    rw [BitVec.getLsbD_extractLsb', readWord]
    simp only [BitVec.getLsbD_append, bound, decide_true, Bool.true_and]
    repeat' split
    all_goals first
      | omega
      | congr 1
        omega

theorem readWord_writeWord : readWord (writeWord memory address word) address = word := by
  have byte : ∀ offset < 4, writeWord memory address word (address + offset) =
      word.extractLsb' (8 * offset) 8 := by
    intro offset small
    rw [writeWord, if_pos (by omega), Nat.add_sub_cancel_left]
  rw [readWord, byte 3 (by omega), byte 2 (by omega), byte 1 (by omega),
    show writeWord memory address word address = word.extractLsb' (8 * 0) 8 from byte 0 (by omega)]
  apply BitVec.eq_of_getLsbD_eq
  intro position bound
  simp only [BitVec.getLsbD_append, BitVec.getLsbD_extractLsb']
  split
  · simp [*]
  · split
    · have : 8 + (position - 8) = position := by omega
      simp [*]
    · split
      · have : 16 + (position - 8 - 8) = position := by omega
        simp [*]
      · have : 24 + (position - 8 - 8 - 8) = position := by omega
        have : position - 8 - 8 - 8 < 8 := by omega
        simp [*]

theorem readWord_writeWord_apart {second : Nat} (apart : second + 4 ≤ address ∨ address + 4 ≤ second) :
    readWord (writeWord memory address word) second = readWord memory second :=
  readWord_congr fun offset small => writeWord_outside (by omega)

theorem copy_outside {bytes : List (BitVec 8)} {position : Nat}
    (outside : position < address ∨ address + bytes.length ≤ position) :
    copy memory address bytes position = memory position := if_neg (by omega)

theorem copy_inside {bytes : List (BitVec 8)} {offset : Nat} (inside : offset < bytes.length) :
    copy memory address bytes (address + offset) = ofBytes bytes offset := by
  rw [copy, if_pos (by omega), Nat.add_sub_cancel_left, ofBytes]

def read (memory : Memory) (size : Nat) : List (BitVec 8) := (List.range size).map memory

theorem copy_nil (memory : Memory) (address : Nat) : copy memory address [] = memory := by
  funext position
  rw [copy, if_neg (by simp only [List.length_nil]; omega)]

theorem copy_cons (memory : Memory) (address : Nat) (byte : BitVec 8) (rest : List (BitVec 8)) :
    copy (Function.update memory address byte) (address + 1) rest = copy memory address (byte :: rest) := by
  funext position
  simp only [copy, List.length_cons]
  by_cases here : position = address
  · subst here
    rw [if_neg (by omega), if_pos (by omega), Nat.sub_self, Function.update_self]
    rfl
  · by_cases later : address + 1 ≤ position ∧ position < address + 1 + rest.length
    · obtain ⟨offset, rfl⟩ := Nat.exists_eq_add_of_le later.1
      rw [if_pos later, if_pos (by omega), Nat.add_sub_cancel_left,
        show address + 1 + offset - address = offset + 1 by omega]
      rfl
    · rw [if_neg later, if_neg (by omega), Function.update_of_ne here]

theorem copy_singleton (memory : Memory) (address : Nat) (byte : BitVec 8) :
    copy memory address [byte] = Function.update memory address byte := by
  rw [← copy_cons, copy_nil]

theorem copy_append (memory : Memory) (address : Nat) (first rest : List (BitVec 8)) :
    copy memory address (first ++ rest) = copy (copy memory address first) (address + first.length) rest := by
  induction first generalizing memory address with
  | nil => rw [copy_nil]; rfl
  | cons byte first ih =>
    rw [List.cons_append, ← copy_cons, ih, copy_cons, List.length_cons, Nat.add_assoc, Nat.add_comm 1]

theorem read_copy_behind (memory : Memory) (address : Nat) (bytes : List (BitVec 8)) :
    read (copy memory address bytes) (address + bytes.length) = read memory address ++ bytes := by
  apply List.ext_getElem
  · simp [read]
  · intro index _ _
    by_cases before : index < address
    · simp [read, before, copy_outside]
    · obtain ⟨offset, rfl⟩ := Nat.exists_eq_add_of_le (Nat.le_of_not_lt before)
      have inside : offset < bytes.length := by simp_all [read]
      have here := @copy_inside memory address bytes offset inside
      simp [read, here, ofBytes, inside]

theorem read_copy (memory : Memory) (bytes : List (BitVec 8)) : read (copy memory 0 bytes) bytes.length = bytes := by
  have behind := read_copy_behind memory 0 bytes
  rwa [Nat.zero_add] at behind

end Memory

end Foundation
