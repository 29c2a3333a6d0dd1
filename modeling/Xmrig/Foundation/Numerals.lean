import Mathlib.Data.Nat.Digits.Lemmas

/-! Numbers as characters, to a base of at most sixteen.

A writer puts the digits from the highest one on, in small letters; a reader takes the
digits in front of a text, small or capital.
-/

set_option autoImplicit false

namespace Foundation.Numerals

def digitValue (char : BitVec 8) : Option Nat :=
  if 48 ≤ char.toNat ∧ char.toNat ≤ 57 then some (char.toNat - 48)
  else if 97 ≤ char.toNat ∧ char.toNat ≤ 122 then some (char.toNat - 87)
  else if 65 ≤ char.toNat ∧ char.toNat ≤ 90 then some (char.toNat - 55)
  else none

def digit (base : Nat) (char : BitVec 8) : Option Nat := (digitValue char).filter (· < base)

def readDigits (base : Nat) (chars : List (BitVec 8)) : Option Nat :=
  match (chars.takeWhile fun char => (digit base char).isSome).filterMap (digit base) with
  | [] => none
  | digits => some (digits.foldl (fun value digit => value * base + digit) 0)

def digitChar (digit : Nat) : BitVec 8 := BitVec.ofNat 8 (if digit < 10 then 48 + digit else 87 + digit)

def writeDigits (base number : Nat) : List (BitVec 8) :=
  if number = 0 then [digitChar 0] else (Nat.digits base number).reverse.map digitChar

variable {base number : Nat}

theorem digit_digitChar (small : base ≤ 16) {value : Nat} (valid : value < base) :
    digit base (digitChar value) = some value := by
  have known : ∀ value < 16, digitValue (digitChar value) = some value := by decide
  rw [digit, known value (by omega), Option.filter_some, if_pos (by simpa using valid)]

theorem readDigits_digits (small : base ≤ 16) {digits : List Nat} (some : digits ≠ []) (valid : ∀ value ∈ digits, value < base)
    {rest : List (BitVec 8)} (ends : ∀ char, rest.head? = .some char → digit base char = none) :
    readDigits base (digits.map digitChar ++ rest) =
      .some (digits.foldl (fun value digit => value * base + digit) 0) := by
  have taken : (digits.map digitChar ++ rest).takeWhile (fun char => (digit base char).isSome) =
      digits.map digitChar := by
    clear some
    induction digits with
    | nil =>
      cases rest with
      | nil => rfl
      | cons char tail =>
        rw [List.map_nil, List.nil_append, List.takeWhile_cons, if_neg]
        rw [ends char rfl]
        exact Bool.false_ne_true
    | cons value digits ih =>
      rw [List.forall_mem_cons] at valid
      rw [List.map_cons, List.cons_append, List.takeWhile_cons, digit_digitChar small valid.1, ih valid.2]
      rfl
  have values : (digits.map digitChar).filterMap (digit base) = digits := by
    clear some taken
    induction digits with
    | nil => rfl
    | cons value digits ih =>
      rw [List.forall_mem_cons] at valid
      rw [List.map_cons, List.filterMap_cons_some (digit_digitChar small valid.1), ih valid.2]
  rw [readDigits, taken, values]
  cases digits with
  | nil => exact absurd rfl some
  | cons value digits => rfl

theorem foldl_digits (base : Nat) (digits : List Nat) :
    digits.reverse.foldl (fun value digit => value * base + digit) 0 = Nat.ofDigits base digits := by
  rw [List.foldl_reverse]
  induction digits with
  | nil => rfl
  | cons digit digits ih =>
    rw [List.foldr_cons, ih, Nat.ofDigits_cons, Nat.mul_comm, Nat.add_comm]

/-- A number is read back, whatever follows that is no digit. -/
theorem readDigits_writeDigits (proper : 1 < base) (small : base ≤ 16) (number : Nat) {rest : List (BitVec 8)}
    (ends : ∀ char, rest.head? = some char → digit base char = none) :
    readDigits base (writeDigits base number ++ rest) = some number := by
  unfold writeDigits
  split
  · rename_i zero
    have read := @readDigits_digits base small [0] (List.cons_ne_nil _ _) (by simpa using by omega) rest ends
    rw [List.map_singleton] at read
    rw [read, zero, List.foldl_cons, List.foldl_nil, Nat.zero_mul]
  · rename_i positive
    rw [readDigits_digits small _ _ ends, foldl_digits, Nat.ofDigits_digits]
    · rw [ne_eq, List.reverse_eq_nil_iff]
      exact Nat.digits_ne_nil_iff_ne_zero.mpr positive
    · intro value member
      exact Nat.digits_lt_base proper (List.mem_reverse.mp member)

theorem mem_writeDigits (proper : 1 < base) {char : BitVec 8} (member : char ∈ writeDigits base number) :
    ∃ value < base, char = digitChar value := by
  unfold writeDigits at member
  split at member
  · exact ⟨0, by omega, List.mem_singleton.mp member⟩
  · obtain ⟨value, inside, rfl⟩ := List.mem_map.mp member
    exact ⟨value, Nat.digits_lt_base proper (List.mem_reverse.mp inside), rfl⟩

theorem writeDigits_ne_nil : writeDigits base number ≠ [] := by
  unfold writeDigits
  split
  · exact List.cons_ne_nil _ _
  · rename_i positive
    rw [ne_eq, List.map_eq_nil_iff, List.reverse_eq_nil_iff]
    exact Nat.digits_ne_nil_iff_ne_zero.mpr positive

theorem writeDigits_length_le {length : Nat} (proper : 1 < base) :
    (writeDigits base number).length ≤ length + 1 ↔ number < base ^ (length + 1) := by
  unfold writeDigits
  split
  · rename_i zero
    refine iff_of_true (Nat.succ_le_succ (Nat.zero_le _)) ?_
    rw [zero]
    exact Nat.pow_pos (by omega)
  · rw [List.length_map, List.length_reverse]
    exact Nat.digits_length_le_iff proper number

theorem writeDigits_div (proper : 1 < base) (large : base ≤ number) :
    writeDigits base number = writeDigits base (number / base) ++ [digitChar (number % base)] := by
  have high : number / base ≠ 0 := Nat.ne_of_gt (Nat.div_pos large (by omega))
  unfold writeDigits
  rw [if_neg (by omega), if_neg high, Nat.digits_def' proper (by omega), List.reverse_cons, List.map_append]
  rfl

end Foundation.Numerals
