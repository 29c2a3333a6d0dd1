import Mathlib.Data.List.Basic

/-! Readers that take bytes from the head of a byte string.

A reader never looks behind the bytes it takes, so what it finds at the head of a
string it finds in front of any other continuation as well.
-/

set_option autoImplicit false

namespace Foundation

universe u v

/-- The value that was read and what follows it; none if no value begins with these bytes. -/
def ByteReader (α : Type u) := List (BitVec 8) → Option (α × List (BitVec 8))

namespace ByteReader
variable {α : Type u} {β : Type v}

def ok (value : α) : ByteReader α := fun code => some (value, code)

def fail : ByteReader α := fun _ => none

def andThen (reader : ByteReader α) (next : α → ByteReader β) : ByteReader β := fun code =>
  (reader code).bind fun read => next read.1 read.2

def byte : ByteReader (BitVec 8)
  | [] => none
  | first :: rest => some (first, rest)

def word : ByteReader (BitVec 32) :=
  byte.andThen fun b0 => byte.andThen fun b1 => byte.andThen fun b2 => byte.andThen fun b3 =>
    ok (b3 ++ b2 ++ b1 ++ b0)

def quad : ByteReader (BitVec 64) :=
  word.andThen fun low => word.andThen fun high => ok (high ++ low)

/-- The reader takes some first bytes, and finds the same value in them whatever follows. -/
def Prefixed (reader : ByteReader α) : Prop :=
  ∀ code value rest, reader code = some (value, rest) →
    ∃ taken, code = taken ++ rest ∧ ∀ more, reader (taken ++ more) = some (value, more)

theorem prefixed_ok (value : α) : Prefixed (ok value) := by
  intro code _ rest read
  cases read
  exact ⟨[], rfl, fun _ => rfl⟩

theorem prefixed_fail : Prefixed (fail : ByteReader α) := by
  intro code value rest read
  cases read

theorem prefixed_byte : Prefixed byte := by
  intro code value rest read
  cases code with
  | nil => cases read
  | cons first later =>
    cases read
    exact ⟨[value], rfl, fun _ => rfl⟩

theorem Prefixed.andThen {reader : ByteReader α} {next : α → ByteReader β} (first : Prefixed reader)
    (second : ∀ value, Prefixed (next value)) : Prefixed (reader.andThen next) := by
  intro code value rest read
  obtain ⟨⟨middle, left⟩, before, after⟩ := Option.bind_eq_some_iff.mp read
  obtain ⟨head, rfl, headRead⟩ := first code middle left before
  obtain ⟨tail, rfl, tailRead⟩ := second middle left value rest after
  refine ⟨head ++ tail, (List.append_assoc _ _ _).symm, fun more => ?_⟩
  unfold ByteReader.andThen
  rw [List.append_assoc, headRead]
  exact tailRead more

theorem Prefixed.append {reader : ByteReader α} (prefixed : Prefixed reader) {code : List (BitVec 8)} {value : α}
    (read : reader code = some (value, [])) (more : List (BitVec 8)) : reader (code ++ more) = some (value, more) := by
  obtain ⟨taken, rfl, again⟩ := prefixed code value [] read
  rw [List.append_nil]
  exact again more

theorem Prefixed.ite {condition : Prop} [Decidable condition] {left right : ByteReader α}
    (yes : Prefixed left) (no : Prefixed right) : Prefixed (if condition then left else right) := by
  split
  · exact yes
  · exact no

theorem prefixed_word : Prefixed word :=
  prefixed_byte.andThen fun _ => prefixed_byte.andThen fun _ => prefixed_byte.andThen fun _ =>
    prefixed_byte.andThen fun _ => prefixed_ok _

theorem prefixed_quad : Prefixed quad :=
  prefixed_word.andThen fun _ => prefixed_word.andThen fun _ => prefixed_ok _

end ByteReader

end Foundation
