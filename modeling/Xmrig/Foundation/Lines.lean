import Mathlib.Data.List.Basic

/-! Streams of delimited lines.

A stream is read from the part of a line that is pending; what remains at its end
is pending for the next stream.
-/

set_option autoImplicit false

namespace Foundation.Lines

variable {α : Type} [DecidableEq α] (stop : α)

/-- The lines that end in a stream, without their delimiters, and the unfinished one. -/
def split : (pending : List α) → (stream : List α) → List (List α) × List α
  | pending, [] => ([], pending)
  | pending, next :: rest =>
    if next = stop then (pending :: (split [] rest).1, (split [] rest).2)
    else split (pending ++ [next]) rest

@[simp] theorem split_nil (pending : List α) : split stop pending [] = ([], pending) := rfl

theorem split_stop (pending rest : List α) :
    split stop pending (stop :: rest) = (pending :: (split stop [] rest).1, (split stop [] rest).2) :=
  if_pos rfl

theorem split_next {next : α} (inside : next ≠ stop) (pending rest : List α) :
    split stop pending (next :: rest) = split stop (pending ++ [next]) rest :=
  if_neg inside

theorem split_append (pending first second : List α) :
    split stop pending (first ++ second) =
      ((split stop pending first).1 ++ (split stop (split stop pending first).2 second).1,
        (split stop (split stop pending first).2 second).2) := by
  induction first generalizing pending with
  | nil => rfl
  | cons next rest ih =>
    rw [List.cons_append]
    by_cases ends : next = stop
    · subst ends
      rw [split_stop, split_stop, ih]
      rfl
    · rw [split_next stop ends, split_next stop ends, ih]

/-- A stream without a delimiter goes on with the pending line. -/
theorem split_open {pending stream : List α} (inside : stop ∉ stream) :
    split stop pending stream = ([], pending ++ stream) := by
  induction stream generalizing pending with
  | nil => simp
  | cons next rest ih =>
    rw [List.mem_cons, not_or] at inside
    rw [split_next stop (fun same => inside.1 same.symm), ih inside.2]
    simp

theorem split_join {lines : List (List α)} {tail : List α} (inside : ∀ line ∈ lines, stop ∉ line)
    (unfinished : stop ∉ tail) :
    split stop [] (lines.flatMap (· ++ [stop]) ++ tail) = (lines, tail) := by
  induction lines with
  | nil => exact split_open stop unfinished
  | cons line rest ih =>
    rw [List.forall_mem_cons] at inside
    have first : split stop [] (line ++ [stop]) = ([line], []) := by
      rw [split_append, split_open stop inside.1, List.nil_append, split_stop]
      rfl
    rw [List.flatMap_cons, List.append_assoc, split_append, first, ih inside.2]
    rfl

end Foundation.Lines
