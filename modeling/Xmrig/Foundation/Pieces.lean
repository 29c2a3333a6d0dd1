import Mathlib.Data.List.Basic
import Mathlib.Data.List.TakeDrop

/-! A string that is laid out in consecutive pieces.

The offset of a piece is the length of all pieces before it. Appending a piece and
replacing one by another of the same length keep every offset.
-/

set_option autoImplicit false

namespace Foundation

universe u

section Pieces
variable {α : Type u} {pieces : List (List α)} {piece : List α} {k m : Nat}

def offset (pieces : List (List α)) (k : Nat) : Nat := (pieces.take k).flatten.length

theorem offset_succ (found : pieces[k]? = some piece) : offset pieces (k + 1) = offset pieces k + piece.length := by
  unfold offset
  rw [List.take_add_one, found]
  simp

theorem offset_length (pieces : List (List α)) : offset pieces pieces.length = pieces.flatten.length := by
  rw [offset, List.take_length]

theorem offset_mono (pieces : List (List α)) (below : k ≤ m) : offset pieces k ≤ offset pieces m := by
  induction m with
  | zero =>
    cases Nat.le_zero.mp below
    exact Nat.le_refl _
  | succ m ih =>
    obtain rfl | earlier : k = m + 1 ∨ k ≤ m := by omega
    · exact Nat.le_refl _
    · have step : offset pieces m ≤ offset pieces (m + 1) := by
        unfold offset
        rw [List.take_add_one]
        simp
      exact Nat.le_trans (ih earlier) step

theorem offset_lt (found : pieces[k]? = some piece) (nonempty : piece ≠ []) (below : k < m) :
    offset pieces k < offset pieces m := by
  have positive := List.length_pos_iff.mpr nonempty
  have next := offset_mono pieces (show k + 1 ≤ m from below)
  rw [offset_succ found] at next
  omega

theorem offset_le {bound : Nat} (short : ∀ piece ∈ pieces, piece.length ≤ bound) (k : Nat) :
    offset pieces k ≤ bound * k := by
  induction k with
  | zero => exact Nat.le_refl _
  | succ k ih =>
    cases entry : pieces[k]? with
    | none =>
      have outside := List.getElem?_eq_none_iff.mp entry
      unfold offset at ih ⊢
      rw [List.take_of_length_le outside] at ih
      rw [List.take_of_length_le (by omega), Nat.mul_succ]
      omega
    | some piece =>
      have length := short piece (List.mem_of_getElem? entry)
      rw [offset_succ entry, Nat.mul_succ]
      omega

theorem offset_append (more : List (List α)) (inside : k ≤ pieces.length) :
    offset (pieces ++ more) k = offset pieces k := by
  rw [offset, List.take_append_of_le_length inside, offset]

theorem drop_offset (found : pieces[k]? = some piece) :
    pieces.flatten.drop (offset pieces k) = piece ++ (pieces.drop (k + 1)).flatten := by
  obtain ⟨inside, rfl⟩ := List.getElem?_eq_some_iff.mp found
  have split : pieces = pieces.take k ++ pieces[k] :: pieces.drop (k + 1) := by
    rw [← List.drop_eq_getElem_cons inside, List.take_append_drop]
  have whole : pieces.flatten = (pieces.take k).flatten ++ (pieces[k] ++ (pieces.drop (k + 1)).flatten) := by
    conv_lhs => rw [split]
    rw [List.flatten_append, List.flatten_cons]
  rw [whole, offset, List.drop_left]

theorem offset_set {other : List α} (found : pieces[k]? = some piece) (same : other.length = piece.length) :
    offset (pieces.set k other) m = offset pieces m := by
  induction m with
  | zero => rfl
  | succ m ih =>
    by_cases here : m = k
    · subst here
      have replaced : (pieces.set m other)[m]? = some other := by
        rw [List.getElem?_set_self (List.getElem?_eq_some_iff.mp found).1]
      rw [offset_succ found, offset_succ replaced, ih, same]
    · have kept : (pieces.set k other)[m]? = pieces[m]? := List.getElem?_set_ne (Ne.symm here)
      cases entry : pieces[m]? with
      | none =>
        rw [entry] at kept
        have outside := List.getElem?_eq_none_iff.mp entry
        unfold offset at ih ⊢
        rw [List.take_of_length_le (by simp; omega), List.take_of_length_le (by omega)] at ih ⊢
        exact ih
      | some next =>
        rw [entry] at kept
        rw [offset_succ entry, offset_succ kept, ih]

theorem overwrite_piece {other : List α} (found : pieces[k]? = some piece) (same : other.length = piece.length) :
    pieces.flatten.take (offset pieces k) ++ other ++ pieces.flatten.drop (offset pieces k + other.length) =
      (pieces.set k other).flatten := by
  obtain ⟨inside, rfl⟩ := List.getElem?_eq_some_iff.mp found
  have whole : pieces.flatten = (pieces.take k).flatten ++ (pieces.drop k).flatten := by
    rw [← List.flatten_append, List.take_append_drop]
  have before : pieces.flatten.take (offset pieces k) = (pieces.take k).flatten := by
    rw [whole]
    exact List.take_left
  have behind : pieces.flatten.drop (offset pieces k + other.length) = (pieces.drop (k + 1)).flatten := by
    rw [← List.drop_drop, drop_offset found, same, List.drop_left]
  rw [before, behind, List.set_eq_take_append_cons_drop, if_pos inside, List.flatten_append, List.flatten_cons,
    List.append_assoc]

end Pieces

end Foundation
