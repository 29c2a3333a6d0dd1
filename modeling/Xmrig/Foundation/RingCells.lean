import Mathlib.Data.List.Basic

/-! Cells that are written round and round.

The cell behind the last one that was written is the next one. Counted back from the newest, the
cells hold the values in the order they came, and the first value of all where none has come yet.
-/

set_option autoImplicit false

namespace Foundation

universe u
variable {A : Type u} {size top : Nat} {cells values : List A} {empty : A}

def cellBack (size top age : Nat) : Nat := (top + (size - 1 - age)) % size

/-- The cells with the values that were written, the newest first. -/
structure Aged (size top : Nat) (cells : List A) (empty : A) (values : List A) : Prop where
  length : cells.length = size
  top_lt : top < size
  back : ∀ age < size, cells[cellBack size top age]? = some (values.getD age empty)

theorem aged_replicate (positive : 0 < size) (empty : A) : Aged size 0 (List.replicate size empty) empty [] := by
  refine ⟨List.length_replicate, positive, fun age _ => ?_⟩
  have inside : cellBack size 0 age < size := Nat.mod_lt _ positive
  rw [List.getElem?_replicate, if_pos inside]
  rfl

theorem cellBack_eq {age : Nat} (bound : top < size) (inside : age < size) :
    cellBack size top age = if age < top then top - 1 - age else top + (size - 1 - age) := by
  unfold cellBack
  split
  · rw [show top + (size - 1 - age) = top - 1 - age + size by omega, Nat.add_mod_right, Nat.mod_eq_of_lt (by omega)]
  · exact Nat.mod_eq_of_lt (by omega)

theorem cellBack_ne {age : Nat} (bound : top < size) (later : 0 < age) (inside : age < size) :
    cellBack size top age ≠ cellBack size top 0 := by
  rw [cellBack_eq bound inside, cellBack_eq bound (Nat.zero_lt_of_lt inside)]
  split <;> split <;> omega

theorem cellBack_succ {age : Nat} (inside : age + 1 < size) :
    (cellBack size top age + (size - 1)) % size = cellBack size top (age + 1) := by
  unfold cellBack
  rw [Nat.mod_add_mod, show top + (size - 1 - age) + (size - 1) = top + (size - 1 - (age + 1)) + size by omega,
    Nat.add_mod_right]

theorem cellBack_last (bound : top < size) :
    (cellBack size top (size - 1) + (size - 1)) % size = cellBack size top 0 := by
  unfold cellBack
  rw [Nat.mod_add_mod]
  congr 1
  omega

theorem cellBack_pred {age : Nat} (inside : age + 1 < size) :
    (cellBack size top (age + 1) + 1) % size = cellBack size top age := by
  unfold cellBack
  rw [Nat.mod_add_mod]
  congr 1
  omega

theorem Aged.push (aged : Aged size top cells empty values) (value : A) :
    Aged size ((top + 1) % size) (cells.set top value) empty (value :: values) := by
  have positive := Nat.zero_lt_of_lt aged.top_lt
  refine ⟨by rw [List.length_set, aged.length], Nat.mod_lt _ positive, fun age inside => ?_⟩
  have bound := aged.top_lt
  have next : (top + 1) % size < size := Nat.mod_lt _ positive
  have turn : (top + 1) % size = if top + 1 < size then top + 1 else 0 := by
    split
    · exact Nat.mod_eq_of_lt ‹_›
    · rw [show top + 1 = size by omega, Nat.mod_self]
  cases age with
  | zero =>
    have newest : cellBack size ((top + 1) % size) 0 = top := by
      rw [cellBack_eq next inside, turn]
      split <;> split <;> omega
    rw [newest, List.getElem?_set_self (by rw [aged.length]; exact bound)]
    rfl
  | succ age =>
    have older : cellBack size ((top + 1) % size) (age + 1) = cellBack size top age := by
      rw [cellBack_eq next inside, cellBack_eq bound (Nat.lt_of_succ_lt inside), turn]
      split <;> split <;> split <;> omega
    have other : top ≠ cellBack size top age := by
      rw [cellBack_eq bound (Nat.lt_of_succ_lt inside)]
      split <;> omega
    rw [older, List.getElem?_set_ne other, aged.back age (Nat.lt_of_succ_lt inside)]
    rfl

end Foundation
