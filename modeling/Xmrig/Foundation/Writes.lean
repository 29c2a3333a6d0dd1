import Mathlib.Data.List.Perm.Basic

/-! Writes to a memory, one cell after the other.

Where all writes to a cell carry the same value it does not matter in which order several
parties make them, or how often.
-/

set_option autoImplicit false

namespace Foundation

variable {Address Value : Type} [DecidableEq Address]

def applyWrites (writes : List (Address × Value)) (memory : Address → Value) : Address → Value :=
  writes.foldl (fun memory write => Function.update memory write.1 write.2) memory

/-- Every write carries the value that belongs to its address. -/
def Consistent (content : Address → Value) (writes : List (Address × Value)) : Prop :=
  ∀ write ∈ writes, write.2 = content write.1

variable {content : Address → Value} {writes : List (Address × Value)}

/-- A cell has its content where it was written, and is as it was elsewhere. -/
theorem applyWrites_eq (consistent : Consistent content writes) (memory : Address → Value) (address : Address) :
    applyWrites writes memory address =
      if address ∈ writes.map Prod.fst then content address else memory address := by
  induction writes generalizing memory with
  | nil => rfl
  | cons write rest ih =>
    have later : Consistent content rest := fun other member => consistent other (List.mem_cons_of_mem _ member)
    have first := consistent write List.mem_cons_self
    change applyWrites rest (Function.update memory write.1 write.2) address = _
    rw [ih later, List.map_cons]
    by_cases again : address ∈ rest.map Prod.fst
    · rw [if_pos again, if_pos (List.mem_cons_of_mem _ again)]
    · rw [if_neg again]
      by_cases own : address = write.1
      · subst own
        rw [Function.update_self, if_pos List.mem_cons_self, first]
      · have other : address ∉ write.1 :: rest.map Prod.fst := by
          intro member
          exact (List.mem_cons.mp member).elim own again
        rw [Function.update_of_ne own, if_neg other]

omit [DecidableEq Address] in
theorem Consistent.perm {order : List (Address × Value)} (consistent : Consistent content writes)
    (same : order.Perm writes) : Consistent content order :=
  fun write member => consistent write (same.subset member)

theorem applyWrites_perm {order : List (Address × Value)} (consistent : Consistent content writes)
    (same : order.Perm writes) (memory : Address → Value) :
    applyWrites order memory = applyWrites writes memory := by
  funext address
  have members : address ∈ order.map Prod.fst ↔ address ∈ writes.map Prod.fst :=
    (same.map Prod.fst).mem_iff
  rw [applyWrites_eq (consistent.perm same), applyWrites_eq consistent]
  simp only [members]

end Foundation
