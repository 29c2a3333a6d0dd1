import Mathlib.Data.List.FinRange
import Mathlib.Logic.Function.Iterate

/-! A family whose members are changed one after the other.

Every member is changed by a function of its own value only. The order is then lost:
the family is the one whose members were all changed at once, and a loop over the
family is a loop for each member.
-/

set_option autoImplicit false

namespace Foundation

universe u

section InTurn
variable {α : Type u} {n : Nat}

def changeAt (change : Fin n → α → α) : List (Fin n) → (Fin n → α) → Fin n → α
  | [], family => family
  | index :: rest, family => changeAt change rest (Function.update family index (change index (family index)))

def inTurn (change : Fin n → α → α) (family : Fin n → α) : Fin n → α := changeAt change (List.finRange n) family

variable {change : Fin n → α → α}

theorem changeAt_apply {indices : List (Fin n)} (apart : indices.Nodup) (family : Fin n → α) (index : Fin n) :
    changeAt change indices family index =
      if index ∈ indices then change index (family index) else family index := by
  induction indices generalizing family with
  | nil => rfl
  | cons head rest ih =>
    obtain ⟨fresh, apart'⟩ := List.nodup_cons.mp apart
    rw [changeAt, ih apart']
    by_cases here : index = head
    · subst here
      rw [if_neg fresh, if_pos List.mem_cons_self, Function.update_self]
    · -- The head was another one, so the rest decides.
      rw [Function.update_of_ne here]
      simp only [List.mem_cons, here, false_or]

theorem inTurn_eq (change : Fin n → α → α) (family : Fin n → α) :
    inTurn change family = fun index => change index (family index) := by
  funext index
  rw [inTurn, changeAt_apply (List.nodup_finRange n), if_pos (List.mem_finRange index)]

theorem iterate_family {body : (Fin n → α) → Fin n → α} (own : body = fun family index => change index (family index))
    (count : Nat) (family : Fin n → α) :
    body^[count] family = fun index => (change index)^[count] (family index) := by
  induction count with
  | zero => rfl
  | succ count ih =>
    funext index
    rw [Function.iterate_succ_apply', Function.iterate_succ_apply', ih, own]

end InTurn

end Foundation
