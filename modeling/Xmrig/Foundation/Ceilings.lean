import Mathlib.Algebra.GroupWithZero.Nat
import Mathlib.Data.List.Basic

/-! Positions shared out among items by widths.

The items stand one after the other, each as wide as its width says; an item may have no width at all.
-/

set_option autoImplicit false

namespace Foundation

universe u v

section Ceilings
variable {α : Type u} {β : Type v} {width : α → Nat}

def pick (width : α → Nat) : Nat → List α → Option α
  | _, [] => none
  | position, item :: rest => if position < width item then some item else pick width (position - width item) rest

theorem pick_of_lt {position : Nat} {item : α} (rest : List α) (inside : position < width item) :
    pick width position (item :: rest) = some item := if_pos inside

theorem pick_add (position : Nat) (item : α) (rest : List α) :
    pick width (width item + position) (item :: rest) = pick width position rest := by
  rw [pick, if_neg (by omega), Nat.add_sub_cancel_left]

theorem mem_of_pick {position : Nat} {item : α} {items : List α} (picked : pick width position items = some item) :
    item ∈ items := by
  induction items generalizing position with
  | nil => cases picked
  | cons first rest ih =>
    rw [pick] at picked
    split at picked
    · cases picked
      exact List.mem_cons_self
    · exact List.mem_cons_of_mem first (ih picked)

theorem pick_isSome {position : Nat} {items : List α} (below : position < (items.map width).sum) :
    (pick width position items).isSome := by
  induction items generalizing position with
  | nil => cases below
  | cons first rest ih =>
    rw [List.map_cons, List.sum_cons] at below
    rw [pick]
    split
    · rfl
    · apply ih
      omega

theorem pick_map (f : β → α) (position : Nat) (items : List β) :
    pick width position (items.map f) = (pick (width ∘ f) position items).map f := by
  induction items generalizing position with
  | nil => rfl
  | cons first rest ih =>
    rw [List.map_cons, pick, pick]
    split
    · rw [if_pos ‹_›]
      rfl
    · rw [if_neg ‹_›]
      exact ih _

section Count
variable [DecidableEq α]

theorem countP_range_add (first second : Nat) (p : Nat → Bool) :
    (List.range (first + second)).countP p =
      (List.range first).countP p + (List.range second).countP fun position => p (first + position) := by
  rw [List.range_add, List.countP_append, List.countP_map]
  rfl

theorem countP_pick {item : α} {items : List α} (once : items.Nodup) (listed : item ∈ items) :
    (List.range (items.map width).sum).countP (fun position => pick width position items = some item) = width item := by
  induction items with
  | nil => cases listed
  | cons first rest ih =>
    obtain ⟨fresh, later⟩ := List.nodup_cons.mp once
    rw [List.map_cons, List.sum_cons, countP_range_add]
    simp only [pick_add]
    have inside : ∀ position ∈ List.range (width first), pick width position (first :: rest) = some first :=
      fun position below => pick_of_lt rest (List.mem_range.mp below)
    by_cases same : first = item
    · -- The rest does not list the item again.
      subst same
      have all : (List.range (width first)).countP (fun position => pick width position (first :: rest) = some first) =
          (List.range (width first)).length :=
        List.countP_eq_length.mpr fun position below => decide_eq_true (inside position below)
      have elsewhere : (List.range (rest.map width).sum).countP (fun position => pick width position rest = some first) = 0 :=
        List.countP_eq_zero.mpr fun position _ picked => fresh (mem_of_pick (of_decide_eq_true picked))
      rw [all, elsewhere, List.length_range, Nat.add_zero]
    · have elsewhere : (List.range (width first)).countP (fun position => pick width position (first :: rest) = some item) = 0 := by
        apply List.countP_eq_zero.mpr
        intro position below picked
        exact same (Option.some.inj ((inside position below).symm.trans (of_decide_eq_true picked)))
      rw [elsewhere, Nat.zero_add]
      exact ih later ((List.mem_cons.mp listed).resolve_left (Ne.symm same))

end Count

end Ceilings

end Foundation
