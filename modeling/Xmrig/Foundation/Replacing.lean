import Mathlib.Data.List.Basic

/-! A pattern that is replaced from left to right.

The search goes on behind the value that was put in, so the result is the value between the parts
that the occurrences leave.
-/

set_option autoImplicit false

namespace Foundation

universe u v
variable {A : Type u} {B : Type v}

section Search
variable [DecidableEq A] {pattern value text front : List A} {place rounds : Nat}

def findFirst (pattern : List A) : List A → Option Nat
  | [] => if pattern = [] then some 0 else none
  | first :: rest => if pattern <+: first :: rest then some 0 else (findFirst pattern rest).map (· + 1)

def partsBetween (pattern : List A) : Nat → List A → List (List A)
  | 0, text => [text]
  | rounds + 1, text =>
      match findFirst pattern text with
      | none => [text]
      | some place => text.take place :: partsBetween pattern rounds (text.drop (place + pattern.length))

/-- The loop that replaces the pattern from a place on; nothing is left of it after so many rounds. -/
def replaceFrom (pattern value : List A) : Nat → List A → Nat → Option (List A)
  | 0, _, _ => none
  | rounds + 1, text, pos =>
      match findFirst pattern (text.drop pos) with
      | none => some text
      | some place =>
          replaceFrom pattern value rounds
            (text.take (pos + place) ++ value ++ text.drop (pos + place + pattern.length)) (pos + place + value.length)

theorem findFirst_le (found : findFirst pattern text = some place) : place + pattern.length ≤ text.length := by
  induction text generalizing place with
  | nil =>
    unfold findFirst at found
    split at found
    · next empty =>
      cases found
      rw [empty]
      exact Nat.le_refl 0
    · cases found
  | cons first rest ih =>
    unfold findFirst at found
    split at found
    · next here =>
      cases found
      rw [Nat.zero_add]
      exact here.length_le
    · obtain ⟨later, there, rfl⟩ := Option.map_eq_some_iff.mp found
      have bound := ih there
      rw [List.length_cons]
      omega

/-- Nothing is found in front of where the pattern can begin. -/
theorem findFirst_append (apart : ∀ i < front.length, ¬pattern <+: (front ++ text).drop i) :
    findFirst pattern (front ++ text) = (findFirst pattern text).map (· + front.length) := by
  induction front with
  | nil =>
    rw [List.nil_append, List.length_nil]
    cases findFirst pattern text <;> rfl
  | cons first rest ih =>
    have later (i : Nat) (inside : i < rest.length) : ¬pattern <+: (rest ++ text).drop i :=
      apart (i + 1) (Nat.succ_lt_succ inside)
    have here : ¬pattern <+: first :: (rest ++ text) := apart 0 (Nat.zero_lt_succ _)
    rw [List.cons_append, findFirst, if_neg here, ih later, Option.map_map]
    rfl

theorem partsBetween_append (apart : ∀ i < front.length, ¬pattern <+: (front ++ text).drop i) :
    partsBetween pattern rounds (front ++ text) = (partsBetween pattern rounds text).modifyHead (front ++ ·) := by
  cases rounds with
  | zero => rfl
  | succ rounds =>
    unfold partsBetween
    rw [findFirst_append apart]
    cases findFirst pattern text with
    | none => rfl
    | some place =>
      change (front ++ text).take (place + front.length) ::
        partsBetween pattern rounds ((front ++ text).drop (place + front.length + pattern.length)) = _
      rw [Nat.add_comm place, List.take_length_add_append, Nat.add_assoc, List.drop_length_add_append]
      rfl

theorem partsBetween_front (nonempty : pattern ≠ []) :
    partsBetween pattern (rounds + 1) (pattern ++ text) = [] :: partsBetween pattern rounds text := by
  have found : findFirst pattern (pattern ++ text) = some 0 := by
    cases whole : pattern ++ text with
    | nil => exact (nonempty (List.append_eq_nil_iff.mp whole).1).elim
    | cons first rest =>
      rw [findFirst, ← whole, if_pos (List.prefix_append pattern text)]
  rw [partsBetween, found]
  change (pattern ++ text).take 0 :: partsBetween pattern rounds ((pattern ++ text).drop (0 + pattern.length)) = _
  rw [Nat.zero_add, List.drop_left]
  rfl

theorem replaceFrom_eq (nonempty : pattern ≠ []) (enough : text.length < rounds) :
    replaceFrom pattern value rounds (front ++ text) front.length =
      some (front ++ value.intercalate (partsBetween pattern rounds text)) := by
  induction rounds generalizing front text with
  | zero => exact (Nat.not_lt_zero _ enough).elim
  | succ rounds ih =>
    unfold replaceFrom partsBetween
    rw [List.drop_left]
    cases found : findFirst pattern text with
    | none =>
      dsimp only
      rw [List.intercalate_singleton]
    | some place =>
      have bound := findFirst_le found
      have progress : 0 < pattern.length := List.length_pos_iff.mpr nonempty
      have taken : (text.take place).length = place := List.length_take_of_le (by omega)
      have before : (front ++ text).take (front.length + place) = front ++ text.take place := List.take_length_add_append _
      have behind : (front ++ text).drop (front.length + place + pattern.length) = text.drop (place + pattern.length) := by
        rw [Nat.add_assoc]
        exact List.drop_length_add_append _
      have passed : front.length + place + value.length = (front ++ text.take place ++ value).length := by
        rw [List.length_append, List.length_append, taken]
      have rest : (text.drop (place + pattern.length)).length < rounds := by
        rw [List.length_drop]
        omega
      have some_part : partsBetween pattern rounds (text.drop (place + pattern.length)) ≠ [] := by
        cases rounds with
        | zero => exact List.cons_ne_nil _ _
        | succ rounds =>
          unfold partsBetween
          split <;> exact List.cons_ne_nil _ _
      dsimp only
      rw [before, behind, passed, ih rest, List.intercalate_cons_of_ne_nil some_part]
      simp only [List.append_assoc]

theorem replaceFrom_whole (nonempty : pattern ≠ []) (value text : List A) :
    replaceFrom pattern value (text.length + 1) text 0 =
      some (value.intercalate (partsBetween pattern (text.length + 1) text)) :=
  @replaceFrom_eq _ _ pattern value text [] _ nonempty (Nat.lt_succ_self _)

end Search

section Marks
variable [DecidableEq B] {mark : B} {f g : B → List A}

theorem intercalate_append_cons (between front first : List A) (rest : List (List A)) :
    between.intercalate ((front ++ first) :: rest) = front ++ between.intercalate (first :: rest) := by
  cases rest with
  | nil => rw [List.intercalate_singleton, List.intercalate_singleton]
  | cons next rest =>
    rw [List.intercalate_cons_cons, List.intercalate_cons_cons]
    simp only [List.append_assoc]

theorem intercalate_splitOn_flatMap (agree : ∀ item, item ≠ mark → f item = g item) (items : List B) :
    (g mark).intercalate ((items.splitOn mark).map fun part => part.flatMap f) = items.flatMap g := by
  induction items with
  | nil => rfl
  | cons item rest ih =>
    rw [List.splitOn_cons_eq_if_modifyHead, List.flatMap_cons, ← ih]
    obtain ⟨part, parts, split⟩ := List.exists_cons_of_ne_nil (List.splitOn_ne_nil mark rest)
    rw [split]
    by_cases same : item = mark
    · rw [if_pos (beq_iff_eq.mpr same), List.map_cons, List.map_cons, List.intercalate_cons_cons, same]
      rfl
    · rw [if_neg fun equal => same (beq_iff_eq.mp equal), List.modifyHead_cons, List.map_cons, List.map_cons,
        List.flatMap_cons, intercalate_append_cons, agree item same]

end Marks

end Foundation
