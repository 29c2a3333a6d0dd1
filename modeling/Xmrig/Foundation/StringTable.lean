import Mathlib.Data.List.Basic

/-! Strings that end in a zero byte, one behind the other.

A set of strings is closed by an empty one, so that a pair of zeros ends it. A reader
of the string with some number passes the earlier ones; it stays inside of a range of
bytes if the range has the zeros for that, or if the set is closed in the range.
-/

set_option autoImplicit false

namespace Foundation

abbrev Octets := List (BitVec 8)

def terminated : Octets → Option Nat
  | [] => none
  | byte :: rest => if byte = 0 then some 0 else (terminated rest).map (· + 1)

def pairAt : Octets → Option Nat
  | [] => none
  | byte :: rest =>
    if byte = 0 ∧ rest.head? = some 0 then some 0 else (pairAt rest).map (· + 1)

/-- The range has what a reader of the string with that number looks at. -/
def Closes (number : Nat) (area : Octets) : Prop :=
  max number 1 ≤ area.count 0 ∨ area.head? = some 0 ∨ (pairAt area).isSome

instance (number : Nat) (area : Octets) : Decidable (Closes number area) :=
  inferInstanceAs (Decidable (_ ∨ _ ∨ _))

theorem terminated_split {area : Octets} {length : Nat} (ends : terminated area = some length) :
    ∃ content rest, area = content ++ 0 :: rest ∧ content.length = length ∧ 0 ∉ content := by
  induction area generalizing length with
  | nil => cases ends
  | cons byte tail ih =>
    rw [terminated] at ends
    split at ends
    · rename_i zero
      cases ends
      exact ⟨[], tail, by rw [zero]; rfl, rfl, List.not_mem_nil⟩
    · rename_i other
      obtain ⟨shorter, found, rfl⟩ := Option.map_eq_some_iff.mp ends
      obtain ⟨content, rest, rfl, rfl, free⟩ := ih found
      refine ⟨byte :: content, rest, rfl, rfl, ?_⟩
      rw [List.mem_cons, not_or]
      exact ⟨fun same => other same.symm, free⟩

theorem terminated_append {content : Octets} (free : 0 ∉ content) (rest : Octets) :
    terminated (content ++ 0 :: rest) = some content.length := by
  induction content with
  | nil => rfl
  | cons byte tail ih =>
    rw [List.mem_cons, not_or] at free
    rw [List.cons_append, terminated, if_neg (fun same => free.1 same.symm), ih free.2]
    rfl

theorem terminated_eq_none_iff {area : Octets} : terminated area = none ↔ 0 ∉ area := by
  induction area with
  | nil => exact iff_of_true rfl List.not_mem_nil
  | cons byte tail ih =>
    rw [terminated, List.mem_cons, not_or]
    by_cases zero : byte = 0
    · rw [if_pos zero]
      exact iff_of_false (Option.some_ne_none 0) (fun free => free.1 zero.symm)
    · rw [if_neg zero, Option.map_eq_none_iff, ih]
      exact ⟨fun free => ⟨fun same => zero same.symm, free⟩, And.right⟩

theorem pairAt_free {area : Octets} (free : 0 ∉ area) : pairAt area = none := by
  induction area with
  | nil => rfl
  | cons byte tail ih =>
    rw [List.mem_cons, not_or] at free
    rw [pairAt, if_neg (fun both => free.1 both.1.symm), ih free.2]
    rfl

theorem pairAt_append {content : Octets} (free : 0 ∉ content) (rest : Octets) :
    pairAt (content ++ 0 :: rest) =
      if rest.head? = some 0 then some content.length else (pairAt rest).map (· + (content.length + 1)) := by
  induction content with
  | nil =>
    rw [List.nil_append, pairAt]
    simp only [true_and]
    rfl
  | cons byte tail ih =>
    rw [List.mem_cons, not_or] at free
    rw [List.cons_append, pairAt, if_neg (fun both => free.1 both.1.symm), ih free.2]
    split
    · rfl
    · rw [Option.map_map]
      congr 1

theorem pairAt_drop {area : Octets} {i : Nat} (found : pairAt area = some i) : ∃ rest, area.drop i = 0 :: 0 :: rest := by
  induction area generalizing i with
  | nil => cases found
  | cons byte rest ih =>
    rw [pairAt] at found
    split at found
    · rename_i both
      cases found
      obtain ⟨tail, second⟩ := List.head?_eq_some_iff.mp both.2
      exact ⟨tail, by rw [List.drop_zero, both.1, second]⟩
    · obtain ⟨j, later, rfl⟩ := Option.map_eq_some_iff.mp found
      obtain ⟨tail, same⟩ := ih later
      exact ⟨tail, by rw [List.drop_succ_cons, same]⟩

theorem not_closes_nil (number : Nat) : ¬ Closes number [] := by
  rintro (few | none | none)
  · rw [List.count_nil] at few
    omega
  · cases none
  · cases none

theorem closes_zero (number : Nat) (rest : Octets) : Closes number (0 :: rest) := .inr (.inl rfl)

theorem not_closes_free {number : Nat} {area : Octets} (free : 0 ∉ area) : ¬ Closes number area := by
  rintro (few | first | pair)
  · rw [List.count_eq_zero.mpr free] at few
    omega
  · exact free (List.mem_of_mem_head? first)
  · rw [pairAt_free free] at pair
    cases pair

theorem closes_first {number : Nat} {area : Octets} (first : number ≤ 1) (some : 0 ∈ area) : Closes number area := by
  have one := List.count_pos_iff.mpr some
  exact .inl (by omega)

theorem closes_next {number : Nat} {content rest : Octets} (nonempty : content ≠ []) (free : 0 ∉ content) :
    Closes (number + 2) (content ++ 0 :: rest) ↔ Closes (number + 1) rest := by
  have zeros : (content ++ 0 :: rest).count 0 = rest.count 0 + 1 := by
    rw [List.count_append, List.count_eq_zero.mpr free, List.count_cons_self, Nat.zero_add]
  have head : (content ++ 0 :: rest).head? ≠ some 0 := by
    cases content with
    | nil => exact absurd rfl nonempty
    | cons byte tail =>
      intro same
      exact free (Option.some.inj same ▸ List.mem_cons_self)
  unfold Closes
  rw [zeros, pairAt_append free]
  constructor
  · rintro (few | first | pair)
    · exact .inl (by omega)
    · exact absurd first head
    · split at pair
      · rename_i again
        exact .inr (.inl again)
      · rw [Option.isSome_map] at pair
        exact .inr (.inr pair)
  · rintro (few | first | pair)
    · exact .inl (by omega)
    · rw [if_pos first]
      exact .inr (.inr rfl)
    · refine .inr (.inr ?_)
      split
      · rfl
      · rw [Option.isSome_map]
        exact pair

/-! The strings of a set. -/

/-- The strings up to the first empty one; bytes without an end are none. -/
def stringSet (area : Octets) : List Octets := (area.splitOn 0).dropLast.takeWhile (· ≠ [])

theorem stringSet_append {content : Octets} (free : 0 ∉ content) (rest : Octets) :
    stringSet (content ++ 0 :: rest) = if content = [] then [] else content :: stringSet rest := by
  rw [stringSet, List.splitOn_append_cons_self, List.splitOn_eq_singleton free, List.singleton_append,
    List.dropLast_cons_of_ne_nil (List.splitOn_ne_nil 0 rest)]
  split
  · rename_i empty
    rw [empty, List.takeWhile_cons_of_neg (by simp)]
  · rename_i some
    rw [List.takeWhile_cons_of_pos (by simpa using some)]
    rfl

theorem stringSet_zero (rest : Octets) : stringSet (0 :: rest) = [] := stringSet_append List.not_mem_nil rest

theorem splitOn_map {f : BitVec 8 → BitVec 8} (keeps : ∀ byte, f byte = 0 ↔ byte = 0) (area : Octets) :
    (area.map f).splitOn 0 = (area.splitOn 0).map (List.map f) := by
  induction area with
  | nil => rfl
  | cons byte rest ih =>
    have head : (f byte == 0) = (byte == 0) := by
      rw [Bool.eq_iff_iff, beq_iff_eq, beq_iff_eq]
      exact keeps byte
    rw [List.map_cons, List.splitOn_cons_eq_if_modifyHead, List.splitOn_cons_eq_if_modifyHead, head, ih]
    split
    · rfl
    · cases List.splitOn 0 rest <;> rfl

theorem splitOn_free {area content : Octets} (member : content ∈ area.splitOn 0) : 0 ∉ content := by
  induction area generalizing content with
  | nil =>
    rw [List.splitOn_nil, List.mem_singleton] at member
    rw [member]
    exact List.not_mem_nil
  | cons byte rest ih =>
    rw [List.splitOn_cons_eq_if_modifyHead] at member
    split at member
    · rcases List.mem_cons.mp member with rfl | later
      · exact List.not_mem_nil
      · exact ih later
    · rename_i other
      obtain ⟨first, tail, parts⟩ := List.exists_cons_of_ne_nil (List.splitOn_ne_nil 0 rest)
      rw [parts, List.modifyHead_cons] at member
      rcases List.mem_cons.mp member with rfl | later
      · rw [List.mem_cons, not_or]
        refine ⟨fun zero => other (beq_iff_eq.mpr zero.symm), ih ?_⟩
        rw [parts]
        exact List.mem_cons_self
      · apply ih
        rw [parts]
        exact List.mem_cons_of_mem first later

theorem stringSet_mem {area content : Octets} (member : content ∈ stringSet area) : 0 ∉ content :=
  splitOn_free (List.dropLast_subset _ (List.takeWhile_subset _ member))

theorem stringSet_map {f : BitVec 8 → BitVec 8} (keeps : ∀ byte, f byte = 0 ↔ byte = 0) (area : Octets) :
    stringSet (area.map f) = (stringSet area).map (List.map f) := by
  rw [stringSet, stringSet, splitOn_map keeps, ← List.map_dropLast, List.takeWhile_map]
  congr 2
  funext content
  simp

/-! What depends on the zeros only. -/

def zeros (area : Octets) : List Bool := area.map fun byte => decide (byte = 0)

theorem zeros_cons (byte : BitVec 8) (rest : Octets) : zeros (byte :: rest) = decide (byte = 0) :: zeros rest := rfl

theorem count_zeros (area : Octets) : (zeros area).count true = area.count 0 := by
  induction area with
  | nil => rfl
  | cons byte rest ih =>
    rw [zeros_cons, List.count_cons, List.count_cons, ih]
    by_cases zero : byte = 0 <;> simp [zero]

theorem head_zeros (area : Octets) : (zeros area).head? = some true ↔ area.head? = some 0 := by
  cases area with
  | nil => simp [zeros]
  | cons byte rest => simp [zeros]

theorem pairAt_congr {first second : Octets} (same : zeros first = zeros second) : pairAt first = pairAt second := by
  induction first generalizing second with
  | nil =>
    cases second with
    | nil => rfl
    | cons byte rest => cases same
  | cons byte rest ih =>
    cases second with
    | nil => cases same
    | cons other tail =>
      rw [zeros_cons, zeros_cons, List.cons.injEq, decide_eq_decide] at same
      have head : rest.head? = some 0 ↔ tail.head? = some 0 := by
        rw [← head_zeros, ← head_zeros, same.2]
      rw [pairAt, pairAt, ih same.2]
      simp only [same.1, head]

theorem closes_congr {number : Nat} {first second : Octets} (same : zeros first = zeros second) :
    Closes number first ↔ Closes number second := by
  unfold Closes
  rw [← count_zeros, ← count_zeros, ← head_zeros, ← head_zeros, pairAt_congr same, same]

end Foundation
