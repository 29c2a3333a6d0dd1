import Mathlib.Data.Nat.Bitwise
import Mathlib.Data.List.Basic
import Mathlib.Logic.Function.Iterate

/-! Binary hash trees over a list of leaves whose length need not be a power of two.

The last leaves are paired until a power of two is left, which is then halved down to
one. A level is a function of the position, so that in-place computations can be
compared with it; the branch of the leftmost leaf holds its sibling at each level.
-/

set_option autoImplicit false

namespace Foundation

variable {α : Type} (combine : α → α → α)

def pairs : List α → List α
  | first :: second :: rest => combine first second :: pairs rest
  | [last] => [last]
  | [] => []

/-- The leaves of a full tree: those in front kept, the rest paired, such that the largest power of
two that does not exceed their number is left. -/
def fullLevel (leaves : List α) : List α :=
  let kept := 2 * 2 ^ Nat.log2 leaves.length - leaves.length
  leaves.take kept ++ pairs combine (leaves.drop kept)

def treeHash (leaves : List α) : Option α :=
  ((pairs combine)^[Nat.log2 leaves.length] (fullLevel combine leaves)).head?

def above (level : Nat → α) (position : Nat) : α := combine (level (2 * position)) (level (2 * position + 1))

/-- The root over the first `2 ^ height` positions. -/
def root : (height : Nat) → (Nat → α) → α
  | 0, level => level 0
  | height + 1, level => root height (above combine level)

def branch : (height : Nat) → (Nat → α) → List α
  | 0, _ => []
  | height + 1, level => level 1 :: branch height (above combine level)

variable {combine}

theorem foldl_branch (height : Nat) (level : Nat → α) :
    (branch combine height level).foldl combine (level 0) = root combine height level := by
  induction height generalizing level with
  | zero => rfl
  | succ height ih => exact ih (above combine level)

theorem root_congr {height : Nat} {level other : Nat → α} (same : ∀ i < 2 ^ height, level i = other i) :
    root combine height level = root combine height other := by
  induction height generalizing level other with
  | zero => exact same 0 Nat.one_pos
  | succ height ih =>
    apply ih
    intro i inside
    have size : 2 ^ (height + 1) = 2 * 2 ^ height := Nat.pow_succ'
    unfold above
    rw [same (2 * i) (by omega), same (2 * i + 1) (by omega)]

theorem branch_congr {height : Nat} {level other : Nat → α} (same : ∀ i < 2 ^ height, level i = other i) :
    branch combine height level = branch combine height other := by
  induction height generalizing level other with
  | zero => rfl
  | succ height ih =>
    have size : 2 ^ (height + 1) = 2 * 2 ^ height := Nat.pow_succ'
    have positive : 0 < 2 ^ height := Nat.two_pow_pos height
    unfold branch
    rw [same 1 (by omega)]
    refine congrArg _ (ih fun i inside => ?_)
    unfold above
    rw [same (2 * i) (by omega), same (2 * i + 1) (by omega)]

theorem branch_forall {property : α → Prop} (closed : ∀ first second, property (combine first second))
    {height : Nat} {level : Nat → α} (second : 1 ≤ height → property (level 1)) :
    ∀ sibling ∈ branch combine height level, property sibling := by
  induction height generalizing level with
  | zero => exact fun _ member => absurd member List.not_mem_nil
  | succ height ih =>
    intro sibling member
    rcases List.mem_cons.mp member with rfl | later
    · exact second (Nat.succ_pos _)
    · exact ih (fun _ => closed _ _) sibling later

theorem pairs_map_range (level : Nat → α) (count : Nat) :
    pairs combine ((List.range (2 * count)).map level) = (List.range count).map (above combine level) := by
  induction count generalizing level with
  | zero => rfl
  | succ count ih =>
    have two : List.range (2 * (count + 1)) = 0 :: 1 :: (List.range (2 * count)).map (· + 2) := by
      rw [Nat.mul_succ, List.range_succ_eq_map, List.range_succ_eq_map]
      simp only [List.map_cons, List.map_map]
      rfl
    rw [two, List.range_succ_eq_map]
    simp only [List.map_cons, List.map_map, pairs]
    rw [ih]
    refine congrArg _ (List.map_congr_left fun i _ => ?_)
    rfl

theorem iterate_pairs (height : Nat) (level : Nat → α) :
    (pairs combine)^[height] ((List.range (2 ^ height)).map level) = [root combine height level] := by
  induction height generalizing level with
  | zero => rfl
  | succ height ih =>
    rw [Function.iterate_succ_apply, Nat.pow_succ', pairs_map_range, ih]
    rfl

theorem treeHash_eq {leaves : List α} {level : Nat → α}
    (full : fullLevel combine leaves = (List.range (2 ^ Nat.log2 leaves.length)).map level) :
    treeHash combine leaves = some (root combine (Nat.log2 leaves.length) level) := by
  unfold treeHash
  rw [full, iterate_pairs]
  rfl

theorem fullLevel_map_range (leaf : Nat → α) {count kept : Nat} (positive : 0 < count)
    (enough : kept = 2 * 2 ^ Nat.log2 count - count) :
    fullLevel combine ((List.range count).map leaf) = (List.range (2 ^ Nat.log2 count)).map fun i =>
      if i < kept then leaf i else combine (leaf (kept + 2 * (i - kept))) (leaf (kept + 2 * (i - kept) + 1)) := by
  have least : 2 ^ Nat.log2 count ≤ count := Nat.log2_self_le (Nat.ne_of_gt positive)
  have most : count < 2 ^ (Nat.log2 count + 1) := Nat.lt_log2_self
  rw [Nat.pow_succ'] at most
  obtain ⟨moved, size⟩ : ∃ moved, 2 ^ Nat.log2 count = kept + moved := ⟨2 ^ Nat.log2 count - kept, by omega⟩
  have total : count = kept + 2 * moved := by omega
  have front : (List.range count).take kept = List.range kept := by
    rw [List.take_range, Nat.min_eq_left (by omega)]
  have back : (List.range count).drop kept = (List.range (2 * moved)).map (kept + ·) := by
    rw [total, List.range_add]
    exact List.drop_left' List.length_range
  unfold fullLevel
  simp only [List.length_map, List.length_range]
  rw [← enough, ← List.map_take, ← List.map_drop, front, back, List.map_map, pairs_map_range, size, List.range_add,
    List.map_append, List.map_map]
  congr 1
  · refine List.map_congr_left fun i member => ?_
    rw [if_pos (List.mem_range.mp member)]
  · refine List.map_congr_left fun i _ => ?_
    simp only [Function.comp_apply, above]
    rw [if_neg (by omega), Nat.add_sub_cancel_left]
    rfl

end Foundation
