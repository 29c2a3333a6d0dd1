import Mathlib.Data.List.Induction

/-! Maps that keep their entries in the order of their keys.

Keys are only compared by `below`. Two keys of which neither is below the other are the same
key to a map, also where they are not equal: nothing but transitivity is asked of the order.
-/

set_option autoImplicit false

namespace Foundation

structure KeyOrder (Key : Type) where
  below : Key → Key → Bool
  irrefl : ∀ key, below key key = false
  trans : ∀ {first second third : Key}, below first second = true → below second third = true →
    below first third = true

variable {Key Value : Type} {order : KeyOrder Key}

def KeyOrder.same (order : KeyOrder Key) (first second : Key) : Bool :=
  !order.below first second && !order.below second first

theorem KeyOrder.same_iff {first second : Key} :
    order.same first second = true ↔ order.below first second = false ∧ order.below second first = false := by
  unfold same
  rw [Bool.and_eq_true, Bool.not_eq_true', Bool.not_eq_true']

theorem KeyOrder.same_self (key : Key) : order.same key key = true :=
  same_iff.mpr ⟨order.irrefl key, order.irrefl key⟩

/-- No two keys are taken for one. -/
def KeyOrder.Total (order : KeyOrder Key) : Prop :=
  ∀ first second, order.same first second = true → first = second

def SortedBy (order : KeyOrder Key) (entries : List (Key × Value)) : Prop :=
  entries.Pairwise fun first second => order.below first.1 second.1 = true

theorem SortedBy.value_eq {entries : List (Key × Value)} (sorted : SortedBy order entries) {key : Key}
    {first second : Value} (one : (key, first) ∈ entries) (other : (key, second) ∈ entries) :
    first = second := by
  induction entries with
  | nil => cases one
  | cons head rest ih =>
    obtain ⟨above, later⟩ := List.pairwise_cons.mp sorted
    have apart {value : Value} (member : (key, value) ∈ rest) (at_head : head.1 = key) : False := by
      have lower := above _ member
      rw [at_head, order.irrefl] at lower
      cases lower
    rcases List.mem_cons.mp one with rfl | behind
    · rcases List.mem_cons.mp other with same | after
      · cases same
        rfl
      · exact (apart after rfl).elim
    · rcases List.mem_cons.mp other with rfl | after
      · exact (apart behind rfl).elim
      · exact ih later behind after

structure OrderedMap (order : KeyOrder Key) (Value : Type) where
  entries : List (Key × Value)
  sorted : SortedBy order entries

namespace OrderedMap

@[ext] theorem ext {first second : OrderedMap order Value} (equal : first.entries = second.entries) :
    first = second := by
  cases first
  cases second
  cases equal
  rfl

def empty : OrderedMap order Value := ⟨[], List.Pairwise.nil⟩

/-- The first entry that is not below the key, if the key is not below it either. -/
def findIn (order : KeyOrder Key) (entries : List (Key × Value)) (key : Key) : Option (Key × Value) :=
  match entries with
  | [] => none
  | entry :: rest =>
    if order.below entry.1 key then findIn order rest key
    else if order.below key entry.1 then none
    else some entry

def insertIn (order : KeyOrder Key) (entries : List (Key × Value)) (key : Key) (value : Value) :
    List (Key × Value) :=
  match entries with
  | [] => [(key, value)]
  | entry :: rest =>
    if order.below entry.1 key then entry :: insertIn order rest key value
    else if order.below key entry.1 then (key, value) :: entry :: rest
    else entry :: rest

theorem findIn_some_iff {entries : List (Key × Value)} (sorted : SortedBy order entries) {key : Key} :
    (findIn order entries key).isSome = true ↔ ∃ entry ∈ entries, order.same entry.1 key = true := by
  induction entries with
  | nil =>
    constructor
    · intro found
      cases found
    · rintro ⟨entry, member, -⟩
      cases member
  | cons entry rest ih =>
    obtain ⟨first, later⟩ := List.pairwise_cons.mp sorted
    unfold findIn
    split
    · rename_i below
      rw [ih later]
      constructor
      · rintro ⟨other, member, equal⟩
        exact ⟨other, List.mem_cons_of_mem _ member, equal⟩
      · rintro ⟨other, member, equal⟩
        rcases List.mem_cons.mp member with rfl | member
        · rw [KeyOrder.same_iff, below] at equal
          cases equal.1
        · exact ⟨other, member, equal⟩
    · rename_i notBelow
      split
      · rename_i above
        constructor
        · intro found
          cases found
        · rintro ⟨other, member, equal⟩
          rw [KeyOrder.same_iff] at equal
          rcases List.mem_cons.mp member with rfl | member
          · rw [above] at equal
            cases equal.2
          · rw [order.trans above (first other member)] at equal
            cases equal.2
      · rename_i notAbove
        rw [Bool.not_eq_true] at notBelow notAbove
        exact iff_of_true rfl ⟨entry, List.mem_cons_self, KeyOrder.same_iff.mpr ⟨notBelow, notAbove⟩⟩

theorem findIn_mem {entries : List (Key × Value)} {key : Key} {entry : Key × Value}
    (found : findIn order entries key = some entry) : entry ∈ entries := by
  induction entries with
  | nil => cases found
  | cons head rest ih =>
    unfold findIn at found
    split at found
    · exact List.mem_cons_of_mem _ (ih found)
    · split at found
      · cases found
      · cases found
        exact List.mem_cons_self

theorem findIn_same {entries : List (Key × Value)} {key : Key} {entry : Key × Value}
    (found : findIn order entries key = some entry) : order.same entry.1 key = true := by
  induction entries with
  | nil => cases found
  | cons head rest ih =>
    unfold findIn at found
    split at found
    · exact ih found
    · rename_i notBelow
      split at found
      · cases found
      · rename_i notAbove
        cases found
        rw [Bool.not_eq_true] at notBelow notAbove
        exact KeyOrder.same_iff.mpr ⟨notBelow, notAbove⟩

theorem mem_insertIn {entries : List (Key × Value)} {key : Key} {value : Value}
    {entry : Key × Value} :
    entry ∈ insertIn order entries key value →
      entry ∈ entries ∨ (findIn order entries key = none ∧ entry = (key, value)) := by
  induction entries with
  | nil =>
    intro member
    exact .inr ⟨rfl, List.mem_singleton.mp member⟩
  | cons head rest ih =>
    unfold insertIn findIn
    split
    · intro member
      rcases List.mem_cons.mp member with rfl | member
      · exact .inl List.mem_cons_self
      · rcases ih member with old | new
        · exact .inl (List.mem_cons_of_mem _ old)
        · exact .inr new
    · split
      · intro member
        rcases List.mem_cons.mp member with rfl | member
        · exact .inr ⟨rfl, rfl⟩
        · exact .inl member
      · exact .inl

theorem mem_insertIn_of_mem {entries : List (Key × Value)} {key : Key} {value : Value}
    {entry : Key × Value} (member : entry ∈ entries) : entry ∈ insertIn order entries key value := by
  induction entries with
  | nil => cases member
  | cons head rest ih =>
    unfold insertIn
    split
    · rcases List.mem_cons.mp member with rfl | member
      · exact List.mem_cons_self
      · exact List.mem_cons_of_mem _ (ih member)
    · split
      · exact List.mem_cons_of_mem _ member
      · exact member

theorem mem_insertIn_new {entries : List (Key × Value)} {key : Key} {value : Value}
    (absent : findIn order entries key = none) : (key, value) ∈ insertIn order entries key value := by
  induction entries with
  | nil => exact List.mem_singleton.mpr rfl
  | cons head rest ih =>
    unfold findIn at absent
    unfold insertIn
    split at absent
    · rename_i below
      rw [if_pos below]
      exact List.mem_cons_of_mem _ (ih absent)
    · rename_i notBelow
      rw [if_neg notBelow]
      split at absent
      · rename_i above
        rw [if_pos above]
        exact List.mem_cons_self
      · cases absent

theorem insertIn_sorted {entries : List (Key × Value)} (sorted : SortedBy order entries) (key : Key)
    (value : Value) : SortedBy order (insertIn order entries key value) := by
  induction entries with
  | nil => exact List.pairwise_singleton _ _
  | cons head rest ih =>
    obtain ⟨first, later⟩ := List.pairwise_cons.mp sorted
    unfold insertIn
    split
    · rename_i below
      apply List.pairwise_cons.mpr
      refine ⟨fun entry member => ?_, ih later⟩
      rcases mem_insertIn member with old | ⟨-, rfl⟩
      · exact first entry old
      · exact below
    · split
      · rename_i above
        apply List.pairwise_cons.mpr
        refine ⟨fun entry member => ?_, sorted⟩
        rcases List.mem_cons.mp member with rfl | member
        · exact above
        · exact order.trans above (first entry member)
      · exact sorted

variable (map : OrderedMap order Value)

def find (key : Key) : Option Value := (findIn order map.entries key).map Prod.snd

def has (key : Key) : Bool := (findIn order map.entries key).isSome

def insert (key : Key) (value : Value) : OrderedMap order Value :=
  ⟨insertIn order map.entries key value, insertIn_sorted map.sorted key value⟩

def assign (key : Key) (value : Value) : OrderedMap order Value :=
  if map.has key then
    ⟨map.entries.map fun entry => if order.same entry.1 key then (entry.1, value) else entry, by
      apply List.pairwise_map.mpr
      apply map.sorted.imp
      intro first second below
      split
      · split
        · exact below
        · exact below
      · split
        · exact below
        · exact below⟩
  else map.insert key value

def filter (kept : Key × Value → Bool) : OrderedMap order Value :=
  ⟨map.entries.filter kept, map.sorted.filter kept⟩

def insertAll (entries : List (Key × Value)) : OrderedMap order Value :=
  entries.foldl (fun map entry => map.insert entry.1 entry.2) map

theorem has_iff {key : Key} : map.has key = true ↔ ∃ entry ∈ map.entries, order.same entry.1 key = true :=
  findIn_some_iff map.sorted

theorem find_eq_none_iff {key : Key} : map.find key = none ↔ map.has key = false := by
  unfold find has
  cases findIn order map.entries key <;> simp

theorem assign_of_not_has {key : Key} (absent : map.has key = false) (value : Value) :
    map.assign key value = map.insert key value := by
  unfold assign
  rw [absent, if_neg Bool.false_ne_true]

theorem insert_of_has {key : Key} (there : map.has key = true) (value : Value) :
    map.insert key value = map := by
  apply ext
  change insertIn order map.entries key value = map.entries
  unfold has at there
  generalize map.entries = entries at there
  induction entries with
  | nil => cases there
  | cons head rest ih =>
    unfold findIn at there
    unfold insertIn
    split at there
    · rename_i below
      rw [if_pos below, ih there]
    · rename_i notBelow
      rw [if_neg notBelow]
      split at there
      · cases there
      · rename_i notAbove
        rw [if_neg notAbove]

theorem mem_insert {key : Key} {value : Value} {entry : Key × Value} :
    entry ∈ (map.insert key value).entries ↔
      entry ∈ map.entries ∨ (map.has key = false ∧ entry = (key, value)) := by
  constructor
  · intro member
    rcases mem_insertIn member with old | ⟨absent, rfl⟩
    · exact .inl old
    · refine .inr ⟨?_, rfl⟩
      unfold has
      rw [absent]
      rfl
  · rintro (old | ⟨absent, rfl⟩)
    · exact mem_insertIn_of_mem old
    · exact mem_insertIn_new (Option.not_isSome_iff_eq_none.mp (by
        rw [Bool.not_eq_true]
        exact absent))

theorem has_insert {key other : Key} {value : Value} :
    (map.insert key value).has other = true ↔
      map.has other = true ∨ (map.has key = false ∧ order.same key other = true) := by
  rw [has_iff, has_iff]
  constructor
  · rintro ⟨entry, member, equal⟩
    rcases map.mem_insert.mp member with old | ⟨absent, rfl⟩
    · exact .inl ⟨entry, old, equal⟩
    · exact .inr ⟨absent, equal⟩
  · rintro (⟨entry, member, equal⟩ | ⟨absent, equal⟩)
    · exact ⟨entry, map.mem_insert.mpr (.inl member), equal⟩
    · exact ⟨(key, value), map.mem_insert.mpr (.inr ⟨absent, rfl⟩), equal⟩

theorem has_insert_self (key : Key) (value : Value) : (map.insert key value).has key = true := by
  apply map.has_insert.mpr
  cases there : map.has key with
  | true => exact .inl rfl
  | false => exact .inr ⟨rfl, KeyOrder.same_self key⟩

theorem insert_last {key : Key} (above : ∀ entry ∈ map.entries, order.below entry.1 key = true)
    (value : Value) : (map.insert key value).entries = map.entries ++ [(key, value)] := by
  change insertIn order map.entries key value = _
  generalize map.entries = entries at above
  induction entries with
  | nil => rfl
  | cons head rest ih =>
    unfold insertIn
    rw [if_pos (above head List.mem_cons_self),
      ih fun entry member => above entry (List.mem_cons_of_mem _ member)]
    rfl

theorem insertAll_sorted {entries : List (Key × Value)} (sorted : SortedBy order entries) :
    (empty.insertAll entries : OrderedMap order Value).entries = entries := by
  induction entries using List.reverseRecOn with
  | nil => rfl
  | append_singleton earlier last ih =>
    obtain ⟨before, -, above⟩ := List.pairwise_append.mp sorted
    have entries := ih before
    unfold insertAll at entries ⊢
    rw [List.foldl_append, List.foldl_cons, List.foldl_nil, insert_last, entries]
    rw [entries]
    intro entry member
    exact above entry member last (List.mem_singleton.mpr rfl)

theorem insertAll_entries : empty.insertAll map.entries = map := ext (insertAll_sorted map.sorted)

section Total
variable (total : order.Total)
include total

theorem has_iff_mem {key : Key} : map.has key = true ↔ ∃ value, (key, value) ∈ map.entries := by
  rw [has_iff]
  constructor
  · rintro ⟨⟨other, value⟩, member, equal⟩
    cases total _ _ equal
    exact ⟨value, member⟩
  · rintro ⟨value, member⟩
    exact ⟨(key, value), member, KeyOrder.same_self key⟩

theorem has_insert_total {key other : Key} {value : Value} :
    (map.insert key value).has other = true ↔ map.has other = true ∨ key = other := by
  rw [has_insert]
  constructor
  · rintro (old | ⟨-, equal⟩)
    · exact .inl old
    · exact .inr (total _ _ equal)
  · rintro (old | rfl)
    · exact .inl old
    · cases there : map.has key with
      | true => exact .inl rfl
      | false => exact .inr ⟨rfl, KeyOrder.same_self key⟩

theorem has_insertAll {entries : List (Key × Value)} {other : Key} :
    (map.insertAll entries).has other = true ↔
      map.has other = true ∨ ∃ value, (other, value) ∈ entries := by
  induction entries generalizing map with
  | nil =>
    constructor
    · exact .inl
    · rintro (old | ⟨value, member⟩)
      · exact old
      · cases member
  | cons entry rest ih =>
    refine (ih (map.insert entry.1 entry.2)).trans ?_
    rw [has_insert_total map total]
    constructor
    · rintro ((old | rfl) | ⟨value, member⟩)
      · exact .inl old
      · exact .inr ⟨entry.2, List.mem_cons_self⟩
      · exact .inr ⟨value, List.mem_cons_of_mem _ member⟩
    · rintro (old | ⟨value, member⟩)
      · exact .inl (.inl old)
      · rcases List.mem_cons.mp member with rfl | member
        · exact .inl (.inr rfl)
        · exact .inr ⟨value, member⟩

theorem find_of_mem {key : Key} {value : Value} (member : (key, value) ∈ map.entries) :
    map.find key = some value := by
  have there := (map.has_iff_mem total).mpr ⟨value, member⟩
  obtain ⟨⟨other, found⟩, looked⟩ := Option.isSome_iff_exists.mp there
  have same : key = other := (total _ _ (findIn_same looked)).symm
  subst same
  unfold find
  rw [looked, map.sorted.value_eq member (findIn_mem looked)]
  rfl

theorem find_eq_some_iff {key : Key} {value : Value} :
    map.find key = some value ↔ (key, value) ∈ map.entries := by
  constructor
  · intro found
    obtain ⟨⟨other, _⟩, looked, rfl⟩ := Option.map_eq_some_iff.mp found
    cases total _ _ (findIn_same looked)
    exact findIn_mem looked
  · exact map.find_of_mem total

end Total

end OrderedMap

end Foundation
