import Xmrig.Hw.DmiReader

/-! The strings that a structure refers to.

A reference is the number of a string, counted from one. Finding a string filters it where it
stands, so the strings that were found before are looked at again after the others.
-/

set_option autoImplicit false

namespace Xmrig.Dmi

open Foundation

/-- Strings that are found one after the other, and copied afterwards. -/
def resolve (h : Header) (offsets : List Nat) : Decoder (List (Option (List Byte))) := do
  let found ← offsets.mapM (dmiString h)
  found.mapM copyString

/-! ## What a reference stands for -/

def stringOf (strings : List Octets) (s : Nat) : Option Octets :=
  if s = 0 then none else (strings[s - 1]?).map (List.map printable)

def Header.strings (h : Header) (table : List Byte) : List Octets := stringSet (table.drop (h.data + h.length.toNat))

def Header.reference (h : Header) (table : List Byte) (offset : Nat) : Nat := (byteAt table (h.data + offset)).toNat

/-- The string of a number as the loop finds it: zero is taken for one. -/
def passed (strings : List Octets) (s : Nat) : Option Octets := (strings[s - 1]?).map (List.map printable)

theorem passed_eq_iff {strings : List Octets} {s : Nat} :
    passed strings s = stringOf strings s ↔ s ≠ 0 ∨ strings = [] := by
  unfold passed stringOf
  by_cases zero : s = 0
  · rw [zero, if_pos rfl, Option.map_eq_none_iff]
    cases strings <;> simp
  · simp [zero]

/-! ## Filtering -/

section Filtering
variable {before table after later : List Byte} {bp : Nat}

theorem printable_printable (byte : Byte) : printable (printable byte) = printable byte := by
  revert byte
  decide

/-- Some bytes have been made printable. -/
def Filters (before after : List Byte) : Prop :=
  ∀ i : Nat, after[i]? = before[i]? ∨ ∃ byte, before[i]? = some byte ∧ byte ≠ 0 ∧ after[i]? = some (printable byte)

theorem Filters.refl : Filters table table := fun _ => .inl rfl

theorem Filters.trans (first : Filters before table) (second : Filters table after) : Filters before after := by
  intro i
  rcases second i with same | ⟨byte, here, other, changed⟩
  · rw [same]
    exact first i
  · rcases first i with same | ⟨old, there, some, filtered⟩
    · exact .inr ⟨byte, same ▸ here, other, changed⟩
    · refine .inr ⟨old, there, some, ?_⟩
      rw [filtered] at here
      rw [changed, ← Option.some.inj here, printable_printable]

def shown (byte : Byte) : Byte := if byte = 0 then 0 else printable byte

theorem shown_zero (byte : Byte) : shown byte = 0 ↔ byte = 0 := by
  unfold shown
  by_cases zero : byte = 0
  · rw [if_pos zero]
    exact iff_of_true rfl zero
  · rw [if_neg zero]
    exact iff_of_false (printable_zero byte zero) zero

theorem Filters.shown (filters : Filters before after) : after.map Dmi.shown = before.map Dmi.shown := by
  apply List.ext_getElem?
  intro i
  rw [List.getElem?_map, List.getElem?_map]
  rcases filters i with same | ⟨byte, here, other, changed⟩
  · rw [same]
  · have free := printable_zero byte other
    rw [here, changed, Option.map_some, Option.map_some, Dmi.shown, Dmi.shown, if_neg free, if_neg other,
      printable_printable]

/-- The strings of a set without zeros are shown as they are made printable. -/
theorem stringSet_shown (area : Octets) : stringSet (area.map shown) = (stringSet area).map (List.map printable) := by
  rw [stringSet_map shown_zero]
  apply List.map_congr_left
  intro content member
  apply List.map_congr_left
  intro byte inside
  apply if_neg
  rintro rfl
  exact stringSet_mem member inside

theorem Filters.passed (filters : Filters before after) (address s : Nat) :
    Dmi.passed (stringSet (after.drop address)) s = Dmi.passed (stringSet (before.drop address)) s := by
  have same : (after.drop address).map Dmi.shown = (before.drop address).map Dmi.shown := by
    rw [List.map_drop, List.map_drop, filters.shown]
  have sets := congrArg stringSet same
  rw [stringSet_shown, stringSet_shown] at sets
  rw [Dmi.passed, Dmi.passed, ← List.getElem?_map, ← List.getElem?_map, sets]

/-- A string that was found, with its end; nothing in it is left to be filtered. -/
inductive Reads (table : List Byte) : Option Nat → Option Octets → Prop
  | none : Reads table none none
  | some {bp : Nat} {chars rest : Octets} : table.drop bp = chars ++ 0 :: rest →
      (∀ char ∈ chars, char ≠ 0 ∧ printable char = char) → Reads table (some bp) (some chars)

theorem Reads.kept {found : Option Nat} {chars : Option Octets} (reads : Reads table found chars)
    (filters : Filters table later) : Reads later found chars := by
  cases reads with
  | none => exact .none
  | @some bp chars rest here plain =>
    refine @Reads.some _ _ _ (later.drop (bp + chars.length + 1)) ?_ plain
    apply List.ext_getElem?
    intro i
    have byte := congrArg (fun area => area[i]?) here
    rw [List.getElem?_drop] at byte ⊢
    rcases Nat.lt_trichotomy i chars.length with inside | rfl | behind
    · have member := List.getElem_mem inside
      rw [List.getElem?_append_left inside, List.getElem?_eq_getElem inside] at byte ⊢
      rcases filters (bp + i) with same | ⟨old, was, -, changed⟩
      · rw [same, byte]
      · rw [byte] at was
        rw [changed, ← Option.some.inj was, (plain _ member).2]
    · rw [List.getElem?_append_right (Nat.le_refl _), Nat.sub_self] at byte ⊢
      rcases filters (bp + chars.length) with same | ⟨old, was, other, -⟩
      · rw [same, byte]
        rfl
      · rw [byte] at was
        exact absurd (Option.some.inj was).symm other
    · obtain ⟨k, rfl⟩ := Nat.exists_eq_add_of_lt behind
      rw [List.getElem?_append_right (by omega), show chars.length + k + 1 - chars.length = k + 1 by omega,
        List.getElem?_cons_succ, List.getElem?_drop]
      congr 1
      omega

theorem Reads.copied {found : Option Nat} {chars : Option Octets} (reads : Reads table found chars) :
    (copyString found).run table = .ok (chars, table) := by
  cases reads with
  | none => rfl
  | @some bp chars rest here plain =>
    have free : 0 ∉ chars := fun zero => (plain 0 zero).1 rfl
    have ends := terminated_append free rest
    rw [← here] at ends
    unfold copyString
    rw [run_bind_ok (strlen_run ends)]
    change Except.ok (Option.some ((table.drop bp).take chars.length), table) = _
    rw [here, List.take_left]

end Filtering

/-! ## One reference -/

section Single
variable {table : List Byte}

theorem asciiFilter_reads {bp : Nat} {content rest : List Byte} (split : table.drop bp = content ++ 0 :: rest)
    (free : 0 ∉ content) :
    ∃ after, (asciiFilter bp content.length).run table = .ok ((), after) ∧ Filters table after ∧
      Reads after (some bp) (some (content.map printable)) := by
  have here (i : Nat) : table[bp + i]? = (content ++ 0 :: rest)[i]? := by
    rw [← split, List.getElem?_drop]
  refine ⟨_, rfl, ?_, ?_⟩
  · intro i
    rw [List.getElem?_mapIdx]
    cases found : table[i]? with
    | none => exact .inl rfl
    | some byte =>
      by_cases within : bp ≤ i ∧ i < bp + content.length
      · have inside : i - bp < content.length := by omega
        have known := here (i - bp)
        rw [Nat.add_sub_cancel' within.1, found, List.getElem?_append_left inside] at known
        refine .inr ⟨byte, rfl, ?_, by rw [Option.map_some, if_pos within]⟩
        rintro rfl
        exact free (List.mem_of_getElem? known.symm)
      · left
        rw [Option.map_some, if_neg within]
  · refine @Reads.some _ _ _ rest ?_ ?_
    · apply List.ext_getElem?
      intro i
      rw [List.getElem?_drop, List.getElem?_mapIdx, here]
      by_cases inside : i < content.length
      · rw [List.getElem?_append_left inside, List.getElem?_append_left (by simpa using inside), List.getElem?_map]
        simp [inside]
      · rw [List.getElem?_append_right (Nat.not_lt.mp inside), List.getElem?_append_right (by simpa using inside),
          List.length_map]
        simp [inside]
    · intro char member
      obtain ⟨byte, inside, rfl⟩ := List.mem_map.mp member
      refine ⟨printable_zero byte ?_, printable_printable byte⟩
      rintro rfl
      exact free inside

theorem takeString_reads {bp : Nat} (closes : Closes 1 (table.drop bp)) :
    ∃ found after, (takeString bp).run table = .ok (found, after) ∧ Filters table after ∧
      Reads after found ((stringSet (table.drop bp)).head?.map (List.map printable)) := by
  unfold takeString
  cases here : table.drop bp with
  | nil =>
    rw [here] at closes
    exact absurd closes (not_closes_nil 1)
  | cons byte rest =>
    obtain ⟨inside, same⟩ := drop_cons here
    rw [run_bind_ok (read_run inside), same]
    by_cases zero : byte = 0
    · rw [if_pos zero, zero, stringSet_zero]
      exact ⟨none, table, rfl, .refl, .none⟩
    · rw [if_neg zero]
      cases ends : terminated (table.drop bp) with
      | none => exact absurd closes (not_closes_free (terminated_eq_none_iff.mp ends))
      | some length =>
        obtain ⟨content, tail, split, rfl, free⟩ := terminated_split ends
        obtain ⟨after, ran, filters, reads⟩ := asciiFilter_reads split free
        have nonempty : content ≠ [] := by
          rintro rfl
          rw [here] at split
          exact zero (List.cons.inj split).1
        rw [run_bind_ok (strlen_run ends), run_bind_ok ran]
        refine ⟨some bp, after, rfl, filters, ?_⟩
        rw [← here, split, stringSet_append free, if_neg nonempty]
        exact reads

theorem dmiStringAt_reads {s bp : Nat} (closes : Closes s (table.drop bp)) :
    ∃ found after, (dmiStringAt s bp).run table = .ok (found, after) ∧ Filters table after ∧
      Reads after found (passed (stringSet (table.drop bp)) s) := by
  induction s using Nat.twoStepInduction generalizing bp with
  | zero =>
    rw [passed, ← List.head?_eq_getElem?]
    exact takeString_reads closes
  | one =>
    rw [passed, ← List.head?_eq_getElem?]
    exact takeString_reads closes
  | more s _ ih =>
    rw [dmiStringAt_more]
    cases here : table.drop bp with
    | nil =>
      rw [here] at closes
      exact absurd closes (not_closes_nil _)
    | cons byte rest =>
      obtain ⟨inside, same⟩ := drop_cons here
      rw [run_bind_ok (read_run inside), same]
      by_cases zero : byte = 0
      · rw [if_pos zero, zero, stringSet_zero]
        have found := @takeString_reads table bp (by rw [here, zero]; exact closes_zero 1 rest)
        rw [here, zero, stringSet_zero] at found
        exact found
      · rw [if_neg zero]
        cases ends : terminated (table.drop bp) with
        | none => exact absurd closes (not_closes_free (terminated_eq_none_iff.mp ends))
        | some length =>
          obtain ⟨content, tail, split, rfl, free⟩ := terminated_split ends
          have nonempty : content ≠ [] := by
            rintro rfl
            rw [here] at split
            exact zero (List.cons.inj split).1
          rw [run_bind_ok (strlen_run ends), ← here, split, stringSet_append free, if_neg nonempty]
          rw [split] at closes
          have later := @ih (bp + content.length + 1) (by
            rw [drop_behind split]
            exact (closes_next nonempty free).mp closes)
          rw [drop_behind split] at later
          exact later

end Single

/-! ## Several references -/

section Several
variable {h : Header} {before table : List Byte} {offset : Nat}

/-- A table whose strings behind a structure have been filtered. -/
structure Shows (h : Header) (before table : List Byte) : Prop where
  frame : Frame (h.data + h.length.toNat) before.length before table
  filters : Filters before table

theorem Shows.refl : Shows h before before := ⟨.refl, .refl⟩

/-- A reference in the formatted area. -/
def Field (h : Header) (offset : Nat) : Prop := 4 ≤ offset ∧ offset < h.length.toNat

instance (h : Header) (offset : Nat) : Decidable (Field h offset) := inferInstanceAs (Decidable (_ ∧ _))

theorem Header.Names.inside (names : h.Names before offset) : h.data + h.length.toNat ≤ before.length := by
  by_contra beyond
  unfold Header.Names at names
  rw [List.drop_eq_nil_of_le (by omega)] at names
  exact not_closes_nil _ names

theorem dmiString_reads (field : Field h offset) (shows : Shows h before table) (names : h.Names before offset) :
    ∃ found after, (dmiString h offset).run table = .ok (found, after) ∧ Shows h before after ∧ Filters table after ∧
      Reads after found (passed (h.strings before) (h.reference before offset)) := by
  obtain ⟨found, after, ran, frame, -⟩ := dmiString_run field.1 field.2 names.inside (.inl (Nat.le_refl _)) shows.frame
    names
  have area := names.inside
  have later := field.2
  have short : h.data + offset < table.length := by
    rw [shows.frame.length]
    omega
  have number : byteAt table (h.data + offset) = byteAt before (h.data + offset) := shows.frame.byteAt (.inl (by omega))
  have closes : Closes (byteAt before (h.data + offset)).toNat (table.drop (h.data + h.length.toNat)) := by
    rw [closes_congr (shows.frame.zeros_drop _)]
    exact names
  obtain ⟨found', after', ran', filters, reads⟩ := dmiStringAt_reads closes
  have whole := ran
  unfold dmiString at whole
  rw [if_neg (Nat.not_lt.mpr field.1), run_bind_ok (read_run short), number, ran'] at whole
  cases whole
  refine ⟨found, after, ran, ⟨frame, shows.filters.trans filters⟩, filters, ?_⟩
  rw [shows.filters.passed] at reads
  exact reads

def values (h : Header) (before : List Byte) (offsets : List Nat) : List (Option Octets) :=
  offsets.map fun offset => passed (h.strings before) (h.reference before offset)

theorem found_run {offsets : List Nat} (fields : ∀ offset ∈ offsets, Field h offset)
    (names : ∀ offset ∈ offsets, h.Names before offset) (shows : Shows h before table) :
    ∃ found after, (offsets.mapM (dmiString h)).run table = .ok (found, after) ∧ Filters table after ∧
      List.Forall₂ (Reads after) found (values h before offsets) := by
  induction offsets generalizing table with
  | nil => exact ⟨[], table, rfl, .refl, .nil⟩
  | cons offset offsets ih =>
    rw [List.forall_mem_cons] at fields names
    obtain ⟨one, middle, ran, between, changed, reads⟩ := dmiString_reads fields.1 shows names.1
    obtain ⟨found, after, rest, filters, all⟩ := ih fields.2 names.2 between
    refine ⟨one :: found, after, ?_, changed.trans filters, .cons (reads.kept filters) all⟩
    rw [List.mapM_cons, run_bind_ok ran, run_bind_ok rest]
    rfl

theorem copied_run {found : List (Option Nat)} {texts : List (Option Octets)}
    (reads : List.Forall₂ (Reads table) found texts) : (found.mapM copyString).run table = .ok (texts, table) := by
  induction reads with
  | nil => rfl
  | cons one _ ih =>
    rw [List.mapM_cons, run_bind_ok one.copied, run_bind_ok ih]
    rfl

theorem resolve_outside {offsets : List Nat} (fields : ∀ offset ∈ offsets, Field h offset)
    (open' : ∃ offset ∈ offsets, ¬h.Names before offset) (shows : Shows h before table) :
    (resolve h offsets).run table = .error .outside := by
  apply run_bind_error
  induction offsets generalizing table with
  | nil =>
    obtain ⟨offset, member, -⟩ := open'
    cases member
  | cons offset offsets ih =>
    rw [List.forall_mem_cons] at fields
    rw [List.mapM_cons]
    by_cases names : h.Names before offset
    · obtain ⟨one, middle, ran, between, -, -⟩ := dmiString_reads fields.1 shows names
      rw [run_bind_ok ran]
      apply run_bind_error
      apply ih fields.2 ?_ between
      obtain ⟨other, member, missing⟩ := open'
      rcases List.mem_cons.mp member with rfl | later
      · exact absurd names missing
      · exact ⟨other, later, missing⟩
    · exact run_bind_error (dmiString_outside fields.1.1 fields.1.2 shows.frame names)

/-- All references of a list stand for their strings exactly if none of them is zero, or there are no
strings, and their strings end in the table; a structure that ends with a pair of zeros sees to the
latter. -/
theorem resolve_iff (h : Header) (table : List Byte) {offsets : List Nat} (fields : ∀ offset ∈ offsets, Field h offset) :
    ((∃ after, (resolve h offsets).run table =
        .ok (offsets.map fun offset => stringOf (h.strings table) (h.reference table offset), after)) ↔
      ∀ offset ∈ offsets, h.Names table offset ∧ (h.reference table offset ≠ 0 ∨ h.strings table = [])) ∧
    ((pairAt (table.drop (h.data + h.length.toNat))).isSome → ∀ offset, h.Names table offset) := by
  refine ⟨?_, fun pair offset => .inr (.inr pair)⟩
  by_cases names : ∀ offset ∈ offsets, h.Names table offset
  · obtain ⟨found, after, ran, -, reads⟩ := found_run fields names .refl
    have whole : (resolve h offsets).run table = .ok (values h table offsets, after) := by
      rw [resolve, run_bind_ok ran, copied_run reads]
    rw [whole]
    constructor
    · rintro ⟨other, same⟩ offset member
      have equal := List.map_inj_left.mp (congrArg Prod.fst (Except.ok.inj same)) offset member
      exact ⟨names offset member, passed_eq_iff.mp equal⟩
    · intro good
      refine ⟨after, ?_⟩
      congr 2
      apply List.map_congr_left
      exact fun offset member => passed_eq_iff.mpr (good offset member).2
  · have missing : ∃ offset ∈ offsets, ¬h.Names table offset := by
      simpa using names
    rw [resolve_outside fields missing .refl]
    refine iff_of_false (fun ⟨_, same⟩ => by cases same) fun good => ?_
    obtain ⟨offset, member, absent⟩ := missing
    exact absent (good offset member).1

def twoStrings : List Byte := [1, 8, 0, 0, 2, 1, 3, 2, 97, 200, 0, 98, 0, 0]

theorem resolve_iff_two :
    ∃ after, (resolve ⟨1, 8, 0, 0⟩ [4, 5, 6, 7]).run twoStrings =
      .ok ([some [98], some [97, 46], none, some [98]], after) := by
  obtain ⟨references, closed⟩ := @resolve_iff ⟨1, 8, 0, 0⟩ twoStrings [4, 5, 6, 7] (by decide)
  have strings : Header.strings ⟨1, 8, 0, 0⟩ twoStrings = [[97, 200], [98]] := by decide
  obtain ⟨after, ran⟩ := references.mpr fun offset member =>
    ⟨closed (by decide) offset, .inl (by revert offset; decide)⟩
  refine ⟨after, ran.trans ?_⟩
  rw [strings]
  congr 2

/-- A reference of zero is taken for the first string. -/
theorem resolve_zero :
    resolve ⟨1, 8, 0, 0⟩ [4] [1, 8, 0, 0, 0, 0, 0, 0, 97, 0, 0] =
        .ok ([some [97]], [1, 8, 0, 0, 0, 0, 0, 0, 97, 0, 0]) ∧
      stringOf (Header.strings ⟨1, 8, 0, 0⟩ [1, 8, 0, 0, 0, 0, 0, 0, 97, 0, 0]) 0 = none := by
  exact ⟨by rfl, rfl⟩

end Several

end Xmrig.Dmi
