import Mathlib.Data.List.Count
import Xmrig.Base.Job
import Xmrig.Foundation.StringTable
import Xmrig.Foundation.Total

/-! Reading the structures of an SMBIOS table.

The state is the table, in which strings are filtered where they stand; an address is
an offset into it, and a read behind its end is a fault.
-/

set_option autoImplicit false

namespace Xmrig.Dmi

open Foundation

inductive Fault where
  | outside
  | unfinished
  deriving DecidableEq, Repr

abbrev Decoder := StateT (List Byte) (Except Fault)

def read (address : Nat) : Decoder Byte := fun table =>
  match table[address]? with
  | some byte => .ok (byte, table)
  | none => .error .outside

/-- `dmi_get<uint16_t>`. -/
def get16 (address : Nat) : Decoder (BitVec 16) := do
  let low ← read address
  let high ← read (address + 1)
  return high ++ low

/-- `dmi_get<uint32_t>`. -/
def get32 (address : Nat) : Decoder (BitVec 32) := do
  let low ← get16 address
  let high ← get16 (address + 2)
  return high ++ low

def strlen (address : Nat) : Decoder Nat := fun table =>
  match terminated (table.drop address) with
  | some length => .ok (length, table)
  | none => .error .outside

structure Header where
  type : Byte
  length : Byte
  handle : BitVec 16
  data : Nat

def getHeader (data : Nat) : Decoder Header := do
  let type ← read data
  let length ← read (data + 1)
  let handle ← get16 (data + 2)
  return ⟨type, length, handle, data⟩

def printable (byte : Byte) : Byte := if byte.toNat < 32 ∨ 127 ≤ byte.toNat then 46 else byte

def asciiFilter (bp len : Nat) : Decoder Unit :=
  modify fun table => table.mapIdx fun i byte => if bp ≤ i ∧ i < bp + len then printable byte else byte

/-- The loop that passes the strings before the one of that number. -/
def passStrings : (s : Nat) → (bp : Nat) → Decoder Nat
  | 0, bp => pure bp
  | 1, bp => pure bp
  | s + 2, bp => do
    let byte ← read bp
    if byte = 0 then pure bp
    else do
      let length ← strlen bp
      passStrings (s + 1) (bp + length + 1)

def takeString (bp : Nat) : Decoder (Option Nat) := do
  let byte ← read bp
  if byte = 0 then pure none
  else do
    let length ← strlen bp
    asciiFilter bp length
    pure (some bp)

/-- `_dmi_string` with the filter. -/
def dmiStringAt (s bp : Nat) : Decoder (Option Nat) := do
  let bp ← passStrings s bp
  takeString bp

def dmiString (dm : Header) (offset : Nat) : Decoder (Option Nat) :=
  if offset < 4 then pure none
  else do
    let s ← read (dm.data + offset)
    dmiStringAt s.toNat (dm.data + dm.length.toNat)

/-- The assignment of a string to a `String`, which copies it. -/
def copyString : Option Nat → Decoder (Option (List Byte))
  | none => pure none
  | some bp => do
    let length ← strlen bp
    return some (((← get).drop bp).take length)

/-! ## Runs -/

section Runs
variable {A B : Type} {program : Decoder A} {next : A → Decoder B} {table after : List Byte}

theorem run_bind_ok {value : A} (ran : program.run table = .ok (value, after)) :
    (program >>= next).run table = (next value).run after := by
  rw [StateT.run_bind, ran]
  rfl

theorem run_bind_error {fault : Fault} (failed : program.run table = .error fault) :
    (program >>= next).run table = .error fault := by
  rw [StateT.run_bind, failed]
  rfl

def byteAt (table : List Byte) (address : Nat) : Byte := table.getD address 0

theorem read_run {address : Nat} (inside : address < table.length) :
    (read address).run table = .ok (byteAt table address, table) := by
  change read address table = _
  rw [read, byteAt, List.getD_eq_getElem?_getD, List.getElem?_eq_getElem inside]
  rfl

theorem read_outside {address : Nat} (outside : table.length ≤ address) :
    (read address).run table = .error .outside := by
  change read address table = _
  rw [read, List.getElem?_eq_none outside]

theorem get16_run {address : Nat} (inside : address + 2 ≤ table.length) :
    (get16 address).run table = .ok (byteAt table (address + 1) ++ byteAt table address, table) := by
  unfold get16
  rw [run_bind_ok (read_run (by omega)), run_bind_ok (read_run (by omega))]
  rfl

def word32 (table : List Byte) (address : Nat) : BitVec 32 :=
  (byteAt table (address + 2 + 1) ++ byteAt table (address + 2)) ++ (byteAt table (address + 1) ++ byteAt table address)

theorem get32_run {address : Nat} (inside : address + 4 ≤ table.length) :
    (get32 address).run table = .ok (word32 table address, table) := by
  unfold get32
  rw [run_bind_ok (get16_run (by omega)), run_bind_ok (get16_run (by omega))]
  rfl

theorem strlen_run {address length : Nat} (ends : terminated (table.drop address) = some length) :
    (strlen address).run table = .ok (length, table) := by
  change strlen address table = _
  rw [strlen, ends]

theorem strlen_outside {address : Nat} (endless : terminated (table.drop address) = none) :
    (strlen address).run table = .error .outside := by
  change strlen address table = _
  rw [strlen, endless]

end Runs

/-! ## Strings -/

/-- Only bytes from the first address up to the second have changed, and no zero is among them. -/
structure Frame (first last : Nat) (before after : List Byte) : Prop where
  same : ∀ i, i < first ∨ last ≤ i → after[i]? = before[i]?
  zeros : zeros after = zeros before

section Frames
variable {first last : Nat} {before middle after : List Byte}

theorem Frame.refl : Frame first last before before := ⟨fun _ _ => rfl, rfl⟩

theorem Frame.trans (one : Frame first last before middle) (two : Frame first last middle after) :
    Frame first last before after :=
  ⟨fun i outside => (two.same i outside).trans (one.same i outside), two.zeros.trans one.zeros⟩

theorem Frame.length (frame : Frame first last before after) : after.length = before.length := by
  have same := congrArg List.length frame.zeros
  rw [Foundation.zeros, Foundation.zeros, List.length_map, List.length_map] at same
  exact same

theorem Frame.zeros_drop (frame : Frame first last before after) (address : Nat) :
    Foundation.zeros (after.drop address) = Foundation.zeros (before.drop address) := by
  rw [Foundation.zeros, Foundation.zeros, List.map_drop, List.map_drop]
  exact congrArg (List.drop address) frame.zeros

theorem Frame.byteAt (frame : Frame first last before after) {address : Nat} (outside : address < first ∨ last ≤ address) :
    Dmi.byteAt after address = Dmi.byteAt before address := by
  rw [Dmi.byteAt, Dmi.byteAt, List.getD_eq_getElem?_getD, frame.same address outside, List.getD_eq_getElem?_getD]

theorem printable_zero (byte : Byte) (other : byte ≠ 0) : printable byte ≠ 0 := by
  unfold printable
  split
  · decide
  · exact other

theorem asciiFilter_frame {table : List Byte} {bp length : Nat} (ends : terminated (table.drop bp) = some length)
    (behind : first ≤ bp) (ahead : bp + length ≤ last ∨ table.length ≤ last) :
    ∃ after, (asciiFilter bp length).run table = .ok ((), after) ∧ Frame first last table after := by
  refine ⟨_, rfl, ?_, ?_⟩
  · intro i outside
    rw [List.getElem?_mapIdx]
    cases found : table[i]? with
    | none => rfl
    | some byte =>
      have inside : i < table.length := (List.getElem?_eq_some_iff.mp found).1
      rw [Option.map_some, if_neg (by omega)]
  · obtain ⟨content, rest, split, size, free⟩ := terminated_split ends
    apply List.ext_getElem?
    intro i
    rw [zeros, zeros, List.getElem?_map, List.getElem?_map, List.getElem?_mapIdx, Option.map_map]
    cases found : table[i]? with
    | none => rfl
    | some byte =>
      simp only [Option.map_some, Function.comp_apply, Option.some.injEq, decide_eq_decide]
      split_ifs with within
      · have here : (table.drop bp)[i - bp]? = some byte := by
          rw [List.getElem?_drop, Nat.add_sub_cancel' within.1, found]
        rw [split, List.getElem?_append_left (by omega)] at here
        have other : byte ≠ 0 := fun zero => free (zero ▸ List.mem_of_getElem? here)
        exact iff_of_false (printable_zero byte other) other
      · rfl

end Frames

/-- Strings from the address on are not filtered beyond the limit: a pair of zeros is there, or
the table ends before. -/
def Limited (table : List Byte) (address limit : Nat) : Prop :=
  table.length ≤ limit ∨ ∃ i, pairAt (table.drop address) = some i ∧ limit = address + i

section Strings
variable {table : List Byte} {first limit : Nat}

theorem drop_behind {address : Nat} {content rest : List Byte} (split : table.drop address = content ++ 0 :: rest) :
    table.drop (address + content.length + 1) = rest := by
  rw [Nat.add_assoc, ← List.drop_drop, split, ← List.drop_drop, List.drop_left]
  rfl

theorem Limited.next {address length : Nat} (limited : Limited table address limit)
    (ends : terminated (table.drop address) = some length)
    (more : (table.drop (address + length + 1)).head? ≠ some 0) :
    Limited table (address + length + 1) limit ∧ (address + length ≤ limit ∨ table.length ≤ limit) := by
  rcases limited with short | ⟨i, pair, rfl⟩
  · exact ⟨.inl short, .inr short⟩
  · obtain ⟨content, rest, split, size, free⟩ := terminated_split ends
    subst size
    rw [drop_behind split] at more
    rw [split, pairAt_append free, if_neg more] at pair
    obtain ⟨later, found, rfl⟩ := Option.map_eq_some_iff.mp pair
    exact ⟨.inr ⟨later, by rw [drop_behind split]; exact found, by omega⟩, .inl (by omega)⟩

/-- What is left of a string that is found: its end is in the table. -/
def Found (after : List Byte) : Option Nat → Prop
  | none => True
  | some bp => (terminated (after.drop bp)).isSome

theorem drop_cons {address : Nat} {byte : Byte} {rest : List Byte} (here : table.drop address = byte :: rest) :
    address < table.length ∧ byteAt table address = byte := by
  have inside : address < table.length := by
    rw [← Nat.not_le]
    intro outside
    rw [List.drop_eq_nil_of_le outside] at here
    cases here
  refine ⟨inside, ?_⟩
  have found : table[address]? = some byte := by
    have head := congrArg (fun area => area[0]?) here
    simpa [List.getElem?_drop] using head
  rw [byteAt, List.getD_eq_getElem?_getD, found]
  rfl

theorem takeString_run {bp : Nat} (behind : first ≤ bp) (closes : Closes 1 (table.drop bp))
    (limited : Limited table bp limit ∨ (table.drop bp).head? = some 0) :
    ∃ found after, (takeString bp).run table = .ok (found, after) ∧ Frame first limit table after ∧ Found after found := by
  unfold takeString
  cases here : table.drop bp with
  | nil =>
    rw [here] at closes
    exact absurd closes (not_closes_nil 1)
  | cons byte rest =>
    obtain ⟨inside, same⟩ := drop_cons here
    rw [run_bind_ok (read_run inside), same]
    by_cases zero : byte = 0
    · rw [if_pos zero]
      exact ⟨none, table, rfl, .refl, trivial⟩
    · rw [if_neg zero]
      have filled : (table.drop bp).head? ≠ some 0 := by
        rw [here]
        exact fun head => zero (Option.some.inj head)
      cases ends : terminated (table.drop bp) with
      | none => exact absurd closes (not_closes_free (terminated_eq_none_iff.mp ends))
      | some length =>
        have ahead : bp + length ≤ limit ∨ table.length ≤ limit := by
          rcases limited.resolve_right filled with short | ⟨i, pair, rfl⟩
          · exact .inr short
          · obtain ⟨content, rest, split, size, free⟩ := terminated_split ends
            rw [split, pairAt_append free] at pair
            left
            split at pair
            · cases pair
              omega
            · obtain ⟨later, _, rfl⟩ := Option.map_eq_some_iff.mp pair
              omega
        obtain ⟨after, ran, frame⟩ := asciiFilter_frame ends behind ahead
        rw [run_bind_ok (strlen_run ends), run_bind_ok ran]
        refine ⟨some bp, after, rfl, frame, ?_⟩
        have ended : 0 ∈ table.drop bp := by
          rw [← not_not (a := 0 ∈ table.drop bp), ← terminated_eq_none_iff, ends]
          exact Option.some_ne_none length
        rw [Found, Option.isSome_iff_ne_none, ne_eq, terminated_eq_none_iff, not_not]
        have kept := frame.zeros_drop bp
        have marked : true ∈ zeros (after.drop bp) := by
          rw [kept]
          exact List.mem_map.mpr ⟨0, ended, rfl⟩
        obtain ⟨byte, member, zero⟩ := List.mem_map.mp marked
        rw [← of_decide_eq_true zero]
        exact member

theorem takeString_outside {bp : Nat} (open' : ¬ Closes 1 (table.drop bp)) :
    (takeString bp).run table = .error .outside := by
  unfold takeString
  cases here : table.drop bp with
  | nil => exact run_bind_error (read_outside (List.drop_eq_nil_iff.mp here))
  | cons byte rest =>
    obtain ⟨inside, same⟩ := drop_cons here
    rw [run_bind_ok (read_run inside), same]
    by_cases zero : byte = 0
    · rw [here, zero] at open'
      exact absurd (closes_zero 1 rest) open'
    · rw [if_neg zero]
      apply run_bind_error
      apply strlen_outside
      rw [terminated_eq_none_iff]
      exact fun ended => open' (closes_first (Nat.le_refl 1) ended)

theorem dmiStringAt_more (s bp : Nat) :
    dmiStringAt (s + 2) bp = (read bp >>= fun byte => if byte = 0 then takeString bp
      else strlen bp >>= fun length => dmiStringAt (s + 1) (bp + length + 1)) := by
  unfold dmiStringAt
  rw [passStrings, bind_assoc]
  congr 1
  funext byte
  split
  · rfl
  · rw [bind_assoc]

theorem dmiStringAt_run {s bp : Nat} (behind : first ≤ bp) (closes : Closes s (table.drop bp))
    (limited : Limited table bp limit ∨ (table.drop bp).head? = some 0) :
    ∃ found after, (dmiStringAt s bp).run table = .ok (found, after) ∧ Frame first limit table after ∧
      Found after found := by
  induction s using Nat.twoStepInduction generalizing bp with
  | zero => exact takeString_run behind closes limited
  | one => exact takeString_run behind closes limited
  | more s _ ih =>
    rw [dmiStringAt_more]
    cases here : table.drop bp with
    | nil =>
      rw [here] at closes
      exact absurd closes (not_closes_nil _)
    | cons byte rest =>
      obtain ⟨inside, same⟩ := drop_cons here
      rw [run_bind_ok (read_run inside), same]
      by_cases zero : byte = 0
      · rw [if_pos zero]
        apply takeString_run behind
        · rw [here, zero]
          exact closes_zero 1 rest
        · exact limited
      · rw [if_neg zero]
        cases ends : terminated (table.drop bp) with
        | none => exact absurd closes (not_closes_free (terminated_eq_none_iff.mp ends))
        | some length =>
          rw [run_bind_ok (strlen_run ends)]
          have filled : (table.drop bp).head? ≠ some 0 := by
            rw [here]
            exact fun head => zero (Option.some.inj head)
          apply ih (by omega)
          · obtain ⟨content, tail, split, rfl, free⟩ := terminated_split ends
            have nonempty : content ≠ [] := by
              rintro rfl
              rw [split] at filled
              exact filled rfl
            rw [split] at closes
            rw [drop_behind split]
            exact (closes_next nonempty free).mp closes
          · by_cases more : (table.drop (bp + length + 1)).head? = some 0
            · exact .inr more
            · exact .inl ((limited.resolve_right filled).next ends more).1

theorem dmiStringAt_outside {s bp : Nat} (open' : ¬ Closes s (table.drop bp)) :
    (dmiStringAt s bp).run table = .error .outside := by
  induction s using Nat.twoStepInduction generalizing bp with
  | zero => exact takeString_outside open'
  | one => exact takeString_outside open'
  | more s _ ih =>
    rw [dmiStringAt_more]
    cases here : table.drop bp with
    | nil => exact run_bind_error (read_outside (List.drop_eq_nil_iff.mp here))
    | cons byte rest =>
      obtain ⟨inside, same⟩ := drop_cons here
      rw [run_bind_ok (read_run inside), same]
      by_cases zero : byte = 0
      · rw [here, zero] at open'
        exact absurd (closes_zero _ rest) open'
      · rw [if_neg zero]
        cases ends : terminated (table.drop bp) with
        | none => exact run_bind_error (strlen_outside ends)
        | some length =>
          rw [run_bind_ok (strlen_run ends)]
          obtain ⟨content, tail, split, rfl, free⟩ := terminated_split ends
          have nonempty : content ≠ [] := by
            rintro rfl
            rw [here] at split
            exact zero (List.cons.inj split).1
          apply ih
          rw [drop_behind split]
          rw [split] at open'
          exact fun closes => open' ((closes_next nonempty free).mpr closes)

theorem Found.kept {after later : List Byte} {found : Option Nat} (ends : Found after found)
    (same : zeros later = zeros after) : Found later found := by
  cases found with
  | none => trivial
  | some bp =>
    rw [Found, Option.isSome_iff_ne_none, ne_eq, terminated_eq_none_iff, not_not, ← List.count_pos_iff] at ends ⊢
    rw [← count_zeros, zeros, List.map_drop] at ends ⊢
    rw [zeros, zeros] at same
    rw [same]
    exact ends

theorem copyString_run {found : Option Nat} (ends : Found table found) :
    ∃ value, (copyString found).run table = .ok (value, table) := by
  cases found with
  | none => exact ⟨none, rfl⟩
  | some bp =>
    obtain ⟨length, there⟩ := Option.isSome_iff_exists.mp ends
    unfold copyString
    rw [run_bind_ok (strlen_run there)]
    exact ⟨_, rfl⟩

end Strings

/-! ## Strings of a structure -/

section Structure
variable {h : Header} {before table : List Byte} {limit offset : Nat}

/-- The string that a structure names at the offset is closed. -/
def Header.Names (h : Header) (table : List Byte) (offset : Nat) : Prop :=
  Closes (byteAt table (h.data + offset)).toNat (table.drop (h.data + h.length.toNat))

theorem Limited.frame {first last address : Nat} (limited : Limited before address limit)
    (frame : Frame first last before table) : Limited table address limit := by
  unfold Limited
  rw [frame.length, pairAt_congr (frame.zeros_drop address)]
  exact limited

theorem dmiString_run (real : 4 ≤ offset) (field : offset < h.length.toNat)
    (inside : h.data + h.length.toNat ≤ before.length)
    (limited : Limited before (h.data + h.length.toNat) limit)
    (frame : Frame (h.data + h.length.toNat) limit before table) (names : h.Names before offset) :
    ∃ found after, (dmiString h offset).run table = .ok (found, after) ∧
      Frame (h.data + h.length.toNat) limit before after ∧ Found after found := by
  have short : h.data + offset < table.length := by
    rw [frame.length]
    omega
  have number : byteAt table (h.data + offset) = byteAt before (h.data + offset) := frame.byteAt (.inl (by omega))
  have closes : Closes (byteAt table (h.data + offset)).toNat (table.drop (h.data + h.length.toNat)) := by
    rw [number, closes_congr (frame.zeros_drop _)]
    exact names
  obtain ⟨found, after, ran, more, ends⟩ := dmiStringAt_run (Nat.le_refl _) closes (.inl (limited.frame frame))
  unfold dmiString
  rw [if_neg (by omega), run_bind_ok (read_run short)]
  exact ⟨found, after, ran, frame.trans more, ends⟩

theorem dmiString_outside (real : 4 ≤ offset) (field : offset < h.length.toNat)
    (frame : Frame (h.data + h.length.toNat) limit before table) (names : ¬ h.Names before offset) :
    (dmiString h offset).run table = .error .outside := by
  unfold dmiString
  rw [if_neg (by omega)]
  by_cases short : h.data + offset < table.length
  · have number : byteAt table (h.data + offset) = byteAt before (h.data + offset) := frame.byteAt (.inl (by omega))
    rw [run_bind_ok (read_run short), number]
    apply dmiStringAt_outside
    rw [closes_congr (frame.zeros_drop _)]
    exact names
  · exact run_bind_error (read_outside (Nat.not_lt.mp short))

def textAt (h : Header) (offset : Nat) : Decoder (Option (List Byte)) := dmiString h offset >>= copyString

theorem textAt_run (real : 4 ≤ offset) (field : offset < h.length.toNat)
    (inside : h.data + h.length.toNat ≤ before.length)
    (limited : Limited before (h.data + h.length.toNat) limit)
    (frame : Frame (h.data + h.length.toNat) limit before table) (names : h.Names before offset) :
    ∃ value after, (textAt h offset).run table = .ok (value, after) ∧
      Frame (h.data + h.length.toNat) limit before after := by
  obtain ⟨found, after, ran, more, ends⟩ := dmiString_run real field inside limited frame names
  obtain ⟨value, copied⟩ := copyString_run ends
  refine ⟨value, after, ?_, more⟩
  rw [textAt, run_bind_ok ran, copied]

end Structure

end Xmrig.Dmi
