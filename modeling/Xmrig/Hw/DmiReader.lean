import Mathlib.Logic.Relation
import Xmrig.Hw.DmiTools

/-! Decoding of an SMBIOS table.

The table has `m_size` bytes. In the Apple build the step over the pair of zeros behind a
structure is a loop, which does not run where the table ends without a pair. The
patterns that are matched against the slot and the bank of a memory device read the
strings that have just been copied, and are left out.
-/

set_option autoImplicit false

namespace Xmrig

open Foundation Dmi

structure DmiBoard where
  product : Option (List Byte) := none
  vendor : Option (List Byte) := none

structure DmiMemory where
  bank : Option (List Byte) := none
  product : Option (List Byte) := none
  slot : Option (List Byte) := none
  vendor : Option (List Byte) := none
  totalWidth : BitVec 16 := 0
  voltage : BitVec 16 := 0
  width : BitVec 16 := 0
  size : BitVec 64 := 0
  speed : BitVec 64 := 0
  formFactor : Byte := 0
  rank : Byte := 0
  type : Byte := 0

structure DmiReader where
  system : DmiBoard := {}
  board : DmiBoard := {}
  memory : List DmiMemory := []

namespace DmiBoard

def decode (board : DmiBoard) (h : Header) : Decoder DmiBoard :=
  if h.length.toNat < 0x08 then pure board
  else do
    let vendor ← textAt h 0x04
    let product ← textAt h 0x05
    return { product, vendor }

end DmiBoard

namespace DmiMemory

def deviceWidth (code : BitVec 16) : BitVec 16 := if code = 0xFFFF ∨ code = 0 then 0 else code

def sizeOf (h : Header) : Decoder (BitVec 64) := do
  let size ← get16 (h.data + 0x0C)
  if 0x20 ≤ h.length.toNat ∧ size = 0x7FFF then do
    let extended ← get32 (h.data + 0x1C)
    pure ((extended &&& 0x7FFFFFFF).setWidth 64 * 1024 * 1024)
  else pure (1024 * (size &&& 0x7FFF).setWidth 64 * if size &&& 0x8000 ≠ 0 then 1 else 1024)

def deviceSpeed (code1 : BitVec 16) (code2 : BitVec 32) : BitVec 64 :=
  if code1 = 0xFFFF then code2.setWidth 64 else code1.setWidth 64

def extendedSpeed (h : Header) (offset : Nat) : Decoder (BitVec 32) :=
  if 0x5C ≤ h.length.toNat then get32 (h.data + offset) else pure 0

def speedOf (h : Header) (offset extended : Nat) : Decoder (BitVec 64) := do
  let code1 ← get16 (h.data + offset)
  let code2 ← extendedSpeed h extended
  pure (deviceSpeed code1 code2 * 1000000)

def decodeVoltage (h : Header) (memory : DmiMemory) : Decoder DmiMemory :=
  if h.length.toNat < 0x28 then pure memory
  else do
    let voltage ← get16 (h.data + 0x26)
    return { memory with voltage }

def decodeConfiguredSpeed (h : Header) (memory : DmiMemory) : Decoder DmiMemory :=
  if h.length.toNat < 0x22 then pure memory
  else do
    let configuredSpeed ← speedOf h 0x20 0x58
    decodeVoltage h { memory with speed := if configuredSpeed ≠ 0 then configuredSpeed else memory.speed }

def decodeRank (h : Header) (memory : DmiMemory) : Decoder DmiMemory :=
  if h.length.toNat < 0x1C then pure memory
  else do
    let rank ← read (h.data + 0x1B)
    decodeConfiguredSpeed h { memory with rank := rank &&& 0x0F }

def decodeVendor (h : Header) (memory : DmiMemory) : Decoder DmiMemory :=
  if h.length.toNat < 0x1B then pure memory
  else do
    let vendor ← textAt h 0x17
    let product ← textAt h 0x1A
    decodeRank h { memory with vendor, product }

def decodeSpeed (h : Header) (memory : DmiMemory) : Decoder DmiMemory :=
  if memory.size = 0 ∨ h.length.toNat < 0x17 then pure memory
  else do
    let speed ← speedOf h 0x15 0x54
    decodeVendor h { memory with speed }

/-- The fields of every device; the strings of `setId` are found before they are copied. -/
def decodeDevice (h : Header) (totalWidth width : BitVec 16) (size : BitVec 64) : Decoder DmiMemory := do
  let slot ← dmiString h 0x10
  let bank ← dmiString h 0x11
  let slot ← copyString slot
  let bank ← copyString bank
  let formFactor ← read (h.data + 0x0E)
  let type ← read (h.data + 0x12)
  decodeSpeed h {
    bank, slot, totalWidth := deviceWidth totalWidth, width := deviceWidth width, size, formFactor, type }

/-- `DmiMemory::DmiMemory`. -/
def decode (h : Header) : Decoder DmiMemory :=
  if h.length.toNat < 0x15 then pure {}
  else do
    let totalWidth ← get16 (h.data + 0x08)
    let width ← get16 (h.data + 0x0A)
    let size ← sizeOf h
    decodeDevice h totalWidth width size

end DmiMemory

namespace DmiReader

inductive Build where
  | default
  | apple
  deriving DecidableEq, Repr

/-- `next[0] != 0 || next[1] != 0`. -/
def differs (next : Nat) : Decoder Bool := do
  let first ← read next
  if first ≠ 0 then pure true
  else do
    let second ← read (next + 1)
    pure (decide (second ≠ 0))

/-- The loop to the pair of zeros behind a structure, with the cast of the source. -/
def findEnd (size : Nat) : (rounds : Nat) → (next : Nat) → Decoder Nat
  | 0, _ => throw .unfinished
  | rounds + 1, next =>
    if (next + 1) % 2 ^ 32 < size then do
      let different ← differs next
      if different then findEnd size rounds (next + 1) else pure next
    else pure next

def skipZeros (size : Nat) : (rounds : Nat) → (next : Nat) → Decoder Nat
  | 0, _ => throw .unfinished
  | rounds + 1, next =>
    if next + 1 < size then do
      let different ← differs next
      if different then pure next else skipZeros size rounds (next + 2)
    else pure next

def stepOver (build : Build) (size next : Nat) : Decoder Nat :=
  match build with
  | .default => pure (next + 2)
  | .apple => skipZeros size (size + 1) next

def decodeStructure (h : Header) (reader : DmiReader) : Decoder DmiReader :=
  if h.type = 1 then do
    let system ← reader.system.decode h
    return { reader with system }
  else if h.type = 2 then do
    let board ← reader.board.decode h
    return { reader with board }
  else if h.type = 17 then do
    let memory ← DmiMemory.decode h
    return { reader with memory := reader.memory ++ [memory] }
  else pure reader

def nextOf (build : Build) (size : Nat) (h : Header) : Decoder Nat := do
  let next ← findEnd size (size + 1) (h.data + h.length.toNat)
  stepOver build size next

def decodeFrom (build : Build) (size : Nat) : (rounds : Nat) → (data : Nat) → DmiReader → Decoder DmiReader
  | 0, _, _ => throw .unfinished
  | rounds + 1, data, reader =>
    if data + 4 ≤ size then do
      let h ← getHeader data
      if h.length.toNat < 4 ∨ h.type = 127 then pure reader
      else do
        let next ← nextOf build size h
        if size < next % 2 ^ 32 then pure reader
        else do
          let reader ← decodeStructure h reader
          decodeFrom build size rounds next reader
    else pure reader

/-- The table, whose size is an `uint32_t`. -/
structure Table where
  bytes : List Byte
  size_lt : bytes.length < 2 ^ 32

/-- `decode`; every round passes at least one byte of the table. -/
def decode (build : Build) (reader : DmiReader) (buf : Table) : Except Fault (DmiReader × List Byte) :=
  (decodeFrom build buf.bytes.length (buf.bytes.length + 1) 0 reader).run buf.bytes

end DmiReader

/-! ## Reads inside the formatted area -/

namespace Dmi

section Quiet
variable {A B : Type} {program : Decoder A} {next : A → Decoder B} {table : List Byte}

/-- A read does not change the table. -/
def Quiet (program : Decoder A) : Prop := ∀ table value after, program.run table = .ok (value, after) → after = table

theorem quiet_read (address : Nat) : Quiet (read address) := by
  intro table value after ran
  change read address table = _ at ran
  unfold read at ran
  split at ran <;> cases ran
  rfl

theorem quiet_pure (value : A) : Quiet (pure value) := by
  intro table other after ran
  cases ran
  rfl

theorem Quiet.bind (first : Quiet program) (rest : ∀ value, Quiet (next value)) : Quiet (program >>= next) := by
  intro table value after ran
  rcases middle : program.run table with fault | ⟨between, kept⟩
  · rw [run_bind_error middle] at ran
    cases ran
  · rw [run_bind_ok middle] at ran
    rw [rest between kept value after ran, first table between kept middle]

theorem quiet_get16 (address : Nat) : Quiet (get16 address) :=
  (quiet_read _).bind fun _ => (quiet_read _).bind fun _ => quiet_pure _

theorem quiet_get32 (address : Nat) : Quiet (get32 address) :=
  (quiet_get16 _).bind fun _ => (quiet_get16 _).bind fun _ => quiet_pure _

theorem Quiet.yields {post : B → List Byte → Prop} (quiet : Quiet program)
    (yields : Yields (program >>= next) table post) : ∃ value, Yields (next value) table post := by
  obtain ⟨value, after, ran, later⟩ := yields_bind_iff.mp yields
  rw [quiet table value after ran] at later
  exact ⟨value, later⟩

end Quiet
end Dmi

namespace DmiMemory
variable {h : Header} {before table : List Byte} {limit : Nat}

theorem quiet_sizeOf (h : Header) : Quiet (sizeOf h) := by
  apply (quiet_get16 _).bind
  intro size
  split
  · exact (quiet_get32 _).bind fun _ => quiet_pure _
  · exact quiet_pure _

def memorySize (table : List Byte) (h : Header) : BitVec 64 :=
  let size := byteAt table (h.data + 0x0C + 1) ++ byteAt table (h.data + 0x0C)
  if 0x20 ≤ h.length.toNat ∧ size = 0x7FFF then
    (word32 table (h.data + 0x1C) &&& 0x7FFFFFFF).setWidth 64 * 1024 * 1024
  else 1024 * (size &&& 0x7FFF).setWidth 64 * if size &&& 0x8000 ≠ 0 then 1 else 1024

theorem sizeOf_run (device : 0x15 ≤ h.length.toNat) (inside : h.data + h.length.toNat ≤ table.length) :
    (sizeOf h).run table = .ok (memorySize table h, table) := by
  unfold sizeOf memorySize
  rw [run_bind_ok (get16_run (by omega))]
  dsimp only
  split
  · rename_i long
    rw [run_bind_ok (get32_run (by omega))]
    rfl
  · rfl

theorem speedOf_run {offset extended : Nat} (field : offset + 2 ≤ h.length.toNat) (short : extended + 4 ≤ 0x5C)
    (inside : h.data + h.length.toNat ≤ table.length) :
    ∃ value, (speedOf h offset extended).run table = .ok (value, table) := by
  have code : ∃ value, (extendedSpeed h extended).run table = .ok (value, table) := by
    unfold extendedSpeed
    split
    · exact ⟨_, get32_run (by omega)⟩
    · exact ⟨_, rfl⟩
  obtain ⟨value, ran⟩ := code
  unfold speedOf
  rw [run_bind_ok (get16_run (by omega)), run_bind_ok ran]
  exact ⟨_, rfl⟩

section Stages
variable {first : Nat} (memory : DmiMemory) (inside : h.data + h.length.toNat ≤ before.length)
variable (frame : Frame first limit before table)
include inside frame

theorem decodeVoltage_yields : Yields (decodeVoltage h memory) table fun _ after => Frame first limit before after := by
  unfold decodeVoltage
  split
  · exact yields_pure.mpr frame
  · rw [yields_bind (get16_run (by rw [frame.length]; omega)), yields_pure]
    exact frame

theorem decodeConfiguredSpeed_yields :
    Yields (decodeConfiguredSpeed h memory) table fun _ after => Frame first limit before after := by
  unfold decodeConfiguredSpeed
  split
  · exact yields_pure.mpr frame
  · obtain ⟨value, ran⟩ := @speedOf_run h table 0x20 0x58 (by omega) (by decide) (by rw [frame.length]; exact inside)
    rw [yields_bind ran]
    exact decodeVoltage_yields _ inside frame

theorem decodeRank_yields : Yields (decodeRank h memory) table fun _ after => Frame first limit before after := by
  unfold decodeRank
  split
  · exact yields_pure.mpr frame
  · rw [yields_bind (read_run (by rw [frame.length]; omega))]
    exact decodeConfiguredSpeed_yields _ inside frame

end Stages

theorem decodeSpeed_yields {memory : DmiMemory} {post : DmiMemory → List Byte → Prop}
    (inside : h.data + h.length.toNat ≤ before.length) (limited : Limited before (h.data + h.length.toNat) limit)
    (holds : ∀ value after, Frame (h.data + h.length.toNat) limit before after → post value after)
    (frame : Frame (h.data + h.length.toNat) limit before table) :
    Yields (decodeSpeed h memory) table post ↔
      (memory.size ≠ 0 ∧ 0x1B ≤ h.length.toNat → h.Names before 0x17 ∧ h.Names before 0x1A) := by
  unfold decodeSpeed
  split
  · rename_i none
    rw [yields_pure]
    refine iff_of_true (holds _ _ frame) fun read => ?_
    rcases none with empty | short
    · exact absurd empty read.1
    · omega
  · rename_i some
    rw [not_or] at some
    obtain ⟨value, ran⟩ := @speedOf_run h table 0x15 0x54 (by omega) (by decide) (by rw [frame.length]; exact inside)
    rw [yields_bind ran]
    unfold decodeVendor
    split
    · rename_i short
      rw [yields_pure]
      exact iff_of_true (holds _ _ frame) fun read => by omega
    · rename_i long
      have read : memory.size ≠ 0 ∧ 0x1B ≤ h.length.toNat := ⟨some.1, by omega⟩
      by_cases vendor : h.Names before 0x17
      · obtain ⟨_, _, ran, more⟩ := textAt_run (by decide) (by omega) inside limited frame vendor
        rw [yields_bind ran]
        by_cases product : h.Names before 0x1A
        · obtain ⟨_, _, ran, last⟩ := textAt_run (by decide) (by omega) inside limited more product
          rw [yields_bind ran]
          exact iff_of_true ((decodeRank_yields _ inside last).mono holds) fun _ => ⟨vendor, product⟩
        · have failed := dmiString_outside (by decide) (by omega) more product
          rw [textAt, bind_assoc]
          exact iff_of_false (not_yields_bind failed) fun all => product (all read).2
      · have failed := dmiString_outside (by decide) (by omega) frame vendor
        rw [textAt, bind_assoc]
        exact iff_of_false (not_yields_bind failed) fun all => vendor (all read).1

theorem names_inside {offset : Nat} (names : h.Names before offset) : h.data + h.length.toNat < before.length := by
  rw [← Nat.not_le]
  intro beyond
  rw [Header.Names, List.drop_eq_nil_of_le beyond] at names
  exact not_closes_nil _ names

def stringOffsets (table : List Byte) (h : Header) : List Nat :=
  if h.length.toNat < 0x15 then []
  else [0x10, 0x11] ++ if memorySize table h ≠ 0 ∧ 0x1B ≤ h.length.toNat then [0x17, 0x1A] else []

theorem decodeDevice_yields {totalWidth width : BitVec 16} {size : BitVec 64} {post : DmiMemory → List Byte → Prop}
    (device : 0x15 ≤ h.length.toNat) (inside : h.data + h.length.toNat ≤ before.length)
    (limited : Limited before (h.data + h.length.toNat) limit)
    (holds : ∀ value after, Frame (h.data + h.length.toNat) limit before after → post value after) :
    Yields (decodeDevice h totalWidth width size) before post ↔
      h.Names before 0x10 ∧ h.Names before 0x11 ∧
        (size ≠ 0 ∧ 0x1B ≤ h.length.toNat → h.Names before 0x17 ∧ h.Names before 0x1A) := by
  unfold decodeDevice
  by_cases slot : h.Names before 0x10
  · obtain ⟨_, _, ran, frame, found⟩ := dmiString_run (by decide) (by omega) inside limited .refl slot
    rw [yields_bind ran]
    by_cases bank : h.Names before 0x11
    · obtain ⟨_, after, ran, more, again⟩ := dmiString_run (by decide) (by omega) inside limited frame bank
      have size := more.length
      obtain ⟨_, first⟩ := copyString_run (found.kept (more.zeros.trans frame.zeros.symm))
      obtain ⟨_, second⟩ := copyString_run again
      rw [yields_bind ran, yields_bind first, yields_bind second, yields_bind (read_run (by omega)),
        yields_bind (read_run (by omega)), decodeSpeed_yields inside limited holds more]
      exact ⟨fun rest => ⟨slot, bank, rest⟩, fun all => all.2.2⟩
    · have failed := dmiString_outside (by decide) (by omega) frame bank
      exact iff_of_false (not_yields_bind failed) fun all => bank all.2.1
  · have failed := dmiString_outside (by decide) (by omega) (@Frame.refl _ limit before) slot
    exact iff_of_false (not_yields_bind failed) fun all => slot all.1

theorem names_append {front back : List Nat} :
    (∀ offset ∈ front ++ back, h.Names before offset) ↔
      (∀ offset ∈ front, h.Names before offset) ∧ ∀ offset ∈ back, h.Names before offset := List.forall_mem_append

theorem names_pair {one two : Nat} :
    (∀ offset ∈ [one, two], h.Names before offset) ↔ h.Names before one ∧ h.Names before two := by
  rw [List.forall_mem_cons, List.forall_mem_singleton]

theorem decode_yields {post : DmiMemory → List Byte → Prop} (limited : Limited before (h.data + h.length.toNat) limit)
    (holds : ∀ value after, Frame (h.data + h.length.toNat) limit before after → post value after) :
    Yields (decode h) before post ↔
      ∀ offset ∈ stringOffsets before h, h.Names before offset := by
  unfold decode stringOffsets
  split
  · exact iff_of_true (yields_pure.mpr (holds _ _ .refl)) fun offset none => absurd none List.not_mem_nil
  · rename_i device
    rw [names_append, names_pair]
    by_cases inside : h.data + h.length.toNat ≤ before.length
    · rw [yields_bind (get16_run (by omega)), yields_bind (get16_run (by omega)),
        yields_bind (sizeOf_run (by omega) inside), decodeDevice_yields (by omega) inside limited holds, and_assoc]
      apply and_congr_right
      intro _
      apply and_congr_right
      intro _
      split
      · rename_i read
        rw [names_pair]
        exact ⟨fun named => named read, fun named _ => named⟩
      · rename_i unread
        exact iff_of_true (fun read => absurd read unread) fun offset none => absurd none List.not_mem_nil
    · -- the table ends inside of the structure, before its strings
      have beyond : ¬ h.Names before 0x10 := fun names => inside (names_inside names).le
      refine iff_of_false (fun yields => ?_) fun all => beyond all.1.1
      obtain ⟨_, yields⟩ := (quiet_get16 _).yields yields
      obtain ⟨_, yields⟩ := (quiet_get16 _).yields yields
      obtain ⟨_, yields⟩ := (quiet_sizeOf h).yields yields
      exact not_yields_bind (dmiString_outside (by decide) (by omega) (@Frame.refl _ limit before) beyond) yields

end DmiMemory

namespace DmiBoard
variable {h : Header} {before : List Byte} {limit : Nat}

def stringOffsets (h : Header) : List Nat := if h.length.toNat < 0x08 then [] else [0x04, 0x05]

theorem decode_yields (board : DmiBoard) {post : DmiBoard → List Byte → Prop}
    (limited : Limited before (h.data + h.length.toNat) limit)
    (holds : ∀ value after, Frame (h.data + h.length.toNat) limit before after → post value after) :
    Yields (board.decode h) before post ↔
      ∀ offset ∈ stringOffsets h, h.Names before offset := by
  unfold decode stringOffsets
  split
  · exact iff_of_true (yields_pure.mpr (holds _ _ .refl)) fun offset none => absurd none List.not_mem_nil
  · rename_i long
    rw [DmiMemory.names_pair]
    by_cases vendor : h.Names before 0x04
    · have inside := (DmiMemory.names_inside vendor).le
      obtain ⟨_, _, ran, frame⟩ := textAt_run (by decide) (by omega) inside limited .refl vendor
      rw [yields_bind ran]
      by_cases product : h.Names before 0x05
      · obtain ⟨_, _, ran, last⟩ := textAt_run (by decide) (by omega) inside limited frame product
        rw [yields_bind ran, yields_pure]
        exact iff_of_true (holds _ _ last) ⟨vendor, product⟩
      · rw [textAt, bind_assoc]
        exact iff_of_false (not_yields_bind (dmiString_outside (by decide) (by omega) frame product))
          fun all => product all.2
    · rw [textAt, bind_assoc]
      exact iff_of_false (not_yields_bind (dmiString_outside (by decide) (by omega) (@Frame.refl _ limit before) vendor))
        fun all => vendor all.1

end DmiBoard

namespace DmiReader
variable {h : Header} {before : List Byte} {limit : Nat}

def stringOffsets (table : List Byte) (h : Header) : List Nat :=
  if h.type = 1 ∨ h.type = 2 then DmiBoard.stringOffsets h
  else if h.type = 17 then DmiMemory.stringOffsets table h
  else []

theorem decodeStructure_yields (reader : DmiReader) {post : DmiReader → List Byte → Prop}
    (limited : Limited before (h.data + h.length.toNat) limit)
    (holds : ∀ value after, Frame (h.data + h.length.toNat) limit before after → post value after) :
    Yields (decodeStructure h reader) before post ↔ ∀ offset ∈ stringOffsets before h, h.Names before offset := by
  unfold decodeStructure stringOffsets
  by_cases system : h.type = 1
  · rw [if_pos system, if_pos (.inl system), yields_bind_iff]
    simp only [yields_pure]
    exact DmiBoard.decode_yields reader.system limited fun _ after frame => holds _ after frame
  · by_cases board : h.type = 2
    · rw [if_neg system, if_pos board, if_pos (.inr board), yields_bind_iff]
      simp only [yields_pure]
      exact DmiBoard.decode_yields reader.board limited fun _ after frame => holds _ after frame
    · rw [if_neg system, if_neg board, if_neg (not_or.mpr ⟨system, board⟩)]
      split
      · rw [yields_bind_iff]
        simp only [yields_pure]
        exact DmiMemory.decode_yields limited fun _ after frame => holds _ after frame
      · exact iff_of_true (yields_pure.mpr (holds _ _ .refl)) fun offset none => absurd none List.not_mem_nil

/-! ## From structure to structure -/

def headerAt (table : List Byte) (data : Nat) : Header :=
  ⟨byteAt table data, byteAt table (data + 1), byteAt table (data + 2 + 1) ++ byteAt table (data + 2), data⟩

/-- The scan does not end at the structure. -/
def GoesOn (h : Header) : Prop := 4 ≤ h.length.toNat ∧ h.type ≠ 127

def behind (h : Header) : Nat := h.data + h.length.toNat

def zeroPairs : Octets → Nat
  | first :: second :: rest => if first = 0 ∧ second = 0 then zeroPairs rest + 2 else 0
  | _ => 0

def stepOf (build : Build) (table : List Byte) (pair : Nat) : Nat :=
  match build with
  | .default => pair + 2
  | .apple => pair + zeroPairs (table.drop pair)

section Scan
variable {table : List Byte}

theorem getHeader_run {data : Nat} (inside : data + 4 ≤ table.length) :
    (getHeader data).run table = .ok (headerAt table data, table) := by
  unfold getHeader
  rw [run_bind_ok (read_run (by omega)), run_bind_ok (read_run (by omega)), run_bind_ok (get16_run (by omega))]
  rfl

theorem drop_two {next : Nat} (inside : next + 1 < table.length) :
    table.drop next = byteAt table next :: byteAt table (next + 1) :: table.drop (next + 2) := by
  have one : next < table.length := by omega
  rw [List.drop_eq_getElem_cons one, List.drop_eq_getElem_cons inside, byteAt, byteAt,
    List.getD_eq_getElem?_getD, List.getD_eq_getElem?_getD, List.getElem?_eq_getElem one, List.getElem?_eq_getElem inside]
  rfl

theorem differs_run {next : Nat} (inside : next + 1 < table.length) :
    (differs next).run table = .ok (decide (¬ (byteAt table next = 0 ∧ byteAt table (next + 1) = 0)), table) := by
  unfold differs
  rw [run_bind_ok (read_run (by omega))]
  by_cases zero : byteAt table next = 0
  · rw [if_neg (not_not.mpr zero), run_bind_ok (read_run inside)]
    simp only [zero, true_and]
    rfl
  · rw [if_pos zero]
    simp only [zero, false_and, not_false_eq_true, decide_true]
    rfl

theorem pairAt_step {next : Nat} (inside : next + 1 < table.length) :
    pairAt (table.drop next) = if byteAt table next = 0 ∧ byteAt table (next + 1) = 0 then some 0
      else (pairAt (table.drop (next + 1))).map (· + 1) := by
  have tail : table.drop (next + 1) = byteAt table (next + 1) :: table.drop (next + 2) := by
    rw [← List.drop_drop, drop_two inside]
    rfl
  rw [drop_two inside, ← tail, pairAt, tail, List.head?_cons]
  simp only [Option.some.injEq]

theorem pairAt_short {next : Nat} (short : table.length ≤ next + 1) : pairAt (table.drop next) = none := by
  cases rest : table.drop next with
  | nil => rfl
  | cons byte tail =>
    have length := congrArg List.length rest
    rw [List.length_drop, List.length_cons] at length
    have empty : tail = [] := List.eq_nil_of_length_eq_zero (by omega)
    rw [empty, pairAt, if_neg (fun both => by cases both.2)]
    rfl

/-- The loop stops at the pair of zeros, or where the table has no more pair. -/
theorem findEnd_run (fits : table.length < 2 ^ 32) {rounds next : Nat} (word : next + 1 < 2 ^ 32)
    (enough : table.length - next < rounds) :
    (findEnd table.length rounds next).run table =
      .ok (((pairAt (table.drop next)).map (next + ·)).getD (max next (table.length - 1)), table) := by
  induction rounds generalizing next with
  | zero => omega
  | succ rounds ih =>
    rw [findEnd, Nat.mod_eq_of_lt word]
    split
    · rename_i inside
      rw [run_bind_ok (differs_run inside), pairAt_step inside]
      by_cases pair : byteAt table next = 0 ∧ byteAt table (next + 1) = 0
      · simp only [pair, and_self, not_true_eq_false, decide_false, if_true]
        rfl
      · simp only [pair, not_false_eq_true, decide_true, if_true, if_false]
        rw [ih (by omega) (by omega)]
        cases pairAt (table.drop (next + 1)) with
        | none =>
          simp only [Option.map_none, Option.getD_none]
          rw [Nat.max_eq_right (by omega), Nat.max_eq_right (by omega)]
        | some i =>
          simp only [Option.map_some, Option.getD_some]
          rw [Nat.add_assoc, Nat.add_comm 1 i]
    · rename_i outside
      rw [pairAt_short (by omega)]
      simp only [Option.map_none, Option.getD_none]
      rw [Nat.max_eq_left (by omega)]
      rfl

theorem findEnd_outside (fits : table.length < 2 ^ 32) {rounds next : Nat} (wraps : 2 ^ 32 ≤ next + 1)
    (short : next + 1 < 2 ^ 32 + table.length) :
    (findEnd table.length (rounds + 1) next).run table = .error .outside := by
  have small : (next + 1) % 2 ^ 32 < table.length := by
    rw [Nat.mod_eq_sub_mod wraps, Nat.mod_eq_of_lt (by omega)]
    omega
  rw [findEnd, if_pos small]
  apply run_bind_error
  unfold differs
  exact run_bind_error (read_outside (by omega))

theorem zeroPairs_le (area : Octets) : zeroPairs area ≤ area.length := by
  induction area using zeroPairs.induct with
  | case1 first second rest both ih =>
    rw [zeroPairs, if_pos both, List.length_cons, List.length_cons]
    omega
  | case2 first second rest other =>
    rw [zeroPairs, if_neg other]
    exact Nat.zero_le _
  | case3 area other =>
    unfold zeroPairs
    split
    · exact absurd rfl (other _ _ _)
    · exact Nat.zero_le _

theorem skipZeros_run {rounds next : Nat} (enough : table.length - next < rounds) :
    (skipZeros table.length rounds next).run table = .ok (next + zeroPairs (table.drop next), table) := by
  induction rounds generalizing next with
  | zero => omega
  | succ rounds ih =>
    rw [skipZeros]
    split
    · rename_i inside
      rw [run_bind_ok (differs_run inside), drop_two inside, zeroPairs]
      by_cases pair : byteAt table next = 0 ∧ byteAt table (next + 1) = 0
      · simp only [pair, and_self, not_true_eq_false, decide_false, if_true]
        rw [if_neg (by decide), ih (by omega), Nat.add_comm (zeroPairs _) 2, Nat.add_assoc]
      · simp only [pair, not_false_eq_true, decide_true, if_true, if_false]
        rfl
    · rename_i outside
      have none : zeroPairs (table.drop next) = 0 := by
        cases rest : table.drop next with
        | nil => rfl
        | cons byte tail =>
          have length := congrArg List.length rest
          rw [List.length_drop, List.length_cons] at length
          rw [List.eq_nil_of_length_eq_zero (show tail.length = 0 by omega)]
          rfl
      rw [none]
      rfl

end Scan

/-! ## The whole table -/

def unended (build : Build) (size strings : Nat) : Nat :=
  match build with
  | .default => max strings (size - 1) + 2
  | .apple => max strings (size - 1)

/-- Such a structure is decoded in the Apple build unless it is cut off by the end of the table, and
in the default build only where the end behind it is zero for the cast. -/
def DecodesUnended (build : Build) (size strings : Nat) : Prop :=
  match build with
  | .default => max strings (size - 1) + 2 = 2 ^ 32
  | .apple => strings ≤ size

/-- The scan goes on from one structure to the next one. -/
def Next (build : Build) (table : List Byte) (data next : Nat) : Prop :=
  data + 4 ≤ table.length ∧ GoesOn (headerAt table data) ∧
    ∃ i, pairAt (table.drop (behind (headerAt table data))) = some i ∧
      next = stepOf build table (behind (headerAt table data) + i)

/-- What a structure has to keep: no cast changes its end, and where no pair of zeros follows it and
it is decoded, the strings that it names end in the table. -/
def Fine (build : Build) (table : List Byte) (data : Nat) : Prop :=
  data + 4 ≤ table.length → GoesOn (headerAt table data) →
    behind (headerAt table data) + 1 < 2 ^ 32 ∧
      (pairAt (table.drop (behind (headerAt table data))) = none →
        DecodesUnended build table.length (behind (headerAt table data)) →
        ∀ offset ∈ stringOffsets table (headerAt table data), (headerAt table data).Names table offset)

section Whole
variable {build : Build} {table other : List Byte} {data : Nat}

theorem nextOf_pair (fits : table.length < 2 ^ 32) {i : Nat} (word : behind h + 1 < 2 ^ 32)
    (pair : pairAt (table.drop (behind h)) = some i) :
    (nextOf build table.length h).run table = .ok (stepOf build table (behind h + i), table) := by
  have found := @findEnd_run table fits (table.length + 1) _ word (by omega)
  rw [pair, Option.map_some, Option.getD_some] at found
  unfold nextOf
  rw [behind] at found word
  rw [run_bind_ok found]
  cases build with
  | default => rfl
  | apple => exact skipZeros_run (by omega)

theorem nextOf_unended (fits : table.length < 2 ^ 32) (word : behind h + 1 < 2 ^ 32)
    (none : pairAt (table.drop (behind h)) = none) :
    (nextOf build table.length h).run table = .ok (unended build table.length (behind h), table) := by
  have found := @findEnd_run table fits (table.length + 1) _ word (by omega)
  rw [none, Option.map_none, Option.getD_none] at found
  unfold nextOf
  rw [behind] at found word ⊢
  rw [run_bind_ok found]
  cases build with
  | default => rfl
  | apple =>
    -- no byte is left for a pair
    have ends : ¬ max (h.data + h.length.toNat) (table.length - 1) + 1 < table.length := by omega
    change (skipZeros _ _ _).run table = _
    rw [skipZeros, if_neg ends]
    rfl

theorem nextOf_outside (fits : table.length < 2 ^ 32) (wraps : 2 ^ 32 ≤ behind h + 1)
    (short : behind h + 1 < 2 ^ 32 + table.length) : (nextOf build table.length h).run table = .error .outside :=
  run_bind_error (findEnd_outside fits wraps short)

theorem unended_decodes {size strings : Nat} (fits : size < 2 ^ 32) (some : 0 < size) (word : strings + 1 < 2 ^ 32) :
    ¬ size < unended build size strings % 2 ^ 32 ↔ DecodesUnended build size strings := by
  cases build with
  | default =>
    simp only [unended, DecodesUnended]
    by_cases wraps : max strings (size - 1) + 2 = 2 ^ 32
    · rw [wraps]
      simp
    · rw [Nat.mod_eq_of_lt (by omega)]
      omega
  | apple =>
    simp only [unended, DecodesUnended]
    rw [Nat.mod_eq_of_lt (by omega)]
    omega

theorem stepOf_bounds {strings i : Nat} (found : pairAt (table.drop strings) = some i) :
    strings + i + 2 ≤ stepOf build table (strings + i) ∧ stepOf build table (strings + i) ≤ table.length := by
  obtain ⟨rest, here⟩ := pairAt_drop found
  rw [List.drop_drop] at here
  have room := congrArg List.length here
  rw [List.length_drop, List.length_cons, List.length_cons] at room
  cases build with
  | default =>
    simp only [stepOf]
    omega
  | apple =>
    have pairs := zeroPairs_le rest
    simp only [stepOf, here, zeroPairs, and_self, if_true]
    omega

/-! What the scan finds from an address on depends on the bytes from there on. -/

theorem byteAt_congr (same : table.drop data = other.drop data) (k : Nat) :
    byteAt table (data + k) = byteAt other (data + k) := by
  rw [byteAt, byteAt, List.getD_eq_getElem?_getD, List.getD_eq_getElem?_getD, ← List.getElem?_drop,
    ← List.getElem?_drop, same]

theorem drop_congr (same : table.drop data = other.drop data) (k : Nat) :
    table.drop (data + k) = other.drop (data + k) := by
  rw [← List.drop_drop, ← List.drop_drop, same]

theorem headerAt_congr (same : table.drop data = other.drop data) : headerAt table data = headerAt other data := by
  have zero := byteAt_congr same 0
  rw [Nat.add_zero] at zero
  rw [headerAt, headerAt, zero, byteAt_congr same 1, byteAt_congr same 2, Nat.add_assoc, byteAt_congr same (2 + 1)]

theorem stringOffsets_congr (same : table.drop data = other.drop data) (h : Header) (here : h.data = data) :
    stringOffsets table h = stringOffsets other h := by
  have size : DmiMemory.memorySize table h = DmiMemory.memorySize other h := by
    unfold DmiMemory.memorySize word32
    rw [here]
    simp only [Nat.add_assoc, byteAt_congr same]
  unfold stringOffsets DmiMemory.stringOffsets
  rw [size]

theorem next_congr (same : table.drop data = other.drop data) (size : table.length = other.length) {next : Nat} :
    Next build table data next ↔ Next build other data next := by
  have strings : table.drop (behind (headerAt other data)) = other.drop (behind (headerAt other data)) :=
    drop_congr same _
  have step (i : Nat) : stepOf build table (behind (headerAt other data) + i) =
      stepOf build other (behind (headerAt other data) + i) := by
    have rest := drop_congr same ((headerAt other data).length.toNat + i)
    rw [← Nat.add_assoc] at rest
    cases build with
    | default => rfl
    | apple => exact congrArg (fun area => behind (headerAt other data) + i + zeroPairs area) rest
  unfold Next
  rw [headerAt_congr same, size, strings]
  simp only [step]

theorem fine_congr (same : table.drop data = other.drop data) (size : table.length = other.length) :
    Fine build table data ↔ Fine build other data := by
  have strings : table.drop (behind (headerAt other data)) = other.drop (behind (headerAt other data)) :=
    drop_congr same _
  have names (offset : Nat) : (headerAt other data).Names table offset ↔ (headerAt other data).Names other offset := by
    unfold Header.Names
    rw [show (headerAt other data).data = data from rfl, byteAt_congr same, drop_congr same]
  unfold Fine
  rw [headerAt_congr same, size, strings, stringOffsets_congr same _ rfl]
  simp only [names]

theorem Next.forward {next : Nat} (step : Next build table data next) : data ≤ next := by
  obtain ⟨_, _, i, found, rfl⟩ := step
  have bounds := (@stepOf_bounds build table _ _ found).1
  have start : (headerAt table data).data = data := rfl
  rw [behind, start] at bounds ⊢
  omega

theorem reach_congr {first last : Nat} (same : table.drop first = other.drop first) (size : table.length = other.length)
    (reach : Relation.ReflTransGen (Next build table) first last) :
    Relation.ReflTransGen (Next build other) first last ∧ table.drop last = other.drop last := by
  induction reach with
  | refl => exact ⟨.refl, same⟩
  | tail _ step ih =>
    obtain ⟨before, here⟩ := ih
    refine ⟨before.tail ((next_congr here size).mp step), ?_⟩
    obtain ⟨k, rfl⟩ := Nat.exists_eq_add_of_le step.forward
    exact drop_congr here k

/-- All structures that are reached are fine. -/
def AllFine (build : Build) (table : List Byte) (data : Nat) : Prop :=
  ∀ last, Relation.ReflTransGen (Next build table) data last → Fine build table last

theorem allFine_congr (same : table.drop data = other.drop data) (size : table.length = other.length) :
    AllFine build table data ↔ AllFine build other data := by
  constructor
  · intro fine last reach
    obtain ⟨there, rest⟩ := reach_congr same.symm size.symm reach
    exact (fine_congr rest.symm size).mp (fine last there)
  · intro fine last reach
    obtain ⟨there, rest⟩ := reach_congr same size reach
    exact (fine_congr rest size).mpr (fine last there)

theorem allFine_last (last : ∀ next, ¬ Next build table data next) : AllFine build table data ↔ Fine build table data := by
  constructor
  · exact fun fine => fine data .refl
  · intro fine end' reach
    rcases Relation.ReflTransGen.cases_head reach with rfl | ⟨next, step, _⟩
    · exact fine
    · exact absurd step (last next)

theorem allFine_next {next : Nat} (step : Next build table data next) :
    AllFine build table data ↔ Fine build table data ∧ AllFine build table next := by
  constructor
  · exact fun fine => ⟨fine data .refl, fun last reach => fine last (.head step reach)⟩
  · rintro ⟨here, later⟩ last reach
    rcases Relation.ReflTransGen.cases_head reach with rfl | ⟨other, first, rest⟩
    · exact here
    · obtain ⟨_, _, i, found, rfl⟩ := step
      obtain ⟨_, _, j, again, rfl⟩ := first
      rw [found] at again
      cases again
      exact later last rest

theorem unended_beyond {size strings : Nat} (some : 0 < size) : size < unended build size strings + 4 := by
  cases build <;> simp only [unended] <;> omega

theorem decodeFrom_ends {size rounds : Nat} (reader : DmiReader) (table : List Byte) (some : 0 < rounds)
    (beyond : size < data + 4) : Yields (decodeFrom build size rounds data reader) table fun _ _ => True := by
  obtain ⟨rest, rfl⟩ := Nat.exists_eq_add_of_lt some
  rw [Nat.zero_add, decodeFrom, if_neg (Nat.not_le.mpr beyond), yields_pure]
  trivial

/-- The scan from an address stays inside of the table exactly if the structures from there on are
fine. -/
theorem decodeFrom_yields_iff (fits : table.length < 2 ^ 32) {rounds : Nat} {reader : DmiReader}
    (enough : table.length < rounds + data) (some : 0 < rounds) :
    Yields (decodeFrom build table.length rounds data reader) table (fun _ _ => True) ↔ AllFine build table data := by
  induction rounds generalizing data reader table with
  | zero => omega
  | succ rounds ih =>
    rw [decodeFrom]
    by_cases inside : data + 4 ≤ table.length
    · rw [if_pos inside, yields_bind (getHeader_run inside)]
      by_cases ends : (headerAt table data).length.toNat < 4 ∨ (headerAt table data).type = 127
      · rw [if_pos ends, yields_pure, allFine_last (fun next step => ?_)]
        · refine iff_of_true trivial fun _ goes => ?_
          rcases ends with short | last
          · exact absurd goes.1 (by omega)
          · exact absurd last goes.2
        · rcases ends with short | last
          · exact absurd step.2.1.1 (by omega)
          · exact step.2.1.2 last
      · rw [if_neg ends]
        have goes : GoesOn (headerAt table data) := by
          rw [not_or, Nat.not_lt] at ends
          exact ends
        have start : behind (headerAt table data) = data + (headerAt table data).length.toNat := rfl
        have short := (headerAt table data).length.isLt
        by_cases word : behind (headerAt table data) + 1 < 2 ^ 32
        · cases pair : pairAt (table.drop (behind (headerAt table data))) with
          | some i =>
            obtain ⟨forward, last⟩ := @stepOf_bounds build table _ _ pair
            have step : Next build table data (stepOf build table (behind (headerAt table data) + i)) :=
              ⟨inside, goes, i, pair, rfl⟩
            have fine : Fine build table data := fun _ _ => ⟨word, fun none => by rw [pair] at none; cases none⟩
            have stays : ¬ table.length < stepOf build table (behind (headerAt table data) + i) % 2 ^ 32 := by
              rw [Nat.mod_eq_of_lt (by omega)]
              omega
            have closed : ∀ offset ∈ stringOffsets table (headerAt table data), (headerAt table data).Names table offset :=
              fun offset _ => .inr (.inr (by rw [behind] at pair; rw [pair]; rfl))
            rw [yields_bind (nextOf_pair fits word pair), if_neg stays, allFine_next step]
            obtain ⟨decoded, after, ran, frame⟩ := (decodeStructure_yields reader
              (.inr ⟨i, pair, rfl⟩) fun _ _ => id).mpr closed
            have rest : after.drop (stepOf build table (behind (headerAt table data) + i)) =
                table.drop (stepOf build table (behind (headerAt table data) + i)) := by
              apply List.ext_getElem?
              intro k
              have limit : behind (headerAt table data) + i ≤
                  stepOf build table (behind (headerAt table data) + i) + k := by omega
              rw [List.getElem?_drop, List.getElem?_drop]
              exact frame.same _ (.inr limit)
            rw [yields_bind ran, ← frame.length, ih (by rw [frame.length]; exact fits) (by rw [frame.length]; omega) (by omega),
              allFine_congr rest frame.length]
            exact ⟨fun later => ⟨fine, later⟩, And.right⟩
          | none =>
            have ended : 0 < rounds := by omega
            rw [yields_bind (nextOf_unended fits word pair), allFine_last (fun next step => by
              obtain ⟨_, _, i, found, _⟩ := step
              rw [pair] at found
              cases found)]
            by_cases decodes : DecodesUnended build table.length (behind (headerAt table data))
            · rw [if_neg ((unended_decodes fits (by omega) word).mpr decodes), yields_bind_iff,
                decodeStructure_yields reader (.inl (Nat.le_refl _))
                  fun reader after _ => decodeFrom_ends reader after ended (unended_beyond (by omega))]
              exact ⟨fun closed _ _ => ⟨word, fun _ _ => closed⟩, fun fine => (fine inside goes).2 pair decodes⟩
            · rw [if_pos (not_not.mp fun stays => decodes ((unended_decodes fits (by omega) word).mp stays)), yields_pure]
              exact iff_of_true trivial fun _ _ => ⟨word, fun _ decoded => absurd decoded decodes⟩
        · have failed := @nextOf_outside _ build table fits (Nat.not_lt.mp word) (by omega)
          refine iff_of_false (not_yields_bind failed) fun fine => ?_
          exact word (fine data .refl inside goes).1
    · rw [if_neg inside, yields_pure, allFine_last (fun next step => inside step.1)]
      exact iff_of_true trivial fun room => absurd room inside

end Whole

theorem behind_le {table : List Byte} {data : Nat} (inside : data + 4 ≤ table.length) :
    behind (headerAt table data) ≤ table.length + 251 := by
  have short := (headerAt table data).length.isLt
  have start : behind (headerAt table data) = data + (headerAt table data).length.toNat := rfl
  omega

theorem decode_default (reader : DmiReader) (buf : Table) (small : buf.bytes.length + 253 < 2 ^ 32) :
    ∃ decoded, decode .default reader buf = .ok decoded := by
  have yields : Yields _ _ _ := (@decodeFrom_yields_iff .default buf.bytes 0 buf.size_lt (buf.bytes.length + 1) reader
    (by omega) (by omega)).mpr ?_
  · obtain ⟨value, after, ran, -⟩ := yields
    exact ⟨_, ran⟩
  · intro data _ inside _
    have short := behind_le inside
    refine ⟨by omega, fun _ wraps => ?_⟩
    simp only [DecodesUnended] at wraps
    omega

/-- Decoding comes to its end inside of the table exactly if every structure that is reached is fine. -/
theorem decode_inside_iff (build : Build) (reader : DmiReader) (buf : Table) :
    (∃ decoded, decode build reader buf = .ok decoded) ↔ AllFine build buf.bytes 0 := by
  rw [← @decodeFrom_yields_iff build buf.bytes 0 buf.size_lt (buf.bytes.length + 1) reader (by omega) (by omega)]
  constructor
  · rintro ⟨⟨value, after⟩, ran⟩
    exact ⟨value, after, ran, trivial⟩
  · rintro ⟨value, after, ran, -⟩
    exact ⟨_, ran⟩

/-- A board whose formatted area ends with the table names a string behind the table. -/
def boardAtEnd : Table := ⟨[2, 8, 0, 0, 1, 1, 0, 0], by decide⟩

theorem decode_apple_outside : decode .apple {} boardAtEnd = .error .outside := by rfl

end DmiReader

end Xmrig
