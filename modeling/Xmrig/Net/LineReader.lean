import Xmrig.Foundation.Lines
import Xmrig.Foundation.Memory

/-! The reader that turns what a socket delivers into lines.

A line is handed over where it lies in the received data or, when a part of it came
earlier, from a buffer of its own. The listener does not call the reader back.
-/

set_option autoImplicit false

namespace Xmrig

open Foundation

/-- `XMRIG_NET_BUFFER_CHUNK_SIZE`. -/
def chunkSize : Nat := 64 * 1024

abbrev newline : BitVec 8 := 10

structure LineReader where
  buf : Option Memory := none
  pos : Nat := 0

/-- One call of `onLine`: the memory at the pointer, the byte behind the line included,
and the length of the line. There is nothing behind a null pointer. -/
structure Delivered where
  memory : Option (List (BitVec 8))
  size : Nat
  deriving DecidableEq, Repr

namespace LineReader

def reset (reader : LineReader) : LineReader :=
  match reader.buf with
  | none => reader
  | some _ => { buf := none, pos := 0 }

/-- `add`; `fresh` is what `NetBuffer::allocate` returns. A part that does not fit is dropped. -/
def add (reader : LineReader) (fresh : Memory) (data : List (BitVec 8)) : LineReader :=
  if chunkSize < data.length + reader.pos then reader
  else
    match reader.buf with
    | none => { buf := some (fresh.copy 0 data), pos := data.length }
    | some buf => { buf := some (buf.copy reader.pos data), pos := reader.pos + data.length }

/-- The loop of `getline`; `seen` lies between `start` and the byte that `memchr` looks at. -/
def getline (reader : LineReader) (fresh : Memory) :
    (seen data : List (BitVec 8)) → LineReader × List Delivered
  | seen, [] => (if seen = [] then reader.reset else reader.add fresh seen, [])
  | seen, next :: rest =>
    if next = newline then
      let line := seen ++ [0]
      if reader.pos ≠ 0 then
        let filled := reader.add fresh line
        let after := getline { filled with pos := 0 } fresh [] rest
        (after.1, ⟨filled.buf.map (·.read filled.pos), filled.pos - 1⟩ :: after.2)
      else
        let after := getline reader fresh [] rest
        (after.1, (if 1 < line.length then [⟨some line, line.length - 1⟩] else []) ++ after.2)
    else getline reader fresh (seen ++ [next]) rest

def parse (reader : LineReader) (fresh : Memory) (data : List (BitVec 8)) : LineReader × List Delivered :=
  if data.length = 0 then (reader, []) else reader.getline fresh [] data

/-- The reads of a connection, each with the buffer that would be allocated in it. -/
def parseAll (reader : LineReader) : List (Memory × List (BitVec 8)) → LineReader × List Delivered
  | [] => (reader, [])
  | (fresh, data) :: rest =>
    let first := reader.parse fresh data
    let later := parseAll first.1 rest
    (later.1, first.2 ++ later.2)

def retained (reader : LineReader) : List (BitVec 8) :=
  match reader.buf with
  | none => []
  | some buf => buf.read reader.pos

/-- A line as the listener is to see it; empty lines are not reported. -/
def deliver (line : List (BitVec 8)) : List Delivered :=
  if line = [] then [] else [⟨some (line ++ [0]), line.length⟩]

/-- The reader holds a pending part of a line. Nothing is known of one that is too long. -/
def Holds (reader : LineReader) (pending : List (BitVec 8)) : Prop :=
  pending.length ≤ chunkSize → reader.pos = pending.length ∧ reader.retained = pending

section Steps
variable {reader : LineReader} {pending : List (BitVec 8)} (fresh : Memory)

theorem Holds.start : Holds {} [] := fun _ => ⟨rfl, rfl⟩

theorem Holds.reset (holds : reader.Holds []) : reader.reset.Holds [] := by
  intro short
  have empty := holds short
  cases known : reader.buf with
  | none => simpa only [LineReader.reset, known] using empty
  | some buf => simp [LineReader.reset, known, retained]

theorem Holds.add (holds : reader.Holds pending) (data : List (BitVec 8)) :
    (reader.add fresh data).Holds (pending ++ data) := by
  intro short
  rw [List.length_append] at short ⊢
  obtain ⟨buf, pos⟩ := reader
  obtain ⟨same, content⟩ := holds (by omega)
  simp only at same
  subst same
  rw [LineReader.add, if_neg (by simp only; omega)]
  cases buf with
  | none =>
    have empty : pending = [] := content.symm
    subst empty
    exact ⟨(Nat.zero_add _).symm, Memory.read_copy fresh data⟩
  | some buf =>
    refine ⟨rfl, (Memory.read_copy_behind buf _ data).trans ?_⟩
    exact congrArg (· ++ data) content

theorem Holds.of_pos (empty : reader.pos = 0) : reader.Holds [] := by
  intro _
  refine ⟨empty, ?_⟩
  obtain ⟨buf, pos⟩ := reader
  simp only at empty
  subst empty
  cases buf <;> rfl

theorem getline_newline (holds : reader.Holds pending) {seen : List (BitVec 8)}
    (fits : (pending ++ seen).length + 1 ≤ chunkSize) (rest : List (BitVec 8)) :
    ∃ next : LineReader, next.Holds [] ∧
      reader.getline fresh seen (newline :: rest) =
        ((next.getline fresh [] rest).1, deliver (pending ++ seen) ++ (next.getline fresh [] rest).2) := by
  rw [List.length_append] at fits
  obtain ⟨pos, content⟩ := holds (by omega)
  rw [getline, if_pos rfl]
  by_cases fromStart : reader.pos = 0
  · have none_pending : pending = [] := List.length_eq_zero_iff.mp (by omega)
    subst none_pending
    refine ⟨reader, Holds.of_pos fromStart, ?_⟩
    rw [if_neg (not_not.mpr fromStart)]
    cases seen <;> simp [deliver]
  · have whole := holds.add fresh (seen ++ [0])
      (by simp only [List.length_append, List.length_singleton]; omega)
    refine ⟨{ reader.add fresh (seen ++ [0]) with pos := 0 }, Holds.of_pos rfl, ?_⟩
    simp only [if_pos fromStart]
    have given : pending ++ seen ≠ [] := by
      rw [← List.length_pos_iff, List.length_append]
      omega
    rw [deliver, if_neg given, List.singleton_append]
    generalize reader.add fresh (seen ++ [0]) = after at whole ⊢
    obtain ⟨buf, pos⟩ := after
    obtain ⟨size, kept⟩ := whole
    simp only at size
    subst size
    cases buf with
    | none => simp [retained] at kept
    | some buf =>
      have memory : buf.read (pending ++ (seen ++ [0])).length = pending ++ (seen ++ [0]) := kept
      rw [Option.map_some, memory, List.append_assoc]
      simp only [List.length_append, List.length_singleton]
      rfl

theorem getline_lines (holds : reader.Holds pending) {seen data : List (BitVec 8)}
    (begun : seen = [] → data = [] → pending = [])
    (fits : ∀ line ∈ (Lines.split newline (pending ++ seen) data).1, line.length + 1 ≤ chunkSize) :
    (reader.getline fresh seen data).1.Holds (Lines.split newline (pending ++ seen) data).2 ∧
      (reader.getline fresh seen data).2 = (Lines.split newline (pending ++ seen) data).1.flatMap deliver := by
  induction data generalizing reader pending seen with
  | nil =>
    refine ⟨?_, rfl⟩
    rw [getline, Lines.split_nil]
    by_cases none_seen : seen = []
    · rw [if_pos none_seen, begun none_seen rfl, none_seen]
      rw [begun none_seen rfl] at holds
      exact holds.reset
    · rw [if_neg none_seen]
      exact holds.add fresh seen
  | cons next rest ih =>
    by_cases ends : next = newline
    · subst ends
      rw [Lines.split_stop] at fits ⊢
      rw [List.forall_mem_cons] at fits
      obtain ⟨after, empty, step⟩ := getline_newline fresh holds fits.1 rest
      obtain ⟨kept, delivered⟩ := @ih after [] empty [] (fun _ _ => rfl) fits.2
      rw [step, List.flatMap_cons]
      exact ⟨kept, congrArg (deliver (pending ++ seen) ++ ·) delivered⟩
    · rw [Lines.split_next newline ends, List.append_assoc] at fits ⊢
      rw [getline, if_neg ends]
      exact ih holds (by simp) fits

theorem parse_lines (holds : reader.Holds pending) (data : List (BitVec 8))
    (fits : ∀ line ∈ (Lines.split newline pending data).1, line.length + 1 ≤ chunkSize) :
    (reader.parse fresh data).1.Holds (Lines.split newline pending data).2 ∧
      (reader.parse fresh data).2 = (Lines.split newline pending data).1.flatMap deliver := by
  rw [parse]
  split
  · rename_i empty
    rw [List.length_eq_zero_iff.mp empty]
    exact ⟨holds, rfl⟩
  · rename_i given
    have lines := @getline_lines reader pending fresh holds [] data
      (fun _ none => absurd (congrArg List.length none) given)
    rw [List.append_nil] at lines
    exact lines fits

theorem parseAll_split (holds : reader.Holds pending) (chunks : List (Memory × List (BitVec 8)))
    (fits : ∀ line ∈ (Lines.split newline pending (chunks.flatMap Prod.snd)).1, line.length + 1 ≤ chunkSize) :
    (reader.parseAll chunks).1.Holds (Lines.split newline pending (chunks.flatMap Prod.snd)).2 ∧
      (reader.parseAll chunks).2 =
        (Lines.split newline pending (chunks.flatMap Prod.snd)).1.flatMap deliver := by
  induction chunks generalizing reader pending with
  | nil => exact ⟨holds, rfl⟩
  | cons chunk rest ih =>
    obtain ⟨fresh, data⟩ := chunk
    rw [List.flatMap_cons, Lines.split_append] at fits ⊢
    rw [List.forall_mem_append] at fits
    obtain ⟨kept, first⟩ := parse_lines fresh holds data fits.1
    obtain ⟨final, later⟩ := ih kept fits.2
    refine ⟨final, ?_⟩
    rw [parseAll, first, later, List.flatMap_append]

end Steps

/-- The lines of a stream do not depend on how it was cut: each non-empty line is delivered
once with its length and a NUL behind it, and the rest of the stream is kept. -/
theorem parseAll_lines (chunks : List (Memory × List (BitVec 8))) (lines : List (List (BitVec 8)))
    (tail : List (BitVec 8)) (stream : chunks.flatMap Prod.snd = lines.flatMap (· ++ [newline]) ++ tail)
    (inside : ∀ line ∈ lines, newline ∉ line) (unfinished : newline ∉ tail)
    (fits : ∀ line ∈ lines, line.length + 1 ≤ chunkSize) :
    (parseAll {} chunks).2 =
        (lines.filter (· ≠ [])).map (fun line => ⟨some (line ++ [0]), line.length⟩) ∧
      (tail.length ≤ chunkSize → (parseAll {} chunks).1.retained = tail) := by
  have split := Lines.split_join newline inside unfinished
  rw [← stream] at split
  obtain ⟨kept, delivered⟩ := parseAll_split Holds.start chunks (by rw [split]; exact fits)
  rw [split] at kept delivered
  refine ⟨delivered.trans ?_, fun short => (kept short).2⟩
  clear stream inside fits kept delivered split
  induction lines with
  | nil => rfl
  | cons line rest ih =>
    rw [List.flatMap_cons, ih]
    by_cases empty : line = [] <;> simp [deliver, empty]

/-- Two lines and a beginning in three reads; the second line is empty. -/
theorem parseAll_lines_cut :
    (parseAll {} [(fun _ => 7, [97]), (fun _ => 7, [98, 10, 10]), (fun _ => 7, [99])]).2 =
      [⟨some [97, 98, 0], 2⟩] := by
  have cut := (parseAll_lines [(fun _ => 7, [97]), (fun _ => 7, [98, 10, 10]), (fun _ => 7, [99])] [[97, 98], []] [99]
    (by decide) (by decide) (by decide) (by decide)).1
  exact cut.trans (by decide)

end LineReader

end Xmrig
