import Mathlib.Data.List.Induction
import Xmrig.Foundation.Total
import Xmrig.Stratum.EthStratumClient

/-! Which notifications the Ethereum client tolerates.

A run is tolerated if it comes to its end and every element was found to exist and to have the
type it is read as before it was read. The messages are told apart by conditions on the message
and the state, without running the client.
-/

set_option autoImplicit false

namespace Xmrig

open Foundation

namespace Access

/-- The element was found inside of its array. -/
def Found (log : List Access) (element : Element) : Prop :=
  ∃ count, .sized element.array count ∈ log ∧ element.index < count

/-- What has to be known before an access is made. -/
def CoveredBy (before : List Access) : Access → Prop
  | sized _ _ => True
  | tested element _ _ => Found before element
  | read element type => Found before element ∧ .tested element type true ∈ before

/-- Every access of the log is covered by those in front of it. -/
def Covered (log : List Access) : Prop :=
  ∀ before access after, log = before ++ access :: after → CoveredBy before access

theorem covered_nil : Covered [] := by
  intro before access after split
  cases before <;> cases split

theorem Covered.push {log : List Access} {access : Access} (covered : Covered log)
    (known : CoveredBy log access) : Covered (log ++ [access]) := by
  intro before last after split
  induction after using List.reverseRecOn with
  | nil =>
    obtain ⟨rfl, same⟩ := List.append_inj' split rfl
    cases same
    exact known
  | append_singleton inner final =>
    rw [← List.cons_append, ← List.append_assoc] at split
    obtain ⟨whole, -⟩ := List.append_inj' split rfl
    exact covered before last inner whole

theorem Found.append {log : List Access} {element : Element} (found : Found log element)
    (more : List Access) : Found (log ++ more) element := by
  obtain ⟨count, listed, inside⟩ := found
  exact ⟨count, List.mem_append_left more listed, inside⟩

/-- The element may be read as that type. -/
def Known (log : List Access) (element : Element) (type : JsonType) : Prop :=
  CoveredBy log (.read element type)

theorem Known.append {log : List Access} {element : Element} {type : JsonType}
    (known : Known log element type) (more : List Access) : Known (log ++ more) element type :=
  ⟨known.1.append more, List.mem_append_left more known.2⟩

end Access

open Access

namespace Reading

variable {array : JsonArray} {elements : List Json} {index : Nat} {type : JsonType} {value : Json}
variable {log : List Access}

theorem record_run (access : Access) : (record access).run log = .ok ((), log ++ [access]) := rfl

theorem hasType_run (here : elements[index]? = some value) (type : JsonType) :
    (hasType array elements index type).run log =
      .ok (type.fits value, log ++ [.tested ⟨array, index⟩ type (type.fits value)]) := by
  simp only [hasType, element, here]
  rfl

theorem get_run (here : elements[index]? = some value) (type : JsonType) (fits : type.fits value = true) :
    (get array elements index type).run log = .ok (value, log ++ [.read ⟨array, index⟩ type]) := by
  simp only [get, element, here, pure_bind, fits, if_true]
  rfl

theorem get_failed (here : elements[index]? = some value) (misfits : type.fits value = false) :
    (get array elements index type).run log = .error (.mistyped ⟨array, index⟩ type) := by
  simp only [get, element, here, pure_bind, misfits, Bool.false_eq_true, if_false]
  rfl

theorem getChars_run {chars : List Byte} (here : elements[index]? = some (.str chars)) :
    (getChars array elements index).run log = .ok (chars, log ++ [.read ⟨array, index⟩ .string]) := by
  simp only [getChars, StateT.run_bind, get_run here .string rfl]
  rfl

theorem getString_run {chars : List Byte} (here : elements[index]? = some (.str chars)) :
    (getString array elements index).run log =
      .ok (Json.cString chars, log ++ [.read ⟨array, index⟩ .string]) := by
  simp only [getString, StateT.run_bind, getChars_run here]
  rfl

theorem getString_failed (here : elements[index]? = some value) (misfits : JsonType.string.fits value = false) :
    (getString array elements index).run log = .error (.mistyped ⟨array, index⟩ .string) := by
  simp only [getString, getChars, StateT.run_bind, get_failed here misfits]
  rfl

theorem getArray_run {inner : List Json} (here : elements[index]? = some (.arr inner)) :
    (getArray array elements index).run log = .ok (inner, log ++ [.read ⟨array, index⟩ .array]) := by
  simp only [getArray, StateT.run_bind, get_run here .array rfl]
  rfl

/-- A chain of tests on elements that exist comes to its end, and its outcome is whether all
types fit. -/
theorem haveTypes_run {types : List (Nat × JsonType)} (fit : Nat → Json)
    (here : ∀ entry ∈ types, elements[entry.1]? = some (fit entry.1)) (covered : Covered log)
    (found : ∀ entry ∈ types, Found log ⟨array, entry.1⟩) :
    ∃ all tests, (haveTypes array elements types).run log = .ok (all, log ++ tests) ∧
      (all = true ↔ ∀ entry ∈ types, entry.2.fits (fit entry.1) = true) ∧ Covered (log ++ tests) ∧
      (all = true → ∀ entry ∈ types, Known (log ++ tests) ⟨array, entry.1⟩ entry.2) := by
  induction types generalizing log with
  | nil => exact ⟨true, [], by rw [List.append_nil]; rfl, by simp, by simpa using covered, by simp⟩
  | cons entry rest ih =>
    obtain ⟨index, type⟩ := entry
    rw [List.forall_mem_cons] at here found
    have pushed : Covered (log ++ [.tested ⟨array, index⟩ type (type.fits (fit index))]) :=
      covered.push found.1
    simp only [haveTypes, StateT.run_bind, hasType_run here.1]
    cases fits : type.fits (fit index) with
    | false =>
      rw [fits] at pushed
      exact ⟨false, _, rfl, by simp [fits], pushed, by simp⟩
    | true =>
      rw [fits] at pushed
      obtain ⟨all, tests, ran, outcome, covered, known⟩ :=
        ih here.2 pushed fun entry listed => (found.2 entry listed).append _
      rw [List.append_assoc] at ran covered known
      refine ⟨all, _, ran, by simp [outcome, fits], covered, ?_⟩
      intro passed
      rw [List.forall_mem_cons]
      exact ⟨⟨found.1.append _, by simp⟩, known passed⟩

end Reading

namespace EthStratumClient

/-! The height in the coinbase. -/

/-- How many bytes from a position on pass a test, out of at most `left`. -/
def stretch (test : Byte → Bool) (buf : List Byte) (left position : Nat) : Nat :=
  (((buf.drop position).take left).takeWhile test).length

/-- Where the first run of bytes `0xff` behind the first 32 bytes starts. -/
def runStart (buf : List Byte) : Nat := 32 + stretch (· ≠ 0xff) buf (scanEnd - 32) 32

def runStop (buf : List Byte) : Nat :=
  runStart buf + stretch (· = 0xff) buf (scanEnd - runStart buf) (runStart buf)

/-- The coinbase reaches behind the run or has all the bytes that are scanned, and what is read
behind a run of two bytes is there. -/
structure CoinbaseFits (buf : List Byte) : Prop where
  scanned : min (runStop buf) (scanEnd - 1) < buf.length
  height : runStop buf < scanEnd → buf[runStop buf - 1]? = some 0xff → buf[runStop buf - 2]? = some 0xff →
    runStop buf + 3 < buf.length ∧
      (buf[runStop buf + 1]? = some 4 → runStop buf + 5 < buf.length) ∧
      (buf[runStop buf + 1]? = some 3 → runStop buf + 4 < buf.length)

theorem byteAt_of_lt {buf : List Byte} {position : Nat} (inside : position < buf.length) :
    byteAt buf position = .ok buf[position] := by
  rw [byteAt, List.getElem?_eq_getElem inside]

theorem byteAt_of_le {buf : List Byte} {position : Nat} (outside : buf.length ≤ position) :
    byteAt buf position = .error .outOfBounds := by
  rw [byteAt, List.getElem?_eq_none outside]

theorem skipWhile_eq (test : Byte → Bool) (buf : List Byte) (left position : Nat) :
    skipWhile test buf left position =
      if stretch test buf left position = left ∨ position + stretch test buf left position < buf.length
      then .ok (position + stretch test buf left position) else .error .outOfBounds := by
  induction left generalizing position with
  | zero => simp [skipWhile, stretch]
  | succ left ih =>
    unfold skipWhile
    by_cases inside : position < buf.length
    · rw [byteAt_of_lt inside]
      simp only [stretch, List.drop_eq_getElem_cons inside, List.take_succ_cons]
      by_cases passes : test buf[position] = true
      · have tail : position + 1 + stretch test buf left (position + 1) =
            position + (stretch test buf left (position + 1) + 1) := by omega
        simp only [List.takeWhile_cons_of_pos passes, List.length_cons, Nat.add_right_cancel_iff]
        change (if test buf[position] = true then skipWhile test buf left (position + 1) else _) = _
        rw [if_pos passes, ih, tail]
        rfl
      · rw [List.takeWhile_cons_of_neg passes]
        change (if test buf[position] = true then _ else Except.ok position) = _
        rw [if_neg passes, if_pos (.inr inside)]
        rfl
    · have behind : buf.length ≤ position := Nat.le_of_not_lt inside
      have none : stretch test buf (left + 1) position = 0 := by
        simp [stretch, List.drop_eq_nil_of_le behind]
      rw [byteAt_of_le behind, none, if_neg (by omega)]
      rfl

theorem stretch_le (test : Byte → Bool) (buf : List Byte) (left position : Nat) :
    stretch test buf left position ≤ left ∧ stretch test buf left position ≤ buf.length - position := by
  have shorter := (List.takeWhile_sublist test (l := (buf.drop position).take left)).length_le
  rw [List.length_take, List.length_drop] at shorter
  exact ⟨by unfold stretch; omega, by unfold stretch; omega⟩

theorem wordAt_of_lt {buf : List Byte} (position : Nat) (inside : position + 1 < buf.length) :
    ∃ word, wordAt buf position = .ok word := by
  simp only [wordAt, byteAt_of_lt inside, byteAt_of_lt (Nat.lt_of_succ_lt inside)]
  exact ⟨_, rfl⟩

theorem wordAt_of_le {buf : List Byte} {position : Nat} (outside : buf.length ≤ position + 1) :
    wordAt buf position = .error .outOfBounds := by
  unfold wordAt
  by_cases low : position < buf.length
  · simp only [byteAt_of_lt low, byteAt_of_le outside]
    rfl
  · rw [byteAt_of_le (Nat.le_of_not_lt low)]
    rfl

theorem heightAt_ok_iff (buf : List Byte) (position : Nat) :
    (∃ height, heightAt buf position = .ok height) ↔ position + 3 < buf.length ∧
      (buf[position + 1]? = some 4 → position + 5 < buf.length) ∧
      (buf[position + 1]? = some 3 → position + 4 < buf.length) := by
  unfold heightAt
  by_cases low : position + 3 < buf.length
  · obtain ⟨word, low16⟩ := wordAt_of_lt (position + 2) low
    have inside : position + 1 < buf.length := by omega
    rw [low16, byteAt_of_lt inside, List.getElem?_eq_getElem inside]
    generalize buf[position + 1] = size
    change (∃ height, (if size = 4 then _ else if size = 3 then _ else _) = _) ↔ _
    by_cases four : size = 4
    · subst four
      rw [if_pos rfl]
      by_cases high : position + 5 < buf.length
      · obtain ⟨upper, high16⟩ := wordAt_of_lt (position + 4) high
        rw [high16]
        exact ⟨fun _ => ⟨low, fun _ => high, fun _ => by omega⟩, fun _ => ⟨_, rfl⟩⟩
      · rw [wordAt_of_le (by omega)]
        exact ⟨fun ⟨_, done⟩ => (by cases done), fun holds => absurd (holds.2.1 rfl) high⟩
    · rw [if_neg four]
      by_cases three : size = 3
      · subst three
        rw [if_pos rfl]
        by_cases high : position + 4 < buf.length
        · rw [byteAt_of_lt high]
          exact ⟨fun _ => ⟨low, fun same => by simp at same, fun _ => high⟩, fun _ => ⟨_, rfl⟩⟩
        · rw [byteAt_of_le (Nat.le_of_not_lt high)]
          exact ⟨fun ⟨_, done⟩ => (by cases done), fun holds => absurd (holds.2.2 rfl) high⟩
      · rw [if_neg three]
        exact ⟨fun _ => ⟨low, fun same => absurd (Option.some.inj same) four,
          fun same => absurd (Option.some.inj same) three⟩, fun _ => ⟨word, rfl⟩⟩
  · rw [wordAt_of_le (by omega)]
    exact ⟨fun ⟨_, done⟩ => (by cases done), fun holds => absurd holds.1 low⟩

theorem scans_of_scanned {buf : List Byte} (scanned : min (runStop buf) (scanEnd - 1) < buf.length) :
    skipWhile (· ≠ 0xff) buf (scanEnd - 32) 32 = .ok (runStart buf) ∧
      skipWhile (· = 0xff) buf (scanEnd - runStart buf) (runStart buf) = .ok (runStop buf) := by
  have first := stretch_le (· ≠ 0xff) buf (scanEnd - 32) 32
  have second := stretch_le (· = 0xff) buf (scanEnd - runStart buf) (runStart buf)
  have start : runStart buf = 32 + stretch (· ≠ 0xff) buf (scanEnd - 32) 32 := rfl
  have stop : runStop buf = runStart buf + stretch (· = 0xff) buf (scanEnd - runStart buf) (runStart buf) := rfl
  simp only [scanEnd] at *
  constructor
  · rw [skipWhile_eq, if_pos (by omega), start]
  · rw [skipWhile_eq, if_pos (by omega), ← stop]

theorem scans_of_not_scanned {buf : List Byte} (short : buf.length ≤ min (runStop buf) (scanEnd - 1)) :
    coinbaseHeight buf = .error .outOfBounds := by
  have first := stretch_le (· ≠ 0xff) buf (scanEnd - 32) 32
  have second := stretch_le (· = 0xff) buf (scanEnd - runStart buf) (runStart buf)
  have start : runStart buf = 32 + stretch (· ≠ 0xff) buf (scanEnd - 32) 32 := rfl
  have stop : runStop buf = runStart buf + stretch (· = 0xff) buf (scanEnd - runStart buf) (runStart buf) := rfl
  unfold coinbaseHeight
  by_cases found : runStart buf < buf.length
  · have reached : skipWhile (· ≠ 0xff) buf (scanEnd - 32) 32 = .ok (runStart buf) := by
      rw [skipWhile_eq, if_pos (.inr found), start]
    have left : skipWhile (· = 0xff) buf (scanEnd - runStart buf) (runStart buf) = .error .outOfBounds := by
      rw [skipWhile_eq, if_neg]
      simp only [scanEnd] at *
      omega
    rw [reached]
    change (skipWhile (· = 0xff) buf (scanEnd - runStart buf) (runStart buf) >>= _) = _
    rw [left]
    rfl
  · have left : skipWhile (· ≠ 0xff) buf (scanEnd - 32) 32 = .error .outOfBounds := by
      rw [skipWhile_eq, if_neg]
      simp only [scanEnd] at *
      omega
    rw [left]
    rfl

theorem coinbaseHeight_ok_iff (buf : List Byte) :
    (∃ height, coinbaseHeight buf = .ok height) ↔ CoinbaseFits buf := by
  by_cases scanned : min (runStop buf) (scanEnd - 1) < buf.length
  · obtain ⟨first, second⟩ := scans_of_scanned scanned
    have body : coinbaseHeight buf = if runStop buf < scanEnd then (do
        if (← byteAt buf (runStop buf - 1)) = 0xff then
          if (← byteAt buf (runStop buf - 2)) = 0xff then heightAt buf (runStop buf) else pure 0
        else pure 0) else pure 0 := by
      unfold coinbaseHeight
      rw [first]
      change (skipWhile (· = 0xff) buf (scanEnd - runStart buf) (runStart buf) >>= _) = _
      rw [second]
      rfl
    rw [body]
    by_cases before : runStop buf < scanEnd
    · have inside : runStop buf < buf.length := by omega
      have one : runStop buf - 1 < buf.length := by omega
      have two : runStop buf - 2 < buf.length := by omega
      rw [if_pos before, byteAt_of_lt one, byteAt_of_lt two]
      change (∃ height, (if buf[runStop buf - 1] = 0xff then
        (if buf[runStop buf - 2] = 0xff then _ else _) else _) = _) ↔ _
      by_cases last : buf[runStop buf - 1] = 0xff
      · rw [if_pos last]
        by_cases previous : buf[runStop buf - 2] = 0xff
        · rw [if_pos previous, heightAt_ok_iff]
          refine ⟨fun holds => ⟨scanned, fun _ _ _ => holds⟩, fun fits => fits.height before ?_ ?_⟩
          · rw [List.getElem?_eq_getElem one, last]
          · rw [List.getElem?_eq_getElem two, previous]
        · rw [if_neg previous]
          refine ⟨fun _ => ⟨scanned, fun _ _ same => ?_⟩, fun _ => ⟨0, rfl⟩⟩
          rw [List.getElem?_eq_getElem two] at same
          exact absurd (Option.some.inj same) previous
      · rw [if_neg last]
        refine ⟨fun _ => ⟨scanned, fun _ same _ => ?_⟩, fun _ => ⟨0, rfl⟩⟩
        rw [List.getElem?_eq_getElem one] at same
        exact absurd (Option.some.inj same) last
    · rw [if_neg before]
      exact ⟨fun _ => ⟨scanned, fun inside => absurd inside before⟩, fun _ => ⟨0, rfl⟩⟩
  · rw [scans_of_not_scanned (Nat.le_of_not_lt scanned)]
    exact ⟨fun ⟨_, done⟩ => (by cases done), fun fits => absurd fits.scanned scanned⟩

/-! The Merkle root and the header. -/

def Hex (chars : List Byte) : Prop := ∀ char ∈ chars, (Cvt.digit char).isSome

theorem fromHexBuffer_length (chars : List Byte) :
    (Hex chars ∧ chars.length % 2 = 0 → (fromHexBuffer chars).length = chars.length / 2) ∧
      (¬ (Hex chars ∧ chars.length % 2 = 0) → fromHexBuffer chars = []) := by
  constructor
  · rintro ⟨digits, even⟩
    by_cases empty : chars = []
    · subst empty
      rfl
    · have ok := (Cvt.fromHex_ok_iff [] chars).mpr ⟨empty, digits, even⟩
      rw [fromHexBuffer, if_pos ok]
      exact Cvt.fromHex_length [] chars (fun none => empty (List.length_eq_zero_iff.mp none))
  · intro refused
    rw [fromHexBuffer, if_neg]
    intro ok
    exact refused ((Cvt.fromHex_ok_iff [] chars).mp ok).2

/-- A branch that the loop accepts. -/
def BranchValid (branch : Json) : Prop := ∃ chars, branch = .str chars ∧ chars.length = 64 ∧ Hex chars

theorem branchLength_iff (chars : List Byte) :
    (fromHexBuffer chars).length = 32 ↔ chars.length = 64 ∧ Hex chars := by
  by_cases accepted : Hex chars ∧ chars.length % 2 = 0
  · rw [(fromHexBuffer_length chars).1 accepted]
    exact ⟨fun half => ⟨by omega, accepted.1⟩, fun whole => by omega⟩
  · rw [(fromHexBuffer_length chars).2 accepted]
    refine iff_of_false (by simp) ?_
    rintro ⟨length, digits⟩
    exact accepted ⟨digits, by omega⟩

theorem merkleRoot_run (host : EthHost) {branches : List Json} {left index : Nat} {root : List Byte}
    {log : List Access} (inside : index + left ≤ branches.length)
    (sized : ∃ count, .sized .branches count ∈ log ∧ index + left ≤ count) (covered : Covered log)
    (whole : root.length = 32) :
    ∃ result more, (merkleRoot host branches left index root).run log = .ok (result, log ++ more) ∧
      Covered (log ++ more) ∧ (∀ final, result = some final → final.length = 32) ∧
      (result.isSome = true ↔ ∀ branch ∈ (branches.drop index).take left, BranchValid branch) := by
  induction left generalizing index root log with
  | zero => exact ⟨some root, [], by rw [List.append_nil]; rfl, by simpa using covered, by simp [whole], by simp⟩
  | succ left ih =>
    have here : index < branches.length := by omega
    have branch := List.getElem?_eq_getElem here
    obtain ⟨count, listed, room⟩ := sized
    have found : Found log ⟨.branches, index⟩ := ⟨count, listed, by change index < count; omega⟩
    rw [List.drop_eq_getElem_cons here, List.take_succ_cons, List.forall_mem_cons]
    generalize branches[index] = value at branch
    have tested : Covered (log ++ [.tested ⟨.branches, index⟩ .string (JsonType.string.fits value)]) :=
      covered.push found
    simp only [merkleRoot, StateT.run_bind, Reading.hasType_run branch]
    -- only a string is read, and only one of 64 digits keeps the loop going
    by_cases fits : ∃ chars, value = .str chars
    · obtain ⟨chars, rfl⟩ := fits
      have known : Covered (log ++ [.tested ⟨.branches, index⟩ .string true] ++ [.read ⟨.branches, index⟩ .string]) :=
        tested.push ⟨found.append _, by simp [JsonType.fits]⟩
      change ∃ result more, ((Reading.getChars .branches branches index).run
        (log ++ [.tested ⟨.branches, index⟩ .string true]) >>= _) = _ ∧ _
      rw [Reading.getChars_run branch]
      by_cases size : (fromHexBuffer chars).length = 32
      · have next : (host.sha256d (root ++ fromHexBuffer chars)).toList.length = 32 := by simp
        have rest : index + 1 + left ≤ branches.length := by omega
        obtain ⟨result, more, ran, covered, length, outcome⟩ :=
          ih rest ⟨count, by simp [listed], by omega⟩ known next
        refine ⟨result, [.tested ⟨.branches, index⟩ .string true, .read ⟨.branches, index⟩ .string] ++ more,
          ?_, by simpa using covered, length, ?_⟩
        · change StateT.run (if (fromHexBuffer chars).length ≠ 32 then _ else _) _ = _
          rw [if_neg (by simp [size]), ran]
          simp
        · rw [outcome]
          refine ⟨fun rest => ⟨⟨chars, rfl, (branchLength_iff chars).mp size⟩, rest⟩, fun all => all.2⟩
      · refine ⟨none, _, ?_, by simpa using known, by simp, ?_⟩
        · change StateT.run (if (fromHexBuffer chars).length ≠ 32 then _ else _) _ = _
          rw [if_pos size, List.append_assoc]
          rfl
        · refine iff_of_false (by simp) ?_
          rintro ⟨⟨other, same, valid⟩, -⟩
          cases same
          exact size ((branchLength_iff chars).mpr valid)
    · have misfits : JsonType.string.fits value = false := by
        cases value with
        | str chars => exact absurd ⟨chars, rfl⟩ fits
        | _ => rfl
      rw [misfits] at tested ⊢
      refine ⟨none, _, rfl, tested, by simp, iff_of_false (by simp) ?_⟩
      rintro ⟨⟨chars, same, -⟩, -⟩
      exact fits ⟨chars, same⟩

theorem swapWords_ok {left position : Nat} {buf : List Byte} (inside : position + 4 * left ≤ buf.length) :
    ∃ swapped, swapWords left position buf = .ok swapped := by
  induction left generalizing position buf with
  | zero => exact ⟨buf, rfl⟩
  | succ left ih =>
    have length : (swapAt buf position).length = buf.length := by
      simp only [swapAt, List.length_append, List.length_take, List.length_reverse, List.length_drop]
      omega
    simp only [swapWords]
    rw [if_neg (show ¬ buf.length < position + 4 by omega)]
    split
    · exact ih (by rw [length]; omega)
    · exact ih (by omega)

/-! GhostRider jobs. -/

def param (elements : List Json) (index : Nat) : List Byte := ((elements[index]?).bind Json.asString).getD []

def visitedBranches (elements : List Json) : List Json :=
  match elements[4]? with
  | some (Json.arr inner) => inner.take (toInt32 inner.length).toNat
  | _ => []

def coinbase (client : EthStratumClient) (elements : List Json) : List Byte :=
  fromHexBuffer (param elements 2 ++ client.extraNonce.2.getD [] ++
    List.replicate (client.extraNonce2Size * 2).toNat 48 ++ param elements 3)

/-- With all branches accepted, a header that has the right length is hexadecimal. -/
def HeaderFits (elements : List Json) : Prop :=
  (∀ branch ∈ visitedBranches elements, BranchValid branch) →
    (param elements 5 ++ param elements 1 ++ param elements 7 ++ param elements 6).length = 88 →
      Hex (param elements 5 ++ param elements 1 ++ param elements 7 ++ param elements 6)

/-- What a GhostRider job of the right types has to keep to: the client has an extra nonce, the
coinbase text can be built, its bytes have what is looked for, their number is an `int`, and a
header of the right length is hexadecimal. -/
structure Digestible (host : EthHost) (client : EthStratumClient) (elements : List Json) : Prop where
  extraNonce : client.extraNonce.2.isSome
  room : (param elements 2 ++ client.extraNonce.2.getD []).length +
    (client.extraNonce2Size * 2).toNat + (param elements 3).length ≤ host.maxString
  height : CoinbaseFits (client.coinbase elements)
  hashed : 0 ≤ toInt32 (client.coinbase elements).length
  header : HeaderFits elements

def Typed (elements : List Json) (types : List (Nat × JsonType)) : Prop :=
  ∀ entry ∈ types, ∃ value, elements[entry.1]? = some value ∧ entry.2.fits value = true

theorem fits_string {value : Json} (fits : JsonType.string.fits value = true) : ∃ chars, value = .str chars := by
  cases value with
  | str chars => exact ⟨chars, rfl⟩
  | _ => cases fits

theorem fits_array {value : Json} (fits : JsonType.array.fits value = true) : ∃ inner, value = .arr inner := by
  cases value with
  | arr inner => exact ⟨inner, rfl⟩
  | _ => cases fits

theorem toInt32_le (size : Nat) : (toInt32 size).toNat ≤ size := by
  simp only [toInt32, BitVec.toInt_eq_toNat_cond, BitVec.toNat_ofNat]
  have small := Nat.mod_le size (2 ^ 32)
  split <;> omega

theorem param_of {elements : List Json} {index : Nat} {chars : List Byte}
    (here : elements[index]? = some (.str chars)) : param elements index = Json.cString chars := by
  rw [param, here]
  rfl

theorem header_length {header : List Byte} (size : header.length = 76 * 2) :
    (Hex header → (fromHexBuffer (padZeros header (80 * 2))).length = 80) ∧
      (¬ Hex header → fromHexBuffer (padZeros header (80 * 2)) = []) := by
  have padded : padZeros header (80 * 2) = header ++ List.replicate 8 48 := by
    rw [padZeros, size, List.take_of_length_le (by omega)]
  have zero : Hex (List.replicate 8 48) := by
    intro char listed
    rw [List.eq_of_mem_replicate listed]
    rfl
  rw [padded]
  constructor
  · intro digits
    have length : (header ++ List.replicate 8 (48 : Byte)).length = 160 := by simp [size]
    rw [(fromHexBuffer_length _).1 ⟨List.forall_mem_append.mpr ⟨digits, zero⟩, by omega⟩, length]
  · intro refused
    apply (fromHexBuffer_length _).2
    rintro ⟨digits, -⟩
    exact refused (List.forall_mem_append.mp digits).1

theorem header_iff {root : List Byte} (whole : root.length = 32) (front ntime nbits : List Byte) :
    ((front ++ Cvt.toHex root ++ ntime ++ nbits).length = 76 * 2 ↔ (front ++ ntime ++ nbits).length = 88) ∧
    (Hex (front ++ Cvt.toHex root ++ ntime ++ nbits) ↔ Hex (front ++ ntime ++ nbits)) := by
  constructor
  · simp only [List.length_append, Cvt.toHex_length, whole]
    omega
  · have digits := Cvt.digits_toHex root
    simp only [Hex, List.forall_mem_append]
    exact ⟨fun ⟨⟨⟨before, _⟩, time⟩, bits⟩ => ⟨⟨before, time⟩, bits⟩,
      fun ⟨⟨before, time⟩, bits⟩ => ⟨⟨⟨before, digits⟩, time⟩, bits⟩⟩

theorem sealHeader_ok_iff (client : EthStratumClient) (job : Job) (header : List Byte) :
    (∃ built, client.sealHeader job header = .ok built) ↔ (header.length = 76 * 2 → Hex header) := by
  unfold sealHeader
  by_cases size : header.length = 76 * 2
  · rw [if_neg (by simp [size])]
    by_cases digits : Hex header
    · have room : 0 + 4 * 20 ≤ (fromHexBuffer (padZeros header (80 * 2))).length := by
        rw [(header_length size).1 digits]
      obtain ⟨swapped, done⟩ := swapWords_ok room
      rw [done]
      exact iff_of_true ⟨_, rfl⟩ fun _ => digits
    · rw [(header_length size).2 digits]
      exact ⟨fun ⟨_, done⟩ => (by cases done), fun holds => absurd (holds size) digits⟩
  · rw [if_pos size]
    exact iff_of_true ⟨_, rfl⟩ fun same => absurd same size

variable {host : EthHost} {client : EthStratumClient} {elements : List Json} {log : List Access}
variable {post : EthStratumClient × Built → List Access → Prop}

theorem finishJob_yields_iff {job : Job} {leaf : List Byte}
    (weak : ∀ built after, Covered after → post built after) (covered : Covered log)
    (typed : Typed elements [(4, .array), (6, .string), (7, .string)])
    (known : ∀ entry ∈ [(4, JsonType.array), (6, .string), (7, .string)], Known log ⟨.params, entry.1⟩ entry.2)
    (whole : leaf.length = 32) :
    Yields (finishJob host client elements job (param elements 5 ++ param elements 1) leaf) log post ↔
      HeaderFits elements := by
  simp only [Typed, List.forall_mem_cons, List.not_mem_nil, false_implies, implies_true, and_true] at typed known
  obtain ⟨⟨v4, h4, t4⟩, ⟨v6, h6, t6⟩, v7, h7, t7⟩ := typed
  obtain ⟨inner, rfl⟩ := fits_array t4
  obtain ⟨c6, rfl⟩ := fits_string t6
  obtain ⟨c7, rfl⟩ := fits_string t7
  obtain ⟨k4, k6, k7⟩ := known
  have visited : visitedBranches elements = (inner.drop 0).take (toInt32 inner.length).toNat := by
    simp only [visitedBranches, h4, List.drop_zero]
  have entered : Covered (log ++ [.read ⟨.params, 4⟩ .array] ++
      [.sized .branches (toInt32 inner.length).toNat]) := (covered.push k4).push trivial
  have inside : 0 + (toInt32 inner.length).toNat ≤ inner.length := by
    rw [Nat.zero_add]
    exact toInt32_le inner.length
  obtain ⟨result, more, ran, done, length, outcome⟩ :=
    merkleRoot_run host inside ⟨_, List.mem_append_right _ (List.mem_singleton_self _), by omega⟩ entered whole
  rw [← visited] at outcome
  unfold finishJob
  rw [yields_bind (Reading.getArray_run h4), yields_bind (Reading.record_run _), yields_bind ran]
  cases result with
  | none =>
    rw [yields_pure]
    refine iff_of_true (weak _ _ done) fun valid => ?_
    have some := outcome.mpr valid
    cases some
  | some root =>
    have valid := outcome.mp rfl
    have sized := header_iff (length root rfl) (param elements 5 ++ param elements 1) (Json.cString c7) (Json.cString c6)
    have read : Covered (log ++ [.read ⟨.params, 4⟩ .array] ++ [.sized .branches (toInt32 inner.length).toNat] ++
        more ++ [.read ⟨.params, 7⟩ .string] ++ [.read ⟨.params, 6⟩ .string]) := by
      refine (done.push ?_).push ?_
      · exact ((k7.append _).append _).append _
      · exact (((k6.append _).append _).append _).append _
    simp only
    rw [yields_bind (Reading.getString_run h7), yields_bind (Reading.getString_run h6), yields_lift]
    rw [HeaderFits, param_of h7, param_of h6, ← sized.1, ← sized.2]
    constructor
    · rintro ⟨built, sealed, -⟩ -
      exact (sealHeader_ok_iff _ _ _).mp ⟨built, sealed⟩
    · intro fits
      obtain ⟨built, sealed⟩ := (sealHeader_ok_iff _ _ _).mpr (fits valid)
      exact ⟨built, sealed, weak _ _ read⟩

theorem coinbaseText_ok_iff {front back text : List Byte} :
    coinbaseText host client front back = .ok text ↔ client.extraNonce.2.isSome = true ∧
      (front ++ client.extraNonce.2.getD []).length + (client.extraNonce2Size * 2).toNat + back.length ≤
        host.maxString ∧
      text = front ++ client.extraNonce.2.getD [] ++
        List.replicate (client.extraNonce2Size * 2).toNat 48 ++ back := by
  unfold coinbaseText
  cases client.extraNonce.2 with
  | none => simp
  | some nonce =>
    simp only [Option.isSome_some, Option.getD_some, true_and]
    split
    · exact iff_of_false (by simp) (by omega)
    · rename_i room
      rw [Except.ok.injEq]
      exact ⟨fun same => ⟨by omega, same.symm⟩, fun holds => holds.2.symm⟩

theorem hashBuffer_ok_iff {buf leaf : List Byte} :
    hashBuffer host buf = .ok leaf ↔ 0 ≤ toInt32 buf.length ∧
      leaf = (host.sha256d (buf.take (toInt32 buf.length).toNat)).toList := by
  unfold hashBuffer
  split
  · exact iff_of_false (by simp) (by omega)
  · rename_i positive
    rw [Except.ok.injEq]
    exact ⟨fun same => ⟨by omega, same.symm⟩, fun holds => holds.2.symm⟩

theorem digestJob_yields_iff (job : Job) (weak : ∀ built after, Covered after → post built after)
    (covered : Covered log) (typed : Typed elements ghostRiderTypes)
    (known : ∀ entry ∈ ghostRiderTypes, Known log ⟨.params, entry.1⟩ entry.2) :
    Yields (digestJob host client elements job) log post ↔ Digestible host client elements := by
  have part : [(4, JsonType.array), (6, .string), (7, .string)] ⊆ ghostRiderTypes := by decide
  have inner : Typed elements [(4, .array), (6, .string), (7, .string)] :=
    fun entry listed => typed entry (part listed)
  have string (index : Nat) (listed : (index, JsonType.string) ∈ ghostRiderTypes) :
      ∃ chars, elements[index]? = some (.str chars) := by
    obtain ⟨value, here, fits⟩ := typed _ listed
    obtain ⟨chars, rfl⟩ := fits_string fits
    exact ⟨chars, here⟩
  obtain ⟨c1, h1⟩ := string 1 (by decide)
  obtain ⟨c2, h2⟩ := string 2 (by decide)
  obtain ⟨c3, h3⟩ := string 3 (by decide)
  obtain ⟨c5, h5⟩ := string 5 (by decide)
  have read : Covered (log ++ [.read ⟨.params, 5⟩ .string] ++ [.read ⟨.params, 1⟩ .string] ++
      [.read ⟨.params, 2⟩ .string] ++ [.read ⟨.params, 3⟩ .string]) := by
    refine (((covered.push ?_).push ?_).push ?_).push ?_
    · exact known (5, .string) (by decide)
    · exact (known (1, .string) (by decide)).append _
    · exact ((known (2, .string) (by decide)).append _).append _
    · exact (((known (3, .string) (by decide)).append _).append _).append _
  have later (entry : Nat × JsonType) (listed : entry ∈ [(4, JsonType.array), (6, .string), (7, .string)]) :
      Known (log ++ [.read ⟨.params, 5⟩ .string] ++ [.read ⟨.params, 1⟩ .string] ++
        [.read ⟨.params, 2⟩ .string] ++ [.read ⟨.params, 3⟩ .string]) ⟨.params, entry.1⟩ entry.2 :=
    ((((known entry (part listed)).append _).append _).append _).append _
  unfold digestJob
  rw [yields_bind (Reading.getString_run h5), yields_bind (Reading.getString_run h1),
    yields_bind (Reading.getString_run h2), yields_bind (Reading.getString_run h3), yields_lift_bind,
    ← param_of h5, ← param_of h1, ← param_of h2, ← param_of h3]
  constructor
  · rintro ⟨text, built, rest⟩
    obtain ⟨nonce, room, rfl⟩ := coinbaseText_ok_iff.mp built
    rw [yields_lift_bind] at rest
    obtain ⟨height, scanned, rest⟩ := rest
    rw [yields_lift_bind] at rest
    obtain ⟨leaf, hashed, rest⟩ := rest
    obtain ⟨positive, rfl⟩ := hashBuffer_ok_iff.mp hashed
    exact ⟨nonce, room, (coinbaseHeight_ok_iff _).mp ⟨height, scanned⟩, positive,
      (finishJob_yields_iff weak read inner later (by simp)).mp rest⟩
  · intro fits
    obtain ⟨height, scanned⟩ := (coinbaseHeight_ok_iff _).mpr fits.height
    refine ⟨_, coinbaseText_ok_iff.mpr ⟨fits.extraNonce, fits.room, rfl⟩, ?_⟩
    rw [yields_lift_bind]
    refine ⟨height, scanned, ?_⟩
    rw [yields_lift_bind]
    exact ⟨_, hashBuffer_ok_iff.mpr ⟨fits.hashed, rfl⟩,
      (finishJob_yields_iff weak read inner later (by simp)).mpr fits.header⟩

theorem ghostRiderJob_yields_iff (job : Job) (weak : ∀ built after, Covered after → post built after)
    (covered : Covered log) (sized : .sized .params 8 ∈ log) (long : 8 ≤ elements.length) :
    Yields (ghostRiderJob host client elements job) log post ↔
      (Typed elements ghostRiderTypes → Digestible host client elements) := by
  have small : ∀ entry ∈ ghostRiderTypes, entry.1 < 8 := by decide
  have here : ∀ entry ∈ ghostRiderTypes, elements[entry.1]? = some (elements.getD entry.1 .null) := by
    intro entry listed
    have inside : entry.1 < elements.length := Nat.lt_of_lt_of_le (small entry listed) long
    rw [List.getElem?_eq_getElem inside, List.getD_eq_getElem _ _ inside]
  obtain ⟨all, tests, ran, outcome, tested, known⟩ := Reading.haveTypes_run (elements.getD · .null) here covered
    fun entry listed => ⟨8, sized, small entry listed⟩
  have typed : all = true ↔ Typed elements ghostRiderTypes := by
    rw [outcome]
    refine ⟨fun fits entry listed => ⟨_, here entry listed, fits entry listed⟩, fun typed entry listed => ?_⟩
    obtain ⟨value, found, fits⟩ := typed entry listed
    rw [here entry listed] at found
    cases found
    exact fits
  unfold ghostRiderJob
  rw [yields_bind ran]
  cases all with
  | false =>
    simp only [Bool.false_eq_true, if_false, yields_pure]
    exact iff_of_true (weak _ _ tested) fun fits => absurd (typed.mpr fits) (by simp)
  | true =>
    simp only [if_true]
    rw [digestJob_yields_iff job weak tested (typed.mp rfl) (known rfl)]
    exact ⟨fun digestible _ => digestible, fun fits => fits (typed.mp rfl)⟩

/-! KawPow jobs. -/

def kawpowTypes : List (Nat × JsonType) := [(1, .string), (3, .string), (5, .uint64)]

theorem kawpowJob_run (client : EthStratumClient) (job : Job) (log : List Access)
    (typed : Typed elements kawpowTypes) :
    ∃ built, (kawpowJob client elements job).run log = .ok (built, log ++ [.read ⟨.params, 1⟩ .string] ++
      [.read ⟨.params, 3⟩ .string] ++ [.read ⟨.params, 5⟩ .uint64]) := by
  simp only [Typed, kawpowTypes, List.forall_mem_cons, List.not_mem_nil, false_implies, implies_true,
    and_true] at typed
  obtain ⟨⟨v1, h1, t1⟩, ⟨v3, h3, t3⟩, v5, h5, t5⟩ := typed
  obtain ⟨c1, rfl⟩ := fits_string t1
  obtain ⟨c3, rfl⟩ := fits_string t3
  simp only [kawpowJob, Reading.getUint64, StateT.run_bind, Reading.getString_run h1]
  change ∃ built, ((Reading.getString .params elements 3).run _ >>= _) = _
  rw [Reading.getString_run h3]
  change ∃ built, (((Reading.get .params elements 5 .uint64).run _ >>= _) >>= _) = _
  rw [Reading.get_run h5 .uint64 t5]
  exact ⟨_, rfl⟩

theorem kawpowJob_yields_iff {job : Job} (long : 6 ≤ elements.length) :
    Yields (kawpowJob client elements job) log (fun _ _ => True) ↔ Typed elements kawpowTypes := by
  constructor
  · intro yields
    have present (index : Nat) (inside : index < 6) : ∃ value, elements[index]? = some value :=
      ⟨_, List.getElem?_eq_getElem (Nat.lt_of_lt_of_le inside long)⟩
    obtain ⟨v1, h1⟩ := present 1 (by decide)
    obtain ⟨v3, h3⟩ := present 3 (by decide)
    obtain ⟨v5, h5⟩ := present 5 (by decide)
    unfold kawpowJob at yields
    cases t1 : JsonType.string.fits v1 with
    | false => exact absurd yields (not_yields_bind (Reading.getString_failed h1 t1))
    | true =>
      obtain ⟨c1, rfl⟩ := fits_string t1
      rw [yields_bind (Reading.getString_run h1)] at yields
      cases t3 : JsonType.string.fits v3 with
      | false => exact absurd yields (not_yields_bind (Reading.getString_failed h3 t3))
      | true =>
        obtain ⟨c3, rfl⟩ := fits_string t3
        rw [yields_bind (Reading.getString_run h3), yields_bind_iff, Reading.getUint64] at yields
        cases t5 : JsonType.uint64.fits v5 with
        | false => exact absurd yields (not_yields_bind (Reading.get_failed h5 t5))
        | true =>
          simp only [Typed, kawpowTypes, List.forall_mem_cons, List.not_mem_nil, false_implies, implies_true,
            and_true]
          exact ⟨⟨_, h1, rfl⟩, ⟨_, h3, rfl⟩, _, h5, t5⟩
  · intro typed
    obtain ⟨built, ran⟩ := kawpowJob_run client job log typed
    exact (yields_iff ran).mpr trivial

theorem not_kawpowJob_covered {job : Job} (long : 6 ≤ elements.length)
    (untested : ∀ type, .tested ⟨.params, 1⟩ type true ∉ log) :
    ¬ Yields (kawpowJob client elements job) log fun _ after => Covered after := by
  intro yields
  have typed := (kawpowJob_yields_iff long).mp (yields.mono fun _ _ _ => trivial)
  obtain ⟨built, ran⟩ := kawpowJob_run client job log typed
  have covered := (yields_iff ran).mp yields
  have read := covered log (.read ⟨.params, 1⟩ .string) _ (by rw [List.append_assoc, List.append_assoc]; rfl)
  exact untested .string read.2

/-! The extra nonce. -/

/-- Behind blanks and a sign stands a digit. -/
def NumberStart (chars : List Byte) : Prop :=
  ∃ char, (splitSign (chars.dropWhile isSpace)).2.head? = some char ∧ (Cvt.digit char).isSome

/-- A string of at most eight characters in pairs, without `0x` in front, that begins as a number
does once it is filled up with zeros. -/
def ExtraNonceFits (nonce : Json) : Prop :=
  ∃ chars, nonce = .str chars ∧ (skip0x chars).length % 2 = 0 ∧ (skip0x chars).length ≤ 8 ∧
    NumberStart (padZeros (Json.cString (skip0x chars)) 16)

theorem hexValue_isSome_iff (chars : List Byte) :
    (hexValue chars).isSome = true ↔ ∃ char, chars.head? = some char ∧ (Cvt.digit char).isSome := by
  cases chars with
  | nil => simp [hexValue]
  | cons char rest =>
    simp only [hexValue, List.head?_cons, Option.some.injEq, exists_eq_left']
    cases known : Cvt.digit char with
    | none => simp [known]
    | some value => simp [known]

theorem skipRadix_head (chars : List Byte) :
    (∃ char, (skipRadix chars).head? = some char ∧ (Cvt.digit char).isSome) ↔
      ∃ char, chars.head? = some char ∧ (Cvt.digit char).isSome := by
  unfold skipRadix
  split
  · rename_i x digit rest
    split
    · rename_i digits
      exact iff_of_true ⟨digit, rfl, digits.2⟩ ⟨48, rfl, by decide⟩
    · rfl
  · rfl

theorem digit_lt (char value : Byte) (known : Cvt.digit char = some value) : value.toNat < 16 := by
  have all : ∀ char : Byte, (Cvt.digit char).all (·.toNat < 16) = true := by decide
  have here := all char
  rw [known] at here
  simpa using here

theorem foldl_hex_lt {digits : List Byte} (small : ∀ digit ∈ digits, digit.toNat < 16) (start : Nat) :
    digits.foldl (fun value digit => value * 16 + digit.toNat) start < (start + 1) * 16 ^ digits.length := by
  induction digits generalizing start with
  | nil => simp
  | cons digit rest ih =>
    rw [List.forall_mem_cons] at small
    rw [List.foldl_cons, List.length_cons, Nat.pow_succ]
    calc _ < (start * 16 + digit.toNat + 1) * 16 ^ rest.length := ih small.2 _
      _ ≤ ((start + 1) * 16) * 16 ^ rest.length := Nat.mul_le_mul_right _ (by omega)
      _ = (start + 1) * (16 ^ rest.length * 16) := by rw [Nat.mul_assoc, Nat.mul_comm 16]

theorem hexValue_lt {chars : List Byte} {value : Nat} (known : hexValue chars = some value) :
    value < 16 ^ chars.length := by
  unfold hexValue at known
  generalize taken : (chars.takeWhile fun char => (Cvt.digit char).isSome).filterMap Cvt.digit = digits at known
  have small : ∀ digit ∈ digits, digit.toNat < 16 := by
    intro digit listed
    rw [← taken, List.mem_filterMap] at listed
    obtain ⟨char, -, known⟩ := listed
    exact digit_lt char digit known
  have shorter : digits.length ≤ chars.length := by
    rw [← taken]
    exact Nat.le_trans (List.length_filterMap_le _ _) (List.takeWhile_sublist _).length_le
  have bound : value = digits.foldl (fun value digit => value * 16 + digit.toNat) 0 := by
    split at known
    · cases known
    · exact (Option.some.inj known).symm
  calc value < (0 + 1) * 16 ^ digits.length := bound ▸ foldl_hex_lt small 0
    _ ≤ 16 ^ chars.length := by
      rw [Nat.zero_add, Nat.one_mul]
      exact Nat.pow_le_pow_right (by decide) shorter

theorem splitSign_length (chars : List Byte) : (splitSign chars).2.length ≤ chars.length := by
  unfold splitSign
  split <;> simp

theorem skipRadix_length (chars : List Byte) : (skipRadix chars).length ≤ chars.length := by
  unfold skipRadix
  split
  · split
    · simp only [List.length_cons]
      omega
    · exact Nat.le_refl _
  · exact Nat.le_refl _

/-- Sixteen characters are converted if there is a digit to begin with: they never overflow. -/
theorem stoull_ok_iff {chars : List Byte} (short : chars.length ≤ 16) :
    (∃ value, stoull chars = .ok value) ↔ NumberStart chars := by
  have start := hexValue_isSome_iff (skipRadix (splitSign (chars.dropWhile isSpace)).2)
  rw [skipRadix_head] at start
  rw [NumberStart, ← start]
  unfold stoull scanHex
  cases known : hexValue (skipRadix (splitSign (chars.dropWhile isSpace)).2) with
  | none => simp [known]
  | some magnitude =>
    have length : (skipRadix (splitSign (chars.dropWhile isSpace)).2).length ≤ 16 := by
      have blanks : (chars.dropWhile isSpace).length ≤ chars.length := (List.dropWhile_sublist isSpace).length_le
      have sign := splitSign_length (chars.dropWhile isSpace)
      have radix := skipRadix_length (splitSign (chars.dropWhile isSpace)).2
      omega
    have fits : ¬ 2 ^ 64 ≤ magnitude := by
      have bound := hexValue_lt known
      have wide : 16 ^ (skipRadix (splitSign (chars.dropWhile isSpace)).2).length ≤ 16 ^ 16 :=
        Nat.pow_le_pow_right (by decide) length
      omega
    simp only [known, Option.map_some, Option.isSome_some, iff_true]
    exact ⟨_, if_neg fits⟩

theorem assignExtraNonce_ok_iff (client : EthStratumClient) (chars : List Byte) :
    (∃ after, client.assignExtraNonce chars = .ok after) ↔ ExtraNonceFits (.str chars) := by
  have same : ExtraNonceFits (.str chars) ↔ (skip0x chars).length % 2 = 0 ∧ (skip0x chars).length ≤ 8 ∧
      NumberStart (padZeros (Json.cString (skip0x chars)) 16) := by simp [ExtraNonceFits]
  rw [same]
  unfold assignExtraNonce
  by_cases odd : (skip0x chars).length % 2 = 1
  · simp only [odd, if_true]
    exact iff_of_false (by simp) (by omega)
  · simp only [odd, if_false]
    by_cases long : 8 < (skip0x chars).length
    · simp only [long, if_true]
      exact iff_of_false (by simp) (by omega)
    · simp only [long, if_false]
      have shorter : (Json.cString (skip0x chars)).length ≤ (skip0x chars).length :=
        (List.takeWhile_sublist _).length_le
      have padded : (padZeros (Json.cString (skip0x chars)) 16).length ≤ 16 := by
        simp only [padZeros, List.length_append, List.length_take, List.length_replicate]
        omega
      rw [← stoull_ok_iff padded]
      cases stoull (padZeros (Json.cString (skip0x chars)) 16) with
      | error fault => exact iff_of_false (fun ⟨_, done⟩ => by cases done) (by simp)
      | ok value => exact iff_of_true ⟨_, rfl⟩ ⟨by omega, by omega, value, rfl⟩

/-! Whole notifications. -/

variable {good : List Access → Prop}

theorem covered_sized (array : JsonArray) (count : Nat) : Covered ([] ++ [.sized array count]) :=
  covered_nil.push trivial

theorem setExtraNonceNotification_yields_iff (weak : ∀ after, Covered after → good after) :
    Yields (setExtraNonceNotification client elements) [] (fun _ after => good after) ↔
      ∀ nonce, elements.head? = some nonce → ExtraNonceFits nonce := by
  cases elements with
  | nil =>
    simp only [setExtraNonceNotification, List.isEmpty_nil, if_true, yields_pure]
    exact iff_of_true (weak _ covered_nil) (by simp)
  | cons nonce rest =>
    have here : (nonce :: rest)[0]? = some nonce := rfl
    have tested : Covered ([.sized .params 1] ++ [.tested ⟨.params, 0⟩ .string (JsonType.string.fits nonce)]) :=
      (covered_sized .params 1).push ⟨1, by simp, by decide⟩
    simp only [setExtraNonceNotification, List.isEmpty_cons, Bool.false_eq_true, if_false, List.head?_cons,
      Option.some.injEq, forall_eq']
    rw [yields_bind (Reading.record_run _), yields_bind_iff]
    simp only [yields_pure, setExtraNonce]
    rw [yields_bind (Reading.hasType_run here .string)]
    cases fits : JsonType.string.fits nonce with
    | false =>
      refine iff_of_false (not_yields rfl) ?_
      rintro ⟨chars, rfl, -⟩
      cases fits
    | true =>
      obtain ⟨chars, rfl⟩ := fits_string fits
      simp only [if_true]
      rw [yields_bind (Reading.getChars_run here), yields_lift, ← assignExtraNonce_ok_iff client]
      refine exists_congr fun after => and_iff_left ?_
      exact weak _ (tested.push ⟨⟨1, by simp, by decide⟩, by simp [JsonType.fits]⟩)

theorem setDifficulty_yields (host : EthHost) (client : EthStratumClient) (elements : List Json)
    (weak : ∀ after, Covered after → good after) :
    Yields (setDifficulty host client elements) [] fun _ after => good after := by
  unfold setDifficulty
  split
  · exact yields_pure.mpr (weak _ covered_nil)
  · cases elements with
    | nil => exact yields_pure.mpr (weak _ covered_nil)
    | cons diff rest =>
      have here : (diff :: rest)[0]? = some diff := rfl
      have found : Found ([] ++ [.sized .params 1]) ⟨.params, 0⟩ := ⟨1, by simp, by decide⟩
      have first : Covered ([] ++ [.sized .params 1] ++
          [.tested ⟨.params, 0⟩ .double (JsonType.double.fits diff)]) := (covered_sized .params 1).push found
      simp only [List.isEmpty_cons, Bool.false_eq_true, if_false]
      rw [yields_bind (Reading.record_run _), yields_bind (Reading.hasType_run here .double)]
      cases isDouble : JsonType.double.fits diff with
      | true =>
        rw [isDouble] at first
        simp only [if_true]
        rw [yields_bind (Reading.get_run here .double isDouble), yields_pure]
        exact weak _ (first.push ⟨found.append _, by simp⟩)
      | false =>
        rw [isDouble] at first
        have second : Covered ([] ++ [.sized .params 1] ++ [.tested ⟨.params, 0⟩ .double false] ++
            [.tested ⟨.params, 0⟩ .uint64 (JsonType.uint64.fits diff)]) := first.push (found.append _)
        simp only [Bool.false_eq_true, if_false]
        rw [yields_bind (Reading.hasType_run here .uint64)]
        cases isUint64 : JsonType.uint64.fits diff with
        | true =>
          rw [isUint64] at second
          simp only [if_true]
          rw [yields_bind (Reading.get_run here .uint64 isUint64), yields_pure]
          exact weak _ (second.push ⟨(found.append _).append _, by simp⟩)
        | false =>
          rw [isUint64] at second
          simp only [Bool.false_eq_true, if_false, yields_pure]
          exact weak _ second

/-- What is logged before the algorithms part: the size, and the job's number as a string. -/
def entryLog (count : Nat) : List Access :=
  [.sized .params count, .tested ⟨.params, 0⟩ .string true, .read ⟨.params, 0⟩ .string]

theorem covered_entryLog {count : Nat} (positive : 0 < count) : Covered (entryLog count) := by
  have tested : Covered ([] ++ [.sized .params count] ++ [.tested ⟨.params, 0⟩ .string true]) :=
    (covered_sized .params count).push ⟨count, by simp, positive⟩
  exact tested.push ⟨⟨count, by simp, positive⟩, by simp⟩

theorem miningNotify_yields_iff (weak : ∀ after, Covered after → good after) {kawpow : Prop}
    (reads : ∀ job, client.algorithm ≠ .ghostriderRtm → 6 ≤ elements.length →
      (Yields (kawpowJob client elements job) (entryLog 6) (fun _ after => good after) ↔ kawpow)) :
    Yields (miningNotify host client elements) [] (fun _ after => good after) ↔
      (client.minArraySize ≤ elements.length → Typed elements [(0, .string)] →
        (client.algorithm = .ghostriderRtm → Typed elements ghostRiderTypes → Digestible host client elements) ∧
        (client.algorithm ≠ .ghostriderRtm → kawpow)) := by
  have positive : 0 < client.minArraySize := by
    unfold minArraySize
    split <;> decide
  unfold miningNotify
  by_cases short : elements.length < client.minArraySize
  · rw [if_pos short, yields_pure]
    exact iff_of_true (weak _ covered_nil) (by omega)
  · have long : client.minArraySize ≤ elements.length := by omega
    have here := List.getElem?_eq_getElem (Nat.lt_of_lt_of_le positive long)
    have single : Typed elements [(0, .string)] ↔ JsonType.string.fits elements[0] = true := by
      simp [Typed, here]
    generalize elements[0] = id at here single
    have tested : Covered ([] ++ [.sized .params client.minArraySize] ++
        [.tested ⟨.params, 0⟩ .string (JsonType.string.fits id)]) :=
      (covered_sized .params _).push ⟨client.minArraySize, by simp, positive⟩
    rw [if_neg short, yields_bind (Reading.record_run _), yields_bind (Reading.hasType_run here .string), single]
    cases fits : JsonType.string.fits id with
    | false =>
      rw [fits] at tested
      simp only [Bool.false_eq_true, if_false, yields_pure]
      exact iff_of_true (weak _ tested) (by simp)
    | true =>
      obtain ⟨chars, rfl⟩ := fits_string fits
      simp only [if_true]
      rw [yields_bind (Reading.getString_run here)]
      change Yields _ (entryLog client.minArraySize) _ ↔ _
      by_cases ghost : client.algorithm = .ghostriderRtm
      · have size : client.minArraySize = 8 := if_pos ghost
        rw [size] at long ⊢
        have built : Yields (ghostRiderJob host client elements (client.startJob (Json.cString chars)))
            (entryLog 8) (fun _ after => good after) ↔ _ :=
          ghostRiderJob_yields_iff _ (fun _ after covered => weak after covered)
            (covered_entryLog (by decide)) (by simp [entryLog]) long
        simp only [ghost, if_true, ne_eq, not_true, false_implies, and_true, true_implies, long]
        rw [yields_bind_iff, ← built]
        refine exists_congr fun built => exists_congr fun after => and_congr_right fun _ => ?_
        rcases built with ⟨client, text | job⟩ <;> simp
      · have size : client.minArraySize = 6 := if_neg ghost
        rw [size] at long ⊢
        simp only [ghost, if_false, ne_eq, not_false_iff, false_implies, true_and, true_implies, long]
        rw [yields_bind_iff, ← reads (client.startJob (Json.cString chars)) ghost long]
        simp only [yields_pure]

/-- The messages that are tolerated. An extra nonce has to fit. A job that is long enough and
has a string for its number is one of GhostRider that can be digested, if its other parameters
have their types, or one of another algorithm that keeps to `kawpow`. -/
def Tolerable (kawpow : List Json → Prop) (host : EthHost) (client : EthStratumClient) (method : List Byte)
    (params : Json) : Prop :=
  ∀ elements, params = .arr elements →
    (method = text "mining.set_extranonce" → ∀ nonce, elements.head? = some nonce → ExtraNonceFits nonce) ∧
    (method = text "mining.notify" → client.minArraySize ≤ elements.length → Typed elements [(0, .string)] →
      (client.algorithm = .ghostriderRtm → Typed elements ghostRiderTypes → Digestible host client elements) ∧
      (client.algorithm ≠ .ghostriderRtm → kawpow elements))

theorem parseNotification_yields_iff (method : List Byte) (params : Json)
    (weak : ∀ after, Covered after → good after) {kawpow : List Json → Prop}
    (reads : ∀ elements job, client.algorithm ≠ .ghostriderRtm → 6 ≤ elements.length →
      (Yields (kawpowJob client elements job) (entryLog 6) (fun _ after => good after) ↔ kawpow elements)) :
    Yields (parseNotification host client method params) [] (fun _ after => good after) ↔
      Tolerable kawpow host client method params := by
  have quiet (result : EthStratumClient × List EthOutput) :
      Yields (pure result : Reading _) [] (fun _ after => good after) := yields_pure.mpr (weak _ covered_nil)
  by_cases array : ∃ elements, params = .arr elements
  · obtain ⟨elements, rfl⟩ := array
    simp only [parseNotification, Tolerable, Json.arr.injEq, forall_eq']
    by_cases target : method = text "mining.set_target"
    · subst target
      rw [if_pos rfl]
      exact iff_of_true (quiet _) ⟨fun other => absurd other (by decide), fun other => absurd other (by decide)⟩
    · by_cases nonce : method = text "mining.set_extranonce"
      · subst nonce
        rw [if_neg target, if_pos rfl, setExtraNonceNotification_yields_iff weak]
        exact ⟨fun fits => ⟨fun _ => fits, fun other => absurd other (by decide)⟩, fun fits => fits.1 rfl⟩
      · by_cases difficulty : method = text "mining.set_difficulty"
        · subst difficulty
          rw [if_neg target, if_neg nonce, if_pos rfl]
          exact iff_of_true (setDifficulty_yields host client elements weak)
            ⟨fun other => absurd other nonce, fun other => absurd other (by decide)⟩
        · rw [if_neg target, if_neg nonce, if_neg difficulty]
          by_cases notify : method = text "mining.notify"
          · rw [if_pos notify, miningNotify_yields_iff weak (reads elements)]
            exact ⟨fun fits => ⟨fun other => absurd other nonce, fun _ => fits⟩, fun fits => fits.2 notify⟩
          · rw [if_neg notify]
            exact iff_of_true (quiet _) ⟨fun other => absurd other nonce, fun other => absurd other notify⟩
  · refine iff_of_true ?_ fun elements same => absurd ⟨elements, same⟩ array
    unfold parseNotification
    cases params with
    | arr elements => exact absurd ⟨elements, rfl⟩ array
    | _ =>
      simp only
      repeat' split
      all_goals exact quiet _

/-- A notification is tolerated exactly if it is tolerable and no job of another algorithm than
GhostRider: those are read without a test. It comes to its end exactly if it is tolerable and
the elements of such a job have the types they are read as. -/
theorem parseNotification_tolerates_iff (host : EthHost) (client : EthStratumClient) (method : List Byte)
    (params : Json) :
    (Yields (parseNotification host client method params) [] (fun _ log => Covered log) ↔
      Tolerable (fun _ => False) host client method params) ∧
    (Yields (parseNotification host client method params) [] (fun _ _ => True) ↔
      Tolerable (fun elements => Typed elements kawpowTypes) host client method params) := by
  constructor
  · apply parseNotification_yields_iff method params fun _ covered => covered
    intro elements job _ long
    exact iff_of_false (not_kawpowJob_covered long (by simp [entryLog])) not_false
  · apply parseNotification_yields_iff method params fun _ _ => trivial
    intro elements job _ long
    exact kawpowJob_yields_iff long

/-- A host for messages that fault before anything is asked of it. -/
def idleHost : EthHost :=
  { sha256d := fun _ => Vector.replicate 32 0, scaleDifficulty := fun _ => 0, verifyAlgorithm := fun _ => true,
    maxString := 2 ^ 63 - 2 }

def oddExtraNonce : Json := .arr [.str (text "abc")]

def numericJob : Json := .arr [.str (text "1"), .int 7, .null, .null, .null, .null]

def emptyCoinbase : Json := .arr [.str (text "1"), .str [], .str [], .str [], .arr [], .str [], .str [], .str []]

/-- An extra nonce of three characters throws, a KawPow job with a number for its header hash is
read as if that were a string, and an empty coinbase is scanned from its byte 32 on. -/
theorem parseNotification_not_tolerant :
    ¬ Yields (parseNotification idleHost { poolAlgorithm := .kawpowRvn } (text "mining.set_extranonce")
        oddExtraNonce) [] (fun _ log => Covered log) ∧
      ¬ Yields (parseNotification idleHost { poolAlgorithm := .kawpowRvn } (text "mining.notify") numericJob)
        [] (fun _ log => Covered log) ∧
      ¬ Yields (parseNotification idleHost { poolAlgorithm := .ghostriderRtm, extraNonce := (0, some []) }
        (text "mining.notify") emptyCoinbase) [] (fun _ log => Covered log) := by
  have thrown : (parseNotification idleHost { poolAlgorithm := .kawpowRvn } (text "mining.set_extranonce")
      oddExtraNonce).run [] = .error (.thrown
        "invalid mining.subscribe response: extra nonce has an odd number of hex chars") := rfl
  have mistyped : (parseNotification idleHost { poolAlgorithm := .kawpowRvn } (text "mining.notify")
      numericJob).run [] = .error (.mistyped ⟨.params, 1⟩ .string) := rfl
  have outOfBounds : (parseNotification idleHost { poolAlgorithm := .ghostriderRtm, extraNonce := (0, some []) }
      (text "mining.notify") emptyCoinbase).run [] = .error .outOfBounds := rfl
  exact ⟨not_yields thrown, not_yields mistyped, not_yields outOfBounds⟩

end EthStratumClient

end Xmrig
