import Xmrig.Cryptonote.BlockTemplate

/-! Reader positions and termination of template parsing.

The parse of the code is compared with the same program under exact arithmetic.
The two agree until the first length that does not fit behind the reader's
position in a word; there the reader of the code moves backwards.
-/

set_option autoImplicit false

namespace Xmrig.BlockTemplate

open Foundation

/-- The operation moved forward inside its range, and the range lies in the blob. -/
def Access.Inside (access : Access) (length : Nat) : Prop :=
  access.before ≤ access.after ∧ access.after ≤ access.size ∧ access.data + access.size ≤ length

def Request.Fits (request : Request) : Prop := request.index + request.length.toNat < 2 ^ 64

/-- Readers and recorded operations are inside the blob. -/
structure Sound (state : Parsing) : Prop where
  readers : ∀ stream, (state.reader stream).Within state.blob.bytes.length
  accesses : ∀ access ∈ state.accesses, access.Inside state.blob.bytes.length

def Fitting (state : Parsing) : Prop := ∀ request ∈ state.requests, request.Fits

def Escaped (state : Parsing) : Prop :=
  ∃ access ∈ state.accesses, ¬ access.Inside state.blob.bytes.length

theorem sound_start (blob : Buffer) (parsed : Parsed) : Sound (.start blob parsed) := by
  constructor
  · intro stream
    cases stream <;> constructor <;> simp [Parsing.reader, Parsing.start, BlobReader.open']
  · simp [Parsing.start]

theorem fitting_start (blob : Buffer) (parsed : Parsed) : Fitting (.start blob parsed) := by
  simp [Fitting, Parsing.start]

section Complete
variable {A : Type} {state : Parsing} {stream : Stream}
  {outcome : Except ReadError (A × BlobReader)}

@[simp] theorem setReader_self (reader : BlobReader) :
    (state.setReader stream reader).reader stream = reader := by cases stream <;> rfl

theorem setReader_other (state : Parsing) {other : Stream} (reader : BlobReader) (different : other ≠ stream) :
    (state.setReader stream reader).reader other = state.reader other := by
  cases stream <;> cases other <;> first | rfl | exact absurd rfl different

@[simp] theorem setReader_blob (reader : BlobReader) :
    (state.setReader stream reader).blob = state.blob := by cases stream <;> rfl

@[simp] theorem setReader_parsed (reader : BlobReader) :
    (state.setReader stream reader).parsed = state.parsed := by cases stream <;> rfl

@[simp] theorem setReader_accesses (reader : BlobReader) :
    (state.setReader stream reader).accesses = state.accesses := by cases stream <;> rfl

@[simp] theorem setReader_requests (reader : BlobReader) :
    (state.setReader stream reader).requests = state.requests := by cases stream <;> rfl

@[simp] theorem request_reader (n : BitVec 64) (other : Stream) :
    (state.request stream n).reader other = state.reader other := by cases other <;> rfl

@[simp] theorem complete_blob : (state.complete stream outcome).2.blob = state.blob := by
  unfold Parsing.complete
  split <;> simp

@[simp] theorem complete_parsed : (state.complete stream outcome).2.parsed = state.parsed := by
  unfold Parsing.complete
  split <;> simp

@[simp] theorem complete_requests : (state.complete stream outcome).2.requests = state.requests := by
  unfold Parsing.complete
  split <;> simp

theorem complete_accesses_mem {access : Access} (recorded : access ∈ state.accesses) :
    access ∈ (state.complete stream outcome).2.accesses := by
  unfold Parsing.complete
  split
  · exact recorded
  · exact recorded
  · simp [recorded]

theorem request_sound {n : BitVec 64} (sound : Sound state) : Sound (state.request stream n) := by
  constructor
  · intro other
    rw [request_reader]
    exact sound.readers other
  · exact sound.accesses

theorem complete_sound (sound : Sound state)
    (advances : ∀ value next, outcome = .ok (value, next) → (state.reader stream).Advances next) :
    Sound (state.complete stream outcome).2 := by
  match outcome, advances with
  | .error .outOfRange, _ => exact sound
  | .error .fault, _ => exact sound
  | .ok (value, next), advances =>
    have moved := advances value next rfl
    have within := moved.within (sound.readers stream)
    simp only [Parsing.complete]
    constructor
    · intro other
      by_cases same : other = stream
      · subst same
        cases other <;> simpa [Parsing.reader, Parsing.setReader] using within
      · have kept := sound.readers other
        rw [← setReader_other state next same] at kept
        cases other <;> simpa [Parsing.reader] using kept
    · intro access recorded
      simp only [setReader_accesses, List.mem_cons] at recorded
      rcases recorded with rfl | earlier
      · exact ⟨moved.forward, moved.inside, by simpa using within.range⟩
      · simpa using sound.accesses access earlier

theorem complete_no_fault (safe : outcome ≠ .error .fault) :
    (state.complete stream outcome).1 ≠ .error .fault := by
  unfold Parsing.complete
  split
  · simp
  · exact absurd rfl safe
  · simp

end Complete

section Steps
variable {env : Env} {state : Parsing}

theorem Sound.with_parsed (sound : Sound state) (parsed : Parsed) :
    Sound { state with parsed := parsed } :=
  ⟨fun
    | .ar => sound.readers .ar
    | .arExtra => sound.readers .arExtra, sound.accesses⟩

theorem Sound.with_extra (sound : Sound state) {reader : BlobReader}
    (within : reader.Within state.blob.bytes.length) : Sound { state with arExtra := reader } :=
  ⟨fun
    | .ar => sound.readers .ar
    | .arExtra => within, sound.accesses⟩

theorem Sound.small (sound : Sound state) (stream : Stream) :
    (state.reader stream).size < 2 ^ 63 := by
  have := (sound.readers stream).range
  have := state.blob.size_lt
  omega

/-- A read of a length given by the blob, whose value does not depend on the move. -/
def sized {A : Type} (wrap : Nat → Nat) (reader : BlobReader) (n : BitVec 64) (value : A) :
    Except ReadError (A × BlobReader) :=
  (reader.advance wrap n.toNat).map fun next => (value, next)

theorem sized_advances {A : Type} {reader next : BlobReader} {n : BitVec 64} {value read : A}
    (took : sized id reader n value = .ok (read, next)) :
    reader.Advances next ∧ next.index = reader.index + n.toNat := by
  unfold sized at took
  cases moved : reader.advance id n.toNat with
  | error why => rw [moved] at took; cases took
  | ok after =>
    rw [moved] at took
    cases took
    exact BlobReader.advance_advances moved

theorem sized_sound {A : Type} (sound : Sound state) (stream : Stream) (n : BitVec 64) (value : A) :
    Sound ((state.request stream n).complete stream (sized id (state.reader stream) n value)).2 := by
  apply complete_sound (request_sound sound)
  intro read next took
  rw [request_reader]
  exact (sized_advances took).1

theorem sized_split {A : Type} (sound : Sound state) (stream : Stream) (n : BitVec 64) (value : A) :
    let exact := (state.request stream n).complete stream (sized id (state.reader stream) n value)
    let code := (state.request stream n).complete stream (sized sizeT (state.reader stream) n value)
    (code = exact ∧ (Fitting state → Fitting exact.2)) ∨ (¬ Fitting exact.2 ∧ Escaped code.2) := by
  have position := (sound.readers stream).position
  have small := sound.small stream
  by_cases fits : (state.reader stream).index + n.toNat < 2 ^ 64
  · left
    constructor
    · simp only [sized, BlobReader.advance_machine fits]
    · intro fitting request recorded
      rw [complete_requests] at recorded
      rcases List.mem_cons.mp recorded with rfl | earlier
      · exact fits
      · exact fitting request earlier
  · right
    constructor
    · intro fitting
      exact fits (fitting ⟨(state.reader stream).index, n⟩ (by simp [Parsing.request]))
    · obtain ⟨next, moved, back⟩ := BlobReader.advance_machine_wraps
        n.isLt position (by omega) (by omega)
      refine ⟨⟨next.data, next.size, (state.reader stream).index, next.index⟩, ?_, ?_⟩
      · simp [sized, moved, Except.map, Parsing.complete]
      · intro inside
        exact absurd inside.1 (by simpa using back)

theorem attachExtra_keeps {P : Parsing → Prop} (offset : Nat) (n : BitVec 64)
    (ignores : ∀ state reader, P state → P { state with arExtra := reader })
    {ran : Except Stop Unit × Parsing} (holds : P ran.2) :
    P (Parsing.attachExtra offset n ran).2 := by
  unfold Parsing.attachExtra
  split
  · exact ignores _ _ holds
  · exact holds

/-- The range of the extra reader is the one that `ar` has just skipped. -/
theorem attachExtra_sound {n : BitVec 64} (sound : Sound state) :
    Sound (Parsing.attachExtra (state.ar.index % 2 ^ 32) n
      ((state.request .ar n).complete .ar (sized id state.ar n ()))).2 := by
  have kept : Sound ((state.request .ar n).complete .ar (sized id state.ar n ())).2 :=
    sized_sound sound .ar n ()
  match took : sized id state.ar n () with
  | .error .outOfRange => rw [took] at kept; exact kept
  | .error .fault => rw [took] at kept; exact kept
  | .ok ((), next) =>
    rw [took] at kept
    obtain ⟨advances, position⟩ := sized_advances took
    apply kept.with_extra
    have range := (sound.readers .ar).range
    have inside := advances.inside
    have same := advances.size
    have truncated := Nat.mod_le state.ar.index (2 ^ 32)
    simp only [Parsing.reader] at range
    constructor
    · simp only [BlobReader.open', complete_blob, Parsing.request]
      omega
    · simp [BlobReader.open']

/-- The reads that leave both readers where they are. -/
def ReadOp.Quiet : ReadOp → Prop
  | .byte _ | .varint _ | .array _ _ | .span _ _ | .skip _ _ => False
  | _ => True

theorem handleRead_quiet {P : Parsing → Prop} (wrap : Nat → Nat)
    (ignores : ∀ parsed, P { state with parsed := parsed }) {op : ReadOp} (quiet : op.Quiet) :
    P (handleRead wrap op state).2 := by
  have same : P state := ignores state.parsed
  cases op with
  | index stream => exact same
  | update change => exact ignores _
  | endsInZero offset =>
    simp only [handleRead]
    split
    · exact same
    · split <;> exact same
  | leave result => exact same
  | _ => exact quiet.elim

theorem handle_quiet {P : Parsing → Prop} (wrap : Nat → Nat)
    (ignores : ∀ parsed, P { state with parsed := parsed }) {op : Op}
    (noRead : ∀ inner, op ≠ .read inner) (noOpen : ∀ n, op ≠ .openExtra n) :
    P (handle wrap env op state).2 := by
  have same : P state := ignores state.parsed
  cases op with
  | read inner => exact absurd rfl (noRead inner)
  | openExtra n => exact absurd rfl (noOpen n)
  | parsed => exact same
  | allocate size =>
    simp only [handle]
    split <;> exact same
  | prefixBytes =>
    simp only [handle]
    split <;> exact same
  | storeHash i hash =>
    simp only [handle]
    split
    · exact ignores _
    · exact same
  | unfinished => exact same

theorem handleRead_sound (op : ReadOp) (sound : Sound state) : Sound (handleRead id op state).2 := by
  cases op with
  | byte stream => exact complete_sound sound fun _ _ read => (BlobReader.getByte_advances read).1
  | varint stream => exact complete_sound sound fun _ _ read => (BlobReader.getVarint_advances read).1
  | array stream n => exact complete_sound sound fun _ _ read => BlobReader.array_advances read
  | span stream n => exact sized_sound sound stream n _
  | skip stream n => exact sized_sound sound stream n ()
  | _ => exact handleRead_quiet (P := Sound) id sound.with_parsed trivial

theorem handle_sound (env : Env) (op : Op) (sound : Sound state) : Sound (handle id env op state).2 := by
  cases op with
  | read inner => exact handleRead_sound inner sound
  | openExtra n => exact attachExtra_sound (sound.with_parsed _)
  | _ => exact handle_quiet (P := Sound) id sound.with_parsed (by simp) (by simp)

/-- What an operation never takes back, under either arithmetic. -/
structure Extends (before after : Parsing) : Prop where
  blob : after.blob = before.blob
  accesses : before.accesses ⊆ after.accesses
  requests : before.requests ⊆ after.requests

theorem extends_parsed (parsed : Parsed) : Extends state { state with parsed := parsed } :=
  ⟨rfl, List.Subset.refl _, List.Subset.refl _⟩

theorem extends_complete {A : Type} (state : Parsing) (stream : Stream)
    (outcome : Except ReadError (A × BlobReader)) : Extends state (state.complete stream outcome).2 :=
  ⟨complete_blob, fun _ recorded => complete_accesses_mem recorded,
    by rw [complete_requests]; exact List.Subset.refl _⟩

theorem extends_request {A : Type} (state : Parsing) (stream : Stream) (n : BitVec 64)
    (outcome : Except ReadError (A × BlobReader)) :
    Extends state ((state.request stream n).complete stream outcome).2 := by
  obtain ⟨blob, accesses, requests⟩ := extends_complete (state.request stream n) stream outcome
  exact ⟨blob, accesses, List.Subset.trans (List.subset_cons_self _ _) requests⟩

theorem handleRead_extends (wrap : Nat → Nat) (op : ReadOp) (state : Parsing) :
    Extends state (handleRead wrap op state).2 := by
  cases op with
  | byte stream => exact extends_complete state stream _
  | varint stream => exact extends_complete state stream _
  | array stream n => exact extends_complete state stream _
  | span stream n => exact extends_request state stream n _
  | skip stream n => exact extends_request state stream n _
  | _ => exact handleRead_quiet (P := Extends state) wrap extends_parsed trivial

theorem handle_extends (env : Env) (wrap : Nat → Nat) (op : Op) (state : Parsing) :
    Extends state (handle wrap env op state).2 := by
  cases op with
  | read inner => exact handleRead_extends wrap inner state
  | openExtra n =>
    obtain ⟨blob, accesses, requests⟩ := extends_request
      { state with parsed := state.parsed.setOffset .txExtra state.ar.index } .ar n
      (state.ar.skip wrap n.toNat)
    exact attachExtra_keeps (P := Extends state) _ _ (fun _ _ grown => ⟨grown.1, grown.2, grown.3⟩)
      ⟨blob, accesses, requests⟩
  | _ => exact handle_quiet (P := Extends state) wrap extends_parsed (by simp) (by simp)

theorem fitting_of_requests {before after : Parsing} (same : after.requests = before.requests)
    (fitting : Fitting before) : Fitting after := by
  rw [Fitting, same]
  exact fitting

theorem array_machine {stream : Stream} {n : BitVec 8} (sound : Sound state) :
    (state.reader stream).array sizeT state.blob.bytes n.toNat =
      (state.reader stream).array id state.blob.bytes n.toNat := by
  have position := (sound.readers stream).position
  have small := sound.small stream
  have width := n.isLt
  simp only [BlobReader.array]
  rw [BlobReader.advance_machine (by omega)]

theorem handleRead_split (op : ReadOp) (sound : Sound state) :
    (handleRead sizeT op state = handleRead id op state ∧
        (Fitting state → Fitting (handleRead id op state).2)) ∨
      (¬ Fitting (handleRead id op state).2 ∧ Escaped (handleRead sizeT op state).2) := by
  cases op with
  | byte stream => exact .inl ⟨rfl, fitting_of_requests complete_requests⟩
  | varint stream => exact .inl ⟨rfl, fitting_of_requests complete_requests⟩
  | array stream n =>
    exact .inl ⟨by simp only [handleRead, array_machine sound], fitting_of_requests complete_requests⟩
  | span stream n => exact sized_split sound stream n _
  | skip stream n => exact sized_split sound stream n ()
  | _ =>
    exact .inl ⟨rfl, handleRead_quiet (P := fun s => Fitting state → Fitting s) id
      (fun _ => fitting_of_requests rfl) trivial⟩

theorem handle_split (env : Env) (op : Op) (sound : Sound state) :
    (handle sizeT env op state = handle id env op state ∧
        (Fitting state → Fitting (handle id env op state).2)) ∨
      (¬ Fitting (handle id env op state).2 ∧ Escaped (handle sizeT env op state).2) := by
  cases op with
  | read inner => exact handleRead_split inner sound
  | openExtra n =>
    rcases sized_split (sound.with_parsed (state.parsed.setOffset .txExtra state.ar.index)) .ar n ()
      with ⟨same, kept⟩ | ⟨excess, escaped⟩
    · refine .inl ⟨congrArg (Parsing.attachExtra (state.ar.index % 2 ^ 32) n) same, fun fitting => ?_⟩
      exact attachExtra_keeps _ _ (fun _ _ => id) (kept fitting)
    · refine .inr ⟨?_, attachExtra_keeps _ _ (fun _ _ => id) escaped⟩
      exact attachExtra_keeps (P := fun s => ¬ Fitting s) _ _ (fun _ _ => id) excess
  | _ =>
    exact .inl ⟨rfl, handle_quiet (P := fun s => Fitting state → Fitting s) id
      (fun _ => fitting_of_requests rfl) (by simp) (by simp)⟩

end Steps

section Stops
variable {env : Env} {state : Parsing}

theorem sized_no_fault {A : Type} {reader : BlobReader} {n : BitVec 64} {value : A} :
    sized id reader n value ≠ .error .fault := by
  intro fault
  unfold sized at fault
  cases moved : reader.advance id n.toNat with
  | error why =>
    rw [moved] at fault
    cases fault
    exact BlobReader.advance_ne_fault moved
  | ok next => rw [moved] at fault; cases fault

theorem attachExtra_error {offset : Nat} {n : BitVec 64} {ran : Except Stop Unit × Parsing}
    {why : Stop} (stopped : (Parsing.attachExtra offset n ran).1 = .error why) :
    ran.1 = .error why := by
  unfold Parsing.attachExtra at stopped
  split at stopped
  · cases stopped
  · exact stopped

theorem handleRead_no_fault (op : ReadOp) (sound : Sound state) :
    (handleRead id op state).1 ≠ .error .fault := by
  cases op with
  | byte stream => exact complete_no_fault (BlobReader.getByte_no_fault (sound.readers stream))
  | varint stream => exact complete_no_fault (BlobReader.getVarint_no_fault (sound.readers stream))
  | array stream n => exact complete_no_fault (BlobReader.array_no_fault (sound.readers stream))
  | span stream n => exact complete_no_fault sized_no_fault
  | skip stream n => exact complete_no_fault sized_no_fault
  | endsInZero offset =>
    simp only [handleRead]
    split
    · simp
    · rename_i ends
      have within := sound.readers .ar
      have inside : offset < state.blob.bytes.length := by
        have := within.range
        have := within.position
        simp only [Parsing.reader] at *
        omega
      rw [List.getElem?_eq_getElem inside]
      simp
  | _ => simp [handleRead]

theorem complete_finishes {A : Type} {stream : Stream} {outcome : Except ReadError (A × BlobReader)} :
    (state.complete stream outcome).1 ≠ .error .unfinished := by
  unfold Parsing.complete
  split <;> simp

theorem handleRead_finishes (wrap : Nat → Nat) (op : ReadOp) :
    (handleRead wrap op state).1 ≠ .error .unfinished := by
  cases op with
  | byte stream => exact complete_finishes
  | varint stream => exact complete_finishes
  | array stream n => exact complete_finishes
  | span stream n => exact complete_finishes
  | skip stream n => exact complete_finishes
  | endsInZero offset =>
    simp only [handleRead]
    split
    · simp
    · split <;> simp
  | _ => simp [handleRead]

theorem openExtra_no_fault (n : BitVec 64) : (handle id env (.openExtra n) state).1 ≠ .error .fault :=
  fun fault => complete_no_fault sized_no_fault (attachExtra_error fault)

theorem handle_finishes (env : Env) (wrap : Nat → Nat) {op : Op} (goes : op ≠ .unfinished) :
    (handle wrap env op state).1 ≠ .error .unfinished := by
  cases op with
  | read inner => exact handleRead_finishes wrap inner
  | openExtra n => exact fun stopped => complete_finishes (attachExtra_error stopped)
  | parsed => simp [handle]
  | allocate size =>
    simp only [handle]
    split <;> simp
  | prefixBytes =>
    simp only [handle]
    split <;> simp
  | storeHash i hash =>
    simp only [handle]
    split <;> simp
  | unfinished => exact absurd rfl goes

end Stops

section Programs
variable {env : Env} {state : Parsing}

theorem exec_parser_split (env : Env) {A : Type} (parser : Parser A) (sound : Sound state) (fitting : Fitting state) :
    (exec (handle sizeT env) parser state = exec (handle id env) parser state ∧
        Fitting (exec (handle id env) parser state).2) ∨
      (¬ Fitting (exec (handle id env) parser state).2 ∧
        Escaped (exec (handle sizeT env) parser state).2) := by
  have split := exec_split (fun s => Sound s ∧ Fitting s) (fun s => ¬ Fitting s) Escaped
    (fun op s ⟨inside, fits⟩ => (handle_split env op inside).imp_left fun ⟨same, kept⟩ =>
      ⟨same, handle_sound env op inside, kept fits⟩)
    (fun op s excess fits => excess fun request recorded =>
      fits request ((handle_extends env id op s).requests recorded))
    (fun op s ⟨access, recorded, outside⟩ => by
      obtain ⟨blob, accesses, _⟩ := handle_extends env sizeT op s
      exact ⟨access, accesses recorded, blob ▸ outside⟩)
    parser ⟨sound, fitting⟩
  exact split.imp_left fun ⟨same, _, fits⟩ => ⟨same, fits⟩

theorem exec_sound (env : Env) {A : Type} (parser : Parser A) (sound : Sound state) :
    Sound (exec (handle id env) parser state).2 :=
  exec_persists (handle id env) Sound (fun op _ => handle_sound env op) parser sound

/-- The parses in which no hash table is built. -/
def Op.Contained : Op → Prop
  | .prefixBytes | .storeHash _ _ => False
  | _ => True

theorem handle_no_fault (env : Env) {op : Op} (contained : op.Contained) (sound : Sound state) :
    (handle id env op state).1 ≠ .error .fault := by
  cases op with
  | read inner => exact handleRead_no_fault inner sound
  | openExtra n => exact openExtra_no_fault n
  | parsed => simp [handle]
  | allocate size =>
    simp only [handle]
    split <;> simp
  | prefixBytes => exact contained.elim
  | storeHash i hash => exact contained.elim
  | unfinished => simp [handle]

theorem exec_no_fault (env : Env) {A : Type} {parser : Parser A} (contained : parser.All Op.Contained)
    (sound : Sound state) : (exec (handle id env) parser state).1 ≠ .error .fault := by
  have kept := exec_keeps (handle id env) Sound (fun why => why ≠ Stop.fault) (by
    intro op s allowed inside
    refine ⟨handle_sound env op inside, fun why stopped fault => ?_⟩
    rw [fault] at stopped
    exact handle_no_fault env allowed inside stopped) contained state sound
  exact fun fault => kept.2 _ fault rfl

theorem exec_finishes {A : Type} {parser : Parser A} (wrap : Nat → Nat)
    (goes : parser.All (fun op => op ≠ Op.unfinished)) :
    (exec (handle wrap env) parser state).1 ≠ .error .unfinished := by
  have kept := exec_keeps (handle wrap env) (fun _ => True) (fun why => why ≠ Stop.unfinished) (by
    intro op s allowed _
    refine ⟨trivial, fun why stopped unfinished => ?_⟩
    rw [unfinished] at stopped
    exact handle_finishes env wrap allowed stopped) goes state trivial
  exact fun stopped => kept.2 _ stopped rfl

theorem all_stage_of {A : Type} {small : ReadOp → Prop} {allowed : Op → Prop}
    (reads : ∀ op, small op → allowed (.read op)) {scanner : Scanner A}
    (all : Program.All (I := readInterface) small scanner) : (stage scanner).All allowed :=
  Program.all_interpret (I := readInterface) (J := interface)
    (fun op kept => (Program.all_perform (I := interface)).mpr (reads op kept)) all

theorem all_stage {A : Type} {allowed : Op → Prop} (reads : ∀ op, allowed (.read op))
    (scanner : Scanner A) : (stage scanner).All allowed :=
  all_stage_of (fun op (_ : True) => reads op)
    (Program.all_of_forall (I := readInterface) (fun _ => trivial) scanner)

theorem extraFields_contained (extraSize : BitVec 64) (rounds : Nat) (first : Bool) :
    (extraFields extraSize rounds first).All Op.Contained := by
  induction rounds generalizing first with
  | zero => exact ⟨trivial, fun reply => reply.elim⟩
  | succ rounds ih =>
    unfold extraFields
    apply Program.all_bind (all_stage (fun _ => trivial) _)
    intro i
    split
    · exact Program.all_bind (all_stage (fun _ => trivial) _) ih
    · exact Program.all_pure _

theorem scan_contained (coin : Coin) (rounds : Nat) : (scan coin rounds).All Op.Contained := by
  unfold scan minerTx
  apply Program.all_bind (all_stage (fun _ => trivial) _)
  intro _
  apply Program.all_bind (all_stage (fun _ => trivial) _)
  intro numOutputs
  apply Program.all_bind (all_stage (fun _ => trivial) _)
  intro extraSize
  apply Program.all_bind (Program.all_perform.mpr trivial)
  intro _
  apply Program.all_bind (extraFields_contained extraSize rounds true)
  intro _
  exact all_stage (fun _ => trivial) _

end Programs
section Termination
variable {env : Env} {state : Parsing}

theorem complete_forward {A : Type} (state : Parsing) {stream : Stream} {outcome : Except ReadError (A × BlobReader)}
    (advances : ∀ value next, outcome = .ok (value, next) → (state.reader stream).Advances next) :
    state.arExtra.index ≤ (state.complete stream outcome).2.arExtra.index := by
  match outcome, advances with
  | .error .outOfRange, _ => exact le_rfl
  | .error .fault, _ => exact le_rfl
  | .ok (value, next), advances =>
    cases stream with
    | ar => exact le_rfl
    | arExtra => exact (advances value next rfl).forward

theorem handleRead_forward (op : ReadOp) (state : Parsing) :
    state.arExtra.index ≤ (handleRead id op state).2.arExtra.index := by
  cases op with
  | byte stream => exact complete_forward state fun _ _ read => (BlobReader.getByte_advances read).1
  | varint stream => exact complete_forward state fun _ _ read => (BlobReader.getVarint_advances read).1
  | array stream n => exact complete_forward state fun _ _ read => BlobReader.array_advances read
  | span stream n =>
    refine complete_forward (state.request stream n) fun value next read => ?_
    rw [request_reader]
    exact (sized_advances read).1
  | skip stream n =>
    refine complete_forward (state.request stream n) fun value next read => ?_
    rw [request_reader]
    exact (sized_advances read).1
  | _ =>
    exact handleRead_quiet (P := fun s => state.arExtra.index ≤ s.arExtra.index) id
      (fun _ => le_rfl) trivial

theorem exec_stage {A : Type} (wrap : Nat → Nat) (scanner : Scanner A) :
    exec (handle wrap env) (stage scanner) state = exec (handleRead wrap) scanner state :=
  exec_interpret (J := readInterface) (fun op s => exec_perform (I := interface) (.read op) s) scanner state

theorem exec_forward {A : Type} {scanner : Scanner A} {outcome : Except Stop A} {after : Parsing}
    {least : Nat} (ran : exec (handleRead id) scanner state = (outcome, after))
    (reached : least ≤ state.arExtra.index) : least ≤ after.arExtra.index := by
  have later := exec_persists (handleRead id) (fun s => least ≤ s.arExtra.index)
    (fun op s later => later.trans (handleRead_forward op s)) scanner reached
  rw [ran] at later
  exact later

theorem varint_consumes {value : BitVec 64} {after : Parsing}
    (ran : exec (handleRead id) (varint .arExtra) state = (.ok value, after)) :
    state.arExtra.index + 1 ≤ after.arExtra.index := by
  have performed : exec (handleRead id) (varint .arExtra) state =
      state.complete .arExtra (state.arExtra.getVarint state.blob.bytes) :=
    exec_perform (I := readInterface) _ _
  rw [performed] at ran
  unfold Parsing.complete at ran
  split at ran
  · cases ran
  · cases ran
  · rename_i read next took
    cases ran
    exact (BlobReader.getVarint_advances took).2

theorem extraField_progress {first again : Bool} {after : Parsing}
    (ran : exec (handleRead id) (extraField first) state = (.ok again, after)) :
    state.arExtra.index + 1 ≤ after.arExtra.index := by
  obtain ⟨tag, middle, took, rest⟩ := exec_bind_inv ran
  exact exec_forward rest (varint_consumes took)

theorem stage_finishes {A : Type} (scanner : Scanner A) :
    (exec (handle id env) (stage scanner) state).1 ≠ .error .unfinished :=
  exec_finishes id (all_stage (fun _ => Op.noConfusion) scanner)

theorem extraFields_finishes (extraSize : BitVec 64) (rounds : Nat) (first : Bool)
    (enough : extraSize.toNat - state.arExtra.index < rounds) :
    (exec (handle id env) (extraFields extraSize rounds first) state).1 ≠ .error .unfinished := by
  induction rounds generalizing first state with
  | zero => exact absurd enough (Nat.not_lt_zero _)
  | succ rounds ih =>
    unfold extraFields
    have position : exec (handle id env) (stage (index .arExtra)) state = (.ok state.arExtra.index, state) := by
      rw [exec_stage]
      rfl
    rw [exec_bind_ok position]
    split
    · rename_i more
      apply exec_bind_avoids (stage_finishes _)
      intro again after ran
      rw [exec_stage] at ran
      have consumed := extraField_progress ran
      exact ih again (by omega)
    · simp

theorem scan_finishes (env : Env) (state : Parsing) (coin : Coin) :
    (exec (handle id env) (scan coin (2 ^ 64)) state).1 ≠ .error .unfinished := by
  apply exec_bind_avoids (stage_finishes _)
  intro _ _ _
  apply exec_bind_avoids (stage_finishes _)
  intro numOutputs _ _
  apply exec_bind_avoids (stage_finishes _)
  intro extraSize _ _
  apply exec_bind_avoids
  · exact exec_finishes id (Program.all_perform.mpr Op.noConfusion)
  intro _ _ _
  apply exec_bind_avoids
  · apply extraFields_finishes
    have := extraSize.isLt
    omega
  intro _ _ _
  exact stage_finishes _

end Termination
section Hashes
variable {env : Env} {state : Parsing}

/-- The table of hashes, whose size was computed in a word, holds every hash that the
blob has for it, and the prefix is a range of the blob. -/
def TableFits (env : Env) (state : Parsing) : Prop :=
  env.allocates (tableSize state.parsed.numHashes) = true →
    PrefixInBlob state ∧ 32 ≤ tableSize state.parsed.numHashes ∧
      ((state.parsed.numHashes.toNat + 1) * 32 ≤ tableSize state.parsed.numHashes ∨
        state.ar.remaining < tableSize state.parsed.numHashes)

theorem exec_array :
    exec (handle id env) (stage (array .ar 32)) state =
      state.complete .ar (state.ar.array id state.blob.bytes 32) := by
  rw [exec_stage]
  exact exec_perform (I := readInterface) _ _

theorem exec_storeHash (i : Nat) (hash : List Byte) :
    exec (handle id env) (storeHash i hash) state = handle id env (.storeHash i hash) state :=
  exec_perform (I := interface) _ _

/-- A hash is read if and only if the blob still has its bytes. -/
theorem exec_array_room (env : Env) (sound : Sound state) (room : 32 ≤ state.ar.remaining) :
    ∃ hash after, exec (handle id env) (stage (array .ar 32)) state = (.ok hash, after) ∧
      Sound after ∧ after.parsed = state.parsed ∧ after.ar.remaining = state.ar.remaining - 32 := by
  have within := sound.readers .ar
  have range := within.range
  unfold BlobReader.remaining at room
  simp only [Parsing.reader] at range
  have read : state.ar.array id state.blob.bytes 32 =
      .ok ((state.blob.bytes.drop (state.ar.data + state.ar.index)).take 32,
        { state.ar with index := state.ar.index + 32 }) := by
    simp only [BlobReader.array, BlobReader.advance, id_eq]
    rw [if_neg (by omega)]
    simp only [Except.bind]
    rw [if_neg (by omega)]
  have kept := exec_sound env (stage (array .ar 32)) sound
  rw [exec_array, read] at kept ⊢
  refine ⟨_, _, rfl, kept, rfl, ?_⟩
  simp only [BlobReader.remaining, Parsing.setReader]
  omega

theorem exec_array_short (short : state.ar.remaining < 32) :
    exec (handle id env) (stage (array .ar 32)) state = (.error .thrown, state) := by
  unfold BlobReader.remaining at short
  have read : state.ar.array id state.blob.bytes 32 = .error .outOfRange := by
    simp only [BlobReader.array, BlobReader.advance, id_eq]
    rw [if_pos (by omega)]
    rfl
  rw [exec_array, read]
  rfl

theorem exec_storeHash_inside (env : Env) {i : Nat} (hash : List Byte) (sound : Sound state)
    (inside : (i + 1) * 32 ≤ state.parsed.hashes.length) :
    ∃ after, exec (handle id env) (storeHash i hash) state = (.ok (), after) ∧ Sound after ∧
      after.parsed.hashes.length = state.parsed.hashes.length ∧ after.ar = state.ar := by
  have kept := exec_sound env (storeHash i hash) sound
  rw [exec_storeHash] at kept ⊢
  simp only [handle, if_pos inside] at kept ⊢
  refine ⟨_, rfl, kept, ?_, rfl⟩
  simp only [List.length_append, List.length_take, Cvt.resize_length, List.length_drop]
  omega

theorem exec_storeHash_outside {i : Nat} (hash : List Byte)
    (outside : state.parsed.hashes.length < (i + 1) * 32) :
    exec (handle id env) (storeHash i hash) state = (.error .fault, state) := by
  rw [exec_storeHash]
  simp only [handle, if_neg (Nat.not_le.mpr outside)]
  rfl

/-- Storing faults if and only if the table ends before both the count and the blob do. -/
theorem storeHashes_fault_iff (count i : Nat) (sound : Sound state)
    (whole : state.parsed.hashes.length % 32 = 0) (inside : i * 32 ≤ state.parsed.hashes.length) :
    (exec (handle id env) (storeHashes count i) state).1 = .error .fault ↔
      state.parsed.hashes.length < (i + count) * 32 ∧
        state.parsed.hashes.length + 32 ≤ state.ar.remaining + i * 32 := by
  induction count generalizing i state with
  | zero =>
    simp only [storeHashes, exec_pure, reduceCtorEq, false_iff]
    omega
  | succ count ih =>
    unfold storeHashes
    by_cases room : 32 ≤ state.ar.remaining
    · obtain ⟨hash, middle, read, sound₁, parsed, left⟩ := exec_array_room env sound room
      rw [exec_bind_ok read]
      by_cases fits : (i + 1) * 32 ≤ state.parsed.hashes.length
      · obtain ⟨after, stored, sound₂, size, same⟩ :=
          exec_storeHash_inside env hash sound₁ (parsed ▸ fits)
        rw [exec_bind_ok stored, ih (i + 1) sound₂ (by rw [size, parsed]; exact whole)
          (by rw [size, parsed]; exact fits), size, parsed, same, left]
        omega
      · rw [exec_bind, exec_storeHash_outside hash (by rw [parsed]; omega)]
        simp only [true_iff]
        omega
    · rw [exec_bind, exec_array_short (by omega)]
      simp only [Except.error.injEq, reduceCtorEq, false_iff]
      omega

theorem calculateMerkleTreeHash_all {allowed : Op → Prop} (parsed : allowed .parsed)
    (updates : ∀ change, allowed (.read (.update change)))
    (allocates : ∀ size, allowed (.allocate size)) : (calculateMerkleTreeHash env).All allowed := by
  refine ⟨updates _, fun _ => ⟨parsed, fun fields => ?_⟩⟩
  change Program.All (I := interface) allowed (if 2 < (fields.numHashes + 1).toNat then _ else _)
  split
  · exact ⟨allocates _, fun _ => ⟨updates _, fun _ => trivial⟩⟩
  · exact ⟨updates _, fun _ => trivial⟩

theorem tableSize_whole (numHashes : BitVec 64) : tableSize numHashes % 32 = 0 := by
  unfold tableSize
  rw [BitVec.toNat_mul]
  change ((numHashes + 1).toNat * 32) % 2 ^ 64 % 32 = 0
  omega

theorem exec_prefixBytes_inside (env : Env) (inside : PrefixInBlob state) :
    ∃ bytes, exec (handle id env) prefixBytes state = (.ok bytes, state) := by
  refine ⟨(state.blob.bytes.drop (state.parsed.offsets .minerTxPrefix)).take
    (prefixLength state.parsed).toNat, (exec_perform (I := interface) _ _).trans ?_⟩
  simp only [handle, if_pos inside]
  rfl

theorem exec_prefixBytes_outside (outside : ¬ PrefixInBlob state) :
    exec (handle id env) prefixBytes state = (.error .fault, state) := by
  refine (exec_perform (I := interface) _ _).trans ?_
  simp only [handle, if_neg outside]
  rfl

theorem filling_fault_iff (env : Env) (sound : Sound state)
    (size : state.parsed.hashes.length = tableSize state.parsed.numHashes) :
    (exec (handle id env) (do
      let bytes ← prefixBytes
      storeHash 0 (calculateMinerTxHash env.keccak bytes)
      storeHashes state.parsed.numHashes.toNat 1
      calculateMerkleTreeHash env) state).1 = .error .fault ↔
    ¬ (PrefixInBlob state ∧ 32 ≤ tableSize state.parsed.numHashes ∧
      ((state.parsed.numHashes.toNat + 1) * 32 ≤ tableSize state.parsed.numHashes ∨
        state.ar.remaining < tableSize state.parsed.numHashes)) := by
  by_cases inside : PrefixInBlob state
  · obtain ⟨bytes, read⟩ := exec_prefixBytes_inside env inside
    rw [exec_bind_ok read]
    by_cases room : 32 ≤ tableSize state.parsed.numHashes
    · obtain ⟨after, stored, kept, same, reader⟩ := exec_storeHash_inside env (i := 0)
        (calculateMinerTxHash env.keccak bytes) sound (by omega)
      rw [exec_bind_ok stored, exec_bind_error_iff]
      · rw [storeHashes_fault_iff _ 1 kept (by rw [same, size]; exact tableSize_whole _) (by omega),
          same, size, reader]
        constructor
        · rintro ⟨short, many⟩ ⟨_, _, fits | few⟩ <;> omega
        · intro misfit
          by_contra other
          exact misfit ⟨inside, room, by omega⟩
      · intro _ middle ran
        have inside' := exec_sound env (storeHashes state.parsed.numHashes.toNat 1) kept
        rw [ran] at inside'
        exact exec_no_fault env
          (calculateMerkleTreeHash_all trivial (fun _ => trivial) fun _ => trivial) inside'
    · rw [exec_bind, exec_storeHash_outside _ (by omega)]
      simp only [true_iff]
      exact fun fits => room fits.2.1
  · rw [exec_bind, exec_prefixBytes_outside inside]
    simp only [true_iff]
    exact fun fits => inside fits.1

/-- The parse with hashes faults exactly when the table does not fit. -/
theorem transactionHashes_fault_iff (sound : Sound state) :
    (exec (handle id env) (transactionHashes env) state).1 = .error .fault ↔ ¬ TableFits env state := by
  have parsed : exec (handle id env) readParsed state = (.ok state.parsed, state) := rfl
  unfold transactionHashes
  rw [exec_bind_ok parsed]
  by_cases allocated : env.allocates (tableSize state.parsed.numHashes) = true
  · have grown : exec (handle id env) (allocate (tableSize state.parsed.numHashes)) state = (.ok (), state) := by
      refine (exec_perform (I := interface) _ _).trans ?_
      simp only [handle, if_pos allocated]
      rfl
    rw [exec_bind_ok grown]
    have resized : exec (handle id env) (stage (update fun p => { p with
          hashes := Cvt.resize p.hashes (tableSize state.parsed.numHashes) })) state =
        (.ok (), { state with parsed := { state.parsed with
          hashes := Cvt.resize state.parsed.hashes (tableSize state.parsed.numHashes) } }) := by
      rw [exec_stage]
      rfl
    rw [exec_bind_ok resized]
    have filled := filling_fault_iff env (sound.with_parsed { state.parsed with
      hashes := Cvt.resize state.parsed.hashes (tableSize state.parsed.numHashes) })
      (Cvt.resize_length _ _)
    refine filled.trans (not_congr ?_)
    exact ⟨fun fits _ => fits, fun fits => fits allocated⟩
  · have refused : exec (handle id env) (allocate (tableSize state.parsed.numHashes)) state =
        (.error .thrown, state) := by
      refine (exec_perform (I := interface) _ _).trans ?_
      simp only [handle, if_neg allocated]
      rfl
    rw [exec_bind, refused]
    simp [TableFits, allocated]

end Hashes
section Totality
variable (env : Env) (template : BlockTemplate) (blob : Buffer) (coin : Coin) (hashes : Bool)

/-- No number of rounds leads a reader out of its range or the parse into a fault,
and after some number of rounds the parse returns. -/
def Total : Prop :=
  (∀ rounds, (template.parse env blob coin hashes rounds).outcome ≠ .error .fault ∧
    ∀ access ∈ (template.parse env blob coin hashes rounds).accesses,
      access.Inside blob.bytes.length) ∧
  ∃ rounds value, result (template.parse env blob coin hashes rounds).outcome = some value

def exactScan (rounds : Nat) : Except Stop Unit × Parsing :=
  exec (handle id env) (scan coin rounds) (.start blob template.parsed)

/-- Every length in the blob fits behind its position in a word; if hashes are asked
for, so does their table. -/
def LengthsFit : Prop :=
  kMinSize ≤ blob.bytes.length →
    (∀ rounds, Fitting (exactScan env template blob coin rounds).2) ∧
    (hashes = true → ∀ rounds state,
      exactScan env template blob coin rounds = (.ok (), state) → TableFits env state)

variable {env template blob coin hashes}

/-- What is done after the scan: nothing takes a length from the blob. -/
def Op.Hashing : Op → Prop
  | .read (.array _ _) | .read (.update _) => True
  | .parsed | .allocate _ | .prefixBytes | .storeHash _ _ => True
  | _ => False

theorem storeHashes_hashing (count i : Nat) : (storeHashes count i).All Op.Hashing := by
  induction count generalizing i with
  | zero => exact Program.all_pure _
  | succ count ih => exact ⟨trivial, fun hash => ⟨trivial, fun _ => ih (i + 1)⟩⟩

theorem transactionHashes_hashing (env : Env) : (transactionHashes env).All Op.Hashing := by
  refine ⟨trivial, fun parsed => ⟨trivial, fun _ => ⟨trivial, fun _ => ⟨trivial, fun bytes => ?_⟩⟩⟩⟩
  refine ⟨trivial, fun _ => ?_⟩
  apply Program.all_bind (storeHashes_hashing _ _)
  intro _
  exact calculateMerkleTreeHash_all trivial (fun _ => trivial) fun _ => trivial

theorem handle_hashing (env : Env) {op : Op} (state : Parsing) (hashing : op.Hashing) :
    (handle id env op state).2.requests = state.requests ∧
      (handle id env op state).1 ≠ .error .unfinished := by
  refine ⟨?_, handle_finishes env id fun same => by rw [same] at hashing; exact hashing⟩
  match op, hashing with
  | .read (.array stream n), _ => exact complete_requests
  | .parsed, _ => rfl
  | .read (.update change), _ => rfl
  | .allocate size, _ =>
    exact handle_quiet (P := fun s => s.requests = state.requests) id (fun _ => rfl) (by simp) (by simp)
  | .prefixBytes, _ =>
    exact handle_quiet (P := fun s => s.requests = state.requests) id (fun _ => rfl) (by simp) (by simp)
  | .storeHash i hash, _ =>
    exact handle_quiet (P := fun s => s.requests = state.requests) id (fun _ => rfl) (by simp) (by simp)

theorem exec_transactionHashes (env : Env) (state : Parsing) :
    (exec (handle id env) (transactionHashes env) state).2.requests = state.requests ∧
      (exec (handle id env) (transactionHashes env) state).1 ≠ .error .unfinished := by
  have kept := exec_keeps (handle id env) (fun s => s.requests = state.requests)
    (fun why => why ≠ Stop.unfinished) (by
      intro op s hashing same
      obtain ⟨requests, finishes⟩ := handle_hashing env s hashing
      refine ⟨requests.trans same, fun why stopped unfinished => finishes ?_⟩
      rw [stopped, unfinished]) (transactionHashes_hashing env) state rfl
  exact ⟨kept.1, fun stopped => kept.2 _ stopped rfl⟩

theorem exec_parseBlob {state middle : Parsing} {rounds : Nat}
    (scanned : exec (handle id env) (scan coin rounds) state = (.ok (), middle)) :
    exec (handle id env) (parseBlob env coin hashes rounds) state =
      if hashes then exec (handle id env) (transactionHashes env) middle else (.ok (), middle) := by
  unfold parseBlob
  rw [exec_bind_ok scanned]
  cases hashes <;> rfl

theorem exec_parseBlob_stops {state middle : Parsing} {rounds : Nat} {why : Stop}
    (scanned : exec (handle id env) (scan coin rounds) state = (.error why, middle)) :
    exec (handle id env) (parseBlob env coin hashes rounds) state = (.error why, middle) := by
  unfold parseBlob
  rw [exec_bind, scanned]

theorem parseBlob_requests (rounds : Nat) (state : Parsing) :
    (exec (handle id env) (parseBlob env coin hashes rounds) state).2.requests =
      (exec (handle id env) (scan coin rounds) state).2.requests := by
  rcases scanned : exec (handle id env) (scan coin rounds) state with ⟨why | ⟨⟩, middle⟩
  · rw [exec_parseBlob_stops scanned]
  · rw [exec_parseBlob scanned]
    split
    · exact (exec_transactionHashes env middle).1
    · rfl

theorem parseBlob_finishes (state : Parsing) :
    (exec (handle id env) (parseBlob env coin hashes (2 ^ 64)) state).1 ≠ .error .unfinished := by
  rcases scanned : exec (handle id env) (scan coin (2 ^ 64)) state with ⟨why | ⟨⟩, middle⟩
  · rw [exec_parseBlob_stops scanned]
    have finishes := scan_finishes env state coin
    rw [scanned] at finishes
    exact finishes
  · rw [exec_parseBlob scanned]
    split
    · exact (exec_transactionHashes env middle).2
    · simp

theorem parseBlob_fault_iff (env : Env) (coin : Coin) (hashes : Bool) {rounds : Nat} {state : Parsing} (sound : Sound state) :
    (exec (handle id env) (parseBlob env coin hashes rounds) state).1 = .error .fault ↔
      hashes = true ∧ ∃ middle, exec (handle id env) (scan coin rounds) state = (.ok (), middle) ∧
        ¬ TableFits env middle := by
  have inside := exec_sound env (scan coin rounds) sound
  have safe := exec_no_fault env (scan_contained coin rounds) sound
  rcases scanned : exec (handle id env) (scan coin rounds) state with ⟨why | ⟨⟩, middle⟩
  · rw [exec_parseBlob_stops scanned]
    rw [scanned] at safe
    constructor
    · intro fault
      exact absurd fault safe
    · rintro ⟨_, other, same, _⟩
      cases same
  · rw [exec_parseBlob scanned]
    rw [scanned] at inside
    cases hashes with
    | false => simp
    | true =>
      simp only [if_true, transactionHashes_fault_iff inside, true_and]
      constructor
      · exact fun misfit => ⟨middle, rfl, misfit⟩
      · rintro ⟨other, same, misfit⟩
        cases same
        exact misfit

theorem result_isSome {outcome : Except Stop Unit} (noFault : outcome ≠ .error .fault)
    (finished : outcome ≠ .error .unfinished) : ∃ value, result outcome = some value := by
  match outcome, noFault, finished with
  | .ok (), _, _ => exact ⟨true, rfl⟩
  | .error (.returned value), _, _ => exact ⟨value, rfl⟩
  | .error .thrown, _, _ => exact ⟨false, rfl⟩
  | .error .fault, noFault, _ => exact absurd rfl noFault
  | .error .unfinished, _, finished => exact absurd rfl finished

theorem parse_of_small (small : blob.bytes.length < kMinSize) (rounds : Nat) :
    template.parse env blob coin hashes rounds = ⟨.error (.returned false), template, []⟩ := by
  simp only [parse, if_pos small]

theorem parse_of_large (large : kMinSize ≤ blob.bytes.length) (rounds : Nat) :
    (template.parse env blob coin hashes rounds).outcome =
        (runParse sizeT env coin hashes rounds blob template.parsed).1 ∧
      (template.parse env blob coin hashes rounds).accesses =
        (runParse sizeT env coin hashes rounds blob template.parsed).2.accesses := by
  simp only [parse, if_neg (Nat.not_lt.mpr large), and_self]

theorem runParse_blob (wrap : Nat → Nat) (env : Env) (coin : Coin) (hashes : Bool) (rounds : Nat)
    (blob : Buffer) (parsed : Parsed) :
    (runParse wrap env coin hashes rounds blob parsed).2.blob = blob :=
  exec_persists (handle wrap env) (fun s => s.blob = blob)
    (fun op s same => (handle_extends env wrap op s).blob.trans same) _ rfl

/-- The code runs the exact parse, with fitting lengths, unless a reader leaves its range. -/
theorem runParse_exact {rounds : Nat} {parsed : Parsed}
    (inside : ∀ access ∈ (runParse sizeT env coin hashes rounds blob parsed).2.accesses,
      access.Inside blob.bytes.length) :
    runParse sizeT env coin hashes rounds blob parsed = runParse id env coin hashes rounds blob parsed ∧
      Fitting (runParse id env coin hashes rounds blob parsed).2 := by
  rcases exec_parser_split env (parseBlob env coin hashes rounds) (sound_start blob parsed)
    (fitting_start blob parsed) with exact | ⟨_, access, recorded, outside⟩
  · exact exact
  · have same := runParse_blob sizeT env coin hashes rounds blob parsed
    rw [runParse] at same
    rw [same] at outside
    exact absurd (inside access recorded) outside

theorem runParse_of_fitting (env : Env) (coin : Coin) (hashes : Bool) (rounds : Nat) (blob : Buffer)
    (parsed : Parsed) (fitting : Fitting (runParse id env coin hashes rounds blob parsed).2) :
    runParse sizeT env coin hashes rounds blob parsed = runParse id env coin hashes rounds blob parsed ∧
      ∀ access ∈ (runParse id env coin hashes rounds blob parsed).2.accesses,
        access.Inside blob.bytes.length := by
  rcases exec_parser_split env (parseBlob env coin hashes rounds) (sound_start blob parsed)
    (fitting_start blob parsed) with ⟨same, _⟩ | ⟨excess, _⟩
  · refine ⟨same, ?_⟩
    have sound := exec_sound env (parseBlob env coin hashes rounds) (sound_start blob parsed)
    have blobs := runParse_blob id env coin hashes rounds blob parsed
    intro access recorded
    have here := sound.accesses access recorded
    rw [runParse] at blobs
    rw [blobs] at here
    exact here
  · exact absurd fitting excess

/-- A template is parsed to an answer, with every reader inside its range, exactly
when its lengths fit. -/
theorem parse_total_iff :
    Total env template blob coin hashes ↔ LengthsFit env template blob coin hashes := by
  by_cases small : blob.bytes.length < kMinSize
  · refine ⟨fun _ large => absurd small (Nat.not_lt.mpr large), fun _ => ⟨fun rounds => ?_, 0, false, ?_⟩⟩
    · rw [parse_of_small small]
      simp
    · rw [parse_of_small small]
      rfl
  have large := Nat.not_lt.mp small
  constructor
  · rintro ⟨inside, _⟩ _
    have exact (rounds : Nat) := by
      have here := (inside rounds).2
      rw [(parse_of_large large rounds).2] at here
      exact runParse_exact here
    constructor
    · intro rounds
      have fitting := (exact rounds).2
      rw [runParse, Fitting, parseBlob_requests] at fitting
      exact fitting
    · intro asked rounds middle scanned
      by_contra misfit
      have fault := (parseBlob_fault_iff env coin hashes
        (sound_start blob template.parsed)).mpr ⟨asked, middle, scanned, misfit⟩
      apply (inside rounds).1
      rw [(parse_of_large large rounds).1, (exact rounds).1]
      exact fault
  · intro fits
    obtain ⟨fitting, table⟩ := fits large
    have exact (rounds : Nat) := by
      refine runParse_of_fitting env coin hashes rounds blob template.parsed ?_
      rw [runParse, Fitting, parseBlob_requests]
      exact fitting rounds
    have noFault (rounds : Nat) : (template.parse env blob coin hashes rounds).outcome ≠ .error .fault := by
      rw [(parse_of_large large rounds).1, (exact rounds).1]
      intro fault
      obtain ⟨asked, middle, scanned, misfit⟩ := (parseBlob_fault_iff env coin hashes (sound_start blob _)).mp fault
      exact misfit (table asked rounds middle scanned)
    refine ⟨fun rounds => ⟨noFault rounds, ?_⟩, 2 ^ 64, ?_⟩
    · rw [(parse_of_large large rounds).2, (exact rounds).1]
      exact (exact rounds).2
    · apply result_isSome (noFault _)
      rw [(parse_of_large large _).1, (exact _).1]
      exact parseBlob_finishes _

/-- A Monero template whose extra nonce claims `2 ^ 64 - 11` bytes, the distance back
to the beginning of the extra field. -/
def loopingBlob : Buffer where
  bytes := [16, 16, 0] ++ List.replicate 32 0 ++ [0, 0, 0, 0] ++ [2, 60, 1, 0xff, 1, 1, 0, 2] ++
    List.replicate 32 0 ++ [11] ++ [2, 0xf5, 0xff, 0xff, 0xff, 0xff, 0xff, 0xff, 0xff, 0xff, 1]
  size_lt := by decide

instance (access : Access) (length : Nat) : Decidable (access.Inside length) :=
  inferInstanceAs (Decidable (_ ∧ _ ∧ _))

theorem parse_loopingBlob_escapes :
    ¬ Total ⟨fun _ => List.replicate 32 0, fun _ => true⟩ {} loopingBlob .monero false := by
  intro total
  have inside := (total.1 1).2
  revert inside
  decide

end Totality
end Xmrig.BlockTemplate
