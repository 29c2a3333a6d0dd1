import Xmrig.Cryptonote.TemplateBounds
import Xmrig.Cryptonote.TemplateStages

/-! What a parse takes over from the template that was parsed before it.

Without hashes no read depends on the fields, so parsing into a used template
ends as parsing into a fresh one does. The offset of the nonce is always written;
the miner signature of an earlier template stays if the new one has none.
-/

set_option autoImplicit false

namespace Xmrig.BlockTemplate

open Foundation

section Oblivious

/-- The operations whose outcome does not depend on the fields. -/
def Op.Oblivious : Op → Prop
  | .read _ | .openExtra _ | .allocate _ | .unfinished => True
  | .parsed | .prefixBytes | .storeHash _ _ => False

/-- The execution has the same outcome for all fields, which it changes by one function. -/
def Transforms {A : Type} (ran : Parsed → Except Stop A × Parsing) : Prop :=
  ∃ (change : Parsed → Parsed) (outcome : Except Stop A) (after : Parsing),
    ∀ parsed, ran parsed = (outcome, { after with parsed := change parsed })

theorem complete_transforms {A : Type} (stream : Stream) (outcome : Except ReadError (A × BlobReader))
    (change : Parsed → Parsed) (state : Parsing) :
    Transforms fun parsed => ({ state with parsed := change parsed } : Parsing).complete stream outcome := by
  match outcome with
  | .error .outOfRange => exact ⟨change, _, state, fun parsed => rfl⟩
  | .error .fault => exact ⟨change, _, state, fun parsed => rfl⟩
  | .ok (value, next) =>
    refine ⟨change, .ok value, (state.complete stream (.ok (value, next))).2, fun parsed => ?_⟩
    cases stream <;> rfl

theorem reader_parsed (state : Parsing) (parsed : Parsed) (stream : Stream) :
    ({ state with parsed := parsed } : Parsing).reader stream = state.reader stream := by
  cases stream <;> rfl

theorem request_parsed (state : Parsing) (parsed : Parsed) (stream : Stream) (n : BitVec 64) :
    ({ state with parsed := parsed } : Parsing).request stream n =
      { state.request stream n with parsed := parsed } := by
  cases stream <;> rfl

theorem handleRead_transforms (wrap : Nat → Nat) (state : Parsing) (op : ReadOp) :
    Transforms fun parsed => handleRead wrap op { state with parsed := parsed } := by
  cases op with
  | byte stream =>
    simp only [handleRead, reader_parsed]
    exact complete_transforms stream _ id state
  | varint stream =>
    simp only [handleRead, reader_parsed]
    exact complete_transforms stream _ id state
  | array stream n =>
    simp only [handleRead, reader_parsed]
    exact complete_transforms stream _ id state
  | span stream n =>
    simp only [handleRead, reader_parsed, request_parsed]
    exact complete_transforms stream _ id (state.request stream n)
  | skip stream n =>
    simp only [handleRead, reader_parsed, request_parsed]
    exact complete_transforms stream _ id (state.request stream n)
  | index stream =>
    simp only [handleRead, reader_parsed]
    exact ⟨id, _, state, fun _ => rfl⟩
  | update change => exact ⟨change, _, state, fun _ => rfl⟩
  | endsInZero offset =>
    refine ⟨id, (handleRead wrap (.endsInZero offset) state).1, state, fun parsed => ?_⟩
    simp only [handleRead]
    split
    · rfl
    · split <;> rfl
  | leave result => exact ⟨id, _, state, fun _ => rfl⟩

theorem handle_transforms (wrap : Nat → Nat) (env : Env) (state : Parsing) {op : Op} (oblivious : op.Oblivious) :
    Transforms fun parsed => handle wrap env op { state with parsed := parsed } := by
  cases op with
  | read inner => exact handleRead_transforms wrap state inner
  | openExtra n =>
    obtain ⟨change, outcome, after, same⟩ := complete_transforms .ar (state.ar.skip wrap n.toNat)
      (Parsed.setOffset .txExtra state.ar.index) (state.request .ar n)
    refine ⟨change, outcome, (Parsing.attachExtra (state.ar.index % 2 ^ 32) n (outcome, after)).2,
      fun parsed => ?_⟩
    have ran := congrArg (Parsing.attachExtra (state.ar.index % 2 ^ 32) n) (same parsed)
    refine Eq.trans ran ?_
    rcases outcome with why | ⟨⟩ <;> rfl
  | allocate size =>
    refine ⟨id, (handle wrap env (.allocate size) state).1, state, fun parsed => ?_⟩
    simp only [handle]
    split <;> rfl
  | unfinished => exact ⟨id, _, state, fun _ => rfl⟩
  | _ => exact oblivious.elim

theorem exec_transforms {I : Interface} (handler : Handler I Stop Parsing) {allowed : I.Op → Prop}
    (step : ∀ op, allowed op → ∀ state : Parsing,
      Transforms fun parsed => handler op { state with parsed := parsed })
    {A : Type} {program : Program I A} (all : program.All allowed) (state : Parsing) :
    Transforms fun parsed => exec handler program { state with parsed := parsed } := by
  induction program generalizing state with
  | done value => exact ⟨id, _, state, fun _ => rfl⟩
  | call op next ih =>
    obtain ⟨change, outcome, after, same⟩ := step op all.1 state
    cases outcome with
    | error why =>
      refine ⟨change, .error why, after, fun parsed => ?_⟩
      simp only [exec, same parsed]
    | ok reply =>
      obtain ⟨later, outcome, final, rest⟩ := ih reply (all.2 reply) after
      refine ⟨later ∘ change, outcome, final, fun parsed => ?_⟩
      simp only [exec, same parsed]
      exact rest (change parsed)

theorem exec_read_transforms (wrap : Nat → Nat) {A : Type} (scanner : Scanner A) (state : Parsing) :
    Transforms fun parsed => exec (handleRead wrap) scanner { state with parsed := parsed } :=
  exec_transforms (handleRead wrap) (fun op (_ : True) s => handleRead_transforms wrap s op)
    (Program.all_of_forall (fun _ => trivial) scanner) state

end Oblivious

section Header
variable {coin : Coin} {state : Parsing}

/-- The fields that are written by the header alone are not touched. -/
def ReadOp.KeepsHeader : ReadOp → Prop
  | .update change => ∀ parsed, (change parsed).minerSignature = parsed.minerSignature ∧
      (change parsed).offsets .nonce = parsed.offsets .nonce
  | _ => True

theorem headerVersion_keeps : Program.All (I := readInterface) ReadOp.KeepsHeader headerVersion :=
  ⟨trivial, fun _ => ⟨fun _ => ⟨rfl, rfl⟩, fun _ => ⟨trivial, fun _ => ⟨fun _ => ⟨rfl, rfl⟩, fun _ =>
    ⟨trivial, fun _ => ⟨fun _ => ⟨rfl, rfl⟩, fun _ => ⟨trivial, fun _ => ⟨fun _ => ⟨rfl, rfl⟩,
      fun _ => trivial⟩⟩⟩⟩⟩⟩⟩⟩

theorem keepsHeader_stagewise :
    Stagewise fun {A} (scanner : Scanner A) => Program.All (I := readInterface) ReadOp.KeepsHeader scanner := by
  apply stagewise_all
  · intro op reads
    cases op with
    | update change => exact reads.elim
    | _ => trivial
  · exact fun _ => trivial
  · exact fun offset i other p => ⟨rfl, Function.update_of_ne (Ne.symm other) _ _⟩
  · rintro _ ⟨⟩ <;> exact fun _ => ⟨rfl, rfl⟩

theorem extraField_keeps (first : Bool) : Program.All (I := readInterface) ReadOp.KeepsHeader (extraField first) :=
  keepsHeader_stagewise.extraField (fun _ other => ⟨trivial, fun _ =>
    ⟨fun _ => ⟨rfl, Function.update_of_ne (Ne.symm other) _ _⟩, fun _ => trivial⟩⟩) first

/-- The parse after the header. -/
def Op.KeepsHeader : Op → Prop
  | .read op => op.KeepsHeader
  | _ => True

def headerFields (parsed : Parsed) : Span × Nat :=
  (parsed.minerSignature, parsed.offsets .nonce)

theorem handleRead_headerFields (wrap : Nat → Nat) {op : ReadOp} (keeps : op.KeepsHeader) :
    headerFields (handleRead wrap op state).2.parsed = headerFields state.parsed := by
  cases op with
  | update change =>
    obtain ⟨signature, nonce⟩ := keeps state.parsed
    exact Prod.ext signature nonce
  | byte stream => exact congrArg headerFields complete_parsed
  | varint stream => exact congrArg headerFields complete_parsed
  | array stream n => exact congrArg headerFields complete_parsed
  | span stream n => exact congrArg headerFields complete_parsed
  | skip stream n => exact congrArg headerFields complete_parsed
  | index stream => rfl
  | endsInZero offset =>
    simp only [handleRead]
    split
    · rfl
    · split <;> rfl
  | leave result => rfl

theorem exec_read_headerFields {wrap : Nat → Nat} {A : Type} {scanner : Scanner A}
    {outcome : Except Stop A} {after : Parsing}
    (ran : exec (handleRead wrap) scanner state = (outcome, after))
    (keeps : Program.All (I := readInterface) ReadOp.KeepsHeader scanner) :
    headerFields after.parsed = headerFields state.parsed := by
  have kept := exec_keeps (handleRead wrap) (fun s => headerFields s.parsed = headerFields state.parsed)
    (fun _ => True) (fun op s allowed same =>
      ⟨(handleRead_headerFields wrap allowed).trans same, fun _ _ => trivial⟩) keeps state rfl
  rw [ran] at kept
  exact kept.1

theorem handle_headerFields (wrap : Nat → Nat) (env : Env) {op : Op} (keeps : op.KeepsHeader) :
    headerFields (handle wrap env op state).2.parsed = headerFields state.parsed := by
  cases op with
  | read inner => exact handleRead_headerFields wrap keeps
  | openExtra n =>
    exact attachExtra_keeps (P := fun s => headerFields s.parsed = headerFields state.parsed) _ _
      (fun _ _ => id) ((congrArg headerFields complete_parsed).trans rfl)
  | parsed => rfl
  | allocate size =>
    simp only [handle]
    split <;> rfl
  | prefixBytes =>
    simp only [handle]
    split <;> rfl
  | storeHash i hash =>
    simp only [handle]
    split <;> rfl
  | unfinished => rfl

theorem exec_headerFields (wrap : Nat → Nat) (env : Env) {A : Type} {parser : Parser A}
    (keeps : parser.All Op.KeepsHeader) (state : Parsing) :
    headerFields (exec (handle wrap env) parser state).2.parsed = headerFields state.parsed := by
  have kept := exec_keeps (handle wrap env) (fun s => headerFields s.parsed = headerFields state.parsed)
    (fun _ => True) (fun op s allowed same =>
      ⟨(handle_headerFields wrap env allowed).trans same, fun _ _ => trivial⟩) keeps state rfl
  exact kept.1

/-- A read whose length stays far from the end of a word. -/
def ReadOp.Small : ReadOp → Prop
  | .span _ n => n.toNat < 2 ^ 63
  | .skip _ n => n.toNat < 2 ^ 63
  | _ => True

theorem sized_machine {A : Type} (stream : Stream) {n : BitVec 64} (value : A) (sound : Sound state)
    (small : n.toNat < 2 ^ 63) :
    sized sizeT (state.reader stream) n value = sized id (state.reader stream) n value := by
  have position := (sound.readers stream).position
  have size := sound.small stream
  unfold sized
  rw [BlobReader.advance_machine (by omega)]

theorem handleRead_machine {op : ReadOp} (small : op.Small) (sound : Sound state) :
    handleRead sizeT op state = handleRead id op state := by
  cases op with
  | span stream n =>
    exact congrArg ((state.request stream n).complete stream) (sized_machine stream _ sound small)
  | skip stream n =>
    exact congrArg ((state.request stream n).complete stream) (sized_machine stream () sound small)
  | array stream n => exact congrArg (state.complete stream) (array_machine sound)
  | _ => rfl

theorem exec_small_sound {A : Type} {scanner : Scanner A}
    (small : Program.All (I := readInterface) ReadOp.Small scanner) (state : Parsing) (sound : Sound state) :
    Sound (exec (handleRead sizeT) scanner state).2 := by
  have kept := exec_keeps (handleRead sizeT) Sound (fun _ => True) (by
    intro op s allowed inside
    rw [handleRead_machine allowed inside]
    exact ⟨handleRead_sound op inside, fun _ _ => trivial⟩) small state sound
  exact kept.1

theorem headerVersion_small : Program.All (I := readInterface) ReadOp.Small headerVersion :=
  ⟨trivial, fun _ => ⟨trivial, fun _ => ⟨trivial, fun _ => ⟨trivial, fun _ => ⟨trivial, fun _ =>
    ⟨trivial, fun _ => ⟨show kHashSize.toNat < 2 ^ 63 by decide, fun _ => ⟨trivial, fun _ => trivial⟩⟩⟩⟩⟩⟩⟩⟩

theorem sized_ok {A : Type} {n : BitVec 64} {value read : A} {after : Parsing} (sound : Sound state)
    (small : n.toNat < 2 ^ 63)
    (ran : (state.request .ar n).complete .ar (sized sizeT state.ar n value) = (.ok read, after)) :
    read = value ∧ after.ar = { state.ar with index := state.ar.index + n.toNat } ∧
      state.ar.index + n.toNat ≤ state.ar.size ∧ after.parsed = state.parsed ∧
      after.blob = state.blob ∧ Sound after := by
  have exact : sized sizeT state.ar n value = sized id state.ar n value :=
    sized_machine .ar value sound small
  have kept := sized_sound sound .ar n value
  rw [exact] at ran
  simp only [Parsing.reader] at kept
  rw [ran] at kept
  simp only [sized, BlobReader.advance, id_eq] at ran
  split at ran
  · cases ran
  · rename_i room
    cases ran
    exact ⟨rfl, rfl, by omega, rfl, rfl, kept⟩

theorem span_ok {n : BitVec 64} {read : Span} {after : Parsing} (sound : Sound state)
    (small : n.toNat < 2 ^ 63) (ran : exec (handleRead sizeT) (span .ar n) state = (.ok read, after)) :
    read = ⟨state.ar.data + state.ar.index, n.toNat⟩ ∧ state.ar.index + n.toNat ≤ state.ar.size ∧
      after.parsed = state.parsed := by
  obtain ⟨value, _, room, parsed, _⟩ := sized_ok sound small
    ((exec_perform (I := readInterface) (.span .ar n) state).symm.trans ran)
  exact ⟨value, room, parsed⟩

theorem skip_ok {n : BitVec 64} {after : Parsing} (sound : Sound state)
    (small : n.toNat < 2 ^ 63) (ran : exec (handleRead sizeT) (skip .ar n) state = (.ok (), after)) :
    after.ar = { state.ar with index := state.ar.index + n.toNat } ∧
      state.ar.index + n.toNat ≤ state.ar.size ∧ after.parsed = state.parsed ∧
      after.blob = state.blob ∧ Sound after :=
  (sized_ok sound small ((exec_perform (I := readInterface) (.skip .ar n) state).symm.trans ran)).2

/-- The signature that the header has at this position, if it has one. -/
def signatureAt (coin : Coin) (major : Byte) (reader : BlobReader) : Option Span :=
  if coin = .wownero ∧ 18 ≤ major.toNat then some ⟨reader.data + reader.index, 64⟩ else none

theorem minerSignature_written {major : Byte} {after : Parsing} (sound : Sound state)
    (ran : exec (handleRead sizeT) (minerSignature coin major) state = (.ok (), after)) :
    ((signatureAt coin major state.ar).isSome → state.ar.index + 64 ≤ state.ar.size) ∧
      headerFields after.parsed = ((signatureAt coin major state.ar).getD state.parsed.minerSignature,
        state.parsed.offsets .nonce) := by
  unfold minerSignature at ran
  unfold signatureAt
  split at ran
  · rename_i signed
    rw [if_pos signed]
    obtain ⟨read, middle, took, rest⟩ := exec_bind_inv ran
    obtain ⟨rfl, room, parsed⟩ := span_ok sound (by decide) took
    refine ⟨fun _ => room, ?_⟩
    -- what follows writes the vote only
    obtain ⟨_, written, wrote, later⟩ := exec_bind_inv rest
    cases wrote
    rw [exec_read_headerFields later ⟨trivial, fun _ => ⟨fun _ => ⟨rfl, rfl⟩, fun _ => trivial⟩⟩]
    simp only [headerFields, parsed]
    rfl
  · rename_i unsigned
    rw [if_neg unsigned]
    cases ran
    exact ⟨by simp, rfl⟩

/-- Where the header has the nonce, and its signature if there is one. -/
structure Layout (coin : Coin) (length : Nat) where
  nonce : Nat
  signature : Option Span
  nonce_fits : nonce + 4 ≤ length
  signed : ∀ span, signature = some span → coin = .wownero ∧ span.size = 64 ∧ nonce + 68 ≤ length

/-- The fields that a header with this layout leaves. -/
def Layout.Written {length : Nat} (layout : Layout coin length) (before after : Parsed) : Prop :=
  headerFields after = (layout.signature.getD before.minerSignature, layout.nonce % 2 ^ 32)

/-- A header without a signature keeps the one of an earlier parse. -/
theorem Layout.Written.empty {length : Nat} {layout : Layout coin length} {before after : Parsed}
    (written : layout.Written before after) :
    after.minerSignature.empty = (layout.signature.isNone && before.minerSignature.empty) := by
  have same : after.minerSignature = layout.signature.getD before.minerSignature :=
    congrArg Prod.fst written
  rw [same]
  cases found : layout.signature with
  | none => rfl
  | some span =>
    obtain ⟨_, size, _⟩ := layout.signed span found
    simp only [Option.getD_some, Span.empty, size, Option.isNone_some, Bool.false_and]
    rfl

theorem exec_markOffset (wrap : Nat → Nat) (offset : Offset) (state : Parsing) :
    exec (handleRead wrap) (markOffset offset) state =
      (.ok (), { state with parsed := state.parsed.setOffset offset state.ar.index }) := rfl

theorem header_written {final : Parsing} (sound : Sound state)
    (ran : exec (handleRead sizeT) (header coin) state = (.ok (), final)) :
    ∃ major middle, exec (handleRead sizeT) headerVersion state = (.ok major, middle) ∧
      middle.ar.index + 4 ≤ middle.ar.size ∧
      ((signatureAt coin major { middle.ar with index := middle.ar.index + 4 }).isSome →
        middle.ar.index + 68 ≤ middle.ar.size) ∧
      headerFields final.parsed =
        ((signatureAt coin major { middle.ar with index := middle.ar.index + 4 }).getD
          state.parsed.minerSignature, middle.ar.index % 2 ^ 32) := by
  obtain ⟨major, middle, version, rest⟩ := exec_bind_inv ran
  have inside := exec_small_sound headerVersion_small state sound
  rw [version] at inside
  have signature := congrArg Prod.fst (exec_read_headerFields version headerVersion_keeps)
  obtain ⟨_, marked, mark, rest⟩ := exec_bind_inv rest
  rw [exec_markOffset] at mark
  cases mark
  obtain ⟨_, skipped, skip, rest⟩ := exec_bind_inv rest
  obtain ⟨reader, room, parsed, _, sound'⟩ := skip_ok (inside.with_parsed _) (by decide) skip
  obtain ⟨_, signed, sign, rest⟩ := exec_bind_inv rest
  obtain ⟨fits, written⟩ := minerSignature_written sound' sign
  refine ⟨major, middle, version, room, ?_, ?_⟩
  · rw [reader] at fits
    intro some
    have room64 := fits some
    change middle.ar.index + 4 + 64 ≤ middle.ar.size at room64
    omega
  · have priced : headerFields final.parsed = headerFields signed.parsed := by
      split at rest
      · exact exec_read_headerFields rest ⟨trivial, fun _ => trivial⟩
      · cases rest
        rfl
    rw [priced, written, reader, parsed]
    change ((signatureAt coin major { middle.ar with index := middle.ar.index + 4 }).getD
      middle.parsed.minerSignature, middle.ar.index % 2 ^ 32) = _
    have same : middle.parsed.minerSignature = state.parsed.minerSignature := signature
    rw [same]

/-- A header that is read has one layout, whatever the fields were before. -/
theorem header_layout {after : Parsing} (sound : Sound state)
    (ran : exec (handleRead sizeT) (header coin) state = (.ok (), after)) :
    ∃ layout : Layout coin state.blob.bytes.length, ∀ (parsed : Parsed) (final : Parsing),
      exec (handleRead sizeT) (header coin) { state with parsed := parsed } = (.ok (), final) →
        layout.Written parsed final.parsed := by
  obtain ⟨major, middle, version, room, signed, _⟩ := header_written sound ran
  have inside := exec_small_sound headerVersion_small state sound
  have blob : middle.blob = state.blob := by
    have grown := exec_persists (handleRead sizeT) (fun s => s.blob = state.blob)
      (fun op s same => (handleRead_extends sizeT op s).blob.trans same) headerVersion rfl
    rw [version] at grown
    exact grown
  rw [version] at inside
  have range := (inside.readers .ar).range
  rw [blob] at range
  simp only [Parsing.reader] at range
  refine ⟨⟨middle.ar.index, signatureAt coin major { middle.ar with index := middle.ar.index + 4 },
    by omega, fun span found => ?_⟩, fun parsed final again => ?_⟩
  · have long := signed (by rw [found]; rfl)
    unfold signatureAt at found
    split at found
    · rename_i wownero
      cases found
      exact ⟨wownero.1, rfl, by omega⟩
    · cases found
  · obtain ⟨major', middle', version', _, _, written⟩ := header_written (sound.with_parsed parsed) again
    obtain ⟨change, outcome, after', same⟩ := exec_read_transforms sizeT headerVersion state
    have here := (same state.parsed).symm.trans version
    have there := (same parsed).symm.trans version'
    cases here
    cases there
    exact written

end Header

section Parse
variable {env : Env} {coin : Coin} {state : Parsing}

/-- How an accepting parse ends. -/
def Accepted (outcome : Except Stop Unit) : Prop :=
  outcome = .ok () ∨ outcome = .error (.returned true)

theorem accepted_iff {outcome : Except Stop Unit} : Accepted outcome ↔ result outcome = some true := by
  match outcome with
  | .ok () => simp [Accepted, result]
  | .error (.returned value) => cases value <;> simp [Accepted, result]
  | .error .thrown => simp [Accepted, result]
  | .error .fault => simp [Accepted, result]
  | .error .unfinished => simp [Accepted, result]

theorem complete_not_returned {A : Type} {stream : Stream} {outcome : Except ReadError (A × BlobReader)}
    (value : Bool) : (state.complete stream outcome).1 ≠ .error (.returned value) := by
  unfold Parsing.complete
  split <;> simp

theorem handleRead_not_returned {wrap : Nat → Nat} {op : ReadOp} (stays : ∀ b, op ≠ .leave b)
    (value : Bool) : (handleRead wrap op state).1 ≠ .error (.returned value) := by
  cases op with
  | byte stream => exact complete_not_returned value
  | varint stream => exact complete_not_returned value
  | array stream n => exact complete_not_returned value
  | span stream n => exact complete_not_returned value
  | skip stream n => exact complete_not_returned value
  | index stream => simp [handleRead]
  | update change => simp [handleRead]
  | endsInZero offset =>
    simp only [handleRead]
    split
    · simp
    · split <;> simp
  | leave b => exact absurd rfl (stays b)

theorem header_stays (coin : Coin) : Program.All (I := readInterface) (fun op => ∀ b, op ≠ .leave b) (header coin) := by
  unfold header headerVersion markOffset minerSignature
  repeat' first
    | exact Program.all_perform.mpr fun _ => ReadOp.noConfusion
    | apply Program.all_bind
    | intro _
    | split
    | exact Program.all_pure _

theorem header_not_returned (coin : Coin) (wrap : Nat → Nat) (value : Bool) (state : Parsing) :
    (exec (handleRead wrap) (header coin) state).1 ≠ .error (.returned value) := by
  have kept := exec_keeps (handleRead wrap) (fun _ => True) (fun why => why ≠ .returned value) (by
    intro op s stays _
    refine ⟨trivial, fun why stopped returned => ?_⟩
    rw [returned] at stopped
    exact handleRead_not_returned stays value stopped) (header_stays coin) state trivial
  exact fun stopped => kept.2 _ stopped rfl

theorem extraFields_keeps (extraSize : BitVec 64) (rounds : Nat) (first : Bool) :
    (extraFields extraSize rounds first).All Op.KeepsHeader := by
  induction rounds generalizing first with
  | zero => exact ⟨trivial, fun reply => reply.elim⟩
  | succ rounds ih =>
    unfold extraFields
    apply Program.all_bind (all_stage_of (fun _ => id) (Program.all_perform.mpr trivial))
    intro i
    split
    · exact Program.all_bind (all_stage_of (fun _ => id) (extraField_keeps first)) ih
    · exact Program.all_pure _

theorem minerTx_keeps (coin : Coin) (rounds : Nat) : (minerTx coin rounds).All Op.KeepsHeader := by
  unfold minerTx
  apply Program.all_bind (all_stage_of (fun _ => id) keepsHeader_stagewise.minerTxInputs)
  intro inputs
  apply Program.all_bind (all_stage_of (fun _ => id) (keepsHeader_stagewise.minerTxOutputs inputs.2))
  intro extraSize
  apply Program.all_bind ((Program.all_perform (I := interface)).mpr trivial)
  intro _
  apply Program.all_bind (extraFields_keeps extraSize rounds true)
  intro _
  exact all_stage_of (fun _ => id) (keepsHeader_stagewise.minerTxEnd inputs.1)

theorem extraFields_oblivious (extraSize : BitVec 64) (rounds : Nat) (first : Bool) :
    (extraFields extraSize rounds first).All Op.Oblivious := by
  induction rounds generalizing first with
  | zero => exact ⟨trivial, fun reply => reply.elim⟩
  | succ rounds ih =>
    unfold extraFields
    apply Program.all_bind (all_stage (fun _ => trivial) _)
    intro i
    split
    · exact Program.all_bind (all_stage (fun _ => trivial) _) ih
    · exact Program.all_pure _

theorem scan_oblivious (coin : Coin) (rounds : Nat) : (scan coin rounds).All Op.Oblivious := by
  unfold scan minerTx
  apply Program.all_bind (all_stage (fun _ => trivial) _)
  intro _
  apply Program.all_bind (all_stage (fun _ => trivial) _)
  intro inputs
  apply Program.all_bind (all_stage (fun _ => trivial) _)
  intro extraSize
  apply Program.all_bind ((Program.all_perform (I := interface)).mpr trivial)
  intro _
  apply Program.all_bind (extraFields_oblivious extraSize rounds true)
  intro _
  exact all_stage (fun _ => trivial) _

theorem exec_parseBlob_false (rounds : Nat) (state : Parsing) :
    exec (handle sizeT env) (parseBlob env coin false rounds) state =
      exec (handle sizeT env) (scan coin rounds) state := by
  unfold parseBlob
  rw [exec_bind]
  rcases exec (handle sizeT env) (scan coin rounds) state with ⟨why | ⟨⟩, middle⟩ <;> rfl

theorem scan_header {rounds : Nat} {outcome : Except Stop Unit} {final : Parsing}
    (ran : exec (handle sizeT env) (scan coin rounds) state = (outcome, final)) (accepted : Accepted outcome) :
    ∃ middle, exec (handleRead sizeT) (header coin) state = (.ok (), middle) ∧
      headerFields final.parsed = headerFields middle.parsed := by
  unfold scan at ran
  rw [exec_bind, exec_stage] at ran
  rcases read : exec (handleRead sizeT) (header coin) state with ⟨why | ⟨⟩, middle⟩
  · rw [read] at ran
    cases ran
    rcases accepted with done | returned
    · cases done
    · exact absurd (by rw [read]; exact returned) (header_not_returned coin sizeT true state)
  · rw [read] at ran
    have kept := exec_headerFields sizeT env (minerTx_keeps coin rounds) middle
    simp only at ran
    rw [ran] at kept
    exact ⟨middle, rfl, kept⟩

theorem runParse_layout {rounds : Nat} {blob : Buffer} {parsed : Parsed}
    (accepted : Accepted (runParse sizeT env coin false rounds blob parsed).1) :
    ∃ layout : Layout coin blob.bytes.length, ∀ other : Parsed,
      Accepted (runParse sizeT env coin false rounds blob other).1 ∧
        layout.Written other (runParse sizeT env coin false rounds blob other).2.parsed := by
  obtain ⟨change, outcome, final, same⟩ := exec_transforms (handle sizeT env)
    (fun op oblivious s => handle_transforms sizeT env s oblivious) (scan_oblivious coin rounds)
    (.start blob parsed)
  have run (other : Parsed) : runParse sizeT env coin false rounds blob other =
      (outcome, { final with parsed := change other }) :=
    (exec_parseBlob_false rounds _).trans (same other)
  rw [run parsed] at accepted
  obtain ⟨middle, read, _⟩ := scan_header (same parsed) accepted
  obtain ⟨layout, written⟩ := header_layout (sound_start blob parsed) read
  refine ⟨layout, fun other => ?_⟩
  rw [run other]
  refine ⟨accepted, ?_⟩
  obtain ⟨middle', read', fields⟩ := scan_header (same other) accepted
  have header : layout.Written other middle'.parsed := written other middle' read'
  unfold Layout.Written at header ⊢
  rw [← header]
  exact fields

theorem parseHex_decoded {template : BlockTemplate} {hex : List Byte} {hashes : Bool} {rounds : Nat}
    (accepted : result (template.parseHex env hex coin hashes rounds).outcome = some true) :
    ∃ blob : Buffer, blob.bytes.length = hex.length / 2 ∧ ∀ other : BlockTemplate,
      other.parseHex env hex coin hashes rounds =
        ⟨(runParse sizeT env coin hashes rounds blob other.parsed).1,
          ⟨blob.bytes, coin, (runParse sizeT env coin hashes rounds blob other.parsed).2.parsed⟩,
          (runParse sizeT env coin hashes rounds blob other.parsed).2.accesses⟩ := by
  by_cases short : hex.length < kMinSize * 2
  · rw [parseHex, if_pos short] at accepted
    cases accepted
  by_cases rejected : (Cvt.fromHex template.blob hex).2 = false
  · rw [parseHex, if_neg short, if_pos rejected] at accepted
    cases accepted
  by_cases fits : (Cvt.fromHex template.blob hex).1.length < 2 ^ 63
  · refine ⟨⟨(Cvt.fromHex template.blob hex).1, fits⟩, ?_, fun other => ?_⟩
    · exact Cvt.fromHex_length template.blob hex (by unfold kMinSize at short; omega)
    · have same := Cvt.fromHex_of_ok (Bool.not_eq_false _ ▸ rejected) other.blob
      simp only [parseHex, same, if_neg short, if_neg rejected, dif_pos fits]
  · rw [parseHex, if_neg short, if_neg rejected, dif_neg fits] at accepted
    cases accepted

/-- A text that is accepted into some template is accepted into a fresh one, and
both have the layout of that text. -/
theorem parseHex_fresh {template : BlockTemplate} {hex : List Byte} {rounds : Nat}
    (accepted : result (template.parseHex env hex coin false rounds).outcome = some true) :
    result (({} : BlockTemplate).parseHex env hex coin false rounds).outcome = some true ∧
      ∃ layout : Layout coin (hex.length / 2),
        layout.Written template.parsed (template.parseHex env hex coin false rounds).template.parsed ∧
        layout.Written {} (({} : BlockTemplate).parseHex env hex coin false rounds).template.parsed := by
  obtain ⟨blob, length, decoded⟩ := parseHex_decoded accepted
  rw [decoded] at accepted
  obtain ⟨layout, written⟩ := runParse_layout (accepted_iff.mpr accepted)
  rw [decoded template, decoded {}, ← length]
  exact ⟨accepted_iff.mp (written _).1, layout, (written _).2, (written _).2⟩

end Parse

end Xmrig.BlockTemplate
