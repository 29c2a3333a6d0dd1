import Xmrig.Cryptonote.TemplateBounds
import Xmrig.Cryptonote.TemplateStages

/-! Where the offsets of a template point.

A position of the reader of the blob lies in the blob, also if a length has overflown. A position
of the reader of the extra field is recorded right behind a byte that was read there.
-/

set_option autoImplicit false

namespace Xmrig

open Foundation

namespace BlobReader
variable {memory : List Byte} {reader next : BlobReader}

theorem getByte_read {value : Byte} (read : getByte memory reader = .ok (value, next)) :
    next.data + next.index ≤ memory.length := by
  unfold getByte at read
  split at read
  · cases read
  · split at read
    · cases read
    · rename_i byte found
      cases read
      obtain ⟨inside, -⟩ := List.getElem?_eq_some_iff.mp found
      change reader.data + (reader.index + 1) ≤ memory.length
      omega

theorem varintFrom_read {value : BitVec 64} (rounds : Nat) (result : BitVec 64) (shift : Nat)
    (read : varintFrom memory rounds result shift reader = .ok (value, next)) : next.data + next.index ≤ memory.length := by
  induction rounds generalizing result shift reader with
  | zero => cases read
  | succ rounds ih =>
    simp only [varintFrom] at read
    split at read
    · cases read
    · rename_i t after took
      split at read
      · cases read
        exact getByte_read took
      · exact ih _ _ read

/-- A move inside of the range, forwards or backwards. -/
structure Moves (before after : BlobReader) : Prop where
  data : after.data = before.data
  size : after.size = before.size
  inside : after.index ≤ after.size

theorem Advances.moves (advances : Advances reader next) : Moves reader next :=
  ⟨advances.data, advances.size, advances.inside⟩

theorem advance_moves {wrap : Nat → Nat} {n : Nat} (read : advance wrap reader n = .ok next) : Moves reader next := by
  unfold advance at read
  split at read
  · cases read
  · rename_i fits
    cases read
    exact ⟨rfl, rfl, Nat.not_lt.mp fits⟩

theorem sized_moves {A : Type} {wrap : Nat → Nat} {n : Nat} {value read : A}
    (took : (reader.advance wrap n).map (fun next => (value, next)) = .ok (read, next)) : Moves reader next := by
  rcases moved : reader.advance wrap n with why | after
  · rw [moved] at took
    cases took
  · rw [moved] at took
    cases took
    exact advance_moves moved

theorem array_moves {wrap : Nat → Nat} {n : Nat} {value : List Byte}
    (read : array wrap memory reader n = .ok (value, next)) : Moves reader next := by
  unfold array at read
  rcases moved : reader.advance wrap n with why | after
  · rw [moved] at read
    cases read
  · rw [moved] at read
    simp only [Except.bind] at read
    split at read
    · cases read
    · cases read
      exact advance_moves moved

theorem Moves.within {length : Nat} (within : reader.Within length) (moves : Moves reader next) : next.Within length :=
  ⟨by rw [moves.data, moves.size]; exact within.range, moves.inside⟩

end BlobReader

namespace BlockTemplate

/-- The reader of the blob and the offsets do not leave the blob. -/
structure Inside (state : Parsing) : Prop where
  reader : state.ar.Within state.blob.bytes.length
  offsets : ∀ offset, state.parsed.offsets offset ≤ state.blob.bytes.length

/-- The extra reader starts where the extra field does. -/
structure AtExtra (state : Parsing) : Prop where
  inside : Inside state
  data : state.arExtra.data = state.parsed.offsets .txExtra

/-- The bytes before the position of the extra reader are bytes of the blob. -/
structure BehindByte (state : Parsing) : Prop where
  extra : AtExtra state
  position : state.arExtra.data + state.arExtra.index ≤ state.blob.bytes.length

section Steps
variable {state : Parsing} {wrap : Nat → Nat} {env : Env}

theorem inside_start {blob : Buffer} {parsed : Parsed} (offsets : ∀ offset, parsed.offsets offset ≤ blob.bytes.length) :
    Inside (.start blob parsed) :=
  ⟨⟨Nat.le_of_eq (Nat.zero_add _), Nat.zero_le _⟩, offsets⟩

theorem Inside.position (inside : Inside state) : state.ar.index ≤ state.blob.bytes.length := by
  have range := inside.reader.range
  have position := inside.reader.position
  omega

theorem complete_inside {A : Type} {stream : Stream} {outcome : Except ReadError (A × BlobReader)} (inside : Inside state)
    (moves : ∀ value next, outcome = .ok (value, next) → (state.reader stream).Moves next) :
    Inside (state.complete stream outcome).2 := by
  match outcome, moves with
  | .error .outOfRange, _ => exact inside
  | .error .fault, _ => exact inside
  | .ok (value, next), moves =>
    cases stream with
    | ar =>
      have moved : state.ar.Moves next := moves value next rfl
      exact ⟨moved.within inside.reader, inside.offsets⟩
    | arExtra => exact ⟨inside.reader, inside.offsets⟩

theorem complete_data {A : Type} {stream : Stream} {outcome : Except ReadError (A × BlobReader)}
    (moves : ∀ value next, outcome = .ok (value, next) → (state.reader stream).Moves next) :
    (state.complete stream outcome).2.arExtra.data = state.arExtra.data := by
  match outcome, moves with
  | .error .outOfRange, _ => rfl
  | .error .fault, _ => rfl
  | .ok (value, next), moves =>
    cases stream with
    | ar => rfl
    | arExtra => exact (moves value next rfl).data

/-- The reads, and the updates of other fields than the offsets. -/
def ReadOp.Steady : ReadOp → Prop
  | .update change => ∀ parsed, (change parsed).offsets = parsed.offsets
  | _ => True

theorem handleRead_steady {op : ReadOp} (steady : op.Steady) {P : Parsing → Prop}
    (moved : ∀ (s : Parsing) (A : Type) (stream : Stream) (outcome : Except ReadError (A × BlobReader)), P s →
      (∀ value next, outcome = .ok (value, next) → (s.reader stream).Moves next) → P (s.complete stream outcome).2)
    (asked : ∀ stream n, P state → P (state.request stream n))
    (kept : ∀ parsed : Parsed, parsed.offsets = state.parsed.offsets → P state → P { state with parsed := parsed })
    (here : P state) : P (handleRead wrap op state).2 := by
  cases op with
  | byte stream => exact moved _ _ _ _ here fun _ _ read => (BlobReader.getByte_advances read).1.moves
  | varint stream => exact moved _ _ _ _ here fun _ _ read => (BlobReader.getVarint_advances read).1.moves
  | array stream n => exact moved _ _ _ _ here fun _ _ read => BlobReader.array_moves read
  | span stream n =>
    refine moved _ _ _ _ (asked stream n here) fun value next read => ?_
    rw [request_reader]
    exact BlobReader.sized_moves read
  | skip stream n =>
    refine moved _ _ _ _ (asked stream n here) fun value next read => ?_
    rw [request_reader]
    exact BlobReader.sized_moves read
  | update change => exact kept _ (steady state.parsed) here
  | index stream => exact here
  | endsInZero offset =>
    simp only [handleRead]
    split
    · exact here
    · split <;> exact here
  | leave result => exact here

theorem handleRead_inside {op : ReadOp} (steady : op.Steady) (inside : Inside state) : Inside (handleRead wrap op state).2 := by
  apply handleRead_steady steady _ _ _ inside
  · exact fun s A stream outcome inside moves => complete_inside inside moves
  · exact fun stream n inside => ⟨inside.reader, inside.offsets⟩
  · exact fun parsed same inside => ⟨inside.reader, fun offset => same ▸ inside.offsets offset⟩

theorem handleRead_atExtra {op : ReadOp} (steady : op.Steady) (extra : AtExtra state) : AtExtra (handleRead wrap op state).2 := by
  apply handleRead_steady steady _ _ _ extra
  · intro s A stream outcome extra moves
    refine ⟨complete_inside extra.inside moves, ?_⟩
    rw [complete_data moves, complete_parsed]
    exact extra.data
  · exact fun stream n extra => ⟨⟨extra.inside.reader, extra.inside.offsets⟩, extra.data⟩
  · intro parsed same extra
    exact ⟨⟨extra.inside.reader, fun offset => same ▸ extra.inside.offsets offset⟩, extra.data.trans (by rw [same])⟩

end Steps

/-! ## The stages -/

section Stages
variable {wrap : Nat → Nat} {env : Env} {coin : Coin} {A : Type}

variable (wrap) in
/-- Wherever the reads end, the offsets and the reader are inside. -/
abbrev Stays (scanner : Scanner A) : Prop :=
  Leads (I := readInterface) (handleRead wrap) Inside scanner (fun _ => Inside) Inside

theorem stays_bind {B : Type} {scanner : Scanner A} {next : A → Scanner B} (first : Stays wrap scanner)
    (rest : ∀ value, Stays wrap (next value)) : Stays wrap (scanner >>= next) :=
  Leads.bind first rest

theorem stays_steady {scanner : Scanner A} (all : Program.All (I := readInterface) ReadOp.Steady scanner) :
    Stays wrap scanner :=
  leads_all (fun _ steady _ inside => handleRead_inside steady inside) all

theorem stays_perform {op : ReadOp} (steady : op.Steady) : Stays wrap (perform op) :=
  stays_steady (Program.all_perform.mpr steady)

theorem stays_leave (result : Bool) : Stays wrap (leave result : Scanner A) :=
  fun _ inside => inside

theorem setOffset_inside {state : Parsing} {offset : Offset} {i : Nat} (inside : Inside state)
    (position : i ≤ state.blob.bytes.length) : Inside { state with parsed := state.parsed.setOffset offset i } := by
  refine ⟨inside.reader, fun other => ?_⟩
  by_cases here : other = offset
  · subst here
    have truncated := Nat.mod_le i (2 ^ 32)
    simp only [Parsed.setOffset, Function.update_self]
    exact truncated.trans position
  · simp only [Parsed.setOffset, Function.update_of_ne here]
    exact inside.offsets other

theorem leads_mark {rest : Nat → Scanner A} (offset : Offset) (stays : ∀ i, Stays wrap (rest i)) :
    Stays wrap (do
      let i ← index .ar
      update (Parsed.setOffset offset i)
      rest i) := by
  have asked : Leads (I := readInterface) (handleRead wrap) Inside (index .ar)
      (fun i state => Inside state ∧ i ≤ state.blob.bytes.length) Inside :=
    fun state inside => ⟨inside, inside.position⟩
  have marked (i : Nat) : Leads (I := readInterface) (handleRead wrap)
      (fun state => Inside state ∧ i ≤ state.blob.bytes.length) (update (Parsed.setOffset offset i)) (fun _ => Inside) Inside :=
    fun state here => setOffset_inside here.1 here.2
  exact asked.bind fun i => (marked i).bind fun _ => stays i

theorem stays_markOffset (offset : Offset) : Stays wrap (markOffset offset) :=
  @leads_mark wrap Unit (fun _ => pure ()) offset fun _ => leads_pure fun _ inside => inside

theorem stays_stagewise : Stagewise fun {A} (scanner : Scanner A) => Stays wrap scanner where
  pure _ := leads_pure fun _ inside => inside
  bind := stays_bind
  reads op reads := stays_perform (by
    cases op with
    | update change => exact reads.elim
    | _ => trivial)
  leaves result := stays_leave result
  marks offset _ _ stays := leads_mark offset stays
  sets _ sets := stays_perform (by cases sets <;> exact fun _ => rfl)

theorem header_stays_inside : Stays wrap (header coin) :=
  stays_stagewise.header (stays_markOffset .nonce) fun _ sets => stays_perform (by cases sets <;> exact fun _ => rfl)

/-! The loop over the extra field. -/

variable (wrap) in
/-- The extra reader stays with the extra field. -/
abbrev StaysExtra (scanner : Scanner A) : Prop :=
  Leads (I := readInterface) (handleRead wrap) AtExtra scanner (fun _ => AtExtra) AtExtra

theorem extra_steady {op : ReadOp} (steady : op.Steady) : StaysExtra wrap (perform op) :=
  leads_all (fun _ steady _ extra => handleRead_atExtra steady extra) (Program.all_perform.mpr steady)

theorem extra_index : StaysExtra wrap (index .arExtra) := extra_steady trivial

theorem extra_skip (n : BitVec 64) : StaysExtra wrap (skip .arExtra n) := extra_steady trivial

theorem varint_behind : Leads (I := readInterface) (handleRead wrap) AtExtra (varint .arExtra) (fun _ => BehindByte) AtExtra := by
  intro state extra
  have kept : AtExtra (handleRead wrap (.varint .arExtra) state).2 := handleRead_atExtra trivial extra
  have ran : exec (handleRead wrap) (varint .arExtra) state =
      state.complete .arExtra (state.arExtra.getVarint state.blob.bytes) :=
    exec_perform (I := readInterface) _ _
  rw [ran]
  change AtExtra (state.complete .arExtra (state.arExtra.getVarint state.blob.bytes)).2 at kept
  match read : state.arExtra.getVarint state.blob.bytes with
  | .error .outOfRange => exact extra
  | .error .fault => exact extra
  | .ok (value, next) =>
    rw [read] at kept
    exact ⟨kept, BlobReader.varintFrom_read _ _ _ read⟩

theorem leads_markExtraOffset {offset : Offset} (other : offset ≠ .txExtra) :
    Leads (I := readInterface) (handleRead wrap) BehindByte (markExtraOffset offset) (fun _ => AtExtra) AtExtra := by
  intro state behind
  change AtExtra { state with parsed := state.parsed.setOffset offset (state.parsed.offsets .txExtra + state.arExtra.index) }
  refine ⟨setOffset_inside behind.extra.inside ?_, behind.extra.data.trans ?_⟩
  · rw [← behind.extra.data]
    exact behind.position
  · simp only [Parsed.setOffset, Function.update_of_ne (Ne.symm other)]

theorem sizedField_leads (offset : Offset) (other : offset ≠ .txExtra) (change : Span → Parsed → Parsed)
    (steady : ∀ range parsed, (change range parsed).offsets = parsed.offsets) (value : A) :
    Leads (I := readInterface) (handleRead wrap) BehindByte (do
      let size ← varint .arExtra
      markExtraOffset offset
      let range ← span .arExtra size
      update (change range)
      return value) (fun _ => AtExtra) AtExtra := by
  have extra (state : Parsing) (behind : BehindByte state) : AtExtra state := behind.extra
  have spanned (size : BitVec 64) : StaysExtra wrap (span .arExtra size) := extra_steady trivial
  have updated (range : Span) : StaysExtra wrap (update (change range)) := extra_steady (steady range)
  refine (varint_behind.mono extra fun _ _ => id).bind fun size => (leads_markExtraOffset other).bind fun _ => ?_
  exact (spanned size).bind fun range => (updated range).bind fun _ => leads_pure fun _ here => here

theorem extraField_leads (first : Bool) : StaysExtra wrap (extraField first) := by
  unfold extraField
  dsimp only
  refine varint_behind.bind fun tag => ?_
  split
  · have skipped : StaysExtra wrap (do
        skip .arExtra kKeySize
        return false) :=
      (extra_skip kKeySize).bind fun _ => leads_pure fun _ here => here
    split
    · exact (leads_markExtraOffset (by decide)).bind fun _ => skipped
    · exact skipped.mono (fun _ behind => behind.extra) fun _ _ => id
  split
  · exact sizedField_leads .txExtraNonce (by decide) (fun range p => { p with txExtraNonce := range }) (fun _ _ => rfl) first
  split
  · exact sizedField_leads .txExtraMergeMiningTag (by decide) (fun range p => { p with txMergeMiningTag := range })
      (fun _ _ => rfl) first
  · exact fun state behind => behind.extra

theorem leads_stage {scanner : Scanner A} {before stopped : Parsing → Prop} {after : A → Parsing → Prop}
    (leads : Leads (I := readInterface) (handleRead wrap) before scanner after stopped) :
    Leads (I := interface) (handle wrap env) before (stage scanner) after stopped := by
  intro state here
  rw [exec_stage]
  exact leads state here

theorem attachExtra_inside {state : Parsing} (inside : Inside state) (n : BitVec 64) {outcome : Except Stop Unit} {final : Parsing}
    (ran : Parsing.attachExtra (state.parsed.offsets .txExtra) n (handleRead wrap (.skip .ar n) state) = (outcome, final)) :
    Inside final ∧ ∀ value, outcome = .ok value → AtExtra final := by
  have kept : Inside (handleRead wrap (.skip .ar n) state).2 := handleRead_inside trivial inside
  have parsed : (handleRead wrap (.skip .ar n) state).2.parsed = state.parsed := complete_parsed
  rcases skipped : handleRead wrap (.skip .ar n) state with ⟨why | ⟨⟩, after⟩
  · rw [skipped] at kept ran
    cases ran
    exact ⟨kept, fun _ none => by cases none⟩
  · rw [skipped] at kept parsed ran
    cases ran
    refine ⟨⟨kept.reader, kept.offsets⟩, fun _ _ => ⟨⟨kept.reader, kept.offsets⟩, ?_⟩⟩
    exact (congrArg (fun p => Parsed.offsets p .txExtra) parsed).symm

theorem openExtra_leads (n : BitVec 64) :
    Leads (I := interface) (handle wrap env) Inside (openExtra n) (fun _ => AtExtra) Inside := by
  intro state inside
  have marked : Inside { state with parsed := state.parsed.setOffset .txExtra state.ar.index } :=
    setOffset_inside inside inside.position
  have starts : (state.parsed.setOffset .txExtra state.ar.index).offsets .txExtra = state.ar.index % 2 ^ 32 := by
    simp only [Parsed.setOffset, Function.update_self]
  have ran : exec (handle wrap env) (openExtra n) state = Parsing.attachExtra (state.ar.index % 2 ^ 32) n
      (handleRead wrap (.skip .ar n) { state with parsed := state.parsed.setOffset .txExtra state.ar.index }) :=
    exec_perform (I := interface) _ _
  rw [ran, ← starts]
  rcases attached : Parsing.attachExtra _ n (handleRead wrap (.skip .ar n) _) with ⟨why | ⟨⟩, final⟩
  · exact (attachExtra_inside marked n attached).1
  · exact (attachExtra_inside marked n attached).2 () rfl

theorem extraFields_leads (extraSize : BitVec 64) (rounds : Nat) (first : Bool) :
    Leads (I := interface) (handle wrap env) AtExtra (extraFields extraSize rounds first) (fun _ => AtExtra) AtExtra := by
  induction rounds generalizing first with
  | zero => exact fun state extra => extra
  | succ rounds ih =>
    unfold extraFields
    refine (leads_stage extra_index).bind fun i => ?_
    split
    · exact (leads_stage (extraField_leads first)).bind ih
    · exact leads_pure fun _ extra => extra

theorem scan_inside (rounds : Nat) :
    Leads (I := interface) (handle wrap env) Inside (scan coin rounds) (fun _ => Inside) Inside := by
  unfold scan minerTx
  refine (leads_stage header_stays_inside).bind fun _ => (leads_stage stays_stagewise.minerTxInputs).bind fun inputs => ?_
  refine (leads_stage (stays_stagewise.minerTxOutputs inputs.2)).bind fun extraSize => (openExtra_leads extraSize).bind fun _ => ?_
  have weaker (state : Parsing) (extra : AtExtra state) : Inside state := extra.inside
  refine ((extraFields_leads extraSize rounds true).stop weaker).bind fun _ => ?_
  exact (leads_stage (stays_stagewise.minerTxEnd inputs.1)).mono weaker fun _ _ => id

/-- What is done behind the scan assigns to no offset. -/
def Op.Steady : Op → Prop
  | .read op => op.Steady
  | .openExtra _ => False
  | _ => True

theorem handle_inside {op : Op} (steady : op.Steady) {state : Parsing} (inside : Inside state) :
    Inside (handle wrap env op state).2 := by
  cases op with
  | read inner => exact handleRead_inside steady inside
  | openExtra n => exact steady.elim
  | parsed => exact inside
  | allocate size =>
    simp only [handle]
    split <;> exact inside
  | prefixBytes =>
    simp only [handle]
    split <;> exact inside
  | storeHash i hash =>
    simp only [handle]
    split
    · exact ⟨inside.reader, inside.offsets⟩
    · exact inside
  | unfinished => exact inside

theorem storeHashes_steady (count i : Nat) : (storeHashes count i).All Op.Steady := by
  induction count generalizing i with
  | zero => exact Program.all_pure _
  | succ count ih => exact ⟨trivial, fun hash => ⟨trivial, fun _ => ih (i + 1)⟩⟩

theorem calculateMerkleTreeHash_steady : (calculateMerkleTreeHash env).All Op.Steady := by
  refine ⟨fun _ => rfl, fun _ => ⟨trivial, fun fields => ?_⟩⟩
  change Program.All (I := interface) Op.Steady (if 2 < (fields.numHashes + 1).toNat then _ else _)
  split
  · exact ⟨trivial, fun _ => ⟨fun _ => rfl, fun _ => trivial⟩⟩
  · exact ⟨fun _ => rfl, fun _ => trivial⟩

theorem transactionHashes_steady : (transactionHashes env).All Op.Steady := by
  refine ⟨trivial, fun parsed => ⟨trivial, fun _ => ⟨fun _ => rfl, fun _ => ⟨trivial, fun bytes => ?_⟩⟩⟩⟩
  refine ⟨trivial, fun _ => ?_⟩
  apply Program.all_bind (storeHashes_steady _ _)
  intro _
  exact calculateMerkleTreeHash_steady

theorem runParse_offsets {blob : Buffer} {parsed : Parsed} (hashes : Bool) (rounds : Nat)
    (offsets : ∀ offset, parsed.offsets offset ≤ blob.bytes.length) (offset : Offset) :
    (runParse wrap env coin hashes rounds blob parsed).2.parsed.offsets offset ≤ blob.bytes.length := by
  have hashing : Leads (I := interface) (handle wrap env) Inside (transactionHashes env) (fun _ => Inside) Inside :=
    leads_all (fun _ steady _ inside => handle_inside steady inside) transactionHashes_steady
  have whole : Leads (I := interface) (handle wrap env) Inside (parseBlob env coin hashes rounds) (fun _ => Inside) Inside := by
    unfold parseBlob
    refine (scan_inside rounds).bind fun _ => ?_
    split
    · exact hashing
    · exact leads_pure fun _ inside => inside
  have led := whole (.start blob parsed) (inside_start offsets)
  have same := runParse_blob wrap env coin hashes rounds blob parsed
  unfold runParse at same ⊢
  rcases ran : exec (handle wrap env) (parseBlob env coin hashes rounds) (.start blob parsed) with ⟨why | ⟨⟩, final⟩
  · rw [ran] at led same
    exact same ▸ led.offsets offset
  · rw [ran] at led same
    exact same ▸ led.offsets offset

end Stages

end BlockTemplate

end Xmrig
