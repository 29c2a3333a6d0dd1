import Xmrig.Cryptonote.HashingBlob
import Xmrig.Cryptonote.TemplateOffsets
import Xmrig.Foundation.TwoRuns

/-! Parsing into a template that was used before.

Two parses of one blob, into an old template and into a new one, perform the same operations.
What one of these assigns is the same afterwards; what none assigns is what it was.
-/

set_option autoImplicit false

namespace Xmrig.BlockTemplate

open Foundation

/-- What can be asked of a template after a parse. -/
inductive Field where
  | offset (offset : Offset)
  | minerSignature
  | txExtraNonce
  | txMergeMiningTag
  | numHashes
  | hashes
  | minerTxMerkleTreeBranch
  | rootHash
  deriving DecidableEq

def Field.Agrees : Field → Parsed → Parsed → Prop
  | offset o, p, q => p.offsets o = q.offsets o
  | minerSignature, p, q => p.minerSignature = q.minerSignature
  | txExtraNonce, p, q => p.txExtraNonce = q.txExtraNonce
  | txMergeMiningTag, p, q => p.txMergeMiningTag = q.txMergeMiningTag
  | numHashes, p, q => p.numHashes = q.numHashes
  | hashes, p, q => p.hashes = q.hashes
  | minerTxMerkleTreeBranch, p, q => p.minerTxMerkleTreeBranch = q.minerTxMerkleTreeBranch
  | rootHash, p, q => p.rootHash = q.rootHash

theorem Field.Agrees.refl (field : Field) (p : Parsed) : field.Agrees p p := by
  cases field <;> rfl

theorem Field.Agrees.symm {field : Field} {p q : Parsed} (agrees : field.Agrees p q) : field.Agrees q p := by
  cases field <;> exact Eq.symm agrees

theorem Field.Agrees.trans {field : Field} {p q r : Parsed} (one : field.Agrees p q) (two : field.Agrees q r) :
    field.Agrees p r := by
  cases field <;> exact Eq.trans one two

/-- What an operation does to the fields of a template, with the first reader at a position. -/
def Op.change (op : Op) (i : Nat) : Parsed → Parsed :=
  match op with
  | .read (.update change) => change
  | .openExtra _ => Parsed.setOffset .txExtra i
  | _ => id

/-- The operation assigns to the field. -/
def Op.Assigns (op : Op) (field : Field) : Prop :=
  (∃ i parsed, ¬ field.Agrees (op.change i parsed) parsed) ∨ ((∃ i hash, op = .storeHash i hash) ∧ field = .hashes)

/-- While the table of hashes is filled the assignments to it are looked at as one. -/
def touches (op : Op) (field : Field) : Prop := op.Assigns field ∧ field ≠ .hashes

def agreesIn (field : Field) (s t : Parsing) : Prop := field.Agrees s.parsed t.parsed

section Operations
variable {wrap : Nat → Nat} {env : Env}

theorem handleRead_change (op : ReadOp) (state : Parsing) :
    (handleRead wrap op state).2.parsed = Op.change (.read op) state.ar.index state.parsed := by
  cases op with
  | update change => rfl
  | byte stream => exact complete_parsed
  | varint stream => exact complete_parsed
  | array stream n => exact complete_parsed
  | span stream n => exact complete_parsed
  | skip stream n => exact complete_parsed
  | index stream => rfl
  | endsInZero offset =>
    simp only [handleRead]
    split
    · rfl
    · split <;> rfl
  | leave result => rfl

theorem handle_change (op : Op) (state : Parsing) (kept : ∀ i hash, op ≠ .storeHash i hash) :
    (handle wrap env op state).2.parsed = op.change state.ar.index state.parsed := by
  cases op with
  | read inner => exact handleRead_change inner state
  | openExtra n =>
    apply attachExtra_keeps (P := fun s => s.parsed = Parsed.setOffset .txExtra state.ar.index state.parsed)
      _ _ (fun _ _ => id)
    exact complete_parsed
  | parsed => rfl
  | allocate size =>
    simp only [handle]
    split <;> rfl
  | prefixBytes =>
    simp only [handle]
    split <;> rfl
  | storeHash i hash => exact absurd rfl (kept i hash)
  | unfinished => rfl

theorem handle_unassigned {op : Op} {field : Field} (state : Parsing) (unassigned : ¬ op.Assigns field) :
    field.Agrees (handle wrap env op state).2.parsed state.parsed := by
  rw [Op.Assigns, not_or] at unassigned
  obtain ⟨same, other⟩ := unassigned
  by_cases stores : ∃ i hash, op = .storeHash i hash
  · obtain ⟨i, hash, rfl⟩ := stores
    have notTable : field ≠ .hashes := fun table => other ⟨⟨i, hash, rfl⟩, table⟩
    simp only [handle]
    split
    · cases field with
      | hashes => exact absurd rfl notTable
      | _ => rfl
    · exact .refl field _
  · rw [handle_change op state fun i hash is => stores ⟨i, hash, is⟩]
    exact not_not.mp fun differs => same ⟨_, _, differs⟩

end Operations

/-! ## Operations side by side -/

/-- The states differ in fields that are not known to agree, and in nothing else. -/
structure Knows (known : Field → Prop) (s t : Parsing) : Prop where
  rest : t = { s with parsed := t.parsed }
  agrees : ∀ field, known field → agreesIn field s t

/-- Whatever a change does to a field, it assigns what the known fields decide, or nothing. -/
def Determined (known : Field → Prop) (change : Nat → Parsed → Parsed) : Prop :=
  ∀ p q, (∀ field : Field, known field → field.Agrees p q) → ∀ field : Field,
    (∀ i, field.Agrees (change i p) (change i q)) ∨ ∀ i r, field.Agrees (change i r) r

/-- An operation that looks at no field and whose change is determined. -/
def Op.Plain (known : Field → Prop) (op : Op) : Prop := op.Oblivious ∧ Determined known op.change

section Twins
variable {wrap : Nat → Nat} {env : Env} {known : Field → Prop}

/-- Two runs of an oblivious operation differ in the fields only. -/
theorem handle_beside {op : Op} (oblivious : op.Oblivious) {s t : Parsing} (rest : t = { s with parsed := t.parsed }) :
    (handle wrap env op s).1 = (handle wrap env op t).1 ∧
      (handle wrap env op t).2 = { (handle wrap env op s).2 with parsed := (handle wrap env op t).2.parsed } := by
  obtain ⟨change, outcome, after, same⟩ := handle_transforms wrap env s oblivious
  have first : handle wrap env op s = (outcome, { after with parsed := change s.parsed }) := same s.parsed
  have second : handle wrap env op t = (outcome, { after with parsed := change t.parsed }) := by
    rw [rest]
    exact same t.parsed
  rw [first, second]
  exact ⟨rfl, rfl⟩

theorem change_agrees {change : Nat → Parsed → Parsed} (determined : Determined known change) {p q : Parsed}
    (agrees : ∀ field : Field, known field → field.Agrees p q) {field : Field} (i : Nat)
    (decided : ¬ (∀ i r, field.Agrees (change i r) r) ∨ field.Agrees p q) :
    field.Agrees (change i p) (change i q) := by
  rcases determined p q agrees field with same | kept
  · exact same i
  · rcases decided with assigned | before
    · exact absurd kept assigned
    · exact (kept i p).trans (before.trans (kept i q).symm)

theorem oblivious_stores {op : Op} (oblivious : op.Oblivious) (i : Nat) (hash : List Byte) : op ≠ .storeHash i hash := by
  rintro rfl
  exact oblivious

theorem plain_step {op : Op} (plain : op.Plain known) {s t : Parsing} (related : Knows known s t) :
    (handle wrap env op s).1 = (handle wrap env op t).1 ∧
      Settled (I := interface) Op.Assigns agreesIn [op] s t (handle wrap env op s).2 (handle wrap env op t).2 ∧
      Knows known (handle wrap env op s).2 (handle wrap env op t).2 := by
  obtain ⟨outcome, rest⟩ := @handle_beside wrap env _ plain.1 _ _ related.rest
  have stores := oblivious_stores plain.1
  have position : t.ar = s.ar := by rw [related.rest]
  have changed : ∀ field : Field, ¬ (∀ i r, field.Agrees (op.change i r) r) ∨ agreesIn field s t →
      agreesIn field (handle wrap env op s).2 (handle wrap env op t).2 := by
    intro field decided
    rw [agreesIn, handle_change op s stores, handle_change op t stores, position]
    exact change_agrees plain.2 related.agrees s.ar.index decided
  refine ⟨outcome, ?_, rest, fun field here => changed field (.inr (related.agrees field here))⟩
  rintro field (⟨other, member, touched⟩ | before)
  · obtain rfl := List.mem_singleton.mp member
    rcases touched with ⟨i, parsed, differs⟩ | ⟨⟨i, hash, stored⟩, -⟩
    · exact changed field (.inl fun kept => differs (kept i parsed))
    · exact absurd stored (stores i hash)
  · exact changed field (.inr before)

variable (wrap env) in
/-- Side by side, under the handler of the parse. -/
abbrev Beside (touched : Op → Field → Prop) {A : Type} (K : Parsing → Parsing → Prop) (first second : Parser A) (L : Parsing → Parsing → Prop) : Prop :=
  Twin (I := interface) (handle wrap env) touched agreesIn K first second L

theorem plain_all {A : Type} {parser : Parser A} (all : parser.All (Op.Plain known)) :
    Beside wrap env Op.Assigns (Knows known) parser parser (Knows known) := by
  refine twin_all (fun op plain s t related => ?_) all
  obtain ⟨outcome, settled, knows⟩ := @plain_step wrap env known op plain s t related
  exact ⟨outcome, settled, fun _ _ => knows⟩

theorem Knows.mono {less : Field → Prop} {s t : Parsing} (knows : Knows known s t) (implies : ∀ field, less field → known field) :
    Knows less s t :=
  ⟨knows.rest, fun field here => knows.agrees field (implies field here)⟩

theorem plain_of_id {op : Op} (oblivious : op.Oblivious) (same : op.change = fun _ => id) : op.Plain known := by
  refine ⟨oblivious, fun p q _ field => .inr fun i r => ?_⟩
  rw [same]
  exact .refl field r

theorem plain_update {change : Parsed → Parsed}
    (each : ∀ field : Field, (∀ p q, field.Agrees (change p) (change q)) ∨ ∀ r, field.Agrees (change r) r) :
    Op.Plain known (.read (.update change)) := by
  refine ⟨trivial, fun p q _ field => ?_⟩
  rcases each field with same | kept
  · exact .inl fun _ => same p q
  · exact .inr fun _ => kept

theorem setOffset_agrees {offset other : Offset} {i j : Nat} {p q : Parsed} (same : offset = other → i = j)
    (before : offset ≠ other → p.offsets other = q.offsets other) :
    Field.Agrees (.offset other) (p.setOffset offset i) (q.setOffset offset j) := by
  by_cases here : offset = other
  · rw [here, same here]
    simp [Field.Agrees, Parsed.setOffset]
  · simp [Field.Agrees, Parsed.setOffset, Function.update_of_ne (Ne.symm here), before here]

theorem setOffset_kept {offset : Offset} {field : Field} (other : field ≠ .offset offset) (i : Nat) (p : Parsed) :
    field.Agrees (p.setOffset offset i) p := by
  cases field with
  | offset o =>
    have differs : o ≠ offset := fun same => other (congrArg Field.offset same)
    simp [Field.Agrees, Parsed.setOffset, Function.update_of_ne differs]
  | _ => rfl

theorem plain_setOffset (offset : Offset) (i : Nat) : Op.Plain known (.read (.update (Parsed.setOffset offset i))) := by
  refine plain_update fun field => ?_
  by_cases here : field = .offset offset
  · rw [here]
    exact .inl fun p q => setOffset_agrees (fun _ => rfl) fun other => absurd rfl other
  · exact .inr (setOffset_kept here i)

theorem plain_setOffset_extra (extra : known (.offset .txExtra)) (offset : Offset) (i : Nat) :
    Op.Plain known (.read (.update fun p => p.setOffset offset (p.offsets .txExtra + i))) := by
  refine ⟨trivial, fun p q agrees field => ?_⟩
  by_cases here : field = .offset offset
  · rw [here]
    have same : p.offsets .txExtra = q.offsets .txExtra := agrees _ extra
    refine .inl fun _ => setOffset_agrees (fun _ => ?_) fun other => absurd rfl other
    rw [same]
  · exact .inr fun _ r => setOffset_kept here _ r

theorem plain_openExtra (n : BitVec 64) : Op.Plain known (.openExtra n) := by
  refine ⟨trivial, fun p q _ field => ?_⟩
  by_cases here : field = .offset .txExtra
  · rw [here]
    exact .inl fun i => setOffset_agrees (fun _ => rfl) fun other => absurd rfl other
  · exact .inr fun i r => setOffset_kept here i r

end Twins

/-! ## The stages -/

/-- A read or an update of a stage that is plain. -/
def ReadOp.Plain (known : Field → Prop) (op : ReadOp) : Prop := Op.Plain known (.read op)

section Stages
variable {wrap : Nat → Nat} {env : Env} {known : Field → Prop} {coin : Coin}

theorem plain_stage {A : Type} {scanner : Scanner A}
    (all : Program.All (I := readInterface) (ReadOp.Plain known) scanner) :
    Beside wrap env Op.Assigns (Knows known) (stage scanner) (stage scanner) (Knows known) :=
  plain_all (all_stage_of (fun _ => id) all)

theorem plain_sets {change : Parsed → Parsed} (sets : SetsField change) : Op.Plain known (.read (.update change)) := by
  apply plain_update
  intro field
  cases sets with
  | numHashes numHashes =>
    cases field with
    | numHashes => exact .inl fun _ _ => rfl
    | _ => exact .inr fun _ => rfl
  | txExtraNonce range =>
    cases field with
    | txExtraNonce => exact .inl fun _ _ => rfl
    | _ => exact .inr fun _ => rfl
  | txMergeMiningTag range =>
    cases field with
    | txMergeMiningTag => exact .inl fun _ _ => rfl
    | _ => exact .inr fun _ => rfl
  | _ => exact .inr fun _ => by cases field <;> rfl

theorem plain_setsHeader {change : Parsed → Parsed} (sets : SetsHeader change) : Op.Plain known (.read (.update change)) := by
  apply plain_update
  intro field
  cases sets with
  | minerSignature range =>
    cases field with
    | minerSignature => exact .inl fun _ _ => rfl
    | _ => exact .inr fun _ => rfl
  | _ => exact .inr fun _ => by cases field <;> rfl

theorem plain_stagewise : Stagewise fun {A} (scanner : Scanner A) =>
    Program.All (I := readInterface) (ReadOp.Plain known) scanner := by
  apply stagewise_all
  · intro op reads
    cases op with
    | update change => exact reads.elim
    | _ => exact plain_of_id trivial rfl
  · exact fun _ => plain_of_id trivial rfl
  · exact fun offset i _ => plain_setOffset offset i
  · exact fun _ sets => plain_sets sets

theorem header_plain : Program.All (I := readInterface) (ReadOp.Plain known) (header coin) :=
  plain_stagewise.header
    (Program.all_bind (Program.all_perform.mpr (plain_of_id trivial rfl)) fun i =>
      Program.all_perform.mpr (plain_setOffset .nonce i))
    fun _ sets => Program.all_perform.mpr (plain_setsHeader sets)

theorem extraField_plain (extra : known (.offset .txExtra)) (first : Bool) :
    Program.All (I := readInterface) (ReadOp.Plain known) (extraField first) :=
  plain_stagewise.extraField (fun offset _ =>
    Program.all_bind (Program.all_perform.mpr (plain_of_id trivial rfl)) fun i =>
      Program.all_perform.mpr (plain_setOffset_extra extra offset i)) first

theorem extraFields_plain (extra : known (.offset .txExtra)) (extraSize : BitVec 64) (rounds : Nat) (first : Bool) :
    (extraFields extraSize rounds first).All (Op.Plain known) := by
  induction rounds generalizing first with
  | zero => exact ⟨plain_of_id trivial rfl, fun reply => reply.elim⟩
  | succ rounds ih =>
    unfold extraFields
    apply Program.all_bind (all_stage_of (fun _ => id) (Program.all_perform.mpr (plain_of_id trivial rfl)))
    intro i
    split
    · exact Program.all_bind (all_stage_of (fun _ => id) (extraField_plain extra first)) ih
    · exact Program.all_pure _

/-! What is assigned on every way through a stage. -/

theorem always_stage {A : Type} {P : Op → Prop} {scanner : Scanner A}
    (always : Always (I := readInterface) (handleRead wrap) (fun op => P (.read op)) scanner) :
    Always (I := interface) (handle wrap env) P (stage scanner) := by
  intro state value ends
  rw [exec_stage] at ends
  obtain ⟨op, member, here⟩ := always state value ends
  refine ⟨.read op, ?_, here⟩
  have same := @performed_interpret interface _ _ _ (handle wrap env) readInterface (handleRead wrap)
    (fun op => Program.perform (I := interface) (.read op)) Op.read
    (fun op s => exec_perform (I := interface) (.read op) s) (fun op s => performed_perform (I := interface) (.read op) s)
    scanner state
  rw [stage, same]
  exact List.mem_map_of_mem member

theorem assigns_setOffset (offset : Offset) (i : Nat) : Op.Assigns (.read (.update (Parsed.setOffset offset i))) (.offset offset) := by
  refine .inl ⟨0, { offsets := fun _ => i % 2 ^ 32 + 1 }, ?_⟩
  simp [Field.Agrees, Op.change, Parsed.setOffset]

theorem assigns_numHashes (numHashes : BitVec 64) : Op.Assigns (.read (.update fun p => { p with numHashes })) .numHashes := by
  refine .inl ⟨0, { numHashes := numHashes + 1#64 }, ?_⟩
  simp [Field.Agrees, Op.change]

theorem always_markOffset (offset : Offset) : Always (I := readInterface) (handleRead wrap)
    (fun op => Op.Assigns (.read op) (.offset offset)) (markOffset offset) := by
  unfold markOffset
  exact Always.behind fun i => always_perform (assigns_setOffset offset i)

theorem always_leave {A : Type} {P : ReadOp → Prop} (result : Bool) :
    Always (I := readInterface) (handleRead wrap) P (leave result : Scanner A) :=
  always_of_stops fun _ _ ends => by cases ends

theorem minerTxInputs_marks : Always (I := readInterface) (handleRead wrap)
    (fun op => Op.Assigns (.read op) (.offset .minerTxPrefix)) (minerTxInputs coin) := by
  unfold minerTxInputs
  exact (always_markOffset .minerTxPrefix).front _

theorem openExtra_marks (n : BitVec 64) :
    Always (I := interface) (handle wrap env) (Op.Assigns · (.offset .txExtra)) (openExtra n) := by
  refine always_perform (.inl ⟨0, { offsets := fun _ => 1 }, ?_⟩)
  simp [Field.Agrees, Op.change, Parsed.setOffset]

theorem minerTxEnd_marks (height : BitVec 64) : Always (I := readInterface) (handleRead wrap)
    (fun op => Op.Assigns (.read op) (.offset .minerTxPrefixEnd)) (minerTxEnd coin height) := by
  unfold minerTxEnd
  dsimp only
  repeat' first
    | exact (always_perform (assigns_setOffset .minerTxPrefixEnd _)).front _
    | refine Always.behind fun _ => ?_
    | split

theorem minerTxEnd_counts (height : BitVec 64) : Always (I := readInterface) (handleRead wrap)
    (fun op => Op.Assigns (.read op) .numHashes) (minerTxEnd coin height) := by
  unfold minerTxEnd
  dsimp only
  repeat' first
    | exact always_perform (assigns_numHashes _)
    | exact (always_leave _).front _
    | refine Always.behind fun _ => ?_
    | split

theorem Beside.learns {A : Type} {parser : Parser A} {later : Field → Prop} {field : Field}
    (beside : Beside wrap env Op.Assigns (Knows known) parser parser (Knows later))
    (always : Always (I := interface) (handle wrap env) (Op.Assigns · field) parser) :
    Beside wrap env Op.Assigns (Knows known) parser parser (Knows fun other => later other ∨ other = field) := by
  refine (Twin.learn beside always).mono (fun _ _ => id) fun s t learned => ⟨learned.1.rest, ?_⟩
  rintro other (old | rfl)
  · exact learned.1.agrees other old
  · exact learned.2

/-- The fields that the transaction hashes are computed from. -/
def Located (field : Field) : Prop :=
  field = .offset .minerTxPrefix ∨ field = .offset .minerTxPrefixEnd ∨ field = .numHashes

theorem minerTxEnd_beside (height : BitVec 64) :
    Beside wrap env Op.Assigns (Knows known) (stage (minerTxEnd coin height)) (stage (minerTxEnd coin height))
      (Knows fun field => (known field ∨ field = .offset .minerTxPrefixEnd) ∨ field = .numHashes) :=
  ((plain_stage (plain_stagewise.minerTxEnd height)).learns (always_stage (minerTxEnd_marks height))).learns
    (always_stage (minerTxEnd_counts height))

theorem minerTx_beside (rounds : Nat) :
    Beside wrap env Op.Assigns (Knows known) (minerTx coin rounds) (minerTx coin rounds) (Knows Located) := by
  unfold minerTx
  apply Twin.bind ((plain_stage plain_stagewise.minerTxInputs).learns (always_stage minerTxInputs_marks))
  intro inputs
  apply Twin.bind (plain_stage (plain_stagewise.minerTxOutputs inputs.2))
  intro extraSize
  apply Twin.bind (Beside.learns (plain_all (Program.all_perform.mpr (plain_openExtra extraSize))) (openExtra_marks extraSize))
  intro _
  apply Twin.bind (plain_all (extraFields_plain (.inr rfl) extraSize rounds true))
  intro _
  refine (minerTxEnd_beside inputs.1).mono (fun _ _ => id) fun s t knows => knows.mono ?_
  rintro field (rfl | rfl | rfl)
  · exact .inl (.inl (.inl (.inr rfl)))
  · exact .inl (.inr rfl)
  · exact .inr rfl

theorem scan_beside (rounds : Nat) :
    Beside wrap env Op.Assigns (Knows known) (scan coin rounds) (scan coin rounds) (Knows Located) :=
  (plain_stage header_plain).bind fun _ => minerTx_beside rounds

end Stages

/-! ## The transaction hashes -/

/-- Both tables have the size and the same bytes up to a length. -/
structure Filled (size filled : Nat) (s t : Parsing) : Prop where
  knows : Knows Located s t
  first : s.parsed.hashes.length = size
  second : t.parsed.hashes.length = size
  alike : s.parsed.hashes.take filled = t.parsed.hashes.take filled

section Hashes
variable {wrap : Nat → Nat} {env : Env} {A : Type} {K L : Parsing → Parsing → Prop} {size i : Nat}

theorem not_touches {op : Op} (kept : ∀ i p (field : Field), field ≠ .hashes → field.Agrees (op.change i p) p)
    (field : Field) : ¬ touches op field := by
  rintro ⟨⟨i, p, differs⟩ | ⟨-, table⟩, other⟩
  · exact differs (kept i p field other)
  · exact other table

theorem beside_readParsed {first second : Parsed → Parser A}
    (rest : ∀ s t, K s t → Beside wrap env touches (fun s' t' => s' = s ∧ t' = t) (first s.parsed) (second t.parsed) L) :
    Beside wrap env touches K (readParsed >>= first) (readParsed >>= second) L := by
  intro s t related
  obtain ⟨outcome, operations, settled, ends⟩ := rest s t related s t ⟨rfl, rfl⟩
  refine ⟨outcome, congrArg (Op.parsed :: ·) operations, ?_, ends⟩
  rintro field (⟨op, member, touched⟩ | kept)
  · rcases List.mem_cons.mp member with rfl | later
    · exact absurd touched (@not_touches .parsed (fun _ p field _ => .refl field p) field)
    · exact settled field (.inl ⟨op, later, touched⟩)
  · exact settled field (.inr kept)

theorem settled_table {op : Op} {s t s' t' : Parsing}
    (others : ∀ i p (field : Field), field ≠ .hashes → field.Agrees (op.change i p) p)
    (one : ∀ field : Field, field ≠ .hashes → field.Agrees s'.parsed s.parsed)
    (two : ∀ field : Field, field ≠ .hashes → field.Agrees t'.parsed t.parsed)
    (table : s.parsed.hashes = t.parsed.hashes → s'.parsed.hashes = t'.parsed.hashes) :
    Settled (I := interface) touches agreesIn [op] s t s' t' := by
  rintro field (⟨other, member, touched⟩ | kept)
  · obtain rfl := List.mem_singleton.mp member
    exact absurd touched (not_touches others field)
  · by_cases here : field = .hashes
    · subst here
      exact table kept
    · exact (one field here).trans (kept.trans (two field here).symm)

theorem located_ne_hashes {field : Field} (located : Located field) : field ≠ .hashes := by
  rcases located with rfl | rfl | rfl <;> simp

theorem located_kept {s t s' t' : Parsing} (knows : Knows Located s t) (rest : t' = { s' with parsed := t'.parsed })
    (one : ∀ field : Field, field ≠ .hashes → field.Agrees s'.parsed s.parsed)
    (two : ∀ field : Field, field ≠ .hashes → field.Agrees t'.parsed t.parsed) : Knows Located s' t' := by
  refine ⟨rest, fun field located => ?_⟩
  have other := located_ne_hashes located
  exact (one field other).trans ((knows.agrees field located).trans (two field other).symm)

/-- `m_hashes.resize(...)`. -/
theorem resize_beside (size : Nat) :
    Beside wrap env touches (Knows Located) (stage (update fun p => { p with hashes := Cvt.resize p.hashes size }))
      (stage (update fun p => { p with hashes := Cvt.resize p.hashes size })) (Filled size 0) := by
  have others (p : Parsed) (field : Field) (other : field ≠ .hashes) :
      field.Agrees { p with hashes := Cvt.resize p.hashes size } p := by
    cases field with
    | hashes => exact absurd rfl other
    | _ => rfl
  refine twin_perform fun s t knows =>
    ⟨rfl, settled_table (fun _ => others) (others _) (others _) fun same => ?_, fun _ _ => ?_⟩
  · exact congrArg (Cvt.resize · size) same
  · have rest : t = { s with parsed := t.parsed } := knows.rest
    refine ⟨located_kept knows ?_ (others _) (others _), Cvt.resize_length _ _, Cvt.resize_length _ _, rfl⟩
    exact congrArg (fun r : Parsing => { r with parsed := { t.parsed with hashes := Cvt.resize t.parsed.hashes size } }) rest

theorem prefixBytes_beside {filled : Nat} :
    Beside wrap env touches (Filled size filled) prefixBytes prefixBytes (Filled size filled) := by
  refine twin_perform fun s t related => ?_
  have begins : s.parsed.offsets .minerTxPrefix = t.parsed.offsets .minerTxPrefix := related.knows.agrees _ (.inl rfl)
  have ends : s.parsed.offsets .minerTxPrefixEnd = t.parsed.offsets .minerTxPrefixEnd :=
    related.knows.agrees _ (.inr (.inl rfl))
  have long : prefixLength s.parsed = prefixLength t.parsed := by rw [prefixLength, prefixLength, begins, ends]
  have blob : t.blob = s.blob := by rw [related.knows.rest]
  have inside : PrefixInBlob t ↔ PrefixInBlob s := by rw [PrefixInBlob, PrefixInBlob, long, begins, blob]
  have still (r : Parsing) : (handle wrap env .prefixBytes r).2 = r := by
    simp only [handle]
    split <;> rfl
  rw [still, still]
  refine ⟨?_, settled_table (fun _ p field _ => .refl field p) (fun field _ => .refl field _)
    (fun field _ => .refl field _) id, fun _ _ => related⟩
  simp only [handle, inside]
  rw [begins, long, blob]
  split <;> rfl

def stored (table : List Byte) (i : Nat) (hash : List Byte) : List Byte :=
  table.take (i * 32) ++ Cvt.resize hash 32 ++ table.drop ((i + 1) * 32)

theorem stored_length {table : List Byte} (hash : List Byte) (inside : (i + 1) * 32 ≤ table.length) :
    (stored table i hash).length = table.length := by
  simp only [stored, List.length_append, List.length_take, Cvt.resize_length, List.length_drop]
  omega

theorem stored_take {table : List Byte} (hash : List Byte) (inside : (i + 1) * 32 ≤ table.length) :
    (stored table i hash).take ((i + 1) * 32) = table.take (i * 32) ++ Cvt.resize hash 32 := by
  have long : (table.take (i * 32) ++ Cvt.resize hash 32).length = (i + 1) * 32 := by
    rw [List.length_append, List.length_take, Cvt.resize_length]
    omega
  rw [stored, ← long, List.take_left]

theorem storeHash_beside (i : Nat) (hash : List Byte) :
    Beside wrap env touches (Filled size (i * 32)) (storeHash i hash) (storeHash i hash) (Filled size ((i + 1) * 32)) := by
  refine twin_perform fun s t related => ?_
  have same (r : Parsing) (field : Field) (other : field ≠ .hashes) :
      field.Agrees { r.parsed with hashes := stored r.parsed.hashes i hash } r.parsed := by
    cases field with
    | hashes => exact absurd rfl other
    | _ => rfl
  by_cases inside : (i + 1) * 32 ≤ size
  · have one : handle wrap env (.storeHash i hash) s =
        (.ok (), { s with parsed := { s.parsed with hashes := stored s.parsed.hashes i hash } }) :=
      if_pos (related.first ▸ inside)
    have two : handle wrap env (.storeHash i hash) t =
        (.ok (), { t with parsed := { t.parsed with hashes := stored t.parsed.hashes i hash } }) :=
      if_pos (related.second ▸ inside)
    rw [one, two]
    refine ⟨rfl, settled_table (fun _ p field _ => .refl field p) (same s) (same t) fun table => ?_, fun _ _ => ?_⟩
    · exact congrArg (stored · i hash) table
    · have rest := congrArg (fun r : Parsing => { r with parsed := { t.parsed with hashes := stored t.parsed.hashes i hash } })
        related.knows.rest
      refine ⟨located_kept related.knows rest (same s) (same t), ?_, ?_, ?_⟩
      · exact (stored_length hash (related.first ▸ inside)).trans related.first
      · exact (stored_length hash (related.second ▸ inside)).trans related.second
      · rw [stored_take hash (related.first ▸ inside), stored_take hash (related.second ▸ inside), related.alike]
  · have one : handle wrap env (.storeHash i hash) s = (.error .fault, s) := if_neg (related.first ▸ inside)
    have two : handle wrap env (.storeHash i hash) t = (.error .fault, t) := if_neg (related.second ▸ inside)
    rw [one, two]
    exact ⟨rfl, settled_table (fun _ p field _ => .refl field p) (fun field _ => .refl field _)
      (fun field _ => .refl field _) id, fun _ none => by cases none⟩

theorem still_beside {filled : Nat} {parser : Parser A} (all : parser.All fun op : Op => op.Oblivious ∧ op.change = fun _ => id) :
    Beside wrap env touches (Filled size filled) parser parser (Filled size filled) := by
  refine Twin.less (twin_all (fun op still s t related => ?_) all) fun _ _ => And.left
  obtain ⟨outcome, settled, knows⟩ := @plain_step wrap env Located op (plain_of_id still.1 still.2) s t related.knows
  have parsed (r : Parsing) : (handle wrap env op r).2.parsed = r.parsed := by
    rw [handle_change op r (oblivious_stores still.1), still.2]
    rfl
  refine ⟨outcome, settled, fun _ _ => ⟨knows, ?_, ?_, ?_⟩⟩
  · rw [parsed]
    exact related.first
  · rw [parsed]
    exact related.second
  · rw [parsed, parsed]
    exact related.alike

theorem storeHashes_beside (count i : Nat) :
    Beside wrap env touches (Filled size (i * 32)) (storeHashes count i) (storeHashes count i) (Filled size ((i + count) * 32)) := by
  induction count generalizing i with
  | zero => exact twin_pure () fun _ _ => id
  | succ count ih =>
    unfold storeHashes
    apply Twin.bind (still_beside (all_stage_of (fun _ => id) (Program.all_perform.mpr ⟨trivial, rfl⟩)))
    intro hash
    apply Twin.bind (storeHash_beside i hash)
    intro _
    have rest := ih (i + 1)
    rw [Nat.add_right_comm] at rest
    exact rest

theorem tableSize_le (numHashes : BitVec 64) : tableSize numHashes ≤ (1 + numHashes.toNat) * 32 := by
  unfold tableSize
  rw [BitVec.toNat_mul, BitVec.toNat_add]
  change (((numHashes.toNat + 1) % 2 ^ 64) * 32) % 2 ^ 64 ≤ (1 + numHashes.toNat) * 32
  omega

/-- What the transaction hashes are computed from, and they. -/
def Hashed (field : Field) : Prop := Located field ∨ field = .hashes

theorem Filled.whole {s t : Parsing} {numHashes : BitVec 64}
    (filled : Filled (tableSize numHashes) ((1 + numHashes.toNat) * 32) s t) : Knows Hashed s t := by
  refine ⟨filled.knows.rest, ?_⟩
  rintro field (located | rfl)
  · exact filled.knows.agrees field located
  · have bound := tableSize_le numHashes
    have alike := filled.alike
    rw [List.take_of_length_le (filled.first ▸ bound), List.take_of_length_le (filled.second ▸ bound)] at alike
    exact alike

theorem calculateMerkleTreeHash_beside :
    Beside wrap env touches (Knows Hashed) (calculateMerkleTreeHash env) (calculateMerkleTreeHash env) (Knows Hashed) := by
  unfold calculateMerkleTreeHash
  have cleared : Op.Plain Hashed (.read (.update fun p => { p with minerTxMerkleTreeBranch := [] })) :=
    plain_update fun field => by cases field <;> first | exact .inr fun _ => rfl | exact .inl fun _ _ => rfl
  apply Twin.bind ((plain_stage (Program.all_perform.mpr cleared)).less fun _ _ => And.left)
  intro _
  apply beside_readParsed
  intro s t knows
  have count : s.parsed.numHashes = t.parsed.numHashes := knows.agrees _ (.inl (.inr (.inr rfl)))
  have table : s.parsed.hashes = t.parsed.hashes := knows.agrees _ (.inr rfl)
  rw [count, table]
  have here (s' t' : Parsing) (same : s' = s ∧ t' = t) : Knows Hashed s' t' := by
    rw [same.1, same.2]
    exact knows
  refine Twin.less (Twin.mono (plain_all ?_) here fun _ _ => id) fun _ _ => And.left
  have tree (branch root : List Byte) : Op.Plain Hashed (.read (.update fun p =>
      { p with minerTxMerkleTreeBranch := branch, rootHash := root })) :=
    plain_update fun field => by cases field <;> first | exact .inr fun _ => rfl | exact .inl fun _ _ => rfl
  change Program.All (I := interface) _ (if 2 < (t.parsed.numHashes + 1).toNat then _ else _)
  split
  · exact ⟨plain_of_id trivial rfl, fun _ => ⟨tree _ _, fun _ => trivial⟩⟩
  · exact ⟨tree _ _, fun _ => trivial⟩

theorem transactionHashes_beside :
    Beside wrap env touches (Knows Located) (transactionHashes env) (transactionHashes env) (Knows Hashed) := by
  unfold transactionHashes
  apply beside_readParsed
  intro s t knows
  have count : s.parsed.numHashes = t.parsed.numHashes := knows.agrees _ (.inr (.inr rfl))
  rw [count]
  have allocated : Beside wrap env touches (Knows Located) (allocate (tableSize t.parsed.numHashes))
      (allocate (tableSize t.parsed.numHashes)) (Knows Located) :=
    Twin.less (plain_all (Program.all_perform.mpr (plain_of_id trivial rfl))) fun _ _ => And.left
  refine Twin.bind (allocated.mono (fun s' t' same => by rw [same.1, same.2]; exact knows) (fun _ _ => id)) ?_
  intro _
  apply Twin.bind (resize_beside _)
  intro _
  apply Twin.bind prefixBytes_beside
  intro bytes
  apply Twin.bind (storeHash_beside 0 _)
  intro _
  apply Twin.bind ((storeHashes_beside t.parsed.numHashes.toNat 1).mono (fun _ _ => id) fun _ _ => Filled.whole)
  intro _
  exact calculateMerkleTreeHash_beside

theorem handle_hashing_not_returned {op : Op} (hashing : op.Hashing) (state : Parsing) (value : Bool) :
    (handle wrap env op state).1 ≠ .error (.returned value) := by
  match op, hashing with
  | .read (.array stream n), _ => exact complete_not_returned value
  | .read (.update change), _ => exact fun ends => by cases ends
  | .parsed, _ => exact fun ends => by cases ends
  | .allocate size, _ =>
    simp only [handle]
    split <;> exact fun ends => by cases ends
  | .prefixBytes, _ =>
    simp only [handle]
    split <;> exact fun ends => by cases ends
  | .storeHash i hash, _ =>
    simp only [handle]
    split <;> exact fun ends => by cases ends

theorem transactionHashes_not_returned (state : Parsing) (value : Bool) :
    (exec (handle wrap env) (transactionHashes env) state).1 ≠ .error (.returned value) := by
  have kept := exec_keeps (handle wrap env) (fun _ => True) (fun why => why ≠ .returned value)
    (fun op s hashing _ => ⟨trivial, fun why stopped returned =>
      handle_hashing_not_returned hashing s value (returned ▸ stopped)⟩) (transactionHashes_hashing env) state trivial
  exact fun stopped => kept.2 _ stopped rfl

end Hashes

/-! ## The whole parse -/

section Whole
variable {wrap : Nat → Nat} {env : Env} {coin : Coin} {rounds : Nat} {known : Field → Prop}

theorem parseBlob_beside (hashes : Bool) :
    Beside wrap env touches (Knows known) (parseBlob env coin hashes rounds) (parseBlob env coin hashes rounds)
      fun s t => hashes = true → agreesIn .hashes s t := by
  unfold parseBlob
  apply Twin.bind (Twin.less (scan_beside rounds) fun _ _ => And.left)
  intro _
  cases hashes with
  | false => exact twin_pure () fun _ _ _ none => by cases none
  | true => exact transactionHashes_beside.mono (fun _ _ => id) fun s t knows _ => knows.agrees .hashes (.inr rfl)

theorem parseBlob_scan {hashes : Bool} {s : Parsing}
    (ends : ¬ (hashes = true ∧ (exec (handle wrap env) (scan coin rounds) s).1 = .ok ())) :
    exec (handle wrap env) (parseBlob env coin hashes rounds) s = exec (handle wrap env) (scan coin rounds) s ∧
      performed (handle wrap env) (parseBlob env coin hashes rounds) s =
        performed (handle wrap env) (scan coin rounds) s := by
  unfold parseBlob
  rw [exec_bind, performed_bind]
  rcases scanned : exec (handle wrap env) (scan coin rounds) s with ⟨why | ⟨⟩, middle⟩
  · exact ⟨rfl, List.append_nil _⟩
  · cases hashes with
    | false => exact ⟨rfl, List.append_nil _⟩
    | true => exact absurd ⟨rfl, by rw [scanned]⟩ ends

theorem table_agrees {hashes : Bool} {s t : Parsing} (related : Knows known s t)
    (accepted : Accepted (exec (handle wrap env) (parseBlob env coin hashes rounds) s).1)
    (assigned : ∃ op ∈ performed (handle wrap env) (parseBlob env coin hashes rounds) s, op.Assigns .hashes) :
    agreesIn .hashes (exec (handle wrap env) (parseBlob env coin hashes rounds) s).2
      (exec (handle wrap env) (parseBlob env coin hashes rounds) t).2 := by
  by_cases goes : hashes = true ∧ (exec (handle wrap env) (scan coin rounds) s).1 = .ok ()
  · obtain ⟨rfl, scanned⟩ := goes
    obtain ⟨_, _, _, whole⟩ := @parseBlob_beside wrap env coin rounds known true s t related
    rcases accepted with done | returned
    · exact whole () done rfl
    · unfold parseBlob at returned
      rw [exec_bind] at returned
      rcases ran : exec (handle wrap env) (scan coin rounds) s with ⟨why | ⟨⟩, middle⟩
      · rw [ran] at scanned
        cases scanned
      · rw [ran] at returned
        exact absurd returned (transactionHashes_not_returned middle true)
  · obtain ⟨outcome, _, settled, _⟩ := @scan_beside wrap env known coin rounds s t related
    obtain ⟨one, operations⟩ := @parseBlob_scan wrap env coin rounds hashes s goes
    obtain ⟨two, _⟩ := @parseBlob_scan wrap env coin rounds hashes t (outcome ▸ goes)
    rw [operations] at assigned
    rw [one, two]
    exact settled .hashes (.inl assigned)

/-- Two parses of one blob: the same outcome, and each field is the same afterwards
if and only if it was assigned or was the same before. -/
theorem runParse_agrees (hashes : Bool) (blob : Buffer) (p q : Parsed) :
    (runParse wrap env coin hashes rounds blob p).1 = (runParse wrap env coin hashes rounds blob q).1 ∧
      (Accepted (runParse wrap env coin hashes rounds blob p).1 → ∀ field : Field,
        field.Agrees (runParse wrap env coin hashes rounds blob p).2.parsed
            (runParse wrap env coin hashes rounds blob q).2.parsed ↔
          (∃ op ∈ performed (handle wrap env) (parseBlob env coin hashes rounds) (.start blob q), op.Assigns field) ∨
            field.Agrees p q) := by
  have related : Knows (fun _ => False) (.start blob p) (.start blob q) := ⟨rfl, fun _ none => none.elim⟩
  obtain ⟨outcome, operations, settled, _⟩ :=
    @parseBlob_beside wrap env coin rounds _ hashes (.start blob p) (.start blob q) related
  refine ⟨outcome, fun accepted field => ⟨fun agrees => ?_, fun decided => ?_⟩⟩
  · by_contra neither
    rw [not_or] at neither
    have untouched (s : Parsing)
        (same : performed (handle wrap env) (parseBlob env coin hashes rounds) s =
          performed (handle wrap env) (parseBlob env coin hashes rounds) (.start blob q)) :
        agreesIn field (exec (handle wrap env) (parseBlob env coin hashes rounds) s).2 s := by
      refine @exec_untouched interface _ _ _ (handle wrap env) _ Op.Assigns agreesIn field (fun s => .refl field s.parsed)
        (fun _ _ _ one two => one.trans two) (fun op state => handle_unassigned state) _ s fun op member assigns => ?_
      exact neither.1 ⟨op, same ▸ member, assigns⟩
    exact neither.2 ((untouched (.start blob p) operations).symm.trans (agrees.trans (untouched (.start blob q) rfl)))
  · by_cases table : field = .hashes
    · subst table
      rcases decided with assigned | before
      · exact table_agrees related accepted (operations ▸ assigned)
      · exact settled .hashes (.inr before)
    · refine settled field (decided.imp_left ?_)
      rintro ⟨op, member, assigns⟩
      exact ⟨op, operations ▸ member, assigns, table⟩

end Whole

/-- The blob template of a call, as bytes or as hexadecimal text. -/
inductive Input where
  | bytes (blob : Buffer)
  | hex (text : List Byte)

def Input.blob : Input → List Byte
  | bytes blob => blob.bytes
  | hex text => (Cvt.fromHex [] text).1

/-- The call of `parse` on a template. -/
def Input.parse (env : Env) (input : Input) (template : BlockTemplate) (coin : Coin) (hashes : Bool) (rounds : Nat) : Report :=
  match input with
  | bytes blob => template.parse env blob coin hashes rounds
  | hex text => template.parseHex env text coin hashes rounds

section Inputs
variable {env : Env} {coin : Coin} {hashes : Bool} {rounds : Nat}

/-- The same result as with a fresh template, and then the same fields, with all offsets in the blob. -/
def Fresh (env : Env) (template : BlockTemplate) (input : Input) (coin : Coin) (hashes : Bool) (rounds : Nat) : Prop :=
  let used := input.parse env template coin hashes rounds
  let fresh := input.parse env {} coin hashes rounds
  result used.outcome = result fresh.outcome ∧
    (result used.outcome = some true → (∀ field : Field, field.Agrees used.template.parsed fresh.template.parsed) ∧
      ∀ offset, used.template.parsed.offsets offset ≤ used.template.blob.length)

/-- The parse of the blob comes to a statement that assigns to the field. -/
def Writes (env : Env) (blob : Buffer) (coin : Coin) (hashes : Bool) (rounds : Nat) (field : Field) : Prop :=
  ∃ op ∈ performed (handle sizeT env) (parseBlob env coin hashes rounds) (.start blob {}), op.Assigns field

theorem runs_fresh_iff (template : BlockTemplate) {blob : Buffer} {used fresh : Report}
    (one : used = ⟨(runParse sizeT env coin hashes rounds blob template.parsed).1,
      ⟨blob.bytes, coin, (runParse sizeT env coin hashes rounds blob template.parsed).2.parsed⟩,
      (runParse sizeT env coin hashes rounds blob template.parsed).2.accesses⟩)
    (two : fresh = ⟨(runParse sizeT env coin hashes rounds blob {}).1,
      ⟨blob.bytes, coin, (runParse sizeT env coin hashes rounds blob {}).2.parsed⟩,
      (runParse sizeT env coin hashes rounds blob {}).2.accesses⟩) :
    (result used.outcome = result fresh.outcome ∧
      (result used.outcome = some true → (∀ field : Field, field.Agrees used.template.parsed fresh.template.parsed) ∧
        ∀ offset, used.template.parsed.offsets offset ≤ used.template.blob.length)) ↔
      (result fresh.outcome = some true → ∀ field : Field,
        Writes env blob coin hashes rounds field ∨ field.Agrees template.parsed {}) := by
  obtain ⟨outcome, fields⟩ := @runParse_agrees sizeT env coin rounds hashes blob template.parsed {}
  subst one two
  simp only [outcome, true_and]
  constructor
  · intro same accepted field
    have agrees := (same accepted).1 field
    exact (fields (accepted_iff.mpr (outcome ▸ accepted)) field).mp agrees
  · intro decided accepted
    have agrees (field : Field) : field.Agrees (runParse sizeT env coin hashes rounds blob template.parsed).2.parsed
        (runParse sizeT env coin hashes rounds blob {}).2.parsed :=
      (fields (accepted_iff.mpr (outcome ▸ accepted)) field).mpr (decided accepted field)
    refine ⟨agrees, fun offset => ?_⟩
    have same : (runParse sizeT env coin hashes rounds blob template.parsed).2.parsed.offsets offset =
        (runParse sizeT env coin hashes rounds blob {}).2.parsed.offsets offset := agrees (.offset offset)
    rw [same]
    exact runParse_offsets hashes rounds (fun _ => Nat.zero_le _) offset

/-- A call rejects its input before the parse, or parses one blob, whatever the template. -/
theorem Input.parse_cases (env : Env) (input : Input) (coin : Coin) (hashes : Bool) (rounds : Nat) :
    (∀ template : BlockTemplate, result (input.parse env template coin hashes rounds).outcome = some false) ∨
      ∃ blob : Buffer, blob.bytes = input.blob ∧ ∀ template : BlockTemplate,
        input.parse env template coin hashes rounds = ⟨(runParse sizeT env coin hashes rounds blob template.parsed).1,
          ⟨blob.bytes, coin, (runParse sizeT env coin hashes rounds blob template.parsed).2.parsed⟩,
          (runParse sizeT env coin hashes rounds blob template.parsed).2.accesses⟩ := by
  cases input with
  | bytes blob =>
    by_cases short : blob.bytes.length < kMinSize
    · refine .inl fun template => ?_
      simp only [Input.parse, BlockTemplate.parse, if_pos short, result]
    · refine .inr ⟨blob, rfl, fun template => ?_⟩
      simp only [Input.parse, BlockTemplate.parse, if_neg short]
  | hex text =>
    by_cases short : text.length < kMinSize * 2
    · refine .inl fun template => ?_
      simp only [Input.parse, parseHex, if_pos short, result]
    by_cases decodes : (Cvt.fromHex [] text).2 = true
    · have same (template : BlockTemplate) := Cvt.fromHex_of_ok decodes template.blob
      by_cases fits : (Cvt.fromHex [] text).1.length < 2 ^ 63
      · refine .inr ⟨⟨(Cvt.fromHex [] text).1, fits⟩, rfl, fun template => ?_⟩
        simp only [Input.parse, parseHex, same, if_neg short, decodes, dif_pos fits, reduceCtorEq, if_false]
      · refine .inl fun template => ?_
        simp only [Input.parse, parseHex, same, if_neg short, decodes, dif_neg fits, reduceCtorEq, if_false, result]
    · refine .inl fun template => ?_
      have rejects : (Cvt.fromHex template.blob text).2 = false :=
        Bool.eq_false_iff.mpr fun ok => decodes (Cvt.fromHex_of_ok ok [] ▸ ok)
      simp only [Input.parse, parseHex, if_neg short, if_pos rejects, result]

/-- A call is one of a fresh template if and only if each field is written by it or was cleared. -/
theorem fresh_iff (env : Env) (template : BlockTemplate) (input : Input) (coin : Coin) (hashes : Bool) (rounds : Nat) :
    Fresh env template input coin hashes rounds ↔
      (result (input.parse env {} coin hashes rounds).outcome = some true → ∀ blob : Buffer, blob.bytes = input.blob →
        ∀ field : Field, Writes env blob coin hashes rounds field ∨ field.Agrees template.parsed {}) := by
  rcases input.parse_cases env coin hashes rounds with rejected | ⟨blob, bytes, parses⟩
  · have none (used : BlockTemplate) : result (input.parse env used coin hashes rounds).outcome ≠ some true := by
      rw [rejected used]
      exact fun accepted => by cases accepted
    refine ⟨fun _ accepted => absurd accepted (none {}), fun _ => ⟨?_, fun accepted => absurd accepted (none template)⟩⟩
    rw [rejected template, rejected {}]
  · refine (runs_fresh_iff template (parses template) (parses {})).trans ?_
    constructor
    · intro decided accepted other same
      obtain rfl : other = blob := by
        cases other
        cases blob
        simp only at same bytes
        simp only [same, bytes]
      exact decided accepted
    · exact fun decided accepted => decided accepted blob bytes

def extraTemplate (extra : List Byte) (short : extra.length < 128) : Input :=
  .bytes ⟨[16, 16, 0] ++ List.replicate 32 0 ++ [0, 0, 0, 0] ++ [2, 60, 1, 0xff, 1, 1, 0, 2] ++
    List.replicate 32 0 ++ [BitVec.ofNat 8 extra.length] ++ extra ++ [0, 0], by
      simp only [List.length_append, List.length_replicate, List.length_cons, List.length_nil]
      omega⟩

def nonceField : List Byte := [1] ++ List.replicate 32 0 ++ [2, 1, 7]

/-- A template whose extra field is empty, parsed behind one with an extra nonce. -/
theorem extraTemplate_not_fresh : ¬ ∀ (env : Env) (first second : Input) (coin : Coin) (hashes : Bool) (rounds : Nat),
    Fresh env (first.parse env {} coin hashes rounds).template second coin hashes rounds := by
  intro fresh
  have accepted := (fresh ⟨fun _ => List.replicate 32 0, fun _ => true⟩ (extraTemplate nonceField (by decide))
    (extraTemplate [] (by decide)) .monero false 4).2 (by decide)
  have inside := accepted.2 .txExtraNonce
  revert inside
  decide +kernel

end Inputs

end Xmrig.BlockTemplate
