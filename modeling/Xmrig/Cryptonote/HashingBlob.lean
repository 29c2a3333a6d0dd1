import Xmrig.Cryptonote.TemplateHeader
import Xmrig.Cryptonote.Varint

/-! The number of transactions at the end of a hashing blob.

A hashing blob is the header of the template, the root of the Merkle tree and the
number of transactions. The job looks for the number at the offset that it expects
behind a header without signature and pricing record, or one with a signature for
RandomWOW.
-/

set_option autoImplicit false

namespace Xmrig

open Foundation

def BlockTemplate.generateHashingBlob (template : BlockTemplate) : List Byte :=
  template.blob.take (template.parsed.offsets .minerTxPrefix) ++ Cvt.resize template.parsed.rootHash 32 ++
    putVarint (template.parsed.numHashes + 1#64)

namespace Job

def numTransactionsFrom : (numTransactions : BitVec 32) → (shift : Nat) → List Byte → BitVec 32
  | numTransactions, _, [] => numTransactions
  | numTransactions, shift, b :: rest =>
    let sum := numTransactions ||| ((b &&& 0x7f).setWidth 32 <<< shift)
    if b &&& 0x80 = 0 then sum else numTransactionsFrom sum (shift + 7) rest

def expectedTxOffset (job : Job) : Nat := if job.algorithm = .rxWow then 141 else 75

/-- The algorithms whose hashing blobs end in the number of transactions. -/
def countsTransactions (job : Job) : Prop := job.algorithm.isCN ∨ job.algorithm.family = Algorithm.randomX

instance (job : Job) : Decidable job.countsTransactions := inferInstanceAs (Decidable (_ ∨ _))

def getNumTransactions (job : Job) : BitVec 32 :=
  if ¬ job.countsTransactions then 0#32
  else if job.expectedTxOffset < job.size ∧ job.size ≤ job.expectedTxOffset + 4 then
    numTransactionsFrom 0#32 0 (job.blob.drop job.expectedTxOffset)
  else 0#32

theorem numTransactionsFrom_value {data : List Byte} {value size : Nat}
    (stands : varintValue data = some (value, size)) {sum : BitVec 32} {shift : Nat} (low : sum.toNat < 2 ^ shift)
    (fits : sum.toNat + value * 2 ^ shift < 2 ^ 32) :
    (numTransactionsFrom sum shift data).toNat = sum.toNat + value * 2 ^ shift := by
  induction data generalizing value size sum shift with
  | nil => cases stands
  | cons byte rest ih =>
    rw [varintValue] at stands
    split at stands
    · rename_i last
      cases stands
      have same : byte.toNat % 128 = byte.toNat := Nat.mod_eq_of_lt last
      rw [numTransactionsFrom, if_pos ((last_iff byte).mpr last),
        toNat_or_shifted (by decide) low (by rw [same]; omega), same]
    · rename_i more
      obtain ⟨⟨high, used⟩, later, made⟩ := Option.map_eq_some_iff.mp stands
      simp only [Prod.mk.injEq] at made
      obtain ⟨rfl, rfl⟩ := made
      have same : byte.toNat % 128 = byte.toNat - 128 := by omega
      have whole : (byte.toNat - 128 + 128 * high) * 2 ^ shift =
          (byte.toNat - 128) * 2 ^ shift + high * 2 ^ (shift + 7) := by ring
      have added := @toNat_or_shifted 32 sum byte shift (by decide) low (by rw [same]; omega)
      rw [same] at added
      have next : (byte.toNat - 128) * 2 ^ shift ≤ 127 * 2 ^ shift := Nat.mul_le_mul_right _ (by omega)
      have seven : 2 ^ (shift + 7) = 128 * 2 ^ shift := by ring
      rw [numTransactionsFrom, if_neg (fun last => more ((last_iff byte).mp last)),
        ih later (by omega) (by omega)]
      omega

end Job

namespace BlockTemplate

/-! ## The position of the miner transaction -/

section Position
variable {blob : Buffer} {coin : Coin} {state after : Parsing}

/-- The first reader stands at a position of the blob. -/
structure At (blob : Buffer) (state : Parsing) (position : Nat) : Prop where
  ar : state.ar = ⟨0, blob.bytes.length, position⟩
  inside : position ≤ blob.bytes.length
  blob : state.blob = blob

theorem At.with_parsed {position : Nat} (here : At blob state position) (parsed : Parsed) :
    At blob { state with parsed := parsed } position := ⟨here.ar, here.inside, here.blob⟩

theorem byte_at {position : Nat} {value : Byte} (here : At blob state position)
    (ran : exec (handleRead sizeT) (byte .ar) state = (.ok value, after)) :
    At blob after (position + 1) ∧ after.parsed = state.parsed := by
  have took : state.complete .ar ((state.reader .ar).getByte state.blob.bytes) = (.ok value, after) :=
    (exec_perform (I := readInterface) (.byte .ar) state).symm.trans ran
  rw [Parsing.reader, here.ar, here.blob, BlobReader.getByte] at took
  dsimp only at took
  split at took
  · cases took
  · rename_i left
    split at took
    · cases took
    · cases took
      exact ⟨⟨rfl, by omega, here.blob⟩, rfl⟩

theorem varint_at {position number size : Nat} {value : BitVec 64} (here : At blob state position)
    (stands : varintValue (blob.bytes.drop position) = some (number, size)) (word : number < 2 ^ 64)
    (ran : exec (handleRead sizeT) (varint .ar) state = (.ok value, after)) :
    At blob after (position + size) ∧ after.parsed = state.parsed := by
  have took : state.complete .ar ((state.reader .ar).getVarint state.blob.bytes) = (.ok value, after) :=
    (exec_perform (I := readInterface) (.varint .ar) state).symm.trans ran
  obtain ⟨tag, whole, _⟩ := getVarint_value (blob.bytes.take position) stands word
  have inside := (varintValue_lt stands).2
  rw [List.length_drop] at inside
  have before : (blob.bytes.take position).length = position := by
    rw [List.length_take, Nat.min_eq_left here.inside]
  rw [List.take_append_drop, before] at whole
  rw [Parsing.reader, here.ar, here.blob, whole] at took
  cases took
  have room := here.inside
  exact ⟨⟨rfl, by omega, here.blob⟩, rfl⟩

theorem sized_at {A : Type} {position : Nat} {n : BitVec 64} {value read : A} (requested : Parsing)
    (here : At blob requested position) (ran : requested.complete .ar (sized sizeT ⟨0, blob.bytes.length, position⟩ n value) =
      (.ok read, after)) :
    At blob after (sizeT (position + n.toNat)) ∧ after.parsed = requested.parsed := by
  rw [sized, BlobReader.advance] at ran
  dsimp only at ran
  split at ran
  · cases ran
  · rename_i room
    cases ran
    exact ⟨⟨rfl, Nat.not_lt.mp room, here.blob⟩, rfl⟩

theorem span_at {position : Nat} {n : BitVec 64} {value : Span} (here : At blob state position)
    (ran : exec (handleRead sizeT) (span .ar n) state = (.ok value, after)) :
    At blob after (sizeT (position + n.toNat)) ∧ after.parsed = state.parsed := by
  have took : (state.request .ar n).complete .ar (sized sizeT state.ar n _) = (.ok value, after) :=
    (exec_perform (I := readInterface) (.span .ar n) state).symm.trans ran
  rw [here.ar] at took
  exact sized_at (state.request .ar n) ⟨here.ar, here.inside, here.blob⟩ took

theorem skip_at {position : Nat} {n : BitVec 64} (here : At blob state position)
    (ran : exec (handleRead sizeT) (skip .ar n) state = (.ok (), after)) :
    At blob after (sizeT (position + n.toNat)) ∧ after.parsed = state.parsed := by
  have took : (state.request .ar n).complete .ar (sized sizeT state.ar n ()) = (.ok (), after) :=
    (exec_perform (I := readInterface) (.skip .ar n) state).symm.trans ran
  rw [here.ar] at took
  exact sized_at (state.request .ar n) ⟨here.ar, here.inside, here.blob⟩ took

theorem array_at {position : Nat} {n : BitVec 8} {value : List Byte} (here : At blob state position)
    (ran : exec (handleRead sizeT) (array .ar n) state = (.ok value, after)) :
    At blob after (sizeT (position + n.toNat)) ∧ after.parsed = state.parsed := by
  have took : state.complete .ar ((state.reader .ar).array sizeT state.blob.bytes n.toNat) = (.ok value, after) :=
    (exec_perform (I := readInterface) (.array .ar n) state).symm.trans ran
  rw [Parsing.reader, here.ar, here.blob, BlobReader.array, BlobReader.advance] at took
  dsimp only at took
  split at took
  · cases took
  · rename_i room
    dsimp only [Except.bind] at took
    split at took
    · cases took
    · cases took
      exact ⟨⟨rfl, Nat.not_lt.mp room, here.blob⟩, rfl⟩

def headerExtra (coin : Coin) (major : Byte) : Nat :=
  (if coin = .wownero ∧ 18 ≤ major.toNat then 66 else 0) + if coin = .zephyr then 120 else 0

/-- The timestamp takes five bytes of the blob. -/
def FiveByteTimestamp (blob : Buffer) : Prop := ∃ timestamp, varintValue (blob.bytes.drop 2) = some (timestamp, 5)

theorem headerVersion_at {major : Byte} (timestamp : FiveByteTimestamp blob) (here : At blob state 0)
    (ran : exec (handleRead sizeT) headerVersion state = (.ok major, after)) :
    At blob after 39 ∧ after.parsed.version.1 = major := by
  obtain ⟨number, stands⟩ := timestamp
  have word : number < 2 ^ 64 := (varintValue_lt stands).1.trans (by decide)
  obtain ⟨_, _, first, rest⟩ := exec_bind_inv ran
  obtain ⟨one, -⟩ := byte_at here first
  obtain ⟨_, _, wrote, rest⟩ := exec_bind_inv rest
  cases wrote
  obtain ⟨_, _, second, rest⟩ := exec_bind_inv rest
  obtain ⟨two, minor⟩ := byte_at (one.with_parsed _) second
  obtain ⟨_, _, wrote, rest⟩ := exec_bind_inv rest
  cases wrote
  obtain ⟨_, _, third, rest⟩ := exec_bind_inv rest
  obtain ⟨seven, time⟩ := varint_at (two.with_parsed _) stands word third
  obtain ⟨_, _, wrote, rest⟩ := exec_bind_inv rest
  cases wrote
  obtain ⟨_, _, fourth, rest⟩ := exec_bind_inv rest
  obtain ⟨last, prevId⟩ := span_at (seven.with_parsed _) fourth
  obtain ⟨_, _, wrote, rest⟩ := exec_bind_inv rest
  cases wrote
  cases rest
  refine ⟨last.with_parsed _, ?_⟩
  simp only [prevId, time, minor]

theorem minerSignature_at {major : Byte} {position : Nat} (here : At blob state position) (short : position < 1000)
    (ran : exec (handleRead sizeT) (minerSignature coin major) state = (.ok (), after)) :
    At blob after (position + if coin = .wownero ∧ 18 ≤ major.toNat then 66 else 0) ∧
      after.parsed.version = state.parsed.version := by
  unfold minerSignature at ran
  split at ran
  · rename_i signed
    obtain ⟨_, _, first, rest⟩ := exec_bind_inv ran
    obtain ⟨behind, kept⟩ := span_at here first
    obtain ⟨_, _, wrote, rest⟩ := exec_bind_inv rest
    cases wrote
    obtain ⟨_, _, second, rest⟩ := exec_bind_inv rest
    obtain ⟨last, vote⟩ := array_at (behind.with_parsed _) second
    cases rest
    have signature : sizeT (position + kSignatureSize.toNat) = position + 64 := BlobReader.sizeT_of_lt (by
      change position + 64 < 2 ^ 64
      omega)
    have ends : sizeT (position + 64 + (2 : BitVec 8).toNat) = position + 66 := BlobReader.sizeT_of_lt (by
      change position + 64 + 2 < 2 ^ 64
      omega)
    rw [signature, ends] at last
    rw [if_pos signed]
    refine ⟨last.with_parsed _, ?_⟩
    simp only [vote, kept]
  · rename_i unsigned
    cases ran
    rw [if_neg unsigned]
    exact ⟨here, rfl⟩

theorem header_at (timestamp : FiveByteTimestamp blob) (here : At blob state 0)
    (ran : exec (handleRead sizeT) (header coin) state = (.ok (), after)) :
    At blob after (43 + headerExtra coin after.parsed.version.1) := by
  obtain ⟨major, _, version, rest⟩ := exec_bind_inv ran
  obtain ⟨nonce, same⟩ := headerVersion_at timestamp here version
  obtain ⟨_, _, mark, rest⟩ := exec_bind_inv rest
  rw [exec_markOffset] at mark
  cases mark
  obtain ⟨_, _, skipped, rest⟩ := exec_bind_inv rest
  obtain ⟨behind, kept⟩ := skip_at (nonce.with_parsed _) skipped
  obtain ⟨_, signed, sign, rest⟩ := exec_bind_inv rest
  obtain ⟨last, keeps⟩ := minerSignature_at behind (by decide) sign
  have written : signed.parsed.version.1 = major := by rw [keeps, kept]; exact same
  change At blob signed (43 + _) at last
  split at rest
  · rename_i priced
    obtain ⟨_, _, record, rest⟩ := exec_bind_inv rest
    obtain ⟨ends, unchanged⟩ := array_at last record
    cases rest
    have wownero : ¬ (coin = .wownero ∧ 18 ≤ major.toNat) := fun both => by simp [priced] at both
    rw [if_neg wownero] at ends
    rw [unchanged, written, headerExtra, if_neg wownero, if_pos priced]
    exact ends
  · rename_i plain
    cases rest
    rw [written, headerExtra, if_neg plain]
    exact last

end Position

/-! ## What the parse behind the header keeps -/

section Views
variable {View : Type} (view : Parsed → View)

/-- The operation does not change the view of the fields. -/
def ReadOp.Keeps : ReadOp → Prop
  | .update change => ∀ parsed, view (change parsed) = view parsed
  | _ => True

def Op.Keeps : Op → Prop
  | .read op => op.Keeps view
  | .openExtra _ => ∀ i parsed, view (Parsed.setOffset .txExtra i parsed) = view parsed
  | .storeHash _ _ => ∀ parsed hashes, view { parsed with hashes } = view parsed
  | _ => True

variable {view}

theorem handleRead_view {wrap : Nat → Nat} {op : ReadOp} {state : Parsing} (keeps : op.Keeps view) :
    view (handleRead wrap op state).2.parsed = view state.parsed := by
  cases op with
  | update change => exact keeps state.parsed
  | byte stream => exact congrArg view complete_parsed
  | varint stream => exact congrArg view complete_parsed
  | array stream n => exact congrArg view complete_parsed
  | span stream n => exact congrArg view complete_parsed
  | skip stream n => exact congrArg view complete_parsed
  | index stream => rfl
  | endsInZero offset =>
    simp only [handleRead]
    split
    · rfl
    · split <;> rfl
  | leave result => rfl

theorem exec_read_view {wrap : Nat → Nat} {A : Type} {scanner : Scanner A}
    (keeps : Program.All (I := readInterface) (ReadOp.Keeps view) scanner) (state : Parsing) :
    view (exec (handleRead wrap) scanner state).2.parsed = view state.parsed := by
  have kept := exec_keeps (handleRead wrap) (fun s => view s.parsed = view state.parsed)
    (fun _ => True) (fun op s allowed same =>
      ⟨(handleRead_view allowed).trans same, fun _ _ => trivial⟩) keeps state rfl
  exact kept.1

theorem handle_view {wrap : Nat → Nat} {env : Env} {op : Op} {state : Parsing} (keeps : op.Keeps view) :
    view (handle wrap env op state).2.parsed = view state.parsed := by
  cases op with
  | read inner => exact handleRead_view keeps
  | openExtra n =>
    apply attachExtra_keeps (P := fun s => view s.parsed = view state.parsed) _ _ (fun _ _ => id)
    exact (congrArg view complete_parsed).trans (keeps _ _)
  | parsed => rfl
  | allocate size =>
    simp only [handle]
    split <;> rfl
  | prefixBytes =>
    simp only [handle]
    split <;> rfl
  | storeHash i hash =>
    simp only [handle]
    split
    · exact keeps _ _
    · rfl
  | unfinished => rfl

theorem exec_view {wrap : Nat → Nat} {env : Env} {A : Type} {parser : Parser A} (keeps : parser.All (Op.Keeps view))
    (state : Parsing) : view (exec (handle wrap env) parser state).2.parsed = view state.parsed := by
  have kept := exec_keeps (handle wrap env) (fun s => view s.parsed = view state.parsed)
    (fun _ => True) (fun op s allowed same =>
      ⟨(handle_view allowed).trans same, fun _ _ => trivial⟩) keeps state rfl
  exact kept.1

end Views

def hashingFields (parsed : Parsed) : Nat × Byte := (parsed.offsets .minerTxPrefix, parsed.version.1)

section Hashing
variable {coin : Coin} {env : Env}

theorem minerTxInputs_position (state : Parsing) :
    hashingFields (exec (handleRead sizeT) (minerTxInputs coin) state).2.parsed =
      (state.ar.index % 2 ^ 32, state.parsed.version.1) := by
  unfold minerTxInputs
  rw [exec_bind, exec_markOffset]
  dsimp only
  refine (@exec_read_view _ hashingFields _ _ _ ?_ _).trans rfl
  repeat' first
    | exact Program.all_perform.mpr trivial
    | exact Program.all_perform.mpr fun _ => rfl
    | exact ⟨trivial, fun reply => reply.elim⟩
    | apply Program.all_bind
    | intro _
    | split
    | exact Program.all_pure _

theorem zephyrOutputs_hashing (count : Nat) :
    Program.All (I := readInterface) (ReadOp.Keeps hashingFields) (zephyrOutputs count) := by
  induction count with
  | zero => exact Program.all_pure _
  | succ count ih =>
    unfold zephyrOutputs
    repeat' first
      | exact Program.all_perform.mpr trivial
      | exact ⟨trivial, fun reply => reply.elim⟩
      | exact ih
      | apply Program.all_bind
      | intro _
      | split

theorem minerTxOutputs_hashing (numOutputs : BitVec 64) :
    Program.All (I := readInterface) (ReadOp.Keeps hashingFields) (minerTxOutputs coin numOutputs) := by
  unfold minerTxOutputs markOffset
  repeat' first
    | exact Program.all_perform.mpr trivial
    | exact Program.all_perform.mpr fun _ => rfl
    | exact ⟨trivial, fun reply => reply.elim⟩
    | exact zephyrOutputs_hashing _
    | apply Program.all_bind
    | intro _
    | split
    | exact Program.all_pure _

theorem extraField_hashing (first : Bool) :
    Program.All (I := readInterface) (ReadOp.Keeps hashingFields) (extraField first) := by
  unfold extraField markExtraOffset
  repeat' first
    | exact Program.all_perform.mpr trivial
    | exact Program.all_perform.mpr fun _ => rfl
    | exact ⟨trivial, fun reply => reply.elim⟩
    | apply Program.all_bind
    | intro _
    | split
    | exact Program.all_pure _

theorem minerTxEnd_hashing (height : BitVec 64) :
    Program.All (I := readInterface) (ReadOp.Keeps hashingFields) (minerTxEnd coin height) := by
  unfold minerTxEnd
  repeat' first
    | exact Program.all_perform.mpr trivial
    | exact Program.all_perform.mpr fun _ => rfl
    | exact ⟨trivial, fun reply => reply.elim⟩
    | apply Program.all_bind
    | intro _
    | split

theorem extraFields_hashing (extraSize : BitVec 64) (rounds : Nat) (first : Bool) :
    (extraFields extraSize rounds first).All (Op.Keeps hashingFields) := by
  induction rounds generalizing first with
  | zero => exact ⟨trivial, fun reply => reply.elim⟩
  | succ rounds ih =>
    unfold extraFields
    apply Program.all_bind (all_stage_of (fun _ => id) (Program.all_perform.mpr trivial))
    intro i
    split
    · exact Program.all_bind (all_stage_of (fun _ => id) (extraField_hashing first)) ih
    · exact Program.all_pure _

theorem storeHashes_fields (count i : Nat) : (storeHashes count i).All (Op.Keeps hashingFields) := by
  induction count generalizing i with
  | zero => exact Program.all_pure _
  | succ count ih => exact ⟨trivial, fun hash => ⟨fun _ _ => rfl, fun _ => ih (i + 1)⟩⟩

theorem transactionHashes_fields : (transactionHashes env).All (Op.Keeps hashingFields) := by
  refine ⟨trivial, fun parsed => ⟨trivial, fun _ => ⟨fun _ => rfl, fun _ => ⟨trivial, fun bytes => ?_⟩⟩⟩⟩
  refine ⟨fun _ _ => rfl, fun _ => ?_⟩
  apply Program.all_bind (storeHashes_fields _ _)
  intro _
  refine ⟨fun _ => rfl, fun _ => ⟨trivial, fun fields => ?_⟩⟩
  change Program.All (I := interface) _ (if 2 < (fields.numHashes + 1).toNat then _ else _)
  split
  · exact ⟨trivial, fun _ => ⟨fun _ => rfl, fun _ => trivial⟩⟩
  · exact ⟨fun _ => rfl, fun _ => trivial⟩

theorem minerTx_position (rounds : Nat) (state : Parsing) :
    hashingFields (exec (handle sizeT env) (minerTx coin rounds) state).2.parsed =
      (state.ar.index % 2 ^ 32, state.parsed.version.1) := by
  unfold minerTx
  rw [exec_bind, exec_stage]
  have inputs := @minerTxInputs_position coin state
  rcases ran : exec (handleRead sizeT) (minerTxInputs coin) state with ⟨why | read, middle⟩ <;> rw [ran] at inputs
  · exact inputs
  · apply (exec_view _ middle).trans inputs
    apply Program.all_bind (all_stage_of (fun _ => id) (minerTxOutputs_hashing read.2))
    intro extraSize
    apply Program.all_bind ((Program.all_perform (I := interface)).mpr fun _ _ => rfl)
    intro _
    apply Program.all_bind (extraFields_hashing extraSize rounds true)
    intro _
    exact all_stage_of (fun _ => id) (minerTxEnd_hashing read.1)

theorem runParse_position {blob : Buffer} {hashes : Bool} {rounds : Nat} {parsed : Parsed}
    (timestamp : FiveByteTimestamp blob)
    (accepted : Accepted (runParse sizeT env coin hashes rounds blob parsed).1) :
    let final := (runParse sizeT env coin hashes rounds blob parsed).2.parsed
    final.offsets .minerTxPrefix = 43 + headerExtra coin final.version.1 ∧
      43 + headerExtra coin final.version.1 ≤ blob.bytes.length := by
  have later (final middle : Parsing) (here : At blob middle (43 + headerExtra coin middle.parsed.version.1))
      (kept : hashingFields final.parsed = (middle.ar.index % 2 ^ 32, middle.parsed.version.1)) :
      final.parsed.offsets .minerTxPrefix = 43 + headerExtra coin final.parsed.version.1 ∧
        43 + headerExtra coin final.parsed.version.1 ≤ blob.bytes.length := by
    simp only [hashingFields, Prod.mk.injEq, here.ar] at kept
    obtain ⟨position, version⟩ := kept
    have short : headerExtra coin middle.parsed.version.1 ≤ 186 := by
      unfold headerExtra
      split <;> split <;> omega
    rw [version, position, Nat.mod_eq_of_lt (by omega)]
    exact ⟨rfl, here.inside⟩
  rcases read : exec (handleRead sizeT) (header coin) (.start blob parsed) with ⟨why | ⟨⟩, middle⟩
  · exfalso
    have stopped : runParse sizeT env coin hashes rounds blob parsed = (.error why, middle) := by
      unfold runParse parseBlob scan
      rw [exec_bind, exec_bind, exec_stage, read]
    rw [stopped] at accepted
    rcases accepted with done | returned
    · cases done
    · exact header_not_returned coin sizeT true (.start blob parsed) (by rw [read]; exact returned)
  · have here := header_at timestamp ⟨rfl, Nat.zero_le _, rfl⟩ read
    apply later _ middle here
    have scanned : exec (handle sizeT env) (scan coin rounds) (.start blob parsed) =
        exec (handle sizeT env) (minerTx coin rounds) middle := by
      unfold scan
      rw [exec_bind, exec_stage, read]
    have position := @minerTx_position coin env rounds middle
    unfold runParse parseBlob
    rw [exec_bind, scanned]
    rcases ran : exec (handle sizeT env) (minerTx coin rounds) middle with ⟨why | ⟨⟩, ends⟩ <;> rw [ran] at position
    · exact position
    · dsimp only
      cases hashes with
      | false => exact position
      | true => exact (exec_view transactionHashes_fields ends).trans position

/-! ## The number that a job finds -/

end Hashing

end BlockTemplate

/-! ## The number that a job finds -/

theorem Job.getNumTransactions_behind {job : Job} {front : List Byte} {count : Nat} (counts : job.countsTransactions)
    (blob : job.blob = front ++ varint count) (expected : front.length = job.expectedTxOffset) :
    job.getNumTransactions.toNat = if count < 2 ^ 28 then count else 0 := by
  have size : job.size = job.expectedTxOffset + (varint count).length := by
    rw [Job.size, blob, List.length_append, expected]
  have some := varint_length_pos count
  unfold getNumTransactions
  rw [if_neg (not_not.mpr counts)]
  by_cases small : count < 2 ^ 28
  · have four : (varint count).length ≤ 4 := @varint_length_le 3 _ small
    have rest : job.blob.drop job.expectedTxOffset = varint count := by
      rw [blob, ← expected, List.drop_left]
    have value := varintValue_varint count []
    rw [List.append_nil] at value
    have read := @numTransactionsFrom_value _ _ _ value 0#32 0 (by decide) (by
      rw [pow_zero, Nat.mul_one]
      change 0 + count < 2 ^ 32
      omega)
    rw [if_pos small, if_pos (by omega), rest, read, pow_zero, Nat.mul_one]
    exact Nat.zero_add count
  · have five : 4 < (varint count).length := lt_varint_length (Nat.not_lt.mp small)
    rw [if_neg small, if_neg (by omega)]
    rfl

namespace BlockTemplate
variable {env : Env} {template : BlockTemplate} {coin : Coin} {hashes : Bool} {rounds : Nat} {report : Report}

/-- A call of one of the public `parse` functions. -/
def Parses (env : Env) (template : BlockTemplate) (coin : Coin) (hashes : Bool) (rounds : Nat) (report : Report) : Prop :=
  (∃ blob : Buffer, report = template.parse env blob coin hashes rounds) ∨
    ∃ hex : List Byte, report = template.parseHex env hex coin hashes rounds

theorem Parses.runs (parses : Parses env template coin hashes rounds report) (accepted : result report.outcome = some true) :
    ∃ blob : Buffer, report.template.blob = blob.bytes ∧
      Accepted (runParse sizeT env coin hashes rounds blob template.parsed).1 ∧
      report.template.parsed = (runParse sizeT env coin hashes rounds blob template.parsed).2.parsed := by
  rcases parses with ⟨blob, rfl⟩ | ⟨hex, rfl⟩
  · unfold parse at accepted ⊢
    by_cases short : blob.bytes.length < kMinSize
    · rw [if_pos short] at accepted
      cases accepted
    · rw [if_neg short] at accepted ⊢
      exact ⟨blob, rfl, accepted_iff.mpr accepted, rfl⟩
  · obtain ⟨blob, _, decoded⟩ := parseHex_decoded accepted
    rw [decoded template] at accepted ⊢
    exact ⟨blob, rfl, accepted_iff.mpr accepted, rfl⟩

theorem Parses.header (parses : Parses env template coin hashes rounds report) (accepted : result report.outcome = some true)
    (timestamp : ∃ timestamp, varintValue (report.template.blob.drop 2) = some (timestamp, 5)) :
    (report.template.blob.take (report.template.parsed.offsets .minerTxPrefix)).length =
      43 + headerExtra coin report.template.parsed.version.1 := by
  obtain ⟨blob, same, ran, fields⟩ := parses.runs accepted
  rw [same] at timestamp ⊢
  obtain ⟨position, inside⟩ := runParse_position timestamp ran
  rw [fields, position, List.length_take, Nat.min_eq_left inside]

end BlockTemplate

/-- What the algorithm expects behind the nonce is what the coin has there. -/
def Job.expectsHeader (job : Job) (coin : Coin) (major : Byte) : Prop :=
  BlockTemplate.headerExtra coin major = if job.algorithm = .rxWow then 66 else 0

instance (job : Job) (coin : Coin) (major : Byte) : Decidable (job.expectsHeader coin major) :=
  inferInstanceAs (Decidable (_ = _))

section Agreement
open BlockTemplate

theorem Job.getNumTransactions_elsewhere {job : Job} {coin : Coin} {major : Byte} {front : List Byte} {count : Nat}
    (blob : job.blob = front ++ varint count) (word : count < 2 ^ 64) (length : front.length = 75 + headerExtra coin major)
    (other : ¬ job.expectsHeader coin major) : job.getNumTransactions = 0#32 := by
  have size : job.size = 75 + headerExtra coin major + (varint count).length := by
    rw [Job.size, blob, List.length_append, length]
  have some := varint_length_pos count
  have ten : (varint count).length ≤ 10 := @varint_length_word 64 count (by decide) word
  unfold getNumTransactions
  split
  · rfl
  · apply if_neg
    -- the header is longer by 66 or 120 bytes than expected, or shorter by 66
    unfold expectsHeader headerExtra at other
    unfold headerExtra at size
    unfold expectedTxOffset
    by_cases wow : job.algorithm = .rxWow
    · rw [if_pos wow] at other ⊢
      by_cases signed : coin = .wownero ∧ 18 ≤ major.toNat
      · simp [signed] at other
      · rw [if_neg signed] at size
        split at size <;> omega
    · rw [if_neg wow] at other ⊢
      by_cases signed : coin = .wownero ∧ 18 ≤ major.toNat
      · rw [if_pos signed] at size
        split at size <;> omega
      · rw [if_neg signed] at size other
        split at size
        · omega
        · rename_i plain
          simp [plain] at other

theorem getNumTransactions_hashingBlob {env : Env} {template : BlockTemplate} {coin : Coin} {hashes : Bool} {rounds : Nat}
    {report : Report} (parses : Parses env template coin hashes rounds report) (accepted : result report.outcome = some true)
    (timestamp : ∃ timestamp, varintValue (report.template.blob.drop 2) = some (timestamp, 5))
    {job : Job} (blob : job.blob = report.template.generateHashingBlob) :
    job.getNumTransactions.toNat =
      if job.countsTransactions ∧ job.expectsHeader coin report.template.parsed.version.1 ∧
        report.template.parsed.numHashes.toNat + 1 < 2 ^ 28
      then report.template.parsed.numHashes.toNat + 1 else 0 := by
  have header := parses.header accepted timestamp
  generalize report.template.parsed.version.1 = major at header ⊢
  -- the count is a word, so that the largest number of hashes is followed by zero
  have count : (report.template.parsed.numHashes + 1#64).toNat = (report.template.parsed.numHashes.toNat + 1) % 2 ^ 64 :=
    BitVec.toNat_add _ _
  have word := report.template.parsed.numHashes.isLt
  rw [BlockTemplate.generateHashingBlob, putVarint_eq] at blob
  have length : (report.template.blob.take (report.template.parsed.offsets .minerTxPrefix) ++
      Cvt.resize report.template.parsed.rootHash 32).length = 75 + headerExtra coin major := by
    rw [List.length_append, header, Cvt.resize_length]
    omega
  by_cases counts : job.countsTransactions
  · by_cases expects : job.expectsHeader coin major
    · have offset : 75 + headerExtra coin major = job.expectedTxOffset := by
        rw [expects, Job.expectedTxOffset]
        split <;> rfl
      rw [Job.getNumTransactions_behind counts blob (length.trans offset), count]
      simp only [counts, expects, true_and]
      split <;> split <;> omega
    · rw [Job.getNumTransactions_elsewhere blob (BitVec.isLt _) length expects,
        if_neg (fun all => expects all.2.1)]
      rfl
  · rw [Job.getNumTransactions, if_pos counts, if_neg (fun all => counts all.1)]
    rfl

/-- The bytes of a count are read back with nothing left; a varint of any length is refused if it
has no end and read without loss if a word holds its number; and a job finds the number of
transactions in a hashing blob behind the header that its algorithm expects. -/
theorem varints_agree :
    (∀ (before : List Byte) (k : BitVec 64),
      (⟨0, (before ++ putVarint k).length, before.length⟩ : BlobReader).getVarint (before ++ putVarint k) =
        .ok (k, ⟨0, (before ++ putVarint k).length, (before ++ putVarint k).length⟩)) ∧
    (∀ before rest : List Byte,
      (varintValue rest = none → (⟨0, (before ++ rest).length, before.length⟩ : BlobReader).getVarint (before ++ rest) =
        .error .outOfRange) ∧
      ∀ value size, varintValue rest = some (value, size) → value < 2 ^ 64 →
        ∃ tag, (⟨0, (before ++ rest).length, before.length⟩ : BlobReader).getVarint (before ++ rest) =
          .ok (tag, ⟨0, (before ++ rest).length, before.length + size⟩) ∧ tag.toNat = value) ∧
    ∀ (env : Env) (template : BlockTemplate) (coin : Coin) (hashes : Bool) (rounds : Nat) (report : Report),
      Parses env template coin hashes rounds report → result report.outcome = some true →
      (∃ timestamp, varintValue (report.template.blob.drop 2) = some (timestamp, 5)) →
      ∀ job : Job, job.blob = report.template.generateHashingBlob → job.getNumTransactions.toNat =
        if job.countsTransactions ∧ job.expectsHeader coin report.template.parsed.version.1 ∧
          report.template.parsed.numHashes.toNat + 1 < 2 ^ 28
        then report.template.parsed.numHashes.toNat + 1 else 0 := by
  refine ⟨?_, fun before rest => ⟨getVarint_endless before, fun value size => getVarint_value before⟩, ?_⟩
  · intro before k
    have stands := varintValue_varint k.toNat []
    rw [List.append_nil, ← putVarint_eq] at stands
    obtain ⟨tag, read, same⟩ := getVarint_value before stands k.isLt
    rw [read, BitVec.eq_of_toNat_eq same, List.length_append, putVarint_eq]
  · intro env template coin hashes rounds report parses accepted timestamp job blob
    exact getNumTransactions_hashingBlob parses accepted timestamp blob

/-- A Monero template with a number of transaction hashes at its end. -/
def countedBytes (numHashes : List Byte) : List Byte :=
  [16, 16, 0x80, 0x80, 0x80, 0x80, 1] ++ List.replicate 32 0 ++ [0, 0, 0, 0] ++ [2, 60, 1, 0xff, 1, 1, 0, 2] ++
    List.replicate 32 0 ++ [0, 0] ++ numHashes

def countedBlob (numHashes : BitVec 32) : Buffer where
  bytes := countedBytes [numHashes.setWidth 8, (numHashes >>> 8).setWidth 8, (numHashes >>> 16).setWidth 8,
    (numHashes >>> 24).setWidth 8]
  size_lt := by
    simp only [countedBytes, List.length_append, List.length_replicate, List.length_cons, List.length_nil]
    decide

def counted (numHashes : BitVec 32) : Report :=
  ({} : BlockTemplate).parse ⟨fun _ => List.replicate 32 0, fun _ => true⟩ (countedBlob numHashes) .monero false 1

def countedJob (numHashes : BitVec 32) : Job :=
  { algorithm := .rx0, blob := (counted numHashes).template.generateHashingBlob }

/-- The blob of a template with four hashes. -/
theorem varints_agree_four : (countedJob 0x00808084#32).getNumTransactions.toNat = 5 := by
  have found := varints_agree.2.2 _ _ _ _ _ (counted 0x00808084#32) (Or.inl ⟨_, rfl⟩) (by decide)
    ⟨2 ^ 28, by decide⟩ (countedJob 0x00808084#32) rfl
  rw [found]
  decide

/-- The number for `2 ^ 28 - 1` hashes takes five bytes, and none is looked for there. -/
theorem getNumTransactions_largest :
    result (counted 0x7fffffff#32).outcome = some true ∧
      varintValue ((counted 0x7fffffff#32).template.blob.drop 2) = some (2 ^ 28, 5) ∧
      (counted 0x7fffffff#32).template.parsed.numHashes.toNat = 2 ^ 28 - 1 ∧
      (countedJob 0x7fffffff#32).getNumTransactions.toNat ≠ 2 ^ 28 := by
  have accepted : result (counted 0x7fffffff#32).outcome = some true := by decide
  have timestamp : varintValue ((counted 0x7fffffff#32).template.blob.drop 2) = some (2 ^ 28, 5) := by decide
  have numHashes : (counted 0x7fffffff#32).template.parsed.numHashes.toNat = 2 ^ 28 - 1 := by decide
  refine ⟨accepted, timestamp, numHashes, ?_⟩
  have found := @getNumTransactions_hashingBlob _ _ _ _ _ (counted 0x7fffffff#32) (Or.inl ⟨_, rfl⟩) accepted ⟨_, timestamp⟩
    (countedJob 0x7fffffff#32) rfl
  have none : ¬ ((counted 0x7fffffff#32).template.parsed.numHashes.toNat + 1 < 2 ^ 28) := by
    rw [numHashes]
    decide
  rw [found, if_neg fun all => none all.2.2]
  decide

end Agreement

end Xmrig
