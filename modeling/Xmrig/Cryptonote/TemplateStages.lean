import Xmrig.Cryptonote.BlockTemplate

/-! The stages of a parse, statement by statement.

A property that every read and every assignment has, and that goes from statements to sequences of
them, holds of the stages. Where the source goes on behind a condition, the rest is looked at once.
-/

set_option autoImplicit false

namespace Xmrig.BlockTemplate

open Foundation

/-- Nothing is written. -/
def ReadOp.Reads : ReadOp → Prop
  | .update _ | .leave _ => False
  | _ => True

/-- The fields that the header writes, the nonce apart. -/
inductive SetsHeader : (Parsed → Parsed) → Prop
  | major (major : Byte) : SetsHeader fun p => { p with version := (major, p.version.2) }
  | minor (minor : Byte) : SetsHeader fun p => { p with version := (p.version.1, minor) }
  | timestamp (timestamp : BitVec 64) : SetsHeader fun p => { p with timestamp }
  | prevId (prevId : Span) : SetsHeader fun p => { p with prevId }
  | minerSignature (minerSignature : Span) : SetsHeader fun p => { p with minerSignature }
  | vote (vote : List Byte) : SetsHeader fun p => { p with vote }

/-- The fields that the stages behind the header write. -/
inductive SetsField : (Parsed → Parsed) → Prop
  | txVersion (txVersion : BitVec 64) : SetsField fun p => { p with txVersion }
  | unlockTime (unlockTime : BitVec 64) : SetsField fun p => { p with unlockTime }
  | numInputs (numInputs : BitVec 64) : SetsField fun p => { p with numInputs }
  | inputType (inputType : Byte) : SetsField fun p => { p with inputType }
  | height (height : BitVec 64) : SetsField fun p => { p with height }
  | numOutputs (numOutputs : BitVec 64) : SetsField fun p => { p with numOutputs }
  | amount (amount : BitVec 64) : SetsField fun p => { p with amount }
  | outputType (outputType : Byte) : SetsField fun p => { p with outputType }
  | ephPublicKey (ephPublicKey : Span) : SetsField fun p => { p with ephPublicKey }
  | viewTag (viewTag : Byte) : SetsField fun p => { p with viewTag }
  | extraSize (extraSize : BitVec 64) : SetsField fun p => { p with extraSize }
  | txExtraNonce (txExtraNonce : Span) : SetsField fun p => { p with txExtraNonce }
  | txMergeMiningTag (txMergeMiningTag : Span) : SetsField fun p => { p with txMergeMiningTag }
  | numHashes (numHashes : BitVec 64) : SetsField fun p => { p with numHashes }

/-- A property of the statements behind the header that goes over to sequences of them. -/
structure Stagewise (Q : ∀ {A : Type}, Scanner A → Prop) : Prop where
  pure : ∀ {A : Type} (value : A), Q (pure value : Scanner A)
  bind : ∀ {A B : Type} {scanner : Scanner A} {next : A → Scanner B}, Q scanner → (∀ value, Q (next value)) →
    Q (scanner >>= next)
  reads : ∀ op : ReadOp, op.Reads → Q (perform op)
  leaves : ∀ {A : Type} (result : Bool), Q (leave result : Scanner A)
  marks : ∀ {A : Type} (offset : Offset) (rest : Nat → Scanner A), offset ≠ .nonce → (∀ i, Q (rest i)) →
    Q (do
      let i ← index .ar
      update (Parsed.setOffset offset i)
      rest i)
  sets : ∀ change, SetsField change → Q (update change)

namespace Stagewise
variable {Q : ∀ {A : Type}, Scanner A → Prop} (stagewise : Stagewise Q) {coin : Coin}
include stagewise

theorem markOffset {offset : Offset} (other : offset ≠ .nonce) : Q (markOffset offset) :=
  stagewise.marks offset (fun _ => Pure.pure ()) other fun _ => stagewise.pure ()

theorem header (nonce : Q (BlockTemplate.markOffset .nonce)) (sets : ∀ change, SetsHeader change → Q (update change)) :
    Q (header coin) := by
  have version : Q headerVersion :=
    stagewise.bind (stagewise.reads _ trivial) fun major => stagewise.bind (sets _ (.major major)) fun _ =>
      stagewise.bind (stagewise.reads _ trivial) fun minor => stagewise.bind (sets _ (.minor minor)) fun _ =>
      stagewise.bind (stagewise.reads _ trivial) fun timestamp => stagewise.bind (sets _ (.timestamp timestamp)) fun _ =>
      stagewise.bind (stagewise.reads _ trivial) fun prevId => stagewise.bind (sets _ (.prevId prevId)) fun _ =>
      stagewise.pure major
  have signature (major : Byte) : Q (minerSignature coin major) := by
    unfold minerSignature
    split
    · exact stagewise.bind (stagewise.reads _ trivial) fun minerSignature =>
        stagewise.bind (sets _ (.minerSignature minerSignature)) fun _ =>
        stagewise.bind (stagewise.reads _ trivial) fun vote => sets _ (.vote vote)
    · exact stagewise.pure ()
  refine stagewise.bind version fun major => stagewise.bind nonce fun _ =>
    stagewise.bind (stagewise.reads _ trivial) fun _ => stagewise.bind (signature major) fun _ => ?_
  split
  · exact stagewise.bind (stagewise.reads _ trivial) fun _ => stagewise.pure ()
  · exact stagewise.pure ()

theorem minerTxInputs : Q (minerTxInputs coin) := by
  unfold BlockTemplate.minerTxInputs
  extract_lets outputs input version
  have outputs_all (r : Unit) : Q (outputs r) := by
    refine stagewise.bind (stagewise.reads _ trivial) fun height =>
      stagewise.bind (stagewise.sets _ (.height height)) fun _ =>
      stagewise.bind (stagewise.reads _ trivial) fun numOutputs =>
      stagewise.bind (stagewise.sets _ (.numOutputs numOutputs)) fun _ => ?_
    dsimp only
    split
    · split
      · exact stagewise.bind (stagewise.leaves false) fun _ => stagewise.pure _
      · exact stagewise.pure _
    · split
      · exact stagewise.bind (stagewise.leaves false) fun _ => stagewise.pure _
      · exact stagewise.pure _
  have input_all (r : Unit) : Q (input r) := by
    refine stagewise.bind (stagewise.reads _ trivial) fun inputType =>
      stagewise.bind (stagewise.sets _ (.inputType inputType)) fun _ => ?_
    split
    · exact stagewise.bind (stagewise.leaves false) outputs_all
    · exact outputs_all ()
  have version_all (r : Unit) : Q (version r) := by
    refine stagewise.bind (stagewise.reads _ trivial) fun numInputs =>
      stagewise.bind (stagewise.sets _ (.numInputs numInputs)) fun _ => ?_
    split
    · exact stagewise.bind (stagewise.leaves false) input_all
    · exact input_all ()
  refine stagewise.bind (stagewise.markOffset Offset.noConfusion) fun _ =>
    stagewise.bind (stagewise.reads _ trivial) fun txVersion =>
    stagewise.bind (stagewise.sets _ (.txVersion txVersion)) fun _ => ?_
  split
  · exact stagewise.bind (stagewise.reads _ trivial) fun unlockTime =>
      stagewise.bind (stagewise.sets _ (.unlockTime unlockTime)) version_all
  · exact version_all ()

theorem zephyrOutputs (count : Nat) : Q (zephyrOutputs count) := by
  induction count with
  | zero => exact stagewise.pure _
  | succ count ih =>
    refine stagewise.bind (stagewise.reads _ trivial) fun _ =>
      stagewise.bind (stagewise.reads _ trivial) fun outputType => ?_
    have rest (_ : Unit) : Q (do
        let _key ← span .ar kKeySize
        let assetTypeLen ← varint .ar
        skip .ar assetTypeLen
        let _viewTag ← byte .ar
        BlockTemplate.zephyrOutputs count) :=
      stagewise.bind (stagewise.reads _ trivial) fun _ => stagewise.bind (stagewise.reads _ trivial) fun _ =>
        stagewise.bind (stagewise.reads _ trivial) fun _ => stagewise.bind (stagewise.reads _ trivial) fun _ => ih
    dsimp only
    split
    · exact stagewise.bind (stagewise.leaves false) rest
    · exact rest ()

theorem minerTxOutputs (numOutputs : BitVec 64) : Q (minerTxOutputs coin numOutputs) := by
  unfold BlockTemplate.minerTxOutputs
  extract_lets extra unlock asset
  have extra_all (r : Unit) : Q (extra r) :=
    stagewise.bind (stagewise.reads _ trivial) fun extraSize =>
      stagewise.bind (stagewise.sets _ (.extraSize extraSize)) fun _ => stagewise.pure _
  have unlock_all (r : Unit) : Q (unlock r) := by
    dsimp only [unlock]
    split
    · exact stagewise.bind (stagewise.reads _ trivial) fun unlockTime =>
        stagewise.bind (stagewise.sets _ (.unlockTime unlockTime)) extra_all
    · exact extra_all ()
  have asset_all (r : Unit) : Q (asset r) :=
    stagewise.bind (stagewise.reads _ trivial) fun _ => stagewise.bind (stagewise.reads _ trivial) fun _ =>
      stagewise.bind (stagewise.reads _ trivial) fun viewTag =>
      stagewise.bind (stagewise.sets _ (.viewTag viewTag)) fun _ =>
      stagewise.bind (stagewise.zephyrOutputs _) unlock_all
  refine stagewise.bind (stagewise.reads _ trivial) fun amount =>
    stagewise.bind (stagewise.sets _ (.amount amount)) fun _ =>
    stagewise.bind (stagewise.reads _ trivial) fun outputType =>
    stagewise.bind (stagewise.sets _ (.outputType outputType)) fun _ => ?_
  extract_lets key
  have key_all (r : Unit) : Q (key r) := by
    refine stagewise.bind (stagewise.markOffset Offset.noConfusion) fun _ =>
      stagewise.bind (stagewise.reads _ trivial) fun ephPublicKey =>
      stagewise.bind (stagewise.sets _ (.ephPublicKey ephPublicKey)) fun _ => ?_
    split
    · split
      · exact stagewise.bind (stagewise.leaves false) asset_all
      · exact asset_all ()
    · split
      · exact stagewise.bind (stagewise.reads _ trivial) fun viewTag =>
          stagewise.bind (stagewise.sets _ (.viewTag viewTag)) unlock_all
      · exact unlock_all ()
  split
  · exact stagewise.bind (stagewise.leaves false) key_all
  · exact key_all ()

theorem minerTxEnd (height : BitVec 64) : Q (minerTxEnd coin height) := by
  unfold BlockTemplate.minerTxEnd
  extract_lets hashes prefixEnd
  have hashes_all (r : Unit) : Q (hashes r) :=
    stagewise.bind (stagewise.reads _ trivial) fun numHashes => stagewise.sets _ (.numHashes numHashes)
  have prefixEnd_all (r : Unit) : Q (prefixEnd r) := by
    refine stagewise.marks _ _ Offset.noConfusion fun i => stagewise.bind (stagewise.reads _ trivial) fun vinRctType => ?_
    extract_lets ends rct
    have ends_all (r : Unit) : Q (ends r) := by
      refine stagewise.bind (stagewise.reads _ trivial) fun zero => ?_
      split
      · exact stagewise.bind (stagewise.leaves false) hashes_all
      · exact hashes_all ()
    have rct_all (r : Unit) : Q (rct r) := by
      dsimp only [rct]
      split
      · exact stagewise.bind (stagewise.leaves false) ends_all
      · exact ends_all ()
    split
    · exact stagewise.bind (stagewise.leaves true) rct_all
    · exact rct_all ()
  split
  · exact stagewise.bind (stagewise.reads _ trivial) fun _ => stagewise.bind (stagewise.reads _ trivial) fun _ =>
      stagewise.bind (stagewise.reads _ trivial) fun _ => prefixEnd_all ()
  · exact prefixEnd_all ()

theorem extraField (mark : ∀ offset, offset ≠ .nonce → Q (markExtraOffset offset)) (first : Bool) :
    Q (extraField first) := by
  unfold BlockTemplate.extraField
  refine stagewise.bind (stagewise.reads _ trivial) fun tag => ?_
  have key (_ : Unit) : Q (do skip .arExtra kKeySize; Pure.pure false) :=
    stagewise.bind (stagewise.reads _ trivial) fun _ => stagewise.pure _
  dsimp only
  split
  · split
    · exact stagewise.bind (mark _ Offset.noConfusion) key
    · exact key ()
  · split
    · exact stagewise.bind (stagewise.reads _ trivial) fun _ => stagewise.bind (mark _ Offset.noConfusion) fun _ =>
        stagewise.bind (stagewise.reads _ trivial) fun txExtraNonce =>
        stagewise.bind (stagewise.sets _ (.txExtraNonce txExtraNonce)) fun _ => stagewise.pure _
    · split
      · exact stagewise.bind (stagewise.reads _ trivial) fun _ => stagewise.bind (mark _ Offset.noConfusion) fun _ =>
          stagewise.bind (stagewise.reads _ trivial) fun txMergeMiningTag =>
          stagewise.bind (stagewise.sets _ (.txMergeMiningTag txMergeMiningTag)) fun _ => stagewise.pure _
      · exact stagewise.leaves false

end Stagewise

theorem stagewise_all {P : ReadOp → Prop} (reads : ∀ op : ReadOp, op.Reads → P op) (leaves : ∀ result, P (.leave result))
    (marks : ∀ offset i, offset ≠ .nonce → P (.update (Parsed.setOffset offset i)))
    (sets : ∀ change, SetsField change → P (.update change)) :
    Stagewise fun {A} (scanner : Scanner A) => Program.All (I := readInterface) P scanner where
  pure value := Program.all_pure value
  bind := Program.all_bind
  reads op read := Program.all_perform.mpr (reads op read)
  leaves result := ⟨leaves result, fun reply => reply.elim⟩
  marks offset _ other all := Program.all_bind (Program.all_perform.mpr (reads _ trivial)) fun i =>
    Program.all_bind (Program.all_perform.mpr (marks offset i other)) fun _ => all i
  sets change assigned := Program.all_perform.mpr (sets change assigned)

end Xmrig.BlockTemplate
