import Xmrig.Base.Coin
import Xmrig.Base.Cvt
import Xmrig.Cryptonote.BlobReader
import Xmrig.Foundation.Interaction

/-! Parsing of block templates received from a daemon.

`parse(bool)` is a program over the two blob readers of the source and the fields
of the template; `handle` executes its operations. Locals of the source that are
read back from a field right after it was written are bound to the value read.
Keccak and the allocator are parameters. The loop over the extra field of the
miner transaction is cut off after a number of rounds, so that a parse which the
source never leaves is one that no number of rounds finishes.
-/

set_option autoImplicit false

namespace Xmrig

open Foundation

/-- `std::vector<uint8_t>`, which cannot be longer than `PTRDIFF_MAX`. -/
structure Buffer where
  bytes : List Byte
  size_lt : bytes.length < 2 ^ 63

/-- `BlockTemplate::Offset`. -/
inductive Offset where
  | nonce
  | minerTxPrefix
  | minerTxPrefixEnd
  | ephPublicKey
  | txExtra
  | txPubkey
  | txExtraNonce
  | txExtraMergeMiningTag
  deriving DecidableEq, Repr

namespace BlockTemplate

def kHashSize : BitVec 64 := 32
def kKeySize : BitVec 64 := 32
def kNonceSize : BitVec 64 := 4
def kSignatureSize : BitVec 64 := 64
def kMinSize : Nat := 76

/-- The members that a parse writes, all but `m_blob` and `m_coin`. -/
structure Parsed where
  offsets : Offset → Nat := fun _ => 0
  version : Byte × Byte := (0, 0)
  timestamp : BitVec 64 := 0
  prevId : Span := ⟨0, 0⟩
  minerSignature : Span := ⟨0, 0⟩
  vote : List Byte := [0, 0]
  txVersion : BitVec 64 := 0
  unlockTime : BitVec 64 := 0
  numInputs : BitVec 64 := 0
  inputType : Byte := 0
  height : BitVec 64 := 0
  numOutputs : BitVec 64 := 0
  amount : BitVec 64 := 0
  outputType : Byte := 0
  ephPublicKey : Span := ⟨0, 0⟩
  viewTag : Byte := 0
  extraSize : BitVec 64 := 0
  txExtraNonce : Span := ⟨0, 0⟩
  txMergeMiningTag : Span := ⟨0, 0⟩
  numHashes : BitVec 64 := 0
  hashes : List Byte := []
  minerTxMerkleTreeBranch : List Byte := []
  rootHash : List Byte := List.replicate 32 0

/-- Offsets are stored as `uint32_t`. -/
def Parsed.setOffset (offset : Offset) (value : Nat) (parsed : Parsed) : Parsed :=
  { parsed with offsets := Function.update parsed.offsets offset (value % 2 ^ 32) }

/-- What parsing takes from outside: the hash function and the allocator's answers. -/
structure Env where
  keccak : List Byte → List Byte
  allocates : Nat → Bool

/-- The two readers of `parse(bool)`. -/
inductive Stream where
  | ar
  | arExtra
  deriving DecidableEq, Repr

/-- What the stages of `parse(bool)` do: reads, and work on the fields. Array sizes are
template arguments; spans and skips take a `size_t`. -/
inductive ReadOp where
  | byte (stream : Stream)
  | varint (stream : Stream)
  | array (stream : Stream) (n : BitVec 8)
  | span (stream : Stream) (n : BitVec 64)
  | skip (stream : Stream) (n : BitVec 64)
  | index (stream : Stream)
  | update (change : Parsed → Parsed)
  | endsInZero (offset : Nat)
  | leave (result : Bool)

def readInterface : Interface where
  Op := ReadOp
  Reply
    | .byte _ => Byte
    | .varint _ => BitVec 64
    | .array _ _ => List Byte
    | .span _ _ => Span
    | .skip _ _ => Unit
    | .index _ => Nat
    | .update _ => Unit
    | .endsInZero _ => Bool
    | .leave _ => Empty

abbrev Scanner := Program readInterface

def perform (op : ReadOp) : Scanner (readInterface.Reply op) := Program.perform (I := readInterface) op

def byte (stream : Stream) : Scanner Byte := perform (.byte stream)
def varint (stream : Stream) : Scanner (BitVec 64) := perform (.varint stream)
def array (stream : Stream) (n : BitVec 8) : Scanner (List Byte) := perform (.array stream n)
def span (stream : Stream) (n : BitVec 64) : Scanner Span := perform (.span stream n)
def skip (stream : Stream) (n : BitVec 64) : Scanner Unit := perform (.skip stream n)
def index (stream : Stream) : Scanner Nat := perform (.index stream)
def update (change : Parsed → Parsed) : Scanner Unit := perform (.update change)
def endsInZero (offset : Nat) : Scanner Bool := perform (.endsInZero offset)
def leave {A : Type} (result : Bool) : Scanner A := .call (I := readInterface) (.leave result) Empty.elim

/-- `setOffset(offset, ar.index())`. -/
def markOffset (offset : Offset) : Scanner Unit := do
  let i ← index .ar
  update (Parsed.setOffset offset i)

section Stages
variable (coin : Coin)

/-- Block header up to the nonce; the result is the major version. -/
def headerVersion : Scanner Byte := do
  let major ← byte .ar
  update fun p => { p with version := (major, p.version.2) }
  let minor ← byte .ar
  update fun p => { p with version := (p.version.1, minor) }
  let timestamp ← varint .ar
  update fun p => { p with timestamp }
  let prevId ← span .ar kHashSize
  update fun p => { p with prevId }
  return major

/-- The signature is written for Wownero templates from version 18 on; other templates
do not clear what an earlier one has left. -/
def minerSignature (major : Byte) : Scanner Unit := do
  if coin = .wownero ∧ 18 ≤ major.toNat then
    let minerSignature ← span .ar kSignatureSize
    update fun p => { p with minerSignature }
    let vote ← array .ar 2
    update fun p => { p with vote }

def header : Scanner Unit := do
  let major ← headerVersion
  markOffset .nonce
  skip .ar kNonceSize
  minerSignature coin major
  if coin = .zephyr then
    let _pricingRecord ← array .ar 120

/-- Miner transaction, from the beginning of its prefix to the number of outputs. -/
def minerTxInputs : Scanner (BitVec 64 × BitVec 64) := do
  markOffset .minerTxPrefix
  let txVersion ← varint .ar
  update fun p => { p with txVersion }
  if coin ≠ .townforge then
    let unlockTime ← varint .ar
    update fun p => { p with unlockTime }
  let numInputs ← varint .ar
  update fun p => { p with numInputs }
  if numInputs ≠ 1 then leave false
  let inputType ← byte .ar
  update fun p => { p with inputType }
  if inputType ≠ 0xff then leave false
  let height ← varint .ar
  update fun p => { p with height }
  let numOutputs ← varint .ar
  update fun p => { p with numOutputs }
  if coin = .zephyr then
    if numOutputs.toNat < 2 then leave false
  else if numOutputs ≠ 1 then leave false
  return (height, numOutputs)

/-- The outputs of a Zephyr miner transaction after the first one. -/
def zephyrOutputs : Nat → Scanner Unit
  | 0 => pure ()
  | count + 1 => do
    let _amount ← varint .ar
    let outputType ← byte .ar
    if outputType ≠ 2 then leave false
    let _key ← span .ar kKeySize
    let assetTypeLen ← varint .ar
    skip .ar assetTypeLen
    let _viewTag ← byte .ar
    zephyrOutputs count

def minerTxOutputs (numOutputs : BitVec 64) : Scanner (BitVec 64) := do
  let amount ← varint .ar
  update fun p => { p with amount }
  let outputType ← byte .ar
  update fun p => { p with outputType }
  if outputType ≠ 2 ∧ outputType ≠ 3 then leave false
  markOffset .ephPublicKey
  let ephPublicKey ← span .ar kKeySize
  update fun p => { p with ephPublicKey }
  if coin = .zephyr then
    if outputType ≠ 2 then leave false
    let assetTypeLen ← varint .ar
    skip .ar assetTypeLen
    let viewTag ← byte .ar
    update fun p => { p with viewTag }
    zephyrOutputs (numOutputs.toNat - 1)
  else if outputType = 3 then
    let viewTag ← byte .ar
    update fun p => { p with viewTag }
  if coin = .townforge then
    let unlockTime ← varint .ar
    update fun p => { p with unlockTime }
  let extraSize ← varint .ar
  update fun p => { p with extraSize }
  return extraSize

/-- `setOffset(offset, offset(TX_EXTRA_OFFSET) + ar_extra.index())`. -/
def markExtraOffset (offset : Offset) : Scanner Unit := do
  let i ← index .arExtra
  update fun p => p.setOffset offset (p.offsets .txExtra + i)

/-- One round of the loop over the extra field; the result is `pubkey_offset_first`. -/
def extraField (pubkeyOffsetFirst : Bool) : Scanner Bool := do
  let tag ← varint .arExtra
  if tag = 0x01 then
    if pubkeyOffsetFirst then
      markExtraOffset .txPubkey
    skip .arExtra kKeySize
    return false
  else if tag = 0x02 then
    let size ← varint .arExtra
    markExtraOffset .txExtraNonce
    let txExtraNonce ← span .arExtra size
    update fun p => { p with txExtraNonce }
    return pubkeyOffsetFirst
  else if tag = 0x03 then
    let size ← varint .arExtra
    markExtraOffset .txExtraMergeMiningTag
    let txMergeMiningTag ← span .arExtra size
    update fun p => { p with txMergeMiningTag }
    return pubkeyOffsetFirst
  else
    leave false

/-- From the end of the extra field to the number of the other transactions. -/
def minerTxEnd (height : BitVec 64) : Scanner Unit := do
  if coin = .zephyr then
    let _pricingRecordHeight ← varint .ar
    let _amountBurnt ← varint .ar
    let _amountMinted ← varint .ar
  let prefixEnd ← index .ar
  update (Parsed.setOffset .minerTxPrefixEnd prefixEnd)
  let vinRctType ← byte .ar
  if coin = .townforge ∧ height.toNat % 720 = 0 then leave true
  if vinRctType ≠ 0 then leave false
  -- exactly one byte with value 0 after the prefix
  let ends ← endsInZero (prefixEnd % 2 ^ 32)
  if !ends then leave false
  let numHashes ← varint .ar
  update fun p => { p with numHashes }

end Stages

/-- All of `parse(bool)`. -/
inductive Op where
  | read (op : ReadOp)
  | openExtra (n : BitVec 64)
  | parsed
  | allocate (size : Nat)
  | prefixBytes
  | storeHash (i : Nat) (hash : List Byte)
  | unfinished

def interface : Interface where
  Op := Op
  Reply
    | .read op => readInterface.Reply op
    | .openExtra _ => Unit
    | .parsed => Parsed
    | .allocate _ => Unit
    | .prefixBytes => List Byte
    | .storeHash _ _ => Unit
    | .unfinished => Empty

abbrev Parser := Program interface

def stage {A : Type} (scanner : Scanner A) : Parser A :=
  scanner.interpret fun op => Program.perform (I := interface) (.read op)

def openExtra (n : BitVec 64) : Parser Unit := Program.perform (I := interface) (.openExtra n)
def readParsed : Parser Parsed := Program.perform (I := interface) .parsed
def allocate (size : Nat) : Parser Unit := Program.perform (I := interface) (.allocate size)
def prefixBytes : Parser (List Byte) := Program.perform (I := interface) .prefixBytes
def storeHash (i : Nat) (hash : List Byte) : Parser Unit := Program.perform (I := interface) (.storeHash i hash)
def unfinished {A : Type} : Parser A := .call (I := interface) .unfinished Empty.elim

def extraFields (extraSize : BitVec 64) : (rounds : Nat) → (pubkeyOffsetFirst : Bool) → Parser Unit
  | 0, _ => unfinished
  | rounds + 1, pubkeyOffsetFirst => do
    let i ← stage (index .arExtra)
    if i < extraSize.toNat then
      let first ← stage (extraField pubkeyOffsetFirst)
      extraFields extraSize rounds first

def minerTx (coin : Coin) (rounds : Nat) : Parser Unit := do
  let (height, numOutputs) ← stage (minerTxInputs coin)
  let extraSize ← stage (minerTxOutputs coin numOutputs)
  openExtra extraSize
  extraFields extraSize rounds true
  stage (minerTxEnd coin height)

/-- `parse(bool)` up to the hashes of the other transactions. -/
def scan (coin : Coin) (rounds : Nat) : Parser Unit := do
  stage (header coin)
  minerTx coin rounds

/-! Transaction hashes. -/

/-- The `i`-th hash of a table of hashes. -/
def hashAt (bytes : List Byte) (i : Nat) : List Byte := (bytes.drop (i * 32)).take 32

/-- The hash of the empty base part of a miner transaction's signature. -/
def knownSecondHash : List Byte :=
  [188, 54, 120, 158, 122, 30, 40, 20, 54, 70, 66, 41, 130, 143, 129, 125,
   102, 18, 247, 180, 119, 214, 101, 145, 255, 150, 169, 224, 100, 188, 201, 138]

/-- `calculateMinerTxHash`, on the bytes between the two pointers. -/
def calculateMinerTxHash (keccak : List Byte → List Byte) (bytes : List Byte) : List Byte :=
  keccak (keccak bytes ++ knownSecondHash ++ List.replicate 32 0)

/-- The locals `ints` and `m_minerTxMerkleTreeBranch` of the Merkle tree computation. -/
structure Tree where
  ints : Nat → List Byte
  branch : List Byte

/-- The loop that hashes the pair at `i` into `ints[j]`, for `i += 2` and `++j`. -/
def pairUp (keccak : List Byte → List Byte) (source : Tree → Nat → List Byte) :
    (rounds i j : Nat) → Tree → Tree
  | 0, _, _, tree => tree
  | rounds + 1, i, j, tree =>
    let hash := keccak (source tree i ++ source tree (i + 1))
    let branch := if i = 0 then tree.branch ++ source tree 1 else tree.branch
    pairUp keccak source rounds (i + 2) (j + 1) ⟨Function.update tree.ints j hash, branch⟩

/-- `while (cnt > 2)`. A word is halved at most 64 times. -/
def levels (keccak : List Byte → List Byte) : (rounds cnt : Nat) → Tree → Tree
  | 0, _, tree => tree
  | rounds + 1, cnt, tree =>
    if 2 < cnt then
      levels keccak rounds (cnt / 2) (pairUp keccak (fun t => t.ints) (cnt / 2) 0 0 tree)
    else tree

/-- The first power of two above `count`. The table of hashes has been filled from
the blob, so `count` is far below the word size here. -/
def doubled (count : Nat) : (rounds cnt : Nat) → Nat
  | 0, cnt => cnt
  | rounds + 1, cnt => if cnt ≤ count then doubled count rounds (2 * cnt) else cnt

def leafCount (count : Nat) : Nat := doubled count 64 1 / 2

/-- The branch and the root that `calculateMerkleTreeHash` computes from the table. -/
def merkleTree (keccak : List Byte → List Byte) (hashes : List Byte) (count : Nat) :
    List Byte × List Byte :=
  let h := hashAt hashes
  if count = 1 then ([], h 0)
  else if count = 2 then (h 1, keccak (h 0 ++ h 1))
  else
    let cnt := leafCount count
    let kept := cnt * 2 - count
    let first := pairUp keccak (fun _ => h) (cnt - kept) kept kept
      ⟨fun k => if k < kept then h k else List.replicate 32 0, []⟩
    let tree := levels keccak 64 cnt first
    (tree.branch ++ tree.ints 1, keccak (tree.ints 0 ++ tree.ints 1))

section Hashes
variable (env : Env)

def calculateMerkleTreeHash : Parser Unit := do
  stage (update fun p => { p with minerTxMerkleTreeBranch := [] })
  let parsed ← readParsed
  let count := (parsed.numHashes + 1).toNat
  if 2 < count then allocate (leafCount count * 32)
  stage (update fun p => { p with
    minerTxMerkleTreeBranch := (merkleTree env.keccak parsed.hashes count).1
    rootHash := (merkleTree env.keccak parsed.hashes count).2 })

/-- The hashes listed in the blob, stored from index `i` on. Each span is copied as
soon as it is read, so it is read as an array here. -/
def storeHashes : (count i : Nat) → Parser Unit
  | 0, _ => pure ()
  | count + 1, i => do
    let hash ← stage (array .ar 32)
    storeHash i hash
    storeHashes count (i + 1)

/-- The size of the table in `size_t`. -/
def tableSize (numHashes : BitVec 64) : Nat := ((numHashes + 1) * 32).toNat

def transactionHashes : Parser Unit := do
  let parsed ← readParsed
  allocate (tableSize parsed.numHashes)
  stage (update fun p => { p with hashes := Cvt.resize p.hashes (tableSize parsed.numHashes) })
  let bytes ← prefixBytes
  storeHash 0 (calculateMinerTxHash env.keccak bytes)
  storeHashes parsed.numHashes.toNat 1
  calculateMerkleTreeHash env

/-- `parse(bool)`. -/
def parseBlob (coin : Coin) (hashes : Bool) (rounds : Nat) : Parser Unit := do
  scan coin rounds
  if hashes then transactionHashes env

end Hashes

/-! Execution. -/

/-- Why a parse ends before its last statement. -/
inductive Stop where
  | returned (result : Bool)
  | thrown
  | fault
  | unfinished
  deriving DecidableEq, Repr

/-- A successful operation of a reader: its range and its position before and after. -/
structure Access where
  data : Nat
  size : Nat
  before : Nat
  after : Nat
  deriving DecidableEq, Repr

/-- A length put to a reader, with the reader's position at that time. -/
structure Request where
  index : Nat
  length : BitVec 64
  deriving DecidableEq, Repr

/-- The running parse. `accesses` and `requests` record what the readers were asked
for; nothing in the parse depends on them. -/
structure Parsing where
  blob : Buffer
  parsed : Parsed
  ar : BlobReader
  arExtra : BlobReader
  accesses : List Access
  requests : List Request

namespace Parsing

/-- `BlobReader<true> ar(m_blob.data(), m_blob.size())`. -/
def start (blob : Buffer) (parsed : Parsed) : Parsing :=
  ⟨blob, parsed, .open' 0 blob.bytes.length, .open' 0 0, [], []⟩

def reader (state : Parsing) : Stream → BlobReader
  | .ar => state.ar
  | .arExtra => state.arExtra

def setReader (state : Parsing) (stream : Stream) (reader : BlobReader) : Parsing :=
  match stream with
  | .ar => { state with ar := reader }
  | .arExtra => { state with arExtra := reader }

def request (state : Parsing) (stream : Stream) (n : BitVec 64) : Parsing :=
  { state with requests := ⟨(state.reader stream).index, n⟩ :: state.requests }

/-- The result of a read on the stream, with the exception that `outOfRange` throws. -/
def complete {A : Type} (state : Parsing) (stream : Stream) :
    Except ReadError (A × BlobReader) → Except Stop A × Parsing
  | .error .outOfRange => (.error .thrown, state)
  | .error .fault => (.error .fault, state)
  | .ok (value, next) =>
    let before := (state.reader stream).index
    let moved := state.setReader stream next
    (.ok value, { moved with accesses := ⟨next.data, next.size, before, next.index⟩ :: moved.accesses })

/-- The reader `ar_extra` starts at the stored offset; nothing reads it if the skip of
the extra field throws. -/
def attachExtra (offset : Nat) (n : BitVec 64) : Except Stop Unit × Parsing → Except Stop Unit × Parsing
  | (.ok _, after) => (.ok (), { after with arExtra := .open' offset n.toNat })
  | (.error why, after) => (.error why, after)

end Parsing

/-- The length of the miner transaction prefix as the `int` passed to keccak. -/
def prefixLength (parsed : Parsed) : Int :=
  (((parsed.offsets .minerTxPrefixEnd : Int) - parsed.offsets .minerTxPrefix)).bmod (2 ^ 32)

/-- The bytes of the prefix are a range of the blob. -/
def PrefixInBlob (state : Parsing) : Prop :=
  0 ≤ prefixLength state.parsed ∧
    state.parsed.offsets .minerTxPrefix + (prefixLength state.parsed).toNat ≤ state.blob.bytes.length

instance (state : Parsing) : Decidable (PrefixInBlob state) :=
  inferInstanceAs (Decidable (_ ∧ _))

section Handler
variable (wrap : Nat → Nat)

def handleRead : Handler readInterface Stop Parsing
  | .byte stream, s => s.complete stream ((s.reader stream).getByte s.blob.bytes)
  | .varint stream, s => s.complete stream ((s.reader stream).getVarint s.blob.bytes)
  | .array stream n, s => s.complete stream ((s.reader stream).array wrap s.blob.bytes n.toNat)
  | .span stream n, s => (s.request stream n).complete stream ((s.reader stream).span wrap n.toNat)
  | .skip stream n, s => (s.request stream n).complete stream ((s.reader stream).skip wrap n.toNat)
  | .index stream, s => (.ok (s.reader stream).index, s)
  | .update change, s => (.ok (), { s with parsed := change s.parsed })
  -- the byte is looked at only if the transaction ends right behind it
  | .endsInZero offset, s =>
    if s.ar.index ≠ offset + 1 then (.ok false, s)
    else match s.blob.bytes[offset]? with
      | none => (.error .fault, s)
      | some byte => (.ok (decide (byte = 0)), s)
  | .leave result, s => (.error (.returned result), s)

variable (env : Env)

def handle : Handler interface Stop Parsing
  | .read op, s => handleRead wrap op s
  | .openExtra n, s =>
    let marked := { s with parsed := s.parsed.setOffset .txExtra s.ar.index }
    Parsing.attachExtra (s.ar.index % 2 ^ 32) n
      ((marked.request .ar n).complete .ar (s.ar.skip wrap n.toNat))
  | .parsed, s => (.ok s.parsed, s)
  | .allocate size, s => if env.allocates size then (.ok (), s) else (.error .thrown, s)
  | .prefixBytes, s =>
    if PrefixInBlob s then
      (.ok ((s.blob.bytes.drop (s.parsed.offsets .minerTxPrefix)).take (prefixLength s.parsed).toNat), s)
    else (.error .fault, s)
  | .storeHash i hash, s =>
    let table := s.parsed.hashes
    if (i + 1) * 32 ≤ table.length then
      (.ok (), { s with parsed := { s.parsed with
        hashes := table.take (i * 32) ++ Cvt.resize hash 32 ++ table.drop ((i + 1) * 32) } })
    else (.error .fault, s)
  | .unfinished, s => (.error .unfinished, s)

/-- `parse(bool)` on a template that holds `parsed` from earlier calls. -/
def runParse (coin : Coin) (hashes : Bool) (rounds : Nat) (blob : Buffer) (parsed : Parsed) :
    Except Stop Unit × Parsing :=
  exec (handle wrap env) (parseBlob env coin hashes rounds) (.start blob parsed)

end Handler

/-- The value of the enclosing `try`; no value if the parse faults or goes on. -/
def result : Except Stop Unit → Option Bool
  | .ok () => some true
  | .error (.returned value) => some value
  | .error .thrown => some false
  | .error .fault => none
  | .error .unfinished => none

end BlockTemplate

structure BlockTemplate where
  blob : List Byte := []
  coin : Coin := .invalid
  parsed : BlockTemplate.Parsed := {}

namespace BlockTemplate

/-- A call of the public `parse`: how it ends, what it leaves, what its readers did. -/
structure Report where
  outcome : Except Stop Unit
  template : BlockTemplate
  accesses : List Access

def hasMinerSignature (template : BlockTemplate) : Bool := !template.parsed.minerSignature.empty

/-- `parse(const Buffer &, ...)`. -/
def parse (env : Env) (template : BlockTemplate) (blocktemplate : Buffer) (coin : Coin)
    (hashes : Bool) (rounds : Nat) : Report :=
  if blocktemplate.bytes.length < kMinSize then ⟨.error (.returned false), template, []⟩
  else
    let ran := runParse sizeT env coin hashes rounds blocktemplate template.parsed
    ⟨ran.1, ⟨blocktemplate.bytes, coin, ran.2.parsed⟩, ran.2.accesses⟩

/-- `parse(const char *, size_t, ...)`. The text is decoded into `m_blob` itself. -/
def parseHex (env : Env) (template : BlockTemplate) (blocktemplate : List Byte) (coin : Coin)
    (hashes : Bool) (rounds : Nat) : Report :=
  let decoded := Cvt.fromHex template.blob blocktemplate
  if blocktemplate.length < kMinSize * 2 then ⟨.error (.returned false), template, []⟩
  else if decoded.2 = false then
    ⟨.error (.returned false), { template with blob := decoded.1 }, []⟩
  else if fits : decoded.1.length < 2 ^ 63 then
    let ran := runParse sizeT env coin hashes rounds ⟨decoded.1, fits⟩ template.parsed
    ⟨ran.1, ⟨decoded.1, coin, ran.2.parsed⟩, ran.2.accesses⟩
  -- no vector is that long
  else ⟨.error .thrown, template, []⟩

end BlockTemplate

end Xmrig
