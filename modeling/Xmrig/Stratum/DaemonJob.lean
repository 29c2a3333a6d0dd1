import Xmrig.Base.JobBlob
import Xmrig.Cryptonote.TemplateHeader

/-! The job of a daemon client: the template it was built from and the block that
is assembled for a result.

Key derivation and the decoding of wallet addresses are parameters. A C string is
the list of its characters; a missing member is a null one.
-/

set_option autoImplicit false

namespace Xmrig

structure WalletAddress where
  valid : Bool := false
  coin : Coin := .invalid
  spendKey : List Byte := []
  viewKey : List Byte := []
  deriving DecidableEq, Repr

/-- The functions of `crypto` and `WalletAddress` that a daemon client calls. -/
structure Crypto where
  secretKeyToPublicKey : List Byte → Option (List Byte)
  deriveViewSecretKey : List Byte → List Byte
  generateKeyDerivation : List Byte → List Byte → Option (List Byte)
  deriveSecretKey : List Byte → Nat → List Byte → List Byte
  decodeWallet : List Byte → WalletAddress

/-- What a daemon client reads of its `Pool`. `expandedUser` is the user with the
environment variables in it replaced. -/
structure DaemonPool where
  valid : Bool := true
  algorithm : Algorithm := .invalid
  coin : Coin := .invalid
  user : List Byte := []
  expandedUser : List Byte := []
  spendSecretKey : List Byte := []
  zmqPort : Int := -1
  deriving DecidableEq, Repr

/-- The members of a `getblocktemplate` result. -/
structure JobParams where
  blocktemplateBlob : Option (List Byte) := none
  blockhashingBlob : Option (List Byte) := none
  seedHash : Option (List Byte) := none
  prevHash : Option (List Byte) := none
  height : BitVec 64 := 0
  difficulty : BitVec 64 := 0
  deriving DecidableEq, Repr

structure EphemeralKeys where
  publicKey : List Byte
  secretKey : List Byte
  deriving DecidableEq, Repr

/-- Why `parseJob` refuses a template. -/
inductive JobError where
  | emptyTemplate
  | invalidTemplate
  | spendKeyMissing
  | spendKeyLength
  | spendKeyHex
  | spendKeyInvalid
  | viewKeyInvalid
  | keyDerivation
  | walletInvalid
  | spendKeyMismatch
  | viewKeyMismatch
  | hashingBlob
  deriving DecidableEq, Repr

/-- The text that `jobError` logs; a refused hashing blob is not logged. -/
def JobError.message : JobError → Option String
  | emptyTemplate => "Empty block template received from daemon."
  | invalidTemplate => "Invalid block template received from daemon."
  | spendKeyMissing => "Secret spend key is not set."
  | spendKeyLength => "Secret spend key has invalid length. It must be 64 hex characters."
  | spendKeyHex => "Secret spend key is not a valid hex data."
  | spendKeyInvalid => "Secret spend key is invalid."
  | viewKeyInvalid => "Secret view key is invalid."
  | keyDerivation => "Failed to generate key derivation for miner signature."
  | walletInvalid => "Invalid wallet address."
  | spendKeyMismatch => "Wallet address and spend key don't match."
  | viewKeyMismatch => "Wallet address and view key don't match."
  | hashingBlob => none

/-- The value of `*code`. -/
def JobError.code (error : JobError) : Int := if error = .hashingBlob then 3 else 1

/-- The part of a daemon client that templates and results work on. -/
structure Work where
  pool : DaemonPool := {}
  coin : Coin := .invalid
  walletAddress : WalletAddress := {}
  blocktemplate : BlockTemplate := {}
  blockhashingblob : Option (List Byte) := none
  job : Job := {}
  ephemeralKeys : Option EphemeralKeys := none
  currentJobId : Option String := none
  blocktemplateStr : List Byte := []
  prevHash : Option (List Byte) := none
  /-- The text and the coin of the last accepted template; nothing reads them. -/
  received : List Byte × Coin := ([], .invalid)

namespace Work

/-- The 32 bytes at a recorded offset; none if they are not all in the blob. -/
def keyAt (work : Work) (offset : Offset) : Option (List Byte) :=
  let start := work.blocktemplate.parsed.offsets offset
  if start + 32 ≤ work.blocktemplate.blob.length then
    some ((work.blocktemplate.blob.drop start).take 32)
  else none

/-- The branch of `parseJob` for templates with a miner signature. No result if a key is
read outside of the blob. -/
def minerKeys (crypto : Crypto) (work : Work) : Option (Except JobError EphemeralKeys × Work) :=
  let key := work.pool.spendSecretKey
  let decoded := Cvt.hex2bin key 32 none
  if key.isEmpty then some (.error .spendKeyMissing, work)
  else if key.length ≠ 64 then some (.error .spendKeyLength, work)
  else if decoded.ok = false then some (.error .spendKeyHex, work)
  else match crypto.secretKeyToPublicKey decoded.written with
    | none => some (.error .spendKeyInvalid, work)
    | some publicSpendkey =>
      let secretViewkey := crypto.deriveViewSecretKey decoded.written
      match crypto.secretKeyToPublicKey secretViewkey, work.keyAt .txPubkey with
      | none, _ => some (.error .viewKeyInvalid, work)
      | some _, none => none
      | some publicViewkey, some txPubkey =>
        match crypto.generateKeyDerivation txPubkey secretViewkey with
        | none => some (.error .keyDerivation, work)
        | some derivation =>
          let wallet := crypto.decodeWallet work.pool.user
          let work := { work with walletAddress := wallet }
          if wallet.valid = false then some (.error .walletInvalid, work)
          else if wallet.spendKey ≠ publicSpendkey then some (.error .spendKeyMismatch, work)
          else if wallet.viewKey ≠ publicViewkey then some (.error .viewKeyMismatch, work)
          else (work.keyAt .ephPublicKey).map fun ephPublicKey =>
            (.ok ⟨ephPublicKey, crypto.deriveSecretKey derivation 0 decoded.written⟩, work)

/-- The job that is filled in before it replaces `m_job`. -/
def newJob (work : Work) (keys : Option EphemeralKeys) : Job :=
  { algorithm := if work.coin.isValid then work.coin.algorithm else work.pool.algorithm
    hasMinerSignature := keys.isSome }

/-- The last statements of `parseJob`, from the hashing blob on. -/
def finish (work : Work) (params : JobParams) (template : List Byte) (keys : Option EphemeralKeys)
    (id : String) : Except JobError Unit × Work :=
  match (work.newJob keys).setBlob work.blockhashingblob with
  | none => (.error .hashingBlob, work)
  | some job =>
    let job := { (job.setSeedHash params.seedHash).setDiff params.difficulty with
      height := params.height, id := some id }
    (.ok (), { work with
      job, ephemeralKeys := keys, currentJobId := some id, blocktemplateStr := template
      prevHash := params.prevHash, received := (template, work.coin) })

section Parse
variable (env : BlockTemplate.Env) (crypto : Crypto)

/-- `parseJob` up to the notification of the listener. `id` is the random job id;
`rounds` bounds the loop of the template parser. No result if the parser does not
return. -/
def parseJob (work : Work) (params : JobParams) (id : String) (rounds : Nat) :
    Option (Except JobError Unit × Work) :=
  match params.blocktemplateBlob with
  | none => some (.error .emptyTemplate, work)
  | some template =>
    let report := work.blocktemplate.parseHex env template work.coin false rounds
    let parsed := { work with blocktemplate := report.template }
    match BlockTemplate.result report.outcome with
    | none => none
    | some false => some (.error .invalidTemplate, parsed)
    | some true =>
      let hashing := { parsed with blockhashingblob := params.blockhashingBlob }
      if hashing.blocktemplate.hasMinerSignature then
        (minerKeys crypto hashing).map fun (keys, keyed) =>
          match keys with
          | .error why => (.error why, keyed)
          | .ok keys => keyed.finish params template (some keys) id
      else some (hashing.finish params template none id)

/-- `DaemonClient::setPool`. -/
def setPool (work : Work) (pool : DaemonPool) : Work :=
  let kept := if pool.valid then { work with pool } else work
  let wallet := crypto.decodeWallet kept.pool.expandedUser
  let coin := if pool.coin.isValid then pool.coin else wallet.coin
  { kept with
    walletAddress := wallet
    coin := if coin.isValid = false ∧ pool.algorithm = .rxWow then .wownero else coin }

end Parse

structure JobResult where
  jobId : Option String
  nonce : BitVec 64
  minerSignature : List Byte
  deriving DecidableEq, Repr

/-- Characters written into `m_blocktemplateStr`. -/
structure Patch where
  start : Nat
  text : List Byte
  deriving DecidableEq, Repr

def Patch.stop (patch : Patch) : Nat := patch.start + patch.text.length

/-- Characters behind the end of the text are lost here; the source writes them anyway. -/
def Patch.apply (chars : List Byte) (patch : Patch) : List Byte :=
  (chars.take patch.start ++ patch.text ++ chars.drop patch.stop).take chars.length

def littleEndian (nonce : BitVec 64) : List Byte :=
  [0, 1, 2, 3].map fun i => (nonce >>> (8 * i)).setWidth 8

def sigOffset (work : Work) : Nat := work.job.nonceOffset + work.job.nonceSize

/-- The patches of `submit` for a result of the current job. -/
def patches (work : Work) (result : JobResult) : List Patch :=
  ⟨work.job.nonceOffset * 2, Cvt.toHex (littleEndian result.nonce)⟩ ::
    if work.blocktemplate.hasMinerSignature then
      [⟨work.sigOffset * 2, Cvt.toHex (Cvt.resize result.minerSignature 64)⟩]
    else []

/-- `submit` up to the request; no block for a result of another job. -/
def submit (work : Work) (result : JobResult) : Option (List Byte × Work) :=
  if result.jobId ≠ work.currentJobId then none
  else
    let block := (work.patches result).foldl Patch.apply work.blocktemplateStr
    some (block, { work with blocktemplateStr := block })

end Work

end Xmrig
