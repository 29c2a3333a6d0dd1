import Xmrig.Base.Coin
import Xmrig.Base.JobBlob
import Xmrig.Base.Json

/-! Notifications of the Ethereum and Bitcoin stratum protocols.

An element of the message is read through the type that the source names, and a byte of a
decoded buffer through its offset. Where the source would leave an array, a type or a buffer,
or let an exception out, the run ends with a fault. Tests and reads of elements are logged in
the order in which they are made.
-/

set_option autoImplicit false

namespace Xmrig

/-- The types that elements are asked for. -/
inductive JsonType where
  | string
  | array
  | double
  | uint64
  deriving DecidableEq, Repr

/-- The arrays of a message: `params`, and inside of it the Merkle branches. -/
inductive JsonArray where
  | params
  | branches
  deriving DecidableEq, Repr

structure Element where
  array : JsonArray
  index : Nat
  deriving DecidableEq, Repr

/-- What is done with elements: an array is found to have so many of them, one is asked for its
type, one is read as a type. -/
inductive Access where
  | sized (array : JsonArray) (count : Nat)
  | tested (element : Element) (type : JsonType) (holds : Bool)
  | read (element : Element) (type : JsonType)
  deriving DecidableEq, Repr

/-- Why a run does not come to its end. -/
inductive Fault where
  | thrown (text : String)
  | missing (element : Element)
  | mistyped (element : Element) (type : JsonType)
  | outOfBounds
  | nullString
  deriving DecidableEq, Repr

def JsonType.fits : JsonType → Json → Bool
  | string, .str _ => true
  | array, .arr _ => true
  | double, .double _ => true
  | uint64, value => value.asUint64.isSome
  | _, _ => false

abbrev Reading := StateT (List Access) (Except Fault)

namespace Reading

def record (access : Access) : Reading Unit := modify (· ++ [access])

/-- `arr[index]`; without assertions the source does not look at the size. -/
def element (array : JsonArray) (elements : List Json) (index : Nat) : Reading Json :=
  match elements[index]? with
  | some value => pure value
  | none => throw (.missing ⟨array, index⟩)

/-- `IsString` and its siblings. -/
def hasType (array : JsonArray) (elements : List Json) (index : Nat) (type : JsonType) : Reading Bool := do
  let value ← element array elements index
  record (.tested ⟨array, index⟩ type (type.fits value))
  pure (type.fits value)

/-- A chain of tests; the first one that fails is the last one made. -/
def haveTypes (array : JsonArray) (elements : List Json) : List (Nat × JsonType) → Reading Bool
  | [] => pure true
  | (index, type) :: rest => do
    if ← hasType array elements index type then haveTypes array elements rest else pure false

/-- The value behind `GetString` and its siblings. -/
def get (array : JsonArray) (elements : List Json) (index : Nat) (type : JsonType) : Reading Json := do
  let value ← element array elements index
  if type.fits value then
    record (.read ⟨array, index⟩ type)
    pure value
  else throw (.mistyped ⟨array, index⟩ type)

/-- The characters of a string, those behind a null character included. -/
def getChars (array : JsonArray) (elements : List Json) (index : Nat) : Reading (List Byte) := do
  match ← get array elements index .string with
  | .str chars => pure chars
  | _ => pure []

/-- `GetString` as a C string. -/
def getString (array : JsonArray) (elements : List Json) (index : Nat) : Reading (List Byte) := do
  pure (Json.cString (← getChars array elements index))

def getUint64 (array : JsonArray) (elements : List Json) (index : Nat) : Reading Nat := do
  pure ((← get array elements index .uint64).asUint64.getD 0)

def getArray (array : JsonArray) (elements : List Json) (index : Nat) : Reading (List Json) := do
  match ← get array elements index .array with
  | .arr inner => pure inner
  | _ => pure []

end Reading

/-! Numbers in text. -/

/-- `std::string::resize` with the character `0`. -/
def padZeros (chars : List Byte) (size : Nat) : List Byte :=
  chars.take size ++ List.replicate (size - chars.length) 48

/-- `0x` is skipped in front of a digit only. -/
def skipRadix : List Byte → List Byte
  | 48#8 :: x :: digit :: rest =>
    if (x = 120 ∨ x = 88) ∧ (Cvt.digit digit).isSome then digit :: rest else 48#8 :: x :: digit :: rest
  | chars => chars

def hexValue (chars : List Byte) : Option Nat :=
  match (chars.takeWhile fun char => (Cvt.digit char).isSome).filterMap Cvt.digit with
  | [] => none
  | digits => some (digits.foldl (fun value digit => value * 16 + digit.toNat) 0)

/-- Sign and magnitude that `strtoull` finds to base 16; nothing without a digit. -/
def scanHex (chars : List Byte) : Option (Bool × Nat) :=
  let (negative, rest) := splitSign (chars.dropWhile isSpace)
  (hexValue (skipRadix rest)).map fun magnitude => (negative, magnitude)

/-- `strtoull(.., nullptr, 16)`. -/
def strtoull (chars : List Byte) : BitVec 64 :=
  match scanHex chars with
  | none => 0
  | some (negative, magnitude) =>
    if 2 ^ 64 ≤ magnitude then BitVec.allOnes 64
    else if negative then -BitVec.ofNat 64 magnitude else BitVec.ofNat 64 magnitude

/-- `std::stoull(.., nullptr, 16)`. -/
def stoull (chars : List Byte) : Except Fault (BitVec 64) :=
  match scanHex chars with
  | none => .error (.thrown "invalid_argument")
  | some (_, magnitude) =>
    if 2 ^ 64 ≤ magnitude then .error (.thrown "out_of_range") else .ok (strtoull chars)

/-- A size as the `int` it is converted to. -/
def toInt32 (size : Nat) : Int := (BitVec.ofNat 32 size).toInt

/-- `Cvt::fromHex` that returns its buffer, an empty one if the text is refused. -/
def fromHexBuffer (chars : List Byte) : List Byte :=
  if (Cvt.fromHex [] chars).2 then (Cvt.fromHex [] chars).1 else []

/-- What the code around the client gives: the hash, the scaled difficulty
`ceil(diff * 65536.0)`, the listener's answer and the longest string that can be built. -/
structure EthHost where
  sha256d : List Byte → Vector Byte 32
  scaleDifficulty : Json → BitVec 64
  verifyAlgorithm : Algorithm → Bool
  maxString : Nat

/-- The client as far as notifications read or change it. -/
structure EthStratumClient where
  poolAlgorithm : Algorithm
  coin : Coin := .invalid
  quiet : Bool := false
  authorized : Bool := false
  extraNonce : BitVec 64 × Option (List Byte) := (0, none)
  extraNonce2Size : BitVec 64 := 0
  nextDifficulty : BitVec 64 := 0
  ntime : Option (List Byte) := none
  job : Job := {}

/-- What the client says and does on a notification; `incompatible` is the message about an
incompatible or disabled algorithm. -/
inductive EthOutput where
  | error (text : String)
  | warning (text : String)
  | incompatible (algorithm : Algorithm)
  | loginSuccess
  | jobReceived (job : Job)
  | close
  deriving DecidableEq, Repr

namespace EthStratumClient

def chars (bytes : List Byte) : String := String.ofList (bytes.map fun byte => Char.ofNat byte.toNat)

/-- Without `0x` in front. -/
def skip0x : List Byte → List Byte
  | 48#8 :: 120#8 :: rest => rest
  | text => text

def assignExtraNonce (client : EthStratumClient) (chars : List Byte) : Except Fault EthStratumClient :=
  let digits := skip0x chars
  if digits.length % 2 = 1 then
    .error (.thrown "invalid mining.subscribe response: extra nonce has an odd number of hex chars")
  else if 8 < digits.length then
    .error (.thrown "Invalid mining.subscribe response: extra nonce is too long")
  else do
    let value ← stoull (padZeros (Json.cString digits) 16)
    pure { client with extraNonce := (value, some (Json.cString digits)) }

def setExtraNonce (client : EthStratumClient) (elements : List Json) (index : Nat) :
    Reading EthStratumClient := do
  if ← Reading.hasType .params elements index .string then
    client.assignExtraNonce (← Reading.getChars .params elements index)
  else throw (.thrown "invalid mining.subscribe response: extra nonce is not a string")

/-! The coinbase of a GhostRider job. -/

def byteAt (buf : List Byte) (position : Nat) : Except Fault Byte :=
  match buf[position]? with
  | some byte => .ok byte
  | none => .error .outOfBounds

/-- A little-endian `uint16_t`. -/
def wordAt (buf : List Byte) (position : Nat) : Except Fault Nat := do
  let low ← byteAt buf position
  let high ← byteAt buf (position + 1)
  pure (low.toNat + 256 * high.toNat)

/-- `while ((p < m) && test(*p)) ++p` with `left` bytes up to `m`. -/
def skipWhile (test : Byte → Bool) (buf : List Byte) : (left : Nat) → (position : Nat) → Except Fault Nat
  | 0, position => .ok position
  | left + 1, position => do
    if test (← byteAt buf position) then skipWhile test buf left (position + 1) else .ok position

def scanEnd : Nat := 32 + 128

/-- The height behind a run of at least two bytes `0xff`. -/
def heightAt (buf : List Byte) (position : Nat) : Except Fault Nat := do
  let height ← wordAt buf (position + 2)
  let size ← byteAt buf (position + 1)
  if size = 4 then
    let high ← wordAt buf (position + 4)
    pure ((height + high * 0x10000) % 2 ^ 32)
  else if size = 3 then
    let high ← byteAt buf (position + 4)
    pure ((height + high.toNat * 0x10000) % 2 ^ 32)
  else pure height

def coinbaseHeight (buf : List Byte) : Except Fault Nat := do
  let first ← skipWhile (· ≠ 0xff) buf (scanEnd - 32) 32
  let stop ← skipWhile (· = 0xff) buf (scanEnd - first) first
  if stop < scanEnd then
    if (← byteAt buf (stop - 1)) = 0xff then
      if (← byteAt buf (stop - 2)) = 0xff then heightAt buf stop else pure 0
    else pure 0
  else pure 0

/-- `sha256d` takes the size as an `int`; a negative one is read as a size beyond every buffer. -/
def hashBuffer (host : EthHost) (buf : List Byte) : Except Fault (List Byte) :=
  if toInt32 buf.length < 0 then .error .outOfBounds
  else .ok (host.sha256d (buf.take (toInt32 buf.length).toNat)).toList

/-- Coinbase text: its two halves around the extra nonces. A null extra nonce is dereferenced,
and a string that the host cannot hold is an exception. -/
def coinbaseText (host : EthHost) (client : EthStratumClient) (front back : List Byte) :
    Except Fault (List Byte) :=
  match client.extraNonce.2 with
  | none => .error .nullString
  | some extraNonce =>
    let zeros := (client.extraNonce2Size * 2).toNat
    if host.maxString < (front ++ extraNonce).length + zeros + back.length then .error (.thrown "length_error")
    else .ok (front ++ extraNonce ++ List.replicate zeros 48 ++ back)

/-- The root over the branches from `index` on; none if a branch is not of 32 bytes. -/
def merkleRoot (host : EthHost) (branches : List Json) :
    (left : Nat) → (index : Nat) → (root : List Byte) → Reading (Option (List Byte))
  | 0, _, root => pure (some root)
  | left + 1, index, root => do
    let text ← if ← Reading.hasType .branches branches index .string
      then Reading.getChars .branches branches index else pure []
    if (fromHexBuffer text).length ≠ 32 then pure none
    else merkleRoot host branches left (index + 1) (host.sha256d (root ++ fromHexBuffer text)).toList

def swapAt (buf : List Byte) (position : Nat) : List Byte :=
  buf.take position ++ ((buf.drop position).take 4).reverse ++ buf.drop (position + 4)

/-- The words from a position on are put into network order, but for those of the Merkle root. -/
def swapWords : (left : Nat) → (position : Nat) → List Byte → Except Fault (List Byte)
  | 0, _, buf => .ok buf
  | left + 1, position, buf =>
    if position < 36 ∨ 68 ≤ position then
      if buf.length < position + 4 then .error .outOfBounds
      else swapWords left (position + 4) (swapAt buf position)
    else swapWords left (position + 4) buf

/-- The job of a message, or the text of the error it is refused with. -/
abbrev Built := Except String Job

def ghostRiderTypes : List (Nat × JsonType) :=
  [(1, .string), (2, .string), (3, .string), (4, .array), (5, .string), (6, .string), (7, .string)]

/-- The job of a header text, whose bytes are turned around word by word. -/
def sealHeader (client : EthStratumClient) (job : Job) (header : List Byte) :
    Except Fault (EthStratumClient × Built) :=
  if header.length ≠ 76 * 2 then .ok (client, .error "invalid mining.notify notification: invalid blob size")
  else do
    let swapped ← swapWords 20 0 (fromHexBuffer (padZeros header (80 * 2)))
    let job := (job.setBlob (some (Cvt.toHex swapped))).getD job
    pure (client, .ok (job.setDiff client.nextDifficulty))

/-- The branches on top of the coinbase's hash, and the header around the root. -/
def finishJob (host : EthHost) (client : EthStratumClient) (elements : List Json) (job : Job)
    (front leaf : List Byte) : Reading (EthStratumClient × Built) := do
  let branches ← Reading.getArray .params elements 4
  Reading.record (.sized .branches (toInt32 branches.length).toNat)
  match ← merkleRoot host branches (toInt32 branches.length).toNat 0 leaf with
  | none => pure (client, .error "invalid mining.notify notification: param 4 is invalid")
  | some root => do
    let ntime ← Reading.getString .params elements 7
    let nbits ← Reading.getString .params elements 6
    sealHeader { client with ntime := some ntime } job (front ++ Cvt.toHex root ++ ntime ++ nbits)

def digestJob (host : EthHost) (client : EthStratumClient) (elements : List Json) (job : Job) :
    Reading (EthStratumClient × Built) := do
  let version ← Reading.getString .params elements 5
  let previous ← Reading.getString .params elements 1
  let front ← Reading.getString .params elements 2
  let back ← Reading.getString .params elements 3
  let text ← coinbaseText host client front back
  let height ← coinbaseHeight (fromHexBuffer text)
  let leaf ← hashBuffer host (fromHexBuffer text)
  finishJob host client elements { job with height := BitVec.ofNat 64 height } (version ++ previous) leaf

def ghostRiderJob (host : EthHost) (client : EthStratumClient) (elements : List Json) (job : Job) :
    Reading (EthStratumClient × Built) := do
  if ← Reading.haveTypes .params elements ghostRiderTypes then digestJob host client elements job
  else pure (client, .error "invalid mining.notify notification: invalid param array")

def nonceTemplate (nonce : BitVec 64) : List Byte :=
  Cvt.toHex ((List.range 8).map fun index => (nonce >>> (8 * index)).setWidth 8)

def kawpowJob (client : EthStratumClient) (elements : List Json) (job : Job) : Reading Job := do
  let headerHash ← Reading.getString .params elements 1
  let blob := padZeros (headerHash ++ nonceTemplate client.extraNonce.1) (76 * 2)
  let job := (job.setBlob (some blob)).getD job
  let target ← Reading.getString .params elements 3
  let job := job.setDiff (Job.toDiff (strtoull (padZeros target 16)))
  let height ← Reading.getUint64 .params elements 5
  pure { job with height := BitVec.ofNat 64 height }

def takeJob (host : EthHost) (client : EthStratumClient) (algorithm : Algorithm) (job : Job) :
    EthStratumClient × List EthOutput :=
  if host.verifyAlgorithm algorithm then
    if client.job.isEqual job then
      (client, (if client.quiet then [] else [.warning "duplicate job received, reconnect"]) ++ [.close])
    else
      ({ client with job, authorized := true },
        (if client.authorized then [] else [.loginSuccess]) ++ [.jobReceived job])
  else
    (client, (if client.quiet then [] else [.incompatible algorithm]) ++ [.close])

def algorithm (client : EthStratumClient) : Algorithm :=
  if client.poolAlgorithm.isValid then client.poolAlgorithm else client.coin.algorithm

def minArraySize (client : EthStratumClient) : Nat := if client.algorithm = .ghostriderRtm then 8 else 6

def startJob (client : EthStratumClient) (id : List Byte) : Job :=
  { id := some (chars id), algorithm := client.algorithm, extraNonce := client.extraNonce.2.map chars }

def miningNotify (host : EthHost) (client : EthStratumClient) (elements : List Json) :
    Reading (EthStratumClient × List EthOutput) := do
  if elements.length < client.minArraySize then
    pure (client, [.error "invalid mining.notify notification: params array has wrong size"])
  else
    Reading.record (.sized .params client.minArraySize)
    if ← Reading.hasType .params elements 0 .string then
      let job := client.startJob (← Reading.getString .params elements 0)
      if client.algorithm = .ghostriderRtm then
        match ← ghostRiderJob host client elements job with
        | (client, .ok job) => pure (takeJob host client client.algorithm job)
        | (client, .error text) => pure (client, [.error text])
      else pure (takeJob host client client.algorithm (← kawpowJob client elements job))
    else pure (client, [.error "invalid mining.notify notification: invalid job id"])

def setDifficulty (host : EthHost) (client : EthStratumClient) (elements : List Json) :
    Reading (EthStratumClient × List EthOutput) := do
  if client.poolAlgorithm ≠ .ghostriderRtm then pure (client, [])
  else if elements.isEmpty then
    pure (client, [.error "invalid mining.set_difficulty notification: params array is empty"])
  else
    Reading.record (.sized .params 1)
    if ← Reading.hasType .params elements 0 .double then
      let diff ← Reading.get .params elements 0 .double
      pure ({ client with nextDifficulty := host.scaleDifficulty diff }, [])
    else if ← Reading.hasType .params elements 0 .uint64 then
      let diff ← Reading.get .params elements 0 .uint64
      pure ({ client with nextDifficulty := host.scaleDifficulty diff }, [])
    else
      pure (client, [.error "invalid mining.set_difficulty notification: difficulty is not a number"])

def setExtraNonceNotification (client : EthStratumClient) (elements : List Json) :
    Reading (EthStratumClient × List EthOutput) := do
  if elements.isEmpty then
    pure (client, [.error "invalid mining.set_extranonce notification: params array is empty"])
  else
    Reading.record (.sized .params 1)
    pure (← client.setExtraNonce elements 0, [])

/-- The methods exclude each other, so the tests behind the one that held find nothing. -/
def parseNotification (host : EthHost) (client : EthStratumClient) (method : List Byte) (params : Json) :
    Reading (EthStratumClient × List EthOutput) :=
  if method = text "mining.set_target" then pure (client, [])
  else if method = text "mining.set_extranonce" then
    match params with
    | .arr elements => setExtraNonceNotification client elements
    | _ => pure (client, [.error "invalid mining.set_extranonce notification: params is not an array"])
  else if method = text "mining.set_difficulty" then
    match params with
    | .arr elements => setDifficulty host client elements
    | _ => pure (client, [.error "invalid mining.set_difficulty notification: params is not an array"])
  else if method = text "mining.notify" then
    match params with
    | .arr elements => miningNotify host client elements
    | _ => pure (client, [.error "invalid mining.notify notification: params is not an array"])
  else pure (client, [])

end EthStratumClient

end Xmrig
