import Xmrig.Foundation.Run
import Xmrig.Stratum.BaseClient
import Xmrig.Stratum.DaemonJob

/-! The daemon client as a machine driven by its event loop.

An event carries what the loop decides: which pending request is answered and how,
whether a write succeeds, whether a time-out has passed. Sockets are numbered in the
order of their allocation. The listener's callbacks, the calls of `uv_close` and the
writes are recorded in `log`; no function of the client reads it.
-/

set_option autoImplicit false

namespace Xmrig

/-- The values of `m_ZMQConnectionState`. -/
inductive ZmqState where
  | notConnected
  | greeting1
  | greeting2
  | handshake
  | connected
  | disconnecting
  deriving DecidableEq, Repr

def ZmqState.active (state : ZmqState) : Bool := state ≠ .notConnected ∧ state ≠ .disconnecting

/-- An `uv_tcp_t` as the loop sees it. `closing` holds the callback given to `uv_close`. -/
structure ZmqSocket where
  connecting : Bool := true
  connected : Bool := false
  reading : Bool := false
  closing : Option Bool := none
  closed : Bool := false
  deriving DecidableEq, Repr

inductive Timer where
  | off
  | once
  | repeating
  deriving DecidableEq, Repr

inductive DaemonRequest where
  | getHeight
  | getInfo
  | rpc (id : Int)
  deriving DecidableEq, Repr

inductive DaemonOutput where
  | onClose (failures : Int)
  | onLoginSuccess
  | onJobReceived
  | onResultAccepted (id : Int) (error : Option (List Byte))
  | uvClose (socket : Nat)
  | timerStart
  | zmqWrite (text : List Byte)
  | fetch (request : DaemonRequest)
  deriving DecidableEq, Repr

structure DaemonClient where
  work : Work := {}
  state : SocketState := .unconnected
  failures : Int := 0
  apiMonero : Bool := true
  requestHeight : BitVec 64 := 0
  requestHash : Option (List Byte) := none
  sequence : Int := 1
  results : List Int := []
  timer : Timer := .off
  zmqState : ZmqState := .notConnected
  zmqSocket : Option Nat := none
  recvBuf : List Byte := []
  deleted : Bool := false
  dns : Bool := false
  sockets : Nat → ZmqSocket := fun _ => {}
  allocated : Nat := 0
  requests : List DaemonRequest := []
  log : List DaemonOutput := []
  /-- A socket was closed and no connection has been established since. -/
  closedSince : Bool := false

namespace DaemonClient

def kZMQGreeting : List Byte :=
  [0xff, 0, 0, 0, 0, 0, 0, 0, 0, 127, 3, 0, 0x4e, 0x55, 0x4c, 0x4c] ++ List.replicate 48 0

def kZMQGreetingSize1 : Nat := 11

/-- `"\4\x19\5READY\xbSocket-Type\0\0\0\3SUB"`. -/
def kZMQHandshake : List Byte :=
  [4, 0x19, 5, 0x52, 0x45, 0x41, 0x44, 0x59, 0x0b,
   0x53, 0x6f, 0x63, 0x6b, 0x65, 0x74, 0x2d, 0x54, 0x79, 0x70, 0x65, 0, 0, 0, 3, 0x53, 0x55, 0x42]

/-- `"\0\x18\1json-minimal-chain_main"`. -/
def kZMQSubscribe : List Byte :=
  [0, 0x18, 1, 0x6a, 0x73, 0x6f, 0x6e, 0x2d, 0x6d, 0x69, 0x6e, 0x69, 0x6d, 0x61, 0x6c, 0x2d,
   0x63, 0x68, 0x61, 0x69, 0x6e, 0x5f, 0x6d, 0x61, 0x69, 0x6e]

def emit (client : DaemonClient) (output : DaemonOutput) : DaemonClient :=
  { client with log := output :: client.log }

def stopTimer (client : DaemonClient) : DaemonClient := { client with timer := .off }

def startTimer (client : DaemonClient) (timer : Timer) : DaemonClient :=
  { client with timer }.emit .timerStart

def setSocket (client : DaemonClient) (i : Nat) (change : ZmqSocket → ZmqSocket) : DaemonClient :=
  { client with sockets := Function.update client.sockets i (change (client.sockets i)) }

/-- `send(path)`. -/
def send (client : DaemonClient) (request : DaemonRequest) : DaemonClient :=
  { client with requests := client.requests ++ [request] }.emit (.fetch request)

def rpcSend (client : DaemonClient) : DaemonClient :=
  { client.send (.rpc client.sequence) with sequence := client.sequence + 1 }

def getBlockTemplate (client : DaemonClient) : DaemonClient := client.rpcSend

def setState (client : DaemonClient) (state : SocketState) : DaemonClient :=
  if client.state = state then client
  else match state with
    | .connected =>
      ({ client with state, failures := 0 }.emit .onLoginSuccess).startTimer .repeating
    | .unconnected => { client with state, failures := -1 }.stopTimer
    | _ => { client with state }

/-- `uv_close` on `m_ZMQSocket`. -/
def uvClose (client : DaemonClient) (shutdown : Bool) : DaemonClient :=
  match client.zmqSocket with
  | none => client
  | some i =>
    { (client.setSocket i fun s => { s with closing := some shutdown, reading := false }).emit
        (.uvClose i) with closedSince := true }

/-- The end of `retry`, after the listener has been told. -/
def retryTail (client : DaemonClient) : DaemonClient :=
  let client := if client.state = .connected then client.setState .connecting else client
  let client := if client.zmqState.active then client.uvClose false else client
  client.stopTimer.startTimer .once

def retry (client : DaemonClient) : DaemonClient :=
  let failed := { client with failures := client.failures + 1 }.emit (.onClose (client.failures + 1))
  if failed.failures = -1 then failed else failed.retryTail

def zmqClosing (client : DaemonClient) : Bool :=
  match client.zmqSocket with
  | none => false
  | some i => (client.sockets i).closing.isSome

def zmqClose (client : DaemonClient) (shutdown : Bool) : DaemonClient :=
  if client.zmqState.active = false then
    if shutdown then { client with deleted := true } else client
  else
    let client := { client with zmqState := .disconnecting }
    if client.zmqClosing then client
    else if shutdown then client.uvClose true
    else (client.uvClose false).retry

def disconnect (client : DaemonClient) : DaemonClient :=
  if client.state ≠ .unconnected then client.setState .unconnected else client

def deleteLater (client : DaemonClient) : DaemonClient :=
  if (0 : Int) ≤ client.work.pool.zmqPort then client.zmqClose true else { client with deleted := true }

inductive Lookup where
  | pending
  | failed
  | found
  deriving DecidableEq, Repr

/-- `onResolved`; without a positive port the new socket is dropped. -/
def onResolved (client : DaemonClient) (found : Bool) : DaemonClient :=
  let client := { client with dns := false }
  if found = false then client.retry
  else if 0 < client.work.pool.zmqPort then
    { client with
      zmqSocket := some client.allocated
      sockets := Function.update client.sockets client.allocated {}
      allocated := client.allocated + 1 }
  else client

/-- `connect()`. A lookup may be answered before the call returns. -/
def connect (client : DaemonClient) (lookup : Lookup) : DaemonClient :=
  let client := client.setState .connecting
  if client.work.coin.isValid = false ∧ client.work.pool.algorithm.isValid = false then client.retry
  else
    let algorithm := if client.work.pool.algorithm.isValid then client.work.pool.algorithm
      else client.work.coin.algorithm
    let client := { client with work := { client.work with
      pool := { client.work.pool with algorithm } } }
    if client.apiMonero ∧ client.work.walletAddress.valid = false then client.retry
    else if (0 : Int) ≤ client.work.pool.zmqPort then
      match lookup with
      | .pending => { client with dns := true }
      | .failed => client.onResolved false
      | .found => client.onResolved true
    else client.getBlockTemplate

/-- A parsed body; `hash` and `topBlockHash` tell a missing member from one without text. -/
structure DaemonReply where
  id : Int := -1
  height : BitVec 64 := 0
  hash : Option (Option (List Byte)) := none
  topBlockHash : Option (List Byte) := none
  error : Option (List Byte) := none
  result : Option (Option (Option (List Byte)) × Option JobParams) := none

/-- `handleSubmitResponse`; the flag is its result. -/
def handleSubmitResponse (client : DaemonClient) (id : Int) (error : Option (List Byte)) :
    Bool × DaemonClient :=
  if id ∈ client.results then
    (true, { client.emit (.onResultAccepted id error) with results := client.results.erase id })
  else (false, client)

section Machine
variable (env : BlockTemplate.Env) (crypto : Crypto)

/-- `parseJob` with the notification of the listener. -/
def parseJob (client : DaemonClient) (params : JobParams) (id : String) (rounds : Nat) :
    Option (Bool × DaemonClient) :=
  (client.work.parseJob env crypto params id rounds).map fun (outcome, work) =>
    let client := { client with work }
    match outcome with
    | .error _ => (false, client)
    | .ok () =>
      let client := if client.state = .connecting then client.setState .connected else client
      (true, client.emit .onJobReceived)

/-- The last part of `parseResponse`: the answer to a submitted block. -/
def submitResponse (client : DaemonClient) (id : Int) : Bool × DaemonClient :=
  let (handled, client) := client.handleSubmitResponse id none
  if handled then (true, if client.work.pool.zmqPort < 0 then client.getBlockTemplate else client)
  else (false, client)

def parseResponse (client : DaemonClient) (reply : DaemonReply) (jobId : String) (rounds : Nat) :
    Option (Bool × DaemonClient) :=
  if reply.id = -1 then some (false, client)
  else match reply.error, reply.result with
    | some message, _ => some (false, (client.handleSubmitResponse reply.id (some message)).2)
    | none, none => some (false, client)
    | none, some (some top, _) =>
      some (true, if client.work.prevHash ≠ top then client.getBlockTemplate else client)
    | none, some (none, none) => some (client.submitResponse reply.id)
    | none, some (none, some params) =>
      (client.parseJob env crypto params jobId rounds).map fun (accepted, client) =>
        if accepted then (true, client) else client.submitResponse reply.id

/-- The body of `onHttpData` for both `GET` requests. -/
def onHeight (client : DaemonClient) (height : BitVec 64) (hash : Option (List Byte))
    (timedOut : Bool) : DaemonClient :=
  let outdated := client.work.job.height ≠ height ∨ client.work.prevHash ≠ hash ∨ timedOut
  if outdated ∧ (height ≠ client.requestHeight ∨ hash ≠ client.requestHash) then
    { client with requestHeight := height, requestHash := hash }.getBlockTemplate
  else client

/-- An answer: a status other than 200 or a body that is no JSON, or a parsed body. -/
inductive HttpAnswer where
  | failed
  | parsed (reply : DaemonReply)

def onHttpData (client : DaemonClient) (request : DaemonRequest) (answer : HttpAnswer)
    (timedOut : Bool) (jobId : String) (rounds : Nat) : Option DaemonClient :=
  match answer, request with
  | .failed, _ => some client.retry
  | .parsed reply, .getHeight =>
    match reply.hash with
    | none => some ({ client with apiMonero := false }.send .getInfo)
    | some hash => some (client.onHeight reply.height hash timedOut)
  | .parsed reply, .getInfo => some (client.onHeight reply.height reply.topBlockHash timedOut)
  | .parsed reply, .rpc _ =>
    (client.parseResponse env crypto reply jobId rounds).map fun (handled, client) =>
      if handled then client else client.retry

end Machine

def clearHashes (client : DaemonClient) : DaemonClient :=
  { client with work := { client.work with prevHash := none }, requestHash := none }

def onTimer (client : DaemonClient) (timedOut : Bool) (lookup : Lookup) : DaemonClient :=
  if (0 : Int) ≤ client.work.pool.zmqPort then client.clearHashes.send .getHeight
  else
    let client := if timedOut then client.clearHashes else client
    if client.state = .connecting then client.connect lookup
    else if client.state = .connected then client.send (if client.apiMonero then .getHeight else .getInfo)
    else client

/-- `uv_try_write` on `m_ZMQSocket` writes only to a connected socket that is not closing. -/
def writable (client : DaemonClient) : Bool :=
  match client.zmqSocket with
  | none => false
  | some i => (client.sockets i).connected && (client.sockets i).closing.isNone

/-- `ZMQWrite`; `whole` is what the loop makes of a write to a writable socket. -/
def zmqWrite (client : DaemonClient) (text : List Byte) (whole : Bool) : Bool × DaemonClient :=
  if client.writable && whole then (true, client.emit (.zmqWrite text))
  else (false, client.zmqClose false)

def zmqConnected (client : DaemonClient) (whole : Bool) : DaemonClient :=
  let greeted := { client with zmqState := .greeting1, closedSince := false }.zmqWrite
    (kZMQGreeting.take kZMQGreetingSize1) whole
  match greeted.1, greeted.2.zmqSocket with
  | true, some i => greeted.2.setSocket i fun s => { s with reading := true }
  | _, _ => greeted.2

/-- The frames of a message: not all there yet, too large, or the bytes behind it. -/
inductive Frames where
  | incomplete
  | tooLarge
  | complete (rest : List Byte)
  deriving DecidableEq, Repr

def bigEndian (bytes : List Byte) : Nat := bytes.foldl (fun value byte => value * 256 + byte.toNat) 0

/-- The loop of `ZMQParse`. A frame takes at least two bytes, so `frames` is at most the
length of the data. -/
def parseFrames : (frames : Nat) → (data : List Byte) → (msgSize : Nat) → Frames
  | 0, _, _ => .incomplete
  | frames + 1, data, msgSize =>
    match data with
    | [] => .incomplete
    | flags :: data =>
      let more := flags &&& 1 ≠ 0
      let command := flags &&& 4 ≠ 0
      let width := if flags &&& 2 ≠ 0 then 8 else 1
      if data.length < width then .incomplete
      else
        let size := bigEndian (data.take width)
        let data := data.drop width
        if 1024 - msgSize < size then .tooLarge
        else if data.length < size then .incomplete
        else if more then
          parseFrames frames (data.drop size) (if command then msgSize else msgSize + size)
        else .complete (data.drop size)

def zmqParse (client : DaemonClient) : DaemonClient :=
  match parseFrames (client.recvBuf.length + 1) client.recvBuf 0 with
  | .incomplete => client
  | .tooLarge => client.zmqClose false
  | .complete rest =>
    (({ client with recvBuf := rest }.clearHashes.send .getHeight).stopTimer).startTimer .repeating

/-- The outcomes of the writes that one `ZMQRead` may make. -/
structure Writes where
  greeting : Bool
  handshake : Bool
  subscribe : Bool
  deriving DecidableEq, Repr

/-- The case `ZMQ_HANDSHAKE` and what follows it. The state is set after the write. -/
def readHandshake (client : DaemonClient) (writes : Writes) : DaemonClient :=
  if client.recvBuf.length < 2 then client
  else
    let size := (client.recvBuf.getD 1 0).toNat
    if client.recvBuf.getD 0 0 ≠ 4 then client.zmqClose false
    else if size < 18 then client.zmqClose false
    else if client.recvBuf.length < size + 2 then client
    else if (client.recvBuf.drop 2).take 18 ≠ (kZMQHandshake.drop 2).take 18 then client.zmqClose false
    else
      let written := (client.zmqWrite kZMQSubscribe writes.subscribe).2
      ({ written with zmqState := .connected, recvBuf := written.recvBuf.drop (size + 2) }
        |>.getBlockTemplate).zmqParse

/-- The case `ZMQ_GREETING_2` and what follows it. The state is set before the write, so a
failed write ends the loop. -/
def readGreeting2 (client : DaemonClient) (writes : Writes) : DaemonClient :=
  if client.recvBuf.length < 64 then client
  else if (client.recvBuf.drop 12).take 20 ≠ (kZMQGreeting.drop 12).take 20 then client.zmqClose false
  else
    let written := { client with
      zmqState := .handshake, recvBuf := client.recvBuf.drop 64 }.zmqWrite kZMQHandshake writes.handshake
    if written.1 then written.2.readHandshake writes else written.2

/-- The case `ZMQ_GREETING_1` and what follows it. The state is set after the write. -/
def readGreeting1 (client : DaemonClient) (writes : Writes) : DaemonClient :=
  if client.recvBuf.length < kZMQGreetingSize1 then client
  else if client.recvBuf.getD 0 0 = 0xff ∧ client.recvBuf.getD 9 0 = 127 ∧ client.recvBuf.getD 10 0 = 3 then
    let written := (client.zmqWrite (kZMQGreeting.drop kZMQGreetingSize1) writes.greeting).2
    { written with zmqState := .greeting2 }.readGreeting2 writes
  else client.zmqClose false

/-- `ZMQRead`; no data stands for `nread <= 0`. -/
def zmqRead (client : DaemonClient) (data : List Byte) (writes : Writes) : DaemonClient :=
  if data.isEmpty then client.zmqClose false
  else
    let client := { client with recvBuf := client.recvBuf ++ data }
    match client.zmqState with
    | .greeting1 => client.readGreeting1 writes
    | .greeting2 => client.readGreeting2 writes
    | .handshake => client.readHandshake writes
    | .connected => client.zmqParse
    | _ => client

inductive Event where
  | setPool (pool : DaemonPool)
  | setAlgo (algorithm : Algorithm)
  | connect (lookup : Lookup)
  | disconnect
  | deleteLater
  | submit (result : Work.JobResult)
  | http (i : Nat) (answer : HttpAnswer) (timedOut : Bool) (jobId : String) (rounds : Nat)
  | timer (timedOut : Bool) (lookup : Lookup)
  | resolved (found : Bool)
  | zmqConnect (i : Nat) (ok : Bool) (whole : Bool)
  | zmqRead (i : Nat) (data : List Byte) (writes : Writes)
  | zmqClosed (i : Nat)
  | otherSends (count : Nat)

def fired (client : DaemonClient) : DaemonClient :=
  if client.timer = .once then client.stopTimer else client

def step (env : BlockTemplate.Env) (crypto : Crypto) (client : DaemonClient) (event : Event) :
    Option DaemonClient :=
  if client.deleted then none
  else match event with
    | .setPool pool => some { client with work := client.work.setPool crypto pool }
    | .setAlgo algorithm => some { client with work := { client.work with
        pool := { client.work.pool with algorithm } } }
    | .connect lookup => some (client.connect lookup)
    | .disconnect => some client.disconnect
    | .deleteLater => some client.deleteLater
    | .submit result =>
      match client.work.submit result with
      | none => some client
      | some (_, work) =>
        some { client with work, results := client.sequence :: client.results }.rpcSend
    | .http i answer timedOut jobId rounds =>
      match client.requests[i]? with
      | none => none
      | some request => { client with requests := client.requests.eraseIdx i }.onHttpData env crypto
          request answer timedOut jobId rounds
    | .timer timedOut lookup =>
      if client.timer = .off then none else some (client.fired.onTimer timedOut lookup)
    | .resolved found => if client.dns then some (client.onResolved found) else none
    -- a connection request on a socket that is being closed is cancelled
    | .zmqConnect i ok whole =>
      let socket := client.sockets i
      if i < client.allocated ∧ socket.connecting ∧ (ok → socket.closing = none) then
        let client := client.setSocket i fun s => { s with connecting := false, connected := ok }
        some (if ok then client.zmqConnected whole else client.retry)
      else none
    | .zmqRead i data writes =>
      if (client.sockets i).reading ∧ (client.sockets i).closing = none then
        some (client.zmqRead data writes)
      else none
    | .zmqClosed i =>
      match (client.sockets i).closing with
      | none => none
      | some shutdown =>
        if (client.sockets i).closed ∨ (client.sockets i).connecting then none
        else some { client.setSocket i (fun s => { s with closed := true }) with
          zmqState := .notConnected, deleted := shutdown }
    | .otherSends count => some { client with sequence := client.sequence + count }

end DaemonClient

end Xmrig
