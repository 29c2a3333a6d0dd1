import Xmrig.Base.Job
import Xmrig.Foundation.Run
import Xmrig.Stratum.BaseClient

/-! The stratum client over its socket.

Requests to the loop (a lookup, a connection, a close) are answered by later events, in any
order that the loop allows. A lookup may also be answered inside of the call. What the pool
sends is given by what `parse` finds in it, and what becomes of a message by how far it gets.
`EthStratumClient` is the same client with its own login and answers.
-/

set_option autoImplicit false

namespace Xmrig

open Foundation

/-- How far the bytes of a message get. With TLS there may be nothing to write yet. -/
inductive Transport where
  | written
  | buffered
  | unwritable
  | failed
  deriving DecidableEq, Repr

/-- A message, whether it is longer than `kMaxSendBufferSize`, and how far it gets. -/
structure Message where
  oversize : Bool := false
  transport : Transport := .written
  deriving DecidableEq, Repr

/-- The answer of the resolver, if it comes inside of the call. -/
inductive Lookup where
  | pending
  | failed
  | found
  deriving DecidableEq, Repr

/-- `Socks5::State`; a handshake that is ready is deleted. -/
inductive SocksState where
  | created
  | sentInitialHandshake
  | sentFinalHandshake
  deriving DecidableEq, Repr

/-- An `uv_tcp_t` as the loop sees it. -/
structure TcpSocket where
  connecting : Bool := false
  reading : Bool := false
  closing : Bool := false
  closed : Bool := false
  deriving DecidableEq, Repr

/-- Who waits for the answer to a message. -/
inductive ClientCallback where
  | subscribe
  | authorize
  | other
  deriving DecidableEq, Repr

/-- What `parseLogin` reads; no job if `parseJob` refuses it. -/
structure LoginResult where
  rpcId : Option String
  keepalive : Bool := false
  job : Option Job
  deriving DecidableEq, Repr

/-- A line with a number. An error object says whether it makes the client close; `errored`
also counts the errors that are arrays or strings. `granted` tells what the callbacks of the
Ethereum protocol make of the result. -/
structure Response where
  id : Int
  error : Option Bool := none
  errored : Bool := false
  result : Option LoginResult := none
  granted : Bool := false
  subscription : Message := {}
  deriving DecidableEq, Repr

/-- A line of the pool. `client.reconnect` also says whether the new address is TLS. -/
inductive Line where
  | other
  | reconnect (tls : Bool)
  | response (response : Response)
  | job (job : Option Job)
  deriving DecidableEq, Repr

/-- How the messages of a handshake fare: one to the proxy or by TLS, two of a login. -/
structure Handshake where
  write : Transport := .written
  first : Message := {}
  second : Message := {}
  deriving DecidableEq, Repr

/-- The bytes of a read, by what their reader finds in them: the proxy's reply (none if it is
too short), the end of the TLS handshake (none if it goes on), or lines. -/
inductive Incoming where
  | error
  | data (reply : Option Bool) (certificate : Option Bool) (lines : List Line) (handshake : Handshake)
  deriving DecidableEq, Repr

/-- What the client tells its listener and what it does with its sockets. -/
inductive ClientOutput where
  | connected
  | login
  | onClose (failures : Int)
  | onLoginSuccess
  | onJobReceived
  | onResultAccepted (call : Nat) (id : Int) (session : Nat)
  | allocate (socket : Nat) (previous : Option Nat)
  | feed (socket : Nat) (current : Option Nat)
  | free (called : Nat) (freed : Option Nat)
  deriving DecidableEq, Repr

/-- A call of `submit`, in the session of the last login; none stands for -1. -/
structure SubmitCall where
  session : Nat
  returned : Option Int
  deriving DecidableEq, Repr

/-- The fields from `sockets` on are not the client's own. `sequence` is shared by all clients. -/
structure Client where
  eth : Bool := false
  proxy : Bool := false
  poolTls : Bool := false
  nicehash : Bool := false
  poolKeepalive : Bool := false
  state : SocketState := .unconnected
  failures : Int := 0
  listening : Bool := true
  stored : Bool := true
  dns : Bool := false
  socket : Option Nat := none
  socks5 : Option SocksState := none
  /-- `m_tls` and whether its handshake is finished. -/
  tls : Option Bool := none
  expire : Bool := false
  keepAlive : Bool := false
  extKeepalive : Bool := false
  rpcId : Option String := none
  authorized : Bool := false
  jobs : Nat := 0
  job : Job := {}
  sequence : Int := 1
  results : Int → Option Nat := fun _ => none
  callbacks : Int → Option ClientCallback := fun _ => none
  sockets : Nat → TcpSocket := fun _ => {}
  allocated : Nat := 0
  calls : List SubmitCall := []
  sessions : Nat := 0
  log : List ClientOutput := []

namespace Client

def emit (client : Client) (output : ClientOutput) : Client := { client with log := output :: client.log }

def isTLS (client : Client) : Bool := client.poolTls && client.tls.isSome

def setState (client : Client) (state : SocketState) : Client :=
  if client.state = state then client
  else match state with
    | .hostLookup => { client with state, expire := false }
    | .connecting => { client with state, expire := true }
    | .reconnecting => { client with state, expire := true }
    | _ => { client with state }

def setSocket (client : Client) (i : Nat) (change : TcpSocket → TcpSocket) : Client :=
  { client with sockets := Function.update client.sockets i (change (client.sockets i)) }

/-- `close` returns whether a close callback will come. -/
def closes (client : Client) : Bool := client.state ≠ .unconnected && client.socket.isSome

def close (client : Client) : Client :=
  if client.state = .closing ∨ client.state = .unconnected then client
  else match client.socket with
    | none => client
    | some i => (client.setState .closing).setSocket i fun socket => { socket with closing := true }

def reconnect (client : Client) : Client :=
  if client.listening = false then { client with stored := false }
  else
    let client := { client with keepAlive := false }
    if client.failures = -1 then client.emit (.onClose (-1))
    else
      let client := client.setState .reconnecting
      { client with failures := client.failures + 1 }.emit (.onClose (client.failures + 1))

/-- `connect(const sockaddr *)`. -/
def connectAddr (client : Client) : Client :=
  let client := client.setState .connecting
  let i := client.allocated
  { client.setSocket i (fun _ => { connecting := true }) with socket := some i, allocated := i + 1 }.emit
    (.allocate i client.socket)

def onResolved (client : Client) (found : Bool) : Client :=
  let client := { client with dns := false }
  if client.listening = false then client.reconnect
  else if found = false then client.reconnect
  else client.connectAddr

/-- The part of `resolve` in front of the request. -/
def startLookup (client : Client) : Client :=
  { client.setState .hostLookup with failures := if client.failures = -1 then 0 else client.failures }

/-- A new request takes the place of an older one, also when it is answered at once. -/
def resolve (client : Client) : Lookup → Client
  | .pending => { client.startLookup with dns := true }
  | .failed => client.startLookup.onResolved false
  | .found => client.startLookup.onResolved true

def connect (client : Client) (lookup : Lookup) : Client :=
  if client.proxy then { client with socks5 := some .created }.resolve lookup
  else if client.poolTls then { client with tls := some false }.resolve lookup
  else client.resolve lookup

def disconnect (client : Client) : Client :=
  { client with keepAlive := false, expire := false, failures := -1 }.close

def deleteLater (client : Client) : Client :=
  if client.listening = false then client
  else
    let client := { client with listening := false }
    if client.closes then client.disconnect else { client.disconnect with stored := false }

def write (client : Client) (transport : Transport) : Client :=
  if transport = .failed then client.close else client

/-- `send(BIO *)`: whether the bytes are on their way. -/
def sendBio (client : Client) : Transport → Client × Bool
  | .buffered => (client, true)
  | .unwritable => (client, false)
  | .failed => if client.state = .connected then (client.close, false) else (client, false)
  | .written => (client, client.state = .connected)

/-- The part of `send(size_t)` that may fail. -/
def transmit (client : Client) (transport : Transport) : Client × Bool :=
  if client.isTLS then client.sendBio transport
  else if client.state ≠ .connected ∨ transport = .unwritable then (client, false)
  else if transport = .failed then (client.close, false)
  else (client, true)

/-- `send(size_t)`, with the sequence number that it returns. -/
def sendBytes (client : Client) (transport : Transport) : Client × Option Int :=
  let sent := client.transmit transport
  if sent.2 then ({ sent.1 with expire := true, sequence := client.sequence + 1 }, some client.sequence)
  else (sent.1, none)

/-- `send(const rapidjson::Value &)`. -/
def send (client : Client) (message : Message) : Client × Option Int :=
  if message.oversize then (client.close, none) else client.sendBytes message.transport

/-- `send(const rapidjson::Value &, Callback)`; a callback under the same number stays. -/
def sendCallback (client : Client) (callback : ClientCallback) (message : Message) : Client :=
  let callbacks := if (client.callbacks client.sequence).isSome then client.callbacks
    else Function.update client.callbacks client.sequence (some callback)
  ({ client with callbacks }.send message).1

def login (client : Client) (handshake : Handshake) : Client :=
  let client := { client with results := fun _ => none, sessions := client.sessions + 1 }.emit .login
  if client.eth then
    (client.sendCallback .subscribe handshake.first).sendCallback .authorize handshake.second
  else (client.send handshake.first).1

def handshake (client : Client) (sent : Handshake) : Client :=
  if client.socks5.isSome then { client with socks5 := some .sentInitialHandshake }.write sent.write
  else if client.isTLS then ({ client with expire := true, tls := some false }.sendBio sent.write).1
  else client.login sent

/-- The connected state, with `uv_read_start` on socket `i`. -/
def startReading (client : Client) (i : Nat) : Client :=
  ((client.setState .connected).emit .connected).setSocket i fun socket => { socket with reading := true }

/-- It is `m_socket` that is read then, and there has to be one. -/
def onConnect (client : Client) (ok : Bool) (sent : Handshake) : Option Client :=
  if ok = false then some (if client.state = .connecting then client.close else client)
  else if client.state = .connected then some client
  else client.socket.map fun i => (client.startReading i).handshake sent

/-- The close callback of socket `i` frees `m_socket`. -/
def freeSocket (client : Client) (i : Nat) : Client :=
  { client.emit (.free i client.socket) with
    socket := none
    tls := none
    authorized := if client.eth then false else client.authorized }.setState .unconnected

def onClose (client : Client) (i : Nat) : Client := (client.freeSocket i).reconnect

/-- `has<EXT_KEEPALIVE>()`, which is true for a pool with keepalives as well. -/
def hasKeepalive (client : Client) : Bool := client.extKeepalive || client.poolKeepalive

def startTimeout (client : Client) : Client :=
  { client with expire := false, keepAlive := client.keepAlive || client.hasKeepalive }

/-- The end of `parseJob`, for a job that was read. -/
def parseJob (client : Client) : Option Job → Client × Bool
  | none => (client, false)
  | some job =>
    let client := { client with job := { client.job with clientId := client.rpcId } }
    if client.job.isEqual job = false then ({ client with job, jobs := client.jobs + 1 }, true)
    else if client.jobs = 0 then (client, false)
    else (client.close, false)

def parseLogin (client : Client) (result : LoginResult) : Client × Bool :=
  let client := { client with rpcId := result.rpcId }
  if client.rpcId = none then (client, false)
  else
    let client := { client with extKeepalive := result.keepalive }
    let client := if result.keepalive then client.startTimeout else client
    let parsed := client.parseJob result.job
    ({ parsed.1 with jobs := 0 }, parsed.2)

def handleSubmitResponse (client : Client) (id : Int) : Client × Bool :=
  match client.results id with
  | none => (client, false)
  | some call =>
    ({ client with results := Function.update client.results id none }.emit
      (.onResultAccepted call id client.sessions), true)

def onAuthorizeResponse (client : Client) (granted : Bool) : Client :=
  if granted = false then client.close
  else if client.authorized then client
  else { client with authorized := true }.emit .onLoginSuccess

def onSubscribeResponse (client : Client) (granted : Bool) (subscription : Message) : Client :=
  if granted && client.nicehash then (client.send subscription).1 else client

def callBack (client : Client) (response : Response) : ClientCallback → Client
  | .subscribe => client.onSubscribeResponse (response.granted && !response.errored) response.subscription
  | .authorize => client.onAuthorizeResponse (response.granted && !response.errored)
  | .other => client

def handleResponse (client : Client) (response : Response) : Client × Bool :=
  if client.eth = false ∧ response.id = 1 then (client, false)
  else match client.callbacks response.id with
    | some callback =>
      let client := client.callBack response callback
      ({ client with callbacks := Function.update client.callbacks response.id none }, true)
    | none => if client.eth then client.handleSubmitResponse response.id else (client, false)

def parseResponse (client : Client) (response : Response) : Client :=
  let handled := client.handleResponse response
  if handled.2 then handled.1
  else
    let client := handled.1
    match response.error with
    | some critical =>
      let client := (client.handleSubmitResponse response.id).1
      if critical then client.close else client
    | none =>
      match response.result with
      | none => client
      | some result =>
        if response.id = 1 then
          let parsed := client.parseLogin result
          if parsed.2 = false then parsed.1.close
          else
            let client := { parsed.1 with failures := 0 }.emit .onLoginSuccess
            if client.job.isValid then client.emit .onJobReceived else client
        else (client.handleSubmitResponse response.id).1

/-- `parseNotification` of either client, for a job that was read or refused. -/
def parseNotification (client : Client) (job : Option Job) : Client :=
  if client.eth then
    match job with
    | none => client.close
    | some job =>
      if client.job.isEqual job then client.close
      else
        let client := { client with job }
        let client := if client.authorized then client
          else { client with authorized := true }.emit .onLoginSuccess
        client.emit .onJobReceived
  else
    let parsed := client.parseJob job
    if parsed.2 then parsed.1.emit .onJobReceived else parsed.1.close

def parse (client : Client) (line : Line) : Client :=
  let client := client.startTimeout
  match line with
  | .other => client
  | .reconnect tls => { client with poolTls := tls }.reconnect
  | .response response => client.parseResponse response
  | .job job => client.parseNotification job

def ping (client : Client) (transport : Transport) : Client :=
  { (client.sendBytes transport).1 with keepAlive := false }

def readLines (client : Client) (i : Nat) (lines : List Line) : Client :=
  lines.foldl parse (client.emit (.feed i client.socket))

def readSocks (client : Client) (socks : SocksState) (reply : Option Bool) (sent : Handshake) : Client :=
  match reply with
  | none => client
  | some false => client.close
  | some true =>
    if socks = .sentInitialHandshake then { client with socks5 := some .sentFinalHandshake }.write sent.write
    else
      let tls := if client.poolTls && client.tls.isNone then some false else client.tls
      { client with socks5 := none, tls }.handshake sent

def readTls (client : Client) (certificate : Option Bool) (sent : Handshake) : Client :=
  match certificate with
  | none => (client.sendBio sent.write).1
  | some false => client.close
  | some true => { client with tls := some true }.login sent

/-- `read` of bytes that came from socket `i`. -/
def read (client : Client) (i : Nat) : Incoming → Client
  | .error => client.close
  | .data reply certificate lines sent =>
    if client.listening = false then client.reconnect
    else match client.socks5 with
      | some socks => client.readSocks socks reply sent
      | none =>
        if client.isTLS && client.tls = some false then client.readTls certificate sent
        else client.readLines i lines

def tick (client : Client) (expired due : Bool) (lookup : Lookup) (transport : Transport) : Client :=
  if client.state = .connected then
    if client.expire && expired then client.close
    else if client.keepAlive && due then client.ping transport
    else client
  else if client.state = .reconnecting ∧ (client.expire && expired) then client.connect lookup
  else if client.state = .connecting ∧ (client.expire && expired) then client.close
  else client

def canSubmit (client : Client) (clientId : Option String) : Bool :=
  if client.eth then client.state = .connected && client.authorized
  else clientId = client.rpcId && client.rpcId.isSome && client.state = .connected

def recordCall (client : Client) (call : SubmitCall) : Client := { client with calls := client.calls ++ [call] }

/-- `m_results[m_sequence] = ...`, for the next call. -/
def writeDown (client : Client) : Client :=
  { client with results := Function.update client.results client.sequence (some client.calls.length) }

def submit (client : Client) (clientId : Option String) (zeroDiff : Bool) (message : Message) : Client :=
  if client.canSubmit clientId = false then client.recordCall ⟨client.sessions, none⟩
  else if zeroDiff then client.close.recordCall ⟨client.sessions, none⟩
  else
    let sent := client.writeDown.send message
    sent.1.recordCall ⟨client.sessions, sent.2⟩

inductive Event where
  | connect (lookup : Lookup)
  | disconnect
  | deleteLater
  | tick (expired due : Bool) (lookup : Lookup) (transport : Transport)
  | onResolved (found : Bool)
  | onConnect (i : Nat) (ok : Bool) (sent : Handshake)
  | onRead (i : Nat) (incoming : Incoming)
  | onClose (i : Nat)
  | submit (clientId : Option String) (zeroDiff : Bool) (message : Message)
  | sendCallback (message : Message)
  | sequence
  deriving DecidableEq, Repr

/-- The loop answers what it was asked: a closing socket neither connects nor reads, and its
connection request is cancelled before it is closed. -/
def enabled (client : Client) : Event → Bool
  | .onResolved _ => client.dns
  | .onConnect i ok _ => (client.sockets i).connecting && !(ok && (client.sockets i).closing)
  | .onRead i _ => (client.sockets i).reading && !(client.sockets i).closing
  | .onClose i => (client.sockets i).closing && !(client.sockets i).closed && !(client.sockets i).connecting
  | _ => true

def handle (client : Client) : Event → Option Client
  | .connect lookup => some (client.connect lookup)
  | .disconnect => some client.disconnect
  | .deleteLater => some client.deleteLater
  | .tick expired due lookup transport => some (client.tick expired due lookup transport)
  | .onResolved found => some (client.onResolved found)
  | .onConnect i ok sent =>
    (client.setSocket i fun socket => { socket with connecting := false }).onConnect ok sent
  | .onRead i incoming => some (client.read i incoming)
  | .onClose i => some ((client.setSocket i fun socket => { socket with closed := true }).onClose i)
  | .submit clientId zeroDiff message => some (client.submit clientId zeroDiff message)
  | .sendCallback message => some (client.sendCallback .other message)
  | .sequence => some { client with sequence := client.sequence + 1 }

/-- A client that was removed is gone: nothing finds it any more. -/
def step (client : Client) (event : Event) : Option Client :=
  if client.stored = false then some client
  else if client.enabled event then client.handle event
  else none

/-- A client as it is made for a pool, when other clients have sent messages already. -/
def start (eth proxy tls nicehash keepalive : Bool) (sequence : Nat) : Client :=
  { eth, proxy, poolTls := tls, nicehash, poolKeepalive := keepalive, sequence := sequence + 1 }

variable {client : Client}

theorem setState_plain (client : Client) {state : SocketState}
    (plain : state = .unconnected ∨ state = .connected ∨ state = .closing) :
    client.setState state = { client with state } := by
  unfold setState
  split
  · rename_i same
    rw [← same]
  · rcases plain with rfl | rfl | rfl <;> rfl

theorem sendBio_cases (client : Client) (transport : Transport) :
    client.sendBio transport = (client, true) ∨ client.sendBio transport = (client, false) ∨
      (client.state = .connected ∧ client.sendBio transport = (client.close, false)) := by
  cases transport with
  | written =>
    simp only [sendBio]
    cases decide (client.state = .connected) with
    | true => exact .inl rfl
    | false => exact .inr (.inl rfl)
  | buffered => exact .inl rfl
  | unwritable => exact .inr (.inl rfl)
  | failed =>
    simp only [sendBio]
    split
    · rename_i connected
      exact .inr (.inr ⟨connected, rfl⟩)
    · exact .inr (.inl rfl)

theorem transmit_cases (client : Client) (transport : Transport) :
    client.transmit transport = (client, true) ∨ client.transmit transport = (client, false) ∨
      (client.state = .connected ∧ client.transmit transport = (client.close, false)) := by
  unfold transmit
  split
  · exact client.sendBio_cases transport
  · split
    · exact .inr (.inl rfl)
    · rename_i ready
      rw [not_or, not_not] at ready
      split
      · exact .inr (.inr ⟨ready.1, rfl⟩)
      · exact .inl rfl

theorem sendBytes_cases (client : Client) (transport : Transport) :
    client.sendBytes transport =
        ({ client with expire := true, sequence := client.sequence + 1 }, some client.sequence) ∨
      client.sendBytes transport = (client, none) ∨
      (client.state = .connected ∧ client.sendBytes transport = (client.close, none)) := by
  unfold sendBytes
  obtain sent | silent | ⟨connected, closed⟩ := client.transmit_cases transport
  · rw [sent]
    exact .inl rfl
  · rw [silent]
    exact .inr (.inl rfl)
  · rw [closed]
    exact .inr (.inr ⟨connected, rfl⟩)

theorem send_cases (client : Client) (message : Message) :
    client.send message =
        ({ client with expire := true, sequence := client.sequence + 1 }, some client.sequence) ∨
      client.send message = (client, none) ∨ client.send message = (client.close, none) := by
  unfold send
  split
  · exact .inr (.inr rfl)
  · obtain sent | silent | ⟨_, closed⟩ := client.sendBytes_cases message.transport
    · exact .inl sent
    · exact .inr (.inl silent)
    · exact .inr (.inr closed)

theorem onConnect_cases {after : Client} {ok : Bool} {sent : Handshake}
    (connected : client.onConnect ok sent = some after) :
    after = client ∨ (client.state = .connecting ∧ after = client.close) ∨
      ∃ i, ok = true ∧ client.socket = some i ∧ after = (client.startReading i).handshake sent := by
  unfold onConnect at connected
  split at connected
  · cases connected
    split
    · rename_i waiting
      exact .inr (.inl ⟨waiting, rfl⟩)
    · exact .inl rfl
  · rename_i ok
    split at connected
    · cases connected
      exact .inl rfl
    · obtain ⟨i, here, rfl⟩ := Option.map_eq_some_iff.mp connected
      exact .inr (.inr ⟨i, Bool.not_eq_false _ ▸ ok, here, rfl⟩)

end Client

end Xmrig
