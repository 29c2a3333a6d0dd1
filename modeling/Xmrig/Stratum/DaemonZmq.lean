import Xmrig.Stratum.DaemonTemplate

/-! The ZMQ socket of a daemon client.

`retry` closes the socket and leaves the connection state as it is, and `ZMQRead` sets
the state after two of its writes, which may have closed the socket. `Secure` excludes
these steps; without them a socket is closed once.
-/

set_option autoImplicit false

namespace Xmrig

open Foundation

namespace DaemonClient

variable {env : BlockTemplate.Env} {crypto : Crypto} {client after : DaemonClient}

/-- What `connect()` answers with `retry`. -/
def refusesConnect (client : DaemonClient) (lookup : Lookup) : Bool :=
  (client.work.coin.isValid = false ∧ client.work.pool.algorithm.isValid = false) ∨
    (client.apiMonero ∧ client.work.walletAddress.valid = false) ∨
    ((0 : Int) ≤ client.work.pool.zmqPort ∧ lookup = .failed)

/-- A response that `parseResponse` has a use for. -/
def handles (env : BlockTemplate.Env) (crypto : Crypto) (client : DaemonClient) (reply : DaemonReply)
    (rounds : Nat) : Bool :=
  reply.id != -1 && reply.error.isNone &&
    match reply.result with
    | none => false
    | some (some _, _) => true
    | some (none, none) => reply.id ∈ client.results
    | some (none, some params) =>
      client.work.accepts env crypto params rounds || reply.id ∈ client.results

/-- The event makes the client call `retry`, other than from `ZMQClose`. -/
def retries (env : BlockTemplate.Env) (crypto : Crypto) (client : DaemonClient) : Event → Bool
  | .connect lookup => client.refusesConnect lookup
  | .timer _ lookup =>
    client.work.pool.zmqPort < 0 ∧ client.state = .connecting ∧ client.refusesConnect lookup
  | .http i answer _ _ rounds =>
    match client.requests[i]?, answer with
    | some _, .failed => true
    | some (.rpc _), .parsed reply => !client.handles env crypto reply rounds
    | _, _ => false
  | .resolved found => !found
  | .zmqConnect _ ok _ => !ok
  | _ => false

/-! What a peer has sent, stage by stage. -/

def greeted1 (buf : List Byte) : Bool :=
  kZMQGreetingSize1 ≤ buf.length ∧ buf.getD 0 0 = 0xff ∧ buf.getD 9 0 = 127 ∧ buf.getD 10 0 = 3

def greeted2 (buf : List Byte) : Bool :=
  64 ≤ buf.length ∧ (buf.drop 12).take 20 = (kZMQGreeting.drop 12).take 20

def shaken (buf : List Byte) : Bool :=
  let size := (buf.getD 1 0).toNat
  2 ≤ buf.length ∧ buf.getD 0 0 = 4 ∧ 18 ≤ size ∧ size + 2 ≤ buf.length ∧
    (buf.drop 2).take 18 = (kZMQHandshake.drop 2).take 18

def handshakeOpen (buf : List Byte) : Bool :=
  buf.length < 2 ∨ (buf.getD 0 0 = 4 ∧ 18 ≤ (buf.getD 1 0).toNat ∧ buf.length < (buf.getD 1 0).toNat + 2)

def secureHandshake (client : DaemonClient) (buf : List Byte) (writes : Writes) : Bool :=
  shaken buf → client.writable ∧ writes.subscribe

/-- The handshake may fail, as `ZMQRead` ends then. -/
def secureGreeting2 (client : DaemonClient) (buf : List Byte) (writes : Writes) : Bool :=
  greeted2 buf → client.writable → writes.handshake → client.secureHandshake (buf.drop 64) writes

def secureGreeting1 (client : DaemonClient) (buf : List Byte) (writes : Writes) : Bool :=
  greeted1 buf → (client.writable ∧ writes.greeting) ∧ client.secureGreeting2 buf writes

/-- None of the two writes fails after which `ZMQRead` goes on. -/
def secureRead (client : DaemonClient) : Event → Bool
  | .zmqRead _ data writes =>
    data.isEmpty ||
      match client.zmqState with
      | .greeting1 => client.secureGreeting1 (client.recvBuf ++ data) writes
      | .greeting2 => client.secureGreeting2 (client.recvBuf ++ data) writes
      | .handshake => client.secureHandshake (client.recvBuf ++ data) writes
      | _ => true
  | _ => true

/-- No `retry` while a ZMQ connection is up, and no failure inside `ZMQRead` that it overlooks. -/
def Secure (env : BlockTemplate.Env) (crypto : Crypto) (client : DaemonClient) (event : Event) : Prop :=
  (client.zmqState.active → client.retries env crypto event = false) ∧ client.secureRead event = true

instance (event : Event) : Decidable (client.Secure env crypto event) :=
  inferInstanceAs (Decidable (_ ∧ _))

/-- The part of a client that closing is about. `closes` lists the sockets that `uv_close` was
called on. -/
structure Zmq where
  state : ZmqState
  socket : Option Nat
  sockets : Nat → ZmqSocket
  allocated : Nat
  closes : List Nat
  closedSince : Bool

def zmq (client : DaemonClient) : Zmq where
  state := client.zmqState
  socket := client.zmqSocket
  sockets := client.sockets
  allocated := client.allocated
  closes := client.log.filterMap fun
    | .uvClose i => some i
    | _ => none
  closedSince := client.closedSince

/-- A socket is closed once, and the state is down from then on until a new connection. -/
structure Zmq.ClosedOnce (zmq : Zmq) : Prop where
  once : zmq.closes.Nodup
  down : zmq.closedSince = true → zmq.state.active = false

structure Zmq.Inv (zmq : Zmq) : Prop extends zmq.ClosedOnce where
  current : ∀ i, zmq.socket = some i → i < zmq.allocated
  closing : ∀ i ∈ zmq.closes, i < zmq.allocated ∧ (zmq.sockets i).closing.isSome = true

/-! What leaves the sockets alone. -/

@[simp] theorem stopTimer_zmq : client.stopTimer.zmq = client.zmq := rfl

@[simp] theorem startTimer_zmq (timer : Timer) : (client.startTimer timer).zmq = client.zmq := rfl

@[simp] theorem send_zmq (request : DaemonRequest) : (client.send request).zmq = client.zmq := rfl

@[simp] theorem getBlockTemplate_zmq : client.getBlockTemplate.zmq = client.zmq := rfl

@[simp] theorem setState_zmq (state : SocketState) : (client.setState state).zmq = client.zmq := by
  unfold setState
  split
  · rfl
  · split <;> rfl

@[simp] theorem setState_zmqState (state : SocketState) :
    (client.setState state).zmqState = client.zmqState :=
  congrArg Zmq.state (setState_zmq state)

@[simp] theorem setState_apiMonero (state : SocketState) :
    (client.setState state).apiMonero = client.apiMonero := by
  unfold setState
  split
  · rfl
  · split <;> rfl

@[simp] theorem disconnect_zmq : client.disconnect.zmq = client.zmq := by
  unfold disconnect
  split <;> simp

@[simp] theorem clearHashes_zmq : client.clearHashes.zmq = client.zmq := rfl

/-- Without a connection `retry` does not close. -/
theorem retry_zmq (down : client.zmqState.active = false) : client.retry.zmq = client.zmq := by
  have failed : ∀ other : DaemonClient, other.zmqState.active = false → other.retryTail.zmq = other.zmq := by
    intro other quiet
    simp only [retryTail, stopTimer_zmq, startTimer_zmq]
    split
    · rw [setState_zmqState, quiet]; simp
    · rw [quiet]; simp
  simp only [retry]
  split
  · rfl
  · exact failed _ down

@[simp] theorem handleSubmitResponse_zmq (id : Int) (error : Option (List Byte)) :
    (client.handleSubmitResponse id error).2.zmq = client.zmq := by
  unfold handleSubmitResponse
  split <;> rfl

@[simp] theorem submitResponse_zmq (id : Int) : (client.submitResponse id).2.zmq = client.zmq := by
  simp only [submitResponse]
  repeat' split
  all_goals simp

@[simp] theorem onHeight_zmq (height : BitVec 64) (hash : Option (List Byte)) (timedOut : Bool) :
    (client.onHeight height hash timedOut).zmq = client.zmq := by
  simp only [onHeight]
  split <;> rfl

theorem parseJob_zmq {params : JobParams} {jobId : String} {rounds : Nat} {accepted : Bool}
    (ran : client.parseJob env crypto params jobId rounds = some (accepted, after)) :
    after.zmq = client.zmq := by
  obtain ⟨⟨outcome, work⟩, _, made⟩ := Option.map_eq_some_iff.mp ran
  cases outcome with
  | error why => cases made; rfl
  | ok done =>
    simp only [Prod.mk.injEq] at made
    have kept : ({ client with work } : DaemonClient).zmq = client.zmq := rfl
    rw [← made.2]
    split
    · exact (setState_zmq .connected).trans kept
    · exact kept

/-- `parseJob` returns what the checks of the template come to; the results are kept. -/
theorem parseJob_verdict {params : JobParams} {jobId : String} {rounds : Nat} {accepted : Bool}
    (ran : client.parseJob env crypto params jobId rounds = some (accepted, after)) :
    accepted = client.work.accepts env crypto params rounds ∧ after.results = client.results := by
  obtain ⟨⟨outcome, work⟩, parsed, made⟩ := Option.map_eq_some_iff.mp ran
  have verdict : outcome.isOk = client.work.accepts env crypto params rounds := by
    match given : params.blocktemplateBlob with
    | none =>
      rw [Work.parseJob_empty given] at parsed
      cases parsed
      simp only [Work.accepts, given]
      rfl
    | some hex =>
      rcases Work.parseJob_cases given parsed with ⟨refused, ⟨why, rfl⟩, _⟩ | ⟨accepted, rfl, _⟩
      · rw [refused]; rfl
      · rw [accepted]; rfl
  rw [← verdict]
  cases outcome with
  | error why => cases made; exact ⟨rfl, rfl⟩
  | ok done =>
    simp only [Prod.mk.injEq] at made
    obtain ⟨rfl, rfl⟩ := made
    refine ⟨rfl, ?_⟩
    split
    · simp only [setState, emit]
      repeat' split
      all_goals rfl
    · rfl

theorem submitResponse_handled (id : Int) : (client.submitResponse id).1 = decide (id ∈ client.results) := by
  simp only [submitResponse, handleSubmitResponse]
  by_cases known : id ∈ client.results <;> simp [known]

theorem parseResponse_zmq {reply : DaemonReply} {jobId : String} {rounds : Nat} {handled : Bool}
    (ran : client.parseResponse env crypto reply jobId rounds = some (handled, after)) :
    handled = client.handles env crypto reply rounds ∧ after.zmq = client.zmq := by
  unfold parseResponse at ran
  unfold handles
  split at ran
  · rename_i unknown
    cases ran
    exact ⟨by simp [unknown], rfl⟩
  · rename_i known
    have named : (reply.id != -1) = true := bne_iff_ne.mpr known
    split at ran
    · rename_i failed
      cases ran
      exact ⟨by simp [failed], handleSubmitResponse_zmq _ _⟩
    · rename_i failed result
      cases ran
      exact ⟨by simp [result], rfl⟩
    · rename_i failed result
      cases ran
      refine ⟨by simp [named, failed, result], ?_⟩
      split <;> rfl
    · rename_i failed result
      have same := Option.some.inj ran
      have handled' : _ = handled := congrArg Prod.fst same
      have after' := congrArg (fun result => result.2.zmq) same
      rw [submitResponse_handled] at handled'
      rw [submitResponse_zmq] at after'
      exact ⟨by simp [named, failed, result, ← handled'], after'.symm⟩
    · rename_i params failed result
      obtain ⟨⟨accepted, middle⟩, parsed, made⟩ := Option.map_eq_some_iff.mp ran
      obtain ⟨verdict, results⟩ := parseJob_verdict parsed
      have kept := parseJob_zmq parsed
      simp only at made
      split at made
      · rename_i yes
        cases made
        exact ⟨by simp [named, failed, result, ← verdict, yes], kept⟩
      · rename_i no
        have handled' : _ = handled := congrArg Prod.fst made
        have after' := congrArg (fun result => result.2.zmq) made
        rw [submitResponse_handled, results] at handled'
        rw [submitResponse_zmq] at after'
        refine ⟨?_, after'.symm.trans kept⟩
        simp [named, failed, result, ← verdict, no, ← handled']

theorem onHttpData_zmq {request : DaemonRequest} {answer : HttpAnswer} {timedOut : Bool} {jobId : String}
    {rounds : Nat} (ran : client.onHttpData env crypto request answer timedOut jobId rounds = some after)
    (secure : client.zmqState.active → answer ≠ .failed ∧ ∀ id reply, request = .rpc id →
      answer = .parsed reply → client.handles env crypto reply rounds = true) :
    after.zmq = client.zmq := by
  unfold onHttpData at ran
  split at ran
  · cases ran
    exact retry_zmq (Bool.eq_false_iff.mpr fun up => (secure up).1 rfl)
  · split at ran
    · cases ran
      rfl
    · cases ran
      exact onHeight_zmq _ _ _
  · cases ran
    exact onHeight_zmq _ _ _
  · rename_i reply id
    obtain ⟨⟨handled, middle⟩, parsed, made⟩ := Option.map_eq_some_iff.mp ran
    obtain ⟨verdict, kept⟩ := parseResponse_zmq parsed
    simp only at made
    split at made
    · exact made ▸ kept
    · rename_i refused
      rw [← made, retry_zmq, kept]
      rw [show middle.zmqState = client.zmqState from congrArg Zmq.state kept]
      refine Bool.eq_false_iff.mpr fun up => refused ?_
      rw [verdict]
      exact (secure up).2 id reply rfl rfl

/-! What closes a socket or opens one. -/

@[simp] theorem uvClose_zmqState (shutdown : Bool) :
    (client.uvClose shutdown).zmqState = client.zmqState := by
  unfold uvClose
  split <;> rfl

theorem uvClose_inv (shutdown : Bool) (inv : client.zmq.Inv) (down : client.zmqState.active = false)
    (unclosed : client.zmqClosing = false) : (client.uvClose shutdown).zmq.Inv := by
  unfold uvClose
  unfold zmqClosing at unclosed
  cases current : client.zmqSocket with
  | none => exact inv
  | some i =>
    rw [current] at unclosed
    simp only at unclosed
    have fresh : i ∉ client.zmq.closes := by
      intro member
      have closing := (inv.closing i member).2
      change (client.sockets i).closing.isSome = true at closing
      rw [unclosed] at closing
      cases closing
    refine ⟨⟨List.nodup_cons.mpr ⟨fresh, inv.once⟩, fun _ => down⟩, inv.current, fun j member => ?_⟩
    rcases List.mem_cons.mp member with rfl | earlier
    · exact ⟨inv.current j current, by simp [zmq, emit, setSocket]⟩
    · refine ⟨(inv.closing j earlier).1, ?_⟩
      have other : j ≠ i := fun same => fresh (same ▸ earlier)
      have closing := (inv.closing j earlier).2
      simpa [zmq, emit, setSocket, Function.update_of_ne other] using closing

theorem Zmq.Inv.lower {zmq : Zmq} {state : ZmqState} (inv : zmq.Inv) (down : state.active = false) :
    ({ zmq with state := state } : Zmq).Inv :=
  ⟨⟨inv.once, fun _ => down⟩, inv.current, inv.closing⟩

theorem zmqClose_inv (shutdown : Bool) (inv : client.zmq.Inv) : (client.zmqClose shutdown).zmq.Inv := by
  simp only [zmqClose]
  split
  · split <;> exact inv
  · have leaving : ({ client with zmqState := .disconnecting } : DaemonClient).zmq.Inv := inv.lower rfl
    split
    · exact leaving
    · rename_i unclosed
      have closed (how : Bool) := uvClose_inv how leaving rfl (Bool.not_eq_true _ ▸ unclosed)
      split
      · exact closed true
      · rw [retry_zmq (by rw [uvClose_zmqState]; rfl)]
        exact closed false

theorem zmqWrite_inv (text : List Byte) (whole : Bool) (inv : client.zmq.Inv) :
    (client.zmqWrite text whole).2.zmq.Inv := by
  unfold zmqWrite
  split
  · exact inv
  · exact zmqClose_inv false inv

theorem onResolved_inv (found : Bool) (inv : client.zmq.Inv)
    (secure : client.zmqState.active = true → found = true) : (client.onResolved found).zmq.Inv := by
  simp only [onResolved]
  split
  · rename_i failed
    rw [retry_zmq]
    · exact inv
    · refine Bool.eq_false_iff.mpr fun up => ?_
      rw [secure up] at failed
      cases failed
  · split
    · refine ⟨⟨inv.once, inv.down⟩, fun i current => ?_, fun i member => ?_⟩
      · cases current
        exact Nat.lt_succ_self _
      · have bound := (inv.closing i member).1
        refine ⟨Nat.lt_succ_of_lt bound, ?_⟩
        have other : i ≠ client.allocated := Nat.ne_of_lt bound
        simpa [zmq, Function.update_of_ne other] using (inv.closing i member).2
    · exact inv

theorem connect_inv {lookup : Lookup} (inv : client.zmq.Inv)
    (secure : client.zmqState.active = true → client.refusesConnect lookup = false) :
    (client.connect lookup).zmq.Inv := by
  have started : (client.setState .connecting).zmq.Inv := by rw [setState_zmq]; exact inv
  have refused (bad : client.refusesConnect lookup = true) : client.zmqState.active = false := by
    refine Bool.eq_false_iff.mpr fun up => ?_
    rw [secure up] at bad
    cases bad
  simp only [connect, setState_work, setState_apiMonero]
  split
  · rename_i invalid
    rw [retry_zmq]
    · exact started
    · rw [setState_zmqState]
      exact refused (by simp [refusesConnect, invalid])
  · split
    · rename_i invalid
      rw [retry_zmq]
      · exact started
      · change (client.setState .connecting).zmqState.active = false
        rw [setState_zmqState]
        exact refused (by simp [refusesConnect, invalid])
    · split
      · rename_i port
        cases lookup with
        | pending => exact started
        | failed =>
          refine onResolved_inv false started fun up => ?_
          change (client.setState .connecting).zmqState.active = true at up
          rw [setState_zmqState, refused (by simp [refusesConnect, port])] at up
          cases up
        | found => exact onResolved_inv true started fun _ => rfl
      · exact started

theorem setSocket_inv (i : Nat) (change : ZmqSocket → ZmqSocket)
    (keeps : ∀ socket, (change socket).closing = socket.closing) (inv : client.zmq.Inv) :
    (client.setSocket i change).zmq.Inv := by
  refine ⟨⟨inv.once, inv.down⟩, inv.current, fun j member => ⟨(inv.closing j member).1, ?_⟩⟩
  have closing := (inv.closing j member).2
  by_cases same : j = i
  · subst same
    simpa [zmq, setSocket, keeps] using closing
  · simpa [zmq, setSocket, Function.update_of_ne same] using closing

theorem zmqConnected_inv (whole : Bool) (inv : client.zmq.Inv) : (client.zmqConnected whole).zmq.Inv := by
  have greeting : ({ client with zmqState := .greeting1, closedSince := false } : DaemonClient).zmq.Inv :=
    ⟨⟨inv.once, nofun⟩, inv.current, inv.closing⟩
  have greeted := zmqWrite_inv (kZMQGreeting.take kZMQGreetingSize1) whole greeting
  simp only [zmqConnected]
  split
  · exact setSocket_inv _ _ (fun _ => rfl) greeted
  · exact greeted

theorem zmqParse_inv (inv : client.zmq.Inv) : client.zmqParse.zmq.Inv := by
  unfold zmqParse
  split
  · exact inv
  · exact zmqClose_inv false inv
  · exact inv

/-- While a connection is up, nothing was closed since; the state may move on. -/
theorem Zmq.Inv.raise {zmq : Zmq} (inv : zmq.Inv) (up : zmq.state.active = true) (state : ZmqState) :
    ({ zmq with state := state } : Zmq).Inv := by
  refine ⟨⟨inv.once, fun closed => ?_⟩, inv.current, inv.closing⟩
  have down := inv.down closed
  rw [up] at down
  cases down

theorem zmqWrite_whole {text : List Byte} {whole : Bool} (written : client.writable = true ∧ whole = true) :
    client.zmqWrite text whole = (true, client.emit (.zmqWrite text)) := by
  unfold zmqWrite
  rw [written.1, written.2]
  rfl

theorem zmqWrite_sent {text : List Byte} {whole : Bool} (sent : (client.zmqWrite text whole).1 = true) :
    client.zmqWrite text whole = (true, client.emit (.zmqWrite text)) ∧
      client.writable = true ∧ whole = true := by
  unfold zmqWrite at sent
  split at sent
  · rename_i both
    exact ⟨zmqWrite_whole (Bool.and_eq_true_iff.mp both), Bool.and_eq_true_iff.mp both⟩
  · cases sent

def subscribed (client : DaemonClient) (writes : Writes) : DaemonClient :=
  let written := (client.zmqWrite kZMQSubscribe writes.subscribe).2
  { written with
    zmqState := .connected
    recvBuf := written.recvBuf.drop ((client.recvBuf.getD 1 0).toNat + 2) }.getBlockTemplate

theorem readHandshake_cases (client : DaemonClient) (writes : Writes) :
    (handshakeOpen client.recvBuf = true ∧ client.readHandshake writes = client) ∨
    (handshakeOpen client.recvBuf = false ∧ shaken client.recvBuf = false ∧
      client.readHandshake writes = client.zmqClose false) ∨
    (handshakeOpen client.recvBuf = false ∧ shaken client.recvBuf = true ∧
      client.readHandshake writes = (client.subscribed writes).zmqParse) := by
  simp only [readHandshake, handshakeOpen, shaken, decide_eq_true_eq, decide_eq_false_iff_not]
  split
  · rename_i short
    exact .inl ⟨.inl short, rfl⟩
  · rename_i long
    split
    · rename_i first
      exact .inr (.inl ⟨by tauto, by tauto, rfl⟩)
    · rename_i first
      split
      · rename_i small
        refine .inr (.inl ⟨?_, ?_, rfl⟩) <;> omega
      · rename_i size
        split
        · rename_i part
          exact .inl ⟨.inr ⟨not_not.mp first, by omega, part⟩, rfl⟩
        · rename_i whole
          split
          · rename_i differs
            exact .inr (.inl ⟨by omega, by tauto, rfl⟩)
          · rename_i equal
            refine .inr (.inr ⟨by omega, ⟨by omega, not_not.mp first, by omega, by omega, not_not.mp equal⟩, rfl⟩)

theorem readGreeting2_cases (client : DaemonClient) (writes : Writes) :
    (client.recvBuf.length < 64 ∧ client.readGreeting2 writes = client) ∨
    (¬ client.recvBuf.length < 64 ∧ greeted2 client.recvBuf = false ∧
      client.readGreeting2 writes = client.zmqClose false) ∨
    (¬ client.recvBuf.length < 64 ∧ greeted2 client.recvBuf = true ∧
      client.readGreeting2 writes =
        let written := { client with
          zmqState := .handshake, recvBuf := client.recvBuf.drop 64 }.zmqWrite kZMQHandshake writes.handshake
        if written.1 then written.2.readHandshake writes else written.2) := by
  simp only [readGreeting2, greeted2, decide_eq_true_eq, decide_eq_false_iff_not]
  split
  · rename_i short
    exact .inl ⟨short, rfl⟩
  · rename_i long
    split
    · rename_i differs
      exact .inr (.inl ⟨long, fun equal => differs equal.2, rfl⟩)
    · rename_i equal
      exact .inr (.inr ⟨long, ⟨by omega, not_not.mp equal⟩, rfl⟩)

theorem readGreeting1_cases (client : DaemonClient) (writes : Writes) :
    (client.recvBuf.length < kZMQGreetingSize1 ∧ client.readGreeting1 writes = client) ∨
    (¬ client.recvBuf.length < kZMQGreetingSize1 ∧ greeted1 client.recvBuf = false ∧
      client.readGreeting1 writes = client.zmqClose false) ∨
    (¬ client.recvBuf.length < kZMQGreetingSize1 ∧ greeted1 client.recvBuf = true ∧
      client.readGreeting1 writes = { (client.zmqWrite (kZMQGreeting.drop kZMQGreetingSize1)
        writes.greeting).2 with zmqState := .greeting2 }.readGreeting2 writes) := by
  simp only [readGreeting1, greeted1, decide_eq_true_eq, decide_eq_false_iff_not]
  split
  · rename_i short
    exact .inl ⟨short, rfl⟩
  · rename_i long
    split
    · rename_i equal
      exact .inr (.inr ⟨long, ⟨by omega, equal⟩, rfl⟩)
    · rename_i differs
      exact .inr (.inl ⟨long, fun equal => differs equal.2, rfl⟩)

theorem readHandshake_inv {writes : Writes} (inv : client.zmq.Inv) (up : client.zmqState.active = true)
    (secure : client.secureHandshake client.recvBuf writes = true) :
    (client.readHandshake writes).zmq.Inv := by
  rcases client.readHandshake_cases writes with ⟨_, same⟩ | ⟨_, _, same⟩ | ⟨_, complete, same⟩
  · rw [same]
    exact inv
  · rw [same]
    exact zmqClose_inv false inv
  · simp only [secureHandshake, complete, decide_eq_true_eq, forall_const] at secure
    rw [same, subscribed, zmqWrite_whole secure]
    exact zmqParse_inv (inv.raise up .connected)

theorem readGreeting2_inv {writes : Writes} (inv : client.zmq.Inv) (up : client.zmqState.active = true)
    (secure : client.secureGreeting2 client.recvBuf writes = true) :
    (client.readGreeting2 writes).zmq.Inv := by
  rcases client.readGreeting2_cases writes with ⟨_, same⟩ | ⟨_, _, same⟩ | ⟨_, complete, same⟩
  · rw [same]
    exact inv
  · rw [same]
    exact zmqClose_inv false inv
  · rw [same]
    have shaking : ({ client with zmqState := .handshake, recvBuf := client.recvBuf.drop 64 } :
      DaemonClient).zmq.Inv := inv.raise up .handshake
    have written := zmqWrite_inv kZMQHandshake writes.handshake shaking
    simp only
    split
    · rename_i sent
      obtain ⟨same, writable, whole⟩ := zmqWrite_sent sent
      change client.writable = true at writable
      rw [same] at written ⊢
      apply readHandshake_inv written rfl
      simp only [secureGreeting2, complete, writable, whole, forall_const, decide_eq_true_eq] at secure
      exact secure
    · exact written

theorem readGreeting1_inv {writes : Writes} (inv : client.zmq.Inv) (up : client.zmqState.active = true)
    (secure : client.secureGreeting1 client.recvBuf writes = true) :
    (client.readGreeting1 writes).zmq.Inv := by
  rcases client.readGreeting1_cases writes with ⟨_, same⟩ | ⟨_, _, same⟩ | ⟨_, complete, same⟩
  · rw [same]
    exact inv
  · rw [same]
    exact zmqClose_inv false inv
  · simp only [secureGreeting1, complete, forall_const, decide_eq_true_eq] at secure
    rw [same, zmqWrite_whole secure.1]
    exact readGreeting2_inv (inv.raise up .greeting2) rfl secure.2

theorem zmqRead_inv {i : Nat} {data : List Byte} {writes : Writes} (inv : client.zmq.Inv)
    (secure : client.Secure env crypto (.zmqRead i data writes)) : (client.zmqRead data writes).zmq.Inv := by
  simp only [zmqRead]
  split
  · exact zmqClose_inv false inv
  · rename_i some
    have known := secure.2
    simp only [secureRead, Bool.eq_false_iff.mpr some, Bool.false_or] at known
    have fed : ({ client with recvBuf := client.recvBuf ++ data } : DaemonClient).zmq.Inv := inv
    split
    · rename_i here
      simp only [here] at known
      exact readGreeting1_inv fed (by rw [here]; rfl) known
    · rename_i here
      simp only [here] at known
      exact readGreeting2_inv fed (by rw [here]; rfl) known
    · rename_i here
      simp only [here] at known
      exact readHandshake_inv fed (by rw [here]; rfl) known
    · exact zmqParse_inv fed
    · exact fed

theorem onTimer_inv {timedOut : Bool} {lookup : Lookup} (inv : client.zmq.Inv)
    (secure : client.zmqState.active = true → client.retries env crypto (.timer timedOut lookup) = false) :
    (client.fired.onTimer timedOut lookup).zmq.Inv := by
  have fired : client.fired.zmq = client.zmq ∧ client.fired.work = client.work ∧
      client.fired.state = client.state ∧
      client.fired.refusesConnect lookup = client.refusesConnect lookup := by
    unfold fired
    split <;> exact ⟨rfl, rfl, rfl, rfl⟩
  obtain ⟨zmq, work, state, refuses⟩ := fired
  simp only [onTimer]
  split
  · exact zmq ▸ inv
  · rename_i port
    rw [work] at port
    generalize cleared : (if timedOut = true then client.fired.clearHashes else client.fired) = idle
    have same : idle.zmq = client.zmq ∧ idle.state = client.state ∧
        idle.refusesConnect lookup = client.refusesConnect lookup := by
      rw [← cleared, ← zmq, ← state, ← refuses]
      split <;> exact ⟨rfl, rfl, rfl⟩
    obtain ⟨zmq, state, refuses⟩ := same
    have kept : idle.zmq.Inv := zmq ▸ inv
    split
    · rename_i connecting
      rw [state] at connecting
      refine connect_inv kept fun up => ?_
      rw [show idle.zmqState = client.zmqState from congrArg Zmq.state zmq] at up
      have calm := secure up
      simp only [retries, connecting, decide_eq_false_iff_not, not_and, Bool.not_eq_true] at calm
      rw [refuses]
      exact calm (Int.not_le.mp port) trivial
    · split <;> exact kept

theorem step_inv {event : Event} (inv : client.zmq.Inv) (secure : client.Secure env crypto event)
    (stepped : client.step env crypto event = some after) : after.zmq.Inv := by
  unfold step at stepped
  split at stepped
  · cases stepped
  · cases event with
    | setPool pool => cases stepped; exact inv
    | setAlgo algorithm => cases stepped; exact inv
    | connect lookup => cases stepped; exact connect_inv inv secure.1
    | disconnect => cases stepped; rw [disconnect_zmq]; exact inv
    | deleteLater =>
      cases stepped
      unfold deleteLater
      split
      · exact zmqClose_inv true inv
      · exact inv
    | submit result =>
      simp only at stepped
      split at stepped
      · cases stepped; exact inv
      · cases stepped; exact inv
    | http i answer timedOut jobId rounds =>
      simp only at stepped
      split at stepped
      · cases stepped
      · rename_i request pending
        rw [onHttpData_zmq stepped]
        · exact inv
        · intro up
          have calm := secure.1 up
          simp only [retries, pending] at calm
          cases answer with
          | failed => cases calm
          | parsed reply =>
            refine ⟨nofun, fun id other posted same => ?_⟩
            subst posted
            cases same
            have used : client.handles env crypto reply rounds = true := by simpa using calm
            exact used
    | timer timedOut lookup =>
      simp only at stepped
      split at stepped
      · cases stepped
      · cases stepped
        exact onTimer_inv inv secure.1
    | resolved found =>
      simp only at stepped
      split at stepped
      · cases stepped
        exact onResolved_inv found inv fun up => by simpa [retries] using secure.1 up
      · cases stepped
    | zmqConnect i ok whole =>
      simp only at stepped
      split at stepped
      · cases stepped
        have marked := setSocket_inv i (fun s => { s with connecting := false, connected := ok })
          (fun _ => rfl) inv
        split
        · exact zmqConnected_inv whole marked
        · rename_i failed
          rw [retry_zmq]
          · exact marked
          · refine Bool.eq_false_iff.mpr fun up => ?_
            have calm := secure.1 up
            simp only [retries, Bool.not_eq_false'] at calm
            exact failed calm
      · cases stepped
    | zmqRead i data writes =>
      simp only at stepped
      split at stepped
      · cases stepped
        exact zmqRead_inv inv secure
      · cases stepped
    | zmqClosed i =>
      simp only at stepped
      split at stepped
      · cases stepped
      · split at stepped
        · cases stepped
        · cases stepped
          have marked := setSocket_inv i (fun s => { s with closed := true }) (fun _ => rfl) inv
          exact marked.lower rfl
    | otherSends count => cases stepped; exact inv

/-- In runs of secure steps a socket is closed once, and the state stays down until a new
connection is established. -/
theorem zmqSocket_closed_once {events : List Event} {final : DaemonClient}
    (secure : Guarded (step env crypto) (Secure env crypto) {} events)
    (executed : run (step env crypto) {} events = some final) : final.zmq.ClosedOnce := by
  have start : ({} : DaemonClient).zmq.Inv := ⟨⟨List.nodup_nil, nofun⟩, nofun, nofun⟩
  have inv := run_invariant (P := fun client => client.zmq.Inv)
    (fun _ _ _ inv allowed stepped => step_inv inv allowed stepped) start secure executed
  exact inv.toClosedOnce

/-- A pool with a ZMQ port. The peer greets, shakes hands and announces a block. -/
def zmqUpRun : List Event :=
  [.setPool { zmqPort := 18083 }, .connect .found, .zmqConnect 0 true true,
    .zmqRead 0 (kZMQGreeting ++ kZMQHandshake ++ [0, 1, 0]) ⟨true, true, true⟩]

def zmqDownRun : List Event := zmqUpRun ++ [.deleteLater, .zmqClosed 0]

theorem zmqDownRun_runs : (run (step sampleEnv sampleCrypto) {} zmqDownRun).isSome = true := by
  decide

theorem zmqSocket_closed_once_shutdown :
    ∃ final, run (step sampleEnv sampleCrypto) {} zmqDownRun = some final ∧
      final.zmq.closes = [0] ∧ final.zmq.ClosedOnce := by
  have executed := (Option.some_get zmqDownRun_runs).symm
  exact ⟨_, executed, by decide, zmqSocket_closed_once (by decide) executed⟩

/-- Both pending requests fail before the loop has closed the socket. -/
def twoFailuresRun : List Event := zmqUpRun ++ [.http 0 .failed false "" 0, .http 0 .failed false "" 0]

theorem twoFailuresRun_runs : (run (step sampleEnv sampleCrypto) {} twoFailuresRun).isSome = true := by
  decide

theorem two_failures_close_twice :
    ∃ final, run (step sampleEnv sampleCrypto) {} twoFailuresRun = some final ∧
      final.zmq.closes = [0, 0] ∧ final.zmq.closedSince = true ∧ final.zmq.state = .connected ∧
      ¬ final.zmq.ClosedOnce := by
  refine ⟨_, (Option.some_get twoFailuresRun_runs).symm, by decide, by decide,
    by decide, fun closed => ?_⟩
  have once := closed.once
  revert once
  decide

end DaemonClient

end Xmrig
