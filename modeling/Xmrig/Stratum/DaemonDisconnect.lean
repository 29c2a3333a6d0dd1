import Xmrig.Stratum.DaemonZmq

/-! What still happens to a daemon client after `disconnect`.

`m_failures` is -1 after a disconnect, and `retry` counts it up before it looks at it.
Pending requests, a lookup and the ZMQ connection are not cancelled, and `parseJob`
reports a job in every state. `Quiet` says which of the late events do no harm.
-/

set_option autoImplicit false

namespace Xmrig

open Foundation

/-- What the listener and the timer must not see after a disconnect. -/
def DaemonOutput.loud : DaemonOutput → Bool
  | .onClose failures => 0 ≤ failures
  | .onLoginSuccess => true
  | .onJobReceived => true
  | .timerStart => true
  | _ => false

namespace DaemonClient

variable {env : BlockTemplate.Env} {crypto : Crypto} {client after : DaemonClient}

/-! What a peer may send without a new attempt or a new request: no stage fails, unless
`uv_close` was called already, and no message is complete. -/

def quietMessage (client : DaemonClient) (buf : List Byte) : Bool :=
  match parseFrames (buf.length + 1) buf 0 with
  | .incomplete => true
  | .tooLarge => client.zmqClosing
  | .complete _ => false

def quietHandshake (client : DaemonClient) (buf : List Byte) (writes : Writes) : Bool :=
  handshakeOpen buf ||
    ((client.zmqClosing || (shaken buf && client.writable && writes.subscribe)) &&
      (!shaken buf || client.quietMessage (buf.drop ((buf.getD 1 0).toNat + 2))))

def quietGreeting2 (client : DaemonClient) (buf : List Byte) (writes : Writes) : Bool :=
  buf.length < 64 ||
    ((client.zmqClosing || (greeted2 buf && client.writable && writes.handshake)) &&
      (!(greeted2 buf && client.writable && writes.handshake) || client.quietHandshake (buf.drop 64) writes))

def quietGreeting1 (client : DaemonClient) (buf : List Byte) (writes : Writes) : Bool :=
  buf.length < kZMQGreetingSize1 ||
    ((client.zmqClosing || (greeted1 buf && client.writable && writes.greeting)) &&
      (!greeted1 buf || client.quietGreeting2 buf writes))

def quietRead (client : DaemonClient) (data : List Byte) (writes : Writes) : Bool :=
  if data.isEmpty then !client.zmqState.active || client.zmqClosing
  else match client.zmqState with
    | .greeting1 => client.quietGreeting1 (client.recvBuf ++ data) writes
    | .greeting2 => client.quietGreeting2 (client.recvBuf ++ data) writes
    | .handshake => client.quietHandshake (client.recvBuf ++ data) writes
    | .connected => client.quietMessage (client.recvBuf ++ data)
    | _ => true

def bringsJob (env : BlockTemplate.Env) (crypto : Crypto) (client : DaemonClient) : Event → Bool
  | .http i (.parsed reply) _ _ rounds =>
    match client.requests[i]?, reply.template with
    | some (.rpc _), some params => client.work.accepts env crypto params rounds
    | _, _ => false
  | _ => false

/-- The socket as `onZMQConnect` finds it. -/
def connectedSocket (client : DaemonClient) (i : Nat) : DaemonClient :=
  client.setSocket i fun s => { s with connecting := false, connected := true }

/-- No `connect`, no `retry`, no accepted template, no failure and no message on the ZMQ
connection. -/
def Quiet (env : BlockTemplate.Env) (crypto : Crypto) (client : DaemonClient) (event : Event) : Prop :=
  client.retries env crypto event = false ∧ client.bringsJob env crypto event = false ∧
    match event with
    | .connect _ => False
    | .zmqConnect i _ whole =>
      ((client.connectedSocket i).writable && whole || client.zmqClosing) = true
    | .zmqRead _ data writes => client.quietRead data writes = true
    | _ => True

/-- The part of a client that a disconnect settles. -/
structure Calm where
  state : SocketState
  failures : Int
  timer : Timer
  loud : List DaemonOutput

def calm (client : DaemonClient) : Calm where
  state := client.state
  failures := client.failures
  timer := client.timer
  loud := client.log.filter DaemonOutput.loud

/-- What the stages of `ZMQRead` rely on. -/
structure Same (before after : DaemonClient) : Prop where
  calm : after.calm = before.calm
  recvBuf : after.recvBuf = before.recvBuf
  closing : after.zmqClosing = before.zmqClosing
  writable : after.writable = before.writable

/-- `ZMQClose` without a connection, or on a socket that is being closed. -/
theorem zmqClose_same (shut : client.zmqState.active = false ∨ client.zmqClosing = true) :
    Same client (client.zmqClose false) := by
  simp only [zmqClose]
  split
  · exact ⟨rfl, rfl, rfl, rfl⟩
  · rename_i up
    rcases shut with down | closing
    · exact absurd down up
    · rw [if_pos (show zmqClosing { client with zmqState := .disconnecting } = true from closing)]
      exact ⟨rfl, rfl, rfl, rfl⟩

theorem zmqWrite_same (text : List Byte) {whole : Bool}
    (quiet : client.zmqClosing = true ∨ (client.writable = true ∧ whole = true)) :
    Same client (client.zmqWrite text whole).2 := by
  unfold zmqWrite
  split
  · exact ⟨rfl, rfl, rfl, rfl⟩
  · rename_i failed
    rcases quiet with closing | written
    · exact zmqClose_same (.inr closing)
    · exact absurd (by rw [written.1, written.2]; rfl) failed

theorem zmqParse_calm (quiet : client.quietMessage client.recvBuf = true) :
    client.zmqParse.calm = client.calm := by
  cases parsed : parseFrames (client.recvBuf.length + 1) client.recvBuf 0 with
  | incomplete => simp only [zmqParse, parsed]
  | tooLarge =>
    simp only [quietMessage, parsed] at quiet
    simp only [zmqParse, parsed]
    exact (zmqClose_same (.inr quiet)).calm
  | complete rest =>
    simp only [quietMessage, parsed] at quiet
    cases quiet

theorem quietHandshake_congr {other : DaemonClient} (closing : other.zmqClosing = client.zmqClosing)
    (writable : other.writable = client.writable) (buf : List Byte) (writes : Writes) :
    other.quietHandshake buf writes = client.quietHandshake buf writes := by
  simp only [quietHandshake, quietMessage, closing, writable]

theorem quietGreeting2_congr {other : DaemonClient} (closing : other.zmqClosing = client.zmqClosing)
    (writable : other.writable = client.writable) (buf : List Byte) (writes : Writes) :
    other.quietGreeting2 buf writes = client.quietGreeting2 buf writes := by
  simp only [quietGreeting2, closing, writable, quietHandshake_congr closing writable]

theorem readHandshake_calm {writes : Writes} (quiet : client.quietHandshake client.recvBuf writes = true) :
    (client.readHandshake writes).calm = client.calm := by
  rcases client.readHandshake_cases writes with ⟨_, same⟩ | ⟨more, bad, same⟩ | ⟨more, complete, same⟩
  · rw [same]
  · rw [same]
    simp only [quietHandshake, more, bad, Bool.false_or, Bool.false_and, Bool.or_false, Bool.not_false,
      Bool.true_or, Bool.and_true] at quiet
    exact (zmqClose_same (.inr quiet)).calm
  · rw [same]
    simp only [quietHandshake, more, complete, Bool.false_or, Bool.true_and, Bool.not_true,
      Bool.and_eq_true, Bool.or_eq_true] at quiet
    have written := zmqWrite_same kZMQSubscribe quiet.1
    rw [zmqParse_calm]
    · exact written.calm
    · have buffer : (client.subscribed writes).recvBuf =
          client.recvBuf.drop ((client.recvBuf.getD 1 0).toNat + 2) := congrArg _ written.recvBuf
      have closing : (client.subscribed writes).zmqClosing = client.zmqClosing := written.closing
      simp only [quietMessage, buffer, closing]
      exact quiet.2

theorem readGreeting2_calm {writes : Writes} (quiet : client.quietGreeting2 client.recvBuf writes = true) :
    (client.readGreeting2 writes).calm = client.calm := by
  rcases client.readGreeting2_cases writes with ⟨_, same⟩ | ⟨long, bad, same⟩ | ⟨long, complete, same⟩
  · rw [same]
  · rw [same]
    simp only [quietGreeting2, decide_eq_false long, bad, Bool.false_or, Bool.false_and, Bool.or_false,
      Bool.not_false, Bool.true_or, Bool.and_true] at quiet
    exact (zmqClose_same (.inr quiet)).calm
  · rw [same]
    simp only [quietGreeting2, decide_eq_false long, complete, Bool.false_or, Bool.true_and,
      Bool.and_eq_true, Bool.or_eq_true] at quiet
    have written : Same { client with zmqState := .handshake, recvBuf := client.recvBuf.drop 64 } _ :=
      zmqWrite_same kZMQHandshake quiet.1
    simp only
    split
    · rename_i sent
      obtain ⟨_, writable, whole⟩ := zmqWrite_sent sent
      change client.writable = true at writable
      rw [readHandshake_calm]
      · exact written.calm
      · have rest : client.quietHandshake (client.recvBuf.drop 64) writes = true := by
          simpa [writable, whole] using quiet.2
        rw [quietHandshake_congr written.closing written.writable, written.recvBuf]
        exact rest
    · exact written.calm

theorem readGreeting1_calm {writes : Writes} (quiet : client.quietGreeting1 client.recvBuf writes = true) :
    (client.readGreeting1 writes).calm = client.calm := by
  rcases client.readGreeting1_cases writes with ⟨_, same⟩ | ⟨long, bad, same⟩ | ⟨long, complete, same⟩
  · rw [same]
  · rw [same]
    simp only [quietGreeting1, decide_eq_false long, bad, Bool.false_or, Bool.false_and, Bool.or_false,
      Bool.not_false, Bool.true_or, Bool.and_true] at quiet
    exact (zmqClose_same (.inr quiet)).calm
  · rw [same]
    simp only [quietGreeting1, decide_eq_false long, complete, Bool.false_or, Bool.true_and, Bool.not_true,
      Bool.and_eq_true, Bool.or_eq_true] at quiet
    have written := zmqWrite_same (kZMQGreeting.drop kZMQGreetingSize1) quiet.1
    rw [readGreeting2_calm]
    · exact written.calm
    · rw [← quiet.2]
      change quietGreeting2 _ (client.zmqWrite _ _).2.recvBuf writes = _
      rw [written.recvBuf]
      exact quietGreeting2_congr written.closing written.writable _ _

theorem zmqRead_calm {data : List Byte} {writes : Writes} (quiet : client.quietRead data writes = true) :
    (client.zmqRead data writes).calm = client.calm := by
  unfold quietRead at quiet
  simp only [zmqRead]
  split
  · rename_i none
    rw [if_pos none, Bool.or_eq_true, Bool.not_eq_true'] at quiet
    exact (zmqClose_same quiet).calm
  · rename_i some
    rw [if_neg some] at quiet
    split
    · rename_i here
      simp only [here] at quiet
      exact readGreeting1_calm quiet
    · rename_i here
      simp only [here] at quiet
      exact readGreeting2_calm quiet
    · rename_i here
      simp only [here] at quiet
      exact readHandshake_calm quiet
    · rename_i here
      simp only [here] at quiet
      exact zmqParse_calm quiet
    · rfl

theorem zmqConnected_calm {whole : Bool}
    (quiet : (client.writable && whole || client.zmqClosing) = true) :
    (client.zmqConnected whole).calm = client.calm := by
  have either : client.zmqClosing = true ∨ (client.writable = true ∧ whole = true) := by
    simpa [or_comm] using quiet
  have written : Same { client with zmqState := .greeting1, closedSince := false } _ :=
    zmqWrite_same (kZMQGreeting.take kZMQGreetingSize1) either
  simp only [zmqConnected]
  split <;> exact written.calm

@[simp] theorem handleSubmitResponse_calm (id : Int) (error : Option (List Byte)) :
    (client.handleSubmitResponse id error).2.calm = client.calm := by
  unfold handleSubmitResponse
  split <;> rfl

@[simp] theorem getBlockTemplate_calm : client.getBlockTemplate.calm = client.calm := rfl

@[simp] theorem submitResponse_calm (id : Int) : (client.submitResponse id).2.calm = client.calm := by
  simp only [submitResponse]
  repeat' split
  all_goals simp

@[simp] theorem onHeight_calm (height : BitVec 64) (hash : Option (List Byte)) (timedOut : Bool) :
    (client.onHeight height hash timedOut).calm = client.calm := by
  simp only [onHeight]
  split <;> rfl

theorem parseJob_calm {params : JobParams} {jobId : String} {rounds : Nat}
    (ran : client.parseJob env crypto params jobId rounds = some (false, after)) :
    after.calm = client.calm := by
  obtain ⟨⟨outcome, work⟩, _, made⟩ := Option.map_eq_some_iff.mp ran
  cases outcome with
  | error why => cases made; rfl
  | ok done => cases congrArg Prod.fst made

theorem parseResponse_calm {reply : DaemonReply} {jobId : String} {rounds : Nat} {handled : Bool}
    (ran : client.parseResponse env crypto reply jobId rounds = some (handled, after))
    (jobless : ∀ params, reply.template = some params → client.work.accepts env crypto params rounds = false) :
    after.calm = client.calm := by
  unfold parseResponse at ran
  split at ran
  · cases ran
    rfl
  · rename_i known
    split at ran
    · cases ran
      exact handleSubmitResponse_calm _ _
    · cases ran
      rfl
    · cases ran
      split <;> rfl
    · have same := congrArg (fun result => result.2.calm) (Option.some.inj ran)
      rw [submitResponse_calm] at same
      exact same.symm
    · rename_i params failed result
      obtain ⟨⟨accepted, middle⟩, parsed, made⟩ := Option.map_eq_some_iff.mp ran
      have given : reply.template = some params := by
        simp only [DaemonReply.template, known, failed, result]
        rfl
      obtain ⟨verdict, _⟩ := parseJob_verdict parsed
      rw [jobless params given] at verdict
      subst verdict
      have same := congrArg (fun result => result.2.calm) made
      simp only [Bool.false_eq_true, if_false] at same
      rw [submitResponse_calm] at same
      exact same.symm.trans (parseJob_calm parsed)

theorem onHttpData_calm {request : DaemonRequest} {reply : DaemonReply} {timedOut : Bool}
    {jobId : String} {rounds : Nat}
    (ran : client.onHttpData env crypto request (.parsed reply) timedOut jobId rounds = some after)
    (used : ∀ id, request = .rpc id → client.handles env crypto reply rounds = true ∧
      ∀ params, reply.template = some params → client.work.accepts env crypto params rounds = false) :
    after.calm = client.calm := by
  cases request with
  | getHeight =>
    simp only [onHttpData] at ran
    split at ran <;> cases ran
    · rfl
    · exact onHeight_calm _ _ _
  | getInfo =>
    cases ran
    exact onHeight_calm _ _ _
  | rpc id =>
    obtain ⟨⟨handled, middle⟩, parsed, made⟩ := Option.map_eq_some_iff.mp ran
    obtain ⟨useful, jobless⟩ := used id rfl
    have verdict := (parseResponse_zmq parsed).1
    rw [useful] at verdict
    subst verdict
    cases made
    exact parseResponse_calm parsed jobless

theorem deleteLater_calm : client.deleteLater.calm = client.calm := by
  simp only [deleteLater, zmqClose, uvClose, if_true]
  repeat' split
  all_goals rfl

theorem connectedSocket_closing (i : Nat) : (client.connectedSocket i).zmqClosing = client.zmqClosing := by
  have current : (client.connectedSocket i).zmqSocket = client.zmqSocket := rfl
  simp only [zmqClosing, current]
  cases client.zmqSocket with
  | none => rfl
  | some j =>
    by_cases same : j = i
    · subst same
      simp [connectedSocket, setSocket]
    · simp [connectedSocket, setSocket, Function.update_of_ne same]

theorem step_calm {event : Event} (quiet : client.Quiet env crypto event)
    (stopped : client.state = .unconnected ∧ client.timer = .off)
    (stepped : client.step env crypto event = some after) : after.calm = client.calm := by
  obtain ⟨calm, jobless, quiet⟩ := quiet
  unfold step at stepped
  split at stepped
  · cases stepped
  · cases event with
    | setPool pool => cases stepped; rfl
    | setAlgo algorithm => cases stepped; rfl
    | connect lookup => exact quiet.elim
    | disconnect =>
      cases stepped
      rw [disconnect, if_neg (not_not.mpr stopped.1)]
    | deleteLater => cases stepped; exact deleteLater_calm
    | submit result =>
      simp only at stepped
      split at stepped <;> cases stepped <;> rfl
    | http i answer timedOut jobId rounds =>
      simp only at stepped
      split at stepped
      · cases stepped
      · rename_i request pending
        simp only [retries, pending] at calm
        cases answer with
        | failed => cases calm
        | parsed reply =>
          refine Eq.trans (onHttpData_calm stepped fun id posted => ?_) rfl
          subst posted
          refine ⟨?_, fun params given => ?_⟩
          · have used : client.handles env crypto reply rounds = true := by simpa using calm
            exact used
          · simpa only [bringsJob, pending, given] using jobless
    | timer timedOut lookup =>
      simp only [stopped.2, if_true] at stepped
      cases stepped
    | resolved found =>
      simp only at stepped
      split at stepped
      · cases stepped
        simp only [retries, Bool.not_eq_false'] at calm
        subst calm
        simp only [onResolved]
        split
        · contradiction
        · split <;> rfl
      · cases stepped
    | zmqConnect i ok whole =>
      simp only at stepped
      split at stepped
      · cases stepped
        simp only [retries, Bool.not_eq_false'] at calm
        subst calm
        rw [if_pos rfl]
        have ready : ((client.connectedSocket i).writable && whole ||
            (client.connectedSocket i).zmqClosing) = true := by
          rw [connectedSocket_closing]
          exact quiet
        exact zmqConnected_calm ready
      · cases stepped
    | zmqRead i data writes =>
      simp only at stepped
      split at stepped
      · cases stepped
        exact zmqRead_calm quiet
      · cases stepped
    | zmqClosed i =>
      simp only at stepped
      split at stepped
      · cases stepped
      · split at stepped <;> cases stepped
        rfl
    | otherSends count => cases stepped; rfl

/-- After a disconnect, while only quiet events follow, nothing is reported and no timer starts. -/
theorem disconnect_settles {events : List Event} {final : DaemonClient}
    (stopped : client.state ≠ .unconnected ∨ (client.failures = -1 ∧ client.timer = .off))
    (quiet : Guarded (step env crypto) (Quiet env crypto) client.disconnect events)
    (executed : run (step env crypto) client.disconnect events = some final) :
    final.failures = -1 ∧ final.timer = .off ∧
      final.log.filter DaemonOutput.loud = client.log.filter DaemonOutput.loud := by
  have start : client.disconnect.calm = ⟨.unconnected, -1, .off, client.log.filter DaemonOutput.loud⟩ := by
    unfold disconnect
    split
    · rename_i connected
      simp only [setState, if_neg connected]
      rfl
    · rename_i unconnected
      rcases stopped with connected | ⟨failures, timer⟩
      · exact absurd connected unconnected
      · simp only [calm, not_not.mp unconnected, failures, timer]
  have kept := run_invariant (P := fun other => other.calm = client.disconnect.calm)
    (fun other event next same allowed stepped => by
      rw [start] at same
      have settled : other.state = .unconnected ∧ other.timer = .off :=
        ⟨congrArg Calm.state same, congrArg Calm.timer same⟩
      rw [start, ← same]
      exact step_calm allowed settled stepped) rfl quiet executed
  rw [start] at kept
  exact ⟨congrArg Calm.failures kept, congrArg Calm.timer kept, congrArg Calm.loud kept⟩

instance (event : Event) : Decidable (client.Quiet env crypto event) :=
  match event with
  | .connect _ => .isFalse fun quiet => quiet.2.2
  | .zmqConnect _ _ _ => inferInstanceAs (Decidable (_ ∧ _ ∧ (_ = true)))
  | .zmqRead _ _ _ => inferInstanceAs (Decidable (_ ∧ _ ∧ (_ = true)))
  | .setPool _ | .setAlgo _ | .disconnect | .deleteLater | .submit _ | .http _ _ _ _ _ | .timer _ _
  | .resolved _ | .zmqClosed _ | .otherSends _ => inferInstanceAs (Decidable (_ ∧ _ ∧ True))

def waitingRun : List Event := [.setPool {}, .connect .pending]

theorem waitingRun_runs : (run (step sampleEnv sampleCrypto) {} waitingRun).isSome = true := by
  decide

def waitingClient : DaemonClient := (run (step sampleEnv sampleCrypto) {} waitingRun).get waitingRun_runs

/-- The daemon tells that its top block is not the one of the job. -/
def lateHash : List Event := [.http 0 (.parsed { id := 1, result := some (some none, none) }) false "" 0]

theorem lateHash_runs : (run (step sampleEnv sampleCrypto) waitingClient.disconnect lateHash).isSome = true := by
  decide

theorem disconnect_settles_hash :
    ∃ final, run (step sampleEnv sampleCrypto) waitingClient.disconnect lateHash = some final ∧
      final.failures = -1 ∧ final.timer = .off ∧
      final.log.filter DaemonOutput.loud = waitingClient.log.filter DaemonOutput.loud := by
  have executed := (Option.some_get lateHash_runs).symm
  exact ⟨_, executed, disconnect_settles (by decide) (by decide) executed⟩

def lateFailureRun : List Event := waitingRun ++ [.disconnect, .http 0 .failed false "" 0]

theorem lateFailureRun_runs : (run (step sampleEnv sampleCrypto) {} lateFailureRun).isSome = true := by
  decide

theorem late_failure_retries :
    ∃ final, run (step sampleEnv sampleCrypto) {} lateFailureRun = some final ∧ final.failures = 0 ∧
      final.timer = .once ∧ final.log.filter DaemonOutput.loud = [.timerStart, .onClose 0] := by
  refine ⟨_, (Option.some_get lateFailureRun_runs).symm, ?_⟩
  decide

end DaemonClient

end Xmrig
