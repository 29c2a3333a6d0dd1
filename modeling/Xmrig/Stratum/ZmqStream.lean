import Xmrig.Stratum.DaemonZmq

/-! What a ZMQ connection makes of the stream of its peer.

The handshake has three stages, a message after it is a stage that leads to
itself. `effects` is what a whole stream asks for. A read takes the stages of
the handshake one after the other but one message only, and its buffer is that
of the client, whatever an earlier connection has left in it. Writes succeed.
-/

set_option autoImplicit false

namespace Xmrig

open Foundation

namespace DaemonClient

/-- What the peer or the rest of the client sees of a connection. -/
inductive ZmqEffect where
  | greetingReply
  | handshake
  | subscribe
  | notification
  | close
  deriving DecidableEq, Repr

/-- What a stage makes of the bytes it has. -/
inductive Stage where
  | waits
  | refuses
  | passes (effect : ZmqEffect) (rest : List Byte) (next : ZmqState)
  deriving DecidableEq, Repr

def stage (state : ZmqState) (buf : List Byte) : Stage :=
  match state with
  | .greeting1 =>
    if buf.length < kZMQGreetingSize1 then .waits
    else if greeted1 buf then .passes .greetingReply buf .greeting2 else .refuses
  | .greeting2 =>
    if buf.length < 64 then .waits
    else if greeted2 buf then .passes .handshake (buf.drop 64) .handshake else .refuses
  | .handshake =>
    if handshakeOpen buf then .waits
    else if shaken buf then .passes .subscribe (buf.drop ((buf.getD 1 0).toNat + 2)) .connected
    else .refuses
  | .connected =>
    match parseFrames (buf.length + 1) buf 0 with
    | .incomplete => .waits
    | .tooLarge => .refuses
    | .complete rest => .passes .notification rest .connected
  | .notConnected | .disconnecting => .waits

/-- The effects of the bytes in a state, of `fuel` stages at most. -/
def effectsFrom : Nat → ZmqState → List Byte → List ZmqEffect
  | 0, _, _ => []
  | fuel + 1, state, buf =>
    match stage state buf with
    | .waits => []
    | .refuses => [.close]
    | .passes effect rest next => effect :: effectsFrom fuel next rest

/-- A stage of the handshake comes once, a message has at least two bytes. -/
def effects (state : ZmqState) (buf : List Byte) : List ZmqEffect :=
  effectsFrom (buf.length + 5) state buf

/-- A connection and the bytes its peer has sent. -/
structure Connection where
  client : DaemonClient
  stream : List Byte := []

def allWritten : Writes := ⟨true, true, true⟩

/-- One `ZMQRead`. A socket that is closing is not read from. -/
def Connection.read (conn : Connection) (data : List Byte) : Option Connection :=
  if conn.client.zmqState.active = false ∨ data = [] then none
  else some { client := conn.client.zmqRead data allWritten, stream := conn.stream ++ data }

def zmqEffect : DaemonOutput → Option ZmqEffect
  | .zmqWrite text =>
    if text = kZMQGreeting.drop kZMQGreetingSize1 then some .greetingReply
    else if text = kZMQHandshake then some .handshake
    else if text = kZMQSubscribe then some .subscribe
    else none
  | .fetch .getHeight => some .notification
  | .uvClose _ => some .close
  | _ => none

def zmqEffects (client : DaemonClient) : List ZmqEffect := client.log.reverse.filterMap zmqEffect

/-- The effects since the connection are those of its stream, and nothing whole is left. -/
def Connection.Faithful (before : List ZmqEffect) (conn : Connection) : Prop :=
  conn.client.zmqEffects = before ++ effects .greeting1 conn.stream ∧
    stage conn.client.zmqState conn.client.recvBuf = .waits

/-- There is nothing behind the first message that a read finds. -/
def Connection.OneMessage (conn : Connection) (data : List Byte) : Prop :=
  ((effects conn.client.zmqState (conn.client.recvBuf ++ data)).dropWhile (· ≠ .notification)).length ≤ 1

instance (conn : Connection) (data : List Byte) : Decidable (conn.OneMessage data) :=
  inferInstanceAs (Decidable (_ ≤ _))

section Frames
variable {frames : Nat} {data rest : List Byte} {msgSize : Nat}

theorem parseFrames_cons (flags : Byte) : parseFrames (frames + 1) (flags :: data) msgSize =
    let width := if flags &&& 2 ≠ 0 then 8 else 1
    let size := bigEndian (data.take width)
    if data.length < width then .incomplete
    else if 1024 - msgSize < size then .tooLarge
    else if (data.drop width).length < size then .incomplete
    else if flags &&& 1 ≠ 0 then
      parseFrames frames ((data.drop width).drop size)
        (if flags &&& 4 ≠ 0 then msgSize else msgSize + size)
    else .complete ((data.drop width).drop size) := rfl

def Frames.append (more : List Byte) : Frames → Frames
  | .complete rest => .complete (rest ++ more)
  | other => other

theorem parseFrames_append {more : List Byte} {result : Frames}
    (known : parseFrames frames data msgSize = result) (decided : result ≠ .incomplete) {enough : Nat}
    (least : frames ≤ enough) :
    parseFrames enough (data ++ more) msgSize = result.append more := by
  induction frames generalizing data msgSize enough with
  | zero => exact absurd known.symm decided
  | succ frames ih =>
    obtain ⟨enough, rfl⟩ : ∃ n, enough = n + 1 := ⟨enough - 1, by omega⟩
    cases data with
    | nil => exact absurd known.symm decided
    | cons flags data =>
      rw [parseFrames_cons] at known
      rw [List.cons_append, parseFrames_cons]
      dsimp only at known ⊢
      generalize (if flags &&& 2 ≠ 0 then 8 else 1) = width at known ⊢
      split at known
      · exact absurd known.symm decided
      · rename_i wide
        have header : (data ++ more).take width = data.take width :=
          List.take_append_of_le_length (by omega)
        have behind : (data ++ more).drop width = data.drop width ++ more :=
          List.drop_append_of_le_length (by omega)
        rw [if_neg (by rw [List.length_append]; omega), header, behind]
        generalize bigEndian (data.take width) = size at known ⊢
        split at known
        · rename_i large
          subst known
          rw [if_pos large]
          rfl
        · rename_i fits
          rw [if_neg fits]
          split at known
          · exact absurd known.symm decided
          · rename_i whole
            have body : (data.drop width ++ more).drop size = (data.drop width).drop size ++ more :=
              List.drop_append_of_le_length (by omega)
            rw [if_neg (by rw [List.length_append]; omega), body]
            split at known
            · rename_i further
              rw [if_pos further]
              exact ih known (Nat.le_of_succ_le_succ least)
            · rename_i last
              subst known
              rw [if_neg last]
              rfl

theorem parseFrames_length (known : parseFrames frames data msgSize = .complete rest) :
    rest.length + 2 ≤ data.length := by
  induction frames generalizing data msgSize with
  | zero => cases known
  | succ frames ih =>
    cases data with
    | nil => cases known
    | cons flags data =>
      rw [parseFrames_cons] at known
      dsimp only at known
      have least : 1 ≤ if flags &&& 2 ≠ 0 then 8 else 1 := by
        split
        · decide
        · decide
      generalize (if flags &&& 2 ≠ 0 then 8 else 1) = width at known least
      split at known
      · cases known
      · split at known
        · cases known
        · split at known
          · cases known
          · have dropped : ((data.drop width).drop (bigEndian (data.take width))).length =
                data.length - width - bigEndian (data.take width) := by
              rw [List.length_drop, List.length_drop]
            rw [List.length_cons]
            split at known
            · have shorter := ih known
              omega
            · cases known
              omega

end Frames

section Stages
variable {state next : ZmqState} {buf rest more : List Byte} {effect : ZmqEffect}

def Stage.append (more : List Byte) : Stage → Stage
  | .passes effect rest next => .passes effect (rest ++ more) next
  | other => other

theorem getD_append {index : Nat} (inside : index < buf.length) (more : List Byte) :
    (buf ++ more).getD index 0 = buf.getD index 0 := by
  rw [List.getD_eq_getElem?_getD, List.getD_eq_getElem?_getD, List.getElem?_append_left inside]

theorem take_drop_append {skipped count : Nat} (inside : skipped + count ≤ buf.length)
    (more : List Byte) : ((buf ++ more).drop skipped).take count = (buf.drop skipped).take count := by
  rw [List.drop_append_of_le_length (by omega),
    List.take_append_of_le_length (by rw [List.length_drop]; omega)]

theorem greeted1_append (long : kZMQGreetingSize1 ≤ buf.length) (more : List Byte) :
    greeted1 (buf ++ more) = greeted1 buf := by
  have size : kZMQGreetingSize1 = 11 := rfl
  have longer : kZMQGreetingSize1 ≤ (buf ++ more).length := by
    rw [List.length_append]
    omega
  unfold greeted1
  rw [getD_append (by omega), getD_append (by omega), getD_append (by omega)]
  simp only [long, longer]

theorem greeted2_append (long : 64 ≤ buf.length) (more : List Byte) :
    greeted2 (buf ++ more) = greeted2 buf := by
  have longer : 64 ≤ (buf ++ more).length := by
    rw [List.length_append]
    omega
  unfold greeted2
  rw [take_drop_append (by omega)]
  simp only [long, longer]

theorem handshakeOpen_append (closed : handshakeOpen buf = false) (more : List Byte) :
    handshakeOpen (buf ++ more) = false := by
  simp only [handshakeOpen, decide_eq_false_iff_not, not_or, not_and] at closed ⊢
  obtain ⟨long, complete⟩ := closed
  rw [getD_append (by omega), getD_append (by omega), List.length_append]
  refine ⟨by omega, fun first size => ?_⟩
  have := complete first size
  omega

theorem shaken_append (closed : handshakeOpen buf = false) (more : List Byte) :
    shaken (buf ++ more) = shaken buf := by
  simp only [handshakeOpen, decide_eq_false_iff_not, not_or, not_and] at closed
  obtain ⟨long, complete⟩ := closed
  unfold shaken
  dsimp only
  rw [getD_append (by omega), getD_append (by omega), List.length_append]
  apply decide_eq_decide.mpr
  by_cases first : buf.getD 0 0 = 4
  · by_cases size : 18 ≤ (buf.getD 1 0).toNat
    · have whole := complete first size
      rw [take_drop_append (by omega)]
      constructor
      · rintro ⟨-, -, -, -, equal⟩
        exact ⟨by omega, first, size, by omega, equal⟩
      · rintro ⟨-, -, -, -, equal⟩
        exact ⟨by omega, first, size, by omega, equal⟩
    · exact iff_of_false (fun all => size all.2.2.1) (fun all => size all.2.2.1)
  · exact iff_of_false (fun all => first all.2.1) (fun all => first all.2.1)

theorem stage_append (decided : stage state buf ≠ .waits) (more : List Byte) :
    stage state (buf ++ more) = (stage state buf).append more := by
  cases state with
  | notConnected => exact absurd rfl decided
  | disconnecting => exact absurd rfl decided
  | greeting1 =>
    unfold stage at decided ⊢
    dsimp only at decided ⊢
    split at decided
    · exact absurd rfl decided
    · rename_i long
      rw [if_neg long, if_neg (by rw [List.length_append]; omega),
        greeted1_append (Nat.le_of_not_lt long)]
      split
      · rfl
      · rfl
  | greeting2 =>
    unfold stage at decided ⊢
    dsimp only at decided ⊢
    split at decided
    · exact absurd rfl decided
    · rename_i long
      rw [if_neg long, if_neg (by rw [List.length_append]; omega),
        greeted2_append (Nat.le_of_not_lt long),
        List.drop_append_of_le_length (Nat.le_of_not_lt long)]
      split
      · rfl
      · rfl
  | handshake =>
    unfold stage at decided ⊢
    dsimp only at decided ⊢
    split at decided
    · exact absurd rfl decided
    · rename_i closed
      rw [Bool.not_eq_true] at closed
      rw [closed, handshakeOpen_append closed, shaken_append closed, if_neg Bool.false_ne_true,
        if_neg Bool.false_ne_true]
      split
      · rename_i whole
        simp only [shaken, decide_eq_true_eq] at whole
        obtain ⟨long, -, -, size, -⟩ := whole
        rw [getD_append (by omega), List.drop_append_of_le_length size]
        rfl
      · rfl
  | connected =>
    unfold stage at decided ⊢
    dsimp only at decided ⊢
    have known : parseFrames (buf.length + 1) buf 0 ≠ .incomplete := by
      intro same
      rw [same] at decided
      exact decided rfl
    rw [parseFrames_append rfl known (by rw [List.length_append]; omega)]
    rcases parseFrames (buf.length + 1) buf 0 with _ | _ | rest
    · rfl
    · rfl
    · rfl

def ahead : ZmqState → Nat
  | .greeting1 => 3
  | .greeting2 => 2
  | .handshake => 1
  | _ => 0

theorem stage_length (passes : stage state buf = .passes effect rest next) :
    rest.length + ahead next < buf.length + ahead state := by
  cases state with
  | notConnected => cases passes
  | disconnecting => cases passes
  | greeting1 =>
    unfold stage at passes
    dsimp only at passes
    split at passes
    · cases passes
    · split at passes
      · cases passes
        exact Nat.lt_succ_self _
      · cases passes
  | greeting2 =>
    unfold stage at passes
    dsimp only at passes
    split at passes
    · cases passes
    · split at passes
      · cases passes
        have first : ahead .greeting2 = 2 := rfl
        have second : ahead .handshake = 1 := rfl
        rw [List.length_drop]
        omega
      · cases passes
  | handshake =>
    unfold stage at passes
    dsimp only at passes
    split at passes
    · cases passes
    · split at passes
      · cases passes
        have first : ahead .handshake = 1 := rfl
        have second : ahead .connected = 0 := rfl
        rw [List.length_drop]
        omega
      · cases passes
  | connected =>
    unfold stage at passes
    dsimp only at passes
    split at passes
    · cases passes
    · cases passes
    · rename_i behind known
      cases passes
      have shorter := parseFrames_length known
      omega

theorem effectsFrom_fuel {fuel enough : Nat} (less : buf.length + ahead state < fuel)
    (fewer : buf.length + ahead state < enough) :
    effectsFrom fuel state buf = effectsFrom enough state buf := by
  induction fuel generalizing state buf enough with
  | zero => exact absurd less (Nat.not_lt_zero _)
  | succ fuel ih =>
    obtain ⟨enough, rfl⟩ : ∃ n, enough = n + 1 := ⟨enough - 1, by omega⟩
    unfold effectsFrom
    rcases decided : stage state buf with _ | _ | ⟨effect, rest, next⟩
    · rfl
    · rfl
    · have shorter := stage_length decided
      exact congrArg (effect :: ·) (ih (by omega) (by omega))

theorem ahead_le (state : ZmqState) : ahead state ≤ 3 := by
  cases state <;> decide

theorem effects_waits (waits : stage state buf = .waits) : effects state buf = [] := by
  unfold effects effectsFrom
  rw [waits]

theorem effects_refuses (refuses : stage state buf = .refuses) : effects state buf = [.close] := by
  unfold effects effectsFrom
  rw [refuses]

theorem effects_passes (passes : stage state buf = .passes effect rest next) :
    effects state buf = effect :: effects next rest := by
  have shorter := stage_length passes
  have few := ahead_le state
  have fewer := ahead_le next
  unfold effects
  rw [effectsFrom, passes]
  exact congrArg (effect :: ·) (effectsFrom_fuel (by omega) (by omega))

theorem effects_eq_nil : effects state buf = [] ↔ stage state buf = .waits := by
  constructor
  · intro none
    rcases decided : stage state buf with _ | _ | ⟨effect, rest, next⟩
    · rfl
    · rw [effects_refuses decided] at none
      cases none
    · rw [effects_passes decided] at none
      cases none
  · exact effects_waits

end Stages

section Reads
variable {client next final : DaemonClient}

/-- Running through some stages had these effects; the last of them may be a message, else no
stage is left. -/
structure Reads (client next : DaemonClient) (done : List ZmqEffect) : Prop where
  wrote : next.zmqEffects = client.zmqEffects ++ done
  stream : ∀ more, effects client.zmqState (client.recvBuf ++ more) =
    done ++ effects next.zmqState (next.recvBuf ++ more)
  ends : (ZmqEffect.notification ∉ done ∧ stage next.zmqState next.recvBuf = .waits) ∨
    ∃ before, done = before ++ [.notification] ∧ ZmqEffect.notification ∉ before
  writable : next.zmqState.active = true → next.writable = true

theorem zmqEffects_emit (client : DaemonClient) (output : DaemonOutput) :
    (client.emit output).zmqEffects = client.zmqEffects ++ (zmqEffect output).toList := by
  unfold zmqEffects emit
  dsimp only
  rw [List.reverse_cons, List.filterMap_append]
  rcases known : zmqEffect output with _ | effect
  · rw [List.filterMap_cons_none known]
    rfl
  · rw [List.filterMap_cons_some known]
    rfl

theorem Reads.waits (writable : client.writable = true)
    (waits : stage client.zmqState client.recvBuf = .waits) : Reads client client [] where
  wrote := (List.append_nil _).symm
  stream := fun _ => rfl
  ends := .inl ⟨List.not_mem_nil, waits⟩
  writable := fun _ => writable

theorem Reads.passes {effect : ZmqEffect} {done : List ZmqEffect}
    (passed : stage client.zmqState client.recvBuf = .passes effect next.recvBuf next.zmqState)
    (other : effect ≠ .notification) (wrote : next.zmqEffects = client.zmqEffects ++ [effect])
    (rest : Reads next final done) : Reads client final (effect :: done) where
  wrote := by
    rw [rest.wrote, wrote, List.append_assoc]
    rfl
  stream := by
    intro more
    have decided : stage client.zmqState client.recvBuf ≠ .waits := by
      rw [passed]
      intro same
      cases same
    have longer := stage_append decided more
    rw [passed] at longer
    rw [effects_passes longer, rest.stream more]
    rfl
  ends := by
    rcases rest.ends with ⟨silent, waits⟩ | ⟨before, last, silent⟩
    · exact .inl ⟨List.not_mem_cons_of_ne_of_not_mem other.symm silent, waits⟩
    · exact .inr ⟨effect :: before, congrArg (effect :: ·) last,
        List.not_mem_cons_of_ne_of_not_mem other.symm silent⟩
  writable := rest.writable

/-- The parts of a client that a connection and its effects consist of. -/
structure Alike (client next : DaemonClient) : Prop where
  effects : next.zmqEffects = client.zmqEffects
  state : next.zmqState = client.zmqState
  recvBuf : next.recvBuf = client.recvBuf
  writable : next.writable = client.writable

theorem alike_emit {output : DaemonOutput} (silent : zmqEffect output = none)
    (client : DaemonClient) : Alike client (client.emit output) where
  effects := by
    rw [zmqEffects_emit, silent]
    exact List.append_nil _
  state := rfl
  recvBuf := rfl
  writable := rfl

theorem Alike.trans (first : Alike client next) (second : Alike next final) : Alike client final where
  effects := second.effects.trans first.effects
  state := second.state.trans first.state
  recvBuf := second.recvBuf.trans first.recvBuf
  writable := second.writable.trans first.writable

theorem alike_retryTail (down : client.zmqState.active = false) : Alike client client.retryTail := by
  have paused : Alike client
      (if client.state = .connected then client.setState .connecting else client) := by
    split
    · rename_i connected
      unfold setState
      rw [if_neg (by rw [connected]; decide)]
      exact ⟨rfl, rfl, rfl, rfl⟩
    · exact ⟨rfl, rfl, rfl, rfl⟩
  unfold retryTail
  dsimp only
  generalize (if client.state = .connected then client.setState .connecting else client) = other
    at paused ⊢
  rw [if_neg (by rw [paused.state, down]; decide)]
  have started := @alike_emit .timerStart rfl { other with timer := .once }
  exact paused.trans ⟨started.effects, rfl, rfl, rfl⟩

theorem alike_retry (down : client.zmqState.active = false) : Alike client client.retry := by
  have failed := @alike_emit (.onClose (client.failures + 1)) rfl
    { client with failures := client.failures + 1 }
  have told : Alike client ({ client with failures := client.failures + 1 }.emit
      (.onClose (client.failures + 1))) := ⟨failed.effects, rfl, rfl, rfl⟩
  unfold retry
  dsimp only
  split
  · exact told
  · exact told.trans (alike_retryTail down)

theorem zmqClose_reads (up : client.zmqState.active = true) (writable : client.writable = true)
    (refuses : stage client.zmqState client.recvBuf = .refuses) :
    Reads client (client.zmqClose false) [.close] := by
  obtain ⟨i, socket, open_⟩ : ∃ i, client.zmqSocket = some i ∧
      (client.sockets i).closing.isNone = true := by
    unfold DaemonClient.writable at writable
    split at writable
    · cases writable
    · rename_i i socket
      exact ⟨i, socket, (Bool.and_eq_true_iff.mp writable).2⟩
  have idle : ({ client with zmqState := .disconnecting } : DaemonClient).zmqClosing = false := by
    unfold zmqClosing
    dsimp only
    rw [socket]
    dsimp only
    rw [Option.isNone_iff_eq_none.mp open_]
    rfl
  have closed : client.zmqClose false =
      (({ client with zmqState := .disconnecting } : DaemonClient).uvClose false).retry := by
    unfold zmqClose
    rw [if_neg (by rw [up]; decide)]
    dsimp only
    rw [if_neg (by rw [idle]; decide)]
    rfl
  have shut : ({ client with zmqState := .disconnecting } : DaemonClient).uvClose false =
      { (({ client with zmqState := .disconnecting } : DaemonClient).setSocket i fun s =>
        { s with closing := some false, reading := false }).emit (.uvClose i) with
          closedSince := true } := by
    unfold uvClose
    dsimp only
    rw [socket]
  have down : (({ client with zmqState := .disconnecting } : DaemonClient).uvClose
      false).zmqState = .disconnecting := by
    rw [shut]
    rfl
  have after := alike_retry (by rw [down]; rfl : (({ client with
    zmqState := .disconnecting } : DaemonClient).uvClose false).zmqState.active = false)
  rw [← closed] at after
  have effects : (client.zmqClose false).zmqEffects = client.zmqEffects ++ [.close] := by
    rw [after.effects, shut]
    exact zmqEffects_emit (({ client with zmqState := .disconnecting } : DaemonClient).setSocket i
      fun s => { s with closing := some false, reading := false }) (.uvClose i)
  have state : (client.zmqClose false).zmqState = .disconnecting := after.state.trans down
  refine ⟨effects, ?_, .inl ⟨by decide, by rw [state]; rfl⟩, ?_⟩
  · intro more
    have decided : stage client.zmqState client.recvBuf ≠ .waits := by
      rw [refuses]
      intro same
      cases same
    have longer := stage_append decided more
    rw [refuses] at longer
    rw [effects_refuses longer, state]
    rfl
  · intro active
    rw [state] at active
    cases active

theorem zmqParse_reads (up : client.zmqState = .connected) (writable : client.writable = true) :
    ∃ done, Reads client client.zmqParse done := by
  have active : client.zmqState.active = true := by
    rw [up]
    rfl
  unfold zmqParse
  rcases known : parseFrames (client.recvBuf.length + 1) client.recvBuf 0 with _ | _ | rest
  · have waits : stage client.zmqState client.recvBuf = .waits := by
      rw [up, stage, known]
    exact ⟨[], .waits writable waits⟩
  · have refuses : stage client.zmqState client.recvBuf = .refuses := by
      rw [up, stage, known]
    exact ⟨[.close], zmqClose_reads active writable refuses⟩
  · have passed : stage client.zmqState client.recvBuf = .passes .notification rest .connected := by
      rw [up, stage, known]
    refine ⟨[.notification], ?_, ?_, .inr ⟨[], rfl, List.not_mem_nil⟩, fun _ => writable⟩
    · have sent : (({ client with recvBuf := rest } : DaemonClient).clearHashes.send
          .getHeight).zmqEffects = client.zmqEffects ++ [.notification] := zmqEffects_emit _ _
      have timed : ((({ client with recvBuf := rest } : DaemonClient).clearHashes.send
          .getHeight).stopTimer.startTimer .repeating).zmqEffects =
            (({ client with recvBuf := rest } : DaemonClient).clearHashes.send
              .getHeight).zmqEffects := (@alike_emit .timerStart rfl _).effects
      exact timed.trans sent
    · intro more
      have decided : stage client.zmqState client.recvBuf ≠ .waits := by
        rw [passed]
        intro same
        cases same
      have longer := stage_append decided more
      rw [passed] at longer
      rw [effects_passes longer]
      change _ = [.notification] ++ effects client.zmqState (rest ++ more)
      rw [up]
      rfl

theorem readHandshake_reads (up : client.zmqState = .handshake) (writable : client.writable = true) :
    ∃ done, Reads client (client.readHandshake allWritten) done := by
  rcases client.readHandshake_cases allWritten with
    ⟨opened, same⟩ | ⟨closed, bad, same⟩ | ⟨closed, whole, same⟩
  · have waits : stage client.zmqState client.recvBuf = .waits := by
      rw [up, stage, opened]
      rfl
    rw [same]
    exact ⟨[], .waits writable waits⟩
  · have refuses : stage client.zmqState client.recvBuf = .refuses := by
      rw [up, stage, closed, bad]
      rfl
    rw [same]
    exact ⟨[.close], zmqClose_reads (by rw [up]; rfl) writable refuses⟩
  · have wrote : client.zmqWrite kZMQSubscribe allWritten.subscribe =
        (true, client.emit (.zmqWrite kZMQSubscribe)) := zmqWrite_whole ⟨writable, rfl⟩
    have passed : stage client.zmqState client.recvBuf =
        .passes .subscribe (client.subscribed allWritten).recvBuf
          (client.subscribed allWritten).zmqState := by
      rw [up, stage, closed, whole, subscribed, wrote]
      rfl
    have sent : (client.subscribed allWritten).zmqEffects = client.zmqEffects ++ [.subscribe] := by
      rw [subscribed, wrote]
      have effects := zmqEffects_emit client (.zmqWrite kZMQSubscribe)
      have asked := @alike_emit (.fetch (.rpc client.sequence)) rfl
        (client.emit (.zmqWrite kZMQSubscribe))
      exact asked.effects.trans effects
    have still : (client.subscribed allWritten).writable = true := by
      rw [subscribed, wrote]
      exact writable
    have connected : (client.subscribed allWritten).zmqState = .connected := rfl
    obtain ⟨done, rest⟩ := zmqParse_reads connected still
    rw [same]
    exact ⟨_, .passes passed (by decide) sent rest⟩

theorem readGreeting2_reads (up : client.zmqState = .greeting2) (writable : client.writable = true) :
    ∃ done, Reads client (client.readGreeting2 allWritten) done := by
  rcases client.readGreeting2_cases allWritten with
    ⟨short, same⟩ | ⟨long, bad, same⟩ | ⟨long, good, same⟩
  · have waits : stage client.zmqState client.recvBuf = .waits := by
      rw [up, stage, if_pos short]
    rw [same]
    exact ⟨[], .waits writable waits⟩
  · have refuses : stage client.zmqState client.recvBuf = .refuses := by
      rw [up, stage, if_neg long, bad]
      rfl
    rw [same]
    exact ⟨[.close], zmqClose_reads (by rw [up]; rfl) writable refuses⟩
  · have wrote : ({ client with
        zmqState := .handshake, recvBuf := client.recvBuf.drop 64 } : DaemonClient).zmqWrite
          kZMQHandshake allWritten.handshake = (true, ({ client with
            zmqState := .handshake, recvBuf := client.recvBuf.drop 64 } : DaemonClient).emit
              (.zmqWrite kZMQHandshake)) := zmqWrite_whole ⟨writable, rfl⟩
    obtain ⟨done, rest⟩ := @readHandshake_reads ({ client with
      zmqState := .handshake, recvBuf := client.recvBuf.drop 64 }.emit (.zmqWrite kZMQHandshake))
      rfl writable
    have passed : stage client.zmqState client.recvBuf =
        .passes .handshake (client.recvBuf.drop 64) .handshake := by
      rw [up, stage, if_neg long, good]
      rfl
    rw [same, wrote]
    exact ⟨_, .passes passed (by decide) (zmqEffects_emit _ _) rest⟩

theorem readGreeting1_reads (up : client.zmqState = .greeting1) (writable : client.writable = true) :
    ∃ done, Reads client (client.readGreeting1 allWritten) done := by
  rcases client.readGreeting1_cases allWritten with
    ⟨short, same⟩ | ⟨long, bad, same⟩ | ⟨long, good, same⟩
  · have waits : stage client.zmqState client.recvBuf = .waits := by
      rw [up, stage, if_pos short]
    rw [same]
    exact ⟨[], .waits writable waits⟩
  · have refuses : stage client.zmqState client.recvBuf = .refuses := by
      rw [up, stage, if_neg long, bad]
      rfl
    rw [same]
    exact ⟨[.close], zmqClose_reads (by rw [up]; rfl) writable refuses⟩
  · have wrote : client.zmqWrite (kZMQGreeting.drop kZMQGreetingSize1) allWritten.greeting =
        (true, client.emit (.zmqWrite (kZMQGreeting.drop kZMQGreetingSize1))) :=
      zmqWrite_whole ⟨writable, rfl⟩
    obtain ⟨done, rest⟩ := @readGreeting2_reads { client.emit (.zmqWrite
      (kZMQGreeting.drop kZMQGreetingSize1)) with zmqState := .greeting2 } rfl writable
    have passed : stage client.zmqState client.recvBuf =
        .passes .greetingReply client.recvBuf .greeting2 := by
      rw [up, stage, if_neg long, good]
      rfl
    rw [same, wrote]
    exact ⟨_, .passes passed (by decide) (zmqEffects_emit _ _) rest⟩

def buffered (client : DaemonClient) (data : List Byte) : DaemonClient :=
  { client with recvBuf := client.recvBuf ++ data }

theorem zmqRead_reads (up : client.zmqState.active = true) (writable : client.writable = true)
    {data : List Byte} (some_ : data ≠ []) :
    ∃ done, Reads (client.buffered data) (client.zmqRead data allWritten) done := by
  have nonempty : data.isEmpty = false := List.isEmpty_eq_false_iff.mpr some_
  have open_ : (client.buffered data).writable = true := writable
  rcases state : client.zmqState with _ | _ | _ | _ | _ | _
  · rw [state] at up
    cases up
  · have run : client.zmqRead data allWritten = (client.buffered data).readGreeting1 allWritten := by
      simp only [zmqRead, buffered, nonempty, state, if_neg Bool.false_ne_true]
    rw [run]
    exact readGreeting1_reads state open_
  · have run : client.zmqRead data allWritten = (client.buffered data).readGreeting2 allWritten := by
      simp only [zmqRead, buffered, nonempty, state, if_neg Bool.false_ne_true]
    rw [run]
    exact readGreeting2_reads state open_
  · have run : client.zmqRead data allWritten = (client.buffered data).readHandshake allWritten := by
      simp only [zmqRead, buffered, nonempty, state, if_neg Bool.false_ne_true]
    rw [run]
    exact readHandshake_reads state open_
  · have run : client.zmqRead data allWritten = (client.buffered data).zmqParse := by
      simp only [zmqRead, buffered, nonempty, state, if_neg Bool.false_ne_true]
    rw [run]
    exact zmqParse_reads state open_
  · rw [state] at up
    cases up

end Reads

section Connections
variable {before : List ZmqEffect} {conn after : Connection} {data : List Byte}

/-- What was done and what the buffer asks for make up what the stream asks for. -/
structure Connection.Linked (before : List ZmqEffect) (conn : Connection) : Prop where
  stream : ∀ more, before ++ effects .greeting1 (conn.stream ++ more) =
    conn.client.zmqEffects ++ effects conn.client.zmqState (conn.client.recvBuf ++ more)
  writable : conn.client.zmqState.active = true → conn.client.writable = true

/-- A connection with nothing whole in its buffer. -/
structure Connection.Settled (before : List ZmqEffect) (conn : Connection) : Prop extends
    conn.Linked before where
  waits : stage conn.client.zmqState conn.client.recvBuf = .waits

theorem Connection.Settled.faithful (settled : conn.Settled before) : conn.Faithful before := by
  have whole := settled.stream []
  rw [List.append_nil, List.append_nil, effects_waits settled.waits, List.append_nil] at whole
  exact ⟨whole.symm, settled.waits⟩

theorem Connection.read_cases (done : conn.read data = some after) :
    conn.client.zmqState.active = true ∧ data ≠ [] ∧
      after = { client := conn.client.zmqRead data allWritten, stream := conn.stream ++ data } := by
  unfold Connection.read at done
  split at done
  · cases done
  · rename_i possible
    rw [not_or, Bool.not_eq_false] at possible
    cases done
    exact ⟨possible.1, possible.2, rfl⟩

theorem dropWhile_silent {first : List ZmqEffect} (silent : ZmqEffect.notification ∉ first)
    (rest : List ZmqEffect) :
    (first ++ rest).dropWhile (· ≠ ZmqEffect.notification) =
      rest.dropWhile (· ≠ ZmqEffect.notification) := by
  apply List.dropWhile_append_of_pos
  intro effect member
  rw [decide_eq_true_eq]
  exact fun same => silent (same ▸ member)

/-- A read links on, and leaves nothing whole exactly where it found one message at most. -/
theorem Connection.Linked.read (linked : conn.Linked before) (done : conn.read data = some after) :
    after.Linked before ∧
      (stage after.client.zmqState after.client.recvBuf = .waits ↔ conn.OneMessage data) := by
  obtain ⟨up, some_, rfl⟩ := Connection.read_cases done
  obtain ⟨happened, reads⟩ := zmqRead_reads up (linked.writable up) some_
  constructor
  · refine ⟨?_, reads.writable⟩
    intro more
    have before_ := linked.stream (data ++ more)
    have now := reads.stream more
    change effects conn.client.zmqState (conn.client.recvBuf ++ data ++ more) = _ at now
    rw [List.append_assoc] at now ⊢
    rw [before_, now, reads.wrote, List.append_assoc]
    rfl
  · have now := reads.stream []
    rw [List.append_nil, List.append_nil] at now
    change effects conn.client.zmqState (conn.client.recvBuf ++ data) = _ at now
    unfold Connection.OneMessage
    rw [now]
    rcases reads.ends with ⟨silent, waits⟩ | ⟨first, last, silent⟩
    · rw [effects_waits waits, dropWhile_silent silent]
      exact iff_of_true waits (Nat.zero_le 1)
    · rw [last, List.append_assoc, dropWhile_silent silent, List.singleton_append,
        List.dropWhile_cons_of_neg (by decide), List.length_cons]
      constructor
      · intro waits
        rw [effects_waits waits]
        exact Nat.le_refl 1
      · intro few
        apply effects_eq_nil.mp
        exact List.length_eq_zero_iff.mp (Nat.le_zero.mp (Nat.le_of_succ_le_succ few))

theorem setSocket_reading_writable (client : DaemonClient) (i : Nat) :
    (client.setSocket i fun s => { s with reading := true }).writable = client.writable := by
  unfold writable setSocket
  dsimp only
  rcases client.zmqSocket with _ | j
  · rfl
  · by_cases same : j = i
    · subst same
      dsimp only
      rw [Function.update_self]
    · dsimp only
      rw [Function.update_of_ne same]

theorem zmqConnected_fields {client : DaemonClient} (writable : client.writable = true) :
    (client.zmqConnected true).zmqState = .greeting1 ∧
      (client.zmqConnected true).recvBuf = client.recvBuf ∧
      (client.zmqConnected true).zmqEffects = client.zmqEffects ∧
      (client.zmqConnected true).writable = true := by
  have wrote : ({ client with zmqState := .greeting1, closedSince := false } : DaemonClient).zmqWrite
      (kZMQGreeting.take kZMQGreetingSize1) true =
        (true, ({ client with zmqState := .greeting1, closedSince := false } : DaemonClient).emit
          (.zmqWrite (kZMQGreeting.take kZMQGreetingSize1))) := zmqWrite_whole ⟨writable, rfl⟩
  have effects := (@alike_emit (.zmqWrite (kZMQGreeting.take kZMQGreetingSize1)) (by decide)
    { client with zmqState := .greeting1, closedSince := false }).effects
  rcases socket : client.zmqSocket with _ | i
  · unfold DaemonClient.writable at writable
    rw [socket] at writable
    cases writable
  · have connected : client.zmqConnected true =
        (({ client with zmqState := .greeting1, closedSince := false } : DaemonClient).emit
          (.zmqWrite (kZMQGreeting.take kZMQGreetingSize1))).setSocket i
            fun s => { s with reading := true } := by
      have same : (({ client with zmqState := .greeting1, closedSince := false } :
          DaemonClient).emit (.zmqWrite (kZMQGreeting.take kZMQGreetingSize1))).zmqSocket = some i :=
        socket
      unfold zmqConnected
      rw [wrote]
      dsimp only
      rw [same]
    rw [connected]
    refine ⟨rfl, rfl, effects, ?_⟩
    rw [setSocket_reading_writable]
    exact writable

def Connection.opened (client : DaemonClient) : Connection := { client := client.zmqConnected true }

theorem opened_settled {client : DaemonClient} (writable : client.writable = true)
    (empty : client.recvBuf = []) : (Connection.opened client).Settled client.zmqEffects := by
  obtain ⟨state, buf, effects, open_⟩ := zmqConnected_fields writable
  refine ⟨⟨?_, fun _ => open_⟩, ?_⟩
  · intro more
    unfold Connection.opened
    dsimp only
    rw [effects, state, buf, empty]
  · unfold Connection.opened
    dsimp only
    rw [state, buf, empty]
    rfl

theorem opened_leftover {client : DaemonClient} (writable : client.writable = true)
    (left : client.recvBuf ≠ []) {after : Connection}
    (done : (Connection.opened client).read (List.replicate 10 0) = some after) :
    ¬ after.Faithful client.zmqEffects := by
  obtain ⟨state, buf, effects, open_⟩ := zmqConnected_fields writable
  obtain ⟨up, some_, rfl⟩ := Connection.read_cases done
  obtain ⟨happened, reads⟩ := zmqRead_reads up open_ some_
  rintro ⟨same, waits⟩
  have now := reads.stream []
  rw [List.append_nil, List.append_nil, effects_waits waits, List.append_nil] at now
  have wrote := reads.wrote
  change _ = (client.zmqConnected true).zmqEffects ++ happened at wrote
  rw [effects] at wrote
  have nothing : happened = [] := by
    have silent : DaemonClient.effects .greeting1 (List.replicate 10 0) = [] := effects_waits rfl
    have short := wrote.symm.trans same
    change client.zmqEffects ++ happened = client.zmqEffects ++
      DaemonClient.effects .greeting1 ([] ++ List.replicate 10 0) at short
    rw [List.nil_append, silent] at short
    exact List.append_cancel_left short
  rw [nothing] at now
  change DaemonClient.effects (client.zmqConnected true).zmqState
    ((client.zmqConnected true).recvBuf ++ List.replicate 10 0) = [] at now
  rw [state, buf] at now
  have idle := effects_eq_nil.mp now
  have long : ¬ (client.recvBuf ++ List.replicate 10 (0 : Byte)).length < kZMQGreetingSize1 := by
    have positive := List.length_pos_iff.mpr left
    have size : kZMQGreetingSize1 = 11 := rfl
    rw [List.length_append, List.length_replicate]
    omega
  unfold stage at idle
  dsimp only at idle
  rw [if_neg long] at idle
  split at idle
  · cases idle
  · cases idle

/-- With an empty buffer, the reads that find one message at most are those whose effects are the
stream's; with any other buffer there is a stream whose effects are not. -/
theorem connection_faithful_iff (client : DaemonClient) (writable : client.writable = true) :
    (client.recvBuf = [] → ∀ chunks final,
      run Connection.read (Connection.opened client) chunks = some final →
        (Throughout Connection.read (Connection.Faithful client.zmqEffects)
            (Connection.opened client) chunks ↔
          Guarded Connection.read Connection.OneMessage (Connection.opened client) chunks)) ∧
    (client.recvBuf ≠ [] → ∃ data ≠ [], ∀ after,
      (Connection.opened client).read data = some after → ¬ after.Faithful client.zmqEffects) := by
  constructor
  · intro empty chunks final executed
    have good (conn : Connection) (settled : Connection.Settled client.zmqEffects conn) :
        Connection.Faithful client.zmqEffects conn := settled.faithful
    have preserved (conn : Connection) (data : List Byte) (after : Connection)
        (settled : Connection.Settled client.zmqEffects conn) (one : conn.OneMessage data)
        (done : conn.read data = some after) :
        Connection.Settled client.zmqEffects after := by
      obtain ⟨linked, waits⟩ := settled.toLinked.read done
      exact ⟨linked, waits.mpr one⟩
    have broken (conn : Connection) (data : List Byte) (after : Connection)
        (settled : Connection.Settled client.zmqEffects conn) (several : ¬ conn.OneMessage data)
        (done : conn.read data = some after) :
        ¬ Connection.Faithful client.zmqEffects after := by
      intro faithful
      exact several ((settled.toLinked.read done).2.mp faithful.2)
    exact throughout_iff_guarded good preserved broken (opened_settled writable empty) executed
  · intro left
    exact ⟨List.replicate 10 0, by decide, fun after done => opened_leftover writable left done⟩

def acceptedClient : DaemonClient :=
  { zmqSocket := some 0, sockets := fun _ => { connecting := false, connected := true } }

def twoMessages : List Byte := kZMQGreeting ++ kZMQHandshake ++ [0, 0] ++ [0, 0]

theorem connection_faithful_iff_accepted :
    Throughout Connection.read (Connection.Faithful []) (Connection.opened acceptedClient)
        [twoMessages.take 50, twoMessages.drop 50] ↔
      Guarded Connection.read Connection.OneMessage (Connection.opened acceptedClient)
        [twoMessages.take 50, twoMessages.drop 50] := by
  have readable : (run Connection.read (Connection.opened acceptedClient)
      [twoMessages.take 50, twoMessages.drop 50]).isSome = true := by
    decide
  obtain ⟨final, executed⟩ := Option.isSome_iff_exists.mp readable
  exact (connection_faithful_iff acceptedClient rfl).1 rfl _ final executed

/-- Of two messages that arrive at once one is left in the buffer, and what is left of an earlier
connection makes the client close. -/
theorem twoMessages_unread :
    let effectsOf := fun (client : DaemonClient) (chunks : List (List Byte)) =>
      (run Connection.read (Connection.opened client) chunks).map fun conn =>
        (conn.client.zmqEffects, conn.client.recvBuf)
    let handshakes := [ZmqEffect.greetingReply, .handshake, .subscribe]
    effects .greeting1 twoMessages = handshakes ++ [.notification, .notification] ∧
    effectsOf acceptedClient [twoMessages] = some (handshakes ++ [.notification], [0, 0]) ∧
    effectsOf acceptedClient [twoMessages.take 93, twoMessages.drop 93] =
      some (handshakes ++ [.notification, .notification], []) ∧
    (effectsOf { acceptedClient with recvBuf := [0] } [twoMessages]).map Prod.fst =
      some [.close] := by
  decide

end Connections

end DaemonClient

end Xmrig
