import Xmrig.Stratum.Client

/-! The sockets of the stratum client.

A connection that is made while there is still a socket loses that socket: its data goes on
to the line reader, and its close callback frees the other one. If `connect` is only called
without a socket, every socket that is not closed is `m_socket`.
-/

set_option autoImplicit false

namespace Xmrig.Client

open Foundation

variable {client after middle : Client}

def ofSocket : ClientOutput → Bool
  | .allocate _ _ => true
  | .feed _ _ => true
  | .free _ _ => true
  | _ => false

/-- The part of a client that its sockets depend on. -/
structure Frame where
  state : SocketState
  socket : Option Nat
  dns : Bool
  allocated : Nat
  sockets : Nat → TcpSocket
  trace : List ClientOutput

def frame (client : Client) : Frame :=
  ⟨client.state, client.socket, client.dns, client.allocated, client.sockets, client.log.filter ofSocket⟩

/-- What happens to the sockets outside of `connect` and the callbacks of the loop: at most
`m_socket` is closed, and the state changes with it or to reconnecting. -/
inductive Moves : Frame → Frame → Prop where
  | refl (frame : Frame) : Moves frame frame
  | close {first last : Frame} {i : Nat} : first.socket = some i →
      Moves { first with
        state := .closing
        sockets := Function.update first.sockets i { first.sockets i with closing := true } } last →
      Moves first last
  | reconnect {first last : Frame} : Moves { first with state := .reconnecting } last → Moves first last

theorem Moves.trans {first second third : Frame} (one : Moves first second) (two : Moves second third) :
    Moves first third := by
  induction one with
  | refl frame => exact two
  | close here _ ih => exact .close here (ih two)
  | reconnect _ ih => exact .reconnect (ih two)

theorem Moves.of_eq {first second : Frame} (same : second = first) : Moves first second :=
  same ▸ .refl first

theorem Moves.behind {first last : Frame} (moves : Moves middle.frame last) (same : middle.frame = first) :
    Moves first last :=
  same ▸ moves

theorem setState_frame (client : Client) (state : SocketState) :
    (client.setState state).frame = { client.frame with state } := by
  unfold setState
  split
  · rename_i same
    rw [← same]
    rfl
  · cases state <;> rfl

theorem close_moves (client : Client) : Moves client.frame client.close.frame := by
  unfold close
  split
  · exact .refl _
  · cases here : client.socket with
    | none => exact .refl _
    | some i =>
      refine .close (i := i) here (.of_eq ?_)
      have same := client.setState_frame .closing
      simp only [frame, Frame.mk.injEq] at same
      simp only [frame, setSocket, same]

theorem write_moves (client : Client) (transport : Transport) : Moves client.frame (client.write transport).frame := by
  unfold write
  split
  · exact client.close_moves
  · exact .refl _

theorem sendBio_moves (client : Client) (transport : Transport) : Moves client.frame (client.sendBio transport).1.frame := by
  obtain sent | silent | ⟨_, closed⟩ := client.sendBio_cases transport
  · rw [sent]
    exact .refl _
  · rw [silent]
    exact .refl _
  · rw [closed]
    exact client.close_moves

theorem sendBytes_moves (client : Client) (transport : Transport) : Moves client.frame (client.sendBytes transport).1.frame := by
  obtain sent | silent | ⟨_, closed⟩ := client.sendBytes_cases transport
  · rw [sent]
    exact .refl _
  · rw [silent]
    exact .refl _
  · rw [closed]
    exact client.close_moves

theorem send_moves (client : Client) (message : Message) : Moves client.frame (client.send message).1.frame := by
  obtain sent | silent | closed := client.send_cases message
  · rw [sent]
    exact .refl _
  · rw [silent]
    exact .refl _
  · rw [closed]
    exact client.close_moves

theorem sendCallback_moves (client : Client) (callback : ClientCallback) (message : Message) :
    Moves client.frame (client.sendCallback callback message).frame :=
  (send_moves _ message).behind rfl

theorem login_moves (client : Client) (sent : Handshake) : Moves client.frame (client.login sent).frame := by
  unfold login
  dsimp only
  split
  · have subscribed := sendCallback_moves ({ client with
      results := fun _ => none, sessions := client.sessions + 1 }.emit .login) .subscribe sent.first
    exact Moves.trans subscribed (sendCallback_moves _ .authorize sent.second)
  · exact (send_moves _ sent.first).behind rfl

theorem handshake_moves (client : Client) (sent : Handshake) : Moves client.frame (client.handshake sent).frame := by
  unfold handshake
  split
  · exact (write_moves _ sent.write).behind rfl
  · split
    · exact (sendBio_moves _ sent.write).behind rfl
    · exact login_moves _ sent

theorem reconnect_moves (client : Client) : Moves client.frame client.reconnect.frame := by
  unfold reconnect
  split
  · exact .refl _
  · dsimp only
    split
    · exact .refl _
    · refine .reconnect (.of_eq ?_)
      exact setState_frame _ .reconnecting

theorem parseJob_moves (client : Client) (job : Option Job) : Moves client.frame (client.parseJob job).1.frame := by
  cases job with
  | none => exact .refl _
  | some job =>
    unfold parseJob
    dsimp only
    split
    · exact .refl _
    · split
      · exact .refl _
      · exact (close_moves _).behind rfl

theorem parseLogin_moves (client : Client) (result : LoginResult) : Moves client.frame (client.parseLogin result).1.frame := by
  unfold parseLogin
  dsimp only
  split
  · exact .refl _
  · split
    · exact (parseJob_moves _ result.job).behind rfl
    · exact (parseJob_moves _ result.job).behind rfl

theorem handleSubmitResponse_frame (client : Client) (id : Int) : (client.handleSubmitResponse id).1.frame = client.frame := by
  unfold handleSubmitResponse
  split <;> rfl

theorem callBack_moves (client : Client) (response : Response) (callback : ClientCallback) :
    Moves client.frame (client.callBack response callback).frame := by
  cases callback with
  | subscribe =>
    simp only [callBack, onSubscribeResponse]
    split
    · exact send_moves _ _
    · exact .refl _
  | authorize =>
    simp only [callBack, onAuthorizeResponse]
    split
    · exact client.close_moves
    · split
      · exact .refl _
      · exact .refl _
  | other => exact .refl _

theorem handleResponse_moves (client : Client) (response : Response) : Moves client.frame (client.handleResponse response).1.frame := by
  unfold handleResponse
  split
  · exact .refl _
  · split
    · exact callBack_moves _ response _
    · split
      · exact .of_eq (handleSubmitResponse_frame _ response.id)
      · exact .refl _

theorem parseResponse_moves (client : Client) (response : Response) : Moves client.frame (client.parseResponse response).frame := by
  have handled := handleResponse_moves client response
  unfold parseResponse
  dsimp only
  split
  · exact handled
  · apply handled.trans
    cases response.error with
    | some critical =>
      have same := handleSubmitResponse_frame (client.handleResponse response).1 response.id
      dsimp only
      split
      · exact (Moves.of_eq same).trans (close_moves _)
      · exact .of_eq same
    | none =>
      cases response.result with
      | none => exact .refl _
      | some result =>
        dsimp only
        split
        · have parsed := parseLogin_moves ((client.handleResponse response).1) result
          split
          · exact parsed.trans (close_moves _)
          · split
            · exact parsed
            · exact parsed
        · exact .of_eq (handleSubmitResponse_frame _ response.id)

theorem parseNotification_moves (client : Client) (job : Option Job) : Moves client.frame (client.parseNotification job).frame := by
  unfold parseNotification
  split
  · cases job with
    | none => exact client.close_moves
    | some job =>
      dsimp only
      split
      · exact client.close_moves
      · split
        · exact .refl _
        · exact .refl _
  · dsimp only
    have parsed := parseJob_moves client job
    split
    · exact parsed
    · exact parsed.trans (close_moves _)

theorem parse_moves (client : Client) (line : Line) : Moves client.frame (client.parse line).frame := by
  cases line with
  | other => exact .refl _
  | reconnect tls => exact (reconnect_moves _).behind rfl
  | response response => exact (parseResponse_moves _ response).behind rfl
  | job job => exact (parseNotification_moves _ job).behind rfl

theorem lines_moves (client : Client) (lines : List Line) : Moves client.frame (lines.foldl parse client).frame := by
  induction lines generalizing client with
  | nil => exact .refl _
  | cons line rest ih => exact (client.parse_moves line).trans (ih _)

theorem readSocks_moves (client : Client) (socks : SocksState) (reply : Option Bool) (sent : Handshake) :
    Moves client.frame (client.readSocks socks reply sent).frame := by
  unfold readSocks
  split
  · exact .refl _
  · exact client.close_moves
  · split
    · exact (write_moves _ sent.write).behind rfl
    · exact (handshake_moves _ sent).behind rfl

theorem readTls_moves (client : Client) (certificate : Option Bool) (sent : Handshake) :
    Moves client.frame (client.readTls certificate sent).frame := by
  unfold readTls
  split
  · exact sendBio_moves _ sent.write
  · exact client.close_moves
  · exact (login_moves _ sent).behind rfl

theorem disconnect_moves (client : Client) : Moves client.frame client.disconnect.frame :=
  (close_moves _).behind rfl

theorem deleteLater_moves (client : Client) : Moves client.frame client.deleteLater.frame := by
  unfold deleteLater
  split
  · exact .refl _
  · dsimp only
    split
    · exact (disconnect_moves _).behind rfl
    · exact (disconnect_moves _).behind rfl

theorem ping_moves (client : Client) (transport : Transport) : Moves client.frame (client.ping transport).frame :=
  sendBytes_moves _ transport

theorem submit_moves (client : Client) (clientId : Option String) (zeroDiff : Bool) (message : Message) :
    Moves client.frame (client.submit clientId zeroDiff message).frame := by
  unfold submit
  split
  · exact .refl _
  · split
    · exact client.close_moves
    · exact (send_moves _ message).behind rfl

/-! One socket at a time. -/

/-- A socket is made without another one, data comes from `m_socket`, and the callback of a socket
frees that socket. -/
def Fits : ClientOutput → Prop
  | .allocate _ previous => previous = none
  | .feed socket current => current = some socket
  | .free called freed => freed = some called
  | _ => True

/-- `m_socket` is the only socket that is not closed. -/
structure Single (frame : Frame) : Prop where
  unused : ∀ i, frame.allocated ≤ i → frame.sockets i = {}
  only : ∀ i, i < frame.allocated → (frame.sockets i).closed = false → frame.socket = some i
  gone : ∀ i, (frame.sockets i).closed = true → (frame.sockets i).closing = true ∧
    (frame.sockets i).connecting = false
  live : ∀ i, frame.socket = some i → i < frame.allocated ∧ (frame.sockets i).closed = false
  dns : frame.dns = true → frame.socket = none
  trace : ∀ output ∈ frame.trace, Fits output

theorem Single.update {frame : Frame} (single : Single frame) {i : Nat} (here : frame.socket = some i)
    (state : SocketState) (socket : TcpSocket) (same : socket.closed = false) :
    Single { frame with state, sockets := Function.update frame.sockets i socket } := by
  obtain ⟨inside, isOpen⟩ := single.live i here
  refine ⟨fun j above => ?_, fun j below => ?_, fun j => ?_, fun j current => ?_, single.dns, single.trace⟩
  · have other : j ≠ i := by dsimp only at above; omega
    simp only [Function.update_of_ne other]
    exact single.unused j above
  · by_cases equal : j = i
    · subst equal
      exact fun _ => here
    · simp only [Function.update_of_ne equal]
      exact single.only j below
  · by_cases equal : j = i
    · subst equal
      simp only [Function.update_self, same]
      exact nofun
    · simp only [Function.update_of_ne equal]
      exact single.gone j
  · by_cases equal : j = i
    · subst equal
      simp only [Function.update_self]
      exact ⟨inside, same⟩
    · simp only [Function.update_of_ne equal]
      exact single.live j current

theorem Single.moves {first last : Frame} (single : Single first) (moves : Moves first last) : Single last := by
  induction moves with
  | refl frame => exact single
  | close here _ ih => exact ih (single.update here _ _ (single.live _ here).2)
  | reconnect _ ih =>
    exact ih ⟨single.unused, single.only, single.gone, single.live, single.dns, single.trace⟩

/-- The loop only calls back for `m_socket`. -/
theorem Single.current {frame : Frame} (single : Single frame) {i : Nat}
    (busy : (frame.sockets i).connecting = true ∨
      ((frame.sockets i).reading = true ∧ (frame.sockets i).closing = false) ∨
      ((frame.sockets i).closing = true ∧ (frame.sockets i).closed = false)) : frame.socket = some i := by
  have inside : i < frame.allocated := by
    by_contra outside
    rw [single.unused i (Nat.le_of_not_lt outside)] at busy
    simp at busy
  have isOpen : (frame.sockets i).closed = false := by
    cases closed : (frame.sockets i).closed with
    | false => rfl
    | true =>
      have gone := single.gone i closed
      rw [closed, gone.1, gone.2] at busy
      simp at busy
  exact single.only i inside isOpen

theorem Single.setState {frame : Frame} (single : Single frame) (state : SocketState) : Single { frame with state } :=
  ⟨single.unused, single.only, single.gone, single.live, single.dns, single.trace⟩

theorem connectAddr_frame (client : Client) : client.connectAddr.frame = { client.frame with
    state := .connecting
    socket := some client.allocated
    allocated := client.allocated + 1
    sockets := Function.update client.sockets client.allocated { connecting := true }
    trace := .allocate client.allocated client.socket :: client.frame.trace } := by
  have same := client.setState_frame .connecting
  simp only [frame, Frame.mk.injEq] at same
  simp only [connectAddr, frame, emit, setSocket, same, List.filter_cons, ofSocket, if_true]

theorem Single.connectAddr (single : Single client.frame) (idle : client.socket = none)
    (answered : client.dns = false) : Single client.connectAddr.frame := by
  have closed (i : Nat) (below : i < client.allocated) : (client.sockets i).closed = true := by
    cases isOpen : (client.sockets i).closed with
    | true => rfl
    | false =>
      have here : client.socket = some i := single.only i below isOpen
      rw [idle] at here
      cases here
  rw [connectAddr_frame]
  refine ⟨fun j above => ?_, fun j below => ?_, fun j => ?_, fun j current => ?_, fun waiting => ?_, ?_⟩
  · have other : j ≠ client.allocated := by dsimp only at above; omega
    simp only [Function.update_of_ne other]
    exact single.unused j (Nat.le_of_succ_le above)
  · by_cases equal : j = client.allocated
    · subst equal
      exact fun _ => rfl
    · simp only [Function.update_of_ne equal, closed j (by dsimp only at below; omega)]
      exact nofun
  · by_cases equal : j = client.allocated
    · subst equal
      simp only [Function.update_self]
      exact nofun
    · simp only [Function.update_of_ne equal]
      exact single.gone j
  · cases current
    simp only [Function.update_self]
    exact ⟨Nat.lt_succ_self _, trivial⟩
  · simp only [frame, answered] at waiting
    cases waiting
  · exact List.forall_mem_cons.mpr ⟨idle, single.trace⟩

theorem Single.onResolved (single : Single client.frame) (idle : client.socket = none) (found : Bool) :
    Single (client.onResolved found).frame := by
  have answered : Single { client with dns := false }.frame :=
    ⟨single.unused, single.only, single.gone, single.live, nofun, single.trace⟩
  unfold Client.onResolved
  dsimp only
  split
  · exact answered.moves (reconnect_moves _)
  · split
    · exact answered.moves (reconnect_moves _)
    · exact answered.connectAddr idle rfl

theorem startLookup_frame (client : Client) :
    client.startLookup.frame = { client.frame with state := .hostLookup } :=
  client.setState_frame .hostLookup

theorem Single.resolve (single : Single client.frame) (idle : client.socket = none) (lookup : Lookup) :
    Single (client.resolve lookup).frame := by
  have waiting : Single client.startLookup.frame := by
    rw [startLookup_frame]
    exact single.setState .hostLookup
  have still : client.startLookup.socket = none :=
    (congrArg Frame.socket client.startLookup_frame).trans idle
  cases lookup with
  | pending =>
    exact ⟨waiting.unused, waiting.only, waiting.gone, waiting.live, fun _ => still, waiting.trace⟩
  | failed => exact waiting.onResolved still false
  | found => exact waiting.onResolved still true

theorem Single.connect (single : Single client.frame) (idle : client.socket = none) (lookup : Lookup) :
    Single (client.connect lookup).frame := by
  unfold Client.connect
  split
  · have socks : Single { client with socks5 := some .created }.frame := single
    exact socks.resolve idle lookup
  · split
    · have tls : Single { client with tls := some false }.frame := single
      exact tls.resolve idle lookup
    · exact single.resolve idle lookup

theorem startReading_frame (client : Client) (i : Nat) : (client.startReading i).frame = { client.frame with
    state := .connected
    sockets := Function.update client.sockets i { client.sockets i with reading := true } } := by
  have same := client.setState_frame .connected
  simp only [frame, Frame.mk.injEq] at same
  simp only [startReading, frame, emit, setSocket, same, List.filter_cons, ofSocket, Bool.false_eq_true, if_false]

theorem Single.onConnect {sent : Handshake} {ok : Bool} (single : Single client.frame)
    (connected : client.onConnect ok sent = some after) : Single after.frame := by
  obtain rfl | ⟨_, rfl⟩ | ⟨i, _, here, rfl⟩ := onConnect_cases connected
  · exact single
  · exact single.moves client.close_moves
  · refine Single.moves ?_ (handshake_moves _ sent)
    rw [startReading_frame]
    exact single.update here .connected _ (single.live i here).2

theorem freeSocket_frame (client : Client) (i : Nat) : (client.freeSocket i).frame = { client.frame with
    state := .unconnected
    socket := none
    trace := .free i client.socket :: client.frame.trace } :=
  setState_frame _ .unconnected

theorem Single.onClose {i : Nat} (single : Single client.frame) (here : client.socket = some i)
    (closing : (client.sockets i).closing = true) (idle : (client.sockets i).connecting = false) :
    Single ((client.setSocket i fun socket => { socket with closed := true }).onClose i).frame := by
  refine Single.moves ?_ (reconnect_moves _)
  rw [freeSocket_frame]
  refine ⟨fun j above => ?_, fun j below isOpen => ?_, fun j => ?_, nofun, fun _ => rfl, ?_⟩
  · have inside := (single.live i here).1
    have other : j ≠ i := by
      simp only [frame, setSocket] at above inside
      omega
    simp only [frame, setSocket, Function.update_of_ne other]
    exact single.unused j above
  · by_cases equal : j = i
    · subst equal
      simp only [frame, setSocket, Function.update_self] at isOpen
      cases isOpen
    · simp only [frame, setSocket, Function.update_of_ne equal] at isOpen
      have current := single.only j below isOpen
      simp only [frame, here] at current
      exact absurd (Option.some.inj current).symm equal
  · by_cases equal : j = i
    · subst equal
      simp only [frame, setSocket, Function.update_self]
      exact fun _ => ⟨closing, idle⟩
    · simp only [frame, setSocket, Function.update_of_ne equal]
      exact single.gone j
  · exact List.forall_mem_cons.mpr ⟨here, single.trace⟩

theorem Single.read {i : Nat} (single : Single client.frame) (here : client.socket = some i)
    (incoming : Incoming) : Single (client.read i incoming).frame := by
  cases incoming with
  | error => exact single.moves client.close_moves
  | data reply certificate lines sent =>
    unfold Client.read
    dsimp only
    split
    · exact single.moves client.reconnect_moves
    · split
      · exact single.moves (readSocks_moves _ _ reply sent)
      · split
        · exact single.moves (readTls_moves _ certificate sent)
        · have fed : Single (client.emit (.feed i client.socket)).frame :=
            ⟨single.unused, single.only, single.gone, single.live, single.dns,
              List.forall_mem_cons.mpr ⟨here, single.trace⟩⟩
          exact fed.moves (lines_moves _ lines)

/-- `connect` is called, from outside or by `tick`, only without a socket. -/
def connectsIdle (client : Client) : Event → Bool
  | .connect _ => client.socket.isNone
  | .tick expired _ _ _ => !(client.state = .reconnecting && client.expire && expired) || client.socket.isNone
  | _ => true

def ConnectsIdle (client : Client) (event : Event) : Prop := client.connectsIdle event = true

instance (client : Client) (event : Event) : Decidable (client.ConnectsIdle event) :=
  inferInstanceAs (Decidable (_ = _))

theorem Single.tick (single : Single client.frame) {expired due : Bool} {lookup : Lookup} {transport : Transport}
    (allowed : client.ConnectsIdle (.tick expired due lookup transport)) :
    Single (client.tick expired due lookup transport).frame := by
  unfold Client.tick
  split
  · split
    · exact single.moves client.close_moves
    · split
      · exact single.moves (ping_moves _ transport)
      · exact single
  · split
    · rename_i due
      have idle : client.socket = none := by
        rw [Bool.and_eq_true] at due
        simpa [ConnectsIdle, connectsIdle, due.1, due.2.1, due.2.2] using allowed
      exact single.connect idle lookup
    · split
      · exact single.moves client.close_moves
      · exact single

theorem handle_single {event : Event} (single : Single client.frame) (allowed : client.ConnectsIdle event)
    (possible : client.enabled event = true) (handled : client.handle event = some after) :
    Single after.frame := by
  cases event with
  | connect lookup =>
    cases handled
    exact single.connect (Option.isNone_iff_eq_none.mp allowed) lookup
  | disconnect =>
    cases handled
    exact single.moves client.disconnect_moves
  | deleteLater =>
    cases handled
    exact single.moves client.deleteLater_moves
  | tick expired due lookup transport =>
    cases handled
    exact single.tick allowed
  | onResolved found =>
    cases handled
    exact single.onResolved (single.dns possible) found
  | onConnect i ok sent =>
    simp only [enabled, Bool.and_eq_true] at possible
    have here : client.socket = some i := single.current (.inl possible.1)
    have answered : Single (client.setSocket i fun socket => { socket with connecting := false }).frame :=
      single.update here client.state _ (single.live i here).2
    exact answered.onConnect handled
  | onRead i incoming =>
    cases handled
    simp only [enabled, Bool.and_eq_true, Bool.not_eq_true'] at possible
    exact single.read (single.current (.inr (.inl possible))) incoming
  | onClose i =>
    cases handled
    simp only [enabled, Bool.and_eq_true, Bool.not_eq_true'] at possible
    exact single.onClose (single.current (.inr (.inr possible.1))) possible.1.1 possible.2
  | submit clientId zeroDiff message =>
    cases handled
    exact single.moves (submit_moves _ clientId zeroDiff message)
  | sendCallback message =>
    cases handled
    exact single.moves (sendCallback_moves _ .other message)
  | sequence =>
    cases handled
    exact single

theorem step_single {event : Event} (single : Single client.frame) (allowed : client.ConnectsIdle event)
    (stepped : client.step event = some after) : Single after.frame := by
  unfold step at stepped
  split at stepped
  · cases stepped
    exact single
  · split at stepped
    · rename_i possible
      exact handle_single single allowed possible stepped
    · cases stepped

theorem start_single (eth proxy tls nicehash keepalive : Bool) (sequence : Nat) :
    Single (start eth proxy tls nicehash keepalive sequence).frame :=
  ⟨fun _ _ => rfl, nofun, nofun, nofun, nofun, nofun⟩

/-- As long as `connect` is only called without a socket, every socket that is not closed is
`m_socket`, a socket is made only without another one, only data of `m_socket` is read, and a close
callback frees its own socket. -/
theorem one_socket {eth proxy tls nicehash keepalive : Bool} {sequence : Nat} {events : List Event} {final : Client}
    (allowed : Guarded step ConnectsIdle (start eth proxy tls nicehash keepalive sequence) events)
    (executed : run step (start eth proxy tls nicehash keepalive sequence) events = some final) :
    (∀ output ∈ final.log, Fits output) ∧
      ∀ i, i < final.allocated → (final.sockets i).closed = false → final.socket = some i := by
  have single : Single final.frame := run_invariant (P := fun client : Client => Single client.frame)
    (fun _ _ _ single => step_single single) (start_single eth proxy tls nicehash keepalive sequence) allowed executed
  refine ⟨fun output member => ?_, single.only⟩
  cases kind : ofSocket output with
  | true => exact single.trace output (List.mem_filter.mpr ⟨member, kind⟩)
  | false => cases output <;> trivial

def brokenConnection : List Event :=
  [.connect .pending, .onResolved true, .onConnect 0 true {}, .onRead 0 .error, .onClose 0,
    .tick true false .found .written]

theorem brokenConnection_runs : (run step (start false false false false false 0) brokenConnection).isSome = true := by
  decide

theorem one_socket_brokenConnection :
    ∃ final, run step (start false false false false false 0) brokenConnection = some final ∧
      (∀ output ∈ final.log, Fits output) ∧
      ∀ i, i < final.allocated → (final.sockets i).closed = false → final.socket = some i :=
  ⟨_, (Option.some_get brokenConnection_runs).symm,
    one_socket (by decide) (Option.some_get brokenConnection_runs).symm⟩

/-- The pool sends the client elsewhere, and `tick` connects; the pool goes on sending. -/
def sentElsewhere : List Event :=
  [.connect .found, .onConnect 0 true {}, .onRead 0 (.data none none [.reconnect false] {}),
    .tick true false .found .written, .onRead 0 (.data none none [.other] {})]

/-- The second socket is made while the first one is open, and data of the first is read then. -/
theorem sentElsewhere_two_sockets :
    ((run step (start false false false false false 0) sentElsewhere).map fun client =>
      (client.log.filter ofSocket, client.socket, (client.sockets 0).closing)) =
      some ([.feed 0 (some 1), .allocate 1 (some 0), .feed 0 (some 0), .allocate 0 none], some 1, false) := by
  decide

end Xmrig.Client
