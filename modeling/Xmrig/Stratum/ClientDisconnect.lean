import Xmrig.Stratum.ClientSockets

/-! `disconnect` of the stratum client.

It closes `m_socket` and stops the timers, but a lookup that is under way goes on, and so does a
socket that was lost. Without these the client stays silent until `connect` is called again.
-/

set_option autoImplicit false

namespace Xmrig.Client

open Foundation

variable {client after : Client}

/-- What each state says about `m_socket`. -/
structure Sound (frame : Frame) : Prop where
  unused : ∀ i, frame.allocated ≤ i → frame.sockets i = {}
  unconnected : frame.state = .unconnected → frame.socket = none
  busy : frame.state = .connecting ∨ frame.state = .connected → frame.socket.isSome = true
  closing : frame.state = .closing → ∃ i, frame.socket = some i ∧ (frame.sockets i).closing = true
  inside : ∀ i, frame.socket = some i → i < frame.allocated

theorem Sound.update {frame : Frame} (sound : Sound frame) {i : Nat} (below : i < frame.allocated) (socket : TcpSocket)
    (keeps : (frame.sockets i).closing = true → socket.closing = true) :
    Sound { frame with sockets := Function.update frame.sockets i socket } := by
  refine ⟨fun j above => ?_, sound.unconnected, sound.busy, fun closing => ?_, sound.inside⟩
  · have other : j ≠ i := by dsimp only at above; omega
    simp only [Function.update_of_ne other]
    exact sound.unused j above
  · obtain ⟨j, here, marked⟩ := sound.closing closing
    refine ⟨j, here, ?_⟩
    by_cases equal : j = i
    · subst equal
      simp only [Function.update_self]
      exact keeps marked
    · simp only [Function.update_of_ne equal]
      exact marked

theorem Sound.moves {first last : Frame} (sound : Sound first) (moves : Moves first last) : Sound last := by
  induction moves with
  | refl frame => exact sound
  | @close first last i here _ ih =>
    have marked := sound.update (sound.inside _ here) { first.sockets i with closing := true } (fun _ => rfl)
    refine ih ⟨marked.unused, nofun, fun busy => ?_, fun _ => ⟨i, here, ?_⟩, marked.inside⟩
    · rcases busy with busy | busy <;> cases busy
    · simp only [Function.update_self]
  | reconnect _ ih =>
    refine ih ⟨sound.unused, nofun, fun busy => ?_, nofun, sound.inside⟩
    rcases busy with busy | busy <;> cases busy

theorem Sound.connectAddr (sound : Sound client.frame) : Sound client.connectAddr.frame := by
  rw [connectAddr_frame]
  refine ⟨fun j above => ?_, nofun, fun _ => rfl, nofun, fun j current => ?_⟩
  · have other : j ≠ client.allocated := by dsimp only at above; omega
    simp only [Function.update_of_ne other]
    exact sound.unused j (Nat.le_of_succ_le above)
  · cases current
    exact Nat.lt_succ_self _

theorem Sound.onResolved (sound : Sound client.frame) (found : Bool) : Sound (client.onResolved found).frame := by
  have answered : Sound { client with dns := false }.frame :=
    ⟨sound.unused, sound.unconnected, sound.busy, sound.closing, sound.inside⟩
  unfold Client.onResolved
  dsimp only
  split
  · exact answered.moves (reconnect_moves _)
  · split
    · exact answered.moves (reconnect_moves _)
    · exact answered.connectAddr

theorem Sound.resolve (sound : Sound client.frame) (lookup : Lookup) : Sound (client.resolve lookup).frame := by
  have waiting : Sound client.startLookup.frame := by
    rw [startLookup_frame]
    refine ⟨sound.unused, nofun, fun busy => ?_, nofun, sound.inside⟩
    rcases busy with busy | busy <;> cases busy
  cases lookup with
  | pending => exact ⟨waiting.unused, waiting.unconnected, waiting.busy, waiting.closing, waiting.inside⟩
  | failed => exact waiting.onResolved false
  | found => exact waiting.onResolved true

theorem Sound.connect (sound : Sound client.frame) (lookup : Lookup) : Sound (client.connect lookup).frame := by
  unfold Client.connect
  split
  · have socks : Sound { client with socks5 := some .created }.frame := sound
    exact socks.resolve lookup
  · split
    · have tls : Sound { client with tls := some false }.frame := sound
      exact tls.resolve lookup
    · exact sound.resolve lookup

theorem Sound.onConnect {sent : Handshake} {ok : Bool} (sound : Sound client.frame)
    (connected : client.onConnect ok sent = some after) : Sound after.frame := by
  obtain rfl | ⟨_, rfl⟩ | ⟨i, _, here, rfl⟩ := onConnect_cases connected
  · exact sound
  · exact sound.moves client.close_moves
  · refine Sound.moves ?_ (handshake_moves _ sent)
    rw [startReading_frame]
    have reading := sound.update (sound.inside i here) { client.sockets i with reading := true } id
    refine ⟨reading.unused, nofun, fun _ => ?_, nofun, reading.inside⟩
    simp only [frame, here, Option.isSome_some]

theorem Sound.onClose (sound : Sound client.frame) (i : Nat) : Sound (client.onClose i).frame := by
  refine Sound.moves ?_ (reconnect_moves _)
  rw [freeSocket_frame]
  refine ⟨sound.unused, fun _ => rfl, fun busy => ?_, nofun, nofun⟩
  rcases busy with busy | busy <;> cases busy

theorem Sound.read (sound : Sound client.frame) (i : Nat) (incoming : Incoming) :
    Sound (client.read i incoming).frame := by
  cases incoming with
  | error => exact sound.moves client.close_moves
  | data reply certificate lines sent =>
    unfold Client.read
    dsimp only
    split
    · exact sound.moves client.reconnect_moves
    · split
      · exact sound.moves (readSocks_moves _ _ reply sent)
      · split
        · exact sound.moves (readTls_moves _ certificate sent)
        · have fed : Sound (client.emit (.feed i client.socket)).frame :=
            ⟨sound.unused, sound.unconnected, sound.busy, sound.closing, sound.inside⟩
          exact fed.moves (lines_moves _ lines)

theorem Sound.tick (sound : Sound client.frame) (expired due : Bool) (lookup : Lookup) (transport : Transport) :
    Sound (client.tick expired due lookup transport).frame := by
  unfold Client.tick
  split
  · split
    · exact sound.moves client.close_moves
    · split
      · exact sound.moves (ping_moves _ transport)
      · exact sound
  · split
    · exact sound.connect lookup
    · split
      · exact sound.moves client.close_moves
      · exact sound

/-- The loop only calls back for sockets that were made. -/
theorem Sound.made {frame : Frame} (sound : Sound frame) {i : Nat}
    (used : frame.sockets i ≠ {}) : i < frame.allocated := by
  by_contra outside
  exact used (sound.unused i (Nat.le_of_not_lt outside))

theorem handle_sound {event : Event} (sound : Sound client.frame) (possible : client.enabled event = true)
    (handled : client.handle event = some after) : Sound after.frame := by
  cases event with
  | connect lookup =>
    cases handled
    exact sound.connect lookup
  | disconnect =>
    cases handled
    exact sound.moves client.disconnect_moves
  | deleteLater =>
    cases handled
    exact sound.moves client.deleteLater_moves
  | tick expired due lookup transport =>
    cases handled
    exact sound.tick expired due lookup transport
  | onResolved found =>
    cases handled
    exact sound.onResolved found
  | onConnect i ok sent =>
    simp only [enabled, Bool.and_eq_true] at possible
    have below : i < client.allocated := sound.made fun empty => by simp [frame] at empty; simp [empty] at possible
    have answered : Sound (client.setSocket i fun socket => { socket with connecting := false }).frame :=
      sound.update below _ id
    exact answered.onConnect handled
  | onRead i incoming =>
    cases handled
    exact sound.read i incoming
  | onClose i =>
    cases handled
    simp only [enabled, Bool.and_eq_true] at possible
    have below : i < client.allocated := sound.made fun empty => by simp [frame] at empty; simp [empty] at possible
    have marked : Sound (client.setSocket i fun socket => { socket with closed := true }).frame :=
      sound.update below _ id
    exact marked.onClose i
  | submit clientId zeroDiff message =>
    cases handled
    exact sound.moves (submit_moves _ clientId zeroDiff message)
  | sendCallback message =>
    cases handled
    exact sound.moves (sendCallback_moves _ .other message)
  | sequence =>
    cases handled
    exact sound

theorem step_sound {event : Event} (sound : Sound client.frame) (stepped : client.step event = some after) :
    Sound after.frame := by
  unfold step at stepped
  split at stepped
  · cases stepped
    exact sound
  · split at stepped
    · rename_i possible
      exact handle_sound sound possible stepped
    · cases stepped

theorem start_sound (eth proxy tls nicehash keepalive : Bool) (sequence : Nat) :
    Sound (start eth proxy tls nicehash keepalive sequence).frame := by
  refine ⟨fun _ _ => rfl, fun _ => rfl, fun busy => ?_, nofun, nofun⟩
  rcases busy with busy | busy <;> cases busy

def loud : ClientOutput → Bool
  | .connected => true
  | .login => true
  | .onLoginSuccess => true
  | .onJobReceived => true
  | _ => false

def heard (client : Client) : List ClientOutput := client.log.filter loud

/-- No lookup is under way, and no socket but `m_socket` waits for a connection or is read. -/
def settled (client : Client) : Bool :=
  !client.dns && (List.range client.allocated).all fun i =>
    client.socket = some i || (client.sockets i).closing ||
      !((client.sockets i).connecting || (client.sockets i).reading)

/-- A client that was disconnected and that nothing wakes up. -/
structure Quiet (client : Client) : Prop where
  failures : client.failures = -1
  dns : client.dns = false
  state : client.state ≠ .connecting ∧ client.state ≠ .connected
  expire : client.state = .reconnecting → client.expire = false
  sockets : ∀ i, ((client.sockets i).connecting || (client.sockets i).reading) = true →
    (client.sockets i).closing = true

theorem quiet_of_state (failures : client.failures = -1) (dns : client.dns = false)
    (state : client.state = .closing ∨ client.state = .unconnected)
    (sockets : ∀ i, ((client.sockets i).connecting || (client.sockets i).reading) = true →
      (client.sockets i).closing = true) : client.Quiet := by
  rcases state with state | state <;> exact ⟨failures, dns, by simp [state], by simp [state], sockets⟩

theorem close_closing (client : Client) {i : Nat} (here : client.socket = some i) (open_ : client.state ≠ .closing)
    (used : client.state ≠ .unconnected) :
    client.close = { client with
      state := .closing
      sockets := Function.update client.sockets i { client.sockets i with closing := true } } := by
  have closed : client.close =
      (client.setState .closing).setSocket i fun socket => { socket with closing := true } := by
    simp only [close, here, open_, used, or_self, if_false]
  rw [closed, client.setState_plain (.inr (.inr rfl))]
  rfl

theorem closing_update {sockets : Nat → TcpSocket} {i : Nat}
    (others : ∀ j, j ≠ i → ((sockets j).connecting || (sockets j).reading) = true → (sockets j).closing = true)
    (j : Nat) (busy : ((Function.update sockets i { sockets i with closing := true } j).connecting ||
      (Function.update sockets i { sockets i with closing := true } j).reading) = true) :
    (Function.update sockets i { sockets i with closing := true } j).closing = true := by
  by_cases equal : j = i
  · subst equal
    rw [Function.update_self]
  · rw [Function.update_of_ne equal] at busy ⊢
    exact others j equal busy

/-- From every reachable state `disconnect` quiets a settled client. -/
theorem disconnect_quiet (sound : Sound client.frame) (settled : client.settled = true) :
    client.disconnect.Quiet ∧ client.disconnect.heard = client.heard := by
  simp only [Client.settled, Bool.and_eq_true, Bool.not_eq_true', List.all_eq_true, List.mem_range,
    Bool.or_eq_true, decide_eq_true_eq] at settled
  obtain ⟨answered, only⟩ := settled
  have others (i : Nat) (other : client.socket ≠ some i)
      (busy : ((client.sockets i).connecting || (client.sockets i).reading) = true) :
      (client.sockets i).closing = true := by
    by_cases below : i < client.allocated
    · rcases only i below with (here | closing) | idle
      · exact absurd here other
      · exact closing
      · rw [busy] at idle
        cases idle
    · have unused : client.sockets i = {} := sound.unused i (Nat.le_of_not_lt below)
      rw [unused] at busy
      cases busy
  unfold disconnect
  by_cases closing : client.state = .closing
  · -- the callback of the socket is already on its way
    obtain ⟨i, here, marked⟩ := sound.closing closing
    rw [close, if_pos (.inl closing)]
    refine ⟨⟨rfl, answered, ?_, fun _ => rfl, fun j busy => ?_⟩, rfl⟩
    · simp [closing]
    · by_cases equal : client.socket = some j
      · cases here.symm.trans equal
        exact marked
      · exact others j equal busy
  · rcases Option.eq_none_or_eq_some client.socket with here | ⟨i, here⟩
    · have same : { client with keepAlive := false, expire := false, failures := -1 }.close =
          { client with keepAlive := false, expire := false, failures := -1 } := by
        simp only [close, here]
        split <;> rfl
      rw [same]
      have idle : ¬ (client.state = .connecting ∨ client.state = .connected) := fun busy => by
        have some_ := sound.busy busy
        simp only [frame, here] at some_
        cases some_
      rw [not_or] at idle
      exact ⟨⟨rfl, answered, idle, fun _ => rfl, fun j => others j (by simp [here])⟩, rfl⟩
    · have used : client.state ≠ .unconnected := fun unconnected => by
        have none_ := sound.unconnected unconnected
        simp only [frame, here] at none_
        cases none_
      rw [close_closing { client with keepAlive := false, expire := false, failures := -1 } here closing used]
      refine ⟨quiet_of_state rfl answered (.inl rfl) ?_, rfl⟩
      refine closing_update fun j other => others j ?_
      rw [here]
      exact fun same => other (Option.some.inj same).symm

theorem Quiet.close (quiet : client.Quiet) : client.close.Quiet ∧ client.close.heard = client.heard := by
  by_cases still : client.state = .closing ∨ client.state = .unconnected
  · rw [Client.close, if_pos still]
    exact ⟨quiet, rfl⟩
  · rw [not_or] at still
    rcases Option.eq_none_or_eq_some client.socket with here | ⟨i, here⟩
    · have same : client.close = client := by
        simp only [Client.close, here]
        split <;> rfl
      rw [same]
      exact ⟨quiet, rfl⟩
    · rw [client.close_closing here still.1 still.2]
      exact ⟨quiet_of_state quiet.failures quiet.dns (.inl rfl) (closing_update fun j _ => quiet.sockets j), rfl⟩

theorem Quiet.disconnect (quiet : client.Quiet) :
    client.disconnect.Quiet ∧ client.disconnect.heard = client.heard := by
  have stopped : { client with keepAlive := false, expire := false, failures := -1 }.Quiet :=
    ⟨rfl, quiet.dns, quiet.state, fun _ => rfl, quiet.sockets⟩
  exact stopped.close

theorem Quiet.deleteLater (quiet : client.Quiet) :
    client.deleteLater.Quiet ∧ client.deleteLater.heard = client.heard := by
  unfold Client.deleteLater
  split
  · exact ⟨quiet, rfl⟩
  · have deaf : { client with listening := false }.Quiet :=
      ⟨quiet.failures, quiet.dns, quiet.state, quiet.expire, quiet.sockets⟩
    obtain ⟨stopped, same⟩ := deaf.disconnect
    dsimp only
    split
    · exact ⟨stopped, same⟩
    · exact ⟨⟨stopped.failures, stopped.dns, stopped.state, stopped.expire, stopped.sockets⟩, same⟩

theorem Quiet.reconnect (quiet : client.Quiet) :
    client.reconnect.Quiet ∧ client.reconnect.heard = client.heard := by
  unfold Client.reconnect
  split
  · exact ⟨⟨quiet.failures, quiet.dns, quiet.state, quiet.expire, quiet.sockets⟩, rfl⟩
  · rw [if_pos quiet.failures]
    exact ⟨⟨quiet.failures, quiet.dns, quiet.state, quiet.expire, quiet.sockets⟩, rfl⟩

theorem freeSocket_eq (client : Client) (i : Nat) : client.freeSocket i = { client with
    state := .unconnected
    log := .free i client.socket :: client.log
    socket := none
    tls := none
    authorized := if client.eth then false else client.authorized } :=
  setState_plain _ (.inl rfl)

theorem Quiet.onClose (quiet : client.Quiet) (i : Nat) :
    (client.onClose i).Quiet ∧ (client.onClose i).heard = client.heard := by
  have freed : (client.freeSocket i).Quiet := by
    rw [freeSocket_eq]
    exact quiet_of_state quiet.failures quiet.dns (.inr rfl) quiet.sockets
  obtain ⟨told, same⟩ := freed.reconnect
  refine ⟨told, same.trans ?_⟩
  rw [freeSocket_eq]
  rfl

/-- Everything but a new `connect` and a message of the self-select client. -/
def leavesAlone : Event → Bool
  | .connect _ => false
  | .sendCallback _ => false
  | _ => true

theorem handle_quiet {event : Event} (quiet : client.Quiet) (allowed : leavesAlone event = true)
    (possible : client.enabled event = true) (handled : client.handle event = some after) :
    after.Quiet ∧ after.heard = client.heard := by
  cases event with
  | connect lookup => cases allowed
  | disconnect =>
    cases handled
    exact quiet.disconnect
  | deleteLater =>
    cases handled
    exact quiet.deleteLater
  | tick expired due lookup transport =>
    cases handled
    rw [tick, if_neg quiet.state.2, if_neg, if_neg (fun busy => quiet.state.1 busy.1)]
    · exact ⟨quiet, rfl⟩
    · rintro ⟨reconnecting, expire⟩
      rw [quiet.expire reconnecting] at expire
      cases expire
  | onResolved found =>
    rw [enabled, quiet.dns] at possible
    cases possible
  | onConnect i ok sent =>
    simp only [enabled, Bool.and_eq_true, Bool.not_eq_true', Bool.and_eq_false_iff] at possible
    have closing := quiet.sockets i (by rw [possible.1]; rfl)
    have failed : ok = false := by
      rcases possible.2 with failed | isOpen
      · exact failed
      · rw [closing] at isOpen
        cases isOpen
    obtain rfl | ⟨waiting, _⟩ | ⟨_, connected, _⟩ := onConnect_cases handled
    · refine ⟨⟨quiet.failures, quiet.dns, quiet.state, quiet.expire, fun j busy => ?_⟩, rfl⟩
      simp only [setSocket] at busy ⊢
      by_cases equal : j = i
      · subst equal
        rw [Function.update_self]
        exact closing
      · rw [Function.update_of_ne equal] at busy ⊢
        exact quiet.sockets j busy
    · exact absurd waiting quiet.state.1
    · rw [failed] at connected
      cases connected
  | onRead i incoming =>
    simp only [enabled, Bool.and_eq_true, Bool.not_eq_true'] at possible
    have closing := quiet.sockets i (by rw [possible.1, Bool.or_true])
    rw [possible.2] at closing
    cases closing
  | onClose i =>
    cases handled
    have marked : (client.setSocket i fun socket => { socket with closed := true }).Quiet := by
      refine ⟨quiet.failures, quiet.dns, quiet.state, quiet.expire, fun j busy => ?_⟩
      simp only [setSocket] at busy ⊢
      by_cases equal : j = i
      · subst equal
        rw [Function.update_self] at busy ⊢
        exact quiet.sockets j busy
      · rw [Function.update_of_ne equal] at busy ⊢
        exact quiet.sockets j busy
    exact marked.onClose i
  | submit clientId zeroDiff message =>
    cases handled
    have refused : client.canSubmit clientId = false := by
      unfold canSubmit
      split <;> simp [quiet.state.2]
    rw [submit, if_pos refused]
    exact ⟨⟨quiet.failures, quiet.dns, quiet.state, quiet.expire, quiet.sockets⟩, rfl⟩
  | sendCallback message => cases allowed
  | sequence =>
    cases handled
    exact ⟨⟨quiet.failures, quiet.dns, quiet.state, quiet.expire, quiet.sockets⟩, rfl⟩

theorem step_quiet {event : Event} (quiet : client.Quiet) (allowed : leavesAlone event = true)
    (stepped : client.step event = some after) : after.Quiet ∧ after.heard = client.heard := by
  unfold step at stepped
  split at stepped
  · cases stepped
    exact ⟨quiet, rfl⟩
  · split at stepped
    · rename_i possible
      exact handle_quiet quiet allowed possible stepped
    · cases stepped

/-- From every reachable state in which no lookup is under way and no other socket is busy, nothing
more is heard of the client after `disconnect`, and it never becomes connected. -/
theorem disconnect_final {eth proxy tls nicehash keepalive : Bool} {sequence : Nat} {events later : List Event}
    {final : Client} (executed : run step (start eth proxy tls nicehash keepalive sequence) events = some client)
    (settled : client.settled = true) (alone : ∀ event ∈ later, leavesAlone event = true)
    (continued : run step client.disconnect later = some final) :
    final.heard = client.heard ∧ final.state ≠ .connected := by
  have free : Guarded step (fun _ _ => True) (start eth proxy tls nicehash keepalive sequence) events :=
    guarded_of_mem (fun _ _ => trivial) _
  have sound : Sound client.frame := run_invariant (P := fun client : Client => Sound client.frame)
    (fun _ _ _ sound _ => step_sound sound) (start_sound eth proxy tls nicehash keepalive sequence) free executed
  obtain ⟨quiet, same⟩ := disconnect_quiet sound settled
  have without : Guarded step (fun _ event => leavesAlone event = true) client.disconnect later :=
    guarded_of_mem alone _
  have kept : final.Quiet ∧ final.heard = client.disconnect.heard := by
    refine run_invariant (P := fun other : Client => other.Quiet ∧ other.heard = client.disconnect.heard)
      (fun other event next quiet allowed stepped => ?_) ⟨quiet, rfl⟩ without continued
    obtain ⟨still, silent⟩ := step_quiet quiet.1 allowed stepped
    exact ⟨still, silent.trans quiet.2⟩
  exact ⟨kept.2.trans same, kept.1.state.2⟩

def connectedFirst : List Event := [.connect .found, .onConnect 0 true {}]

theorem connectedFirst_runs : (run step (start false false false false false 0) connectedFirst).isSome = true := by
  decide

theorem connectedFirst_continues :
    (run step ((run step (start false false false false false 0) connectedFirst).get connectedFirst_runs).disconnect
      [.onClose 0, .tick true true .found .written]).isSome = true := by
  decide

theorem disconnect_final_connectedFirst :
    ∃ client final, run step (start false false false false false 0) connectedFirst = some client ∧
      run step client.disconnect [.onClose 0, .tick true true .found .written] = some final ∧
      final.heard = client.heard ∧ final.state ≠ .connected :=
  ⟨_, _, (Option.some_get connectedFirst_runs).symm, (Option.some_get connectedFirst_continues).symm,
    disconnect_final (Option.some_get connectedFirst_runs).symm (by decide) (by decide)
      (Option.some_get connectedFirst_continues).symm⟩

def loginJob : Job := { algorithm := .rx0, id := some "1", blob := List.replicate 76 0, diff := 1, target := 1 }

/-- The lookup is answered, the pool connected and the login granted. -/
def lookupGoesOn : List Event :=
  [.onResolved true, .onConnect 0 true {},
    .onRead 0 (.data none none [.response { id := 1, result := some { rpcId := some "a", job := some loginJob } }] {})]

/-- After a `disconnect` during the lookup the client connects, logs in and gets a job. -/
theorem disconnect_in_lookup :
    ((run step (start false false false false false 0) [.connect .pending, .disconnect]).bind fun client =>
      (run step client lookupGoesOn).map fun final => (client.heard, final.heard, final.state)) =
      some ([], [.onJobReceived, .onLoginSuccess, .login, .connected], .connected) := by
  decide

end Xmrig.Client
