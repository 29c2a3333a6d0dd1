import Xmrig.Stratum.Client

/-! The authorization of a client is taken back by the end of a connection only. -/

set_option autoImplicit false

namespace Xmrig.Client

variable (client : Client)

@[simp] theorem emit_authorized (output : ClientOutput) : (client.emit output).authorized = client.authorized := rfl

@[simp] theorem setState_authorized (state : SocketState) : (client.setState state).authorized = client.authorized := by
  unfold setState
  split
  · rfl
  · cases state <;> rfl

@[simp] theorem close_authorized : client.close.authorized = client.authorized := by
  unfold close
  split
  · rfl
  · split
    · rfl
    · exact client.setState_authorized .closing

@[simp] theorem write_authorized (transport : Transport) : (client.write transport).authorized = client.authorized := by
  unfold write
  split
  · exact client.close_authorized
  · rfl

@[simp] theorem sendBio_authorized (transport : Transport) :
    (client.sendBio transport).1.authorized = client.authorized := by
  obtain sent | silent | ⟨_, closed⟩ := client.sendBio_cases transport
  · rw [sent]
  · rw [silent]
  · rw [closed, close_authorized]

@[simp] theorem sendBytes_authorized (transport : Transport) :
    (client.sendBytes transport).1.authorized = client.authorized := by
  obtain sent | silent | ⟨_, closed⟩ := client.sendBytes_cases transport
  · rw [sent]
  · rw [silent]
  · rw [closed, close_authorized]

@[simp] theorem send_authorized (message : Message) : (client.send message).1.authorized = client.authorized := by
  obtain sent | silent | closed := client.send_cases message
  · rw [sent]
  · rw [silent]
  · rw [closed, close_authorized]

@[simp] theorem sendCallback_authorized (callback : ClientCallback) (message : Message) :
    (client.sendCallback callback message).authorized = client.authorized := by
  unfold sendCallback
  dsimp only
  split <;> exact send_authorized _ message

@[simp] theorem login_authorized (sent : Handshake) : (client.login sent).authorized = client.authorized := by
  unfold login
  dsimp only
  split
  · rw [sendCallback_authorized, sendCallback_authorized, emit_authorized]
  · rw [send_authorized, emit_authorized]

@[simp] theorem handshake_authorized (sent : Handshake) : (client.handshake sent).authorized = client.authorized := by
  unfold handshake
  split
  · rw [write_authorized]
  · split
    · rw [sendBio_authorized]
    · rw [login_authorized]

@[simp] theorem reconnect_authorized : client.reconnect.authorized = client.authorized := by
  unfold reconnect
  split
  · rfl
  · dsimp only
    split
    · rfl
    · exact setState_authorized _ .reconnecting

@[simp] theorem onResolved_authorized (found : Bool) : (client.onResolved found).authorized = client.authorized := by
  unfold onResolved
  dsimp only
  split
  · rw [reconnect_authorized]
  · split
    · rw [reconnect_authorized]
    · exact setState_authorized _ .connecting

@[simp] theorem resolve_authorized (lookup : Lookup) : (client.resolve lookup).authorized = client.authorized := by
  have started : client.startLookup.authorized = client.authorized := client.setState_authorized .hostLookup
  cases lookup with
  | pending => exact started
  | failed => exact (onResolved_authorized _ false).trans started
  | found => exact (onResolved_authorized _ true).trans started

@[simp] theorem connect_authorized (lookup : Lookup) : (client.connect lookup).authorized = client.authorized := by
  unfold connect
  split
  · rw [resolve_authorized]
  · split
    · rw [resolve_authorized]
    · rw [resolve_authorized]

@[simp] theorem disconnect_authorized : client.disconnect.authorized = client.authorized := close_authorized _

@[simp] theorem deleteLater_authorized : client.deleteLater.authorized = client.authorized := by
  unfold deleteLater
  split
  · rfl
  · dsimp only
    split <;> exact disconnect_authorized _

@[simp] theorem tick_authorized (expired due : Bool) (lookup : Lookup) (transport : Transport) :
    (client.tick expired due lookup transport).authorized = client.authorized := by
  unfold tick ping
  split
  · split
    · exact client.close_authorized
    · split
      · exact client.sendBytes_authorized transport
      · rfl
  · split
    · exact client.connect_authorized lookup
    · split
      · exact client.close_authorized
      · rfl

theorem onConnect_authorized {after : Client} {ok : Bool} {sent : Handshake}
    (connected : client.onConnect ok sent = some after) : after.authorized = client.authorized := by
  obtain rfl | ⟨_, rfl⟩ | ⟨i, _, _, rfl⟩ := onConnect_cases connected
  · rfl
  · exact client.close_authorized
  · rw [handshake_authorized]
    exact client.setState_authorized .connected

theorem read_authorized (i : Nat) {incoming : Incoming}
    (bare : ∀ reply certificate lines sent, incoming = .data reply certificate lines sent → lines = []) :
    (client.read i incoming).authorized = client.authorized := by
  cases incoming with
  | error => exact client.close_authorized
  | data reply certificate lines sent =>
    obtain rfl := bare reply certificate lines sent rfl
    unfold read
    dsimp only
    split
    · exact client.reconnect_authorized
    · split
      · unfold readSocks
        split
        · rfl
        · exact client.close_authorized
        · split
          · rw [write_authorized]
          · rw [handshake_authorized]
      · split
        · unfold readTls
          split
          · exact client.sendBio_authorized sent.write
          · exact client.close_authorized
          · rw [login_authorized]
        · rfl

@[simp] theorem submit_authorized (clientId : Option String) (zeroDiff : Bool) (message : Message) :
    (client.submit clientId zeroDiff message).authorized = client.authorized := by
  unfold submit
  split
  · rfl
  · split
    · exact client.close_authorized
    · exact send_authorized _ message

@[simp] theorem startTimeout_authorized : client.startTimeout.authorized = client.authorized := rfl

@[simp] theorem parseJob_authorized (job : Option Job) : (client.parseJob job).1.authorized = client.authorized := by
  cases job with
  | none => rfl
  | some job =>
    unfold parseJob
    dsimp only
    split
    · rfl
    · split
      · rfl
      · exact close_authorized _

@[simp] theorem parseLogin_authorized (result : LoginResult) :
    (client.parseLogin result).1.authorized = client.authorized := by
  unfold parseLogin
  dsimp only
  split
  · rfl
  · split <;> exact parseJob_authorized _ result.job

@[simp] theorem handleSubmitResponse_authorized (id : Int) :
    (client.handleSubmitResponse id).1.authorized = client.authorized := by
  unfold handleSubmitResponse
  split <;> rfl

theorem callBack_authorized (response : Response) (callback : ClientCallback) (authorized : client.authorized = true) :
    (client.callBack response callback).authorized = true := by
  cases callback with
  | subscribe =>
    simp only [callBack, onSubscribeResponse]
    split
    · rw [send_authorized, authorized]
    · exact authorized
  | authorize =>
    simp only [callBack, onAuthorizeResponse]
    split
    · rw [close_authorized, authorized]
    · exact authorized
  | other => exact authorized

theorem handleResponse_authorized (response : Response) (authorized : client.authorized = true) :
    (client.handleResponse response).1.authorized = true := by
  unfold handleResponse
  split
  · exact authorized
  · split
    · exact client.callBack_authorized response _ authorized
    · split
      · rw [handleSubmitResponse_authorized, authorized]
      · exact authorized

theorem parseNotification_authorized (job : Option Job) (cryptonote : client.eth = false) :
    (client.parseNotification job).authorized = client.authorized := by
  unfold parseNotification
  rw [if_neg (by rw [cryptonote]; decide)]
  dsimp only
  split
  · rw [emit_authorized, parseJob_authorized]
  · rw [close_authorized, parseJob_authorized]

theorem handle_authorized {event : Event} {after : Client} (handled : client.handle event = some after)
    (open_ : ∀ i, event ≠ .onClose i)
    (bare : ∀ i reply certificate lines sent, event = .onRead i (.data reply certificate lines sent) → lines = []) :
    after.authorized = client.authorized := by
  cases event with
  | onClose i => exact absurd rfl (open_ i)
  | onConnect i ok sent =>
    have connected := (client.setSocket i fun socket => { socket with connecting := false }).onConnect_authorized handled
    exact connected
  | onRead i incoming =>
    cases handled
    exact client.read_authorized i fun reply certificate lines sent same => bare i reply certificate lines sent (by rw [same])
  | _ =>
    cases handled
    first
    | rfl
    | simp

theorem setState_state (state : SocketState) : (client.setState state).state = state := by
  unfold setState
  split
  · rename_i same
    exact same
  · cases state <;> rfl

theorem onClose_state (i : Nat) : (client.onClose i).state ≠ .connected := by
  have freed : (client.freeSocket i).state = .unconnected := setState_state _ .unconnected
  unfold onClose reconnect
  split
  · exact fun same => SocketState.noConfusion (freed.symm.trans same)
  · dsimp only
    split
    · exact fun same => SocketState.noConfusion (freed.symm.trans same)
    · exact fun same => SocketState.noConfusion ((setState_state _ .reconnecting).symm.trans same)

end Xmrig.Client
