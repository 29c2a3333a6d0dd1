import Xmrig.Base.Names
import Xmrig.Stratum.Client

/-! Error responses of a pool, by the position of the pool and the message.

`login` always asks under the same number. Responses that a callback waits for are
not looked at here; only the client for Ethereum registers callbacks for its login.
-/

set_option autoImplicit false

namespace Xmrig.Client

/-- The number of the request that `login` creates. -/
def loginId : Int := 1

/-- `strncasecmp` finds no difference. -/
def samePrefix (first second : List Byte) (size : Nat) : Bool := sameName (first.take size) (second.take size)

def isCriticalError (message : Option (List Byte)) : Bool :=
  match message with
  | none => false
  | some chars =>
    samePrefix chars (text "Unauthenticated") 15 || samePrefix chars (text "your IP is banned") 17 ||
      samePrefix chars (text "IP Address currently banned") 27 || samePrefix chars (text "Invalid job id") 14

/-- `parseResponse` of an error object; `index` is `m_id`. -/
def parseError (client : Client) (index id : Int) (message : Option (List Byte)) : Client :=
  client.parseResponse { id, error := some (index = 1 || isCriticalError message), errored := true }

/-- A client whose login has no callbacks. -/
structure Plain (client : Client) : Prop where
  stratum : client.eth = false
  callbacks : ∀ id callback, client.callbacks id = some callback → callback = .other

/-- A client that reads from its socket. -/
structure Reading (client : Client) : Prop where
  state : client.state = .connected
  socket : client.socket.isSome

def awaited (client : Client) (id : Int) : Bool := id ≠ loginId && (client.callbacks id).isSome

/-- Where the client closes as its pool's error calls for: the position decides as the login does. -/
def ErrorAgrees (client : Client) (index id : Int) (message : Option (List Byte)) : Prop :=
  if client.awaited id then isCriticalError message = false
  else isCriticalError message = true ∨ (index = 1 ↔ id = loginId)

variable {client : Client} {index id : Int} {message : Option (List Byte)}

theorem Reading.close (reading : client.Reading) : client.close.state = .closing := by
  obtain ⟨i, here⟩ := Option.isSome_iff_exists.mp reading.socket
  have connected := reading.state
  simp only [Client.close, connected, here, setState]
  rfl

theorem Reading.handleSubmitResponse (reading : client.Reading) (id : Int) :
    (client.handleSubmitResponse id).1.Reading := by
  unfold Client.handleSubmitResponse
  split
  · exact reading
  · exact ⟨reading.state, reading.socket⟩

theorem Plain.handleResponse (plain : client.Plain) (response : Response) :
    (client.handleResponse response).2 = client.awaited response.id ∧
      (client.handleResponse response).1.state = client.state ∧
      (client.awaited response.id = false → (client.handleResponse response).1 = client) := by
  have stratum := plain.stratum
  unfold Client.handleResponse awaited loginId
  by_cases login : response.id = 1
  · simp [stratum, login]
  · cases waiting : client.callbacks response.id with
    | none => simp [stratum, login]
    | some callback =>
      have other := plain.callbacks _ _ waiting
      subst other
      simp [stratum, login, callBack]

theorem parseError_eq (handled : (client.handleResponse
      { id, error := some (index = 1 || isCriticalError message), errored := true }).2 = false)
    (same : (client.handleResponse
      { id, error := some (index = 1 || isCriticalError message), errored := true }).1 = client) :
    client.parseError index id message =
      if index = 1 || isCriticalError message then (client.handleSubmitResponse id).1.close
      else (client.handleSubmitResponse id).1 := by
  simp only [parseError, parseResponse, handled, same]
  rfl

theorem parseError_closing (plain : client.Plain) (reading : client.Reading) :
    (client.parseError index id message).state = .closing ↔
      client.awaited id = false ∧ (index = 1 ∨ isCriticalError message = true) := by
  obtain ⟨handled, state, same⟩ :=
    plain.handleResponse { id, error := some (index = 1 || isCriticalError message), errored := true }
  cases awaits : client.awaited id with
  | true =>
    have kept : (client.parseError index id message).state = .connected := by
      simp only [parseError, parseResponse, handled, awaits, if_true, state, reading.state]
    rw [kept]
    simp
  | false =>
    have after := reading.handleSubmitResponse id
    rw [parseError_eq (handled.trans awaits) (same awaits)]
    by_cases closes : (index = 1 || isCriticalError message) = true
    · rw [if_pos closes]
      exact iff_of_true after.close ⟨rfl, by simpa using closes⟩
    · rw [if_neg closes, after.state]
      exact iff_of_false (by simp) (fun both => closes (by simpa using both.2))

/-- An error closes the connection exactly if it answers the login or is critical, exactly
where the position of the pool agrees with that. -/
theorem parseError_closes_iff (plain : client.Plain) (reading : client.Reading) :
    ((client.parseError index id message).state = .closing ↔ id = loginId ∨ isCriticalError message = true) ↔
      client.ErrorAgrees index id message := by
  rw [parseError_closing plain reading, ErrorAgrees]
  cases awaits : client.awaited id with
  | true =>
    have other : id ≠ loginId := by
      intro login
      simp [awaited, login] at awaits
    simp [other]
  | false =>
    simp only [true_and, Bool.false_eq_true, if_false]
    tauto

def connectedClient : Client := { state := .connected, socket := some 0 }

theorem parseError_closes_connected :
    (connectedClient.parseError 1 1 none).state = .closing ↔ (1 = loginId ∨ isCriticalError none = true) :=
  (parseError_closes_iff ⟨rfl, by simp [connectedClient]⟩ ⟨rfl, rfl⟩).mpr (.inr (by decide))

/-- The first pool of a list refuses a login, and the second one a share. -/
theorem parseError_by_position :
    (connectedClient.parseError 0 1 (some (text "Invalid address"))).state = .connected ∧
      (connectedClient.parseError 1 7 (some (text "Low difficulty share"))).state = .closing ∧
      isCriticalError (some (text "Low difficulty share")) = false := by
  decide

end Xmrig.Client
