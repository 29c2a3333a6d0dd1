import Xmrig.Stratum.Client
import Mathlib.Data.List.Basic
import Mathlib.Tactic.Common

/-! The callbacks of the messages that a client waits for.

`send` with a callback registers it under the next sequence number before the
message is sent, and the number is only used up if the message could be sent.
A callback that is already registered under the number stays. The desk keeps
for every entry the call that made it; other messages and other clients take
numbers from the same sequence. Every run of the client is a run of its desk.
-/

set_option autoImplicit false

namespace Xmrig

open Foundation

/-- A call of `send(obj, callback)`: the number it found and whether it returned that number. -/
structure SendCall where
  number : Int
  ok : Bool
  deriving DecidableEq, Repr

structure CallbackDesk where
  eth : Bool := false
  sequence : Int := 1
  /-- `m_callbacks`, by the call that registered the callback. -/
  callbacks : Int → Option Nat := fun _ => none
  sends : List SendCall := []
  /-- The number of the response whose callback has not returned. -/
  running : Option Int := none
  /-- The callbacks that were run, each with the number of the response. -/
  runs : List (Nat × Int) := []

namespace CallbackDesk

inductive Event where
  | sendCallback (ok : Bool)
  | send (ok : Bool)
  | other
  | response (id : Int)
  | returned
  deriving DecidableEq, Repr

/-- `m_callbacks.insert`. -/
def insert (desk : CallbackDesk) : Int → Option Nat :=
  if (desk.callbacks desk.sequence).isSome then desk.callbacks
  else Function.update desk.callbacks desk.sequence (some desk.sends.length)

def sendCallback (desk : CallbackDesk) (ok : Bool) : CallbackDesk :=
  { desk with
    callbacks := desk.insert
    sends := desk.sends ++ [⟨desk.sequence, ok⟩]
    sequence := if ok then desk.sequence + 1 else desk.sequence }

/-- `handleResponse` looks for a callback under this number. -/
def looksUp (desk : CallbackDesk) (id : Int) : Bool := desk.eth || id ≠ 1

/-- A callback is erased when it has returned; it may send messages before. -/
def step (desk : CallbackDesk) : Event → Option CallbackDesk
  | .sendCallback ok => some (desk.sendCallback ok)
  | .send ok => some { desk with sequence := if ok then desk.sequence + 1 else desk.sequence }
  | .other => some { desk with sequence := desk.sequence + 1 }
  | .response id =>
      if desk.running.isSome then none
      else if desk.looksUp id then
        match desk.callbacks id with
        | none => some desk
        | some call => some { desk with running := some id, runs := (call, id) :: desk.runs }
      else some desk
  | .returned => desk.running.map fun id =>
      { desk with callbacks := Function.update desk.callbacks id none, running := none }

/-- Every callback that ran is that of the last call that returned the number. -/
def Matched (desk : CallbackDesk) : Prop :=
  ∀ entry ∈ desk.runs, desk.sends[entry.1]? = some ⟨entry.2, true⟩ ∧
    ∀ later, entry.1 < later → desk.sends[later]? ≠ some ⟨entry.2, true⟩

/-- A response whose number is looked up is not one at which sending with a callback failed. -/
def Unfailed (desk : CallbackDesk) : Event → Prop
  | .response id => desk.looksUp id = true → ⟨id, false⟩ ∉ desk.sends
  | _ => True

instance decidableUnfailed (desk : CallbackDesk) : (event : Event) → Decidable (desk.Unfailed event)
  | .response id => inferInstanceAs (Decidable (desk.looksUp id = true → ⟨id, false⟩ ∉ desk.sends))
  | .sendCallback _ | .send _ | .other | .returned => .isTrue trivial

/-- Entries belong to their numbers, and a failed call leaves an entry of a failed call. -/
structure Inv (desk : CallbackDesk) : Prop where
  below : ∀ call ∈ desk.sends, call.number ≤ desk.sequence
  used : ∀ call ∈ desk.sends, call.ok = true → call.number < desk.sequence
  entry : ∀ id call, desk.callbacks id = some call → ∃ ok, desk.sends[call]? = some ⟨id, ok⟩
  stale : ∀ id, ⟨id, false⟩ ∈ desk.sends →
    ∃ call, desk.callbacks id = some call ∧ desk.sends[call]? = some ⟨id, false⟩
  unique : ∀ (first second : Nat) (id : Int), desk.sends[first]? = some ⟨id, true⟩ →
    desk.sends[second]? = some ⟨id, true⟩ → first = second
  running : ∀ id, desk.running = some id → id < desk.sequence ∧ ⟨id, false⟩ ∉ desk.sends
  matched : desk.Matched

variable {desk : CallbackDesk}

theorem Inv.next_stale (inv : desk.Inv) {call : Nat} (there : desk.callbacks desk.sequence = some call) :
    desk.sends[call]? = some ⟨desk.sequence, false⟩ := by
  obtain ⟨ok, found⟩ := inv.entry desk.sequence call there
  cases ok with
  | false => exact found
  | true =>
    have := inv.used _ (List.mem_of_getElem? found) rfl
    exact absurd this (Int.lt_irrefl _)

theorem insert_of_some {id : Int} {call : Nat} (there : desk.callbacks id = some call) :
    desk.insert id = some call := by
  unfold insert
  split
  · exact there
  · rename_i free
    have apart : id ≠ desk.sequence := by
      rintro rfl
      simp [there] at free
    rw [Function.update_of_ne apart, there]

theorem Inv.insert_entry (inv : desk.Inv) (ok : Bool) {id : Int} {call : Nat}
    (there : desk.insert id = some call) :
    ∃ sent, (desk.sends ++ [⟨desk.sequence, ok⟩])[call]? = some ⟨id, sent⟩ := by
  have older (registered : desk.callbacks id = some call) :
      ∃ sent, (desk.sends ++ [⟨desk.sequence, ok⟩])[call]? = some ⟨id, sent⟩ := by
    obtain ⟨sent, found⟩ := inv.entry id call registered
    refine ⟨sent, ?_⟩
    rw [List.getElem?_append_left (List.getElem?_eq_some_iff.mp found).1, found]
  unfold insert at there
  split at there
  · exact older there
  · by_cases same : id = desk.sequence
    · subst same
      rw [Function.update_self] at there
      cases there
      exact ⟨ok, by simp⟩
    · rw [Function.update_of_ne same] at there
      exact older there

theorem getElem?_concat_cases {sends : List SendCall} {last record : SendCall} {call : Nat}
    (found : (sends ++ [last])[call]? = some record) :
    sends[call]? = some record ∨ call = sends.length ∧ record = last := by
  rcases Nat.lt_trichotomy call sends.length with before | here | behind
  · rw [List.getElem?_append_left before] at found
    exact .inl found
  · rw [here, List.getElem?_concat_length] at found
    exact .inr ⟨here, (Option.some.inj found).symm⟩
  · rw [List.getElem?_eq_none (by simp; omega)] at found
    cases found

theorem getElem?_concat_of_some {sends : List SendCall} {record : SendCall} {call : Nat}
    (last : SendCall) (found : sends[call]? = some record) : (sends ++ [last])[call]? = some record := by
  rw [List.getElem?_append_left (List.getElem?_eq_some_iff.mp found).1, found]

theorem Inv.unused (inv : desk.Inv) {call : Nat} {id : Int}
    (found : desk.sends[call]? = some ⟨id, true⟩) : id ≠ desk.sequence := by
  have := inv.used _ (List.mem_of_getElem? found) rfl
  dsimp only at this
  omega

theorem Inv.sendCallback_matched (inv : desk.Inv) (ok : Bool) : (desk.sendCallback ok).Matched := by
  intro entry ran
  obtain ⟨found, last⟩ := inv.matched entry ran
  refine ⟨getElem?_concat_of_some _ found, fun later after again => ?_⟩
  rcases getElem?_concat_cases again with earlier | ⟨_, same⟩
  · exact last later after earlier
  · exact inv.unused found (congrArg SendCall.number same)

theorem Inv.sendCallback (inv : desk.Inv) (ok : Bool) : (desk.sendCallback ok).Inv := by
  have grows : desk.sequence ≤ (desk.sendCallback ok).sequence := by
    simp only [CallbackDesk.sendCallback]
    split <;> omega
  refine ⟨fun call member => ?_, fun call member sent => ?_, fun id call there => ?_, fun id failed => ?_,
    fun first second id one two => ?_, fun id runs => ?_, inv.sendCallback_matched ok⟩
  · rcases List.mem_append.mp member with earlier | last
    · exact Int.le_trans (inv.below call earlier) grows
    · rw [List.mem_singleton.mp last]
      exact grows
  · rcases List.mem_append.mp member with earlier | last
    · exact Int.lt_of_lt_of_le (inv.used call earlier sent) grows
    · rw [List.mem_singleton.mp last] at sent ⊢
      simp only at sent
      simp only [CallbackDesk.sendCallback, sent, if_true]
      omega
  · exact inv.insert_entry ok there
  · rcases List.mem_append.mp failed with earlier | last
    · obtain ⟨call, there, found⟩ := inv.stale id earlier
      exact ⟨call, insert_of_some there, getElem?_concat_of_some _ found⟩
    · -- the call itself failed: its entry is new, or another failed call has taken the number
      obtain ⟨rfl, rfl⟩ := SendCall.mk.inj (List.mem_singleton.mp last)
      cases there : desk.callbacks desk.sequence with
      | some call =>
        exact ⟨call, insert_of_some there, getElem?_concat_of_some _ (inv.next_stale there)⟩
      | none =>
        refine ⟨desk.sends.length, ?_, List.getElem?_concat_length⟩
        simp [CallbackDesk.sendCallback, insert, there]
  · rcases getElem?_concat_cases one with one | ⟨rfl, here⟩
    · rcases getElem?_concat_cases two with two | ⟨_, there⟩
      · exact inv.unique first second id one two
      · exact absurd (congrArg SendCall.number there) (inv.unused one)
    · rcases getElem?_concat_cases two with two | ⟨rfl, _⟩
      · exact absurd (congrArg SendCall.number here) (inv.unused two)
      · rfl
  · obtain ⟨old, sent⟩ := inv.running id runs
    refine ⟨Int.lt_of_lt_of_le old grows, fun failed => ?_⟩
    rcases List.mem_append.mp failed with earlier | last
    · exact sent earlier
    · have same := congrArg SendCall.number (List.mem_singleton.mp last)
      dsimp only at same
      omega

/-- A number is taken by a message without a callback, or by another client. -/
theorem Inv.advance (inv : desk.Inv) {sequence : Int} (grows : desk.sequence ≤ sequence) :
    { desk with sequence }.Inv where
  below := fun call member => Int.le_trans (inv.below call member) grows
  used := fun call member sent => Int.lt_of_lt_of_le (inv.used call member sent) grows
  entry := inv.entry
  stale := inv.stale
  unique := inv.unique
  running := fun id runs => ⟨Int.lt_of_lt_of_le (inv.running id runs).1 grows, (inv.running id runs).2⟩
  matched := inv.matched

theorem Inv.respond (inv : desk.Inv) {id : Int} {call : Nat} (there : desk.callbacks id = some call)
    (unfailed : ⟨id, false⟩ ∉ desk.sends) :
    { desk with running := some id, runs := (call, id) :: desk.runs }.Inv := by
  obtain ⟨ok, found⟩ := inv.entry id call there
  have sent : ok = true := by
    cases ok with
    | true => rfl
    | false => exact absurd (List.mem_of_getElem? found) unfailed
  subst sent
  refine ⟨inv.below, inv.used, inv.entry, inv.stale, inv.unique, fun other runs => ?_, fun entry ran => ?_⟩
  · cases runs
    exact ⟨inv.used _ (List.mem_of_getElem? found) rfl, unfailed⟩
  · rcases List.mem_cons.mp ran with rfl | earlier
    · refine ⟨found, fun later after again => ?_⟩
      have := inv.unique call later id found again
      omega
    · exact inv.matched entry earlier

theorem Inv.returned (inv : desk.Inv) {id : Int} (runs : desk.running = some id) :
    { desk with callbacks := Function.update desk.callbacks id none, running := none }.Inv := by
  refine ⟨inv.below, inv.used, fun other call there => ?_, fun other failed => ?_, inv.unique, by simp,
    inv.matched⟩
  · by_cases same : other = id
    · subst same
      simp at there
    · simp only [Function.update_of_ne same] at there
      exact inv.entry other call there
  · obtain ⟨call, there, found⟩ := inv.stale other failed
    have apart : other ≠ id := by
      rintro rfl
      exact (inv.running other runs).2 failed
    exact ⟨call, by simp only [Function.update_of_ne apart, there], found⟩

theorem Inv.step {next : CallbackDesk} {event : Event} (inv : desk.Inv) (unfailed : desk.Unfailed event)
    (stepped : desk.step event = some next) : next.Inv := by
  cases event with
  | sendCallback ok =>
    cases stepped
    exact inv.sendCallback ok
  | send ok =>
    cases stepped
    apply inv.advance
    split <;> omega
  | other =>
    cases stepped
    apply inv.advance
    omega
  | response id =>
    simp only [CallbackDesk.step] at stepped
    split at stepped
    · cases stepped
    split at stepped
    case isTrue looksUp =>
      cases there : desk.callbacks id with
      | none =>
        rw [there] at stepped
        cases stepped
        exact inv
      | some call =>
        rw [there] at stepped
        cases stepped
        exact inv.respond there (unfailed looksUp)
    · cases stepped
      exact inv
  | returned =>
    obtain ⟨id, runs, rfl⟩ := Option.map_eq_some_iff.mp stepped
    exact inv.returned runs

theorem Inv.not_matched {next : CallbackDesk} {event : Event} (inv : desk.Inv)
    (failed : ¬desk.Unfailed event) (stepped : desk.step event = some next) : ¬next.Matched := by
  cases event with
  | response id =>
    simp only [Unfailed, Classical.not_imp, not_not] at failed
    obtain ⟨call, there, found⟩ := inv.stale id failed.2
    simp only [CallbackDesk.step, failed.1, if_true, there] at stepped
    split at stepped
    · cases stepped
    cases stepped
    intro matched
    have sent := (matched (call, id) List.mem_cons_self).1
    dsimp only at sent
    rw [found] at sent
    simp at sent
  | _ => exact absurd trivial failed

theorem start_inv (eth : Bool) (sequence : Int) : ({ eth, sequence } : CallbackDesk).Inv := by
  constructor <;> simp [Matched]

/-- Over every run of sends, responses and other clients' messages, every callback that runs is
that of the last call that returned the number of the response if and only if no response comes
under a number at which sending with a callback had failed. -/
theorem callbacks_match_iff (eth : Bool) (sequence : Int) {events : List Event} {final : CallbackDesk}
    (executed : run step { eth, sequence } events = some final) :
    Throughout step Matched { eth, sequence } events ↔ Guarded step Unfailed { eth, sequence } events :=
  throughout_iff_guarded (fun _ inv => inv.matched)
    (fun _ _ _ inv unfailed stepped => Inv.step inv unfailed stepped)
    (fun _ _ _ inv failed stepped => Inv.not_matched inv failed stepped) (start_inv eth sequence) executed

/-- A login, its two answers, and a third message of another client in between. -/
def plainLogin : List Event :=
  [.sendCallback true, .sendCallback true, .other, .response 2, .returned, .response 1, .send true, .returned]

theorem plainLogin_runs : (run step { eth := true } plainLogin).isSome = true := by
  decide

theorem callbacks_match_plainLogin : Throughout step Matched { eth := true } plainLogin := by
  obtain ⟨final, executed⟩ := Option.isSome_iff_exists.mp plainLogin_runs
  exact (callbacks_match_iff true 1 executed).mpr (by decide)

/-- The authorization of a first login cannot be sent; after the reconnection its number is that of
the second subscription. -/
def failedAuthorize : List Event :=
  [.sendCallback true, .sendCallback false, .sendCallback true, .sendCallback true, .response 2]

/-- The answer to the second subscription runs the callback of the authorization that failed. -/
theorem failedAuthorize_mismatched :
    (run step { eth := true } failedAuthorize).map (fun desk => (desk.sends, desk.runs)) =
      some ([⟨1, true⟩, ⟨2, false⟩, ⟨2, true⟩, ⟨3, true⟩], [(1, 2)]) ∧
    ¬Throughout step Matched { eth := true } failedAuthorize := by
  refine ⟨by decide, fun matched => ?_⟩
  have ran : (run step { eth := true } failedAuthorize).map (fun desk => (desk.sends[1]?, desk.runs)) =
      some (some ⟨2, false⟩, [(1, 2)]) := by
    decide
  obtain ⟨final, executed, result⟩ := Option.map_eq_some_iff.mp ran
  obtain ⟨failed, runs⟩ := Prod.mk.inj result
  have sent := (throughout_last matched executed (1, 2) (by simp [runs])).1
  simp [failed] at sent

end CallbackDesk

namespace Client

def callbackView (client : Client) : Bool × Int × (Int → Option ClientCallback) :=
  (client.eth, client.sequence, client.callbacks)

/-! The functions that neither send nor look up. -/

theorem setState_view (client : Client) (state : SocketState) :
    (client.setState state).callbackView = client.callbackView := by
  unfold setState
  split
  · rfl
  · cases state <;> rfl

theorem close_view (client : Client) : client.close.callbackView = client.callbackView := by
  unfold close
  split
  · rfl
  · split
    · rfl
    · exact client.setState_view .closing

theorem write_view (client : Client) (transport : Transport) :
    (client.write transport).callbackView = client.callbackView := by
  unfold write
  split
  · exact client.close_view
  · rfl

theorem sendBio_view (client : Client) (transport : Transport) :
    (client.sendBio transport).1.callbackView = client.callbackView := by
  obtain sent | silent | ⟨_, closed⟩ := client.sendBio_cases transport
  · rw [sent]
  · rw [silent]
  · rw [closed, close_view]

theorem reconnect_view (client : Client) : client.reconnect.callbackView = client.callbackView := by
  unfold reconnect
  split
  · rfl
  · dsimp only
    split
    · rfl
    · exact setState_view _ .reconnecting

theorem onResolved_view (client : Client) (found : Bool) :
    (client.onResolved found).callbackView = client.callbackView := by
  unfold onResolved
  dsimp only
  split
  · exact reconnect_view _
  · split
    · exact reconnect_view _
    · exact setState_view _ .connecting

theorem resolve_view (client : Client) (lookup : Lookup) :
    (client.resolve lookup).callbackView = client.callbackView := by
  have started : client.startLookup.callbackView = client.callbackView := client.setState_view .hostLookup
  cases lookup with
  | pending => exact started
  | failed => exact (onResolved_view _ false).trans started
  | found => exact (onResolved_view _ true).trans started

theorem connect_view (client : Client) (lookup : Lookup) :
    (client.connect lookup).callbackView = client.callbackView := by
  unfold connect
  split
  · exact resolve_view _ lookup
  · split
    · exact resolve_view _ lookup
    · exact resolve_view _ lookup

theorem disconnect_view (client : Client) : client.disconnect.callbackView = client.callbackView :=
  close_view _

theorem deleteLater_view (client : Client) : client.deleteLater.callbackView = client.callbackView := by
  unfold deleteLater
  split
  · rfl
  · dsimp only
    split
    · exact disconnect_view _
    · exact disconnect_view _

theorem onClose_view (client : Client) (i : Nat) : (client.onClose i).callbackView = client.callbackView :=
  (reconnect_view _).trans (setState_view _ .unconnected)

theorem parseJob_view (client : Client) (job : Option Job) :
    (client.parseJob job).1.callbackView = client.callbackView := by
  cases job with
  | none => rfl
  | some job =>
    unfold parseJob
    dsimp only
    split
    · rfl
    · split
      · rfl
      · exact close_view _

theorem parseLogin_view (client : Client) (result : LoginResult) :
    (client.parseLogin result).1.callbackView = client.callbackView := by
  unfold parseLogin
  dsimp only
  split
  · rfl
  · split
    · exact parseJob_view _ result.job
    · exact parseJob_view _ result.job

theorem handleSubmitResponse_view (client : Client) (id : Int) :
    (client.handleSubmitResponse id).1.callbackView = client.callbackView := by
  unfold handleSubmitResponse
  cases client.results id <;> rfl

theorem parseNotification_view (client : Client) (job : Option Job) :
    (client.parseNotification job).callbackView = client.callbackView := by
  unfold parseNotification
  split
  · cases job with
    | none => exact client.close_view
    | some job =>
      dsimp only
      split
      · exact client.close_view
      · split
        · rfl
        · rfl
  · dsimp only
    have parsed := client.parseJob_view job
    split
    · exact parsed
    · exact (close_view _).trans parsed

/-! The client and its desk. -/

/-- The desk has the client's sequence number and the same callbacks registered. -/
structure Mirrors (client : Client) (desk : CallbackDesk) : Prop where
  eth : desk.eth = client.eth
  sequence : desk.sequence = client.sequence
  registered : ∀ id, (desk.callbacks id).isSome = (client.callbacks id).isSome

/-- The desk can follow the client, inside of the callback to a response or outside of any. -/
def Follows (running : Option Int) (client after : Client) : Prop :=
  ∀ desk, Mirrors client desk → desk.running = running →
    ∃ events followed, run CallbackDesk.step desk events = some followed ∧ Mirrors after followed ∧
      followed.running = running

variable {running : Option Int} {client after last : Client}

theorem Follows.of_view (same : after.callbackView = client.callbackView) : Follows running client after := by
  obtain ⟨eth, same⟩ := Prod.mk.inj same
  obtain ⟨sequence, callbacks⟩ := Prod.mk.inj same
  intro desk mirrors runs
  refine ⟨[], desk, rfl, ⟨?_, ?_, ?_⟩, runs⟩
  · rw [eth, mirrors.eth]
  · rw [sequence, mirrors.sequence]
  · rw [callbacks]
    exact mirrors.registered

theorem Follows.trans (first : Follows running client after) (second : Follows running after last) :
    Follows running client last := by
  intro desk mirrors runs
  obtain ⟨events, middle, executed, mirrored, kept⟩ := first desk mirrors runs
  obtain ⟨more, final, continued, reached, still⟩ := second middle mirrored kept
  refine ⟨events ++ more, final, ?_, reached, still⟩
  rw [run_append, executed]
  exact continued

theorem Follows.behind (second : Follows running after last)
    (same : after.callbackView = client.callbackView) : Follows running client last :=
  (Follows.of_view same).trans second

theorem sendBytes_follows (client : Client) (transport : Transport) :
    Follows running client (client.sendBytes transport).1 := by
  obtain sent | silent | ⟨_, closed⟩ := client.sendBytes_cases transport
  · rw [sent]
    intro desk mirrors runs
    refine ⟨[.send true], _, rfl, ⟨mirrors.eth, ?_, mirrors.registered⟩, runs⟩
    simp only [if_true, mirrors.sequence]
  · rw [silent]
    exact .of_view rfl
  · rw [closed]
    exact .of_view client.close_view

theorem send_follows (client : Client) (message : Message) :
    Follows running client (client.send message).1 := by
  unfold send
  split
  · exact .of_view client.close_view
  · exact client.sendBytes_follows message.transport

theorem Mirrors.insert {desk : CallbackDesk} (mirrors : Mirrors client desk) (callback : ClientCallback)
    (id : Int) : (desk.insert id).isSome =
      ((if (client.callbacks client.sequence).isSome then client.callbacks
        else Function.update client.callbacks client.sequence (some callback)) id).isSome := by
  have here := mirrors.registered client.sequence
  unfold CallbackDesk.insert
  rw [mirrors.sequence, here]
  split
  · exact mirrors.registered id
  · by_cases same : id = client.sequence
    · subst same
      rw [Function.update_self, Function.update_self]
      rfl
    · rw [Function.update_of_ne same, Function.update_of_ne same]
      exact mirrors.registered id

theorem sendCallback_follows (client : Client) (callback : ClientCallback) (message : Message) :
    Follows running client (client.sendCallback callback message) := by
  intro desk mirrors runs
  have inserted := mirrors.insert callback
  unfold sendCallback
  dsimp only
  generalize (if (client.callbacks client.sequence).isSome then client.callbacks
    else Function.update client.callbacks client.sequence (some callback)) = callbacks at inserted ⊢
  have failed (other : Client) (same : other.callbackView = { client with callbacks }.callbackView) :
      Mirrors other (desk.sendCallback false) := by
    obtain ⟨eth, same⟩ := Prod.mk.inj same
    obtain ⟨sequence, table⟩ := Prod.mk.inj same
    refine ⟨?_, ?_, fun id => ?_⟩
    · rw [eth]
      exact mirrors.eth
    · rw [sequence]
      exact mirrors.sequence
    · rw [table]
      exact inserted id
  obtain sent | silent | closed := Client.send_cases { client with callbacks } message
  · rw [sent]
    refine ⟨[.sendCallback true], _, rfl, ⟨mirrors.eth, ?_, inserted⟩, runs⟩
    simp only [CallbackDesk.sendCallback, if_true, mirrors.sequence]
  · rw [silent]
    exact ⟨[.sendCallback false], _, rfl, failed _ rfl, runs⟩
  · rw [closed]
    exact ⟨[.sendCallback false], _, rfl, failed _ (close_view _), runs⟩

theorem login_follows (client : Client) (sent : Handshake) : Follows running client (client.login sent) := by
  unfold login
  dsimp only
  split
  · exact ((sendCallback_follows _ .subscribe sent.first).trans
      (sendCallback_follows _ .authorize sent.second)).behind rfl
  · exact (send_follows _ sent.first).behind rfl

theorem handshake_follows (client : Client) (sent : Handshake) :
    Follows running client (client.handshake sent) := by
  unfold handshake
  split
  · exact .of_view (write_view _ sent.write)
  · split
    · exact .of_view (sendBio_view _ sent.write)
    · exact client.login_follows sent

theorem callBack_follows (client : Client) (response : Response) (callback : ClientCallback) :
    Follows running client (client.callBack response callback) := by
  cases callback with
  | subscribe =>
    simp only [callBack, onSubscribeResponse]
    split
    · exact client.send_follows response.subscription
    · exact .of_view rfl
  | authorize =>
    simp only [callBack, onAuthorizeResponse]
    split
    · exact .of_view client.close_view
    · split
      · exact .of_view rfl
      · exact .of_view rfl
  | other => exact .of_view rfl

theorem handleResponse_follows (client : Client) (response : Response) :
    Follows none client (client.handleResponse response).1 := by
  unfold handleResponse
  split
  · exact .of_view rfl
  rename_i looked
  cases there : client.callbacks response.id with
  | none =>
    dsimp only
    split
    · exact .of_view (client.handleSubmitResponse_view response.id)
    · exact .of_view rfl
  | some callback =>
    intro desk mirrors runs
    obtain ⟨call, registered⟩ : ∃ call, desk.callbacks response.id = some call := by
      rw [← Option.isSome_iff_exists, mirrors.registered, there]
      rfl
    have looksUp : desk.looksUp response.id = true := by
      simp only [CallbackDesk.looksUp, mirrors.eth, Bool.or_eq_true, decide_eq_true_eq]
      by_cases eth : client.eth = true
      · exact .inl eth
      · exact .inr fun first => looked ⟨by simpa using eth, first⟩
    have responded : desk.step (.response response.id) = some
        { desk with running := some response.id, runs := (call, response.id) :: desk.runs } := by
      simp [CallbackDesk.step, runs, looksUp, registered]
    obtain ⟨events, called, executed, mirrored, still⟩ := client.callBack_follows response callback
      { desk with running := some response.id, runs := (call, response.id) :: desk.runs }
      ⟨mirrors.eth, mirrors.sequence, mirrors.registered⟩ rfl
    refine ⟨.response response.id :: (events ++ [.returned]),
      { called with callbacks := Function.update called.callbacks response.id none, running := none },
      ?_, ⟨mirrored.eth, mirrored.sequence, fun id => ?_⟩, rfl⟩
    · refine run_cons_iff.mpr ⟨_, responded, ?_⟩
      rw [run_append, executed]
      simp only [Option.bind_some, run, CallbackDesk.step, still, Option.map_some]
    · by_cases same : id = response.id
      · subst same
        simp only [Function.update_self, Option.isSome_none]
      · simp only [Function.update_of_ne same]
        exact mirrored.registered id

theorem parseResponse_follows (client : Client) (response : Response) :
    Follows none client (client.parseResponse response) := by
  have handled := client.handleResponse_follows response
  unfold parseResponse
  dsimp only
  split
  · exact handled
  · apply handled.trans
    cases response.error with
    | some critical =>
      have answered := (client.handleResponse response).1.handleSubmitResponse_view response.id
      dsimp only
      split
      · exact .of_view ((close_view _).trans answered)
      · exact .of_view answered
    | none =>
      cases response.result with
      | none => exact .of_view rfl
      | some result =>
        have parsed := (client.handleResponse response).1.parseLogin_view result
        dsimp only
        split
        · split
          · exact .of_view ((close_view _).trans parsed)
          · split
            · exact .of_view parsed
            · exact .of_view parsed
        · exact .of_view (handleSubmitResponse_view _ response.id)

theorem parse_follows (client : Client) (line : Line) : Follows none client (client.parse line) := by
  have started : client.startTimeout.callbackView = client.callbackView := rfl
  refine Follows.behind ?_ started
  cases line with
  | other => exact .of_view rfl
  | reconnect tls => exact .of_view (reconnect_view _)
  | response response => exact client.startTimeout.parseResponse_follows response
  | job job => exact .of_view (client.startTimeout.parseNotification_view job)

theorem lines_follows (client : Client) (lines : List Line) : Follows none client (lines.foldl parse client) := by
  induction lines generalizing client with
  | nil => exact .of_view rfl
  | cons line rest ih => exact (client.parse_follows line).trans (ih _)

theorem readSocks_follows (client : Client) (socks : SocksState) (reply : Option Bool) (sent : Handshake) :
    Follows running client (client.readSocks socks reply sent) := by
  unfold readSocks
  split
  · exact .of_view rfl
  · exact .of_view client.close_view
  · split
    · exact .of_view (write_view _ sent.write)
    · exact (handshake_follows _ sent).behind rfl

theorem readTls_follows (client : Client) (certificate : Option Bool) (sent : Handshake) :
    Follows running client (client.readTls certificate sent) := by
  unfold readTls
  split
  · exact .of_view (client.sendBio_view sent.write)
  · exact .of_view client.close_view
  · exact (login_follows _ sent).behind rfl

theorem read_follows (client : Client) (i : Nat) (incoming : Incoming) :
    Follows none client (client.read i incoming) := by
  cases incoming with
  | error => exact .of_view client.close_view
  | data reply certificate lines sent =>
    unfold read
    dsimp only
    split
    · exact .of_view client.reconnect_view
    · split
      · exact client.readSocks_follows _ reply sent
      · split
        · exact client.readTls_follows certificate sent
        · exact (lines_follows _ lines).behind rfl

theorem tick_follows (client : Client) (expired due : Bool) (lookup : Lookup) (transport : Transport) :
    Follows running client (client.tick expired due lookup transport) := by
  unfold tick
  split
  · split
    · exact .of_view client.close_view
    · split
      · exact (client.sendBytes_follows transport).trans (.of_view rfl)
      · exact .of_view rfl
  · split
    · exact .of_view (client.connect_view lookup)
    · split
      · exact .of_view client.close_view
      · exact .of_view rfl

theorem submit_follows (client : Client) (clientId : Option String) (zeroDiff : Bool) (message : Message) :
    Follows running client (client.submit clientId zeroDiff message) := by
  unfold submit
  split
  · exact .of_view rfl
  · split
    · exact .of_view client.close_view
    · have sent : Follows running client (client.writeDown.send message).1 :=
        (client.writeDown.send_follows message).behind rfl
      exact sent.trans (.of_view rfl)

theorem handle_follows {event : Event} (handled : client.handle event = some after) :
    Follows none client after := by
  cases event with
  | connect lookup => cases handled; exact .of_view (client.connect_view lookup)
  | disconnect => cases handled; exact .of_view client.disconnect_view
  | deleteLater => cases handled; exact .of_view client.deleteLater_view
  | tick expired due lookup transport =>
    cases handled
    exact client.tick_follows expired due lookup transport
  | onResolved found => cases handled; exact .of_view (client.onResolved_view found)
  | onConnect i ok sent =>
    obtain rfl | ⟨_, rfl⟩ | ⟨j, _, _, rfl⟩ := onConnect_cases handled
    · exact .of_view rfl
    · exact .of_view (close_view _)
    · apply (handshake_follows _ sent).behind
      exact setState_view _ .connected
  | onRead i incoming => cases handled; exact client.read_follows i incoming
  | onClose i => cases handled; exact .of_view (onClose_view _ i)
  | submit clientId zeroDiff message => cases handled; exact client.submit_follows clientId zeroDiff message
  | sendCallback message => cases handled; exact client.sendCallback_follows .other message
  | sequence =>
    cases handled
    intro desk mirrors runs
    refine ⟨[.other], _, rfl, ⟨mirrors.eth, ?_, mirrors.registered⟩, runs⟩
    exact congrArg (· + 1) mirrors.sequence

/-- For every run of the client there is a run of its desk that ends with the same sequence number
and the same callbacks registered. -/
theorem run_followed {events : List Event} {final : Client} (eth proxy tls nicehash keepalive : Bool) (sequence : Nat)
    (executed : run step (start eth proxy tls nicehash keepalive sequence) events = some final) :
    ∃ deskEvents desk, run CallbackDesk.step { eth, sequence := sequence + 1 } deskEvents = some desk ∧
      Mirrors final desk := by
  have followed : Follows none (start eth proxy tls nicehash keepalive sequence) final := by
    refine run_keeps (P := Follows none (start eth proxy tls nicehash keepalive sequence)) ?_ (.of_view rfl) executed
    intro client event next reached stepped
    apply reached.trans
    unfold step at stepped
    split at stepped
    · cases stepped
      exact .of_view rfl
    split at stepped
    · exact handle_follows stepped
    · cases stepped
  obtain ⟨deskEvents, desk, run, mirrors, _⟩ :=
    followed { eth, sequence := sequence + 1 } ⟨rfl, rfl, fun _ => rfl⟩ rfl
  exact ⟨deskEvents, desk, run, mirrors⟩

end Client

end Xmrig
