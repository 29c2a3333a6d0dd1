import Xmrig.Stratum.ClientDisconnect

/-! The accounting of shares by the stratum client.

A share is written down under the next sequence number before it is sent, and the number is only
used up if the share could be sent. A share that could not be sent is harmless if the connection
is closed for it: no line is parsed any more until the next login, which forgets all shares.
-/

set_option autoImplicit false

namespace Xmrig.Client

open Foundation

variable {client after : Client}

/-- A report to the listener: the call of `submit`, the number of the answer and the session. -/
def report : ClientOutput → Option (Nat × Int × Nat)
  | .onResultAccepted call id session => some (call, id, session)
  | _ => none

structure Ledger where
  results : Int → Option Nat
  calls : List SubmitCall
  sessions : Nat
  reports : List (Nat × Int × Nat)

def ledger (client : Client) : Ledger :=
  ⟨client.results, client.calls, client.sessions, client.log.filterMap report⟩

def prelogin (client : Client) : Bool := client.socks5.isSome || (client.poolTls && client.tls = some false)

def desk (client : Client) : Ledger × Bool := (client.ledger, client.prelogin)

/-- Every entry is of a call in this session that was not reported, and every report is of a call that
returned its number. -/
structure Books (ledger : Ledger) : Prop where
  listed : ∀ id call, ledger.results id = some call → ∃ record, ledger.calls[call]? = some record ∧
    record.session = ledger.sessions ∧ (record.returned = some id ∨ record.returned = none)
  unique : ∀ id other call, ledger.results id = some call → ledger.results other = some call → id = other
  unreported : ∀ id call, ledger.results id = some call → call ∉ ledger.reports.map Prod.fst
  reported : ∀ entry ∈ ledger.reports, ∃ record, ledger.calls[entry.1]? = some record ∧
    record.returned = some entry.2.1 ∧ record.session = entry.2.2
  once : (ledger.reports.map Prod.fst).Nodup

/-- Every entry is of a share that was sent. -/
def Clean (ledger : Ledger) : Prop :=
  ∀ id call record, ledger.results id = some call → ledger.calls[call]? = some record → record.returned = some id

inductive Answered : Ledger → Ledger → Prop where
  | refl (ledger : Ledger) : Answered ledger ledger
  | answer {first last : Ledger} {id : Int} {call : Nat} : first.results id = some call →
      Answered { first with
        results := Function.update first.results id none
        reports := (call, id, first.sessions) :: first.reports } last →
      Answered first last

theorem Answered.trans {first second third : Ledger} (one : Answered first second) (two : Answered second third) :
    Answered first third := by
  induction one with
  | refl ledger => exact two
  | answer here _ ih => exact .answer here (ih two)

theorem Answered.of_eq {first second : Ledger} (same : second = first) : Answered first second :=
  same ▸ .refl first

theorem update_none {results : Int → Option Nat} {id other : Int} {call : Nat}
    (left : Function.update results id none other = some call) : other ≠ id ∧ results other = some call := by
  by_cases same : other = id
  · subst same
    rw [Function.update_self] at left
    cases left
  · rw [Function.update_of_ne same] at left
    exact ⟨same, left⟩

theorem update_some {results : Int → Option Nat} {id other : Int} {call new : Nat}
    (there : Function.update results id (some new) other = some call) :
    (other = id ∧ call = new) ∨ results other = some call := by
  by_cases same : other = id
  · subst same
    rw [Function.update_self] at there
    exact .inl ⟨rfl, (Option.some.inj there).symm⟩
  · rw [Function.update_of_ne same] at there
    exact .inr there

theorem Books.answered {first last : Ledger} (books : Books first) (clean : Clean first)
    (answered : Answered first last) : Books last ∧ Clean last := by
  induction answered with
  | refl ledger => exact ⟨books, clean⟩
  | @answer first last id call here _ ih =>
    obtain ⟨record, listed, session, _⟩ := books.listed id call here
    have returned := clean id call record here listed
    refine ih ⟨?_, ?_, ?_, ?_, ?_⟩ ?_
    · exact fun other call' left => books.listed other call' (update_none left).2
    · exact fun one two call' first second =>
        books.unique one two call' (update_none first).2 (update_none second).2
    · intro other call' left member
      obtain ⟨different, there⟩ := update_none left
      rcases List.mem_cons.mp member with same | earlier
      · dsimp only at same
        subst same
        exact different (books.unique other id call' there here)
      · exact books.unreported other call' there earlier
    · intro entry member
      rcases List.mem_cons.mp member with same | earlier
      · subst same
        exact ⟨record, listed, returned, session⟩
      · exact books.reported entry earlier
    · exact List.nodup_cons.mpr ⟨books.unreported id call here, books.once⟩
    · exact fun other call' record' left => clean other call' record' (update_none left).2

theorem Books.forget {ledger : Ledger} (books : Books ledger) (sessions : Nat) :
    Books { ledger with results := fun _ => none, sessions } ∧
      Clean { ledger with results := fun _ => none, sessions } :=
  ⟨⟨nofun, nofun, nofun, books.reported, books.once⟩, nofun⟩

theorem getElem?_append_some {records : List SubmitCall} {record : SubmitCall} {call : Nat} (more : List SubmitCall)
    (here : records[call]? = some record) : (records ++ more)[call]? = some record := by
  rw [List.getElem?_append_left (List.getElem?_eq_some_iff.mp here).1]
  exact here

theorem Books.refuse {ledger : Ledger} (books : Books ledger) (record : SubmitCall) :
    Books { ledger with calls := ledger.calls ++ [record] } := by
  refine ⟨fun id call here => ?_, books.unique, books.unreported, fun entry member => ?_, books.once⟩
  · obtain ⟨earlier, listed, rest⟩ := books.listed id call here
    exact ⟨earlier, getElem?_append_some _ listed, rest⟩
  · obtain ⟨earlier, listed, rest⟩ := books.reported entry member
    exact ⟨earlier, getElem?_append_some _ listed, rest⟩

theorem Clean.refuse {ledger : Ledger} (books : Books ledger) (clean : Clean ledger) (record : SubmitCall) :
    Clean { ledger with calls := ledger.calls ++ [record] } := by
  intro id call other here listed
  obtain ⟨earlier, before, _⟩ := books.listed id call here
  have same : earlier = other := Option.some.inj ((getElem?_append_some [record] before).symm.trans listed)
  exact same ▸ clean id call earlier here before

theorem Books.fresh {ledger : Ledger} (books : Books ledger) {id : Int} {call : Nat}
    (here : ledger.results id = some call) : call < ledger.calls.length := by
  obtain ⟨record, listed, _⟩ := books.listed id call here
  exact (List.getElem?_eq_some_iff.mp listed).1

theorem Books.submit {ledger : Ledger} (books : Books ledger) (id : Int) (returned : Option Int)
    (fits : returned = some id ∨ returned = none) :
    Books { ledger with
      results := Function.update ledger.results id (some ledger.calls.length)
      calls := ledger.calls ++ [⟨ledger.sessions, returned⟩] } := by
  have listed := books.refuse ⟨ledger.sessions, returned⟩
  have last : (ledger.calls ++ [(⟨ledger.sessions, returned⟩ : SubmitCall)])[ledger.calls.length]? =
      some ⟨ledger.sessions, returned⟩ := by
    simp
  refine ⟨fun other call here => ?_, fun one two call first second => ?_, fun other call here => ?_,
    listed.reported, books.once⟩
  · rcases update_some here with ⟨rfl, rfl⟩ | there
    · exact ⟨_, last, rfl, fits⟩
    · exact listed.listed other call there
  · rcases update_some first with ⟨rfl, rfl⟩ | old
    · rcases update_some second with ⟨rfl, _⟩ | old'
      · rfl
      · exact absurd (books.fresh old') (Nat.lt_irrefl _)
    · rcases update_some second with ⟨rfl, rfl⟩ | old'
      · exact absurd (books.fresh old) (Nat.lt_irrefl _)
      · exact books.unique one two call old old'
  · rcases update_some here with ⟨rfl, rfl⟩ | there
    · intro member
      obtain ⟨entry, reported, number⟩ := List.mem_map.mp member
      obtain ⟨record, before, _⟩ := books.reported entry reported
      rw [number] at before
      exact absurd (List.getElem?_eq_some_iff.mp before).1 (Nat.lt_irrefl _)
    · exact books.unreported other call there

theorem Clean.submit {ledger : Ledger} (books : Books ledger) (clean : Clean ledger) (id : Int) :
    Clean { ledger with
      results := Function.update ledger.results id (some ledger.calls.length)
      calls := ledger.calls ++ [⟨ledger.sessions, some id⟩] } := by
  intro other call record here listed
  rcases update_some here with ⟨rfl, rfl⟩ | there
  · simp only [List.getElem?_concat_length, Option.some.injEq] at listed
    rw [← listed]
  · exact Clean.refuse books clean ⟨ledger.sessions, some id⟩ other call record there listed

/-! The functions that report nothing. -/

@[simp] theorem setState_desk (client : Client) (state : SocketState) : (client.setState state).desk = client.desk := by
  unfold setState
  split
  · rfl
  · cases state <;> rfl

@[simp] theorem close_desk (client : Client) : client.close.desk = client.desk := by
  unfold close
  split
  · rfl
  · split
    · rfl
    · exact client.setState_desk .closing

theorem send_desk (client : Client) (message : Message) : (client.send message).1.desk = client.desk := by
  obtain sent | silent | closed := client.send_cases message
  · rw [sent]
    rfl
  · rw [silent]
  · rw [closed, close_desk]

theorem sendBytes_desk (client : Client) (transport : Transport) :
    (client.sendBytes transport).1.desk = client.desk := by
  obtain sent | silent | ⟨_, closed⟩ := client.sendBytes_cases transport
  · rw [sent]
    rfl
  · rw [silent]
  · rw [closed, close_desk]

theorem sendBio_desk (client : Client) (transport : Transport) : (client.sendBio transport).1.desk = client.desk := by
  obtain sent | silent | ⟨_, closed⟩ := client.sendBio_cases transport
  · rw [sent]
  · rw [silent]
  · rw [closed, close_desk]

theorem write_desk (client : Client) (transport : Transport) : (client.write transport).desk = client.desk := by
  unfold write
  split
  · exact client.close_desk
  · rfl

theorem sendCallback_desk (client : Client) (callback : ClientCallback) (message : Message) :
    (client.sendCallback callback message).desk = client.desk :=
  send_desk _ message

theorem reconnect_desk (client : Client) : client.reconnect.desk = client.desk := by
  unfold reconnect
  split
  · rfl
  · dsimp only
    split
    · rfl
    · exact setState_desk _ .reconnecting

theorem disconnect_desk (client : Client) : client.disconnect.desk = client.desk := close_desk _

theorem deleteLater_desk (client : Client) : client.deleteLater.desk = client.desk := by
  unfold deleteLater
  split
  · rfl
  · dsimp only
    split
    · exact disconnect_desk _
    · exact disconnect_desk _

theorem login_ledger (client : Client) (sent : Handshake) : (client.login sent).ledger =
    { client.ledger with results := fun _ => none, sessions := client.sessions + 1 } := by
  unfold login
  dsimp only
  split
  · refine (congrArg Prod.fst (sendCallback_desk _ .authorize sent.second)).trans ?_
    exact congrArg Prod.fst (sendCallback_desk _ .subscribe sent.first)
  · exact congrArg Prod.fst (send_desk _ sent.first)

/-! The lines of the pool. -/

theorem parseJob_ledger (client : Client) (job : Option Job) : (client.parseJob job).1.ledger = client.ledger := by
  cases job with
  | none => rfl
  | some job =>
    unfold parseJob
    dsimp only
    split
    · rfl
    · split
      · rfl
      · exact congrArg Prod.fst (close_desk _)

theorem parseLogin_ledger (client : Client) (result : LoginResult) :
    (client.parseLogin result).1.ledger = client.ledger := by
  unfold parseLogin
  dsimp only
  split
  · rfl
  · split
    · exact parseJob_ledger _ result.job
    · exact parseJob_ledger _ result.job

theorem handleSubmitResponse_answered (client : Client) (id : Int) :
    Answered client.ledger (client.handleSubmitResponse id).1.ledger := by
  unfold handleSubmitResponse
  cases here : client.results id with
  | none => exact .refl _
  | some call => exact .answer here (.refl _)

theorem callBack_ledger (client : Client) (response : Response) (callback : ClientCallback) :
    (client.callBack response callback).ledger = client.ledger := by
  cases callback with
  | subscribe =>
    simp only [callBack, onSubscribeResponse]
    split
    · exact congrArg Prod.fst (send_desk _ _)
    · rfl
  | authorize =>
    simp only [callBack, onAuthorizeResponse]
    split
    · exact congrArg Prod.fst client.close_desk
    · split
      · rfl
      · rfl
  | other => rfl

theorem handleResponse_answered (client : Client) (response : Response) :
    Answered client.ledger (client.handleResponse response).1.ledger := by
  unfold handleResponse
  split
  · exact .refl _
  · split
    · exact .of_eq (callBack_ledger _ response _)
    · split
      · exact client.handleSubmitResponse_answered response.id
      · exact .refl _

theorem close_answered (client : Client) : Answered client.ledger client.close.ledger :=
  .of_eq (congrArg Prod.fst client.close_desk)

theorem parseResponse_answered (client : Client) (response : Response) :
    Answered client.ledger (client.parseResponse response).ledger := by
  have handled := client.handleResponse_answered response
  unfold parseResponse
  dsimp only
  split
  · exact handled
  · apply handled.trans
    cases response.error with
    | some critical =>
      have answered := (client.handleResponse response).1.handleSubmitResponse_answered response.id
      dsimp only
      split
      · exact answered.trans (close_answered _)
      · exact answered
    | none =>
      cases response.result with
      | none => exact .refl _
      | some result =>
        dsimp only
        split
        · have parsed := Answered.of_eq ((client.handleResponse response).1.parseLogin_ledger result)
          split
          · exact parsed.trans (close_answered _)
          · split
            · exact parsed
            · exact parsed
        · exact handleSubmitResponse_answered _ response.id

theorem parseNotification_answered (client : Client) (job : Option Job) :
    Answered client.ledger (client.parseNotification job).ledger := by
  unfold parseNotification
  split
  · cases job with
    | none => exact client.close_answered
    | some job =>
      dsimp only
      split
      · exact client.close_answered
      · split
        · exact .refl _
        · exact .refl _
  · dsimp only
    have parsed := Answered.of_eq (client.parseJob_ledger job)
    split
    · exact parsed
    · exact parsed.trans (close_answered _)

theorem parse_answered (client : Client) (line : Line) : Answered client.ledger (client.parse line).ledger := by
  have started : client.startTimeout.ledger = client.ledger := rfl
  rw [← started]
  cases line with
  | other => exact .refl _
  | reconnect tls => exact .of_eq (congrArg Prod.fst (reconnect_desk _))
  | response response => exact client.startTimeout.parseResponse_answered response
  | job job => exact client.startTimeout.parseNotification_answered job

theorem lines_answered (client : Client) (lines : List Line) :
    Answered client.ledger (lines.foldl parse client).ledger := by
  induction lines generalizing client with
  | nil => exact .refl _
  | cons line rest ih => exact (client.parse_answered line).trans (ih _)

/-- The next bytes of `m_socket`, if there are any, are not parsed as lines. -/
def Waiting (frame : Frame) (prelogin : Bool) : Prop :=
  prelogin = true ∨ ∀ i, frame.socket = some i → (frame.sockets i).reading = true → (frame.sockets i).closing = true

theorem Waiting.moves {first last : Frame} {prelogin : Bool} (waiting : Waiting first prelogin)
    (moves : Moves first last) : Waiting last prelogin := by
  induction moves with
  | refl frame => exact waiting
  | @close first last i here _ ih =>
    refine ih (waiting.imp_right fun closing j current reading => ?_)
    by_cases equal : j = i
    · subst equal
      simp only [Function.update_self]
    · simp only [Function.update_of_ne equal] at reading ⊢
      exact closing j current reading
  | reconnect _ ih => exact ih waiting

/-- The books are right, and a share that could not be sent waits for the next login. -/
structure Accounted (frame : Frame) (desk : Ledger × Bool) : Prop where
  books : Books desk.1
  settled : Clean desk.1 ∨ Waiting frame desk.2

theorem Accounted.moves {first last : Frame} {desk : Ledger × Bool} (accounted : Accounted first desk)
    (moves : Moves first last) : Accounted last desk :=
  ⟨accounted.books, accounted.settled.imp_right fun waiting => waiting.moves moves⟩

theorem Accounted.kept (accounted : Accounted client.frame client.desk) (moves : Moves client.frame after.frame)
    (same : after.desk = client.desk) : Accounted after.frame after.desk := by
  rw [same]
  exact accounted.moves moves

theorem Accounted.close (accounted : Accounted client.frame client.desk) :
    Accounted client.close.frame client.close.desk :=
  accounted.kept client.close_moves client.close_desk

theorem Accounted.reconnect (accounted : Accounted client.frame client.desk) :
    Accounted client.reconnect.frame client.reconnect.desk :=
  accounted.kept client.reconnect_moves client.reconnect_desk

theorem login_accounted (client : Client) (sent : Handshake) (books : Books client.ledger) :
    Accounted (client.login sent).frame (client.login sent).desk := by
  obtain ⟨books, clean⟩ := books.forget (client.sessions + 1)
  rw [← client.login_ledger sent] at books clean
  exact ⟨books, .inl clean⟩

theorem accounted_of_prelogin (books : Books client.ledger) (waiting : client.prelogin = true) :
    Accounted client.frame client.desk :=
  ⟨books, .inr (.inl waiting)⟩

theorem handshake_accounted (client : Client) (sent : Handshake) (books : Books client.ledger) :
    Accounted (client.handshake sent).frame (client.handshake sent).desk := by
  unfold handshake
  split
  · have waiting : Accounted { client with socks5 := some .sentInitialHandshake }.frame
        { client with socks5 := some .sentInitialHandshake }.desk := accounted_of_prelogin books rfl
    exact waiting.kept (write_moves _ sent.write) (write_desk _ sent.write)
  · split
    · rename_i tls
      have waiting : Accounted { client with expire := true, tls := some false }.frame
          { client with expire := true, tls := some false }.desk := by
        refine accounted_of_prelogin books ?_
        simp only [isTLS, Bool.and_eq_true] at tls
        simp only [prelogin, tls.1, decide_true, Bool.and_self, Bool.or_true]
      exact waiting.kept (sendBio_moves _ sent.write) (sendBio_desk _ sent.write)
    · exact client.login_accounted sent books

theorem connectAddr_desk (client : Client) : client.connectAddr.desk = client.desk :=
  client.setState_desk .connecting

theorem Books.connectAddr (books : Books client.ledger) :
    Accounted client.connectAddr.frame client.connectAddr.desk := by
  rw [connectAddr_desk, connectAddr_frame]
  refine ⟨books, .inr (.inr fun i current reading => ?_)⟩
  cases current
  simp only [Function.update_self] at reading
  cases reading

theorem Accounted.onResolved (accounted : Accounted client.frame client.desk) (found : Bool) :
    Accounted (client.onResolved found).frame (client.onResolved found).desk := by
  have answered : Accounted { client with dns := false }.frame { client with dns := false }.desk :=
    ⟨accounted.books, accounted.settled⟩
  unfold Client.onResolved
  dsimp only
  split
  · exact answered.reconnect
  · split
    · exact answered.reconnect
    · exact Books.connectAddr answered.books

theorem Accounted.resolve (accounted : Accounted client.frame client.desk) (lookup : Lookup) :
    Accounted (client.resolve lookup).frame (client.resolve lookup).desk := by
  have same : client.startLookup.desk = client.desk := client.setState_desk .hostLookup
  have started : Accounted client.startLookup.frame client.startLookup.desk := by
    rw [same, startLookup_frame]
    exact ⟨accounted.books, accounted.settled⟩
  cases lookup with
  | pending => exact ⟨started.books, started.settled⟩
  | failed => exact started.onResolved false
  | found => exact started.onResolved true

theorem Accounted.connect (accounted : Accounted client.frame client.desk) (lookup : Lookup) :
    Accounted (client.connect lookup).frame (client.connect lookup).desk := by
  unfold Client.connect
  split
  · have socks : Accounted { client with socks5 := some .created }.frame
        { client with socks5 := some .created }.desk := accounted_of_prelogin accounted.books rfl
    exact socks.resolve lookup
  · split
    · rename_i tls
      have started : Accounted { client with tls := some false }.frame { client with tls := some false }.desk := by
        refine accounted_of_prelogin accounted.books ?_
        simp only [prelogin, tls, decide_true, Bool.and_self, Bool.or_true]
      exact started.resolve lookup
    · exact accounted.resolve lookup

theorem Accounted.onConnect {sent : Handshake} {ok : Bool} (accounted : Accounted client.frame client.desk)
    (connected : client.onConnect ok sent = some after) : Accounted after.frame after.desk := by
  obtain rfl | ⟨_, rfl⟩ | ⟨i, _, _, rfl⟩ := onConnect_cases connected
  · exact accounted
  · exact accounted.close
  · have same : (client.startReading i).desk = client.desk := client.setState_desk .connected
    have books := accounted.books
    rw [← same] at books
    exact (client.startReading i).handshake_accounted sent books

theorem Accounted.onClose (accounted : Accounted client.frame client.desk) (i : Nat) :
    Accounted (client.onClose i).frame (client.onClose i).desk := by
  refine Accounted.reconnect ?_
  rw [freeSocket_frame]
  refine ⟨?_, .inr (.inr nofun)⟩
  rw [freeSocket_eq]
  exact accounted.books

theorem Accounted.readLines (accounted : Accounted client.frame client.desk) {i : Nat} (here : client.socket = some i)
    (reading : (client.sockets i).reading = true) (open_ : (client.sockets i).closing = false)
    (ready : client.prelogin = false) (lines : List Line) :
    Accounted (client.readLines i lines).frame (client.readLines i lines).desk := by
  have clean : Clean client.ledger := by
    rcases accounted.settled with clean | waiting | closing
    · exact clean
    · simp only [desk, ready] at waiting
      cases waiting
    · have closed := closing i here reading
      simp only [frame, open_] at closed
      cases closed
  obtain ⟨books, clean⟩ := accounted.books.answered clean
    ((client.emit (.feed i client.socket)).lines_answered lines)
  exact ⟨books, .inl clean⟩

theorem Accounted.readSocks (accounted : Accounted client.frame client.desk) (socks : SocksState)
    (reply : Option Bool) (sent : Handshake) :
    Accounted (client.readSocks socks reply sent).frame (client.readSocks socks reply sent).desk := by
  unfold Client.readSocks
  split
  · exact accounted
  · exact accounted.close
  · split
    · have waiting : Accounted { client with socks5 := some .sentFinalHandshake }.frame
          { client with socks5 := some .sentFinalHandshake }.desk := accounted_of_prelogin accounted.books rfl
      exact waiting.kept (write_moves _ sent.write) (write_desk _ sent.write)
    · exact handshake_accounted _ sent accounted.books

theorem Accounted.readTls (accounted : Accounted client.frame client.desk) (certificate : Option Bool)
    (sent : Handshake) :
    Accounted (client.readTls certificate sent).frame (client.readTls certificate sent).desk := by
  unfold Client.readTls
  split
  · exact accounted.kept (sendBio_moves _ sent.write) (sendBio_desk _ sent.write)
  · exact accounted.close
  · exact login_accounted _ sent accounted.books

theorem Accounted.read (accounted : Accounted client.frame client.desk) {i : Nat} (here : client.socket = some i)
    (reading : (client.sockets i).reading = true) (open_ : (client.sockets i).closing = false)
    (incoming : Incoming) : Accounted (client.read i incoming).frame (client.read i incoming).desk := by
  cases incoming with
  | error => exact accounted.close
  | data reply certificate lines sent =>
    unfold Client.read
    dsimp only
    split
    · exact accounted.reconnect
    · cases socks : client.socks5 with
      | some state => exact accounted.readSocks state reply sent
      | none =>
        dsimp only
        split
        · exact accounted.readTls certificate sent
        · rename_i ready
          refine accounted.readLines here reading open_ ?_ lines
          simp only [isTLS, Bool.and_eq_true, decide_eq_true_eq] at ready
          simp only [prelogin, socks, Option.isSome_none, Bool.false_or, Bool.and_eq_false_iff,
            decide_eq_false_iff_not]
          by_contra waiting
          rw [not_or, Bool.not_eq_false, not_not] at waiting
          exact ready ⟨⟨waiting.1, by rw [waiting.2]; rfl⟩, waiting.2⟩

/-- A share that is given to the stream finds it writable; one that is too long is not given to it. -/
def sendsShare (client : Client) : Event → Bool
  | .submit clientId zeroDiff message =>
    !client.canSubmit clientId || zeroDiff || message.oversize || message.transport ≠ .unwritable
  | _ => true

/-- Bytes come from `m_socket`. -/
def readsSocket (client : Client) : Event → Bool
  | .onRead i _ => client.socket = some i
  | _ => true

def SendsShares (client : Client) (event : Event) : Prop :=
  client.sendsShare event = true ∧ client.readsSocket event = true

instance (client : Client) (event : Event) : Decidable (client.SendsShares event) :=
  inferInstanceAs (Decidable (_ ∧ _))

theorem transmit_connected {transport : Transport} (connected : client.state = .connected)
    (writable : transport ≠ .unwritable) :
    client.transmit transport = (client, true) ∨ client.transmit transport = (client.close, false) := by
  unfold transmit
  split
  · cases transport with
    | written => exact .inl (by rw [sendBio, decide_eq_true connected])
    | buffered => exact .inl rfl
    | unwritable => exact absurd rfl writable
    | failed => exact .inr (by rw [sendBio, if_pos connected])
  · split
    · rename_i stuck
      rcases stuck with other | unwritable
      · exact absurd connected other
      · exact absurd unwritable writable
    · split
      · exact .inr rfl
      · exact .inl rfl

theorem send_connected {message : Message} (connected : client.state = .connected)
    (writable : message.oversize = true ∨ message.transport ≠ .unwritable) :
    client.send message =
        ({ client with expire := true, sequence := client.sequence + 1 }, some client.sequence) ∨
      client.send message = (client.close, none) := by
  unfold send
  split
  · exact .inr rfl
  · rename_i short
    unfold sendBytes
    rcases transmit_connected connected (writable.resolve_left short) with sent | closed
    · rw [sent]
      exact .inl rfl
    · rw [closed]
      exact .inr rfl

theorem canSubmit_connected {clientId : Option String} (can : client.canSubmit clientId = true) :
    client.state = .connected := by
  unfold canSubmit at can
  split at can
  · simp only [Bool.and_eq_true, decide_eq_true_eq] at can
    exact can.1
  · simp only [Bool.and_eq_true, decide_eq_true_eq] at can
    exact can.2

theorem Accounted.refuse (accounted : Accounted client.frame client.desk) (session : Nat) :
    Accounted (client.recordCall ⟨session, none⟩).frame (client.recordCall ⟨session, none⟩).desk :=
  ⟨accounted.books.refuse _, accounted.settled.imp_left fun clean => Clean.refuse accounted.books clean _⟩

theorem Accounted.submit {clientId : Option String} {zeroDiff : Bool} {message : Message}
    (accounted : Accounted client.frame client.desk) (sound : Sound client.frame)
    (allowed : client.sendsShare (.submit clientId zeroDiff message) = true) :
    Accounted (client.submit clientId zeroDiff message).frame (client.submit clientId zeroDiff message).desk := by
  unfold Client.submit
  split
  · exact accounted.refuse client.sessions
  · rename_i can
    rw [Bool.not_eq_false] at can
    split
    · exact accounted.close.refuse client.sessions
    · rename_i counted
      have connected : client.writeDown.state = .connected := canSubmit_connected can
      have writable : message.oversize = true ∨ message.transport ≠ .unwritable := by
        simpa [sendsShare, can, Bool.not_eq_true _ ▸ counted] using allowed
      have books := Books.submit accounted.books client.sequence
      dsimp only
      rcases send_connected connected writable with sent | closed
      · rw [sent]
        exact ⟨books (some client.sequence) (.inl rfl),
          accounted.settled.imp_left fun clean => Clean.submit accounted.books clean client.sequence⟩
      · rw [closed]
        -- the socket of a connected client is closed, so nothing more is read
        obtain ⟨i, here⟩ := Option.isSome_iff_exists.mp (sound.busy (.inr connected))
        have closing := client.writeDown.close_closing here (connected ▸ nofun) (connected ▸ nofun)
        rw [closing]
        refine ⟨books none (.inr rfl), .inr (.inr fun j current _ => ?_)⟩
        cases here.symm.trans current
        simp only [frame, recordCall, Function.update_self]

theorem Accounted.tick (accounted : Accounted client.frame client.desk) (expired due : Bool) (lookup : Lookup)
    (transport : Transport) : Accounted (client.tick expired due lookup transport).frame
      (client.tick expired due lookup transport).desk := by
  unfold Client.tick
  split
  · split
    · exact accounted.close
    · split
      · exact accounted.kept (client.ping_moves transport) (client.sendBytes_desk transport)
      · exact accounted
  · split
    · exact accounted.connect lookup
    · split
      · exact accounted.close
      · exact accounted

theorem Accounted.setSocket (accounted : Accounted client.frame client.desk) (i : Nat)
    (change : TcpSocket → TcpSocket) (same : ∀ socket, (change socket).reading = socket.reading ∧
      (change socket).closing = socket.closing) :
    Accounted (client.setSocket i change).frame (client.setSocket i change).desk := by
  refine ⟨accounted.books, accounted.settled.imp_right fun waiting => waiting.imp_right fun closing j current => ?_⟩
  by_cases equal : j = i
  · subst equal
    simp only [frame, Client.setSocket, Function.update_self, same]
    exact closing j current
  · simp only [frame, Client.setSocket, Function.update_of_ne equal]
    exact closing j current

theorem handle_accounted {event : Event} (accounted : Accounted client.frame client.desk) (sound : Sound client.frame)
    (allowed : client.SendsShares event) (possible : client.enabled event = true)
    (handled : client.handle event = some after) : Accounted after.frame after.desk := by
  cases event with
  | connect lookup =>
    cases handled
    exact accounted.connect lookup
  | disconnect =>
    cases handled
    exact accounted.kept client.disconnect_moves client.disconnect_desk
  | deleteLater =>
    cases handled
    exact accounted.kept client.deleteLater_moves client.deleteLater_desk
  | tick expired due lookup transport =>
    cases handled
    exact accounted.tick expired due lookup transport
  | onResolved found =>
    cases handled
    exact accounted.onResolved found
  | onConnect i ok sent =>
    have answered := accounted.setSocket i (fun socket => { socket with connecting := false }) fun _ => ⟨rfl, rfl⟩
    exact answered.onConnect handled
  | onRead i incoming =>
    cases handled
    simp only [enabled, Bool.and_eq_true, Bool.not_eq_true'] at possible
    exact accounted.read (of_decide_eq_true allowed.2) possible.1 possible.2 incoming
  | onClose i =>
    cases handled
    have marked := accounted.setSocket i (fun socket => { socket with closed := true }) fun _ => ⟨rfl, rfl⟩
    exact marked.onClose i
  | submit clientId zeroDiff message =>
    cases handled
    exact accounted.submit sound allowed.1
  | sendCallback message =>
    cases handled
    exact accounted.kept (client.sendCallback_moves .other message) (client.sendCallback_desk .other message)
  | sequence =>
    cases handled
    exact accounted

theorem step_accounted {event : Event} (accounted : Sound client.frame ∧ Accounted client.frame client.desk)
    (allowed : client.SendsShares event) (stepped : client.step event = some after) :
    Sound after.frame ∧ Accounted after.frame after.desk := by
  refine ⟨step_sound accounted.1 stepped, ?_⟩
  unfold step at stepped
  split at stepped
  · cases stepped
    exact accounted.2
  · split at stepped
    · rename_i possible
      exact handle_accounted accounted.2 accounted.1 allowed possible stepped
    · cases stepped

theorem start_accounted (eth proxy tls nicehash keepalive : Bool) (sequence : Nat) :
    Accounted (start eth proxy tls nicehash keepalive sequence).frame (start eth proxy tls nicehash keepalive sequence).desk :=
  ⟨⟨nofun, nofun, nofun, nofun, List.nodup_nil⟩, .inl nofun⟩

/-- Every report is of a call of `submit` that returned the number of the answer in the session of the
report, and no call is reported twice. -/
theorem shares_exact {eth proxy tls nicehash keepalive : Bool} {sequence : Nat} {events : List Event} {final : Client}
    (allowed : Guarded step SendsShares (start eth proxy tls nicehash keepalive sequence) events)
    (executed : run step (start eth proxy tls nicehash keepalive sequence) events = some final) :
    (∀ call id session, .onResultAccepted call id session ∈ final.log →
      ∃ record, final.calls[call]? = some record ∧ record.returned = some id ∧ record.session = session) ∧
    ((final.log.filterMap report).map Prod.fst).Nodup := by
  have accounted : Sound final.frame ∧ Accounted final.frame final.desk := run_invariant
    (P := fun client : Client => Sound client.frame ∧ Accounted client.frame client.desk)
    (fun _ _ _ accounted => step_accounted accounted)
    ⟨start_sound eth proxy tls nicehash keepalive sequence, start_accounted eth proxy tls nicehash keepalive sequence⟩ allowed executed
  refine ⟨fun call id session member => ?_, accounted.2.books.once⟩
  exact accounted.2.books.reported (call, id, session) (List.mem_filterMap.mpr ⟨_, member, rfl⟩)

def loggedIn : List Event :=
  [.connect .found, .onConnect 0 true {}, .onRead 0 (.data none none
    [.response { id := 1, result := some { rpcId := some "a", keepalive := true, job := some loginJob } }] {})]

def answers (id : Int) : Event :=
  .onRead 0 (.data none none [.response { id, result := some { rpcId := none, job := none } }] {})

def sharesSent : List Event :=
  loggedIn ++ [.submit (some "a") false {}, answers 2, answers 2,
    .submit (some "a") false { transport := .failed }]

theorem sharesSent_runs : (run step (start false false false false false 0) sharesSent).isSome = true := by
  decide

theorem shares_exact_sharesSent :
    ∃ final, run step (start false false false false false 0) sharesSent = some final ∧
      (∀ call id session, .onResultAccepted call id session ∈ final.log →
        ∃ record, final.calls[call]? = some record ∧ record.returned = some id ∧ record.session = session) ∧
      ((final.log.filterMap report).map Prod.fst).Nodup :=
  ⟨_, (Option.some_get sharesSent_runs).symm,
    shares_exact (by decide) (Option.some_get sharesSent_runs).symm⟩

/-- The stream is not writable for a share; the next ping takes the number of the share. -/
def numberReused : List Event :=
  loggedIn ++ [.submit (some "a") false { transport := .unwritable }, .tick false true .pending .written, answers 2]

/-- The answer to the ping is reported for the share that was not sent. -/
theorem numberReused_reports :
    ((run step (start false false false false false 0) numberReused).map fun client =>
      (client.log.filterMap report, client.calls)) = some ([(0, 2, 1)], [⟨1, none⟩]) := by
  decide

end Xmrig.Client
