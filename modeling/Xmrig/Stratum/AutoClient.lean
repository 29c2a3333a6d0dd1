import Xmrig.Stratum.ClientAuthorized
import Xmrig.Stratum.EthSubmit

/-! A client that finds out at its login which of two protocols the pool speaks.

`submit`, `parseNotification` and `handleResponse` go to the CryptoNote client or to the
Ethereum client, by a mode. The login is always that of the first one, the end of a
connection always that of the second one.
-/

set_option autoImplicit false

namespace Xmrig

open Foundation

inductive AutoMode where
  | default
  | eth
  deriving DecidableEq, Repr

def AutoMode.isEth : AutoMode → Bool
  | default => false
  | eth => true

/-- A line with a number; `job` is what `parseJob` makes of the member of that name. -/
structure AutoResponse where
  id : Int
  error : Option Bool := none
  errored : Bool := false
  granted : Bool := false
  subscription : Message := {}
  result : Json := .null
  job : Option Job := none

/-- A line of the pool, with the job that `parseJob` would make of the parameters. -/
inductive AutoLine where
  | other
  | reconnect (tls : Bool)
  | response (response : AutoResponse)
  | notification (method : List Byte) (params : Json) (job : Option Job)

/-- The fields of both clients. Those that they share are in `client`, which is of the one or the
other class for the time of a call. `feeding` is set while lines are read, and `session` is the
protocol of the login reply on this connection, if one was accepted. -/
structure AutoClient where
  client : Client
  stratum : EthStratumClient
  mode : AutoMode := .default
  feeding : Bool := false
  session : Option AutoMode := none

namespace AutoResponse

/-- `parseExtensions`, as far as it goes for the client here. -/
def keepalive (result : Json) : Bool :=
  match result.findMember "extensions" with
  | some (.arr extensions) => extensions.any fun extension => decide (extension.asString = some (text "keepalive"))
  | _ => false

def rpcId (result : Json) : Option String := (result.getString "id").map EthStratumClient.chars

def loginResult (response : AutoResponse) : LoginResult where
  rpcId := rpcId response.result
  keepalive := keepalive response.result
  job := response.job

def toResponse (response : AutoResponse) : Response where
  id := response.id
  error := response.error
  errored := response.errored
  granted := response.granted
  subscription := response.subscription
  result := if response.result.isObject then some response.loginResult else none

end AutoResponse

namespace AutoClient

def acting (auto : AutoClient) (mode : AutoMode) : Client := { auto.client with eth := mode.isEth }

/-- The fields that the notifications of the Ethereum client read. -/
def asStratum (auto : AutoClient) : EthStratumClient :=
  { auto.stratum with authorized := auto.client.authorized, job := auto.client.job }

def submit (auto : AutoClient) (clientId : Option String) (zeroDiff : Bool) (message : Message) : Client :=
  (auto.acting auto.mode).submit clientId zeroDiff message

def handleResponse (auto : AutoClient) (response : AutoResponse) : Client × Bool :=
  (auto.acting auto.mode).handleResponse response.toResponse

def hear (client : Client) : EthOutput → Client
  | .close => client.close
  | .loginSuccess => client.emit .onLoginSuccess
  | .jobReceived _ => client.emit .onJobReceived
  | .error _ | .warning _ | .incompatible _ => client

/-- `parseNotification` of either class; one that ends with an exception or outside of memory
does not come back. -/
def parseNotificationAs (host : EthHost) (auto : AutoClient) (mode : AutoMode) (method : List Byte) (params : Json)
    (job : Option Job) : Option AutoClient :=
  match mode with
  | .default =>
    if method = text "job" then some { auto with client := (auto.acting .default).parseNotification job } else some auto
  | .eth =>
    match (EthStratumClient.parseNotification host auto.asStratum method params).run [] with
    | .error _ => none
    | .ok ((stratum, outputs), _) =>
      let client := { auto.client with authorized := stratum.authorized, job := stratum.job }
      some { auto with client := outputs.foldl hear client, stratum }

def parseNotification (host : EthHost) (auto : AutoClient) (method : List Byte) (params : Json) (job : Option Job) :
    Option AutoClient :=
  auto.parseNotificationAs host auto.mode method params job

def parseLogin (auto : AutoClient) (response : AutoResponse) : AutoClient × Bool :=
  if response.result.hasMember "job" then
    let parsed := (auto.acting .default).parseLogin response.loginResult
    ({ auto with client := parsed.1 }, parsed.2)
  else
    let client := { auto.client with rpcId := AutoResponse.rpcId response.result }
    let parsed := auto.asStratum.parseLogin response.result
    if parsed.2.isSome then ({ auto with client }, false)
    else ({ auto with client, stratum := parsed.1, mode := .eth }, true)

def protocolOf (response : AutoResponse) : AutoMode := if response.result.hasMember "job" then .default else .eth

/-- The end of a login that `parseLogin` went through. -/
def loggedIn (auto : AutoClient) (response : AutoResponse) : AutoClient :=
  let client := { auto.client with failures := 0 }.emit .onLoginSuccess
  { auto with
    client := if client.job.isValid then client.emit .onJobReceived else client
    session := some (protocolOf response) }

def parseResponse (auto : AutoClient) (response : AutoResponse) : AutoClient :=
  let handled := auto.handleResponse response
  let auto := { auto with client := handled.1 }
  if handled.2 then auto
  else
    match response.error with
    | some critical =>
      let client := (auto.client.handleSubmitResponse response.id).1
      { auto with client := if critical then client.close else client }
    | none =>
      if response.result.isObject = false then auto
      else if response.id = 1 then
        let parsed := auto.parseLogin response
        if parsed.2 then parsed.1.loggedIn response else { parsed.1 with client := parsed.1.client.close }
      else { auto with client := (auto.client.handleSubmitResponse response.id).1 }

def answered (auto : AutoClient) : AutoClient := { auto with client := auto.client.startTimeout }

def parse (host : EthHost) (auto : AutoClient) (line : AutoLine) : Option AutoClient :=
  let auto := auto.answered
  match line with
  | .other => some auto
  | .reconnect tls => some { auto with client := { auto.client with poolTls := tls }.reconnect }
  | .response response => some (auto.parseResponse response)
  | .notification method params job => auto.parseNotification host method params job

def settle (auto : AutoClient) : AutoClient :=
  { auto with session := if auto.client.state = .connected then auto.session else none }

inductive Event where
  | client (event : Client.Event)
  | submit (clientId : Option String) (zeroDiff : Bool) (message : Message)
  | line (line : AutoLine)

def bare : Client.Event → Bool
  | .submit .. => false
  | .onRead _ (.data _ _ lines _) => lines.isEmpty
  | _ => true

def classOf : Client.Event → AutoMode
  | .onClose _ => .eth
  | _ => .default

def feeds (client : Client) : Client.Event → Bool
  | .onRead _ (.data ..) =>
    client.stored && client.listening && client.socks5.isNone && !(client.isTLS && client.tls = some false)
  | _ => false

/-- Lines come one after the other, until something else happens. -/
def step (host : EthHost) (auto : AutoClient) : Event → Option AutoClient
  | .client event =>
    if bare event then
      ((auto.acting (classOf event)).step event).map fun client =>
        { auto with client, feeding := feeds auto.client event }.settle
    else none
  | .submit clientId zeroDiff message =>
    if auto.client.stored = false then some auto
    else some { auto with client := auto.submit clientId zeroDiff message, feeding := false }.settle
  | .line line => if auto.feeding then (auto.parse host line).map settle else none

def start (client : Client) (stratum : EthStratumClient) : AutoClient := { client, stratum }

/-! ## The protocol of a login -/

/-- The three functions are those of the protocol, and a share gets through if that is the
Ethereum one. -/
structure Uses (host : EthHost) (auto : AutoClient) (mode : AutoMode) : Prop where
  submit : auto.submit = (auto.acting mode).submit
  parseNotification : auto.parseNotification host = auto.parseNotificationAs host mode
  handleResponse : auto.handleResponse = fun response => (auto.acting mode).handleResponse response.toResponse
  possible : mode = .eth → (auto.acting .eth).canSubmit none = true

/-- On a connection with a login, the protocol is the one of the last login reply. -/
def Follows (host : EthHost) (auto : AutoClient) : Prop := ∀ mode, auto.session = some mode → auto.Uses host mode

/-- The reply is not taken by a callback or a share, and `parseLogin` goes through it. -/
def accepts (auto : AutoClient) (response : AutoResponse) : Bool :=
  let handled := auto.handleResponse response
  !handled.2 && response.error.isNone && response.result.isObject && response.id = 1 &&
    ({ auto with client := handled.1 }.parseLogin response).2

/-- The client is ready for a login to the protocol: one with a job finds it in the first mode,
one without a job finds it authorized. -/
structure Suits (auto : AutoClient) (protocol : AutoMode) : Prop where
  mode : protocol = .default → auto.mode = .default
  authorized : protocol = .eth → auto.client.authorized = true

instance (auto : AutoClient) (protocol : AutoMode) : Decidable (auto.Suits protocol) :=
  decidable_of_iff ((protocol = .default → auto.mode = .default) ∧ (protocol = .eth → auto.client.authorized = true))
    ⟨fun both => ⟨both.1, both.2⟩, fun suits => ⟨suits.mode, suits.authorized⟩⟩

/-- A reply that is accepted on an established connection suits the client. -/
def Allowed (auto : AutoClient) : Event → Prop
  | .line (.response response) =>
    auto.answered.accepts response = true → (auto.answered.parseResponse response).client.state = .connected →
      auto.Suits (protocolOf response)
  | _ => True

instance (auto : AutoClient) : (event : Event) → Decidable (auto.Allowed event)
  | .line (.response response) =>
    inferInstanceAs (Decidable (auto.answered.accepts response = true →
      (auto.answered.parseResponse response).client.state = .connected → auto.Suits (protocolOf response)))
  | .line .other | .line (.reconnect _) | .line (.notification ..) | .client _ | .submit .. => .isTrue trivial

structure Inv (auto : AutoClient) : Prop where
  mode : ∀ mode, auto.session = some mode → auto.mode = mode
  authorized : auto.session = some .eth → auto.client.authorized = true
  connected : ∀ mode, auto.session = some mode → auto.client.state = .connected

variable {host : EthHost} {auto next : AutoClient}

theorem Inv.follows (inv : auto.Inv) : auto.Follows host := by
  intro mode session
  obtain rfl := inv.mode mode session
  refine ⟨rfl, rfl, rfl, fun eth => ?_⟩
  rw [eth] at session
  have isEth : (auto.acting .eth).eth = true := rfl
  have connected : (auto.acting .eth).state = .connected := inv.connected .eth session
  have authorized : (auto.acting .eth).authorized = true := inv.authorized session
  rw [Client.canSubmit, if_pos isEth, connected, authorized]
  rfl

theorem Inv.none (none : auto.session = none) : auto.Inv where
  mode := fun mode some => by rw [none] at some; cases some
  authorized := fun some => by rw [none] at some; cases some
  connected := fun mode some => by rw [none] at some; cases some

theorem Inv.settle (inv : auto.Inv) (session : next.session = auto.session) (mode : next.mode = auto.mode)
    (authorized : next.client.state = .connected → auto.client.authorized = true → next.client.authorized = true) :
    next.settle.Inv := by
  unfold AutoClient.settle
  split
  · rename_i connected
    refine ⟨fun known same => ?_, fun same => ?_, fun _ _ => connected⟩
    · rw [← inv.mode known (session.symm.trans same)]
      exact mode
    · exact authorized connected (inv.authorized (session.symm.trans same))
  · exact .none rfl

theorem hear_authorized (outputs : List EthOutput) (client : Client) :
    (outputs.foldl hear client).authorized = client.authorized := by
  induction outputs generalizing client with
  | nil => rfl
  | cons output rest ih =>
    rw [List.foldl_cons, ih]
    cases output with
    | close => exact client.close_authorized
    | _ => rfl

theorem parseNotification_keeps {method : List Byte} {params : Json} {job : Option Job}
    (notified : auto.parseNotification host method params job = some next) :
    next.session = auto.session ∧ next.mode = auto.mode ∧
      (auto.client.authorized = true → next.client.authorized = true) := by
  unfold parseNotification parseNotificationAs at notified
  split at notified
  · split at notified
    · cases notified
      exact ⟨rfl, rfl, fun authorized => (Client.parseNotification_authorized _ job rfl).trans authorized⟩
    · cases notified
      exact ⟨rfl, rfl, id⟩
  · split at notified
    · cases notified
    · rename_i stratum outputs log ran
      cases notified
      refine ⟨rfl, rfl, fun authorized => ?_⟩
      have effects := EthStratumClient.parseNotification_effects host auto.asStratum method params _ _ _ ran
      exact (hear_authorized outputs _).trans (effects.authorized authorized)

theorem handleResponse_untaken {client : Client} {response : Response}
    (untaken : (client.handleResponse response).2 = false) : (client.handleResponse response).1 = client := by
  unfold Client.handleResponse Client.handleSubmitResponse at untaken ⊢
  split
  · rfl
  · rename_i other
    rw [if_neg other] at untaken
    split
    · rename_i callback there
      rw [there] at untaken
      cases untaken
    · rename_i none
      rw [none] at untaken
      dsimp only at untaken
      split
      · split
        · rfl
        · rename_i eth _ call there
          rw [if_pos eth, there] at untaken
          cases untaken
      · rfl

theorem parseLogin_keeps (auto : AutoClient) (response : AutoResponse) :
    (auto.parseLogin response).1.session = auto.session ∧
      (auto.parseLogin response).1.client.authorized = auto.client.authorized ∧
      ((auto.parseLogin response).2 = false → (auto.parseLogin response).1.mode = auto.mode) ∧
      ((auto.parseLogin response).2 = true →
        (auto.parseLogin response).1.mode = if response.result.hasMember "job" then auto.mode else .eth) := by
  unfold parseLogin
  split
  · exact ⟨rfl, Client.parseLogin_authorized _ _, fun _ => rfl, fun _ => rfl⟩
  · dsimp only
    split
    · exact ⟨rfl, rfl, fun _ => rfl, fun taken => by cases taken⟩
    · exact ⟨rfl, rfl, fun refused => Bool.noConfusion refused, fun _ => rfl⟩

def welcomed (auto : AutoClient) (response : AutoResponse) : AutoClient :=
  ({ auto with client := auto.acting auto.mode }.parseLogin response).1.loggedIn response

theorem parseResponse_accepted {response : AutoResponse} (accepted : auto.accepts response = true) :
    auto.parseResponse response = auto.welcomed response := by
  simp only [accepts, Bool.and_eq_true, Bool.not_eq_true', Option.isNone_iff_eq_none, decide_eq_true_eq] at accepted
  obtain ⟨⟨⟨⟨untaken, none⟩, isObject⟩, first⟩, through⟩ := accepted
  have same : (auto.handleResponse response).1 = auto.acting auto.mode := handleResponse_untaken untaken
  rw [same] at through
  unfold parseResponse
  simp only [untaken, same, none, isObject, first, through, Bool.false_eq_true, Bool.true_eq_false, if_false, if_true]
  rfl

theorem parseResponse_refused {response : AutoResponse} (refused : auto.accepts response = false) :
    (auto.parseResponse response).session = auto.session ∧ (auto.parseResponse response).mode = auto.mode ∧
      (auto.client.authorized = true → (auto.parseResponse response).client.authorized = true) := by
  have answered (authorized : auto.client.authorized = true) : (auto.handleResponse response).1.authorized = true :=
    Client.handleResponse_authorized _ _ authorized
  unfold parseResponse
  dsimp only
  split
  · exact ⟨rfl, rfl, answered⟩
  · rename_i untaken
    split
    · refine ⟨rfl, rfl, fun authorized => ?_⟩
      dsimp only
      split
      · rw [Client.close_authorized, Client.handleSubmitResponse_authorized, answered authorized]
      · rw [Client.handleSubmitResponse_authorized, answered authorized]
    · rename_i none
      split
      · exact ⟨rfl, rfl, answered⟩
      · rename_i isObject
        split
        · rename_i first
          obtain ⟨session, kept, unchanged, -⟩ :=
            parseLogin_keeps { auto with client := (auto.handleResponse response).1 } response
          split
          · rename_i through
            simp [accepts, untaken, none, isObject, first, through] at refused
          · rename_i failed
            refine ⟨session, unchanged (Bool.eq_false_of_not_eq_true failed), fun authorized => ?_⟩
            rw [Client.close_authorized, kept]
            exact answered authorized
        · refine ⟨rfl, rfl, fun authorized => ?_⟩
          rw [Client.handleSubmitResponse_authorized, answered authorized]

theorem welcomed_authorized (auto : AutoClient) (response : AutoResponse) :
    (auto.welcomed response).client.authorized = auto.client.authorized := by
  have kept := (parseLogin_keeps { auto with client := auto.acting auto.mode } response).2.1
  unfold welcomed loggedIn
  dsimp only
  split
  · exact kept
  · exact kept

def otherJob (job : Job) : Job := { job with target := job.target + 1 }

theorem otherJob_differs (job : Job) (clientId : Option String) :
    ({ job with clientId } : Job).isEqual (otherJob job) = false := by
  simp [Job.isEqual, otherJob]

theorem eth_not_default (eth : auto.mode = .eth) :
    auto.parseNotification host ≠ auto.parseNotificationAs host .default := by
  intro same
  have told := congrFun (congrFun (congrFun same (text "job")) .null) (some (otherJob auto.client.job))
  have ignored : (EthStratumClient.parseNotification host auto.asStratum (text "job") .null).run [] =
      .ok ((auto.asStratum, []), []) := rfl
  rw [parseNotification, eth, parseNotificationAs, parseNotificationAs, ignored, if_pos rfl] at told
  have jobs := congrArg (fun auto => auto.client.jobs) (Option.some.inj told)
  have differs := otherJob_differs auto.client.job auto.client.rpcId
  simp [acting, AutoMode.isEth, Client.parseNotification, Client.parseJob, differs, Client.emit] at jobs

theorem accepted_through {response : AutoResponse} (accepted : auto.accepts response = true) :
    ({ auto with client := auto.acting auto.mode }.parseLogin response).2 = true := by
  simp only [accepts, Bool.and_eq_true, Bool.not_eq_true'] at accepted
  obtain ⟨⟨⟨⟨untaken, -⟩, -⟩, -⟩, through⟩ := accepted
  have same : (auto.handleResponse response).1 = auto.acting auto.mode := handleResponse_untaken untaken
  exact same ▸ through

theorem welcomed_mode {response : AutoResponse} (accepted : auto.accepts response = true) :
    (protocolOf response = .default → (auto.welcomed response).mode = auto.mode) ∧
      (protocolOf response = .eth → (auto.welcomed response).mode = .eth) := by
  have mode : (auto.welcomed response).mode = if response.result.hasMember "job" then auto.mode else .eth :=
    (parseLogin_keeps { auto with client := auto.acting auto.mode } response).2.2.2 (accepted_through accepted)
  rw [mode]
  unfold protocolOf
  split
  · exact ⟨fun _ => rfl, fun eth => AutoMode.noConfusion eth⟩
  · exact ⟨fun default => AutoMode.noConfusion default, fun _ => rfl⟩

/-- On an established connection a login is right exactly if it suits the client. -/
theorem welcomed_inv {response : AutoResponse} (accepted : auto.accepts response = true)
    (suits : auto.Suits (protocolOf response)) : (auto.welcomed response).settle.Inv := by
  obtain ⟨default, eth⟩ := welcomed_mode accepted
  unfold AutoClient.settle
  split
  · rename_i connected
    refine ⟨fun mode same => ?_, fun same => ?_, fun _ _ => connected⟩
    · obtain rfl : protocolOf response = mode := Option.some.inj same
      cases protocol : protocolOf response with
      | default => exact (default protocol).trans (suits.mode protocol)
      | eth => exact eth protocol
    · rw [welcomed_authorized]
      exact suits.authorized (Option.some.inj same)
  · exact .none rfl

theorem welcomed_not_follows {response : AutoResponse} (accepted : auto.accepts response = true)
    (connected : (auto.welcomed response).client.state = .connected) (other : ¬ auto.Suits (protocolOf response)) :
    ¬ (auto.welcomed response).settle.Follows host := by
  intro follows
  have session : (auto.welcomed response).settle.session = some (protocolOf response) := if_pos connected
  have uses := follows _ session
  refine other ⟨fun default => ?_, fun eth => ?_⟩
  · rw [default] at uses
    cases mode : auto.mode with
    | default => rfl
    | eth =>
      have kept : (auto.welcomed response).settle.mode = .eth := ((welcomed_mode accepted).1 default).trans mode
      exact absurd uses.parseNotification (eth_not_default kept)
  · have possible := uses.possible eth
    have isEth : ((auto.welcomed response).settle.acting .eth).eth = true := rfl
    rw [Client.canSubmit, if_pos isEth, Bool.and_eq_true] at possible
    exact (welcomed_authorized auto response).symm.trans possible.2

theorem client_inv {event : Client.Event} {after : Client} (inv : auto.Inv) (bare' : bare event = true)
    (stepped : (auto.acting (classOf event)).step event = some after) :
    ({ auto with client := after, feeding := feeds auto.client event } : AutoClient).settle.Inv := by
  refine inv.settle rfl rfl fun connected authorized => ?_
  unfold Client.step at stepped
  split at stepped
  · cases stepped
    exact authorized
  · split at stepped
    · by_cases closing : ∃ i, event = .onClose i
      · obtain ⟨i, rfl⟩ := closing
        cases stepped
        exact absurd connected (Client.onClose_state _ i)
      · have kept := Client.handle_authorized _ stepped (fun i same => closing ⟨i, same⟩)
          (fun i reply certificate lines sent same => by
            rw [same] at bare'
            exact List.isEmpty_iff.mp bare')
        exact kept.trans authorized
    · cases stepped

theorem response_inv {response : AutoResponse} (inv : auto.Inv)
    (allowed : auto.accepts response = true → (auto.parseResponse response).client.state = .connected →
      auto.Suits (protocolOf response)) : (auto.parseResponse response).settle.Inv := by
  cases accepted : auto.accepts response with
  | false =>
    obtain ⟨session, mode, authorized⟩ := parseResponse_refused accepted
    exact inv.settle session mode fun _ => authorized
  | true =>
    rw [parseResponse_accepted accepted] at allowed ⊢
    by_cases connected : (auto.welcomed response).client.state = .connected
    · exact welcomed_inv accepted (allowed accepted connected)
    · exact .none (if_neg connected)

theorem step_inv {event : Event} (inv : auto.Inv) (allowed : auto.Allowed event)
    (stepped : auto.step host event = some next) : next.Inv := by
  cases event with
  | client event =>
    simp only [step] at stepped
    split at stepped
    · rename_i bare'
      obtain ⟨after, moved, rfl⟩ := Option.map_eq_some_iff.mp stepped
      exact client_inv inv bare' moved
    · cases stepped
  | submit clientId zeroDiff message =>
    simp only [step] at stepped
    split at stepped
    · cases stepped
      exact inv
    · cases stepped
      exact inv.settle rfl rfl fun _ authorized => (Client.submit_authorized _ _ _ _).trans authorized
  | line line =>
    simp only [step] at stepped
    split at stepped
    · obtain ⟨after, parsed, rfl⟩ := Option.map_eq_some_iff.mp stepped
      cases line with
      | other =>
        cases parsed
        exact inv.settle rfl rfl fun _ authorized => authorized
      | reconnect tls =>
        cases parsed
        exact inv.settle rfl rfl fun _ authorized => (Client.reconnect_authorized _).trans authorized
      | notification method params job =>
        obtain ⟨session, mode, authorized⟩ := parseNotification_keeps parsed
        exact inv.settle session mode fun _ => authorized
      | response response =>
        cases parsed
        have ready : auto.answered.Inv := ⟨inv.mode, inv.authorized, inv.connected⟩
        refine response_inv ready fun accepted connected => ?_
        have suits := allowed accepted connected
        exact ⟨suits.mode, suits.authorized⟩
    · cases stepped

theorem step_not_follows {event : Event} (other : ¬ auto.Allowed event)
    (stepped : auto.step host event = some next) : ¬ next.Follows host := by
  cases event with
  | client event => exact absurd trivial other
  | submit clientId zeroDiff message => exact absurd trivial other
  | line line =>
    cases line with
    | response response =>
      simp only [Allowed, Classical.not_imp] at other
      obtain ⟨accepted, connected, unsuited⟩ := other
      simp only [step] at stepped
      split at stepped
      · obtain ⟨after, parsed, rfl⟩ := Option.map_eq_some_iff.mp stepped
        cases parsed
        rw [parseResponse_accepted accepted] at connected ⊢
        refine welcomed_not_follows accepted connected fun suits => unsuited ?_
        exact ⟨suits.mode, suits.authorized⟩
      · cases stepped
    | _ => exact absurd trivial other

/-- A client follows its logins in every state of a run exactly when every login reply that it
accepts on an established connection suits it. -/
theorem autoClient_follows_iff (host : EthHost) (client : Client) (stratum : EthStratumClient) {events : List Event}
    {final : AutoClient} (executed : run (step host) (start client stratum) events = some final) :
    Throughout (step host) (Follows host) (start client stratum) events ↔
      Guarded (step host) Allowed (start client stratum) events :=
  throughout_iff_guarded (fun _ inv => inv.follows) (fun _ _ _ inv allowed stepped => step_inv inv allowed stepped)
    (fun _ _ _ _ other stepped => step_not_follows other stepped) (.none rfl) executed

/-! ## Two logins -/

open EthStratumClient (idleHost)

def newClient : AutoClient := start (.start false false false false false 0) { poolAlgorithm := .invalid }

def opened (socket : Nat) : List Event :=
  [.client (.onConnect socket true {}), .client (.onRead socket (.data none none [] {}))]

def ethLogin : AutoResponse where
  id := 1
  result := .obj [("id", .str (text "1")), ("algo", .str (text "kawpow")), ("extra_nonce", .str (text "00"))]

def jobLogin : AutoResponse where
  id := 1
  result := .obj [("id", .str (text "2")), ("job", .obj [])]
  job := some { algorithm := .rx0, id := some "1", blob := List.replicate 76 0, diff := 1, target := 1 }

def firstLogin (response : AutoResponse) : List Event :=
  .client (.connect .found) :: opened 0 ++ [.line (.response response)]

/-- The connection is lost and the next login is answered in another way. -/
def secondLogin : List Event :=
  firstLogin ethLogin ++ [.client (.onRead 0 .error), .client (.onClose 0), .client (.tick true false .found .written)] ++
    opened 1 ++ [.line (.response jobLogin)]

theorem jobLogin_follows : ∃ final, run (step idleHost) newClient (firstLogin jobLogin) = some final ∧
    Throughout (step idleHost) (Follows idleHost) newClient (firstLogin jobLogin) := by
  have reached : (run (step idleHost) newClient (firstLogin jobLogin)).isSome = true := by decide
  obtain ⟨final, ran⟩ := Option.isSome_iff_exists.mp reached
  exact ⟨final, ran, (autoClient_follows_iff idleHost _ _ ran).mpr (by decide)⟩

/-- No share gets through behind a login of the Ethereum kind, and a later login with a job is
left to the Ethereum client. -/
theorem ethLogin_not_follows :
    (∃ final, run (step idleHost) newClient (firstLogin ethLogin) = some final ∧ ¬ final.Follows idleHost) ∧
      ∃ final, run (step idleHost) newClient secondLogin = some final ∧ ¬ final.Follows idleHost := by
  have first : (run (step idleHost) newClient (firstLogin ethLogin)).any (fun final =>
      decide (final.session = some .eth) && !(final.acting .eth).canSubmit none) = true := by decide
  have second : (run (step idleHost) newClient secondLogin).any (fun final =>
      decide (final.session = some .default) && decide (final.mode = .eth)) = true := by decide
  constructor
  · obtain ⟨final, ran, reached⟩ := (Option.any_eq_true ..).mp first
    simp only [Bool.and_eq_true, decide_eq_true_eq, Bool.not_eq_true'] at reached
    refine ⟨final, ran, fun follows => ?_⟩
    have possible := (follows .eth reached.1).possible rfl
    exact Bool.false_ne_true (reached.2.symm.trans possible)
  · obtain ⟨final, ran, reached⟩ := (Option.any_eq_true ..).mp second
    simp only [Bool.and_eq_true, decide_eq_true_eq] at reached
    refine ⟨final, ran, fun follows => ?_⟩
    exact eth_not_default reached.2 (follows .default reached.1).parseNotification

end AutoClient

end Xmrig
