import Xmrig.Base.Coin
import Xmrig.Base.Json
import Xmrig.Base.JobBlob
import Xmrig.Foundation.Run

/-! The client that takes its block template from a daemon of the user.

A job of the pool brings a wallet and an extra nonce but no blob. The client asks the
daemon for a template, gives the template to the pool and, when the pool agrees, hands the
job out with the hashing blob of the template. Shares that reach the difficulty of the
block are also sent to the daemon. Daemon answers, answers of the pool, jobs and shares are
events in any order; each request is answered at most once.
-/

set_option autoImplicit false

namespace Xmrig

open Foundation

/-- `SelfSelectClient::State`. -/
inductive SelfSelectState where
  | idle
  | wait
  | retry
  deriving DecidableEq, Repr

inductive OriginMethod where
  | getblocktemplate
  | submitblock
  deriving DecidableEq, Repr

/-- A request to the daemon without an answer yet. `turn` numbers the requests and is read by
no function. -/
structure OriginRequest where
  method : OriginMethod
  id : Int
  turn : Nat
  deriving DecidableEq, Repr

/-- The end of an HTTP request; no body if it does not parse. -/
structure HttpData where
  status : Int
  body : Option Json

/-- The answer that `m_blocktemplate` was read from, with the job it was sent to the pool for. -/
structure TemplateSource where
  jobId : Option String
  blob : List Byte
  template : Option (List Byte)
  deriving DecidableEq, Repr

/-- A job given to the listener. `template` is the number of the answer that left its blob, if
the job was given out as that answer had left it. -/
structure Delivery where
  job : Job
  template : Option Nat
  deriving DecidableEq, Repr

/-- A share; `actualDiff` is what its hash reaches. -/
structure JobResult where
  delivery : Delivery
  nonce : BitVec 64
  diff : BitVec 64
  actualDiff : BitVec 64
  deriving DecidableEq, Repr

/-- What the client tells the listener, the pool and the daemon. -/
inductive SelfSelectOutput where
  | onClose (failures : Int)
  | onLoginSuccess
  | onJobReceived (job : Job)
  | parseResponse (request : OriginRequest)
  | jobChanged (request : OriginRequest) (latest : Option Nat)
  | submitBlock (block : List Byte) (source : Option TemplateSource) (result : JobResult)
  deriving DecidableEq, Repr

/-- Fields from `requests` on are not the client's own: what is under way, and what the
results are about. -/
structure SelfSelectClient where
  active : Bool := false
  submitToOrigin : Bool := true
  retries : Int := 5
  failures : Int := 0
  sequence : Int := 1
  job : Job := {}
  state : SelfSelectState := .idle
  blocktemplate : Option (List Byte) := none
  blockDiff : BitVec 64 := 0
  originNotSubmitted : Nat := 0
  originSubmitted : Nat := 0
  retryPause : Nat := 5000
  timestamp : Nat := 0
  now : Nat := 0
  coin : Coin := .invalid
  requests : List OriginRequest := []
  turns : Nat := 0
  latest : Option Nat := none
  callbacks : Nat := 0
  delivered : List Delivery := []
  source : Option TemplateSource := none
  templates : Nat := 0
  /-- Id and blob of the job are as the last accepted answer has left them. -/
  held : Bool := false
  log : List SelfSelectOutput := []

namespace SelfSelectClient

def requiredFields : List String :=
  ["blocktemplate_blob", "blockhashing_blob", "height", "difficulty", "prev_hash"]

def emit (client : SelfSelectClient) (output : SelfSelectOutput) : SelfSelectClient :=
  { client with log := output :: client.log }

def setState (client : SelfSelectClient) (state : SelfSelectState) : SelfSelectClient :=
  if client.state = state then client
  else match state with
    | .idle => { client with state, timestamp := 0, failures := 0 }
    | .wait => { client with state, timestamp := client.now }
    | .retry =>
      let told := if client.retries < client.failures then client.emit (.onClose client.failures) else client
      { told with state, timestamp := client.now, failures := client.failures + 1 }

def retry (client : SelfSelectClient) : SelfSelectClient := client.setState .retry

def fetch (client : SelfSelectClient) (method : OriginMethod) : SelfSelectClient :=
  { client with
    requests := client.requests ++ [⟨method, client.sequence, client.turns⟩]
    turns := client.turns + 1 }

def getBlockTemplate (client : SelfSelectClient) : SelfSelectClient :=
  let client := client.setState .wait
  { client.fetch .getblocktemplate with sequence := client.sequence + 1, latest := some client.turns }

def nonceAt : Nat := 78

/-- `Cvt::toHex(data + 78, 8, &nonce, 4)`; no result outside of the template. -/
def patch (template : List Byte) (nonce : BitVec 64) : Option (List Byte) :=
  if nonceAt + 8 ≤ template.length then
    let bytes := (List.range 4).map fun i => nonce.extractLsb' (8 * i) 8
    some (template.take nonceAt ++ Cvt.toHex bytes ++ template.drop (nonceAt + 8))
  else none

def reachesOrigin (client : SelfSelectClient) (result : JobResult) : Bool :=
  result.diff ≠ 0 ∧ client.blockDiff ≠ 0 ∧ client.blockDiff ≤ result.actualDiff

def submitOriginDaemon (client : SelfSelectClient) (result : JobResult) : Option SelfSelectClient :=
  if result.diff = 0 ∨ client.blockDiff = 0 then some client
  else if result.actualDiff < client.blockDiff then
    some { client with originNotSubmitted := client.originNotSubmitted + 1 }
  else match client.blocktemplate.bind fun template => patch template result.nonce with
    | none => none
    | some block =>
      let client := { client with blocktemplate := some block }.fetch .submitblock
      some ({ client with originSubmitted := client.originSubmitted + 1 }.emit
        (.submitBlock block client.source result))

/-- The pool client's own `submit` changes nothing here. -/
def submit (client : SelfSelectClient) (result : JobResult) : Option SelfSelectClient :=
  if client.submitToOrigin then (client.submitOriginDaemon result).map getBlockTemplate else some client

def tick (client : SelfSelectClient) : SelfSelectClient :=
  if client.state = .retry ∧ client.retryPause ≤ client.now - client.timestamp then client.getBlockTemplate
  else client

def onJobReceived (client : SelfSelectClient) (job : Job) : SelfSelectClient :=
  { client with job, held := false }.getBlockTemplate

def onClose (client : SelfSelectClient) (failures : Int) : SelfSelectClient :=
  { (client.emit (.onClose failures)).setState .idle with active := false }

def onLoginSuccess (client : SelfSelectClient) : SelfSelectClient :=
  { (client.emit .onLoginSuccess).setState .idle with active := true }

def submitBlockTemplate (client : SelfSelectClient) (result : Json) : SelfSelectClient :=
  let blocktemplate := result.getString "blocktemplate_blob"
  { client with
    blocktemplate
    blockDiff := BitVec.ofNat 64 (result.getUint64 "difficulty" 0)
    callbacks := client.callbacks + 1
    source := some ⟨client.job.id, client.job.blob, blocktemplate⟩
    templates := client.templates + 1
    held := true }

/-- What a refused blob leaves. Characters that are no digits come late: the bytes in front of
them have been written. -/
def refuseBlob (job : Job) (blob : Option (List Byte)) : Job :=
  match blob with
  | none => job
  | some hex =>
    let size := hex.length / 2
    if hex.length % 2 ≠ 0 ∨ size < job.nonceOffset + job.nonceSize ∨ Job.kMaxBlobSize ≤ size then job
    else
      let written := (Cvt.hex2bin hex Job.kMaxBlobSize none).written
      { job with blob := (written ++ job.blob.drop written.length).take job.blob.length }

def coinJob (client : SelfSelectClient) : Job :=
  if client.coin.isValid then { client.job with algorithm := client.coin.algorithm } else client.job

def parseResponse (client : SelfSelectClient) (id : Int) (result error : Json) : SelfSelectClient × Bool :=
  if id = -1 then (client, false)
  else if error.isObject then (client, false)
  else if result.isObject = false then (client, false)
  else if requiredFields.any fun field => !result.hasMember field then (client, false)
  else
    let blobData := result.getString "blockhashing_blob"
    match client.coinJob.setBlob blobData with
    | none =>
      let job := refuseBlob client.coinJob blobData
      ({ client with job, held := client.held && job.blob = client.job.blob }, false)
    | some job =>
      let job := { job with height := BitVec.ofNat 64 (result.getUint64 "height" 0) }
      let job := job.setSeedHash (result.getString "seed_hash")
      ({ client with job }.submitBlockTemplate result, true)

/-- An answer that carries the number of an older request is dropped. -/
def isStale (client : SelfSelectClient) (id : Int) : Bool := 0 < id ∧ client.sequence - id ≠ 1

def parseDocument (client : SelfSelectClient) (request : OriginRequest) (doc : Json) : SelfSelectClient × Bool :=
  let parsed := (client.emit (.parseResponse request)).parseResponse (doc.getInt64 "id" (-1))
    (doc.getValue "result") (doc.getObject "error")
  (if parsed.1.job = client.job then parsed.1 else parsed.1.emit (.jobChanged request client.latest), parsed.2)

/-- `onHttpData` for the answer to a request. `doc["result"]` of a document that is not an object
is undefined. -/
def onHttpData (client : SelfSelectClient) (request : OriginRequest) (data : HttpData) :
    Option SelfSelectClient :=
  if data.status ≠ 200 then some client.retry
  else match data.body with
    | none => some client.retry
    | some doc =>
      if client.isStale (doc.getInt64 "id" (-1)) then some client
      else if doc.isObject = false then none
      else
        let parsed := client.parseDocument request doc
        some (if parsed.2 then parsed.1 else parsed.1.retry)

def onTemplate (client : SelfSelectClient) (success : Bool) : SelfSelectClient :=
  if success = false then client.retry
  else if client.active = false then client
  else
    let told := if client.retries < client.failures then client.emit .onLoginSuccess else client
    let idle := told.setState .idle
    { idle.emit (.onJobReceived idle.job) with
      delivered := ⟨idle.job, if idle.held then some idle.templates else none⟩ :: idle.delivered }

inductive Event where
  | onJobReceived (job : Job)
  | onLoginSuccess
  | onClose (failures : Int)
  | elapse (msecs : Nat)
  | tick
  | submit (result : JobResult)
  | onHttpData (i : Nat) (data : HttpData)
  | onTemplate (success : Bool)

/-- Results are for jobs that were handed out, answers for requests that were sent, and a job of
the pool has no blob. -/
def step (client : SelfSelectClient) : Event → Option SelfSelectClient
  | .onJobReceived job => if job.blob = [] then some (client.onJobReceived job) else none
  | .onLoginSuccess => some client.onLoginSuccess
  | .onClose failures => some (client.onClose failures)
  | .elapse msecs => some { client with now := client.now + msecs }
  | .tick => some client.tick
  | .submit result => if result.delivery ∈ client.delivered then client.submit result else none
  | .onHttpData i data =>
    match client.requests[i]? with
    | none => none
    | some request => { client with requests := client.requests.eraseIdx i }.onHttpData request data
  | .onTemplate success =>
    if client.callbacks = 0 then none
    else some ({ client with callbacks := client.callbacks - 1 }.onTemplate success)

def start (submitToOrigin : Bool) (retries : Int) (retryPause : Nat) (coin : Coin) : SelfSelectClient :=
  { submitToOrigin, retries, retryPause, coin }

variable {client after : SelfSelectClient}

/-- Every output so far is of a kind. -/
def Told (P : SelfSelectOutput → Prop) (client : SelfSelectClient) : Prop := ∀ output ∈ client.log, P output

section Told
variable {P : SelfSelectOutput → Prop}

theorem Told.emit (told : client.Told P) {output : SelfSelectOutput} (fits : P output) :
    (client.emit output).Told P :=
  List.forall_mem_cons.mpr ⟨fits, told⟩

theorem Told.setState (told : client.Told P) (quiet : ∀ failures, P (.onClose failures))
    (state : SelfSelectState) : (client.setState state).Told P := by
  unfold SelfSelectClient.setState
  split
  · exact told
  · cases state with
    | idle => exact told
    | wait => exact told
    | retry =>
      dsimp only
      split
      · exact told.emit (quiet _)
      · exact told

end Told

theorem coinJob_id : client.coinJob.id = client.job.id := by
  unfold coinJob
  split <;> rfl

theorem setSeedHash_id (job : Job) (hash : Option (List Byte)) : (job.setSeedHash hash).id = job.id := by
  unfold Job.setSeedHash
  repeat' first | rfl | split

theorem setBlob_id {job next : Job} {blob : Option (List Byte)} (set : job.setBlob blob = some next) :
    next.id = job.id := by
  unfold Job.setBlob at set
  split at set
  · cases set
  · dsimp only at set
    repeat' split at set
    all_goals cases set
    rfl

theorem refuseBlob_id (job : Job) (blob : Option (List Byte)) : (refuseBlob job blob).id = job.id := by
  unfold refuseBlob
  split
  · rfl
  · dsimp only
    split <;> rfl

theorem parseResponse_cases (client : SelfSelectClient) (id : Int) (result error : Json) :
    client.parseResponse id result error = (client, false) ∨
      (∃ job, job.id = client.job.id ∧ client.parseResponse id result error =
        ({ client with job, held := client.held && job.blob = client.job.blob }, false)) ∨
      (∃ job, job.id = client.job.id ∧ client.parseResponse id result error =
        ({ client with job }.submitBlockTemplate result, true)) := by
  unfold parseResponse
  split
  · exact .inl rfl
  · split
    · exact .inl rfl
    · split
      · exact .inl rfl
      · split
        · exact .inl rfl
        · dsimp only
          cases set : client.coinJob.setBlob (result.getString "blockhashing_blob") with
          | none =>
            refine .inr (.inl ⟨_, ?_, rfl⟩)
            rw [refuseBlob_id, coinJob_id]
          | some job =>
            refine .inr (.inr ⟨_, ?_, rfl⟩)
            rw [setSeedHash_id]
            exact (setBlob_id set).trans coinJob_id

theorem onHttpData_cases {request : OriginRequest} {data : HttpData}
    (handled : client.onHttpData request data = some after) :
    after = client.retry ∨ after = client ∨
      ∃ doc, data.body = some doc ∧ client.isStale (doc.getInt64 "id" (-1)) = false ∧
        (after = (client.parseDocument request doc).1 ∨ after = (client.parseDocument request doc).1.retry) := by
  unfold onHttpData at handled
  split at handled
  · cases handled
    exact .inl rfl
  · cases body : data.body with
    | none =>
      rw [body] at handled
      cases handled
      exact .inl rfl
    | some doc =>
      rw [body] at handled
      dsimp only at handled
      split at handled
      · cases handled
        exact .inr (.inl rfl)
      · rename_i fresh
        split at handled
        · cases handled
        · cases handled
          refine .inr (.inr ⟨doc, rfl, Bool.eq_false_iff.mpr fresh, ?_⟩)
          split
          · exact .inl rfl
          · exact .inr rfl

/-! The request numbers. -/

/-- What the requests are numbered by. -/
structure Numbers where
  requests : List OriginRequest
  turns : Nat
  sequence : Int
  latest : Option Nat

def numbers (client : SelfSelectClient) : Numbers :=
  ⟨client.requests, client.turns, client.sequence, client.latest⟩

@[simp] theorem emit_numbers (output : SelfSelectOutput) : (client.emit output).numbers = client.numbers := rfl

@[simp] theorem setState_numbers (state : SelfSelectState) :
    (client.setState state).numbers = client.numbers := by
  unfold setState
  split
  · rfl
  · cases state with
    | idle => rfl
    | wait => rfl
    | retry =>
      dsimp only
      split <;> rfl

@[simp] theorem parseResponse_numbers (id : Int) (result error : Json) :
    (client.parseResponse id result error).1.numbers = client.numbers := by
  obtain same | ⟨job, _, same⟩ | ⟨job, _, same⟩ := client.parseResponse_cases id result error
  · rw [same]
  · rw [same]
    rfl
  · rw [same]
    rfl

/-- The requests in flight are template requests, with numbers of their own. -/
structure Numbered (numbers : Numbers) : Prop where
  distinct : (numbers.requests.map OriginRequest.id).Nodup
  method : ∀ request ∈ numbers.requests, request.method = .getblocktemplate
  inside : ∀ request ∈ numbers.requests, 0 < request.id ∧ request.id < numbers.sequence
  latest : ∀ request ∈ numbers.requests, numbers.sequence - request.id = 1 → numbers.latest = some request.turn
  positive : 0 < numbers.sequence

theorem getBlockTemplate_numbers (client : SelfSelectClient) : client.getBlockTemplate.numbers =
    ⟨client.requests ++ [⟨.getblocktemplate, client.sequence, client.turns⟩], client.turns + 1,
      client.sequence + 1, some client.turns⟩ := by
  have same := client.setState_numbers .wait
  simp only [numbers, Numbers.mk.injEq] at same
  simp only [getBlockTemplate, fetch, numbers, same]

theorem Numbered.getBlockTemplate (numbered : Numbered client.numbers) :
    Numbered client.getBlockTemplate.numbers := by
  rw [getBlockTemplate_numbers]
  have fresh : ∀ request ∈ client.requests, 0 < request.id ∧ request.id < client.sequence := numbered.inside
  have positive : 0 < client.sequence := numbered.positive
  constructor
  · simp only [List.map_append, List.map_cons, List.map_nil]
    apply List.nodup_append.mpr
    refine ⟨numbered.distinct, List.pairwise_singleton _ _, ?_⟩
    intro id older other newer same
    obtain ⟨request, member, rfl⟩ := List.mem_map.mp older
    have bound := fresh request member
    rw [List.mem_singleton] at newer
    omega
  · intro request member
    rcases List.mem_append.mp member with old | new
    · exact numbered.method request old
    · rw [List.mem_singleton.mp new]
  · intro request member
    dsimp only
    rcases List.mem_append.mp member with old | new
    · have bound := fresh request old
      omega
    · rw [List.mem_singleton.mp new]
      dsimp only
      omega
  · intro request member
    dsimp only
    rcases List.mem_append.mp member with old | new
    · have bound := fresh request old
      omega
    · rw [List.mem_singleton.mp new]
      exact fun _ => rfl
  · dsimp only
    omega

theorem Numbered.answered (numbered : Numbered client.numbers) (i : Nat) :
    Numbered { client with requests := client.requests.eraseIdx i }.numbers := by
  have kept : ∀ request ∈ client.requests.eraseIdx i, request ∈ client.requests :=
    fun request member => List.mem_of_mem_eraseIdx member
  constructor
  · exact numbered.distinct.sublist ((List.eraseIdx_sublist _ i).map _)
  · exact fun request member => numbered.method request (kept request member)
  · exact fun request member => numbered.inside request (kept request member)
  · exact fun request member => numbered.latest request (kept request member)
  · exact numbered.positive

/-- Parsed answers are for template requests, and the job changes with the answer to the latest. -/
def Matches : SelfSelectOutput → Prop
  | .parseResponse request => request.method = .getblocktemplate
  | .jobChanged request latest => latest = some request.turn
  | _ => True

/-- Requests and answers belong together. -/
structure Matched (client : SelfSelectClient) : Prop where
  distinct : (client.requests.map OriginRequest.id).Nodup
  told : client.Told Matches

/-- The daemon answers under the number of the request or without a number. -/
def echoes (request : OriginRequest) (data : HttpData) : Bool :=
  match data.body with
  | none => true
  | some doc => doc.getInt64 "id" (-1) = request.id ∨ doc.getInt64 "id" (-1) = -1

def echoing (client : SelfSelectClient) : Event → Bool
  | .onHttpData i data => (client.requests[i]?).all fun request => echoes request data
  | _ => true

def sendsBlock (client : SelfSelectClient) : Event → Bool
  | .submit result => client.submitToOrigin && client.reachesOrigin result
  | _ => false

/-- The daemon answers as it was asked, and no share goes to it. -/
def KeepsNumbers (client : SelfSelectClient) (event : Event) : Prop :=
  client.echoing event = true ∧ client.sendsBlock event = false

instance (client : SelfSelectClient) (event : Event) : Decidable (client.KeepsNumbers event) :=
  inferInstanceAs (Decidable (_ ∧ _))

theorem submitOriginDaemon_low {result : JobResult} (low : client.reachesOrigin result = false) :
    ∃ count, client.submitOriginDaemon result = some { client with originNotSubmitted := count } := by
  unfold submitOriginDaemon
  split
  · exact ⟨_, rfl⟩
  · rename_i known
    split
    · exact ⟨_, rfl⟩
    · rename_i enough
      simp only [reachesOrigin, decide_eq_false_iff_not] at low
      rw [not_or] at known
      exact absurd ⟨known.1, known.2, BitVec.not_lt.mp enough⟩ low

theorem submitOriginDaemon_high {result : JobResult} (reaches : client.reachesOrigin result = true)
    (sent : client.submitOriginDaemon result = some after) :
    ∃ template block, client.blocktemplate = some template ∧ patch template result.nonce = some block ∧
      after = { { client with blocktemplate := some block }.fetch .submitblock with
        originSubmitted := client.originSubmitted + 1 }.emit (.submitBlock block client.source result) := by
  simp only [reachesOrigin, decide_eq_true_eq] at reaches
  rw [submitOriginDaemon, if_neg (by tauto), if_neg (BitVec.not_lt.mpr reaches.2.2)] at sent
  cases patched : client.blocktemplate.bind fun template => patch template result.nonce with
  | none => rw [patched] at sent; cases sent
  | some block =>
    rw [patched] at sent
    cases sent
    obtain ⟨template, here, patched⟩ := Option.bind_eq_some_iff.mp patched
    exact ⟨template, block, here, patched, rfl⟩

/-- Requests and outputs fit in every state. -/
structure Paired (client : SelfSelectClient) : Prop where
  numbered : Numbered client.numbers
  told : client.Told Matches

theorem Paired.setState (paired : client.Paired) (state : SelfSelectState) :
    (client.setState state).Paired :=
  ⟨by rw [setState_numbers]; exact paired.numbered, paired.told.setState (fun _ => trivial) state⟩

theorem Paired.emit (paired : client.Paired) (output : SelfSelectOutput) (fits : Matches output) :
    (client.emit output).Paired :=
  ⟨paired.numbered, paired.told.emit fits⟩

theorem Paired.getBlockTemplate (paired : client.Paired) : client.getBlockTemplate.Paired :=
  ⟨paired.numbered.getBlockTemplate, paired.told.setState (fun _ => trivial) .wait⟩

theorem latest_of_not_stale {request : OriginRequest} {data : HttpData} {doc : Json}
    (numbered : Numbered client.numbers) (member : request ∈ client.requests)
    (echo : echoes request data = true) (body : data.body = some doc)
    (known : doc.getInt64 "id" (-1) ≠ -1) (fresh : client.isStale (doc.getInt64 "id" (-1)) = false) :
    client.latest = some request.turn := by
  simp only [echoes, body, decide_eq_true_eq] at echo
  have same : doc.getInt64 "id" (-1) = request.id := by
    rcases echo with same | unknown
    · exact same
    · exact absurd unknown known
  rw [same] at fresh
  have bound : 0 < request.id ∧ request.id < client.sequence := numbered.inside request member
  simp only [isStale, decide_eq_false_iff_not] at fresh
  exact numbered.latest request member (by simp only [numbers]; omega)

theorem parseResponse_unknown (result error : Json) : client.parseResponse (-1) result error = (client, false) := by
  unfold parseResponse
  rw [if_pos rfl]

@[simp] theorem parseResponse_log (id : Int) (result error : Json) :
    (client.parseResponse id result error).1.log = client.log := by
  obtain same | ⟨job, _, same⟩ | ⟨job, _, same⟩ := client.parseResponse_cases id result error
  · rw [same]
  · rw [same]
  · rw [same]
    rfl

theorem Paired.parseDocument {request : OriginRequest} {doc : Json} (paired : client.Paired)
    (asked : request.method = .getblocktemplate)
    (latest : doc.getInt64 "id" (-1) ≠ -1 → client.latest = some request.turn) :
    (client.parseDocument request doc).1.Paired := by
  have parsed : ((client.emit (.parseResponse request)).parseResponse (doc.getInt64 "id" (-1))
      (doc.getValue "result") (doc.getObject "error")).1.Paired := by
    constructor
    · rw [parseResponse_numbers]
      exact paired.numbered
    · unfold Told
      rw [parseResponse_log]
      exact (paired.emit (.parseResponse request) asked).told
  unfold SelfSelectClient.parseDocument
  dsimp only
  split
  · exact parsed
  · rename_i changed
    apply parsed.emit
    apply latest
    -- without a number nothing is taken over
    intro unknown
    rw [unknown, parseResponse_unknown] at changed
    exact changed rfl

theorem Paired.onHttpData {request : OriginRequest} {data : HttpData} {i : Nat} (paired : client.Paired)
    (here : client.requests[i]? = some request) (echo : echoes request data = true)
    (handled : { client with requests := client.requests.eraseIdx i }.onHttpData request data = some after) :
    after.Paired := by
  have member : request ∈ client.requests := List.mem_of_getElem? here
  have waiting : { client with requests := client.requests.eraseIdx i }.Paired :=
    ⟨paired.numbered.answered i, paired.told⟩
  obtain failed | same | ⟨doc, body, fresh, parsed⟩ := onHttpData_cases handled
  · rw [failed]
    exact waiting.setState .retry
  · rw [same]
    exact waiting
  · have latest (known : doc.getInt64 "id" (-1) ≠ -1) : client.latest = some request.turn :=
      latest_of_not_stale paired.numbered member echo body known fresh
    have document := waiting.parseDocument (paired.numbered.method request member) latest
    rcases parsed with kept | failed
    · rw [kept]
      exact document
    · rw [failed]
      exact document.setState .retry

theorem Paired.onTemplate (paired : client.Paired) (success : Bool) : (client.onTemplate success).Paired := by
  unfold SelfSelectClient.onTemplate
  split
  · exact paired.setState .retry
  · split
    · exact paired
    · dsimp only
      split
      · have idle := (paired.emit .onLoginSuccess trivial).setState .idle
        exact ⟨idle.numbered, idle.told.emit trivial⟩
      · have idle := paired.setState .idle
        exact ⟨idle.numbered, idle.told.emit trivial⟩

theorem step_paired {event : Event} (paired : client.Paired) (allowed : client.KeepsNumbers event)
    (stepped : client.step event = some after) : after.Paired := by
  cases event with
  | onJobReceived job =>
    simp only [step] at stepped
    split at stepped
    · cases stepped
      have held : { client with job, held := false }.Paired := ⟨paired.numbered, paired.told⟩
      exact held.getBlockTemplate
    · cases stepped
  | onLoginSuccess =>
    cases stepped
    have idle := (paired.emit .onLoginSuccess trivial).setState .idle
    exact ⟨idle.numbered, idle.told⟩
  | onClose failures =>
    cases stepped
    have idle := (paired.emit (.onClose failures) trivial).setState .idle
    exact ⟨idle.numbered, idle.told⟩
  | elapse msecs =>
    cases stepped
    exact ⟨paired.numbered, paired.told⟩
  | tick =>
    cases stepped
    unfold tick
    split
    · exact paired.getBlockTemplate
    · exact paired
  | submit result =>
    simp only [step] at stepped
    split at stepped
    · unfold submit at stepped
      split at stepped
      · rename_i origin
        have low := allowed.2
        simp only [sendsBlock, origin, Bool.true_and] at low
        obtain ⟨count, kept⟩ := submitOriginDaemon_low low
        rw [kept] at stepped
        cases stepped
        have counted : { client with originNotSubmitted := count }.Paired := ⟨paired.numbered, paired.told⟩
        exact counted.getBlockTemplate
      · cases stepped
        exact paired
    · cases stepped
  | onHttpData i data =>
    cases here : client.requests[i]? with
    | none => simp only [step, here] at stepped; cases stepped
    | some request =>
      simp only [step, here] at stepped
      have echo := allowed.1
      simp only [echoing, here, Option.all_some] at echo
      exact paired.onHttpData here echo stepped
  | onTemplate success =>
    simp only [step] at stepped
    split at stepped
    · cases stepped
    · cases stepped
      have answered : { client with callbacks := client.callbacks - 1 }.Paired := ⟨paired.numbered, paired.told⟩
      exact answered.onTemplate success

theorem submit_shares_number {result : JobResult} (origin : client.submitToOrigin = true)
    (reaches : client.reachesOrigin result = true) (stepped : client.step (.submit result) = some after) :
    ¬ (after.requests.map OriginRequest.id).Nodup := by
  simp only [step] at stepped
  split at stepped
  · rw [submit, if_pos origin] at stepped
    obtain ⟨sent, submitted, rfl⟩ := Option.map_eq_some_iff.mp stepped
    obtain ⟨template, block, _, _, rfl⟩ := submitOriginDaemon_high reaches submitted
    have requests (client : SelfSelectClient) : client.getBlockTemplate.requests =
        client.requests ++ [⟨.getblocktemplate, client.sequence, client.turns⟩] :=
      congrArg Numbers.requests client.getBlockTemplate_numbers
    rw [requests]
    simp only [emit, fetch, List.map_append, List.map_cons, List.map_nil, List.append_assoc,
      List.cons_append, List.nil_append]
    intro distinct
    have pair := (List.nodup_append.mp distinct).2.1
    simp at pair
  · cases stepped

theorem start_paired (submitToOrigin : Bool) (retries : Int) (retryPause : Nat) (coin : Coin) :
    (start submitToOrigin retries retryPause coin).Paired := by
  refine ⟨⟨List.nodup_nil, ?_, ?_, ?_, Int.one_pos⟩, ?_⟩ <;> intro _ member <;> cases member

/-- Answers and requests stay matched as long as no share goes to the daemon; the first one that
does shares its number with a template request. -/
theorem answers_matched {submitToOrigin : Bool} {retries : Int} {retryPause : Nat} {coin : Coin}
    {events : List Event} {final : SelfSelectClient}
    (allowed : Guarded step KeepsNumbers (start submitToOrigin retries retryPause coin) events)
    (executed : run step (start submitToOrigin retries retryPause coin) events = some final) :
    Matched final ∧ ∀ event after, final.sendsBlock event = true → final.step event = some after →
      ¬ Matched after := by
  have paired : final.Paired := run_invariant (P := Paired) (fun _ _ _ paired => step_paired paired)
    (start_paired submitToOrigin retries retryPause coin) allowed executed
  refine ⟨⟨paired.numbered.distinct, paired.told⟩, fun event after sends stepped matched => ?_⟩
  cases event with
  | submit result =>
    simp only [sendsBlock, Bool.and_eq_true] at sends
    exact submit_shares_number sends.1 sends.2 stepped matched.distinct
  | _ => cases sends

/-- `{"id":…,"result":{…}}`. -/
def answerOf (id : Int) (result : Json) : HttpData := ⟨200, some (.obj [("id", .int id), ("result", result)])⟩

def templateOf (mark : Byte) : Json :=
  .obj [("blocktemplate_blob", .str (List.replicate 80 mark ++ List.replicate 80 0x30)),
    ("blockhashing_blob", .str (List.replicate 2 mark ++ List.replicate 150 0x30)),
    ("height", .int 1), ("difficulty", .int 10), ("prev_hash", .str [])]

def poolJob (id : String) : Job :=
  { algorithm := .rx0, id := some id, extraNonce := some "00", poolWallet := some "4", diff := 1 }

/-- The pool has a job, the daemon a template, and the pool agrees. -/
def firstTemplate : List Event :=
  [.onLoginSuccess, .onJobReceived (poolJob "1"), .onHttpData 0 (answerOf 1 (templateOf 0x31)), .onTemplate true]

def firstDelivery : Delivery :=
  ⟨{ poolJob "1" with blob := 0x11 :: List.replicate 75 0, height := 1 }, some 1⟩

/-- A share for the pool only. -/
theorem answers_matched_lowShare :
    ∃ final, run step (start true 5 5000 .monero)
        (firstTemplate ++ [.submit ⟨firstDelivery, 7, 1, 9⟩]) = some final ∧ Matched final := by
  have executed : (run step (start true 5 5000 .monero)
      (firstTemplate ++ [.submit ⟨firstDelivery, 7, 1, 9⟩])).isSome = true := by
    decide +kernel
  refine ⟨_, (Option.some_get executed).symm, ?_⟩
  exact (answers_matched (by decide +kernel) (Option.some_get executed).symm).1

/-- A share that finds a block, and the answer of the daemon to it. -/
def blockFound : List Event :=
  firstTemplate ++ [.submit ⟨firstDelivery, 7, 1, 10⟩, .onHttpData 0 (answerOf 2 (.obj [("status", .str (text "OK"))]))]

/-- Two requests with one number, and the answer to the block is parsed as a template. -/
theorem blockFound_mismatched :
    Guarded step (fun client event => client.echoing event = true) (start true 5 5000 .monero) blockFound ∧
    (run step (start true 5 5000 .monero) (blockFound.take 5)).map (fun client =>
      client.requests.map fun request => (request.method, request.id)) =
        some [(.submitblock, 2), (.getblocktemplate, 2)] ∧
    (run step (start true 5 5000 .monero) blockFound).map (fun client => client.log.head?) =
        some (some (.parseResponse ⟨.submitblock, 2, 1⟩)) := by
  refine ⟨?_, ?_, ?_⟩ <;> decide +kernel

end SelfSelectClient

end Xmrig
