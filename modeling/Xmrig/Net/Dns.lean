import Xmrig.Foundation.Run
import Mathlib.Data.List.Count
import Mathlib.Data.List.Nodup
import Mathlib.Tactic.Common

/-! DNS requests of one host name.

A backend keeps the requests that wait for the host's address, the answer of
the last lookup and the time it arrived. `notify` walks over the queue and
calls each listener from inside the loop; a listener is free to make further
requests for the same host, or to drop any request, before it returns. A call
that has not returned is a frame, so that a run is a sequence of calls,
returns and completions in any order the event loop allows.
-/

set_option autoImplicit false

namespace Xmrig

open Foundation

/-- `ai_family` of a request or of an address. -/
inductive AddressFamily where
  | unspec
  | inet
  | inet6
  | other (family : Int)
  deriving DecidableEq, Repr

structure AddrInfo where
  family : AddressFamily
  addr : List (BitVec 8)
  deriving DecidableEq, Repr

namespace DnsRecords

/-- `dns_records_count`, with the family it settles on. -/
def count (res : List AddrInfo) (family : AddressFamily) : Nat × AddressFamily :=
  let ipv4 := res.countP fun info => info.family = .inet
  let ipv6 := res.countP fun info => info.family = .inet6
  let family := if family = .inet6 ∧ ipv6 = 0 then .inet else family
  match family with
  | .unspec => (ipv4 + ipv6, family)
  | .inet => (ipv4, family)
  | .inet6 => (ipv6, family)
  | .other _ => (0, family)

def ofAddrInfo (res : List AddrInfo) (family : AddressFamily) : List AddrInfo :=
  let (size, family) := count res family
  if size = 0 then []
  else if family = .unspec then
    res.filter fun info => info.family = .inet ∨ info.family = .inet6
  else res.filter fun info => info.family = family

end DnsRecords

structure DnsConfig where
  ttlSeconds : BitVec 32 := 30
  ipv : BitVec 32 := 0
  deriving DecidableEq, Repr

def DnsConfig.ttl (config : DnsConfig) : BitVec 32 := config.ttlSeconds * 1000

def DnsConfig.aiFamily (config : DnsConfig) : AddressFamily :=
  if config.ipv = 4 then .inet else if config.ipv = 6 then .inet6 else .unspec

namespace Dns

/-- `UV_EAI_NONAME`. -/
def eaiNoName : Int := -3008

/-- A call of `onResolved`. -/
structure Delivery where
  request : Nat
  records : List AddrInfo
  status : Int
  error : Option String
  deriving DecidableEq, Repr

/-- A loop of `notify` whose current listener has not returned. -/
structure Frame where
  current : Nat
  rest : List Nat
  error : Option String
  /-- The iterators of the loop may still be used. -/
  valid : Bool
  deriving DecidableEq, Repr

structure State where
  config : DnsConfig := {}
  queue : List Nat := []
  ts : BitVec 64 := 0
  status : Int := 0
  records : List AddrInfo := []
  aiFamily : AddressFamily := .unspec
  /-- The lookup whose `uv_getaddrinfo_t` the backend owns. -/
  req : Option Nat := none
  /-- Lookups libuv has not completed. -/
  inFlight : List Nat := []
  lookups : Nat := 0
  /-- Requests made so far; a request is named by its number. -/
  requests : Nat := 0
  /-- Requests whose owner has dropped them. -/
  released : List Nat := []
  /-- The loops that are running, the innermost first. -/
  frames : List Frame := []
  deliveries : List Delivery := []
  /-- The queue was changed while a loop was walking over it. -/
  modified : Bool := false
  /-- The program went on with an iterator or an object that was no longer there. -/
  undefined : Bool := false
  deriving DecidableEq, Repr

namespace State

/-- `l.lock()`: a loop keeps the request it is calling. -/
def locks (s : State) (request : Nat) : Bool :=
  !s.released.contains request || s.frames.any fun frame => frame.current == request

/-- Every change of the queue invalidates the iterators of all running loops. -/
def change (s : State) (queue : List Nat) : State :=
  { s with
    queue
    modified := s.modified || !s.frames.isEmpty
    frames := s.frames.map fun frame => { frame with valid := false } }

/-- `m_queue.emplace_back` with a new request. -/
def enqueue (s : State) : State :=
  { s.change (s.queue ++ [s.requests]) with requests := s.requests + 1 }

/-- The rest of the loop of `notify`, up to the next call or to its end. -/
def notifyFrom (s : State) (error : Option String) : List Nat → State
  | [] => { s.change [] with req := none }
  | request :: rest =>
      if s.locks request then
        { s with
          frames := ⟨request, rest, error, true⟩ :: s.frames
          deliveries := s.deliveries ++ [⟨request, s.records, s.status, error⟩] }
      else s.notifyFrom error rest

def onReturn (s : State) : Option State :=
  match s.frames with
  | [] => none
  | frame :: outer =>
      if frame.valid then some ({ s with frames := outer }.notifyFrom frame.error frame.rest)
      else some { s with undefined := true }

/-- `resolve(host)`; `started` is what `uv_getaddrinfo` returns. -/
def startLookup (s : State) (started : Int) : State :=
  { s with
    req := some s.lookups
    lookups := s.lookups + 1
    status := started
    inFlight := if started = 0 then s.lookups :: s.inFlight else s.inFlight }

section Answers
variable (strerror : Int → String)

def notify (s : State) : State :=
  s.notifyFrom (if s.status < 0 then some (strerror s.status) else none) s.queue

/-- `Dns::resolve` and `DnsUvBackend::resolve` at time `now`. -/
def resolve (s : State) (now : BitVec 64) (started : Int) : State :=
  let s := s.enqueue
  if now - s.ts ≤ s.config.ttl.setWidth 64 then s.notify strerror
  else if s.req.isSome then s
  else
    let s := { s with aiFamily := s.config.aiFamily }.startLookup started
    if s.status = 0 then s else s.notify strerror

def onResolved (s : State) (now : BitVec 64) (status : Int) (res : List AddrInfo) : State :=
  let s := { s with status, ts := now }
  if s.status < 0 then { s with records := [] }.notify strerror
  else
    let s := { s with records := DnsRecords.ofAddrInfo res s.aiFamily }
    if s.records.isEmpty then { s with status := eaiNoName }.notify strerror
    else s.notify strerror

end Answers

end State

inductive Event where
  | set (config : DnsConfig)
  | resolve (now : BitVec 64) (started : Int)
  | release (request : Nat)
  | returns
  | completed (lookup : Nat) (now : BitVec 64) (status : Int) (res : List AddrInfo)
  deriving DecidableEq, Repr

section Step
variable (strerror : Int → String)

/-- One call, return or completion. Requests are made and dropped from outside and from
listeners; libuv completes a lookup only when no listener is being called. -/
def step (s : State) (event : Event) : Option State :=
  if s.undefined then none
  else
    match event with
    | .set config => some { s with config }
    | .resolve now started => some (s.resolve strerror now started)
    | .release request =>
        if request < s.requests ∧ request ∉ s.released then
          some { s with released := request :: s.released }
        else none
    | .returns => s.onReturn
    | .completed lookup now status res =>
        if s.frames = [] ∧ lookup ∈ s.inFlight then
          let s := { s with inFlight := s.inFlight.erase lookup }
          -- `req->data` of an object that `m_req.reset()` has freed.
          if s.req = some lookup then some (s.onResolved strerror now status res)
          else some { s with undefined := true }
        else none

end Step

namespace State

def calls (s : State) (request : Nat) : Nat := s.deliveries.countP (·.request == request)

/-- The requests the innermost loop, or else the next one, will visit. -/
def ahead (s : State) : List Nat :=
  match s.frames with
  | [] => s.queue
  | frame :: _ => frame.rest

/-- The request will be visited by the running loop, or when the pending lookup completes. -/
structure Waiting (s : State) (request : Nat) : Prop where
  ahead : request ∈ s.ahead
  pending : s.frames = [] → ∃ lookup, s.req = some lookup ∧ lookup ∈ s.inFlight

/-- Every listener is called at most once; that of a request that stays alive is called
exactly once, unless the request still waits. No loop walks over a queue that changes. -/
structure Correct (s : State) : Prop where
  at_most_once : ∀ request, s.calls request ≤ 1
  answered : ∀ request < s.requests, request ∉ s.released →
    s.calls request = 1 ∧ ¬s.Waiting request ∨ s.calls request = 0 ∧ s.Waiting request
  unmodified : s.modified = false
  defined : s.undefined = false

/-- Nobody asks for the host from inside a listener, and a completed lookup is the one the
backend owns. -/
def Orderly (s : State) : Event → Prop
  | .resolve .. => s.frames = []
  | .completed lookup .. => s.req = some lookup
  | _ => True

instance decidableOrderly (s : State) : (event : Event) → Decidable (s.Orderly event)
  | .resolve .. => inferInstanceAs (Decidable (s.frames = []))
  | .completed lookup .. => inferInstanceAs (Decidable (s.req = some lookup))
  | .set _ | .release _ | .returns => .isTrue trivial

/-- The books when the requests of `rest` are the ones still to be visited. -/
structure Ledger (s : State) (rest : List Nat) : Prop where
  distinct : rest.Nodup
  made : ∀ request ∈ rest, request < s.requests
  uncalled : ∀ request ∈ rest, s.calls request = 0
  called : ∀ request < s.requests, request ∉ rest → request ∉ s.released → s.calls request = 1
  at_most_once : ∀ request, s.calls request ≤ 1
  future : ∀ request, s.requests ≤ request → s.calls request = 0

/-- What an orderly run keeps: one loop at most, over a queue nobody changes. -/
structure Inv (s : State) : Prop where
  ledger : s.Ledger s.ahead
  single : s.frames = [] ∨ ∃ frame, s.frames = [frame] ∧ frame.valid = true
  owned : s.frames = [] → ∀ lookup, s.req = some lookup → lookup ∈ s.inFlight
  pending : s.frames = [] → s.queue ≠ [] → s.req ≠ none
  unmodified : s.modified = false
  defined : s.undefined = false

variable {s : State} {rest : List Nat}

theorem locks_of_idle (idle : s.frames = []) (request : Nat) :
    s.locks request = true ↔ request ∉ s.released := by
  simp [locks, idle]

theorem Ledger.congr {other : State} (ledger : s.Ledger rest) (requests : other.requests = s.requests)
    (released : ∀ request, request ∈ s.released → request ∈ other.released)
    (deliveries : other.deliveries = s.deliveries) : other.Ledger rest := by
  have calls : other.calls = s.calls := by
    funext request
    simp only [State.calls, deliveries]
  refine ⟨ledger.distinct, ?_, ?_, ?_, ?_, ?_⟩
  · rw [requests]
    exact ledger.made
  · rw [calls]
    exact ledger.uncalled
  · rw [calls, requests]
    intro request made visited kept
    apply ledger.called request made visited
    exact fun gone => kept (released request gone)
  · rw [calls]
    exact ledger.at_most_once
  · rw [calls, requests]
    exact ledger.future

theorem Ledger.skip {request : Nat} (ledger : s.Ledger (request :: rest))
    (gone : request ∈ s.released) : s.Ledger rest := by
  refine ⟨ledger.distinct.of_cons, fun later member => ?_, fun later member => ?_, ?_,
    ledger.at_most_once, ledger.future⟩
  · exact ledger.made later (List.mem_cons_of_mem request member)
  · exact ledger.uncalled later (List.mem_cons_of_mem request member)
  · intro other made visited kept
    apply ledger.called other made _ kept
    intro member
    rcases List.mem_cons.mp member with same | later
    · exact kept (same ▸ gone)
    · exact visited later

theorem Ledger.deliver {other : State} (delivery : Delivery)
    (ledger : s.Ledger (delivery.request :: rest)) (requests : other.requests = s.requests)
    (released : other.released = s.released)
    (deliveries : other.deliveries = s.deliveries ++ [delivery]) : other.Ledger rest := by
  have calls (request : Nat) : other.calls request =
      s.calls request + if delivery.request = request then 1 else 0 := by
    simp only [State.calls, deliveries, List.countP_append, List.countP_singleton, beq_iff_eq]
  obtain ⟨fresh, distinct⟩ := List.nodup_cons.mp ledger.distinct
  have first := ledger.uncalled delivery.request List.mem_cons_self
  refine ⟨distinct, fun later member => ?_, fun later member => ?_, ?_, fun request => ?_, ?_⟩
  · rw [requests]
    exact ledger.made later (List.mem_cons_of_mem _ member)
  · have apart : delivery.request ≠ later := fun same => fresh (same ▸ member)
    rw [calls, if_neg apart]
    exact ledger.uncalled later (List.mem_cons_of_mem _ member)
  · rw [requests, released]
    intro request made visited kept
    rw [calls]
    by_cases same : delivery.request = request
    · rw [if_pos same, ← same, first]
    · rw [if_neg same]
      apply ledger.called request made _ kept
      simp [visited, Ne.symm same]
  · rw [calls]
    by_cases same : delivery.request = request
    · apply Nat.le_of_eq
      rw [if_pos same, ← same, first]
    · rw [if_neg same]
      exact ledger.at_most_once request
  · rw [requests]
    intro request late
    have apart : delivery.request ≠ request := by
      intro same
      have := ledger.made delivery.request List.mem_cons_self
      omega
    rw [calls, if_neg apart]
    exact ledger.future request late

theorem Ledger.queued {other : State} (ledger : s.Ledger rest)
    (requests : other.requests = s.requests + 1) (released : other.released = s.released)
    (deliveries : other.deliveries = s.deliveries) : other.Ledger (rest ++ [s.requests]) := by
  have calls : other.calls = s.calls := by
    funext request
    simp only [State.calls, deliveries]
  refine ⟨?_, fun request member => ?_, fun request member => ?_, ?_, ?_, ?_⟩
  · apply List.nodup_append.mpr
    refine ⟨ledger.distinct, List.nodup_singleton _, fun earlier member last only same => ?_⟩
    have := ledger.made earlier member
    have := List.mem_singleton.mp only
    omega
  · rcases List.mem_append.mp member with earlier | last
    · have := ledger.made request earlier
      omega
    · have := List.mem_singleton.mp last
      omega
  · rw [calls]
    rcases List.mem_append.mp member with earlier | last
    · exact ledger.uncalled request earlier
    · exact ledger.future request (Nat.le_of_eq (List.mem_singleton.mp last).symm)
  · rw [requests, released, calls]
    intro request made visited kept
    simp only [List.mem_append, List.mem_singleton, not_or] at visited
    exact ledger.called request (by omega) visited.1 kept
  · rw [calls]
    exact ledger.at_most_once
  · rw [requests, calls]
    intro request late
    exact ledger.future request (by omega)

/-- The loop of `notify`, entered or resumed when no other is running. -/
theorem notifyFrom_inv (error : Option String) (idle : s.frames = []) (ledger : s.Ledger rest)
    (unmodified : s.modified = false) (defined : s.undefined = false) :
    (s.notifyFrom error rest).Inv := by
  induction rest with
  | nil =>
    have kept : { s.change [] with req := none }.Ledger [] :=
      ledger.congr rfl (fun _ member => member) rfl
    refine ⟨?_, .inl ?_, ?_, ?_, ?_, ?_⟩
    · simpa [notifyFrom, ahead, change, idle] using kept
    · simp [notifyFrom, change, idle]
    · simp [notifyFrom]
    · simp [notifyFrom, change]
    · simp [notifyFrom, change, idle, unmodified]
    · exact defined
  | cons request rest ih =>
    unfold notifyFrom
    split
    case isTrue locked =>
      refine ⟨?_, .inr ⟨⟨request, rest, error, true⟩, ?_, rfl⟩, ?_, ?_, unmodified, defined⟩
      · apply Ledger.deliver (s := s) ⟨request, s.records, s.status, error⟩ ledger
        all_goals rfl
      · rw [idle]
      · exact fun none => absurd none (List.cons_ne_nil _ _)
      · exact fun none => absurd none (List.cons_ne_nil _ _)
    case isFalse unlocked =>
      apply ih
      apply ledger.skip
      rwa [locks_of_idle idle, not_not] at unlocked

section Runs
variable (strerror : Int → String)

theorem notify_inv (idle : s.frames = []) (ledger : s.Ledger s.queue)
    (unmodified : s.modified = false) (defined : s.undefined = false) : (s.notify strerror).Inv :=
  notifyFrom_inv _ idle ledger unmodified defined

theorem Inv.resolve (inv : s.Inv) (idle : s.frames = []) (now : BitVec 64) (started : Int) :
    (s.resolve strerror now started).Inv := by
  have books : s.Ledger s.queue := by simpa only [ahead, idle] using inv.ledger
  have unframed : s.enqueue.frames = [] := by simp [enqueue, change, idle]
  have unmodified : s.enqueue.modified = false := by simp [enqueue, change, idle, inv.unmodified]
  have queued : s.enqueue.Ledger s.enqueue.queue := books.queued rfl rfl rfl
  unfold State.resolve
  dsimp only
  split
  case isTrue fresh => exact notify_inv strerror unframed queued unmodified inv.defined
  split
  case isTrue busy =>
    refine ⟨?_, .inl unframed, fun _ => inv.owned idle, fun _ _ => ?_, unmodified, inv.defined⟩
    · simpa only [ahead, unframed] using queued
    · exact Option.isSome_iff_ne_none.mp busy
  split
  case isTrue ok =>
    have accepted : started = 0 := ok
    refine ⟨?_, .inl unframed, fun _ lookup owned => ?_, fun _ _ => ?_, unmodified, inv.defined⟩
    · simp only [ahead, startLookup, unframed]
      exact queued.congr rfl (fun _ member => member) rfl
    · cases owned
      simp [startLookup, accepted]
    · simp [startLookup]
  case isFalse refused =>
    exact notify_inv strerror unframed (queued.congr rfl (fun _ member => member) rfl) unmodified
      inv.defined

theorem Inv.onResolved (inv : s.Inv) (idle : s.frames = []) (inFlight : List Nat) (now : BitVec 64)
    (status : Int) (res : List AddrInfo) :
    ({ s with inFlight }.onResolved strerror now status res).Inv := by
  have books : s.Ledger s.queue := by simpa only [ahead, idle] using inv.ledger
  unfold State.onResolved
  dsimp only
  split
  · exact notify_inv strerror idle (books.congr rfl (fun _ member => member) rfl) inv.unmodified
      inv.defined
  split
  all_goals
    exact notify_inv strerror idle (books.congr rfl (fun _ member => member) rfl) inv.unmodified
      inv.defined

theorem Inv.onReturn {next : State} (inv : s.Inv) (returned : s.onReturn = some next) :
    next.Inv := by
  rcases inv.single with idle | ⟨frame, only, valid⟩
  · simp [State.onReturn, idle] at returned
  · have books : s.Ledger frame.rest := by simpa only [ahead, only] using inv.ledger
    simp only [State.onReturn, only, valid, if_true, Option.some.injEq] at returned
    subst returned
    exact notifyFrom_inv _ rfl (books.congr rfl (fun _ member => member) rfl) inv.unmodified
      inv.defined

theorem Inv.step {next : State} {event : Event} (inv : s.Inv) (orderly : s.Orderly event)
    (stepped : Dns.step strerror s event = some next) : next.Inv := by
  unfold Dns.step at stepped
  rw [if_neg (by simp [inv.defined])] at stepped
  cases event with
  | set config =>
    cases stepped
    exact ⟨inv.ledger.congr rfl (fun _ member => member) rfl, inv.single, inv.owned, inv.pending,
      inv.unmodified, inv.defined⟩
  | resolve now started =>
    cases stepped
    exact inv.resolve strerror orderly now started
  | release request =>
    dsimp only at stepped
    split at stepped <;> cases stepped
    refine ⟨?_, inv.single, inv.owned, inv.pending, inv.unmodified, inv.defined⟩
    exact inv.ledger.congr rfl (fun _ member => List.mem_cons_of_mem request member) rfl
  | returns => exact inv.onReturn stepped
  | completed lookup now status res =>
    dsimp only at stepped
    split at stepped
    case isTrue possible =>
      have owned : s.req = some lookup := orderly
      rw [if_pos owned] at stepped
      cases stepped
      exact inv.onResolved strerror possible.1 _ now status res
    case isFalse => cases stepped

theorem Inv.correct (inv : s.Inv) : s.Correct := by
  refine ⟨inv.ledger.at_most_once, fun request made kept => ?_, inv.unmodified, inv.defined⟩
  by_cases ahead : request ∈ s.ahead
  · refine .inr ⟨inv.ledger.uncalled request ahead, ahead, fun idle => ?_⟩
    have queued : s.queue ≠ [] := by
      intro empty
      simp [State.ahead, idle, empty] at ahead
    obtain ⟨lookup, owned⟩ := Option.ne_none_iff_exists'.mp (inv.pending idle queued)
    exact ⟨lookup, owned, inv.owned idle lookup owned⟩
  · exact .inl ⟨inv.ledger.called request made ahead kept, fun waiting => ahead waiting.ahead⟩

/-- Once no lookup is in flight and no listener is being called, every request that is alive
has been answered. -/
theorem Correct.settled (correct : s.Correct) (idle : s.frames = []) (quiet : s.inFlight = [])
    {request : Nat} (made : request < s.requests) (kept : request ∉ s.released) :
    s.calls request = 1 := by
  rcases correct.answered request made kept with ⟨once, _⟩ | ⟨_, waits⟩
  · exact once
  · obtain ⟨lookup, _, pending⟩ := waits.pending idle
    simp [quiet] at pending

theorem notifyFrom_shorter (error : Option String) (idle : s.frames = []) (rest : List Nat) :
    (s.notifyFrom error rest).frames = [] ∧ (s.notifyFrom error rest).queue = [] ∨
      (s.notifyFrom error rest).frames ≠ [] ∧
        (s.notifyFrom error rest).ahead.length < rest.length := by
  induction rest with
  | nil => exact .inl ⟨by simp [notifyFrom, change, idle], rfl⟩
  | cons request rest ih =>
    unfold notifyFrom
    split
    · exact .inr ⟨List.cons_ne_nil _ _, Nat.lt_succ_self _⟩
    · exact ih.imp_right fun later => ⟨later.1, Nat.lt_succ_of_lt later.2⟩

theorem Inv.drains (inv : s.Inv) (busy : s.frames ≠ []) :
    ∃ count final, run (Dns.step strerror) s (List.replicate count .returns) = some final ∧
      final.Inv ∧ final.frames = [] ∧ final.queue = [] := by
  obtain ⟨length, bound⟩ : ∃ length, s.ahead.length = length := ⟨_, rfl⟩
  -- the requests ahead of the loop become fewer with every return
  induction length using Nat.strongRecOn generalizing s with
  | ind length ih =>
    obtain idle | ⟨frame, only, valid⟩ := inv.single
    · exact absurd idle busy
    have returned : s.onReturn = some ({ s with frames := [] }.notifyFrom frame.error frame.rest) := by
      simp only [State.onReturn, only, valid, if_true]
    have stepped : Dns.step strerror s .returns =
        some ({ s with frames := [] }.notifyFrom frame.error frame.rest) := by
      simp only [Dns.step, inv.defined, Bool.false_eq_true, if_false, returned]
    have kept := inv.onReturn returned
    obtain ⟨done, empty⟩ | ⟨more, shorter⟩ :=
      notifyFrom_shorter (s := { s with frames := [] }) frame.error rfl frame.rest
    · exact ⟨1, _, run_cons_iff.mpr ⟨_, stepped, rfl⟩, kept, done, empty⟩
    · have ahead : s.ahead = frame.rest := by simp only [State.ahead, only]
      obtain ⟨count, final, executed, settled⟩ :=
        ih _ (by rw [← bound, ahead]; exact shorter) kept more rfl
      exact ⟨count + 1, final, run_cons_iff.mpr ⟨_, stepped, executed⟩, settled⟩

theorem notifyFrom_modified (error : Option String) (rest : List Nat) (modified : s.modified = true) :
    (s.notifyFrom error rest).modified = true := by
  induction rest with
  | nil => simp [notifyFrom, change, modified]
  | cons request rest ih =>
    unfold notifyFrom
    split
    · exact modified
    · exact ih

theorem resolve_modified (now : BitVec 64) (started : Int) (busy : s.frames ≠ []) :
    (s.resolve strerror now started).modified = true := by
  have changed : s.enqueue.modified = true := by simp [enqueue, change, busy]
  unfold State.resolve
  dsimp only
  split
  · exact notifyFrom_modified _ _ changed
  split
  · exact changed
  split
  · exact changed
  · exact notifyFrom_modified _ _ changed

theorem not_correct_of_disorderly {next : State} {event : Event} (disorderly : ¬s.Orderly event)
    (stepped : Dns.step strerror s event = some next) : ¬next.Correct := by
  intro correct
  unfold Dns.step at stepped
  split at stepped
  · cases stepped
  cases event with
  | resolve now started =>
    cases stepped
    have := resolve_modified strerror now started disorderly
    simp [correct.unmodified] at this
  | completed lookup now status res =>
    have freed : s.req ≠ some lookup := disorderly
    dsimp only at stepped
    rw [if_neg freed] at stepped
    split at stepped <;> cases stepped
    exact Bool.noConfusion correct.defined
  | _ => exact disorderly trivial

theorem start_inv : ({} : State).Inv where
  ledger := ⟨List.nodup_nil, by simp [ahead], by simp [ahead], by simp, by simp [State.calls],
    by simp [State.calls]⟩
  single := .inl rfl
  owned := by simp
  pending := by simp
  unmodified := rfl
  defined := rfl

end Runs

end State

/-- Over every run of requests, drops, returns and completions, the answers are delivered
exactly once in every state reached if and only if no listener asks for the same host before
it returns and every completed lookup is the one the backend owns. -/
theorem answers_once_iff (strerror : Int → String) {events : List Event} {final : State}
    (executed : run (step strerror) {} events = some final) :
    Throughout (step strerror) State.Correct {} events ↔
      Guarded (step strerror) State.Orderly {} events :=
  throughout_iff_guarded (fun _ inv => State.Inv.correct inv)
    (fun _ _ _ inv orderly stepped => inv.step strerror orderly stepped)
    (fun _ _ _ _ disorderly stepped => State.not_correct_of_disorderly strerror disorderly stepped)
    State.start_inv executed

/-- `uv_strerror`, as far as the runs below use it. -/
def strerror (status : Int) : String :=
  if status = eaiNoName then "unknown node or service" else "Unknown system error"

/-- Two clients wait for one lookup; a third request is answered from the cache. -/
def sharedLookup : List Event :=
  [.resolve 1700000000000 0, .resolve 1700000000005 0,
    .completed 0 1700000000020 0 [⟨.inet, [127, 0, 0, 1]⟩], .release 0, .returns, .release 1, .returns,
    .resolve 1700000010000 0, .returns]

theorem sharedLookup_runs : (run (step strerror) {} sharedLookup).isSome = true := by
  decide

theorem answers_once_sharedLookup : Throughout (step strerror) State.Correct {} sharedLookup := by
  obtain ⟨final, executed⟩ := Option.isSome_iff_exists.mp sharedLookup_runs
  exact (answers_once_iff strerror executed).mpr (by decide)

/-- Three pools of a failover strategy on a host name that does not resolve. Each listener is
told of the error, closes, and makes the strategy connect the next pool before it returns. -/
def failoverChain : List Event :=
  [.resolve 1700000000000 0, .completed 0 1700000000020 eaiNoName [], .release 0,
    .resolve 1700000000020 0, .returns, .resolve 1700000000020 0, .returns, .returns, .returns]

/-- The request of the second pool is alive and was answered twice, the first one's three
times; the outer loops go on over a queue that was extended and cleared. -/
theorem failoverChain_answers_twice :
    (run (step strerror) {} failoverChain).map (fun s =>
        (s.calls 0, s.calls 1, s.calls 2, s.released, s.modified)) =
      some (3, 2, 1, [0], true) ∧
    ¬Throughout (step strerror) State.Correct {} failoverChain := by
  refine ⟨by decide, fun correct => ?_⟩
  have final : (run (step strerror) {} failoverChain).map (·.modified) = some true := by
    decide
  obtain ⟨reached, executed, modified⟩ := Option.map_eq_some_iff.mp final
  have unmodified := (throughout_last correct executed).unmodified
  simp [modified] at unmodified

end Dns

end Xmrig
