import Xmrig.Base.Names
import Xmrig.Foundation.Run
import Mathlib.Data.List.Basic
import Mathlib.Tactic.Common

/-! One HTTP connection.

llhttp reports a message through callbacks. A token of the message, such as
the URL or a header value, comes as one or more spans, cut wherever a read of
the socket ended. The context collects the spans and passes the message to its
listener when it is complete, or passes what there is when the connection is
closed with an error.
-/

set_option autoImplicit false

namespace Xmrig.Http

open Foundation

structure HttpData where
  method : Nat := 0
  status : Int := 0
  headers : List (List Byte × List Byte) := []
  body : List Byte := []
  url : List Byte := []
  deriving DecidableEq, Repr

/-- `headers.insert`: an entry that is there stays. -/
def HttpData.insertHeader (data : HttpData) (name value : List Byte) : HttpData :=
  if (data.headers.any fun header => header.1 == name) then data
  else { data with headers := data.headers ++ [(name, value)] }

/-- What llhttp reports; the end of the headers comes with the parser's `status_code` and
`method`. -/
inductive HttpCallback where
  | url (span : List Byte)
  | headerField (span : List Byte)
  | headerValue (span : List Byte)
  | headersComplete (statusCode : Nat) (method : Nat)
  | body (span : List Byte)
  | messageComplete
  deriving DecidableEq, Repr

structure HttpContext where
  data : HttpData
  /-- The type of the parser is `HTTP_REQUEST`. -/
  isRequest : Bool
  wasHeaderValue : Bool := false
  lastHeaderField : List Byte := []
  lastHeaderValue : List Byte := []
  /-- `m_listener` refers to a listener that exists. -/
  listener : Bool := true
  /-- `storage` has the context. -/
  stored : Bool := true
  /-- `uv_close` was called on the socket. -/
  closing : Bool := false
  /-- llhttp has reported an error. -/
  failed : Bool := false
  /-- What was passed to `onHttpData`. -/
  calls : List HttpData := []
  deriving DecidableEq, Repr

namespace HttpContext

def setHeader (ctx : HttpContext) : HttpContext :=
  { ctx with
    data := ctx.data.insertHeader (ctx.lastHeaderField.map toLower) ctx.lastHeaderValue
    lastHeaderField := []
    lastHeaderValue := [] }

def onHeaderField (ctx : HttpContext) (span : List Byte) : HttpContext :=
  if ctx.wasHeaderValue then
    let ctx := if ctx.lastHeaderField.isEmpty then ctx else ctx.setHeader
    { ctx with lastHeaderField := span, wasHeaderValue := false }
  else { ctx with lastHeaderField := ctx.lastHeaderField ++ span }

def onHeaderValue (ctx : HttpContext) (span : List Byte) : HttpContext :=
  if ctx.wasHeaderValue then { ctx with lastHeaderValue := ctx.lastHeaderValue ++ span }
  else { ctx with lastHeaderValue := span, wasHeaderValue := true }

def onHeadersComplete (ctx : HttpContext) (statusCode method : Nat) : HttpContext :=
  let ctx := { ctx with data.status := statusCode }
  let ctx := if ctx.isRequest then { ctx with data.method := method } else ctx
  if ctx.lastHeaderField.isEmpty then ctx else ctx.setHeader

def onMessageComplete (ctx : HttpContext) : HttpContext :=
  if ctx.listener then { ctx with calls := ctx.calls ++ [ctx.data], listener := false } else ctx

/-- The callbacks that `attach` registers. -/
def callback (ctx : HttpContext) : HttpCallback → HttpContext
  | .url span => { ctx with data.url := span }
  | .headerField span => ctx.onHeaderField span
  | .headerValue span => ctx.onHeaderValue span
  | .headersComplete statusCode method => ctx.onHeadersComplete statusCode method
  | .body span => { ctx with data.body := ctx.data.body ++ span }
  | .messageComplete => ctx.onMessageComplete

def parse (ctx : HttpContext) (callbacks : List HttpCallback) : HttpContext :=
  callbacks.foldl callback ctx

def close (ctx : HttpContext) (status : Int) : HttpContext :=
  if ctx.stored then
    let ctx :=
      if status < 0 ∧ ctx.listener then
        let ctx := { ctx with data.status := status }
        { ctx with calls := ctx.calls ++ [ctx.data] }
      else ctx
    { ctx with stored := false, closing := true }
  else ctx

def fail (ctx : HttpContext) : HttpContext := { ctx with failed := true }

/-- What can happen to a context. A read comes with the callbacks llhttp makes on it and
whether `llhttp_execute` succeeds. -/
inductive Event where
  | read (callbacks : List HttpCallback) (ok : Bool)
  | close (status : Int)
  | closeAll
  | listenerGone
  deriving DecidableEq, Repr

/-- `failure` is the status a context of this kind is closed with when a read fails to parse.
After an error llhttp makes no further callbacks, and a closing socket is not read any more;
only the rest of one TLS record still comes to a parser that has failed. -/
def step (failure : Int) (ctx : HttpContext) : Event → Option HttpContext
  | .read callbacks ok =>
      if ctx.failed then some (ctx.close failure)
      else if ctx.closing then none
      else
        let ctx := ctx.parse callbacks
        if ok then some ctx else some (ctx.fail.close failure)
  | .close status => some (ctx.close status)
  | .closeAll => some { ctx with closing := true }
  | .listenerGone => some { ctx with listener := false }

/-- A context before the first read; a client has filled in what it sent. -/
def fresh (data : HttpData) (isRequest : Bool) : HttpContext := { data, isRequest }

end HttpContext

structure HttpSpans where
  spans : List (List Byte)
  some : spans ≠ []

namespace HttpSpans

def token (cut : HttpSpans) : List Byte := cut.spans.flatten

def last (cut : HttpSpans) : List Byte := cut.spans.getLast cut.some

def whole (cut : HttpSpans) : HttpSpans := ⟨[cut.token], List.cons_ne_nil _ _⟩

end HttpSpans

/-- A message as llhttp reports it under some segmentation. A chunked body has a token for
every chunk; trailers come after the body. -/
structure HttpReport where
  url : Option HttpSpans
  headers : List (HttpSpans × HttpSpans)
  statusCode : Nat
  method : Nat
  body : List HttpSpans
  trailers : List (HttpSpans × HttpSpans)

namespace HttpReport

def fieldCallbacks (fields : List (HttpSpans × HttpSpans)) : List HttpCallback :=
  fields.flatMap fun field =>
    field.1.spans.map .headerField ++ field.2.spans.map .headerValue

def urlCallbacks (report : HttpReport) : List HttpCallback :=
  match report.url with
  | none => []
  | some cut => cut.spans.map .url

def innerCallbacks (report : HttpReport) : List HttpCallback :=
  fieldCallbacks report.headers ++ [.headersComplete report.statusCode report.method] ++
    (report.body.flatMap fun cut => cut.spans.map .body) ++ fieldCallbacks report.trailers

def callbacks (report : HttpReport) : List HttpCallback :=
  report.urlCallbacks ++ report.innerCallbacks ++ [.messageComplete]

def wholeFields (fields : List (HttpSpans × HttpSpans)) : List (HttpSpans × HttpSpans) :=
  fields.map fun field => (field.1.whole, field.2.whole)

def whole (report : HttpReport) : HttpReport where
  url := report.url.map HttpSpans.whole
  headers := wholeFields report.headers
  statusCode := report.statusCode
  method := report.method
  body := report.body.map HttpSpans.whole
  trailers := wholeFields report.trailers

end HttpReport

namespace HttpContext

variable {ctx : HttpContext}

theorem parse_append (ctx : HttpContext) (first second : List HttpCallback) :
    ctx.parse (first ++ second) = (ctx.parse first).parse second :=
  List.foldl_append

section Spans

theorem parse_field_tail (spans : List (List Byte)) (open_ : ctx.wasHeaderValue = false) :
    ctx.parse (spans.map .headerField) =
      { ctx with lastHeaderField := ctx.lastHeaderField ++ spans.flatten } := by
  induction spans generalizing ctx with
  | nil => simp [parse]
  | cons span rest ih =>
    have first : ctx.onHeaderField span =
        { ctx with lastHeaderField := ctx.lastHeaderField ++ span } := by
      simp only [onHeaderField, open_, Bool.false_eq_true, if_false]
    rw [List.map_cons, parse, List.foldl_cons, callback, first, ← parse, ih]
    · simp only [List.flatten_cons, List.append_assoc]
    · exact open_

theorem parse_value_tail (spans : List (List Byte)) (open_ : ctx.wasHeaderValue = true) :
    ctx.parse (spans.map .headerValue) =
      { ctx with lastHeaderValue := ctx.lastHeaderValue ++ spans.flatten } := by
  induction spans generalizing ctx with
  | nil => simp [parse]
  | cons span rest ih =>
    have first : ctx.onHeaderValue span =
        { ctx with lastHeaderValue := ctx.lastHeaderValue ++ span } := by
      simp only [onHeaderValue, open_, if_true]
    rw [List.map_cons, parse, List.foldl_cons, callback, first, ← parse, ih]
    · simp only [List.flatten_cons, List.append_assoc]
    · exact open_

theorem parse_field (ctx : HttpContext) (cut : HttpSpans) :
    ctx.parse (cut.spans.map .headerField) = ctx.onHeaderField cut.token := by
  obtain ⟨spans, some⟩ := cut
  cases spans with
  | nil => exact absurd rfl some
  | cons span rest =>
    have started : (ctx.onHeaderField span).wasHeaderValue = false := by
      unfold onHeaderField
      split
      · rfl
      · simp_all
    rw [List.map_cons, parse, List.foldl_cons, callback, ← parse, parse_field_tail rest started]
    unfold onHeaderField
    split
    · rfl
    · simp only [HttpSpans.token, List.flatten_cons, List.append_assoc]

theorem parse_value (ctx : HttpContext) (cut : HttpSpans) :
    ctx.parse (cut.spans.map .headerValue) = ctx.onHeaderValue cut.token := by
  obtain ⟨spans, some⟩ := cut
  cases spans with
  | nil => exact absurd rfl some
  | cons span rest =>
    have started : (ctx.onHeaderValue span).wasHeaderValue = true := by
      unfold onHeaderValue
      split
      · assumption
      · rfl
    rw [List.map_cons, parse, List.foldl_cons, callback, ← parse, parse_value_tail rest started]
    unfold onHeaderValue
    split
    · simp only [HttpSpans.token, List.flatten_cons, List.append_assoc]
    · rfl

theorem parse_body (ctx : HttpContext) (cut : HttpSpans) :
    ctx.parse (cut.spans.map .body) = { ctx with data.body := ctx.data.body ++ cut.token } := by
  unfold HttpSpans.token
  generalize cut.spans = spans
  induction spans generalizing ctx with
  | nil => simp [parse]
  | cons span rest ih =>
    rw [List.map_cons, parse, List.foldl_cons, callback, ← parse, ih]
    simp only [List.flatten_cons, List.append_assoc]

theorem parse_url (ctx : HttpContext) (cut : HttpSpans) :
    ctx.parse (cut.spans.map .url) = { ctx with data.url := cut.last } := by
  obtain ⟨spans, some⟩ := cut
  induction spans generalizing ctx with
  | nil => exact absurd rfl some
  | cons span rest ih =>
    rw [List.map_cons, parse, List.foldl_cons, callback, ← parse]
    cases rest with
    | nil => rfl
    | cons next later => exact ih _ (List.cons_ne_nil _ _)

@[simp] theorem token_whole (cut : HttpSpans) : cut.whole.token = cut.token := by
  simp [HttpSpans.whole, HttpSpans.token]

theorem parse_fields (ctx : HttpContext) (fields : List (HttpSpans × HttpSpans)) :
    ctx.parse (HttpReport.fieldCallbacks (HttpReport.wholeFields fields)) =
      ctx.parse (HttpReport.fieldCallbacks fields) := by
  induction fields generalizing ctx with
  | nil => rfl
  | cons field rest ih =>
    simp only [HttpReport.wholeFields, HttpReport.fieldCallbacks] at ih ⊢
    simp only [List.map_cons, List.flatMap_cons, parse_append, parse_field, parse_value,
      token_whole]
    exact ih _

theorem parse_bodies (ctx : HttpContext) (bodies : List HttpSpans) :
    ctx.parse ((bodies.map HttpSpans.whole).flatMap fun cut => cut.spans.map .body) =
      ctx.parse (bodies.flatMap fun cut => cut.spans.map .body) := by
  induction bodies generalizing ctx with
  | nil => rfl
  | cons cut rest ih =>
    simp only [List.map_cons, List.flatMap_cons, parse_append, parse_body, token_whole]
    exact ih _

/-- Headers, body and trailers do not depend on where their tokens are cut. -/
theorem parse_inner_whole (ctx : HttpContext) (report : HttpReport) :
    ctx.parse report.whole.innerCallbacks = ctx.parse report.innerCallbacks := by
  simp only [HttpReport.innerCallbacks, HttpReport.whole, parse_append, parse_fields, parse_bodies]

end Spans

section Calls

/-- The listener is not called and the URL stays. -/
structure Quiet (ctx next : HttpContext) : Prop where
  calls : next.calls = ctx.calls
  listener : next.listener = ctx.listener
  url : next.data.url = ctx.data.url

theorem Quiet.trans {first second third : HttpContext} (before : Quiet first second)
    (after : Quiet second third) : Quiet first third :=
  ⟨after.calls.trans before.calls, after.listener.trans before.listener, after.url.trans before.url⟩

theorem setHeader_quiet (ctx : HttpContext) : Quiet ctx ctx.setHeader := by
  refine ⟨rfl, rfl, ?_⟩
  unfold setHeader HttpData.insertHeader
  dsimp only
  split <;> rfl

theorem onHeaderField_quiet (ctx : HttpContext) (span : List Byte) :
    Quiet ctx (ctx.onHeaderField span) := by
  unfold onHeaderField
  split
  · dsimp only
    split
    · exact ⟨rfl, rfl, rfl⟩
    · exact (setHeader_quiet ctx).trans ⟨rfl, rfl, rfl⟩
  · exact ⟨rfl, rfl, rfl⟩

theorem onHeaderValue_quiet (ctx : HttpContext) (span : List Byte) :
    Quiet ctx (ctx.onHeaderValue span) := by
  unfold onHeaderValue
  split <;> exact ⟨rfl, rfl, rfl⟩

theorem onHeadersComplete_quiet (ctx : HttpContext) (statusCode method : Nat) :
    Quiet ctx (ctx.onHeadersComplete statusCode method) := by
  have filled (next : HttpContext) (quiet : Quiet ctx next) :
      Quiet ctx (if next.lastHeaderField.isEmpty then next else next.setHeader) := by
    split
    · exact quiet
    · exact quiet.trans (setHeader_quiet next)
  unfold onHeadersComplete
  apply filled
  dsimp only
  split <;> exact ⟨rfl, rfl, rfl⟩

/-- A callback inside of a message, unless it is about the URL. -/
theorem callback_quiet (ctx : HttpContext) {reported : HttpCallback} (inside : reported ≠ .messageComplete)
    (other : ∀ span, reported ≠ .url span) : Quiet ctx (ctx.callback reported) := by
  cases reported with
  | url span => exact absurd rfl (other span)
  | headerField span => exact onHeaderField_quiet ctx span
  | headerValue span => exact onHeaderValue_quiet ctx span
  | headersComplete statusCode method => exact onHeadersComplete_quiet ctx statusCode method
  | body span => exact ⟨rfl, rfl, rfl⟩
  | messageComplete => exact absurd rfl inside

theorem parse_quiet (ctx : HttpContext) {callbacks : List HttpCallback}
    (inside : ∀ reported ∈ callbacks, reported ≠ .messageComplete ∧ ∀ span, reported ≠ .url span) :
    Quiet ctx (ctx.parse callbacks) := by
  induction callbacks generalizing ctx with
  | nil => exact ⟨rfl, rfl, rfl⟩
  | cons reported rest ih =>
    obtain ⟨ends, other⟩ := inside reported List.mem_cons_self
    apply (callback_quiet ctx ends other).trans
    exact ih _ fun later member => inside later (List.mem_cons_of_mem _ member)

theorem inner_quiet (report : HttpReport) : ∀ reported ∈ report.innerCallbacks,
    reported ≠ .messageComplete ∧ ∀ span, reported ≠ .url span := by
  intro reported member
  simp only [HttpReport.innerCallbacks, HttpReport.fieldCallbacks, List.mem_append,
    List.mem_flatMap, List.mem_map, List.mem_singleton] at member
  grind

theorem callback_released (released : ctx.listener = false) (reported : HttpCallback) :
    (ctx.callback reported).listener = false ∧ (ctx.callback reported).calls = ctx.calls := by
  by_cases ends : reported = .messageComplete
  · subst ends
    simp only [callback, onMessageComplete, released, Bool.false_eq_true, if_false, and_self]
  by_cases url : ∃ span, reported = .url span
  · obtain ⟨span, rfl⟩ := url
    exact ⟨released, rfl⟩
  · have quiet := callback_quiet ctx ends (not_exists.mp url)
    exact ⟨quiet.listener.trans released, quiet.calls⟩

theorem parse_released (released : ctx.listener = false) (callbacks : List HttpCallback) :
    (ctx.parse callbacks).listener = false ∧ (ctx.parse callbacks).calls = ctx.calls := by
  induction callbacks generalizing ctx with
  | nil => exact ⟨released, rfl⟩
  | cons reported rest ih =>
    obtain ⟨listener, calls⟩ := callback_released released reported
    obtain ⟨later, kept⟩ := ih listener
    exact ⟨later, kept.trans calls⟩

theorem close_released {ctx : HttpContext} (released : ctx.listener = false) (status : Int) :
    (ctx.close status).listener = false ∧ (ctx.close status).calls = ctx.calls := by
  unfold close
  split
  · simp [released]
  · exact ⟨released, rfl⟩

/-- What a read does: a failed parser only closes the context, an open one is fed. -/
theorem read_cases {failure : Int} {callbacks : List HttpCallback} {ok : Bool} {next : HttpContext}
    (stepped : ctx.step failure (.read callbacks ok) = some next) :
    ctx.failed = true ∧ next = ctx.close failure ∨
      ctx.closing = false ∧ (next = ctx.parse callbacks ∨
        next = (ctx.parse callbacks).fail.close failure) := by
  simp only [step] at stepped
  split at stepped
  case isTrue failed =>
    cases stepped
    exact .inl ⟨failed, rfl⟩
  split at stepped
  · cases stepped
  case isFalse reading =>
    refine .inr ⟨by simpa using reading, ?_⟩
    split at stepped <;> cases stepped
    · exact .inl rfl
    · exact .inr rfl

theorem step_released {failure : Int} {event : Event} {next : HttpContext}
    (released : ctx.listener = false) (stepped : ctx.step failure event = some next) :
    next.listener = false ∧ next.calls = ctx.calls := by
  cases event with
  | read callbacks ok =>
    obtain ⟨listener, calls⟩ := parse_released released callbacks
    obtain ⟨_, rfl⟩ | ⟨_, rfl | rfl⟩ := read_cases stepped
    · exact close_released released failure
    · exact ⟨listener, calls⟩
    · obtain ⟨later, kept⟩ :=
        close_released (show (ctx.parse callbacks).fail.listener = false from listener) failure
      exact ⟨later, kept.trans calls⟩
  | close status =>
    cases stepped
    exact close_released released status
  | closeAll =>
    cases stepped
    exact ⟨released, rfl⟩
  | listenerGone =>
    cases stepped
    exact ⟨rfl, rfl⟩

theorem run_released {failure : Int} {events : List Event} {final : HttpContext}
    (released : ctx.listener = false) (executed : run (step failure) ctx events = some final) :
    final.calls = ctx.calls := by
  have kept : final.listener = false ∧ final.calls = ctx.calls := by
    refine run_keeps (P := fun other => other.listener = false ∧ other.calls = ctx.calls) ?_
      ⟨released, rfl⟩ executed
    rintro state event next ⟨listener, calls⟩ stepped
    obtain ⟨later, same⟩ := step_released listener stepped
    exact ⟨later, same.trans calls⟩
  exact kept.2

/-- The listener is forgotten, or the context is on its way out. -/
def Silent (ctx : HttpContext) : Prop :=
  ctx.listener = false ∨ ctx.stored = false ∧ ctx.closing = true

/-- The listener was not called, or it was called once and is not called any more. -/
def CalledOnce (ctx : HttpContext) : Prop :=
  ctx.calls = [] ∨ ctx.calls.length = 1 ∧ ctx.Silent

theorem step_silent {failure : Int} {event : Event} {next : HttpContext} (silent : ctx.Silent)
    (stepped : ctx.step failure event = some next) : next.Silent ∧ next.calls = ctx.calls := by
  rcases silent with released | ⟨forgotten, closing⟩
  · obtain ⟨listener, calls⟩ := step_released released stepped
    exact ⟨.inl listener, calls⟩
  have closed (status : Int) : ctx.close status = ctx := by
    simp only [close, forgotten, Bool.false_eq_true, if_false]
  cases event with
  | read callbacks ok =>
    obtain ⟨_, rfl⟩ | ⟨reading, _⟩ := read_cases stepped
    · rw [closed]
      exact ⟨.inr ⟨forgotten, closing⟩, rfl⟩
    · simp [closing] at reading
  | close status =>
    cases stepped
    rw [closed]
    exact ⟨.inr ⟨forgotten, closing⟩, rfl⟩
  | closeAll =>
    cases stepped
    exact ⟨.inr ⟨forgotten, rfl⟩, rfl⟩
  | listenerGone =>
    cases stepped
    exact ⟨.inl rfl, rfl⟩

theorem parse_calledOnce (uncalled : ctx.calls = []) (callbacks : List HttpCallback) :
    (ctx.parse callbacks).calls = [] ∨
      (ctx.parse callbacks).calls.length = 1 ∧ (ctx.parse callbacks).listener = false := by
  induction callbacks generalizing ctx with
  | nil => exact .inl uncalled
  | cons reported rest ih =>
    rw [parse, List.foldl_cons, ← parse]
    by_cases ends : reported = .messageComplete ∧ ctx.listener = true
    · obtain ⟨rfl, alive⟩ := ends
      have called : (ctx.callback .messageComplete).listener = false ∧
          (ctx.callback .messageComplete).calls = [ctx.data] := by
        simp [callback, onMessageComplete, alive, uncalled]
      obtain ⟨listener, calls⟩ := parse_released called.1 rest
      refine .inr ⟨?_, listener⟩
      rw [calls, called.2, List.length_singleton]
    · apply ih
      by_cases url : ∃ span, reported = .url span
      · obtain ⟨span, rfl⟩ := url
        exact uncalled
      by_cases last : reported = .messageComplete
      · subst last
        have gone : ctx.listener = false := by simpa using ends
        exact (callback_released gone _).2.trans uncalled
      · exact (callback_quiet ctx last (not_exists.mp url)).calls.trans uncalled

theorem close_calledOnce (uncalled : ctx.calls = []) (status : Int) :
    (ctx.close status).CalledOnce := by
  unfold close
  split
  · dsimp only
    split
    · exact .inr ⟨by simp [uncalled], .inr ⟨rfl, rfl⟩⟩
    · exact .inl uncalled
  · exact .inl uncalled

theorem step_calledOnce {failure : Int} {event : Event} {next : HttpContext} (once : ctx.CalledOnce)
    (stepped : ctx.step failure event = some next) : next.CalledOnce := by
  rcases once with uncalled | ⟨called, silent⟩
  · cases event with
    | read callbacks ok =>
      obtain ⟨_, rfl⟩ | ⟨_, rfl | rfl⟩ := read_cases stepped
      · exact close_calledOnce uncalled failure
      · exact (parse_calledOnce uncalled callbacks).imp_right fun called => ⟨called.1, .inl called.2⟩
      · rcases parse_calledOnce uncalled callbacks with none | ⟨called, released⟩
        · exact close_calledOnce (show (ctx.parse callbacks).fail.calls = [] from none) failure
        · obtain ⟨later, kept⟩ :=
            close_released (show (ctx.parse callbacks).fail.listener = false from released) failure
          refine .inr ⟨?_, .inl later⟩
          rw [kept]
          exact called
    | close status =>
      cases stepped
      exact close_calledOnce uncalled status
    | closeAll =>
      cases stepped
      exact .inl uncalled
    | listenerGone =>
      cases stepped
      exact .inl uncalled
  · obtain ⟨later, calls⟩ := step_silent silent stepped
    refine .inr ⟨?_, later⟩
    rw [calls]
    exact called

theorem run_calledOnce {failure : Int} {data : HttpData} {isRequest : Bool} {events : List Event}
    {final : HttpContext} (executed : run (step failure) (fresh data isRequest) events = some final) :
    final.calls.length ≤ 1 := by
  have once : final.CalledOnce :=
    run_keeps (fun _ _ _ once stepped => step_calledOnce once stepped) (.inl rfl) executed
  rcases once with uncalled | ⟨called, _⟩
  · simp [uncalled]
  · exact called.le

theorem callback_reading (ctx : HttpContext) (reported : HttpCallback) :
    (ctx.callback reported).failed = ctx.failed ∧ (ctx.callback reported).closing = ctx.closing := by
  cases reported with
  | url span => exact ⟨rfl, rfl⟩
  | headerField span =>
    simp only [callback, onHeaderField]
    split
    · split <;> exact ⟨rfl, rfl⟩
    · exact ⟨rfl, rfl⟩
  | headerValue span =>
    simp only [callback, onHeaderValue]
    split <;> exact ⟨rfl, rfl⟩
  | headersComplete statusCode method =>
    simp only [callback, onHeadersComplete]
    split <;> split <;> exact ⟨rfl, rfl⟩
  | body span => exact ⟨rfl, rfl⟩
  | messageComplete =>
    simp only [callback, onMessageComplete]
    split <;> exact ⟨rfl, rfl⟩

theorem parse_reading (ctx : HttpContext) (callbacks : List HttpCallback) :
    (ctx.parse callbacks).failed = ctx.failed ∧ (ctx.parse callbacks).closing = ctx.closing := by
  induction callbacks generalizing ctx with
  | nil => exact ⟨rfl, rfl⟩
  | cons reported rest ih =>
    obtain ⟨failed, closing⟩ := callback_reading ctx reported
    obtain ⟨laterFailed, laterClosing⟩ := ih (ctx.callback reported)
    exact ⟨laterFailed.trans failed, laterClosing.trans closing⟩

theorem run_reads (failure : Int) (reads : List (List HttpCallback)) (events : List Event)
    (sound : ctx.failed = false) (reading : ctx.closing = false) :
    run (step failure) ctx (reads.map (.read · true) ++ events) =
      run (step failure) (ctx.parse reads.flatten) events := by
  induction reads generalizing ctx with
  | nil => rfl
  | cons callbacks rest ih =>
    obtain ⟨failed, closing⟩ := parse_reading ctx callbacks
    have first : ctx.step failure (.read callbacks true) = some (ctx.parse callbacks) := by
      simp only [step, sound, reading, Bool.false_eq_true, if_false, if_true]
    rw [List.map_cons, List.cons_append, run, first, Option.bind_some,
      ih (failed.trans sound) (closing.trans reading), List.flatten_cons, parse_append]

end Calls

section Messages
variable (data : HttpData) (isRequest : Bool) (report : HttpReport)

def beyondUrl : HttpContext :=
  match report.url with
  | none => fresh data isRequest
  | some cut => { fresh data isRequest with data.url := cut.last }

theorem parse_urlCallbacks :
    (fresh data isRequest).parse report.urlCallbacks = beyondUrl data isRequest report := by
  unfold HttpReport.urlCallbacks beyondUrl
  cases report.url with
  | none => rfl
  | some cut => exact parse_url _ cut

theorem beyondUrl_alive : (beyondUrl data isRequest report).listener = true ∧
    (beyondUrl data isRequest report).calls = [] := by
  unfold beyondUrl
  cases report.url <;> exact ⟨rfl, rfl⟩

def delivered : HttpData := ((beyondUrl data isRequest report).parse report.innerCallbacks).data

theorem delivered_url : (delivered data isRequest report).url = (beyondUrl data isRequest report).data.url :=
  (parse_quiet _ (inner_quiet report)).url

theorem parse_report :
    ((fresh data isRequest).parse report.callbacks).calls = [delivered data isRequest report] ∧
      ((fresh data isRequest).parse report.callbacks).listener = false := by
  obtain ⟨alive, uncalled⟩ := beyondUrl_alive data isRequest report
  have quiet := parse_quiet (beyondUrl data isRequest report) (inner_quiet report)
  have listening : ((beyondUrl data isRequest report).parse report.innerCallbacks).listener = true :=
    quiet.listener.trans alive
  rw [HttpReport.callbacks, parse_append, parse_append, parse_urlCallbacks]
  simp only [parse, List.foldl_cons, List.foldl_nil, callback, onMessageComplete]
  rw [← parse, if_pos listening]
  exact ⟨by rw [quiet.calls, uncalled]; rfl, rfl⟩

theorem delivered_whole :
    delivered data isRequest report.whole =
      ((beyondUrl data isRequest report.whole).parse report.innerCallbacks).data := by
  rw [delivered, parse_inner_whole]

theorem delivered_whole_iff :
    delivered data isRequest report = delivered data isRequest report.whole ↔
      ∀ cut, report.url = some cut → cut.last = cut.token := by
  constructor
  · intro same cut present
    have urls := congrArg HttpData.url same
    rw [delivered_url, delivered_url] at urls
    simpa [beyondUrl, HttpReport.whole, present, HttpSpans.whole, HttpSpans.last] using urls
  · intro uncut
    have same : beyondUrl data isRequest report = beyondUrl data isRequest report.whole := by
      unfold beyondUrl HttpReport.whole
      cases present : report.url with
      | none => rfl
      | some cut =>
        have single : cut.whole.last = cut.token := rfl
        simp only [Option.map_some, single, uncut cut present]
    rw [delivered_whole, ← same, delivered]

end Messages

/-- A message arrives in reads of any size, the last of which may go on with further data, and
anything may follow. The listener gets exactly the message as it would be without the cuts,
and is never called twice in any run of the context, if and only if the last span of the URL is
the whole URL. -/
theorem message_delivered_iff (failure : Int) (data : HttpData) (isRequest : Bool)
    (report : HttpReport) (reads : List (List HttpCallback)) (last extra : List HttpCallback)
    (ok : Bool) (later : List Event) {final : HttpContext}
    (reported : reads.flatten ++ last = report.callbacks)
    (executed : run (step failure) (fresh data isRequest)
      (reads.map (.read · true) ++ .read (last ++ extra) ok :: later) = some final) :
    (final.calls = ((fresh data isRequest).parse report.whole.callbacks).calls ∧
      ∀ events other, run (step failure) (fresh data isRequest) events = some other →
        other.calls.length ≤ 1) ↔
      ∀ cut, report.url = some cut → cut.last = cut.token := by
  obtain ⟨calls, released⟩ := parse_report data isRequest report
  have called : final.calls = [delivered data isRequest report] := by
    rw [run_reads failure reads _ rfl rfl] at executed
    obtain ⟨next, stepped, followed⟩ := run_cons_iff.mp executed
    have complete : ((fresh data isRequest).parse reads.flatten).parse (last ++ extra) =
        ((fresh data isRequest).parse report.callbacks).parse extra := by
      rw [← reported, parse_append, parse_append]
    obtain ⟨silent, kept⟩ := parse_released released extra
    have failed := (parse_reading (fresh data isRequest) reads.flatten).1
    rcases read_cases stepped with ⟨broken, _⟩ | ⟨_, rfl | rfl⟩
    · rw [failed] at broken
      cases broken
    · rw [complete] at followed
      rw [run_released silent followed, kept, calls]
    · rw [complete] at followed
      obtain ⟨later, same⟩ := close_released (show
        (((fresh data isRequest).parse report.callbacks).parse extra).fail.listener = false from silent)
        failure
      rw [run_released later followed, same]
      exact kept.trans calls
  rw [called, (parse_report data isRequest report.whole).1, List.cons.injEq]
  rw [← delivered_whole_iff data isRequest report]
  exact ⟨fun holds => holds.1.1, fun same =>
    ⟨⟨same, rfl⟩, fun events other executed => run_calledOnce executed⟩⟩

/-- `GET /1/summary` with one header, of which the name is cut by a read. -/
def summaryReport (url : HttpSpans) : HttpReport where
  url := some url
  headers := [(⟨[text "Ho", text "st"], List.cons_ne_nil _ _⟩, ⟨[text "rig"], List.cons_ne_nil _ _⟩)]
  statusCode := 0
  method := 1
  body := []
  trailers := []

def summaryUrl : HttpSpans := ⟨[text "/1/summary"], List.cons_ne_nil _ _⟩

def cutSummaryUrl : HttpSpans := ⟨[text "/1/", text "summary"], List.cons_ne_nil _ _⟩

def summaryReads : List (List HttpCallback) :=
  [[.url (text "/1/summary"), .headerField (text "Ho")],
    [.headerField (text "st"), .headerValue (text "rig")]]

theorem summary_delivered :
    ∃ final, run (step 0) (fresh {} true)
        (summaryReads.map (.read · true) ++ .read [.headersComplete 0 1, .messageComplete] true ::
          [.close (-1)]) = some final ∧
      final.calls = [{ method := 1, headers := [(text "host", text "rig")], url := text "/1/summary" }] := by
  refine ⟨_, rfl, ?_⟩
  have uncut : ∀ cut, (summaryReport summaryUrl).url = some cut → cut.last = cut.token := by
    rintro cut same
    cases same
    rfl
  have holds := (message_delivered_iff 0 {} true (summaryReport summaryUrl) summaryReads
    [.headersComplete 0 1, .messageComplete] [] true [.close (-1)] (by decide) rfl).mpr uncut
  exact holds.1.trans (by decide)

/-- A request whose URL is cut by a read reaches the listener with the end of the URL. -/
theorem cut_url_lost :
    (run (step 0) (fresh {} true) ((summaryReport cutSummaryUrl).callbacks.map fun reported =>
        .read [reported] true)).map (·.calls) =
      some [{ method := 1, headers := [(text "host", text "rig")], url := text "summary" }] ∧
    ((fresh {} true).parse (summaryReport cutSummaryUrl).whole.callbacks).calls =
      [{ method := 1, headers := [(text "host", text "rig")], url := text "/1/summary" }] := by
  decide

end HttpContext

end Xmrig.Http
