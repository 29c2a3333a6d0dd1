import Xmrig.Stratum.SelfSelectClient

/-! Blocks sent to the daemon.

The template is replaced as soon as the daemon answers, while the workers still have the job
of the template before. A block is the one that was mined if its share is for the last
template: that template was in the job as it was handed out, and no other came since.
-/

set_option autoImplicit false

namespace Xmrig.SelfSelectClient

open Foundation

variable {client after : SelfSelectClient}

/-- The block is the template of the job that the share was found for, with its nonce. -/
def Mined (block : List Byte) (source : Option TemplateSource) (result : JobResult) : Prop :=
  ∃ origin template, source = some origin ∧ origin.template = some template ∧
    origin.jobId = result.delivery.job.id ∧ origin.blob = result.delivery.job.blob ∧
    patch template result.nonce = some block

def BlockMined : SelfSelectOutput → Prop
  | .submitBlock block source result => Mined block source result
  | _ => True

def forLastTemplate (client : SelfSelectClient) : Event → Bool
  | .submit result => !client.sendsBlock (.submit result) || result.delivery.template = some client.templates
  | _ => true

def ForLastTemplate (client : SelfSelectClient) (event : Event) : Prop := client.forLastTemplate event = true

instance (client : SelfSelectClient) (event : Event) : Decidable (client.ForLastTemplate event) :=
  inferInstanceAs (Decidable (_ = _))

theorem patch_length {template block : List Byte} {nonce : BitVec 64} (patched : patch template nonce = some block) :
    nonceAt + 8 ≤ template.length ∧ block.length = template.length := by
  unfold patch at patched
  split at patched
  · rename_i large
    cases patched
    refine ⟨large, ?_⟩
    simp only [List.length_append, List.length_take, List.length_drop, Cvt.toHex_length, List.length_map,
      List.length_range]
    omega
  · cases patched

theorem patch_patch {template block : List Byte} {first second : BitVec 64}
    (patched : patch template first = some block) : patch block second = patch template second := by
  obtain ⟨large, length⟩ := patch_length patched
  unfold patch at patched ⊢
  rw [if_pos large] at patched
  rw [if_pos large, if_pos (by omega)]
  cases patched
  have front : (template.take nonceAt).length = nonceAt := by
    rw [List.length_take]
    omega
  have middle : (template.take nonceAt ++ Cvt.toHex ((List.range 4).map fun i => first.extractLsb' (8 * i) 8)).length =
      nonceAt + 8 := by
    rw [List.length_append, front, Cvt.toHex_length, List.length_map, List.length_range]
  dsimp only
  rw [List.drop_left' middle, List.append_assoc (template.take nonceAt), List.take_left' front]

structure Blocks where
  job : Job
  blocktemplate : Option (List Byte)
  source : Option TemplateSource
  templates : Nat
  held : Bool
  delivered : List Delivery

def blocks (client : SelfSelectClient) : Blocks :=
  ⟨client.job, client.blocktemplate, client.source, client.templates, client.held, client.delivered⟩

@[simp] theorem emit_blocks (output : SelfSelectOutput) : (client.emit output).blocks = client.blocks := rfl

@[simp] theorem setState_blocks (state : SelfSelectState) : (client.setState state).blocks = client.blocks := by
  unfold setState
  split
  · rfl
  · cases state with
    | idle => rfl
    | wait => rfl
    | retry =>
      dsimp only
      split <;> rfl

@[simp] theorem getBlockTemplate_blocks : client.getBlockTemplate.blocks = client.blocks :=
  client.setState_blocks .wait

/-- The text is a template of the daemon, with the nonce of a share or without one. -/
def IsPatched (template text : List Byte) : Prop := text = template ∨ ∃ nonce, patch template nonce = some text

/-- The source of the template has the id and the blob of a job. -/
def IsSource (source : Option TemplateSource) (job : Job) : Prop :=
  ∃ origin, source = some origin ∧ origin.jobId = job.id ∧ origin.blob = job.blob

/-- Jobs with the blob of the last template are of its source. -/
structure Sourced (blocks : Blocks) : Prop where
  held : blocks.held = true → IsSource blocks.source blocks.job
  delivered : ∀ delivery ∈ blocks.delivered, ∀ number, delivery.template = some number →
    number ≤ blocks.templates ∧ (number = blocks.templates → IsSource blocks.source delivery.job)
  template : ∀ text, blocks.blocktemplate = some text → ∃ origin template, blocks.source = some origin ∧
    origin.template = some template ∧ IsPatched template text

theorem Sourced.setState (sourced : Sourced client.blocks) (state : SelfSelectState) :
    Sourced (client.setState state).blocks := by
  rw [setState_blocks]
  exact sourced

theorem Sourced.getBlockTemplate (sourced : Sourced client.blocks) : Sourced client.getBlockTemplate.blocks := by
  rw [getBlockTemplate_blocks]
  exact sourced

theorem Sourced.replaceJob (sourced : Sourced client.blocks) {job : Job} {held : Bool}
    (same : held = true → client.held = true ∧ job.id = client.job.id ∧ job.blob = client.job.blob) :
    Sourced { client with job, held }.blocks := by
  refine ⟨fun still => ?_, sourced.delivered, sourced.template⟩
  obtain ⟨was, id, blob⟩ := same still
  obtain ⟨origin, here, ofId, ofBlob⟩ := sourced.held was
  exact ⟨origin, here, ofId.trans id.symm, ofBlob.trans blob.symm⟩

theorem Sourced.dropJob (sourced : Sourced client.blocks) (job : Job) :
    Sourced { client with job, held := false }.blocks :=
  sourced.replaceJob fun still => absurd still Bool.false_ne_true

theorem Sourced.submitBlockTemplate (sourced : Sourced client.blocks) (result : Json) :
    Sourced (client.submitBlockTemplate result).blocks := by
  refine ⟨fun _ => ⟨_, rfl, rfl, rfl⟩, fun delivery member number tagged => ?_, fun text here => ?_⟩
  · obtain ⟨older, _⟩ := sourced.delivered delivery member number tagged
    simp only [blocks, SelfSelectClient.submitBlockTemplate] at older ⊢
    exact ⟨by omega, fun last => absurd last (by omega)⟩
  · exact ⟨_, text, rfl, here, .inl rfl⟩

theorem Sourced.parseResponse (sourced : Sourced client.blocks) (id : Int) (result error : Json) :
    Sourced (client.parseResponse id result error).1.blocks := by
  obtain same | ⟨job, sameId, same⟩ | ⟨job, sameId, same⟩ := client.parseResponse_cases id result error
  · rw [same]
    exact sourced
  · rw [same]
    refine sourced.replaceJob fun still => ?_
    rw [Bool.and_eq_true, decide_eq_true_eq] at still
    exact ⟨still.1, sameId, still.2⟩
  · rw [same]
    exact (sourced.dropJob job).submitBlockTemplate result

theorem Sourced.parseDocument (sourced : Sourced client.blocks) (request : OriginRequest) (doc : Json) :
    Sourced (client.parseDocument request doc).1.blocks := by
  have asked : Sourced (client.emit (.parseResponse request)).blocks := sourced
  have parsed := asked.parseResponse (doc.getInt64 "id" (-1)) (doc.getValue "result") (doc.getObject "error")
  unfold SelfSelectClient.parseDocument
  dsimp only
  split <;> exact parsed

theorem Sourced.onHttpData {request : OriginRequest} {data : HttpData} (sourced : Sourced client.blocks)
    (handled : client.onHttpData request data = some after) : Sourced after.blocks := by
  obtain rfl | rfl | ⟨doc, _, _, parsed⟩ := onHttpData_cases handled
  · exact sourced.setState .retry
  · exact sourced
  · have document := sourced.parseDocument request doc
    rcases parsed with rfl | rfl
    · exact document
    · exact document.setState .retry

theorem Sourced.onTemplate (sourced : Sourced client.blocks) (success : Bool) :
    Sourced (client.onTemplate success).blocks := by
  unfold SelfSelectClient.onTemplate
  split
  · exact sourced.setState .retry
  · split
    · exact sourced
    · dsimp only
      have idle (told : SelfSelectClient) (same : told.blocks = client.blocks) :
          Sourced (told.setState .idle).blocks := by
        rw [setState_blocks, same]
        exact sourced
      generalize named : (if client.retries < client.failures then client.emit .onLoginSuccess else client) = told
      have same : told.blocks = client.blocks := by
        rw [← named]
        split <;> rfl
      have ready := idle told same
      refine ⟨ready.held, fun delivery member number tagged => ?_, ready.template⟩
      rcases List.mem_cons.mp member with new | old
      · subst new
        dsimp only at tagged
        split at tagged
        · rename_i held
          cases tagged
          exact ⟨le_rfl, fun _ => ready.held held⟩
        · cases tagged
      · exact ready.delivered delivery old number tagged

/-- The invariant, with the blocks that were sent. -/
structure Honest (client : SelfSelectClient) : Prop where
  sourced : Sourced client.blocks
  told : client.Told BlockMined

theorem Honest.emit (honest : client.Honest) (output : SelfSelectOutput) (fits : BlockMined output) :
    (client.emit output).Honest :=
  ⟨honest.sourced, honest.told.emit fits⟩

theorem Honest.setState (honest : client.Honest) (state : SelfSelectState) : (client.setState state).Honest :=
  ⟨honest.sourced.setState state, honest.told.setState (fun _ => trivial) state⟩

theorem Honest.getBlockTemplate (honest : client.Honest) : client.getBlockTemplate.Honest :=
  ⟨honest.sourced.getBlockTemplate, honest.told.setState (fun _ => trivial) .wait⟩

theorem parseDocument_told {P : SelfSelectOutput → Prop} (request : OriginRequest) (told : client.Told P)
    (parsed : P (.parseResponse request)) (changed : P (.jobChanged request client.latest)) (doc : Json) :
    (client.parseDocument request doc).1.Told P := by
  have asked : ((client.emit (.parseResponse request)).parseResponse (doc.getInt64 "id" (-1))
      (doc.getValue "result") (doc.getObject "error")).1.Told P := by
    unfold Told
    rw [parseResponse_log]
    exact told.emit parsed
  unfold parseDocument
  dsimp only
  split
  · exact asked
  · exact asked.emit changed

theorem Honest.onHttpData {request : OriginRequest} {data : HttpData} (honest : client.Honest)
    (handled : client.onHttpData request data = some after) : after.Honest := by
  refine ⟨honest.sourced.onHttpData handled, ?_⟩
  obtain rfl | rfl | ⟨doc, _, _, parsed⟩ := onHttpData_cases handled
  · exact honest.told.setState (fun _ => trivial) .retry
  · exact honest.told
  · have document := parseDocument_told request honest.told trivial trivial doc
    rcases parsed with rfl | rfl
    · exact document
    · exact document.setState (fun _ => trivial) .retry

theorem Honest.onTemplate (honest : client.Honest) (success : Bool) : (client.onTemplate success).Honest := by
  refine ⟨honest.sourced.onTemplate success, ?_⟩
  unfold SelfSelectClient.onTemplate
  split
  · exact honest.told.setState (fun _ => trivial) .retry
  · split
    · exact honest.told
    · dsimp only
      split
      · exact (((honest.emit .onLoginSuccess trivial).setState .idle).emit (.onJobReceived _) trivial).told
      · exact ((honest.setState .idle).emit (.onJobReceived _) trivial).told

theorem Honest.submitOriginDaemon {result : JobResult} (honest : client.Honest)
    (member : result.delivery ∈ client.delivered)
    (last : client.reachesOrigin result = true → result.delivery.template = some client.templates)
    (sent : client.submitOriginDaemon result = some after) : after.Honest := by
  cases reaches : client.reachesOrigin result with
  | false =>
    obtain ⟨count, kept⟩ := submitOriginDaemon_low reaches
    rw [kept] at sent
    cases sent
    exact ⟨honest.sourced, honest.told⟩
  | true =>
    obtain ⟨origin, here, ofId, ofBlob⟩ :=
      (honest.sourced.delivered result.delivery member client.templates (last reaches)).2 rfl
    obtain ⟨template, block, isTemplate, patched, same⟩ := submitOriginDaemon_high reaches sent
    obtain ⟨origin', text, here', ofTemplate, kind⟩ := honest.sourced.template template isTemplate
    have unique : origin' = origin := Option.some.inj (here'.symm.trans here)
    subst unique
    -- the nonce of an earlier share is overwritten
    have again : patch text result.nonce = some block := by
      rcases kind with rfl | ⟨nonce, earlier⟩
      · exact patched
      · rw [← patch_patch earlier]
        exact patched
    rw [same]
    refine ⟨⟨honest.sourced.held, honest.sourced.delivered, fun other isBlock => ?_⟩, ?_⟩
    · cases isBlock
      exact ⟨origin', text, here, ofTemplate, .inr ⟨result.nonce, again⟩⟩
    · have mined : BlockMined (.submitBlock block client.source result) :=
        ⟨origin', text, here, ofTemplate, ofId, ofBlob, again⟩
      exact honest.told.emit mined

theorem step_honest {event : Event} (honest : client.Honest) (allowed : client.ForLastTemplate event)
    (stepped : client.step event = some after) : after.Honest := by
  cases event with
  | onJobReceived job =>
    simp only [step] at stepped
    split at stepped
    · cases stepped
      have renewed : { client with job, held := false }.Honest := ⟨honest.sourced.dropJob job, honest.told⟩
      exact renewed.getBlockTemplate
    · cases stepped
  | onLoginSuccess =>
    cases stepped
    have idle := (honest.emit .onLoginSuccess trivial).setState .idle
    exact ⟨idle.sourced, idle.told⟩
  | onClose failures =>
    cases stepped
    have idle := (honest.emit (.onClose failures) trivial).setState .idle
    exact ⟨idle.sourced, idle.told⟩
  | elapse msecs =>
    cases stepped
    exact ⟨honest.sourced, honest.told⟩
  | tick =>
    cases stepped
    unfold tick
    split
    · exact honest.getBlockTemplate
    · exact honest
  | submit result =>
    simp only [step] at stepped
    split at stepped
    · rename_i member
      unfold submit at stepped
      split at stepped
      · rename_i origin
        obtain ⟨sent, submitted, rfl⟩ := Option.map_eq_some_iff.mp stepped
        refine (honest.submitOriginDaemon member (fun reaches => ?_) submitted).getBlockTemplate
        simpa [ForLastTemplate, forLastTemplate, sendsBlock, origin, reaches] using allowed
      · cases stepped
        exact honest
    · cases stepped
  | onHttpData i data =>
    cases here : client.requests[i]? with
    | none => simp only [step, here] at stepped; cases stepped
    | some request =>
      simp only [step, here] at stepped
      have waiting : { client with requests := client.requests.eraseIdx i }.Honest := ⟨honest.sourced, honest.told⟩
      exact waiting.onHttpData stepped
  | onTemplate success =>
    simp only [step] at stepped
    split at stepped
    · cases stepped
    · cases stepped
      have answered : { client with callbacks := client.callbacks - 1 }.Honest := ⟨honest.sourced, honest.told⟩
      exact answered.onTemplate success

theorem start_honest (submitToOrigin : Bool) (retries : Int) (retryPause : Nat) (coin : Coin) :
    (start submitToOrigin retries retryPause coin).Honest := by
  refine ⟨⟨?_, ?_, ?_⟩, ?_⟩
  · intro held
    cases held
  · intro delivery member
    cases member
  · intro text here
    cases here
  · intro output member
    cases member

/-- In every run whose shares for the daemon are for the last template, each block that was sent is
the one that was mined. -/
theorem blocks_mined {submitToOrigin : Bool} {retries : Int} {retryPause : Nat} {coin : Coin}
    {events : List Event} {final : SelfSelectClient}
    (allowed : Guarded step ForLastTemplate (start submitToOrigin retries retryPause coin) events)
    (executed : run step (start submitToOrigin retries retryPause coin) events = some final)
    {block : List Byte} {source : Option TemplateSource} {result : JobResult}
    (sent : .submitBlock block source result ∈ final.log) : Mined block source result := by
  have honest : final.Honest := run_invariant (P := Honest) (fun _ _ _ honest => step_honest honest)
    (start_honest submitToOrigin retries retryPause coin) allowed executed
  exact honest.told _ sent

def blockSent : List Event := firstTemplate ++ [.submit ⟨firstDelivery, 7, 1, 10⟩]

def sentBlocks (client : SelfSelectClient) : List (List Byte × Option TemplateSource × JobResult) :=
  client.log.filterMap fun output => match output with
    | .submitBlock block source result => some (block, source, result)
    | _ => none

theorem mem_log_of_sentBlocks {block : List Byte} {source : Option TemplateSource} {result : JobResult}
    (sent : (block, source, result) ∈ client.sentBlocks) : .submitBlock block source result ∈ client.log := by
  obtain ⟨output, member, same⟩ := List.mem_filterMap.mp sent
  cases output <;> cases same
  exact member

theorem blockSent_runs : (run step (start true 5 5000 .monero) blockSent).isSome = true := by decide +kernel

theorem blocks_mined_blockSent :
    ∃ final block source, run step (start true 5 5000 .monero) blockSent = some final ∧
      (block, source, ⟨firstDelivery, 7, 1, 10⟩) ∈ final.sentBlocks ∧
      Mined block source ⟨firstDelivery, 7, 1, 10⟩ := by
  have sent : (((run step (start true 5 5000 .monero) blockSent).get blockSent_runs).sentBlocks.map fun entry =>
      entry.2.2) = [⟨firstDelivery, 7, 1, 10⟩] := by
    decide +kernel
  obtain ⟨⟨block, source, result⟩, member, rfl⟩ := List.mem_map.mp (sent ▸ List.mem_singleton.mpr rfl)
  refine ⟨_, block, source, (Option.some_get blockSent_runs).symm, member, ?_⟩
  exact blocks_mined (by decide +kernel) (Option.some_get blockSent_runs).symm (mem_log_of_sentBlocks member)

/-- The next template comes while the workers have the first one, and then a share for that one. -/
def overtaken : List Event :=
  firstTemplate ++ [.onJobReceived (poolJob "2"), .onHttpData 0 (answerOf 2 (templateOf 0x32)),
    .submit ⟨firstDelivery, 7, 1, 10⟩]

theorem overtaken_runs : (run step (start true 5 5000 .monero) overtaken).isSome = true := by decide +kernel

/-- The nonce goes into the template of another job. -/
theorem overtaken_not_mined :
    ∃ final block source result, run step (start true 5 5000 .monero) overtaken = some final ∧
      (block, source, result) ∈ final.sentBlocks ∧ ¬ Mined block source result := by
  have sent : (((run step (start true 5 5000 .monero) overtaken).get overtaken_runs).sentBlocks.map fun entry =>
      (entry.2.1.bind TemplateSource.jobId, entry.2.2.delivery.job.id)) = [(some "2", some "1")] := by
    decide +kernel
  obtain ⟨⟨block, source, result⟩, member, same⟩ := List.mem_map.mp (sent ▸ List.mem_singleton.mpr rfl)
  refine ⟨_, block, source, result, (Option.some_get overtaken_runs).symm, member, ?_⟩
  rintro ⟨origin, template, rfl, _, sameId, _⟩
  rw [Prod.mk.injEq, Option.bind_some, sameId] at same
  have other : (some "2" : Option String) = some "1" := same.1.symm.trans same.2
  exact absurd other (by decide)

end Xmrig.SelfSelectClient
