import Xmrig.Stratum.DaemonClient

/-! The template that a daemon client submits.

`parseJob` replaces the parsed template first and the job last, so a response that is
refused in between leaves a job without its template. The conditions below say which
responses do no harm.
-/

set_option autoImplicit false

namespace Xmrig

open Foundation

namespace Work

variable {env : BlockTemplate.Env} {crypto : Crypto} {work after : Work} {params : JobParams}
  {id : String} {rounds : Nat}

/-- The members that a refused template must not change; the ephemeral keys are the job's. -/
def Unchanged (before after : Work) : Prop :=
  after.job = before.job ∧ after.ephemeralKeys = before.ephemeralKeys ∧ after.currentJobId = before.currentJobId ∧
    after.blocktemplateStr = before.blocktemplateStr ∧ after.blocktemplate = before.blocktemplate

section Conditions
variable (env) (crypto) (work) (params) (rounds)

/-- The parse of a text into `m_blocktemplate`. -/
def reparse (template : List Byte) : BlockTemplate.Report :=
  work.blocktemplate.parseHex env template work.coin false rounds

/-- The keys of a template with a miner signature pass every check. -/
def keysAccepted (template : BlockTemplate) : Bool :=
  (minerKeys crypto { work with blocktemplate := template }).any fun (keys, _) => keys.isOk

/-- Every check of `parseJob` is passed. -/
def accepts : Bool :=
  match params.blocktemplateBlob with
  | none => false
  | some template =>
    let report := work.reparse env rounds template
    BlockTemplate.result report.outcome = some true ∧
      (report.template.hasMinerSignature → work.keysAccepted crypto report.template) ∧
      ((work.newJob none).setBlob params.blockhashingBlob).isSome

/-- The response carries no template, or one whose parse leaves `m_blocktemplate` as it is;
so does every text of less than 152 characters. -/
def harmless : Prop :=
  ∀ template, params.blocktemplateBlob = some template →
    (work.reparse env rounds template).template = work.blocktemplate

end Conditions

/-- Whether a blob is refused depends on the algorithm only. -/
theorem setBlob_isSome (job other : Job) (same : job.algorithm = other.algorithm)
    (blob : Option (List Byte)) : (job.setBlob blob).isSome = (other.setBlob blob).isSome := by
  cases blob with
  | none => rfl
  | some hex =>
    simp only [Job.setBlob, Job.nonceOffset, Job.nonceSize, same]
    repeat' split
    all_goals rfl

theorem minerKeys_frame (crypto : Crypto) (work : Work) (blob : Option (List Byte)) :
    minerKeys crypto { work with blockhashingblob := blob } =
      (minerKeys crypto work).map fun (keys, keyed) => (keys, { keyed with blockhashingblob := blob }) := by
  simp only [minerKeys, keyAt]
  repeat' split
  all_goals rfl

theorem minerKeys_keeps {keys : Except JobError EphemeralKeys} (ran : minerKeys crypto work = some (keys, after)) :
    after = { work with walletAddress := after.walletAddress } := by
  unfold minerKeys at ran
  simp only at ran
  repeat' split at ran
  all_goals first
    | cases ran; done
    | cases ran; rfl
    | obtain ⟨_, _, made⟩ := Option.map_eq_some_iff.mp ran; cases made; rfl

/-- What a response leaves that is refused after the parse. -/
structure Refused (before after : Work) (template : BlockTemplate) : Prop where
  job : after.job = before.job
  ephemeralKeys : after.ephemeralKeys = before.ephemeralKeys
  currentJobId : after.currentJobId = before.currentJobId
  blocktemplateStr : after.blocktemplateStr = before.blocktemplateStr
  received : after.received = before.received
  blocktemplate : after.blocktemplate = template

/-- What an accepted response leaves. -/
structure Installed (before after : Work) (text : List Byte) (template : BlockTemplate) : Prop where
  algorithm : after.job.algorithm = (before.newJob none).algorithm
  currentJobId : after.currentJobId.isSome
  blocktemplateStr : after.blocktemplateStr = text
  received : after.received = (text, before.coin)
  blocktemplate : after.blocktemplate = template

def prepared (work : Work) (params : JobParams) (template : BlockTemplate) (wallet : WalletAddress) : Work :=
  { work with
    blocktemplate := template
    blockhashingblob := params.blockhashingBlob
    walletAddress := wallet }

/-- Both ends of `parseJob` behind the key checks. -/
theorem finish_cases {outcome : Except JobError Unit} {hex : List Byte} {keys : Option EphemeralKeys}
    (template : BlockTemplate) (wallet : WalletAddress)
    (ended : (work.prepared params template wallet).finish params hex keys id = (outcome, after)) :
    (((work.newJob none).setBlob params.blockhashingBlob).isSome = false ∧
      (∃ why, outcome = .error why) ∧ Refused work after template) ∨
    (((work.newJob none).setBlob params.blockhashingBlob).isSome = true ∧
      outcome = .ok () ∧ Installed work after hex template) := by
  have same : (work.newJob keys).algorithm = (work.newJob none).algorithm := rfl
  rw [← setBlob_isSome _ _ same]
  have prepared : ((work.prepared params template wallet).newJob keys).setBlob
      (work.prepared params template wallet).blockhashingblob =
      (work.newJob keys).setBlob params.blockhashingBlob := rfl
  simp only [finish, prepared] at ended
  cases set : (work.newJob keys).setBlob params.blockhashingBlob with
  | none =>
    rw [set] at ended
    cases ended
    exact .inl ⟨rfl, ⟨_, rfl⟩, ⟨rfl, rfl, rfl, rfl, rfl, rfl⟩⟩
  | some job =>
    rw [set] at ended
    cases ended
    refine .inr ⟨rfl, rfl, ⟨?_, rfl, rfl, rfl, rfl⟩⟩
    rw [← same, ← (Job.setBlob_sized set).2]
    simp only [Job.setDiff, Job.setSeedHash]
    split
    · rfl
    · split <;> rfl

/-- `parseJob` behind an accepting parse. -/
theorem parseJob_parsed {hex : List Byte} (given : params.blocktemplateBlob = some hex)
    (parsed : BlockTemplate.result (work.reparse env rounds hex).outcome = some true) :
    work.parseJob env crypto params id rounds =
      if (work.reparse env rounds hex).template.hasMinerSignature then
        (minerKeys crypto (work.prepared params (work.reparse env rounds hex).template work.walletAddress)).map
          fun (keys, keyed) =>
            match keys with
            | .error why => (.error why, keyed)
            | .ok keys => keyed.finish params hex (some keys) id
      else some ((work.prepared params (work.reparse env rounds hex).template work.walletAddress).finish
        params hex none id) := by
  simp only [parseJob, given]
  rw [show BlockTemplate.result (BlockTemplate.parseHex env work.blocktemplate hex work.coin false
    rounds).outcome = some true from parsed]
  rfl

/-- Every end of `parseJob` behind the key checks of a signed template. -/
theorem signed_cases {outcome : Except JobError Unit} {hex : List Byte} (template : BlockTemplate)
    (ran : ((minerKeys crypto (work.prepared params template work.walletAddress)).map fun (keys, keyed) =>
      match keys with
      | .error why => (.error why, keyed)
      | .ok keys => keyed.finish params hex (some keys) id) = some (outcome, after)) :
    (work.keysAccepted crypto template = false ∧ (∃ why, outcome = .error why) ∧
      Refused work after template) ∨
    (work.keysAccepted crypto template = true ∧ ∃ wallet keys,
      (work.prepared params template wallet).finish params hex (some keys) id = (outcome, after)) := by
  obtain ⟨⟨keys, keyed⟩, checked, ended⟩ := Option.map_eq_some_iff.mp ran
  have kept := minerKeys_keeps checked
  have verdict : work.keysAccepted crypto template = keys.isOk := by
    have framed := minerKeys_frame crypto { work with blocktemplate := template }
      params.blockhashingBlob
    obtain ⟨⟨same, _⟩, bare, made⟩ := Option.map_eq_some_iff.mp (framed.symm.trans checked)
    cases made
    simp only [keysAccepted, bare, Option.any_some]
  rw [verdict]
  cases keys with
  | error why =>
    cases ended
    rw [kept]
    exact .inl ⟨rfl, ⟨why, rfl⟩, ⟨rfl, rfl, rfl, rfl, rfl, rfl⟩⟩
  | ok keys =>
    refine .inr ⟨rfl, keyed.walletAddress, keys, ?_⟩
    rw [kept] at ended
    exact ended

/-- Every end of `parseJob` behind the parse. -/
theorem parseJob_cases {outcome : Except JobError Unit} {hex : List Byte}
    (given : params.blocktemplateBlob = some hex)
    (ran : work.parseJob env crypto params id rounds = some (outcome, after)) :
    (work.accepts env crypto params rounds = false ∧ (∃ why, outcome = .error why) ∧
      Refused work after (work.reparse env rounds hex).template) ∨
    (work.accepts env crypto params rounds = true ∧ outcome = .ok () ∧
      Installed work after hex (work.reparse env rounds hex).template) := by
  simp only [accepts, given]
  match parsed : BlockTemplate.result (work.reparse env rounds hex).outcome with
  | none =>
    simp only [parseJob, given] at ran
    rw [show BlockTemplate.result (BlockTemplate.parseHex env work.blocktemplate hex work.coin false
      rounds).outcome = none from parsed] at ran
    cases ran
  | some false =>
    simp only [parseJob, given] at ran
    rw [show BlockTemplate.result (BlockTemplate.parseHex env work.blocktemplate hex work.coin false
      rounds).outcome = some false from parsed] at ran
    cases ran
    exact .inl ⟨by simp, ⟨_, rfl⟩, ⟨rfl, rfl, rfl, rfl, rfl, rfl⟩⟩
  | some true =>
    rw [parseJob_parsed given parsed] at ran
    generalize (work.reparse env rounds hex).template = template at ran ⊢
    by_cases signed : template.hasMinerSignature = true
    · rw [if_pos signed] at ran
      rcases signed_cases template ran with ⟨bad, why, left⟩ | ⟨good, wallet, keys, ended⟩
      · exact .inl ⟨by simp [signed, bad], why, left⟩
      · rcases finish_cases template wallet ended with ⟨refused, why, left⟩ | ⟨set, ok, left⟩
        · exact .inl ⟨by simp [refused], why, left⟩
        · exact .inr ⟨by simp [set, good], ok, left⟩
    · rw [if_neg signed] at ran
      rcases finish_cases template work.walletAddress (Option.some.inj ran) with
        ⟨refused, why, left⟩ | ⟨set, ok, left⟩
      · exact .inl ⟨by simp [refused], why, left⟩
      · exact .inr ⟨by simp [set, signed], ok, left⟩

theorem parseJob_empty (absent : params.blocktemplateBlob = none) :
    work.parseJob env crypto params id rounds = some (.error .emptyTemplate, work) := by
  simp only [parseJob, absent]

/-- A refused response leaves the job and its template as they were exactly if it does no harm. -/
theorem parseJob_unchanged_iff {outcome : Except JobError Unit}
    (ran : work.parseJob env crypto params id rounds = some (outcome, after)) :
    (∀ why, outcome = .error why → Unchanged work after) ↔
      (work.accepts env crypto params rounds = true ∨ work.harmless env params rounds) := by
  match given : params.blocktemplateBlob with
  | none =>
    rw [parseJob_empty given] at ran
    cases ran
    refine iff_of_true (fun _ _ => ⟨rfl, rfl, rfl, rfl, rfl⟩) (.inr fun hex other => ?_)
    rw [given] at other
    cases other
  | some hex =>
    rcases parseJob_cases given ran with ⟨refused, ⟨why, rfl⟩, left⟩ | ⟨accepted, rfl, left⟩
    · rw [refused]
      constructor
      · intro kept
        refine .inr fun other same => ?_
        rw [given] at same
        cases same
        rw [← left.blocktemplate]
        exact (kept why rfl).2.2.2.2
      · rintro (accepted | same)
        · cases accepted
        · intro _ _
          exact ⟨left.job, left.ephemeralKeys, left.currentJobId, left.blocktemplateStr,
            left.blocktemplate.trans (same hex given)⟩
    · exact iff_of_true (fun _ impossible => nomatch impossible) (.inl accepted)

section Assembled
variable (env)

def fresh (work : Work) (rounds : Nat) : BlockTemplate.Report :=
  ({} : BlockTemplate).parseHex env work.received.1 work.received.2 false rounds

/-- What a block for the current job is patched with: the flag and the offsets of the text
that was accepted for it, inside that text. -/
structure Assembled (work : Work) (rounds : Nat) : Prop where
  accepted : BlockTemplate.result (work.fresh env rounds).outcome = some true
  flag : work.blocktemplate.hasMinerSignature = (work.fresh env rounds).template.hasMinerSignature
  nonce : work.job.nonceOffset = (work.fresh env rounds).template.parsed.offsets .nonce
  -- the signature follows the four bytes of the nonce
  signature : work.blocktemplate.hasMinerSignature = true →
    work.sigOffset = (work.fresh env rounds).template.parsed.offsets .nonce + 4
  text : ∃ earlier : List JobResult,
    work.blocktemplateStr = (earlier.flatMap work.patches).foldl Patch.apply work.received.1
  inside : ∀ result, ∀ patch ∈ work.patches result, patch.stop ≤ work.blocktemplateStr.length

/-- If there is a current job, its blocks are assembled from its own template. -/
def Coherent (work : Work) : Prop := work.currentJobId.isSome → ∃ rounds, work.Assembled env rounds

/-- An accepted template has the job's nonce where the job expects it, and no signature of an
earlier template is taken for its own. -/
def Matches (work : Work) (rounds : Nat) (hex : List Byte) : Prop :=
  let own := (({} : BlockTemplate).parseHex env hex work.coin false rounds).template
  (work.newJob none).nonceOffset = own.parsed.offsets .nonce ∧
    (work.blocktemplate.hasMinerSignature → own.hasMinerSignature)

end Assembled

theorem Patch.apply_length (chars : List Byte) (patch : Patch) :
    (patch.apply chars).length = chars.length := by
  simp only [Patch.apply, Patch.stop, List.length_take, List.length_append, List.length_drop]
  omega

theorem foldl_apply_length (patches : List Patch) (chars : List Byte) :
    (patches.foldl Patch.apply chars).length = chars.length := by
  induction patches generalizing chars with
  | nil => rfl
  | cons patch rest ih => exact (ih _).trans (patch.apply_length chars)

def assembly (work : Work) : Job × Option String × List Byte × BlockTemplate × List Byte × Coin :=
  (work.job, work.currentJobId, work.blocktemplateStr, work.blocktemplate, work.received)

theorem Coherent.congr (coherent : work.Coherent env) (same : after.assembly = work.assembly) :
    after.Coherent env := by
  simp only [assembly, Prod.mk.injEq] at same
  obtain ⟨job, currentJobId, blocktemplateStr, blocktemplate, received⟩ := same
  intro current
  obtain ⟨rounds, accepted, flag, nonce, signature, ⟨earlier, text⟩, inside⟩ :=
    coherent (currentJobId ▸ current)
  have patches : after.patches = work.patches := by
    funext result
    simp only [Work.patches, sigOffset, job, blocktemplate]
  refine ⟨rounds, ?_, ?_, ?_, ?_, ⟨earlier, ?_⟩, ?_⟩
  · rw [fresh, received]; exact accepted
  · rw [blocktemplate, fresh, received]; exact flag
  · rw [job, fresh, received]; exact nonce
  · rw [blocktemplate, sigOffset, job, fresh, received]; exact signature
  · rw [blocktemplateStr, patches, received]; exact text
  · rw [blocktemplateStr, patches]; exact inside

theorem Coherent.submit {result : JobResult} {block : List Byte} (coherent : work.Coherent env)
    (submitted : work.submit result = some (block, after)) : after.Coherent env := by
  unfold Work.submit at submitted
  split at submitted
  · cases submitted
  · cases submitted
    intro current
    obtain ⟨rounds, accepted, flag, nonce, signature, ⟨earlier, text⟩, inside⟩ := coherent current
    refine ⟨rounds, accepted, flag, nonce, signature, ⟨earlier ++ [result], ?_⟩, fun other patch member => ?_⟩
    · change (work.patches result).foldl Patch.apply work.blocktemplateStr =
        ((earlier ++ [result]).flatMap work.patches).foldl Patch.apply work.received.1
      rw [List.flatMap_append, List.foldl_append, ← text, List.flatMap_singleton]
    · change patch.stop ≤ ((work.patches result).foldl Patch.apply work.blocktemplateStr).length
      rw [foldl_apply_length]
      exact inside other patch member

theorem newJob_wownero (coin : work.coin = .wownero) : (work.newJob none).algorithm = .rxWow := by
  simp only [newJob, coin, Coin.isValid, Coin.algorithm]
  rfl

theorem Installed.assembled {hex : List Byte} (accepted : work.accepts env crypto params rounds = true)
    (given : params.blocktemplateBlob = some hex) (matched : work.Matches env rounds hex)
    (left : Installed work after hex (work.reparse env rounds hex).template) :
    after.Assembled env rounds := by
  have parsed : BlockTemplate.result (work.reparse env rounds hex).outcome = some true := by
    simp only [accepts, given, decide_eq_true_eq] at accepted
    exact accepted.1
  obtain ⟨own, layout, written, clean⟩ := BlockTemplate.parseHex_fresh parsed
  have nonceOffset : after.job.nonceOffset = (work.newJob none).nonceOffset := by
    simp only [Job.nonceOffset, left.algorithm]
  have received : after.fresh env rounds = ({} : BlockTemplate).parseHex env hex work.coin false rounds := by
    rw [fresh, left.received]
  have here : after.blocktemplate.hasMinerSignature =
      !(layout.signature.isNone && work.blocktemplate.parsed.minerSignature.empty) := by
    rw [left.blocktemplate, BlockTemplate.hasMinerSignature]
    exact congrArg not written.empty
  have there : (after.fresh env rounds).template.hasMinerSignature = layout.signature.isSome := by
    rw [received, BlockTemplate.hasMinerSignature, clean.empty]
    cases layout.signature <;> rfl
  have offset : (after.fresh env rounds).template.parsed.offsets .nonce = layout.nonce % 2 ^ 32 := by
    rw [received]
    exact congrArg Prod.snd clean
  have nonce : after.job.nonceOffset = (after.fresh env rounds).template.parsed.offsets .nonce := by
    rw [nonceOffset, received]
    exact matched.1
  have flag : after.blocktemplate.hasMinerSignature = layout.signature.isSome := by
    cases found : layout.signature with
    | some span => rw [here, found]; rfl
    | none =>
      rw [here, found]
      cases stale : work.blocktemplate.parsed.minerSignature.empty with
      | true => rfl
      | false =>
        have claimed := matched.2 (by rw [BlockTemplate.hasMinerSignature, stale]; rfl)
        rw [← received, there, found] at claimed
        cases claimed
  have narrow : after.blocktemplate.hasMinerSignature = true → work.coin = .wownero ∧
      layout.nonce + 68 ≤ hex.length / 2 := by
    intro signed
    rw [flag] at signed
    obtain ⟨span, found⟩ := Option.isSome_iff_exists.mp signed
    exact ⟨(layout.signed span found).1, (layout.signed span found).2.2⟩
  have size : after.blocktemplate.hasMinerSignature = true → after.job.nonceSize = 4 := by
    intro signed
    rw [Job.nonceSize, left.algorithm, newJob_wownero (narrow signed).1]
    rfl
  have room := layout.nonce_fits
  have below := Nat.mod_le layout.nonce (2 ^ 32)
  refine ⟨received ▸ own, flag.trans there.symm, nonce, fun signed => ?_, ⟨[], ?_⟩, fun result patch member => ?_⟩
  · rw [sigOffset, size signed, nonce]
  · rw [left.blocktemplateStr, left.received]
    rfl
  · rw [left.blocktemplateStr]
    unfold Work.patches at member
    rcases List.mem_cons.mp member with rfl | member
    · simp only [Patch.stop, Cvt.toHex_length, littleEndian, List.length_map, List.length_cons,
        List.length_nil, nonce, offset]
      omega
    · split at member
      · rename_i signed
        have wide := (narrow signed).2
        rw [List.mem_singleton.mp member]
        simp only [Patch.stop, Cvt.toHex_length, Cvt.resize_length, sigOffset, size signed, nonce, offset]
        omega
      · cases member

/-- A template that is accepted matches the job that is made of it; a refused one does no harm. -/
def Fitting (env : BlockTemplate.Env) (crypto : Crypto) (work : Work) (params : JobParams)
    (rounds : Nat) : Prop :=
  if work.accepts env crypto params rounds then
    ∀ hex, params.blocktemplateBlob = some hex → work.Matches env rounds hex
  else work.harmless env params rounds

theorem Coherent.parseJob {outcome : Except JobError Unit} (coherent : work.Coherent env)
    (fitting : work.Fitting env crypto params rounds)
    (ran : work.parseJob env crypto params id rounds = some (outcome, after)) : after.Coherent env := by
  match given : params.blocktemplateBlob with
  | none =>
    rw [parseJob_empty given] at ran
    cases ran
    exact coherent
  | some hex =>
    unfold Fitting at fitting
    rcases parseJob_cases given ran with ⟨refused, _, left⟩ | ⟨accepted, _, left⟩
    · rw [refused] at fitting
      apply coherent.congr
      simp only [assembly, left.job, left.currentJobId, left.blocktemplateStr, left.received,
        left.blocktemplate, fitting hex given]
    · rw [accepted, if_pos rfl] at fitting
      intro _
      exact ⟨rounds, left.assembled accepted given (fitting hex given)⟩

end Work

namespace DaemonClient

variable {env : BlockTemplate.Env} {crypto : Crypto} {client after : DaemonClient}

/-! Only `parseJob` and `submit` write to the members a block is assembled from. -/

@[simp] theorem emit_work (output : DaemonOutput) : (client.emit output).work = client.work := rfl

@[simp] theorem stopTimer_work : client.stopTimer.work = client.work := rfl

@[simp] theorem startTimer_work (timer : Timer) : (client.startTimer timer).work = client.work := rfl

@[simp] theorem setSocket_work (i : Nat) (change : ZmqSocket → ZmqSocket) :
    (client.setSocket i change).work = client.work := rfl

@[simp] theorem send_work (request : DaemonRequest) : (client.send request).work = client.work := rfl

@[simp] theorem rpcSend_work : client.rpcSend.work = client.work := rfl

@[simp] theorem getBlockTemplate_work : client.getBlockTemplate.work = client.work := rfl

@[simp] theorem setState_work (state : SocketState) : (client.setState state).work = client.work := by
  unfold setState
  split
  · rfl
  · split <;> rfl

@[simp] theorem uvClose_work (shutdown : Bool) : (client.uvClose shutdown).work = client.work := by
  unfold uvClose
  split <;> rfl

@[simp] theorem retryTail_work : client.retryTail.work = client.work := by
  simp only [retryTail, stopTimer_work, startTimer_work]
  split <;> split <;> simp

@[simp] theorem retry_work : client.retry.work = client.work := by
  simp only [retry]
  split <;> simp

@[simp] theorem zmqClose_work (shutdown : Bool) : (client.zmqClose shutdown).work = client.work := by
  simp only [zmqClose]
  repeat' split
  all_goals simp

@[simp] theorem zmqWrite_work (text : List Byte) (whole : Bool) :
    (client.zmqWrite text whole).2.work = client.work := by
  unfold zmqWrite
  split <;> simp

@[simp] theorem onResolved_work (found : Bool) : (client.onResolved found).work = client.work := by
  simp only [onResolved]
  repeat' split
  all_goals simp

@[simp] theorem disconnect_work : client.disconnect.work = client.work := by
  unfold disconnect
  split <;> simp

@[simp] theorem deleteLater_work : client.deleteLater.work = client.work := by
  unfold deleteLater
  split <;> simp

@[simp] theorem zmqConnected_work (whole : Bool) : (client.zmqConnected whole).work = client.work := by
  simp only [zmqConnected]
  split <;> simp

@[simp] theorem handleSubmitResponse_work (id : Int) (error : Option (List Byte)) :
    (client.handleSubmitResponse id error).2.work = client.work := by
  unfold handleSubmitResponse
  split <;> rfl

@[simp] theorem submitResponse_work (id : Int) : (client.submitResponse id).2.work = client.work := by
  simp only [submitResponse]
  repeat' split
  all_goals simp

@[simp] theorem onHeight_work (height : BitVec 64) (hash : Option (List Byte)) (timedOut : Bool) :
    (client.onHeight height hash timedOut).work = client.work := by
  simp only [onHeight]
  split <;> simp

@[simp] theorem clearHashes_assembly : client.clearHashes.work.assembly = client.work.assembly := rfl

@[simp] theorem connect_assembly (lookup : Lookup) :
    (client.connect lookup).work.assembly = client.work.assembly := by
  simp only [connect]
  repeat' split
  all_goals simp [Work.assembly]

@[simp] theorem onTimer_assembly (timedOut : Bool) (lookup : Lookup) :
    (client.onTimer timedOut lookup).work.assembly = client.work.assembly := by
  simp only [onTimer]
  repeat' split
  all_goals simp

@[simp] theorem zmqParse_assembly : client.zmqParse.work.assembly = client.work.assembly := by
  unfold zmqParse
  split
  · rfl
  · rw [zmqClose_work]
  · rfl

@[simp] theorem readHandshake_assembly (writes : Writes) :
    (client.readHandshake writes).work.assembly = client.work.assembly := by
  simp only [readHandshake]
  repeat' split
  all_goals simp

@[simp] theorem readGreeting2_assembly (writes : Writes) :
    (client.readGreeting2 writes).work.assembly = client.work.assembly := by
  simp only [readGreeting2]
  repeat' split
  all_goals simp

@[simp] theorem readGreeting1_assembly (writes : Writes) :
    (client.readGreeting1 writes).work.assembly = client.work.assembly := by
  simp only [readGreeting1]
  repeat' split
  all_goals simp

@[simp] theorem zmqRead_assembly (data : List Byte) (writes : Writes) :
    (client.zmqRead data writes).work.assembly = client.work.assembly := by
  simp only [zmqRead]
  repeat' split
  all_goals simp

/-- The template that a response hands to `parseJob`. -/
def DaemonReply.template (reply : DaemonReply) : Option JobParams :=
  if reply.id = -1 ∨ reply.error.isSome then none
  else match reply.result with
    | some (none, params) => params
    | _ => none

/-- A response with a template carries a fitting one. -/
def Fitting (env : BlockTemplate.Env) (crypto : Crypto) (client : DaemonClient) : Event → Prop
  | .http i (.parsed reply) _ _ rounds =>
    ∀ id params, client.requests[i]? = some (.rpc id) → reply.template = some params →
      client.work.Fitting env crypto params rounds
  | _ => True

theorem parseJob_coherent {params : JobParams} {jobId : String} {rounds : Nat} {accepted : Bool}
    (coherent : client.work.Coherent env) (fitting : client.work.Fitting env crypto params rounds)
    (ran : client.parseJob env crypto params jobId rounds = some (accepted, after)) :
    after.work.Coherent env := by
  obtain ⟨⟨outcome, work⟩, parsed, made⟩ := Option.map_eq_some_iff.mp ran
  have kept := coherent.parseJob fitting parsed
  cases outcome with
  | error why =>
    cases made
    exact kept
  | ok done =>
    simp only [Prod.mk.injEq] at made
    rw [← made.2, emit_work]
    split
    · rw [setState_work]; exact kept
    · exact kept

theorem parseResponse_coherent {reply : DaemonReply} {jobId : String} {rounds : Nat} {handled : Bool}
    (coherent : client.work.Coherent env)
    (fitting : ∀ params, reply.template = some params → client.work.Fitting env crypto params rounds)
    (ran : client.parseResponse env crypto reply jobId rounds = some (handled, after)) :
    after.work.Coherent env := by
  unfold parseResponse at ran
  split at ran
  · cases ran
    exact coherent
  · rename_i known
    split at ran
    · cases ran
      rw [handleSubmitResponse_work]
      exact coherent
    · cases ran
      exact coherent
    · cases ran
      split <;> exact coherent
    · have same := congrArg (fun result => result.2.work) (Option.some.inj ran)
      rw [submitResponse_work] at same
      exact same ▸ coherent
    · rename_i params failed result
      obtain ⟨⟨accepted, middle⟩, parsed, made⟩ := Option.map_eq_some_iff.mp ran
      have given : reply.template = some params := by
        simp only [DaemonReply.template, known, failed, result]
        rfl
      have kept := parseJob_coherent coherent (fitting params given) parsed
      simp only at made
      split at made
      · cases made
        exact kept
      · have same := congrArg (fun result => result.2.work) made
        rw [submitResponse_work] at same
        exact same ▸ kept

theorem onHttpData_coherent {request : DaemonRequest} {answer : HttpAnswer} {timedOut : Bool}
    {jobId : String} {rounds : Nat}
    (ran : client.onHttpData env crypto request answer timedOut jobId rounds = some after)
    (coherent : client.work.Coherent env)
    (fitting : ∀ id reply params, request = .rpc id → answer = .parsed reply →
      reply.template = some params → client.work.Fitting env crypto params rounds) :
    after.work.Coherent env := by
  unfold onHttpData at ran
  split at ran
  · cases ran
    rw [retry_work]
    exact coherent
  · split at ran
    · cases ran
      exact coherent
    · cases ran
      rw [onHeight_work]
      exact coherent
  · cases ran
    rw [onHeight_work]
    exact coherent
  · rename_i reply id
    obtain ⟨⟨handled, middle⟩, parsed, made⟩ := Option.map_eq_some_iff.mp ran
    have kept := parseResponse_coherent coherent (fun params given => fitting id reply params rfl rfl given) parsed
    simp only at made
    split at made
    · exact made ▸ kept
    · rw [← made, retry_work]
      exact kept

theorem step_coherent {event : Event} (coherent : client.work.Coherent env)
    (fitting : client.Fitting env crypto event)
    (stepped : client.step env crypto event = some after) : after.work.Coherent env := by
  have frame {other : DaemonClient} (same : other.work.assembly = client.work.assembly)
      (made : some other = some after) : after.work.Coherent env := by
    cases made
    exact coherent.congr same
  unfold step at stepped
  split at stepped
  · cases stepped
  · cases event with
    | setPool pool => exact frame (by simp only [Work.setPool]; split <;> rfl) stepped
    | setAlgo algorithm =>
      cases stepped
      exact coherent.congr rfl
    | connect lookup => exact frame (connect_assembly lookup) stepped
    | disconnect => exact frame (by rw [disconnect_work]) stepped
    | deleteLater => exact frame (by rw [deleteLater_work]) stepped
    | submit result =>
      simp only at stepped
      split at stepped
      · exact frame rfl stepped
      · rename_i block work submitted
        cases stepped
        exact coherent.submit submitted
    | http i answer timedOut jobId rounds =>
      simp only at stepped
      split at stepped
      · cases stepped
      · rename_i request pending
        refine onHttpData_coherent stepped coherent fun id reply params posted given => ?_
        subst given posted
        exact fitting id params pending
    | timer timedOut lookup =>
      simp only at stepped
      split at stepped
      · cases stepped
      · refine frame ?_ stepped
        rw [onTimer_assembly, fired]
        split <;> rfl
    | resolved found =>
      simp only at stepped
      split at stepped
      · exact frame (by rw [onResolved_work]) stepped
      · cases stepped
    | zmqConnect i ok whole =>
      simp only at stepped
      split at stepped
      · refine frame ?_ stepped
        split <;> simp
      · cases stepped
    | zmqRead i data writes =>
      simp only at stepped
      split at stepped
      · exact frame (zmqRead_assembly data writes) stepped
      · cases stepped
    | zmqClosed i =>
      simp only at stepped
      split at stepped
      · cases stepped
      · split at stepped
        · cases stepped
        · cases stepped
          exact coherent.congr rfl
    | otherSends count =>
      cases stepped
      exact coherent.congr rfl

/-- A refused response leaves the job and its template as they were exactly if it is accepted or
does no harm. In runs of fitting responses every block is assembled from its own template. -/
theorem template_coherent (env : BlockTemplate.Env) (crypto : Crypto) :
    (∀ (work after : Work) (params : JobParams) (id : String) (rounds : Nat)
        (outcome : Except JobError Unit),
      work.parseJob env crypto params id rounds = some (outcome, after) →
        ((∀ why, outcome = .error why → Work.Unchanged work after) ↔
          (work.accepts env crypto params rounds = true ∨ work.harmless env params rounds))) ∧
    ∀ (events : List Event) (final : DaemonClient),
      Guarded (step env crypto) (Fitting env crypto) {} events →
      run (step env crypto) {} events = some final → final.work.Coherent env := by
  constructor
  · intro work after params id rounds outcome ran
    exact Work.parseJob_unchanged_iff ran
  · intro events final fitting executed
    refine run_invariant (P := fun client => client.work.Coherent env)
      (fun _ _ _ coherent allowed stepped => step_coherent coherent allowed stepped) ?_ fitting executed
    intro current
    cases current

/-! A pool whose wallet is one of Wownero, with and without a secret spend key. -/

def sampleEnv : BlockTemplate.Env := ⟨fun _ => List.replicate 32 0, fun _ => true⟩

def sampleCrypto : Crypto where
  secretKeyToPublicKey := some
  deriveViewSecretKey key := key
  generateKeyDerivation _ _ := some (List.replicate 32 0)
  deriveSecretKey _ _ key := key
  decodeWallet _ := { valid := true, coin := .wownero }

/-- A template of Wownero with the given version; from version 18 on it has a signature. -/
def sampleTemplate (version : Byte) : List Byte :=
  Cvt.toHex ([version, version, 0x80, 0x80, 0x80, 0x80, 1] ++ List.replicate 36 0 ++
    (if 18 ≤ version.toNat then List.replicate 66 0 else []) ++
    [2, 60, 1, 0xff, 1, 1, 0, 2] ++ List.replicate 32 0 ++ [33, 1] ++ List.replicate 32 0 ++ [0, 0])

def sampleResponse (version : Byte) : JobParams where
  blocktemplateBlob := some (sampleTemplate version)
  blockhashingBlob := some (Cvt.toHex (List.replicate 76 0))

def sampleReply (version : Byte) : HttpAnswer :=
  .parsed { id := 1, result := some (none, some (sampleResponse version)) }

def firstTemplateRun : List Event :=
  [.setPool {}, .connect .pending, .http 0 (sampleReply 17) false "1" 4]

theorem firstTemplateRun_runs : (run (step sampleEnv sampleCrypto) {} firstTemplateRun).isSome = true := by
  decide +kernel

theorem template_coherent_first :
    ∃ final, run (step sampleEnv sampleCrypto) {} firstTemplateRun = some final ∧
      final.work.currentJobId = some "1" ∧ final.work.Coherent sampleEnv := by
  have executed := (Option.some_get firstTemplateRun_runs).symm
  refine ⟨_, executed, by decide +kernel, ?_⟩
  refine (template_coherent sampleEnv sampleCrypto).2 firstTemplateRun _ ?_ executed
  refine ⟨trivial, fun _ first => ⟨trivial, fun _ second => ⟨?_, fun _ _ => trivial⟩⟩⟩
  cases first
  cases second
  intro id params _ given
  have same : sampleResponse 17 = params := Option.some.inj given
  subst same
  rw [Work.Fitting, if_pos (by decide +kernel)]
  intro hex text
  have same : sampleTemplate 17 = hex := Option.some.inj text
  subst same
  exact ⟨by decide +kernel, by decide⟩

/-- The daemon has a new block, and its template has a signature. -/
def secondTemplateRun : List Event :=
  firstTemplateRun ++ [.timer false .pending, .http 0 (.parsed { height := 1, hash := some none }) false "" 0]

theorem secondTemplateRun_runs :
    (run (step sampleEnv sampleCrypto) {} secondTemplateRun).isSome = true := by
  decide +kernel

theorem refusedTemplate_runs : (((run (step sampleEnv sampleCrypto) {} secondTemplateRun).get
    secondTemplateRun_runs).step sampleEnv sampleCrypto (.http 0 (sampleReply 18) false "2" 4)).isSome = true := by
  decide +kernel

/-- The second template is refused, as there is no secret key, and the job is still mined; a block
for it is patched with a signature that its template does not have. -/
theorem refused_template_replaces :
    ∃ before after, run (step sampleEnv sampleCrypto) {} secondTemplateRun = some before ∧
      before.step sampleEnv sampleCrypto (.http 0 (sampleReply 18) false "2" 4) = some after ∧
      (∃ why work, before.work.parseJob sampleEnv sampleCrypto (sampleResponse 18) "2" 4 =
        some (.error why, work) ∧ ¬ Work.Unchanged before.work work) ∧
      after.work.currentJobId = some "1" ∧ after.work.blocktemplateStr = sampleTemplate 17 ∧
      after.work.blocktemplate.hasMinerSignature = true := by
  refine ⟨_, _, (Option.some_get secondTemplateRun_runs).symm, (Option.some_get refusedTemplate_runs).symm,
    ?_, by decide +kernel⟩
  have unsigned : ((run (step sampleEnv sampleCrypto) {} secondTemplateRun).get
      secondTemplateRun_runs).work.blocktemplate.hasMinerSignature = false := by decide +kernel
  have signed : (((run (step sampleEnv sampleCrypto) {} secondTemplateRun).get
      secondTemplateRun_runs).work.parseJob sampleEnv sampleCrypto (sampleResponse 18) "2" 4).map
        (fun result => (result.1.isOk, result.2.blocktemplate.hasMinerSignature)) = some (false, true) := by
    decide +kernel
  obtain ⟨⟨outcome, work⟩, parsed, flags⟩ := Option.map_eq_some_iff.mp signed
  simp only [Prod.mk.injEq] at flags
  cases outcome with
  | ok done => cases flags.1
  | error why =>
    refine ⟨why, work, parsed, fun same => ?_⟩
    rw [same.2.2.2.2, unsigned] at flags
    cases flags.2

end DaemonClient

end Xmrig
