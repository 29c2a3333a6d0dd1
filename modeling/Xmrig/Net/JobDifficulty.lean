import Xmrig.Backend.CpuWorker
import Xmrig.Net.JobResults
import Xmrig.Stratum.EthEffects
import Xmrig.Stratum.JobTarget

/-! The target of a job against its difficulty.

Either is the largest number whose product with the other is at most `2 ^ 64 - 1`, up to the
truncation of the division that computed it; a result reports the same quotient of its hash.
-/

set_option autoImplicit false

namespace Xmrig

open Foundation

/-! ## The quotients -/

namespace Job
section Quotients
variable {x y : BitVec 64}

theorem toNat_pos (nonzero : x ≠ 0) : 0 < x.toNat :=
  Nat.pos_of_ne_zero fun zero => nonzero (BitVec.eq_of_toNat_eq zero)

/-- A number is below a quotient exactly if the product fits. -/
theorem le_toDiff (nonzero : y ≠ 0) : x ≤ toDiff y ↔ x.toNat * y.toNat ≤ 2 ^ 64 - 1 := by
  rw [BitVec.le_def, (toDiff_toNat nonzero).1]
  exact Nat.le_div_iff_mul_le (toNat_pos nonzero)

theorem le_toDiff_comm (first : x ≠ 0) (second : y ≠ 0) : x ≤ toDiff y ↔ y ≤ toDiff x := by
  rw [le_toDiff second, le_toDiff first, Nat.mul_comm]

theorem toDiff_ne_zero (nonzero : x ≠ 0) : toDiff x ≠ 0 := by
  intro zero
  have positive := (toDiff_toNat nonzero).2
  rw [zero] at positive
  exact absurd positive (by decide)

theorem le_toDiff_toDiff (nonzero : x ≠ 0) : x ≤ toDiff (toDiff x) :=
  (le_toDiff_comm nonzero (toDiff_ne_zero nonzero)).mpr (BitVec.le_refl _)

theorem toDiff_antitone (first : x ≠ 0) (second : y ≠ 0) (le : x ≤ y) : toDiff y ≤ toDiff x := by
  rw [le_toDiff_comm (toDiff_ne_zero second) first]
  exact BitVec.le_trans le (le_toDiff_toDiff second)

theorem toDiff_toDiff_toDiff (nonzero : x ≠ 0) : toDiff (toDiff (toDiff x)) = toDiff x := by
  have quotient := toDiff_ne_zero nonzero
  apply BitVec.le_antisymm
  · exact toDiff_antitone nonzero (toDiff_ne_zero quotient) (le_toDiff_toDiff nonzero)
  · exact le_toDiff_toDiff quotient

theorem le_toDiff_of_lt (first : x ≠ 0) (second : y ≠ 0) (less : x < toDiff y) : y ≤ toDiff x :=
  (le_toDiff_comm first second).mp (BitVec.le_of_lt less)

end Quotients

/-- One of the numbers is the quotient of the other. -/
def Matches (job : Job) : Prop := job.diff = toDiff job.target ∨ job.target = toDiff job.diff

theorem setDiff_matches (job : Job) (diff : BitVec 64) : (job.setDiff diff).Matches := .inr rfl

theorem setTarget_matches {job after : Job} {target : Option (List Byte)} (set : job.setTarget target = some (after, true)) :
    after.Matches := by
  unfold setTarget at set
  dsimp only at set
  split at set
  · cases set
  · obtain ⟨value, -, taken⟩ := Option.map_eq_some_iff.mp set
    split at taken
    · cases taken
    · cases taken
      exact .inl rfl

theorem Matches.reaches {job : Job} (fits : job.Matches) {hash : BitVec 64} (nonzero : hash ≠ 0)
    (less : hash < job.target) : job.diff ≤ toDiff hash := by
  have target : job.target ≠ 0 := by
    intro zero
    rw [zero, BitVec.lt_def] at less
    exact Nat.not_lt_zero _ less
  rcases fits with diff | quotient
  · rw [diff]
    exact toDiff_antitone nonzero target (BitVec.le_of_lt less)
  · have diff : job.diff ≠ 0 := by
      intro zero
      rw [zero] at quotient
      exact target quotient
    rw [quotient] at less
    exact le_toDiff_of_lt nonzero diff less

end Job

/-! ## The jobs of a notification -/

namespace EthStratumClient
variable {host : EthHost} {client : EthStratumClient} {elements : List Json}

/-- Every job that was received has its target and difficulty in order. -/
def Fitting (outputs : List EthOutput) : Prop := ∀ job, .jobReceived job ∈ outputs → job.Matches

theorem takeJob_fitting {algorithm : Algorithm} {job : Job} (fits : job.Matches) :
    Fitting (takeJob host client algorithm job).2 := by
  intro other told
  unfold takeJob at told
  split at told
  · split at told
    · split at told <;> simp at told
    · rcases List.mem_append.mp told with early | last
      · split at early <;> simp at early
      · have same : other = job := by simpa using last
        exact same ▸ fits
  · split at told <;> simp at told

theorem sealHeader_fitting {job : Job} {header : List Byte} {result : EthStratumClient × Built}
    (ended : sealHeader client job header = .ok result) {built : Job} (made : result.2 = .ok built) :
    built.Matches := by
  unfold sealHeader at ended
  split at ended
  · cases ended
    cases made
  · cases swapped : swapWords 20 0 (fromHexBuffer (padZeros header (80 * 2))) with
    | error fault =>
      rw [swapped] at ended
      cases ended
    | ok buf =>
      rw [swapped] at ended
      cases ended
      cases made
      exact Job.setDiff_matches _ _

theorem finishJob_fitting (job : Job) (front leaf : List Byte) :
    Leaves (finishJob host client elements job front leaf) fun result =>
      ∀ built, result.2 = .ok built → built.Matches := by
  apply Leaves.skip
  intro branches
  apply Leaves.skip
  intro _
  apply Leaves.skip
  intro root
  cases root with
  | none => exact leaves_pure fun built made => by cases made
  | some root =>
    apply Leaves.skip
    intro ntime
    apply Leaves.skip
    intro nbits
    apply leaves_lift
    intro result ended built made
    exact sealHeader_fitting ended made

theorem ghostRiderJob_fitting (job : Job) :
    Leaves (ghostRiderJob host client elements job) fun result => ∀ built, result.2 = .ok built → built.Matches := by
  apply Leaves.skip
  intro typed
  split
  · iterate 7
      apply Leaves.skip
      intro _
    exact finishJob_fitting _ _ _
  · exact leaves_pure fun built made => by cases made

theorem kawpowJob_fitting (job : Job) : Leaves (kawpowJob client elements job) Job.Matches := by
  apply Leaves.skip
  intro headerHash
  apply Leaves.skip
  intro target
  apply Leaves.skip
  intro height
  exact leaves_pure (.inr rfl)

theorem miningNotify_fitting : Leaves (miningNotify host client elements) fun result => Fitting result.2 := by
  have silent (after : EthStratumClient) (message : String) :
      Leaves (pure (after, [EthOutput.error message]) : Reading (EthStratumClient × List EthOutput))
        fun result => Fitting result.2 :=
    leaves_pure fun job told => by simp at told
  unfold miningNotify
  split
  · exact silent _ _
  · apply Leaves.skip
    intro _
    apply Leaves.skip
    intro isString
    split
    · apply Leaves.skip
      intro id
      dsimp only
      split
      · refine (ghostRiderJob_fitting _).bind ?_
        rintro ⟨after, outcome⟩ fits
        cases outcome with
        | ok job => exact leaves_pure (takeJob_fitting (fits job rfl))
        | error message => exact silent _ _
      · exact (kawpowJob_fitting _).bind fun job fits => leaves_pure (takeJob_fitting fits)
    · exact silent _ _

/-- The macro `ethash_swap_u64`. -/
def swapU64 (value : BitVec 64) : BitVec 64 :=
  let byte := fun i => value.extractLsb' (8 * i) 8
  byte 0 ++ byte 1 ++ byte 2 ++ byte 3 ++ byte 4 ++ byte 5 ++ byte 6 ++ byte 7

/-- What `submit` reports of a KawPow result: its first eight bytes, turned around. -/
def actualDiff (result : List Word) : BitVec 64 := Job.toDiff (swapU64 (result.getD 1 0 ++ result.getD 0 0))

theorem swapU64_words (output : List Word) :
    swapU64 (output.getD 1 0 ++ output.getD 0 0) = JobResults.hashValue output := by
  have low (start : Nat) (inside : start + 8 ≤ 32) :
      (output.getD 1 0 ++ output.getD 0 0).extractLsb' start 8 = (output.getD 0 0).extractLsb' start 8 :=
    BitVec.extractLsb'_append_eq_of_add_le inside
  have high (start : Nat) (outside : 32 ≤ start) :
      (output.getD 1 0 ++ output.getD 0 0).extractLsb' start 8 = (output.getD 1 0).extractLsb' (start - 32) 8 :=
    BitVec.extractLsb'_append_eq_of_le outside
  dsimp only [swapU64, JobResults.hashValue]
  rw [low (8 * 0) (by decide), low (8 * 1) (by decide), low (8 * 2) (by decide), low (8 * 3) (by decide),
    high (8 * 4) (by decide), high (8 * 5) (by decide), high (8 * 6) (by decide), high (8 * 7) (by decide)]

end EthStratumClient

/-! ## The results -/

/-- `JobResult::actualDiff`. -/
def actualDiff (result : BitVec 256) : BitVec 64 := Job.toDiff (hashValue result)

namespace CpuWorker
variable {hasher : Hasher} {config : CpuConfig} {worker after : CpuWorker hasher} {shared left : CpuShared}
  {submission : Submission}

theorem available_silent (lanes : Nat) : .submit submission ∉ worker.available lanes := by
  simp [available]

theorem innerStep_silent (random : Nat) : .submit submission ∉ (worker.innerStep config shared random).2.2 := by
  unfold innerStep launch
  split
  · simp
  · split
    · simp
    · split
      · simp
      · split
        · simp
        · dsimp only
          split
          · exact available_silent _
          · simp

theorem reserveLane_silent (lane : Nat) : .submit submission ∉ (worker.reserveLane config shared lane).2.2 := by
  unfold reserveLane
  split
  · dsimp only
    split <;> simp
  · split <;> simp

theorem checkLane_submits {lane : Nat} (told : .submit submission ∈ (worker.checkLane shared lane).2) :
    submission.job = worker.job.currentJob ∧ hashValue submission.hash < submission.job.target := by
  unfold checkLane at told
  dsimp only at told
  split at told
  · simp at told
  · split at told
    · rename_i less
      simp only [List.mem_singleton, CpuOutput.submit.injEq] at told
      rw [told]
      exact ⟨rfl, less⟩
    · simp at told

theorem step_submits {random : Nat} {outputs : List CpuOutput}
    (stepped : worker.step config shared random = some (after, left, outputs)) (told : .submit submission ∈ outputs) :
    submission.job = worker.job.currentJob ∧ hashValue submission.hash < submission.job.target := by
  -- only the check of a lane submits
  unfold step at stepped
  split at stepped
  case h_6 =>
    have same : _ = outputs := congrArg (·.2.2) (Option.some.inj stepped)
    rw [← same] at told
    exact absurd told (innerStep_silent random)
  case h_8 lane _ =>
    have same : _ = outputs := congrArg (·.2.2) (Option.some.inj stepped)
    rw [← same] at told
    exact absurd told (reserveLane_silent lane)
  case h_9 =>
    split at stepped
    · cases stepped
      exact absurd told (available_silent 1)
    · cases stepped
      simp at told
  case h_10 =>
    split at stepped
    · cases stepped
      exact checkLane_submits told
    · cases stepped
      simp at told
  all_goals
    repeat' split at stepped
    all_goals
      cases stepped
    all_goals simp at told

end CpuWorker

namespace JobResults

/-- `checkHash`: a hash a GPU found, computed again. -/
def checkHash (job : Job) (nonce : Word) (hash : BitVec 256) : Option Submission :=
  if Xmrig.hashValue hash < job.target then some ⟨job, nonce, hash, none⟩ else none

variable {ethash : Ethash} {hasPopcnt : Bool}

/-- The target is that of the bundle, and every result is below it. -/
structure Below (job : Job) (state : Verification) : Prop where
  target : state.job.target = job.target
  diff : state.job.diff = job.diff
  results : ∀ result ∈ state.results,
    result.job.target = job.target ∧ result.job.diff = job.diff ∧ hashValue result.result < job.target

theorem verifyNonce_below {job : Job} {state : Verification} (below : Below job state) (nonce : Word) :
    Below job (verifyNonce ethash hasPopcnt state nonce) := by
  unfold verifyNonce
  split
  · exact below
  · dsimp only
    split
    · exact ⟨below.target, below.diff, below.results⟩
    · split
      · exact ⟨below.target, below.diff, below.results⟩
      · split
        · rename_i less
          refine ⟨below.target, below.diff, fun result member => ?_⟩
          rcases List.mem_append.mp member with old | new
          · exact below.results result old
          · rw [List.mem_singleton.mp new]
            exact ⟨below.target, below.diff, below.target ▸ less⟩
        · exact ⟨below.target, below.diff, below.results⟩

theorem getResults_below (cache : KPCache) (bundle : JobBundle) :
    Below bundle.job (getResults ethash hasPopcnt cache bundle) := by
  have start : Below bundle.job { cache, job := bundle.job } := ⟨rfl, rfl, by simp⟩
  unfold getResults
  generalize ({ cache, job := bundle.job } : Verification) = state at start
  induction bundle.nonces generalizing state with
  | nil => exact start
  | cons nonce rest ih => exact ih _ (verifyNonce_below start nonce)

end JobResults

/-! ## Targets and difficulties -/

namespace Job

/-- The quotients of the 64-bit range turn the order around, and are one another's inverses up to
what the divisions cut off. A job that was given a difficulty, a target it accepted, or the target
of a notification holds a matching pair; for such a job every result that is submitted, with a hash
that is not zero, reports the job's difficulty or more. -/
theorem toDiff_connects :
    (∀ x y hash : BitVec 64, x ≠ 0 → y ≠ 0 → hash ≠ 0 →
      (toDiff x).toNat = (2 ^ 64 - 1) / x.toNat ∧ x ≤ toDiff (toDiff x) ∧ toDiff (toDiff (toDiff x)) = toDiff x ∧
        (x ≤ y → toDiff y ≤ toDiff x) ∧ (hash < toDiff y → y ≤ toDiff hash)) ∧
    (∀ (job : Job) (diff : BitVec 64), (job.setDiff diff).Matches) ∧
    (∀ (job after : Job) (target : Option (List Byte)), job.setTarget target = some (after, true) → after.Matches) ∧
    (∀ (host : EthHost) (client : EthStratumClient) (elements : List Json),
      Leaves (EthStratumClient.miningNotify host client elements) fun result =>
        ∀ job, .jobReceived job ∈ result.2 → job.Matches) ∧
    (∀ (hasher : Hasher) (config : CpuConfig) (worker after : CpuWorker hasher) (shared left : CpuShared) (random : Nat)
        (outputs : List CpuOutput), worker.step config shared random = some (after, left, outputs) →
      ∀ submission, .submit submission ∈ outputs → submission.job.Matches → hashValue submission.hash ≠ 0 →
        submission.job.diff ≤ actualDiff submission.hash) ∧
    (∀ (job : Job) (nonce : Word) (hash : BitVec 256) (submission : Submission),
      JobResults.checkHash job nonce hash = some submission → job.Matches → hashValue hash ≠ 0 →
        submission.job.diff ≤ actualDiff submission.hash) ∧
    (∀ (ethash : Ethash) (hasPopcnt : Bool) (cache : KPCache) (bundle : JobResults.JobBundle), bundle.job.Matches →
      ∀ result ∈ (JobResults.getResults ethash hasPopcnt cache bundle).results,
        JobResults.hashValue result.result ≠ 0 →
          result.job.diff ≤ EthStratumClient.actualDiff result.result) := by
  refine ⟨?quotients, setDiff_matches, fun _ _ _ => setTarget_matches, fun _ _ _ => EthStratumClient.miningNotify_fitting,
    ?worker, ?gpu, ?kawpow⟩
  case quotients =>
    intro x y hash first second nonzero
    exact ⟨(toDiff_toNat first).1, le_toDiff_toDiff first, toDiff_toDiff_toDiff first, toDiff_antitone first second,
      le_toDiff_of_lt nonzero second⟩
  case worker =>
    intro hasher config worker after shared left random outputs stepped submission told fits nonzero
    exact fits.reaches nonzero (CpuWorker.step_submits stepped told).2
  case gpu =>
    intro job nonce hash submission checked fits nonzero
    unfold JobResults.checkHash at checked
    split at checked
    · rename_i less
      cases checked
      exact fits.reaches nonzero less
    · cases checked
  case kawpow =>
    intro ethash hasPopcnt cache bundle fits result member nonzero
    obtain ⟨target, diff, less⟩ := (JobResults.getResults_below cache bundle).results result member
    rw [diff, EthStratumClient.actualDiff, EthStratumClient.swapU64_words]
    exact fits.reaches nonzero less

/-- A target that is refused has already been written: the job is left with no target and the
difficulty of the one before. -/
theorem setTarget_refused_unmatched :
    ∃ job after : Job, job.Matches ∧ job.setTarget (some (List.replicate 16 48)) = some (after, false) ∧
      ¬after.Matches := by
  refine ⟨setDiff { algorithm := .rx0 } 100, { algorithm := .rx0, diff := 100, target := 0 }, setDiff_matches _ _, ?_, ?_⟩
  · decide
  · unfold Matches
    decide

end Job

end Xmrig
