import Xmrig.Foundation.Outcomes
import Xmrig.Stratum.EthNotification

/-! What a notification of the Ethereum protocol does to the client. -/

set_option autoImplicit false

namespace Xmrig

open Foundation

namespace Reading

theorem getString_leaves (elements : List Json) (index : Nat) :
    Leaves (getString .params elements index) (· = EthStratumClient.param elements index) := by
  intro log value after ran
  cases here : elements[index]? with
  | none =>
    simp only [getString, getChars, get, element, here] at ran
    cases ran
  | some inner =>
    cases fits : JsonType.string.fits inner with
    | false =>
      rw [getString_failed here fits] at ran
      cases ran
    | true =>
      obtain ⟨chars, rfl⟩ := EthStratumClient.fits_string fits
      rw [getString_run here] at ran
      cases ran
      exact (EthStratumClient.param_of here).symm

end Reading

namespace EthStratumClient

/-- The job is the one over the hash of a coinbase with that text. -/
def Hashed (host : EthHost) (client : EthStratumClient) (elements : List Json) (job : Job) (text : List Byte) : Prop :=
  coinbaseText host client (param elements 2) (param elements 3) = .ok text ∧
    ∃ leaf base kept log after, hashBuffer host (fromHexBuffer text) = .ok leaf ∧
      (finishJob host client elements base (param elements 5 ++ param elements 1) leaf).run log =
        .ok ((kept, .ok job), after)

/-- The client after a notification, and what it told. -/
structure Effects (host : EthHost) (client : EthStratumClient) (elements : List Json)
    (result : EthStratumClient × List EthOutput) : Prop where
  size : result.1.extraNonce2Size = client.extraNonce2Size
  pool : result.1.poolAlgorithm = client.poolAlgorithm
  coin : result.1.coin = client.coin
  authorized : client.authorized = true → result.1.authorized = true
  received : ∀ job, .jobReceived job ∈ result.2 → result.1.authorized = true
  hashed : ∀ job, .jobReceived job ∈ result.2 → client.algorithm = .ghostriderRtm →
    ∃ text, Hashed host client elements job text

variable {host : EthHost} {client : EthStratumClient} {elements : List Json}

theorem Effects.quiet {after : EthStratumClient} {outputs : List EthOutput}
    (size : after.extraNonce2Size = client.extraNonce2Size) (pool : after.poolAlgorithm = client.poolAlgorithm)
    (coin : after.coin = client.coin) (authorized : after.authorized = client.authorized)
    (silent : ∀ job, .jobReceived job ∉ outputs) : Effects host client elements (after, outputs) where
  size := size
  pool := pool
  coin := coin
  authorized := fun before => authorized.trans before
  received := fun job told => absurd told (silent job)
  hashed := fun job told => absurd told (silent job)

theorem Effects.failed (text : String) : Effects host client elements (client, [.error text]) :=
  .quiet rfl rfl rfl rfl (by simp)

/-- A job that was built by a client whose `ntime` may be new. -/
theorem takeJob_effects {before : EthStratumClient} {job : Job} (algorithm : Algorithm)
    (size : before.extraNonce2Size = client.extraNonce2Size) (pool : before.poolAlgorithm = client.poolAlgorithm)
    (coin : before.coin = client.coin) (authorized : before.authorized = client.authorized)
    (hashed : client.algorithm = .ghostriderRtm → ∃ text, Hashed host client elements job text) :
    Effects host client elements (takeJob host before algorithm job) := by
  unfold takeJob
  split
  · split
    · apply Effects.quiet size pool coin authorized
      intro other
      split <;> simp
    · refine ⟨size, pool, coin, fun _ => rfl, fun _ _ => rfl, ?_⟩
      intro other told
      have same : other = job := by
        rcases List.mem_append.mp told with early | last
        · split at early <;> simp at early
        · simpa using last
      exact same ▸ hashed
  · apply Effects.quiet size pool coin authorized
    intro other
    split <;> simp

theorem sealHeader_kept {job : Job} {header : List Byte} {result : EthStratumClient × Built}
    (ended : sealHeader client job header = .ok result) : result.1 = client := by
  unfold sealHeader at ended
  split at ended
  · cases ended
    rfl
  · cases swapped : swapWords 20 0 (fromHexBuffer (padZeros header (80 * 2))) with
    | error fault =>
      rw [swapped] at ended
      cases ended
    | ok buf =>
      rw [swapped] at ended
      cases ended
      rfl

/-- The client that finishes a job differs in `ntime` at most. -/
theorem finishJob_kept (job : Job) (front leaf : List Byte) :
    Leaves (finishJob host client elements job front leaf) fun result =>
      ∃ ntime, result.1 = { client with ntime } := by
  apply Leaves.skip
  intro branches
  apply Leaves.skip
  intro _
  apply Leaves.skip
  intro root
  cases root with
  | none => exact leaves_pure ⟨client.ntime, rfl⟩
  | some root =>
    apply Leaves.skip
    intro ntime
    apply Leaves.skip
    intro nbits
    apply leaves_lift
    intro result ended
    exact ⟨some ntime, sealHeader_kept ended⟩

theorem digestJob_leaves (job : Job) :
    Leaves (digestJob host client elements job) fun result =>
      (∃ ntime, result.1 = { client with ntime }) ∧
        ∀ built, result.2 = .ok built → ∃ text, Hashed host client elements built text := by
  refine (Reading.getString_leaves elements 5).bind ?_
  rintro _ rfl
  refine (Reading.getString_leaves elements 1).bind ?_
  rintro _ rfl
  refine (Reading.getString_leaves elements 2).bind ?_
  rintro _ rfl
  refine (Reading.getString_leaves elements 3).bind ?_
  rintro _ rfl
  refine (leaves_lift fun text known => known).bind ?_
  intro text known
  apply Leaves.skip
  intro height
  refine (leaves_lift fun leaf hashed => hashed).bind ?_
  intro leaf hashed log result after ran
  refine ⟨finishJob_kept _ _ _ _ _ _ ran, ?_⟩
  rintro built rfl'
  obtain ⟨kept, outcome⟩ := result
  cases rfl'
  exact ⟨text, known, leaf, _, kept, log, after, hashed, ran⟩

theorem miningNotify_effects : Leaves (miningNotify host client elements) (Effects host client elements) := by
  unfold miningNotify
  split
  · exact leaves_pure (.failed _)
  · apply Leaves.skip
    intro _
    apply Leaves.skip
    intro isString
    split
    · apply Leaves.skip
      intro id
      dsimp only
      split
      · have built : Leaves (ghostRiderJob host client elements (client.startJob id)) fun result =>
            (∃ ntime, result.1 = { client with ntime }) ∧
              ∀ job, result.2 = .ok job → ∃ text, Hashed host client elements job text := by
          apply Leaves.skip
          intro typed
          split
          · exact digestJob_leaves _
          · exact leaves_pure ⟨⟨client.ntime, rfl⟩, fun _ none => by cases none⟩
        refine built.bind ?_
        rintro ⟨after, outcome⟩ ⟨⟨ntime, rfl⟩, hashed⟩
        cases outcome with
        | ok job => exact leaves_pure (takeJob_effects _ rfl rfl rfl rfl fun _ => hashed job rfl)
        | error text => exact leaves_pure (.quiet rfl rfl rfl rfl (by simp))
      · rename_i other
        apply Leaves.skip
        intro job
        exact leaves_pure (takeJob_effects _ rfl rfl rfl rfl fun same => absurd same other)
    · exact leaves_pure (.failed _)

theorem assignExtraNonce_kept {chars : List Byte} {after : EthStratumClient}
    (ended : client.assignExtraNonce chars = .ok after) : ∃ extraNonce, after = { client with extraNonce } := by
  unfold assignExtraNonce at ended
  dsimp only at ended
  split at ended
  · cases ended
  · split at ended
    · cases ended
    · cases read : stoull (padZeros (Json.cString (skip0x chars)) 16) with
      | error fault =>
        rw [read] at ended
        cases ended
      | ok value =>
        rw [read] at ended
        cases ended
        exact ⟨_, rfl⟩

theorem setExtraNonce_effects :
    Leaves (setExtraNonceNotification client elements) (Effects host client elements) := by
  unfold setExtraNonceNotification
  split
  · exact leaves_pure (.failed _)
  · apply Leaves.skip
    intro _
    have assigned : Leaves (client.setExtraNonce elements 0) fun after =>
        ∃ extraNonce, after = { client with extraNonce } := by
      apply Leaves.skip
      intro isString
      split
      · apply Leaves.skip
        intro chars
        exact leaves_lift fun after ended => assignExtraNonce_kept ended
      · exact leaves_throw _
    refine assigned.bind ?_
    rintro _ ⟨extraNonce, rfl⟩
    exact leaves_pure (.quiet rfl rfl rfl rfl (by simp))

theorem setDifficulty_effects :
    Leaves (setDifficulty host client elements) (Effects host client elements) := by
  unfold setDifficulty
  split
  · exact leaves_pure (.quiet rfl rfl rfl rfl (by simp))
  · split
    · exact leaves_pure (.failed _)
    · apply Leaves.skip
      intro _
      apply Leaves.skip
      intro isDouble
      split
      · apply Leaves.skip
        intro diff
        exact leaves_pure (.quiet rfl rfl rfl rfl (by simp))
      · apply Leaves.skip
        intro isUint64
        split
        · apply Leaves.skip
          intro diff
          exact leaves_pure (.quiet rfl rfl rfl rfl (by simp))
        · exact leaves_pure (.failed _)

def elementsOf : Json → List Json
  | .arr elements => elements
  | _ => []

theorem parseNotification_effects (host : EthHost) (client : EthStratumClient) (method : List Byte) (params : Json) :
    Leaves (parseNotification host client method params) (Effects host client (elementsOf params)) := by
  unfold parseNotification
  split
  · exact leaves_pure (.quiet rfl rfl rfl rfl (by simp))
  · split
    · split
      · exact setExtraNonce_effects
      · exact leaves_pure (.failed _)
    · split
      · split
        · exact setDifficulty_effects
        · exact leaves_pure (.failed _)
      · split
        · split
          · exact miningNotify_effects
          · exact leaves_pure (.failed _)
        · exact leaves_pure (.quiet rfl rfl rfl rfl (by simp))

end EthStratumClient

end Xmrig
