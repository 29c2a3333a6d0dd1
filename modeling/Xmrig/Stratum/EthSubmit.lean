import Xmrig.Base.HexCodec
import Xmrig.Base.Names
import Xmrig.Foundation.Numerals
import Xmrig.Foundation.Run
import Xmrig.Stratum.EthEffects

/-! Shares for an Ethereum or Bitcoin stratum, and the second extra nonce of GhostRider.

A pool announces how many bytes the second extra nonce has. They are all zero: as many are
put into the coinbase of a job and sent with a share for it.
-/

set_option autoImplicit false

namespace Xmrig

open Foundation

structure EthResult where
  jobId : Option (List Byte)
  nonce : BitVec 64
  diff : BitVec 64
  headerHash : List Byte
  mixHash : List Byte
  deriving DecidableEq, Repr

/-- What comes of a share: a refusal, the end of the connection or the parameters of a message. -/
inductive EthCall where
  | refused
  | closed
  | message (params : List Json)

namespace EthStratumClient

/-- `String::toJSON`. -/
def stringJSON (string : Option (List Byte)) : Json := (string.map Json.str).getD .null

/-- `std::hex << std::setw(width) << std::setfill('0')`. -/
def padHex (width : Nat) (number : Nat) : List Byte :=
  List.replicate (width - (Numerals.writeDigits 16 number).length) 48 ++ Numerals.writeDigits 16 number

def zerosLiteral : List Byte := List.replicate 32 48 ++ [0]

/-- A `Value` of so many characters of the literal, as it is written into the message. -/
def literalValue (length : BitVec 32) : Except Fault Json :=
  if length.toNat ≤ zerosLiteral.length then .ok (.str (zerosLiteral.take length.toNat)) else .error .outOfBounds

def shareParams (client : EthStratumClient) (result : EthResult) : Except Fault (List Json) :=
  if client.poolAlgorithm = .ghostriderRtm then do
    let extraNonce2 ← literalValue ((client.extraNonce2Size * 2).setWidth 32)
    pure [extraNonce2, stringJSON client.ntime, .str (padHex 8 result.nonce.toNat)]
  else pure [.str (text "0x" ++ padHex 16 result.nonce.toNat), .str (text "0x" ++ Cvt.toHex result.headerHash),
    .str (text "0x" ++ Cvt.toHex result.mixHash)]

def submit (client : EthStratumClient) (connected : Bool) (user : Option (List Byte)) (result : EthResult) :
    Except Fault EthCall :=
  if connected = false ∨ client.authorized = false then pure .refused
  else if result.diff = 0 then pure .closed
  else do
    let params ← client.shareParams result
    pure (.message ([stringJSON user, stringJSON result.jobId] ++ params))

/-- The answer to `mining.subscribe`; a failure is caught and leaves no extra nonce. -/
def onSubscribeResponse (client : EthStratumClient) (result : Json) (success : Bool) : EthStratumClient :=
  if success = false then client
  else
    match result with
    | .arr (_ :: .str chars :: rest) =>
      match client.assignExtraNonce chars with
      | .error _ => { client with extraNonce := (0, none) }
      | .ok client =>
        match rest.head?.bind Json.asUint with
        | some size => { client with extraNonce2Size := BitVec.ofNat 64 size }
        | none => client
    | _ => { client with extraNonce := (0, none) }

/-- `AutoClient::parseLogin` of a reply without a job, and the code it is refused with. -/
def parseLogin (client : EthStratumClient) (result : Json) : EthStratumClient × Option Nat :=
  let algorithm := Algorithm.parse (result.getString "algo")
  if result.getString "id" = none then (client, some 1)
  else if algorithm.family ≠ Algorithm.kawpow ∧ algorithm.family ≠ Algorithm.ghostrider then (client, some 6)
  else
    match result.getValue "extra_nonce" with
    | .str chars =>
      match client.assignExtraNonce chars with
      | .error _ => (client, some 6)
      | .ok client =>
        ({
          client with
          poolAlgorithm := algorithm
          extraNonce2Size := if algorithm.family = Algorithm.ghostrider
            then BitVec.ofNat 64 (result.getUint64 "extra_nonce2_size" 0)
            else client.extraNonce2Size }, none)
    | _ => (client, some 6)

/-! ## The characters of the second extra nonce -/

theorem toHex_zeros (size : Nat) : Cvt.toHex (List.replicate size 0) = List.replicate (2 * size) 48 := by
  induction size with
  | zero => rfl
  | succ size ih =>
    rw [List.replicate_succ, Nat.mul_succ, List.replicate_succ, List.replicate_succ, ← ih]
    rfl

theorem fromHexBuffer_zeros (size : Nat) : fromHexBuffer (List.replicate (2 * size) 48) = List.replicate size 0 := by
  cases size with
  | zero => rfl
  | succ size =>
    have some : List.replicate (size + 1) (0 : Byte) ≠ [] := List.cons_ne_nil _ _
    rw [← toHex_zeros, fromHexBuffer, Cvt.fromHex_toHex [] some]
    rfl

/-- A part of the literal without the character that ends it. -/
theorem zerosLiteral_take {length : Nat} (inside : length ≤ 32) :
    zerosLiteral.take length = List.replicate length 48 := by
  rw [zerosLiteral, List.take_append_of_le_length (by simpa using inside), List.take_replicate, Nat.min_eq_left inside]

/-- The value has two characters for each byte exactly as long as there are at most sixteen. -/
theorem literalValue_iff (size : BitVec 64) :
    literalValue ((size * 2).setWidth 32) = .ok (.str (List.replicate (2 * size.toNat) 48)) ↔ size.toNat ≤ 16 := by
  have length : ((size * 2).setWidth 32).toNat = size.toNat * 2 % 2 ^ 32 := by
    rw [BitVec.toNat_setWidth, BitVec.toNat_mul]
    exact Nat.mod_mod_of_dvd _ ⟨2 ^ 32, rfl⟩
  have whole : zerosLiteral.length = 33 := rfl
  unfold literalValue
  rw [length, whole]
  constructor
  · intro same
    split at same
    · rename_i inside
      have chars : zerosLiteral.take (size.toNat * 2 % 2 ^ 32) = List.replicate (2 * size.toNat) 48 := by
        injection same with same
        injection same
      have count := congrArg List.length chars
      rw [List.length_take, List.length_replicate, whole, Nat.min_eq_left inside] at count
      omega
    · cases same
  · intro small
    rw [Nat.mod_eq_of_lt (by omega), if_pos (by omega), zerosLiteral_take (by omega), Nat.mul_comm]

/-- Whether a share gets as far as its message. -/
def Sends (client : EthStratumClient) (connected : Bool) (result : EthResult) : Prop :=
  connected = true ∧ client.authorized = true ∧ result.diff ≠ 0

instance (client : EthStratumClient) (connected : Bool) (result : EthResult) :
    Decidable (client.Sends connected result) := inferInstanceAs (Decidable (_ ∧ _ ∧ _))

theorem submit_sends {client : EthStratumClient} {connected : Bool} {user : Option (List Byte)} {result : EthResult}
    (sends : client.Sends connected result) : client.submit connected user result =
      (client.shareParams result).map fun params => .message ([stringJSON user, stringJSON result.jobId] ++ params) := by
  obtain ⟨open', authorized, some⟩ := sends
  rw [submit, if_neg (by simp [open', authorized]), if_neg some]
  cases client.shareParams result <;> rfl

theorem submit_stops {client : EthStratumClient} {connected : Bool} {user : Option (List Byte)} {result : EthResult}
    (stops : ¬ client.Sends connected result) :
    client.submit connected user result = .ok .refused ∨ client.submit connected user result = .ok .closed := by
  unfold submit
  split
  · exact .inl rfl
  · rename_i ready
    split
    · exact .inr rfl
    · rename_i some
      simp only [not_or, Bool.not_eq_false] at ready
      exact absurd ⟨ready.1, ready.2, some⟩ stops

end EthStratumClient

/-! ## Sessions -/

open EthStratumClient

/-- A job that the listener was told of, with the message it came in and the client in front
of that message. -/
structure EthOrigin where
  client : EthStratumClient
  elements : List Json
  job : Job

/-- A share that was not turned away: the client at that time, the job it is for and the
parameters of its message. -/
structure EthSubmission where
  client : EthStratumClient
  origin : EthOrigin
  params : Except Fault (List Json)

/-- A client and its past; `connected` is `m_state`. -/
structure EthSession where
  client : EthStratumClient
  user : Option (List Byte) := none
  connected : Bool := false
  received : List EthOrigin := []
  sent : List EthSubmission := []

/-- A share for one of the jobs that were received. -/
structure EthShare where
  job : Nat
  nonce : BitVec 64
  diff : BitVec 64
  headerHash : List Byte
  mixHash : List Byte

namespace EthSession

def resultOf (share : EthShare) (origin : EthOrigin) : EthResult where
  jobId := origin.job.id.map text
  nonce := share.nonce
  diff := share.diff
  headerHash := share.headerHash
  mixHash := share.mixHash

/-- `job` is one that the other protocol of `AutoClient` received; `dropped` is a
`client.reconnect`, which does not take back the authorization. -/
inductive Event where
  | opened
  | dropped
  | closed
  | authorize (granted : Bool)
  | subscribe (result : Json) (success : Bool)
  | login (result : Json)
  | job (job : Job)
  | notification (method : List Byte) (params : Json)
  | submit (share : EthShare)

def jobsOf (outputs : List EthOutput) : List Job :=
  outputs.filterMap fun output =>
    match output with
    | .jobReceived job => some job
    | _ => none

/-- A notification that ends with an exception or outside of memory ends the session. -/
def notify (host : EthHost) (session : EthSession) (method : List Byte) (params : Json) : Option EthSession :=
  match (parseNotification host session.client method params).run [] with
  | .error _ => none
  | .ok ((client, outputs), _) =>
    some {
      session with
      client
      connected := session.connected && !outputs.contains .close
      received := session.received ++ (jobsOf outputs).map fun job => ⟨session.client, elementsOf params, job⟩ }

def submitShare (session : EthSession) (share : EthShare) (origin : EthOrigin) : EthSession :=
  match session.client.submit session.connected session.user (resultOf share origin) with
  | .error fault => { session with sent := session.sent ++ [⟨session.client, origin, .error fault⟩] }
  | .ok .refused => session
  | .ok .closed => { session with connected := false }
  | .ok (.message params) => { session with sent := session.sent ++ [⟨session.client, origin, .ok params⟩] }

def step (host : EthHost) (session : EthSession) : Event → Option EthSession
  | .opened => some { session with connected := true }
  | .dropped => some { session with connected := false }
  | .closed => some { session with connected := false, client := { session.client with authorized := false } }
  | .authorize granted =>
    if granted then some { session with client := { session.client with authorized := true } }
    else some { session with connected := false }
  | .subscribe result success => some { session with client := session.client.onSubscribeResponse result success }
  | .login result => some { session with client := (session.client.parseLogin result).1 }
  | .job job => some { session with client := { session.client with job } }
  | .notification method params => session.notify host method params
  | .submit share => (session.received[share.job]?).map (session.submitShare share)

/-- The second extra nonce in the message has two zeros for each byte that the pool announced,
they are decoded to as many zero bytes, and they stand in the coinbase whose hash the job was
made from, behind the first extra nonce. -/
def Matches (host : EthHost) (submission : EthSubmission) : Prop :=
  submission.client.poolAlgorithm = .ghostriderRtm →
    ∃ params chars, submission.params = .ok params ∧ params[2]? = some (.str chars) ∧
      chars = List.replicate (2 * submission.client.extraNonce2Size.toNat) 48 ∧
      fromHexBuffer chars = List.replicate submission.client.extraNonce2Size.toNat 0 ∧
      (submission.origin.client.algorithm = .ghostriderRtm →
        ∃ extraNonce, submission.origin.client.extraNonce.2 = some extraNonce ∧
          Hashed host submission.origin.client submission.origin.elements submission.origin.job
            (param submission.origin.elements 2 ++ extraNonce ++ chars ++ param submission.origin.elements 3))

/-- Every share that was sent is like that. -/
def Consistent (host : EthHost) (session : EthSession) : Prop := ∀ submission ∈ session.sent, Matches host submission

/-- A GhostRider share is sent when at most sixteen bytes are announced, and no other number of
characters than at the time of its job, if that is a GhostRider job. -/
def Allowed (session : EthSession) : Event → Prop
  | .submit share => ∀ origin, session.received[share.job]? = some origin →
      session.client.Sends session.connected (resultOf share origin) →
      session.client.poolAlgorithm = .ghostriderRtm →
        session.client.extraNonce2Size.toNat ≤ 16 ∧
          (origin.client.algorithm = .ghostriderRtm →
            origin.client.extraNonce2Size * 2 = session.client.extraNonce2Size * 2)
  | _ => True

instance (session : EthSession) : (event : Event) → Decidable (session.Allowed event)
  | .submit share =>
    match found : session.received[share.job]? with
    | none => .isTrue fun origin known => by rw [found] at known; cases known
    | some origin =>
      decidable_of_iff (session.client.Sends session.connected (resultOf share origin) →
          session.client.poolAlgorithm = .ghostriderRtm →
            session.client.extraNonce2Size.toNat ≤ 16 ∧
              (origin.client.algorithm = .ghostriderRtm →
                origin.client.extraNonce2Size * 2 = session.client.extraNonce2Size * 2))
        ⟨fun holds other known => Option.some.inj (found.symm.trans known) ▸ holds, fun holds => holds origin found⟩
  | .opened | .dropped | .closed | .authorize _ | .subscribe .. | .login _ | .job _ | .notification .. => .isTrue trivial

/-- Every job came from a coinbase, and what was sent is right. -/
structure Inv (host : EthHost) (session : EthSession) : Prop where
  hashed : ∀ origin ∈ session.received, origin.client.algorithm = .ghostriderRtm →
    ∃ text, Hashed host origin.client origin.elements origin.job text
  consistent : session.Consistent host

variable {host : EthHost} {session : EthSession}

theorem mem_jobsOf {outputs : List EthOutput} {job : Job} (member : job ∈ jobsOf outputs) :
    .jobReceived job ∈ outputs := by
  obtain ⟨output, told, read⟩ := List.mem_filterMap.mp member
  cases output with
  | jobReceived other => exact Option.some.inj read ▸ told
  | _ => cases read

theorem notify_inv {next : EthSession} {method : List Byte} {params : Json} (inv : session.Inv host)
    (notified : session.notify host method params = some next) : next.Inv host := by
  unfold notify at notified
  split at notified
  · cases notified
  · rename_i client outputs log ran
    cases notified
    have effects := parseNotification_effects host session.client method params _ _ _ ran
    refine ⟨?_, inv.consistent⟩
    intro origin member ghostrider
    rcases List.mem_append.mp member with old | new
    · exact inv.hashed origin old ghostrider
    · obtain ⟨job, told, rfl⟩ := List.mem_map.mp new
      exact effects.hashed job (mem_jobsOf told) ghostrider

theorem hashed_parts {origin : EthOrigin} {text : List Byte}
    (hashed : Hashed host origin.client origin.elements origin.job text) :
    ∃ extraNonce, origin.client.extraNonce.2 = some extraNonce ∧
      text = param origin.elements 2 ++ extraNonce ++
        List.replicate (origin.client.extraNonce2Size * 2).toNat 48 ++ param origin.elements 3 := by
  have built := hashed.1
  unfold coinbaseText at built
  split at built
  · cases built
  · rename_i extraNonce known
    dsimp only at built
    split at built
    · cases built
    · cases built
      exact ⟨extraNonce, known, rfl⟩

def recorded (client : EthStratumClient) (user : Option (List Byte)) (result : EthResult) : Except Fault (List Json) :=
  (client.shareParams result).map fun params => [stringJSON user, stringJSON result.jobId] ++ params

theorem submitShare_sends {share : EthShare} {origin : EthOrigin}
    (sends : session.client.Sends session.connected (resultOf share origin)) :
    session.submitShare share origin = {
      session with
      sent := session.sent ++ [⟨session.client, origin, recorded session.client session.user (resultOf share origin)⟩] } := by
  rw [submitShare, submit_sends sends, recorded]
  cases session.client.shareParams (resultOf share origin) <;> rfl

theorem submitShare_stops {share : EthShare} {origin : EthOrigin}
    (stops : ¬ session.client.Sends session.connected (resultOf share origin)) :
    (session.submitShare share origin).sent = session.sent ∧
      (session.submitShare share origin).received = session.received := by
  unfold submitShare
  rcases @submit_stops _ _ session.user _ stops with refused | closed
  · rw [refused]
    exact ⟨rfl, rfl⟩
  · rw [closed]
    exact ⟨rfl, rfl⟩

theorem recorded_ghostrider {client : EthStratumClient} (ghostrider : client.poolAlgorithm = .ghostriderRtm)
    (user : Option (List Byte)) (result : EthResult) :
    recorded client user result = (literalValue ((client.extraNonce2Size * 2).setWidth 32)).map fun extraNonce2 =>
      [stringJSON user, stringJSON result.jobId, extraNonce2, stringJSON client.ntime,
        .str (padHex 8 result.nonce.toNat)] := by
  rw [recorded, shareParams, if_pos ghostrider]
  cases literalValue ((client.extraNonce2Size * 2).setWidth 32) <;> rfl

theorem zeros_toNat {size : BitVec 64} (small : size.toNat ≤ 16) : (size * 2).toNat = 2 * size.toNat := by
  have two : (2 : BitVec 64).toNat = 2 := rfl
  rw [BitVec.toNat_mul, two, Nat.mod_eq_of_lt (by omega), Nat.mul_comm]

/-- A message for GhostRider is right exactly under the condition. -/
theorem matches_iff {client : EthStratumClient} {origin : EthOrigin} (result : EthResult) (user : Option (List Byte))
    (ghostrider : client.poolAlgorithm = .ghostriderRtm)
    (hashed : origin.client.algorithm = .ghostriderRtm →
      ∃ text, Hashed host origin.client origin.elements origin.job text) :
    Matches host ⟨client, origin, recorded client user result⟩ ↔ client.extraNonce2Size.toNat ≤ 16 ∧
      (origin.client.algorithm = .ghostriderRtm →
        origin.client.extraNonce2Size * 2 = client.extraNonce2Size * 2) := by
  rw [recorded_ghostrider ghostrider]
  constructor
  · intro right
    obtain ⟨params, chars, message, third, zeros, -, coinbase⟩ := right ghostrider
    have small : client.extraNonce2Size.toNat ≤ 16 := by
      apply (literalValue_iff _).mp
      cases written : literalValue ((client.extraNonce2Size * 2).setWidth 32) with
      | error fault =>
        rw [written] at message
        cases message
      | ok extraNonce2 =>
        rw [written] at message
        cases message
        cases third
        rw [zeros]
    refine ⟨small, fun same => ?_⟩
    obtain ⟨extraNonce, known, whole⟩ := coinbase same
    obtain ⟨other, again, parts⟩ := hashed_parts whole
    obtain rfl : extraNonce = other := Option.some.inj (known.symm.trans again)
    rw [List.append_cancel_right_eq, List.append_cancel_left_eq, zeros] at parts
    have count := congrArg List.length parts
    rw [List.length_replicate, List.length_replicate] at count
    apply BitVec.eq_of_toNat_eq
    rw [zeros_toNat small, count]
  · rintro ⟨small, same⟩ _
    rw [(literalValue_iff _).mpr small]
    refine ⟨_, _, rfl, rfl, rfl, fromHexBuffer_zeros _, fun origin' => ?_⟩
    obtain ⟨text, whole⟩ := hashed origin'
    obtain ⟨extraNonce, known, parts⟩ := hashed_parts whole
    refine ⟨extraNonce, known, ?_⟩
    rw [same origin', zeros_toNat small] at parts
    rw [← parts]
    exact whole

theorem Inv.unsent {next : EthSession} (inv : session.Inv host) (received : next.received = session.received)
    (sent : next.sent = session.sent) : next.Inv host where
  hashed := by
    rw [received]
    exact inv.hashed
  consistent := by
    unfold Consistent
    rw [sent]
    exact inv.consistent

theorem step_inv {event : Event} {next : EthSession} (inv : session.Inv host) (allowed : session.Allowed event)
    (stepped : session.step host event = some next) : next.Inv host := by
  cases event with
  | notification method params => exact notify_inv inv stepped
  | authorize granted =>
    simp only [step] at stepped
    split at stepped <;> cases stepped <;> exact inv.unsent rfl rfl
  | submit share =>
    obtain ⟨origin, found, rfl⟩ := Option.map_eq_some_iff.mp stepped
    by_cases sends : session.client.Sends session.connected (resultOf share origin)
    · rw [submitShare_sends sends]
      refine ⟨inv.hashed, fun submission member => ?_⟩
      rcases List.mem_append.mp member with old | new
      · exact inv.consistent submission old
      · obtain rfl := List.mem_singleton.mp new
        intro ghostrider
        have hashed := inv.hashed origin (List.mem_of_getElem? found)
        exact (matches_iff _ _ ghostrider hashed).mpr (allowed origin found sends ghostrider) ghostrider
    · obtain ⟨sent, received⟩ := submitShare_stops sends
      exact inv.unsent received sent
  | _ =>
    cases stepped
    exact inv.unsent rfl rfl

theorem step_inconsistent {event : Event} {next : EthSession} (inv : session.Inv host)
    (other : ¬ session.Allowed event) (stepped : session.step host event = some next) : ¬ next.Consistent host := by
  cases event with
  | submit share =>
    simp only [Allowed, Classical.not_forall] at other
    obtain ⟨origin, found, sends, ghostrider, wrong⟩ := other
    have taken : next = session.submitShare share origin := by
      rw [step, found] at stepped
      exact (Option.some.inj stepped).symm
    rw [taken, submitShare_sends sends]
    intro consistent
    have hashed := inv.hashed origin (List.mem_of_getElem? found)
    exact wrong ((matches_iff _ _ ghostrider hashed).mp (consistent _ (List.mem_append_right _ (List.mem_singleton_self _))))
  | _ => exact absurd trivial other

/-- The second extra nonces of a session are right exactly when every GhostRider share is sent
while at most sixteen bytes are announced, and as many as in front of the message of its job. -/
theorem extraNonce2_consistent (host : EthHost) (client : EthStratumClient) (user : Option (List Byte))
    {events : List Event} {final : EthSession} (executed : run (step host) { client, user } events = some final) :
    Throughout (step host) (Consistent host) { client, user } events ↔
      Guarded (step host) Allowed { client, user } events := by
  refine throughout_iff_guarded (fun _ inv => inv.consistent) (fun _ _ _ inv allowed stepped => step_inv inv allowed stepped)
    (fun _ _ _ inv other stepped => step_inconsistent inv other stepped) ?_ executed
  exact ⟨fun _ none => absurd none List.not_mem_nil, fun _ none => absurd none List.not_mem_nil⟩

def announcement (size : Nat) : Json :=
  .obj [("id", .str (text "1")), ("algo", .str (text "ghostrider")), ("extra_nonce", .str (text "00")),
    ("extra_nonce2_size", .int size)]

def unconnected : EthSession := { client := { poolAlgorithm := .invalid } }

/-- A job whose coinbase has a height behind two bytes `ff`. -/
def raptoreumJob : Json :=
  .arr [.str (text "1"), .str (List.replicate 64 48), .str (List.replicate 64 48 ++ text "ffff000000000000"), .str [],
    .arr [], .str (List.replicate 8 48), .str (List.replicate 8 48), .str (List.replicate 8 48)]

def oneShare (size : Nat) : List Event :=
  [.opened, .login (announcement size), .notification (text "mining.notify") raptoreumJob,
    .submit { job := 0, nonce := 1, diff := 1, headerHash := [], mixHash := [] }]

/-- A message that would have to be read from behind the literal. -/
def overrun (submission : EthSubmission) : Bool :=
  decide (submission.client.poolAlgorithm = .ghostriderRtm) && !submission.params.isOk

theorem overrun_wrong {host : EthHost} {session : EthSession} (some : session.sent.any overrun = true) :
    ¬ session.Consistent host := by
  intro consistent
  obtain ⟨submission, member, large⟩ := List.any_eq_true.mp some
  simp only [overrun, Bool.and_eq_true, decide_eq_true_eq] at large
  obtain ⟨params, chars, message, -⟩ := consistent submission member large.1
  rw [message] at large
  cases large.2

theorem oneShare_small : ∃ final, run (step idleHost) unconnected (oneShare 4) = some final ∧
    Throughout (step idleHost) (Consistent idleHost) unconnected (oneShare 4) := by
  have reached : (run (step idleHost) unconnected (oneShare 4)).isSome = true := by decide +kernel
  obtain ⟨final, ran⟩ := Option.isSome_iff_exists.mp reached
  exact ⟨final, ran, (extraNonce2_consistent idleHost { poolAlgorithm := .invalid } none ran).mpr (by decide +kernel)⟩

/-- Two characters more than the literal has are sent for seventeen bytes. -/
theorem oneShare_large : ∃ final, run (step idleHost) unconnected (oneShare 17) = some final ∧
    ¬ final.Consistent idleHost := by
  have reached : (run (step idleHost) unconnected (oneShare 17)).any (fun final => final.sent.any overrun) = true := by
    decide +kernel
  obtain ⟨final, ran, large⟩ := (Option.any_eq_true ..).mp reached
  exact ⟨final, ran, overrun_wrong large⟩

end EthSession

end Xmrig
