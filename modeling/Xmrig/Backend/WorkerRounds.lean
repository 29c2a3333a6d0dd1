import Xmrig.Backend.WorkerJob
import Xmrig.Foundation.Run

/-! Rounds of one worker on one job: `save` and any number of `nextRound` calls.

`reserveAll` follows the counters alone through the calls of `Nonce::next` for
all lanes. A session adds to the worker what the rounds have used. Every lane
works through the block it was granted, and the part that it has not used yet
is disjoint from everything used before and from what the other lanes hold.
-/

set_option autoImplicit false

namespace Xmrig.WorkerJob

open Foundation

/-! ## The counters -/

/-- The first nonces of `left` blocks granted one after the other, if no request is refused. -/
def reserveAll (index : Fin 2) (count : BitVec 32) (mask : BitVec 64)
    (others : Nat → Nat → BitVec 62) : (left lane : Nat) → Nonce → Option (List (BitVec 64) × Nonce)
  | 0, _, nonce => some ([], nonce)
  | left + 1, lane, nonce =>
      let reply := nonce.next index ⟨0, 0⟩ count mask (others lane)
      reply.granted.bind fun first =>
        (reserveAll index count mask others left (lane + 1) reply.nonce).map fun rest =>
          (first :: rest.1, rest.2)

/-- A bound for what was handed out before; 0 if nothing was. -/
def Base (bound counter : Nat) : Prop := bound = 0 ∨ (bound ≤ counter ∧ counter ≤ 2 ^ 63)

/-- Blocks of `count` nonces in ascending order, between two bounds. -/
structure Ascends (mask : BitVec 64) (count : BitVec 32) (firsts : List (BitVec 64))
    (low high : Nat) : Prop where
  fits : ∀ first ∈ firsts, Nonce.Fits mask count first
  above : ∀ first ∈ firsts, low ≤ first.toNat
  below : ∀ first ∈ firsts, first.toNat + count.toNat ≤ high
  sorted : firsts.Pairwise fun first second => first.toNat + count.toNat ≤ second.toNat
  grows : low ≤ high

section Counters
variable {index : Fin 2} {count : BitVec 32} {mask : BitVec 64} {others : Nat → Nat → BitVec 62}
  {left lane : Nat} {nonce after : Nonce} {firsts : List (BitVec 64)}

theorem reserveAll_cons {first : BitVec 64}
    (granted : (nonce.next index ⟨0, 0⟩ count mask (others lane)).granted = some first) :
    reserveAll index count mask others (left + 1) lane nonce =
      (reserveAll index count mask others left (lane + 1)
        (nonce.next index ⟨0, 0⟩ count mask (others lane)).nonce).map fun rest =>
          (first :: rest.1, rest.2) := by
  simp only [reserveAll, granted, Option.bind_some]

theorem reserveAll_refused
    (refused : (nonce.next index ⟨0, 0⟩ count mask (others lane)).granted = none) :
    reserveAll index count mask others (left + 1) lane nonce = none := by
  simp only [reserveAll, refused, Option.bind_none]

theorem reserveAll_ascends (low : Nonce.IsLow (Nonce.effective mask)) {bound : Nat}
    (base : Base bound (nonce.nonces index).toNat)
    (all : reserveAll index count mask others left lane nonce = some (firsts, after)) :
    firsts.length = left ∧ ∃ stop, Base stop (after.nonces index).toNat ∧
      Ascends (Nonce.effective mask) count firsts bound stop := by
  induction left generalizing lane nonce firsts after bound with
  | zero =>
    cases all
    exact ⟨rfl, bound, base, by simp, by simp, by simp, .nil, Nat.le_refl _⟩
  | succ left ih =>
    cases reply : (nonce.next index ⟨0, 0⟩ count mask (others lane)).granted with
    | none => rw [reserveAll_refused reply] at all; cases all
    | some first =>
      rw [reserveAll_cons reply, Option.map_eq_some_iff] at all
      obtain ⟨⟨rest, _⟩, tail, equal⟩ := all
      cases equal
      have granted := Nonce.next_granted low reply
      have end_ := granted.fits.lt low
      have counter := granted.counter
      have fresh : bound ≤ first.toNat := by
        rcases base with zero | ⟨behind, small⟩
        · omega
        · have := (others lane 0).isLt
          exact Nat.le_trans behind (Nonce.next_fresh low (by omega) reply)
      obtain ⟨length, stop, newBase, ascends⟩ :=
        @ih _ _ _ _ (first.toNat + count.toNat) (.inr (by omega)) tail
      have grows := ascends.grows
      refine ⟨by simp [length], stop, newBase, ?_, ?_, ?_, ?_, by omega⟩
      · simpa using ⟨granted.fits, ascends.fits⟩
      · intro other member
        rcases List.mem_cons.mp member with rfl | member
        · exact fresh
        · have := ascends.above other member
          omega
      · intro other member
        rcases List.mem_cons.mp member with rfl | member
        · exact grows
        · exact ascends.below other member
      · exact List.pairwise_cons.mpr ⟨ascends.above, ascends.sorted⟩

end Counters

section Replies
variable {job : Job} {worker : WorkerJob} {count : BitVec 32} {others : Nat → Nat → BitVec 62}
  {left lane : Nat} {nonce : Nonce}

theorem next_counters (carries : worker.Carries job) :
    (worker.next nonce lane count (others lane)).granted =
        (nonce.next job.index ⟨0, 0⟩ count job.nonceMask (others lane)).granted ∧
      (worker.next nonce lane count (others lane)).nonce =
        (nonce.next job.index ⟨0, 0⟩ count job.nonceMask (others lane)).nonce := by
  simp only [next, carries.index, carries.mask]
  exact Nonce.next_words _

/-- `save` gets a block for every lane exactly when no request is refused. -/
theorem saveLanes_replies (carries : worker.Carries job) :
    match reserveAll job.index count job.nonceMask others left lane nonce with
    | some (firsts, after) =>
        (saveLanes job count others left lane worker nonce).replies = firsts.map some ∧
          (saveLanes job count others left lane worker nonce).nonce = after
    | none => none ∈ (saveLanes job count others left lane worker nonce).replies := by
  induction left generalizing lane worker nonce with
  | zero => exact ⟨rfl, rfl⟩
  | succ left ih =>
    obtain ⟨granted, counters⟩ := @next_counters _ _ count others lane nonce (load_carries lane carries)
    have touched := next_touched lane (load_carries lane carries) nonce count (others lane)
    cases reply : (nonce.next job.index ⟨0, 0⟩ count job.nonceMask (others lane)).granted with
    | none =>
      rw [reserveAll_refused reply]
      simp only [saveLanes, granted, reply]
      exact List.mem_cons_self
    | some first =>
      rw [reserveAll_cons reply]
      have tail := @ih _ (lane + 1)
        (nonce.next job.index ⟨0, 0⟩ count job.nonceMask (others lane)).nonce touched.carries
      simp only [saveLanes, granted, reply, counters]
      cases rest : reserveAll job.index count job.nonceMask others left (lane + 1)
          (nonce.next job.index ⟨0, 0⟩ count job.nonceMask (others lane)).nonce with
      | none =>
        rw [rest] at tail
        simp only [Option.map_none]
        exact List.mem_cons_of_mem _ tail
      | some result =>
        rw [rest] at tail
        simp only [Option.map_some, List.map_cons]
        exact ⟨by rw [tail.1], tail.2⟩

theorem reserveLanes_replies (carries : worker.Carries job)
    (ok : (reserveLanes count others left lane worker nonce).ok = true) :
    ∃ firsts, reserveAll job.index count job.nonceMask others left lane nonce =
        some (firsts, (reserveLanes count others left lane worker nonce).nonce) ∧
      (reserveLanes count others left lane worker nonce).replies = firsts.map some := by
  induction left generalizing lane worker nonce with
  | zero => exact ⟨[], rfl, rfl⟩
  | succ left ih =>
    obtain ⟨granted, counters⟩ := @next_counters _ _ count others lane nonce carries
    have touched := next_touched lane carries nonce count (others lane)
    simp only [reserveLanes] at ok ⊢
    split at ok
    · rename_i taken
      rw [if_pos taken]
      obtain ⟨first, reply⟩ := Option.isSome_iff_exists.mp taken
      obtain ⟨firsts, rest, replies⟩ := ih touched.carries ok
      refine ⟨first :: firsts, ?_, by simp [replies, reply]⟩
      rw [reserveAll_cons (granted.symm.trans reply), ← counters, rest]
      rfl
    · cases ok

end Replies

/-! ## Sessions -/

/-- The arguments that stay the same during a session. -/
structure Setup where
  lanes : Nat
  job : Job
  rounds : BitVec 32
  roundSize : BitVec 32

namespace Setup

/-- What callers pass: a blob that `setBlob` accepted, a power of two of rounds,
and a reserve count that fits its 32 bits. -/
structure Valid (setup : Setup) : Prop where
  sized : setup.job.Sized
  power : ∃ bits, setup.rounds.toNat = 2 ^ bits
  fits : setup.rounds.toNat * setup.roundSize.toNat < 2 ^ 32

def count (setup : Setup) : BitVec 32 := setup.rounds * setup.roundSize

def mask (setup : Setup) : BitVec 64 := Nonce.effective setup.job.nonceMask

def range (setup : Setup) (worker : WorkerJob) (lane : Nat) : Block :=
  ⟨(field setup.job (worker.words lane) &&& setup.mask).toNat, setup.roundSize.toNat⟩

def ranges (setup : Setup) (worker : WorkerJob) : List Block :=
  (List.range setup.lanes).map (setup.range worker)

end Setup

/-- A worker and the counters, the block that each lane was granted last, and
the ranges of all rounds so far. -/
structure Session where
  worker : WorkerJob
  nonce : Nonce
  blocks : Nat → Option Block
  used : List Block

/-- The block that a lane was granted last, given the replies of one operation. -/
def latest (count : BitVec 32) (replies : List (Option (BitVec 64))) (blocks : Nat → Option Block)
    (lane : Nat) : Option Block :=
  match replies[lane]? with
  | some (some first) => some ⟨first.toNat, count.toNat⟩
  | _ => blocks lane

namespace Session

/-- After `save(job, rounds * roundSize)`. -/
def start (setup : Setup) (worker : WorkerJob) (nonce : Nonce) (backend : Backend)
    (others : Nat → Nat → BitVec 62) : Session :=
  let outcome := worker.save setup.lanes nonce setup.job setup.count backend others
  { worker := outcome.worker
    nonce := outcome.nonce
    blocks := latest setup.count outcome.replies fun _ => none
    used := setup.ranges outcome.worker }

/-- A call of `nextRound` that returns true. -/
def step (setup : Setup) (session : Session) (others : Nat → Nat → BitVec 62) : Option Session :=
  let outcome := session.worker.nextRound setup.lanes session.nonce setup.rounds setup.roundSize others
  if outcome.ok then
    some
      { worker := outcome.worker
        nonce := outcome.nonce
        blocks := latest setup.count outcome.replies session.blocks
        used := setup.ranges outcome.worker ++ session.used }
  else none

/-- The ranges lie in the granted blocks and do not overlap, and nothing outside
the mask differs from the job's blob. -/
structure Sound (setup : Setup) (session : Session) : Prop where
  reserved : ∀ lane < setup.lanes, ∀ value, Block.Mem value (setup.range session.worker lane) →
    ∃ block, session.blocks lane = some block ∧ Block.Mem value block
  disjoint : session.used.Pairwise Block.Disjoint
  bytes : ∀ lane < setup.lanes, ∀ position < setup.job.size,
    position < setup.job.nonceOffset ∨ setup.job.nonceOffset + setup.job.nonceSize ≤ position →
      session.worker.blob (lane * setup.job.size + position) =
        Memory.ofBytes setup.job.blob position
  bits : ∀ lane < setup.lanes,
    field setup.job (session.worker.words lane) &&& ~~~setup.mask =
      field setup.job (jobWords setup.job) &&& ~~~setup.mask

end Session

/-! ## Arithmetic of a round -/

theorem no_wrap {quotient value size bits : Nat} (below : value + size < 2 ^ bits)
    (wide : 32 ≤ bits → value % 2 ^ 32 + size < 2 ^ 32) :
    (quotient * 2 ^ bits + value) % 2 ^ 32 + size < 2 ^ 32 := by
  by_cases large : 32 ≤ bits
  · obtain ⟨extra, rfl⟩ := Nat.exists_eq_add_of_le large
    have multiple : quotient * 2 ^ (32 + extra) + value =
        value + 2 ^ 32 * (quotient * 2 ^ extra) := by
      rw [Nat.pow_add]
      ac_rfl
    rw [multiple, Nat.add_mul_mod_self_left]
    exact wide large
  · obtain ⟨extra, whole⟩ := Nat.exists_eq_add_of_le (show bits ≤ 32 by omega)
    rw [whole, Nat.pow_add, Nat.mod_mul, Nat.mul_comm quotient, Nat.mul_add_mod,
      Nat.mod_eq_of_lt (show value < 2 ^ bits by omega), Nat.mul_add_div (Nat.two_pow_pos bits),
      Nat.div_eq_of_lt (show value < 2 ^ bits by omega), Nat.add_zero]
    have small := Nat.mod_lt quotient (Nat.two_pow_pos extra)
    have := Nat.mul_le_mul_left (2 ^ bits) (show quotient % 2 ^ extra + 1 ≤ 2 ^ extra by omega)
    rw [Nat.mul_add, Nat.mul_one] at this
    omega

/-- `m_rounds` counts the rounds of the current reservation modulo `rounds`. -/
theorem round_counter {rounds counter : BitVec 32} {bits : Nat} (power : rounds.toNat = 2 ^ bits) :
    (counter + 1 &&& (rounds - 1) = 0 ∧ counter.toNat % rounds.toNat + 1 = rounds.toNat ∧
        (counter + 1).toNat % rounds.toNat = 0) ∨
      (counter + 1 &&& (rounds - 1) ≠ 0 ∧ counter.toNat % rounds.toNat + 1 < rounds.toNat ∧
        (counter + 1).toNat % rounds.toNat = counter.toNat % rounds.toNat + 1) := by
  have positive : 0 < 2 ^ bits := Nat.two_pow_pos bits
  have bound := rounds.isLt
  have small : bits < 32 := (Nat.pow_lt_pow_iff_right (a := 2) (by omega)).mp (power ▸ bound)
  have ones : (rounds - 1).toNat = 2 ^ bits - 1 := by
    rw [← power]
    bv_omega
  have masked : (counter + 1 &&& (rounds - 1)).toNat = (counter + 1).toNat % 2 ^ bits := by
    rw [BitVec.toNat_and, ones, Nat.and_two_pow_sub_one_eq_mod]
  have stepped : (counter + 1).toNat % 2 ^ bits = (counter.toNat + 1) % 2 ^ bits := by
    rw [BitVec.toNat_add, show (1 : BitVec 32).toNat = 1 by decide]
    exact Nat.mod_mod_of_dvd _ (Nat.pow_dvd_pow 2 (by omega))
  have zero : counter + 1 &&& (rounds - 1) = 0 ↔ (counter + 1).toNat % 2 ^ bits = 0 := by
    rw [← masked]
    exact ⟨fun same => by rw [same]; rfl, fun same => BitVec.eq_of_toNat_eq same⟩
  rw [Ne, zero, power, stepped, Nat.add_mod]
  have below := Nat.mod_lt counter.toNat positive
  by_cases last : counter.toNat % 2 ^ bits + 1 = 2 ^ bits
  · left
    by_cases one : bits = 0
    · subst one
      simp [Nat.mod_one]
    · have : 1 % 2 ^ bits = 1 := Nat.mod_eq_of_lt (Nat.one_lt_two_pow one)
      rw [this, last, Nat.mod_self]
      exact ⟨rfl, rfl, rfl⟩
  · right
    have : 1 % 2 ^ bits = 1 := Nat.mod_eq_of_lt (by omega)
    rw [this, Nat.mod_eq_of_lt (show counter.toNat % 2 ^ bits + 1 < 2 ^ bits by omega)]
    exact ⟨by omega, by omega, rfl⟩

namespace Setup

variable {setup : Setup} {worker : WorkerJob} {lane : Nat}

theorem Valid.toNat_count (valid : setup.Valid) :
    setup.count.toNat = setup.rounds.toNat * setup.roundSize.toNat := by
  rw [count, BitVec.toNat_mul, Nat.mod_eq_of_lt valid.fits]

theorem mask_bits (setup : Setup) :
    ∃ bits, setup.mask.toNat = 2 ^ bits - 1 ∧ space setup.job = 2 ^ bits := by
  obtain ⟨bits, _, ones⟩ := Nonce.effective_nonceMask_low setup.job
  have : 0 < 2 ^ bits := Nat.two_pow_pos bits
  exact ⟨bits, ones, by rw [space, ones]; omega⟩

theorem toNat_keep {value mask : BitVec 64} {bits : Nat} (ones : mask.toNat = 2 ^ bits - 1) :
    (value &&& ~~~mask).toNat = value.toNat / 2 ^ bits * 2 ^ bits := by
  have merged := @Nonce.toNat_merge value mask 0 bits ones (Nat.two_pow_pos bits)
  simpa using merged

theorem range_of_holds {prefix_ value : Nat}
    (holds : worker.Holds setup.job lane (prefix_ * space setup.job + value))
    (inside : value < space setup.job) :
    setup.range worker lane = ⟨value, setup.roundSize.toNat⟩ := by
  obtain ⟨bits, ones, whole⟩ := setup.mask_bits
  rw [range, BitVec.toNat_and, ones, Nat.and_two_pow_sub_one_eq_mod, holds.value, ← whole,
    Nat.mul_comm, Nat.mul_add_mod, Nat.mod_eq_of_lt inside]

theorem bits_of_holds {value : Nat}
    (holds : worker.Holds setup.job lane
      ((field setup.job (jobWords setup.job)).toNat / space setup.job * space setup.job + value))
    (inside : value < space setup.job) :
    field setup.job (worker.words lane) &&& ~~~setup.mask =
      field setup.job (jobWords setup.job) &&& ~~~setup.mask := by
  obtain ⟨bits, ones, whole⟩ := setup.mask_bits
  rw [whole] at holds inside
  apply BitVec.eq_of_toNat_eq
  rw [toNat_keep ones, toNat_keep ones, holds.value, div_of_rest inside]

end Setup

/-! ## One round -/

/-- The same blob seen through a slot with the same job. -/
structure SameBlobs (worker after : WorkerJob) (job : Job) : Prop where
  carries : after.Carries job
  rounds : after.rounds = worker.rounds
  blob : after.blob = worker.blob

theorem SameBlobs.holds {worker after : WorkerJob} {job : Job} {lane value : Nat}
    (same : SameBlobs worker after job) (sized : job.Sized) (carries : worker.Carries job)
    (holds : worker.Holds job lane value) : after.Holds job lane value :=
  holds.frame sized carries same.carries fun _ _ => by rw [same.blob]

theorem setJobNonceHigh_same {worker : WorkerJob} {job : Job} (carries : worker.Carries job)
    (word : BitVec 32) : SameBlobs worker (worker.setJobNonceHigh word) job := by
  refine ⟨⟨carries.index, ?_, ?_, carries.mask⟩, rfl, rfl⟩
  · simp only [setJobNonceHigh, currentJob, Function.update_self, Job.size, List.length_map,
      List.length_range]
    exact carries.size
  · simp only [setJobNonceHigh, currentJob, Function.update_self]
    exact carries.algorithm

theorem countRound_carries {worker : WorkerJob} {job : Job} (carries : worker.Carries job) :
    worker.countRound.Carries job := ⟨carries.1, carries.2, carries.3, carries.4⟩

theorem countRound_rounds (worker : WorkerJob) :
    worker.countRound.rounds worker.index = worker.rounds worker.index + 1 :=
  Function.update_self ..

/-- A successful `nextRound` either reserves for all lanes or advances all of them. -/
theorem nextRound_cases {lanes : Nat} {worker : WorkerJob} {nonce : Nonce}
    {rounds roundSize : BitVec 32} {others : Nat → Nat → BitVec 62} {job : Job} (sized : job.Sized)
    (carries : worker.Carries job)
    (ok : (worker.nextRound lanes nonce rounds roundSize others).ok = true) :
    (worker.rounds worker.index + 1 &&& (rounds - 1) = 0 ∧
      ∃ reserved, reserveLanes (rounds * roundSize) others lanes 0 worker.countRound nonce = reserved ∧
        reserved.ok = true ∧
        (worker.nextRound lanes nonce rounds roundSize others).nonce = reserved.nonce ∧
        (worker.nextRound lanes nonce rounds roundSize others).replies = reserved.replies ∧
        SameBlobs reserved.worker (worker.nextRound lanes nonce rounds roundSize others).worker job) ∨
    (worker.rounds worker.index + 1 &&& (rounds - 1) ≠ 0 ∧
      worker.nextRound lanes nonce rounds roundSize others =
        ⟨true, advanceLanes roundSize lanes 0 worker.countRound, nonce, []⟩) := by
  have test : worker.countRound.rounds worker.countRound.index = worker.rounds worker.index + 1 :=
    countRound_rounds worker
  by_cases boundary : worker.rounds worker.index + 1 &&& (rounds - 1) = 0
  · left
    refine ⟨boundary, _, rfl, ?_⟩
    simp only [nextRound, test, boundary, if_true] at ok ⊢
    split at ok
    · rename_i wide
      have swept := reserveLanes_swept sized _ others (countRound_carries carries) nonce wide.1
      rw [if_pos wide]
      exact ⟨wide.1, rfl, rfl, setJobNonceHigh_same swept.carries _⟩
    · rename_i narrow
      have swept := reserveLanes_swept sized _ others (countRound_carries carries) nonce ok
      rw [if_neg narrow]
      exact ⟨ok, rfl, rfl, swept.carries, rfl, rfl⟩
  · right
    exact ⟨boundary, by simp only [nextRound, test, boundary, if_false]⟩

/-! ## The invariant -/

namespace Session

/-- What a lane that has used `consumed` nonces of its block still holds in reserve. -/
def unused (setup : Setup) (firsts : Nat → BitVec 64) (consumed lane : Nat) : Block :=
  ⟨(firsts lane).toNat + consumed + setup.roundSize.toNat,
    setup.count.toNat - consumed - setup.roundSize.toNat⟩

def consumed (setup : Setup) (worker : WorkerJob) : Nat :=
  (worker.rounds setup.job.index).toNat % setup.rounds.toNat * setup.roundSize.toNat

/-- Every lane holds the nonce `consumed` after the first one of its block. -/
structure Lanes (setup : Setup) (worker : WorkerJob) (firsts : Nat → BitVec 64) (consumed : Nat) :
    Prop where
  carries : worker.Carries setup.job
  room : consumed + setup.roundSize.toNat ≤ setup.count.toNat
  fits : ∀ lane < setup.lanes, Nonce.Fits setup.mask setup.count (firsts lane)
  holds : ∀ lane < setup.lanes, worker.Holds setup.job lane
    ((field setup.job (jobWords setup.job)).toNat / space setup.job * space setup.job +
      ((firsts lane).toNat + consumed))

structure Inv (setup : Setup) (session : Session) (firsts : Nat → BitVec 64) (bound : Nat) : Prop where
  lanes : Lanes setup session.worker firsts (consumed setup session.worker)
  base : Base bound (session.nonce.nonces setup.job.index).toNat
  blocks : ∀ lane < setup.lanes,
    session.blocks lane = some ⟨(firsts lane).toNat, setup.count.toNat⟩
  below : ∀ lane < setup.lanes, (firsts lane).toNat + setup.count.toNat ≤ bound
  used : ∀ block ∈ session.used, block.stop ≤ bound
  shared : Shared session.used (unused setup firsts (consumed setup session.worker)) setup.lanes

variable {setup : Setup} {worker : WorkerJob} {firsts : Nat → BitVec 64} {amount : Nat}

theorem Lanes.range (lanes : Lanes setup worker firsts amount) {lane : Nat} (inside : lane < setup.lanes)
    (positive : 0 < setup.roundSize.toNat) :
    setup.range worker lane = ⟨(firsts lane).toNat + amount, setup.roundSize.toNat⟩ := by
  have fits := (lanes.fits lane inside).inside
  have room := lanes.room
  exact Setup.range_of_holds (lanes.holds lane inside) (by simp only [space, Setup.mask] at fits ⊢; omega)

theorem Lanes.shared (lanes : Lanes setup worker firsts amount) (positive : 0 < setup.roundSize.toNat)
    {used : List Block} {reserve : Nat → Block} (shared : Shared used reserve setup.lanes)
    (inside : ∀ lane < setup.lanes, (reserve lane).first ≤ (firsts lane).toNat + amount ∧
      (firsts lane).toNat + setup.count.toNat ≤ (reserve lane).stop) :
    Shared (setup.ranges worker ++ used) (unused setup firsts amount) setup.lanes := by
  have room := lanes.room
  refine shared.use ?_ ?_ ?_
  · intro lane small
    have bounds := inside lane small
    rw [lanes.range small positive]
    exact Block.subset_of_bounds bounds.1 (by simp only [Block.stop] at bounds ⊢; omega)
  · intro lane small
    have bounds := inside lane small
    refine Block.subset_of_bounds ?_ ?_
    · simp only [unused]; omega
    · simp only [unused, Block.stop] at bounds ⊢; omega
  · intro lane small
    rw [lanes.range small positive]
    exact (Block.disjoint_of_stop_le (Nat.le_refl _)).symm

/-- The ranges of a round end where the blocks of the lanes end. -/
theorem Lanes.ranges_stop (lanes : Lanes setup worker firsts amount)
    (positive : 0 < setup.roundSize.toNat) {bound : Nat}
    (below : ∀ lane < setup.lanes, (firsts lane).toNat + setup.count.toNat ≤ bound) :
    ∀ block ∈ setup.ranges worker, block.stop ≤ bound := by
  intro block member
  obtain ⟨lane, small, rfl⟩ := List.mem_map.mp member
  rw [List.mem_range] at small
  have := below lane small
  have := lanes.room
  rw [lanes.range small positive]
  simp only [Block.stop]
  omega

theorem Inv.sound {session : Session} {bound : Nat} (inv : session.Inv setup firsts bound)
    (positive : 0 < setup.roundSize.toNat) : session.Sound setup where
  reserved lane small value member := by
    have room := inv.lanes.room
    rw [inv.lanes.range small positive] at member
    obtain ⟨low, high⟩ := member
    exact ⟨_, inv.blocks lane small, by dsimp only at low high ⊢; omega, by dsimp only at high ⊢; omega⟩
  disjoint := inv.shared.history
  bytes lane small := (inv.lanes.holds lane small).rest
  bits lane small := by
    have fits := (inv.lanes.fits lane small).inside
    have room := inv.lanes.room
    exact Setup.bits_of_holds (inv.lanes.holds lane small)
      (by simp only [space, Setup.mask] at fits ⊢; omega)

theorem granted_mem {granted : List (BitVec 64)} (length : granted.length = setup.lanes) {lane : Nat}
    (small : lane < setup.lanes) : granted.getD lane 0 ∈ granted := by
  rw [List.getD_eq_getElem _ _ (by omega)]
  exact List.getElem_mem _

theorem shared_of_ascends {granted : List (BitVec 64)} {used : List Block} {low high : Nat}
    (history : used.Pairwise Block.Disjoint) (old : ∀ block ∈ used, block.stop ≤ low)
    (length : granted.length = setup.lanes)
    (ascends : Ascends setup.mask setup.count granted low high) :
    Shared used (fun lane => ⟨(granted.getD lane 0).toNat, setup.count.toNat⟩) setup.lanes := by
  have ordered : ∀ lane other, lane < other → other < setup.lanes →
      (granted.getD lane 0).toNat + setup.count.toNat ≤ (granted.getD other 0).toNat := by
    intro lane other before small
    rw [List.getD_eq_getElem _ _ (by omega), List.getD_eq_getElem _ _ (by omega)]
    exact List.pairwise_iff_getElem.mp ascends.sorted lane other (by omega) (by omega) before
  refine ⟨history, ?_, ?_⟩
  · intro lane small block member
    have above := ascends.above _ (granted_mem length small)
    exact (Block.disjoint_of_stop_le (Nat.le_trans (old block member) above)).symm
  · intro lane small other inside apart
    rcases Nat.lt_or_gt_of_ne apart with before | behind
    · exact Block.disjoint_of_stop_le (ordered lane other before inside)
    · apply Block.Disjoint.symm
      exact Block.disjoint_of_stop_le (ordered other lane behind small)

theorem inv_of_granted {session : Session} {used : List Block} {granted : List (BitVec 64)}
    {low high : Nat} (valid : setup.Valid) (positive : 0 < setup.roundSize.toNat)
    (carries : session.worker.Carries setup.job)
    (first : (session.worker.rounds setup.job.index).toNat % setup.rounds.toNat = 0)
    (base : Base high (session.nonce.nonces setup.job.index).toNat)
    (length : granted.length = setup.lanes)
    (ascends : Ascends setup.mask setup.count granted low high)
    (blocks : ∀ lane < setup.lanes,
      session.blocks lane = some ⟨(granted.getD lane 0).toNat, setup.count.toNat⟩)
    (holds : ∀ lane < setup.lanes, session.worker.Holds setup.job lane
      ((field setup.job (jobWords setup.job)).toNat / space setup.job * space setup.job +
        (granted.getD lane 0).toNat))
    (history : used.Pairwise Block.Disjoint) (old : ∀ block ∈ used, block.stop ≤ low)
    (record : session.used = setup.ranges session.worker ++ used) :
    session.Inv setup (fun lane => granted.getD lane 0) high := by
  have nothing : consumed setup session.worker = 0 := by rw [consumed, first, Nat.zero_mul]
  have size : setup.roundSize.toNat ≤ setup.count.toNat := by
    obtain ⟨bits, power⟩ := valid.power
    rw [valid.toNat_count, power]
    exact Nat.le_mul_of_pos_left _ (Nat.two_pow_pos bits)
  have lanes : Lanes setup session.worker (fun lane => granted.getD lane 0) 0 :=
    ⟨carries, by omega, fun lane small => ascends.fits _ (granted_mem length small),
      fun lane small => by simpa using holds lane small⟩
  have below : ∀ lane < setup.lanes, (granted.getD lane 0).toNat + setup.count.toNat ≤ high :=
    fun lane small => ascends.below _ (granted_mem length small)
  refine ⟨nothing ▸ lanes, base, blocks, below, ?_, ?_⟩
  · intro block member
    rw [record] at member
    rcases List.mem_append.mp member with new | older
    · exact lanes.ranges_stop positive below block new
    · exact Nat.le_trans (old block older) ascends.grows
  · rw [nothing, record]
    exact lanes.shared positive (shared_of_ascends history old length ascends)
      fun lane small => ⟨Nat.le_refl _, Nat.le_refl _⟩

theorem openSlot_carries (worker : WorkerJob) (job : Job) (backend : Backend) :
    (worker.openSlot job backend).Carries job := by
  refine ⟨rfl, ?_, ?_, ?_⟩ <;> simp [openSlot, currentJob, nonceMask, Job.size]

theorem latest_granted {granted : List (BitVec 64)} {count : BitVec 32} {blocks : Nat → Option Block}
    {lane : Nat} (small : lane < granted.length) :
    latest count (granted.map some) blocks lane =
      some ⟨(granted.getD lane 0).toNat, count.toNat⟩ := by
  rw [latest, List.getElem?_map, List.getElem?_eq_getElem small, List.getD_eq_getElem _ _ small]
  rfl

section Run
variable {nonce after : Nonce} {backend : Backend} {others : Nat → Nat → BitVec 62}
  {granted : List (BitVec 64)}

/-- `save` starts the first block of every lane, on top of what was used before. -/
theorem save_inv (valid : setup.Valid) (positive : 0 < setup.roundSize.toNat) {used : List Block} {bound : Nat}
    (base : Base bound (nonce.nonces setup.job.index).toNat) (history : used.Pairwise Block.Disjoint)
    (old : ∀ block ∈ used, block.stop ≤ bound)
    (room : reserveAll setup.job.index setup.count setup.job.nonceMask others setup.lanes 0 nonce =
      some (granted, after)) :
    ∃ high, Inv setup
      { start setup worker nonce backend others with used := (start setup worker nonce backend others).used ++ used }
      (fun lane => granted.getD lane 0) high := by
  have carries := openSlot_carries worker setup.job backend
  obtain ⟨length, stop, newBase, ascends⟩ :=
    reserveAll_ascends (Nonce.effective_nonceMask_low setup.job) base room
  have swept : Swept _ (start setup worker nonce backend others).worker setup.job 0 setup.lanes :=
    saveLanes_swept valid.sized setup.count others carries nonce
  have replies := @saveLanes_replies _ _ setup.count others setup.lanes 0 nonce carries
  rw [room] at replies
  refine ⟨stop, inv_of_granted valid positive swept.carries ?_ ?_ length ascends ?_ ?_ history old rfl⟩
  · rw [show (start setup worker nonce backend others).worker.rounds = _ from swept.rounds]
    simp [openSlot]
  · rwa [show (start setup worker nonce backend others).nonce = after from replies.2]
  · intro lane small
    rw [show (start setup worker nonce backend others).blocks = latest setup.count _ _ from rfl]
    rw [save, replies.1, latest_granted (by omega)]
  · intro lane small
    obtain ⟨reply, found, holds⟩ := saveLanes_holds valid.sized setup.count others carries nonce small
    rw [replies.1, List.getElem?_map, List.getElem?_eq_getElem (by omega)] at found
    cases found
    rw [List.getD_eq_getElem _ _ (by omega)]
    rwa [Nat.zero_add] at holds

theorem start_inv (valid : setup.Valid) (positive : 0 < setup.roundSize.toNat)
    (room : reserveAll setup.job.index setup.count setup.job.nonceMask others setup.lanes 0 nonce =
      some (granted, after)) :
    ∃ bound, (start setup worker nonce backend others).Inv setup (fun lane => granted.getD lane 0)
      bound := by
  obtain ⟨bound, inv⟩ := @save_inv _ worker _ _ backend _ _ valid positive [] 0 (.inl rfl) .nil (by simp) room
  rw [List.append_nil] at inv
  exact ⟨bound, inv⟩

theorem countRound_holds {job : Job} {lane value : Nat} (sized : job.Sized)
    (carries : worker.Carries job) (holds : worker.Holds job lane value) :
    worker.countRound.Holds job lane value :=
  holds.frame sized carries (countRound_carries carries) fun _ _ => rfl

theorem advance_lanes (valid : setup.Valid) (positive : 0 < setup.roundSize.toNat)
    (lanes : Lanes setup worker firsts amount)
    (room : amount + setup.roundSize.toNat + setup.roundSize.toNat ≤ setup.count.toNat) :
    Lanes setup (advanceLanes setup.roundSize setup.lanes 0 worker.countRound) firsts
      (amount + setup.roundSize.toNat) := by
  have carries := countRound_carries lanes.carries
  refine ⟨(advanceLanes_swept valid.sized setup.roundSize carries).carries, room, lanes.fits, ?_⟩
  intro lane small
  have fits := lanes.fits lane small
  have inside := fits.inside
  have low := fits.low
  obtain ⟨bits, ones, whole⟩ := setup.mask_bits
  have powers : 0 < 2 ^ bits := Nat.two_pow_pos bits
  have straight : ∀ quotient, (quotient * space setup.job + ((firsts lane).toNat + amount)) % 2 ^ 32 +
      setup.roundSize.toNat < 2 ^ 32 := by
    intro quotient
    rw [whole]
    refine no_wrap (by omega) fun wide => ?_
    have bound := setup.count.isLt
    rw [Nat.add_mod, Nat.mod_eq_of_lt (a := amount) (by omega), Nat.mod_eq_of_lt (by omega)]
    omega
  have holds := countRound_holds valid.sized lanes.carries (lanes.holds lane small)
  have moved := @advanceLanes_holds _ _ 0 _ valid.sized _ carries lane _ small
    (by rw [Nat.zero_add]; exact holds) (straight _)
  rw [Nat.zero_add] at moved
  simpa only [Nat.add_assoc] using moved

theorem step_inv {session next : Session} {bound : Nat} (valid : setup.Valid)
    (positive : 0 < setup.roundSize.toNat) (inv : session.Inv setup firsts bound)
    (stepped : step setup session others = some next) :
    ∃ firsts bound, next.Inv setup firsts bound := by
  have carries := inv.lanes.carries
  obtain ⟨bits, power⟩ := valid.power
  have counter := @round_counter _ (session.worker.rounds session.worker.index) _ power
  rw [carries.index] at counter
  have product := valid.toNat_count
  simp only [step] at stepped
  split at stepped
  · rename_i ok
    cases stepped
    rcases nextRound_cases valid.sized carries ok with
      ⟨boundary, reserved, rfl, taken, nonces, replies, same⟩ | ⟨inner, outcome⟩
    · -- A new block for every lane.
      rw [carries.index] at boundary
      obtain ⟨_, _, zero⟩ := counter.resolve_right fun other => other.1 boundary
      have opened := countRound_carries carries
      have swept := reserveLanes_swept valid.sized _ others opened session.nonce taken
      obtain ⟨granted, all, listed⟩ := reserveLanes_replies opened taken
      obtain ⟨length, stop, base, ascends⟩ :=
        reserveAll_ascends (Nonce.effective_nonceMask_low setup.job) inv.base all
      refine ⟨fun lane => granted.getD lane 0, stop, inv_of_granted valid positive same.carries ?_ ?_
        length ascends ?_ ?_ inv.shared.history inv.used rfl⟩
      · dsimp only
        rw [same.rounds, swept.rounds, ← carries.index, countRound_rounds, carries.index]
        exact zero
      · dsimp only
        rwa [nonces]
      · intro lane small
        dsimp only
        rw [replies, listed, latest_granted (by omega)]
      · intro lane small
        have fits := (inv.lanes.fits lane small).inside
        have room := inv.lanes.room
        have holds := countRound_holds valid.sized carries (inv.lanes.holds lane small)
        obtain ⟨first, found, holds⟩ :=
          reserveLanes_holds valid.sized _ others opened session.nonce taken small
            (by rw [Nat.zero_add]; exact holds)
        rw [listed, List.getElem?_map, List.getElem?_eq_getElem (by omega)] at found
        cases found
        rw [Nat.zero_add, div_of_rest (by simp only [space, Setup.mask] at fits ⊢; omega)] at holds
        rw [List.getD_eq_getElem _ _ (by omega)]
        exact same.holds valid.sized swept.carries holds
    · -- The next range of the same block.
      rw [carries.index] at inner
      obtain ⟨_, more, done⟩ := counter.resolve_left fun other => inner other.1
      rw [outcome]
      have swept : Swept _ (advanceLanes setup.roundSize setup.lanes 0 session.worker.countRound)
          setup.job 0 setup.lanes :=
        advanceLanes_swept valid.sized setup.roundSize (countRound_carries carries)
      have amount : consumed setup (advanceLanes setup.roundSize setup.lanes 0 session.worker.countRound) =
          consumed setup session.worker + setup.roundSize.toNat := by
        rw [consumed, swept.rounds, ← carries.index, countRound_rounds, carries.index, done, Nat.add_mul,
          Nat.one_mul, consumed]
      have room : consumed setup session.worker + setup.roundSize.toNat + setup.roundSize.toNat ≤
          setup.count.toNat := by
        have := Nat.mul_le_mul_right setup.roundSize.toNat (Nat.succ_le_of_lt more)
        rw [product]
        simp only [Nat.succ_eq_add_one, Nat.add_mul, Nat.one_mul] at this
        exact this
      have lanes := advance_lanes valid positive inv.lanes room
      refine ⟨firsts, bound, ?_, inv.base, ?_, inv.below, ?_, ?_⟩
      · exact amount ▸ lanes
      · intro lane small
        exact inv.blocks lane small
      · intro block member
        rcases List.mem_append.mp member with new | older
        · exact lanes.ranges_stop positive inv.below block new
        · exact inv.used block older
      · dsimp only
        rw [amount]
        refine lanes.shared positive inv.shared fun lane small => ?_
        simp only [unused, Block.stop]
        omega
  · cases stepped

/-! ## Rounds of no nonces -/

/-- With a round size of 0 every lane keeps the nonce of the job's blob. -/
structure Idle (setup : Setup) (session : Session) : Prop where
  carries : session.worker.Carries setup.job
  holds : ∀ lane < setup.lanes,
    session.worker.Holds setup.job lane (field setup.job (jobWords setup.job)).toNat
  used : ∀ block ∈ session.used, block.count = 0

theorem Idle.sound {session : Session} (idle : session.Idle setup) (zero : setup.roundSize = 0) :
    session.Sound setup where
  reserved lane small value member := by
    obtain ⟨low, high⟩ := member
    simp only [Setup.range, zero] at low high
    exact absurd high (Nat.not_lt.mpr low)
  disjoint := by
    refine List.Pairwise.imp_of_mem ?_ (List.pairwise_of_forall (fun _ _ => True.intro))
    intro left right inLeft _ _ value both
    have bounds := both.1
    have empty := idle.used left inLeft
    simp only [Block.Mem] at bounds
    omega
  bytes lane small := (idle.holds lane small).rest
  bits lane small := by
    have positive : 0 < space setup.job := Nat.succ_pos _
    have holds := idle.holds lane small
    rw [← Nat.div_add_mod' (field setup.job (jobWords setup.job)).toNat (space setup.job)] at holds
    exact Setup.bits_of_holds holds (Nat.mod_lt _ positive)

theorem ranges_empty (zero : setup.roundSize = 0) (worker : WorkerJob) :
    ∀ block ∈ setup.ranges worker, block.count = 0 := by
  intro block member
  obtain ⟨lane, _, rfl⟩ := List.mem_map.mp member
  simp [Setup.range, zero]

theorem next_zero (worker : WorkerJob) (nonce : Nonce) (lane : Nat) (others : Nat → BitVec 62) :
    (worker.next nonce lane 0 others).granted = none := by
  simp only [next]
  rw [Nonce.next_of_refused (.inl rfl)]

theorem saveLanes_zero {job : Job} {left lane : Nat} :
    ∀ reply ∈ (saveLanes job 0 others left lane worker nonce).replies, reply = none := by
  induction left generalizing lane worker nonce with
  | zero => simp [saveLanes]
  | succ left ih =>
    intro reply member
    rcases List.mem_cons.mp member with rfl | member
    · exact next_zero _ _ _ _
    · exact ih reply member

theorem start_idle (valid : setup.Valid) (zero : setup.roundSize = 0) :
    (start setup worker nonce backend others).Idle setup := by
  have none_ : setup.count = 0 := by rw [Setup.count, zero]; exact BitVec.mul_zero
  have carries := openSlot_carries worker setup.job backend
  refine ⟨(saveLanes_swept valid.sized setup.count others carries nonce).carries, ?_, ranges_empty zero _⟩
  intro lane small
  obtain ⟨reply, found, holds⟩ := saveLanes_holds valid.sized setup.count others carries nonce small
  rw [none_] at found
  rw [saveLanes_zero reply (List.mem_of_getElem? found), Nat.zero_add] at holds
  exact holds

theorem step_idle {session next : Session} (valid : setup.Valid) (zero : setup.roundSize = 0)
    (idle : session.Idle setup) (stepped : step setup session others = some next) :
    next.Idle setup := by
  have carries := idle.carries
  have none_ : setup.rounds * setup.roundSize = 0 := by rw [zero]; exact BitVec.mul_zero
  simp only [step] at stepped
  split at stepped
  · rename_i ok
    cases stepped
    have record : ∀ after, ∀ block ∈ setup.ranges after ++ session.used, block.count = 0 := by
      intro after block member
      rcases List.mem_append.mp member with new | older
      · exact ranges_empty zero after block new
      · exact idle.used block older
    rcases nextRound_cases valid.sized carries ok with
      ⟨_, reserved, rfl, taken, _, _, same⟩ | ⟨_, outcome⟩
    · refine ⟨same.carries, fun lane small => ?_, record _⟩
      -- A reservation of nothing is refused, so there is no lane.
      obtain ⟨left, total⟩ : ∃ left, setup.lanes = left + 1 := ⟨setup.lanes - 1, by omega⟩
      rw [none_, total] at taken
      simp only [reserveLanes, next_zero] at taken
      cases taken
    · rw [outcome]
      have opened := countRound_carries carries
      refine ⟨(advanceLanes_swept valid.sized setup.roundSize opened).carries, ?_, record _⟩
      intro lane small
      have holds := countRound_holds valid.sized carries (idle.holds lane small)
      have moved := @advanceLanes_holds _ _ 0 _ valid.sized setup.roundSize opened lane _ small
        (by rw [Nat.zero_add]; exact holds) (by rw [zero]; exact Nat.mod_lt _ (by decide))
      rw [Nat.zero_add, zero] at moved
      exact zero ▸ moved
  · cases stepped

end Run

/-! ## Whole runs -/

/-- The nonce space has room for a block per lane when the job is saved, or the
rounds use no nonces. -/
def Room (setup : Setup) (nonce : Nonce) (others : Nat → Nat → BitVec 62) : Prop :=
  setup.roundSize = 0 ∨
    (reserveAll setup.job.index setup.count setup.job.nonceMask others setup.lanes 0 nonce).isSome

theorem not_sound_of_full {nonce : Nonce} {others : Nat → Nat → BitVec 62} (backend : Backend)
    (full : ¬ Room setup nonce others) :
    ¬ (start setup worker nonce backend others).Sound setup := by
  intro sound
  have positive : 0 < setup.roundSize.toNat := by
    apply Nat.pos_of_ne_zero
    exact fun zero => full (.inl (BitVec.eq_of_toNat_eq zero))
  have replies := @saveLanes_replies _ _ setup.count others setup.lanes 0 nonce
    (openSlot_carries worker setup.job backend)
  rw [show reserveAll _ _ _ _ _ _ _ = none from
    Option.not_isSome_iff_eq_none.mp fun some_ => full (.inr some_)] at replies
  obtain ⟨lane, refused⟩ := List.getElem?_of_mem replies
  have small : lane < setup.lanes := by
    have inside := (List.getElem?_eq_some_iff.mp refused).1
    rwa [saveLanes_length] at inside
  obtain ⟨block, found, _⟩ := sound.reserved lane small _
    ⟨Nat.le_refl _, Nat.lt_add_of_pos_right positive⟩
  simp only [start, save, latest, refused] at found
  cases found

/-- Nonces stay inside the reserved blocks in every run, exactly when the first
reservation of every lane succeeds. -/
theorem rounds_reserved (setup : Setup) (valid : setup.Valid) (worker : WorkerJob) (nonce : Nonce)
    (backend : Backend) (others : Nat → Nat → BitVec 62) :
    (∀ events final, run (step setup) (start setup worker nonce backend others) events = some final →
      final.Sound setup) ↔ Room setup nonce others := by
  constructor
  · intro always
    by_contra full
    exact not_sound_of_full backend full (always [] _ rfl)
  · intro room events final executed
    have anyEvent : Guarded (step setup) (fun _ _ => True) (start setup worker nonce backend others)
        events := guarded_of_mem (fun _ _ => True.intro) _
    by_cases zero : setup.roundSize = 0
    · refine Idle.sound (run_invariant ?_ (start_idle valid zero) anyEvent executed) zero
      intro session event next idle _ stepped
      exact step_idle valid zero idle stepped
    · have positive : 0 < setup.roundSize.toNat := by
        apply Nat.pos_of_ne_zero
        exact fun same => zero (BitVec.eq_of_toNat_eq same)
      obtain ⟨⟨granted, after⟩, all⟩ := Option.isSome_iff_exists.mp (room.resolve_left zero)
      have reached := run_invariant
        (P := fun session => ∃ firsts bound, session.Inv setup firsts bound) ?_
        ⟨_, start_inv valid positive all⟩ anyEvent executed
      · obtain ⟨firsts, bound, inv⟩ := reached
        exact inv.sound positive
      · rintro session event next ⟨firsts, bound, inv⟩ _ stepped
        exact step_inv valid positive inv stepped

def pairSetup : Setup := ⟨2, { algorithm := .rx0, blob := List.replicate 76 0 }, 4, 1⟩

theorem pairSetup_valid : pairSetup.Valid := ⟨by decide, ⟨2, by decide⟩, by decide⟩

theorem pairSetup_runs :
    (run (step pairSetup) (start pairSetup {} {} .cpu fun _ _ => 0) [fun _ _ => 0]).isSome = true := by
  decide

theorem rounds_reserved_pair :
    ∃ final, run (step pairSetup) (start pairSetup {} {} .cpu fun _ _ => 0) [fun _ _ => 0] =
        some final ∧
      final.used = [⟨1, 1⟩, ⟨5, 1⟩, ⟨0, 1⟩, ⟨4, 1⟩] ∧ final.Sound pairSetup := by
  have executed := (Option.some_get pairSetup_runs).symm
  have always := (rounds_reserved pairSetup pairSetup_valid {} {} .cpu fun _ _ => 0).mpr
    (.inr (by decide))
  exact ⟨_, executed, by decide +kernel, always _ _ executed⟩

def exhaustedNonce : Nonce := { nonces := fun _ => 0x100000000 }

theorem exhaustedNonce_runs :
    (run (step pairSetup) (start pairSetup {} exhaustedNonce .cpu fun _ _ => 0)
      [fun _ _ => 0]).isSome = true := by
  decide +kernel

/-- On an exhausted counter `save` still starts the lanes, on equal nonces that
nobody reserved, and `nextRound` goes on from there. -/
theorem exhausted_save_overlaps :
    ∃ (setup : Setup) (nonce : Nonce) (final : Session), setup.Valid ∧
      run (step setup) (start setup {} nonce .cpu fun _ _ => 0) [fun _ _ => 0] = some final ∧
      ¬ final.Sound setup := by
  refine ⟨pairSetup, exhaustedNonce, _, pairSetup_valid,
    (Option.some_get exhaustedNonce_runs).symm, ?_⟩
  intro sound
  have used : ((run (step pairSetup) (start pairSetup {} exhaustedNonce .cpu fun _ _ => 0)
      [fun _ _ => 0]).get exhaustedNonce_runs).used = [⟨1, 1⟩, ⟨1, 1⟩, ⟨0, 1⟩, ⟨0, 1⟩] := by
    decide +kernel
  have disjoint := sound.disjoint
  rw [used] at disjoint
  have apart := (List.pairwise_cons.mp disjoint).1 _ (.head _)
  exact apart 1 ⟨⟨by decide, by decide⟩, ⟨by decide, by decide⟩⟩

end Session

end Xmrig.WorkerJob
