import Xmrig.Backend.BenchNonces

/-! What one step of a worker does to the nonces of a benchmark.

No step loses a nonce or takes one twice, as long as there is one left to take.
-/

set_option autoImplicit false

namespace Xmrig

open Foundation

namespace CpuWorker
variable {hasher : Hasher}

/-! ## The accounts of a step -/

/-- What a step must leave right: the place of the worker, the counter, the nonces that are owed, what was added to the
sum, and the number of workers that are not done. -/
structure Booked (bench : Bench) (config : CpuConfig) (worker after : CpuWorker hasher)
    (shared sharedAfter : CpuShared) : Prop where
  placed : after.Placed bench config.lanes (sharedAfter.nonce.nonces userIndex).toNat
  grows : (shared.nonce.nonces userIndex).toNat ≤ (sharedAfter.nonce.nonces userIndex).toNat
  bound : (sharedAfter.nonce.nonces userIndex).toNat ≤ 2 ^ 32
  counts : ∀ nonce < bench.size, ((worker.adds config).map Prod.fst).count nonce +
    (after.owed bench config.lanes).count nonce +
      (if nonce.toNat < (shared.nonce.nonces userIndex).toNat then 1 else 0) =
    (worker.owed bench config.lanes).count nonce +
      if nonce.toNat < (sharedAfter.nonce.nonces userIndex).toNat then 1 else 0
  own : ∀ entry ∈ worker.adds config, entry.1 < bench.size ∧ entry.2 = bench.value hasher entry.1
  data : sharedAfter.data = ((worker.adds config).map Prod.snd).foldl (· ^^^ ·) shared.data
  signals : (after.stage = .finished ∧ sharedAfter.remaining = shared.done.remaining ∧
      sharedAfter.sends = shared.done.sends) ∨
    (after.stage ≠ .finished ∧ sharedAfter.remaining = shared.remaining ∧ sharedAfter.sends = shared.sends)

section Steps
variable {bench : Bench} {config : CpuConfig} {worker after : CpuWorker hasher} {shared sharedAfter : CpuShared}

theorem adds_of_stage (stage : ∀ lane, worker.stage ≠ .checking lane) : worker.adds config = [] := by
  unfold adds
  split
  · rename_i lane here
    exact absurd here (stage lane)
  · rfl

theorem Booked.quiet (silent : worker.adds config = []) (bound : (shared.nonce.nonces userIndex).toNat ≤ 2 ^ 32)
    (placed : after.Placed bench config.lanes (shared.nonce.nonces userIndex).toNat)
    (owed : after.owed bench config.lanes = worker.owed bench config.lanes) (going : after.stage ≠ .finished) :
    Booked bench config worker after shared shared where
  placed := placed
  grows := Nat.le_refl _
  bound := bound
  counts nonce _ := by rw [silent, owed, List.map_nil, List.count_nil, Nat.zero_add]
  own entry member := by
    rw [silent] at member
    cases member
  data := by rw [silent]; rfl
  signals := .inr ⟨going, rfl, rfl⟩

theorem Booked.take (silent : worker.adds config = []) (room : (shared.nonce.nonces userIndex).toNat < 2 ^ 32)
    {nonce : Nonce} (taken : (nonce.nonces userIndex).toNat = (shared.nonce.nonces userIndex).toNat + 1)
    (placed : after.Placed bench config.lanes (nonce.nonces userIndex).toNat) {first : BitVec 32}
    (next : first.toNat = (shared.nonce.nonces userIndex).toNat)
    (owed : after.owed bench config.lanes = worker.owed bench config.lanes ++ [first])
    (going : after.stage ≠ .finished) :
    Booked bench config worker after shared { shared with nonce } where
  placed := placed
  grows := by
    change _ ≤ (nonce.nonces userIndex).toNat
    omega
  bound := by
    change (nonce.nonces userIndex).toNat ≤ _
    omega
  counts other _ := by
    rw [silent, owed, List.map_nil, List.count_nil, Nat.zero_add, List.count_append, List.count_singleton, taken,
      ← next]
    by_cases same : first = other
    · subst same
      simp
    · have apart : first.toNat ≠ other.toNat := fun equal => same (BitVec.eq_of_toNat_eq equal)
      rw [if_neg (by simpa using same)]
      split <;> split <;> omega
  own entry member := by
    rw [silent] at member
    cases member
  data := by rw [silent]; rfl
  signals := .inr ⟨going, rfl, rfl⟩

def CpuStage.between : CpuStage → Bool
  | .saving _ _ | .round | .reserving _ | .rounded | .checking _ => false
  | _ => true

theorem owed_of_between {lanes : Nat} (between : CpuStage.between worker.stage = true) :
    worker.owed bench lanes = if worker.job.currentJob = bench.job then worker.held lanes else [] := by
  unfold owed
  cases stage : worker.stage with
  | saving | round | reserving | rounded | checking => rw [stage] at between; cases between
  | _ => rfl

theorem owed_keeps {lanes : Nat} (keeps : Keeps worker after) (before : CpuStage.between worker.stage = true)
    (behind : CpuStage.between after.stage = true) : after.owed bench lanes = worker.owed bench lanes := by
  rw [owed_of_between before, owed_of_between behind, keeps.currentJob, keeps.held]

theorem adds_of_between (between : CpuStage.between worker.stage = true) : worker.adds config = [] := by
  apply adds_of_stage
  intro lane stage
  rw [stage] at between
  cases between

theorem Booked.between (bound : (shared.nonce.nonces userIndex).toNat ≤ 2 ^ 32) (keeps : Keeps worker after)
    (before : CpuStage.between worker.stage = true) (behind : CpuStage.between after.stage = true)
    (going : after.stage ≠ .finished)
    (placed : after.Placed bench config.lanes (shared.nonce.nonces userIndex).toNat) :
    Booked bench config worker after shared shared :=
  .quiet (adds_of_between before) bound placed (owed_keeps keeps before behind) going

theorem enter_placed {lanes counter : Nat} (known : worker.Fresh ∨ worker.Full bench lanes counter) :
    worker.enter.Placed bench lanes counter := by
  have keeps : Keeps worker worker.enter := ⟨rfl, rfl, rfl, rfl, rfl⟩
  rcases known with fresh | full
  · exact .inl (fresh.frame keeps)
  · exact .inr ⟨full.frame keeps, .inl rfl⟩

theorem consumed_placed {lanes counter : Nat} (known : worker.Fresh ∨ worker.Full bench lanes counter) (resume : Bool) :
    (worker.consumed resume).Placed bench lanes counter := by
  cases resume with
  | true => exact enter_placed known
  | false =>
    have keeps : Keeps worker (worker.at_ .outer) := ⟨rfl, rfl, rfl, rfl, rfl⟩
    exact known.imp (fun fresh => fresh.frame keeps) fun full => full.frame keeps

theorem consumed_keeps (worker : CpuWorker hasher) (resume : Bool) : Keeps worker (worker.consumed resume) := by
  cases resume <;> exact ⟨rfl, rfl, rfl, rfl, rfl⟩

theorem consumed_between (worker : CpuWorker hasher) (resume : Bool) :
    CpuStage.between (worker.consumed resume).stage = true ∧ (worker.consumed resume).stage ≠ .finished := by
  cases resume with
  | true => exact ⟨rfl, fun same => by cases same⟩
  | false => exact ⟨rfl, fun same => by cases same⟩

theorem reserveCount_eq (loaded : worker.Loaded bench) : worker.reserveCount = 1 := by
  unfold reserveCount
  rw [if_pos (loaded.benchSize ▸ bench.positive)]

/-- The job is consumed once; later it is only found to be the same. -/
theorem addJob_booked {resume : Bool} (stage : worker.stage = .adding bench.job resume)
    (bound : (shared.nonce.nonces userIndex).toNat ≤ 2 ^ 32) (benchSize : worker.benchSize = bench.size)
    (known : worker.Fresh ∨ worker.Full bench config.lanes (shared.nonce.nonces userIndex).toNat) :
    Booked bench config worker (worker.addJob shared bench.job resume) shared shared := by
  let counted : CpuWorker hasher := { worker with job := { worker.job with sequence := shared.nonce.sequence .cpu } }
  have keeps : Keeps worker counted := ⟨rfl, rfl, rfl, rfl, rfl⟩
  have before : CpuStage.between worker.stage = true := by rw [stage]; rfl
  rcases known with fresh | full
  · have other : counted.job.currentJob.isEqual bench.job = false := by
      have room := bench.sized.nonce
      have least := bench.job.nonceSize_ge
      have nonempty : bench.job.blob ≠ [] := by
        intro empty
        rw [Job.size, empty, List.length_nil] at room
        omega
      rw [keeps.currentJob, fresh.job]
      simp [Job.isEqual, Job.isEqualBlob, Ne.symm nonempty]
    have opened : worker.addJob shared bench.job resume =
        { counted with job := counted.job.openSlot bench.job .cpu, stage := .saving 0 resume } := by
      have user : counted.job.index ≠ donateIndex := by
        rw [keeps.index, fresh.index]
        decide
      unfold addJob
      dsimp only
      rw [if_neg (by rw [show WorkerJob.currentJob _ = counted.job.currentJob from rfl, other]; decide),
        if_neg fun both => user both.1]
    have job : { bench.job with backend := Backend.cpu.id } = bench.job := by
      conv_rhs => rw [show bench.job = { bench.job with backend := bench.job.backend } from rfl, bench.unassigned]
      rfl
    rw [opened]
    refine .quiet (adds_of_between before) bound ⟨Nat.zero_le _, ⟨?_, ?_, ?_, benchSize⟩, ?_, ?_⟩ ?_ ?_
    · exact bench.own
    · simp only [WorkerJob.currentJob, WorkerJob.openSlot, Function.update_self]
      exact job
    · simp only [WorkerJob.nonceMask, WorkerJob.openSlot, Function.update_self]
    · intro lane inside
      exact absurd inside (Nat.not_lt_zero lane)
    · intro lane inside
      exact absurd inside (Nat.not_lt_zero lane)
    · rw [owed_of_between before, if_neg fresh.ne]
      rfl
    · intro same
      cases same
  · have again : counted.job.currentJob.isEqual bench.job = true := by
      rw [keeps.currentJob, full.loaded.job]
      simp [Job.isEqual, Job.isEqualBlob]
    have kept : worker.addJob shared bench.job resume = counted.consumed resume := if_pos again
    have both : Keeps worker (counted.consumed resume) := by cases resume <;> exact ⟨rfl, rfl, rfl, rfl, rfl⟩
    rw [kept]
    exact .between bound both before (consumed_between counted resume).1 (consumed_between counted resume).2
      (consumed_placed (.inr (full.frame keeps)) resume)

/-! ## Taking a nonce -/

/-- A worker whose lane has got the next nonce; the other lanes hold what they held. -/
structure Took (bench : Bench) (worker after : CpuWorker hasher) (lane counter : Nat) : Prop where
  loaded : after.Loaded bench
  others : ∀ other value, other ≠ lane → worker.job.Holds bench.job other value → after.job.Holds bench.job other value
  here : after.job.Holds bench.job lane counter

theorem lo_of_holds {slots : WorkerJob} {lane value : Nat} (holds : slots.Holds bench.job lane value) :
    (slots.words lane).lo.toNat = value := by
  rw [← bench.field_eq, holds.value]

section Took
variable {lane counter lanes : Nat}

theorem Took.lo_here (took : Took bench worker after lane counter) : (after.job.words lane).lo.toNat = counter :=
  lo_of_holds took.here

theorem Took.lo_other (took : Took bench worker after lane counter) {other : Nat} (apart : other ≠ lane)
    (holds : worker.job.Holds bench.job other (worker.job.words other).lo.toNat) :
    (after.job.words other).lo = (worker.job.words other).lo :=
  BitVec.eq_of_toNat_eq (lo_of_holds (took.others other _ apart holds))

theorem Took.blob (took : Took bench worker after lane counter) {other : Nat}
    (holds : other ≠ lane → worker.job.Holds bench.job other (worker.job.words other).lo.toNat) :
    after.job.Holds bench.job other (after.job.words other).lo.toNat := by
  by_cases here : other = lane
  · subst here
    rw [took.lo_here]
    exact took.here
  · rw [took.lo_other here (holds here)]
    exact took.others other _ here (holds here)

theorem Took.ordered (took : Took bench worker after lane counter) (blobs : worker.Blobs bench lane)
    (ordered : worker.Ordered lane counter) : after.Ordered (lane + 1) (counter + 1) := by
  have first : (after.job.words 0).lo.toNat ≤ counter := by
    by_cases only : 0 = lane
    · subst only
      exact Nat.le_of_eq took.lo_here
    · have some : 0 < lane := Nat.pos_of_ne_zero (Ne.symm only)
      rw [took.lo_other only (blobs 0 some)]
      exact Nat.le_of_lt (ordered 0 some).2
  intro other inside
  by_cases here : other = lane
  · subst here
    rw [took.lo_here]
    exact ⟨first, Nat.lt_succ_self _⟩
  · have before : other < lane := Nat.lt_of_le_of_ne (Nat.le_of_lt_succ inside) here
    rw [took.lo_other here (blobs other before), took.lo_other (show 0 ≠ lane by omega) (blobs 0 (by omega))]
    exact ⟨(ordered other before).1, Nat.lt_succ_of_lt (ordered other before).2⟩

theorem Took.held (took : Took bench worker after lane counter) (blobs : worker.Blobs bench lane) :
    after.held (lane + 1) = worker.held lane ++ [(after.job.words lane).lo] := by
  rw [held_succ]
  congr 1
  apply List.map_congr_left
  intro other member
  have before := List.mem_range.mp member
  exact took.lo_other (Nat.ne_of_lt before) (blobs other before)

end Took

theorem next_slots (slots : WorkerJob) (nonce : Nonce) (lane : Nat) (count : BitVec 32) (others : Nat → BitVec 62) :
    (slots.next nonce lane count others).worker.index = slots.index ∧
      (slots.next nonce lane count others).worker.nonceMasks = slots.nonceMasks := by
  simp only [WorkerJob.next]
  split <;> exact ⟨rfl, rfl⟩

theorem took_next (loaded : worker.Loaded bench) (room : (shared.nonce.nonces userIndex).toNat < 2 ^ 32)
    {slots : WorkerJob} {lane old : Nat} (carries : slots.Carries bench.job) (job : slots.currentJob = bench.job)
    (same : ∀ other, other ≠ lane → WorkerJob.SameLane bench.job other worker.job slots)
    (holds : slots.Holds bench.job lane old) (stage : CpuStage) :
    Took bench worker { worker with job := (slots.next shared.nonce lane 1 fun _ => 0).worker, stage } lane
      (shared.nonce.nonces userIndex).toNat := by
  have touched := WorkerJob.next_touched lane carries shared.nonce 1 fun _ => 0
  obtain ⟨index, masks⟩ := next_slots slots shared.nonce lane 1 fun _ => 0
  refine ⟨⟨?_, ?_, touched.carries.mask, loaded.benchSize⟩, ?_, bench.next_holds carries room holds⟩
  · exact touched.carries.index.trans bench.own
  · exact (WorkerJob.next_currentJob slots shared.nonce lane 1 fun _ => 0).trans job
  · intro other value apart held
    have first := held.frame bench.sized loaded.carries carries (same other apart)
    exact first.frame bench.sized carries touched.carries (touched.same bench.sized apart)

theorem saveLane_booked {lane : Nat} {resume : Bool} (stage : worker.stage = .saving lane resume)
    (inside : lane ≤ config.lanes) (full : worker.Full bench lane (shared.nonce.nonces userIndex).toNat)
    (bound : (shared.nonce.nonces userIndex).toNat ≤ 2 ^ 32)
    (room : lane < config.lanes → (shared.nonce.nonces userIndex).toNat < 2 ^ 32) :
    Booked bench config worker (worker.saveLane config shared lane resume).1 shared
      (worker.saveLane config shared lane resume).2 := by
  have silent : worker.adds config = [] := by
    apply adds_of_stage
    intro other here
    rw [stage] at here
    cases here
  have owed : worker.owed bench config.lanes = worker.held lane := by
    unfold CpuWorker.owed
    rw [stage]
  unfold saveLane
  split
  · rename_i more
    have carries := full.loaded.carries
    have loads := WorkerJob.load_carries lane carries
    dsimp only
    rw [full.loaded.job, reserveCount_eq full.loaded]
    have took := took_next full.loaded (room more) loads full.loaded.job
      (fun other apart => WorkerJob.load_same apart) (WorkerJob.load_holds lane carries bench.sized)
      (.saving (lane + 1) resume)
    have taken := (bench.next_of_room loads (room more) lane).2
    refine .take silent (room more) taken ⟨more, took.loaded, ?_, ?_⟩ took.lo_here ?_ ?_
    · intro other below
      exact took.blob fun apart => full.blobs other (by omega)
    · rw [taken]
      exact took.ordered full.blobs full.ordered
    · rw [owed]
      exact took.held full.blobs
    · intro same
      cases same
  · obtain rfl : lane = config.lanes := by omega
    have keeps := consumed_keeps worker resume
    obtain ⟨between, going⟩ := consumed_between worker resume
    refine .quiet silent bound (consumed_placed (.inr full) resume) ?_ going
    rw [owed, owed_of_between between, keeps.currentJob, if_pos full.loaded.job, keeps.held]

/-! ## A round -/

theorem Pending.frame {lanes : Nat} (pending : worker.Pending bench lanes) (loaded : worker.Loaded bench)
    (behind : after.Loaded bench) (machine : after.machine = worker.machine) (nonces : after.nonces = worker.nonces)
    (hashes : after.hashes = worker.hashes) (first : after.first = worker.first) : after.Pending bench lanes := by
  have kind : after.isRandomX = worker.isRandomX := by
    simp only [isRandomX, loaded.job, behind.job]
  unfold Pending Hashed BegunWith at *
  rw [kind, machine, nonces, hashes, first]
  exact pending

theorem roundStep_booked (stage : worker.stage = .round) (bound : (shared.nonce.nonces userIndex).toNat ≤ 2 ^ 32)
    (full : worker.Full bench config.lanes (shared.nonce.nonces userIndex).toNat)
    (pending : worker.Pending bench config.lanes) :
    Booked bench config worker (worker.roundStep config) shared shared := by
  have silent : worker.adds config = [] := by
    apply adds_of_stage
    intro other here
    rw [stage] at here
    cases here
  have each : worker.roundStep config = { worker with job := worker.job.countRound, stage := .reserving 0 } := by
    unfold roundStep
    rw [reserveCount_eq full.loaded]
    exact if_pos (BitVec.and_zero)
  have keeps : Keeps worker (worker.roundStep config) := by
    rw [each]
    exact ⟨rfl, rfl, rfl, rfl, rfl⟩
  have behind := full.loaded.frame keeps
  refine .quiet silent bound ?_ ?_ ?_
  · have blobs := full.blobs.frame keeps
    rw [each] at behind blobs ⊢
    exact ⟨Nat.zero_le _, behind, blobs, fun lane inside => absurd inside (Nat.not_lt_zero lane),
      pending.frame full.loaded behind rfl rfl rfl rfl⟩
  · rw [each]
    simp only [owed, stage, held, List.range_zero, List.map_nil, List.append_nil]
    rfl
  · rw [each]
    intro same
    cases same

theorem reserveLane_booked {lane : Nat} (stage : worker.stage = .reserving lane) (inside : lane ≤ config.lanes)
    (loaded : worker.Loaded bench) (blobs : worker.Blobs bench config.lanes)
    (ordered : worker.Ordered lane (shared.nonce.nonces userIndex).toNat) (pending : worker.Pending bench config.lanes)
    (bound : (shared.nonce.nonces userIndex).toNat ≤ 2 ^ 32)
    (room : lane < config.lanes → (shared.nonce.nonces userIndex).toNat < 2 ^ 32) :
    Booked bench config worker (worker.reserveLane config shared lane).1 shared
      (worker.reserveLane config shared lane).2.1 := by
  have silent : worker.adds config = [] := by
    apply adds_of_stage
    intro other here
    rw [stage] at here
    cases here
  have owed : worker.owed bench config.lanes = worker.readFrom 0 config.lanes ++ worker.held lane := by
    unfold CpuWorker.owed
    rw [stage]
  unfold reserveLane
  split
  · rename_i more
    dsimp only
    rw [reserveCount_eq loaded]
    obtain ⟨granted, taken⟩ := bench.next_of_room loaded.carries (room more) lane
    rw [if_pos (by rw [granted]; rfl)]
    have took := took_next loaded (room more) loaded.carries loaded.job (fun other apart position inside => rfl)
      (blobs lane more) (.reserving (lane + 1))
    refine .take silent (room more) taken ⟨more, took.loaded, ?_, ?_, ?_⟩ took.lo_here ?_ ?_
    · intro other below
      exact took.blob fun apart => blobs other below
    · rw [taken]
      exact took.ordered (fun other below => blobs other (by omega)) ordered
    · exact pending.frame loaded took.loaded rfl rfl rfl rfl
    · have held := took.held fun other below => blobs other (by omega)
      rw [owed, List.append_assoc, ← held]
      rfl
    · intro same
      cases same
  · obtain rfl : lane = config.lanes := by omega
    have keeps : Keeps worker (worker.at_ .rounded) := ⟨rfl, rfl, rfl, rfl, rfl⟩
    have narrow : ¬ (config.lanes = 1 ∧ worker.job.currentJob.nonceSize = 8) := by
      rw [loaded.job, bench.nonceSize]
      rintro ⟨-, eight⟩
      cases eight
    rw [if_neg narrow]
    have full : worker.Full bench config.lanes (shared.nonce.nonces userIndex).toNat := ⟨loaded, blobs, ordered⟩
    refine .quiet silent bound ⟨full.frame keeps, pending.frame loaded (loaded.frame keeps) rfl rfl rfl rfl⟩ ?_ ?_
    · rw [owed]
      rfl
    · intro same
      cases same

theorem signIf_unsigned (loaded : worker.Loaded bench) (random : Nat) : worker.signIf random = worker := by
  unfold signIf
  rw [loaded.job, bench.unsigned]
  rfl

theorem isRandomX_iff (loaded : worker.Loaded bench) :
    worker.isRandomX = true ↔ bench.job.algorithm.family = Algorithm.randomX := by
  rw [isRandomX, loaded.job, decide_eq_true_iff]

theorem valid_eq (index : Nat) (loaded : worker.Loaded bench) : worker.valid (bench.config index) = true := by
  unfold valid
  rw [loaded.job]
  by_cases ghostrider : bench.job.algorithm.family = Algorithm.ghostrider
  · simp [bench.lanes_of_ghostrider index ghostrider]
  · simp [ghostrider]

theorem pending_of_begun {lanes : Nat} (randomX : worker.isRandomX = true)
    (begun : worker.BegunWith bench (worker.nonces 0)) : worker.Pending bench lanes := by
  unfold Pending
  rw [if_pos randomX]
  exact begun

theorem pending_of_hashed {lanes : Nat} (other : ¬ worker.isRandomX = true) (first : worker.first = true)
    (hashed : worker.Hashed bench lanes) : worker.Pending bench lanes := by
  unfold Pending
  rw [if_neg other]
  exact ⟨first, hashed⟩

theorem launch_pending (index random : Nat) {counter : Nat}
    (full : worker.Full bench (bench.config index).lanes counter) (primed : worker.Primed bench)
    (read : ∀ lane, worker.nonces lane = (worker.job.words lane).lo) :
    Keeps worker (worker.launch (bench.config index) shared random).1 ∧
      (worker.launch (bench.config index) shared random).1.stage = .round ∧
      (worker.launch (bench.config index) shared random).1.nonces = worker.nonces ∧
      (worker.launch (bench.config index) shared random).1.Pending bench (bench.config index).lanes := by
  have loaded := full.loaded
  have input : ∀ lane < (bench.config index).lanes, worker.input lane = bench.job.withNonce (worker.nonces lane) := by
    intro lane inside
    rw [read]
    exact input_eq loaded (full.blobs lane inside)
  unfold launch
  split
  · rename_i randomX
    unfold beginHash
    split
    · let free : CpuWorker hasher := { worker with first := false }
      have unsigned : free.signIf random = free :=
        @signIf_unsigned _ _ free (loaded.frame ⟨rfl, rfl, rfl, rfl, rfl⟩) random
      have begun := hasher.first_ready worker.job.currentJob worker.machine (worker.input 0)
      dsimp only
      rw [show signIf { worker with first := false } random = free from unsigned]
      refine ⟨⟨rfl, rfl, rfl, rfl, rfl⟩, rfl, rfl, pending_of_begun randomX ?_⟩
      change hasher.Ready bench.job (bench.job.withNonce (worker.nonces 0))
        (hasher.first worker.job.currentJob worker.machine (worker.input 0))
      rw [loaded.job, input 0 (bench.config index).positive] at begun ⊢
      exact begun
    · rename_i going
      refine ⟨⟨rfl, rfl, rfl, rfl, rfl⟩, rfl, rfl, pending_of_begun randomX ?_⟩
      have begun := (primed.resolve_left going).2
      rw [← read] at begun
      exact begun
  · rename_i other
    unfold hashLanes
    rw [if_pos (valid_eq index loaded)]
    refine ⟨⟨rfl, rfl, rfl, rfl, rfl⟩, rfl, rfl,
      pending_of_hashed other (primed.resolve_right fun both => other both.1) ?_⟩
    intro lane inside
    change hashValue (hasher.direct worker.job.currentJob (worker.input lane)) = bench.value hasher (worker.nonces lane)
    rw [input lane inside, loaded.job, Bench.value, Hasher.hash,
      if_neg fun family => other ((isRandomX_iff loaded).mpr family)]

theorem mixIf_several {config : CpuConfig} (several : config.threads ≠ 1) (data : BitVec 64) :
    mixIf config worker data = worker := if_neg fun both => several both.2

theorem innerStep_booked (index random : Nat) (several : bench.threads ≠ 1) (stage : worker.stage = .inner)
    (bound : (shared.nonce.nonces userIndex).toNat ≤ 2 ^ 32)
    (known : worker.Fresh ∨ (worker.Full bench (bench.config index).lanes (shared.nonce.nonces userIndex).toNat ∧
      worker.Primed bench)) :
    Booked bench (bench.config index) worker (worker.innerStep (bench.config index) shared random).1 shared
      (worker.innerStep (bench.config index) shared random).2.1 := by
  have before : CpuStage.between worker.stage = true := by rw [stage]; rfl
  have leaves : Booked bench (bench.config index) worker (worker.at_ .leave) shared shared := by
    have keeps : Keeps worker (worker.at_ .leave) := ⟨rfl, rfl, rfl, rfl, rfl⟩
    refine .between bound keeps before rfl (fun same => by cases same) ?_
    exact known.imp (fun fresh => fresh.frame keeps) fun full => full.1.frame keeps
  unfold innerStep
  split
  · exact leaves
  · split
    · exact leaves
    · rename_i size
      rcases known with fresh | ⟨full, primed⟩
      · -- Without the job the scratchpad has another size.
        rw [fresh.job] at size
        exact absurd bench.l3_ne size
      · have keeps : Keeps worker worker.readNonces := ⟨rfl, rfl, rfl, rfl, rfl⟩
        split
        · rename_i reached
          have kept : Keeps worker (worker.readNonces.at_ .finished) := ⟨rfl, rfl, rfl, rfl, rfl⟩
          have silent := @adds_of_between _ (bench.config index) worker before
          have owed := @owed_keeps _ bench _ _ (bench.config index).lanes kept before rfl
          refine ⟨⟨full.frame kept, ?_⟩, Nat.le_refl _, bound, ?_, ?_, ?_, .inl ⟨rfl, rfl, rfl⟩⟩
          · have short := reached.2
            rw [full.loaded.benchSize] at short
            exact short
          · intro nonce _
            rw [silent, owed, List.map_nil, List.count_nil, Nat.zero_add]
            rfl
          · intro entry member
            rw [silent] at member
            cases member
          · rw [silent]
            rfl
        · rw [mixIf_several (show (bench.config index).threads ≠ 1 from several)]
          obtain ⟨launched, round, nonces, pending⟩ :=
            @launch_pending _ bench worker.readNonces shared index random _ (full.frame keeps) primed fun lane => rfl
          have unshared : (worker.readNonces.launch (bench.config index) shared random).2.1 = shared := by
            unfold launch
            split <;> rfl
          rw [unshared]
          refine .quiet (adds_of_between before) bound ?_ ?_ (by rw [round]; exact fun same => by cases same)
          · unfold Placed
            rw [round]
            exact ⟨(full.frame keeps).frame launched, pending⟩
          · rw [owed_of_between before, if_pos full.loaded.job]
            unfold CpuWorker.owed readFrom
            rw [round, nonces]
            rfl

theorem rounded_booked (index random : Nat) (stage : worker.stage = .rounded)
    (bound : (shared.nonce.nonces userIndex).toNat ≤ 2 ^ 32)
    (full : worker.Full bench (bench.config index).lanes (shared.nonce.nonces userIndex).toNat)
    (pending : worker.Pending bench (bench.config index).lanes) :
    Booked bench (bench.config index) worker
      (if worker.isRandomX then (worker.finishHash random).at_ (.checking 0) else worker.at_ (.checking 0))
      shared shared := by
  have silent : worker.adds (bench.config index) = [] := by
    apply adds_of_stage
    intro other here
    rw [stage] at here
    cases here
  have loaded := full.loaded
  unfold Pending at pending
  split
  · rename_i randomX
    rw [if_pos randomX] at pending
    have family := (isRandomX_iff loaded).mp randomX
    have one := bench.lanes_of_randomX index family
    have input : worker.input 0 = bench.job.withNonce (worker.job.words 0).lo :=
      input_eq loaded (full.blobs 0 (bench.config index).positive)
    have finished : worker.finishHash random = { worker with
        machine := (hasher.next bench.job worker.machine (worker.input 0)).2
        hashes := Function.update worker.hashes 0 (hasher.next bench.job worker.machine (worker.input 0)).1 } := by
      unfold finishHash
      have unsigned : worker.job.currentJob.hasMinerSignature = false := by rw [loaded.job, bench.unsigned]
      rw [unsigned]
      dsimp only
      have same : signIf { worker with saved := if false = true then worker.signature else worker.saved } random =
          worker :=
        @signIf_unsigned _ _ worker loaded random
      rw [same, loaded.job]
    rw [finished]
    have keeps : Keeps worker (CpuWorker.at_ { worker with
        machine := (hasher.next bench.job worker.machine (worker.input 0)).2
        hashes := Function.update worker.hashes 0 (hasher.next bench.job worker.machine (worker.input 0)).1 }
        (.checking 0)) := ⟨rfl, rfl, rfl, rfl, rfl⟩
    refine .quiet silent bound ⟨full.frame keeps, .inr ⟨randomX, ?_⟩, ?_⟩ ?_ (fun same => by cases same)
    · have begun := hasher.next_ready bench.job worker.machine _ (worker.input 0) pending
      rw [input] at begun ⊢
      exact begun
    · intro lane inside
      obtain rfl : lane = 0 := by omega
      have output := hasher.next_output bench.job worker.machine _ (worker.input 0) pending
      rw [output, Bench.value, Hasher.hash, if_pos family]
      exact congrArg hashValue (Function.update_self 0 _ worker.hashes)
    · unfold owed
      rw [stage]
      rfl
  · rename_i other
    rw [if_neg other] at pending
    have keeps : Keeps worker (worker.at_ (.checking 0)) := ⟨rfl, rfl, rfl, rfl, rfl⟩
    refine .quiet silent bound ⟨full.frame keeps, .inl pending.1, pending.2⟩ ?_ (fun same => by cases same)
    unfold owed
    rw [stage]
    rfl

theorem checking_booked (index : Nat) {lane : Nat} (stage : worker.stage = .checking lane)
    (inside : lane < (bench.config index).lanes) (bound : (shared.nonce.nonces userIndex).toNat ≤ 2 ^ 32)
    (full : worker.Full bench (bench.config index).lanes (shared.nonce.nonces userIndex).toNat)
    (primed : worker.Primed bench) (hashed : worker.Hashed bench (bench.config index).lanes) :
    Booked bench (bench.config index) worker (worker.at_ (.checking (lane + 1))) shared
      (worker.checkLane shared lane).1 := by
  have benched : worker.benchSize ≠ 0 := full.loaded.benchSize ▸ bench.positive
  have keeps : Keeps worker (worker.at_ (.checking (lane + 1))) := ⟨rfl, rfl, rfl, rfl, rfl⟩
  have adds : worker.adds (bench.config index) =
      if worker.nonces lane < bench.size then [(worker.nonces lane, hashValue (worker.hashes lane))] else [] := by
    unfold CpuWorker.adds
    rw [stage]
    dsimp only
    rw [full.loaded.benchSize]
    apply if_congr _ rfl rfl
    exact ⟨fun all => all.2.2, fun small => ⟨⟨valid_eq index full.loaded, inside⟩, bench.positive, small⟩⟩
  have owed : worker.owed bench (bench.config index).lanes =
      worker.nonces lane :: (worker.at_ (.checking (lane + 1))).owed bench (bench.config index).lanes := by
    unfold CpuWorker.owed at_
    rw [stage]
    dsimp only
    rw [readFrom_cons worker inside]
    rfl
  have checked : (worker.checkLane shared lane).1 =
      if worker.nonces lane < bench.size then shared.add (hashValue (worker.hashes lane)) else shared := by
    unfold checkLane
    dsimp only
    rw [if_pos benched, full.loaded.benchSize]
  have placed : (worker.at_ (.checking (lane + 1))).Placed bench (bench.config index).lanes
      (shared.nonce.nonces userIndex).toNat := ⟨full.frame keeps, primed, hashed⟩
  rw [checked]
  by_cases small : worker.nonces lane < bench.size
  · rw [if_pos small] at adds ⊢
    refine ⟨placed, Nat.le_refl _, bound, ?_, ?_, ?_, .inr ⟨(fun same => by cases same), rfl, rfl⟩⟩
    · intro nonce _
      rw [adds, owed, List.count_cons]
      change List.count nonce [worker.nonces lane] + _ + _ = _
      rw [List.count_singleton]
      change _ = _ + if nonce.toNat < (shared.nonce.nonces userIndex).toNat then 1 else 0
      omega
    · intro entry member
      rw [adds] at member
      obtain rfl := List.mem_singleton.mp member
      exact ⟨small, hashed lane inside⟩
    · rw [adds]
      rfl
  · rw [if_neg small] at adds ⊢
    refine ⟨placed, Nat.le_refl _, bound, ?_, ?_, ?_, .inr ⟨(fun same => by cases same), rfl, rfl⟩⟩
    · intro nonce below
      have apart : worker.nonces lane ≠ nonce := by
        rintro rfl
        exact small below
      rw [adds, owed, List.count_cons_of_ne apart, List.map_nil, List.count_nil, Nat.zero_add]
    · intro entry member
      rw [adds] at member
      cases member
    · rw [adds]
      rfl

def CpuStage.idling : CpuStage → Bool
  | .outer | .paused | .consume _ | .leave | .stopped => true
  | _ => false

theorem Booked.idle (bound : (shared.nonce.nonces userIndex).toNat ≤ 2 ^ 32)
    (before : CpuStage.between worker.stage = true)
    (known : worker.Fresh ∨ worker.Full bench config.lanes (shared.nonce.nonces userIndex).toNat) {stage : CpuStage}
    (behind : CpuStage.idling stage = true) (same : after = worker.at_ stage) :
    Booked bench config worker after shared shared := by
  subst same
  have keeps : Keeps worker (worker.at_ stage) := ⟨rfl, rfl, rfl, rfl, rfl⟩
  have kept := known.imp (fun fresh => fresh.frame keeps) fun full => full.frame keeps
  cases stage with
  | outer | paused | consume | leave | stopped =>
    exact .between bound keeps before rfl (fun same => by cases same) kept
  | _ => cases behind

/-- A nonce is taken in this step. -/
def Takes (config : CpuConfig) (worker : CpuWorker hasher) : Prop :=
  match worker.stage with
  | .saving lane _ | .reserving lane => lane < config.lanes
  | _ => False

instance (config : CpuConfig) (worker : CpuWorker hasher) : Decidable (worker.Takes config) := by
  unfold Takes
  split <;> infer_instance

theorem step_booked (index random : Nat) (several : bench.threads ≠ 1)
    (placed : worker.Placed bench (bench.config index).lanes (shared.nonce.nonces userIndex).toNat)
    (offered : shared.job = bench.job ∧ shared.benchSize = bench.size)
    (bound : (shared.nonce.nonces userIndex).toNat ≤ 2 ^ 32)
    (room : worker.Takes (bench.config index) → (shared.nonce.nonces userIndex).toNat < 2 ^ 32)
    {outputs : List CpuOutput}
    (stepped : worker.step (bench.config index) shared random = some (after, sharedAfter, outputs)) :
    Booked bench (bench.config index) worker after shared sharedAfter := by
  unfold Takes at room
  unfold Placed at placed
  unfold step at stepped
  cases stage : worker.stage with
  | outer =>
    simp only [stage] at placed stepped
    split at stepped
    · cases stepped
      exact .idle bound (by rw [stage]; rfl) placed rfl rfl
    · split at stepped
      · cases stepped
        exact .idle bound (by rw [stage]; rfl) placed rfl rfl
      · cases stepped
        exact .between bound ⟨rfl, rfl, rfl, rfl, rfl⟩ (by rw [stage]; rfl) rfl (fun same => by cases same)
          (enter_placed placed)
  | paused =>
    simp only [stage] at placed stepped
    split at stepped
    · cases stepped
      exact .idle bound (by rw [stage]; rfl) placed rfl rfl
    · split at stepped
      · cases stepped
        refine .between bound ⟨rfl, rfl, rfl, rfl, rfl⟩ ?_ ?_ ?_ ?_
        · rw [stage]; rfl
        · rw [stage]; rfl
        · rw [stage]
          exact fun same => by cases same
        · unfold Placed
          rw [stage]
          exact placed
      · cases stepped
        exact .idle bound (by rw [stage]; rfl) placed rfl rfl
  | consume resume =>
    simp only [stage] at placed stepped
    split at stepped
    · cases stepped
      exact .between bound (consumed_keeps worker resume) (by rw [stage]; rfl) (consumed_between worker resume).1
        (consumed_between worker resume).2 (consumed_placed placed resume)
    · cases stepped
      have before : CpuStage.between worker.stage = true := by rw [stage]; rfl
      refine .quiet (adds_of_between before) bound ⟨offered.1, offered.2, ?_⟩ ?_ (fun same => by cases same)
      · rcases placed with fresh | full
        · exact .inl ⟨fresh.index, fresh.job⟩
        · exact .inr (full.frame ⟨rfl, rfl, rfl, rfl, offered.2.trans full.loaded.benchSize.symm⟩)
      · rw [owed_of_between before, owed_of_between rfl]
        rfl
  | adding job resume =>
    simp only [stage] at placed stepped
    cases stepped
    obtain ⟨rfl, benchSize, known⟩ := placed
    exact addJob_booked stage bound benchSize known
  | saving lane resume =>
    simp only [stage] at placed stepped room
    cases stepped
    exact saveLane_booked stage placed.1 placed.2 bound room
  | inner =>
    simp only [stage, Option.some.injEq] at placed stepped
    have booked := @innerStep_booked _ bench worker shared index random several stage bound placed
    rw [stepped] at booked
    exact booked
  | round =>
    simp only [stage] at placed stepped
    cases stepped
    exact roundStep_booked stage bound placed.1 placed.2
  | reserving lane =>
    simp only [stage, Option.some.injEq] at placed stepped room
    obtain ⟨inside, loaded, blobs, ordered, pending⟩ := placed
    have booked := @reserveLane_booked _ bench (bench.config index) worker shared lane stage inside loaded blobs ordered
      pending bound room
    rw [stepped] at booked
    exact booked
  | rounded =>
    simp only [stage] at placed stepped
    have booked := @rounded_booked _ bench worker shared index random stage bound placed.1 placed.2
    split at stepped
    · rename_i randomX
      cases stepped
      rw [if_pos randomX] at booked
      exact booked
    · rename_i other
      cases stepped
      rw [if_neg other] at booked
      exact booked
  | checking lane =>
    simp only [stage] at placed stepped
    obtain ⟨full, primed, hashed⟩ := placed
    split at stepped
    · rename_i more
      cases stepped
      exact checking_booked index stage more.2 bound full primed hashed
    · rename_i ended
      cases stepped
      have outside : (bench.config index).lanes ≤ lane := by
        by_contra inside
        exact ended ⟨valid_eq index full.loaded, Nat.lt_of_not_le inside⟩
      have keeps : Keeps worker (worker.at_ .inner) := ⟨rfl, rfl, rfl, rfl, rfl⟩
      refine .quiet ?_ bound (.inr ⟨full.frame keeps, primed⟩) ?_ (fun same => by cases same)
      · unfold adds
        rw [stage]
        exact if_neg fun all => ended all.1
      · rw [owed_of_between rfl, if_pos (keeps.currentJob.trans full.loaded.job), keeps.held]
        unfold owed
        rw [stage]
        dsimp only
        rw [readFrom_end worker outside, List.nil_append]
  | leave =>
    simp only [stage] at placed stepped
    cases stepped
    split
    · exact .idle bound (by rw [stage]; rfl) placed rfl rfl
    · exact .idle bound (by rw [stage]; rfl) placed rfl rfl
  | stopped =>
    simp only [stage] at stepped
    cases stepped
  | finished =>
    simp only [stage] at stepped
    cases stepped

end Steps

end CpuWorker

end Xmrig
