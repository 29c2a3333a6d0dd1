import Xmrig.Backend.BenchSum

/-! The end of the nonces in a benchmark.

While nonces are left, a worker of the direct path goes through its round and takes one for every lane. A refusal drops
the hashes of the round, and a worker whose first lane is behind the size by then is done without them.
-/

set_option autoImplicit false

namespace Xmrig

open Foundation CpuWorker

/-! ## A round -/

namespace BenchRun
variable {hasher : Hasher} {bench : Bench} {before state : BenchRun hasher} {index : Nat}

/-- Some steps of one worker lead to a state of this kind. -/
def Comes (bench : Bench) (state : BenchRun hasher) (index count : Nat) (P : BenchRun hasher → Prop) : Prop :=
  ∃ after, run (step bench) state (works index count) = some after ∧ P after

theorem Comes.trans {P Q : BenchRun hasher → Prop} {first second : Nat} (comes : Comes bench state index first P)
    (next : ∀ middle, P middle → Comes bench middle index second Q) : Comes bench state index (first + second) Q := by
  obtain ⟨middle, executed, holds⟩ := comes
  obtain ⟨after, further, arrives⟩ := next middle holds
  refine ⟨after, ?_, arrives⟩
  rw [works, List.replicate_add, run_append]
  change (run (step bench) state (works index first)).bind _ = _
  rw [executed]
  exact further

/-- A worker has come to a stage of the benchmark. The next nonce and the one of its first lane are known, a round was
begun with a nonce of the benchmark, and the others stand where they stood before. -/
structure Stands (bench : Bench) (before : BenchRun hasher) (index : Nat) (place : CpuStage) (following leading : Nat)
    (state : BenchRun hasher) : Prop where
  sound : state.Sound bench
  others : ∀ other ≠ index, state.workers other = before.workers other
  current : state.shared.nonce.sequence = before.shared.nonce.sequence
  stage : (state.workers index).stage = place
  loaded : (state.workers index).Loaded bench
  sequence : (state.workers index).job.sequence = state.shared.nonce.sequence .cpu
  counter : state.counter = following
  first : ((state.workers index).job.words 0).lo.toNat = leading
  short : place ≠ .inner → (state.workers index).nonces 0 < bench.size

section Stages
variable {stage : CpuStage} {counter first lane : Nat}

theorem Stands.step (stands : Stands bench before index stage counter first state) (several : bench.threads ≠ 1)
    (inside : index < bench.threads) (room : state.Room bench (.work index 0)) {worker : CpuWorker hasher}
    {shared : CpuShared} {outputs : List CpuOutput}
    (stepped : (state.workers index).step (bench.config index) state.shared 0 = some (worker, shared, outputs))
    (loaded : worker.Loaded bench) (sequence : worker.job.sequence = (state.workers index).job.sequence)
    (current : shared.nonce.sequence = state.shared.nonce.sequence)
    (short : worker.stage ≠ .inner → worker.nonces 0 < bench.size) :
    Comes bench state index 1 (Stands bench before index worker.stage (shared.nonce.nonces userIndex).toNat
      (worker.job.words 0).lo.toNat) := by
  have moved : state.step bench (.work index 0) = some
      { workers := Function.update state.workers index worker
        shared
        added := state.added ++ (state.workers index).adds (bench.config index) } := by
    simp only [BenchRun.step]
    rw [if_pos inside, stepped]
    rfl
  refine ⟨_, run_cons_iff.mpr ⟨_, moved, rfl⟩, stands.sound.work several inside room stepped,
    ?_, ?_, ?_, ?_, ?_, rfl, ?_, ?_⟩
  · intro other apart
    dsimp only
    rw [Function.update_of_ne apart]
    exact stands.others other apart
  · exact current.trans stands.current
  all_goals
    dsimp only
    rw [Function.update_self]
  · exact loaded
  · rw [sequence, stands.sequence, current]
  · exact short

theorem Stands.quiet (stands : Stands bench before index stage counter first state) (several : bench.threads ≠ 1)
    (inside : index < bench.threads) (idle : ¬ (state.workers index).Takes (bench.config index))
    {worker : CpuWorker hasher} {shared : CpuShared} {outputs : List CpuOutput}
    (stepped : (state.workers index).step (bench.config index) state.shared 0 = some (worker, shared, outputs))
    (keeps : Keeps (state.workers index) worker) (sequence : worker.job.sequence = (state.workers index).job.sequence)
    (nonce : shared.nonce = state.shared.nonce) (short : worker.stage ≠ .inner → worker.nonces 0 < bench.size) :
    Comes bench state index 1 (Stands bench before index worker.stage counter first) := by
  have comes := stands.step several inside (fun takes => absurd takes idle) stepped (stands.loaded.frame keeps) sequence
    (congrArg Nonce.sequence nonce) short
  rw [nonce, keeps.words, stands.first] at comes
  rw [← stands.counter]
  exact comes

theorem Stands.inner (stands : Stands bench before index .inner counter first state) (several : bench.threads ≠ 1)
    (inside : index < bench.threads) (direct : bench.job.algorithm.family ≠ Algorithm.randomX)
    (small : first < bench.size.toNat) :
    Comes bench state index 1 (Stands bench before index .round counter first) := by
  have loaded := stands.loaded
  have kind : (state.workers index).readNonces.isRandomX = false := by
    rw [Bool.eq_false_iff]
    exact fun randomX => direct ((isRandomX_iff (loaded.frame ⟨rfl, rfl, rfl, rfl, rfl⟩)).mp randomX)
  have valid : (state.workers index).readNonces.valid (bench.config index) = true :=
    valid_eq index (loaded.frame ⟨rfl, rfl, rfl, rfl, rfl⟩)
  have below : ((state.workers index).job.words 0).lo < bench.size := by
    rw [BitVec.lt_def, stands.first]
    exact small
  have stepped : (state.workers index).step (bench.config index) state.shared 0 =
      some (((state.workers index).readNonces.hashLanes (bench.config index)).at_ .round, state.shared,
        ((state.workers index).readNonces.hashLanes (bench.config index)).available (bench.config index).lanes) := by
    simp only [CpuWorker.step, stands.stage]
    rw [innerStep_of_current, launch_direct kind valid]
    · rw [Nonce.isOutdated, stands.sequence]
      exact decide_eq_false (not_not.mpr rfl)
    · rw [loaded.job]
      rfl
    · exact fun _ => loaded.benchSize ▸ below
    · exact .inr several
  rw [hashLanes_of_valid valid] at stepped
  have idle : ¬ (state.workers index).Takes (bench.config index) := by
    simp only [Takes, stands.stage, not_false_eq_true]
  exact stands.quiet several inside idle stepped ⟨rfl, rfl, rfl, rfl, rfl⟩ rfl rfl fun _ => below

theorem Stands.round (stands : Stands bench before index .round counter first state) (several : bench.threads ≠ 1)
    (inside : index < bench.threads) :
    Comes bench state index 1 (Stands bench before index (.reserving 0) counter first) := by
  have each : (state.workers index).roundStep (bench.config index) =
      { state.workers index with job := (state.workers index).job.countRound, stage := .reserving 0 } := by
    unfold roundStep
    rw [reserveCount_eq stands.loaded]
    exact if_pos (BitVec.and_zero)
  have stepped : (state.workers index).step (bench.config index) state.shared 0 = some
      ({ state.workers index with job := (state.workers index).job.countRound, stage := .reserving 0 },
        state.shared, []) := by
    simp only [CpuWorker.step, stands.stage]
    rw [each]
  have idle : ¬ (state.workers index).Takes (bench.config index) := by
    simp only [Takes, stands.stage, not_false_eq_true]
  exact stands.quiet several inside idle stepped ⟨rfl, rfl, rfl, rfl, rfl⟩ rfl rfl fun _ => stands.short (by simp)

theorem Stands.reserve (stands : Stands bench before index (.reserving lane) counter first state)
    (several : bench.threads ≠ 1) (inside : index < bench.threads) (more : lane < (bench.config index).lanes)
    (room : counter < 2 ^ 32) :
    Comes bench state index 1
      (Stands bench before index (.reserving (lane + 1)) (counter + 1) (if lane = 0 then counter else first)) := by
  have loaded := stands.loaded
  have free : (state.shared.nonce.nonces userIndex).toNat < 2 ^ 32 :=
    Nat.lt_of_le_of_lt (Nat.le_of_eq stands.counter) room
  have placed := stands.sound.placed index inside
  simp only [Placed, stands.stage] at placed
  obtain ⟨-, -, blobs, -, -⟩ := placed
  obtain ⟨granted, taken⟩ := bench.next_of_room loaded.carries free lane
  have took := took_next loaded free loaded.carries loaded.job (fun other apart position inside => rfl)
    (blobs lane more) (.reserving (lane + 1))
  have stepped : (state.workers index).step (bench.config index) state.shared 0 = some
      ({ state.workers index with
          job := ((state.workers index).job.next state.shared.nonce lane 1 fun _ => 0).worker
          stage := .reserving (lane + 1) },
        { state.shared with
          nonce := ((state.workers index).job.next state.shared.nonce lane 1 fun _ => 0).nonce }, []) := by
    simp only [CpuWorker.step, stands.stage, reserveLane]
    rw [if_pos more, reserveCount_eq loaded, if_pos (by rw [granted]; rfl)]
  have sequence : ((state.workers index).job.next state.shared.nonce lane 1 fun _ => 0).worker.sequence =
      (state.workers index).job.sequence := by
    simp only [WorkerJob.next]
    split <;> rfl
  have comes := stands.step several inside (fun _ => free) stepped took.loaded sequence Nonce.next_sequence
    fun _ => stands.short (by simp)
  rw [show _ = counter + 1 from taken.trans (congrArg (· + 1) stands.counter)] at comes
  have leads : (((state.workers index).job.next state.shared.nonce lane 1 fun _ => 0).worker.words 0).lo.toNat =
      if lane = 0 then counter else first := by
    split
    · rename_i zero
      subst zero
      exact took.lo_here.trans stands.counter
    · rename_i other
      rw [← stands.first]
      exact congrArg BitVec.toNat (took.lo_other (Ne.symm other) (blobs 0 (by omega)))
  rw [show _ = _ from leads] at comes
  exact comes

theorem Stands.reserved (stands : Stands bench before index (.reserving (bench.config index).lanes) counter first state)
    (several : bench.threads ≠ 1) (inside : index < bench.threads) :
    Comes bench state index 1 (Stands bench before index .rounded counter first) := by
  have narrow : ¬ ((bench.config index).lanes = 1 ∧ (state.workers index).job.currentJob.nonceSize = 8) := by
    rw [stands.loaded.job, bench.nonceSize]
    rintro ⟨-, eight⟩
    cases eight
  have stepped : (state.workers index).step (bench.config index) state.shared 0 =
      some ((state.workers index).at_ .rounded, state.shared, []) := by
    simp only [CpuWorker.step, stands.stage, reserveLane]
    rw [if_neg (Nat.lt_irrefl _), if_neg narrow]
  have idle : ¬ (state.workers index).Takes (bench.config index) := by
    simp only [Takes, stands.stage, Nat.lt_irrefl, not_false_eq_true]
  exact stands.quiet several inside idle stepped ⟨rfl, rfl, rfl, rfl, rfl⟩ rfl rfl fun _ => stands.short (by simp)

theorem Stands.rounded (stands : Stands bench before index .rounded counter first state) (several : bench.threads ≠ 1)
    (inside : index < bench.threads) (direct : bench.job.algorithm.family ≠ Algorithm.randomX) :
    Comes bench state index 1 (Stands bench before index (.checking 0) counter first) := by
  have stepped : (state.workers index).step (bench.config index) state.shared 0 =
      some ((state.workers index).at_ (.checking 0), state.shared, []) := by
    simp only [CpuWorker.step, stands.stage]
    exact if_neg fun randomX => direct ((isRandomX_iff stands.loaded).mp randomX)
  have idle : ¬ (state.workers index).Takes (bench.config index) := by
    simp only [Takes, stands.stage, not_false_eq_true]
  exact stands.quiet several inside idle stepped ⟨rfl, rfl, rfl, rfl, rfl⟩ rfl rfl fun _ => stands.short (by simp)

theorem Stands.check (stands : Stands bench before index (.checking lane) counter first state)
    (several : bench.threads ≠ 1) (inside : index < bench.threads) (more : lane < (bench.config index).lanes) :
    Comes bench state index 1 (Stands bench before index (.checking (lane + 1)) counter first) := by
  have stepped : (state.workers index).step (bench.config index) state.shared 0 =
      some ((state.workers index).at_ (.checking (lane + 1)), (state.workers index).checkLane state.shared lane) := by
    simp only [CpuWorker.step, stands.stage]
    exact if_pos ⟨valid_eq index stands.loaded, more⟩
  have idle : ¬ (state.workers index).Takes (bench.config index) := by
    simp only [Takes, stands.stage, not_false_eq_true]
  have benched : (state.workers index).benchSize ≠ 0 := stands.loaded.benchSize ▸ bench.positive
  have nonce : ((state.workers index).checkLane state.shared lane).1.nonce = state.shared.nonce := by
    unfold checkLane
    dsimp only
    rw [if_pos benched]
    split <;> rfl
  exact stands.quiet several inside idle stepped ⟨rfl, rfl, rfl, rfl, rfl⟩ rfl nonce fun _ => stands.short (by simp)

theorem Stands.checked (stands : Stands bench before index (.checking (bench.config index).lanes) counter first state)
    (several : bench.threads ≠ 1) (inside : index < bench.threads) :
    Comes bench state index 1 (Stands bench before index .inner counter first) := by
  have stepped : (state.workers index).step (bench.config index) state.shared 0 =
      some ((state.workers index).at_ .inner, state.shared, []) := by
    simp only [CpuWorker.step, stands.stage]
    exact if_neg fun more => Nat.lt_irrefl _ more.2
  have idle : ¬ (state.workers index).Takes (bench.config index) := by
    simp only [Takes, stands.stage, not_false_eq_true]
  exact stands.quiet several inside idle stepped ⟨rfl, rfl, rfl, rfl, rfl⟩ rfl rfl fun _ => stands.short (by simp)

theorem Stands.reserves (several : bench.threads ≠ 1) (inside : index < bench.threads) {left : Nat}
    (more : lane + left ≤ (bench.config index).lanes) (behind : lane ≠ 0) (room : counter + left ≤ 2 ^ 32)
    (stands : Stands bench before index (.reserving lane) counter first state) :
    Comes bench state index left (Stands bench before index (.reserving (lane + left)) (counter + left) first) := by
  induction left with
  | zero => exact ⟨state, rfl, stands⟩
  | succ left ih =>
    refine (ih (by omega) (by omega)).trans fun middle reached => ?_
    have comes := reached.reserve several inside (by omega) (by omega)
    rwa [if_neg (by omega)] at comes

theorem Stands.checks (several : bench.threads ≠ 1) (inside : index < bench.threads) {left : Nat}
    (more : lane + left ≤ (bench.config index).lanes)
    (stands : Stands bench before index (.checking lane) counter first state) :
    Comes bench state index left (Stands bench before index (.checking (lane + left)) counter first) := by
  induction left with
  | zero => exact ⟨state, rfl, stands⟩
  | succ left ih => exact (ih (by omega)).trans fun middle reached => reached.check several inside (by omega)

theorem Stands.begins (stands : Stands bench before index .inner counter first state) (several : bench.threads ≠ 1)
    (inside : index < bench.threads) (direct : bench.job.algorithm.family ≠ Algorithm.randomX)
    (small : first < bench.size.toNat) {left : Nat} (more : 1 + left ≤ (bench.config index).lanes)
    (room : counter + 1 + left ≤ 2 ^ 32) :
    Comes bench state index (1 + 1 + 1 + left)
      (Stands bench before index (.reserving (1 + left)) (counter + 1 + left) counter) := by
  have counts := (stands.inner several inside direct small).trans fun _ hashed => hashed.round several inside
  have leads := counts.trans fun _ counted =>
    counted.reserve several inside (bench.config index).positive (by omega)
  exact leads.trans fun _ begun => begun.reserves several inside more (by decide) room

theorem Stands.lap (stands : Stands bench before index .inner counter first state) (several : bench.threads ≠ 1)
    (inside : index < bench.threads) (direct : bench.job.algorithm.family ≠ Algorithm.randomX)
    (small : first < bench.size.toNat) (room : counter + (bench.config index).lanes ≤ 2 ^ 32) :
    Comes bench state index (2 * (bench.config index).lanes + 5)
      (Stands bench before index .inner (counter + (bench.config index).lanes) counter) := by
  obtain ⟨left, lanes⟩ : ∃ left, (bench.config index).lanes = 1 + left :=
    ⟨(bench.config index).lanes - 1, by have := (bench.config index).positive; omega⟩
  have begins := stands.begins several inside direct small (Nat.le_of_eq lanes.symm) (by omega)
  rw [← lanes] at begins
  have reserves := begins.trans fun _ reserved => reserved.reserved several inside
  have rounds := reserves.trans fun _ rounded => rounded.rounded several inside direct
  have checks := rounds.trans fun _ checking => checking.checks several inside (Nat.le_of_eq (Nat.zero_add _))
  rw [Nat.zero_add] at checks
  have comes := checks.trans fun _ checked => checked.checked several inside
  have whole : 1 + 1 + 1 + left + 1 + 1 + (bench.config index).lanes + 1 = 2 * (bench.config index).lanes + 5 := by
    omega
  rw [whole, show counter + 1 + left = counter + (bench.config index).lanes by omega] at comes
  exact comes

theorem Stands.laps (stands : Stands bench before index .inner counter first state) (several : bench.threads ≠ 1)
    (inside : index < bench.threads) (direct : bench.job.algorithm.family ≠ Algorithm.randomX)
    (small : first < bench.size.toNat) (count : Nat)
    (room : counter + count * (bench.config index).lanes ≤ bench.size.toNat) :
    ∃ after, run (BenchRun.step bench) state
        (List.replicate count (works index (2 * (bench.config index).lanes + 5))).flatten = some after ∧
      ∃ last < bench.size.toNat,
        Stands bench before index .inner (counter + count * (bench.config index).lanes) last after := by
  have size := bench.size.isLt
  refine @run_repeat _ _ _ (fun done after => ∃ last < bench.size.toNat,
    Stands bench before index .inner (counter + done * (bench.config index).lanes) last after) _ count ?_ _
    ⟨first, small, by rwa [Nat.zero_mul]⟩
  rintro done middle more ⟨last, below, reached⟩
  have most : (done + 1) * (bench.config index).lanes ≤ count * (bench.config index).lanes :=
    Nat.mul_le_mul_right _ more
  rw [Nat.add_mul, Nat.one_mul] at most
  obtain ⟨after, executed, arrived⟩ := reached.lap several inside direct below (by omega)
  refine ⟨after, executed, counter + done * (bench.config index).lanes, ?_, ?_⟩
  · have := (bench.config index).positive
    omega
  · rw [Nat.add_mul, Nat.one_mul, ← Nat.add_assoc]
    exact arrived

end Stages

/-! ## The last round -/

def put (state : BenchRun hasher) (index : Nat) (worker : CpuWorker hasher) (shared : CpuShared) : BenchRun hasher :=
  { state with workers := Function.update state.workers index worker, shared }

theorem put_here (state : BenchRun hasher) (index : Nat) (worker : CpuWorker hasher) (shared : CpuShared) :
    (state.put index worker shared).workers index = worker := Function.update_self _ _ _

theorem put_other (state : BenchRun hasher) {index other : Nat} (apart : other ≠ index) (worker : CpuWorker hasher)
    (shared : CpuShared) : (state.put index worker shared).workers other = state.workers other :=
  Function.update_of_ne apart _ _

theorem put_work {worker after : CpuWorker hasher} {shared sharedAfter : CpuShared} {outputs : List CpuOutput}
    (inside : index < bench.threads) (silent : ∀ lane, worker.stage ≠ .checking lane)
    (stepped : worker.step (bench.config index) shared 0 = some (after, sharedAfter, outputs)) (count : Nat) :
    run (step bench) (state.put index worker shared) (works index (count + 1)) =
      run (step bench) (state.put index after sharedAfter) (works index count) := by
  have moved : (state.put index worker shared).step bench (.work index 0) =
      some (state.put index after sharedAfter) := by
    simp only [step]
    rw [if_pos inside, put_here, adds_of_stage silent, List.append_nil]
    change Option.map _ (worker.step _ shared 0) = _
    rw [stepped]
    simp only [put, Option.map_some, Function.update_idem]
  rw [works, List.replicate_succ, run, moved]
  rfl

/-- The first lane of a worker on the benchmark is behind the size. -/
structure Spent (bench : Bench) (worker : CpuWorker hasher) : Prop where
  loaded : worker.Loaded bench
  behind : bench.size ≤ (worker.job.words 0).lo

theorem put_self (state : BenchRun hasher) (index : Nat) :
    state.put index (state.workers index) state.shared = state := by
  simp only [put, Function.update_eq_self]

theorem refuse (inside : index < bench.threads) {lane : Nat} (stage : (state.workers index).stage = .reserving lane)
    (more : lane < (bench.config index).lanes) (spent : Spent bench (state.workers index))
    (exhausted : 2 ^ 32 ≤ state.counter) (bound : state.counter < 2 ^ 64 - 1) :
    ∃ nonce : Nonce, run (step bench) state (works index 1) =
        some (state.put index ((state.workers index).at_ .leave) { state.shared with nonce }) ∧
      nonce.sequence = state.shared.nonce.sequence ∧ state.counter ≤ (nonce.nonces userIndex).toNat ∧
      (nonce.nonces userIndex).toNat ≤ state.counter + 1 := by
  have mine : (state.workers index).job.index = userIndex := spent.loaded.index
  have mask : (state.workers index).job.nonceMask = 0xFFFFFFFF := spent.loaded.mask.trans bench.nonceMask
  have low : Nonce.IsLow (Nonce.effective 0xFFFFFFFF) := bench.nonceMask ▸ Nonce.effective_nonceMask_low bench.job
  have top : (Nonce.effective 0xFFFFFFFF).toNat < state.counter := Nat.lt_of_lt_of_le (by decide) exhausted
  have refused : ((state.workers index).job.next state.shared.nonce lane 1 fun _ => 0).granted = none := by
    simp only [WorkerJob.next, mine, mask]
    exact Nonce.next_of_exhausted low (Nat.lt_of_lt_of_le bound (by decide)) top
  have stepped : (state.workers index).step (bench.config index) state.shared 0 = some
      ((state.workers index).at_ .leave,
        { state.shared with nonce := ((state.workers index).job.next state.shared.nonce lane 1 fun _ => 0).nonce },
        [.done (state.workers index).job.currentJob]) := by
    simp only [CpuWorker.step, stage, reserveLane]
    rw [if_pos more, reserveCount_eq spent.loaded, if_neg (by rw [refused]; decide), WorkerJob.next_refused refused]
    rfl
  have moved := @put_work _ _ state _ _ _ _ _ _ inside (fun other same => by rw [stage] at same; cases same) stepped 0
  rw [put_self] at moved
  refine ⟨_, moved, Nonce.next_sequence, ?_, ?_⟩
  · simp only [WorkerJob.next, mine, mask]
    exact Nonce.next_monotone low (Nat.add_lt_of_lt_sub bound)
  · simp only [WorkerJob.next, mine, mask]
    have most := @Nonce.next_bound state.shared.nonce userIndex ((state.workers index).job.words lane) 1 0xFFFFFFFF
      (Nat.add_lt_of_lt_sub bound) low
    exact Nat.le_trans most (Nat.le_of_eq (congrArg (· + 1) (Nat.max_eq_left (Nat.le_of_lt top))))

theorem retire (inside : index < bench.threads) (stage : (state.workers index).stage = .leave)
    (spent : Spent bench (state.workers index)) (running : state.shared.nonce.paused = false)
    (sequence : state.shared.nonce.sequence .cpu ≠ 0)
    (offered : state.shared.job = bench.job ∧ state.shared.benchSize = bench.size) :
    ∃ after : CpuWorker hasher,
      run (step bench) state (works index 5) = some (state.put index after state.shared.done) := by
  let worker : CpuWorker hasher := state.workers index
  let shared : CpuShared := state.shared
  let leaving : CpuWorker hasher := worker.at_ (.consume false)
  let adding : CpuWorker hasher := { worker with benchSize := shared.benchSize, stage := .adding shared.job false }
  let added : CpuWorker hasher :=
    { adding with job := { worker.job with sequence := shared.nonce.sequence .cpu }, stage := .outer }
  have keeps : Keeps worker added := ⟨rfl, rfl, rfl, rfl, offered.2.trans spent.loaded.benchSize.symm⟩
  have leaves : worker.step (bench.config index) shared 0 = some (leaving, shared, []) := by
    simp only [worker, CpuWorker.step, stage]
    rw [running]
    rfl
  have consumes : leaving.step (bench.config index) shared 0 = some (adding, shared, []) := if_neg sequence
  have again : added.job.currentJob.isEqual shared.job = true := by
    rw [keeps.currentJob, spent.loaded.job, offered.1]
    simp [Job.isEqual, Job.isEqualBlob]
  have adds : adding.step (bench.config index) shared 0 = some (added, shared, []) :=
    congrArg (fun kept => some (kept, shared, [])) (if_pos again)
  have enters : added.step (bench.config index) shared 0 = some (added.enter, shared, []) := by
    refine (if_neg sequence).trans ?_
    rw [running]
    rfl
  have loaded : added.Loaded bench := spent.loaded.frame keeps
  have finishes : added.enter.step (bench.config index) shared 0 =
      some (added.enter.readNonces.at_ .finished, shared.done, []) := by
    have current : shared.nonce.isOutdated .cpu added.enter.job.sequence = false := decide_eq_false (not_not.mpr rfl)
    have size : added.enter.job.currentJob.algorithm.l3 = (bench.config index).algorithm.l3 :=
      congrArg (fun job => job.algorithm.l3) loaded.job
    have reached : added.enter.benchSize ≠ 0 ∧ added.enter.benchSize ≤ added.enter.readNonces.nonces 0 := by
      rw [show added.enter.benchSize = bench.size from loaded.benchSize]
      exact ⟨bench.positive, spent.behind⟩
    change some (added.enter.innerStep (bench.config index) shared 0) = _
    rw [innerStep, if_neg (by rw [current]; decide), if_neg (not_not.mpr size), if_pos reached]
  refine ⟨added.enter.readNonces.at_ .finished, ?_⟩
  rw [← put_self state index]
  change run (step bench) (state.put index worker shared) _ = _
  rw [put_work inside (fun lane same => by rw [stage] at same; cases same) leaves,
    put_work inside (fun lane same => by cases same) consumes, put_work inside (fun lane same => by cases same) adds,
    put_work inside (fun lane same => by cases same) enters,
    put_work inside (fun lane same => by cases same) finishes, put_self]
  rfl

theorem Stands.switch {place waits : CpuStage} {counter earlier leading first other : Nat}
    (stands : Stands bench before index place counter leading state) (apart : other ≠ index)
    (waiting : Stands bench before other waits earlier first before) :
    Stands bench state other waits counter first state := by
  have kept := stands.others other apart
  refine ⟨stands.sound, fun _ _ => rfl, rfl, ?_, ?_, ?_, stands.counter, ?_, ?_⟩
  · rw [kept, waiting.stage]
  · rw [kept]
    exact waiting.loaded
  · rw [kept, waiting.sequence, stands.current]
  · rw [kept, waiting.first]
  · rw [kept]
    exact waiting.short

theorem Stands.owing {counter first lane : Nat}
    (stands : Stands bench before index (.reserving lane) counter first state)
    (inside : index < bench.threads) : ∃ nonce ∈ bench.nonces, nonce ∉ state.added.map Prod.fst := by
  have short := stands.short (by simp)
  refine ⟨(state.workers index).nonces 0, (bench.mem_nonces _).mpr short, ?_⟩
  have owes : (state.workers index).nonces 0 ∈ (state.workers index).owed bench (bench.config index).lanes := by
    unfold owed
    rw [stands.stage]
    refine List.mem_append_left _ (List.mem_map.mpr ⟨0, ?_, rfl⟩)
    exact List.mem_range.mpr (bench.config index).positive
  have debt : 0 < debts bench state.workers ((state.workers index).nonces 0) :=
    Nat.lt_of_lt_of_le (List.count_pos_iff.mpr owes)
      (Finset.single_le_sum (f := fun i => ((state.workers i).owed bench (bench.config i).lanes).count _)
        (fun _ _ => Nat.zero_le _) (Finset.mem_range.mpr inside))
  have counted := stands.sound.counts _ short
  rw [← List.count_eq_zero]
  split at counted <;> omega

end BenchRun

/-! ## A benchmark that is signalled too early -/

def longBlob : List Byte := List.replicate 4 0 ++ [0x10, 0x02] ++ List.replicate 106 0

/-- GhostRider with two threads, and a size that leaves eight nonces. -/
def longBench : Bench where
  job := { algorithm := .ghostriderRtm, blob := longBlob, target := 1, diff := BitVec.allOnes 64 }
  size := 0xFFFFFFF8
  intensities := [8, 8]
  positive := by decide
  sized := by decide
  known := by decide
  narrow := by decide
  open_ := rfl
  unsigned := rfl
  own := rfl
  unassigned := rfl

def longStart : BenchRun pairHasher := BenchRun.start longBench fun _ => []

/-- Each worker takes a nonce for every lane, the second one first. -/
def longOpening : List BenchEvent := .pause false :: works 1 15 ++ works 0 15

theorem longOpening_room :
    Guarded (BenchRun.step longBench) (fun state event => state.Room longBench event) longStart longOpening := by
  decide +kernel

theorem longOpening_run : (run (BenchRun.step longBench) longStart longOpening).isSome = true := by decide +kernel

def longOpened : BenchRun pairHasher := (run (BenchRun.step longBench) longStart longOpening).get longOpening_run

theorem longOpened_stands :
    BenchRun.Stands longBench longOpened 0 .inner 16 8 longOpened ∧
      BenchRun.Stands longBench longOpened 1 .inner 16 0 longOpened := by
  have executed : run (BenchRun.step longBench) longStart longOpening = some longOpened :=
    (Option.some_get longOpening_run).symm
  have fresh : longStart.Sound longBench := @BenchRun.start_sound pairHasher longBench (by decide) fun _ => []
  have sound : longOpened.Sound longBench :=
    run_invariant (fun _ _ _ sound allowed stepped => BenchRun.step_sound (by decide) sound allowed stepped) fresh
      longOpening_room executed
  have first : (longOpened.workers 0).Loaded longBench :=
    ⟨by decide +kernel, by decide +kernel, by decide +kernel, by decide +kernel⟩
  have second : (longOpened.workers 1).Loaded longBench :=
    ⟨by decide +kernel, by decide +kernel, by decide +kernel, by decide +kernel⟩
  refine ⟨⟨sound, fun _ _ => rfl, rfl, ?_, first, ?_, ?_, ?_, fun other => absurd rfl other⟩,
    ⟨sound, fun _ _ => rfl, rfl, ?_, second, ?_, ?_, ?_, fun other => absurd rfl other⟩⟩
  all_goals decide +kernel

def longResume : List BenchEvent := [.pause true, .touch, .pause false, .touch]

/-- The first worker goes through all nonces but the last eight and takes one of them for its first lane. The second one
takes the rest, and both are refused and go on when the miner is resumed. -/
def longEvents : List BenchEvent :=
  longOpening ++ ((List.replicate 536870909 (works 0 21)).flatten ++ (works 0 3 ++ (works 1 9 ++ (works 0 1 ++
    (works 1 1 ++ (longResume ++ (works 0 5 ++ works 1 5)))))))

theorem long_last_round :
    ∃ state, run (BenchRun.step longBench) longStart
        (longOpening ++ ((List.replicate 536870909 (works 0 21)).flatten ++ (works 0 3 ++ works 1 9))) = some state ∧
      (∃ before first, BenchRun.Stands longBench before 1 (.reserving 7) (2 ^ 32) first state ∧ 2 ^ 32 - 8 ≤ first) ∧
      (state.workers 0).stage = .reserving 1 ∧ BenchRun.Spent longBench (state.workers 0) ∧
      state.shared.nonce.sequence .cpu = 1 := by
  have direct : longBench.job.algorithm.family ≠ Algorithm.randomX := by decide
  obtain ⟨first, second⟩ := longOpened_stands
  obtain ⟨arrived, laps, last, below, reached⟩ :=
    first.laps (by decide) (by decide) direct (by decide) 536870909 (by decide)
  obtain ⟨begun, begins, taking⟩ := @BenchRun.Stands.begins _ _ _ _ _ _ _ reached (by decide) (by decide) direct below 0
    (by decide) (by decide)
  obtain ⟨final, follows, full⟩ := @BenchRun.Stands.begins _ _ _ _ _ _ _ (taking.switch (by decide) second) (by decide)
    (by decide) direct (by decide) 6 (by decide) (by decide)
  have kept := full.others 0 (by decide)
  refine ⟨final, ?_, ⟨begun, _, full, by decide⟩, ?_, ⟨?_, ?_⟩, ?_⟩
  · have opening : run (BenchRun.step longBench) longStart longOpening = some longOpened :=
      (Option.some_get longOpening_run).symm
    rw [run_append, opening, Option.bind_some, run_append]
    change (run (BenchRun.step longBench) longOpened
      (List.replicate 536870909 (works 0 (2 * (longBench.config 0).lanes + 5))).flatten).bind _ = _
    rw [laps, Option.bind_some, run_append]
    change (run (BenchRun.step longBench) arrived (works 0 (1 + 1 + 1 + 0))).bind _ = _
    rw [begins, Option.bind_some]
    exact follows
  · rw [kept, taking.stage]
  · rw [kept]
    exact taking.loaded
  · rw [kept, BitVec.le_def, taking.first]
    decide
  · rw [full.current, taking.current]
    decide +kernel

theorem long_waits {state : BenchRun pairHasher} (sound : state.Sound longBench)
    (going : ∀ index < 2, (state.workers index).stage ≠ .finished) :
    state.shared.remaining = 2 ∧ state.shared.sends = 0 := by
  have none : BenchRun.done longBench state.workers = 0 := by
    apply Finset.sum_eq_zero
    intro index inside
    exact if_neg (going index (Finset.mem_range.mp inside))
  constructor
  · apply BitVec.eq_of_toNat_eq
    have all := sound.remaining
    rw [none] at all
    exact all
  · rw [sound.sends, none]
    rfl

theorem long_retires {state : BenchRun pairHasher} (stages : ∀ index < 2, (state.workers index).stage = .leave)
    (spent : ∀ index < 2, BenchRun.Spent longBench (state.workers index)) (running : state.shared.nonce.paused = false)
    (sequence : state.shared.nonce.sequence .cpu ≠ 0)
    (offered : state.shared.job = longBench.job ∧ state.shared.benchSize = longBench.size)
    (waits : state.shared.remaining = 2 ∧ state.shared.sends = 0) :
    ∃ final, run (BenchRun.step longBench) state (works 0 5 ++ works 1 5) = some final ∧ final.shared.sends = 1 ∧
      final.added = state.added := by
  obtain ⟨first, retired⟩ :=
    @BenchRun.retire _ _ state 0 (by decide) (stages 0 (by decide)) (spent 0 (by decide)) running sequence offered
  let half := state.put 0 first state.shared.done
  have other : half.workers 1 = state.workers 1 := BenchRun.put_other _ (by decide) _ _
  obtain ⟨second, retiredToo⟩ := @BenchRun.retire _ _ half 1 (by decide) (other.symm ▸ stages 1 (by decide))
    (other.symm ▸ spent 1 (by decide)) running sequence offered
  refine ⟨half.put 1 second half.shared.done, ?_, ?_, rfl⟩
  · rw [run_append, retired]
    exact retiredToo
  · change (if state.shared.remaining - 1 - 1 = 0 then
      (if state.shared.remaining - 1 = 0 then state.shared.sends + 1 else state.shared.sends) + 1
      else if state.shared.remaining - 1 = 0 then state.shared.sends + 1 else state.shared.sends) = 1
    rw [waits.1, waits.2]
    decide

/-- The completion is signalled though nonces of the benchmark were never added. -/
theorem long_benchmark_loses :
    ∃ final, run (BenchRun.step longBench) longStart longEvents = some final ∧ final.shared.sends = 1 ∧
      (∃ nonce ∈ longBench.nonces, nonce ∉ final.added.map Prod.fst) ∧ ¬ longBench.Correct final := by
  obtain ⟨state, opening, ⟨before, leading, second, high⟩, stage, spent, sequence⟩ := long_last_round
  have late : BenchRun.Spent longBench (state.workers 1) := by
    refine ⟨second.loaded, ?_⟩
    rw [BitVec.le_def, second.first]
    exact high
  -- Both are refused, and the hashes of their rounds are not looked at.
  obtain ⟨first, refused, ordered, least, most⟩ :=
    BenchRun.refuse (by decide) stage (by decide) spent (Nat.le_of_eq second.counter.symm)
      (by rw [second.counter]; decide)
  rw [second.counter] at least most
  let middle := state.put 0 ((state.workers 0).at_ .leave) { state.shared with nonce := first }
  have other : middle.workers 1 = state.workers 1 := BenchRun.put_other _ (by decide) _ _
  obtain ⟨next, refusedToo, orderedToo, -, -⟩ :=
    @BenchRun.refuse _ _ middle 1 (by decide) 7 (other.symm ▸ second.stage) (by decide) (other.symm ▸ late) least
      (Nat.lt_of_le_of_lt most (by decide))
  let left := middle.put 1 ((middle.workers 1).at_ .leave) { middle.shared with nonce := next }
  let resumed : BenchRun pairHasher :=
    { left with shared := { left.shared with nonce := ((next.pause true).touch.pause false).touch } }
  have leaves : ∀ index < 2, resumed.workers index = (state.workers index).at_ .leave := by
    intro index inside
    obtain rfl | rfl : index = 0 ∨ index = 1 := by omega
    · exact (BenchRun.put_other _ (by decide) _ _).trans (BenchRun.put_here _ _ _ _)
    · exact (BenchRun.put_here _ _ _ _).trans (congrArg (fun worker => at_ worker .leave) other)
  have behind : ∀ index < 2, BenchRun.Spent longBench (state.workers index) := by
    intro index inside
    obtain rfl | rfl : index = 0 ∨ index = 1 := by omega
    · exact spent
    · exact late
  have again : resumed.shared.nonce.sequence .cpu ≠ 0 := by
    change next.sequence .cpu + 1 + 1 ≠ 0
    rw [orderedToo]
    change first.sequence .cpu + 1 + 1 ≠ 0
    rw [ordered, sequence]
    decide
  have waits := long_waits second.sound fun index inside => by
    obtain rfl | rfl : index = 0 ∨ index = 1 := by omega
    · rw [stage]
      exact fun same => by cases same
    · rw [second.stage]
      exact fun same => by cases same
  obtain ⟨final, retired, sent, kept⟩ := @long_retires resumed
    (fun index inside => leaves index inside ▸ rfl)
    (fun index inside => leaves index inside ▸
      ⟨(behind index inside).loaded.frame ⟨rfl, rfl, rfl, rfl, rfl⟩, (behind index inside).behind⟩)
    rfl again second.sound.offered waits
  have missing : ∃ nonce ∈ longBench.nonces, nonce ∉ final.added.map Prod.fst := by
    rw [kept]
    exact second.owing (by decide)
  refine ⟨final, ?_, sent, missing, ?_⟩
  · have whole : longEvents = longOpening ++ ((List.replicate 536870909 (works 0 21)).flatten ++
        (works 0 3 ++ works 1 9)) ++ (works 0 1 ++ (works 1 1 ++ (longResume ++ (works 0 5 ++ works 1 5)))) := by
      simp only [longEvents, List.append_assoc]
    rw [whole, run_append, opening, Option.bind_some, run_append, refused, Option.bind_some, run_append]
    change (run (BenchRun.step longBench) middle (works 1 1)).bind _ = _
    rw [refusedToo, Option.bind_some]
    exact retired
  · intro correct
    obtain ⟨nonce, listed, absent⟩ := missing
    exact absent ((correct.each sent).mem_iff.mpr listed)

end Xmrig
