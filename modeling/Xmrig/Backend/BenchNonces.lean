import Xmrig.Backend.BenchRun

/-! The nonces that a worker of a benchmark has to account for.

A nonce that was handed out is owed until its hash is added or it turns out to be behind the size. The owed nonces of
a worker are in its blobs, and in a round also among those it has read.
-/

set_option autoImplicit false

namespace Xmrig

open Foundation

namespace Bench
variable (bench : Bench)

theorem nonceSize : bench.job.nonceSize = 4 := CpuWorker.nonceSize_of_narrow bench.narrow

theorem nonceMask : bench.job.nonceMask = 0xFFFFFFFF := by
  unfold Job.nonceMask
  rw [bench.open_, bench.nonceSize]
  rfl

theorem field_eq (words : Nonce.Words) : (WorkerJob.field bench.job words).toNat = words.lo.toNat := by
  have := words.lo.isLt
  rw [WorkerJob.field, if_neg (by rw [bench.nonceSize]; decide), BitVec.toNat_setWidth]
  exact Nat.mod_eq_of_lt (by omega)

theorem space_eq : WorkerJob.space bench.job = 2 ^ 32 := by
  rw [WorkerJob.space, bench.nonceMask]
  rfl

/-- While nonces are left, the next one is handed out, and only the counter of the user's jobs goes on. -/
theorem next_of_room {slots : WorkerJob} (carries : slots.Carries bench.job) {nonce : Nonce}
    (room : (nonce.nonces userIndex).toNat < 2 ^ 32) (lane : Nat) :
    (slots.next nonce lane 1 fun _ => 0).granted = some (nonce.nonces userIndex) ∧
      ((slots.next nonce lane 1 fun _ => 0).nonce.nonces userIndex).toNat = (nonce.nonces userIndex).toNat + 1 := by
  have index : slots.index = userIndex := carries.index.trans bench.own
  have mask : slots.nonceMask = 0xFFFFFFFF := carries.mask.trans bench.nonceMask
  have first : (nonce.fetchAdd userIndex 1 (0 : BitVec 62)).1 = nonce.nonces userIndex := BitVec.add_zero _
  have fits : Nonce.Fits (Nonce.effective 0xFFFFFFFF) 1 (nonce.fetchAdd userIndex 1 (0 : BitVec 62)).1 := by
    rw [first]
    refine ⟨by decide, ?_, ?_⟩
    · change _ + 1 ≤ 2 ^ 32 - 1 + 1
      omega
    · change _ + 1 ≤ _
      omega
  have reply := @Nonce.next_of_fits nonce userIndex (slots.words lane) 1 0xFFFFFFFF (fun _ => 0)
    (bench.nonceMask ▸ Nonce.effective_nonceMask_low bench.job) fits
  rw [first] at reply
  simp only [WorkerJob.next, index, mask]
  refine ⟨reply.1, ?_⟩
  rw [reply.2, Nonce.fetchAdd_counter, first]
  exact Nonce.toNat_bump (show (nonce.nonces userIndex).toNat + 1 < 2 ^ 64 by omega)

theorem next_holds {slots : WorkerJob} (carries : slots.Carries bench.job) {nonce : Nonce}
    (room : (nonce.nonces userIndex).toNat < 2 ^ 32) {lane old : Nat} (holds : slots.Holds bench.job lane old) :
    (slots.next nonce lane 1 fun _ => 0).worker.Holds bench.job lane (nonce.nonces userIndex).toNat := by
  have written := WorkerJob.next_holds carries holds (bench.next_of_room carries room lane).1
  have small : old < 2 ^ 32 := by
    rw [← holds.value, bench.field_eq]
    exact (slots.words lane).lo.isLt
  rw [bench.space_eq, Nat.div_eq_of_lt small, Nat.zero_mul, Nat.zero_add] at written
  exact written

theorem job_ne : ({} : Job) ≠ bench.job := by
  intro same
  have room := bench.sized.nonce
  rw [← same] at room
  exact absurd room (by decide)

theorem lanes_of_randomX (index : Nat) (randomX : bench.job.algorithm.family = Algorithm.randomX) :
    (bench.config index).lanes = 1 := by
  have one : bench.job.algorithm.maxIntensity = 1 ∧ bench.job.algorithm.minIntensity = 1 := by
    revert randomX
    generalize bench.job.algorithm = algorithm
    cases algorithm <;> decide
  simp only [config, launchIntensity, one.1, one.2]
  omega

theorem lanes_of_ghostrider (index : Nat) (ghostrider : bench.job.algorithm.family = Algorithm.ghostrider) :
    (bench.config index).lanes = 8 := by
  have eight : bench.job.algorithm.maxIntensity = 8 ∧ bench.job.algorithm.minIntensity = 8 := by
    revert ghostrider
    generalize bench.job.algorithm = algorithm
    cases algorithm <;> decide
  simp only [config, launchIntensity, eight.1, eight.2]
  omega

theorem l3_ne : Algorithm.l3 ({} : Job).algorithm ≠ bench.job.algorithm.l3 := by
  have known := bench.known
  revert known
  generalize bench.job.algorithm = algorithm
  cases algorithm <;> decide

end Bench

namespace CpuWorker
variable {hasher : Hasher} (bench : Bench) (worker : CpuWorker hasher)

def held (lanes : Nat) : List (BitVec 32) := (List.range lanes).map fun lane => (worker.job.words lane).lo

def readFrom (lane lanes : Nat) : List (BitVec 32) := ((List.range lanes).drop lane).map worker.nonces

/-- The nonces that were handed out to a worker and are not settled yet. -/
def owed (lanes : Nat) : List (BitVec 32) :=
  match worker.stage with
  | .saving lane _ => worker.held lane
  | .round => worker.readFrom 0 lanes
  | .reserving lane => worker.readFrom 0 lanes ++ worker.held lane
  | .rounded => worker.readFrom 0 lanes ++ worker.held lanes
  | .checking lane => worker.readFrom lane lanes ++ worker.held lanes
  | _ => if worker.job.currentJob = bench.job then worker.held lanes else []

structure Fresh : Prop where
  index : worker.job.index = userIndex
  job : worker.job.currentJob = {}

/-- The slot in use is the benchmark's. -/
structure Loaded : Prop where
  index : worker.job.index = userIndex
  job : worker.job.currentJob = bench.job
  mask : worker.job.nonceMask = bench.job.nonceMask
  benchSize : worker.benchSize = bench.size

/-- The first lanes hold the benchmark's blob, but for the nonce. -/
def Blobs (lanes : Nat) : Prop :=
  ∀ lane < lanes, worker.job.Holds bench.job lane (worker.job.words lane).lo.toNat

/-- The nonces of the first lanes were handed out, the one of the first lane before the others. -/
def Ordered (lanes counter : Nat) : Prop :=
  ∀ lane < lanes, (worker.job.words 0).lo.toNat ≤ (worker.job.words lane).lo.toNat ∧
    (worker.job.words lane).lo.toNat < counter

/-- Between two rounds of a worker on the benchmark. -/
structure Full (lanes counter : Nat) : Prop where
  loaded : worker.Loaded bench
  blobs : worker.Blobs bench lanes
  ordered : worker.Ordered lanes counter

/-- The machine was begun with the blob of a nonce. -/
def BegunWith (nonce : BitVec 32) : Prop := hasher.Ready bench.job (bench.job.withNonce nonce) worker.machine

/-- The machine is free for a blob, or begun with the worker's own. -/
def Primed : Prop := worker.first = true ∨ (worker.isRandomX = true ∧ worker.BegunWith bench (worker.job.words 0).lo)

/-- The hashes are those of the nonces that were read. -/
def Hashed (lanes : Nat) : Prop :=
  ∀ lane < lanes, hashValue (worker.hashes lane) = bench.value hasher (worker.nonces lane)

/-- What holds of the hashes of a round until they are available. -/
def Pending (lanes : Nat) : Prop :=
  if worker.isRandomX then worker.BegunWith bench (worker.nonces 0) else worker.first = true ∧ worker.Hashed bench lanes

/-- What the loop knows of its nonces and hashes, by where it stands. -/
def Placed (lanes counter : Nat) : Prop :=
  match worker.stage with
  | .adding job _ => job = bench.job ∧ worker.benchSize = bench.size ∧ (worker.Fresh ∨ worker.Full bench lanes counter)
  | .saving lane _ => lane ≤ lanes ∧ worker.Full bench lane counter
  | .inner => worker.Fresh ∨ (worker.Full bench lanes counter ∧ worker.Primed bench)
  | .round | .rounded => worker.Full bench lanes counter ∧ worker.Pending bench lanes
  | .reserving lane => lane ≤ lanes ∧ worker.Loaded bench ∧ worker.Blobs bench lanes ∧ worker.Ordered lane counter ∧
      worker.Pending bench lanes
  | .checking _ => worker.Full bench lanes counter ∧ worker.Primed bench ∧ worker.Hashed bench lanes
  | .finished => worker.Full bench lanes counter ∧ bench.size ≤ (worker.job.words 0).lo
  | _ => worker.Fresh ∨ worker.Full bench lanes counter

section Lanes
variable {bench : Bench} {worker : CpuWorker hasher}

theorem Fresh.ne (fresh : worker.Fresh) : worker.job.currentJob ≠ bench.job := fresh.job ▸ bench.job_ne

theorem Loaded.carries (loaded : worker.Loaded bench) : worker.job.Carries bench.job where
  index := loaded.index.trans bench.own.symm
  size := by rw [loaded.job]
  algorithm := by rw [loaded.job]
  mask := loaded.mask

theorem input_eq (loaded : worker.Loaded bench) {lane : Nat}
    (holds : worker.job.Holds bench.job lane (worker.job.words lane).lo.toNat) :
    worker.input lane = bench.job.withNonce (worker.job.words lane).lo := by
  have narrow := bench.nonceSize
  have place := loaded.carries.nonce lane
  unfold input Job.withNonce
  rw [loaded.job]
  apply List.map_congr_left
  intro position inside
  have inside := List.mem_range.mp inside
  by_cases nonce : bench.job.nonceOffset ≤ position ∧ position < bench.job.nonceOffset + 4
  · have byte : ((worker.job.words lane).lo).extractLsb' (8 * (position - bench.job.nonceOffset)) 8 = _ :=
      Memory.extract_readWord (by omega)
    rw [place, Nat.add_assoc, Nat.add_sub_cancel' nonce.1] at byte
    rw [Memory.writeWord, if_pos nonce, byte]
  · rw [Memory.writeWord, if_neg nonce]
    exact holds.rest position inside (by omega)

/-! ## Frames -/

/-- The slots, their blobs and the size are those of before. -/
structure Keeps (worker after : CpuWorker hasher) : Prop where
  blobs : after.job.blobs = worker.job.blobs
  jobs : after.job.jobs = worker.job.jobs
  index : after.job.index = worker.job.index
  masks : after.job.nonceMasks = worker.job.nonceMasks
  benchSize : after.benchSize = worker.benchSize

variable {after : CpuWorker hasher} {lanes counter : Nat}

theorem Keeps.words (keeps : Keeps worker after) (lane : Nat) : after.job.words lane = worker.job.words lane := by
  simp only [WorkerJob.words, WorkerJob.blob, WorkerJob.nonce, WorkerJob.currentJob, keeps.blobs, keeps.jobs,
    keeps.index]

theorem Keeps.currentJob (keeps : Keeps worker after) : after.job.currentJob = worker.job.currentJob := by
  simp only [WorkerJob.currentJob, keeps.jobs, keeps.index]

theorem Keeps.held (keeps : Keeps worker after) (lanes : Nat) : after.held lanes = worker.held lanes := by
  simp only [CpuWorker.held, keeps.words]

theorem Keeps.isRandomX (keeps : Keeps worker after) : after.isRandomX = worker.isRandomX := by
  simp only [CpuWorker.isRandomX, keeps.currentJob]

theorem Fresh.frame (fresh : worker.Fresh) (keeps : Keeps worker after) : after.Fresh :=
  ⟨keeps.index.trans fresh.index, keeps.currentJob.trans fresh.job⟩

theorem Loaded.frame (loaded : worker.Loaded bench) (keeps : Keeps worker after) : after.Loaded bench where
  index := keeps.index.trans loaded.index
  job := keeps.currentJob.trans loaded.job
  mask := by rw [← loaded.mask, WorkerJob.nonceMask, WorkerJob.nonceMask, keeps.masks, keeps.index]
  benchSize := keeps.benchSize.trans loaded.benchSize

theorem Blobs.frame (blobs : worker.Blobs bench lanes) (keeps : Keeps worker after) : after.Blobs bench lanes := by
  intro lane inside
  have blob : after.job.blob = worker.job.blob := by
    simp only [WorkerJob.blob, keeps.blobs, keeps.index]
  rw [keeps.words]
  exact ⟨blob ▸ (blobs lane inside).rest, (keeps.words lane).symm ▸ (blobs lane inside).value⟩

theorem Ordered.frame (ordered : worker.Ordered lanes counter) (keeps : Keeps worker after) :
    after.Ordered lanes counter := by
  intro lane inside
  rw [keeps.words, keeps.words]
  exact ordered lane inside

theorem Ordered.mono {later : Nat} (ordered : worker.Ordered lanes counter) (more : counter ≤ later) :
    worker.Ordered lanes later :=
  fun lane inside => ⟨(ordered lane inside).1, Nat.lt_of_lt_of_le (ordered lane inside).2 more⟩

theorem Full.frame (full : worker.Full bench lanes counter) (keeps : Keeps worker after) :
    after.Full bench lanes counter :=
  ⟨full.loaded.frame keeps, full.blobs.frame keeps, full.ordered.frame keeps⟩

theorem Full.mono {later : Nat} (full : worker.Full bench lanes counter) (more : counter ≤ later) :
    worker.Full bench lanes later :=
  ⟨full.loaded, full.blobs, full.ordered.mono more⟩

theorem Placed.mono {later : Nat} (placed : worker.Placed bench lanes counter) (more : counter ≤ later) :
    worker.Placed bench lanes later := by
  unfold Placed at placed ⊢
  cases stage : worker.stage with
  | adding job resume =>
    simp only [stage] at placed ⊢
    exact ⟨placed.1, placed.2.1, placed.2.2.imp_right fun full => full.mono more⟩
  | saving lane resume =>
    simp only [stage] at placed ⊢
    exact ⟨placed.1, placed.2.mono more⟩
  | inner =>
    simp only [stage] at placed ⊢
    exact placed.imp_right fun full => ⟨full.1.mono more, full.2⟩
  | reserving lane =>
    simp only [stage] at placed ⊢
    obtain ⟨inside, loaded, blobs, ordered, pending⟩ := placed
    exact ⟨inside, loaded, blobs, ordered.mono more, pending⟩
  | round | rounded | checking | finished =>
    simp only [stage] at placed ⊢
    exact ⟨placed.1.mono more, placed.2⟩
  | outer | paused | consume | leave | stopped =>
    simp only [stage] at placed ⊢
    exact placed.imp_right fun full => full.mono more

theorem held_succ (worker : CpuWorker hasher) (lanes : Nat) :
    worker.held (lanes + 1) = worker.held lanes ++ [(worker.job.words lanes).lo] := by
  simp only [held, List.range_succ, List.map_append, List.map_cons, List.map_nil]

theorem readFrom_cons (worker : CpuWorker hasher) {lane lanes : Nat} (inside : lane < lanes) :
    worker.readFrom lane lanes = worker.nonces lane :: worker.readFrom (lane + 1) lanes := by
  unfold readFrom
  rw [List.drop_eq_getElem_cons (by simpa using inside), List.map_cons, List.getElem_range]

theorem readFrom_end (worker : CpuWorker hasher) {lane lanes : Nat} (outside : lanes ≤ lane) :
    worker.readFrom lane lanes = [] := by
  unfold readFrom
  rw [List.drop_eq_nil_of_le (by simpa using outside)]
  rfl

end Lanes

end CpuWorker

end Xmrig
