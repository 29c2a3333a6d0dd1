import Mathlib.Data.List.TakeWhile
import Xmrig.Base.Job
import Xmrig.Foundation.Run

/-! The queue in front of the RandomX dataset, `RxQueue`, and its background thread.

The mutex is held from one step to the next only inside a step, so a step is
everything a thread does between taking and releasing it. `storage->init` runs
without the mutex and is cut into the parts a reader could fall between. The
basic and the NUMA storage differ in how they allocate; here an allocation
succeeds or fails as the event says. The dataset is computed from a cache, which
is told the bytes of a seed only.
-/

set_option autoImplicit false

namespace Xmrig

open Foundation

structure RxSeed where
  algorithm : Algorithm := .invalid
  data : List Byte := []
  deriving DecidableEq, Repr

def Job.rxSeed (job : Job) : RxSeed := ⟨job.algorithm, job.seed⟩

/-- `filled` is what `randomx_init_cache` ran for: the bytes, and the configuration at the time. -/
structure RxCache where
  seed : List Byte := []
  filled : Option RxSeed := none
  deriving DecidableEq, Repr

/-- `algorithm` is the one that `RxAlgo::apply` was called with last. -/
def RxCache.init (cache : RxCache) (algorithm : Algorithm) (seed : List Byte) : RxCache :=
  if cache.seed = seed then cache else ⟨seed, some ⟨algorithm, seed⟩⟩

/-- `contents` is the seed of the cache that the dataset was computed from, while it is whole. -/
structure RxStorage where
  numa : Bool
  allocated : Bool := false
  ready : Bool := false
  seed : RxSeed := {}
  cache : RxCache := {}
  contents : Option RxSeed := none
  deriving DecidableEq, Repr

namespace RxStorage

def setSeed (storage : RxStorage) (seed : RxSeed) : RxStorage := { storage with ready := false, seed }

def isReady (storage : RxStorage) (seed : RxSeed) : Bool := storage.ready && storage.seed = seed

/-- The dataset behind the returned pointer; `none` is a null pointer. -/
def dataset (storage : RxStorage) (seed : RxSeed) : Option (Option RxSeed) :=
  if storage.isReady seed && storage.allocated then some storage.contents else none

/-- `RxDataset::init` up to the threads that overwrite the dataset. -/
def initCache (storage : RxStorage) : RxStorage :=
  { storage with cache := storage.cache.init storage.seed.algorithm storage.seed.data, contents := none }

def initDataset (storage : RxStorage) : RxStorage :=
  { storage with ready := true, contents := storage.cache.filled }

end RxStorage

structure RxQueueItem where
  seed : RxSeed
  nodeset : List Nat
  deriving DecidableEq, Repr

namespace RxQueue

inductive State where
  | idle | pending | shutdown
  deriving DecidableEq, Repr

/-- Where the background thread is: at the head of its loop, or inside
`storage->init` for an item, or behind it and about to take the mutex again. -/
inductive Phase where
  | head
  | taken (item : RxQueueItem)
  | seeded (item : RxQueueItem)
  | created (item : RxQueueItem)
  | filling (item : RxQueueItem)
  | returned (item : RxQueueItem)
  deriving DecidableEq, Repr

end RxQueue

open RxQueue in
/-- `async` is the wakeup that `m_async->send()` has left for the main loop. -/
structure RxQueue where
  storage : Option RxStorage := none
  seed : RxSeed := {}
  state : State := .idle
  queue : List RxQueueItem := []
  phase : Phase := .head
  async : Bool := false
  deriving DecidableEq, Repr

namespace RxQueue

def isReadyUnsafe (queue : RxQueue) (seed : RxSeed) : Bool :=
  match queue.storage with
  | none => false
  | some storage => storage.allocated && queue.state = .idle && queue.seed = seed

def isReady (queue : RxQueue) (seed : RxSeed) : Bool := queue.isReadyUnsafe seed

def dataset (queue : RxQueue) (seed : RxSeed) : Option (Option RxSeed) :=
  if queue.isReadyUnsafe seed then queue.storage.bind fun storage => storage.dataset seed else none

def openStorage (queue : RxQueue) (nodeset : List Nat) : RxStorage :=
  queue.storage.getD { numa := !nodeset.isEmpty }

def enqueue (queue : RxQueue) (seed : RxSeed) (nodeset : List Nat) : RxQueue :=
  let queue := { queue with storage := some (queue.openStorage nodeset) }
  if queue.state = .pending ∧ queue.seed = seed then queue
  else { queue with queue := queue.queue ++ [⟨seed, nodeset⟩], seed, state := .pending }

/-- The wakeup in the main loop; says whether `onDatasetReady` is called. -/
def onReady (queue : RxQueue) : Bool × RxQueue :=
  (queue.state = .idle, { queue with async := false })

/-- A step of `backgroundInit`. The flag is the outcome of an allocation. -/
def background (queue : RxQueue) (allocates : Bool) : Option RxQueue :=
  match queue.phase, queue.storage with
  | .head, _ =>
      if queue.state = .pending then
        -- The items before the last one are dropped.
        queue.queue.getLast?.map fun item => { queue with queue := [], phase := .taken item }
      else none
  | .taken item, some storage =>
      some { queue with storage := some (storage.setSeed item.seed), phase := .seeded item }
  | .seeded item, some storage =>
      if storage.allocated then some { queue with phase := .created item }
      else if allocates then
        some { queue with storage := some { storage with allocated := true }, phase := .created item }
      -- Without memory `init` comes back with the seed set and nothing computed.
      else some { queue with phase := .returned item }
  | .created item, some storage => some { queue with storage := some storage.initCache, phase := .filling item }
  | .filling item, some storage => some { queue with storage := some storage.initDataset, phase := .returned item }
  | .returned item, some _ =>
      -- The mutex was free during `init`, so there may be new items.
      if queue.state = .shutdown ∨ queue.queue ≠ [] then some { queue with phase := .head }
      else some { queue with seed := item.seed, state := .idle, async := true, phase := .head }
  | _, none => none

inductive Event where
  | enqueue (seed : RxSeed) (nodeset : List Nat)
  | background (allocates : Bool)
  | async
  | shutdown

/-- The destructor runs last on the main thread, so nothing is enqueued after it. -/
def step (queue : RxQueue) : Event → Option RxQueue
  | .enqueue seed nodeset =>
      if queue.state = .shutdown then none else some (queue.enqueue seed nodeset)
  | .background allocates => queue.background allocates
  | .async => if queue.async then some queue.onReady.2 else none
  | .shutdown => some { queue with state := .shutdown }

/-! ## The invariant -/

def Phase.item : Phase → Option RxQueueItem
  | .head => none
  | .taken item | .seeded item | .created item | .filling item | .returned item => some item

def outstanding (queue : RxQueue) : Option RxQueueItem := queue.queue.getLast?.or queue.phase.item

/-- A storage that has been initialised from a seed as far as its memory allows. -/
structure Initialised (storage : RxStorage) (seed : RxSeed) : Prop where
  named : storage.seed = seed
  whole : storage.allocated = true → storage.ready = true ∧ storage.contents = storage.cache.filled

/-- What the storage looks like while `init` is under way. -/
def Phase.Fits : Phase → RxStorage → Prop
  | .head, _ | .taken _, _ => True
  | .seeded item, storage => storage.seed = item.seed
  | .created item, storage | .filling item, storage =>
      storage.seed = item.seed ∧ storage.allocated = true
  | .returned item, storage => Initialised storage item.seed

/-- `latest` is the seed of the last `enqueue` call. -/
structure Inv (queue : RxQueue) (latest : Option RxSeed) : Prop where
  storage : queue.storage.isSome = latest.isSome
  phase : ∀ storage, queue.storage = some storage → queue.phase.Fits storage
  inside : queue.phase ≠ .head → queue.state ≠ .idle ∧ latest.isSome = true
  pending : queue.state = .pending →
    latest = some queue.seed ∧ ∃ item, queue.outstanding = some item ∧ item.seed = queue.seed
  idle : queue.state = .idle → queue.queue = [] ∧
    ∀ seed storage, latest = some seed → queue.storage = some storage →
      queue.seed = seed ∧ Initialised storage seed

/-- The seed of the last `enqueue` call after an event. -/
def Event.latest (event : Event) (before : Option RxSeed) : Option RxSeed :=
  match event with
  | .enqueue seed _ => some seed
  | _ => before

variable {queue after : RxQueue} {latest : Option RxSeed}

theorem init_inv : Inv {} none where
  storage := rfl
  phase _ none_ := by cases none_
  inside moved := absurd rfl moved
  pending waiting := by cases waiting
  idle _ := ⟨rfl, fun _ _ none_ => by cases none_⟩

theorem Inv.openStorage_fits (inv : queue.Inv latest) (nodeset : List Nat) :
    queue.phase.Fits (queue.openStorage nodeset) := by
  cases present : queue.storage with
  | some storage =>
    simp only [openStorage, present, Option.getD_some]
    exact inv.phase storage present
  | none =>
    by_cases start : queue.phase = .head
    · rw [start]
      trivial
    · have missing := inv.storage
      rw [present, (inv.inside start).2] at missing
      cases missing

theorem enqueue_inv (inv : queue.Inv latest) (seed : RxSeed) (nodeset : List Nat) :
    (queue.enqueue seed nodeset).Inv (some seed) := by
  have fits := inv.openStorage_fits nodeset
  simp only [enqueue]
  split
  · -- A request for the pending seed is dropped.
    rename_i dropped
    refine ⟨rfl, ?_, fun moved => ⟨(inv.inside moved).1, rfl⟩, ?_, ?_⟩
    · rintro storage ⟨⟩
      exact fits
    · intro waiting
      exact ⟨by rw [dropped.2], (inv.pending waiting).2⟩
    · intro idle
      rw [dropped.1] at idle
      cases idle
  · refine ⟨rfl, ?_, fun moved => ⟨by simp, rfl⟩, ?_, ?_⟩
    · rintro storage ⟨⟩
      exact fits
    · intro _
      exact ⟨rfl, ⟨seed, nodeset⟩, by simp [outstanding], rfl⟩
    · intro idle
      cases idle

theorem Inv.queued (inv : queue.Inv latest) (start : queue.phase = .head)
    (waiting : queue.state = .pending) :
    ∃ item, queue.queue.getLast? = some item ∧ item.seed = queue.seed := by
  obtain ⟨_, item, found, named⟩ := inv.pending waiting
  rw [outstanding, start, Phase.item, Option.or_none] at found
  exact ⟨item, found, named⟩

/-- A part of `init` that leaves the queue and its state alone. -/
theorem Inv.within (inv : queue.Inv latest) {storage : RxStorage} {phase : Phase}
    (moved : queue.phase ≠ .head) (item : phase.item = queue.phase.item) (fits : phase.Fits storage) :
    Inv { queue with storage := some storage, phase } latest := by
  obtain ⟨busy, known⟩ := inv.inside moved
  refine ⟨known.symm, ?_, fun _ => ⟨busy, known⟩, ?_, fun idle => absurd idle busy⟩
  · rintro _ ⟨⟩
    exact fits
  · intro waiting
    obtain ⟨same, last, found, named⟩ := inv.pending waiting
    exact ⟨same, last, by simpa only [outstanding, item] using found, named⟩

theorem finish_inv (inv : queue.Inv latest) {item : RxQueueItem} {storage : RxStorage}
    (present : queue.storage = some storage) (phase : queue.phase = .returned item)
    (continues : ¬ (queue.state = .shutdown ∨ queue.queue ≠ [])) :
    Inv { queue with seed := item.seed, state := .idle, async := true, phase := .head } latest := by
  have moved : queue.phase ≠ .head := by simp [phase]
  obtain ⟨busy, known⟩ := inv.inside moved
  have waiting : queue.state = .pending := by
    cases state : queue.state with
    | idle => exact absurd state busy
    | pending => rfl
    | shutdown => exact absurd (.inl state) continues
  have empty : queue.queue = [] := by
    by_contra filled
    exact continues (.inr filled)
  obtain ⟨same, last, found, named⟩ := inv.pending waiting
  rw [outstanding, empty, phase] at found
  cases found
  have fits := inv.phase storage present
  rw [phase] at fits
  refine ⟨inv.storage, fun _ _ => trivial, fun moved => absurd rfl moved, (fun pending => by cases pending),
    fun _ => ⟨empty, ?_⟩⟩
  intro seed other latestSeed found
  rw [same] at latestSeed
  cases latestSeed
  cases present.symm.trans found
  exact ⟨named, named ▸ fits⟩

theorem background_inv (inv : queue.Inv latest) {allocates : Bool}
    (stepped : queue.background allocates = some after) : after.Inv latest := by
  unfold background at stepped
  split at stepped
  · rename_i start
    split at stepped
    · rename_i waiting
      obtain ⟨item, last, rfl⟩ := Option.map_eq_some_iff.mp stepped
      obtain ⟨same, newest, found, named⟩ := inv.pending waiting
      refine ⟨inv.storage, fun _ _ => trivial, fun _ => ⟨by simp [waiting], by rw [same]; rfl⟩, ?_, ?_⟩
      · intro _
        rw [outstanding, last, Option.some_or] at found
        exact ⟨same, newest, found, named⟩
      · intro idle
        rw [waiting] at idle
        cases idle
    · cases stepped
  · rename_i item storage phase present
    cases stepped
    exact inv.within (by simp [phase]) (by rw [phase]; rfl) rfl
  · rename_i item storage phase present
    have fits := inv.phase storage present
    rw [phase] at fits
    have kept := fun next => @Inv.within _ _ inv storage next (by simp [phase])
    have moved := fun next => @Inv.within _ _ inv { storage with allocated := true } next
      (by simp [phase])
    rw [phase, ← present] at kept
    rw [phase] at moved
    split at stepped
    · rename_i allocated
      cases stepped
      exact kept (.created item) rfl ⟨fits, allocated⟩
    · rename_i missing
      split at stepped
      · cases stepped
        exact moved (.created item) rfl ⟨fits, rfl⟩
      · cases stepped
        exact kept (.returned item) rfl ⟨fits, fun allocated => absurd allocated missing⟩
  · rename_i item storage phase present
    have fits := inv.phase storage present
    rw [phase] at fits
    cases stepped
    exact inv.within (by simp [phase]) (by rw [phase]; rfl) fits
  · rename_i item storage phase present
    have fits := inv.phase storage present
    rw [phase] at fits
    cases stepped
    exact inv.within (by simp [phase]) (by rw [phase]; rfl)
      ⟨fits.1, fun _ => ⟨rfl, rfl⟩⟩
  · rename_i item storage phase present
    split at stepped
    · rename_i again
      cases stepped
      obtain ⟨busy, known⟩ := inv.inside (by simp [phase])
      refine ⟨inv.storage, fun _ _ => trivial, fun moved => absurd rfl moved, ?_,
        fun idle => absurd idle busy⟩
      intro waiting
      obtain ⟨same, last, found, named⟩ := inv.pending waiting
      obtain ⟨newest, filled⟩ : ∃ newest, queue.queue.getLast? = some newest := by
        rcases again with down | filled
        · exact absurd (down.symm.trans waiting) (by simp)
        · exact ⟨_, List.getLast?_eq_some_getLast filled⟩
      rw [outstanding, filled, Option.some_or] at found
      exact ⟨same, last, by rw [outstanding, filled, Option.some_or]; exact found, named⟩
    · rename_i continues
      cases stepped
      exact finish_inv inv present phase continues
  · cases stepped

theorem onReady_inv (inv : queue.Inv latest) : queue.onReady.2.Inv latest :=
  ⟨inv.storage, inv.phase, inv.inside, inv.pending, inv.idle⟩

theorem step_inv (inv : queue.Inv latest) {event : Event} (stepped : queue.step event = some after) :
    after.Inv (event.latest latest) := by
  cases event with
  | enqueue seed nodeset =>
    simp only [step] at stepped
    split at stepped
    · cases stepped
    · cases stepped
      exact enqueue_inv inv seed nodeset
  | background allocates => exact background_inv inv stepped
  | async =>
    simp only [step] at stepped
    split at stepped
    · cases stepped
      exact onReady_inv inv
    · cases stepped
  | shutdown =>
    cases stepped
    exact ⟨inv.storage, inv.phase, fun moved => ⟨by simp, (inv.inside moved).2⟩,
      (fun waiting => by cases waiting), (fun idle => by cases idle)⟩

/-! ## The cache -/

/-- The cache behind a list of initialisations, the newest first. -/
def cacheOf : List RxSeed → RxCache
  | [] => {}
  | seed :: earlier => (cacheOf earlier).init seed.algorithm seed.data

/-- The newest initialisations in a row that have the same bytes. -/
def row : List RxSeed → List RxSeed
  | [] => []
  | seed :: earlier => seed :: earlier.takeWhile fun other => other.data = seed.data

/-- Of the newest initialisations in a row with the same bytes, the oldest one was for the algorithm
of the newest. Empty bytes are those of a new cache, so other bytes have to come before them. -/
def Genuine (seeds : List RxSeed) : Prop :=
  ∀ seed ∈ seeds.head?, (row seeds).getLast?.map RxSeed.algorithm = some seed.algorithm ∧
    (seed.data = [] → row seeds ≠ seeds)

theorem cacheOf_seed (seeds : List RxSeed) : (cacheOf seeds).seed = (seeds.head?.map RxSeed.data).getD [] := by
  cases seeds with
  | nil => rfl
  | cons seed earlier =>
    simp only [cacheOf, RxCache.init, List.head?_cons, Option.map_some, Option.getD_some]
    split
    · assumption
    · rfl

theorem row_data {seeds : List RxSeed} {seed other : RxSeed} (head : seeds.head? = some seed)
    (member : other ∈ row seeds) : other.data = seed.data := by
  cases seeds with
  | nil => cases member
  | cons first earlier =>
    cases head
    rcases List.mem_cons.mp member with rfl | later
    · rfl
    · have same := @List.mem_takeWhile_imp _ (fun other : RxSeed => decide (other.data = seed.data)) _ _ later
      exact of_decide_eq_true same

theorem cacheOf_filled (seed : RxSeed) (earlier : List RxSeed) :
    (cacheOf (seed :: earlier)).filled =
      if seed.data = [] ∧ row (seed :: earlier) = seed :: earlier then none
      else (row (seed :: earlier)).getLast? := by
  induction earlier generalizing seed with
  | nil => by_cases empty : seed.data = [] <;> simp [cacheOf, RxCache.init, row, empty, eq_comm]
  | cons older rest ih =>
    by_cases same : older.data = seed.data
    · have kept : cacheOf (seed :: older :: rest) = cacheOf (older :: rest) :=
        if_pos ((cacheOf_seed (older :: rest)).trans same)
      have longer : row (seed :: older :: rest) = seed :: row (older :: rest) := by
        simp [row, same]
      rw [kept, ih, longer, same]
      simp [row]
    · have other : (cacheOf (older :: rest)).seed ≠ seed.data := by
        rw [cacheOf_seed]
        exact same
      have alone : row (seed :: older :: rest) = [seed] := by
        simp [row, same]
      rw [alone, cacheOf, RxCache.init, if_neg other]
      simp

/-- The cache was filled for the newest seed exactly if the row began with its algorithm. -/
theorem genuine_iff (seed : RxSeed) (earlier : List RxSeed) :
    Genuine (seed :: earlier) ↔ (cacheOf (seed :: earlier)).filled = some seed := by
  have oldest : ∃ first, (row (seed :: earlier)).getLast? = some first ∧ first.data = seed.data := by
    obtain ⟨first, found⟩ : ∃ first, (row (seed :: earlier)).getLast? = some first :=
      ⟨_, List.getLast?_eq_some_getLast (List.cons_ne_nil _ _)⟩
    exact ⟨first, found, row_data rfl (List.mem_of_getLast? found)⟩
  obtain ⟨first, found, bytes⟩ := oldest
  have equal : first = seed ↔ first.algorithm = seed.algorithm := by
    refine ⟨fun same => by rw [same], fun same => ?_⟩
    cases first
    cases seed
    simp_all
  rw [cacheOf_filled, Genuine]
  simp only [List.head?_cons, Option.mem_some_iff, forall_eq', found, Option.map_some, Option.some_inj]
  split
  · rename_i empty
    exact ⟨fun genuine => absurd empty.2 (genuine.2 empty.1), fun never => by cases never⟩
  · rename_i filled
    rw [Option.some_inj, equal]
    exact ⟨fun genuine => genuine.1, fun same => ⟨same, fun none_ whole => filled ⟨none_, whole⟩⟩⟩

/-- What the initialisations so far, the newest first, say about the storage. -/
structure Traced (queue : RxQueue) (seeds : List RxSeed) : Prop where
  cache : (queue.storage.getD { numa := false }).cache = cacheOf seeds
  allocated : seeds ≠ [] → ∃ storage, queue.storage = some storage ∧ storage.allocated = true
  last : ∀ storage, queue.storage = some storage → storage.allocated = true →
    (∀ item, queue.phase ≠ .seeded item ∧ queue.phase ≠ .created item) → seeds.head? = some storage.seed

/-- The initialisations behind an event: the cache is told when the storage has its memory. -/
def Event.initialised (event : Event) (queue : RxQueue) (before : List RxSeed) : List RxSeed :=
  match event, queue.phase with
  | .background _, .created item => item.seed :: before
  | _, _ => before

theorem enqueue_traced {seeds : List RxSeed} (traced : queue.Traced seeds) (seed : RxSeed) (nodeset : List Nat) :
    (queue.enqueue seed nodeset).Traced seeds := by
  have opened : Traced { queue with storage := some (queue.openStorage nodeset) } seeds := by
    cases present : queue.storage with
    | some storage =>
      simp only [openStorage, present, Option.getD_some]
      rw [← present]
      exact traced
    | none =>
      have empty : seeds = [] := by
        by_contra filled
        obtain ⟨storage, found, _⟩ := traced.allocated filled
        rw [present] at found
        cases found
      subst empty
      simp only [openStorage, present, Option.getD_none]
      refine ⟨rfl, fun filled => absurd rfl filled, ?_⟩
      rintro storage ⟨⟩ allocated
      cases allocated
  simp only [enqueue]
  split
  · exact opened
  · exact ⟨opened.cache, opened.allocated, opened.last⟩

theorem Traced.moved {seeds : List RxSeed} (traced : queue.Traced seeds) (same : after.storage = queue.storage)
    (outside : (∀ item, after.phase ≠ .seeded item ∧ after.phase ≠ .created item) →
      ∀ item, queue.phase ≠ .seeded item ∧ queue.phase ≠ .created item) : after.Traced seeds := by
  obtain ⟨cache, allocated, last⟩ := traced
  refine ⟨?_, ?_, ?_⟩
  · rw [same]
    exact cache
  · rw [same]
    exact allocated
  · rw [same]
    exact fun storage present whole settled => last storage present whole (outside settled)

theorem background_traced (inv : queue.Inv latest) {seeds : List RxSeed} (traced : queue.Traced seeds)
    {allocates : Bool} (stepped : queue.background allocates = some after) :
    after.Traced ((Event.background allocates).initialised queue seeds) := by
  unfold background at stepped
  split at stepped
  · rename_i start
    simp only [Event.initialised, start]
    split at stepped
    · obtain ⟨item, last, rfl⟩ := Option.map_eq_some_iff.mp stepped
      exact traced.moved rfl fun _ item => by simp [start]
    · cases stepped
  · rename_i item storage phase present
    simp only [Event.initialised, phase]
    cases stepped
    have cache := traced.cache
    rw [present] at cache
    refine ⟨cache, fun filled => ?_, fun _ _ _ settled => absurd rfl (settled item).1⟩
    obtain ⟨other, found, allocated⟩ := traced.allocated filled
    cases present.symm.trans found
    exact ⟨_, rfl, allocated⟩
  · rename_i item storage phase present
    simp only [Event.initialised, phase]
    have cache := traced.cache
    rw [present] at cache
    split at stepped
    · cases stepped
      refine ⟨traced.cache, traced.allocated, fun _ _ _ settled => absurd rfl (settled item).2⟩
    · rename_i missing
      have nothing : seeds = [] := by
        by_contra filled
        obtain ⟨other, found, allocated⟩ := traced.allocated filled
        cases present.symm.trans found
        exact missing allocated
      split at stepped
      · cases stepped
        exact ⟨cache, fun _ => ⟨_, rfl, rfl⟩, fun _ _ _ settled => absurd rfl (settled item).2⟩
      · cases stepped
        refine ⟨traced.cache, fun filled => absurd nothing filled, fun other found allocated => ?_⟩
        cases present.symm.trans found
        exact absurd allocated missing
  · -- The cache is told the bytes of the seed.
    rename_i item storage phase present
    have fits := inv.phase storage present
    have cache := traced.cache
    rw [phase] at fits
    rw [present, Option.getD_some] at cache
    simp only [Event.initialised, phase]
    cases stepped
    refine ⟨?_, fun _ => ⟨_, rfl, fits.2⟩, ?_⟩
    · simp only [Option.getD_some, RxStorage.initCache, cacheOf, cache, fits.1]
    · rintro _ ⟨⟩ _ _
      exact congrArg some fits.1.symm
  · rename_i item storage phase present
    have fits := inv.phase storage present
    have cache := traced.cache
    rw [phase] at fits
    rw [present] at cache
    simp only [Event.initialised, phase]
    cases stepped
    refine ⟨cache, fun _ => ⟨_, rfl, fits.2⟩, ?_⟩
    rintro _ ⟨⟩ allocated _
    exact traced.last storage present allocated fun other => by simp [phase]
  · rename_i item storage phase present
    simp only [Event.initialised, phase]
    split at stepped
    · cases stepped
      exact traced.moved rfl fun _ other => by simp [phase]
    · cases stepped
      exact traced.moved rfl fun _ other => by simp [phase]
  · cases stepped

/-! ## Whole runs -/

/-- The queue together with the seed of the last `enqueue` call and the initialisations so far, the
newest first. -/
structure Log where
  queue : RxQueue := {}
  latest : Option RxSeed := none
  initialised : List RxSeed := []
  deriving DecidableEq

def Log.step (log : Log) (event : Event) : Option Log :=
  (log.queue.step event).map fun queue =>
    ⟨queue, event.latest log.latest, event.initialised log.queue log.initialised⟩

structure Log.Inv (log : Log) : Prop where
  queue : log.queue.Inv log.latest
  traced : log.queue.Traced log.initialised

theorem Log.step_inv {log next : Log} {event : Event} (inv : log.Inv) (stepped : log.step event = some next) :
    next.Inv := by
  obtain ⟨queue, moved, rfl⟩ := Option.map_eq_some_iff.mp stepped
  refine ⟨RxQueue.step_inv inv.queue moved, ?_⟩
  have traced := inv.traced
  cases event with
  | enqueue seed nodeset =>
    simp only [RxQueue.step] at moved
    split at moved
    · cases moved
    · cases moved
      exact enqueue_traced traced seed nodeset
  | background allocates => exact background_traced inv.queue traced moved
  | async =>
    simp only [RxQueue.step] at moved
    split at moved
    · cases moved
      exact ⟨traced.cache, traced.allocated, traced.last⟩
    · cases moved
  | shutdown =>
    cases moved
    exact ⟨traced.cache, traced.allocated, traced.last⟩

theorem Log.run_inv {events : List Event} {final : Log} (executed : run Log.step {} events = some final) : final.Inv :=
  run_keeps (P := Log.Inv) (fun _ _ _ inv stepped => Log.step_inv inv stepped)
    ⟨init_inv, rfl, fun filled => absurd rfl filled, fun _ none_ => by cases none_⟩ executed

theorem Inv.ready (inv : queue.Inv latest) {seed : RxSeed} (ready : queue.isReady seed = true) :
    queue.phase = .head ∧ latest = some seed ∧ ∃ storage, queue.storage = some storage ∧
      storage.allocated = true ∧ Initialised storage seed := by
  unfold isReady isReadyUnsafe at ready
  split at ready
  · cases ready
  · rename_i storage present
    simp only [Bool.and_eq_true, decide_eq_true_eq] at ready
    obtain ⟨⟨allocated, idle⟩, same⟩ := ready
    have stopped : queue.phase = .head := by
      by_contra moved
      exact (inv.inside moved).1 idle
    obtain ⟨newest, known⟩ : ∃ newest, latest = some newest := by
      have both := inv.storage
      rw [present] at both
      exact Option.isSome_iff_exists.mp both.symm
    obtain ⟨named, initialised⟩ := (inv.idle idle).2 newest storage known present
    rw [same] at named
    exact ⟨stopped, named ▸ known, storage, present, allocated, named ▸ initialised⟩

theorem Inv.dataset (inv : queue.Inv latest) {seed : RxSeed} (ready : queue.isReady seed = true) :
    ∃ storage, queue.storage = some storage ∧ queue.dataset seed = some storage.contents := by
  obtain ⟨_, _, storage, present, allocated, initialised⟩ := inv.ready ready
  obtain ⟨filled, _⟩ := initialised.whole allocated
  rw [isReady] at ready
  refine ⟨storage, present, ?_⟩
  simp [RxQueue.dataset, ready, present, RxStorage.dataset, RxStorage.isReady, filled, initialised.named, allocated]

theorem dataset_of_not_ready {seed : RxSeed} (busy : queue.isReady seed ≠ true) : queue.dataset seed = none :=
  if_neg busy

def rank (queue : RxQueue) : Nat :=
  (if queue.queue = [] then 0 else 6) +
    match queue.phase with
    | .head => 0
    | .returned _ => 1
    | .filling _ => 2
    | .created _ => 3
    | .seeded _ => 4
    | .taken _ => 5

theorem background_rank (inv : queue.Inv latest) (waiting : queue.state = .pending)
    (allocates : Bool) :
    ∃ after, queue.background allocates = some after ∧
      (after.state = .idle ∨ (after.state = .pending ∧ after.rank < queue.rank)) := by
  have present : ∀ item, queue.phase.item = some item → ∃ storage, queue.storage = some storage := by
    intro item found
    have known := inv.storage
    rw [(inv.inside (fun start => by rw [start] at found; cases found)).2] at known
    exact Option.isSome_iff_exists.mp known
  cases phase : queue.phase with
  | head =>
    obtain ⟨item, last, _⟩ := inv.queued phase waiting
    have filled : queue.queue ≠ [] := by
      intro empty
      rw [empty] at last
      cases last
    refine ⟨{ queue with queue := [], phase := .taken item },
      by simp [background, phase, waiting, last], .inr ⟨waiting, ?_⟩⟩
    simp [rank, phase, filled]
  | taken item =>
    obtain ⟨storage, found⟩ := present item (by rw [phase]; rfl)
    simp only [background, phase, found]
    exact ⟨_, rfl, .inr ⟨waiting, by simp [rank, phase]⟩⟩
  | seeded item =>
    obtain ⟨storage, found⟩ := present item (by rw [phase]; rfl)
    simp only [background, phase, found]
    split
    · exact ⟨_, rfl, .inr ⟨waiting, by simp [rank, phase]⟩⟩
    · split
      · exact ⟨_, rfl, .inr ⟨waiting, by simp [rank, phase]⟩⟩
      · exact ⟨_, rfl, .inr ⟨waiting, by simp [rank, phase]⟩⟩
  | created item | filling item =>
    obtain ⟨storage, found⟩ := present item (by rw [phase]; rfl)
    simp only [background, phase, found]
    exact ⟨_, rfl, .inr ⟨waiting, by simp [rank, phase]⟩⟩
  | returned item =>
    obtain ⟨storage, found⟩ := present item (by rw [phase]; rfl)
    simp only [background, phase, found]
    split
    · exact ⟨_, rfl, .inr ⟨waiting, by simp [rank, phase]⟩⟩
    · exact ⟨_, rfl, .inl rfl⟩

/-- Left alone, the thread brings a pending queue to rest, whatever memory it gets. -/
theorem pending_settles (allocates : Bool) {log : Log} (inv : log.Inv)
    (waiting : log.queue.state = .pending) :
    ∃ steps final, run Log.step log (List.replicate steps (.background allocates)) = some final ∧
      final.queue.state = .idle ∧ final.latest = log.latest ∧ final.Inv := by
  induction bound : log.queue.rank using Nat.strongRecOn generalizing log with
  | ind bound_ ih =>
    obtain ⟨after, moved, progress⟩ := background_rank inv.queue waiting allocates
    obtain ⟨next, stepped, queue, latest⟩ : ∃ next, Log.step log (.background allocates) = some next ∧
        next.queue = after ∧ next.latest = log.latest := by
      simp only [Log.step, step, moved, Option.map_some]
      exact ⟨_, rfl, rfl, rfl⟩
    have kept := Log.step_inv inv stepped
    rw [← queue] at progress
    rcases progress with idle | ⟨again, smaller⟩
    · exact ⟨1, next, by simp [run, stepped], idle, latest, kept⟩
    · obtain ⟨steps, final, executed, idle, same, settled⟩ :=
        ih next.queue.rank (by omega) kept again rfl
      refine ⟨steps + 1, final, ?_, idle, same.trans latest, settled⟩
      rw [List.replicate_succ, run_cons_iff]
      exact ⟨_, stepped, executed⟩

/-- A dataset that is said to be ready was computed for the seed that it is asked for, with no
initialisation under way, and a queue at rest has initialised the storage for the latest request. -/
structure Truthful (log : Log) : Prop where
  ready : ∀ seed, log.queue.isReady seed = true →
    log.queue.phase = .head ∧ log.queue.dataset seed = some (some seed)
  idle : log.queue.state = .idle → ∀ seed, log.latest = some seed →
    ∃ storage, log.queue.storage = some storage ∧ log.queue.seed = seed ∧ storage.seed = seed ∧
      (storage.allocated = true → storage.contents = some seed)

theorem Inv.rest (inv : queue.Inv latest) (idle : queue.state = .idle) {seed : RxSeed} (known : latest = some seed) :
    ∃ storage, queue.storage = some storage ∧ queue.seed = seed ∧ Initialised storage seed := by
  obtain ⟨storage, present⟩ : ∃ storage, queue.storage = some storage := by
    have both := inv.storage
    rw [known] at both
    exact Option.isSome_iff_exists.mp both
  exact ⟨storage, present, (inv.idle idle).2 seed storage known present⟩

theorem Inv.stopped (inv : queue.Inv latest) (idle : queue.state = .idle) : queue.phase = .head := by
  by_contra moved
  exact (inv.inside moved).1 idle

/-- At rest with its memory, the newest initialisation was for the seed of the storage, and the
dataset is what the cache holds. -/
theorem Log.Inv.contents {log : Log} (inv : log.Inv) (idle : log.queue.state = .idle) {storage : RxStorage}
    (present : log.queue.storage = some storage) (allocated : storage.allocated = true) :
    ∃ earlier, log.initialised = storage.seed :: earlier ∧
      (storage.contents = some storage.seed ↔ Genuine log.initialised) := by
  have stopped := inv.queue.stopped idle
  have newest := inv.traced.last storage present allocated fun item => by simp [stopped]
  obtain ⟨earlier, seeds⟩ := List.head?_eq_some_iff.mp newest
  have cache := inv.traced.cache
  rw [present, Option.getD_some] at cache
  obtain ⟨seed, known⟩ : ∃ seed, log.latest = some seed := by
    have both := inv.queue.storage
    rw [present] at both
    exact Option.isSome_iff_exists.mp both.symm
  obtain ⟨other, found, _, initialised⟩ := inv.queue.rest idle known
  cases present.symm.trans found
  refine ⟨earlier, seeds, ?_⟩
  rw [(initialised.whole allocated).2, cache, seeds, genuine_iff]

theorem truthful_iff {log : Log} (inv : log.Inv) :
    Truthful log ↔ (log.queue.state = .idle → Genuine log.initialised) := by
  constructor
  · intro truthful idle
    cases seeds : log.initialised with
    | nil => exact fun _ member => by cases member
    | cons newest earlier =>
      obtain ⟨storage, present, allocated⟩ := inv.traced.allocated (by simp [seeds])
      obtain ⟨seed, known⟩ : ∃ seed, log.latest = some seed := by
        have both := inv.queue.storage
        rw [present] at both
        exact Option.isSome_iff_exists.mp both.symm
      obtain ⟨other, found, _, named, whole⟩ := truthful.idle idle seed known
      cases present.symm.trans found
      obtain ⟨_, _, exactly⟩ := inv.contents idle present allocated
      rw [← seeds]
      exact exactly.mp (by rw [named]; exact whole allocated)
  · intro genuine
    refine ⟨fun seed ready => ?_, fun idle seed known => ?_⟩
    · obtain ⟨stopped, known, storage, present, allocated, initialised⟩ := inv.queue.ready ready
      obtain ⟨other, found, dataset⟩ := inv.queue.dataset ready
      cases present.symm.trans found
      have idle : log.queue.state = .idle := by
        by_contra busy
        simp [isReady, isReadyUnsafe, present, busy] at ready
      obtain ⟨_, _, exactly⟩ := inv.contents idle present allocated
      refine ⟨stopped, ?_⟩
      rw [dataset, exactly.mpr (genuine idle), initialised.named]
    · obtain ⟨storage, present, same, initialised⟩ := inv.queue.rest idle known
      refine ⟨storage, present, same, initialised.named, fun allocated => ?_⟩
      obtain ⟨_, _, exactly⟩ := inv.contents idle present allocated
      rw [exactly.mpr (genuine idle), initialised.named]

/-- After every interleaving: readiness and the datasets that are handed out agree, the storage was
last initialised for the seed that is ready, with no initialisation under way, at rest that is the
latest request, and a request that is pending is brought to rest. What is computed belongs to the
seed exactly where the cache does. -/
theorem latest_request_wins {events : List Event} {final : Log} (executed : run Log.step {} events = some final) :
    (∀ seed, final.queue.isReady seed = true ↔ (final.queue.dataset seed).isSome = true) ∧
      (∀ seed, final.queue.isReady seed = true → final.queue.phase = .head ∧
        ∃ storage, final.queue.storage = some storage ∧ storage.seed = seed ∧
          final.initialised.head? = some seed) ∧
      (final.queue.state = .idle → ∀ seed, final.latest = some seed →
        ∃ storage, final.queue.storage = some storage ∧ final.queue.seed = seed ∧ storage.seed = seed) ∧
      (final.queue.state = .pending → ∀ allocates, ∃ steps settled,
        run Log.step final (List.replicate steps (.background allocates)) = some settled ∧
          settled.queue.state = .idle ∧ settled.latest = final.latest) ∧
      (Truthful final ↔ (final.queue.state = .idle → Genuine final.initialised)) := by
  have inv := Log.run_inv executed
  refine ⟨?_, ?_, ?_, ?_, truthful_iff inv⟩
  · intro seed
    by_cases ready : final.queue.isReady seed = true
    · obtain ⟨storage, _, dataset⟩ := inv.queue.dataset ready
      simp [ready, dataset]
    · simp [ready, dataset_of_not_ready ready]
  · intro seed ready
    obtain ⟨stopped, _, storage, present, allocated, initialised⟩ := inv.queue.ready ready
    have newest := inv.traced.last storage present allocated fun item => by simp [stopped]
    rw [initialised.named] at newest
    exact ⟨stopped, storage, present, initialised.named, newest⟩
  · intro idle seed known
    obtain ⟨storage, present, same, initialised⟩ := inv.queue.rest idle known
    exact ⟨storage, present, same, initialised.named⟩
  · intro waiting allocates
    obtain ⟨steps, settled, moved, idle, same, _⟩ := pending_settles allocates inv waiting
    exact ⟨steps, settled, moved, idle, same⟩

def supersededEvents : List Event :=
  [.enqueue ⟨.rx0, [1]⟩ [], .background true, .background true, .enqueue ⟨.rx0, [2]⟩ []] ++
    List.replicate 10 (.background true)

theorem supersededEvents_runs : (run Log.step {} supersededEvents).isSome = true := by decide

theorem latest_request_wins_superseded :
    ∃ final, run Log.step {} supersededEvents = some final ∧ final.queue.state = .idle ∧
      final.initialised = [⟨.rx0, [2]⟩, ⟨.rx0, [1]⟩] ∧ Truthful final := by
  have executed := (Option.some_get supersededEvents_runs).symm
  have seeds : ((run Log.step {} supersededEvents).get supersededEvents_runs).initialised =
      [⟨.rx0, [2]⟩, ⟨.rx0, [1]⟩] := by
    decide
  refine ⟨_, executed, by decide, seeds, (latest_request_wins executed).2.2.2.2.mpr fun _ => ?_⟩
  rw [seeds, genuine_iff]
  decide

def commonSeed : List Byte := List.replicate 32 0xAB

/-- The second request has another algorithm and the bytes of the first. -/
def repeatedEvents : List Event :=
  .enqueue ⟨.rx0, commonSeed⟩ [] :: List.replicate 6 (.background true) ++
    .enqueue ⟨.rxWow, commonSeed⟩ [] :: List.replicate 6 (.background true)

theorem repeatedEvents_runs : (run Log.step {} repeatedEvents).isSome = true := by decide

/-- The dataset that is handed out for the second algorithm comes from the cache of the first. -/
theorem repeated_bytes_keep_cache :
    ∃ events final, run Log.step {} events = some final ∧
      final.queue.isReady ⟨.rxWow, commonSeed⟩ = true ∧
      final.queue.dataset ⟨.rxWow, commonSeed⟩ = some (some ⟨.rx0, commonSeed⟩) ∧ ¬Truthful final := by
  have dataset : ((run Log.step {} repeatedEvents).get repeatedEvents_runs).queue.dataset ⟨.rxWow, commonSeed⟩ =
      some (some ⟨.rx0, commonSeed⟩) := by
    decide
  have ready : ((run Log.step {} repeatedEvents).get repeatedEvents_runs).queue.isReady ⟨.rxWow, commonSeed⟩ =
      true := by
    decide
  refine ⟨repeatedEvents, _, (Option.some_get repeatedEvents_runs).symm, ready, dataset, fun truthful => ?_⟩
  have same := dataset.symm.trans (truthful.ready _ ready).2
  revert same
  decide

end RxQueue

end Xmrig
