import Mathlib.Data.List.Count
import Mathlib.Data.Nat.Bitwise
import Mathlib.Logic.Function.Basic
import Xmrig.Foundation.Block
import Xmrig.Foundation.Run

/-! Memory from the pools of `VirtualMemory`, and scratchpads from the tail of a RandomX dataset.

Addresses and sizes are numbers, with the wraparound of `size_t` written out
where the code computes sizes; address 0 is the null pointer. What the system's
allocators return is part of an event. `MemoryPool` and `NUMAMemoryPool` are one
definition: a single pool is the one under key 0.
-/

set_option autoImplicit false

namespace Xmrig

open Foundation

namespace VirtualMemory

/-- `VirtualMemory::align`. -/
def align (position step : Nat) : Nat := ((position + 2 ^ 64 - 1) % 2 ^ 64 / step + 1) * step % 2 ^ 64

def defaultHugePageSize : Nat := 2 * 1024 * 1024

def oneGiB : Nat := 1024 * 1024 * 1024

end VirtualMemory

/-- A `VirtualMemory` object; `external` memory belongs to a pool. -/
structure VirtualMemory where
  size : Nat
  node : Nat
  capacity : Nat
  scratchpad : Nat := 0
  isHugePages : Bool := false
  isOneGbPages : Bool := false
  external : Bool := false
  deriving DecidableEq, Repr

/-- What the system's allocators return to one constructor call. -/
structure SystemReply where
  oneGb : Nat := 0
  large : Nat := 0
  plain : Nat := 0

namespace VirtualMemory

def block (memory : VirtualMemory) : Block := ⟨memory.scratchpad, memory.size⟩

def blank (hugePageSize size node : Nat) : VirtualMemory :=
  ⟨align size hugePageSize, node, align size hugePageSize, 0, false, false, false⟩

def allocate (hugePageSize size : Nat) (hugePages oneGbPages : Bool) (node : Nat) (reply : SystemReply) :
    VirtualMemory :=
  let memory := blank hugePageSize size node
  if oneGbPages = true ∧ reply.oneGb ≠ 0 then
    { memory with scratchpad := reply.oneGb, isOneGbPages := true, capacity := align size oneGiB }
  else if hugePages = true ∧ reply.large ≠ 0 then { memory with scratchpad := reply.large, isHugePages := true }
  else { memory with scratchpad := reply.plain }

end VirtualMemory

/-! ## Pools -/

structure MemoryPool where
  memory : Option VirtualMemory := none
  alignOffset : Nat := 0
  offset : Nat := 0
  refs : Nat := 0

namespace MemoryPool

def pageSize : Nat := 2 * 1024 * 1024

def alignment : Nat := 1 <<< 24

def create (hugePageSize size : Nat) (hugePages : Bool) (node : Nat) (reply : SystemReply) : MemoryPool :=
  if size = 0 then {}
  else
    let memory := VirtualMemory.allocate hugePageSize ((size * pageSize + alignment) % 2 ^ 64) hugePages false node reply
    { memory := some memory, alignOffset := (alignment - memory.scratchpad % alignment) % alignment }

def isHugePages (pool : MemoryPool) : Bool := pool.memory.elim false VirtualMemory.isHugePages

/-- What is left, as `get` computes it. -/
def left (pool : MemoryPool) (memory : VirtualMemory) : Nat :=
  (memory.size + 2 ^ 64 - pool.offset + 2 ^ 64 - pool.alignOffset) % 2 ^ 64

/-- The address, 0 if there is none, and the pool behind the call. -/
def get (pool : MemoryPool) (size : Nat) : Nat × MemoryPool :=
  match pool.memory with
  | none => (0, pool)
  | some memory =>
    if pool.left memory < size then (0, pool)
    else
      (memory.scratchpad + pool.alignOffset + pool.offset,
        { pool with offset := pool.offset + size, refs := pool.refs + 1 })

def release (pool : MemoryPool) : MemoryPool :=
  { pool with refs := pool.refs - 1, offset := if pool.refs - 1 = 0 then 0 else pool.offset }

end MemoryPool

/-! ## Scratchpads of a dataset -/

namespace RxDataset

/-- `RANDOMX_DATASET_MAX_SIZE`. -/
def maxSize : Nat := 2181038080

/-- `RANDOMX_CACHE_MAX_SIZE`. -/
def cacheSize : Nat := 268435456

/-- `RANDOMX_SCRATCHPAD_L3_MAX_SIZE`. -/
def scratchpadSize : Nat := 2097152

end RxDataset

/-- A dataset with the offsets of the scratchpads that were taken from its memory. -/
structure RxDataset where
  memory : Option VirtualMemory := none
  scratchpadOffset : Nat := 0
  scratchpadLimit : Nat := 0
  taken : List Nat := []

namespace RxDataset

/-- The constructor; `disabled` is the light mode or too little memory. -/
def create (hugePageSize : Nat) (disabled hugePages oneGbPages : Bool) (node : Nat) (reply : SystemReply) : RxDataset :=
  if disabled then {}
  else
    let memory := VirtualMemory.allocate hugePageSize maxSize hugePages oneGbPages node reply
    if memory.isOneGbPages then
      { memory := some memory, scratchpadOffset := maxSize + cacheSize, scratchpadLimit := memory.capacity }
    else { memory := some memory }

def raw (dataset : RxDataset) : Nat := dataset.memory.elim 0 VirtualMemory.scratchpad

def isOneGbPages (dataset : RxDataset) : Bool := dataset.memory.elim false VirtualMemory.isOneGbPages

def tryAllocateScrathpad (dataset : RxDataset) : RxDataset :=
  if dataset.raw = 0 then dataset
  else
    let offset := dataset.scratchpadOffset
    { dataset with
      scratchpadOffset := (offset + scratchpadSize) % 2 ^ 64
      taken := if (offset + scratchpadSize) % 2 ^ 64 > dataset.scratchpadLimit then dataset.taken
        else offset :: dataset.taken }

def items (dataset : RxDataset) : Block := ⟨dataset.raw, maxSize⟩

def cache (dataset : RxDataset) : Block :=
  ⟨dataset.raw + VirtualMemory.align maxSize VirtualMemory.defaultHugePageSize, cacheSize⟩

def scratchpad (dataset : RxDataset) (offset : Nat) : Block := ⟨dataset.raw + offset, scratchpadSize⟩

end RxDataset

/-! ## All memory -/

/-- The pool with its parameters, the live objects, last first, and the datasets. -/
structure MemorySystem where
  hugePageSize : Nat
  nodes : Nat
  poolSize : Nat
  hugePages : Bool
  pools : Nat → Option MemoryPool := fun _ => none
  owners : List VirtualMemory := []
  datasets : List RxDataset := []

/-- The arguments of a constructor call, and what the system returns: to a pool that has to be
made, to the attempt in front of the pool, and to the others. -/
structure MemoryRequest where
  size : Nat
  hugePages : Bool
  oneGbPages : Bool
  usePool : Bool
  node : Nat
  pool : SystemReply := {}
  early : Nat := 0
  reply : SystemReply := {}

inductive MemoryEvent where
  | construct (request : MemoryRequest)
  | destroy (index : Nat)
  | dataset (disabled hugePages oneGbPages : Bool) (node : Nat) (reply : SystemReply)
  | scratchpad (index : Nat)

namespace MemorySystem

def key (system : MemorySystem) (node : Nat) : Nat := if 1 < system.nodes then node else 0

/-- `m_nodeSize`, or the size of the only pool. -/
def nodeSize (system : MemorySystem) : Nat :=
  if 1 < system.nodes then max (system.poolSize / system.nodes) 1 else system.poolSize

def setPool (system : MemorySystem) (key : Nat) (pool : MemoryPool) : MemorySystem :=
  { system with pools := Function.update system.pools key (some pool) }

/-- The pool of a node has not been made yet. -/
def Missing (system : MemorySystem) (node : Nat) : Prop :=
  system.pools (system.key node) = none ∧ ¬ (1 < system.nodes ∧ system.poolSize = 0)

instance decidableMissing (system : MemorySystem) (node : Nat) : Decidable (system.Missing node) :=
  match found : system.pools (system.key node) with
  | none => decidable_of_iff (¬ (1 < system.nodes ∧ system.poolSize = 0)) (by rw [Missing, found]; simp)
  | some pool => .isFalse fun missing => by rw [Missing, found] at missing; cases missing.1

def newPool (system : MemorySystem) (node : Nat) (reply : SystemReply) : MemoryPool :=
  MemoryPool.create system.hugePageSize system.nodeSize system.hugePages node reply

def getOrCreate (system : MemorySystem) (node : Nat) (reply : SystemReply) : MemorySystem :=
  if system.Missing node then system.setPool (system.key node) (system.newPool node reply) else system

def poolHugePages (system : MemorySystem) (node : Nat) : Bool :=
  (system.pools (system.key node)).elim false MemoryPool.isHugePages

/-- `pool->get(size, node)`. -/
def get (system : MemorySystem) (size node : Nat) : Nat × MemorySystem :=
  match system.pools (system.key node) with
  | none => (0, system)
  | some pool => ((pool.get size).1, system.setPool (system.key node) (pool.get size).2)

def release (system : MemorySystem) (node : Nat) : MemorySystem :=
  match system.pools (system.key node) with
  | none => system
  | some pool => system.setPool (system.key node) pool.release

def push (system : MemorySystem) (memory : VirtualMemory) : MemorySystem :=
  { system with owners := memory :: system.owners }

def allocate (system : MemorySystem) (request : MemoryRequest) : MemorySystem :=
  system.push (VirtualMemory.allocate system.hugePageSize request.size request.hugePages request.oneGbPages request.node
    request.reply)

/-- The part of the constructor under the lock, for a pool that exists. -/
def allocatePooled (system : MemorySystem) (request : MemoryRequest) : MemorySystem :=
  let memory := VirtualMemory.blank system.hugePageSize request.size request.node
  if request.hugePages = true ∧ system.poolHugePages request.node = false ∧ request.early ≠ 0 then
    system.push { memory with scratchpad := request.early, isHugePages := true }
  else
    let found := system.get memory.size request.node
    if found.1 ≠ 0 then
      found.2.push
        { memory with scratchpad := found.1, isHugePages := system.poolHugePages request.node, external := true }
    else found.2.allocate request

def construct (system : MemorySystem) (request : MemoryRequest) : MemorySystem :=
  if request.usePool then (system.getOrCreate request.node request.pool).allocatePooled request
  else system.allocate request

def destroy (system : MemorySystem) (memory : VirtualMemory) (index : Nat) : MemorySystem :=
  let system := { system with owners := system.owners.eraseIdx index }
  if memory.external then system.release memory.node else system

def step (system : MemorySystem) : MemoryEvent → Option MemorySystem
  | .construct request => some (system.construct request)
  | .destroy index => (system.owners[index]?).map fun memory => system.destroy memory index
  | .dataset disabled hugePages oneGbPages node reply =>
    let dataset := RxDataset.create system.hugePageSize disabled hugePages oneGbPages node reply
    some { system with datasets := dataset :: system.datasets }
  | .scratchpad index => some { system with datasets := system.datasets.modify index RxDataset.tryAllocateScrathpad }

/-- `VirtualMemory::init`; a pool for each node is made when it is asked for. -/
def init (nodes poolSize hugePageSize : Nat) (reply : SystemReply) : MemorySystem :=
  let system : MemorySystem :=
    { hugePageSize := if hugePageSize ≠ 0 then hugePageSize else VirtualMemory.defaultHugePageSize
      nodes
      poolSize := if 1 < nodes then VirtualMemory.align poolSize nodes else poolSize
      hugePages := decide (0 < hugePageSize) }
  if 1 < nodes then system else system.getOrCreate 0 reply

/-- New memory of a pool is apart from that of the other pools. -/
def Fresh (system : MemorySystem) (memory : VirtualMemory) : Prop :=
  ∀ key pool other, system.pools key = some pool → pool.memory = some other →
    Block.Disjoint memory.block other.block

/-- The system has memory for every pool that is made, and gives none of it out twice; the counter
of a dataset does not come around. -/
def mayStep (system : MemorySystem) : MemoryEvent → Prop
  | .construct request => request.usePool = true → system.Missing request.node →
      ∀ memory, (system.newPool request.node request.pool).memory = some memory →
        memory.scratchpad ≠ 0 ∧ system.Fresh memory
  | .scratchpad index => ∀ dataset, system.datasets[index]? = some dataset →
      dataset.scratchpadOffset + RxDataset.scratchpadSize < 2 ^ 64
  | _ => True

end MemorySystem

/-! ## Alignment -/

namespace VirtualMemory

theorem align_le (position : Nat) {step : Nat} (positive : 0 < step) : align position step ≤ position + step := by
  unfold align
  by_cases zero : position = 0
  · subst zero
    have floor := Nat.div_mul_le_self (2 ^ 64 - 1) step
    have above := Nat.lt_div_mul_add positive (a := 2 ^ 64 - 1)
    rw [show (0 + 2 ^ 64 - 1) % 2 ^ 64 = 2 ^ 64 - 1 from rfl, Nat.add_mul, Nat.one_mul]
    by_cases large : 2 ^ 64 ≤ step
    · exact Nat.le_trans (Nat.le_of_lt (Nat.mod_lt _ (by decide))) (by omega)
    · omega
  · have floor := Nat.div_mul_le_self ((position + 2 ^ 64 - 1) % 2 ^ 64) step
    have small : (position + 2 ^ 64 - 1) % 2 ^ 64 ≤ position - 1 := by
      rw [show position + 2 ^ 64 - 1 = position - 1 + 2 ^ 64 by omega, Nat.add_mod_right]
      exact Nat.mod_le _ _
    refine Nat.le_trans (Nat.mod_le _ _) ?_
    rw [Nat.add_mul, Nat.one_mul]
    omega

theorem le_align {position step : Nat} (positive : 0 < step) (some_ : 0 < position)
    (small : position + step ≤ 2 ^ 64) : position ≤ align position step := by
  have above := Nat.lt_div_mul_add positive (a := position - 1)
  have floor := Nat.div_mul_le_self (position - 1) step
  unfold align
  rw [show position + 2 ^ 64 - 1 = position - 1 + 2 ^ 64 by omega, Nat.add_mod_right,
    Nat.mod_eq_of_lt (show position - 1 < 2 ^ 64 by omega), Nat.add_mul, Nat.one_mul,
    Nat.mod_eq_of_lt (by omega)]
  omega

@[simp] theorem allocate_size (hugePageSize size : Nat) (hugePages oneGbPages : Bool) (node : Nat)
    (reply : SystemReply) :
    (allocate hugePageSize size hugePages oneGbPages node reply).size = align size hugePageSize := by
  simp only [allocate]
  repeat' split
  all_goals rfl

@[simp] theorem allocate_external (hugePageSize size : Nat) (hugePages oneGbPages : Bool) (node : Nat)
    (reply : SystemReply) :
    (allocate hugePageSize size hugePages oneGbPages node reply).external = false := by
  simp only [allocate]
  repeat' split
  all_goals rfl

end VirtualMemory

/-! ## Scratchpads are apart -/

namespace RxDataset

/-- Scratchpads lie behind the cache, in the order in which they were taken. -/
structure Sound (dataset : RxDataset) : Prop where
  low : dataset.scratchpadLimit ≠ 0 → maxSize + cacheSize ≤ dataset.scratchpadOffset
  limit : ∀ memory, dataset.memory = some memory → dataset.scratchpadLimit ≤ memory.capacity
  taken : ∀ offset ∈ dataset.taken, maxSize + cacheSize ≤ offset ∧
    offset + scratchpadSize ≤ dataset.scratchpadOffset ∧ offset + scratchpadSize ≤ dataset.scratchpadLimit
  sorted : dataset.taken.Pairwise fun later earlier => earlier + scratchpadSize ≤ later

theorem create_sound (hugePageSize : Nat) (disabled hugePages oneGbPages : Bool) (node : Nat) (reply : SystemReply) :
    (create hugePageSize disabled hugePages oneGbPages node reply).Sound := by
  simp only [create]
  split
  · exact ⟨fun limit => absurd rfl limit, fun memory _ => Nat.zero_le _, by simp, .nil⟩
  · split
    · refine ⟨fun _ => Nat.le_refl _, fun memory same => ?_, by simp, .nil⟩
      cases same
      exact Nat.le_refl _
    · exact ⟨fun limit => absurd rfl limit, fun memory _ => Nat.zero_le _, by simp, .nil⟩

theorem tryAllocateScrathpad_sound {dataset : RxDataset} (sound : dataset.Sound)
    (small : dataset.scratchpadOffset + scratchpadSize < 2 ^ 64) : dataset.tryAllocateScrathpad.Sound := by
  simp only [tryAllocateScrathpad]
  split
  · exact sound
  · rw [Nat.mod_eq_of_lt small]
    have higher : dataset.scratchpadOffset ≤ dataset.scratchpadOffset + scratchpadSize := Nat.le_add_right _ _
    by_cases full : dataset.scratchpadOffset + scratchpadSize > dataset.scratchpadLimit
    · rw [if_pos full]
      refine ⟨fun limit => Nat.le_trans (sound.low limit) higher, sound.limit, ?_, sound.sorted⟩
      intro offset member
      have bounds := sound.taken offset member
      exact ⟨bounds.1, Nat.le_trans bounds.2.1 higher, bounds.2.2⟩
    · rw [if_neg full]
      have nonzero : dataset.scratchpadLimit ≠ 0 := by
        simp only [scratchpadSize] at full
        omega
      have behind := sound.low nonzero
      refine ⟨fun limit => Nat.le_trans (sound.low limit) higher, sound.limit, ?_, ?_⟩
      · intro offset member
        rcases List.mem_cons.mp member with rfl | old
        · exact ⟨behind, Nat.le_refl _, Nat.le_of_not_lt full⟩
        · have bounds := sound.taken offset old
          exact ⟨bounds.1, Nat.le_trans bounds.2.1 higher, bounds.2.2⟩
      · exact List.pairwise_cons.mpr ⟨fun offset old => (sound.taken offset old).2.1, sound.sorted⟩

/-- The scratchpads lie in the pages of the dataset and overlap neither the dataset nor the cache
nor each other. -/
structure Apart (dataset : RxDataset) : Prop where
  inside : ∀ memory, dataset.memory = some memory → ∀ offset ∈ dataset.taken,
    offset + scratchpadSize ≤ memory.capacity
  items : ∀ offset ∈ dataset.taken, Block.Disjoint dataset.items (dataset.scratchpad offset)
  cache : ∀ offset ∈ dataset.taken, Block.Disjoint dataset.cache (dataset.scratchpad offset)
  each : dataset.taken.Pairwise fun first second =>
    Block.Disjoint (dataset.scratchpad first) (dataset.scratchpad second)

theorem Sound.apart {dataset : RxDataset} (sound : dataset.Sound) : dataset.Apart where
  inside memory found offset member := Nat.le_trans (sound.taken offset member).2.2 (sound.limit memory found)
  items offset member := by
    have behind := (sound.taken offset member).1
    apply Block.disjoint_of_stop_le
    simp only [RxDataset.items, scratchpad, Block.stop]
    omega
  cache offset member := by
    have behind := (sound.taken offset member).1
    have aligned : VirtualMemory.align maxSize VirtualMemory.defaultHugePageSize = maxSize := by decide
    apply Block.disjoint_of_stop_le
    simp only [RxDataset.cache, scratchpad, Block.stop, aligned]
    omega
  each := by
    refine sound.sorted.imp fun ordered => ?_
    apply Block.Disjoint.symm
    apply Block.disjoint_of_stop_le
    simp only [scratchpad, Block.stop]
    omega

end RxDataset

/-! ## Pools are apart -/

namespace MemoryPool
variable {pool : MemoryPool} {memory : VirtualMemory}

theorem create_spec {hugePageSize size node : Nat} {hugePages : Bool} {reply : SystemReply}
    (positive : 0 < hugePageSize) (pages : hugePageSize ≤ 2 ^ 30) (small : size ≤ 2 ^ 33)
    (found : (create hugePageSize size hugePages node reply).memory = some memory) :
    (create hugePageSize size hugePages node reply).alignOffset ≤ memory.size ∧ memory.size < 2 ^ 64 ∧
      (create hugePageSize size hugePages node reply).offset = 0 ∧
      (create hugePageSize size hugePages node reply).refs = 0 := by
  have aligned : alignment = 2 ^ 24 := by decide
  have page : pageSize = 2 ^ 21 := by decide
  by_cases zero : size = 0
  · rw [create, if_pos zero] at found
    cases found
  · rw [create, if_neg zero] at found ⊢
    cases found
    rw [VirtualMemory.allocate_size]
    have whole : (size * pageSize + alignment) % 2 ^ 64 = size * 2 ^ 21 + 2 ^ 24 := by
      rw [page, aligned]
      omega
    have enough := @VirtualMemory.le_align (size * 2 ^ 21 + 2 ^ 24) _ positive (by omega) (by omega)
    rw [whole]
    refine ⟨Nat.le_trans (Nat.le_of_lt (Nat.mod_lt _ (by decide))) ?_, Nat.mod_lt _ (by decide), rfl, rfl⟩
    rw [aligned]
    omega

theorem create_empty {hugePageSize size node : Nat} {hugePages : Bool} {reply : SystemReply}
    (found : (create hugePageSize size hugePages node reply).memory = none) :
    (create hugePageSize size hugePages node reply).refs = 0 := by
  by_cases zero : size = 0
  · rw [create, if_pos zero]
  · rw [create, if_neg zero] at found
    cases found

/-- The subtraction of `get` is one of numbers. -/
theorem left_eq (covered : pool.alignOffset + pool.offset ≤ memory.size) (small : memory.size < 2 ^ 64) :
    pool.left memory = memory.size - pool.offset - pool.alignOffset := by
  unfold left
  omega

theorem get_granted {size : Nat} (found : pool.memory = some memory)
    (covered : pool.alignOffset + pool.offset ≤ memory.size) (small : memory.size < 2 ^ 64)
    (fits : ¬ pool.left memory < size) :
    pool.get size = (memory.scratchpad + pool.alignOffset + pool.offset,
      { pool with offset := pool.offset + size, refs := pool.refs + 1 }) ∧
      pool.alignOffset + pool.offset + size ≤ memory.size := by
  rw [left_eq covered small] at fits
  refine ⟨?_, by omega⟩
  rw [get, found]
  refine if_neg ?_
  rw [left_eq covered small]
  exact fits

theorem get_refused {size : Nat} (found : pool.memory = some memory) (full : pool.left memory < size) :
    pool.get size = (0, pool) := by
  rw [get, found]
  exact if_pos full

end MemoryPool

namespace MemorySystem

def belongs (system : MemorySystem) (key : Nat) (owner : VirtualMemory) : Bool :=
  owner.external && decide (system.key owner.node = key)

structure Sound (system : MemorySystem) : Prop where
  pages : 0 < system.hugePageSize ∧ system.hugePageSize ≤ 2 ^ 30
  nodeSize : system.nodeSize ≤ 2 ^ 33
  memory : ∀ key pool memory, system.pools key = some pool → pool.memory = some memory →
    memory.scratchpad ≠ 0 ∧ pool.alignOffset + pool.offset ≤ memory.size ∧ memory.size < 2 ^ 64
  apart : ∀ key pool memory other otherPool otherMemory, key ≠ other → system.pools key = some pool →
    pool.memory = some memory → system.pools other = some otherPool → otherPool.memory = some otherMemory →
      Block.Disjoint memory.block otherMemory.block
  inside : ∀ owner ∈ system.owners, owner.external = true → ∃ pool memory,
    system.pools (system.key owner.node) = some pool ∧ pool.memory = some memory ∧
      memory.scratchpad + pool.alignOffset ≤ owner.scratchpad ∧
      owner.scratchpad + owner.size ≤ memory.scratchpad + pool.alignOffset + pool.offset
  refs : ∀ key pool, system.pools key = some pool → pool.refs = system.owners.countP (system.belongs key)
  disjoint : system.owners.Pairwise fun first second => first.external = true → second.external = true →
    Block.Disjoint first.block second.block
  datasets : ∀ dataset ∈ system.datasets, dataset.Sound

section Steps
variable {system : MemorySystem} {request : MemoryRequest} {owner : VirtualMemory}

theorem Sound.push (sound : system.Sound) (own : owner.external = false) : (system.push owner).Sound where
  pages := sound.pages
  nodeSize := sound.nodeSize
  memory := sound.memory
  apart := sound.apart
  inside other member external := by
    rcases List.mem_cons.mp member with rfl | old
    · rw [own] at external
      cases external
    · exact sound.inside other old external
  refs key pool found := by
    have none_ : ¬ system.belongs key owner = true := by
      rw [belongs, own, Bool.false_and]
      decide
    change pool.refs = (owner :: system.owners).countP (system.belongs key)
    rw [List.countP_cons_of_neg none_]
    exact sound.refs key pool found
  disjoint := by
    refine List.pairwise_cons.mpr ⟨fun other _ external => ?_, sound.disjoint⟩
    rw [own] at external
    cases external
  datasets := sound.datasets

theorem setPool_self (key : Nat) (pool : MemoryPool) : (system.setPool key pool).pools key = some pool :=
  Function.update_self ..

theorem setPool_other {key other : Nat} (different : other ≠ key) (pool : MemoryPool) :
    (system.setPool key pool).pools other = system.pools other :=
  Function.update_of_ne different ..

theorem Sound.replace (sound : system.Sound) (key : Nat) (pool : MemoryPool) (owners : List VirtualMemory)
    (held : ∀ memory, pool.memory = some memory → (memory.scratchpad ≠ 0 ∧
      pool.alignOffset + pool.offset ≤ memory.size ∧ memory.size < 2 ^ 64) ∧
      ∀ other otherPool otherMemory, other ≠ key → system.pools other = some otherPool →
        otherPool.memory = some otherMemory → Block.Disjoint memory.block otherMemory.block)
    (inside : ∀ owner ∈ owners, owner.external = true → system.key owner.node = key → ∃ memory,
      pool.memory = some memory ∧ memory.scratchpad + pool.alignOffset ≤ owner.scratchpad ∧
        owner.scratchpad + owner.size ≤ memory.scratchpad + pool.alignOffset + pool.offset)
    (kept : ∀ owner ∈ owners, system.key owner.node ≠ key → owner ∈ system.owners)
    (refs : pool.refs = owners.countP (system.belongs key))
    (others : ∀ other, other ≠ key → owners.countP (system.belongs other) = system.owners.countP (system.belongs other))
    (disjoint : owners.Pairwise fun first second => first.external = true → second.external = true →
      Block.Disjoint first.block second.block) : Sound { system.setPool key pool with owners } where
  pages := sound.pages
  nodeSize := sound.nodeSize
  memory other found memory at_ has := by
    by_cases here : other = key
    · subst here
      cases (setPool_self other pool).symm.trans at_
      exact (held memory has).1
    · exact sound.memory other found memory ((setPool_other here pool).symm.trans at_) has
  apart first found memory second other otherMemory different at_ has otherAt otherHas := by
    by_cases here : first = key
    · subst here
      cases (setPool_self first pool).symm.trans at_
      exact (held memory has).2 second other otherMemory different.symm
        ((setPool_other different.symm pool).symm.trans otherAt) otherHas
    · have old := (setPool_other here pool).symm.trans at_
      by_cases there : second = key
      · subst there
        cases (setPool_self second pool).symm.trans otherAt
        exact ((held otherMemory otherHas).2 first found memory different old has).symm
      · exact sound.apart first found memory second other otherMemory different old has
          ((setPool_other there pool).symm.trans otherAt) otherHas
  inside owner member external := by
    by_cases here : system.key owner.node = key
    · obtain ⟨memory, has, bounds⟩ := inside owner member external here
      refine ⟨pool, memory, ?_, has, bounds⟩
      change (system.setPool key pool).pools (system.key owner.node) = some pool
      rw [here, setPool_self]
    · obtain ⟨found, memory, at_, rest⟩ := sound.inside owner (kept owner member here) external
      exact ⟨found, memory, (setPool_other here pool).trans at_, rest⟩
  refs other found at_ := by
    by_cases here : other = key
    · subst here
      cases (setPool_self other pool).symm.trans at_
      exact refs
    · exact (sound.refs other found ((setPool_other here pool).symm.trans at_)).trans (others other here).symm
  disjoint := disjoint
  datasets := sound.datasets

theorem getOrCreate_sound {node : Nat} {reply : SystemReply} (sound : system.Sound)
    (granted : system.Missing node → ∀ memory, (system.newPool node reply).memory = some memory →
      memory.scratchpad ≠ 0 ∧ system.Fresh memory) : (system.getOrCreate node reply).Sound := by
  by_cases missing : system.Missing node
  · rw [getOrCreate, if_pos missing]
    have unused : ∀ owner ∈ system.owners, owner.external = true → system.key owner.node ≠ system.key node := by
      intro owner member external same
      obtain ⟨pool, memory, found, rest⟩ := sound.inside owner member external
      rw [same, missing.1] at found
      cases found
    refine sound.replace (system.key node) (system.newPool node reply) system.owners ?_ ?_ ?_ ?_ ?_ sound.disjoint
    · intro memory held
      obtain ⟨covered, small, offset, refs⟩ := MemoryPool.create_spec sound.pages.1 sound.pages.2 sound.nodeSize held
      refine ⟨⟨(granted missing memory held).1, ?_, small⟩, fun other pool otherMemory _ =>
        (granted missing memory held).2 other pool otherMemory⟩
      rw [show (system.newPool node reply).offset = 0 from offset, Nat.add_zero]
      exact covered
    · exact fun owner member external same => absurd same (unused owner member external)
    · exact fun owner member _ => member
    · have none_ : system.owners.countP (system.belongs (system.key node)) = 0 := by
        apply List.countP_eq_zero.mpr
        intro owner member belongs
        obtain ⟨external, same⟩ := Bool.and_eq_true_iff.mp belongs
        exact unused owner member external (of_decide_eq_true same)
      rw [none_]
      cases held : (system.newPool node reply).memory with
      | none => exact MemoryPool.create_empty held
      | some memory => exact (MemoryPool.create_spec sound.pages.1 sound.pages.2 sound.nodeSize held).2.2.2
    · exact fun _ _ => rfl
  · rw [getOrCreate, if_neg missing]
    exact sound

theorem setPool_same {key : Nat} {pool : MemoryPool} (found : system.pools key = some pool) :
    system.setPool key pool = system := by
  rw [setPool, ← found, Function.update_eq_self]

theorem Sound.allocate (sound : system.Sound) : (system.allocate request).Sound :=
  sound.push (VirtualMemory.allocate_external ..)

theorem Sound.grant (sound : system.Sound) {pool : MemoryPool} {memory : VirtualMemory}
    (found : system.pools (system.key owner.node) = some pool) (has : pool.memory = some memory)
    (fits : pool.alignOffset + pool.offset + owner.size ≤ memory.size)
    (place : owner.scratchpad = memory.scratchpad + pool.alignOffset + pool.offset) (external : owner.external = true) :
    ((system.setPool (system.key owner.node)
      { pool with offset := pool.offset + owner.size, refs := pool.refs + 1 }).push owner).Sound := by
  have old := sound.memory _ _ _ found has
  have own : system.belongs (system.key owner.node) owner = true := by
    rw [belongs, external, decide_eq_true rfl]
    rfl
  refine sound.replace _ _ (owner :: system.owners) ?_ ?_ ?_ ?_ ?_ ?_
  · intro other same
    cases has.symm.trans same
    refine ⟨⟨old.1, ?_, old.2.2⟩, fun key otherPool otherMemory different at_ held =>
      sound.apart _ _ _ key otherPool otherMemory different.symm found has at_ held⟩
    change pool.alignOffset + (pool.offset + owner.size) ≤ memory.size
    omega
  · intro other member outside here
    refine ⟨memory, has, ?_⟩
    change memory.scratchpad + pool.alignOffset ≤ other.scratchpad ∧
      other.scratchpad + other.size ≤ memory.scratchpad + pool.alignOffset + (pool.offset + owner.size)
    rcases List.mem_cons.mp member with rfl | before
    · omega
    · obtain ⟨otherPool, otherMemory, at_, held, low, high⟩ := sound.inside other before outside
      rw [here, found] at at_
      cases at_
      cases has.symm.trans held
      omega
  · intro other member different
    rcases List.mem_cons.mp member with rfl | before
    · exact absurd rfl different
    · exact before
  · rw [List.countP_cons_of_pos own, ← sound.refs _ _ found]
  · intro other different
    rw [List.countP_cons_of_neg]
    intro elsewhere
    exact different.symm (of_decide_eq_true (Bool.and_eq_true_iff.mp elsewhere).2)
  · refine List.pairwise_cons.mpr ⟨fun other before _ outside => ?_, sound.disjoint⟩
    obtain ⟨otherPool, otherMemory, at_, held, low, high⟩ := sound.inside other before outside
    by_cases here : system.key other.node = system.key owner.node
    · rw [here, found] at at_
      cases at_
      cases has.symm.trans held
      apply Block.Disjoint.symm
      apply Block.disjoint_of_stop_le
      simp only [VirtualMemory.block, Block.stop]
      omega
    · -- The blocks lie in the memory of different pools.
      have separate := sound.apart _ _ _ _ _ _ (Ne.symm here) found has at_ held
      have covered := sound.memory _ _ _ at_ held
      refine separate.mono (Block.subset_of_bounds ?_ ?_) (Block.subset_of_bounds ?_ ?_)
      all_goals
        simp only [VirtualMemory.block, Block.stop]
        omega

theorem allocatePooled_sound (sound : system.Sound) : (system.allocatePooled request).Sound := by
  simp only [allocatePooled]
  split
  · exact sound.push rfl
  · cases found : system.pools (system.key request.node) with
    | none =>
      have nothing : system.get (VirtualMemory.blank system.hugePageSize request.size request.node).size request.node =
          (0, system) := by
        rw [get, found]
      rw [nothing, if_neg (not_not.mpr rfl)]
      exact sound.allocate
    | some pool =>
      have reply : system.get (VirtualMemory.blank system.hugePageSize request.size request.node).size request.node =
          ((pool.get (VirtualMemory.blank system.hugePageSize request.size request.node).size).1,
            system.setPool (system.key request.node)
              (pool.get (VirtualMemory.blank system.hugePageSize request.size request.node).size).2) := by
        rw [get, found]
      rw [reply]
      have refused : ((system.setPool (system.key request.node) pool).allocate request).Sound := by
        rw [setPool_same found]
        exact sound.allocate
      cases has : pool.memory with
      | none =>
        have none_ : pool.get (VirtualMemory.blank system.hugePageSize request.size request.node).size = (0, pool) := by
          rw [MemoryPool.get, has]
        rw [none_, if_neg (not_not.mpr rfl)]
        exact refused
      | some memory =>
        have covered := sound.memory _ _ _ found has
        by_cases full : pool.left memory < (VirtualMemory.blank system.hugePageSize request.size request.node).size
        · rw [MemoryPool.get_refused has full, if_neg (not_not.mpr rfl)]
          exact refused
        · obtain ⟨granted, fits⟩ := MemoryPool.get_granted has covered.2.1 covered.2.2 full
          have somewhere : memory.scratchpad + pool.alignOffset + pool.offset ≠ 0 := by omega
          rw [granted, if_pos somewhere]
          exact @Sound.grant system { VirtualMemory.blank system.hugePageSize request.size request.node with
            scratchpad := memory.scratchpad + pool.alignOffset + pool.offset
            isHugePages := system.poolHugePages request.node
            external := true } sound _ _ found has fits rfl rfl

theorem countP_eraseIdx {α : Type} {list : List α} {index : Nat} {element : α} (found : list[index]? = some element)
    (p : α → Bool) : list.countP p = (list.eraseIdx index).countP p + if p element then 1 else 0 := by
  obtain ⟨inside, same⟩ := List.getElem?_eq_some_iff.mp found
  have split : list = list.take index ++ element :: list.drop (index + 1) := by
    rw [← same, ← List.drop_eq_getElem_cons inside, List.take_append_drop]
  rw [List.eraseIdx_eq_take_drop_succ, List.countP_append]
  nth_rewrite 1 [split]
  rw [List.countP_append, List.countP_cons]
  omega

theorem destroy_sound {index : Nat} (sound : system.Sound) (found : system.owners[index]? = some owner) :
    (system.destroy owner index).Sound := by
  have fewer : ∀ other ∈ system.owners.eraseIdx index, other ∈ system.owners :=
    fun other member => List.mem_of_mem_eraseIdx member
  have disjoint := sound.disjoint.sublist (List.eraseIdx_sublist system.owners index)
  have counts := fun key => countP_eraseIdx found (system.belongs key)
  by_cases external : owner.external = true
  · obtain ⟨pool, memory, at_, has, low, high⟩ := sound.inside owner (List.mem_of_getElem? found) external
    have refs := sound.refs _ _ at_
    have own : system.belongs (system.key owner.node) owner = true := by
      rw [belongs, external, decide_eq_true rfl]
      rfl
    have one := counts (system.key owner.node)
    rw [if_pos own, ← refs] at one
    have covered := sound.memory _ _ _ at_ has
    have released : system.destroy owner index =
        { system.setPool (system.key owner.node) pool.release with owners := system.owners.eraseIdx index } := by
      simp only [destroy, external, if_true]
      simp only [release, show MemorySystem.key { system with owners := system.owners.eraseIdx index } owner.node =
        system.key owner.node from rfl, at_]
      rfl
    rw [released]
    refine sound.replace _ _ _ ?_ ?_ ?_ ?_ ?_ disjoint
    · intro other same
      cases has.symm.trans same
      refine ⟨⟨covered.1, ?_, covered.2.2⟩, fun key otherPool otherMemory different otherAt held =>
        sound.apart _ _ _ key otherPool otherMemory different.symm at_ has otherAt held⟩
      simp only [MemoryPool.release]
      split
      · omega
      · exact covered.2.1
    · intro other member outside here
      have more : 0 < (system.owners.eraseIdx index).countP (system.belongs (system.key owner.node)) := by
        refine List.countP_pos_iff.mpr ⟨other, member, ?_⟩
        rw [belongs, outside, decide_eq_true here]
        rfl
      obtain ⟨otherPool, otherMemory, otherAt, held, bounds⟩ := sound.inside other (fewer other member) outside
      rw [here, at_] at otherAt
      cases otherAt
      refine ⟨otherMemory, held, ?_⟩
      simp only [MemoryPool.release]
      rw [if_neg (by omega)]
      exact bounds
    · exact fun other member _ => fewer other member
    · simp only [MemoryPool.release]
      omega
    · intro other different
      have elsewhere : ¬ system.belongs other owner = true := by
        intro belongs
        exact different.symm (of_decide_eq_true (Bool.and_eq_true_iff.mp belongs).2)
      rw [counts other, if_neg elsewhere, Nat.add_zero]
  · have kept : system.destroy owner index = { system with owners := system.owners.eraseIdx index } := by
      simp only [destroy, if_neg external]
    rw [kept]
    refine ⟨sound.pages, sound.nodeSize, sound.memory, sound.apart, ?_, ?_, disjoint, sound.datasets⟩
    · exact fun other member => sound.inside other (fewer other member)
    · intro key pool at_
      have inner : ¬ system.belongs key owner = true := by
        intro belongs
        exact external (Bool.and_eq_true_iff.mp belongs).1
      have same := counts key
      rw [if_neg inner, Nat.add_zero] at same
      exact (sound.refs key pool at_).trans same

theorem step_sound {event : MemoryEvent} {next : MemorySystem} (sound : system.Sound)
    (allowed : system.mayStep event) (stepped : system.step event = some next) : next.Sound := by
  cases event with
  | construct request =>
    cases stepped
    simp only [construct]
    split
    · rename_i pooled
      exact allocatePooled_sound (getOrCreate_sound sound (allowed pooled))
    · exact sound.allocate
  | destroy index =>
    simp only [step, Option.map_eq_some_iff] at stepped
    obtain ⟨memory, found, rfl⟩ := stepped
    exact destroy_sound sound found
  | dataset disabled hugePages oneGbPages node reply =>
    cases stepped
    refine ⟨sound.pages, sound.nodeSize, sound.memory, sound.apart, sound.inside, sound.refs, sound.disjoint, ?_⟩
    intro dataset member
    rcases List.mem_cons.mp member with rfl | old
    · exact RxDataset.create_sound ..
    · exact sound.datasets dataset old
  | scratchpad index =>
    cases stepped
    refine ⟨sound.pages, sound.nodeSize, sound.memory, sound.apart, sound.inside, sound.refs, sound.disjoint, ?_⟩
    intro dataset member
    obtain ⟨place, found⟩ := List.getElem?_of_mem member
    rw [List.getElem?_modify] at found
    obtain ⟨old, at_, rfl⟩ := Option.map_eq_some_iff.mp found
    have held := sound.datasets old (List.mem_of_getElem? at_)
    by_cases here : index = place
    · rw [if_pos here]
      subst here
      exact RxDataset.tryAllocateScrathpad_sound held (allowed old at_)
    · rw [if_neg here]
      exact held

end Steps

/-! ## Whole runs -/

/-- Blocks from a pool lie in its memory behind the alignment offset and are apart, what `get`
subtracts does not exceed the size, and scratchpads of datasets are apart. -/
structure Apart (system : MemorySystem) : Prop where
  inside : ∀ owner ∈ system.owners, owner.external = true → ∃ pool memory,
    system.pools (system.key owner.node) = some pool ∧ pool.memory = some memory ∧ memory.scratchpad ≠ 0 ∧
      memory.scratchpad + pool.alignOffset ≤ owner.scratchpad ∧
      owner.scratchpad + owner.size ≤ memory.scratchpad + memory.size
  disjoint : system.owners.Pairwise fun first second => first.external = true → second.external = true →
    Block.Disjoint first.block second.block
  subtraction : ∀ key pool memory, system.pools key = some pool → pool.memory = some memory →
    pool.offset + pool.alignOffset ≤ memory.size
  datasets : ∀ dataset ∈ system.datasets, dataset.Apart

theorem Sound.separate {system : MemorySystem} (sound : system.Sound) : system.Apart where
  inside owner member external := by
    obtain ⟨pool, memory, found, has, low, high⟩ := sound.inside owner member external
    have covered := sound.memory _ _ _ found has
    exact ⟨pool, memory, found, has, covered.1, low, by omega⟩
  disjoint := sound.disjoint
  subtraction key pool memory found has := by
    have covered := (sound.memory key pool memory found has).2.1
    omega
  datasets dataset member := (sound.datasets dataset member).apart

/-- What `init` is called with: an `int` or a number of processor units as the size, and a page
size below 1 GiB. -/
structure Launch where
  nodes : Nat
  poolSize : Nat
  hugePageSize : Nat
  reply : SystemReply
  few : nodes < 2 ^ 31
  int : poolSize < 2 ^ 31
  small : hugePageSize < 2 ^ 30

/-- The system has memory for the only pool. -/
def Launch.Granted (launch : Launch) : Prop :=
  ∀ pool memory, (init launch.nodes launch.poolSize launch.hugePageSize launch.reply).pools 0 = some pool →
    pool.memory = some memory → memory.scratchpad ≠ 0

theorem init_sound (launch : Launch) (granted : launch.Granted) :
    (init launch.nodes launch.poolSize launch.hugePageSize launch.reply).Sound := by
  obtain ⟨nodes, poolSize, hugePageSize, reply, few, int, small⟩ := launch
  let start : MemorySystem :=
    { hugePageSize := if hugePageSize ≠ 0 then hugePageSize else VirtualMemory.defaultHugePageSize
      nodes
      poolSize := if 1 < nodes then VirtualMemory.align poolSize nodes else poolSize
      hugePages := decide (0 < hugePageSize) }
  have pages : 0 < start.hugePageSize ∧ start.hugePageSize ≤ 2 ^ 30 := by
    change 0 < (if hugePageSize ≠ 0 then hugePageSize else VirtualMemory.defaultHugePageSize) ∧
      (if hugePageSize ≠ 0 then hugePageSize else VirtualMemory.defaultHugePageSize) ≤ 2 ^ 30
    split
    · omega
    · decide
  have nodeSize : start.nodeSize ≤ 2 ^ 33 := by
    change (if 1 < nodes then max ((if 1 < nodes then VirtualMemory.align poolSize nodes else poolSize) / nodes) 1
      else if 1 < nodes then VirtualMemory.align poolSize nodes else poolSize) ≤ 2 ^ 33
    by_cases several : 1 < nodes
    · rw [if_pos several, if_pos several]
      have bound := VirtualMemory.align_le poolSize (show 0 < nodes by omega)
      have less := Nat.div_le_self (VirtualMemory.align poolSize nodes) nodes
      omega
    · rw [if_neg several, if_neg several]
      omega
  have sound : start.Sound := by
    refine ⟨pages, nodeSize, ?_, ?_, ?_, ?_, .nil, ?_⟩
    · intro key pool memory found
      cases found
    · intro key pool memory other otherPool otherMemory different found
      cases found
    · exact fun owner member => absurd member List.not_mem_nil
    · intro key pool found
      cases found
    · exact fun dataset member => absurd member List.not_mem_nil
  by_cases several : 1 < nodes
  · rw [show init nodes poolSize hugePageSize reply = start from if_pos several]
    exact sound
  · have made : init nodes poolSize hugePageSize reply = start.getOrCreate 0 reply := if_neg several
    rw [made]
    refine getOrCreate_sound sound fun missing memory has => ⟨?_, ?_⟩
    · refine granted (start.newPool 0 reply) memory ?_ has
      change (init nodes poolSize hugePageSize reply).pools 0 = some (start.newPool 0 reply)
      rw [made, getOrCreate, if_pos missing, show start.key 0 = 0 from if_neg several, setPool_self]
    · intro key pool other found
      cases found

/-- Blocks from the pools and scratchpads from datasets are apart in every run in which the system
has memory for the pools and no counter of a dataset comes around. -/
theorem pooled_apart (launch : Launch) (granted : launch.Granted) (events : List MemoryEvent)
    (allowed : Guarded step mayStep (init launch.nodes launch.poolSize launch.hugePageSize launch.reply) events)
    (final : MemorySystem)
    (executed : run step (init launch.nodes launch.poolSize launch.hugePageSize launch.reply) events = some final) :
    final.Apart :=
  (run_invariant (P := Sound) (fun _ _ _ sound permitted stepped => step_sound sound permitted stepped)
    (init_sound launch granted) allowed executed).separate

def pageRequest : MemoryRequest :=
  { size := 2097152, hugePages := false, oneGbPages := false, usePool := true, node := 0, reply := ⟨0, 0, 0x7F0000000000⟩ }

def sampleLaunch : Launch :=
  ⟨1, 2, 2097152, ⟨0, 0, 0x10000040⟩, by decide, by decide, by decide⟩

def sampleEvents : List MemoryEvent :=
  [.construct pageRequest, .construct pageRequest, .destroy 1, .dataset false true true 0 ⟨0x40000000, 0, 0⟩, .scratchpad 0]

theorem sampleEvents_runs :
    (run step (init sampleLaunch.nodes sampleLaunch.poolSize sampleLaunch.hugePageSize sampleLaunch.reply)
      sampleEvents).isSome = true := by
  decide

theorem pooled_apart_sample :
    ∃ final, run step (init sampleLaunch.nodes sampleLaunch.poolSize sampleLaunch.hugePageSize sampleLaunch.reply)
        sampleEvents = some final ∧
      final.owners.map VirtualMemory.scratchpad = [0x11200000] ∧
      final.datasets.map RxDataset.taken = [[2449473536]] ∧ final.Apart := by
  have executed := (Option.some_get sampleEvents_runs).symm
  refine ⟨_, executed, by decide, by decide, pooled_apart sampleLaunch ?_ sampleEvents ?_ _ executed⟩
  · intro pool memory found has
    have place : ((init sampleLaunch.nodes sampleLaunch.poolSize sampleLaunch.hugePageSize sampleLaunch.reply).pools
        0).map (fun pool => pool.memory.map VirtualMemory.scratchpad) = some (some 0x10000040) := by
      decide
    rw [found, Option.map_some, has] at place
    have same : memory.scratchpad = 0x10000040 := Option.some_inj.mp (Option.some_inj.mp place)
    rw [same]
    decide
  · refine ⟨fun _ missing => absurd missing (by decide), fun next stepped => ?_⟩
    cases stepped
    refine ⟨fun _ missing => absurd missing (by decide), fun next stepped => ?_⟩
    cases stepped
    refine ⟨trivial, fun next stepped => ?_⟩
    cases stepped
    refine ⟨trivial, fun next stepped => ?_⟩
    cases stepped
    refine ⟨fun dataset found => ?_, fun next stepped => trivial⟩
    cases found
    decide

/-- The largest size that the configuration takes, which the system does not have. -/
def hugeLaunch : Launch := ⟨1, 2147483647, 2097152, {}, by decide, by decide, by decide⟩

theorem hugeLaunch_runs :
    (run step (init hugeLaunch.nodes hugeLaunch.poolSize hugeLaunch.hugePageSize hugeLaunch.reply)
      [.construct pageRequest, .construct pageRequest]).isSome = true := by
  decide

/-- A pool without memory hands out addresses all the same. -/
theorem failed_pool_outside :
    ∃ (launch : Launch) (events : List MemoryEvent) (final : MemorySystem),
      run step (init launch.nodes launch.poolSize launch.hugePageSize launch.reply) events = some final ∧
        ¬ final.Apart := by
  refine ⟨hugeLaunch, _, _, (Option.some_get hugeLaunch_runs).symm, fun apart => ?_⟩
  have pooled : ∃ owner ∈ ((run step (init hugeLaunch.nodes hugeLaunch.poolSize hugeLaunch.hugePageSize
      hugeLaunch.reply) [.construct pageRequest, .construct pageRequest]).get hugeLaunch_runs).owners,
      owner.external = true ∧ owner.node = 0 := by
    decide
  obtain ⟨owner, member, external, node⟩ := pooled
  obtain ⟨pool, memory, found, has, somewhere, rest⟩ := apart.inside owner member external
  have place : (((run step (init hugeLaunch.nodes hugeLaunch.poolSize hugeLaunch.hugePageSize hugeLaunch.reply)
      [.construct pageRequest, .construct pageRequest]).get hugeLaunch_runs).pools
        (((run step (init hugeLaunch.nodes hugeLaunch.poolSize hugeLaunch.hugePageSize hugeLaunch.reply)
          [.construct pageRequest, .construct pageRequest]).get hugeLaunch_runs).key 0)).map
            (fun pool => pool.memory.map VirtualMemory.scratchpad) = some (some 0) := by
    decide
  rw [node] at found
  rw [found, Option.map_some, has] at place
  exact somewhere (Option.some_inj.mp (Option.some_inj.mp place))

end MemorySystem

end Xmrig
