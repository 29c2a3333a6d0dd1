import Xmrig.Foundation.Run
import Mathlib.Data.Nat.Notation
import Mathlib.Logic.Function.Basic

/-! The pool that RandomX virtual machines are placed in.

Each NUMA node has one pool of two MiB. A new virtual machine is placed at the
node's offset, the offset advances by its size and is set back to zero when
less than 4096 bytes are left; destroying a virtual machine gives nothing
back. Every run of creations and destructions is considered, so a virtual
machine that lives on while the offset goes round is in the way of later ones.
-/

set_option autoImplicit false

namespace Xmrig.RandomX

open Foundation

/-- The flags that select the class of a virtual machine. -/
structure VmKind where
  fullMem : Bool
  jit : Bool
  hardAes : Bool
  deriving DecidableEq, Repr

/-- The flags `RxVm::create` computes; `cacheJit` is `isJIT` of the cache, if there is one. -/
def VmKind.ofDataset (softAes hasDataset : Bool) (cacheJit : Option Bool) : VmKind where
  fullMem := hasDataset
  jit := cacheJit.getD true
  hardAes := !softAes

/-- A virtual machine that has not been destroyed. `lap` tells how often the offset of the node
had been set back when it was placed. -/
structure LiveVm where
  node : Fin 64
  offset : Nat
  size : Nat
  lap : Nat
  deriving DecidableEq, Repr

structure VmPool where
  offset : Fin 64 → Nat := fun _ => 0
  lap : Fin 64 → Nat := fun _ => 0
  live : List LiveVm := []

def vmPoolSize : Nat := 2 * 1024 * 1024

def poolNode (node : BitVec 32) : Fin 64 :=
  if below : node.toNat < 64 then ⟨node.toNat, below⟩ else 0

inductive VmEvent where
  /-- `randomx_create_vm`; the constructor or a setter may throw. -/
  | create (kind : VmKind) (node : BitVec 32) (constructed : Bool)
  /-- `randomx_destroy_vm` of one of the live machines. -/
  | destroy (index : Nat)
  deriving DecidableEq, Repr

section Pool
variable (vmSize : VmKind → Nat)

def VmPool.placed (pool : VmPool) (kind : VmKind) (node : BitVec 32) : LiveVm where
  node := poolNode node
  offset := pool.offset (poolNode node)
  size := vmSize kind
  lap := pool.lap (poolNode node)

/-- `vm_pool_offset[node] += vm_size`, set back to zero near the end. -/
def VmPool.advance (pool : VmPool) (node : Fin 64) (size : Nat) : VmPool :=
  if vmPoolSize < pool.offset node + size + 4096 then
    { pool with
      offset := Function.update pool.offset node 0
      lap := Function.update pool.lap node (pool.lap node + 1) }
  else { pool with offset := Function.update pool.offset node (pool.offset node + size) }

def VmPool.step (pool : VmPool) : VmEvent → Option VmPool
  | .create _ _ false => some pool
  | .create kind node true =>
      some { pool.advance (poolNode node) (vmSize kind) with
        live := pool.placed vmSize kind node :: pool.live }
  | .destroy index => if index < pool.live.length then
      some { pool with live := pool.live.eraseIdx index } else none

/-- The two byte ranges have no byte in common. -/
def LiveVm.Apart (first second : LiveVm) : Prop :=
  first.node = second.node →
    first.offset + first.size ≤ second.offset ∨ second.offset + second.size ≤ first.offset

instance (first second : LiveVm) : Decidable (first.Apart second) :=
  inferInstanceAs (Decidable (_ → _))

/-- The range handed to a new machine is inside the pool and apart from every live machine. -/
def GoodPlacement (pool : VmPool) : VmEvent → Prop
  | .create kind node true =>
      pool.offset (poolNode node) + vmSize kind ≤ vmPoolSize ∧
        ∀ vm ∈ pool.live, vm.Apart (pool.placed vmSize kind node)
  | _ => True

/-- A machine of more than 4096 bytes fits in what is left of the pool, and the machines that
are left from earlier rounds of the offset are not in the way. -/
def Unobstructed (pool : VmPool) : VmEvent → Prop
  | .create kind node true =>
      (4096 < vmSize kind → pool.offset (poolNode node) + vmSize kind ≤ vmPoolSize) ∧
        ∀ vm ∈ pool.live, vm.lap < pool.lap vm.node → vm.Apart (pool.placed vmSize kind node)
  | _ => True

instance (pool : VmPool) (event : VmEvent) : Decidable (GoodPlacement vmSize pool event) :=
  match event with
  | .create _ _ true => inferInstanceAs (Decidable (_ ∧ _))
  | .create _ _ false | .destroy _ => inferInstanceAs (Decidable True)

end Pool

/-- The machines of the current round lie below the offset, and at least 4096 bytes are left
above it. -/
structure VmPool.Sound (pool : VmPool) : Prop where
  room : ∀ node, pool.offset node + 4096 ≤ vmPoolSize
  below : ∀ vm ∈ pool.live, vm.lap = pool.lap vm.node → vm.offset + vm.size ≤ pool.offset vm.node
  past : ∀ vm ∈ pool.live, vm.lap ≤ pool.lap vm.node

variable {vmSize : VmKind → Nat}

theorem VmPool.sound_init : VmPool.Sound {} where
  room _ := by simp [vmPoolSize]
  below _ member := by simp at member
  past _ member := by simp at member

theorem VmPool.advance_cases (pool : VmPool) (node : Fin 64) (size : Nat) :
    (vmPoolSize < pool.offset node + size + 4096 ∧
        (pool.advance node size).offset = Function.update pool.offset node 0 ∧
        (pool.advance node size).lap = Function.update pool.lap node (pool.lap node + 1)) ∨
      (pool.offset node + size + 4096 ≤ vmPoolSize ∧
        (pool.advance node size).offset =
          Function.update pool.offset node (pool.offset node + size) ∧
        (pool.advance node size).lap = pool.lap) := by
  unfold VmPool.advance
  split
  · exact .inl ⟨by assumption, rfl, rfl⟩
  · exact .inr ⟨by omega, rfl, rfl⟩

theorem VmPool.Sound.create {pool : VmPool} (sound : pool.Sound) (kind : VmKind)
    (node : BitVec 32) :
    VmPool.Sound { pool.advance (poolNode node) (vmSize kind) with
      live := pool.placed vmSize kind node :: pool.live } := by
  have moved := pool.advance_cases (poolNode node) (vmSize kind)
  generalize pool.advance (poolNode node) (vmSize kind) = next at moved ⊢
  rcases moved with ⟨_, offset, lap⟩ | ⟨left, offset, lap⟩
  · constructor
    · intro other
      rw [offset, Function.update_apply]
      split
      · decide
      · exact sound.room other
    · intro vm member current
      rw [lap, Function.update_apply] at current
      rw [offset, Function.update_apply]
      rcases List.mem_cons.mp member with rfl | old
      · -- The machine that filled the round belongs to the one that has just ended.
        simp [VmPool.placed] at current
      · have := sound.past vm old
        split at current
        · rename_i same
          rw [same] at this
          omega
        · rename_i other
          rw [if_neg other]
          exact sound.below vm old current
    · intro vm member
      rw [lap, Function.update_apply]
      rcases List.mem_cons.mp member with rfl | old
      · simp [VmPool.placed]
      · have := sound.past vm old
        split
        · rename_i same
          rw [same] at this
          omega
        · exact this
  · constructor
    · intro other
      rw [offset, Function.update_apply]
      split
      · omega
      · exact sound.room other
    · intro vm member current
      rw [lap] at current
      rw [offset, Function.update_apply]
      rcases List.mem_cons.mp member with rfl | old
      · simp [VmPool.placed]
      · have := sound.below vm old current
        split
        · rename_i same
          rw [same] at this
          omega
        · exact this
    · intro vm member
      rw [lap]
      rcases List.mem_cons.mp member with rfl | old
      · exact Nat.le_refl _
      · exact sound.past vm old

theorem VmPool.Sound.step {pool next : VmPool} (sound : pool.Sound) {event : VmEvent}
    (stepped : pool.step vmSize event = some next) : next.Sound := by
  cases event with
  | create kind node constructed =>
    cases constructed with
    | false =>
      cases stepped
      exact sound
    | true =>
      rw [VmPool.step, Option.some.injEq] at stepped
      rw [← stepped]
      exact sound.create kind node
  | destroy index =>
    simp only [VmPool.step] at stepped
    split at stepped
    · cases stepped
      exact ⟨sound.room, fun vm member => sound.below vm (List.mem_of_mem_eraseIdx member),
        fun vm member => sound.past vm (List.mem_of_mem_eraseIdx member)⟩
    · cases stepped

/-- In a sound pool only what an earlier round left behind, or a machine that is too large
for the end of the pool, spoils a placement. -/
theorem VmPool.Sound.goodPlacement_iff {pool : VmPool} (sound : pool.Sound) (event : VmEvent) :
    GoodPlacement vmSize pool event ↔ Unobstructed vmSize pool event := by
  match event with
  | .destroy _ | .create _ _ false => exact Iff.rfl
  | .create kind node true =>
    have room := sound.room (poolNode node)
    constructor
    · rintro ⟨inside, apart⟩
      exact ⟨fun _ => inside, fun vm member _ => apart vm member⟩
    · rintro ⟨fits, apart⟩
      constructor
      · rcases Nat.lt_or_ge 4096 (vmSize kind) with large | small
        · exact fits large
        · omega
      · intro vm member
        rcases Nat.lt_or_ge vm.lap (pool.lap vm.node) with earlier | current
        · exact apart vm member earlier
        · intro same
          left
          have below := sound.below vm member (Nat.le_antisymm (sound.past vm member) current)
          rw [same] at below
          exact below

theorem guarded_placement_iff {pool : VmPool} (sound : pool.Sound) (events : List VmEvent) :
    Guarded (VmPool.step vmSize) (GoodPlacement vmSize) pool events ↔
      Guarded (VmPool.step vmSize) (Unobstructed vmSize) pool events := by
  induction events generalizing pool with
  | nil => exact Iff.rfl
  | cons event rest ih =>
    unfold Guarded
    rw [sound.goodPlacement_iff]
    constructor
    · rintro ⟨first, later⟩
      exact ⟨first, fun next stepped => (ih (sound.step stepped)).mp (later next stepped)⟩
    · rintro ⟨first, later⟩
      exact ⟨first, fun next stepped => (ih (sound.step stepped)).mpr (later next stepped)⟩

/-- Over every run of creations and destructions, every new machine is placed inside the pool
and apart from all live machines exactly when every creation is unobstructed. -/
theorem vmPool_placements_good_iff (vmSize : VmKind → Nat) (events : List VmEvent) :
    Guarded (VmPool.step vmSize) (GoodPlacement vmSize) {} events ↔
      Guarded (VmPool.step vmSize) (Unobstructed vmSize) {} events :=
  guarded_placement_iff VmPool.sound_init events

def linuxSize (kind : VmKind) : Nat := if kind.jit then 2944 else 11776

/-- `getResults` of one bundle of GPU results: a machine on node 0 that is destroyed again. -/
def getResultsEvents (kind : VmKind) : List VmEvent := [.create kind 0 true, .destroy 0]

/-- One CPU worker on node 0 keeps its machine while 711 bundles of GPU results arrive: the
last of them gets the worker's bytes. -/
theorem vmPool_overlap :
    ¬ Guarded (VmPool.step linuxSize) (GoodPlacement linuxSize) {}
      (.create (.ofDataset false true (some true)) 0 true ::
        (List.replicate 711 (getResultsEvents (.ofDataset false true (some true)))).flatten) := by
  decide +kernel

end Xmrig.RandomX
