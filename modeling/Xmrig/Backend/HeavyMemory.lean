import Xmrig.Backend.CpuWorker
import Xmrig.Crypto.VirtualMemory

/-! The memory that the cn-heavy workers of some processors share.

Eight scratchpads are interleaved in pieces of 64 bytes. The memory is made by
the first worker that needs it and stays when the backend stops. Offsets are
from its start, on a processor on which it is used.
-/

set_option autoImplicit false

namespace Xmrig

open Foundation

def interleavedIndex (interleave k : Nat) : Nat := ((k / 64 * 64) <<< interleave) % 2 ^ 64 ||| k % 64

/-- What a start of the backend gives its workers; a worker has the place of its intensity as id. -/
structure CpuLaunch where
  algorithm : Algorithm
  assembly : Bool
  hwAES : Bool
  intensities : List Nat

namespace CpuLaunch

/-- `m_threads`. -/
def threads (launch : CpuLaunch) : Nat := launch.intensities.length

/-- `CpuLaunchData::av`. -/
def av (launch : CpuLaunch) (intensity : Nat) : Nat :=
  if intensity ≤ 2 then if launch.hwAES then intensity else intensity + 2
  else if launch.hwAES then intensity + 2 else intensity + 5

/-- `CnHash::AV_SINGLE`. -/
def avSingle : Nat := 1

def shares (launch : CpuLaunch) (id : Nat) : Bool :=
  launch.intensities[id]? = some 1 ∧ launch.av 1 = avSingle ∧ launch.algorithm.family = Algorithm.cnHeavy ∧
    launch.assembly = true

def numThreads (launch : CpuLaunch) : Nat := (launch.threads + 7) / 8 * 8

/-- The `int` that `allocateCnCtx` computes. -/
def shift (launch : CpuLaunch) (id : Nat) : Int :=
  (BitVec.ofNat 32 (id / 8 * launch.algorithm.l3 * 8 + id % 8 * 64)).toInt

def address (launch : CpuLaunch) (id k : Nat) : Int := launch.shift id + interleavedIndex 3 k

end CpuLaunch

/-- `cn_heavyZen3Memory` by its size, and the backend with its live workers. -/
structure HeavyBackend where
  hugePageSize : Nat
  memory : Option Nat := none
  launch : Option CpuLaunch := none
  workers : List Nat := []

inductive HeavyEvent where
  | start (launch : CpuLaunch)
  | create (id : Nat)
  | stop

namespace HeavyBackend

def create (backend : HeavyBackend) (launch : CpuLaunch) (id : Nat) : HeavyBackend :=
  { backend with
    workers := id :: backend.workers
    memory :=
      if launch.shares id = true ∧ backend.memory = none then
        some (VirtualMemory.align (launch.algorithm.l3 * launch.numThreads % 2 ^ 64) backend.hugePageSize)
      else backend.memory }

/-- `setJob` with other threads than before, the thread of a worker, and `stop`, which waits for the
threads. -/
def step (backend : HeavyBackend) : HeavyEvent → Option HeavyBackend
  | .start launch => some { backend with launch := some launch, workers := [] }
  | .create id => backend.launch.bind fun launch =>
      if id < launch.threads ∧ id ∉ backend.workers then some (backend.create launch id) else none
  | .stop => some { backend with launch := none, workers := [] }

/-- Scratchpads in the shared memory lie inside of it and apart. -/
structure Contained (backend : HeavyBackend) : Prop where
  inside : ∀ launch, backend.launch = some launch → ∀ id ∈ backend.workers, launch.shares id = true →
    ∃ size, backend.memory = some size ∧ ∀ k < launch.algorithm.l3,
      0 ≤ launch.address id k ∧ launch.address id k < size
  apart : ∀ launch, backend.launch = some launch → ∀ id ∈ backend.workers, ∀ other ∈ backend.workers, id ≠ other →
    launch.shares id = true → launch.shares other = true → ∀ k < launch.algorithm.l3, ∀ place < launch.algorithm.l3,
      launch.address id k ≠ launch.address other place

/-- Memory that an earlier start left has room for the eight scratchpads of a worker's group, and
the offset fits an `int`. -/
def mayStep (backend : HeavyBackend) : HeavyEvent → Prop
  | .start launch => launch.threads ≤ 512
  | .create id => ∀ launch ∈ backend.launch, launch.shares id = true →
      ∀ size ∈ backend.memory, (id / 8 + 1) * (8 * launch.algorithm.l3) ≤ size
  | .stop => True

instance decidableMayStep (backend : HeavyBackend) : (event : HeavyEvent) → Decidable (backend.mayStep event)
  | .start launch => inferInstanceAs (Decidable (launch.threads ≤ 512))
  | .create id => inferInstanceAs (Decidable (∀ launch ∈ backend.launch, launch.shares id = true →
      ∀ size ∈ backend.memory, (id / 8 + 1) * (8 * launch.algorithm.l3) ≤ size))
  | .stop => .isTrue trivial

end HeavyBackend

/-! ## Offsets -/

theorem interleavedIndex_eq {k : Nat} (small : k < 2 ^ 22) : interleavedIndex 3 k = k / 64 * 512 + k % 64 := by
  have below : k % 64 < 2 ^ 9 := by omega
  have joined := Nat.two_pow_add_eq_or_of_lt below (k / 64)
  have shifted : ((k / 64 * 64) <<< 3) % 2 ^ 64 = 2 ^ 9 * (k / 64) := by
    rw [Nat.shiftLeft_eq]
    omega
  rw [interleavedIndex, shifted, ← joined]
  omega

namespace CpuLaunch
variable {launch : CpuLaunch} {id : Nat}

theorem l3_of_shares (shared : launch.shares id = true) : launch.algorithm.l3 = 2 ^ 22 := by
  have parts := of_decide_eq_true shared
  have family := parts.2.2.1
  revert family
  cases launch.algorithm
  all_goals decide

theorem shares_lt (shared : launch.shares id = true) : id < launch.threads := by
  have parts := of_decide_eq_true shared
  exact (List.getElem?_eq_some_iff.mp parts.1).1

theorem address_eq (shared : launch.shares id = true) (few : launch.threads ≤ 512) {k : Nat}
    (small : k < launch.algorithm.l3) :
    launch.address id k = ((id / 8 * 2 ^ 25 + id % 8 * 64 + (k / 64 * 512 + k % 64) : Nat) : Int) := by
  have inside := shares_lt shared
  rw [l3_of_shares shared] at small
  have positive : launch.shift id = ((id / 8 * 2 ^ 25 + id % 8 * 64 : Nat) : Int) := by
    rw [shift, l3_of_shares shared, BitVec.toInt_eq_toNat_of_lt]
    · rw [BitVec.toNat_ofNat, Nat.mod_eq_of_lt (by omega)]
      omega
    · rw [BitVec.toNat_ofNat, Nat.mod_eq_of_lt (by omega)]
      omega
  rw [address, positive, interleavedIndex_eq small]
  omega

end CpuLaunch

/-! ## Whole runs -/

namespace HeavyBackend

/-- Every worker in the shared memory has a group that lies inside of it. -/
structure Sound (backend : HeavyBackend) : Prop where
  pages : 0 < backend.hugePageSize ∧ backend.hugePageSize ≤ 2 ^ 30
  few : ∀ launch, backend.launch = some launch → launch.threads ≤ 512
  room : ∀ launch, backend.launch = some launch → ∀ id ∈ backend.workers, launch.shares id = true →
    ∃ size, backend.memory = some size ∧ (id / 8 + 1) * 2 ^ 25 ≤ size

theorem Sound.contained {backend : HeavyBackend} (sound : backend.Sound) : backend.Contained where
  inside launch found id member shared := by
    obtain ⟨size, memory, room⟩ := sound.room launch found id member shared
    refine ⟨size, memory, fun k small => ?_⟩
    rw [CpuLaunch.address_eq shared (sound.few launch found) small]
    rw [CpuLaunch.l3_of_shares shared] at small
    omega
  apart launch found id member other otherMember different shared otherShared k small place otherSmall := by
    rw [CpuLaunch.address_eq shared (sound.few launch found) small,
      CpuLaunch.address_eq otherShared (sound.few launch found) otherSmall]
    rw [CpuLaunch.l3_of_shares shared] at small otherSmall
    omega

theorem new_room {backend : HeavyBackend} {launch : CpuLaunch} {id : Nat} (sound : backend.Sound)
    (few : launch.threads ≤ 512) (shared : launch.shares id = true) :
    (id / 8 + 1) * 2 ^ 25 ≤
      VirtualMemory.align (launch.algorithm.l3 * launch.numThreads % 2 ^ 64) backend.hugePageSize := by
  have inside := CpuLaunch.shares_lt shared
  have pages := sound.pages
  have whole : launch.algorithm.l3 * launch.numThreads % 2 ^ 64 = (launch.threads + 7) / 8 * 2 ^ 25 := by
    rw [CpuLaunch.l3_of_shares shared, CpuLaunch.numThreads]
    omega
  rw [whole]
  refine Nat.le_trans ?_ (VirtualMemory.le_align pages.1 ?_ ?_)
  · omega
  · omega
  · omega

theorem step_sound {backend next : HeavyBackend} {event : HeavyEvent} (sound : backend.Sound)
    (allowed : backend.mayStep event) (stepped : backend.step event = some next) : next.Sound := by
  cases event with
  | start launch =>
    cases stepped
    refine ⟨sound.pages, fun other same => ?_, fun other _ id member => absurd member List.not_mem_nil⟩
    cases same
    exact allowed
  | stop =>
    cases stepped
    refine ⟨sound.pages, fun other same => ?_, fun other _ id member => absurd member List.not_mem_nil⟩
    cases same
  | create id =>
    simp only [step, Option.bind_eq_some_iff] at stepped
    obtain ⟨launch, found, stepped⟩ := stepped
    split at stepped
    · cases stepped
      refine ⟨sound.pages, sound.few, fun other same worker member shared => ?_⟩
      cases found.symm.trans same
      have few := sound.few launch found
      -- The memory that the workers share from now on.
      cases memory : backend.memory with
      | none =>
        rcases List.mem_cons.mp member with rfl | old
        · exact ⟨_, if_pos ⟨shared, memory⟩, new_room sound few shared⟩
        · obtain ⟨size, made, room⟩ := sound.room launch found worker old shared
          rw [memory] at made
          cases made
      | some size =>
        have kept : (backend.create launch id).memory = some size := by
          refine (if_neg ?_).trans memory
          rintro ⟨-, none_⟩
          rw [memory] at none_
          cases none_
        refine ⟨size, kept, ?_⟩
        rcases List.mem_cons.mp member with rfl | old
        · have room := allowed launch found shared size memory
          rw [CpuLaunch.l3_of_shares shared] at room
          omega
        · obtain ⟨same, made, room⟩ := sound.room launch found worker old shared
          rw [memory] at made
          cases made
          exact room
    · cases stepped

/-- Shared scratchpads stay inside of their memory and apart, in every run in which the memory has
room for every worker that takes a part of it. -/
theorem heavy_contained (hugePageSize : Nat) (positive : 0 < hugePageSize) (small : hugePageSize ≤ 2 ^ 30)
    (events : List HeavyEvent) (allowed : Guarded step mayStep { hugePageSize } events) (final : HeavyBackend)
    (executed : run step { hugePageSize } events = some final) : final.Contained := by
  have start : Sound { hugePageSize } := by
    refine ⟨⟨positive, small⟩, fun launch none_ => ?_, fun launch none_ => ?_⟩
    · cases none_
    · cases none_
  exact (run_invariant (P := Sound) (fun _ _ _ sound permitted stepped => step_sound sound permitted stepped) start
    allowed executed).contained

def heavyLaunch (threads : Nat) : CpuLaunch := ⟨.cnHeavy0, true, true, List.replicate threads 1⟩

def shrinkingRun : List HeavyEvent :=
  [.start (heavyLaunch 16), .create 0, .create 9, .stop, .start (heavyLaunch 8), .create 3]

theorem shrinkingRun_runs : (run step { hugePageSize := 2097152 } shrinkingRun).isSome = true := by
  decide

theorem heavy_contained_shrinking :
    ∃ final, run step { hugePageSize := 2097152 } shrinkingRun = some final ∧ final.memory = some 0x4000000 ∧
      final.workers = [3] ∧ final.Contained := by
  have executed := (Option.some_get shrinkingRun_runs).symm
  exact ⟨_, executed, by decide, by decide,
    heavy_contained 2097152 (by decide) (by decide) shrinkingRun (by decide) _ executed⟩

def growingRun : List HeavyEvent := [.start (heavyLaunch 8), .create 0, .stop, .start (heavyLaunch 16), .create 8]

theorem growingRun_runs : (run step { hugePageSize := 2097152 } growingRun).isSome = true := by
  decide

/-- A worker of the second start lies behind the memory of the first. -/
theorem growing_outside :
    ∃ final, run step { hugePageSize := 2097152 } growingRun = some final ∧ ¬ final.Contained := by
  refine ⟨_, (Option.some_get growingRun_runs).symm, fun contained => ?_⟩
  obtain ⟨size, memory, inside⟩ := contained.inside (heavyLaunch 16) (by rfl) 8 (by decide) (by decide)
  have made : ((run step { hugePageSize := 2097152 } growingRun).get growingRun_runs).memory = some 0x2000000 := by
    decide
  rw [made] at memory
  cases memory
  have beyond := (inside 0 (by decide)).2
  revert beyond
  decide

end HeavyBackend

end Xmrig
