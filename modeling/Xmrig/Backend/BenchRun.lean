import Xmrig.Backend.CpuResults

/-! A benchmark: several processor workers on one job.

Every step of a worker is a step of the run, between two of which any other worker may take its own; a job may be
touched at any point, and the miner may be paused or go on. The run also keeps what was given to `BenchState::add`,
with the nonce that each value was for.
-/

set_option autoImplicit false

namespace Xmrig

open Foundation

def Algorithm.minIntensity (algorithm : Algorithm) : Nat := if algorithm = .ghostriderRtm then 8 else 1

def Algorithm.maxIntensity (algorithm : Algorithm) : Nat :=
  if algorithm.isCN then 5 else if algorithm = .ghostriderRtm then 8 else 1

/-- The intensity of the launch data, which is the number of lanes. -/
def launchIntensity (algorithm : Algorithm) (intensity : Nat) : Nat :=
  max (min intensity algorithm.maxIntensity) algorithm.minIntensity

/-- The job that the benchmark client makes, how many hashes it is for, and the intensities of the threads.
A size of zero is no benchmark. -/
structure Bench where
  job : Job
  size : BitVec 32
  intensities : List Nat
  positive : size ≠ 0
  sized : job.Sized
  known : job.algorithm ≠ .invalid
  narrow : job.algorithm.family ≠ Algorithm.kawpow
  open_ : job.nicehash = false
  unsigned : job.hasMinerSignature = false
  own : job.index = userIndex
  unassigned : job.backend = 0

namespace Bench
variable (bench : Bench)

def threads : Nat := bench.intensities.length

theorem intensity_pos (algorithm : Algorithm) (intensity : Nat) : 0 < launchIntensity algorithm intensity := by
  unfold launchIntensity Algorithm.minIntensity
  split <;> omega

def config (index : Nat) : CpuConfig where
  lanes := launchIntensity bench.job.algorithm (bench.intensities.getD index 0)
  algorithm := bench.job.algorithm
  threads := bench.threads
  positive := intensity_pos _ _

end Bench

/-- The workers, what they share, and what was added to the sum so far. -/
structure BenchRun (hasher : Hasher) where
  workers : Nat → CpuWorker hasher
  shared : CpuShared
  added : List (BitVec 32 × BitVec 64) := []

inductive BenchEvent where
  | work (index random : Nat)
  | touch
  | pause (paused : Bool)
  deriving DecidableEq, Repr

def works (index count : Nat) : List BenchEvent := List.replicate count (.work index 0)

/-- What the next step gives to `BenchState::add`. -/
def CpuWorker.adds {hasher : Hasher} (config : CpuConfig) (worker : CpuWorker hasher) :
    List (BitVec 32 × BitVec 64) :=
  match worker.stage with
  | .checking lane =>
    if (worker.valid config ∧ lane < config.lanes) ∧ worker.benchSize ≠ 0 ∧ worker.nonces lane < worker.benchSize then
      [(worker.nonces lane, hashValue (worker.hashes lane))]
    else []
  | _ => []

namespace BenchRun
variable {hasher : Hasher}

def step (bench : Bench) (state : BenchRun hasher) : BenchEvent → Option (BenchRun hasher)
  | .work index random =>
    if index < bench.threads then
      ((state.workers index).step (bench.config index) state.shared random).map fun after =>
        { workers := Function.update state.workers index after.1
          shared := after.2.1
          added := state.added ++ (state.workers index).adds (bench.config index) }
    else none
  | .touch => some { state with shared := { state.shared with nonce := state.shared.nonce.touch } }
  | .pause paused => some { state with shared := { state.shared with nonce := state.shared.nonce.pause paused } }

/-- Behind `BenchState::start`: the counters are reset and the miner is still paused. -/
def start (bench : Bench) (machines : Nat → hasher.Machine) : BenchRun hasher where
  workers index := { machine := machines index }
  shared :=
    { job := bench.job
      benchSize := bench.size
      remaining := BitVec.ofNat 32 bench.threads }

/-- Every worker has called `BenchState::done`. -/
def Finished (bench : Bench) (state : BenchRun hasher) : Prop :=
  ∀ index < bench.threads, (state.workers index).stage = .finished

end BenchRun

def Job.withNonce (job : Job) (nonce : BitVec 32) : List Byte :=
  (List.range job.size).map ((Memory.ofBytes job.blob).writeWord job.nonceOffset nonce)

namespace Bench

def value (bench : Bench) (hasher : Hasher) (nonce : BitVec 32) : BitVec 64 :=
  hashValue (hasher.hash bench.job (bench.job.withNonce nonce))

def nonces (bench : Bench) : List (BitVec 32) := (List.range bench.size.toNat).map (BitVec.ofNat 32)

def sum (bench : Bench) (hasher : Hasher) : BitVec 64 := (bench.nonces.map (bench.value hasher)).foldl (· ^^^ ·) 0

/-- The completion is signalled once, when the last worker is done, and then every nonce of the benchmark has
contributed its own value exactly once. -/
structure Correct (bench : Bench) {hasher : Hasher} (state : BenchRun hasher) : Prop where
  once : state.shared.sends ≤ 1
  last : state.shared.sends = 1 ↔ 0 < bench.threads ∧ state.Finished bench
  each : state.shared.sends = 1 → (state.added.map Prod.fst).Perm bench.nonces
  own : ∀ entry ∈ state.added, entry.2 = bench.value hasher entry.1
  result : state.shared.sends = 1 → state.shared.data = bench.sum hasher

end Bench

end Xmrig
