import Xmrig.RandomX.AesHash
import Xmrig.RandomX.Instruction

/-! Plain and pipelined hashing.

`randomx_calculate_hash` fills the scratchpad, runs the chain of programs and
hashes the scratchpad. The worker instead calls `randomx_calculate_hash_first`
once and `randomx_calculate_hash_next` for each further input, which hashes the
scratchpad of one input while filling it for the next. Blake2b and the
execution of one program of the chain are parameters.
-/

set_option autoImplicit false

namespace Xmrig.RandomX

structure RegisterFile where
  r : Fin 8 → BitVec 64
  f : Lanes
  e : Lanes
  a : Lanes

/-- What `run` reads besides the seed and the dataset, and what it leaves behind: the
scratchpad's own vectors and the floating point control register. -/
structure Execution (vectors : Nat) where
  reg : RegisterFile
  scratchpad : Fin vectors → BitVec 128
  mxcsr : BitVec 32

/-- The functions hashing is built from. `vectors` counts the scratchpad in sixteen bytes. -/
structure Primitives (vectors : Nat) where
  aes : AesRound
  /-- 64 bytes of Blake2b of an input. -/
  blake2bInput : List (BitVec 8) → Lanes
  /-- 64 bytes of Blake2b of the register file. -/
  blake2bRegisters : RegisterFile → Lanes
  /-- `RANDOMX_HASH_SIZE` bytes of Blake2b of the register file. -/
  blake2bResult : RegisterFile → BitVec 256
  /-- `run`: generate the program of a seed and execute it. -/
  execute : Lanes → (Fin vectors → BitVec 128) → BitVec 32 → Execution vectors

/-- The parts of a virtual machine that hashing changes; memory is that from the scratchpad
on, past its end too. -/
structure Vm where
  memory : Vectors
  reg : RegisterFile
  mxcsr : BitVec 32

/-- `rx_mxcsr_default`. -/
def mxcsrDefault : BitVec 32 := 0x9FC0

namespace Vm
variable {size : Nat}

def scratchpad (vm : Vm) (size : Nat) : Fin (size / 16) → BitVec 128 := fun index => vm.memory index

def resetRoundingMode (vm : Vm) : Vm := { vm with mxcsr := mxcsrDefault }

def replace (memory : Vectors) {vectors : Nat} (scratchpad : Fin vectors → BitVec 128) : Vectors :=
  fun index => if inside : index < vectors then scratchpad ⟨index, inside⟩ else memory index

def run (prims : Primitives (size / 16)) (vm : Vm) (seed : Lanes) : Vm :=
  let result := prims.execute seed (vm.scratchpad size) vm.mxcsr
  { memory := replace vm.memory result.scratchpad, reg := result.reg, mxcsr := result.mxcsr }

/-- `initScratchpad`, with the state that is written back to the seed. -/
def initScratchpad (prims : Primitives (size / 16)) (vm : Vm) (seed : Lanes) : Lanes × Vm :=
  let filled := fillAes1Rx4 prims.aes seed size vm.memory
  (filled.1, { vm with memory := filled.2 })

def getFinalResult (prims : Primitives (size / 16)) (vm : Vm) : BitVec 256 × Vm :=
  let reg := { vm.reg with a := hashAes1Rx4 prims.aes vm.memory size }
  (prims.blake2bResult reg, { vm with reg })

/-- `hashAndFill` for the template arguments of the AES implementation in use; also the fill
state that is written back. -/
def hashAndFill (prims : Primitives (size / 16)) (softAes unroll : Nat) (vm : Vm) (fill : Lanes) :
    BitVec 256 × Lanes × Vm :=
  let both := hashAndFillAes1Rx4 prims.aes softAes unroll vm.memory size fill
  let reg := { vm.reg with a := both.hash }
  (prims.blake2bResult reg, both.fill, { vm with memory := both.memory, reg })

/-- The chain of programs: after each but the last the seed is a hash of the registers. -/
def runChain (prims : Primitives (size / 16)) : Nat → Vm → Lanes → Vm
  | 0, vm, seed => vm.run prims seed
  | chain + 1, vm, seed =>
      runChain prims chain (vm.run prims seed) (prims.blake2bRegisters (vm.run prims seed).reg)

end Vm

section Hashing
variable {size : Nat} (prims : Primitives (size / 16)) (programCount : BitVec 32)

def calculateHash (vm : Vm) (input : List (BitVec 8)) : BitVec 256 × Vm :=
  let init := vm.initScratchpad prims (prims.blake2bInput input)
  (init.2.resetRoundingMode.runChain prims (programCount - 1).toNat init.1).getFinalResult prims

/-- The temporary hash and the machine after `randomx_calculate_hash_first`. -/
def calculateHashFirst (vm : Vm) (input : List (BitVec 8)) : Lanes × Vm :=
  vm.initScratchpad prims (prims.blake2bInput input)

/-- The output for the current input, with the temporary hash and the machine that are ready
for the next one. -/
def calculateHashNext (softAes unroll : Nat) (state : Lanes × Vm) (nextInput : List (BitVec 8)) :
    BitVec 256 × Lanes × Vm :=
  let finished := state.2.resetRoundingMode.runChain prims (programCount - 1).toNat state.1
  finished.hashAndFill prims softAes unroll (prims.blake2bInput nextInput)

/-- The outputs of a series of `randomx_calculate_hash_next`. -/
def nextOutputs (softAes unroll : Nat) : Lanes × Vm → List (List (BitVec 8)) → List (BitVec 256)
  | _, [] => []
  | state, input :: rest =>
      let next := calculateHashNext prims programCount softAes unroll state input
      next.1 :: nextOutputs softAes unroll next.2 rest

def pipelinedOutputs (softAes unroll : Nat) (vm : Vm) (first : List (BitVec 8))
    (rest : List (List (BitVec 8))) : List (BitVec 256) :=
  nextOutputs prims programCount softAes unroll (calculateHashFirst prims vm first) rest

end Hashing

section Agreement
variable {size : Nat} (prims : Primitives (size / 16))

/-- A run reads the scratchpad and the control register only. -/
theorem Vm.run_congr {left right : Vm} (scratchpad : left.scratchpad size = right.scratchpad size)
    (mxcsr : left.mxcsr = right.mxcsr) (seed : Lanes) :
    (left.run prims seed).scratchpad size = (right.run prims seed).scratchpad size ∧
      (left.run prims seed).mxcsr = (right.run prims seed).mxcsr ∧
      (left.run prims seed).reg = (right.run prims seed).reg := by
  unfold Vm.run
  rw [scratchpad, mxcsr]
  refine ⟨?_, rfl, rfl⟩
  funext index
  simp [Vm.scratchpad, Vm.replace]

theorem Vm.runChain_congr (chain : Nat) {left right : Vm}
    (scratchpad : left.scratchpad size = right.scratchpad size)
    (mxcsr : left.mxcsr = right.mxcsr) (seed : Lanes) :
    (left.runChain prims chain seed).scratchpad size =
        (right.runChain prims chain seed).scratchpad size ∧
      (left.runChain prims chain seed).reg = (right.runChain prims chain seed).reg := by
  induction chain generalizing left right seed with
  | zero =>
    obtain ⟨scratchpad, _, reg⟩ := Vm.run_congr prims scratchpad mxcsr seed
    exact ⟨scratchpad, reg⟩
  | succ chain ih =>
    obtain ⟨scratchpad, mxcsr, reg⟩ := Vm.run_congr prims scratchpad mxcsr seed
    rw [Vm.runChain, Vm.runChain, reg]
    exact ih scratchpad mxcsr _

variable (aligned : 256 ∣ size)
include aligned

theorem hashAes1Rx4_congr (aes : AesRound) {left right : Vm}
    (same : left.scratchpad size = right.scratchpad size) :
    hashAes1Rx4 aes left.memory size = hashAes1Rx4 aes right.memory size := by
  obtain ⟨n, rfl⟩ : 64 ∣ size := Dvd.dvd.trans (by decide) aligned
  rw [hashAes1Rx4_eq, hashAes1Rx4_eq, absorbed_congr aes fun index below => ?_]
  exact congrFun same ⟨index, by omega⟩

/-- The temporary hash and the scratchpad that `randomx_calculate_hash_first` leaves do not
depend on the machine it is given. -/
theorem initScratchpad_congr (left right : Vm) (seed : Lanes) :
    (left.initScratchpad prims seed).1 = (right.initScratchpad prims seed).1 ∧
      (left.initScratchpad prims seed).2.scratchpad size =
        (right.initScratchpad prims seed).2.scratchpad size := by
  obtain ⟨n, rfl⟩ : 64 ∣ size := Dvd.dvd.trans (by decide) aligned
  unfold Vm.initScratchpad
  rw [fillAes1Rx4_eq, fillAes1Rx4_eq]
  refine ⟨rfl, ?_⟩
  funext index
  have inside := index.isLt
  exact overwritten_congr prims.aes seed left.memory right.memory (by omega)

end Agreement

section Pipeline
variable {size : Nat} (prims : Primitives (size / 16)) (programCount : BitVec 32)

/-- The temporary hash and the scratchpad are those of `input`. -/
def Ready (input : List (BitVec 8)) (state : Lanes × Vm) : Prop :=
  ∀ vm, state.1 = (calculateHashFirst prims vm input).1 ∧
    state.2.scratchpad size = (calculateHashFirst prims vm input).2.scratchpad size

variable (aligned : 256 ∣ size)
include aligned

theorem calculateHashFirst_ready (vm : Vm) (input : List (BitVec 8)) :
    Ready prims input (calculateHashFirst prims vm input) :=
  fun other => initScratchpad_congr prims aligned vm other _

theorem Ready.output {input : List (BitVec 8)} {state : Lanes × Vm}
    (ready : Ready prims input state) (vm : Vm) :
    ((state.2.resetRoundingMode.runChain prims (programCount - 1).toNat state.1).getFinalResult
      prims).1 = (calculateHash prims programCount vm input).1 := by
  obtain ⟨seed, scratchpad⟩ := ready vm
  have reset : state.2.resetRoundingMode.scratchpad size =
      (calculateHashFirst prims vm input).2.resetRoundingMode.scratchpad size := scratchpad
  obtain ⟨finished, reg⟩ := Vm.runChain_congr prims (programCount - 1).toNat reset rfl state.1
  unfold calculateHash Vm.getFinalResult
  dsimp only
  rw [hashAes1Rx4_congr aligned prims.aes finished, reg, seed]
  rfl

variable (large : prefetchDistance ≤ size)
include large

theorem Vm.hashAndFill_eq (softAes unroll : Nat) (vm : Vm) (fill : Lanes) :
    vm.hashAndFill prims softAes unroll fill =
      ((vm.getFinalResult prims).1,
        (vm.getFinalResult prims).2.initScratchpad prims fill) := by
  unfold Vm.hashAndFill
  rw [hashAndFillAes1Rx4_eq softAes unroll aligned large]
  rfl

theorem calculateHashNext_spec (softAes unroll : Nat) {input : List (BitVec 8)}
    {state : Lanes × Vm} (ready : Ready prims input state) (nextInput : List (BitVec 8)) (vm : Vm) :
    (calculateHashNext prims programCount softAes unroll state nextInput).1 =
        (calculateHash prims programCount vm input).1 ∧
      Ready prims nextInput
        (calculateHashNext prims programCount softAes unroll state nextInput).2 := by
  unfold calculateHashNext
  rw [Vm.hashAndFill_eq prims aligned large]
  exact ⟨ready.output prims programCount aligned vm, calculateHashFirst_ready prims aligned _ _⟩

theorem nextOutputs_eq (softAes unroll : Nat) {input : List (BitVec 8)} {state : Lanes × Vm}
    (ready : Ready prims input state) (rest : List (List (BitVec 8))) (vm : Vm) :
    nextOutputs prims programCount softAes unroll state rest =
      (input :: rest).dropLast.map fun input => (calculateHash prims programCount vm input).1 := by
  induction rest generalizing input state with
  | nil => rfl
  | cons nextInput rest ih =>
    obtain ⟨output, nextReady⟩ :=
      calculateHashNext_spec prims programCount aligned large softAes unroll ready nextInput vm
    rw [nextOutputs, List.dropLast_cons_cons, List.map_cons, output, ih nextReady]

end Pipeline

/-- The pipelined worker outputs the hashes of all inputs but the last, which is still in
progress: the hashes that any other machine computes one by one, for every AES implementation
and unrolling. -/
theorem pipelinedOutputs_eq {size : Nat} (prims : Primitives (size / 16)) (programCount : BitVec 32)
    (aligned : 256 ∣ size) (large : 7168 ≤ size) (softAes unroll : Nat) (vm other : Vm)
    (first : List (BitVec 8)) (rest : List (List (BitVec 8))) :
    pipelinedOutputs prims programCount softAes unroll vm first rest =
      (first :: rest).dropLast.map fun input => (calculateHash prims programCount other input).1 :=
  nextOutputs_eq prims programCount aligned large softAes unroll
    (calculateHashFirst_ready prims aligned vm first) rest other

/-- Primitives that mix by exclusive or, for the smallest scratchpad of the variants. -/
def exampleVariant : Primitives (262144 / 16) where
  aes := ⟨fun state key => state ^^^ key, fun state key => ~~~state ^^^ key⟩
  blake2bInput input := ⟨input.length, 1, 2, 3⟩
  blake2bRegisters reg := reg.f
  blake2bResult reg := (reg.r 0).setWidth 256
  execute seed scratchpad mxcsr := ⟨⟨fun _ => 7, seed, seed, seed⟩, scratchpad, mxcsr⟩

theorem pipelinedOutputs_eq_example :
    256 ∣ 262144 ∧ 7168 ≤ 262144 ∧
      pipelinedOutputs exampleVariant 4 0 2 ⟨fun _ => 0, ⟨fun _ => 0, ⟨0, 0, 0, 0⟩, ⟨0, 0, 0, 0⟩,
        ⟨0, 0, 0, 0⟩⟩, 0⟩ [1] [[2], [3]] =
      [[1], [2]].map fun input => (calculateHash exampleVariant 4 ⟨fun _ => 5, ⟨fun _ => 0,
        ⟨0, 0, 0, 0⟩, ⟨0, 0, 0, 0⟩, ⟨0, 0, 0, 0⟩⟩, 0⟩ input).1 :=
  ⟨by decide, by decide, pipelinedOutputs_eq exampleVariant 4 (by decide) (by decide) 0 2 _ _ [1]
    [[2], [3]]⟩

end Xmrig.RandomX
