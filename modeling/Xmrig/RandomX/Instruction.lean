import Mathlib.Algebra.GroupWithZero.Nat
import Mathlib.Data.List.Basic

/-! RandomX instructions and the opcode frequencies of a RandomX variant.

A program is eight-byte instructions with arbitrary contents. Which operation
an opcode stands for is decided by the frequencies of the current
configuration: both compilers give each operation, in the order of the
enumeration, as many opcodes as its frequency says.
-/

set_option autoImplicit false

namespace Xmrig.RandomX

inductive InstructionType where
  | iaddRs | iaddM | isubR | isubM | imulR | imulM | imulhR | imulhM | ismulhR | ismulhM
  | imulRcp | inegR | ixorR | ixorM | irorR | irolR | iswapR
  | fswapR | faddR | faddM | fsubR | fsubM | fscalR | fmulR | fdivM | fsqrtR
  | cbranch | cfround | istore | nop
  deriving DecidableEq, Repr

def InstructionType.all : List InstructionType :=
  [.iaddRs, .iaddM, .isubR, .isubM, .imulR, .imulM, .imulhR, .imulhM, .ismulhR, .ismulhM,
    .imulRcp, .inegR, .ixorR, .ixorM, .irorR, .irolR, .iswapR,
    .fswapR, .faddR, .faddM, .fsubR, .fsubM, .fscalR, .fmulR, .fdivM, .fsqrtR,
    .cbranch, .cfround, .istore, .nop]

structure Instruction where
  opcode : BitVec 8
  dst : BitVec 8
  src : BitVec 8
  mod : BitVec 8
  imm32 : BitVec 32
  deriving DecidableEq, Repr

namespace Instruction

def getModMem (instr : Instruction) : BitVec 8 := instr.mod &&& 3

def getModShift (instr : Instruction) : Nat := ((instr.mod >>> 2) &&& 3).toNat

def getModCond (instr : Instruction) : Nat := (instr.mod >>> 4).toNat

theorem getModCond_lt (instr : Instruction) : instr.getModCond < 16 := by
  unfold getModCond
  rw [BitVec.toNat_ushiftRight, Nat.shiftRight_eq_div_pow]
  have := instr.mod.isLt
  omega

end Instruction

instance neZero_registerCount : NeZero 8 := ⟨by decide⟩
instance neZero_registerCountFlt : NeZero 4 := ⟨by decide⟩

def registerNeedsDisplacement : Fin 8 := 5
def registerNeedsSib : Fin 8 := 4

def jumpBits : Nat := 8
def jumpOffset : Nat := 8

def conditionMask : BitVec 32 := ((1 <<< jumpBits) - 1) <<< jumpOffset

def storeL3Condition : Nat := 14

/-- `x % RegistersCount`, as both `dst` and `src` are read. -/
def register (x : BitVec 8) : Fin 8 := Fin.ofNat 8 x.toNat

/-- `x % RegisterCountFlt`. -/
def registerFlt (x : BitVec 8) : Fin 4 := Fin.ofNat 4 x.toNat

def isZeroOrPowerOf2 (x : BitVec 64) : Bool := x &&& (x - 1) == 0

/-- What a variant of RandomX fixes for the two compilers. The frequencies of all
operations fill the 256 opcodes. -/
structure Configuration where
  frequency : InstructionType → Nat
  total : (InstructionType.all.map frequency).sum = 256
  scratchpadL1Size : BitVec 32
  scratchpadL2Size : BitVec 32
  scratchpadL3Size : BitVec 32

namespace Configuration

/-- The mask of eight-byte aligned addresses below `size`. -/
def sizeMask (size : BitVec 32) : BitVec 32 := (size / 8 - 1) * 8

/-- `AddressMask`: a zero `mod` selects the second level of the scratchpad. -/
def addressMask (config : Configuration) (modMem : BitVec 8) : BitVec 32 :=
  if modMem = 0 then sizeMask config.scratchpadL2Size else sizeMask config.scratchpadL1Size

def scratchpadL3Mask (config : Configuration) : BitVec 32 := sizeMask config.scratchpadL3Size

def baseFrequency : InstructionType → Nat
  | .iaddRs => 16 | .iaddM => 7 | .isubR => 16 | .isubM => 7 | .imulR => 16 | .imulM => 4
  | .imulhR => 4 | .imulhM => 1 | .ismulhR => 4 | .ismulhM => 1 | .imulRcp => 8 | .inegR => 2
  | .ixorR => 15 | .ixorM => 5 | .irorR => 8 | .irolR => 2 | .iswapR => 4 | .fswapR => 4
  | .faddR => 16 | .faddM => 5 | .fsubR => 16 | .fsubM => 5 | .fscalR => 6 | .fmulR => 32
  | .fdivM => 4 | .fsqrtR => 6 | .cbranch => 25 | .cfround => 1 | .istore => 16 | .nop => 0

def wowneroFrequency : InstructionType → Nat
  | .iaddRs => 25 | .irorR => 10 | .irolR => 0 | .fswapR => 8 | .faddR => 20 | .fsubR => 20
  | .fmulR => 20 | .cbranch => 16 | type => baseFrequency type

def graftFrequency : InstructionType → Nat
  | .irorR => 7 | .irolR => 3 | type => baseFrequency type

def base : Configuration where
  frequency := baseFrequency
  total := by decide
  scratchpadL1Size := 16384
  scratchpadL2Size := 262144
  scratchpadL3Size := 2097152

def wownero : Configuration where
  frequency := wowneroFrequency
  total := by decide
  scratchpadL1Size := 16384
  scratchpadL2Size := 131072
  scratchpadL3Size := 1048576

def arqma : Configuration :=
  { base with scratchpadL2Size := 131072, scratchpadL3Size := 262144 }

def graft : Configuration := { base with frequency := graftFrequency, total := by decide }

/-- The chain of comparisons at the top of `compileInstruction`: an opcode that is not
among the next operation's is reduced by that operation's frequency. -/
def select (frequency : InstructionType → Nat) :
    Nat → List InstructionType → Option InstructionType
  | _, [] => none
  | opcode, type :: rest =>
      if opcode < frequency type then some type
      else select frequency (opcode - frequency type) rest

theorem select_isSome (frequency : InstructionType → Nat) (opcode : Nat)
    (types : List InstructionType) (below : opcode < (types.map frequency).sum) :
    (select frequency opcode types).isSome := by
  induction types generalizing opcode with
  | nil => simp at below
  | cons type rest ih =>
    rw [select]
    split
    · rfl
    · rw [List.map_cons, List.sum_cons] at below
      exact ih _ (by omega)

/-- Every opcode stands for an operation, so `UNREACHABLE` is not reached. -/
def instructionType (config : Configuration) (opcode : BitVec 8) : InstructionType :=
  (select config.frequency opcode.toNat InstructionType.all).get
    (select_isSome _ _ _ (by rw [config.total]; exact opcode.isLt))

/-- The dispatch table of the native compiler: each operation's handler is stored
`frequency` times, one after the other. -/
def engine (frequency : InstructionType → Nat) : List InstructionType → List InstructionType
  | [] => []
  | type :: rest => List.replicate (frequency type) type ++ engine frequency rest

theorem engine_getElem? (frequency : InstructionType → Nat) (opcode : Nat)
    (types : List InstructionType) :
    (engine frequency types)[opcode]? = select frequency opcode types := by
  induction types generalizing opcode with
  | nil => rfl
  | cons type rest ih =>
    rw [engine, select]
    split
    · rename_i below
      rw [List.getElem?_append_left (by simpa using below)]
      simp [below]
    · rename_i above
      rw [List.getElem?_append_right (by simpa using above), List.length_replicate]
      exact ih _

theorem engine_instructionType (config : Configuration) (opcode : BitVec 8) :
    (engine config.frequency InstructionType.all)[opcode.toNat]? =
      some (config.instructionType opcode) := by
  rw [engine_getElem?, instructionType, Option.some_get]

end Configuration

end Xmrig.RandomX
