import Xmrig.RandomX.Instruction
import Mathlib.Data.Nat.Size
import Mathlib.Logic.Function.Basic
import Mathlib.Order.Fin.Basic

/-! The bytecode machine of the interpreter.

`compileInstruction` resolves one instruction to the operands it reads and
writes, and remembers for each integer register the last instruction that
wrote it; a CBRANCH jumps back to just after that instruction.
`executeInstruction` runs one compiled instruction. Floating point arithmetic
is a parameter that takes the rounding mode in force.
-/

set_option autoImplicit false

namespace Xmrig.RandomX

/-- Where `isrc` points: an integer register, the instruction's own `imm`, or `zero`. -/
inductive IntegerSource where
  | register (index : Fin 8)
  | imm
  | zero
  deriving DecidableEq, Repr

inductive FloatRegister where
  | f (index : Fin 4)
  | e (index : Fin 4)
  | a (index : Fin 4)
  deriving DecidableEq, Repr

/-- Fields that an operation does not use keep a default here. -/
structure InstructionByteCode where
  type : InstructionType
  idst : Fin 8 := 0
  isrc : IntegerSource := .zero
  fdst : FloatRegister := .f 0
  fsrc : FloatRegister := .a 0
  imm : BitVec 64 := 0
  target : BitVec 16 := 0
  shift : Nat := 0
  memMask : BitVec 32 := 0
  deriving DecidableEq, Repr

/-- For each integer register, the instruction that wrote it last. -/
abbrev RegisterUsage := Fin 8 → Int

namespace RegisterUsage

def begin : RegisterUsage := fun _ => -1

def mark (usage : RegisterUsage) (index : Fin 8) (i : Nat) : RegisterUsage :=
  Function.update usage index i

end RegisterUsage

def signExtend2sCompl (x : BitVec 32) : BitVec 64 := x.signExtend 64

/-- Double and subtract, the quotient growing by one bit in each pass. -/
def reciprocalLoop (divisor : BitVec 64) : Nat → BitVec 64 → BitVec 64 → BitVec 64
  | 0, quotient, _ => quotient
  | shift + 1, quotient, remainder =>
      if divisor - remainder ≤ remainder then
        reciprocalLoop divisor shift (quotient * 2 + 1) (remainder * 2 - divisor)
      else reciprocalLoop divisor shift (quotient * 2) (remainder * 2)

/-- `randomx_reciprocal`. The number of passes is the bit length of the divisor. -/
def reciprocal (divisor : BitVec 64) : BitVec 64 :=
  let p2exp63 : BitVec 64 := 1 <<< 63
  reciprocalLoop divisor divisor.toNat.size (p2exp63 / divisor) (p2exp63 % divisor)

/-- The immediate of a CBRANCH: one bit forced to one, the bit below it to zero. -/
def branchImm (imm32 : BitVec 32) (shift : Nat) : BitVec 64 :=
  (signExtend2sCompl imm32 ||| ((1#64 <<< jumpOffset) <<< shift)) &&&
    ~~~((1#64 <<< (jumpOffset - 1)) <<< shift)

def branchMask (shift : Nat) : BitVec 32 := conditionMask <<< shift

section Compile
variable (config : Configuration)

/-- The operations with an integer register or, when both registers are the same, an
immediate as source: ISUB_R, IMUL_R, IXOR_R, IROR_R and IROL_R. -/
def compileRegister (type : InstructionType) (imm : BitVec 64) (instr : Instruction) :
    InstructionByteCode :=
  if register instr.src ≠ register instr.dst then
    { type, idst := register instr.dst, isrc := .register (register instr.src) }
  else { type, idst := register instr.dst, isrc := .imm, imm }

def compileMemory (type : InstructionType) (instr : Instruction) : InstructionByteCode :=
  if register instr.src ≠ register instr.dst then
    { type, idst := register instr.dst, isrc := .register (register instr.src),
      imm := signExtend2sCompl instr.imm32, memMask := config.addressMask instr.getModMem }
  else
    { type, idst := register instr.dst, isrc := .zero,
      imm := signExtend2sCompl instr.imm32, memMask := config.scratchpadL3Mask }

/-- FADD_R, FSUB_R and FMUL_R, with the group of the destination. -/
def compileFloat (type : InstructionType) (group : Fin 4 → FloatRegister) (instr : Instruction) :
    InstructionByteCode :=
  { type, fdst := group (registerFlt instr.dst), fsrc := .a (registerFlt instr.src) }

def compileFloatMemory (type : InstructionType) (group : Fin 4 → FloatRegister)
    (instr : Instruction) : InstructionByteCode :=
  { type, fdst := group (registerFlt instr.dst), isrc := .register (register instr.src),
    memMask := config.addressMask instr.getModMem, imm := signExtend2sCompl instr.imm32 }

/-- `compileInstruction` of the instruction at `i`, with the registers it marks. -/
def compileInstruction (instr : Instruction) (i : Nat) (usage : RegisterUsage) :
    InstructionByteCode × RegisterUsage :=
  let dst := register instr.dst
  let src := register instr.src
  let imm := signExtend2sCompl instr.imm32
  let used := usage.mark dst i
  match config.instructionType instr.opcode with
  | .iaddRs =>
      ({ type := .iaddRs, idst := dst, isrc := .register src, shift := instr.getModShift,
         imm := if dst ≠ registerNeedsDisplacement then 0 else imm }, used)
  | .iaddM => (compileMemory config .iaddM instr, used)
  | .isubR => (compileRegister .isubR imm instr, used)
  | .isubM => (compileMemory config .isubM instr, used)
  | .imulR => (compileRegister .imulR imm instr, used)
  | .imulM => (compileMemory config .imulM instr, used)
  | .imulhR => ({ type := .imulhR, idst := dst, isrc := .register src }, used)
  | .imulhM => (compileMemory config .imulhM instr, used)
  | .ismulhR => ({ type := .ismulhR, idst := dst, isrc := .register src }, used)
  | .ismulhM => (compileMemory config .ismulhM instr, used)
  | .imulRcp =>
      let divisor := instr.imm32.setWidth 64
      if ¬ isZeroOrPowerOf2 divisor then
        ({ type := .imulR, idst := dst, imm := reciprocal divisor, isrc := .imm }, used)
      else ({ type := .nop }, usage)
  | .inegR => ({ type := .inegR, idst := dst }, used)
  | .ixorR => (compileRegister .ixorR imm instr, used)
  | .ixorM => (compileMemory config .ixorM instr, used)
  | .irorR => (compileRegister .irorR (instr.imm32.setWidth 64) instr, used)
  | .irolR => (compileRegister .irolR (instr.imm32.setWidth 64) instr, used)
  | .iswapR =>
      if src ≠ dst then
        ({ type := .iswapR, idst := dst, isrc := .register src }, used.mark src i)
      else ({ type := .nop }, usage)
  | .fswapR =>
      ({ type := .fswapR,
         fdst := if dst.val < 4 then .f (registerFlt instr.dst) else .e (registerFlt instr.dst) },
        usage)
  | .faddR => (compileFloat .faddR .f instr, usage)
  | .faddM => (compileFloatMemory config .faddM .f instr, usage)
  | .fsubR => (compileFloat .fsubR .f instr, usage)
  | .fsubM => (compileFloatMemory config .fsubM .f instr, usage)
  | .fscalR => ({ type := .fscalR, fdst := .f (registerFlt instr.dst) }, usage)
  | .fmulR => (compileFloat .fmulR .e instr, usage)
  | .fdivM => (compileFloatMemory config .fdivM .e instr, usage)
  | .fsqrtR => ({ type := .fsqrtR, fdst := .e (registerFlt instr.dst) }, usage)
  | .cbranch =>
      ({ type := .cbranch, idst := dst, target := BitVec.ofInt 16 (usage dst),
         imm := branchImm instr.imm32 instr.getModCond,
         memMask := branchMask instr.getModCond }, fun _ => i)
  | .cfround =>
      ({ type := .cfround, isrc := .register src, imm := (instr.imm32 &&& 63).setWidth 64 }, usage)
  | .istore =>
      ({ type := .istore, idst := dst, isrc := .register src, imm,
         memMask := if instr.getModCond < storeL3Condition then config.addressMask instr.getModMem
           else config.scratchpadL3Mask }, usage)
  | .nop => ({ type := .nop }, usage)

/-- The loop of `compileProgram` from instruction `i` on. -/
def compileFrom (i : Nat) (usage : RegisterUsage) : List Instruction → List InstructionByteCode
  | [] => []
  | instr :: rest =>
      (compileInstruction config instr i usage).1 ::
        compileFrom (i + 1) (compileInstruction config instr i usage).2 rest

def compileProgram (program : List Instruction) : List InstructionByteCode :=
  compileFrom config 0 RegisterUsage.begin program

end Compile

/-- `RoundToNearest`, `RoundDown`, `RoundUp` and `RoundToZero` are 0 to 3. -/
abbrev RoundingMode := BitVec 2

/-- Double precision arithmetic on bit patterns, in a rounding mode. -/
structure FloatUnit where
  add : RoundingMode → BitVec 64 → BitVec 64 → BitVec 64
  sub : RoundingMode → BitVec 64 → BitVec 64 → BitVec 64
  mul : RoundingMode → BitVec 64 → BitVec 64 → BitVec 64
  div : RoundingMode → BitVec 64 → BitVec 64 → BitVec 64
  sqrt : RoundingMode → BitVec 64 → BitVec 64
  ofInt32 : BitVec 32 → BitVec 64

/-- `rx_vec_f128`. -/
structure Vec128 where
  lo : BitVec 64
  hi : BitVec 64
  deriving DecidableEq, Repr

namespace Vec128

def map (op : BitVec 64 → BitVec 64) (x : Vec128) : Vec128 := ⟨op x.lo, op x.hi⟩

def map2 (op : BitVec 64 → BitVec 64 → BitVec 64) (x y : Vec128) : Vec128 :=
  ⟨op x.lo y.lo, op x.hi y.hi⟩

def swap (x : Vec128) : Vec128 := ⟨x.hi, x.lo⟩

/-- `rx_cvt_packed_int_vec_f128` of the eight bytes at an address. -/
def cvtPackedInt (unit : FloatUnit) (bytes : BitVec 64) : Vec128 :=
  ⟨unit.ofInt32 (bytes.setWidth 32), unit.ofInt32 ((bytes >>> 32).setWidth 32)⟩

end Vec128

abbrev Scratchpad := Nat → BitVec 8

namespace Scratchpad

def load64 (scratchpad : Scratchpad) (address : Nat) : BitVec 64 :=
  scratchpad (address + 7) ++ scratchpad (address + 6) ++ scratchpad (address + 5) ++
    scratchpad (address + 4) ++ scratchpad (address + 3) ++ scratchpad (address + 2) ++
    scratchpad (address + 1) ++ scratchpad address

def store64 (scratchpad : Scratchpad) (address : Nat) (value : BitVec 64) : Scratchpad :=
  fun index => if address ≤ index ∧ index < address + 8 then
    (value >>> (8 * (index - address))).setWidth 8 else scratchpad index

end Scratchpad

/-- The register file, the scratchpad and the rounding mode of the processor. -/
structure Machine where
  r : Fin 8 → BitVec 64
  f : Fin 4 → Vec128
  e : Fin 4 → Vec128
  a : Fin 4 → Vec128
  scratchpad : Scratchpad
  rounding : RoundingMode

namespace Machine

def setR (machine : Machine) (index : Fin 8) (value : BitVec 64) : Machine :=
  { machine with r := Function.update machine.r index value }

def float (machine : Machine) : FloatRegister → Vec128
  | .f index => machine.f index
  | .e index => machine.e index
  | .a index => machine.a index

def setFloat (machine : Machine) (value : Vec128) : FloatRegister → Machine
  | .f index => { machine with f := Function.update machine.f index value }
  | .e index => { machine with e := Function.update machine.e index value }
  | .a index => { machine with a := Function.update machine.a index value }

@[simp] theorem setR_r (machine : Machine) (index : Fin 8) (value : BitVec 64) :
    (machine.setR index value).r = Function.update machine.r index value := rfl

@[simp] theorem setR_rounding (machine : Machine) (index : Fin 8) (value : BitVec 64) :
    (machine.setR index value).rounding = machine.rounding := rfl

@[simp] theorem setFloat_r (machine : Machine) (value : Vec128) (index : FloatRegister) :
    (machine.setFloat value index).r = machine.r := by
  cases index <;> rfl

@[simp] theorem setFloat_rounding (machine : Machine) (value : Vec128) (index : FloatRegister) :
    (machine.setFloat value index).rounding = machine.rounding := by
  cases index <;> rfl

end Machine

def mulh (x y : BitVec 64) : BitVec 64 := ((x.setWidth 128 * y.setWidth 128) >>> 64).setWidth 64

def smulh (x y : BitVec 64) : BitVec 64 :=
  ((x.signExtend 128 * y.signExtend 128) >>> 64).setWidth 64

section Execute
variable (unit : FloatUnit) (eMask : Vec128)

def InstructionByteCode.source (ibc : InstructionByteCode) (machine : Machine) : BitVec 64 :=
  match ibc.isrc with
  | .register index => machine.r index
  | .imm => ibc.imm
  | .zero => 0

/-- The eight bytes at `getScratchpadAddress`. -/
def InstructionByteCode.load (ibc : InstructionByteCode) (machine : Machine) : BitVec 64 :=
  machine.scratchpad.load64 ((ibc.source machine + ibc.imm) &&& ibc.memMask.setWidth 64).toNat

def dynamicMantissaMask : BitVec 64 := (1 <<< 56) - 1

def maskRegisterExponentMantissa (x : Vec128) : Vec128 :=
  (x.map (· &&& dynamicMantissaMask)).map2 (· ||| ·) eMask

/-- The new value of an integer register, for the operations that compute one from the
old value and one operand. -/
def integerResult (type : InstructionType) (dst operand : BitVec 64) : BitVec 64 :=
  match type with
  | .iaddM => dst + operand
  | .isubR | .isubM => dst - operand
  | .imulR | .imulM => dst * operand
  | .imulhR | .imulhM => mulh dst operand
  | .ismulhR | .ismulhM => smulh dst operand
  | .ixorR | .ixorM => dst ^^^ operand
  | .irorR => dst.rotateRight (operand &&& 63).toNat
  | .irolR => dst.rotateLeft (operand &&& 63).toNat
  | _ => dst

def InstructionByteCode.taken (ibc : InstructionByteCode) (machine : Machine) : Bool :=
  (machine.r ibc.idst + ibc.imm) &&& ibc.memMask.setWidth 64 == 0

/-- `executeInstruction`; a taken branch replaces the program counter. -/
def executeInstruction (ibc : InstructionByteCode) (pc : Int) (machine : Machine) :
    Int × Machine :=
  let dst := machine.r ibc.idst
  let fdst := machine.float ibc.fdst
  let float (value : Vec128) := (pc, machine.setFloat value ibc.fdst)
  let converted := Vec128.cvtPackedInt unit (ibc.load machine)
  match ibc.type with
  | .iaddRs =>
      (pc, machine.setR ibc.idst (dst + ((ibc.source machine <<< ibc.shift) + ibc.imm)))
  | .isubR | .imulR | .imulhR | .ismulhR | .ixorR | .irorR | .irolR =>
      (pc, machine.setR ibc.idst (integerResult ibc.type dst (ibc.source machine)))
  | .iaddM | .isubM | .imulM | .imulhM | .ismulhM | .ixorM =>
      (pc, machine.setR ibc.idst (integerResult ibc.type dst (ibc.load machine)))
  | .inegR => (pc, machine.setR ibc.idst (~~~dst + 1))
  | .iswapR =>
      match ibc.isrc with
      | .register src => (pc, (machine.setR src dst).setR ibc.idst (machine.r src))
      | _ => (pc, machine)
  | .fswapR => float fdst.swap
  | .faddR => float (fdst.map2 (unit.add machine.rounding) (machine.float ibc.fsrc))
  | .faddM => float (fdst.map2 (unit.add machine.rounding) converted)
  | .fsubR => float (fdst.map2 (unit.sub machine.rounding) (machine.float ibc.fsrc))
  | .fsubM => float (fdst.map2 (unit.sub machine.rounding) converted)
  | .fscalR => float (fdst.map (· ^^^ 0x80F0000000000000))
  | .fmulR => float (fdst.map2 (unit.mul machine.rounding) (machine.float ibc.fsrc))
  | .fdivM =>
      float (fdst.map2 (unit.div machine.rounding) (maskRegisterExponentMantissa eMask converted))
  | .fsqrtR => float (fdst.map (unit.sqrt machine.rounding))
  | .cbranch =>
      (if ibc.taken machine then ibc.target.toInt else pc, machine.setR ibc.idst (dst + ibc.imm))
  | .cfround =>
      (pc, { machine with
        rounding := ((ibc.source machine).rotateRight ibc.imm.toNat).setWidth 2 })
  | .istore =>
      let address := ((dst + ibc.imm) &&& ibc.memMask.setWidth 64).toNat
      (pc, { machine with
        scratchpad := machine.scratchpad.store64 address (ibc.source machine) })
  -- IMUL_RCP is compiled to IMUL_R or to a NOP; the switch has no case for it.
  | .nop | .imulRcp => (pc, machine)

/-- The loop variable and what the loop body changes. -/
structure Running where
  pc : Int
  machine : Machine

/-- One pass of the loop of `executeBytecode` with its `++pc`. No value when the loop has
ended, the program counter is not an index of the bytecode, or the switch is `UNREACHABLE`. -/
def stepBytecode (bytecode : List InstructionByteCode) (state : Running) : Option Running :=
  if state.pc < 0 then none
  else bytecode[state.pc.toNat]?.bind fun ibc =>
    if ibc.type = .imulRcp then none
    else
      let next := executeInstruction unit eMask ibc state.pc state.machine
      some { pc := next.1 + 1, machine := next.2 }

/-- `executeBytecode` from a state of its loop, cut off after `fuel` passes. -/
def executeBytecode (bytecode : List InstructionByteCode) : Nat → Running → Option Machine
  | 0, state => if state.pc < bytecode.length then none else some state.machine
  | fuel + 1, state =>
      if state.pc < bytecode.length then
        (stepBytecode unit eMask bytecode state).bind (executeBytecode bytecode fuel)
      else some state.machine

end Execute

section Effects

def InstructionByteCode.written (ibc : InstructionByteCode) : List (Fin 8) :=
  match ibc.type with
  | .iswapR => match ibc.isrc with
    | .register src => [ibc.idst, src]
    | _ => []
  | .fswapR | .faddR | .faddM | .fsubR | .fsubM | .fscalR | .fmulR | .fdivM | .fsqrtR => []
  | .cfround | .istore | .nop | .imulRcp => []
  | _ => [ibc.idst]

@[simp] theorem compileRegister_type (type : InstructionType) (imm : BitVec 64)
    (instr : Instruction) : (compileRegister type imm instr).type = type := by
  unfold compileRegister
  split <;> rfl

@[simp] theorem compileRegister_idst (type : InstructionType) (imm : BitVec 64)
    (instr : Instruction) : (compileRegister type imm instr).idst = register instr.dst := by
  unfold compileRegister
  split <;> rfl

@[simp] theorem compileMemory_type (config : Configuration) (type : InstructionType)
    (instr : Instruction) : (compileMemory config type instr).type = type := by
  unfold compileMemory
  split <;> rfl

@[simp] theorem compileMemory_idst (config : Configuration) (type : InstructionType)
    (instr : Instruction) : (compileMemory config type instr).idst = register instr.dst := by
  unfold compileMemory
  split <;> rfl

/-- The compiler marks exactly the registers that the compiled instruction writes, and all
of them for a CBRANCH. -/
theorem compileInstruction_usage (config : Configuration) (instr : Instruction) (i : Nat)
    (usage : RegisterUsage) (index : Fin 8) :
    (compileInstruction config instr i usage).2 index =
      if (compileInstruction config instr i usage).1.type = .cbranch ∨
        index ∈ (compileInstruction config instr i usage).1.written then (i : Int)
      else usage index := by
  unfold compileInstruction
  cases config.instructionType instr.opcode
  case imulRcp =>
    dsimp only
    split <;> simp [InstructionByteCode.written, RegisterUsage.mark, Function.update_apply]
  case iswapR =>
    dsimp only
    split
    · simp only [InstructionByteCode.written, RegisterUsage.mark, Function.update_apply]
      grind
    · simp [InstructionByteCode.written]
  all_goals
    simp [InstructionByteCode.written, RegisterUsage.mark, Function.update_apply, compileFloat,
      compileFloatMemory]

theorem compileInstruction_cbranch {config : Configuration} {instr : Instruction} {i : Nat}
    {usage : RegisterUsage} (branch : (compileInstruction config instr i usage).1.type = .cbranch) :
    (compileInstruction config instr i usage).1 =
      { type := .cbranch, idst := register instr.dst,
        target := BitVec.ofInt 16 (usage (register instr.dst)),
        imm := branchImm instr.imm32 instr.getModCond,
        memMask := branchMask instr.getModCond } := by
  unfold compileInstruction at branch ⊢
  generalize config.instructionType instr.opcode = type at branch ⊢
  cases type
  case cbranch => rfl
  case imulRcp | iswapR =>
    dsimp only at branch
    split at branch <;> cases branch
  all_goals simp [compileFloat, compileFloatMemory] at branch

theorem compileInstruction_type_ne_imulRcp (config : Configuration) (instr : Instruction) (i : Nat)
    (usage : RegisterUsage) : (compileInstruction config instr i usage).1.type ≠ .imulRcp := by
  unfold compileInstruction
  cases config.instructionType instr.opcode
  case imulRcp | iswapR =>
    dsimp only
    split <;> simp
  all_goals simp [compileFloat, compileFloatMemory]

@[simp] theorem compileFrom_length (config : Configuration) (i : Nat) (usage : RegisterUsage)
    (program : List Instruction) : (compileFrom config i usage program).length = program.length := by
  induction program generalizing i usage with
  | nil => rfl
  | cons instr rest ih => rw [compileFrom, List.length_cons, List.length_cons, ih]

theorem compileFrom_executable (config : Configuration) (i : Nat) (usage : RegisterUsage)
    (program : List Instruction) :
    ∀ ibc ∈ compileFrom config i usage program, ibc.type ≠ .imulRcp := by
  induction program generalizing i usage with
  | nil => simp [compileFrom]
  | cons instr rest ih =>
    intro ibc member
    rw [compileFrom, List.mem_cons] at member
    rcases member with rfl | later
    · exact compileInstruction_type_ne_imulRcp config instr i usage
    · exact ih _ _ ibc later

variable (unit : FloatUnit) (eMask : Vec128)

theorem executeInstruction_frame (ibc : InstructionByteCode) (pc : Int) (machine : Machine)
    {index : Fin 8} (kept : index ∉ ibc.written) :
    (executeInstruction unit eMask ibc pc machine).2.r index = machine.r index := by
  obtain ⟨type, idst, isrc, fdst, fsrc, imm, target, shift, memMask⟩ := ibc
  cases type
  case iswapR =>
    cases isrc
    all_goals simp_all [executeInstruction, InstructionByteCode.written]
  all_goals simp_all [executeInstruction, InstructionByteCode.written]

theorem executeInstruction_pc (ibc : InstructionByteCode) (pc : Int) (machine : Machine)
    (straight : ibc.type ≠ .cbranch) :
    (executeInstruction unit eMask ibc pc machine).1 = pc := by
  obtain ⟨type, idst, isrc, fdst, fsrc, imm, target, shift, memMask⟩ := ibc
  cases type
  case cbranch => exact absurd rfl straight
  case iswapR => cases isrc <;> rfl
  all_goals rfl

theorem executeInstruction_cbranch {ibc : InstructionByteCode} (branch : ibc.type = .cbranch)
    (pc : Int) (machine : Machine) :
    executeInstruction unit eMask ibc pc machine =
      (if ibc.taken machine then ibc.target.toInt else pc,
        machine.setR ibc.idst (machine.r ibc.idst + ibc.imm)) := by
  simp only [executeInstruction, branch]

end Effects

end Xmrig.RandomX
