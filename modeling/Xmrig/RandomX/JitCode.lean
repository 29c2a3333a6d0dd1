import Xmrig.RandomX.OpcodeTable
import Xmrig.RandomX.Superscalar

/-! The code that the native compiler emits for the instructions of a program.

Each handler appends the code of one instruction. Beside the bytes the compiler keeps,
for each integer register, the position behind the instruction that wrote it last, and
two positions about rounding: of the last CFROUND and of the last operation that
rounds. A CFROUND that nothing has used when the next one is compiled is written over.
Stores that overlap are modelled by the bytes that remain of each of them.
-/

set_option autoImplicit false

namespace Xmrig.RandomX

/-- An instruction as `fillAes4Rx4` leaves it: both register numbers are masked. -/
structure MaskedInstruction where
  instr : Instruction
  dst_lt : instr.dst.toNat < 8
  src_lt : instr.src.toNat < 8

/-- What `inst_mask` leaves of eight bytes. -/
def Instruction.masked (instr : Instruction) : MaskedInstruction where
  instr := { instr with dst := instr.dst &&& 7, src := instr.src &&& 7 }
  dst_lt := by
    rw [BitVec.toNat_and]
    exact Nat.lt_of_le_of_lt Nat.and_le_right (by decide)
  src_lt := by
    rw [BitVec.toNat_and]
    exact Nat.lt_of_le_of_lt Nat.and_le_right (by decide)

namespace MaskedInstruction

def dst (masked : MaskedInstruction) : Fin 8 := ⟨masked.instr.dst.toNat, masked.dst_lt⟩
def src (masked : MaskedInstruction) : Fin 8 := ⟨masked.instr.src.toNat, masked.src_lt⟩
def imm32 (masked : MaskedInstruction) : BitVec 32 := masked.instr.imm32

theorem register_dst (masked : MaskedInstruction) : register masked.instr.dst = masked.dst :=
  Fin.ext (Nat.mod_eq_of_lt masked.dst_lt)

theorem register_src (masked : MaskedInstruction) : register masked.instr.src = masked.src :=
  Fin.ext (Nat.mod_eq_of_lt masked.src_lt)

end MaskedInstruction

def quadPrefix (quad : BitVec 64) (count : Nat) : List (BitVec 8) := (quadBytes quad).take count

def reg64 (index : Fin 8) : BitVec 64 := BitVec.ofNat 64 index.val

def nop5 : List (BitVec 8) := [0x0F, 0x1F, 0x44, 0x00, 0x00]
def nop7 : List (BitVec 8) := [0x0F, 0x1F, 0x80, 0x00, 0x00, 0x00, 0x00]
def nop8 : List (BitVec 8) := [0x0F, 0x1F, 0x84, 0x00, 0x00, 0x00, 0x00, 0x00]
def nop9 : List (BitVec 8) := [0x66, 0x0F, 0x1F, 0x84, 0x00, 0x00, 0x00, 0x00, 0x00]
def nop13 : List (BitVec 8) := nop8 ++ nop5
def nop14 : List (BitVec 8) := nop7 ++ nop7
def nop25 : List (BitVec 8) := nop9 ++ nop8 ++ nop8
def nop26 : List (BitVec 8) := nop9 ++ nop9 ++ nop8

/-- The rows of `JMP_ALIGN_PREFIX`. -/
def jmpAlignPrefix : List (List (BitVec 8)) :=
  [[], [0x2E], [0x2E, 0x2E], [0x2E, 0x2E, 0x2E], [0x2E, 0x2E, 0x2E, 0x2E], [0x2E, 0x2E, 0x2E, 0x2E, 0x2E],
    [0x2E, 0x2E, 0x2E, 0x2E, 0x2E, 0x2E], [0x2E, 0x2E, 0x2E, 0x2E, 0x2E, 0x2E, 0x2E],
    [0x2E, 0x2E, 0x2E, 0x2E, 0x2E, 0x2E, 0x2E, 0x2E],
    [0x90, 0x2E, 0x2E, 0x2E, 0x2E, 0x2E, 0x2E, 0x2E, 0x2E],
    [0x66, 0x90, 0x2E, 0x2E, 0x2E, 0x2E, 0x2E, 0x2E, 0x2E, 0x2E],
    [0x66, 0x66, 0x90, 0x2E, 0x2E, 0x2E, 0x2E, 0x2E, 0x2E, 0x2E, 0x2E],
    [0x0F, 0x1F, 0x40, 0x00, 0x2E, 0x2E, 0x2E, 0x2E, 0x2E, 0x2E, 0x2E, 0x2E],
    [0x0F, 0x1F, 0x44, 0x00, 0x00, 0x2E, 0x2E, 0x2E, 0x2E, 0x2E, 0x2E, 0x2E, 0x2E]]

/-- What does not change while a program is compiled. -/
structure JitOptions where
  codePosFirst : Nat
  amd : Bool
  hasXOP : Bool
  config : Configuration

/-- What the handlers read and change. `code` are the bytes from `codePosFirst` on. -/
structure JitCompilerX86 where
  code : List (BitVec 8)
  registerUsage : Fin 8 → Int
  prevCFROUND : Int
  prevFPOperation : Int
  imulRcpStorage : List (BitVec 64)

section Addresses
variable (config : Configuration) (masked : MaskedInstruction)

/-- The nibbles of `add_table`: the address with `r12` takes one byte more. -/
def addTable (src : Fin 8) : Nat :=
  (((0x33333333 : BitVec 32) + 1 <<< (registerNeedsSib.val * 4)) >>> (src.val * 4)).toNat &&& 0xf

/-- The address goes to `rax` or to `rcx`. -/
def genAddressReg (rax : Bool) (src : Fin 8) : List (BitVec 8) :=
  wordBytes ((if rax then 0x24808d41 else 0x24888d41) + (reg32 src <<< 16)) (addTable src) ++
    wordBytes masked.imm32 4 ++ (if rax then [0x25] else wordBytes 0xe181 2) ++
    wordBytes (config.addressMask masked.instr.getModMem) 4

def genAddressRegDst : List (BitVec 8) :=
  wordBytes (0x24808d41 + (reg32 masked.dst <<< 16)) (if masked.dst = registerNeedsSib then 4 else 3) ++
    wordBytes masked.imm32 4 ++ [0x25] ++
    wordBytes (if masked.instr.mod.toNat < storeL3Condition <<< 4 then
      config.addressMask masked.instr.getModMem else config.scratchpadL3Mask) 4

def genAddressImm : List (BitVec 8) := wordBytes (masked.imm32 &&& config.scratchpadL3Mask) 4

end Addresses

section Templates
variable (options : JitOptions) (masked : MaskedInstruction)

def iaddRsBytes : List (BitVec 8) :=
  let sib := genSIB masked.instr.getModShift masked.src masked.dst
  let k : BitVec 32 :=
    if masked.dst = registerNeedsDisplacement then 0xac8d4f else 0x048d4f + (reg32 masked.dst <<< 19)
  wordBytes (k ||| (sib <<< 24)) 4 ++
    if masked.dst = registerNeedsDisplacement then wordBytes masked.imm32 4 else []

/-- An operand in the scratchpad behind an address that is computed or, where both registers
are the same, constant. IADD_M, ISUB_M and IXOR_M. -/
def integerMemoryBytes (computed constant : BitVec 32) : List (BitVec 8) :=
  if masked.src ≠ masked.dst then
    genAddressReg options.config masked true masked.src ++ wordBytes (computed + (reg32 masked.dst <<< 19)) 4
  else wordBytes (constant + (reg32 masked.dst <<< 19)) 3 ++ genAddressImm options.config masked

def isubRBytes : List (BitVec 8) :=
  if masked.src ≠ masked.dst then wordBytes (0xc02b4d + (reg32 masked.dst <<< 19) + (reg32 masked.src <<< 16)) 3
  else wordBytes (0xe88149 + (reg32 masked.dst <<< 16)) 3 ++ wordBytes masked.imm32 4

def imulRBytes : List (BitVec 8) :=
  if masked.src ≠ masked.dst then
    wordBytes (0xc0af0f4d + ((reg32 masked.dst * 8 + reg32 masked.src) <<< 24)) 4
  else
    wordBytes (0xc0694d + (((reg32 masked.dst <<< 3) + reg32 masked.dst) <<< 16)) 3 ++ wordBytes masked.imm32 4

def imulMBytes : List (BitVec 8) :=
  if masked.src ≠ masked.dst then
    genAddressReg options.config masked true masked.src ++
      quadPrefix (0x0604af0f4c + (reg64 masked.dst <<< 27)) 5
  else wordBytes (0x86af0f4c + (reg32 masked.dst <<< 27)) 4 ++ genAddressImm options.config masked

def imulhRBytes : List (BitVec 8) :=
  wordBytes (0xc08b49 + (reg32 masked.dst <<< 16)) 3 ++ wordBytes (0xe0f749 + (reg32 masked.src <<< 16)) 3 ++
    wordBytes (0xc28b4c + (reg32 masked.dst <<< 19)) 3

def imulhRBmi2Bytes : List (BitVec 8) :=
  wordBytes (0xC4D08B49 + (reg32 masked.dst <<< 16)) 4 ++
    wordBytes (0xC0F6FB42 + (reg32 masked.dst <<< 27) + (reg32 masked.src <<< 24)) 4

def highMemoryBytes (computed constant : BitVec 64) : List (BitVec 8) :=
  (if masked.src ≠ masked.dst then
    genAddressReg options.config masked false masked.src ++
      quadPrefix (computed + (reg64 masked.dst <<< 16)) 7
  else quadPrefix (constant + (reg64 masked.dst <<< 16)) 6 ++ genAddressImm options.config masked) ++
    wordBytes (0xc28b4c + (reg32 masked.dst <<< 19)) 3

def imulhMBmi2Bytes : List (BitVec 8) :=
  if masked.src ≠ masked.dst then
    genAddressReg options.config masked false masked.src ++
      wordBytes (0xC4D08B49 + (reg32 masked.dst <<< 16)) 4 ++
      quadPrefix (0x0E04F6FB62 + (reg64 masked.dst <<< 27)) 5
  else
    quadBytes (0x86F6FB62C4D08B49 + (reg64 masked.dst <<< 16) + (reg64 masked.dst <<< 59)) ++
      genAddressImm options.config masked

def ismulhRBytes : List (BitVec 8) :=
  quadBytes (0x8b4ce8f749c08b49 + (reg64 masked.dst <<< 16) + (reg64 masked.src <<< 40)) ++
    [0xc2 + 8 * reg8 masked.dst]

def inegRBytes : List (BitVec 8) := wordBytes (0xd8f749 + (reg32 masked.dst <<< 16)) 3

def ixorRBytes : List (BitVec 8) :=
  if masked.src ≠ masked.dst then
    wordBytes (0xc0334d + (((reg32 masked.dst <<< 3) + reg32 masked.src) <<< 16)) 3
  else quadPrefix ((masked.imm32.setWidth 64 <<< 24) + 0xf08149 + (reg64 masked.dst <<< 16)) 7

def rotateBytes (byCl : BitVec 64) (byConstant : BitVec 32) : List (BitVec 8) :=
  if masked.src ≠ masked.dst then
    quadPrefix (byCl + (reg64 masked.src <<< 16) + (reg64 masked.dst <<< 40)) 6
  else wordBytes (byConstant + (reg32 masked.dst <<< 16)) 3 ++ [(masked.imm32 &&& 63).setWidth 8]

def iswapRBytes : List (BitVec 8) :=
  wordBytes (0xc0874d + (((reg32 masked.dst <<< 3) + reg32 masked.src) <<< 16)) 3

def fswapRBytes : List (BitVec 8) :=
  quadPrefix (0x01c0c60f66 + (((reg64 masked.dst <<< 3) + reg64 masked.dst) <<< 24)) 5

/-- `instr.dst % RegisterCountFlt`. -/
def dstFlt : Fin 8 := ⟨masked.instr.dst.toNat % 4, by omega⟩
def srcFlt : Fin 8 := ⟨masked.instr.src.toNat % 4, by omega⟩

def floatRegisterBytes (quad : BitVec 64) : List (BitVec 8) :=
  quadPrefix (quad + (((reg64 (dstFlt masked) <<< 3) + reg64 (srcFlt masked)) <<< 32)) 5

def floatMemoryBytes (word : BitVec 32) : List (BitVec 8) :=
  genAddressReg options.config masked true masked.src ++ quadBytes 0x41660624e60f44f3 ++
    wordBytes (word + (reg32 (dstFlt masked) <<< 19)) 3

def fscalRBytes : List (BitVec 8) := wordBytes (0xc7570f41 + (reg32 (dstFlt masked) <<< 27)) 4

def fdivMBytes : List (BitVec 8) :=
  genAddressReg options.config masked true masked.src ++ quadPrefix 0x0624e60f44f3 6 ++
    (if options.hasXOP then quadPrefix 0xd0e6a218488f 6 else quadBytes 0xe6560f45e5540f45) ++
    quadPrefix (0xe45e0f4166 + (reg64 (dstFlt masked) <<< 35)) 5

def fsqrtRBytes : List (BitVec 8) :=
  wordBytes (0xe4510f66 + (((reg32 (dstFlt masked) <<< 3) + reg32 (dstFlt masked)) <<< 24)) 4

/-- `(static_cast<int>(instr.getImm32() & 63) - 2) & 63` -/
def cfroundRotate : BitVec 32 := ((masked.imm32 &&& 63) - 2) &&& 63

def cfroundTail : List (BitVec 8) :=
  if options.amd then quadBytes 0x742024443B0CE083 ++ quadBytes 0x8900EB0414AE0F0A ++ wordBytes 0x202444 3
  else quadPrefix 0x0414AE0F0CE083 7

def cfroundBytes : List (BitVec 8) :=
  wordBytes (0x00C08B49 + (reg32 masked.src <<< 16)) 3 ++
    wordBytes (0x00C8C148 + (cfroundRotate masked <<< 24)) 4 ++ cfroundTail options

def cfroundBmi2Bytes : List (BitVec 8) :=
  quadPrefix (0xC0F0FBC3C4 ||| (reg64 masked.src <<< 32) ||| ((cfroundRotate masked).setWidth 64 <<< 40)) 6 ++
    cfroundTail options

def cfroundNop (bmi2 : Bool) : List (BitVec 8) :=
  match bmi2, options.amd with
  | false, false => nop14
  | false, true => nop26
  | true, false => nop13
  | true, true => nop25

def rotl32 (a : BitVec 32) (shift : Nat) : BitVec 32 := (a <<< shift) ||| (a >>> ((32 - shift) % 32))

def cbranchImm : BitVec 32 :=
  let shift := masked.instr.getModCond
  (masked.imm32 ||| (((1 : BitVec 32) <<< jumpOffset) <<< shift)) &&&
    rotl32 (~~~((1 : BitVec 32) <<< (jumpOffset - 1))) shift

/-- Add, test and the jump, whose offset counts from the end of the shorter form. -/
def cbranchBytes (jmpOffset : Int) : List (BitVec 8) :=
  wordBytes (0x00c08149 + (reg32 masked.dst <<< 16)) 3 ++ wordBytes (cbranchImm masked) 4 ++
    wordBytes (0x00c0f749 + (reg32 masked.dst <<< 16)) 3 ++
    wordBytes (conditionMask <<< masked.instr.getModCond) 4 ++
    if jmpOffset ≥ -128 then wordBytes (0x74 + (BitVec.ofInt 32 jmpOffset <<< 8)) 2
    else quadPrefix (0x840f + (BitVec.ofInt 64 (jmpOffset - 4) <<< 16)) 6

def istoreBytes : List (BitVec 8) :=
  genAddressRegDst options.config masked ++ wordBytes (0x0604894c + (reg32 masked.src <<< 19)) 4

end Templates

namespace JitCompilerX86
variable (options : JitOptions)

def codePos (compiler : JitCompilerX86) : Nat := options.codePosFirst + compiler.code.length

def emit (compiler : JitCompilerX86) (bytes : List (BitVec 8)) : JitCompilerX86 :=
  { compiler with code := compiler.code ++ bytes }

def emitWrite (compiler : JitCompilerX86) (dst : Fin 8) (bytes : List (BitVec 8)) : JitCompilerX86 :=
  let emitted := compiler.emit bytes
  { emitted with registerUsage := Function.update emitted.registerUsage dst (emitted.codePos options) }

def emitRounding (compiler : JitCompilerX86) (bytes : List (BitVec 8)) : JitCompilerX86 :=
  { compiler with prevFPOperation := compiler.codePos options }.emit bytes

/-- `memcpy` to a position of the code. -/
def overwrite (compiler : JitCompilerX86) (position : Int) (bytes : List (BitVec 8)) : JitCompilerX86 :=
  let offset := (position - options.codePosFirst).toNat
  { compiler with
    code := compiler.code.take offset ++ bytes ++ compiler.code.drop (offset + bytes.length) }

section Handlers
variable (compiler : JitCompilerX86) (masked : MaskedInstruction)

def hIaddRs : JitCompilerX86 := compiler.emitWrite options masked.dst (iaddRsBytes masked)
def hIaddM : JitCompilerX86 :=
  compiler.emitWrite options masked.dst (integerMemoryBytes options masked 0x0604034c 0x86034c)
def hIsubR : JitCompilerX86 := compiler.emitWrite options masked.dst (isubRBytes masked)
def hIsubM : JitCompilerX86 :=
  compiler.emitWrite options masked.dst (integerMemoryBytes options masked 0x06042b4c 0x862b4c)
def hImulR : JitCompilerX86 := compiler.emitWrite options masked.dst (imulRBytes masked)
def hImulM : JitCompilerX86 := compiler.emitWrite options masked.dst (imulMBytes options masked)
def hImulhR : JitCompilerX86 := compiler.emitWrite options masked.dst (imulhRBytes masked)
def hImulhRBmi2 : JitCompilerX86 := compiler.emitWrite options masked.dst (imulhRBmi2Bytes masked)
def hImulhM : JitCompilerX86 :=
  compiler.emitWrite options masked.dst (highMemoryBytes options masked 0x0e24f748c08b49 0xa6f748c08b49)
def hImulhMBmi2 : JitCompilerX86 := compiler.emitWrite options masked.dst (imulhMBmi2Bytes options masked)
def hIsmulhR : JitCompilerX86 := compiler.emitWrite options masked.dst (ismulhRBytes masked)
def hIsmulhM : JitCompilerX86 :=
  compiler.emitWrite options masked.dst (highMemoryBytes options masked 0x0e2cf748c08b49 0xaef748c08b49)

/-- The first sixteen reciprocals are kept below the stack pointer. -/
def hImulRcp : JitCompilerX86 :=
  let divisor := masked.imm32.setWidth 64
  if ¬ isZeroOrPowerOf2 divisor then
    let used := compiler.imulRcpStorage.length
    if used < 16 then
      { compiler with imulRcpStorage := compiler.imulRcpStorage ++ [reciprocalFast divisor] }.emitWrite options
        masked.dst (quadPrefix (0x2444AF0F4C + (reg64 masked.dst <<< 27) +
          (BitVec.ofNat 64 (248 - used * 8) <<< 40)) 6)
    else
      compiler.emitWrite options masked.dst (wordBytes 0xb848 2 ++ quadBytes (reciprocalFast divisor) ++
        wordBytes (0xc0af0f4c + (reg32 masked.dst <<< 27)) 4)
  else compiler

def hInegR : JitCompilerX86 := compiler.emitWrite options masked.dst (inegRBytes masked)
def hIxorR : JitCompilerX86 := compiler.emitWrite options masked.dst (ixorRBytes masked)
def hIxorM : JitCompilerX86 :=
  compiler.emitWrite options masked.dst (integerMemoryBytes options masked 0x0604334c 0x86334c)
def hIrorR : JitCompilerX86 :=
  compiler.emitWrite options masked.dst (rotateBytes masked 0xc8d349c88b41 0xc8c149)
def hIrolR : JitCompilerX86 :=
  compiler.emitWrite options masked.dst (rotateBytes masked 0xc0d349c88b41 0xc0c149)

def hIswapR : JitCompilerX86 :=
  if masked.src ≠ masked.dst then
    let emitted := compiler.emit (iswapRBytes masked)
    let pos : Int := emitted.codePos options
    { emitted with
      registerUsage := Function.update (Function.update emitted.registerUsage masked.dst pos) masked.src pos }
  else compiler

def hFswapR : JitCompilerX86 := compiler.emit (fswapRBytes masked)
def hFaddR : JitCompilerX86 := compiler.emitRounding options (floatRegisterBytes masked 0xc0580f4166)
def hFaddM : JitCompilerX86 := compiler.emitRounding options (floatMemoryBytes options masked 0xc4580f)
def hFsubR : JitCompilerX86 := compiler.emitRounding options (floatRegisterBytes masked 0xc05c0f4166)
def hFsubM : JitCompilerX86 := compiler.emitRounding options (floatMemoryBytes options masked 0xc45c0f)
def hFscalR : JitCompilerX86 := compiler.emit (fscalRBytes masked)
def hFmulR : JitCompilerX86 := compiler.emitRounding options (floatRegisterBytes masked 0xe0590f4166)
def hFdivM : JitCompilerX86 := compiler.emitRounding options (fdivMBytes options masked)
def hFsqrtR : JitCompilerX86 := compiler.emitRounding options (fsqrtRBytes masked)

/-- The previous CFROUND is written over where no operation rounds in between. -/
def eliminate (bmi2 : Bool) : JitCompilerX86 :=
  if compiler.prevCFROUND > compiler.prevFPOperation then
    compiler.overwrite options compiler.prevCFROUND (cfroundNop options bmi2)
  else compiler

def hCfround : JitCompilerX86 :=
  let eliminated := compiler.eliminate options false
  { eliminated with prevCFROUND := eliminated.codePos options }.emit (cfroundBytes options masked)

def hCfroundBmi2 : JitCompilerX86 :=
  let eliminated := compiler.eliminate options true
  { eliminated with prevCFROUND := eliminated.codePos options }.emit (cfroundBmi2Bytes options masked)

/-- How far a CBRANCH at a position is moved, so that the test and the jump after it neither
cross nor touch a boundary of 32 bytes. -/
def alignmentSize (pos : Nat) (jmpOffset : Int) : Nat :=
  let branchBegin := pos + 7
  let branchEnd := branchBegin + if jmpOffset ≥ -128 then 9 else 13
  if branchBegin ^^^ branchEnd ≥ 32 then 32 - (branchBegin &&& 31) else 0

def hCbranch (jccErratum : Bool) : JitCompilerX86 :=
  let pos := compiler.codePos options
  let target := compiler.registerUsage masked.dst
  let jmpOffset := target - (pos + 16)
  let alignment := if jccErratum then alignmentSize pos jmpOffset else 0
  let emitted :=
    { compiler with
      prevFPOperation := if target ≤ compiler.prevFPOperation then pos else compiler.prevFPOperation }.emit
      ((jmpAlignPrefix.getD alignment []).take alignment ++ cbranchBytes masked (jmpOffset - alignment))
  { emitted with registerUsage := fun _ => emitted.codePos options }

def hIstore : JitCompilerX86 := compiler.emit (istoreBytes options masked)
def hNop : JitCompilerX86 := compiler.emit [0x90]

end Handlers

/-- The handler that the table of the x86 build holds for an operation. -/
def generate (hasBMI2 jccErratum : Bool) (compiler : JitCompilerX86) (masked : MaskedInstruction) :
    InstructionType → JitCompilerX86
  | .iaddRs => compiler.hIaddRs options masked
  | .iaddM => compiler.hIaddM options masked
  | .isubR => compiler.hIsubR options masked
  | .isubM => compiler.hIsubM options masked
  | .imulR => compiler.hImulR options masked
  | .imulM => compiler.hImulM options masked
  | .imulhR => if hasBMI2 then compiler.hImulhRBmi2 options masked else compiler.hImulhR options masked
  | .imulhM => if hasBMI2 then compiler.hImulhMBmi2 options masked else compiler.hImulhM options masked
  | .ismulhR => compiler.hIsmulhR options masked
  | .ismulhM => compiler.hIsmulhM options masked
  | .imulRcp => compiler.hImulRcp options masked
  | .inegR => compiler.hInegR options masked
  | .ixorR => compiler.hIxorR options masked
  | .ixorM => compiler.hIxorM options masked
  | .irorR => compiler.hIrorR options masked
  | .irolR => compiler.hIrolR options masked
  | .iswapR => compiler.hIswapR options masked
  | .fswapR => compiler.hFswapR masked
  | .faddR => compiler.hFaddR options masked
  | .faddM => compiler.hFaddM options masked
  | .fsubR => compiler.hFsubR options masked
  | .fsubM => compiler.hFsubM options masked
  | .fscalR => compiler.hFscalR masked
  | .fmulR => compiler.hFmulR options masked
  | .fdivM => compiler.hFdivM options masked
  | .fsqrtR => compiler.hFsqrtR options masked
  | .cbranch => compiler.hCbranch options masked jccErratum
  | .cfround => if hasBMI2 then compiler.hCfroundBmi2 options masked else compiler.hCfround options masked
  | .istore => compiler.hIstore options masked
  | .nop => compiler.hNop

/-- `generateProgramPrologue` before its loop. -/
def start : JitCompilerX86 where
  code := []
  registerUsage := fun _ => options.codePosFirst
  prevCFROUND := -1
  prevFPOperation := -1
  imulRcpStorage := []

def compile (hasBMI2 jccErratum : Bool) (program : List MaskedInstruction) : JitCompilerX86 :=
  program.foldl (fun compiler masked =>
    compiler.generate options hasBMI2 jccErratum masked (options.config.instructionType masked.instr.opcode))
    (start options)

end JitCompilerX86

end Xmrig.RandomX
