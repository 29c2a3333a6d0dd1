import Xmrig.Foundation.Pieces
import Xmrig.RandomX.JitDecode
import Xmrig.RandomX.JitRounding

/-! Where the code of each instruction stands.

The code of a program is laid out in pieces, one for each instruction. The positions that
the compiler remembers are the offsets of pieces: `registerUsage` those behind the
instructions that the interpreter remembers by their indices, and the positions about
rounding those of the instructions that the marks name. A dead CFROUND is written over
by a piece of the same length.
-/

set_option autoImplicit false

namespace Xmrig.RandomX

open Foundation

/-! ## The interpreter's compilation, instruction by instruction -/

section Bytecode
variable (config : Configuration)

def usageFrom (i : Nat) (usage : RegisterUsage) : List Instruction → RegisterUsage
  | [] => usage
  | instr :: rest => usageFrom (i + 1) (compileInstruction config instr i usage).2 rest

/-- For each register the instruction of a program that wrote it last. -/
def usageAfter (program : List Instruction) : RegisterUsage := usageFrom config 0 RegisterUsage.begin program

theorem compileFrom_concat (i : Nat) (usage : RegisterUsage) (program : List Instruction) (instr : Instruction) :
    compileFrom config i usage (program ++ [instr]) =
        compileFrom config i usage program ++
          [(compileInstruction config instr (i + program.length) (usageFrom config i usage program)).1] ∧
      usageFrom config i usage (program ++ [instr]) =
        (compileInstruction config instr (i + program.length) (usageFrom config i usage program)).2 := by
  induction program generalizing i usage with
  | nil => exact ⟨rfl, rfl⟩
  | cons first rest ih =>
    obtain ⟨code, used⟩ := ih (i + 1) (compileInstruction config first i usage).2
    have shift : i + 1 + rest.length = i + (rest.length + 1) := by omega
    simp only [List.cons_append, compileFrom, usageFrom, code, used, List.length_cons, shift, and_self]

theorem compileProgram_concat (program : List Instruction) (instr : Instruction) :
    compileProgram config (program ++ [instr]) =
      compileProgram config program ++ [(compileInstruction config instr program.length (usageAfter config program)).1] := by
  have concat := (compileFrom_concat config 0 RegisterUsage.begin program instr).1
  rwa [Nat.zero_add] at concat

theorem usageAfter_concat (program : List Instruction) (instr : Instruction) :
    usageAfter config (program ++ [instr]) =
      (compileInstruction config instr program.length (usageAfter config program)).2 := by
  have concat := (compileFrom_concat config 0 RegisterUsage.begin program instr).2
  rwa [Nat.zero_add] at concat

theorem compileProgram_length (program : List Instruction) :
    (compileProgram config program).length = program.length := compileFrom_length _ _ _ _

theorem tracks_usageAfter (program : List Instruction) :
    Tracks (compileProgram config program) (usageAfter config program) := by
  induction program using List.reverseRecOn with
  | nil => exact tracks_begin
  | append_singleton program instr ih =>
    have next := ih.compileInstruction config instr
    rw [compileProgram_length] at next
    rw [compileProgram_concat, usageAfter_concat]
    exact next

/-- The marks depend on the instructions before them only. -/
theorem marksAfter_append (code more : List InstructionByteCode) {n : Nat} (inside : n ≤ code.length) :
    marksAfter (code ++ more) n = marksAfter code n := by
  induction n with
  | zero => rfl
  | succ n ih =>
    rw [marksAfter, marksAfter, List.getElem?_append_left (by omega), ih (by omega)]

end Bytecode

/-! ## One instruction -/

section Pieces
variable (options : JitOptions) (hasBMI2 jccErratum : Bool)

/-- The code of an operation whose code depends on its instruction only. -/
def templateBytes (masked : MaskedInstruction) : InstructionType → List (BitVec 8)
  | .iaddRs => iaddRsBytes masked
  | .iaddM => integerMemoryBytes options masked 0x0604034c 0x86034c
  | .isubR => isubRBytes masked
  | .isubM => integerMemoryBytes options masked 0x06042b4c 0x862b4c
  | .imulR => imulRBytes masked
  | .imulM => imulMBytes options masked
  | .imulhR => if hasBMI2 then imulhRBmi2Bytes masked else imulhRBytes masked
  | .imulhM =>
      if hasBMI2 then imulhMBmi2Bytes options masked
      else highMemoryBytes options masked 0x0e24f748c08b49 0xa6f748c08b49
  | .ismulhR => ismulhRBytes masked
  | .ismulhM => highMemoryBytes options masked 0x0e2cf748c08b49 0xaef748c08b49
  | .inegR => inegRBytes masked
  | .ixorR => ixorRBytes masked
  | .ixorM => integerMemoryBytes options masked 0x0604334c 0x86334c
  | .irorR => rotateBytes masked 0xc8d349c88b41 0xc8c149
  | .irolR => rotateBytes masked 0xc0d349c88b41 0xc0c149
  | .iswapR => if masked.src ≠ masked.dst then iswapRBytes masked else []
  | .fswapR => fswapRBytes masked
  | .faddR => floatRegisterBytes masked 0xc0580f4166
  | .faddM => floatMemoryBytes options masked 0xc4580f
  | .fsubR => floatRegisterBytes masked 0xc05c0f4166
  | .fsubM => floatMemoryBytes options masked 0xc45c0f
  | .fscalR => fscalRBytes masked
  | .fmulR => floatRegisterBytes masked 0xe0590f4166
  | .fdivM => fdivMBytes options masked
  | .fsqrtR => fsqrtRBytes masked
  | .cfround => if hasBMI2 then cfroundBmi2Bytes options masked else cfroundBytes options masked
  | .istore => istoreBytes options masked
  | .nop => [0x90]
  | .imulRcp | .cbranch => []

def imulStoredBytes (masked : MaskedInstruction) (used : Nat) : List (BitVec 8) :=
  quadPrefix (0x2444AF0F4C + (reg64 masked.dst <<< 27) + (BitVec.ofNat 64 (248 - used * 8) <<< 40)) 6

def imulConstantBytes (masked : MaskedInstruction) : List (BitVec 8) :=
  wordBytes 0xb848 2 ++ quadBytes (reciprocalFast (masked.imm32.setWidth 64)) ++
    wordBytes (0xc0af0f4c + (reg32 masked.dst <<< 27)) 4

def cbranchAlignment (pos : Nat) (target : Int) : Nat :=
  if jccErratum then JitCompilerX86.alignmentSize pos (target - (pos + 16)) else 0

def cbranchCode (masked : MaskedInstruction) (pos : Nat) (target : Int) : List (BitVec 8) :=
  let alignment := cbranchAlignment jccErratum pos target
  (jmpAlignPrefix.getD alignment []).take alignment ++ cbranchBytes masked (target - (pos + 16) - alignment)

/-- The code of an instruction at a position, with the stored reciprocals and the position that
a CBRANCH jumps to. -/
def PieceOf (storage : List (BitVec 64)) (pos : Nat) (target : Int) (masked : MaskedInstruction)
    (type : InstructionType) (bytes : List (BitVec 8)) : Prop :=
  match type with
  | .imulRcp =>
      if isZeroOrPowerOf2 (masked.imm32.setWidth 64) then bytes = []
      else
        (∃ used < 16, storage[used]? = some (reciprocalFast (masked.imm32.setWidth 64)) ∧
          bytes = imulStoredBytes masked used) ∨ bytes = imulConstantBytes masked
  | .cbranch => bytes = cbranchCode jccErratum masked pos target
  | type => bytes = templateBytes options hasBMI2 masked type

def InstructionType.writes (masked : MaskedInstruction) : InstructionType → List (Fin 8)
  | .iswapR => if masked.src ≠ masked.dst then [masked.dst, masked.src] else []
  | .imulRcp => if isZeroOrPowerOf2 (masked.imm32.setWidth 64) then [] else [masked.dst]
  | .fswapR | .faddR | .faddM | .fsubR | .fsubM | .fscalR | .fmulR | .fdivM | .fsqrtR => []
  | .cbranch | .cfround | .istore | .nop => []
  | _ => [masked.dst]

structure Generates (compiler : JitCompilerX86) (masked : MaskedInstruction) (type : InstructionType)
    (bytes : List (BitVec 8)) (next : JitCompilerX86) : Prop where
  code : next.code = (if type = .cfround then compiler.eliminate options hasBMI2 else compiler).code ++ bytes
  piece : PieceOf options hasBMI2 jccErratum next.imulRcpStorage (compiler.codePos options)
    (compiler.registerUsage masked.dst) masked type bytes
  usage : ∀ index, next.registerUsage index =
    if type = .cbranch ∨ index ∈ type.writes masked then (next.codePos options : Int) else compiler.registerUsage index
  rounding : next.prevFPOperation =
    if type.rounds ∨ type = .cbranch ∧ compiler.registerUsage masked.dst ≤ compiler.prevFPOperation then
      (compiler.codePos options : Int) else compiler.prevFPOperation
  cfround : next.prevCFROUND =
    if type = .cfround then ((compiler.eliminate options hasBMI2).codePos options : Int) else compiler.prevCFROUND
  storage : ∃ more, next.imulRcpStorage = compiler.imulRcpStorage ++ more

variable {options hasBMI2 jccErratum}

theorem generates_write {compiler : JitCompilerX86} {masked : MaskedInstruction} {type : InstructionType}
    {bytes : List (BitVec 8)} (writes : type.writes masked = [masked.dst])
    (straight : type ≠ .cbranch ∧ type ≠ .cfround ∧ type.rounds = false)
    (piece : PieceOf options hasBMI2 jccErratum compiler.imulRcpStorage (compiler.codePos options)
      (compiler.registerUsage masked.dst) masked type bytes) :
    Generates options hasBMI2 jccErratum compiler masked type bytes
      (compiler.emitWrite options masked.dst bytes) where
  code := by
    rw [if_neg straight.2.1]
    rfl
  piece := piece
  usage index := by
    simp only [writes, List.mem_singleton, straight.1, false_or, JitCompilerX86.emitWrite, JitCompilerX86.emit,
      Function.update_apply]
    rfl
  rounding := by simp [straight, JitCompilerX86.emitWrite, JitCompilerX86.emit]
  cfround := by simp [straight, JitCompilerX86.emitWrite, JitCompilerX86.emit]
  storage := ⟨[], (List.append_nil _).symm⟩

theorem generates_rounding {compiler : JitCompilerX86} {masked : MaskedInstruction} {type : InstructionType}
    {bytes : List (BitVec 8)} (rounds : type.rounds = true)
    (piece : PieceOf options hasBMI2 jccErratum compiler.imulRcpStorage (compiler.codePos options)
      (compiler.registerUsage masked.dst) masked type bytes) :
    Generates options hasBMI2 jccErratum compiler masked type bytes (compiler.emitRounding options bytes) := by
  have straight : type ≠ .cbranch ∧ type ≠ .cfround ∧ type.writes masked = [] := by
    cases type
    all_goals first
      | exact ⟨by decide, by decide, rfl⟩
      | cases rounds
  constructor
  · rw [if_neg straight.2.1]
    rfl
  · exact piece
  · intro index
    simp [straight, JitCompilerX86.emitRounding, JitCompilerX86.emit]
  · rw [if_pos (.inl rounds)]
    rfl
  · rw [if_neg straight.2.1]
    rfl
  · exact ⟨[], (List.append_nil _).symm⟩

theorem generates_emit {compiler : JitCompilerX86} {masked : MaskedInstruction} {type : InstructionType}
    {bytes : List (BitVec 8)} (writes : type.writes masked = [])
    (straight : type ≠ .cbranch ∧ type ≠ .cfround ∧ type.rounds = false)
    (piece : PieceOf options hasBMI2 jccErratum compiler.imulRcpStorage (compiler.codePos options)
      (compiler.registerUsage masked.dst) masked type bytes) :
    Generates options hasBMI2 jccErratum compiler masked type bytes (compiler.emit bytes) := by
  constructor
  · rw [if_neg straight.2.1]
    rfl
  · exact piece
  · intro index
    simp [straight, writes, JitCompilerX86.emit]
  · simp [straight, JitCompilerX86.emit]
  · simp [straight, JitCompilerX86.emit]
  · exact ⟨[], (List.append_nil _).symm⟩

theorem generates_imulRcp (compiler : JitCompilerX86) (masked : MaskedInstruction) :
    ∃ bytes, Generates options hasBMI2 jccErratum compiler masked .imulRcp bytes (compiler.hImulRcp options masked) := by
  unfold JitCompilerX86.hImulRcp
  by_cases trivial : isZeroOrPowerOf2 (masked.imm32.setWidth 64)
  · refine ⟨[], ?_⟩
    dsimp only
    rw [if_neg (not_not_intro trivial)]
    constructor
    · simp
    · simp [PieceOf, trivial]
    · simp [InstructionType.writes, trivial]
    · simp [InstructionType.rounds]
    · simp
    · exact ⟨[], (List.append_nil _).symm⟩
  · have writes : InstructionType.imulRcp.writes masked = [masked.dst] := by
      simp [InstructionType.writes, trivial]
    dsimp only
    rw [if_pos trivial]
    by_cases room : compiler.imulRcpStorage.length < 16
    · rw [if_pos room]
      refine ⟨imulStoredBytes masked compiler.imulRcpStorage.length, ?_⟩
      constructor
      · rfl
      · simp only [PieceOf, trivial]
        refine .inl ⟨compiler.imulRcpStorage.length, room, ?_, rfl⟩
        simp [JitCompilerX86.emitWrite, JitCompilerX86.emit]
      · intro index
        simp only [writes, List.mem_singleton, JitCompilerX86.emitWrite, JitCompilerX86.emit, Function.update_apply,
          reduceCtorEq, false_or]
        rfl
      · rfl
      · rfl
      · exact ⟨[reciprocalFast (masked.imm32.setWidth 64)], rfl⟩
    · rw [if_neg room]
      refine ⟨imulConstantBytes masked, generates_write writes ⟨by decide, by decide, rfl⟩ ?_⟩
      simp [PieceOf, trivial]

theorem generates_iswapR (compiler : JitCompilerX86) (masked : MaskedInstruction) :
    ∃ bytes, Generates options hasBMI2 jccErratum compiler masked .iswapR bytes (compiler.hIswapR options masked) := by
  unfold JitCompilerX86.hIswapR
  by_cases apart : masked.src ≠ masked.dst
  · rw [if_pos apart]
    refine ⟨iswapRBytes masked, ?_⟩
    constructor
    · rfl
    · simp [PieceOf, templateBytes, apart]
    · intro index
      simp only [InstructionType.writes, if_pos apart, List.mem_cons, List.not_mem_nil, or_false, reduceCtorEq, false_or,
        Function.update_apply]
      grind [JitCompilerX86.codePos, JitCompilerX86.emit]
    · rfl
    · rfl
    · exact ⟨[], (List.append_nil _).symm⟩
  · rw [if_neg apart]
    refine ⟨[], ?_⟩
    constructor
    · simp
    · simp [PieceOf, templateBytes, apart]
    · simp [InstructionType.writes, apart]
    · rfl
    · rfl
    · exact ⟨[], (List.append_nil _).symm⟩

theorem generates_cfround (compiler : JitCompilerX86) (masked : MaskedInstruction) :
    Generates options hasBMI2 jccErratum compiler masked .cfround (templateBytes options hasBMI2 masked .cfround)
      (compiler.generate options hasBMI2 jccErratum masked .cfround) := by
  have storage : (compiler.eliminate options hasBMI2).imulRcpStorage = compiler.imulRcpStorage ∧
      (compiler.eliminate options hasBMI2).registerUsage = compiler.registerUsage ∧
      (compiler.eliminate options hasBMI2).prevFPOperation = compiler.prevFPOperation := by
    unfold JitCompilerX86.eliminate
    split
    · exact ⟨rfl, rfl, rfl⟩
    · exact ⟨rfl, rfl, rfl⟩
  cases hasBMI2 with
  | false =>
    constructor
    · rfl
    · rfl
    · intro index
      exact congrFun storage.2.1 index
    · exact storage.2.2
    · rfl
    · exact ⟨[], storage.1.trans (List.append_nil _).symm⟩
  | true =>
    constructor
    · rfl
    · rfl
    · intro index
      exact congrFun storage.2.1 index
    · exact storage.2.2
    · rfl
    · exact ⟨[], storage.1.trans (List.append_nil _).symm⟩

theorem generates_cbranch (compiler : JitCompilerX86) (masked : MaskedInstruction) :
    ∃ bytes, Generates options hasBMI2 jccErratum compiler masked .cbranch bytes
      (compiler.hCbranch options masked jccErratum) := by
  refine ⟨cbranchCode jccErratum masked (compiler.codePos options) (compiler.registerUsage masked.dst), ?_⟩
  constructor
  · rfl
  · rfl
  · intro index
    rw [if_pos (.inl rfl)]
    rfl
  · simp [InstructionType.rounds, JitCompilerX86.hCbranch, JitCompilerX86.emit]
  · rfl
  · exact ⟨[], (List.append_nil _).symm⟩

theorem generates (compiler : JitCompilerX86) (masked : MaskedInstruction) (type : InstructionType) :
    ∃ bytes, Generates options hasBMI2 jccErratum compiler masked type bytes
      (compiler.generate options hasBMI2 jccErratum masked type) := by
  cases type with
  | imulRcp => exact generates_imulRcp compiler masked
  | iswapR => exact generates_iswapR compiler masked
  | cfround => exact ⟨_, generates_cfround compiler masked⟩
  | cbranch => exact generates_cbranch compiler masked
  | faddR | faddM | fsubR | fsubM | fmulR | fdivM | fsqrtR => exact ⟨_, generates_rounding rfl rfl⟩
  | fswapR | fscalR | istore | nop => exact ⟨_, generates_emit rfl ⟨by decide, by decide, rfl⟩ rfl⟩
  | imulhR =>
    cases hasBMI2 with
    | false | true => exact ⟨_, generates_write rfl ⟨by decide, by decide, rfl⟩ rfl⟩
  | imulhM =>
    cases hasBMI2 with
    | false | true => exact ⟨_, generates_write rfl ⟨by decide, by decide, rfl⟩ rfl⟩
  | iaddRs | iaddM | isubR | isubM | imulR | imulM | ismulhR | ismulhM | inegR | ixorR | ixorM | irorR | irolR =>
    exact ⟨_, generates_write rfl ⟨by decide, by decide, rfl⟩ rfl⟩

end Pieces

/-! ## The whole program -/

section Compiled
variable (config : Configuration) {masked : MaskedInstruction} {i : Nat} {usage : RegisterUsage}

theorem compiled_kind (masked : MaskedInstruction) (i : Nat) (usage : RegisterUsage) :
    let type := config.instructionType masked.instr.opcode
    let ibc := (compileInstruction config masked.instr i usage).1
    ibc.type.rounds = type.rounds ∧ (ibc.type = .cbranch ↔ type = .cbranch) ∧ (ibc.type = .cfround ↔ type = .cfround) ∧
      (type ≠ .cbranch → ibc.written = type.writes masked) := by
  have imm : masked.instr.imm32 = masked.imm32 := rfl
  dsimp only
  unfold compileInstruction
  generalize config.instructionType masked.instr.opcode = type
  cases type
  case imulRcp =>
    by_cases trivial : isZeroOrPowerOf2 (masked.imm32.setWidth 64)
    · simp [imm, trivial, InstructionByteCode.written, InstructionType.writes, InstructionType.rounds]
    · simp [imm, trivial, InstructionByteCode.written, InstructionType.writes, InstructionType.rounds,
        masked.register_dst]
  case iswapR =>
    by_cases apart : masked.src = masked.dst
    · simp [apart, masked.register_dst, masked.register_src, InstructionByteCode.written, InstructionType.writes,
        InstructionType.rounds]
    · simp [apart, masked.register_dst, masked.register_src, InstructionByteCode.written, InstructionType.writes,
        InstructionType.rounds]
  all_goals
    simp [InstructionByteCode.written, InstructionType.writes, InstructionType.rounds, compileFloat, compileFloatMemory,
      masked.register_dst]

theorem compiled_target (branch : config.instructionType masked.instr.opcode = .cbranch) :
    (compileInstruction config masked.instr i usage).1.target = BitVec.ofInt 16 (usage masked.dst) := by
  have kind := (compiled_kind config masked i usage).2.1.mpr branch
  rw [compileInstruction_cbranch kind, masked.register_dst]

end Compiled

section Layout
variable (options : JitOptions) (hasBMI2 jccErratum : Bool)

def instructions (program : List MaskedInstruction) : List Instruction := program.map (·.instr)

def bytecode (program : List MaskedInstruction) : List InstructionByteCode :=
  compileProgram options.config (instructions program)

def position (pieces : List (List (BitVec 8))) (k : Nat) : Nat := options.codePosFirst + offset pieces k

def markPosition (pieces : List (List (BitVec 8))) (i : Int) : Int :=
  if i < 0 then -1 else position options pieces i.toNat

/-- The piece of the instruction at `k`. -/
structure Placed (program : List MaskedInstruction) (storage : List (BitVec 64)) (dead : List Nat)
    (pieces : List (List (BitVec 8))) (k : Nat) (masked : MaskedInstruction) : Prop where
  placed : ∃ piece ibc, pieces[k]? = some piece ∧ (bytecode options program)[k]? = some ibc ∧
    if k ∈ dead then piece = cfroundNop options hasBMI2
    else PieceOf options hasBMI2 jccErratum storage (position options pieces k)
      (position options pieces (ibc.target.toInt + 1).toNat) masked
      (options.config.instructionType masked.instr.opcode) piece

/-- What the compiler's state says about the code, after some instructions of a program. -/
structure Laid (program : List MaskedInstruction) (compiler : JitCompilerX86) (pieces : List (List (BitVec 8))) :
    Prop where
  code : compiler.code = pieces.flatten
  length : pieces.length = program.length
  usage : ∀ index, compiler.registerUsage index =
    position options pieces (usageAfter options.config (instructions program) index + 1).toNat
  rounding : compiler.prevFPOperation =
    markPosition options pieces (marksAfter (bytecode options program) program.length).lastRounding
  cfround : compiler.prevCFROUND =
    markPosition options pieces (marksAfter (bytecode options program) program.length).lastCfround
  each : ∀ k masked, program[k]? = some masked →
    Placed options hasBMI2 jccErratum program compiler.imulRcpStorage
      (marksAfter (bytecode options program) program.length).dead pieces k masked

variable {options hasBMI2 jccErratum}

@[simp] theorem instructions_length (program : List MaskedInstruction) :
    (instructions program).length = program.length := List.length_map _

theorem instructions_concat (program : List MaskedInstruction) (masked : MaskedInstruction) :
    instructions (program ++ [masked]) = instructions program ++ [masked.instr] := List.map_append

@[simp] theorem bytecode_length (program : List MaskedInstruction) :
    (bytecode options program).length = program.length := by
  rw [bytecode, compileProgram_length, instructions_length]

def nextIbc (options : JitOptions) (program : List MaskedInstruction) (masked : MaskedInstruction) :
    InstructionByteCode :=
  (compileInstruction options.config masked.instr program.length (usageAfter options.config (instructions program))).1

theorem nextIbc_kind (program : List MaskedInstruction) {masked : MaskedInstruction} {type : InstructionType}
    (isType : options.config.instructionType masked.instr.opcode = type) :
    (nextIbc options program masked).type.rounds = type.rounds ∧
      ((nextIbc options program masked).type = .cbranch ↔ type = .cbranch) ∧
      ((nextIbc options program masked).type = .cfround ↔ type = .cfround) ∧
      (type ≠ .cbranch → (nextIbc options program masked).written = type.writes masked) := by
  have kind := compiled_kind options.config masked program.length (usageAfter options.config (instructions program))
  rw [isType] at kind
  exact kind

theorem bytecode_concat (program : List MaskedInstruction) (masked : MaskedInstruction) :
    bytecode options (program ++ [masked]) = bytecode options program ++ [nextIbc options program masked] := by
  have concat := compileProgram_concat options.config (instructions program) masked.instr
  rw [instructions_length] at concat
  rw [bytecode, instructions, List.map_append]
  exact concat

theorem marks_concat (program : List MaskedInstruction) (masked : MaskedInstruction) :
    marksAfter (bytecode options (program ++ [masked])) (program.length + 1) =
      (marksAfter (bytecode options program) program.length).next (nextIbc options program masked) program.length := by
  rw [bytecode_concat]
  have found : (bytecode options program ++ [nextIbc options program masked])[program.length]? =
      some (nextIbc options program masked) := by
    rw [← @bytecode_length options program, List.getElem?_concat_length]
  rw [marksAfter_succ found, marksAfter_append _ _ (by simp)]

theorem pieceOf_ne_nil {storage : List (BitVec 64)} {pos : Nat} {target : Int} {masked : MaskedInstruction}
    {type : InstructionType} {bytes : List (BitVec 8)} (kind : type.rounds ∨ type = .cbranch)
    (piece : PieceOf options hasBMI2 jccErratum storage pos target masked type bytes) : bytes ≠ [] := by
  rcases kind with rounds | rfl
  · cases type
    case faddR | faddM | fsubR | fsubM | fmulR | fdivM | fsqrtR =>
      rw [show bytes = templateBytes options hasBMI2 masked _ from piece]
      simp [templateBytes, floatRegisterBytes, floatMemoryBytes, fdivMBytes, fsqrtRBytes, genAddressReg, wordBytes,
        quadBytes, quadPrefix]
    all_goals cases rounds
  · rw [show bytes = cbranchCode jccErratum masked pos target from piece]
    simp [cbranchCode, cbranchBytes, wordBytes]

theorem pieceOf_storage {storage more : List (BitVec 64)} {pos : Nat} {target : Int} {masked : MaskedInstruction}
    {type : InstructionType} {bytes : List (BitVec 8)}
    (piece : PieceOf options hasBMI2 jccErratum storage pos target masked type bytes) :
    PieceOf options hasBMI2 jccErratum (storage ++ more) pos target masked type bytes := by
  cases type
  case imulRcp =>
    simp only [PieceOf] at piece ⊢
    split
    · rename_i trivial
      rwa [if_pos trivial] at piece
    · rename_i other
      rw [if_neg other] at piece
      rcases piece with ⟨used, room, stored, same⟩ | constant
      · refine .inl ⟨used, room, ?_, same⟩
        rw [List.getElem?_append_left (List.getElem?_eq_some_iff.mp stored).1, stored]
      · exact .inr constant
  all_goals exact piece

theorem pieceOf_target {storage : List (BitVec 64)} {pos : Nat} {first second : Int} {masked : MaskedInstruction}
    {type : InstructionType} {bytes : List (BitVec 8)} (same : type = .cbranch → first = second)
    (piece : PieceOf options hasBMI2 jccErratum storage pos first masked type bytes) :
    PieceOf options hasBMI2 jccErratum storage pos second masked type bytes := by
  cases type
  case cbranch =>
    rw [← same rfl]
    exact piece
  all_goals exact piece

theorem cfround_length (masked : MaskedInstruction) :
    (cfroundNop options hasBMI2).length = (templateBytes options hasBMI2 masked .cfround).length := by
  cases hasBMI2 with
  | false =>
    cases flag : options.amd <;>
      simp [cfroundNop, templateBytes, cfroundBytes, cfroundTail, flag, nop14, nop26, nop7, nop8, nop9, wordBytes, quadBytes,
        quadPrefix]
  | true =>
    cases flag : options.amd <;>
      simp [cfroundNop, templateBytes, cfroundBmi2Bytes, cfroundTail, flag, nop13, nop25, nop5, nop8, nop9, wordBytes,
        quadBytes, quadPrefix]

/-! ## One more instruction -/

section Step
variable {program : List MaskedInstruction} {compiler : JitCompilerX86} {pieces : List (List (BitVec 8))}

theorem Laid.codePos (laid : Laid options hasBMI2 jccErratum program compiler pieces) :
    compiler.codePos options = position options pieces program.length := by
  rw [JitCompilerX86.codePos, laid.code, position, ← laid.length, offset_length]

theorem Laid.dead_isCfround {k : Nat} (dead : k ∈ (marksAfter (bytecode options program) program.length).dead) :
    ∃ ibc, (bytecode options program)[k]? = some ibc ∧ ibc.type = .cfround :=
  ((mem_dead_iff _ _).mp dead).round

variable (options) in
theorem bytecode_getElem? {k : Nat} {masked : MaskedInstruction} (found : program[k]? = some masked) :
    ∃ usage, (bytecode options program)[k]? =
      some (compileInstruction options.config masked.instr k usage).1 := by
  induction program using List.reverseRecOn with
  | nil => cases found
  | append_singleton earlier last ih =>
    rw [bytecode_concat]
    rcases Nat.lt_or_ge k earlier.length with before | here
    · rw [List.getElem?_append_left before] at found
      rw [List.getElem?_append_left (by simpa using before)]
      exact ih found
    · obtain rfl : k = earlier.length := by
        have := (List.getElem?_eq_some_iff.mp found).1
        rw [List.length_append, List.length_singleton] at this
        omega
      rw [List.getElem?_concat_length] at found
      cases found
      refine ⟨usageAfter options.config (instructions earlier), ?_⟩
      rw [← @bytecode_length options earlier, List.getElem?_concat_length, bytecode_length]
      rfl

theorem Laid.marked_ne_nil (laid : Laid options hasBMI2 jccErratum program compiler pieces) {k : Nat}
    (marked : (marksAfter (bytecode options program) program.length).lastRounding = k) :
    ∃ piece, pieces[k]? = some piece ∧ piece ≠ [] := by
  rcases lastRounding_spec (bytecode options program) program.length with none | ⟨n, ibc, small, same, found, kind⟩
  · omega
  obtain rfl : k = n := by omega
  obtain ⟨masked, inProgram⟩ : ∃ masked, program[k]? = some masked := ⟨_, List.getElem?_eq_getElem small⟩
  obtain ⟨usage, compiled⟩ := bytecode_getElem? options inProgram
  rw [found] at compiled
  obtain ⟨rounds, branch, _⟩ := compiled_kind options.config masked k usage
  cases Option.some.inj compiled
  obtain ⟨piece, other, standing, _, shape⟩ := (laid.each k masked inProgram).placed
  have alive : k ∉ (marksAfter (bytecode options program) program.length).dead := by
    intro dead
    obtain ⟨record, sameRecord, round⟩ := Laid.dead_isCfround dead
    rw [found] at sameRecord
    cases sameRecord
    rcases kind with rounds | branch
    · rw [round] at rounds
      cases rounds
    · rw [round] at branch
      cases branch
  rw [if_neg alive] at shape
  refine ⟨piece, standing, pieceOf_ne_nil ?_ shape⟩
  rcases kind with isRounding | isBranch
  · exact .inl (rounds.symm.trans isRounding)
  · exact .inr (branch.mp isBranch)

theorem Laid.mark_lt_iff (laid : Laid options hasBMI2 jccErratum program compiler pieces) {i : Int} (least : -1 ≤ i) :
    compiler.prevFPOperation < markPosition options pieces i ↔
      (marksAfter (bytecode options program) program.length).lastRounding < i := by
  rw [laid.rounding]
  have marked := @Laid.marked_ne_nil options hasBMI2 jccErratum program compiler pieces laid
  obtain ⟨lower, _⟩ := lastRounding_bounds (bytecode options program) program.length
  generalize (marksAfter (bytecode options program) program.length).lastRounding = last at *
  unfold markPosition
  by_cases none : last < 0
  · rw [if_pos none]
    split <;> omega
  · obtain ⟨k, rfl⟩ := Int.eq_ofNat_of_zero_le (show 0 ≤ last by omega)
    obtain ⟨piece, standing, nonempty⟩ := marked rfl
    rw [if_neg none]
    split
    · omega
    · obtain ⟨m, rfl⟩ := Int.eq_ofNat_of_zero_le (show 0 ≤ i by omega)
      simp only [Int.toNat_natCast, position]
      constructor
      · intro less
        by_contra order
        have := offset_mono pieces (show m ≤ k by omega)
        omega
      · intro less
        have := offset_lt standing nonempty (show k < m by omega)
        omega

/-- The pieces after a CFROUND was compiled, before its own is appended. -/
def eliminatedPieces (options : JitOptions) (hasBMI2 : Bool) (marks : Marks) (pieces : List (List (BitVec 8))) :
    List (List (BitVec 8)) :=
  if marks.lastRounding < marks.lastCfround then pieces.set marks.lastCfround.toNat (cfroundNop options hasBMI2)
  else pieces

theorem Laid.eliminate (laid : Laid options hasBMI2 jccErratum program compiler pieces) :
    (compiler.eliminate options hasBMI2).code =
        (eliminatedPieces options hasBMI2 (marksAfter (bytecode options program) program.length) pieces).flatten ∧
      ∀ k, offset (eliminatedPieces options hasBMI2 (marksAfter (bytecode options program) program.length) pieces) k =
        offset pieces k := by
  obtain ⟨lower, _⟩ := lastRounding_bounds (bytecode options program) program.length
  have compared := laid.mark_lt_iff (i := (marksAfter (bytecode options program) program.length).lastCfround)
  obtain ⟨_, origin⟩ := lastCfround_spec (bytecode options program) program.length
  unfold JitCompilerX86.eliminate eliminatedPieces
  rw [laid.cfround]
  by_cases unused : (marksAfter (bytecode options program) program.length).lastRounding <
      (marksAfter (bytecode options program) program.length).lastCfround
  · rw [if_pos ((compared (by omega)).mpr unused), if_pos unused]
    rcases origin with none | ⟨k, ibc, small, same, found, round⟩
    · omega
    obtain ⟨masked, inProgram⟩ : ∃ masked, program[k]? = some masked := ⟨_, List.getElem?_eq_getElem small⟩
    obtain ⟨usage, compiled⟩ := bytecode_getElem? options inProgram
    rw [found] at compiled
    have kind := (compiled_kind options.config masked k usage).2.2.1
    cases Option.some.inj compiled
    obtain ⟨piece, _, standing, _, shape⟩ := (laid.each k masked inProgram).placed
    have length : (cfroundNop options hasBMI2).length = piece.length := by
      split at shape
      · rw [shape]
      · rw [kind.mp round] at shape
        rw [show piece = templateBytes options hasBMI2 masked .cfround from shape]
        exact cfround_length masked
    rw [same, Int.toNat_natCast]
    refine ⟨?_, fun m => offset_set standing length⟩
    have start : (markPosition options pieces k - options.codePosFirst).toNat = offset pieces k := by
      unfold markPosition position
      rw [if_neg (by omega), Int.toNat_natCast]
      omega
    unfold JitCompilerX86.overwrite
    dsimp only
    rw [start, laid.code]
    exact overwrite_piece standing length
  · rw [if_neg unused]
    by_cases none : (marksAfter (bytecode options program) program.length).lastCfround < -1
    · rcases origin with _ | ⟨_, _, _, _, _⟩ <;> omega
    · rw [if_neg (fun above => unused ((compared (by omega)).mp above))]
      exact ⟨laid.code, fun _ => rfl⟩

def keptPieces (options : JitOptions) (hasBMI2 : Bool) (marks : Marks) (type : InstructionType)
    (pieces : List (List (BitVec 8))) : List (List (BitVec 8)) :=
  if type = .cfround then eliminatedPieces options hasBMI2 marks pieces else pieces

def nextPieces (options : JitOptions) (hasBMI2 : Bool) (marks : Marks) (type : InstructionType)
    (pieces : List (List (BitVec 8))) (bytes : List (BitVec 8)) : List (List (BitVec 8)) :=
  keptPieces options hasBMI2 marks type pieces ++ [bytes]

theorem eliminatedPieces_length (marks : Marks) (pieces : List (List (BitVec 8))) :
    (eliminatedPieces options hasBMI2 marks pieces).length = pieces.length := by
  unfold eliminatedPieces
  split
  · exact List.length_set
  · rfl

theorem keptPieces_length (marks : Marks) (type : InstructionType) (pieces : List (List (BitVec 8))) :
    (keptPieces options hasBMI2 marks type pieces).length = pieces.length := by
  unfold keptPieces
  split
  · exact eliminatedPieces_length marks pieces
  · rfl

theorem Laid.position_next (laid : Laid options hasBMI2 jccErratum program compiler pieces) (type : InstructionType)
    (bytes : List (BitVec 8)) {k : Nat} (inside : k ≤ program.length) :
    position options (nextPieces options hasBMI2 (marksAfter (bytecode options program) program.length) type pieces
      bytes) k = position options pieces k := by
  unfold position nextPieces
  rw [offset_append _ (by rw [keptPieces_length, laid.length]; exact inside)]
  unfold keptPieces
  split
  · rw [laid.eliminate.2]
  · rfl

theorem Laid.markPosition_next (laid : Laid options hasBMI2 jccErratum program compiler pieces)
    (type : InstructionType) (bytes : List (BitVec 8)) {i : Int} (inside : i ≤ program.length) :
    markPosition options (nextPieces options hasBMI2 (marksAfter (bytecode options program) program.length) type pieces
      bytes) i = markPosition options pieces i := by
  unfold markPosition
  split
  · rfl
  · rw [laid.position_next type bytes (by omega)]

section Generate
variable (laid : Laid options hasBMI2 jccErratum program compiler pieces) {masked : MaskedInstruction}
  {type : InstructionType} {bytes : List (BitVec 8)} {next : JitCompilerX86}
  (isType : options.config.instructionType masked.instr.opcode = type)
  (generated : Generates options hasBMI2 jccErratum compiler masked type bytes next)

include laid generated

theorem Laid.next_code :
    next.code = (nextPieces options hasBMI2 (marksAfter (bytecode options program) program.length) type pieces
      bytes).flatten := by
  rw [generated.code, nextPieces, List.flatten_append, List.flatten_singleton, keptPieces]
  split
  · rw [laid.eliminate.1]
  · rw [laid.code]

theorem Laid.next_codePos :
    next.codePos options = position options (nextPieces options hasBMI2
      (marksAfter (bytecode options program) program.length) type pieces bytes) (program.length + 1) := by
  rw [JitCompilerX86.codePos, laid.next_code generated, position, ← offset_length]
  congr 2
  rw [nextPieces, List.length_append, List.length_singleton, keptPieces_length, laid.length]

include isType

theorem Laid.next_usage (index : Fin 8) :
    next.registerUsage index = position options (nextPieces options hasBMI2
      (marksAfter (bytecode options program) program.length) type pieces bytes)
      (usageAfter options.config (instructions (program ++ [masked])) index + 1).toNat := by
  have tracks := tracks_usageAfter options.config (instructions program)
  have lower := tracks.lower index
  have upper := tracks.upper index
  rw [compileProgram_length, instructions_length] at upper
  obtain ⟨_, branch, _, written⟩ := compiled_kind options.config masked program.length
    (usageAfter options.config (instructions program))
  rw [isType] at branch written
  rw [instructions_concat, usageAfter_concat, instructions_length, compileInstruction_usage, generated.usage]
  have condition : ((compileInstruction options.config masked.instr program.length
        (usageAfter options.config (instructions program))).1.type = .cbranch ∨
      index ∈ (compileInstruction options.config masked.instr program.length
        (usageAfter options.config (instructions program))).1.written) ↔
      type = .cbranch ∨ index ∈ type.writes masked := by
    by_cases isBranch : type = .cbranch
    · exact iff_of_true (.inl (branch.mpr isBranch)) (.inl isBranch)
    · rw [branch, written isBranch]
  by_cases writes : type = .cbranch ∨ index ∈ type.writes masked
  · rw [if_pos writes, if_pos (condition.mpr writes), laid.next_codePos generated]
    rfl
  · rw [if_neg writes, if_neg (fun other => writes (condition.mp other)), laid.usage,
      laid.position_next type bytes (by omega)]

/-- The mark about rounding moves where the position does. -/
theorem Laid.next_rounding (fits : program.length < 2 ^ 15) :
    next.prevFPOperation = markPosition options (nextPieces options hasBMI2
      (marksAfter (bytecode options program) program.length) type pieces bytes)
      (marksAfter (bytecode options (program ++ [masked])) (program.length + 1)).lastRounding := by
  obtain ⟨_, before⟩ := lastRounding_bounds (bytecode options program) program.length
  have tracks := tracks_usageAfter options.config (instructions program)
  have lower := tracks.lower masked.dst
  have upper := tracks.upper masked.dst
  rw [compileProgram_length, instructions_length] at upper
  obtain ⟨rounds, branch, _, _⟩ := nextIbc_kind program isType
  -- both conditions compare the landing point with the last mark
  have overwrites : type = .cbranch → (compiler.registerUsage masked.dst ≤ compiler.prevFPOperation ↔
      (nextIbc options program masked).target.toInt + 1 ≤
        (marksAfter (bytecode options program) program.length).lastRounding) := by
    intro isBranch
    have target : (nextIbc options program masked).target.toInt =
        usageAfter options.config (instructions program) masked.dst := by
      unfold nextIbc
      rw [compiled_target options.config (isType.trans isBranch)]
      exact toInt_ofInt_16 lower (by omega)
    have compared := laid.mark_lt_iff
      (i := usageAfter options.config (instructions program) masked.dst + 1) (by omega)
    unfold markPosition at compared
    rw [if_neg (by omega), ← laid.usage] at compared
    rw [target, ← not_lt, ← not_lt, compared]
  rw [marks_concat, Marks.next_lastRounding, generated.rounding, laid.codePos]
  have same : ((nextIbc options program masked).type.rounds ∨ (nextIbc options program masked).type = .cbranch ∧
      (nextIbc options program masked).target.toInt + 1 ≤
        (marksAfter (bytecode options program) program.length).lastRounding) ↔
      (type.rounds ∨ type = .cbranch ∧ compiler.registerUsage masked.dst ≤ compiler.prevFPOperation) := by
    rw [rounds, branch]
    exact or_congr Iff.rfl (and_congr_right fun isBranch => (overwrites isBranch).symm)
  by_cases marked : type.rounds ∨ type = .cbranch ∧ compiler.registerUsage masked.dst ≤ compiler.prevFPOperation
  · rw [if_pos marked, if_pos (same.mpr marked), laid.markPosition_next type bytes (Int.le_refl _), markPosition,
      if_neg (by omega), Int.toNat_natCast]
  · rw [if_neg marked, if_neg (fun other => marked (same.mp other)), laid.rounding,
      laid.markPosition_next type bytes (by omega)]

theorem Laid.next_cfround :
    next.prevCFROUND = markPosition options (nextPieces options hasBMI2
      (marksAfter (bytecode options program) program.length) type pieces bytes)
      (marksAfter (bytecode options (program ++ [masked])) (program.length + 1)).lastCfround := by
  obtain ⟨_, origin⟩ := lastCfround_spec (bytecode options program) program.length
  obtain ⟨_, _, round, _⟩ := nextIbc_kind program isType
  rw [marks_concat, Marks.next_lastCfround, generated.cfround]
  by_cases isRound : type = .cfround
  · have same : ((compiler.eliminate options hasBMI2).codePos options : Int) = position options pieces program.length := by
      rw [JitCompilerX86.codePos, laid.eliminate.1, ← offset_length, laid.eliminate.2, eliminatedPieces_length,
        laid.length]
      rfl
    rw [if_pos isRound, if_pos (round.mpr isRound), laid.markPosition_next type bytes (Int.le_refl _), markPosition,
      if_neg (by omega), Int.toNat_natCast, same]
  · rw [if_neg isRound, if_neg (fun other => isRound (round.mp other)), laid.cfround]
    rw [laid.markPosition_next type bytes]
    rcases origin with none | ⟨k, _, small, same, _⟩ <;> omega

omit laid generated in
variable (program) in
theorem dead_concat (k : Nat) :
    k ∈ (marksAfter (bytecode options (program ++ [masked])) (program.length + 1)).dead ↔
      k ∈ (marksAfter (bytecode options program) program.length).dead ∨
        (type = .cfround ∧ (marksAfter (bytecode options program) program.length).lastRounding <
          (marksAfter (bytecode options program) program.length).lastCfround) ∧
          k = (marksAfter (bytecode options program) program.length).lastCfround.toNat := by
  obtain ⟨_, _, round, _⟩ := nextIbc_kind program isType
  rw [marks_concat, Marks.next_dead]
  simp only [round]
  split
  · rename_i added
    rw [List.mem_cons]
    simp only [added, true_and]
    exact Or.comm
  · rename_i kept
    simp only [kept, false_and, or_false]

theorem Laid.next_placed (fits : program.length < 2 ^ 15) :
    Placed options hasBMI2 jccErratum (program ++ [masked]) next.imulRcpStorage
      (marksAfter (bytecode options (program ++ [masked])) (program.length + 1)).dead
      (nextPieces options hasBMI2 (marksAfter (bytecode options program) program.length) type pieces bytes)
      program.length masked := by
  have tracks := tracks_usageAfter options.config (instructions program)
  have lower := tracks.lower masked.dst
  have upper := tracks.upper masked.dst
  rw [compileProgram_length, instructions_length] at upper
  refine ⟨bytes, nextIbc options program masked, ?_, ?_, ?_⟩
  · have kept := @keptPieces_length options hasBMI2
      (marksAfter (bytecode options program) program.length) type pieces
    rw [nextPieces, List.getElem?_append_right (by rw [kept, laid.length]), kept, laid.length, Nat.sub_self]
    rfl
  · rw [bytecode_concat, List.getElem?_append_right (by simp), bytecode_length, Nat.sub_self]
    rfl
  · have alive : program.length ∉ (marksAfter (bytecode options (program ++ [masked])) (program.length + 1)).dead := by
      intro dead
      obtain ⟨j, _, behind, small, _⟩ := ((mem_dead_iff _ _).mp dead).later
      omega
    rw [if_neg alive, isType, laid.position_next type bytes (Nat.le_refl _), ← laid.codePos]
    refine pieceOf_target (fun isBranch => ?_) generated.piece
    have target : (nextIbc options program masked).target.toInt =
        usageAfter options.config (instructions program) masked.dst := by
      unfold nextIbc
      rw [compiled_target options.config (isType.trans isBranch)]
      exact toInt_ofInt_16 lower (by omega)
    rw [target, laid.usage, laid.position_next type bytes (by omega)]

theorem Laid.kept_placed (fits : program.length < 2 ^ 15) {k : Nat} {other : MaskedInstruction} (found : program[k]? = some other) :
    Placed options hasBMI2 jccErratum (program ++ [masked]) next.imulRcpStorage
      (marksAfter (bytecode options (program ++ [masked])) (program.length + 1)).dead
      (nextPieces options hasBMI2 (marksAfter (bytecode options program) program.length) type pieces bytes)
      k other := by
  have small := (List.getElem?_eq_some_iff.mp found).1
  obtain ⟨piece, ibc, standing, record, shape⟩ := (laid.each k other found).placed
  obtain ⟨more, storage⟩ := generated.storage
  have recorded : (bytecode options (program ++ [masked]))[k]? = some ibc := by
    rw [bytecode_concat, List.getElem?_append_left (by simpa using small), record]
  have dead := dead_concat program isType k
  by_cases overwrites : (type = .cfround ∧ (marksAfter (bytecode options program) program.length).lastRounding <
      (marksAfter (bytecode options program) program.length).lastCfround) ∧
      k = (marksAfter (bytecode options program) program.length).lastCfround.toNat
  · refine ⟨cfroundNop options hasBMI2, ibc, ?_, recorded, ?_⟩
    · rw [nextPieces, List.getElem?_append_left (by rw [keptPieces_length, laid.length]; exact small), keptPieces,
        if_pos overwrites.1.1, eliminatedPieces, if_pos overwrites.1.2, ← overwrites.2,
        List.getElem?_set_self (by rw [laid.length]; exact small)]
    · rw [if_pos (dead.mpr (.inr overwrites))]
  · refine ⟨piece, ibc, ?_, recorded, ?_⟩
    · have kept : (keptPieces options hasBMI2 (marksAfter (bytecode options program) program.length) type pieces)[k]? =
          pieces[k]? := by
        unfold keptPieces
        split
        · rename_i isRound
          unfold eliminatedPieces
          split
          · rename_i unused
            exact List.getElem?_set_ne fun same => overwrites ⟨⟨isRound, unused⟩, same.symm⟩
          · rfl
        · rfl
      rw [nextPieces, List.getElem?_append_left (by rw [keptPieces_length, laid.length]; exact small), kept, standing]
    · by_cases wasDead : k ∈ (marksAfter (bytecode options program) program.length).dead
      · rw [if_pos wasDead] at shape
        rw [if_pos (dead.mpr (.inl wasDead))]
        exact shape
      · rw [if_neg wasDead] at shape
        rw [if_neg (fun nowDead => (dead.mp nowDead).elim wasDead overwrites), storage]
        have landing : (options.config.instructionType other.instr.opcode = .cbranch) →
            (ibc.target.toInt + 1).toNat ≤ program.length := by
          intro isBranch
          obtain ⟨usage, compiled⟩ := bytecode_getElem? options found
          rw [record] at compiled
          cases Option.some.inj compiled
          have branch := (compiled_kind options.config other k usage).2.1.mpr isBranch
          have upper := (compileProgram_disciplined options.config (instructions program) (by simp; omega) k _ record
            branch).upper
          omega
        rw [laid.position_next type bytes (by omega)]
        refine pieceOf_storage (pieceOf_target (fun isBranch => ?_) shape)
        rw [laid.position_next type bytes (landing isBranch)]

end Generate

theorem Laid.generate (laid : Laid options hasBMI2 jccErratum program compiler pieces) (fits : program.length < 2 ^ 15)
    (masked : MaskedInstruction) :
    ∃ pieces, Laid options hasBMI2 jccErratum (program ++ [masked])
      (compiler.generate options hasBMI2 jccErratum masked (options.config.instructionType masked.instr.opcode))
      pieces := by
  obtain ⟨bytes, generated⟩ := @generates options hasBMI2 jccErratum compiler
    masked (options.config.instructionType masked.instr.opcode)
  refine ⟨nextPieces options hasBMI2 (marksAfter (bytecode options program) program.length)
    (options.config.instructionType masked.instr.opcode) pieces bytes, ?_⟩
  constructor
  · exact laid.next_code generated
  · rw [nextPieces, List.length_append, List.length_append, keptPieces_length, laid.length]
    rfl
  · exact laid.next_usage rfl generated
  · rw [List.length_append]
    exact laid.next_rounding rfl generated fits
  · rw [List.length_append]
    exact laid.next_cfround rfl generated
  · intro k other found
    rw [List.length_append]
    rcases Nat.lt_or_ge k program.length with earlier | here
    · rw [List.getElem?_append_left earlier] at found
      exact laid.kept_placed rfl generated fits found
    · obtain rfl : k = program.length := by
        have := (List.getElem?_eq_some_iff.mp found).1
        rw [List.length_append, List.length_singleton] at this
        omega
      rw [List.getElem?_concat_length] at found
      cases found
      exact laid.next_placed rfl generated fits

end Step

variable (options hasBMI2 jccErratum)

theorem compile_laid (program : List MaskedInstruction) (fits : program.length ≤ 2 ^ 15) :
    ∃ pieces, Laid options hasBMI2 jccErratum program
      (JitCompilerX86.compile options hasBMI2 jccErratum program) pieces := by
  induction program using List.reverseRecOn with
  | nil =>
    refine ⟨[], rfl, rfl, fun index => rfl, rfl, rfl, fun k masked found => ?_⟩
    cases found
  | append_singleton program masked ih =>
    rw [List.length_append, List.length_singleton] at fits
    obtain ⟨pieces, laid⟩ := ih (by omega)
    rw [JitCompilerX86.compile, List.foldl_append]
    exact laid.generate (by omega) masked

end Layout

end Xmrig.RandomX
