import Xmrig.RandomX.JitControl

/-! Running the compiled code of a program.

Wherever the code of a program stands, the processor goes through it as the interpreter
goes through the bytecode: the code of an instruction leads to the code of the
instruction that is next, and keeps the states related. A CBRANCH lands on the first byte
of the instruction that the interpreter jumps to.
-/

set_option autoImplicit false

namespace Xmrig.RandomX

open Foundation Jit

/-! ## Lengths -/

section Lengths
variable {options : JitOptions} {hasBMI2 jccErratum : Bool}

@[simp] theorem wordBytes_length (word : BitVec 32) (count : Nat) : (wordBytes word count).length = min count 4 := by
  simp [wordBytes]

@[simp] theorem quadBytes_length (quad : BitVec 64) : (quadBytes quad).length = 8 := rfl

@[simp] theorem quadPrefix_length (quad : BitVec 64) (count : Nat) : (quadPrefix quad count).length = min count 8 := by
  simp [quadPrefix]

theorem genAddressReg_length (config : Configuration) (masked : MaskedInstruction) (rax : Bool) (src : Fin 8) :
    (genAddressReg config masked rax src).length ≤ 16 := by
  cases rax <;> simp [genAddressReg]

theorem templateBytes_length (masked : MaskedInstruction) (type : InstructionType) :
    (templateBytes options hasBMI2 masked type).length ≤ 64 := by
  have address := fun rax => genAddressReg_length options.config masked rax masked.src
  have first := address true
  have second := address false
  cases type
  all_goals
    simp only [templateBytes, iaddRsBytes, integerMemoryBytes, isubRBytes, imulRBytes, imulMBytes, imulhRBytes,
      imulhRBmi2Bytes, highMemoryBytes, imulhMBmi2Bytes, ismulhRBytes, inegRBytes, ixorRBytes, rotateBytes, iswapRBytes,
      fswapRBytes, floatRegisterBytes, floatMemoryBytes, fscalRBytes, fdivMBytes, fsqrtRBytes, cfroundBytes,
      cfroundBmi2Bytes, cfroundTail, istoreBytes, genAddressImm, genAddressRegDst]
    repeat' split
    all_goals
      simp only [List.length_append, List.length_cons, List.length_nil, wordBytes_length, quadBytes_length, quadPrefix_length]
      omega

theorem cbranchCode_length (masked : MaskedInstruction) (pos : Nat) (target : Int) :
    (cbranchCode jccErratum masked pos target).length ≤ 64 := by
  have small := cbranchAlignment_lt jccErratum pos target
  have aligned := (align_forms ⟨_, small⟩).2.1
  dsimp only at aligned
  rw [cbranchCode_eq, List.length_append, branchJump_length]
  simp only [branchHead, List.length_append, wordBytes_length, aligned]
  split <;> omega

theorem pieceOf_length {storage : List (BitVec 64)} {pos : Nat} {target : Int} {masked : MaskedInstruction}
    {type : InstructionType} {bytes : List (BitVec 8)}
    (piece : PieceOf options hasBMI2 jccErratum storage pos target masked type bytes) : bytes.length ≤ 64 := by
  cases type
  case imulRcp =>
    simp only [PieceOf] at piece
    split at piece
    · rw [piece]
      decide
    · rcases piece with ⟨used, _, _, rfl⟩ | rfl
      · simp only [imulStoredBytes, quadPrefix_length]
        omega
      · simp only [imulConstantBytes, List.length_append, wordBytes_length, quadBytes_length]
        omega
  case cbranch =>
    rw [show bytes = cbranchCode jccErratum masked pos target from piece]
    exact cbranchCode_length masked pos target
  all_goals
    rw [show bytes = templateBytes options hasBMI2 masked _ from piece]
    exact templateBytes_length masked _

end Lengths

/-! ## One instruction -/

section Step
variable {options : JitOptions} {hasBMI2 jccErratum : Bool} {program : List MaskedInstruction}
  {compiler : JitCompilerX86} {pieces : List (List (BitVec 8))}

theorem Laid.position_le (laid : Laid options hasBMI2 jccErratum program compiler pieces) (k : Nat) :
    position options pieces k ≤ options.codePosFirst + 64 * k := by
  apply Nat.add_le_add_left
  apply offset_le
  intro piece member
  obtain ⟨k, inside, rfl⟩ := List.getElem_of_mem member
  have small : k < program.length := laid.length ▸ inside
  obtain ⟨found, _, standing, _, shape⟩ := (laid.each k _ (List.getElem?_eq_getElem small)).placed
  rw [List.getElem?_eq_getElem inside] at standing
  cases standing
  split at shape
  · rw [shape, cfround_length program[k]]
    exact templateBytes_length _ _
  · exact pieceOf_length shape

theorem position_mono (options : JitOptions) (pieces : List (List (BitVec 8))) {k m : Nat} (below : k ≤ m) :
    position options pieces k ≤ position options pieces m :=
  Nat.add_le_add_left (offset_mono pieces below) _

theorem near_positions {k landing : Nat} (far : position options pieces k ≤ options.codePosFirst + 64 * k)
    (fits : k < 2 ^ 15) : position options pieces k < position options pieces landing + 2 ^ 30 := by
  unfold position at far ⊢
  omega

/-- The code of the program, with other code around it. -/
structure Installed (options : JitOptions) (compiler : JitCompilerX86) (code : List (BitVec 8)) : Prop where
  installed : ∃ before after, before.length = options.codePosFirst ∧ code = before ++ compiler.code ++ after

theorem Laid.stands (laid : Laid options hasBMI2 jccErratum program compiler pieces) {code : List (BitVec 8)}
    (installed : Installed options compiler code) {k : Nat} {piece : List (BitVec 8)} (found : pieces[k]? = some piece) :
    ∃ more, code.drop (position options pieces k) = piece ++ more := by
  obtain ⟨before, after, length, rfl⟩ := installed.installed
  have inside : offset pieces k ≤ pieces.flatten.length := by
    rw [← offset_length]
    exact offset_mono pieces (Nat.le_of_lt (List.getElem?_eq_some_iff.mp found).1)
  refine ⟨(pieces.drop (k + 1)).flatten ++ after, ?_⟩
  rw [List.append_assoc, position, ← length, ← List.drop_drop, List.drop_left, laid.code,
    List.drop_append_of_le_length inside, drop_offset found, List.append_assoc]

variable {unit : FloatUnit} {eMask : Vec128} {frame cpu : Cpu} {machine : Machine} {code : List (BitVec 8)}

/-- The code of an instruction, run from its first byte, ends related at the position `next`. -/
def Leads (options : JitOptions) (unit : FloatUnit) (frame : Cpu) (code : List (BitVec 8)) (start : Nat) (cpu : Cpu)
    (next : Nat) (machine : Machine) : Prop :=
  ∃ after, Related options frame machine after ∧ Reaches unit.packed code ⟨start, cpu⟩ ⟨next, after⟩

theorem imulRcp_leads {masked : MaskedInstruction} {storage : List (BitVec 64)}
    (framed : Framed options eMask storage frame) (related : Related options frame machine cpu)
    (isType : options.config.instructionType masked.instr.opcode = .imulRcp) (i : Nat) (usage : RegisterUsage) (pc : Int)
    {pos : Nat} {target : Int} {bytes more : List (BitVec 8)}
    (piece : PieceOf options hasBMI2 jccErratum storage pos target masked .imulRcp bytes)
    (stands : code.drop pos = bytes ++ more) :
    Leads options unit frame code pos cpu (pos + bytes.length)
      (executeInstruction unit eMask (compileInstruction options.config masked.instr i usage).1 pc machine).2 := by
  have divisor : masked.instr.imm32 = masked.imm32 := rfl
  unfold compileInstruction
  rw [isType]
  simp only [PieceOf] at piece
  simp only [divisor, masked.register_dst]
  by_cases trivial : isZeroOrPowerOf2 (masked.imm32.setWidth 64) = true
  · rw [if_pos trivial] at piece
    rw [if_neg (not_not_intro trivial), piece]
    exact ⟨cpu, related, Relation.ReflTransGen.refl⟩
  · rw [if_neg trivial] at piece
    rw [if_pos trivial]
    simp only [executeInstruction, InstructionByteCode.source, integerResult, ← reciprocalFast_eq]
    rcases piece with ⟨used, room, stored, rfl⟩ | rfl
    · exact ⟨_, imulStored_related unit.packed framed related room stored,
        (assembles_imulStored masked room).reaches unit.packed cpu stands⟩
    · exact ⟨_, imulConstant_related unit.packed related, (assembles_imulConstant masked).reaches unit.packed cpu stands⟩

theorem cfround_leads {masked : MaskedInstruction} {storage : List (BitVec 64)}
    (framed : Framed options eMask storage frame) (related : Related options frame machine cpu)
    (isType : options.config.instructionType masked.instr.opcode = .cfround) (i : Nat) (usage : RegisterUsage) (pc : Int)
    {pos : Nat} {more : List (BitVec 8)}
    (stands : code.drop pos = templateBytes options hasBMI2 masked .cfround ++ more) :
    Leads options unit frame code pos cpu (pos + (templateBytes options hasBMI2 masked .cfround).length)
      (executeInstruction unit eMask (compileInstruction options.config masked.instr i usage).1 pc machine).2 := by
  obtain ⟨after, reached, rounded⟩ := cfround_reaches unit.packed framed related stands
  unfold compileInstruction
  rw [isType]
  simp only [executeInstruction, InstructionByteCode.source, masked.register_src]
  exact ⟨after, rounded, reached⟩

theorem template_leads {masked : MaskedInstruction} {storage : List (BitVec 64)} (suitable : Suitable options.config unit)
    (framed : Framed options eMask storage frame)
    (masks : eMask.lo &&& 0x00FFFFFFFFC00000 = 0 ∧ eMask.hi &&& 0x00FFFFFFFFC00000 = 0)
    (related : Related options frame machine cpu) {type : InstructionType} (simple : type.simple = true)
    (isType : options.config.instructionType masked.instr.opcode = type) (i : Nat) (usage : RegisterUsage) (pc : Int)
    {pos : Nat} {more : List (BitVec 8)} (stands : code.drop pos = templateBytes options hasBMI2 masked type ++ more) :
    Leads options unit frame code pos cpu (pos + (templateBytes options hasBMI2 masked type).length)
      (executeInstruction unit eMask (compileInstruction options.config masked.instr i usage).1 pc machine).2 :=
  ⟨_, template_related hasBMI2 suitable framed masks related simple isType i usage pc,
    (assembles_template options hasBMI2 masked simple).reaches unit.packed cpu stands⟩

variable (unit eMask) in
theorem cbranch_leads {masked : MaskedInstruction} (usage : RegisterUsage) (i : Nat) (pc : Int)
    (related : Related options frame machine cpu)
    (isType : options.config.instructionType masked.instr.opcode = .cbranch) {pos target : Nat} {more : List (BitVec 8)}
    (backward : target ≤ pos) (near : pos < target + 2 ^ 30)
    (stands : code.drop pos = cbranchCode jccErratum masked pos target ++ more) :
    let ibc := (compileInstruction options.config masked.instr i usage).1
    Leads options unit frame code pos cpu
      (if ibc.taken machine then target else pos + (cbranchCode jccErratum masked pos target).length)
      (executeInstruction unit eMask ibc pc machine).2 := by
  obtain ⟨after, added, reached⟩ := cbranch_reaches unit.packed related backward near stands
  have record := compileInstruction_cbranch
    ((compiled_kind options.config masked i usage).2.1.mpr isType)
  rw [masked.register_dst] at record
  dsimp only
  rw [record]
  exact ⟨after, added, reached⟩

theorem branch_bounds (fits : program.length ≤ 2 ^ 15) {k : Nat} {ibc : InstructionByteCode}
    (record : (bytecode options program)[k]? = some ibc) (branch : ibc.type = .cbranch) :
    -1 ≤ ibc.target.toInt ∧ ibc.target.toInt < k := by
  rw [← instructions_length] at fits
  have discipline := compileProgram_disciplined options.config (instructions program) fits k ibc record branch
  exact ⟨discipline.lower, discipline.upper⟩

variable (laid : Laid options hasBMI2 jccErratum program compiler pieces) (fits : program.length ≤ 2 ^ 15)
  (installed : Installed options compiler code) (suitable : Suitable options.config unit)
  (framed : Framed options eMask compiler.imulRcpStorage frame)
  (masks : eMask.lo &&& 0x00FFFFFFFFC00000 = 0 ∧ eMask.hi &&& 0x00FFFFFFFFC00000 = 0)

include laid fits installed suitable framed masks

/-- One pass of the loop over the bytecode without its dead instructions, as the processor makes it. -/
theorem Laid.step (related : Related options frame machine cpu) {k : Nat} {next : Running}
    (stepped : stepBytecode unit eMask (withoutDead (bytecode options program)) ⟨k, machine⟩ = some next) :
    ∃ n ≤ program.length, next.pc = (n : Nat) ∧
      Leads options unit frame code (position options pieces k) cpu (position options pieces n) next.machine := by
  obtain ⟨entry, found, rest⟩ : ∃ entry, (withoutDead (bytecode options program))[k]? = some entry ∧
      (if entry.type = .imulRcp then none
        else some { pc := (executeInstruction unit eMask entry k machine).1 + 1
                    machine := (executeInstruction unit eMask entry k machine).2 : Running }) = some next := by
    rw [stepBytecode, if_neg (show ¬ ((k : Int) < 0) by omega)] at stepped
    exact Option.bind_eq_some_iff.mp stepped
  rw [withoutDead_getElem?, bytecode_length] at found
  obtain ⟨ibc, record, isEntry⟩ := Option.map_eq_some_iff.mp found
  have inside : k < program.length := by
    have := (List.getElem?_eq_some_iff.mp record).1
    rwa [bytecode_length] at this
  obtain ⟨piece, other, standing, sameRecord, shape⟩ := (laid.each k _ (List.getElem?_eq_getElem inside)).placed
  rw [record] at sameRecord
  cases sameRecord
  obtain ⟨usage, compiled⟩ := bytecode_getElem? options (List.getElem?_eq_getElem inside)
  rw [record] at compiled
  cases Option.some.inj compiled
  obtain ⟨more, stands⟩ := laid.stands installed standing
  have behind : position options pieces (k + 1) = position options pieces k + piece.length := by
    rw [position, offset_succ standing, ← Nat.add_assoc, position]
  by_cases dead : k ∈ (marksAfter (bytecode options program) program.length).dead
  · rw [if_pos dead] at shape isEntry
    subst isEntry shape
    rw [if_neg (by decide)] at rest
    cases rest
    refine ⟨k + 1, inside, rfl, ?_⟩
    rw [behind]
    exact ⟨cpu, related, cfroundNop_reaches stands⟩
  · rw [if_neg dead] at shape isEntry
    subst isEntry
    rw [if_neg (compileInstruction_type_ne_imulRcp _ _ _ _)] at rest
    cases rest
    have onward : (options.config.instructionType program[k].instr.opcode) ≠ .cbranch →
        (executeInstruction unit eMask (compileInstruction options.config program[k].instr k usage).1 k machine).1 + 1 =
          ((k + 1 : Nat) : Int) := by
      intro straight
      rw [executeInstruction_pc _ _ _ _ _ fun branch =>
        straight ((compiled_kind options.config program[k] k usage).2.1.mp branch)]
      rfl
    generalize isType : options.config.instructionType program[k].instr.opcode = type at shape onward
    cases type
    case cbranch =>
      have branch := (compiled_kind options.config program[k] k usage).2.1.mpr isType
      obtain ⟨lower, upper⟩ := branch_bounds fits record branch
      obtain ⟨landing, isLanding⟩ := Int.eq_ofNat_of_zero_le
        (show 0 ≤ (compileInstruction options.config program[k].instr k usage).1.target.toInt + 1 by omega)
      rw [isLanding, Int.toNat_natCast] at shape
      have backward := position_mono options pieces (show landing ≤ k by omega)
      have near : position options pieces k < position options pieces landing + 2 ^ 30 :=
        near_positions (laid.position_le k) (by omega)
      rw [show piece = cbranchCode jccErratum program[k] (position options pieces k) _ from shape] at stands behind
      have leads := cbranch_leads unit eMask usage k k related isType
        backward near stands
      dsimp only at leads
      rw [executeInstruction_cbranch _ _ branch] at leads ⊢
      by_cases taken : (compileInstruction options.config program[k].instr k usage).1.taken machine = true
      · refine ⟨landing, by omega, ?_, ?_⟩
        · rw [if_pos taken]
          exact isLanding
        · rw [if_pos taken] at leads
          exact leads
      · refine ⟨k + 1, inside, ?_, ?_⟩
        · rw [if_neg taken]
          rfl
        · rw [if_neg taken] at leads
          rw [behind]
          exact leads
    case imulRcp =>
      refine ⟨k + 1, inside, onward (by decide), ?_⟩
      rw [behind]
      exact imulRcp_leads framed related isType k usage k shape stands
    case cfround =>
      refine ⟨k + 1, inside, onward (by decide), ?_⟩
      rw [behind]
      rw [show piece = templateBytes options hasBMI2 program[k] .cfround from shape] at stands ⊢
      exact cfround_leads framed related isType k usage k stands
    all_goals
      refine ⟨k + 1, inside, onward (by decide), ?_⟩
      rw [behind]
      rw [show piece = templateBytes options hasBMI2 program[k] _ from shape] at stands ⊢
      exact template_leads suitable framed masks related rfl isType k usage k stands

omit laid in
theorem Laid.run (laid : Laid options hasBMI2 jccErratum program compiler pieces) (fuel : Nat) {k : Nat}
    {machine final : Machine} {cpu : Cpu} (inside : k ≤ program.length) (related : Related options frame machine cpu)
    (ended : executeBytecode unit eMask (withoutDead (bytecode options program)) fuel ⟨k, machine⟩ = some final) :
    Leads options unit frame code (position options pieces k) cpu (position options pieces program.length) final := by
  induction fuel generalizing k machine cpu with
  | zero =>
    rw [executeBytecode, withoutDead_length, bytecode_length] at ended
    split at ended
    · cases ended
    · rename_i past
      cases ended
      obtain rfl : k = program.length := by
        dsimp only at past
        omega
      exact ⟨cpu, related, Relation.ReflTransGen.refl⟩
  | succ fuel ih =>
    rw [executeBytecode, withoutDead_length, bytecode_length] at ended
    split at ended
    · obtain ⟨next, stepped, rest⟩ := Option.bind_eq_some_iff.mp ended
      obtain ⟨n, within, pc, after, kept, reached⟩ := laid.step fits installed suitable framed masks related stepped
      rw [show next = ⟨(n : Int), next.machine⟩ from by rw [← pc]] at rest
      obtain ⟨last, related, further⟩ := ih within kept rest
      exact ⟨last, related, reached.trans further⟩
    · rename_i past
      cases ended
      obtain rfl : k = program.length := by
        dsimp only at past
        omega
      exact ⟨cpu, related, Relation.ReflTransGen.refl⟩

end Step

/-! ## Compiled programs -/

section Programs
variable (options : JitOptions) (hasBMI2 jccErratum : Bool)

/-- Every CBRANCH tests what the interpreter tests, and its jump goes to the first byte of the code
of the instruction that the interpreter goes on with. With the correction for the erratum the test
and the jump stay in one block of 32 bytes and do not end it. -/
theorem cbranch_lands (program : List MaskedInstruction) (fits : program.length ≤ 2 ^ 15) :
    ∃ pieces, Laid options hasBMI2 jccErratum program (JitCompilerX86.compile options hasBMI2 jccErratum program) pieces ∧
      ∀ (k : Nat) (masked : MaskedInstruction) (ibc : InstructionByteCode), program[k]? = some masked →
        (bytecode options program)[k]? = some ibc → ibc.type = .cbranch →
        ∃ (alignment : Nat) (jump : List (BitVec 8)) (jmpOffset : BitVec 64),
          alignment < 14 ∧ pieces[k]? = some (branchHead alignment masked ++ jump) ∧
          decode jump = some (⟨.jump true, jmpOffset⟩, []) ∧
          jumpTarget (position options pieces (k + 1)) jmpOffset =
            some (position options pieces (ibc.target.toInt + 1).toNat) ∧
          (cbranchImm masked).signExtend 64 = ibc.imm ∧ branchMask masked.instr.getModCond = ibc.memMask ∧
          (jccErratum = true →
            (position options pieces k + alignment + 7) / 32 = position options pieces (k + 1) / 32) := by
  obtain ⟨pieces, laid⟩ := compile_laid options hasBMI2 jccErratum program fits
  refine ⟨pieces, laid, fun k masked ibc found record branch => ?_⟩
  obtain ⟨lower, upper⟩ := branch_bounds fits record branch
  obtain ⟨landing, isLanding⟩ := Int.eq_ofNat_of_zero_le (show 0 ≤ ibc.target.toInt + 1 by omega)
  obtain ⟨usage, compiled⟩ := bytecode_getElem? options found
  rw [record] at compiled
  have isType := (compiled_kind options.config masked k usage).2.1.mp (Option.some.inj compiled ▸ branch)
  have inside := (List.getElem?_eq_some_iff.mp found).1
  obtain ⟨piece, other, standing, sameRecord, shape⟩ := (laid.each k masked found).placed
  rw [record] at sameRecord
  cases sameRecord
  have alive : k ∉ (marksAfter (bytecode options program) program.length).dead := by
    intro dead
    obtain ⟨round, sameRound, isRound⟩ := Laid.dead_isCfround dead
    rw [record] at sameRound
    cases sameRound
    rw [branch] at isRound
    cases isRound
  rw [if_neg alive, isType, isLanding, Int.toNat_natCast] at shape
  have code : piece = cbranchCode jccErratum masked (position options pieces k) (position options pieces landing) := shape
  have behind : position options pieces (k + 1) = position options pieces k + piece.length := by
    rw [position, offset_succ standing, ← Nat.add_assoc, position]
  have backward := position_mono options pieces (show landing ≤ k by omega)
  have near : position options pieces k < position options pieces landing + 2 ^ 30 :=
    near_positions (laid.position_le k) (by omega)
  have small := cbranchAlignment_lt jccErratum (position options pieces k) (position options pieces landing)
  have block : jccErratum = true →
      (position options pieces k + cbranchAlignment jccErratum (position options pieces k) (position options pieces landing) +
          7) / 32 =
        (position options pieces k + cbranchAlignment jccErratum (position options pieces k)
            (position options pieces landing) + 7 + 7 +
          (branchJump ((position options pieces landing : Int) - (position options pieces k + 16) -
            cbranchAlignment jccErratum (position options pieces k) (position options pieces landing))).length) / 32 := by
    rintro rfl
    exact alignmentSize_block _ _
  rw [code, cbranchCode_eq] at standing
  rw [code, cbranchCode_eq, List.length_append, branchHead_length small] at behind
  rw [isLanding, Int.toNat_natCast]
  generalize cbranchAlignment jccErratum (position options pieces k) (position options pieces landing) = alignment at *
  have decoded := branchJump_decode ((position options pieces landing : Int) - (position options pieces k + 16) -
    alignment) (by omega) (by omega)
  have jump := branchJump_length ((position options pieces landing : Int) - (position options pieces k + 16) - alignment)
  have bound : (branchJump ((position options pieces landing : Int) - (position options pieces k + 16) - alignment)).length ≤ 6 := by
    rw [jump]
    split <;> omega
  refine ⟨alignment, _, _, small, standing, decoded, ?_, ?_, ?_, fun erratum => ?_⟩
  · apply jumpTarget_eq
    rw [BitVec.toInt_ofInt_eq_self (by decide) (by omega) (by omega), behind]
    omega
  · rw [Option.some.inj compiled, compileInstruction_cbranch (Option.some.inj compiled ▸ branch)]
    exact cbranchImm_eq masked
  · rw [Option.some.inj compiled, compileInstruction_cbranch (Option.some.inj compiled ▸ branch)]
  · rw [block erratum, behind]
    congr 1
    omega

/-- One CBRANCH that jumps back to itself. -/
theorem cbranch_lands_loop :
    let options : JitOptions := ⟨1500, true, false, .base⟩
    let loop := (⟨214, 3, 0, 0, 7⟩ : Instruction).masked
    ([loop].length ≤ 2 ^ 15) ∧ ∃ pieces, Laid options true true [loop] (JitCompilerX86.compile options true true [loop]) pieces ∧
      ∃ (alignment : Nat) (jump : List (BitVec 8)) (jmpOffset : BitVec 64),
        alignment < 14 ∧ pieces[0]? = some (branchHead alignment loop ++ jump) ∧
        decode jump = some (⟨.jump true, jmpOffset⟩, []) ∧
        jumpTarget (position options pieces 1) jmpOffset = some (position options pieces 0) := by
  intro options loop
  obtain ⟨pieces, laid, all⟩ := cbranch_lands options true true [loop] (by decide)
  obtain ⟨alignment, jump, jmpOffset, small, standing, decoded, landing, _⟩ :=
    all 0 loop { type := .cbranch, idst := 3, target := 0xFFFF, imm := branchImm 7 0, memMask := branchMask 0 } rfl
      (by decide) rfl
  exact ⟨by decide, pieces, laid, alignment, jump, jmpOffset, small, standing, decoded, landing⟩

/-- Running the compiled code of a program does what the interpreter does with its bytecode: from
the first byte of the code, with the registers and the memory that stand for the state of the
virtual machine, the processor gets to the end of the code, and they stand for the final state. -/
theorem compile_simulates (program : List MaskedInstruction) (fits : program.length ≤ 2 ^ 15) {unit : FloatUnit}
    (suitable : Suitable options.config unit) (setup : Program) {code : List (BitVec 8)}
    (installed : Installed options (JitCompilerX86.compile options hasBMI2 jccErratum program) code) {frame cpu : Cpu}
    (framed : Framed options setup.initialize.config.eMask
      (JitCompilerX86.compile options hasBMI2 jccErratum program).imulRcpStorage frame)
    {machine : Machine} (related : Related options frame machine cpu) :
    ∃ final after,
      executeBytecode unit setup.initialize.config.eMask (compileProgram options.config (instructions program))
        (capacity (compileProgram options.config (instructions program))) ⟨0, machine⟩ = some final ∧
      Related options frame final after ∧
      Reaches unit.packed code ⟨options.codePosFirst, cpu⟩
        ⟨(JitCompilerX86.compile options hasBMI2 jccErratum program).codePos options, after⟩ := by
  have short : (instructions program).length ≤ 2 ^ 15 := by rwa [instructions_length]
  obtain ⟨pieces, laid⟩ := compile_laid options hasBMI2 jccErratum program fits
  have masks : setup.initialize.config.eMask.lo &&& 0x00FFFFFFFFC00000 = 0 ∧
      setup.initialize.config.eMask.hi &&& 0x00FFFFFFFFC00000 = 0 :=
    ⟨getFloatMask_apart _, getFloatMask_apart _⟩
  have ends : (executeBytecode unit setup.initialize.config.eMask (compileProgram options.config (instructions program))
      (capacity (compileProgram options.config (instructions program))) ⟨0, machine⟩).isSome := by
    apply executeBytecode_isSome (compileProgram_disciplined options.config (instructions program) short)
      (compileFrom_executable _ _ _ _)
    · exact Int.le_refl 0
    · exact budget_le_capacity _ machine
  obtain ⟨final, ended⟩ := Option.isSome_iff_exists.mp ends
  have reduced := (compileProgram_withoutDead unit _ options.config (instructions program) short _ machine).trans ended
  obtain ⟨after, stands, reached⟩ := laid.run fits installed suitable framed masks _ (Nat.zero_le _) related reduced
  rw [laid.codePos]
  exact ⟨final, after, ended, stands, reached⟩

end Programs

section Example

def doubleOfInt32 (x : BitVec 32) : BitVec 64 :=
  let magnitude := x.toInt.natAbs
  if magnitude = 0 then 0
  else
    (if x.toInt < 0 then 1#64 <<< 63 else 0#64) ||| (BitVec.ofNat 64 (1023 + magnitude.log2) <<< 52) |||
      (BitVec.ofNat 64 (magnitude % 2 ^ magnitude.log2) <<< (52 - magnitude.log2))

theorem doubleOfInt32_zeros (x : BitVec 32) : doubleOfInt32 x &&& 0x3FFFFF = 0 := by
  have low : ∀ position < 64, (0x3FFFFF : BitVec 64).getLsbD position = true → position < 22 := by decide
  unfold doubleOfInt32
  dsimp only
  by_cases zero : x.toInt.natAbs = 0
  · rw [if_pos zero]
    exact BitVec.zero_and
  · rw [if_neg zero]
    have bound : x.toInt.natAbs ≤ 2 ^ 31 := by
      have := BitVec.toInt_lt (x := x)
      have := BitVec.le_toInt (x := x)
      omega
    generalize x.toInt.natAbs = magnitude at *
    have least : 2 ^ magnitude.log2 ≤ magnitude := Nat.log2_self_le zero
    have exponent : magnitude.log2 ≤ 31 := (Nat.pow_le_pow_iff_right (by decide : 1 < 2)).mp (Nat.le_trans least bound)
    -- the largest exponent leaves no fraction
    have fraction : magnitude.log2 = 31 → magnitude % 2 ^ magnitude.log2 = 0 := by
      intro same
      rw [same] at least ⊢
      omega
    apply BitVec.eq_of_getLsbD_eq
    intro position inside
    have small := low position inside
    have sign : position < 22 → (if x.toInt < 0 then 1#64 <<< 63 else 0#64).getLsbD position = false := by
      intro below
      split
      · rw [BitVec.getLsbD_shiftLeft, decide_eq_true (show position < 63 by omega)]
        simp
      · exact BitVec.getLsbD_zero
    have rest : position < 22 →
        (BitVec.ofNat 64 (magnitude % 2 ^ magnitude.log2) <<< (52 - magnitude.log2)).getLsbD position = false := by
      intro below
      by_cases last : magnitude.log2 = 31
      · rw [fraction last, show BitVec.ofNat 64 0 = 0#64 from rfl, BitVec.zero_shiftLeft, BitVec.getLsbD_zero]
      · rw [BitVec.getLsbD_shiftLeft, decide_eq_true (show position < 52 - magnitude.log2 by omega)]
        simp
    by_cases selected : (0x3FFFFF : BitVec 64).getLsbD position = true
    · have below := small selected
      rw [BitVec.getLsbD_and, BitVec.getLsbD_or, BitVec.getLsbD_or, sign below, rest below, BitVec.getLsbD_shiftLeft,
        decide_eq_true (show position < 52 by omega)]
      simp
    · rw [BitVec.getLsbD_and, Bool.eq_false_iff.mpr selected, Bool.and_false]
      exact BitVec.getLsbD_zero.symm

/-- A stack with the table of control words and no remembered index. -/
def exampleFrame : Cpu where
  gpr := fun index => if index = 4 then 0x8000000000000000 else 0
  xmm := fun index =>
    if index = 13 then ⟨0x00FFFFFFFFC00000, 0x00FFFFFFFFC00000⟩
    else if index = 14 then ⟨getFloatMask 0, getFloatMask 0⟩
    else if index = 15 then ⟨0x80F0000000000000, 0x80F0000000000000⟩
    else ⟨0, 0⟩
  zf := none
  mxcsr := 0x9FC0
  memory := fun address =>
    ([0xC0, 0x9F, 0, 0, 0xC0, 0xBF, 0, 0, 0xC0, 0xDF, 0, 0, 0xC0, 0xFF, 0, 0, 0, 0, 0, 0, 0, 0, 0, 0,
      0, 0, 0, 0, 0, 0, 0, 0, 0xFF, 0xFF, 0xFF, 0xFF] : List (BitVec 8)).getD (address - 0x8000000000000000).toNat 0

def exampleMachine : Machine where
  r := fun _ => 0
  f := fun _ => ⟨0, 0⟩
  e := fun _ => ⟨0, 0⟩
  a := fun _ => ⟨0, 0⟩
  scratchpad := fun _ => 0
  rounding := 0

def exampleUnit : FloatUnit :=
  ⟨fun _ x _ => x, fun _ x _ => x, fun _ x _ => x, fun _ x _ => x, fun _ x => x, doubleOfInt32⟩

/-- A program of one CFROUND, behind ten other bytes. -/
theorem compile_simulates_cfround :
    let options : JitOptions := ⟨10, true, false, .base⟩
    let program := [(⟨239, 0, 1, 0, 5⟩ : Instruction).masked]
    program.length ≤ 2 ^ 15 ∧ ∃ final after,
      executeBytecode exampleUnit ⟨getFloatMask 0, getFloatMask 0⟩ (compileProgram options.config (instructions program))
        (capacity (compileProgram options.config (instructions program))) ⟨0, exampleMachine⟩ = some final ∧
      Related options exampleFrame final after ∧
      Reaches exampleUnit.packed (List.replicate 10 0x90 ++ (JitCompilerX86.compile options true true program).code ++ [])
        ⟨10, exampleFrame⟩ ⟨(JitCompilerX86.compile options true true program).codePos options, after⟩ := by
  intro options program
  have size : options.config.size = 2097152 := rfl
  have suitable : Suitable options.config exampleUnit := suitable_of_listed (List.mem_cons_self ..) doubleOfInt32_zeros
  have framed : Framed options ( Program.initialize ⟨fun _ => 0, []⟩).config.eMask
      (JitCompilerX86.compile options true true program).imulRcpStorage exampleFrame := by
    constructor
    · rfl
    · rfl
    · rfl
    · decide
    · intro used _ value stored
      have none : (JitCompilerX86.compile options true true program).imulRcpStorage = [] := by decide
      rw [none] at stored
      cases stored
    · intro k small offset less same
      rw [size] at small
      have numbers := congrArg BitVec.toNat same
      rw [show exampleFrame.gpr 4 - 128 = 0x7FFFFFFFFFFFFF80#64 from by decide, show exampleFrame.gpr 6 = 0#64 from rfl,
        BitVec.zero_add] at numbers
      simp only [BitVec.toNat_add, BitVec.toNat_ofNat] at numbers
      omega
  have related : Related options exampleFrame exampleMachine exampleFrame := by
    constructor
    · decide
    · intro register
      have low : ∀ index : Fin 16, index.val < 12 → exampleFrame.xmm index = ⟨0, 0⟩ := by decide
      rw [low _ (nativeFloat_lt register)]
      cases register <;> rfl
    · exact fun _ _ _ => rfl
    · exact fun _ _ => rfl
    · decide
    · intro k small
      rw [size] at small
      have far : (0#64 + BitVec.ofNat 64 k - 0x8000000000000000#64).toNat = 2 ^ 63 + k := by
        simp only [BitVec.toNat_sub, BitVec.toNat_add, BitVec.toNat_ofNat]
        omega
      change List.getD _ (0#64 + BitVec.ofNat 64 k - 0x8000000000000000#64).toNat 0 = 0
      rw [far]
      rw [List.getD_eq_getElem?_getD, List.getElem?_eq_none (by change 36 ≤ _; omega)]
      rfl
    · exact fun _ _ _ => rfl
    · exact fun _ => .inl (by decide)
  exact ⟨by decide, compile_simulates options true true program (by decide) suitable ⟨fun _ => 0, []⟩
    ⟨List.replicate 10 0x90, [], rfl, rfl⟩ framed related⟩

end Example

end Xmrig.RandomX
