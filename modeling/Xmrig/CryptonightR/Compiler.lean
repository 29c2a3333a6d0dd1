import Xmrig.CryptonightR.RandomMath
import Xmrig.Foundation.X86

/-! The compiler of random math.

`add_random_math` copies, for each instruction, a piece of assembled code out
of a table of 256, and before a rotation a move of the source to `rcx`, unless
`rcx` still holds it. The constant of an ADD is written over the placeholder
in the table; for Bulldozer the prefix of a multiplication is rewritten so
that it has 32-bit operands. The emitted bytes are decoded again and run.
-/

set_option autoImplicit false

namespace Xmrig.CryptonightR

open Foundation

inductive Assembly where
  | none | auto | intel | ryzen | bulldozer
  deriving DecidableEq, Repr

section Tables

/-- Eight pieces of code for one destination and one source. -/
def instructionBlock (dst src other : Reg64) : List (List X86) :=
  [[.imul true dst src], [.imul true dst src], [.imul true dst src],
    [.alu .add dst other, .addImm dst 2147483647], [.alu .sub dst other],
    [.rotate false dst], [.rotate true dst], [.alu .xor dst other]]

/-- The assembly file: `R9` is the operand where source and destination would be the same. -/
def instructions : List (List X86) :=
  instructionBlock .rbx .rbx .r9 ++ instructionBlock .rsi .rbx .rbx ++
  instructionBlock .rdi .rbx .rbx ++ instructionBlock .rbp .rbx .rbx ++
  instructionBlock .rbx .rsi .rsi ++ instructionBlock .rsi .rsi .r9 ++
  instructionBlock .rdi .rsi .rsi ++ instructionBlock .rbp .rsi .rsi ++
  instructionBlock .rbx .rdi .rdi ++ instructionBlock .rsi .rdi .rdi ++
  instructionBlock .rdi .rdi .r9 ++ instructionBlock .rbp .rdi .rdi ++
  instructionBlock .rbx .rbp .rbp ++ instructionBlock .rsi .rbp .rbp ++
  instructionBlock .rdi .rbp .rbp ++ instructionBlock .rbp .rbp .r9 ++
  instructionBlock .rbx .rsp .rsp ++ instructionBlock .rsi .rsp .rsp ++
  instructionBlock .rdi .rsp .rsp ++ instructionBlock .rbp .rsp .rsp ++
  instructionBlock .rbx .r15 .r15 ++ instructionBlock .rsi .r15 .r15 ++
  instructionBlock .rdi .r15 .r15 ++ instructionBlock .rbp .r15 .r15 ++
  instructionBlock .rbx .rax .rax ++ instructionBlock .rsi .rax .rax ++
  instructionBlock .rdi .rax .rax ++ instructionBlock .rbp .rax .rax ++
  instructionBlock .rbx .rdx .rdx ++ instructionBlock .rsi .rdx .rdx ++
  instructionBlock .rdi .rdx .rdx ++ instructionBlock .rbp .rdx .rdx

/-- The moves before rotations, for the four destinations of one source. -/
def movBlock (src : Reg64) : List (List X86) :=
  let move := [.mov .rcx src]
  let block := [[], [], [], [], [], move, move, []]
  block ++ block ++ block ++ block

def instructionsMov : List (List X86) :=
  movBlock .rbx ++ movBlock .rsi ++ movBlock .rdi ++ movBlock .rbp ++
  movBlock .rsp ++ movBlock .r15 ++ movBlock .rax ++ movBlock .rdx

end Tables

section Compile

def assemble (code : List X86) : List (BitVec 8) := code.flatMap X86.encode

theorem assemble_append (first second : List X86) :
    assemble (first ++ second) = assemble first ++ assemble second := List.flatMap_append

/-- The index into the tables: three bits of opcode, two of destination, three of source. -/
def tableIndex (inst : V4Instruction) : BitVec 8 :=
  let opcode := if inst.opcode = .mul then inst.opcode.value else inst.opcode.value + 2
  let src := if inst.srcIndex = r8 then inst.dstIndex.val else inst.srcIndex.val
  BitVec.ofNat 8 opcode ||| BitVec.ofNat 8 inst.dstIndex.val <<< 3 ||| BitVec.ofNat 8 src <<< 5

/-- The 32-bit form of a multiplication: prefix `0x48` is skipped and `0x49` becomes `0x41`. -/
def narrowImul : List (BitVec 8) → List (BitVec 8)
  | first :: rest => (if first = 0x49 then [0x41] else []) ++ rest
  | [] => []

/-- The word that ends `after` bytes before the end of the code. -/
def patchWord (after : Nat) (word : BitVec 32) (code : List (BitVec 8)) : List (BitVec 8) :=
  code.take (code.length - after - 4) ++ littleEndian32 word ++ code.drop (code.length - after)

variable (is64Bit : Bool) (asm : Assembly)

/-- One pass of `add_random_math`: the bytes it emits and the source that `rcx` holds then. -/
def addInstruction (prevRotSrc : Option (Fin 9)) (inst : V4Instruction) :
    List (BitVec 8) × Option (Fin 9) :=
  let c := (tableIndex inst).toNat
  let moved := inst.opcode.isRotation ∧ some inst.srcIndex ≠ prevRotSrc
  let mov := if moved then assemble (instructionsMov.getD c []) else []
  let held := if moved then some inst.srcIndex else prevRotSrc
  let held := if some inst.dst = held then none else held
  let code := assemble (instructions.getD c [])
  let code := if asm = .bulldozer ∧ inst.opcode = .mul ∧ is64Bit = false then narrowImul code
    else code
  if inst.opcode = .add then
    (mov ++ patchWord (if is64Bit then 3 else 0) inst.constant code,
      if is64Bit then none else held)
  else (mov ++ code, held)

def addInstructions (prevRotSrc : Option (Fin 9)) : List V4Instruction → List (BitVec 8)
  | [] => []
  | inst :: rest =>
      let emitted := addInstruction is64Bit asm prevRotSrc inst
      emitted.1 ++ addInstructions emitted.2 rest

/-- `add_random_math`: everything up to the RET. -/
def addRandomMath (code : List V4Instruction) : List (BitVec 8) :=
  addInstructions is64Bit asm none (code.takeWhile (·.opcode ≠ .ret))

end Compile

section Selected

def v4Register (index : Fin 9) : Reg64 :=
  [Reg64.rbx, .rsi, .rdi, .rbp, .rsp, .r15, .rax, .rdx, .r9].get index

/-- The instructions of a piece of code, with the constant in place. -/
def operation (asm : Assembly) (inst : V4Instruction) : List X86 :=
  let dst := v4Register inst.dst
  let src := v4Register inst.srcIndex
  match inst.opcode with
  | .mul => [.imul (asm ≠ .bulldozer) dst src]
  | .add => [.alu .add dst src, .addImm dst inst.constant]
  | .sub => [.alu .sub dst src]
  | .ror => [.rotate false dst]
  | .rol => [.rotate true dst]
  | .xor => [.alu .xor dst src]
  | .ret => []

/-- The move before a rotation, and what `rcx` holds after the instruction. -/
def countMove (prevRotSrc : Option (Fin 9)) (inst : V4Instruction) : List X86 :=
  if inst.opcode.isRotation ∧ some inst.srcIndex ≠ prevRotSrc then
    [.mov .rcx (v4Register inst.srcIndex)]
  else []

def heldAfter (prevRotSrc : Option (Fin 9)) (inst : V4Instruction) : Option (Fin 9) :=
  let held := if inst.opcode.isRotation then some inst.srcIndex else prevRotSrc
  if some inst.dst = held then none else held

def selected (asm : Assembly) (prevRotSrc : Option (Fin 9)) : List V4Instruction → List X86
  | [] => []
  | inst :: rest =>
      countMove prevRotSrc inst ++ operation asm inst ++
        selected asm (heldAfter prevRotSrc inst) rest

def identify (c : BitVec 8) : V4Opcode × Fin 4 × Fin 9 :=
  let dst : Fin 4 := ⟨c.toNat / 8 % 4, dstField_lt c⟩
  let src : Fin 9 := ⟨c.toNat / 32 % 8, srcField_lt c⟩
  let other := if src = variableRegister dst then r8 else src
  match c.toNat % 8 with
  | 3 => (.add, dst, other)
  | 4 => (.sub, dst, other)
  | 5 => (.ror, dst, src)
  | 6 => (.rol, dst, src)
  | 7 => (.xor, dst, other)
  | _ => (.mul, dst, src)

def V4Opcode.running : List V4Opcode := [.mul, .add, .sub, .ror, .rol, .xor]

def admissible (opcode : V4Opcode) (dst : Fin 4) (src : Fin 9) : Bool :=
  (!opcode.needsOther || src != variableRegister dst) && (src != r8 || opcode.needsOther)

theorem V4Opcode.mem_running {opcode : V4Opcode} (runs : opcode ≠ .ret) : opcode ∈ running := by
  cases opcode <;> first | decide | exact absurd rfl runs

theorem Admissible.check {inst : V4Instruction} (allowed : Admissible inst) :
    admissible inst.opcode inst.dstIndex inst.srcIndex = true := by
  have other := allowed.other
  have only := allowed.r8_only
  simp only [admissible, Bool.and_eq_true, Bool.or_eq_true, bne_iff_ne, Bool.not_eq_true']
  constructor
  · cases needs : inst.opcode.needsOther with
    | true => exact .inr (other needs)
    | false => exact .inl rfl
  · by_cases last : inst.srcIndex = r8
    · exact .inr (only last)
    · exact .inl last

theorem table_entries : ∀ opcode ∈ V4Opcode.running, ∀ (dst : Fin 4) (src : Fin 9),
    admissible opcode dst src = true →
      instructions.getD (tableIndex ⟨opcode, dst, src, 0⟩).toNat [] =
        operation .none ⟨opcode, dst, src, 2147483647⟩ ∧
      (opcode.isRotation = true → instructionsMov.getD (tableIndex ⟨opcode, dst, src, 0⟩).toNat [] =
        [.mov .rcx (v4Register src)]) ∧
      identify (tableIndex ⟨opcode, dst, src, 0⟩) = (opcode, dst, src) := by
  intro opcode
  cases opcode <;> decide +kernel

theorem narrowImul_encode : ∀ (dst : Fin 4) (src : Fin 9),
    narrowImul (X86.imul true (v4Register (variableRegister dst)) (v4Register src)).encode =
      (X86.imul false (v4Register (variableRegister dst)) (v4Register src)).encode := by
  decide

theorem patchWord_littleEndian32 (code : List (BitVec 8)) (old new : BitVec 32) :
    patchWord 0 new (code ++ littleEndian32 old) = code ++ littleEndian32 new := by
  simp [patchWord, littleEndian32]

theorem code_eq (asm : Assembly) {inst : V4Instruction} (allowed : Admissible inst) :
    let code := assemble (instructions.getD (tableIndex inst).toNat [])
    let code := if asm = .bulldozer ∧ inst.opcode = .mul then narrowImul code else code
    (if inst.opcode = .add then patchWord 0 inst.constant code else code) =
      assemble (operation asm inst) := by
  obtain ⟨opcode, dst, src, constant⟩ := inst
  have entry := (table_entries opcode (V4Opcode.mem_running allowed.running) dst src
    allowed.check).1
  change instructions.getD (tableIndex ⟨opcode, dst, src, constant⟩).toNat [] = _ at entry
  rw [entry]
  cases opcode with
  | mul =>
    by_cases bulldozer : asm = .bulldozer
    · simp only [bulldozer, operation, assemble, List.flatMap_singleton]
      exact narrowImul_encode dst src
    · simp only [bulldozer, false_and, if_false, reduceCtorEq, operation, ne_eq,
        not_false_eq_true, decide_true]
      rfl
  | add =>
    simp only [operation, assemble, List.flatMap_cons, List.flatMap_nil, List.append_nil,
      X86.encode, ← List.append_assoc, reduceCtorEq, and_false, if_false, if_true]
    exact patchWord_littleEndian32 _ _ _
  | sub | ror | rol | xor =>
    simp only [reduceCtorEq, and_false, if_false]
    rfl
  | ret => exact absurd rfl allowed.running

theorem addInstruction_eq (asm : Assembly) (prevRotSrc : Option (Fin 9)) {inst : V4Instruction}
    (allowed : Admissible inst) :
    addInstruction false asm prevRotSrc inst =
      (assemble (countMove prevRotSrc inst ++ operation asm inst), heldAfter prevRotSrc inst) := by
  have entry := (table_entries inst.opcode (V4Opcode.mem_running allowed.running) inst.dstIndex
    inst.srcIndex allowed.check).2.1
  have mov : (if inst.opcode.isRotation ∧ some inst.srcIndex ≠ prevRotSrc then
      assemble (instructionsMov.getD (tableIndex inst).toNat []) else []) =
      assemble (countMove prevRotSrc inst) := by
    unfold countMove
    split
    · rename_i moved
      exact congrArg assemble (entry moved.1)
    · rfl
  have held : (if inst.opcode.isRotation ∧ some inst.srcIndex ≠ prevRotSrc then
      some inst.srcIndex else prevRotSrc) =
      if inst.opcode.isRotation then some inst.srcIndex else prevRotSrc := by
    grind
  have code := code_eq asm allowed
  unfold addInstruction heldAfter
  simp only [mov, held, assemble_append, ← code, and_true, Bool.false_eq_true, if_false]
  split <;> rfl

theorem addInstructions_eq (asm : Assembly) {code : List V4Instruction}
    (allowed : ∀ inst ∈ code, Admissible inst) (prevRotSrc : Option (Fin 9)) :
    addInstructions false asm prevRotSrc code = assemble (selected asm prevRotSrc code) := by
  induction code generalizing prevRotSrc with
  | nil => rfl
  | cons inst rest ih =>
    have first := addInstruction_eq asm prevRotSrc (allowed inst List.mem_cons_self)
    have later := ih fun other member => allowed other (List.mem_cons_of_mem _ member)
    simp only [addInstructions, selected, first, later, assemble_append]

end Selected

section Simulation

theorem v4Register_injective : ∀ first second : Fin 9,
    v4Register first = v4Register second → first = second := by
  decide

theorem v4Register_ne_rcx : ∀ index : Fin 9, v4Register index ≠ .rcx := by
  decide

/-- The machine's registers hold the interpreter's in their lower halves, and `cl` the low byte
of the register remembered. -/
structure Related (registers : Registers) (r : Fin 9 → BitVec 32) (held : Option (Fin 9)) :
    Prop where
  low : ∀ index, (registers (v4Register index)).setWidth 32 = r index
  count : ∀ src, held = some src → (registers .rcx).setWidth 8 = (r src).setWidth 8

def v4Count (r : Fin 9 → BitVec 32) (inst : V4Instruction) : List (BitVec 8) :=
  if inst.opcode.isRotation then [(r inst.srcIndex).setWidth 8] else []

def v4Counts : List V4Instruction → (Fin 9 → BitVec 32) → List (BitVec 8)
  | [], _ => []
  | inst :: rest, r => v4Count r inst ++ v4Counts rest (v4Exec r inst)

variable {registers : Registers} {r : Fin 9 → BitVec 32} {held : Option (Fin 9)}

/-- A write to a register that stands for `index`. -/
theorem low_update (low : ∀ index, (registers (v4Register index)).setWidth 32 = r index)
    (dst : Fin 9) {value : BitVec 64} {result : BitVec 32} (same : value.setWidth 32 = result)
    (index : Fin 9) :
    (Function.update registers (v4Register dst) value (v4Register index)).setWidth 32 =
      Function.update r dst result index := by
  by_cases written : index = dst
  · subst written
    rw [Function.update_self, Function.update_self, same]
  · rw [Function.update_of_ne written, Function.update_of_ne, low]
    intro equal
    exact written (v4Register_injective index dst equal)

theorem countMove_related (related : Related registers r held) (inst : V4Instruction) :
    (∀ index, (execX86 (countMove held inst) registers (v4Register index)).setWidth 32 =
      r index) ∧
    (inst.opcode.isRotation = true →
      (execX86 (countMove held inst) registers .rcx).setWidth 8 =
        (r inst.srcIndex).setWidth 8) ∧
    (inst.opcode.isRotation = false → execX86 (countMove held inst) registers = registers) := by
  unfold countMove
  split
  · rename_i moved
    refine ⟨fun index => ?_, fun _ => ?_, fun none => ?_⟩
    · rw [execX86, execX86, X86.exec, Function.update_of_ne (v4Register_ne_rcx index), related.low]
    · rw [execX86, execX86, X86.exec, Function.update_self, ← related.low,
        BitVec.setWidth_setWidth_of_le _ (by decide)]
    · rw [none] at moved
      cases moved.1
  · rename_i kept
    refine ⟨related.low, fun rotation => ?_, fun _ => rfl⟩
    apply related.count
    by_contra other
    exact kept ⟨rotation, fun same => other same.symm⟩

/-- The count that `cl` gives, from the register whose low byte it holds. -/
theorem rotationCount_eq {src : BitVec 32}
    (count : (registers .rcx).setWidth 8 = src.setWidth 8) :
    rotationCount registers = src.toNat % 32 := by
  have bytes := congrArg BitVec.toNat count
  rw [BitVec.toNat_setWidth, BitVec.toNat_setWidth] at bytes
  unfold rotationCount
  omega

theorem shifts_eq_rotateRight (x : BitVec 32) {shift : Nat} (small : shift < 32) :
    (x >>> shift) ||| (x <<< ((32 - shift) % 32)) = x.rotateRight shift := by
  rw [BitVec.rotateRight_def, Nat.mod_eq_of_lt small]
  by_cases zero : shift = 0
  · subst zero
    simp
  · rw [Nat.mod_eq_of_lt (by omega : 32 - shift < 32)]

theorem shifts_eq_rotateLeft (x : BitVec 32) {shift : Nat} (small : shift < 32) :
    (x <<< shift) ||| (x >>> ((32 - shift) % 32)) = x.rotateLeft shift := by
  rw [BitVec.rotateLeft_def, Nat.mod_eq_of_lt small]
  by_cases zero : shift = 0
  · subst zero
    simp [BitVec.ushiftRight_eq_zero]
  · rw [Nat.mod_eq_of_lt (by omega : 32 - shift < 32)]

theorem setWidth_sub (x y : BitVec 64) :
    (x - y).setWidth 32 = x.setWidth 32 - y.setWidth 32 := by
  bv_omega

theorem setWidth_signExtend (imm : BitVec 32) : (imm.signExtend 64).setWidth 32 = imm := by
  apply BitVec.eq_of_getLsbD_eq
  intro index bound
  simp [BitVec.getLsbD_signExtend, bound]
  omega

/-- The operation is one write to its destination, of a value whose lower half is what the
interpreter computes. -/
theorem operation_writes (asm : Assembly) {inst : V4Instruction} (runs : inst.opcode ≠ .ret)
    (low : ∀ index, (registers (v4Register index)).setWidth 32 = r index)
    (count : inst.opcode.isRotation = true →
      (registers .rcx).setWidth 8 = (r inst.srcIndex).setWidth 8) :
    ∃ value, execX86 (operation asm inst) registers =
        Function.update registers (v4Register inst.dst) value ∧
      value.setWidth 32 = v4Result inst (r inst.dst) (r inst.srcIndex) := by
  have small : (r inst.srcIndex).toNat % 32 < 32 := Nat.mod_lt _ (by decide)
  simp only [← low] at small ⊢
  obtain ⟨opcode, dst, src, constant⟩ := inst
  cases opcode with
  | mul =>
    by_cases bulldozer : asm = .bulldozer
    · subst bulldozer
      exact ⟨_, rfl, BitVec.setWidth_setWidth_of_le _ (by decide)⟩
    · refine ⟨_, ?_, BitVec.setWidth_mul _ _ (by decide)⟩
      simp [operation, bulldozer, execX86, X86.exec]
  | add =>
    refine ⟨_, (Function.update_idem _ _ _), ?_⟩
    rw [X86.exec, Function.update_self, BitVec.setWidth_add _ _ (by decide),
      BitVec.setWidth_add _ _ (by decide), setWidth_signExtend, BitVec.add_assoc]
    rfl
  | sub => exact ⟨_, rfl, setWidth_sub _ _⟩
  | ror =>
    refine ⟨_, rfl, ?_⟩
    rw [BitVec.setWidth_setWidth_of_le _ (by decide), rotationCount_eq (count rfl), ← low]
    exact (shifts_eq_rotateRight _ small).symm
  | rol =>
    refine ⟨_, rfl, ?_⟩
    rw [BitVec.setWidth_setWidth_of_le _ (by decide), rotationCount_eq (count rfl), ← low]
    exact (shifts_eq_rotateLeft _ small).symm
  | xor => exact ⟨_, rfl, BitVec.setWidth_xor⟩
  | ret => exact absurd rfl runs

theorem rotationCounts_operation (asm : Assembly) (inst : V4Instruction) (registers : Registers) :
    rotationCounts (operation asm inst) registers =
      if inst.opcode.isRotation then [(registers .rcx).setWidth 8] else [] := by
  unfold operation
  cases inst.opcode <;> rfl

theorem rotationCounts_countMove (held : Option (Fin 9)) (inst : V4Instruction)
    (registers : Registers) : rotationCounts (countMove held inst) registers = [] := by
  unfold countMove
  split <;> rfl

theorem held_of_heldAfter {inst : V4Instruction} {src : Fin 9}
    (remembered : heldAfter held inst = some src) :
    (if inst.opcode.isRotation then some inst.srcIndex else held) = some src ∧
      src ≠ inst.dst := by
  unfold heldAfter at remembered
  generalize (if inst.opcode.isRotation then some inst.srcIndex else held) = last at remembered ⊢
  dsimp only at remembered
  split at remembered
  · cases remembered
  · rename_i kept
    rw [remembered] at kept
    exact ⟨remembered, fun same => kept (congrArg some same.symm)⟩

/-- One instruction: the lower halves stay related, and what is remembered about `rcx` with
them. -/
theorem instruction_related (asm : Assembly) {inst : V4Instruction} (runs : inst.opcode ≠ .ret)
    (related : Related registers r held) :
    Related (execX86 (countMove held inst ++ operation asm inst) registers) (v4Exec r inst)
      (heldAfter held inst) ∧
    rotationCounts (countMove held inst ++ operation asm inst) registers = v4Count r inst := by
  obtain ⟨low, count, still⟩ := countMove_related related inst
  obtain ⟨value, ran, result⟩ := operation_writes asm runs low count
  rw [execX86_append, rotationCounts_append, rotationCounts_operation]
  refine ⟨⟨?_, ?_⟩, ?_⟩
  · rw [ran]
    exact low_update low inst.dst result
  · intro src remembered
    rw [ran, Function.update_of_ne (v4Register_ne_rcx _).symm]
    obtain ⟨other, unwritten⟩ := held_of_heldAfter remembered
    rw [v4Exec, Function.update_of_ne unwritten]
    cases rotation : inst.opcode.isRotation with
    | true =>
      rw [rotation, if_pos rfl] at other
      rw [count rotation, Option.some.inj other]
    | false =>
      rw [rotation, if_neg Bool.false_ne_true] at other
      rw [still rotation]
      exact related.count src other
  · unfold v4Count
    split
    · rename_i rotation
      rw [count rotation, rotationCounts_countMove, List.nil_append]
    · rw [rotationCounts_countMove, List.append_nil]

theorem selected_related (asm : Assembly) {code : List V4Instruction}
    (allowed : ∀ inst ∈ code, Admissible inst) (related : Related registers r held) :
    (∀ index, (execX86 (selected asm held code) registers (v4Register index)).setWidth 32 =
      code.foldl v4Exec r index) ∧
    rotationCounts (selected asm held code) registers = v4Counts code r := by
  induction code generalizing registers r held with
  | nil => exact ⟨related.low, rfl⟩
  | cons inst rest ih =>
    obtain ⟨after, counts⟩ :=
      instruction_related asm (allowed inst List.mem_cons_self).running related
    have others : ∀ other ∈ rest, Admissible other := fun other member =>
      allowed other (List.mem_cons_of_mem _ member)
    obtain ⟨low, later⟩ := ih others after
    rw [selected, execX86_append, rotationCounts_append, counts, later]
    exact ⟨low, rfl⟩

theorem v4Steps_eq {body : List V4Instruction} (allowed : ∀ inst ∈ body, Admissible inst)
    {budget : Nat} (enough : body.length ≤ budget) (r : Fin 9 → BitVec 32) :
    v4Steps budget (body ++ [V4Instruction.ret]) r = body.foldl v4Exec r := by
  induction body generalizing budget r with
  | nil => cases budget <;> rfl
  | cons inst rest ih =>
    have others : ∀ other ∈ rest, Admissible other := fun other member =>
      allowed other (List.mem_cons_of_mem _ member)
    cases budget with
    | zero => cases enough
    | succ budget =>
      rw [List.cons_append, v4Steps, if_neg (allowed inst List.mem_cons_self).running]
      exact ih others (Nat.le_of_succ_le_succ enough) _

theorem takeWhile_body {body : List V4Instruction} (allowed : ∀ inst ∈ body, Admissible inst) :
    (body ++ [V4Instruction.ret]).takeWhile (fun inst => decide (inst.opcode ≠ .ret)) = body := by
  rw [List.takeWhile_append_of_pos]
  · exact List.append_nil body
  · intro inst member
    exact decide_eq_true (allowed inst member).running

end Simulation

section Compiled
variable {hashExtraBlake : List (BitVec 8) → List (BitVec 8)}

/-- Every program of the generator, compiled for any processor and run from any registers. The
variable registers end with the interpreter's results in their lower halves, `cl` is the low
byte of the source at every rotation, and a table index stands for one instruction. -/
theorem addRandomMath_executes (cnR : Bool) (height : BitVec 64) (fuel : Nat)
    {code : List V4Instruction}
    (produced : v4RandomMathInit hashExtraBlake cnR height fuel = some code) (asm : Assembly)
    (registers : Registers) :
    let r : Fin 9 → BitVec 32 := fun index => (registers (v4Register index)).setWidth 32
    let bytes := addRandomMath false asm code
    ∃ instrs, decodeCode bytes.length bytes = some instrs ∧
      (∀ index : Fin 4,
        (execX86 instrs registers (v4Register (variableRegister index))).setWidth 32 =
          v4RandomMath code r (variableRegister index)) ∧
      rotationCounts instrs registers =
        v4Counts (code.takeWhile fun inst => decide (inst.opcode ≠ .ret)) r ∧
      ∀ inst ∈ code, inst.opcode ≠ .ret →
        identify (tableIndex inst) = (inst.opcode, inst.dstIndex, inst.srcIndex) := by
  intro r bytes
  obtain ⟨body, generated⟩ := attempts_generated hashExtraBlake produced
  have allowed := generated.admissible
  have only := takeWhile_body allowed
  rw [← generated.eq] at only
  have emitted : bytes = assemble (selected asm none body) := by
    rw [← addInstructions_eq asm allowed none]
    exact congrArg (addInstructions false asm none) only
  have start : Related registers r none := ⟨fun _ => rfl, fun _ impossible => by cases impossible⟩
  obtain ⟨low, counts⟩ := selected_related asm allowed start
  refine ⟨selected asm none body, ?_, fun index => ?_, ?_, fun inst member runs => ?_⟩
  · rw [emitted]
    exact decodeCode_encode _ (length_le_flatMap_encode _)
  · rw [low, v4RandomMath, generated.eq, v4Steps_eq allowed generated.most]
  · rw [counts, only]
  · rw [generated.eq] at member
    rcases List.mem_append.mp member with inside | last
    · exact (table_entries inst.opcode (V4Opcode.mem_running runs) inst.dstIndex inst.srcIndex
        (allowed inst inside).check).2.2
    · rw [List.mem_singleton.mp last] at runs
      exact absurd rfl runs

def hashBytes (digest : Nat) : List (BitVec 8) :=
  (List.range 32).reverse.map fun index => BitVec.ofNat 8 (digest >>> (8 * index))

/-- BLAKE-256 on the data that follow from one height: each is the hash of the one before. -/
def blakeAt1806260 (data : List (BitVec 8)) : List (BitVec 8) :=
  let hashes := seed true 1806260 ::
    [0xe59d39f3ddfcced3049b043b02d60eae0ee03091f02cc3a0e95e5a130bab9e5e,
      0x467b4eba081600dc1de196b91795967f8173a0cf3e85666c41f6e285626b5973,
      0x5ffecf1689bcfb53209f1a6e48a46b2b70a0bd437e81bd2a6c102559e377ebda,
      0x6b6d97fb6c45aae3c857ac6a6653cb5370a2878e7c476cc41abe5c4955a3db41,
      0xd75a08f5d784b824f4e38f84a748f95066565e63f3db023c2c6f66aa84398e25].map hashBytes
  (hashes.dropWhile (· ≠ data)).tail.headD []

theorem addRandomMath_executes_1806260 :
    ∃ code, v4RandomMathInit blakeAt1806260 true 1806260 1 = some code ∧
      let bytes := addRandomMath false .bulldozer code
      ∃ instrs, decodeCode bytes.length bytes = some instrs ∧
        ∀ index : Fin 4, (execX86 instrs (fun _ => 0xFFFFFFFF00000003)
          (v4Register (variableRegister index))).setWidth 32 =
            v4RandomMath code (fun _ => 3) (variableRegister index) := by
  obtain ⟨code, produced⟩ : ∃ code, v4RandomMathInit blakeAt1806260 true 1806260 1 = some code :=
    Option.isSome_iff_exists.mp (by decide +kernel)
  obtain ⟨instrs, decoded, low, _⟩ :=
    addRandomMath_executes true 1806260 1 produced .bulldozer fun _ => 0xFFFFFFFF00000003
  exact ⟨code, produced, instrs, decoded, low⟩

end Compiled

end Xmrig.CryptonightR
