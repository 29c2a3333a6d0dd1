import Mathlib.Logic.Function.Basic

/-! A part of the x86-64 integer instructions: encoding, decoding and meaning.

Two-operand multiplication in its 64-bit and 32-bit forms, sums, differences,
exclusive or and moves between 64-bit registers, the sum with a sign-extended
constant, and 32-bit rotations by `cl`. Operands are registers only. An
instruction with 32-bit operands clears the upper half of its destination.
-/

set_option autoImplicit false

namespace Foundation

inductive Reg64 where
  | rax | rcx | rdx | rbx | rsp | rbp | rsi | rdi
  | r8 | r9 | r10 | r11 | r12 | r13 | r14 | r15
  deriving DecidableEq, Repr

abbrev Registers := Reg64 → BitVec 64

inductive AluOp where
  | add | sub | xor
  deriving DecidableEq, Repr

inductive X86 where
  | imul (wide : Bool) (dst src : Reg64)
  | alu (op : AluOp) (dst src : Reg64)
  | addImm (dst : Reg64) (imm : BitVec 32)
  | mov (dst src : Reg64)
  | rotate (left : Bool) (dst : Reg64)
  deriving DecidableEq, Repr

section Execute

/-- The count of a rotation: the low five bits of `cl`. -/
def rotationCount (registers : Registers) : Nat := (registers .rcx).toNat % 32

def X86.exec (registers : Registers) : X86 → Registers
  | .imul true dst src => Function.update registers dst (registers dst * registers src)
  | .imul false dst src =>
      Function.update registers dst
        (((registers dst).setWidth 32 * (registers src).setWidth 32).setWidth 64)
  | .alu .add dst src => Function.update registers dst (registers dst + registers src)
  | .alu .sub dst src => Function.update registers dst (registers dst - registers src)
  | .alu .xor dst src => Function.update registers dst (registers dst ^^^ registers src)
  | .addImm dst imm => Function.update registers dst (registers dst + imm.signExtend 64)
  | .mov dst src => Function.update registers dst (registers src)
  | .rotate true dst =>
      Function.update registers dst
        ((((registers dst).setWidth 32).rotateLeft (rotationCount registers)).setWidth 64)
  | .rotate false dst =>
      Function.update registers dst
        ((((registers dst).setWidth 32).rotateRight (rotationCount registers)).setWidth 64)

def execX86 : List X86 → Registers → Registers
  | [], registers => registers
  | instr :: rest, registers => execX86 rest (instr.exec registers)

theorem execX86_append (first second : List X86) (registers : Registers) :
    execX86 (first ++ second) registers = execX86 second (execX86 first registers) := by
  induction first generalizing registers with
  | nil => rfl
  | cons instr rest ih => exact ih _

/-- `cl` where the instruction is a rotation. -/
def X86.rotationCount? (registers : Registers) : X86 → List (BitVec 8)
  | .rotate _ _ => [(registers .rcx).setWidth 8]
  | _ => []

/-- `cl` at each rotation, in the order of execution. -/
def rotationCounts : List X86 → Registers → List (BitVec 8)
  | [], _ => []
  | instr :: rest, registers =>
      instr.rotationCount? registers ++ rotationCounts rest (instr.exec registers)

theorem rotationCounts_append (first second : List X86) (registers : Registers) :
    rotationCounts (first ++ second) registers =
      rotationCounts first registers ++ rotationCounts second (execX86 first registers) := by
  induction first generalizing registers with
  | nil => rfl
  | cons instr rest ih =>
    rw [List.cons_append, rotationCounts, rotationCounts, ih, List.append_assoc]
    rfl

end Execute

section Encode

def Reg64.index : Reg64 → Nat
  | .rax => 0 | .rcx => 1 | .rdx => 2 | .rbx => 3 | .rsp => 4 | .rbp => 5 | .rsi => 6 | .rdi => 7
  | .r8 => 8 | .r9 => 9 | .r10 => 10 | .r11 => 11 | .r12 => 12 | .r13 => 13 | .r14 => 14
  | .r15 => 15

def Reg64.ofIndex : Nat → Reg64
  | 0 => .rax | 1 => .rcx | 2 => .rdx | 3 => .rbx | 4 => .rsp | 5 => .rbp | 6 => .rsi | 7 => .rdi
  | 8 => .r8 | 9 => .r9 | 10 => .r10 | 11 => .r11 | 12 => .r12 | 13 => .r13 | 14 => .r14
  | _ => .r15

def littleEndian32 (word : BitVec 32) : List (BitVec 8) :=
  [word.extractLsb' 0 8, word.extractLsb' 8 8, word.extractLsb' 16 8, word.extractLsb' 24 8]

theorem append_littleEndian32 (word : BitVec 32) :
    word.extractLsb' 24 8 ++ word.extractLsb' 16 8 ++ word.extractLsb' 8 8 ++
      word.extractLsb' 0 8 = word := by
  repeat rw [BitVec.extractLsb'_append_extractLsb'_eq_extractLsb' (by rfl)]
  exact BitVec.extractLsb'_eq_self

/-- The prefix byte: the operand size and the upper bits of the register numbers. -/
def rexByte (wide : Bool) (reg rm : Reg64) : BitVec 8 :=
  BitVec.ofNat 8 (0x40 + (if wide then 8 else 0) + reg.index / 8 * 4 + rm.index / 8)

def modrmByte (reg rm : Reg64) : BitVec 8 :=
  BitVec.ofNat 8 (0xC0 + reg.index % 8 * 8 + rm.index % 8)

/-- Instructions on 32-bit operands have the prefix only for the upper eight registers. -/
def rexOptional (reg rm : Reg64) : List (BitVec 8) :=
  if reg.index / 8 = 0 ∧ rm.index / 8 = 0 then [] else [rexByte false reg rm]

def AluOp.opcode : AluOp → BitVec 8
  | .add => 0x01
  | .sub => 0x29
  | .xor => 0x31

def X86.encode : X86 → List (BitVec 8)
  | .imul true dst src => [rexByte true dst src, 0x0F, 0xAF, modrmByte dst src]
  | .imul false dst src => rexOptional dst src ++ [0x0F, 0xAF, modrmByte dst src]
  | .alu op dst src => [rexByte true src dst, op.opcode, modrmByte src dst]
  | .addImm dst imm => [rexByte true .rax dst, 0x81, modrmByte .rax dst] ++ littleEndian32 imm
  | .mov dst src => [rexByte true src dst, 0x89, modrmByte src dst]
  | .rotate true dst => rexOptional .rax dst ++ [0xD3, modrmByte .rax dst]
  | .rotate false dst => rexOptional .rcx dst ++ [0xD3, modrmByte .rcx dst]

def regField (rex modrm : BitVec 8) : Reg64 :=
  .ofIndex (modrm.toNat / 8 % 8 + rex.toNat / 4 % 2 * 8)

def wideField (rex : BitVec 8) : Bool := rex.toNat / 8 % 2 == 1

def rmField (rex modrm : BitVec 8) : Reg64 := .ofIndex (modrm.toNat % 8 + rex.toNat % 2 * 8)

def decodeBody (rex : BitVec 8) : List (BitVec 8) → Option (X86 × List (BitVec 8))
  | first :: second :: rest =>
      let wide := wideField rex
      if first = 0x0F ∧ second = 0xAF then
        match rest with
        | modrm :: rest =>
            if modrm.toNat / 64 = 3 then
              some (.imul wide (regField rex modrm) (rmField rex modrm), rest)
            else none
        | [] => none
      else if second.toNat / 64 ≠ 3 then none
      else if first = 0xD3 ∧ wide = false then
        if second.toNat / 8 % 8 = 0 then some (.rotate true (rmField rex second), rest)
        else if second.toNat / 8 % 8 = 1 then some (.rotate false (rmField rex second), rest)
        else none
      else if wide = false then none
      else if first = 0x01 then
        some (.alu .add (rmField rex second) (regField rex second), rest)
      else if first = 0x29 then
        some (.alu .sub (rmField rex second) (regField rex second), rest)
      else if first = 0x31 then
        some (.alu .xor (rmField rex second) (regField rex second), rest)
      else if first = 0x89 then some (.mov (rmField rex second) (regField rex second), rest)
      else if first = 0x81 ∧ second.toNat / 8 % 8 = 0 then
        match rest with
        | b0 :: b1 :: b2 :: b3 :: rest =>
            some (.addImm (rmField rex second) (b3 ++ b2 ++ b1 ++ b0), rest)
        | _ => none
      else none
  | _ => none

def decodeX86 : List (BitVec 8) → Option (X86 × List (BitVec 8))
  | first :: rest =>
      if first.toNat / 16 = 4 then decodeBody first rest else decodeBody 0x40 (first :: rest)
  | [] => none

def decodeCode : Nat → List (BitVec 8) → Option (List X86)
  | _, [] => some []
  | 0, _ :: _ => none
  | fuel + 1, code@(_ :: _) =>
      (decodeX86 code).bind fun next => (decodeCode fuel next.2).map (next.1 :: ·)

def Reg64.all : List Reg64 :=
  [.rax, .rcx, .rdx, .rbx, .rsp, .rbp, .rsi, .rdi, .r8, .r9, .r10, .r11, .r12, .r13, .r14, .r15]

theorem Reg64.mem_all (reg : Reg64) : reg ∈ Reg64.all := by
  cases reg <;> decide

theorem operand_fields (wide : Bool) (reg rm : Reg64) :
    ((rexByte wide reg rm).toNat / 16 = 4 ∧ wideField (rexByte wide reg rm) = wide) ∧
    (regField (rexByte wide reg rm) (modrmByte reg rm) = reg ∧
      rmField (rexByte wide reg rm) (modrmByte reg rm) = rm) ∧
    (modrmByte reg rm).toNat / 64 = 3 ∧ (modrmByte reg rm).toNat / 8 % 8 = reg.index % 8 := by
  have checked : ∀ wide : Bool, ∀ reg ∈ Reg64.all, ∀ rm ∈ Reg64.all,
      ((rexByte wide reg rm).toNat / 16 = 4 ∧ wideField (rexByte wide reg rm) = wide) ∧
      (regField (rexByte wide reg rm) (modrmByte reg rm) = reg ∧
        rmField (rexByte wide reg rm) (modrmByte reg rm) = rm) ∧
      (modrmByte reg rm).toNat / 64 = 3 ∧ (modrmByte reg rm).toNat / 8 % 8 = reg.index % 8 := by
    decide +kernel
  exact checked wide reg reg.mem_all rm rm.mem_all

theorem decodeX86_rexOptional (reg rm : Reg64) {first : BitVec 8} (code : List (BitVec 8))
    (plain : first.toNat / 16 ≠ 4) :
    decodeX86 (rexOptional reg rm ++ first :: code) =
      decodeBody (rexByte false reg rm) (first :: code) := by
  unfold rexOptional
  split
  · rename_i low
    have empty : rexByte false reg rm = 0x40 := by
      rw [rexByte, low.1, low.2]
      rfl
    rw [empty, List.nil_append, decodeX86, if_neg plain]
  · rw [List.singleton_append, decodeX86, if_pos (operand_fields false reg rm).1.1]

theorem decodeX86_encode (instr : X86) (rest : List (BitVec 8)) :
    decodeX86 (instr.encode ++ rest) = some (instr, rest) := by
  cases instr with
  | imul wide dst src =>
    obtain ⟨⟨isRex, size⟩, ⟨reg, rm⟩, mod, _⟩ := operand_fields wide dst src
    cases wide with
    | true => simp [X86.encode, decodeX86, decodeBody, isRex, size, reg, rm, mod]
    | false =>
      rw [X86.encode, List.append_assoc]
      refine (decodeX86_rexOptional dst src _ (by decide)).trans ?_
      simp [decodeBody, size, reg, rm, mod]
  | alu op dst src =>
    obtain ⟨⟨isRex, size⟩, ⟨reg, rm⟩, mod, _⟩ := operand_fields true src dst
    cases op <;> simp [X86.encode, decodeX86, decodeBody, AluOp.opcode, isRex, size, reg, rm, mod]
  | addImm dst imm =>
    obtain ⟨⟨isRex, size⟩, ⟨reg, rm⟩, mod, digit⟩ := operand_fields true .rax dst
    simp [X86.encode, decodeX86, decodeBody, littleEndian32, isRex, size, rm, mod, digit,
      append_littleEndian32, Reg64.index]
  | mov dst src =>
    obtain ⟨⟨isRex, size⟩, ⟨reg, rm⟩, mod, _⟩ := operand_fields true src dst
    simp [X86.encode, decodeX86, decodeBody, isRex, size, reg, rm, mod]
  | rotate left dst =>
    cases left with
    | true =>
      obtain ⟨⟨_, size⟩, ⟨_, rm⟩, mod, digit⟩ := operand_fields false .rax dst
      rw [X86.encode, List.append_assoc]
      refine (decodeX86_rexOptional .rax dst _ (by decide)).trans ?_
      simp [decodeBody, size, rm, mod, digit, Reg64.index]
    | false =>
      obtain ⟨⟨_, size⟩, ⟨_, rm⟩, mod, digit⟩ := operand_fields false .rcx dst
      rw [X86.encode, List.append_assoc]
      refine (decodeX86_rexOptional .rcx dst _ (by decide)).trans ?_
      simp [decodeBody, size, rm, mod, digit, Reg64.index]

theorem encode_ne_nil (instr : X86) : instr.encode ≠ [] := by
  intro empty
  have decoded := decodeX86_encode instr []
  rw [empty] at decoded
  cases decoded

theorem decodeCode_encode (instrs : List X86) {fuel : Nat} (enough : instrs.length ≤ fuel) :
    decodeCode fuel (instrs.flatMap X86.encode) = some instrs := by
  induction instrs generalizing fuel with
  | nil => cases fuel <;> rfl
  | cons instr rest ih =>
    obtain ⟨fuel, rfl⟩ : ∃ less, fuel = less + 1 := ⟨fuel - 1, by grind⟩
    rw [List.flatMap_cons]
    obtain ⟨first, bytes, nonempty⟩ := List.exists_cons_of_ne_nil (encode_ne_nil instr)
    have decoded := decodeX86_encode instr (rest.flatMap X86.encode)
    rw [nonempty, List.cons_append] at decoded
    rw [nonempty, List.cons_append, decodeCode, decoded, Option.bind_some,
      ih (Nat.le_of_succ_le_succ enough)]
    rfl

theorem length_le_flatMap_encode (instrs : List X86) :
    instrs.length ≤ (instrs.flatMap X86.encode).length := by
  induction instrs with
  | nil => exact Nat.le_refl 0
  | cons instr rest ih =>
    have positive := List.length_pos_iff.mpr (encode_ne_nil instr)
    rw [List.flatMap_cons, List.length_append, List.length_cons]
    omega

end Encode

end Foundation
