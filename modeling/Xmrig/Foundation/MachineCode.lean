import Mathlib.Logic.Function.Basic
import Mathlib.Logic.Relation
import Xmrig.Foundation.ByteReader

/-! A part of the x86-64 instructions with operands in memory and with jumps: decoding and meaning.

Integer instructions on registers, constants and memory, packed double precision
arithmetic, the control register of its rounding, and jumps relative to the next
instruction. Registers of both kinds go by their numbers. An instruction ends with
at most one constant, its displacement, immediate or offset, which is kept apart
from the rest of it. Code is read from a buffer of its own, which no instruction
changes.
-/

set_option autoImplicit false

namespace Foundation

open ByteReader

structure Packed where
  lo : BitVec 64
  hi : BitVec 64
  deriving DecidableEq, Repr

namespace Packed

def map (op : BitVec 64 → BitVec 64) (x : Packed) : Packed := ⟨op x.lo, op x.hi⟩

def map2 (op : BitVec 64 → BitVec 64 → BitVec 64) (x y : Packed) : Packed :=
  ⟨op x.lo y.lo, op x.hi y.hi⟩

end Packed

/-- Double precision arithmetic on bit patterns, under a rounding control. -/
structure PackedArithmetic where
  add : BitVec 2 → BitVec 64 → BitVec 64 → BitVec 64
  sub : BitVec 2 → BitVec 64 → BitVec 64 → BitVec 64
  mul : BitVec 2 → BitVec 64 → BitVec 64 → BitVec 64
  div : BitVec 2 → BitVec 64 → BitVec 64 → BitVec 64
  sqrt : BitVec 2 → BitVec 64 → BitVec 64
  ofInt32 : BitVec 32 → BitVec 64

/-- The constant of the instruction is added; an index register is shifted. -/
structure Address where
  base : Fin 16
  index : Option (Fin 16 × Nat) := none
  deriving DecidableEq, Repr

inductive Operand where
  | reg (index : Fin 16)
  | mem (address : Address)
  | constant
  deriving DecidableEq, Repr

inductive IntegerOp where
  | add | and | sub | xor | cmp | test
  deriving DecidableEq, Repr

inductive PackedOp where
  | addpd | subpd | mulpd | divpd | sqrtpd | andps | orps | xorps
  deriving DecidableEq, Repr

/-- Instructions that go on to the next one. `wide` stands for 64-bit operands. -/
inductive Straight where
  | nop
  | arith (op : IntegerOp) (wide : Bool) (dst : Fin 16) (src : Operand)
  | lea (wide : Bool) (dst : Fin 16) (address : Address)
  | mov (wide : Bool) (dst : Fin 16) (src : Operand)
  | store (wide : Bool) (address : Address) (src : Fin 16)
  | imul (dst : Fin 16) (src : Operand)
  | imulBy (dst src : Fin 16)
  | mulWide (signed : Bool) (src : Operand)
  | mulx (high low : Fin 16) (src : Operand)
  | neg (dst : Fin 16)
  | rotate (left : Bool) (dst : Fin 16) (byCl : Bool)
  | rorx (dst src : Fin 16)
  | xchg (first second : Fin 16)
  | ldmxcsr (address : Address)
  | packed (op : PackedOp) (dst src : Fin 16)
  | shufpd (dst src : Fin 16)
  | cvtdq2pd (dst : Fin 16) (address : Address)
  | vpcmov (dst first second : Fin 16)
  deriving DecidableEq, Repr

/-- A jump is taken always or on a zero result; its constant counts from the next instruction. -/
inductive Control where
  | next (instr : Straight)
  | jump (onZero : Bool)
  deriving DecidableEq, Repr

/-- How many bytes the constant takes. -/
inductive Width where
  | none | byte | word | quad
  deriving DecidableEq, Repr

/-- An instruction with its constant, which is extended by its sign. -/
structure Instr where
  control : Control
  constant : BitVec 64 := 0
  deriving DecidableEq, Repr

section Decode

structure Prefixes where
  operandSize : Bool := false
  repeated : Bool := false

/-- The operand size and the upper bits of the three register numbers. -/
structure Rex where
  wide : Bool := false
  reg : Bool := false
  index : Bool := false
  base : Bool := false

def extended (upper : Bool) (low : Nat) : Fin 16 := Fin.ofNat 16 (low % 8 + if upper then 8 else 0)

/-- The register field, the other operand and the size of a displacement. -/
structure ModRm where
  reg : Fin 16
  rm : Operand
  width : Width

def ModRm.digit (modRm : ModRm) : Nat := modRm.reg.val % 8

/-- An instruction without its constant, and the size of the constant. -/
abbrev Form := Control × Width

def displacement (mod : Nat) : Width := if mod = 1 then .byte else if mod = 2 then .word else .none

/-- The byte that gives an index register. A base without a register is not decoded. -/
def sibAddress (rex : Rex) (mod : Nat) : ByteReader Address :=
  byte.andThen fun sib =>
    let index := extended rex.index (sib.toNat / 8)
    if mod = 0 ∧ sib.toNat % 8 = 5 then fail
    else ok { base := extended rex.base sib.toNat
              index := if index = 4 then none else some (index, sib.toNat / 64) }

def modRm (rex : Rex) : ByteReader ModRm :=
  byte.andThen fun modrm =>
    let mod := modrm.toNat / 64
    let reg := extended rex.reg (modrm.toNat / 8)
    if mod = 3 then ok ⟨reg, .reg (extended rex.base modrm.toNat), .none⟩
    else if modrm.toNat % 8 = 4 then
      (sibAddress rex mod).andThen fun address => ok ⟨reg, .mem address, displacement mod⟩
    else if mod = 0 ∧ modrm.toNat % 8 = 5 then fail
    else ok ⟨reg, .mem { base := extended rex.base modrm.toNat }, displacement mod⟩

def onRegister (fields : ModRm) (width : Width) (instr : Fin 16 → Straight) : ByteReader Form :=
  match fields.rm with
  | .reg index => ok (.next (instr index), width)
  | _ => fail

def onMemory (fields : ModRm) (instr : Address → Straight) : ByteReader Form :=
  match fields.rm with
  | .mem address => ok (.next (instr address), fields.width)
  | _ => fail

def onOperand (fields : ModRm) (instr : Operand → Straight) : ByteReader Form :=
  ok (.next (instr fields.rm), fields.width)

/-- The operation of the digit in an instruction with an immediate. -/
def groupOp (digit : Nat) : Option IntegerOp :=
  if digit = 0 then some .add
  else if digit = 4 then some .and
  else if digit = 5 then some .sub
  else if digit = 6 then some .xor
  else if digit = 7 then some .cmp
  else none

def arithImmediate (rex : Rex) (fields : ModRm) (width : Width) : ByteReader Form :=
  match groupOp fields.digit with
  | some op => onRegister fields width fun dst => .arith op rex.wide dst .constant
  | none => fail

def unaryGroup (rex : Rex) (fields : ModRm) : ByteReader Form :=
  if fields.digit = 0 then onRegister fields .word fun dst => .arith .test rex.wide dst .constant
  else if rex.wide = false then fail
  else if fields.digit = 3 then onRegister fields .none .neg
  else if fields.digit = 4 then onOperand fields (.mulWide false)
  else if fields.digit = 5 then onOperand fields (.mulWide true)
  else fail

def rotateGroup (rex : Rex) (fields : ModRm) (byCl : Bool) : ByteReader Form :=
  let width := if byCl then Width.none else Width.byte
  if rex.wide = false then fail
  else if fields.digit = 0 then onRegister fields width fun dst => .rotate true dst byCl
  else if fields.digit = 1 then onRegister fields width fun dst => .rotate false dst byCl
  else fail

def packedOp (opcode : BitVec 8) : Option PackedOp :=
  if opcode = 0x58 then some .addpd
  else if opcode = 0x5C then some .subpd
  else if opcode = 0x59 then some .mulpd
  else if opcode = 0x5E then some .divpd
  else if opcode = 0x51 then some .sqrtpd
  else none

def bitwiseOp (opcode : BitVec 8) : Option PackedOp :=
  if opcode = 0x54 then some .andps
  else if opcode = 0x56 then some .orps
  else if opcode = 0x57 then some .xorps
  else none

def packedInstr (op : Option PackedOp) (fields : ModRm) : ByteReader Form :=
  match op with
  | some op => onRegister fields .none (.packed op fields.reg)
  | none => fail

/-- The opcodes behind `0F`. -/
def twoByte (prefixes : Prefixes) (rex : Rex) (opcode : BitVec 8) : ByteReader Form :=
  if opcode = 0x84 then ok (.jump true, .word)
  else (modRm rex).andThen fun fields =>
    if opcode = 0x1F then onOperand fields fun _ => .nop
    else if prefixes.repeated then
      if opcode = 0xE6 then onMemory fields (.cvtdq2pd fields.reg) else fail
    else if prefixes.operandSize then
      if opcode = 0xC6 then onRegister fields .byte (.shufpd fields.reg)
      else packedInstr (packedOp opcode) fields
    else if opcode = 0xAF then if rex.wide then onOperand fields (.imul fields.reg) else fail
    else if opcode = 0xAE then if fields.digit = 2 then onMemory fields .ldmxcsr else fail
    else packedInstr (bitwiseOp opcode) fields

/-- The opcodes behind a three-byte prefix, whose fields are stored inverted. -/
def threeByte (xop : Bool) : ByteReader Form :=
  byte.andThen fun second => byte.andThen fun third => byte.andThen fun opcode =>
    let rex : Rex := ⟨third.msb, !second.msb, !second.getLsbD 6, !second.getLsbD 5⟩
    let vvvv : Fin 16 := Fin.ofNat 16 (15 - third.toNat / 8 % 16)
    (modRm rex).andThen fun fields =>
      if xop then
        if second.toNat % 32 = 8 ∧ opcode = 0xA2 ∧ third.toNat % 8 = 0 ∧ rex.wide = false then
          onRegister fields .byte (.vpcmov fields.reg vvvv)
        else fail
      else if third.toNat % 8 ≠ 3 ∨ rex.wide = false then fail
      else if second.toNat % 32 = 2 ∧ opcode = 0xF6 then onOperand fields (.mulx fields.reg vvvv)
      else if second.toNat % 32 = 3 ∧ opcode = 0xF0 ∧ vvvv = 0 then onRegister fields .byte (.rorx fields.reg)
      else fail

def integerOp (opcode : BitVec 8) : Option IntegerOp :=
  if opcode = 0x03 then some .add
  else if opcode = 0x2B then some .sub
  else if opcode = 0x33 then some .xor
  else if opcode = 0x3B then some .cmp
  else none

def operands (rex : Rex) (opcode : BitVec 8) : ByteReader Form :=
  (modRm rex).andThen fun fields =>
    match integerOp opcode with
    | some op => onOperand fields (.arith op rex.wide fields.reg)
    | none =>
        if opcode = 0x8B then onOperand fields (.mov rex.wide fields.reg)
        else if opcode = 0x89 then onMemory fields fun address => .store rex.wide address fields.reg
        else if opcode = 0x8D then onMemory fields (.lea rex.wide fields.reg)
        else if opcode = 0x81 then arithImmediate rex fields .word
        else if opcode = 0x83 then arithImmediate rex fields .byte
        else if opcode = 0x69 then if rex.wide then onRegister fields .word (.imulBy fields.reg) else fail
        else if opcode = 0xF7 then unaryGroup rex fields
        else if opcode = 0xC1 then rotateGroup rex fields false
        else if opcode = 0xD3 then rotateGroup rex fields true
        else if opcode = 0x87 then if rex.wide then onRegister fields .none (.xchg fields.reg) else fail
        else fail

def oneByte (prefixes : Prefixes) (rex : Rex) (opcode : BitVec 8) : ByteReader Form :=
  if opcode = 0x0F then byte.andThen (twoByte prefixes rex)
  else if opcode = 0x90 then ok (.next .nop, .none)
  else if prefixes.operandSize ∨ prefixes.repeated then fail
  else if opcode = 0xC4 then threeByte false
  else if opcode = 0x8F then threeByte true
  else if opcode = 0x74 then ok (.jump true, .byte)
  else if opcode = 0xEB then ok (.jump false, .byte)
  else if opcode = 0x25 then ok (.next (.arith .and rex.wide 0 .constant), .word)
  else if opcode = 0xB8 then
    if rex.wide then ok (.next (.mov true (extended rex.base 0) .constant), .quad) else fail
  else operands rex opcode

/-- The prefix of operand size and register numbers, where there is one. -/
def afterPrefixes (prefixes : Prefixes) (first : BitVec 8) : ByteReader Form :=
  if first.toNat / 16 = 4 then
    byte.andThen (oneByte prefixes ⟨first.getLsbD 3, first.getLsbD 2, first.getLsbD 1, first.getLsbD 0⟩)
  else oneByte prefixes {} first

/-- The segment override `2E` changes nothing here. -/
def decodeAfter (prefixes : Prefixes) : ByteReader Form
  | [] => none
  | first :: rest =>
      if first = 0x2E then decodeAfter prefixes rest
      else if first = 0x66 then decodeAfter { prefixes with operandSize := true } rest
      else if first = 0xF3 then decodeAfter { prefixes with repeated := true } rest
      else afterPrefixes prefixes first rest

def decodeForm : ByteReader Form := decodeAfter {}

def Width.reader : Width → ByteReader (BitVec 64)
  | .none => ok 0
  | .byte => ByteReader.byte.andThen fun value => ok (value.signExtend 64)
  | .word => ByteReader.word.andThen fun value => ok (value.signExtend 64)
  | .quad => ByteReader.quad

def decode : ByteReader Instr :=
  decodeForm.andThen fun form => form.2.reader.andThen fun constant => ok ⟨form.1, constant⟩

end Decode

section Prefixed

theorem prefixed_modRm (rex : Rex) : Prefixed (modRm rex) := by
  refine prefixed_byte.andThen fun modrm => .ite (prefixed_ok _) (.ite ?_ (.ite prefixed_fail (prefixed_ok _)))
  refine Prefixed.andThen ?_ fun _ => prefixed_ok _
  exact prefixed_byte.andThen fun sib => .ite prefixed_fail (prefixed_ok _)

theorem prefixed_onRegister (fields : ModRm) (width : Width) (instr : Fin 16 → Straight) :
    Prefixed (onRegister fields width instr) := by
  unfold onRegister
  cases fields.rm with
  | reg index => exact prefixed_ok _
  | mem address | constant => exact prefixed_fail

theorem prefixed_onMemory (fields : ModRm) (instr : Address → Straight) : Prefixed (onMemory fields instr) := by
  unfold onMemory
  cases fields.rm with
  | mem address => exact prefixed_ok _
  | reg index | constant => exact prefixed_fail

theorem prefixed_onOperand (fields : ModRm) (instr : Operand → Straight) : Prefixed (onOperand fields instr) :=
  prefixed_ok _

theorem prefixed_arithImmediate (rex : Rex) (fields : ModRm) (width : Width) :
    Prefixed (arithImmediate rex fields width) := by
  unfold arithImmediate
  cases groupOp fields.digit with
  | none => exact prefixed_fail
  | some op => exact prefixed_onRegister _ _ _

theorem prefixed_unaryGroup (rex : Rex) (fields : ModRm) : Prefixed (unaryGroup rex fields) :=
  .ite (prefixed_onRegister _ _ _) (.ite prefixed_fail (.ite (prefixed_onRegister _ _ _)
    (.ite (prefixed_onOperand _ _) (.ite (prefixed_onOperand _ _) prefixed_fail))))

theorem prefixed_rotateGroup (rex : Rex) (fields : ModRm) (byCl : Bool) : Prefixed (rotateGroup rex fields byCl) :=
  .ite prefixed_fail (.ite (prefixed_onRegister _ _ _) (.ite (prefixed_onRegister _ _ _) prefixed_fail))

theorem prefixed_packedInstr (op : Option PackedOp) (fields : ModRm) : Prefixed (packedInstr op fields) := by
  cases op with
  | none => exact prefixed_fail
  | some op => exact prefixed_onRegister _ _ _

theorem prefixed_twoByte (prefixes : Prefixes) (rex : Rex) (opcode : BitVec 8) :
    Prefixed (twoByte prefixes rex opcode) := by
  refine .ite (prefixed_ok _) ((prefixed_modRm rex).andThen fun fields => .ite (prefixed_onOperand _ _) ?_)
  refine .ite (.ite (prefixed_onMemory _ _) prefixed_fail) (.ite ?_ (.ite ?_ (.ite ?_ (prefixed_packedInstr _ _))))
  · exact .ite (prefixed_onRegister _ _ _) (prefixed_packedInstr _ _)
  · exact .ite (prefixed_onOperand _ _) prefixed_fail
  · exact .ite (prefixed_onMemory _ _) prefixed_fail

theorem prefixed_threeByte (xop : Bool) : Prefixed (threeByte xop) := by
  refine prefixed_byte.andThen fun second => prefixed_byte.andThen fun third =>
    prefixed_byte.andThen fun opcode => (prefixed_modRm _).andThen fun fields => .ite ?_ (.ite prefixed_fail ?_)
  · exact .ite (prefixed_onRegister _ _ _) prefixed_fail
  · exact .ite (prefixed_onOperand _ _) (.ite (prefixed_onRegister _ _ _) prefixed_fail)

theorem prefixed_operands (rex : Rex) (opcode : BitVec 8) : Prefixed (operands rex opcode) := by
  refine (prefixed_modRm rex).andThen fun fields => ?_
  cases integerOp opcode with
  | some op => exact prefixed_onOperand _ _
  | none =>
    refine .ite (prefixed_onOperand _ _) (.ite (prefixed_onMemory _ _) (.ite (prefixed_onMemory _ _) ?_))
    refine .ite (prefixed_arithImmediate _ _ _) (.ite (prefixed_arithImmediate _ _ _) (.ite ?_ ?_))
    · exact .ite (prefixed_onRegister _ _ _) prefixed_fail
    · refine .ite (prefixed_unaryGroup _ _) (.ite (prefixed_rotateGroup _ _ _) (.ite (prefixed_rotateGroup _ _ _) ?_))
      exact .ite (.ite (prefixed_onRegister _ _ _) prefixed_fail) prefixed_fail

theorem prefixed_oneByte (prefixes : Prefixes) (rex : Rex) (opcode : BitVec 8) :
    Prefixed (oneByte prefixes rex opcode) := by
  refine .ite (prefixed_byte.andThen fun _ => prefixed_twoByte _ _ _) (.ite (prefixed_ok _) (.ite prefixed_fail ?_))
  refine .ite (prefixed_threeByte _) (.ite (prefixed_threeByte _) (.ite (prefixed_ok _) (.ite (prefixed_ok _) ?_)))
  exact .ite (prefixed_ok _) (.ite (.ite (prefixed_ok _) prefixed_fail) (prefixed_operands _ _))

theorem prefixed_afterPrefixes (prefixes : Prefixes) (first : BitVec 8) :
    Prefixed (afterPrefixes prefixes first) :=
  .ite (prefixed_byte.andThen fun _ => prefixed_oneByte _ _ _) (prefixed_oneByte _ _ _)

theorem prefixed_decodeAfter (prefixes : Prefixes) : Prefixed (decodeAfter prefixes) := by
  intro code
  induction code generalizing prefixes with
  | nil =>
    intro value rest read
    cases read
  | cons first later ih =>
    intro value rest read
    rw [decodeAfter] at read
    -- the prefix bytes are the ones the induction hypothesis does not speak about
    have extend : ∀ reader : ByteReader Form, (∀ bytes, decodeAfter prefixes (first :: bytes) = reader bytes) →
        (∃ taken, later = taken ++ rest ∧ ∀ more, reader (taken ++ more) = some (value, more)) →
        ∃ taken, first :: later = taken ++ rest ∧
          ∀ more, decodeAfter prefixes (taken ++ more) = some (value, more) := by
      rintro reader same ⟨taken, rfl, again⟩
      refine ⟨first :: taken, rfl, fun more => ?_⟩
      rw [List.cons_append, same]
      exact again more
    by_cases segment : first = 0x2E
    · rw [if_pos segment] at read
      exact extend _ (fun _ => by rw [decodeAfter, if_pos segment]) (ih _ value rest read)
    · by_cases size : first = 0x66
      · rw [if_neg segment, if_pos size] at read
        exact extend _ (fun _ => by rw [decodeAfter, if_neg segment, if_pos size]) (ih _ value rest read)
      · by_cases repeated : first = 0xF3
        · rw [if_neg segment, if_neg size, if_pos repeated] at read
          exact extend _ (fun _ => by rw [decodeAfter, if_neg segment, if_neg size, if_pos repeated])
            (ih _ value rest read)
        · rw [if_neg segment, if_neg size, if_neg repeated] at read
          exact extend _ (fun _ => by rw [decodeAfter, if_neg segment, if_neg size, if_neg repeated])
            (prefixed_afterPrefixes _ _ later value rest read)

theorem prefixed_reader (width : Width) : Prefixed width.reader := by
  cases width with
  | none => exact prefixed_ok _
  | byte => exact prefixed_byte.andThen fun _ => prefixed_ok _
  | word => exact prefixed_word.andThen fun _ => prefixed_ok _
  | quad => exact prefixed_quad

theorem prefixed_decode : Prefixed decode :=
  (prefixed_decodeAfter {}).andThen fun form => (prefixed_reader form.2).andThen fun _ => prefixed_ok _

theorem decode_append {first constant : List (BitVec 8)} {form : Form} {value : BitVec 64}
    (head : decodeForm first = some (form, [])) (tail : form.2.reader constant = some (value, [])) :
    decode (first ++ constant) = some (⟨form.1, value⟩, []) := by
  have whole : decodeForm (first ++ constant) = some (form, constant) :=
    (prefixed_decodeAfter {}).append head constant
  unfold decode andThen
  rw [whole]
  simp only [Option.bind_some, tail, ok]

theorem decode_of_form {bytes : List (BitVec 8)} {control : Control}
    (head : decodeForm bytes = some ((control, .none), [])) : decode bytes = some (⟨control, 0⟩, []) := by
  have whole : decode (bytes ++ []) = _ := decode_append head rfl
  rwa [List.append_nil] at whole

end Prefixed

end Foundation
