import Xmrig.Foundation.MachineRun
import Xmrig.RandomX.JitCode

/-! The machine instructions that the native compiler's code consists of.

The integer registers of the virtual machine are `r8` to `r15`; `rsi` points to the
scratchpad, and `rax`, `rcx` and `rdx` are free. The floating point registers of the
groups F, E and A are `xmm0` to `xmm11`. Every template decodes to the listed
instructions, whatever the register numbers and the constants are.
-/

set_option autoImplicit false

namespace Xmrig.RandomX.Jit

open Foundation

def native (index : Fin 8) : Fin 16 := ⟨8 + index.val, by omega⟩

def nativeXmm (base : Nat) (index : Fin 8) : Fin 16 := Fin.ofNat 16 (base + index.val)

/-- `[rsi + rax]`, `[rsi + rcx]` and `[rsi + constant]`. -/
def scratchpadRax : Address := { base := 6, index := some (0, 0) }
def scratchpadRcx : Address := { base := 6, index := some (1, 0) }
def scratchpadDirect : Address := { base := 6 }

section Operations
variable (options : JitOptions) (masked : MaskedInstruction)

def addressOps (mask : BitVec 32) (temporary : Fin 16) (index : Fin 8) : List Constanted :=
  [(.lea false temporary { base := native index }, masked.imm32.signExtend 64),
    (.arith .and false temporary .constant, mask.signExtend 64)]

/-- `genAddressReg` -/
def addressRegOps (temporary : Fin 16) : List Constanted :=
  addressOps masked (options.config.addressMask masked.instr.getModMem) temporary masked.src

def storeMask : BitVec 32 :=
  if masked.instr.mod.toNat < storeL3Condition <<< 4 then options.config.addressMask masked.instr.getModMem
  else options.config.scratchpadL3Mask

/-- The constant address of `genAddressImm`. -/
def directAddress : BitVec 64 := (masked.imm32 &&& options.config.scratchpadL3Mask).signExtend 64

def iaddRsOps : List Constanted :=
  [(.lea true (native masked.dst)
      { base := native masked.dst, index := some (native masked.src, masked.instr.getModShift) },
    if masked.dst = registerNeedsDisplacement then masked.imm32.signExtend 64 else 0)]

def integerMemoryOps (op : IntegerOp) : List Constanted :=
  if masked.src ≠ masked.dst then
    addressRegOps options masked 0 ++ [(.arith op true (native masked.dst) (.mem scratchpadRax), 0)]
  else [(.arith op true (native masked.dst) (.mem scratchpadDirect), directAddress options masked)]

def integerRegisterOps (op : IntegerOp) : List Constanted :=
  if masked.src ≠ masked.dst then [(.arith op true (native masked.dst) (.reg (native masked.src)), 0)]
  else [(.arith op true (native masked.dst) .constant, masked.imm32.signExtend 64)]

def imulROps : List Constanted :=
  if masked.src ≠ masked.dst then [(.imul (native masked.dst) (.reg (native masked.src)), 0)]
  else [(.imulBy (native masked.dst) (native masked.dst), masked.imm32.signExtend 64)]

def imulMOps : List Constanted :=
  if masked.src ≠ masked.dst then
    addressRegOps options masked 0 ++ [(.imul (native masked.dst) (.mem scratchpadRax), 0)]
  else [(.imul (native masked.dst) (.mem scratchpadDirect), directAddress options masked)]

def highRegisterOps (signed : Bool) : List Constanted :=
  [(.mov true 0 (.reg (native masked.dst)), 0), (.mulWide signed (.reg (native masked.src)), 0),
    (.mov true (native masked.dst) (.reg 2), 0)]

def imulhRBmi2Ops : List Constanted :=
  [(.mov true 2 (.reg (native masked.dst)), 0), (.mulx (native masked.dst) 0 (.reg (native masked.src)), 0)]

def highMemoryOps (signed : Bool) : List Constanted :=
  (if masked.src ≠ masked.dst then
    addressRegOps options masked 1 ++
      [(.mov true 0 (.reg (native masked.dst)), 0), (.mulWide signed (.mem scratchpadRcx), 0)]
  else
    [(.mov true 0 (.reg (native masked.dst)), 0),
      (.mulWide signed (.mem scratchpadDirect), directAddress options masked)]) ++
    [(.mov true (native masked.dst) (.reg 2), 0)]

def imulhMBmi2Ops : List Constanted :=
  if masked.src ≠ masked.dst then
    addressRegOps options masked 1 ++
      [(.mov true 2 (.reg (native masked.dst)), 0), (.mulx (native masked.dst) 0 (.mem scratchpadRcx), 0)]
  else
    [(.mov true 2 (.reg (native masked.dst)), 0),
      (.mulx (native masked.dst) 0 (.mem scratchpadDirect), directAddress options masked)]

def imulStoredOps (used : Nat) : List Constanted :=
  [(.imul (native masked.dst) (.mem { base := 4 }), (BitVec.ofNat 8 (248 - used * 8)).signExtend 64)]

def imulConstantOps : List Constanted :=
  [(.mov true 0 .constant, reciprocalFast (masked.imm32.setWidth 64)),
    (.imul (native masked.dst) (.reg 0), 0)]

def inegROps : List Constanted := [(.neg (native masked.dst), 0)]

def rotateOps (left : Bool) : List Constanted :=
  if masked.src ≠ masked.dst then
    [(.mov false 1 (.reg (native masked.src)), 0), (.rotate left (native masked.dst) true, 0)]
  else [(.rotate left (native masked.dst) false, ((masked.imm32 &&& 63).setWidth 8).signExtend 64)]

def iswapROps : List Constanted := [(.xchg (native masked.dst) (native masked.src), 0)]

def fswapROps : List Constanted := [(.shufpd (nativeXmm 0 masked.dst) (nativeXmm 0 masked.dst), 1)]

/-- `base` is 0 for group F and 4 for group E. -/
def floatRegisterOps (op : PackedOp) (base : Nat) : List Constanted :=
  [(.packed op (nativeXmm base (dstFlt masked)) (nativeXmm 8 (srcFlt masked)), 0)]

def floatMemoryOps (op : PackedOp) : List Constanted :=
  addressRegOps options masked 0 ++
    [(.cvtdq2pd 12 scratchpadRax, 0), (.packed op (nativeXmm 0 (dstFlt masked)) 12, 0)]

def fscalROps : List Constanted := [(.packed .xorps (nativeXmm 0 (dstFlt masked)) 15, 0)]

/-- The constant of the conditional move names the selecting register. -/
def maskOps : List Constanted :=
  if options.hasXOP then [(.vpcmov 12 12 14, (0xd0 : BitVec 8).signExtend 64)]
  else [(.packed .andps 12 13, 0), (.packed .orps 12 14, 0)]

def fdivMOps : List Constanted :=
  addressRegOps options masked 0 ++ [(.cvtdq2pd 12 scratchpadRax, 0)] ++ maskOps options ++
    [(.packed .divpd (nativeXmm 4 (dstFlt masked)) 12, 0)]

def fsqrtROps : List Constanted :=
  [(.packed .sqrtpd (nativeXmm 4 (dstFlt masked)) (nativeXmm 4 (dstFlt masked)), 0)]

def istoreOps : List Constanted :=
  addressOps masked (storeMask options masked) 0 masked.dst ++ [(.store true scratchpadRax (native masked.src), 0)]

end Operations

section Constants

theorem word_wordBytes (value : BitVec 32) : ByteReader.word (wordBytes value 4) = some (value, []) := by
  have joined : (value >>> 24).setWidth 8 ++ (value >>> 16).setWidth 8 ++ (value >>> 8).setWidth 8 ++
      value.setWidth 8 = value := by
    apply BitVec.eq_of_getLsbD_eq
    intro position bound
    simp only [BitVec.getLsbD_append, BitVec.getLsbD_setWidth, BitVec.getLsbD_ushiftRight]
    grind
  exact congrArg (fun read => some (read, [])) joined

theorem quad_quadBytes (value : BitVec 64) : ByteReader.quad (quadBytes value) = some (value, []) := by
  have joined : (value.extractLsb' 56 8 ++ value.extractLsb' 48 8 ++ value.extractLsb' 40 8 ++
      value.extractLsb' 32 8) ++ (value.extractLsb' 24 8 ++ value.extractLsb' 16 8 ++
      value.extractLsb' 8 8 ++ value.extractLsb' 0 8) = value := by
    repeat rw [BitVec.extractLsb'_append_extractLsb'_eq_extractLsb' (by rfl)]
    exact BitVec.extractLsb'_eq_self
  exact congrArg (fun read => some (read, [])) joined

theorem read_word (value : BitVec 32) : Width.word.reader (wordBytes value 4) = some (value.signExtend 64, []) := by
  have steps : Width.word.reader (wordBytes value 4) =
      (ByteReader.word (wordBytes value 4)).bind fun read => some (read.1.signExtend 64, read.2) := rfl
  rw [steps, word_wordBytes]
  rfl

theorem read_quad (value : BitVec 64) : Width.quad.reader (quadBytes value) = some (value, []) :=
  quad_quadBytes value

theorem read_byte (value : BitVec 8) : Width.byte.reader [value] = some (value.signExtend 64, []) := rfl

theorem assembles_word {head : List (BitVec 8)} {instr : Straight}
    (form : decodeForm head = some ((.next instr, .word), [])) (value : BitVec 32) :
    Assembles (head ++ wordBytes value 4) [(instr, value.signExtend 64)] :=
  .single (decode_append form (read_word value))

theorem assembles_form {bytes : List (BitVec 8)} {instr : Straight}
    (form : decodeForm bytes = some ((.next instr, .none), [])) : Assembles bytes [(instr, 0)] :=
  .single (decode_of_form form)

end Constants

/-! ## The templates without their constants -/

section Forms

/-- The three operations on memory, with the words of their two templates. -/
def integerMemoryWords : List (IntegerOp × BitVec 32 × BitVec 32) :=
  [(.add, 0x0604034c, 0x86034c), (.sub, 0x06042b4c, 0x862b4c), (.xor, 0x0604334c, 0x86334c)]

/-- The rotations, with the quadword and the word of their templates. -/
def rotateWords : List (Bool × BitVec 64 × BitVec 32) :=
  [(false, 0xc8d349c88b41, 0xc8c149), (true, 0xc0d349c88b41, 0xc0c149)]

/-- The products of two words, with the quadwords of their templates on memory. -/
def highMemoryWords : List (Bool × BitVec 64 × BitVec 64) :=
  [(false, 0x0e24f748c08b49, 0xa6f748c08b49), (true, 0x0e2cf748c08b49, 0xaef748c08b49)]

/-- The operations between floating point registers, with their quadwords. -/
def floatRegisterWords : List (PackedOp × Nat × BitVec 64) :=
  [(.addpd, 0, 0xc0580f4166), (.subpd, 0, 0xc05c0f4166), (.mulpd, 4, 0xe0590f4166)]

/-- The operations with a converted operand, with the words at their ends. -/
def floatMemoryWords : List (PackedOp × BitVec 32) := [(.addpd, 0xc4580f), (.subpd, 0xc45c0f)]

theorem integer_forms :
    (∀ (dst src : Fin 8) (shift : Fin 4),
    decodeForm (wordBytes ((if dst = registerNeedsDisplacement then (0xac8d4f : BitVec 32)
        else 0x048d4f + (reg32 dst <<< 19)) ||| (genSIB shift.val src dst <<< 24)) 4) =
      some ((.next (.lea true (native dst) { base := native dst, index := some (native src, shift.val) }),
        if dst = registerNeedsDisplacement then .word else .none), [])) ∧
    (∀ (rax : Bool) (src : Fin 8),
    decodeForm (wordBytes ((if rax then 0x24808d41 else 0x24888d41) + (reg32 src <<< 16)) (addTable src)) =
      some ((.next (.lea false (if rax then 0 else 1) { base := native src }), .word), [])) ∧
    (∀ dst : Fin 8,
    decodeForm (wordBytes (0x24808d41 + (reg32 dst <<< 16)) (if dst = registerNeedsSib then 4 else 3)) =
      some ((.next (.lea false 0 { base := native dst }), .word), [])) ∧
    (decodeForm [0x25] = some ((.next (.arith .and false 0 .constant), .word), []) ∧
    decodeForm (wordBytes 0xe181 2) = some ((.next (.arith .and false 1 .constant), .word), [])) ∧
    (∀ dst : Fin 8, ∀ words ∈ integerMemoryWords,
    decodeForm (wordBytes (words.2.1 + (reg32 dst <<< 19)) 4) =
        some ((.next (.arith words.1 true (native dst) (.mem scratchpadRax)), .none), []) ∧
      decodeForm (wordBytes (words.2.2 + (reg32 dst <<< 19)) 3) =
        some ((.next (.arith words.1 true (native dst) (.mem scratchpadDirect)), .word), [])) ∧
    (∀ dst src : Fin 8,
    decodeForm (wordBytes (0xc02b4d + (reg32 dst <<< 19) + (reg32 src <<< 16)) 3) =
        some ((.next (.arith .sub true (native dst) (.reg (native src))), .none), []) ∧
      decodeForm (wordBytes (0xe88149 + (reg32 dst <<< 16)) 3) =
        some ((.next (.arith .sub true (native dst) .constant), .word), [])) ∧
    (∀ dst src : Fin 8,
    decodeForm (wordBytes (0xc0334d + (((reg32 dst <<< 3) + reg32 src) <<< 16)) 3) =
        some ((.next (.arith .xor true (native dst) (.reg (native src))), .none), []) ∧
      decodeForm (wordBytes (0xf08149 + (reg32 dst <<< 16)) 3) =
        some ((.next (.arith .xor true (native dst) .constant), .word), [])) ∧
    (∀ dst : Fin 8,
    decodeForm (wordBytes (0xd8f749 + (reg32 dst <<< 16)) 3) = some ((.next (.neg (native dst)), .none), [])) ∧
    (∀ dst src : Fin 8, ∀ words ∈ rotateWords,
    decodeMany 2 (quadPrefix (words.2.1 + (reg64 src <<< 16) + (reg64 dst <<< 40)) 6) =
        some [(.mov false 1 (.reg (native src)), 0), (.rotate words.1 (native dst) true, 0)] ∧
      decodeForm (wordBytes (words.2.2 + (reg32 dst <<< 16)) 3) =
        some ((.next (.rotate words.1 (native dst) false), .byte), [])) ∧
    (∀ dst src : Fin 8,
    decodeForm (wordBytes (0xc0874d + (((reg32 dst <<< 3) + reg32 src) <<< 16)) 3) =
      some ((.next (.xchg (native dst) (native src)), .none), [])) ∧
    (∀ src : Fin 8,
    decodeForm (wordBytes (0x0604894c + (reg32 src <<< 19)) 4) =
      some ((.next (.store true scratchpadRax (native src)), .none), [])) := by
  refine ⟨?_, ?_, ?_, ?_, ?_, ?_, ?_, ?_, ?_, ?_, ?_⟩ <;> decide +kernel

theorem product_forms :
    (∀ dst src : Fin 8,
    decodeForm (wordBytes (0xc0af0f4d + ((reg32 dst * 8 + reg32 src) <<< 24)) 4) =
        some ((.next (.imul (native dst) (.reg (native src))), .none), []) ∧
      decodeForm (wordBytes (0xc0694d + (((reg32 dst <<< 3) + reg32 dst) <<< 16)) 3) =
        some ((.next (.imulBy (native dst) (native dst)), .word), [])) ∧
    (∀ dst : Fin 8,
    decodeForm (quadPrefix (0x0604af0f4c + (reg64 dst <<< 27)) 5) =
        some ((.next (.imul (native dst) (.mem scratchpadRax)), .none), []) ∧
      decodeForm (wordBytes (0x86af0f4c + (reg32 dst <<< 27)) 4) =
        some ((.next (.imul (native dst) (.mem scratchpadDirect)), .word), [])) ∧
    (∀ (dst : Fin 8) (used : Fin 16),
    decodeMany 1 (quadPrefix (0x2444AF0F4C + (reg64 dst <<< 27) +
        (BitVec.ofNat 64 (248 - used.val * 8) <<< 40)) 6) =
      some [(.imul (native dst) (.mem { base := 4 }), (BitVec.ofNat 8 (248 - used.val * 8)).signExtend 64)]) ∧
    (decodeForm (wordBytes 0xb848 2) = some ((.next (.mov true 0 .constant), .quad), []) ∧
    ∀ dst : Fin 8, decodeForm (wordBytes (0xc0af0f4c + (reg32 dst <<< 27)) 4) =
      some ((.next (.imul (native dst) (.reg 0)), .none), [])) ∧
    (∀ dst : Fin 8,
    decodeForm (wordBytes (0xc08b49 + (reg32 dst <<< 16)) 3) =
        some ((.next (.mov true 0 (.reg (native dst))), .none), []) ∧
      decodeForm (wordBytes (0xC4D08B49 + (reg32 dst <<< 16)) 3) =
        some ((.next (.mov true 2 (.reg (native dst))), .none), []) ∧
      decodeForm (wordBytes (0xc28b4c + (reg32 dst <<< 19)) 3) =
        some ((.next (.mov true (native dst) (.reg 2)), .none), [])) ∧
    (∀ src : Fin 8,
    decodeForm (wordBytes (0xe0f749 + (reg32 src <<< 16)) 3) =
      some ((.next (.mulWide false (.reg (native src))), .none), [])) ∧
    (∀ dst src : Fin 8,
    decodeMany 3 (quadBytes (0x8b4ce8f749c08b49 + (reg64 dst <<< 16) + (reg64 src <<< 40)) ++ [0xc2 + 8 * reg8 dst]) =
      some [(.mov true 0 (.reg (native dst)), 0), (.mulWide true (.reg (native src)), 0),
        (.mov true (native dst) (.reg 2), 0)]) ∧
    (∀ dst src : Fin 8,
    decodeMany 2 (wordBytes (0xC4D08B49 + (reg32 dst <<< 16)) 4 ++
        wordBytes (0xC0F6FB42 + (reg32 dst <<< 27) + (reg32 src <<< 24)) 4) =
      some [(.mov true 2 (.reg (native dst)), 0), (.mulx (native dst) 0 (.reg (native src)), 0)]) ∧
    (∀ dst : Fin 8, ∀ words ∈ highMemoryWords,
    decodeMany 2 (quadPrefix (words.2.1 + (reg64 dst <<< 16)) 7) =
        some [(.mov true 0 (.reg (native dst)), 0), (.mulWide words.1 (.mem scratchpadRcx), 0)] ∧
      quadPrefix (words.2.2 + (reg64 dst <<< 16)) 6 =
        wordBytes (0xc08b49 + (reg32 dst <<< 16)) 3 ++ [0x48, 0xf7, if words.1 then 0xae else 0xa6] ∧
      decodeForm [0x48, 0xf7, if words.1 then 0xae else 0xa6] =
        some ((.next (.mulWide words.1 (.mem scratchpadDirect)), .word), [])) ∧
    (∀ dst : Fin 8,
    decodeMany 2 (wordBytes (0xC4D08B49 + (reg32 dst <<< 16)) 4 ++
        quadPrefix (0x0E04F6FB62 + (reg64 dst <<< 27)) 5) =
        some [(.mov true 2 (.reg (native dst)), 0), (.mulx (native dst) 0 (.mem scratchpadRcx), 0)] ∧
      quadBytes (0x86F6FB62C4D08B49 + (reg64 dst <<< 16) + (reg64 dst <<< 59)) =
        wordBytes (0xC4D08B49 + (reg32 dst <<< 16)) 3 ++ [0xC4, 0x62, 0xFB, 0xF6, 0x86 + 8 * reg8 dst] ∧
      decodeForm [0xC4, 0x62, 0xFB, 0xF6, 0x86 + 8 * reg8 dst] =
        some ((.next (.mulx (native dst) 0 (.mem scratchpadDirect)), .word), [])) := by
  refine ⟨?_, ?_, ?_, ?_, ?_, ?_, ?_, ?_, ?_, ?_⟩ <;> decide +kernel

theorem float_forms :
    (∀ dst : Fin 8,
    decodeMany 1 (quadPrefix (0x01c0c60f66 + (((reg64 dst <<< 3) + reg64 dst) <<< 24)) 5) =
      some [(.shufpd (nativeXmm 0 dst) (nativeXmm 0 dst), 1)]) ∧
    (∀ dst src : Fin 8, dst.val < 4 → src.val < 4 → ∀ words ∈ floatRegisterWords,
    decodeForm (quadPrefix (words.2.2 + (((reg64 dst <<< 3) + reg64 src) <<< 32)) 5) =
      some ((.next (.packed words.1 (nativeXmm words.2.1 dst) (nativeXmm 8 src)), .none), [])) ∧
    (∀ dst : Fin 8, ∀ words ∈ floatMemoryWords,
    decodeMany 2 (quadBytes 0x41660624e60f44f3 ++ wordBytes (words.2 + (reg32 dst <<< 19)) 3) =
      some [(.cvtdq2pd 12 scratchpadRax, 0), (.packed words.1 (nativeXmm 0 dst) 12, 0)]) ∧
    (∀ dst : Fin 8, dst.val < 4 →
    decodeForm (wordBytes (0xc7570f41 + (reg32 dst <<< 27)) 4) =
      some ((.next (.packed .xorps (nativeXmm 0 dst) 15), .none), [])) ∧
    (decodeMany 1 (quadPrefix 0x0624e60f44f3 6) = some [(.cvtdq2pd 12 scratchpadRax, 0)] ∧
    decodeMany 1 (quadPrefix 0xd0e6a218488f 6) = some [(.vpcmov 12 12 14, (0xd0 : BitVec 8).signExtend 64)] ∧
    decodeMany 2 (quadBytes 0xe6560f45e5540f45) = some [(.packed .andps 12 13, 0), (.packed .orps 12 14, 0)] ∧
    ∀ dst : Fin 8, dst.val < 4 → decodeForm (quadPrefix (0xe45e0f4166 + (reg64 dst <<< 35)) 5) =
      some ((.next (.packed .divpd (nativeXmm 4 dst) 12), .none), [])) ∧
    (∀ dst : Fin 8, dst.val < 4 →
    decodeForm (wordBytes (0xe4510f66 + (((reg32 dst <<< 3) + reg32 dst) <<< 24)) 4) =
      some ((.next (.packed .sqrtpd (nativeXmm 4 dst) (nativeXmm 4 dst)), .none), [])) := by
  refine ⟨?_, ?_, ?_, ?_, ?_, ?_⟩ <;> decide

end Forms

/-! ## The templates -/

section Assembly
variable (options : JitOptions) (masked : MaskedInstruction)

theorem assembles_address (rax : Bool) :
    Assembles (genAddressReg options.config masked rax masked.src)
      (addressRegOps options masked (if rax then 0 else 1)) := by
  obtain ⟨_, address, _, ⟨andRax, andRcx⟩, _⟩ := integer_forms
  have sum := assembles_word (address rax masked.src) masked.imm32
  unfold genAddressReg
  rw [List.append_assoc]
  cases rax with
  | true => exact sum.append (assembles_word andRax _)
  | false => exact sum.append (assembles_word andRcx _)

theorem assembles_iaddRs : Assembles (iaddRsBytes masked) (iaddRsOps masked) := by
  obtain ⟨iaddRs, _⟩ := integer_forms
  have shift : masked.instr.getModShift < 4 := by
    unfold Instruction.getModShift
    rw [BitVec.toNat_and]
    exact Nat.lt_of_le_of_lt Nat.and_le_right (by decide)
  have form := iaddRs masked.dst masked.src ⟨_, shift⟩
  unfold iaddRsBytes iaddRsOps
  by_cases displaced : masked.dst = registerNeedsDisplacement
  · simp only [displaced, if_true] at form ⊢
    exact assembles_word form _
  · simp only [displaced, if_false, List.append_nil] at form ⊢
    exact assembles_form form

theorem assembles_integerMemory (words : IntegerOp × BitVec 32 × BitVec 32) (listed : words ∈ integerMemoryWords) :
    Assembles (integerMemoryBytes options masked words.2.1 words.2.2) (integerMemoryOps options masked words.1) := by
  obtain ⟨_, _, _, _, memory, _⟩ := integer_forms
  obtain ⟨computed, constant⟩ := memory masked.dst words listed
  unfold integerMemoryBytes integerMemoryOps
  split
  · exact (assembles_address options masked true).append (assembles_form computed)
  · exact assembles_word constant _

theorem assembles_isubR : Assembles (isubRBytes masked) (integerRegisterOps masked .sub) := by
  obtain ⟨_, _, _, _, _, isubR, _⟩ := integer_forms
  obtain ⟨register, constant⟩ := isubR masked.dst masked.src
  unfold isubRBytes integerRegisterOps
  split
  · exact assembles_form register
  · exact assembles_word constant _

theorem quadPrefix_constant (value : BitVec 32) {low : BitVec 64} (small : low.toNat < 2 ^ 24) :
    quadPrefix ((value.setWidth 64 <<< 24) + low) 7 = wordBytes (low.setWidth 32) 3 ++ wordBytes value 4 := by
  have above : ∀ position, 24 ≤ position → low.getLsbD position = false := by
    intro position high
    rw [← BitVec.testBit_toNat]
    exact Nat.testBit_lt_two_pow (Nat.lt_of_lt_of_le small (Nat.pow_le_pow_right (by decide) high))
  have apart : (value.setWidth 64 <<< 24) &&& low = 0 := by
    apply BitVec.eq_of_getLsbD_eq
    intro position bound
    simp only [BitVec.getLsbD_and, BitVec.getLsbD_shiftLeft]
    grind
  rw [BitVec.add_eq_or_of_and_eq_zero _ _ apart]
  simp only [quadPrefix, quadBytes, wordBytes, List.take_succ_cons, List.take_zero, List.cons_append,
    List.nil_append, List.cons.injEq, and_true]
  refine ⟨?_, ?_, ?_, ?_, ?_, ?_, ?_⟩
  all_goals
    apply BitVec.eq_of_getLsbD_eq
    intro position bound
    simp only [BitVec.getLsbD_extractLsb', BitVec.getLsbD_or, BitVec.getLsbD_shiftLeft, BitVec.getLsbD_setWidth,
      BitVec.getLsbD_ushiftRight]
    grind

theorem assembles_ixorR : Assembles (ixorRBytes masked) (integerRegisterOps masked .xor) := by
  obtain ⟨_, _, _, _, _, _, ixorR, _⟩ := integer_forms
  obtain ⟨register, constant⟩ := ixorR masked.dst masked.src
  have low : ∀ dst : Fin 8, (0xf08149 + (reg64 dst <<< 16)).toNat < 2 ^ 24 ∧
      (0xf08149 + (reg64 dst <<< 16)).setWidth 32 = 0xf08149 + (reg32 dst <<< 16) := by decide
  obtain ⟨small, same⟩ := low masked.dst
  unfold ixorRBytes integerRegisterOps
  split
  · exact assembles_form register
  · rw [BitVec.add_assoc, quadPrefix_constant _ small, same]
    exact assembles_word constant _

theorem assembles_imulR : Assembles (imulRBytes masked) (imulROps masked) := by
  obtain ⟨imulR, _⟩ := product_forms
  obtain ⟨register, constant⟩ := imulR masked.dst masked.src
  unfold imulRBytes imulROps
  split
  · exact assembles_form register
  · exact assembles_word constant _

theorem assembles_imulM : Assembles (imulMBytes options masked) (imulMOps options masked) := by
  obtain ⟨_, imulM, _⟩ := product_forms
  obtain ⟨computed, constant⟩ := imulM masked.dst
  unfold imulMBytes imulMOps
  split
  · exact (assembles_address options masked true).append (assembles_form computed)
  · exact assembles_word constant _

theorem assembles_imulhR : Assembles (imulhRBytes masked) (highRegisterOps masked false) := by
  obtain ⟨_, _, _, _, mov, high, _⟩ := product_forms
  obtain ⟨load, _, store⟩ := mov masked.dst
  exact ((assembles_form load).append (assembles_form (high masked.src))).append (assembles_form store)

theorem assembles_ismulhR : Assembles (ismulhRBytes masked) (highRegisterOps masked true) := by
  obtain ⟨_, _, _, _, _, _, ismulhR, _⟩ := product_forms
  exact assembles_of_decodeMany (ismulhR masked.dst masked.src)

theorem assembles_imulhRBmi2 : Assembles (imulhRBmi2Bytes masked) (imulhRBmi2Ops masked) := by
  obtain ⟨_, _, _, _, _, _, _, imulhR, _⟩ := product_forms
  exact assembles_of_decodeMany (imulhR masked.dst masked.src)

theorem assembles_highMemory (words : Bool × BitVec 64 × BitVec 64) (listed : words ∈ highMemoryWords) :
    Assembles (highMemoryBytes options masked words.2.1 words.2.2) (highMemoryOps options masked words.1) := by
  obtain ⟨_, _, _, _, mov, _, _, _, highMemory, _⟩ := product_forms
  obtain ⟨load, _, store⟩ := mov masked.dst
  obtain ⟨computed, split, constant⟩ := highMemory masked.dst words listed
  unfold highMemoryBytes highMemoryOps
  refine Assembles.append ?_ (assembles_form store)
  by_cases apart : masked.src ≠ masked.dst
  · rw [if_pos apart, if_pos apart]
    exact (assembles_address options masked false).append (assembles_of_decodeMany computed)
  · rw [if_neg apart, if_neg apart, split, List.append_assoc]
    exact (assembles_form load).append (assembles_word constant _)

theorem assembles_imulhMBmi2 : Assembles (imulhMBmi2Bytes options masked) (imulhMBmi2Ops options masked) := by
  obtain ⟨_, _, _, _, mov, _, _, _, _, imulhM⟩ := product_forms
  obtain ⟨_, load, _⟩ := mov masked.dst
  obtain ⟨computed, split, constant⟩ := imulhM masked.dst
  unfold imulhMBmi2Bytes imulhMBmi2Ops
  by_cases apart : masked.src ≠ masked.dst
  · rw [if_pos apart, if_pos apart, List.append_assoc]
    exact (assembles_address options masked false).append (assembles_of_decodeMany computed)
  · rw [if_neg apart, if_neg apart, split, List.append_assoc]
    exact (assembles_form load).append (assembles_word constant _)

theorem assembles_imulStored {used : Nat} (room : used < 16) :
    Assembles (quadPrefix (0x2444AF0F4C + (reg64 masked.dst <<< 27) + (BitVec.ofNat 64 (248 - used * 8) <<< 40)) 6)
      (imulStoredOps masked used) := by
  obtain ⟨_, _, stored, _⟩ := product_forms
  exact assembles_of_decodeMany (stored masked.dst ⟨used, room⟩)

theorem assembles_imulConstant :
    Assembles (wordBytes 0xb848 2 ++ quadBytes (reciprocalFast (masked.imm32.setWidth 64)) ++
      wordBytes (0xc0af0f4c + (reg32 masked.dst <<< 27)) 4) (imulConstantOps masked) := by
  obtain ⟨_, _, _, ⟨load, multiply⟩, _⟩ := product_forms
  have loaded := Assembles.single (decode_append load (read_quad (reciprocalFast (masked.imm32.setWidth 64))))
  exact loaded.append (assembles_form (multiply masked.dst))

theorem assembles_inegR : Assembles (inegRBytes masked) (inegROps masked) := by
  obtain ⟨_, _, _, _, _, _, _, inegR, _⟩ := integer_forms
  exact assembles_form (inegR masked.dst)

theorem assembles_rotate (words : Bool × BitVec 64 × BitVec 32) (listed : words ∈ rotateWords) :
    Assembles (rotateBytes masked words.2.1 words.2.2) (rotateOps masked words.1) := by
  obtain ⟨_, _, _, _, _, _, _, _, rotate, _⟩ := integer_forms
  obtain ⟨byCl, byConstant⟩ := rotate masked.dst masked.src words listed
  unfold rotateBytes rotateOps
  split
  · exact assembles_of_decodeMany byCl
  · exact .single (decode_append byConstant (read_byte _))

theorem assembles_iswapR : Assembles (iswapRBytes masked) (iswapROps masked) := by
  obtain ⟨_, _, _, _, _, _, _, _, _, iswapR, _⟩ := integer_forms
  exact assembles_form (iswapR masked.dst masked.src)

theorem assembles_istore : Assembles (istoreBytes options masked) (istoreOps options masked) := by
  obtain ⟨_, _, addressDst, ⟨andRax, _⟩, _, _, _, _, _, _, istore⟩ := integer_forms
  have address := (assembles_word (addressDst masked.dst) masked.imm32).append
    (assembles_word andRax (storeMask options masked))
  unfold istoreBytes genAddressRegDst
  rw [List.append_assoc (_ ++ _) [0x25]]
  exact address.append (assembles_form (istore masked.src))

theorem assembles_fswapR : Assembles (fswapRBytes masked) (fswapROps masked) := by
  obtain ⟨fswapR, _⟩ := float_forms
  exact assembles_of_decodeMany (fswapR masked.dst)

theorem dstFlt_lt : (dstFlt masked).val < 4 := Nat.mod_lt _ (by decide)
theorem srcFlt_lt : (srcFlt masked).val < 4 := Nat.mod_lt _ (by decide)

theorem assembles_floatRegister (words : PackedOp × Nat × BitVec 64) (listed : words ∈ floatRegisterWords) :
    Assembles (floatRegisterBytes masked words.2.2) (floatRegisterOps masked words.1 words.2.1) := by
  obtain ⟨_, floatRegister, _⟩ := float_forms
  exact assembles_form (floatRegister _ _ (dstFlt_lt masked) (srcFlt_lt masked) words listed)

theorem assembles_floatMemory (words : PackedOp × BitVec 32) (listed : words ∈ floatMemoryWords) :
    Assembles (floatMemoryBytes options masked words.2) (floatMemoryOps options masked words.1) := by
  obtain ⟨_, _, floatMemory, _⟩ := float_forms
  unfold floatMemoryBytes
  rw [List.append_assoc]
  exact (assembles_address options masked true).append
    (assembles_of_decodeMany (floatMemory (dstFlt masked) words listed))

theorem assembles_fscalR : Assembles (fscalRBytes masked) (fscalROps masked) := by
  obtain ⟨_, _, _, fscalR, _⟩ := float_forms
  exact assembles_form (fscalR _ (dstFlt_lt masked))

theorem assembles_fdivM : Assembles (fdivMBytes options masked) (fdivMOps options masked) := by
  obtain ⟨_, _, _, _, ⟨convert, select, mask, divide⟩, _⟩ := float_forms
  have masking : Assembles (if options.hasXOP then quadPrefix 0xd0e6a218488f 6 else quadBytes 0xe6560f45e5540f45)
      (maskOps options) := by
    unfold maskOps
    split
    · exact assembles_of_decodeMany select
    · exact assembles_of_decodeMany mask
  have converted := (assembles_address options masked true).append (assembles_of_decodeMany convert)
  exact (converted.append masking).append (assembles_form (divide _ (dstFlt_lt masked)))

theorem assembles_fsqrtR : Assembles (fsqrtRBytes masked) (fsqrtROps masked) := by
  obtain ⟨_, _, _, _, _, fsqrtR⟩ := float_forms
  exact assembles_form (fsqrtR _ (dstFlt_lt masked))

end Assembly

end Xmrig.RandomX.Jit
