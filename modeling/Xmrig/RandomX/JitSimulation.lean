import Xmrig.RandomX.JitRelated

/-! The compiled code of each instruction does what the interpreter does.

One lemma for each template, over the machine instructions that it decodes to. The
address of an operand is computed in 32 bits and masked, or is a constant where both
registers are the same.
-/

set_option autoImplicit false

namespace Xmrig.RandomX

open Foundation Jit

/-- What the simulation needs of a configuration and of the arithmetic: the scratchpad has at most
2^31 bytes, and a converted integer has 22 zeros at the end. -/
structure Suitable (config : Configuration) (unit : FloatUnit) : Prop where
  sizes : Sizes config
  small : config.size ≤ 2 ^ 31
  converted : ∀ x, unit.ofInt32 x &&& 0x3FFFFF = 0

theorem suitable_of_listed {config : Configuration} {unit : FloatUnit}
    (listed : config ∈ [Configuration.base, .wownero, .arqma, .graft])
    (converted : ∀ x, unit.ofInt32 x &&& 0x3FFFFF = 0) : Suitable config unit := by
  simp only [List.mem_cons, List.not_mem_nil, or_false] at listed
  rcases listed with rfl | rfl | rfl | rfl <;>
    exact ⟨⟨by decide, by decide, by decide⟩, by decide, converted⟩

section Words

theorem masked_sum (x : BitVec 64) (mask : BitVec 32) :
    ((x.setWidth 32) &&& mask).setWidth 64 = x &&& mask.setWidth 64 := by
  apply BitVec.eq_of_getLsbD_eq
  intro position bound
  simp only [BitVec.getLsbD_and, BitVec.getLsbD_setWidth]
  grind

/-- A mask without its highest bit does not see how a word is extended. -/
theorem masked_constant (x : BitVec 32) {mask : BitVec 32} (small : mask.toNat < 2 ^ 31) :
    (x &&& mask).signExtend 64 = x.signExtend 64 &&& mask.setWidth 64 := by
  have positive : mask.msb = false := by
    rw [BitVec.msb_eq_decide, decide_eq_false_iff_not]
    omega
  have wide : mask.setWidth 64 = mask.signExtend 64 := (BitVec.signExtend_eq_setWidth_of_msb_false positive).symm
  rw [wide, BitVec.signExtend_and]

theorem extended_word (x : BitVec 32) : (x.signExtend 64).setWidth 32 = x := by
  apply BitVec.eq_of_getLsbD_eq
  intro position bound
  simp only [BitVec.getLsbD_setWidth, BitVec.getLsbD_signExtend]
  grind

theorem sum_zero (x : BitVec 64) : x + 0 = x := BitVec.add_zero x

theorem shuffle_swap (x : Vec128) : shuffle 1 x.packed x.packed = x.swap.packed := rfl

end Words

section Integer
variable {options : JitOptions} {frame cpu : Cpu} {machine : Machine} (arithmetic : PackedArithmetic)
  (masked : MaskedInstruction)

theorem address_related (related : Related options frame machine cpu) (mask : BitVec 32) {temporary : Fin 16}
    (free : temporary.val < 3) (index : Fin 8) :
    Related options frame machine (execStraight arithmetic (addressOps masked mask temporary index) cpu) ∧
      (execStraight arithmetic (addressOps masked mask temporary index) cpu).gpr temporary =
        (machine.r index + masked.imm32.signExtend 64) &&& mask.setWidth 64 := by
  constructor
  · exact ((related.setTemporary free _).flags _).setTemporary free _
  · have base := related.integer index
    simp only [addressOps, execStraight, Straight.exec, IntegerOp.eval, IntegerOp.stores, if_true, Cpu.setGpr,
      Function.update_self, Cpu.value32, Cpu.address, base, Bool.false_eq_true, if_false]
    rw [← masked_sum]
    congr 1
    rw [BitVec.setWidth_setWidth_of_le _ (by decide), BitVec.setWidth_setWidth_of_le _ (by decide), extended_word]

variable {masked} {unit : FloatUnit}

theorem masked_inside {mask : BitVec 32} (covers : Covers options.config mask) (x : BitVec 64) :
    (x &&& mask.setWidth 64).toNat + 8 ≤ options.config.size :=
  Nat.le_trans (Nat.add_le_add_right (and_mask_le x mask) 8) covers

theorem related_word (related : Related options frame machine cpu) {mask : BitVec 32}
    (covers : Covers options.config mask) {address : BitVec 64} (x : BitVec 64)
    (same : address = x &&& mask.setWidth 64) :
    loadMemory cpu.memory (cpu.gpr 6 + address) = machine.scratchpad.load64 (x &&& mask.setWidth 64).toNat := by
  rw [same]
  exact related.load (masked_inside covers x)

variable (masked) in
theorem direct_word (suitable : Suitable options.config unit) (related : Related options frame machine cpu) :
    loadMemory cpu.memory (cpu.gpr 6 + directAddress options masked) =
      machine.scratchpad.load64 ((0 + masked.imm32.signExtend 64) &&& options.config.scratchpadL3Mask.setWidth 64).toNat := by
  have covers := suitable.sizes.scratchpadL3Mask
  have small := suitable.small
  have bound : options.config.scratchpadL3Mask.toNat < 2 ^ 31 := by
    have below : options.config.scratchpadL3Mask.toNat + 8 ≤ options.config.size := covers
    omega
  rw [show (0 : BitVec 64) + masked.imm32.signExtend 64 = masked.imm32.signExtend 64 from BitVec.zero_add _]
  exact related_word related covers _ (masked_constant masked.imm32 bound)

theorem compileMemory_load (type : InstructionType) :
    (compileMemory options.config type masked.instr).load machine =
      if masked.src ≠ masked.dst then
        machine.scratchpad.load64 ((machine.r masked.src + masked.imm32.signExtend 64) &&&
          (options.config.addressMask masked.instr.getModMem).setWidth 64).toNat
      else
        machine.scratchpad.load64 ((0 + masked.imm32.signExtend 64) &&&
          options.config.scratchpadL3Mask.setWidth 64).toNat := by
  unfold compileMemory
  rw [masked.register_src, masked.register_dst]
  split
  · rfl
  · rfl

variable (masked) in
theorem computed_word (suitable : Suitable options.config unit) (related : Related options frame machine cpu)
    {temporary : Fin 16} (free : temporary.val < 3) :
    Related options frame machine
        (execStraight arithmetic (addressRegOps options masked temporary) cpu) ∧
      loadMemory (execStraight arithmetic (addressRegOps options masked temporary) cpu).memory
          ((execStraight arithmetic (addressRegOps options masked temporary) cpu).gpr 6 +
            (execStraight arithmetic (addressRegOps options masked temporary) cpu).gpr temporary <<< 0 + 0) =
        machine.scratchpad.load64 ((machine.r masked.src + masked.imm32.signExtend 64) &&&
          (options.config.addressMask masked.instr.getModMem).setWidth 64).toNat := by
  obtain ⟨after, address⟩ := address_related arithmetic masked related
    (options.config.addressMask masked.instr.getModMem) free masked.src
  refine ⟨after, ?_⟩
  rw [BitVec.shiftLeft_zero, sum_zero]
  exact related_word after (suitable.sizes.addressMask _) _ address

theorem integerMemory_related (suitable : Suitable options.config unit) (related : Related options frame machine cpu)
    {op : IntegerOp} (stores : op.stores = true) (type : InstructionType) :
    Related options frame
      (machine.setR masked.dst (op.eval (machine.r masked.dst)
        ((compileMemory options.config type masked.instr).load machine)))
      (execStraight arithmetic (integerMemoryOps options masked op) cpu) := by
  rw [compileMemory_load]
  unfold integerMemoryOps
  split
  · obtain ⟨after, word⟩ := computed_word arithmetic masked suitable related (show (0 : Fin 16).val < 3 by decide)
    rw [execStraight_append]
    generalize execStraight arithmetic (addressRegOps options masked 0) cpu = middle at *
    simp only [execStraight, Straight.exec, stores, if_true]
    refine (after.flags _).setInteger _ ?_
    rw [after.integer]
    exact congrArg _ word
  · simp only [execStraight, Straight.exec, stores, if_true]
    refine (related.flags _).setInteger _ ?_
    rw [related.integer]
    exact congrArg _ (direct_word masked suitable related)

theorem integerRegister_related (related : Related options frame machine cpu) {op : IntegerOp}
    (stores : op.stores = true) (type : InstructionType) :
    Related options frame
      (machine.setR masked.dst (op.eval (machine.r masked.dst)
        ((compileRegister type (masked.imm32.signExtend 64) masked.instr).source machine)))
      (execStraight arithmetic (integerRegisterOps masked op) cpu) := by
  unfold integerRegisterOps compileRegister
  rw [masked.register_src, masked.register_dst]
  split
  all_goals
    simp only [execStraight, Straight.exec, stores, if_true]
    refine (related.flags _).setInteger _ ?_
    simp only [Cpu.value, related.integer, InstructionByteCode.source]

theorem imulR_related (related : Related options frame machine cpu) (type : InstructionType) :
    Related options frame
      (machine.setR masked.dst (machine.r masked.dst *
        (compileRegister type (masked.imm32.signExtend 64) masked.instr).source machine))
      (execStraight arithmetic (imulROps masked) cpu) := by
  unfold imulROps compileRegister
  rw [masked.register_src, masked.register_dst]
  split
  all_goals
    simp only [execStraight, Straight.exec]
    refine (related.flags _).setInteger _ ?_
    simp only [Cpu.value, related.integer, InstructionByteCode.source]

theorem imulM_related (suitable : Suitable options.config unit) (related : Related options frame machine cpu)
    (type : InstructionType) :
    Related options frame
      (machine.setR masked.dst (machine.r masked.dst *
        (compileMemory options.config type masked.instr).load machine))
      (execStraight arithmetic (imulMOps options masked) cpu) := by
  rw [compileMemory_load]
  unfold imulMOps
  split
  · obtain ⟨after, word⟩ := computed_word arithmetic masked suitable related (show (0 : Fin 16).val < 3 by decide)
    rw [execStraight_append]
    generalize execStraight arithmetic (addressRegOps options masked 0) cpu = middle at *
    refine (after.flags _).setInteger _ ?_
    rw [after.integer]
    exact congrArg _ word
  · refine (related.flags _).setInteger _ ?_
    rw [related.integer]
    exact congrArg _ (direct_word masked suitable related)

def high (signed : Bool) (x y : BitVec 64) : BitVec 64 := if signed then smulh x y else mulh x y

theorem wideProduct_high (signed : Bool) (x y : BitVec 64) :
    ((wideProduct signed x y) >>> 64).setWidth 64 = high signed x y := by
  cases signed <;> rfl

theorem highRegister_related (related : Related options frame machine cpu) (signed : Bool) :
    Related options frame
      (machine.setR masked.dst (high signed (machine.r masked.dst) (machine.r masked.src)))
      (execStraight arithmetic (highRegisterOps masked signed) cpu) := by
  have loaded := related.setTemporary (show (0 : Fin 16).val < 3 by decide) (cpu.gpr (native masked.dst))
  simp only [highRegisterOps, execStraight, Straight.exec, if_true]
  refine (((loaded.flags _).setTemporary (by decide) _).setTemporary (by decide) _).setInteger _ ?_
  have right := loaded.integer masked.src
  simp only [Cpu.value, right, ← wideProduct_high]
  simp only [Cpu.setGpr, Function.update_self, related.integer]

theorem imulhRBmi2_related (related : Related options frame machine cpu) :
    Related options frame (machine.setR masked.dst (mulh (machine.r masked.dst) (machine.r masked.src)))
      (execStraight arithmetic (imulhRBmi2Ops masked) cpu) := by
  have loaded := related.setTemporary (show (2 : Fin 16).val < 3 by decide) (cpu.gpr (native masked.dst))
  simp only [imulhRBmi2Ops, execStraight, Straight.exec, if_true]
  refine (loaded.setTemporary (by decide) _).setInteger _ ?_
  have right := loaded.integer masked.src
  simp only [Cpu.value, right]
  simp only [Cpu.setGpr, Function.update_self, related.integer]
  rfl

theorem highMemory_related (suitable : Suitable options.config unit) (related : Related options frame machine cpu)
    (signed : Bool) (type : InstructionType) :
    Related options frame
      (machine.setR masked.dst (high signed (machine.r masked.dst)
        ((compileMemory options.config type masked.instr).load machine)))
      (execStraight arithmetic (highMemoryOps options masked signed) cpu) := by
  rw [compileMemory_load]
  unfold highMemoryOps
  split
  · obtain ⟨after, word⟩ := computed_word arithmetic masked suitable related (show (1 : Fin 16).val < 3 by decide)
    rw [List.append_assoc, execStraight_append]
    generalize execStraight arithmetic (addressRegOps options masked 1) cpu = middle at *
    have loaded := after.setTemporary (show (0 : Fin 16).val < 3 by decide) (middle.gpr (native masked.dst))
    have operand : (middle.setGpr 0 (middle.gpr (native masked.dst))).value 0 (.mem scratchpadRcx) = _ := word
    simp only [List.cons_append, List.nil_append, execStraight, Straight.exec, if_true]
    refine (((loaded.flags _).setTemporary (by decide) _).setTemporary (by decide) _).setInteger _ ?_
    rw [show ∀ first : Cpu, first.value 0 (.reg 2) = first.gpr 2 from fun _ => rfl, ← wideProduct_high]
    simp only [Cpu.value] at operand ⊢
    simp only [operand]
    simp only [Cpu.setGpr, Function.update_self, after.integer]
  · have loaded := related.setTemporary (show (0 : Fin 16).val < 3 by decide) (cpu.gpr (native masked.dst))
    have operand := direct_word masked suitable loaded
    simp only [List.cons_append, List.nil_append, execStraight, Straight.exec, if_true]
    refine (((loaded.flags _).setTemporary (by decide) _).setTemporary (by decide) _).setInteger _ ?_
    rw [← wideProduct_high, ← operand]
    simp only [Cpu.value, Cpu.setGpr, Function.update_self, related.integer]
    rfl

theorem imulhMBmi2_related (suitable : Suitable options.config unit) (related : Related options frame machine cpu)
    (type : InstructionType) :
    Related options frame
      (machine.setR masked.dst (mulh (machine.r masked.dst)
        ((compileMemory options.config type masked.instr).load machine)))
      (execStraight arithmetic (imulhMBmi2Ops options masked) cpu) := by
  rw [compileMemory_load]
  unfold imulhMBmi2Ops
  split
  · obtain ⟨after, word⟩ := computed_word arithmetic masked suitable related (show (1 : Fin 16).val < 3 by decide)
    rw [execStraight_append]
    generalize execStraight arithmetic (addressRegOps options masked 1) cpu = middle at *
    have loaded := after.setTemporary (show (2 : Fin 16).val < 3 by decide) (middle.gpr (native masked.dst))
    have operand : (middle.setGpr 2 (middle.gpr (native masked.dst))).value 0 (.mem scratchpadRcx) = _ := word
    simp only [execStraight, Straight.exec, if_true]
    refine (loaded.setTemporary (by decide) _).setInteger _ ?_
    simp only [Cpu.value] at operand ⊢
    simp only [operand]
    simp only [Cpu.setGpr, Function.update_self, after.integer]
    rfl
  · have loaded := related.setTemporary (show (2 : Fin 16).val < 3 by decide) (cpu.gpr (native masked.dst))
    have operand := direct_word masked suitable loaded
    simp only [execStraight, Straight.exec, if_true]
    refine (loaded.setTemporary (by decide) _).setInteger _ ?_
    rw [← operand]
    simp only [Cpu.value, Cpu.setGpr, Function.update_self, related.integer]
    rfl

theorem iaddRs_related (related : Related options frame machine cpu) :
    Related options frame
      (machine.setR masked.dst (machine.r masked.dst + ((machine.r masked.src <<< masked.instr.getModShift) +
        if masked.dst = registerNeedsDisplacement then masked.imm32.signExtend 64 else 0)))
      (execStraight arithmetic (Jit.iaddRsOps masked) cpu) := by
  simp only [Jit.iaddRsOps, execStraight, Straight.exec, if_true]
  refine related.setInteger _ ?_
  simp only [Cpu.address, related.integer, BitVec.add_assoc]

theorem inegR_related (related : Related options frame machine cpu) :
    Related options frame (machine.setR masked.dst (~~~machine.r masked.dst + 1))
      (execStraight arithmetic (inegROps masked) cpu) := by
  refine (related.flags _).setInteger _ ?_
  rw [related.integer, BitVec.neg_eq_not_add]
  rfl

theorem rotated_count (left : Bool) (x : BitVec 64) {count operand : BitVec 64}
    (same : count.toNat % 64 = (operand &&& 63).toNat) :
    rotated left count x =
      if left then x.rotateLeft (operand &&& 63).toNat else x.rotateRight (operand &&& 63).toNat := by
  unfold rotated
  rw [same]

theorem low_count (x : BitVec 64) : ((x.setWidth 32).setWidth 64).toNat % 64 = (x &&& 63).toNat := by
  rw [BitVec.toNat_setWidth_of_le (by decide), BitVec.toNat_setWidth, BitVec.toNat_and,
    Nat.mod_mod_of_dvd _ (by decide)]
  exact (Nat.and_two_pow_sub_one_eq_mod x.toNat 6).symm

theorem constant_count (imm : BitVec 32) :
    (((imm &&& 63).setWidth 8).signExtend 64).toNat % 64 = ((imm.setWidth 64) &&& 63).toNat := by
  have small : (imm &&& 63).toNat < 64 := by
    rw [BitVec.toNat_and]
    exact Nat.lt_of_le_of_lt Nat.and_le_right (by decide)
  have byte : ((imm &&& 63).setWidth 8).toNat = (imm &&& 63).toNat := by
    rw [BitVec.toNat_setWidth]
    exact Nat.mod_eq_of_lt (by omega)
  have positive : ((imm &&& 63).setWidth 8).msb = false := by
    rw [BitVec.msb_eq_decide, byte, decide_eq_false_iff_not]
    omega
  rw [BitVec.signExtend_eq_setWidth_of_msb_false positive, BitVec.toNat_setWidth_of_le (by decide), byte,
    Nat.mod_eq_of_lt small, BitVec.toNat_and, BitVec.toNat_and, BitVec.toNat_setWidth_of_le (by decide)]
  rfl

theorem rotate_related (related : Related options frame machine cpu) (left : Bool) (type : InstructionType) :
    Related options frame
      (machine.setR masked.dst
        (let operand := (compileRegister type (masked.imm32.setWidth 64) masked.instr).source machine
        if left then (machine.r masked.dst).rotateLeft (operand &&& 63).toNat
        else (machine.r masked.dst).rotateRight (operand &&& 63).toNat))
      (execStraight arithmetic (rotateOps masked left) cpu) := by
  unfold rotateOps compileRegister
  rw [masked.register_src, masked.register_dst]
  split
  · simp only [execStraight, Straight.exec, if_true, Bool.false_eq_true, if_false]
    have loaded := related.setTemporary (show (1 : Fin 16).val < 3 by decide)
      ((cpu.value32 0 (.reg (native masked.src))).setWidth 64)
    refine loaded.setInteger _ ?_
    rw [loaded.integer]
    apply rotated_count
    simp only [Cpu.setGpr, Function.update_self, Cpu.value32, related.integer, InstructionByteCode.source]
    exact low_count _
  · simp only [execStraight, Straight.exec, Bool.false_eq_true, if_false]
    refine related.setInteger _ ?_
    rw [related.integer]
    exact rotated_count _ _ (constant_count _)

theorem iswapR_related (related : Related options frame machine cpu) (apart : masked.src ≠ masked.dst) :
    Related options frame
      ((machine.setR masked.src (machine.r masked.dst)).setR masked.dst (machine.r masked.src))
      (execStraight arithmetic (iswapROps masked) cpu) := by
  have first := related.setInteger masked.dst (related.integer masked.src)
  have second := first.setInteger masked.src (related.integer masked.dst)
  have order : (machine.setR masked.dst (machine.r masked.src)).setR masked.src (machine.r masked.dst) =
      (machine.setR masked.src (machine.r masked.dst)).setR masked.dst (machine.r masked.src) := by
    unfold Machine.setR
    rw [Function.update_comm apart]
  rw [← order]
  exact second

theorem imulStored_related {eMask : Vec128} {storage : List (BitVec 64)} (framed : Framed options eMask storage frame)
    (related : Related options frame machine cpu) {used : Nat} (room : used < 16) {value : BitVec 64}
    (stored : storage[used]? = some value) :
    Related options frame (machine.setR masked.dst (machine.r masked.dst * value))
      (execStraight arithmetic (imulStoredOps masked used) cpu) := by
  refine (related.flags _).setInteger _ ?_
  rw [related.integer]
  exact congrArg _ (related.reciprocal framed room stored)

theorem imulConstant_related (related : Related options frame machine cpu) :
    Related options frame
      (machine.setR masked.dst (machine.r masked.dst * reciprocalFast (masked.imm32.setWidth 64)))
      (execStraight arithmetic (imulConstantOps masked) cpu) := by
  have loaded := related.setTemporary (show (0 : Fin 16).val < 3 by decide) (reciprocalFast (masked.imm32.setWidth 64))
  simp only [imulConstantOps, execStraight, Straight.exec, if_true]
  refine (loaded.flags _).setInteger _ ?_
  simp only [Cpu.value, loaded.integer]
  simp only [Cpu.setGpr, Function.update_self]

theorem istore_related {eMask : Vec128} {storage : List (BitVec 64)} (framed : Framed options eMask storage frame)
    (suitable : Suitable options.config unit) (related : Related options frame machine cpu) :
    Related options frame
      { machine with
        scratchpad := machine.scratchpad.store64 ((machine.r masked.dst + masked.imm32.signExtend 64) &&&
          (storeMask options masked).setWidth 64).toNat (machine.r masked.src) }
      (execStraight arithmetic (istoreOps options masked) cpu) := by
  have covers : Covers options.config (storeMask options masked) := by
    unfold storeMask
    split
    · exact suitable.sizes.addressMask _
    · exact suitable.sizes.scratchpadL3Mask
  obtain ⟨after, address⟩ := address_related arithmetic masked related (storeMask options masked)
    (show (0 : Fin 16).val < 3 by decide) masked.dst
  unfold istoreOps
  rw [execStraight_append]
  generalize execStraight arithmetic (addressOps masked (storeMask options masked) 0 masked.dst) cpu = middle at *
  have stored := after.store framed (masked_inside covers (machine.r masked.dst + masked.imm32.signExtend 64))
    (machine.r masked.src)
  simp only [execStraight, Straight.exec, if_true, Cpu.address, scratchpadRax, BitVec.shiftLeft_zero, sum_zero, address,
    after.integer]
  exact stored

end Integer

/-! ## Floating point -/

section Float
variable {options : JitOptions} {frame cpu : Cpu} {machine : Machine} {unit : FloatUnit} {masked : MaskedInstruction}

theorem nativeXmm_f (masked : MaskedInstruction) :
    nativeXmm 0 (dstFlt masked) = nativeFloat (.f (registerFlt masked.instr.dst)) := by
  have small := dstFlt_lt masked
  apply Fin.ext
  simp only [nativeXmm, nativeFloat, dstFlt, registerFlt, Fin.val_ofNat] at small ⊢
  omega

theorem nativeXmm_e (masked : MaskedInstruction) :
    nativeXmm 4 (dstFlt masked) = nativeFloat (.e (registerFlt masked.instr.dst)) := by
  have small := dstFlt_lt masked
  apply Fin.ext
  simp only [nativeXmm, nativeFloat, dstFlt, registerFlt, Fin.val_ofNat] at small ⊢
  omega

theorem nativeXmm_a (masked : MaskedInstruction) :
    nativeXmm 8 (srcFlt masked) = nativeFloat (.a (registerFlt masked.instr.src)) := by
  have small := srcFlt_lt masked
  apply Fin.ext
  simp only [nativeXmm, nativeFloat, srcFlt, registerFlt, Fin.val_ofNat] at small ⊢
  omega

theorem nativeXmm_swap (masked : MaskedInstruction) :
    nativeXmm 0 masked.dst = nativeFloat
      (if masked.dst.val < 4 then .f (registerFlt masked.instr.dst) else .e (registerFlt masked.instr.dst)) := by
  have small := masked.dst.isLt
  apply Fin.ext
  split
  all_goals
    simp only [nativeXmm, nativeFloat, registerFlt, Fin.val_ofNat, MaskedInstruction.dst] at *
    omega

theorem packed_map2 (op : BitVec 64 → BitVec 64 → BitVec 64) (x y : Vec128) :
    x.packed.map2 op y.packed = (x.map2 op y).packed := rfl

theorem fswapR_related (arithmetic : PackedArithmetic) (related : Related options frame machine cpu)
    {register : FloatRegister} (same : nativeXmm 0 masked.dst = nativeFloat register) :
    Related options frame (machine.setFloat (machine.float register).swap register)
      (execStraight arithmetic (fswapROps masked) cpu) := by
  simp only [fswapROps, execStraight, Straight.exec, same]
  refine related.setFloat register ?_
  rw [related.float]
  exact shuffle_swap _

theorem floatRegister_related (related : Related options frame machine cpu) {op : PackedOp} {base : Nat}
    {register : FloatRegister} (same : nativeXmm base (dstFlt masked) = nativeFloat register)
    {operation : RoundingMode → BitVec 64 → BitVec 64 → BitVec 64}
    (means : ∀ mode x y, op.eval unit.packed mode x y = x.map2 (operation mode) y) :
    Related options frame
      (machine.setFloat ((machine.float register).map2 (operation machine.rounding)
        (machine.float (.a (registerFlt masked.instr.src)))) register)
      (execStraight unit.packed (floatRegisterOps masked op base) cpu) := by
  simp only [floatRegisterOps, execStraight, Straight.exec, same, nativeXmm_a, means]
  refine related.setFloat register ?_
  rw [related.float, related.float, related.rounding, packed_map2]

variable (masked) in
theorem converted_related (suitable : Suitable options.config unit) (related : Related options frame machine cpu) :
    Related options frame machine
        (execStraight unit.packed (addressRegOps options masked 0 ++ [(.cvtdq2pd 12 scratchpadRax, 0)]) cpu) ∧
      (execStraight unit.packed (addressRegOps options masked 0 ++ [(.cvtdq2pd 12 scratchpadRax, 0)]) cpu).xmm 12 =
        (Vec128.cvtPackedInt unit (machine.scratchpad.load64 ((machine.r masked.src + masked.imm32.signExtend 64) &&&
          (options.config.addressMask masked.instr.getModMem).setWidth 64).toNat)).packed := by
  obtain ⟨after, word⟩ := computed_word unit.packed masked suitable related (show (0 : Fin 16).val < 3 by decide)
  rw [execStraight_append]
  refine ⟨after.setVector _, ?_⟩
  generalize execStraight unit.packed (addressRegOps options masked 0) cpu = middle at *
  have loaded : loadMemory middle.memory (middle.address 0 scratchpadRax) = _ := word
  simp only [execStraight, Straight.exec, Cpu.setXmm, Function.update_self, loaded]
  rfl

theorem floatMemory_related (suitable : Suitable options.config unit) (related : Related options frame machine cpu)
    {op : PackedOp} {operation : RoundingMode → BitVec 64 → BitVec 64 → BitVec 64}
    (means : ∀ mode x y, op.eval unit.packed mode x y = x.map2 (operation mode) y) :
    Related options frame
      (machine.setFloat ((machine.float (.f (registerFlt masked.instr.dst))).map2 (operation machine.rounding)
        (Vec128.cvtPackedInt unit (machine.scratchpad.load64 ((machine.r masked.src + masked.imm32.signExtend 64) &&&
          (options.config.addressMask masked.instr.getModMem).setWidth 64).toNat)))
        (.f (registerFlt masked.instr.dst)))
      (execStraight unit.packed (floatMemoryOps options masked op) cpu) := by
  obtain ⟨after, vector⟩ := converted_related masked suitable related
  have split : floatMemoryOps options masked op =
      (addressRegOps options masked 0 ++ [(.cvtdq2pd 12 scratchpadRax, 0)]) ++
        [(.packed op (nativeXmm 0 (dstFlt masked)) 12, 0)] := by
    rw [floatMemoryOps, List.append_assoc]
    rfl
  rw [split, execStraight_append]
  generalize execStraight unit.packed (addressRegOps options masked 0 ++ [(.cvtdq2pd 12 scratchpadRax, 0)]) cpu =
    middle at *
  simp only [execStraight, Straight.exec, nativeXmm_f, means, vector]
  refine after.setFloat _ ?_
  rw [after.float, after.rounding, packed_map2]

theorem fscalR_related (arithmetic : PackedArithmetic) {eMask : Vec128} {storage : List (BitVec 64)}
    (framed : Framed options eMask storage frame) (related : Related options frame machine cpu) :
    Related options frame
      (machine.setFloat ((machine.float (.f (registerFlt masked.instr.dst))).map (· ^^^ 0x80F0000000000000))
        (.f (registerFlt masked.instr.dst)))
      (execStraight arithmetic (fscalROps masked) cpu) := by
  have scale := related.constants 15 (by decide)
  simp only [fscalROps, execStraight, Straight.exec, nativeXmm_f, PackedOp.eval, scale, framed.scale]
  refine related.setFloat _ ?_
  rw [related.float]
  rfl

theorem fsqrtR_related (related : Related options frame machine cpu) :
    Related options frame
      (machine.setFloat ((machine.float (.e (registerFlt masked.instr.dst))).map (unit.sqrt machine.rounding))
        (.e (registerFlt masked.instr.dst)))
      (execStraight unit.packed (fsqrtROps masked) cpu) := by
  simp only [fsqrtROps, execStraight, Straight.exec, nativeXmm_e, PackedOp.eval]
  refine related.setFloat _ ?_
  rw [related.float, related.rounding]
  rfl

/-- The constant in `xmm13` has zeros where a converted integer has them. -/
theorem mantissa_masked {x : BitVec 64} (zeros : x &&& 0x3FFFFF = 0) :
    x &&& 0x00FFFFFFFFC00000 = x &&& dynamicMantissaMask := by
  have split : dynamicMantissaMask = 0x00FFFFFFFFC00000 ||| 0x3FFFFF := by decide
  rw [split, BitVec.and_or_distrib_left, zeros]
  exact (BitVec.or_zero).symm

theorem masked_lane {x mask : BitVec 64} (zeros : x &&& 0x3FFFFF = 0) (apart : mask &&& 0x00FFFFFFFFC00000 = 0) :
    (x &&& 0x00FFFFFFFFC00000) ||| mask = (x &&& dynamicMantissaMask) ||| mask ∧
      choose 0x00FFFFFFFFC00000 x mask = (x &&& dynamicMantissaMask) ||| mask := by
  have kept : mask &&& ~~~(0x00FFFFFFFFC00000 : BitVec 64) = mask := by
    have whole : mask = (mask &&& 0x00FFFFFFFFC00000) ||| (mask &&& ~~~(0x00FFFFFFFFC00000 : BitVec 64)) := by
      rw [← BitVec.and_or_distrib_left, BitVec.or_not_self, BitVec.and_allOnes]
    rw [apart] at whole
    exact (whole.trans BitVec.zero_or).symm
  rw [choose, kept, mantissa_masked zeros]
  exact ⟨rfl, rfl⟩

theorem getFloatMask_apart (entropy : BitVec 64) : getFloatMask entropy &&& 0x00FFFFFFFFC00000 = 0 := by
  have field : (0x00FFFFFFFFC00000 : BitVec 64) = (BitVec.allOnes 34).setWidth 64 <<< 22 := by decide
  have whole : getFloatMask entropy = (entropy &&& (BitVec.allOnes 22).setWidth 64) |||
      (((0x3 : BitVec 64) <<< 8) ||| ((entropy >>> 60) <<< 4)) <<< 52 := rfl
  rw [field, whole]
  apply BitVec.eq_of_getLsbD_eq
  intro position bound
  simp only [BitVec.getLsbD_and, BitVec.getLsbD_or, BitVec.getLsbD_shiftLeft, BitVec.getLsbD_setWidth,
    BitVec.getLsbD_allOnes, BitVec.getLsbD_ushiftRight]
  grind

theorem maskOps_related {eMask : Vec128} {storage : List (BitVec 64)} (suitable : Suitable options.config unit)
    (framed : Framed options eMask storage frame)
    (masks : eMask.lo &&& 0x00FFFFFFFFC00000 = 0 ∧ eMask.hi &&& 0x00FFFFFFFFC00000 = 0)
    (related : Related options frame machine cpu) {bytes : BitVec 64}
    (vector : cpu.xmm 12 = (Vec128.cvtPackedInt unit bytes).packed) :
    Related options frame machine (execStraight unit.packed (maskOps options) cpu) ∧
      (execStraight unit.packed (maskOps options) cpu).xmm 12 =
        (maskRegisterExponentMantissa eMask (Vec128.cvtPackedInt unit bytes)).packed := by
  have lo := masked_lane (suitable.converted (bytes.setWidth 32)) masks.1
  have hi := masked_lane (suitable.converted ((bytes >>> 32).setWidth 32)) masks.2
  have mantissa := (related.constants 13 (by decide)).trans framed.mantissa
  have exponent := (related.constants 14 (by decide)).trans framed.exponent
  unfold maskOps
  split
  · refine ⟨related.setVector _, ?_⟩
    have selector : Fin.ofNat 16 ((((0xd0 : BitVec 8).signExtend 64).extractLsb' 4 4).toNat) = 13 := by decide
    simp only [execStraight, Straight.exec, selector, mantissa, exponent, vector, Cpu.setXmm, Function.update_self]
    exact congrArg₂ Packed.mk lo.2 hi.2
  · refine ⟨(related.setVector _).setVector _, ?_⟩
    have other : (14 : Fin 16) ≠ 12 := by decide
    simp only [execStraight, Straight.exec, mantissa, exponent, vector, Cpu.setXmm, Function.update_self,
      Function.update_of_ne other]
    exact congrArg₂ Packed.mk lo.1 hi.1

theorem fdivM_related {eMask : Vec128} {storage : List (BitVec 64)} (suitable : Suitable options.config unit)
    (framed : Framed options eMask storage frame)
    (masks : eMask.lo &&& 0x00FFFFFFFFC00000 = 0 ∧ eMask.hi &&& 0x00FFFFFFFFC00000 = 0)
    (related : Related options frame machine cpu) :
    Related options frame
      (machine.setFloat ((machine.float (.e (registerFlt masked.instr.dst))).map2 (unit.div machine.rounding)
        (maskRegisterExponentMantissa eMask (Vec128.cvtPackedInt unit (machine.scratchpad.load64
          ((machine.r masked.src + masked.imm32.signExtend 64) &&&
            (options.config.addressMask masked.instr.getModMem).setWidth 64).toNat))))
        (.e (registerFlt masked.instr.dst)))
      (execStraight unit.packed (fdivMOps options masked) cpu) := by
  obtain ⟨converted, vector⟩ := converted_related masked suitable related
  unfold fdivMOps
  rw [execStraight_append, execStraight_append]
  generalize execStraight unit.packed (addressRegOps options masked 0 ++ [(.cvtdq2pd 12 scratchpadRax, 0)]) cpu =
    loaded at *
  obtain ⟨after, divisor⟩ := maskOps_related suitable framed masks converted vector
  generalize execStraight unit.packed (maskOps options) loaded = middle at *
  simp only [execStraight, Straight.exec, nativeXmm_e, PackedOp.eval, divisor]
  refine after.setFloat _ ?_
  rw [after.float, after.rounding, packed_map2]
  rfl

end Float

/-! ## All templates -/

section Templates
variable (options : JitOptions) (hasBMI2 : Bool) (masked : MaskedInstruction)

/-- The operations with one template that goes on to the next instruction. -/
def InstructionType.simple : InstructionType → Bool
  | .imulRcp | .cbranch | .cfround => false
  | _ => true

def templateOps : InstructionType → List Constanted
  | .iaddRs => Jit.iaddRsOps masked
  | .iaddM => integerMemoryOps options masked .add
  | .isubR => integerRegisterOps masked .sub
  | .isubM => integerMemoryOps options masked .sub
  | .imulR => imulROps masked
  | .imulM => imulMOps options masked
  | .imulhR => if hasBMI2 then imulhRBmi2Ops masked else highRegisterOps masked false
  | .imulhM => if hasBMI2 then imulhMBmi2Ops options masked else highMemoryOps options masked false
  | .ismulhR => highRegisterOps masked true
  | .ismulhM => highMemoryOps options masked true
  | .inegR => inegROps masked
  | .ixorR => integerRegisterOps masked .xor
  | .ixorM => integerMemoryOps options masked .xor
  | .irorR => rotateOps masked false
  | .irolR => rotateOps masked true
  | .iswapR => if masked.src ≠ masked.dst then iswapROps masked else []
  | .fswapR => fswapROps masked
  | .faddR => floatRegisterOps masked .addpd 0
  | .faddM => floatMemoryOps options masked .addpd
  | .fsubR => floatRegisterOps masked .subpd 0
  | .fsubM => floatMemoryOps options masked .subpd
  | .fscalR => fscalROps masked
  | .fmulR => floatRegisterOps masked .mulpd 4
  | .fdivM => fdivMOps options masked
  | .fsqrtR => fsqrtROps masked
  | .istore => istoreOps options masked
  | .nop => [(.nop, 0)]
  | .imulRcp | .cbranch | .cfround => []

theorem assembles_template {type : InstructionType} (simple : type.simple = true) :
    Assembles (templateBytes options hasBMI2 masked type) (templateOps options hasBMI2 masked type) := by
  cases type with
  | iaddRs => exact assembles_iaddRs masked
  | iaddM => exact assembles_integerMemory options masked (.add, _, _) (by simp [integerMemoryWords])
  | isubR => exact assembles_isubR masked
  | isubM => exact assembles_integerMemory options masked (.sub, _, _) (by simp [integerMemoryWords])
  | imulR => exact assembles_imulR masked
  | imulM => exact assembles_imulM options masked
  | imulhR =>
    cases hasBMI2 with
    | false => exact assembles_imulhR masked
    | true => exact assembles_imulhRBmi2 masked
  | imulhM =>
    cases hasBMI2 with
    | false => exact assembles_highMemory options masked (false, _, _) (by simp [highMemoryWords])
    | true => exact assembles_imulhMBmi2 options masked
  | ismulhR => exact assembles_ismulhR masked
  | ismulhM => exact assembles_highMemory options masked (true, _, _) (by simp [highMemoryWords])
  | inegR => exact assembles_inegR masked
  | ixorR => exact assembles_ixorR masked
  | ixorM => exact assembles_integerMemory options masked (.xor, _, _) (by simp [integerMemoryWords])
  | irorR => exact assembles_rotate masked (false, _, _) (by simp [rotateWords])
  | irolR => exact assembles_rotate masked (true, _, _) (by simp [rotateWords])
  | iswapR =>
    simp only [templateBytes, templateOps]
    by_cases apart : masked.src ≠ masked.dst
    · rw [if_pos apart, if_pos apart]
      exact assembles_iswapR masked
    · rw [if_neg apart, if_neg apart]
      exact .nil
  | fswapR => exact assembles_fswapR masked
  | faddR => exact assembles_floatRegister masked (.addpd, 0, _) (by simp [floatRegisterWords])
  | faddM => exact assembles_floatMemory options masked (.addpd, _) (by simp [floatMemoryWords])
  | fsubR => exact assembles_floatRegister masked (.subpd, 0, _) (by simp [floatRegisterWords])
  | fsubM => exact assembles_floatMemory options masked (.subpd, _) (by simp [floatMemoryWords])
  | fscalR => exact assembles_fscalR masked
  | fmulR => exact assembles_floatRegister masked (.mulpd, 4, _) (by simp [floatRegisterWords])
  | fdivM => exact assembles_fdivM options masked
  | fsqrtR => exact assembles_fsqrtR masked
  | istore => exact assembles_istore options masked
  | nop => exact assembles_of_decodeMany (show decodeMany 1 [0x90] = some [(.nop, 0)] by decide)
  | imulRcp | cbranch | cfround => cases simple

variable {options masked} {frame cpu : Cpu} {machine : Machine} {unit : FloatUnit} {eMask : Vec128}
  {storage : List (BitVec 64)}

theorem template_related (suitable : Suitable options.config unit) (framed : Framed options eMask storage frame)
    (masks : eMask.lo &&& 0x00FFFFFFFFC00000 = 0 ∧ eMask.hi &&& 0x00FFFFFFFFC00000 = 0)
    (related : Related options frame machine cpu) {type : InstructionType} (simple : type.simple = true)
    (isType : options.config.instructionType masked.instr.opcode = type) (i : Nat) (usage : RegisterUsage) (pc : Int) :
    Related options frame
      (executeInstruction unit eMask (compileInstruction options.config masked.instr i usage).1 pc machine).2
      (execStraight unit.packed (templateOps options hasBMI2 masked type) cpu) := by
  unfold compileInstruction
  rw [isType]
  cases type with
  | iaddRs =>
    simp only [executeInstruction, InstructionByteCode.source, masked.register_dst, masked.register_src, ne_eq, ite_not]
    exact iaddRs_related unit.packed related
  | iaddM =>
    simp only [executeInstruction, compileMemory_type, compileMemory_idst, masked.register_dst]
    exact integerMemory_related unit.packed suitable related (show IntegerOp.add.stores = true from rfl) .iaddM
  | isubM =>
    simp only [executeInstruction, compileMemory_type, compileMemory_idst, masked.register_dst]
    exact integerMemory_related unit.packed suitable related (show IntegerOp.sub.stores = true from rfl) .isubM
  | ixorM =>
    simp only [executeInstruction, compileMemory_type, compileMemory_idst, masked.register_dst]
    exact integerMemory_related unit.packed suitable related (show IntegerOp.xor.stores = true from rfl) .ixorM
  | isubR =>
    simp only [executeInstruction, compileRegister_type, compileRegister_idst, masked.register_dst]
    exact integerRegister_related unit.packed related (show IntegerOp.sub.stores = true from rfl) .isubR
  | ixorR =>
    simp only [executeInstruction, compileRegister_type, compileRegister_idst, masked.register_dst]
    exact integerRegister_related unit.packed related (show IntegerOp.xor.stores = true from rfl) .ixorR
  | imulR =>
    simp only [executeInstruction, compileRegister_type, compileRegister_idst, masked.register_dst]
    exact imulR_related unit.packed related .imulR
  | imulM =>
    simp only [executeInstruction, compileMemory_type, compileMemory_idst, masked.register_dst]
    exact imulM_related unit.packed suitable related .imulM
  | imulhR =>
    simp only [executeInstruction, InstructionByteCode.source, masked.register_dst, masked.register_src]
    cases hasBMI2 with
    | false => exact highRegister_related unit.packed related false
    | true => exact imulhRBmi2_related unit.packed related
  | imulhM =>
    simp only [executeInstruction, compileMemory_type, compileMemory_idst, masked.register_dst]
    cases hasBMI2 with
    | false => exact highMemory_related unit.packed suitable related false .imulhM
    | true => exact imulhMBmi2_related unit.packed suitable related .imulhM
  | ismulhR =>
    simp only [executeInstruction, InstructionByteCode.source, masked.register_dst, masked.register_src]
    exact highRegister_related unit.packed related true
  | ismulhM =>
    simp only [executeInstruction, compileMemory_type, compileMemory_idst, masked.register_dst]
    exact highMemory_related unit.packed suitable related true .ismulhM
  | inegR =>
    simp only [executeInstruction, masked.register_dst]
    exact inegR_related unit.packed related
  | irorR =>
    simp only [executeInstruction, compileRegister_type, compileRegister_idst, masked.register_dst]
    exact rotate_related unit.packed related false .irorR
  | irolR =>
    simp only [executeInstruction, compileRegister_type, compileRegister_idst, masked.register_dst]
    exact rotate_related unit.packed related true .irolR
  | iswapR =>
    simp only [masked.register_dst, masked.register_src, templateOps]
    by_cases apart : masked.src ≠ masked.dst
    · rw [if_pos apart, if_pos apart]
      exact iswapR_related unit.packed related apart
    · rw [if_neg apart, if_neg apart]
      exact related
  | fswapR =>
    simp only [executeInstruction, masked.register_dst]
    exact fswapR_related unit.packed related (nativeXmm_swap masked)
  | faddR => exact floatRegister_related related (nativeXmm_f masked) fun _ _ _ => rfl
  | fsubR => exact floatRegister_related related (nativeXmm_f masked) fun _ _ _ => rfl
  | fmulR => exact floatRegister_related related (nativeXmm_e masked) fun _ _ _ => rfl
  | faddM =>
    simp only [executeInstruction, compileFloatMemory, InstructionByteCode.load, InstructionByteCode.source,
      masked.register_src]
    exact floatMemory_related suitable related fun _ _ _ => rfl
  | fsubM =>
    simp only [executeInstruction, compileFloatMemory, InstructionByteCode.load, InstructionByteCode.source,
      masked.register_src]
    exact floatMemory_related suitable related fun _ _ _ => rfl
  | fscalR => exact fscalR_related unit.packed framed related
  | fdivM =>
    simp only [executeInstruction, compileFloatMemory, InstructionByteCode.load, InstructionByteCode.source,
      masked.register_src]
    exact fdivM_related suitable framed masks related
  | fsqrtR => exact fsqrtR_related related
  | istore =>
    have level : (if masked.instr.getModCond < storeL3Condition then options.config.addressMask masked.instr.getModMem
        else options.config.scratchpadL3Mask) = storeMask options masked := by
      have limit : masked.instr.getModCond < storeL3Condition ↔ masked.instr.mod.toNat < storeL3Condition <<< 4 := by
        unfold Instruction.getModCond storeL3Condition
        rw [BitVec.toNat_ushiftRight, Nat.shiftRight_eq_div_pow]
        omega
      simp only [storeMask, limit]
    simp only [executeInstruction, InstructionByteCode.source, masked.register_dst, masked.register_src, level]
    exact istore_related unit.packed framed suitable related
  | nop => exact related
  | imulRcp | cbranch | cfround => cases simple

end Templates

end Xmrig.RandomX
