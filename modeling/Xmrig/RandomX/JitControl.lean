import Xmrig.RandomX.JitSimulation

/-! The code of CFROUND and of CBRANCH.

CFROUND takes two bits of a rotated register as an index into the table of control
words. On AMD processors the last index is remembered and the control word is loaded
only where it changes. CBRANCH adds, tests and jumps back to the code behind the
instruction that wrote its register last; bytes without an effect in front of it keep
the test and the jump inside a block of 32 bytes.
-/

set_option autoImplicit false

namespace Xmrig.RandomX

open Foundation Jit

/-! ## CFROUND -/

section Rounding

def modeIndex (mode : RoundingMode) : BitVec 64 := mode.setWidth 64 * 4

theorem getLsbD_rotateRight {x : BitVec 64} {count position : Nat} (inside : position < 64) :
    (x.rotateRight count).getLsbD position = x.getLsbD ((position + count) % 64) := by
  rw [BitVec.getLsbD_rotateRight, Bool.cond_decide]
  split
  · congr 1
    omega
  · rw [decide_eq_true inside, Bool.true_and]
    congr 1
    omega

theorem cfroundRotate_toNat (masked : MaskedInstruction) :
    (cfroundRotate masked).toNat = ((masked.imm32 &&& 63).toNat + 62) % 64 := by
  have small : (masked.imm32 &&& 63).toNat ≤ 63 := by
    rw [BitVec.toNat_and]
    exact Nat.and_le_right
  unfold cfroundRotate
  rw [BitVec.toNat_and, BitVec.toNat_sub]
  refine (Nat.and_two_pow_sub_one_eq_mod _ 6).trans ?_
  change (2 ^ 32 - 2 + _) % 2 ^ 32 % 64 = _
  omega

/-- Two places less of rotation put the mode where an index of words has it. -/
theorem rotated_mode (masked : MaskedInstruction) (x : BitVec 64) :
    ((((rotated false ((cfroundRotate masked).setWidth 64) x).setWidth 32) &&& (12 : BitVec 64).setWidth 32).setWidth 64) =
      modeIndex ((x.rotateRight ((masked.imm32 &&& 63).setWidth 64).toNat).setWidth 2) := by
  have count := cfroundRotate_toNat masked
  have wide : ((masked.imm32 &&& 63).setWidth 64).toNat = (masked.imm32 &&& 63).toNat :=
    BitVec.toNat_setWidth_of_le (by decide)
  have same : ((cfroundRotate masked).setWidth 64).toNat % 64 = ((masked.imm32 &&& 63).toNat + 62) % 64 := by
    rw [BitVec.toNat_setWidth_of_le (by decide), count, Nat.mod_mod]
  have index : ∀ mode : RoundingMode, modeIndex mode = mode.setWidth 64 <<< 2 := by decide
  have twelve : ∀ position < 64, ((12 : BitVec 64).setWidth 32).getLsbD position = decide (position = 2 ∨ position = 3) := by
    decide
  rw [index, wide]
  unfold rotated
  rw [if_neg Bool.false_ne_true, same]
  generalize (masked.imm32 &&& 63).toNat = n
  apply BitVec.eq_of_getLsbD_eq
  intro position bound
  simp only [BitVec.getLsbD_setWidth, BitVec.getLsbD_and, BitVec.getLsbD_shiftLeft, twelve position bound]
  by_cases second : position = 2 ∨ position = 3
  · rw [getLsbD_rotateRight bound, getLsbD_rotateRight (by omega)]
    have places : (position + (n + 62) % 64) % 64 = (position - 2 + n) % 64 := by omega
    rw [places]
    rcases second with rfl | rfl <;> simp
  · have outside : position < 2 ∨ ¬ position - 2 < 2 := by omega
    rcases outside with low | high
    · simp [second, low]
    · simp [second, high]

theorem controlWord_mode : ∀ mode : RoundingMode, (controlWord mode).extractLsb' 13 2 = mode := by decide

theorem cfround_forms :
    (∀ src : Fin 8, decodeForm (wordBytes (0x00C08B49 + (reg32 src <<< 16)) 3) =
      some ((.next (.mov true 0 (.reg (native src))), .none), [])) ∧
    (∀ count : Fin 64, decodeMany 1 (wordBytes (0x00C8C148 + (BitVec.ofNat 32 count.val <<< 24)) 4) =
      some [(.rotate false 0 false, BitVec.ofNat 64 count.val)]) ∧
    (∀ (src : Fin 8) (count : Fin 64),
      decodeMany 1 (quadPrefix (0xC0F0FBC3C4 ||| (reg64 src <<< 32) ||| (BitVec.ofNat 64 count.val <<< 40)) 6) =
        some [(.rorx 0 (native src), BitVec.ofNat 64 count.val)]) ∧
    (decodeMany 1 [0x83, 0xE0, 0x0C] = some [(.arith .and false 0 .constant, 12)] ∧
      decode [0x0F, 0xAE, 0x14, 0x04] = some (⟨.next (.ldmxcsr { base := 4, index := some (0, 0) }), 0⟩, []) ∧
      decode [0x3B, 0x44, 0x24, 0x20] = some (⟨.next (.arith .cmp false 0 (.mem { base := 4 })), 32⟩, []) ∧
      decode [0x74, 0x0A] = some (⟨.jump true, 10⟩, []) ∧ decode [0xEB, 0x00] = some (⟨.jump false, 0⟩, []) ∧
      decode [0x89, 0x44, 0x24, 0x20] = some (⟨.next (.store false { base := 4 } 0), 32⟩, [])) := by
  refine ⟨by decide +kernel, by decide +kernel, ?_, by decide +kernel⟩
  -- One register after the other keeps what the kernel evaluates small.
  intro src
  fin_cases src <;> decide +kernel

end Rounding

section Round
variable {options : JitOptions} {frame cpu : Cpu} {machine : Machine} {eMask : Vec128} {storage : List (BitVec 64)}
  {masked : MaskedInstruction}

def cfroundHead (hasBMI2 : Bool) (masked : MaskedInstruction) : List (BitVec 8) :=
  if hasBMI2 then
    quadPrefix (0xC0F0FBC3C4 ||| (reg64 masked.src <<< 32) ||| ((cfroundRotate masked).setWidth 64 <<< 40)) 6
  else
    wordBytes (0x00C08B49 + (reg32 masked.src <<< 16)) 3 ++ wordBytes (0x00C8C148 + (cfroundRotate masked <<< 24)) 4

theorem cfround_template (options : JitOptions) (hasBMI2 : Bool) (masked : MaskedInstruction) :
    templateBytes options hasBMI2 masked .cfround = cfroundHead hasBMI2 masked ++ cfroundTail options := by
  cases hasBMI2 <;> rfl

def cfroundHeadOps (hasBMI2 : Bool) (masked : MaskedInstruction) : List Constanted :=
  (if hasBMI2 then [(.rorx 0 (native masked.src), (cfroundRotate masked).setWidth 64)]
  else [(.mov true 0 (.reg (native masked.src)), 0), (.rotate false 0 false, (cfroundRotate masked).setWidth 64)]) ++
    [(.arith .and false 0 .constant, 12)]

theorem assembles_cfroundHead (hasBMI2 : Bool) (masked : MaskedInstruction) :
    Assembles (cfroundHead hasBMI2 masked ++ [0x83, 0xE0, 0x0C]) (cfroundHeadOps hasBMI2 masked) := by
  obtain ⟨load, rotate, rotateBmi2, mask, _⟩ := cfround_forms
  have small : (cfroundRotate masked).toNat < 64 := by
    rw [cfroundRotate_toNat]
    exact Nat.mod_lt _ (by decide)
  have word : BitVec.ofNat 32 (cfroundRotate masked).toNat = cfroundRotate masked :=
    (BitVec.ofNat_toNat _ _).trans (BitVec.setWidth_eq _)
  have quad : BitVec.ofNat 64 (cfroundRotate masked).toNat = (cfroundRotate masked).setWidth 64 := BitVec.ofNat_toNat _ _
  refine Assembles.append ?_ (assembles_of_decodeMany mask)
  cases hasBMI2 with
  | false =>
    have rotated := rotate ⟨_, small⟩
    simp only [word, quad] at rotated
    exact (assembles_form (load masked.src)).append (assembles_of_decodeMany rotated)
  | true =>
    have rotated := rotateBmi2 masked.src ⟨_, small⟩
    simp only [quad] at rotated
    exact assembles_of_decodeMany rotated

def modeOf (masked : MaskedInstruction) (machine : Machine) : RoundingMode :=
  ((machine.r masked.src).rotateRight ((masked.imm32 &&& 63).setWidth 64).toNat).setWidth 2

variable (masked) in
/-- After the head and the mask the index stands in `eax`. -/
theorem cfroundHead_related (arithmetic : PackedArithmetic) (hasBMI2 : Bool)
    (related : Related options frame machine cpu) :
    Related options frame machine (execStraight arithmetic (cfroundHeadOps hasBMI2 masked) cpu) ∧
      (execStraight arithmetic (cfroundHeadOps hasBMI2 masked) cpu).gpr 0 = modeIndex (modeOf masked machine) := by
  have index := rotated_mode masked (machine.r masked.src)
  unfold cfroundHeadOps
  rw [execStraight_append]
  cases hasBMI2 with
  | false =>
    refine ⟨(((related.setTemporary (by decide) _).setTemporary (by decide) _).flags _).setTemporary (by decide) _, ?_⟩
    simp only [execStraight, Straight.exec, IntegerOp.eval, IntegerOp.stores, if_true, Cpu.setGpr,
      Function.update_self, Cpu.value, Cpu.value32, Bool.false_eq_true, if_false, related.integer]
    exact index
  | true =>
    refine ⟨((related.setTemporary (by decide) _).flags _).setTemporary (by decide) _, ?_⟩
    simp only [execStraight, Straight.exec, IntegerOp.eval, IntegerOp.stores, if_true, Cpu.setGpr,
      Function.update_self, Cpu.value32, related.integer]
    exact index

/-- The new control word, where the index is not remembered. -/
theorem Related.round (related : Related options frame machine cpu) (mode : RoundingMode) (intel : options.amd = false) :
    Related options frame { machine with rounding := mode } { cpu with mxcsr := controlWord mode } where
  integer := related.integer
  float register := by
    have same : ({ machine with rounding := mode } : Machine).float register = machine.float register := by
      cases register <;> rfl
    rw [same]
    exact related.float register
  pointers := related.pointers
  constants := related.constants
  rounding := controlWord_mode mode
  scratchpad := related.scratchpad
  outside := related.outside
  cached amd := by
    rw [intel] at amd
    cases amd

theorem Related.remember (framed : Framed options eMask storage frame) (related : Related options frame machine cpu)
    (mode : RoundingMode) :
    Related options frame { machine with rounding := mode }
      { cpu with
        mxcsr := controlWord mode
        memory := storeMemory cpu.memory (cpu.gpr 4 + 32) 4 (modeIndex mode) } := by
  have base := related.pointers 4 (by decide) (by decide)
  have elsewhere : ∀ other, (∀ k < 4, other ≠ frame.gpr 4 + BitVec.ofNat 64 (32 + k)) →
      storeMemory cpu.memory (cpu.gpr 4 + 32) 4 (modeIndex mode) other = cpu.memory other := by
    intro other apart
    apply if_neg
    intro near
    refine apart (other - (cpu.gpr 4 + 32)).toNat near ?_
    rw [BitVec.ofNat_add, BitVec.ofNat_toNat, BitVec.setWidth_eq, ← BitVec.add_assoc, base, BitVec.add_comm]
    exact (BitVec.sub_add_cancel _ _).symm
  constructor
  · exact related.integer
  · intro register
    have same : ({ machine with rounding := mode } : Machine).float register = machine.float register := by
      cases register <;> rfl
    rw [same]
    exact related.float register
  · exact related.pointers
  · exact related.constants
  · exact controlWord_mode mode
  · intro k small
    refine (elsewhere _ fun j less equal => ?_).trans (related.scratchpad k small)
    rw [← stack_word (frame.gpr 4)] at equal
    exact framed.apart k small (128 + (32 + j)) (by omega) equal.symm
  · intro other apart away
    exact (elsewhere other away).trans (related.outside other apart away)
  · intro _
    refine .inr ?_
    change loadMemory32 (storeMemory cpu.memory (cpu.gpr 4 + 32) 4 (modeIndex mode)) (frame.gpr 4 + 32) = _
    rw [← base, loadMemory32_storeMemory]
    exact (by decide : ∀ mode : RoundingMode, (modeIndex mode).setWidth 32 = mode.setWidth 32 * 4) mode

variable {arithmetic : PackedArithmetic} {code : List (BitVec 8)} {position : Nat} {more : List (BitVec 8)}

def cfroundLoad (options : JitOptions) : List (BitVec 8) :=
  if options.amd then
    [0x3B, 0x44, 0x24, 0x20] ++ ([0x74, 0x0A] ++ ([0x0F, 0xAE, 0x14, 0x04] ++
      ([0xEB, 0x00] ++ [0x89, 0x44, 0x24, 0x20])))
  else [0x0F, 0xAE, 0x14, 0x04]

theorem cfroundTail_eq (options : JitOptions) : cfroundTail options = [0x83, 0xE0, 0x0C] ++ cfroundLoad options := by
  unfold cfroundTail cfroundLoad
  cases options.amd <;> decide

theorem drop_append_of_stands {first rest : List (BitVec 8)} (stands : code.drop position = first ++ rest) :
    code.drop (position + first.length) = rest := by
  rw [← List.drop_drop, stands, List.drop_left]

theorem load_mode (framed : Framed options eMask storage frame) (related : Related options frame machine cpu)
    {mode : RoundingMode} (index : cpu.gpr 0 = modeIndex mode) :
    loadMemory32 cpu.memory (cpu.address 0 { base := 4, index := some (0, 0) }) = controlWord mode := by
  have place : cpu.address 0 { base := 4, index := some (0, 0) } = cpu.gpr 4 + modeIndex mode := by
    simp only [Cpu.address, BitVec.shiftLeft_zero, sum_zero, index]
  rw [place]
  exact related.table framed mode

theorem eq_of_difference {x y : BitVec 32} (none : x - y = 0) : x = y := by
  have sum := congrArg (· + y) none
  simp only [BitVec.sub_add_cancel] at sum
  exact sum.trans (BitVec.zero_add y)

variable (arithmetic) in
theorem cfroundLoad_reaches (framed : Framed options eMask storage frame) (related : Related options frame machine cpu)
    {mode : RoundingMode} (index : cpu.gpr 0 = modeIndex mode)
    (stands : code.drop position = cfroundLoad options ++ more) :
    ∃ after, Reaches arithmetic code ⟨position, cpu⟩ ⟨position + (cfroundLoad options).length, after⟩ ∧
      Related options frame { machine with rounding := mode } after := by
  obtain ⟨_, _, _, _, load, compare, equal, skip, store⟩ := cfround_forms
  have word := load_mode framed related index
  unfold cfroundLoad at stands ⊢
  cases amd : options.amd with
  | false =>
    rw [amd] at stands
    have stepped := machineStep_next arithmetic cpu load stands
    refine ⟨_, Reaches.step stepped, ?_⟩
    simp only [Straight.exec, word]
    exact related.round mode amd
  | true =>
    rw [amd] at stands
    simp only [if_true, List.append_assoc] at stands ⊢
    obtain ⟨flagged, zf⟩ : ∃ flagged : Cpu, flagged =
        { cpu with zf := some ((modeIndex mode).setWidth 32 - loadMemory32 cpu.memory (cpu.gpr 4 + 32) == 0) } := ⟨_, rfl⟩
    have compared : Related options frame machine flagged := zf ▸ related.flags _
    have atEqual := drop_append_of_stands stands
    have atLoad := drop_append_of_stands atEqual
    have atSkip := drop_append_of_stands atLoad
    have atStore := drop_append_of_stands atSkip
    have first : machineStep arithmetic code ⟨position, cpu⟩ = some ⟨position + 4, flagged⟩ := by
      rw [machineStep_next arithmetic cpu compare stands, zf, ← index]
      rfl
    have flag : flagged.zf =
        some ((modeIndex mode).setWidth 32 - loadMemory32 cpu.memory (cpu.gpr 4 + 32) == 0) := by rw [zf]
    have second := machineStep_jumpZero arithmetic flagged equal atEqual flag
    by_cases remembered : (modeIndex mode).setWidth 32 = loadMemory32 cpu.memory (cpu.gpr 4 + 32)
    · -- the index is the remembered one, so the mode is in force already
      have unchanged : mode = machine.rounding := by
        have distinct : ∀ mode : RoundingMode, (modeIndex mode).setWidth 32 ≠ -1 := by decide
        have injective : ∀ first second : RoundingMode, (modeIndex first).setWidth 32 = second.setWidth 32 * 4 →
            first = second := by decide
        rw [related.pointers 4 (by decide) (by decide)] at remembered
        rcases related.cached amd with never | last
        · exact absurd (remembered.trans never) (distinct mode)
        · exact injective _ _ (remembered.trans last)
      have target : jumpTarget (position + 4 + 2) 10 = some (position + 16) :=
        jumpTarget_eq (by rw [show (10 : BitVec 64).toInt = 10 from by decide]; omega)
      have jumped : machineStep arithmetic code ⟨position + 4, flagged⟩ = some ⟨position + 16, flagged⟩ := by
        refine second.trans ?_
        rw [remembered, BitVec.sub_self, if_pos (by decide)]
        exact congrArg (Option.map _) target
      refine ⟨flagged, (Reaches.step first).trans (Reaches.step jumped), ?_⟩
      rw [unchanged]
      exact compared
    · have onward : machineStep arithmetic code ⟨position + 4, flagged⟩ = some ⟨position + 4 + 2, flagged⟩ := by
        refine second.trans (if_neg ?_)
        rw [beq_iff_eq]
        exact fun none => remembered (eq_of_difference none)
      have loaded := machineStep_next arithmetic flagged load atLoad
      have skipped := machineStep_jump arithmetic
        (Straight.exec arithmetic 0 flagged (.ldmxcsr { base := 4, index := some (0, 0) })) skip atSkip
      have stored := machineStep_next arithmetic
        (Straight.exec arithmetic 0 flagged (.ldmxcsr { base := 4, index := some (0, 0) })) store atStore
      have target : jumpTarget (position + 4 + 2 + 4 + 2) 0 = some (position + 4 + 2 + 4 + 2) :=
        jumpTarget_eq (by rw [show (0 : BitVec 64).toInt = 0 from by decide]; omega)
      have landed : machineStep arithmetic code ⟨position + 4 + 2 + 4,
          Straight.exec arithmetic 0 flagged (.ldmxcsr { base := 4, index := some (0, 0) })⟩ =
            some ⟨position + 4 + 2 + 4 + 2,
              Straight.exec arithmetic 0 flagged (.ldmxcsr { base := 4, index := some (0, 0) })⟩ :=
        skipped.trans (congrArg (Option.map _) target)
      have run := ((((Reaches.step first).trans (Reaches.step onward)).trans (Reaches.step loaded)).trans
        (Reaches.step landed)).trans (Reaches.step stored)
      refine ⟨_, run, ?_⟩
      have indexed : flagged.gpr 0 = modeIndex mode := by
        rw [zf]
        exact index
      have control := load_mode framed compared indexed
      simp only [Straight.exec, control]
      simp only [Cpu.address, indexed, Bool.false_eq_true, if_false]
      exact compared.remember framed mode

variable (arithmetic) in
theorem cfround_reaches {hasBMI2 : Bool} (framed : Framed options eMask storage frame)
    (related : Related options frame machine cpu)
    (stands : code.drop position = templateBytes options hasBMI2 masked .cfround ++ more) :
    ∃ after, Reaches arithmetic code ⟨position, cpu⟩
        ⟨position + (templateBytes options hasBMI2 masked .cfround).length, after⟩ ∧
      Related options frame { machine with rounding := modeOf masked machine } after := by
  have split : templateBytes options hasBMI2 masked .cfround =
      (cfroundHead hasBMI2 masked ++ [0x83, 0xE0, 0x0C]) ++ cfroundLoad options := by
    rw [cfround_template, cfroundTail_eq, List.append_assoc]
  rw [split, List.append_assoc (_ ++ _)] at stands
  obtain ⟨indexed, index⟩ := cfroundHead_related masked arithmetic hasBMI2 related
  obtain ⟨after, loads, rounded⟩ := cfroundLoad_reaches arithmetic framed indexed index
    (drop_append_of_stands stands)
  have head := (assembles_cfroundHead hasBMI2 masked).reaches arithmetic cpu stands
  refine ⟨after, ?_, rounded⟩
  rw [split, List.length_append, ← Nat.add_assoc]
  exact head.trans loads

theorem assembles_cfroundNop (options : JitOptions) (hasBMI2 : Bool) :
    ∃ count, Assembles (cfroundNop options hasBMI2) (List.replicate count (.nop, 0)) := by
  have nops : decodeMany 2 nop14 = some (List.replicate 2 (.nop, 0)) ∧
      decodeMany 3 nop26 = some (List.replicate 3 (.nop, 0)) ∧
      decodeMany 2 nop13 = some (List.replicate 2 (.nop, 0)) ∧
      decodeMany 3 nop25 = some (List.replicate 3 (.nop, 0)) := by decide
  unfold cfroundNop
  cases hasBMI2 with
  | false =>
    cases options.amd with
    | false => exact ⟨2, assembles_of_decodeMany nops.1⟩
    | true => exact ⟨3, assembles_of_decodeMany nops.2.1⟩
  | true =>
    cases options.amd with
    | false => exact ⟨2, assembles_of_decodeMany nops.2.2.1⟩
    | true => exact ⟨3, assembles_of_decodeMany nops.2.2.2⟩

theorem execStraight_nops (count : Nat) (cpu : Cpu) :
    execStraight arithmetic (List.replicate count (.nop, 0)) cpu = cpu := by
  induction count with
  | zero => rfl
  | succ count ih => exact ih

theorem cfroundNop_reaches {hasBMI2 : Bool} (stands : code.drop position = cfroundNop options hasBMI2 ++ more) :
    Reaches arithmetic code ⟨position, cpu⟩ ⟨position + (cfroundNop options hasBMI2).length, cpu⟩ := by
  obtain ⟨count, block⟩ := assembles_cfroundNop options hasBMI2
  have run := block.reaches arithmetic cpu stands
  rw [execStraight_nops] at run
  exact run

end Round

/-! ## CBRANCH -/

section Branch

def alignBytes (alignment : Nat) : List (BitVec 8) := (jmpAlignPrefix.getD alignment []).take alignment

/-- More than eight bytes begin with an instruction without an effect; prefixes of the addition
are ignored. -/
theorem align_forms (alignment : Fin 14) :
    decodeMany 1 ((alignBytes alignment).take (alignment - 8)) =
        some (List.replicate (if 8 < alignment.val then 1 else 0) (.nop, 0)) ∧
      (alignBytes alignment).length = alignment ∧
      ∀ dst : Fin 8, decodeForm ((alignBytes alignment).drop (alignment - 8) ++
          wordBytes (0x00c08149 + (reg32 dst <<< 16)) 3) =
        some ((.next (.arith .add true (native dst) .constant), .word), []) := by
  revert alignment
  decide

def branchJump (jmpOffset : Int) : List (BitVec 8) :=
  if jmpOffset ≥ -128 then wordBytes (0x74 + (BitVec.ofInt 32 jmpOffset <<< 8)) 2
  else quadPrefix (0x840f + (BitVec.ofInt 64 (jmpOffset - 4) <<< 16)) 6

theorem quadPrefix_offset (value : BitVec 64) :
    quadPrefix ((0x840f : BitVec 64) + (value <<< 16)) 6 = [0x0F, 0x84] ++ wordBytes (value.setWidth 32) 4 := by
  have apart : (0x840f : BitVec 64) &&& (value <<< 16) = 0 := by
    have low : ∀ position < 64, (0x840f : BitVec 64).getLsbD position = true → position < 16 := by decide
    apply BitVec.eq_of_getLsbD_eq
    intro position bound
    simp only [BitVec.getLsbD_and, BitVec.getLsbD_shiftLeft]
    have := low position bound
    grind
  have byte : ∀ position < 8, (0x840f : BitVec 64).getLsbD position = (0x0F : BitVec 8).getLsbD position ∧
      (0x840f : BitVec 64).getLsbD (8 + position) = (0x84 : BitVec 8).getLsbD position ∧
      (0x840f : BitVec 64).getLsbD (16 + position) = false ∧ (0x840f : BitVec 64).getLsbD (24 + position) = false ∧
      (0x840f : BitVec 64).getLsbD (32 + position) = false ∧ (0x840f : BitVec 64).getLsbD (40 + position) = false := by
    decide
  rw [BitVec.add_eq_or_of_and_eq_zero _ _ apart]
  simp only [quadPrefix, quadBytes, wordBytes, List.take_succ_cons, List.take_zero, List.cons_append,
    List.nil_append, List.cons.injEq, and_true]
  refine ⟨?_, ?_, ?_, ?_, ?_, ?_⟩
  all_goals
    apply BitVec.eq_of_getLsbD_eq
    intro position bound
    have constant := byte position bound
    simp only [BitVec.getLsbD_extractLsb', BitVec.getLsbD_or, BitVec.getLsbD_shiftLeft, BitVec.getLsbD_setWidth,
      BitVec.getLsbD_ushiftRight]
    grind

/-- Both forms jump as far from the place where the shorter one ends. -/
theorem branchJump_decode (jmpOffset : Int) (backward : jmpOffset < 0) (near : -2 ^ 31 ≤ jmpOffset - 4) :
    decode (branchJump jmpOffset) =
      some (⟨.jump true, BitVec.ofInt 64 (jmpOffset + 2 - (branchJump jmpOffset).length)⟩, []) := by
  unfold branchJump
  split
  · rename_i short
    have table : ∀ n : Fin 128, decode (wordBytes (0x74 + (BitVec.ofInt 32 (-(n.val : Int) - 1) <<< 8)) 2) =
        some (⟨.jump true, BitVec.ofInt 64 (-(n.val : Int) - 1)⟩, []) := by decide +kernel
    have entry := table ⟨(-jmpOffset - 1).toNat, by omega⟩
    have same : -(((-jmpOffset - 1).toNat : Nat) : Int) - 1 = jmpOffset := by omega
    simp only [same] at entry
    rw [entry]
    congr 4
    change jmpOffset = jmpOffset + 2 - 2
    omega
  · have form : decodeForm [0x0F, 0x84] = some ((.jump true, .word), []) := by decide
    have whole := decode_append form (read_word ((BitVec.ofInt 64 (jmpOffset - 4)).setWidth 32))
    have constant : ((BitVec.ofInt 64 (jmpOffset - 4)).setWidth 32).signExtend 64 = BitVec.ofInt 64 (jmpOffset - 4) := by
      apply BitVec.eq_of_toInt_eq
      have wide : (BitVec.ofInt 64 (jmpOffset - 4)).toInt = jmpOffset - 4 :=
        BitVec.toInt_ofInt_eq_self (by decide) (by omega) (by omega)
      have narrow : (BitVec.ofInt 64 (jmpOffset - 4)).setWidth 32 = BitVec.ofInt 32 (jmpOffset - 4) := by
        apply BitVec.eq_of_toNat_eq
        simp only [BitVec.toNat_setWidth, BitVec.toNat_ofInt]
        omega
      rw [narrow, BitVec.toInt_signExtend_of_le (by decide), wide]
      exact BitVec.toInt_ofInt_eq_self (by decide) (by omega) (by omega)
    refine (congrArg decode (quadPrefix_offset _)).trans ?_
    rw [whole, constant]
    congr 4
    change jmpOffset - 4 = jmpOffset + 2 - 6
    omega

theorem cbranchImm_eq (masked : MaskedInstruction) :
    (cbranchImm masked).signExtend 64 = branchImm masked.imm32 masked.instr.getModCond := by
  have small := masked.instr.getModCond_lt
  have constants : ∀ shift : Fin 16,
      ((((1 : BitVec 32) <<< jumpOffset) <<< shift.val).signExtend 64 = (1#64 <<< jumpOffset) <<< shift.val) ∧
        (rotl32 (~~~((1 : BitVec 32) <<< (jumpOffset - 1))) shift.val).signExtend 64 =
          ~~~((1#64 <<< (jumpOffset - 1)) <<< shift.val) := by decide
  obtain ⟨set, clear⟩ := constants ⟨_, small⟩
  dsimp only at set clear
  rw [cbranchImm, branchImm, BitVec.signExtend_and, BitVec.signExtend_or, set, clear]
  rfl

theorem branchMask_signExtend {shift : Nat} (small : shift < 16) :
    (branchMask shift).signExtend 64 = (branchMask shift).setWidth 64 :=
  (by decide : ∀ shift : Fin 16, (branchMask shift.val).signExtend 64 = (branchMask shift.val).setWidth 64) ⟨shift, small⟩

def branchHead (alignment : Nat) (masked : MaskedInstruction) : List (BitVec 8) :=
  alignBytes alignment ++ (wordBytes (0x00c08149 + (reg32 masked.dst <<< 16)) 3 ++ wordBytes (cbranchImm masked) 4 ++
    (wordBytes (0x00c0f749 + (reg32 masked.dst <<< 16)) 3 ++ wordBytes (branchMask masked.instr.getModCond) 4))

theorem cbranchCode_eq (jccErratum : Bool) (masked : MaskedInstruction) (pos : Nat) (target : Int) :
    cbranchCode jccErratum masked pos target =
      branchHead (cbranchAlignment jccErratum pos target) masked ++
        branchJump (target - (pos + 16) - cbranchAlignment jccErratum pos target) := by
  unfold cbranchCode cbranchBytes branchHead alignBytes branchJump branchMask
  simp only [List.append_assoc]

theorem branchHead_length {alignment : Nat} (small : alignment < 14) (masked : MaskedInstruction) :
    (branchHead alignment masked).length = alignment + 14 := by
  have aligned := (align_forms ⟨_, small⟩).2.1
  dsimp only at aligned
  simp only [branchHead, List.length_append, aligned]
  rfl

def branchOps (alignment : Nat) (masked : MaskedInstruction) : List Constanted :=
  List.replicate (if 8 < alignment then 1 else 0) (.nop, 0) ++
    [(.arith .add true (native masked.dst) .constant, branchImm masked.imm32 masked.instr.getModCond),
      (.arith .test true (native masked.dst) .constant, (branchMask masked.instr.getModCond).setWidth 64)]

theorem assembles_branchHead {alignment : Nat} (small : alignment < 14) (masked : MaskedInstruction) :
    Assembles (branchHead alignment masked) (branchOps alignment masked) := by
  obtain ⟨nops, _, add⟩ := align_forms ⟨alignment, small⟩
  have test : ∀ dst : Fin 8, decodeForm (wordBytes (0x00c0f749 + (reg32 dst <<< 16)) 3) =
      some ((.next (.arith .test true (native dst) .constant), .word), []) := by decide
  have added := assembles_word (add masked.dst) (cbranchImm masked)
  have tested := assembles_word (test masked.dst) (branchMask masked.instr.getModCond)
  rw [cbranchImm_eq] at added
  rw [branchMask_signExtend masked.instr.getModCond_lt] at tested
  have whole := (assembles_of_decodeMany nops).append (added.append tested)
  simp only [List.append_assoc] at whole
  rw [← List.append_assoc (List.take _ _), List.take_append_drop] at whole
  unfold branchHead branchOps
  simp only [List.append_assoc]
  exact whole

section Alignment

theorem xor_lt_of_div_eq {x y : Nat} (same : x / 32 = y / 32) : x ^^^ y < 32 := by
  have high : (x ^^^ y) / 2 ^ 5 = 0 := by
    rw [← Nat.shiftRight_eq_div_pow, Nat.shiftRight_xor_distrib, Nat.shiftRight_eq_div_pow, Nat.shiftRight_eq_div_pow]
    change x / 32 ^^^ y / 32 = 0
    rw [same, Nat.xor_self]
  omega

theorem div_eq_of_xor_lt {x y : Nat} (small : x ^^^ y < 32) : x / 32 = y / 32 := by
  have high : (x ^^^ y) / 2 ^ 5 = 0 := Nat.div_eq_of_lt small
  rw [← Nat.shiftRight_eq_div_pow, Nat.shiftRight_xor_distrib, Nat.shiftRight_eq_div_pow, Nat.shiftRight_eq_div_pow] at high
  have back := congrArg (· ^^^ y / 2 ^ 5) high
  simp only [Nat.xor_assoc, Nat.xor_self, Nat.xor_zero, Nat.zero_xor] at back
  exact back

theorem alignmentSize_cases (pos : Nat) (jmpOffset : Int) :
    (JitCompilerX86.alignmentSize pos jmpOffset = 0 ∧
      (pos + 7) / 32 = (pos + 7 + if jmpOffset ≥ -128 then 9 else 13) / 32) ∨
    ((pos + 7 + JitCompilerX86.alignmentSize pos jmpOffset) % 32 = 0 ∧
      JitCompilerX86.alignmentSize pos jmpOffset < 14) := by
  have low : (pos + 7) &&& 31 = (pos + 7) % 32 := Nat.and_two_pow_sub_one_eq_mod _ 5
  unfold JitCompilerX86.alignmentSize
  dsimp only
  rw [low]
  by_cases crosses : (pos + 7) ^^^ (pos + 7 + if jmpOffset ≥ -128 then 9 else 13) ≥ 32
  · rw [if_pos crosses]
    have apart : (pos + 7) / 32 ≠ (pos + 7 + if jmpOffset ≥ -128 then 9 else 13) / 32 :=
      fun same => absurd (xor_lt_of_div_eq same) (by omega)
    right
    split at apart <;> omega
  · rw [if_neg crosses]
    exact .inl ⟨rfl, div_eq_of_xor_lt (Nat.lt_of_not_le crosses)⟩

theorem cbranchAlignment_lt (jccErratum : Bool) (pos : Nat) (target : Int) :
    cbranchAlignment jccErratum pos target < 14 := by
  unfold cbranchAlignment
  split
  · rcases alignmentSize_cases pos (target - (pos + 16)) with ⟨none, _⟩ | ⟨_, small⟩ <;> omega
  · decide

theorem branchJump_length (jmpOffset : Int) :
    (branchJump jmpOffset).length = if jmpOffset ≥ -128 then 2 else 6 := by
  unfold branchJump
  split <;> rfl

theorem alignmentSize_block (pos : Nat) (jmpOffset : Int) :
    (pos + JitCompilerX86.alignmentSize pos jmpOffset + 7) / 32 =
      (pos + JitCompilerX86.alignmentSize pos jmpOffset + 7 + 7 +
        (branchJump (jmpOffset - JitCompilerX86.alignmentSize pos jmpOffset)).length) / 32 := by
  rw [branchJump_length]
  rcases alignmentSize_cases pos jmpOffset with ⟨none, same⟩ | ⟨start, small⟩
  · rw [none]
    simp only [Nat.cast_zero, Int.sub_zero, Nat.add_zero]
    split at same <;> split <;> omega
  · split <;> omega

end Alignment

variable {options : JitOptions} {frame cpu : Cpu} {machine : Machine} {masked : MaskedInstruction}
  {arithmetic : PackedArithmetic} {code : List (BitVec 8)} {more : List (BitVec 8)}

variable (masked arithmetic) in
theorem branchOps_related (related : Related options frame machine cpu) (alignment : Nat) :
    Related options frame
        (machine.setR masked.dst (machine.r masked.dst + branchImm masked.imm32 masked.instr.getModCond))
        (execStraight arithmetic (branchOps alignment masked) cpu) ∧
      (execStraight arithmetic (branchOps alignment masked) cpu).zf =
        some ((machine.r masked.dst + branchImm masked.imm32 masked.instr.getModCond) &&&
          (branchMask masked.instr.getModCond).setWidth 64 == 0) := by
  unfold branchOps
  rw [execStraight_append, execStraight_nops]
  simp only [execStraight, Straight.exec, IntegerOp.eval, IntegerOp.stores, if_true, Bool.false_eq_true, if_false, Cpu.value,
    related.integer, Cpu.setGpr, Function.update_self]
  exact ⟨((related.flags _).setInteger _ rfl).flags _, trivial⟩

variable (arithmetic) in
theorem cbranch_reaches {jccErratum : Bool} {pos : Nat} {target : Nat} (related : Related options frame machine cpu)
    (backward : target ≤ pos) (near : pos < target + 2 ^ 30)
    (stands : code.drop pos = cbranchCode jccErratum masked pos target ++ more) :
    ∃ after, Related options frame
        (machine.setR masked.dst (machine.r masked.dst + branchImm masked.imm32 masked.instr.getModCond)) after ∧
      Reaches arithmetic code ⟨pos, cpu⟩
        ⟨if (machine.r masked.dst + branchImm masked.imm32 masked.instr.getModCond) &&&
            (branchMask masked.instr.getModCond).setWidth 64 == 0 then target
          else pos + (cbranchCode jccErratum masked pos target).length, after⟩ := by
  have small := cbranchAlignment_lt jccErratum pos target
  have length := branchHead_length small masked
  rw [cbranchCode_eq] at stands ⊢
  generalize cbranchAlignment jccErratum pos target = alignment at *
  rw [List.append_assoc] at stands
  obtain ⟨after, flag⟩ := branchOps_related masked arithmetic related alignment
  have head := (assembles_branchHead small masked).reaches arithmetic cpu stands
  have decoded := branchJump_decode ((target : Int) - (pos + 16) - alignment) (by omega) (by omega)
  have stepped := machineStep_jumpZero arithmetic _ decoded (drop_append_of_stands stands) flag
  have bound : (branchJump ((target : Int) - (pos + 16) - alignment)).length ≤ 6 := by
    rw [branchJump_length]
    split <;> omega
  have landing : jumpTarget (pos + (branchHead alignment masked).length +
      (branchJump ((target : Int) - (pos + 16) - alignment)).length)
      (BitVec.ofInt 64 ((target : Int) - (pos + 16) - alignment + 2 -
        (branchJump ((target : Int) - (pos + 16) - alignment)).length)) = some target := by
    apply jumpTarget_eq
    rw [BitVec.toInt_ofInt_eq_self (by decide) (by omega) (by omega), length]
    omega
  rw [landing] at stepped
  refine ⟨_, after, head.trans (Reaches.step (stepped.trans ?_))⟩
  rw [List.length_append, ← Nat.add_assoc]
  split
  · rfl
  · rfl

end Branch

end Xmrig.RandomX
