import Xmrig.Foundation.Faults
import Xmrig.RandomX.Termination

/-! The interpreting virtual machine.

`initialize` reads the configuration of a program from its entropy, `execute`
runs the iterations. Every access to the scratchpad and to the dataset is made
through a load or a store that faults outside of its memory.
-/

set_option autoImplicit false

namespace Xmrig.RandomX

open Foundation

/-- How an execution stops short of its end. -/
inductive VmFault where
  | scratchpad
  | dataset
  -- the program counter is no index of the bytecode, or the switch is `UNREACHABLE`
  | stuck
  | fuel
  deriving DecidableEq, Repr

section Memory
variable (fault : VmFault) (size : Nat)

/-- Eight bytes of a memory of `size` bytes. -/
def loadWithin (memory : Nat → BitVec 8) (address : Nat) : Except VmFault (BitVec 64) :=
  if address + 8 ≤ size then .ok (Scratchpad.load64 memory address) else .error fault

def storeWithin (memory : Nat → BitVec 8) (address : Nat) (value : BitVec 64) :
    Except VmFault (Nat → BitVec 8) :=
  if address + 8 ≤ size then .ok (Scratchpad.store64 memory address value) else .error fault

end Memory

section Instructions
variable (size : Nat) (unit : FloatUnit) (eMask : Vec128)

/-- The operations that call `getScratchpadAddress`. -/
def InstructionType.loads : InstructionType → Bool
  | .iaddM | .isubM | .imulM | .imulhM | .ismulhM | .ixorM | .faddM | .fsubM | .fdivM => true
  | _ => false

/-- `getScratchpadAddress`, as a distance from the scratchpad. -/
def InstructionByteCode.loadAddress (ibc : InstructionByteCode) (machine : Machine) : Nat :=
  ((ibc.source machine + ibc.imm) &&& ibc.memMask.setWidth 64).toNat

/-- Where `exe_ISTORE` writes. -/
def InstructionByteCode.storeAddress (ibc : InstructionByteCode) (machine : Machine) : Nat :=
  ((machine.r ibc.idst + ibc.imm) &&& ibc.memMask.setWidth 64).toNat

/-- `executeInstruction` after its access to the scratchpad was tried. -/
def executeWithin (ibc : InstructionByteCode) (pc : Int) (machine : Machine) :
    Except VmFault (Int × Machine) := do
  if ibc.type.loads then
    let _ ← loadWithin .scratchpad size machine.scratchpad (ibc.loadAddress machine)
  if ibc.type = .istore then
    let _ ← storeWithin .scratchpad size machine.scratchpad (ibc.storeAddress machine)
      (ibc.source machine)
  pure (executeInstruction unit eMask ibc pc machine)

/-- One pass of the loop of `executeBytecode`. -/
def stepWithin (bytecode : List InstructionByteCode) (state : Running) :
    Except VmFault Running :=
  if state.pc < 0 then .error .stuck
  else match bytecode[state.pc.toNat]? with
    | none => .error .stuck
    | some ibc =>
        if ibc.type = .imulRcp then .error .stuck
        else do
          let next ← executeWithin size unit eMask ibc state.pc state.machine
          pure { pc := next.1 + 1, machine := next.2 }

def executeBytecodeWithin (bytecode : List InstructionByteCode) : Nat → Running →
    Except VmFault Machine
  | 0, state => if state.pc < bytecode.length then .error .fuel else .ok state.machine
  | fuel + 1, state =>
      if state.pc < bytecode.length then do
        let next ← stepWithin size unit eMask bytecode state
        executeBytecodeWithin bytecode fuel next
      else .ok state.machine

end Instructions

section Initialize

/-- The entropy and the first `ProgramSize` instructions of the buffer. -/
structure Program where
  entropy : Fin 16 → BitVec 64
  instructions : List Instruction

structure ProgramConfiguration where
  eMask : Vec128
  readReg0 : Fin 8
  readReg1 : Fin 8
  readReg2 : Fin 8
  readReg3 : Fin 8

/-- The address registers of the dataset; both have 32 bits. -/
structure MemoryRegisters where
  mx : BitVec 32
  ma : BitVec 32

instance neZero_entropyCount : NeZero 16 := ⟨by decide⟩

def mantissaMask : BitVec 64 := (1 <<< 52) - 1
def exponentMask : BitVec 64 := (1 <<< 11) - 1

def datasetBaseSize : BitVec 64 := 2147483648
def datasetExtraSize : BitVec 64 := 33554368
def datasetExtraItems : BitVec 64 := datasetExtraSize / 64
def cacheLineAlignMask : BitVec 64 := (datasetBaseSize - 1) &&& ~~~(64 - 1)

def getSmallPositiveFloatBits (entropy : BitVec 64) : BitVec 64 :=
  ((((entropy >>> 59) + 1023) &&& exponentMask) <<< 52) ||| (entropy &&& mantissaMask)

def getStaticExponent (entropy : BitVec 64) : BitVec 64 :=
  (0x300 ||| ((entropy >>> 60) <<< 4)) <<< 52

def getFloatMask (entropy : BitVec 64) : BitVec 64 :=
  (entropy &&& ((1 <<< 22) - 1)) ||| getStaticExponent entropy

theorem readReg_lt (addressRegisters : BitVec 64) (k : Fin 4) :
    2 * k.val + (addressRegisters >>> k.val &&& 1).toNat < 8 := by
  have bit : (addressRegisters >>> k.val &&& 1).toNat ≤ 1 := by
    rw [BitVec.toNat_and]
    exact Nat.and_le_right
  omega

/-- `readReg0` to `readReg3`: one of two neighbours each, by one bit. -/
def readReg (addressRegisters : BitVec 64) (k : Fin 4) : Fin 8 :=
  ⟨2 * k.val + (addressRegisters >>> k.val &&& 1).toNat, readReg_lt addressRegisters k⟩

/-- What `initialize` sets. -/
structure Initialized where
  a : Fin 4 → Vec128
  mem : MemoryRegisters
  config : ProgramConfiguration
  datasetOffset : BitVec 64

def entropyIndex (i : Fin 4) (half : Nat) : Fin 16 := Fin.ofNat 16 (2 * i.val + half)

/-- `randomx_vm::initialize`. Only `ma` is aligned to a cache line. -/
def Program.initialize (program : Program) : Initialized where
  a := fun i =>
    ⟨getSmallPositiveFloatBits (program.entropy (entropyIndex i 0)),
      getSmallPositiveFloatBits (program.entropy (entropyIndex i 1))⟩
  mem :=
    { ma := (program.entropy 8 &&& cacheLineAlignMask).setWidth 32
      mx := (program.entropy 10).setWidth 32 }
  config :=
    { readReg0 := readReg (program.entropy 12) 0
      readReg1 := readReg (program.entropy 12) 1
      readReg2 := readReg (program.entropy 12) 2
      readReg3 := readReg (program.entropy 12) 3
      eMask := ⟨getFloatMask (program.entropy 14), getFloatMask (program.entropy 15)⟩ }
  datasetOffset := (program.entropy 13 % (datasetExtraItems + 1)) * 64

end Initialize

section Execute
variable (configuration : Configuration) (unit : FloatUnit)

/-- `ScratchpadL3Mask64_Calculated`. -/
def Configuration.scratchpadL3Mask64 : BitVec 32 := (configuration.scratchpadL3Size / 8 / 8 - 1) * 64

/-- The loop variables of `execute`. -/
structure Iteration where
  machine : Machine
  mem : MemoryRegisters
  spAddr0 : BitVec 32
  spAddr1 : BitVec 32

/-- `r[i] ^= line[i]` for the eight words from an address on. -/
def xorLine (fault : VmFault) (size : Nat) (memory : Nat → BitVec 8) (address : Nat)
    (r : Fin 8 → BitVec 64) : Except VmFault (Fin 8 → BitVec 64) :=
  (List.finRange 8).foldlM (fun r i => do
    let word ← loadWithin fault size memory (address + 8 * i.val)
    pure (Function.update r i (r i ^^^ word))) r

def convertLine (size : Nat) (scratchpad : Scratchpad) (address : Nat) (change : Vec128 → Vec128)
    (registers : Fin 4 → Vec128) : Except VmFault (Fin 4 → Vec128) :=
  (List.finRange 4).foldlM (fun registers i => do
    let bytes ← loadWithin .scratchpad size scratchpad (address + 8 * i.val)
    pure (Function.update registers i (change (Vec128.cvtPackedInt unit bytes)))) registers

def storeIntegers (size : Nat) (address : Nat) (r : Fin 8 → BitVec 64) (scratchpad : Scratchpad) :
    Except VmFault Scratchpad :=
  (List.finRange 8).foldlM (fun scratchpad i =>
    storeWithin .scratchpad size scratchpad (address + 8 * i.val) (r i)) scratchpad

def storeFloats (size : Nat) (address : Nat) (f : Fin 4 → Vec128) (scratchpad : Scratchpad) :
    Except VmFault Scratchpad :=
  (List.finRange 4).foldlM (fun scratchpad i => do
    let scratchpad ← storeWithin .scratchpad size scratchpad (address + 16 * i.val) (f i).lo
    storeWithin .scratchpad size scratchpad (address + 16 * i.val + 8) (f i).hi) scratchpad

/-- One iteration of `execute`; `fuel` bounds the passes over the bytecode. -/
def iterate (initialized : Initialized) (bytecode : List InstructionByteCode)
    (dataset : Nat → BitVec 8) (fuel : Nat) (state : Iteration) : Except VmFault Iteration := do
  let size := configuration.scratchpadL3Size.toNat
  let config := initialized.config
  let machine := state.machine
  let spMix := machine.r config.readReg0 ^^^ machine.r config.readReg1
  let spAddr0 := (state.spAddr0 ^^^ spMix.setWidth 32) &&& configuration.scratchpadL3Mask64
  let spAddr1 := (state.spAddr1 ^^^ (spMix >>> 32).setWidth 32) &&& configuration.scratchpadL3Mask64
  let r ← xorLine .scratchpad size machine.scratchpad spAddr0.toNat machine.r
  let f ← convertLine unit size machine.scratchpad spAddr1.toNat id machine.f
  let e ← convertLine unit size machine.scratchpad (spAddr1.toNat + 32)
    (maskRegisterExponentMantissa config.eMask) machine.e
  let machine ← executeBytecodeWithin size unit config.eMask bytecode fuel
    ⟨0, { machine with r, f, e }⟩
  let mx := (state.mem.mx ^^^
    (machine.r config.readReg2 ^^^ machine.r config.readReg3).setWidth 32) &&&
      cacheLineAlignMask.setWidth 32
  let line := initialized.datasetOffset + state.mem.ma.setWidth 64
  let r ← xorLine .dataset (datasetBaseSize + datasetExtraSize).toNat dataset line.toNat machine.r
  let scratchpad ← storeIntegers size spAddr1.toNat r machine.scratchpad
  let f := fun i => (machine.f i).map2 (· ^^^ ·) (machine.e i)
  let scratchpad ← storeFloats size spAddr0.toNat f scratchpad
  -- the two address registers change places
  pure { machine := { machine with r, f, scratchpad },
         mem := { mx := state.mem.ma, ma := mx }, spAddr0 := 0, spAddr1 := 0 }

def iterations (initialized : Initialized) (bytecode : List InstructionByteCode)
    (dataset : Nat → BitVec 8) (fuel : Nat) : Nat → Iteration → Except VmFault Iteration
  | 0, state => .ok state
  | count + 1, state => do
      let next ← iterate configuration unit initialized bytecode dataset fuel state
      iterations initialized bytecode dataset fuel count next

/-- `InterpretedVm::execute` after `initialize`. The registers of group `f` and `e`, the
scratchpad and the rounding mode come from `before`. -/
def execute (program : Program) (dataset : Nat → BitVec 8) (programIterations fuel : Nat)
    (before : Machine) : Except VmFault Iteration :=
  let initialized := program.initialize
  iterations configuration unit initialized (compileProgram configuration program.instructions)
    dataset fuel programIterations
    { machine := { before with r := fun _ => 0, a := initialized.a }
      mem := initialized.mem, spAddr0 := initialized.mem.mx, spAddr1 := initialized.mem.ma }

end Execute

section Bounds

/-- A mask never selects the last eight bytes beyond a word. -/
theorem sizeMask_le {size : BitVec 32} (least : 8 ≤ size.toNat) :
    (Configuration.sizeMask size).toNat + 8 ≤ size.toNat := by
  have bound := size.isLt
  have quotient : (size / 8).toNat = size.toNat / 8 := by simp
  have less : (size / 8 - 1).toNat = size.toNat / 8 - 1 := by
    rw [BitVec.toNat_sub, quotient]
    change (2 ^ 32 - 1 + _) % 2 ^ 32 = _
    omega
  rw [Configuration.sizeMask, BitVec.toNat_mul, less]
  change _ * 8 % 2 ^ 32 + 8 ≤ _
  omega

theorem mask64_le {configuration : Configuration}
    (least : 64 ≤ configuration.scratchpadL3Size.toNat) :
    configuration.scratchpadL3Mask64.toNat + 64 ≤ configuration.scratchpadL3Size.toNat := by
  have bound := configuration.scratchpadL3Size.isLt
  have quotient : (configuration.scratchpadL3Size / 8 / 8).toNat =
      configuration.scratchpadL3Size.toNat / 8 / 8 := by simp
  have less : (configuration.scratchpadL3Size / 8 / 8 - 1).toNat =
      configuration.scratchpadL3Size.toNat / 8 / 8 - 1 := by
    rw [BitVec.toNat_sub, quotient]
    change (2 ^ 32 - 1 + _) % 2 ^ 32 = _
    omega
  rw [Configuration.scratchpadL3Mask64, BitVec.toNat_mul, less]
  change _ * 64 % 2 ^ 32 + 64 ≤ _
  omega

theorem and_mask_le (address : BitVec 64) (mask : BitVec 32) :
    (address &&& mask.setWidth 64).toNat ≤ mask.toNat := by
  rw [BitVec.toNat_and, BitVec.toNat_setWidth_of_le (by decide)]
  exact Nat.and_le_right

/-- The sizes of a configuration that `Apply` computes masks from. -/
structure Sizes (configuration : Configuration) : Prop where
  least : 64 ≤ configuration.scratchpadL1Size.toNat
  l1_le : configuration.scratchpadL1Size.toNat ≤ configuration.scratchpadL2Size.toNat
  l2_le : configuration.scratchpadL2Size.toNat ≤ configuration.scratchpadL3Size.toNat

variable {configuration : Configuration}

/-- The largest address that a mask leaves is that of a word of the scratchpad. -/
def Covers (configuration : Configuration) (mask : BitVec 32) : Prop :=
  mask.toNat + 8 ≤ configuration.scratchpadL3Size.toNat

theorem Sizes.scratchpadL3Mask (sizes : Sizes configuration) :
    Covers configuration configuration.scratchpadL3Mask := by
  have := sizes.least
  have := sizes.l1_le
  have := sizes.l2_le
  exact sizeMask_le (by omega)

theorem Sizes.addressMask (sizes : Sizes configuration) (modMem : BitVec 8) :
    Covers configuration (configuration.addressMask modMem) := by
  have least := sizes.least
  have l1_le := sizes.l1_le
  have l2_le := sizes.l2_le
  have second : 8 ≤ configuration.scratchpadL2Size.toNat := by omega
  have first : 8 ≤ configuration.scratchpadL1Size.toNat := by omega
  unfold Covers Configuration.addressMask
  split
  · exact Nat.le_trans (sizeMask_le second) l2_le
  · exact Nat.le_trans (sizeMask_le first) (Nat.le_trans l1_le l2_le)

theorem Sizes.compileMemory (sizes : Sizes configuration) (type : InstructionType)
    (instr : Instruction) : Covers configuration (compileMemory configuration type instr).memMask := by
  unfold RandomX.compileMemory
  split
  · exact sizes.addressMask _
  · exact sizes.scratchpadL3Mask

theorem Sizes.compileInstruction (sizes : Sizes configuration) (instr : Instruction) (i : Nat)
    (usage : RegisterUsage) {ibc : InstructionByteCode}
    (compiled : (compileInstruction configuration instr i usage).1 = ibc)
    (goes : ibc.type.loads = true ∨ ibc.type = .istore) : Covers configuration ibc.memMask := by
  subst compiled
  unfold RandomX.compileInstruction at goes ⊢
  generalize configuration.instructionType instr.opcode = type at goes ⊢
  cases type
  case iaddM | isubM | imulM | imulhM | ismulhM | ixorM => exact sizes.compileMemory _ _
  case faddM | fsubM | fdivM => exact sizes.addressMask _
  case istore =>
    dsimp only
    split
    · exact sizes.addressMask _
    · exact sizes.scratchpadL3Mask
  case imulRcp | iswapR =>
    dsimp only at goes
    split at goes
    all_goals simp [InstructionType.loads] at goes
  all_goals simp [InstructionType.loads, compileFloat] at goes

/-- The accesses of some bytecode stay in the scratchpad. -/
def Covered (configuration : Configuration) (bytecode : List InstructionByteCode) : Prop :=
  ∀ ibc ∈ bytecode, ibc.type.loads = true ∨ ibc.type = .istore → Covers configuration ibc.memMask

theorem Sizes.compileFrom (sizes : Sizes configuration) (program : List Instruction) (i : Nat)
    (usage : RegisterUsage) : Covered configuration (compileFrom configuration i usage program) := by
  induction program generalizing i usage with
  | nil =>
    intro ibc member
    cases member
  | cons instr rest ih =>
    intro ibc member
    rw [RandomX.compileFrom, List.mem_cons] at member
    rcases member with first | later
    · exact sizes.compileInstruction instr i usage first.symm
    · exact ih _ _ ibc later

variable {excluded : VmFault → Prop} {fault : VmFault} {size : Nat}

theorem loadWithin_eq {memory : Nat → BitVec 8} {address : Nat} (inside : address + 8 ≤ size) :
    loadWithin fault size memory address = .ok (Scratchpad.load64 memory address) :=
  if_pos inside

theorem storeWithin_eq {memory : Nat → BitVec 8} {address : Nat} (inside : address + 8 ≤ size)
    (value : BitVec 64) :
    storeWithin fault size memory address value = .ok (Scratchpad.store64 memory address value) :=
  if_pos inside

variable (unit : FloatUnit) (eMask : Vec128)

theorem executeWithin_eq {ibc : InstructionByteCode}
    (covers : ibc.type.loads = true ∨ ibc.type = .istore → Covers configuration ibc.memMask)
    (pc : Int) (machine : Machine) :
    executeWithin configuration.scratchpadL3Size.toNat unit eMask ibc pc machine =
      .ok (executeInstruction unit eMask ibc pc machine) := by
  have loads : ibc.type.loads = true →
      ibc.loadAddress machine + 8 ≤ configuration.scratchpadL3Size.toNat := by
    intro goes
    exact Nat.le_trans (Nat.add_le_add_right (and_mask_le _ _) 8) (covers (.inl goes))
  have stores : ibc.type = .istore →
      ibc.storeAddress machine + 8 ≤ configuration.scratchpadL3Size.toNat := by
    intro goes
    exact Nat.le_trans (Nat.add_le_add_right (and_mask_le _ _) 8) (covers (.inr goes))
  unfold executeWithin
  by_cases first : ibc.type.loads = true
  · have second : ¬ ibc.type = .istore := by
      intro same
      rw [same] at first
      cases first
    rw [if_pos first, if_neg second, loadWithin_eq (loads first)]
    rfl
  · rw [if_neg first]
    by_cases second : ibc.type = .istore
    · rw [if_pos second, storeWithin_eq (stores second)]
      rfl
    · rw [if_neg second]
      rfl

theorem stepWithin_eq {bytecode : List InstructionByteCode}
    (covered : Covered configuration bytecode) (state : Running) :
    stepWithin configuration.scratchpadL3Size.toNat unit eMask bytecode state =
      match stepBytecode unit eMask bytecode state with
      | some next => .ok next
      | none => .error .stuck := by
  unfold stepWithin stepBytecode
  split
  · rfl
  · rcases found : bytecode[state.pc.toNat]? with _ | ibc
    · rfl
    · dsimp only [Option.bind_some]
      split
      · rfl
      · rw [executeWithin_eq unit eMask (covered ibc (List.mem_of_getElem? found))]
        rfl

/-- Within the scratchpad the bytecode runs as it does without its accesses checked. -/
theorem executeBytecodeWithin_eq {bytecode : List InstructionByteCode}
    (covered : Covered configuration bytecode) (fuel : Nat) (state : Running) :
    ∃ fault, (fault = VmFault.stuck ∨ fault = VmFault.fuel) ∧
      executeBytecodeWithin configuration.scratchpadL3Size.toNat unit eMask bytecode fuel state =
        match executeBytecode unit eMask bytecode fuel state with
        | some machine => .ok machine
        | none => .error fault := by
  induction fuel generalizing state with
  | zero =>
    refine ⟨.fuel, .inr rfl, ?_⟩
    unfold executeBytecodeWithin executeBytecode
    split
    · rfl
    · rfl
  | succ fuel ih =>
    unfold executeBytecodeWithin executeBytecode
    split
    · rw [stepWithin_eq unit eMask covered]
      rcases stepBytecode unit eMask bytecode state with _ | next
      · exact ⟨.stuck, .inl rfl, rfl⟩
      · exact ih next
    · exact ⟨.stuck, .inl rfl, rfl⟩

/-- A run of the bytecode ends with no fault of its accesses, and with none where it ends. -/
theorem executeBytecodeWithin_avoids {bytecode : List InstructionByteCode}
    (covered : Covered configuration bytecode) {fuel : Nat} {state : Running}
    (ends : (¬ excluded .stuck ∧ ¬ excluded .fuel) ∨
      (executeBytecode unit eMask bytecode fuel state).isSome) :
    Avoids excluded
      (executeBytecodeWithin configuration.scratchpadL3Size.toNat unit eMask bytecode fuel state)
      (fun _ => True) := by
  obtain ⟨fault, loop, same⟩ := executeBytecodeWithin_eq unit eMask covered fuel state
  rw [same]
  rcases executed : executeBytecode unit eMask bytecode fuel state with _ | machine
  · rcases ends with outside | done
    · rcases loop with rfl | rfl
      · exact outside.1
      · exact outside.2
    · rw [executed] at done
      cases done
  · trivial

theorem xorLine_avoids {memory : Nat → BitVec 8} {address : Nat} (inside : address + 64 ≤ size)
    (r : Fin 8 → BitVec 64) :
    Avoids excluded (xorLine fault size memory address r) (fun _ => True) := by
  apply avoids_foldlM _ trivial
  intro i _ value _
  have small := i.isLt
  rw [loadWithin_eq (by omega)]
  exact trivial

theorem convertLine_avoids {scratchpad : Scratchpad} {address : Nat}
    (inside : address + 32 ≤ size) (change : Vec128 → Vec128) (registers : Fin 4 → Vec128) :
    Avoids excluded (convertLine unit size scratchpad address change registers) (fun _ => True) := by
  apply avoids_foldlM _ trivial
  intro i _ value _
  have small := i.isLt
  rw [loadWithin_eq (by omega)]
  exact trivial

theorem storeIntegers_avoids {address : Nat} (inside : address + 64 ≤ size) (r : Fin 8 → BitVec 64)
    (scratchpad : Scratchpad) :
    Avoids excluded (storeIntegers size address r scratchpad) (fun _ => True) := by
  apply avoids_foldlM _ trivial
  intro i _ value _
  have small := i.isLt
  rw [storeWithin_eq (by omega)]
  exact trivial

theorem storeFloats_avoids {address : Nat} (inside : address + 64 ≤ size) (f : Fin 4 → Vec128)
    (scratchpad : Scratchpad) :
    Avoids excluded (storeFloats size address f scratchpad) (fun _ => True) := by
  apply avoids_foldlM _ trivial
  intro i _ value _
  have small := i.isLt
  rw [storeWithin_eq (by omega)]
  change Avoids excluded (storeWithin _ _ _ _ _) _
  rw [storeWithin_eq (by omega)]
  exact trivial

/-- The address of a cache line of the base of the dataset. -/
def MemoryRegisters.Inside (mem : MemoryRegisters) : Prop :=
  mem.ma.toNat ≤ cacheLineAlignMask.toNat

theorem initialize_inside (program : Program) : program.initialize.mem.Inside := by
  have masked : (program.entropy 8 &&& cacheLineAlignMask).toNat ≤ cacheLineAlignMask.toNat := by
    rw [BitVec.toNat_and]
    exact Nat.and_le_right
  unfold MemoryRegisters.Inside Program.initialize
  rw [BitVec.toNat_setWidth]
  exact Nat.le_trans (Nat.mod_le _ _) masked

theorem datasetOffset_le (program : Program) :
    program.initialize.datasetOffset.toNat ≤ datasetExtraSize.toNat := by
  have rest : (program.entropy 13 % (datasetExtraItems + 1)).toNat < 524288 := by
    rw [BitVec.toNat_umod]
    exact Nat.mod_lt _ (by decide)
  have extra : datasetExtraSize.toNat = 33554368 := rfl
  unfold Program.initialize
  rw [BitVec.toNat_mul, extra]
  change _ * 64 % 2 ^ 64 ≤ _
  omega

theorem line_inside {mem : MemoryRegisters} (inside : mem.Inside) {offset : BitVec 64}
    (low : offset.toNat ≤ datasetExtraSize.toNat) :
    (offset + mem.ma.setWidth 64).toNat + 64 ≤ (datasetBaseSize + datasetExtraSize).toNat := by
  have extra : datasetExtraSize.toNat = 33554368 := rfl
  have mask : cacheLineAlignMask.toNat = 2147483584 := rfl
  have size : (datasetBaseSize + datasetExtraSize).toNat = 2181038016 := rfl
  have address : mem.ma.toNat ≤ 2147483584 := mask ▸ inside
  rw [size, BitVec.toNat_add, BitVec.toNat_setWidth_of_le (by decide)]
  omega

variable {unit}

theorem iterate_avoids (sizes : Sizes configuration) {initialized : Initialized}
    (offset : initialized.datasetOffset.toNat ≤ datasetExtraSize.toNat)
    {bytecode : List InstructionByteCode} (covered : Covered configuration bytecode)
    {dataset : Nat → BitVec 8} {fuel : Nat}
    (ends : (¬ excluded .stuck ∧ ¬ excluded .fuel) ∨ ∀ machine,
      (executeBytecode unit initialized.config.eMask bytecode fuel ⟨0, machine⟩).isSome)
    {state : Iteration} (inside : state.mem.Inside) :
    Avoids excluded (iterate configuration unit initialized bytecode dataset fuel state)
      fun next => next.mem.Inside := by
  have least : 64 ≤ configuration.scratchpadL3Size.toNat :=
    Nat.le_trans sizes.least (Nat.le_trans sizes.l1_le sizes.l2_le)
  have address : ∀ x : BitVec 32, (x &&& configuration.scratchpadL3Mask64).toNat + 64 ≤
      configuration.scratchpadL3Size.toNat := by
    intro x
    rw [BitVec.toNat_and]
    exact Nat.le_trans (Nat.add_le_add_right Nat.and_le_right 64) (mask64_le least)
  have spAddr1 := address (state.spAddr1 ^^^ ((state.machine.r initialized.config.readReg0 ^^^
    state.machine.r initialized.config.readReg1) >>> 32).setWidth 32)
  unfold iterate
  dsimp only
  apply Avoids.bind (xorLine_avoids (address _) _)
  intro r _
  apply Avoids.bind (convertLine_avoids unit (by omega) _ _)
  intro f _
  apply Avoids.bind (convertLine_avoids unit (by omega) _ _)
  intro e _
  apply Avoids.bind (executeBytecodeWithin_avoids unit _ covered (ends.imp_right fun all => all _))
  intro machine _
  apply Avoids.bind (xorLine_avoids (line_inside inside offset) _)
  intro r _
  apply Avoids.bind (storeIntegers_avoids spAddr1 _ _)
  intro scratchpad _
  apply Avoids.bind (storeFloats_avoids (address _) _ _)
  intro scratchpad _
  -- the masked `mx` becomes the next `ma`
  apply avoids_ok
  have mask : (cacheLineAlignMask.setWidth 32).toNat = cacheLineAlignMask.toNat := rfl
  unfold MemoryRegisters.Inside
  rw [← mask, BitVec.toNat_and]
  exact Nat.and_le_right

theorem iterations_avoids (sizes : Sizes configuration) {initialized : Initialized}
    (offset : initialized.datasetOffset.toNat ≤ datasetExtraSize.toNat)
    {bytecode : List InstructionByteCode} (covered : Covered configuration bytecode)
    {dataset : Nat → BitVec 8} {fuel : Nat}
    (ends : (¬ excluded .stuck ∧ ¬ excluded .fuel) ∨ ∀ machine,
      (executeBytecode unit initialized.config.eMask bytecode fuel ⟨0, machine⟩).isSome)
    (count : Nat) {state : Iteration} (inside : state.mem.Inside) :
    Avoids excluded (iterations configuration unit initialized bytecode dataset fuel count state)
      fun final => final.mem.Inside := by
  induction count generalizing state with
  | zero => exact avoids_ok inside
  | succ count ih =>
    apply Avoids.bind (iterate_avoids sizes offset covered ends inside)
    intro next kept
    exact ih kept

/-- Passes that are enough for a run of the bytecode from its start, whatever the registers. -/
def capacity (bytecode : List InstructionByteCode) : Nat :=
  ∑ c ∈ Finset.range bytecode.length,
    (match bytecode[c]? with
    | some ibc => 2 * (c - ibc.target.toInt).toNat
    | none => 0) + bytecode.length

theorem budget_le_capacity (bytecode : List InstructionByteCode) (machine : Machine) :
    budget bytecode ⟨0, machine⟩ ≤ capacity bytecode := by
  have each : ∀ c, debt bytecode ⟨0, machine⟩ c ≤
      match bytecode[c]? with
      | some ibc => 2 * (c - ibc.target.toInt).toNat
      | none => 0 := by
    intro c
    unfold debt
    rcases bytecode[c]? with _ | ibc
    · exact Nat.le_refl 0
    · dsimp only
      split
      · exact Nat.mul_le_mul_right _ (remaining_le _ _ _)
      · exact Nat.zero_le _
  unfold budget capacity
  apply Nat.add_le_add (Finset.sum_le_sum fun c _ => each c)
  dsimp only
  omega

theorem execute_avoids (sizes : Sizes configuration) {program : Program} {fuel : Nat}
    (ends : (¬ excluded .stuck ∧ ¬ excluded .fuel) ∨ ∀ machine,
      (executeBytecode unit program.initialize.config.eMask
        (compileProgram configuration program.instructions) fuel ⟨0, machine⟩).isSome)
    (dataset : Nat → BitVec 8) (programIterations : Nat) (before : Machine) :
    Avoids excluded (execute configuration unit program dataset programIterations fuel before)
      fun final => final.mem.Inside :=
  iterations_avoids sizes (datasetOffset_le program) (sizes.compileFrom _ _ _) ends
    programIterations (initialize_inside program)

/-- No access of an execution is out of bounds, whatever the program, its entropy and the memory;
and the execution ends. -/
theorem execute_inBounds (configuration : Configuration) (sizes : Sizes configuration)
    (unit : FloatUnit) (program : Program) (dataset : Nat → BitVec 8) (programIterations : Nat)
    (before : Machine) :
    (∀ fuel,
      execute configuration unit program dataset programIterations fuel before ≠
          .error .scratchpad ∧
        execute configuration unit program dataset programIterations fuel before ≠
          .error .dataset) ∧
    (program.instructions.length ≤ 2 ^ 15 → ∃ fuel final,
      execute configuration unit program dataset programIterations fuel before = .ok final) := by
  constructor
  · intro fuel
    have avoids : Avoids (fun fault => fault = .scratchpad ∨ fault = .dataset)
        (execute configuration unit program dataset programIterations fuel before) _ :=
      execute_avoids sizes (.inl (by decide)) dataset programIterations before
    exact ⟨avoids.ne_error (.inl rfl), avoids.ne_error (.inr rfl)⟩
  · intro fits
    have disciplined := compileProgram_disciplined configuration program.instructions fits
    have ends : ∀ machine, (executeBytecode unit program.initialize.config.eMask
        (compileProgram configuration program.instructions)
        (capacity (compileProgram configuration program.instructions)) ⟨0, machine⟩).isSome := by
      intro machine
      apply executeBytecode_isSome disciplined (compileFrom_executable _ _ _ _)
      · exact Int.le_refl 0
      · exact budget_le_capacity _ machine
    obtain ⟨final, ended, -⟩ :=
      (execute_avoids sizes (.inr ends) dataset programIterations before).exists_ok
    exact ⟨_, final, ended⟩

/-- The Wownero sizes, one ISTORE with its address in the third level and one iteration. -/
theorem execute_inBounds_wownero :
    Sizes Configuration.wownero ∧ ([⟨240, 0, 1, 0xE0, 0⟩] : List Instruction).length ≤ 2 ^ 15 ∧
      ∃ fuel final, execute Configuration.wownero
        ⟨fun _ x _ => x, fun _ x _ => x, fun _ x _ => x, fun _ x _ => x, fun _ x => x,
          fun x => x.setWidth 64⟩ ⟨fun _ => 0xffffffffffffffff, [⟨240, 0, 1, 0xE0, 0⟩]⟩
        (fun _ => 0) 1 fuel
        ⟨fun _ => 0, fun _ => ⟨0, 0⟩, fun _ => ⟨0, 0⟩, fun _ => ⟨0, 0⟩, fun _ => 0, 0⟩ = .ok final :=
  have sizes : Sizes Configuration.wownero := ⟨by decide, by decide, by decide⟩
  ⟨sizes, by decide, (execute_inBounds Configuration.wownero sizes _
    ⟨_, [⟨240, 0, 1, 0xE0, 0⟩]⟩ _ _ _).2 (by decide)⟩

end Bounds

end Xmrig.RandomX
