import Xmrig.RandomX.JitLayout
import Xmrig.RandomX.VmInterpreted

/-! The state of the processor that stands for a state of the virtual machine.

The code around a program leaves constants in registers and on the stack. While the
program runs, its registers hold those of the virtual machine, and of the memory only
the scratchpad changes and one word below the stack's constants, which remembers the
last index into the table of rounding modes. Three registers and one vector register
are free.
-/

set_option autoImplicit false

namespace Xmrig.RandomX

open Foundation Jit

/-- The arithmetic of the processor is the one that the interpreter uses. -/
def FloatUnit.packed (unit : FloatUnit) : PackedArithmetic :=
  ⟨unit.add, unit.sub, unit.mul, unit.div, unit.sqrt, unit.ofInt32⟩

def Vec128.packed (x : Vec128) : Packed := ⟨x.lo, x.hi⟩

theorem native_f (index : Fin 4) : index.val < 16 := by omega

theorem native_e (index : Fin 4) : 4 + index.val < 16 := by omega

theorem native_a (index : Fin 4) : 8 + index.val < 16 := by omega

def nativeFloat : FloatRegister → Fin 16
  | .f index => ⟨index.val, native_f index⟩
  | .e index => ⟨4 + index.val, native_e index⟩
  | .a index => ⟨8 + index.val, native_a index⟩

theorem nativeFloat_lt (register : FloatRegister) : (nativeFloat register).val < 12 := by
  cases register with
  | f index | e index | a index =>
    have := index.isLt
    simp only [nativeFloat]
    omega

theorem nativeFloat_inj {first second : FloatRegister} (same : nativeFloat first = nativeFloat second) :
    first = second := by
  cases first <;> cases second <;> simp only [nativeFloat, Fin.mk.injEq] at same <;> simp only [reduceCtorEq,
    FloatRegister.f.injEq, FloatRegister.e.injEq, FloatRegister.a.injEq, Fin.ext_iff] <;> omega

theorem native_inj {first second : Fin 8} (same : native first = native second) : first = second := by
  simp only [native, Fin.mk.injEq] at same
  exact Fin.ext (by omega)

/-- The control word of a rounding mode, as the prologue writes it to the stack. -/
def controlWord (mode : RoundingMode) : BitVec 32 := 0x9FC0 ||| (mode.setWidth 32 <<< 13)

def Configuration.size (config : Configuration) : Nat := config.scratchpadL3Size.toNat

section Relation
variable (options : JitOptions)

/-- What the code around a program provides. The reciprocals take 128 bytes below the stack
pointer, and the table and the remembered index 36 bytes from it on. -/
structure Framed (eMask : Vec128) (storage : List (BitVec 64)) (frame : Cpu) : Prop where
  mantissa : frame.xmm 13 = ⟨0x00FFFFFFFFC00000, 0x00FFFFFFFFC00000⟩
  exponent : frame.xmm 14 = eMask.packed
  scale : frame.xmm 15 = ⟨0x80F0000000000000, 0x80F0000000000000⟩
  table : ∀ mode : RoundingMode,
    loadMemory32 frame.memory (frame.gpr 4 + mode.setWidth 64 * 4) = controlWord mode
  stored : ∀ used < 16, ∀ value, storage[used]? = some value →
    loadMemory frame.memory (frame.gpr 4 + (BitVec.ofNat 8 (248 - used * 8)).signExtend 64) = value
  apart : ∀ k < options.config.size, ∀ offset < 164,
    frame.gpr 4 - 128 + BitVec.ofNat 64 offset ≠ frame.gpr 6 + BitVec.ofNat 64 k

/-- The processor, started from `frame`, is in a state of the virtual machine. -/
structure Related (frame : Cpu) (machine : Machine) (cpu : Cpu) : Prop where
  integer : ∀ index, cpu.gpr (native index) = machine.r index
  float : ∀ register, cpu.xmm (nativeFloat register) = (machine.float register).packed
  pointers : ∀ index : Fin 16, 3 ≤ index.val → index.val < 8 → cpu.gpr index = frame.gpr index
  constants : ∀ index : Fin 16, 13 ≤ index.val → cpu.xmm index = frame.xmm index
  rounding : cpu.rounding = machine.rounding
  scratchpad : ∀ k < options.config.size,
    cpu.memory (frame.gpr 6 + BitVec.ofNat 64 k) = machine.scratchpad k
  outside : ∀ address, (∀ k < options.config.size, address ≠ frame.gpr 6 + BitVec.ofNat 64 k) →
    (∀ k < 4, address ≠ frame.gpr 4 + BitVec.ofNat 64 (32 + k)) → cpu.memory address = frame.memory address
  cached : options.amd = true →
    loadMemory32 cpu.memory (frame.gpr 4 + 32) = -1 ∨
      loadMemory32 cpu.memory (frame.gpr 4 + 32) = machine.rounding.setWidth 32 * 4

variable {options} {frame : Cpu} {machine : Machine} {cpu : Cpu}

namespace Related

theorem flags (related : Related options frame machine cpu) (zf : Option Bool) :
    Related options frame machine { cpu with zf } :=
  ⟨related.integer, related.float, related.pointers, related.constants, related.rounding, related.scratchpad,
    related.outside, related.cached⟩

theorem setTemporary (related : Related options frame machine cpu) {temporary : Fin 16} (free : temporary.val < 3)
    (value : BitVec 64) : Related options frame machine (cpu.setGpr temporary value) where
  integer index := by
    have other : native index ≠ temporary := by
      rintro rfl
      simp only [native] at free
      omega
    exact (Function.update_of_ne other _ _).trans (related.integer index)
  float := related.float
  pointers index lower upper := by
    have other : index ≠ temporary := by
      rintro rfl
      omega
    exact (Function.update_of_ne other _ _).trans (related.pointers index lower upper)
  constants := related.constants
  rounding := related.rounding
  scratchpad := related.scratchpad
  outside := related.outside
  cached := related.cached

theorem setInteger (related : Related options frame machine cpu) (index : Fin 8) {value result : BitVec 64}
    (same : value = result) : Related options frame (machine.setR index result) (cpu.setGpr (native index) value) where
  integer other := by
    subst same
    by_cases here : other = index
    · subst here
      simp [Cpu.setGpr]
    · have apart : native other ≠ native index := fun equal => here (native_inj equal)
      simp only [Cpu.setGpr, Function.update_of_ne apart, Machine.setR_r, Function.update_of_ne here]
      exact related.integer other
  float := related.float
  pointers other lower upper := by
    have apart : other ≠ native index := by
      rintro rfl
      simp only [native] at upper
      omega
    exact (Function.update_of_ne apart _ _).trans (related.pointers other lower upper)
  constants := related.constants
  rounding := related.rounding
  scratchpad := related.scratchpad
  outside := related.outside
  cached := related.cached

/-- `xmm12` is free. -/
theorem setVector (related : Related options frame machine cpu) (value : Packed) :
    Related options frame machine (cpu.setXmm 12 value) where
  integer := related.integer
  float register := by
    have other : nativeFloat register ≠ 12 := by
      intro equal
      have small := nativeFloat_lt register
      rw [equal] at small
      exact absurd small (by decide)
    exact (Function.update_of_ne other _ _).trans (related.float register)
  pointers := related.pointers
  constants index lower := by
    have other : index ≠ 12 := by
      rintro rfl
      exact absurd lower (by decide)
    exact (Function.update_of_ne other _ _).trans (related.constants index lower)
  rounding := related.rounding
  scratchpad := related.scratchpad
  outside := related.outside
  cached := related.cached

end Related

theorem Machine.setFloat_float (machine : Machine) (value : Vec128) (register other : FloatRegister) :
    (machine.setFloat value register).float other = if other = register then value else machine.float other := by
  cases register <;> cases other <;> simp [Machine.setFloat, Machine.float, Function.update_apply]

theorem Machine.setFloat_scratchpad (machine : Machine) (value : Vec128) (register : FloatRegister) :
    (machine.setFloat value register).scratchpad = machine.scratchpad := by
  cases register <;> rfl

namespace Related

theorem setFloat (related : Related options frame machine cpu) (register : FloatRegister) {value : Packed}
    {result : Vec128} (same : value = result.packed) :
    Related options frame (machine.setFloat result register) (cpu.setXmm (nativeFloat register) value) where
  integer index := by
    rw [Machine.setFloat_r]
    exact related.integer index
  float other := by
    rw [Machine.setFloat_float]
    by_cases here : other = register
    · rw [if_pos here, here, ← same]
      exact Function.update_self _ _ _
    · rw [if_neg here, ← related.float other]
      exact Function.update_of_ne (fun equal => here (nativeFloat_inj equal)) _ _
  pointers := related.pointers
  constants index lower := by
    have other : index ≠ nativeFloat register := by
      rintro rfl
      have := nativeFloat_lt register
      omega
    exact (Function.update_of_ne other _ _).trans (related.constants index lower)
  rounding := by
    rw [Machine.setFloat_rounding]
    exact related.rounding
  scratchpad k inside := by
    rw [Machine.setFloat_scratchpad]
    exact related.scratchpad k inside
  outside := related.outside
  cached := by
    rw [Machine.setFloat_rounding]
    exact related.cached

end Related

end Relation

/-! ## Memory -/

section Memory
variable {options : JitOptions} {frame : Cpu} {machine : Machine} {cpu : Cpu}

theorem add_ofNat (base address : BitVec 64) (k : Nat) :
    base + address + BitVec.ofNat 64 k = base + BitVec.ofNat 64 (address.toNat + k) := by
  rw [BitVec.ofNat_add, BitVec.ofNat_toNat, BitVec.setWidth_eq, BitVec.add_assoc]

theorem Related.load (related : Related options frame machine cpu) {address : BitVec 64}
    (inside : address.toNat + 8 ≤ options.config.size) :
    loadMemory cpu.memory (cpu.gpr 6 + address) = machine.scratchpad.load64 address.toNat := by
  have byte : ∀ k < 8, cpu.memory (cpu.gpr 6 + address + BitVec.ofNat 64 k) = machine.scratchpad (address.toNat + k) := by
    intro k small
    rw [related.pointers 6 (by decide) (by decide), add_ofNat]
    exact related.scratchpad _ (by omega)
  have lowest := byte 0 (by decide)
  rw [show BitVec.ofNat 64 0 = 0#64 from rfl, BitVec.add_zero] at lowest
  unfold loadMemory Scratchpad.load64
  rw [lowest, ← byte 1 (by decide), ← byte 2 (by decide), ← byte 3 (by decide), ← byte 4 (by decide),
    ← byte 5 (by decide), ← byte 6 (by decide), ← byte 7 (by decide)]
  rfl

theorem Related.stack {eMask : Vec128} {storage : List (BitVec 64)} (framed : Framed options eMask storage frame)
    (related : Related options frame machine cpu) {offset : Nat} (inside : offset < 160) :
    cpu.memory (frame.gpr 4 - 128 + BitVec.ofNat 64 offset) =
      frame.memory (frame.gpr 4 - 128 + BitVec.ofNat 64 offset) := by
  apply related.outside
  · intro k small
    exact framed.apart k small offset (by omega)
  · intro k small equal
    have shifted : frame.gpr 4 + BitVec.ofNat 64 (32 + k) = frame.gpr 4 - 128 + BitVec.ofNat 64 (160 + k) := by
      rw [show 160 + k = 128 + (32 + k) by omega, BitVec.ofNat_add 128, ← BitVec.add_assoc]
      congr 1
      exact (BitVec.sub_add_cancel _ _).symm
    rw [shifted, BitVec.add_right_inj] at equal
    have numbers := congrArg BitVec.toNat equal
    simp only [BitVec.toNat_ofNat] at numbers
    omega

theorem stack_word (base : BitVec 64) (offset : Nat) :
    base - 128 + BitVec.ofNat 64 (128 + offset) = base + BitVec.ofNat 64 offset := by
  rw [BitVec.ofNat_add, ← BitVec.add_assoc]
  congr 1
  exact BitVec.sub_add_cancel _ _

theorem Related.table {eMask : Vec128} {storage : List (BitVec 64)} (framed : Framed options eMask storage frame)
    (related : Related options frame machine cpu) (mode : RoundingMode) :
    loadMemory32 cpu.memory (cpu.gpr 4 + mode.setWidth 64 * 4) = controlWord mode := by
  have small := mode.isLt
  have entry : (mode.setWidth 64 * 4).toNat = mode.toNat * 4 := by
    rw [BitVec.toNat_mul, BitVec.toNat_setWidth_of_le (by decide)]
    change _ * 4 % _ = _
    omega
  rw [related.pointers 4 (by decide) (by decide), ← framed.table mode]
  apply loadMemory32_congr
  intro k less
  rw [add_ofNat, entry, ← stack_word]
  exact related.stack framed (by omega)

theorem Related.reciprocal {eMask : Vec128} {storage : List (BitVec 64)} (framed : Framed options eMask storage frame)
    (related : Related options frame machine cpu) {used : Nat} (room : used < 16) {value : BitVec 64}
    (stored : storage[used]? = some value) :
    loadMemory cpu.memory (cpu.gpr 4 + (BitVec.ofNat 8 (248 - used * 8)).signExtend 64) = value := by
  have place : ∀ used : Fin 16, (BitVec.ofNat 8 (248 - used.val * 8)).signExtend 64 =
      BitVec.ofNat 64 (120 - used.val * 8) - 128 := by decide
  rw [related.pointers 4 (by decide) (by decide), ← framed.stored used room value stored]
  apply loadMemory_congr
  intro k less
  have shifted : frame.gpr 4 + (BitVec.ofNat 8 (248 - used * 8)).signExtend 64 + BitVec.ofNat 64 k =
      frame.gpr 4 - 128 + BitVec.ofNat 64 (120 - used * 8 + k) := by
    rw [place ⟨used, room⟩, BitVec.ofNat_add, ← BitVec.add_assoc]
    congr 1
    rw [BitVec.sub_eq_add_neg, BitVec.sub_eq_add_neg, BitVec.add_assoc,
      BitVec.add_comm (-128) (BitVec.ofNat 64 (120 - used * 8))]
  rw [shifted]
  exact related.stack framed (by omega)

theorem distance (base address : BitVec 64) {k : Nat} (small : k < 2 ^ 64) :
    (base + BitVec.ofNat 64 k - (base + address)).toNat = (2 ^ 64 - address.toNat + k) % 2 ^ 64 := by
  have cancel : base + BitVec.ofNat 64 k - (base + address) = BitVec.ofNat 64 k - address := by
    rw [BitVec.sub_eq_add_neg, BitVec.neg_add, BitVec.sub_eq_add_neg, BitVec.add_comm base, BitVec.add_assoc,
      ← BitVec.add_assoc base, BitVec.add_right_neg, BitVec.zero_add, ← BitVec.sub_eq_add_neg]
  rw [cancel, BitVec.toNat_sub, BitVec.toNat_ofNat, Nat.mod_eq_of_lt small]

theorem size_lt (config : Configuration) : config.size < 2 ^ 32 := config.scratchpadL3Size.isLt

theorem Related.store {eMask : Vec128} {storage : List (BitVec 64)} (framed : Framed options eMask storage frame)
    (related : Related options frame machine cpu) {address : BitVec 64}
    (inside : address.toNat + 8 ≤ options.config.size) (value : BitVec 64) :
    Related options frame { machine with scratchpad := machine.scratchpad.store64 address.toNat value }
      { cpu with memory := storeMemory cpu.memory (cpu.gpr 6 + address) 8 value } := by
  have size := size_lt options.config
  have base := related.pointers 6 (by decide) (by decide)
  have elsewhere : ∀ other, (∀ k < options.config.size, other ≠ frame.gpr 6 + BitVec.ofNat 64 k) →
      storeMemory cpu.memory (cpu.gpr 6 + address) 8 value other = cpu.memory other := by
    intro other apart
    apply if_neg
    intro near
    refine apart (address.toNat + (other - (cpu.gpr 6 + address)).toNat) (by omega) ?_
    rw [← add_ofNat, BitVec.ofNat_toNat, BitVec.setWidth_eq, ← base, BitVec.add_comm, BitVec.sub_add_cancel]
  constructor
  · exact related.integer
  · exact related.float
  · exact related.pointers
  · exact related.constants
  · exact related.rounding
  · intro k small
    have far := distance (frame.gpr 6) address (show k < 2 ^ 64 by omega)
    change storeMemory _ _ _ _ _ = machine.scratchpad.store64 address.toNat value k
    unfold storeMemory Scratchpad.store64
    rw [base, far]
    by_cases within : address.toNat ≤ k ∧ k < address.toNat + 8
    · have reach : (2 ^ 64 - address.toNat + k) % 2 ^ 64 = k - address.toNat := by omega
      rw [if_pos within, if_pos (by omega), reach]
    · rw [if_neg within, if_neg (by omega)]
      exact related.scratchpad k small
  · intro other apart away
    exact (elsewhere other apart).trans (related.outside other apart away)
  · intro amd
    have word : loadMemory32 (storeMemory cpu.memory (cpu.gpr 6 + address) 8 value) (frame.gpr 4 + 32) =
        loadMemory32 cpu.memory (frame.gpr 4 + 32) := by
      apply loadMemory32_congr
      intro k less
      apply elsewhere
      intro j small
      rw [add_ofNat, ← stack_word]
      exact framed.apart j small _ (by change 128 + (32 + k) < 164; omega)
    rw [show (({ cpu with memory := storeMemory cpu.memory (cpu.gpr 6 + address) 8 value } : Cpu)).memory =
      storeMemory cpu.memory (cpu.gpr 6 + address) 8 value from rfl, word]
    exact related.cached amd

end Memory

end Xmrig.RandomX
