import Mathlib.Algebra.GroupWithZero.Nat
import Xmrig.Foundation.MachineCode

/-! Running the machine code of `MachineCode`.

A straight instruction is a function on the state of the processor. A step decodes
the instruction at the position in the code and goes on behind it or jumps.
`Assembles` says that bytes are the code of a list of straight instructions; wherever
such bytes stand in the code, the list is run and the position ends up behind them.
-/

set_option autoImplicit false

namespace Foundation

open ByteReader

/-- The zero flag has no value where the last instruction leaves it undefined. -/
structure Cpu where
  gpr : Fin 16 → BitVec 64
  xmm : Fin 16 → Packed
  zf : Option Bool
  mxcsr : BitVec 32
  memory : BitVec 64 → BitVec 8

section Memory

def loadMemory (memory : BitVec 64 → BitVec 8) (address : BitVec 64) : BitVec 64 :=
  memory (address + 7) ++ memory (address + 6) ++ memory (address + 5) ++ memory (address + 4) ++
    memory (address + 3) ++ memory (address + 2) ++ memory (address + 1) ++ memory address

def loadMemory32 (memory : BitVec 64 → BitVec 8) (address : BitVec 64) : BitVec 32 :=
  memory (address + 3) ++ memory (address + 2) ++ memory (address + 1) ++ memory address

section Congruence
variable {first second : BitVec 64 → BitVec 8} {a b : BitVec 64}

theorem loadMemory_congr (same : ∀ k < 8, first (a + BitVec.ofNat 64 k) = second (b + BitVec.ofNat 64 k)) :
    loadMemory first a = loadMemory second b := by
  have lowest : first a = second b := by
    have byte := same 0 (by decide)
    rwa [show BitVec.ofNat 64 0 = 0#64 from rfl, BitVec.add_zero, BitVec.add_zero] at byte
  unfold loadMemory
  rw [lowest, show first (a + 1) = second (b + 1) from same 1 (by decide),
    show first (a + 2) = second (b + 2) from same 2 (by decide),
    show first (a + 3) = second (b + 3) from same 3 (by decide),
    show first (a + 4) = second (b + 4) from same 4 (by decide),
    show first (a + 5) = second (b + 5) from same 5 (by decide),
    show first (a + 6) = second (b + 6) from same 6 (by decide),
    show first (a + 7) = second (b + 7) from same 7 (by decide)]

theorem loadMemory32_congr (same : ∀ k < 4, first (a + BitVec.ofNat 64 k) = second (b + BitVec.ofNat 64 k)) :
    loadMemory32 first a = loadMemory32 second b := by
  have lowest : first a = second b := by
    have byte := same 0 (by decide)
    rwa [show BitVec.ofNat 64 0 = 0#64 from rfl, BitVec.add_zero, BitVec.add_zero] at byte
  unfold loadMemory32
  rw [lowest, show first (a + 1) = second (b + 1) from same 1 (by decide),
    show first (a + 2) = second (b + 2) from same 2 (by decide),
    show first (a + 3) = second (b + 3) from same 3 (by decide)]

end Congruence

/-- Store the lowest `count` bytes of a value. -/
def storeMemory (memory : BitVec 64 → BitVec 8) (address : BitVec 64) (count : Nat) (value : BitVec 64) :
    BitVec 64 → BitVec 8 := fun position =>
  if (position - address).toNat < count then (value >>> (8 * (position - address).toNat)).setWidth 8
  else memory position

theorem storeMemory_stored (memory : BitVec 64 → BitVec 8) (address : BitVec 64) {count k : Nat}
    (value : BitVec 64) (less : k < count) (small : k < 2 ^ 64) :
    storeMemory memory address count value (address + BitVec.ofNat 64 k) = (value >>> (8 * k)).setWidth 8 := by
  have place : (address + BitVec.ofNat 64 k - address).toNat = k := by
    rw [BitVec.add_comm, BitVec.add_sub_cancel, BitVec.toNat_ofNat, Nat.mod_eq_of_lt small]
  unfold storeMemory
  rw [place, if_pos less]

theorem loadMemory32_storeMemory (memory : BitVec 64 → BitVec 8) (address value : BitVec 64) :
    loadMemory32 (storeMemory memory address 4 value) address = value.setWidth 32 := by
  have byte := fun (k : Nat) (less : k < 4) =>
    storeMemory_stored memory address value less (Nat.lt_trans less (by decide))
  have lowest := byte 0 (by decide)
  rw [show BitVec.ofNat 64 0 = 0#64 from rfl, BitVec.add_zero] at lowest
  unfold loadMemory32
  rw [lowest, show storeMemory memory address 4 value (address + 1) = _ from byte 1 (by decide),
    show storeMemory memory address 4 value (address + 2) = _ from byte 2 (by decide),
    show storeMemory memory address 4 value (address + 3) = _ from byte 3 (by decide)]
  apply BitVec.eq_of_getLsbD_eq
  intro position bound
  simp only [BitVec.getLsbD_append, BitVec.getLsbD_setWidth, BitVec.getLsbD_ushiftRight]
  grind

end Memory

namespace Cpu

def setGpr (cpu : Cpu) (index : Fin 16) (value : BitVec 64) : Cpu :=
  { cpu with gpr := Function.update cpu.gpr index value }

def setXmm (cpu : Cpu) (index : Fin 16) (value : Packed) : Cpu :=
  { cpu with xmm := Function.update cpu.xmm index value }

section Operands
variable (cpu : Cpu) (constant : BitVec 64)

def address (address : Address) : BitVec 64 :=
  match address.index with
  | none => cpu.gpr address.base + constant
  | some (index, shift) => cpu.gpr address.base + cpu.gpr index <<< shift + constant

def value : Operand → BitVec 64
  | .reg index => cpu.gpr index
  | .mem operand => loadMemory cpu.memory (cpu.address constant operand)
  | .constant => constant

def value32 : Operand → BitVec 32
  | .reg index => (cpu.gpr index).setWidth 32
  | .mem operand => loadMemory32 cpu.memory (cpu.address constant operand)
  | .constant => constant.setWidth 32

end Operands

/-- The field of the control register that the arithmetic rounds by. -/
def rounding (cpu : Cpu) : BitVec 2 := cpu.mxcsr.extractLsb' 13 2

end Cpu

section Execute

def IntegerOp.eval {w : Nat} : IntegerOp → BitVec w → BitVec w → BitVec w
  | .add, x, y => x + y
  | .and, x, y | .test, x, y => x &&& y
  | .sub, x, y | .cmp, x, y => x - y
  | .xor, x, y => x ^^^ y

def IntegerOp.stores : IntegerOp → Bool
  | .cmp | .test => false
  | _ => true

def wideProduct (signed : Bool) (x y : BitVec 64) : BitVec 128 :=
  if signed then x.signExtend 128 * y.signExtend 128 else x.setWidth 128 * y.setWidth 128

def PackedOp.eval (arithmetic : PackedArithmetic) (control : BitVec 2) : PackedOp → Packed → Packed → Packed
  | .addpd, x, y => x.map2 (arithmetic.add control) y
  | .subpd, x, y => x.map2 (arithmetic.sub control) y
  | .mulpd, x, y => x.map2 (arithmetic.mul control) y
  | .divpd, x, y => x.map2 (arithmetic.div control) y
  | .sqrtpd, _, y => y.map (arithmetic.sqrt control)
  | .andps, x, y => x.map2 (· &&& ·) y
  | .orps, x, y => x.map2 (· ||| ·) y
  | .xorps, x, y => x.map2 (· ^^^ ·) y

/-- The lanes that `shufpd` takes, the lower one from the first operand. -/
def shuffle (lanes : BitVec 64) (x y : Packed) : Packed :=
  ⟨if lanes.getLsbD 0 then x.hi else x.lo, if lanes.getLsbD 1 then y.hi else y.lo⟩

/-- The bits of the first value where the selector has ones, of the second one elsewhere. -/
def choose (selector x y : BitVec 64) : BitVec 64 := (x &&& selector) ||| (y &&& ~~~selector)

def rotated (left : Bool) (count : BitVec 64) (x : BitVec 64) : BitVec 64 :=
  if left then x.rotateLeft (count.toNat % 64) else x.rotateRight (count.toNat % 64)

theorem sixteen_neZero : NeZero (16 : Nat) := ⟨by decide⟩

attribute [local instance] sixteen_neZero in
def Straight.exec (arithmetic : PackedArithmetic) (constant : BitVec 64) (cpu : Cpu) : Straight → Cpu
  | .nop => cpu
  | .arith op true dst src =>
      let result := op.eval (cpu.gpr dst) (cpu.value constant src)
      let flagged := { cpu with zf := some (result == 0) }
      if op.stores then flagged.setGpr dst result else flagged
  | .arith op false dst src =>
      let result := op.eval ((cpu.gpr dst).setWidth 32) (cpu.value32 constant src)
      let flagged := { cpu with zf := some (result == 0) }
      if op.stores then flagged.setGpr dst (result.setWidth 64) else flagged
  | .lea wide dst operand =>
      let address := cpu.address constant operand
      cpu.setGpr dst (if wide then address else (address.setWidth 32).setWidth 64)
  | .mov wide dst src =>
      cpu.setGpr dst (if wide then cpu.value constant src else (cpu.value32 constant src).setWidth 64)
  | .store wide operand src =>
      { cpu with
        memory := storeMemory cpu.memory (cpu.address constant operand) (if wide then 8 else 4) (cpu.gpr src) }
  | .imul dst src => { cpu with zf := none }.setGpr dst (cpu.gpr dst * cpu.value constant src)
  | .imulBy dst src => { cpu with zf := none }.setGpr dst (cpu.gpr src * constant)
  | .mulWide signed src =>
      let product := wideProduct signed (cpu.gpr 0) (cpu.value constant src)
      ({ cpu with zf := none }.setGpr 0 (product.setWidth 64)).setGpr 2 ((product >>> 64).setWidth 64)
  | .mulx high low src =>
      -- the high half is what remains where both registers are the same
      let product := wideProduct false (cpu.gpr 2) (cpu.value constant src)
      (cpu.setGpr low (product.setWidth 64)).setGpr high ((product >>> 64).setWidth 64)
  | .neg dst => { cpu with zf := some (cpu.gpr dst == 0) }.setGpr dst (-cpu.gpr dst)
  | .rotate left dst byCl =>
      cpu.setGpr dst (rotated left (if byCl then cpu.gpr 1 else constant) (cpu.gpr dst))
  | .rorx dst src => cpu.setGpr dst (rotated false constant (cpu.gpr src))
  | .xchg first second => (cpu.setGpr first (cpu.gpr second)).setGpr second (cpu.gpr first)
  | .ldmxcsr operand => { cpu with mxcsr := loadMemory32 cpu.memory (cpu.address constant operand) }
  | .packed op dst src => cpu.setXmm dst (op.eval arithmetic cpu.rounding (cpu.xmm dst) (cpu.xmm src))
  | .shufpd dst src => cpu.setXmm dst (shuffle constant (cpu.xmm dst) (cpu.xmm src))
  | .cvtdq2pd dst operand =>
      let quad := loadMemory cpu.memory (cpu.address constant operand)
      cpu.setXmm dst ⟨arithmetic.ofInt32 (quad.setWidth 32), arithmetic.ofInt32 ((quad >>> 32).setWidth 32)⟩
  | .vpcmov dst first second =>
      let selector := cpu.xmm (Fin.ofNat 16 (constant.extractLsb' 4 4).toNat)
      cpu.setXmm dst ⟨choose selector.lo (cpu.xmm first).lo (cpu.xmm second).lo,
        choose selector.hi (cpu.xmm first).hi (cpu.xmm second).hi⟩

/-- A straight instruction with its constant. -/
abbrev Constanted := Straight × BitVec 64

variable (arithmetic : PackedArithmetic)

def execStraight : List Constanted → Cpu → Cpu
  | [], cpu => cpu
  | (instr, constant) :: rest, cpu => execStraight rest (instr.exec arithmetic constant cpu)

theorem execStraight_append (first second : List Constanted) (cpu : Cpu) :
    execStraight arithmetic (first ++ second) cpu =
      execStraight arithmetic second (execStraight arithmetic first cpu) := by
  induction first generalizing cpu with
  | nil => rfl
  | cons instr rest ih => exact ih _

end Execute

section Step

structure Fetching where
  position : Nat
  cpu : Cpu

/-- The position that an offset from the next instruction leads to. -/
def jumpTarget (next : Nat) (offset : BitVec 64) : Option Nat :=
  if (next : Int) + offset.toInt < 0 then none else some ((next : Int) + offset.toInt).toNat

theorem jumpTarget_eq {next target : Nat} {offset : BitVec 64} (same : (next : Int) + offset.toInt = target) :
    jumpTarget next offset = some target := by
  rw [jumpTarget, same, if_neg (by omega), Int.toNat_natCast]

/-- No value where no instruction is found, a jump leaves the code or its flag is undefined. -/
def machineStep (arithmetic : PackedArithmetic) (code : List (BitVec 8)) (state : Fetching) : Option Fetching :=
  (decode (code.drop state.position)).bind fun decoded =>
    let next := code.length - decoded.2.length
    match decoded.1 with
    | ⟨.next instr, constant⟩ => some ⟨next, instr.exec arithmetic constant state.cpu⟩
    | ⟨.jump false, offset⟩ => (jumpTarget next offset).map fun target => ⟨target, state.cpu⟩
    | ⟨.jump true, offset⟩ =>
        state.cpu.zf.bind fun zero =>
          if zero then (jumpTarget next offset).map fun target => ⟨target, state.cpu⟩
          else some ⟨next, state.cpu⟩

/-- The second state is reached from the first one in some number of steps. -/
def Reaches (arithmetic : PackedArithmetic) (code : List (BitVec 8)) : Fetching → Fetching → Prop :=
  Relation.ReflTransGen fun before after => machineStep arithmetic code before = some after

/-- Bytes that are the code of a list of straight instructions. -/
inductive Assembles : List (BitVec 8) → List Constanted → Prop where
  | nil : Assembles [] []
  | cons {first rest : List (BitVec 8)} {instr : Straight} {constant : BitVec 64} {instrs : List Constanted}
      (head : decode first = some (⟨.next instr, constant⟩, [])) (tail : Assembles rest instrs) :
      Assembles (first ++ rest) ((instr, constant) :: instrs)

theorem Assembles.append {first second : List (BitVec 8)} {before after : List Constanted}
    (left : Assembles first before) (right : Assembles second after) :
    Assembles (first ++ second) (before ++ after) := by
  induction left with
  | nil => exact right
  | cons head tail ih =>
    rw [List.append_assoc]
    exact .cons head ih

theorem Assembles.single {bytes : List (BitVec 8)} {instr : Straight} {constant : BitVec 64}
    (head : decode bytes = some (⟨.next instr, constant⟩, [])) : Assembles bytes [(instr, constant)] := by
  have whole := Assembles.cons head .nil
  rwa [List.append_nil] at whole

/-- Instructions without a jump, decoded to the end of the bytes. -/
def decodeMany : Nat → List (BitVec 8) → Option (List Constanted)
  | _, [] => some []
  | 0, _ :: _ => none
  | fuel + 1, bytes@(_ :: _) =>
      (decode bytes).bind fun decoded =>
        match decoded.1 with
        | ⟨.next instr, constant⟩ => (decodeMany fuel decoded.2).map ((instr, constant) :: ·)
        | ⟨.jump _, _⟩ => none

end Step

section Blocks
variable {arithmetic : PackedArithmetic} {code : List (BitVec 8)}

theorem Reaches.trans {first second third : Fetching} (before : Reaches arithmetic code first second)
    (after : Reaches arithmetic code second third) : Reaches arithmetic code first third :=
  Relation.ReflTransGen.trans before after

theorem Reaches.step {before after : Fetching} (stepped : machineStep arithmetic code before = some after) :
    Reaches arithmetic code before after :=
  Relation.ReflTransGen.single stepped

theorem next_position {bytes more : List (BitVec 8)} {position : Nat}
    (stands : code.drop position = bytes ++ more) (nonempty : bytes ≠ []) :
    code.length - more.length = position + bytes.length := by
  have total := congrArg List.length stands
  have positive := List.length_pos_iff.mpr nonempty
  rw [List.length_drop, List.length_append] at total
  omega

theorem decode_ne_nil {bytes : List (BitVec 8)} {instr : Instr}
    (decoded : decode bytes = some (instr, [])) : bytes ≠ [] := by
  rintro rfl
  cases decoded

section Single
variable {bytes more : List (BitVec 8)} {position : Nat} {constant : BitVec 64} (arithmetic) (cpu : Cpu)

theorem decode_drop {instr : Instr} (decoded : decode bytes = some (instr, []))
    (stands : code.drop position = bytes ++ more) : decode (code.drop position) = some (instr, more) := by
  rw [stands]
  exact prefixed_decode.append decoded more

theorem machineStep_next {instr : Straight} (decoded : decode bytes = some (⟨.next instr, constant⟩, []))
    (stands : code.drop position = bytes ++ more) :
    machineStep arithmetic code ⟨position, cpu⟩ =
      some ⟨position + bytes.length, instr.exec arithmetic constant cpu⟩ := by
  unfold machineStep
  rw [decode_drop decoded stands]
  simp only [Option.bind_some, next_position stands (decode_ne_nil decoded)]

theorem machineStep_jump (decoded : decode bytes = some (⟨.jump false, constant⟩, []))
    (stands : code.drop position = bytes ++ more) :
    machineStep arithmetic code ⟨position, cpu⟩ =
      (jumpTarget (position + bytes.length) constant).map fun target => ⟨target, cpu⟩ := by
  unfold machineStep
  rw [decode_drop decoded stands]
  simp only [Option.bind_some, next_position stands (decode_ne_nil decoded)]

theorem machineStep_jumpZero (decoded : decode bytes = some (⟨.jump true, constant⟩, []))
    (stands : code.drop position = bytes ++ more) {zero : Bool} (flag : cpu.zf = some zero) :
    machineStep arithmetic code ⟨position, cpu⟩ =
      if zero then (jumpTarget (position + bytes.length) constant).map fun target => ⟨target, cpu⟩
      else some ⟨position + bytes.length, cpu⟩ := by
  unfold machineStep
  rw [decode_drop decoded stands]
  simp only [Option.bind_some, next_position stands (decode_ne_nil decoded), flag]

end Single

theorem assembles_of_decodeMany {fuel : Nat} {bytes : List (BitVec 8)} {instrs : List Constanted}
    (decoded : decodeMany fuel bytes = some instrs) : Assembles bytes instrs := by
  induction fuel generalizing bytes instrs with
  | zero =>
    cases bytes with
    | nil =>
      cases decoded
      exact .nil
    | cons first rest => cases decoded
  | succ fuel ih =>
    cases bytes with
    | nil =>
      cases decoded
      exact .nil
    | cons first rest =>
      obtain ⟨⟨⟨control, constant⟩, left⟩, head, tail⟩ := Option.bind_eq_some_iff.mp decoded
      cases control with
      | jump onZero => cases tail
      | next instr =>
        obtain ⟨later, remaining, rfl⟩ := Option.map_eq_some_iff.mp tail
        obtain ⟨taken, split, again⟩ := prefixed_decode _ _ _ head
        have alone := again []
        rw [List.append_nil] at alone
        rw [split]
        exact .cons alone (ih remaining)

theorem Assembles.reaches {bytes : List (BitVec 8)} {instrs : List Constanted} (block : Assembles bytes instrs)
    (arithmetic : PackedArithmetic) (cpu : Cpu) {more : List (BitVec 8)} {position : Nat}
    (stands : code.drop position = bytes ++ more) :
    Reaches arithmetic code ⟨position, cpu⟩ ⟨position + bytes.length, execStraight arithmetic instrs cpu⟩ := by
  induction block generalizing position cpu with
  | nil => exact Relation.ReflTransGen.refl
  | @cons first rest instr constant instrs head tail ih =>
    rw [List.append_assoc] at stands
    have later : code.drop (position + first.length) = rest ++ more := by
      rw [← List.drop_drop, stands, List.drop_left]
    have stepped := machineStep_next arithmetic cpu head stands
    have remaining := ih (instr.exec arithmetic constant cpu) later
    rw [List.length_append, ← Nat.add_assoc]
    exact (Reaches.step stepped).trans remaining

end Blocks

end Foundation
