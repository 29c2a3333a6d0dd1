import Xmrig.Foundation.WideMul
import Mathlib.Data.List.Induction
import Mathlib.Logic.Function.Basic

/-! A part of the x86 vector instructions: decoding and meaning.

The VEX encoded instructions on 256-bit registers that work on four 64-bit
lanes each: sums, differences, products of low halves, bitwise operations,
signed comparison, shifts by an immediate, and the broadcast of a quadword
from an address relative to the instruction pointer. The few instructions on
general registers that appear between them are decoded for their length.
-/

set_option autoImplicit false

namespace Foundation

instance neZero_vectorCount : NeZero 16 := ⟨by decide⟩

/-- Sixteen registers of four lanes. -/
abbrev VectorRegisters := Fin 16 → Fin 4 → BitVec 64

inductive LaneOp where
  | vpaddq | vpsubq | vpmuludq | vpand | vpor | vpxor | vpcmpgtq
  deriving DecidableEq, Repr

def LaneOp.eval : LaneOp → BitVec 64 → BitVec 64 → BitVec 64
  | .vpaddq, x, y => x + y
  | .vpsubq, x, y => x - y
  | .vpmuludq, x, y => mulLow32 x y
  | .vpand, x, y => x &&& y
  | .vpor, x, y => x ||| y
  | .vpxor, x, y => x ^^^ y
  | .vpcmpgtq, x, y => if y.slt x then BitVec.allOnes 64 else 0

inductive VectorInstr where
  | lanes (op : LaneOp) (dst src1 src2 : Fin 16)
  | vpsrlq (dst src : Fin 16) (count : BitVec 8)
  | vpsllq (dst src : Fin 16) (count : BitVec 8)
  | vbroadcastsd (dst : Fin 16) (address : Int)
  /-- An instruction that touches no vector register. -/
  | general
  deriving DecidableEq, Repr

section Decode

/-- Prefix fields with their inversion undone. -/
structure VexPrefix where
  map : Nat
  reg8 : Bool
  rm8 : Bool
  vvvv : Fin 16
  wide : Bool
  pp : BitVec 2
  deriving DecidableEq, Repr

def vexPrefix (map : Nat) (reg8 rm8 : Bool) (last : BitVec 8) : VexPrefix where
  map
  reg8
  rm8
  vvvv := Fin.ofNat 16 (15 - (last.toNat / 8) % 16)
  wide := last.getLsbD 2
  pp := last.setWidth 2

def laneOp (map : Nat) (opcode : BitVec 8) : Option LaneOp :=
  if map = 1 then
    if opcode = 0xD4 then some .vpaddq
    else if opcode = 0xFB then some .vpsubq
    else if opcode = 0xF4 then some .vpmuludq
    else if opcode = 0xDB then some .vpand
    else if opcode = 0xEB then some .vpor
    else if opcode = 0xEF then some .vpxor
    else none
  else if map = 2 ∧ opcode = 0x37 then some .vpcmpgtq
  else none

/-- What follows the prefix: the instruction and the number of bytes it takes from `opcode`,
which stands at `position`, on. -/
def decodeVexBody (position : Nat) (vex : VexPrefix) (opcode modrm : BitVec 8)
    (rest : List (BitVec 8)) : Option (VectorInstr × Nat) :=
  let mod := modrm.toNat / 64
  let digit := modrm.toNat / 8 % 8
  let reg : Fin 16 := Fin.ofNat 16 (digit + if vex.reg8 then 8 else 0)
  let rm : Fin 16 := Fin.ofNat 16 (modrm.toNat % 8 + if vex.rm8 then 8 else 0)
  if vex.wide = false ∨ vex.pp ≠ 1 then none
  else if mod = 3 then
    match laneOp vex.map opcode with
    | some op => some (.lanes op reg vex.vvvv rm, 2)
    | none =>
        match rest with
        | count :: _ =>
            if vex.map = 1 ∧ opcode = 0x73 then
              if digit = 2 then some (.vpsrlq vex.vvvv rm count, 3)
              else if digit = 6 then some (.vpsllq vex.vvvv rm count, 3)
              else none
            else none
        | [] => none
  else if mod = 0 ∧ modrm.toNat % 8 = 5 ∧ vex.map = 2 ∧ opcode = 0x19 ∧ vex.vvvv = 0 then
    match rest with
    | d0 :: d1 :: d2 :: d3 :: _ =>
        some (.vbroadcastsd reg ((position + 6 : Nat) + (d3 ++ d2 ++ d1 ++ d0).toInt), 6)
    | _ => none
  else none

/-- One instruction at the head of the code, which starts at `position`, and its length. -/
def decodeVector (position : Nat) : List (BitVec 8) → Option (VectorInstr × Nat)
  | first :: second :: third :: rest =>
      if first = 0xC5 then
        match rest with
        | modrm :: rest =>
            (decodeVexBody (position + 2) (vexPrefix 1 (!second.msb) false second) third modrm
              rest).map fun body => (body.1, body.2 + 2)
        | [] => none
      else if first = 0xC4 then
        match rest with
        | opcode :: modrm :: rest =>
            (decodeVexBody (position + 3)
              (vexPrefix (second.toNat % 32) (!second.msb) (!second.getLsbD 5) third)
              opcode modrm rest).map fun body => (body.1, body.2 + 3)
        | _ => none
      -- mov rax, imm64
      else if first = 0x48 ∧ second = 0xB8 then some (.general, 10)
      -- add and xor of rax to one of the upper eight registers
      else if first = 0x4C ∧ (second = 0x03 ∨ second = 0x33) ∧ third.toNat / 64 = 3 ∧
          third.toNat % 8 = 0 then some (.general, 3)
      else none
  | _ => none

/-- All instructions of the code that starts at `position`. -/
def decodeVectors : Nat → Nat → List (BitVec 8) → Option (List VectorInstr)
  | _, _, [] => some []
  | 0, _, _ :: _ => none
  | fuel + 1, position, code@(_ :: _) =>
      (decodeVector position code).bind fun next =>
        (decodeVectors fuel (position + next.2) (code.drop next.2)).map (next.1 :: ·)

end Decode

section Execute

def loadQuad (code : List (BitVec 8)) (address : Int) : Option (BitVec 64) :=
  if address < 0 then none
  else match code.drop address.toNat with
    | b0 :: b1 :: b2 :: b3 :: b4 :: b5 :: b6 :: b7 :: _ =>
        some (b7 ++ b6 ++ b5 ++ b4 ++ b3 ++ b2 ++ b1 ++ b0)
    | _ => none

def VectorInstr.exec (code : List (BitVec 8)) (ymm : VectorRegisters) :
    VectorInstr → Option VectorRegisters
  | .lanes op dst src1 src2 =>
      some (Function.update ymm dst fun lane => op.eval (ymm src1 lane) (ymm src2 lane))
  | .vpsrlq dst src count =>
      some (Function.update ymm dst fun lane => ymm src lane >>> count.toNat)
  | .vpsllq dst src count =>
      some (Function.update ymm dst fun lane => ymm src lane <<< count.toNat)
  | .vbroadcastsd dst address =>
      (loadQuad code address).map fun quad => Function.update ymm dst fun _ => quad
  | .general => some ymm

def execVectors (code : List (BitVec 8)) :
    List VectorInstr → VectorRegisters → Option VectorRegisters
  | [], ymm => some ymm
  | instr :: rest, ymm => (instr.exec code ymm).bind (execVectors code rest)

/-- A lane of a register after a sequence, given last instruction first: the value is looked up
from the instruction that wrote it. -/
def laneAfter (code : List (BitVec 8)) (before : VectorRegisters) (lane : Fin 4) :
    List VectorInstr → Fin 16 → BitVec 64
  | [], index => before index lane
  | .lanes op dst src1 src2 :: earlier, index =>
      if dst = index then
        op.eval (laneAfter code before lane earlier src1) (laneAfter code before lane earlier src2)
      else laneAfter code before lane earlier index
  | .vpsrlq dst src count :: earlier, index =>
      if dst = index then laneAfter code before lane earlier src >>> count.toNat
      else laneAfter code before lane earlier index
  | .vpsllq dst src count :: earlier, index =>
      if dst = index then laneAfter code before lane earlier src <<< count.toNat
      else laneAfter code before lane earlier index
  | .vbroadcastsd dst address :: earlier, index =>
      if dst = index then (loadQuad code address).getD 0
      else laneAfter code before lane earlier index
  | .general :: earlier, index => laneAfter code before lane earlier index

theorem execVectors_append (code : List (BitVec 8)) (first second : List VectorInstr)
    (before : VectorRegisters) :
    execVectors code (first ++ second) before =
      (execVectors code first before).bind (execVectors code second) := by
  induction first generalizing before with
  | nil => rfl
  | cons instr rest ih =>
    rw [List.cons_append, execVectors, execVectors]
    cases instr.exec code before with
    | none => rfl
    | some next => exact ih next

theorem laneAfter_of_exec {code : List (BitVec 8)} {instrs : List VectorInstr}
    {before after : VectorRegisters} (ran : execVectors code instrs before = some after)
    (index : Fin 16) (lane : Fin 4) :
    after index lane = laneAfter code before lane instrs.reverse index := by
  induction instrs using List.reverseRecOn generalizing after index with
  | nil =>
    cases ran
    rfl
  | append_singleton earlier instr ih =>
    rw [execVectors_append] at ran
    obtain ⟨middle, first, last⟩ := Option.bind_eq_some_iff.mp ran
    obtain ⟨final, executed, ended⟩ := Option.bind_eq_some_iff.mp last
    cases ended
    rw [List.reverse_append, List.reverse_singleton, List.singleton_append]
    cases instr with
    | lanes op dst src1 src2 | vpsrlq dst src count | vpsllq dst src count =>
      cases executed
      simp only [laneAfter, Function.update_apply, ← ih first, eq_comm]
      split <;> rfl
    | vbroadcastsd dst address =>
      obtain ⟨quad, loaded, rfl⟩ := Option.map_eq_some_iff.mp executed
      simp only [laneAfter, Function.update_apply, ← ih first, loaded, eq_comm]
      split <;> rfl
    | general =>
      cases executed
      exact ih first index

theorem execVectors_isSome {code : List (BitVec 8)} {instrs : List VectorInstr}
    (loads : ∀ dst address, .vbroadcastsd dst address ∈ instrs → (loadQuad code address).isSome)
    (before : VectorRegisters) : ∃ after, execVectors code instrs before = some after := by
  induction instrs generalizing before with
  | nil => exact ⟨before, rfl⟩
  | cons instr rest ih =>
    have later := fun next => ih (fun dst address member =>
      loads dst address (List.mem_cons_of_mem _ member)) next
    cases instr with
    | lanes op dst src1 src2 | vpsrlq dst src count | vpsllq dst src count => exact later _
    | vbroadcastsd dst address =>
      obtain ⟨quad, loaded⟩ := Option.isSome_iff_exists.mp (loads dst address List.mem_cons_self)
      rw [execVectors, VectorInstr.exec, loaded]
      exact later _
    | general => exact later before

def VectorInstr.target : VectorInstr → Option (Fin 16)
  | .lanes _ dst _ _ | .vpsrlq dst _ _ | .vpsllq dst _ _ | .vbroadcastsd dst _ => some dst
  | .general => none

theorem VectorInstr.exec_frame {code : List (BitVec 8)} {instr : VectorInstr}
    {before after : VectorRegisters} (ran : instr.exec code before = some after) {index : Fin 16}
    (other : instr.target ≠ some index) : after index = before index := by
  cases instr with
  | lanes op dst src1 src2 | vpsrlq dst src count | vpsllq dst src count =>
    cases ran
    exact Function.update_of_ne (fun same => other (congrArg some same.symm)) _ _
  | vbroadcastsd dst address =>
    obtain ⟨quad, _, rfl⟩ := Option.map_eq_some_iff.mp ran
    exact Function.update_of_ne (fun same => other (congrArg some same.symm)) _ _
  | general =>
    cases ran
    rfl

theorem execVectors_frame {code : List (BitVec 8)} {instrs : List VectorInstr}
    {before after : VectorRegisters} (ran : execVectors code instrs before = some after)
    {index : Fin 16} (others : ∀ instr ∈ instrs, instr.target ≠ some index) :
    after index = before index := by
  induction instrs generalizing before with
  | nil =>
    cases ran
    rfl
  | cons instr rest ih =>
    obtain ⟨middle, first, later⟩ := Option.bind_eq_some_iff.mp ran
    rw [ih later fun other member => others other (List.mem_cons_of_mem _ member)]
    exact VectorInstr.exec_frame first (others instr List.mem_cons_self)

/-- Run the code from `position` to its end. -/
def runVectors (code : List (BitVec 8)) (position : Nat) (ymm : VectorRegisters) :
    Option VectorRegisters :=
  (decodeVectors code.length position (code.drop position)).bind fun instrs =>
    execVectors code instrs ymm

end Execute

end Foundation
