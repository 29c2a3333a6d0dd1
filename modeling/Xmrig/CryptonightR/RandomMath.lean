import Mathlib.Data.List.Basic
import Mathlib.Data.Fin.Basic
import Mathlib.Logic.Function.Basic

/-! Random math of CryptonightR: the generator and the interpreter.

`v4_random_math_init` draws instructions from a stream of hashed bytes under
latency and ALU restrictions of an abstract CPU, adds a few more for the
latency of an ASIC, and tries again until register R8 is used. The interpreter
runs the instructions on four variable registers and five constant ones.
-/

set_option autoImplicit false

namespace Xmrig.CryptonightR

inductive V4Opcode where
  | mul | add | sub | ror | rol | xor | ret
  deriving DecidableEq, Repr

namespace V4Opcode

def value : V4Opcode → Nat
  | mul => 0 | add => 1 | sub => 2 | ror => 3 | rol => 4 | xor => 5 | ret => 6

def isRotation : V4Opcode → Bool
  | ror | rol => true
  | _ => false

/-- The operations that are not done with one register as both operands. -/
def needsOther : V4Opcode → Bool
  | add | sub | xor => true
  | _ => false

def latency : V4Opcode → Nat
  | mul => 3 | add => 2 | sub => 1 | ror => 2 | rol => 2 | xor => 1 | ret => 0

def asicLatency : V4Opcode → Nat
  | mul => 3 | ret => 0 | _ => 1

def alus : V4Opcode → Nat
  | mul => 1 | ret => 0 | _ => 3

end V4Opcode

/-- Registers R0 to R3 may be written; R8 has no place in the three bits of a source. -/
structure V4Instruction where
  opcode : V4Opcode
  dstIndex : Fin 4
  srcIndex : Fin 9
  constant : BitVec 32
  deriving DecidableEq, Repr

def totalLatency : Nat := 45
def numInstructionsMin : Nat := 60
def numInstructionsMax : Nat := 70

theorem four_le_nine : 4 ≤ 9 := by decide
theorem zero_lt_four : 0 < 4 := by decide
theorem zero_lt_nine : 0 < 9 := by decide
theorem eight_lt_nine : 8 < 9 := by decide

def variableRegister (index : Fin 4) : Fin 9 := Fin.castLE four_le_nine index

def r8 : Fin 9 := ⟨8, eight_lt_nine⟩

def V4Instruction.dst (inst : V4Instruction) : Fin 9 := variableRegister inst.dstIndex

def V4Instruction.ret : V4Instruction := ⟨.ret, ⟨0, zero_lt_four⟩, ⟨0, zero_lt_nine⟩, 0⟩

section Interpreter

/-- `*dst` after `V4_EXEC`, from its old value and the source. -/
def v4Result (inst : V4Instruction) (dst src : BitVec 32) : BitVec 32 :=
  match inst.opcode with
  | .mul => dst * src
  | .add => dst + (src + inst.constant)
  | .sub => dst - src
  | .ror =>
      let shift := src.toNat % 32
      (dst >>> shift) ||| (dst <<< ((32 - shift) % 32))
  | .rol =>
      let shift := src.toNat % 32
      (dst <<< shift) ||| (dst >>> ((32 - shift) % 32))
  | .xor => dst ^^^ src
  | .ret => dst

def v4Exec (r : Fin 9 → BitVec 32) (inst : V4Instruction) : Fin 9 → BitVec 32 :=
  Function.update r inst.dst (v4Result inst (r inst.dst) (r inst.srcIndex))

/-- The unrolled switch over at most `budget` instructions. -/
def v4Steps : Nat → List V4Instruction → (Fin 9 → BitVec 32) → Fin 9 → BitVec 32
  | 0, _, r => r
  | _, [], r => r
  | budget + 1, inst :: rest, r =>
      if inst.opcode = .ret then r else v4Steps budget rest (v4Exec r inst)

/-- `v4_random_math<uint32_t>`: seventy instructions are unrolled. -/
def v4RandomMath (code : List V4Instruction) (r : Fin 9 → BitVec 32) : Fin 9 → BitVec 32 :=
  v4Steps numInstructionsMax code r

end Interpreter

section Generator
variable (hashExtraBlake : List (BitVec 8) → List (BitVec 8))

/-- The hashed bytes and the next one to use. -/
structure Stream where
  data : List (BitVec 8)
  dataIndex : Nat

/-- Data are 32 bytes; they are hashed again when less than `bytesNeeded` are left. -/
def checkData (bytesNeeded : Nat) (stream : Stream) : Stream :=
  if stream.dataIndex + bytesNeeded > 32 then ⟨hashExtraBlake stream.data, 0⟩ else stream

def nextByte (stream : Stream) : BitVec 8 × Stream :=
  let stream := checkData hashExtraBlake 1 stream
  (stream.data.getD stream.dataIndex 0, { stream with dataIndex := stream.dataIndex + 1 })

def nextWord (stream : Stream) : BitVec 32 × Stream :=
  let stream := checkData hashExtraBlake 4 stream
  let byte := fun offset => stream.data.getD (stream.dataIndex + offset) 0
  (byte 3 ++ byte 2 ++ byte 1 ++ byte 0, { stream with dataIndex := stream.dataIndex + 4 })

structure Attempt where
  latency : Fin 9 → Nat
  asicLatency : Fin 9 → Nat
  instData : Fin 9 → BitVec 32
  aluBusy : Nat → Nat → Bool
  rotated : Fin 4 → Bool
  rotateCount : Nat
  numRetries : Nat
  r8Used : Bool
  code : List V4Instruction

def Attempt.start : Attempt where
  latency := fun _ => 0
  asicLatency := fun _ => 0
  instData := fun register => if register.val < 4 then BitVec.ofNat 32 register.val else 0xFFFFFF
  aluBusy := fun _ _ => false
  rotated := fun _ => false
  rotateCount := 0
  numRetries := 0
  r8Used := false
  code := []

/-- The instruction a byte stands for, before its constant is drawn; a second byte gives the
direction of a rotation. -/
def drawOpcode (c : BitVec 8) (stream : Stream) : V4Opcode × Stream :=
  let opcode := c.toNat % 8
  if opcode = 5 then
    let (direction, stream) := nextByte hashExtraBlake stream
    (if direction.msb then .rol else .ror, stream)
  else if opcode ≥ 6 then (.xor, stream)
  else if opcode ≤ 2 then (.mul, stream)
  else if opcode = 3 then (.add, stream)
  else (.sub, stream)

theorem dstField_lt (c : BitVec 8) : c.toNat / 8 % 4 < 4 := Nat.mod_lt _ zero_lt_four

theorem srcField_lt (c : BitVec 8) : c.toNat / 32 % 8 < 9 := by omega

def drawDst (c : BitVec 8) : Fin 4 := ⟨c.toNat / 8 % 4, dstField_lt c⟩

/-- The source; R8 stands in where ADD, SUB or XOR would use one register twice. -/
def drawSrc (c : BitVec 8) (opcode : V4Opcode) : Fin 9 :=
  if opcode.needsOther ∧ c.toNat / 32 % 8 = c.toNat / 8 % 4 then r8
  else ⟨c.toNat / 32 % 8, srcField_lt c⟩

/-- An ALU that is free for the instruction in a given cycle; the last ones are tried first. -/
def freeAlu (attempt : Attempt) (opcode : V4Opcode) (cycle : Nat) : Option Nat :=
  (List.range opcode.alus).reverse.find? fun alu =>
    !attempt.aluBusy cycle alu && !(opcode == .add && attempt.aluBusy (cycle + 1) alu) &&
      !(opcode.isRotation && decide (cycle < attempt.rotateCount * opcode.latency))

/-- The first cycle from `cycle` on with a free ALU, or `totalLatency`. -/
def findAlu (attempt : Attempt) (opcode : V4Opcode) : Nat → Nat → Nat × Option Nat
  | 0, cycle => (cycle, none)
  | fuel + 1, cycle =>
      if cycle < totalLatency then
        match freeAlu attempt opcode cycle with
        | some alu => (cycle, some alu)
        | none => findAlu attempt opcode fuel (cycle + 1)
      else (cycle, none)

/-- Appending an instruction that starts in `cycle` on `alu`. -/
def place (attempt : Attempt) (inst : V4Instruction) (cycle : Nat) (alu : Option Nat) : Attempt :=
  let a := inst.dst
  let b := inst.srcIndex
  let busy := fun start unit => attempt.aluBusy start unit ||
    (decide (start = cycle) && some unit == alu) ||
    (inst.opcode == .add && decide (start = cycle + 1) && some unit == alu)
  { latency := Function.update attempt.latency a (cycle + inst.opcode.latency)
    asicLatency := Function.update attempt.asicLatency a
      (max (attempt.asicLatency a) (attempt.asicLatency b) + inst.opcode.asicLatency)
    instData := Function.update attempt.instData a
      (BitVec.ofNat 32 attempt.code.length + BitVec.ofNat 32 inst.opcode.value <<< 8 +
        (attempt.instData b &&& 255) <<< 16)
    aluBusy := busy
    rotated := Function.update attempt.rotated inst.dstIndex inst.opcode.isRotation
    rotateCount := if inst.opcode.isRotation then attempt.rotateCount + 1 else attempt.rotateCount
    numRetries := attempt.numRetries
    r8Used := attempt.r8Used || decide (b = r8)
    code := attempt.code ++ [inst] }

def generateOne (attempt : Attempt) (stream : Stream) : Attempt × Stream :=
  let (c, stream) := nextByte hashExtraBlake stream
  let (opcode, stream) := drawOpcode hashExtraBlake c stream
  let dst := drawDst c
  let b := drawSrc c opcode
  let inst : V4Instruction := ⟨opcode, dst, b, 0⟩
  let a := inst.dst
  -- a second rotation of one register
  if opcode.isRotation && attempt.rotated dst then (attempt, stream)
  -- the same operation with the same source value
  else if opcode ≠ .mul ∧ attempt.instData a &&& 0xFFFF00 =
      BitVec.ofNat 32 opcode.value <<< 8 + (attempt.instData b &&& 255) <<< 16 then
    (attempt, stream)
  else
    let (cycle, alu) :=
      findAlu attempt opcode totalLatency (max (attempt.latency a) (attempt.latency b))
    if cycle > attempt.latency a + 7 then (attempt, stream)
    else if cycle + opcode.latency ≤ totalLatency then
      if opcode = .add then
        let (constant, stream) := nextWord hashExtraBlake stream
        (place attempt { inst with constant } cycle alu, stream)
      else (place attempt inst cycle alu, stream)
    else ({ attempt with numRetries := attempt.numRetries + 1 }, stream)

def latencyMissing (attempt : Attempt) : Bool :=
  (List.finRange 4).any fun register =>
    decide (attempt.latency (variableRegister register) < totalLatency)

/-- The generating loop with `fuel` passes left before the fail-safe stops it. -/
def generate : Nat → Attempt → Stream → Attempt × Stream
  | 0, attempt, stream => (attempt, stream)
  | fuel + 1, attempt, stream =>
      if latencyMissing attempt && decide (attempt.numRetries < 64) then
        let next := generateOne hashExtraBlake attempt stream
        if numInstructionsMin ≤ next.1.code.length then next
        else generate fuel next.1 next.2
      else (attempt, stream)

def minIndex (latency : Fin 4 → Nat) : Fin 4 :=
  (List.finRange 4).foldl (fun best i => if latency i < latency best then i else best) ⟨0, zero_lt_four⟩

def maxIndex (latency : Fin 4 → Nat) : Fin 4 :=
  (List.finRange 4).foldl (fun best i => if latency i > latency best then i else best) ⟨0, zero_lt_four⟩

def extendOne (previous : Nat) (attempt : Attempt) : Attempt :=
  let asic : Fin 4 → Nat := fun i => attempt.asicLatency (variableRegister i)
  let min := minIndex asic
  let max : Fin 9 := variableRegister (maxIndex asic)
  let opcode : V4Opcode := if (attempt.code.length - previous) % 3 = 0 then .ror else .mul
  let inst : V4Instruction := ⟨opcode, min, max, 0⟩
  { attempt with
    latency := Function.update attempt.latency inst.dst (attempt.latency max + opcode.latency)
    asicLatency := Function.update attempt.asicLatency inst.dst
      (attempt.asicLatency max + opcode.asicLatency)
    code := attempt.code ++ [inst] }

def asicLatencyMissing (attempt : Attempt) : Bool :=
  (List.finRange 4).all fun register =>
    decide (attempt.asicLatency (variableRegister register) < totalLatency)

def extend (previous : Nat) : Nat → Attempt → Attempt
  | 0, attempt => attempt
  | fuel + 1, attempt =>
      if decide (attempt.code.length < numInstructionsMax) && asicLatencyMissing attempt then
        extend previous fuel (extendOne previous attempt)
      else attempt

/-- Attempts until one uses R8 and has an admissible size; `fuel` bounds their number. -/
def attempts : Nat → Stream → Option (List V4Instruction)
  | 0, _ => none
  | fuel + 1, stream =>
      let generated := generate hashExtraBlake 256 Attempt.start stream
      let attempt := extend generated.1.code.length numInstructionsMax generated.1
      if !attempt.r8Used || decide (attempt.code.length < numInstructionsMin) ||
          decide (attempt.code.length > numInstructionsMax) then attempts fuel generated.2
      else some (attempt.code ++ [V4Instruction.ret])

def seed (cnR : Bool) (height : BitVec 64) : List (BitVec 8) :=
  let bytes := (List.range 8).map fun i => (height >>> (8 * i)).setWidth 8
  let rest := List.replicate 24 (0 : BitVec 8)
  bytes ++ if cnR then rest.set 12 (BitVec.ofInt 8 (-38)) else rest

/-- `v4_random_math_init`, when it ends within `fuel` attempts. -/
def v4RandomMathInit (cnR : Bool) (height : BitVec 64) (fuel : Nat) :
    Option (List V4Instruction) :=
  attempts hashExtraBlake fuel ⟨seed cnR height, 32⟩

end Generator

section Admissible

/-- What the compiler relies on: R8 is the source exactly where ADD, SUB or XOR would read their
destination. -/
structure Admissible (inst : V4Instruction) : Prop where
  running : inst.opcode ≠ .ret
  other : inst.opcode.needsOther = true → inst.srcIndex ≠ inst.dst
  r8_only : inst.srcIndex = r8 → inst.opcode.needsOther = true

variable (hashExtraBlake : List (BitVec 8) → List (BitVec 8))

theorem drawOpcode_ne_ret (c : BitVec 8) (stream : Stream) :
    (drawOpcode hashExtraBlake c stream).1 ≠ .ret := by
  unfold drawOpcode
  grind

theorem drawn_admissible (c : BitVec 8) {opcode : V4Opcode} (running : opcode ≠ .ret)
    (constant : BitVec 32) : Admissible ⟨opcode, drawDst c, drawSrc c opcode, constant⟩ := by
  constructor
  · exact running
  · intro other same
    have equal := congrArg Fin.val same
    have small : c.toNat / 8 % 4 < 4 := Nat.mod_lt _ zero_lt_four
    simp only [drawSrc, other, true_and, V4Instruction.dst, variableRegister, drawDst,
      Fin.val_castLE] at equal
    split at equal
    · simp only [r8] at equal
      omega
    · rename_i different
      exact different equal
  · intro last
    by_contra same
    have equal := congrArg Fin.val last
    simp only [drawSrc, same, false_and, if_false, r8] at equal
    omega

/-- One pass appends at most one instruction, built from drawn bytes, and notes whether it reads
R8. -/
theorem generateOne_code (attempt : Attempt) (stream : Stream) :
    (generateOne hashExtraBlake attempt stream).1.code = attempt.code ∧
        (generateOne hashExtraBlake attempt stream).1.r8Used = attempt.r8Used ∨
      ∃ c opcode constant, opcode ≠ .ret ∧
        (generateOne hashExtraBlake attempt stream).1.code =
          attempt.code ++ [⟨opcode, drawDst c, drawSrc c opcode, constant⟩] ∧
        (generateOne hashExtraBlake attempt stream).1.r8Used =
          (attempt.r8Used || decide (drawSrc c opcode = r8)) := by
  unfold generateOne
  dsimp only
  generalize nextByte hashExtraBlake stream = drawn
  have running := drawOpcode_ne_ret hashExtraBlake drawn.1 drawn.2
  generalize drawOpcode hashExtraBlake drawn.1 drawn.2 = operation at running ⊢
  split
  · exact .inl ⟨rfl, rfl⟩
  · split
    · exact .inl ⟨rfl, rfl⟩
    · split
      · exact .inl ⟨rfl, rfl⟩
      · split
        · split
          · exact .inr ⟨drawn.1, operation.1, _, running, rfl, rfl⟩
          · exact .inr ⟨drawn.1, operation.1, _, running, rfl, rfl⟩
        · exact .inl ⟨rfl, rfl⟩

theorem generate_admissible (fuel : Nat) {attempt : Attempt} (stream : Stream)
    (all : ∀ inst ∈ attempt.code, Admissible inst) :
    ∀ inst ∈ (generate hashExtraBlake fuel attempt stream).1.code, Admissible inst := by
  induction fuel generalizing attempt stream with
  | zero => exact all
  | succ fuel ih =>
    have next : ∀ inst ∈ (generateOne hashExtraBlake attempt stream).1.code, Admissible inst := by
      rcases generateOne_code hashExtraBlake attempt stream with ⟨same, -⟩ | ⟨c, opcode, k, runs, more, -⟩
      · rw [same]
        exact all
      · rw [more]
        intro inst member
        rcases List.mem_append.mp member with old | new
        · exact all inst old
        · rw [List.mem_singleton.mp new]
          exact drawn_admissible c runs k
    unfold generate
    split
    · dsimp only
      split
      · exact next
      · exact ih _ next
    · exact all

theorem variableRegister_ne_r8 (index : Fin 4) : variableRegister index ≠ r8 := by
  intro same
  have equal := congrArg Fin.val same
  have small := index.isLt
  simp only [variableRegister, Fin.val_castLE, r8] at equal
  omega

theorem extend_admissible (previous fuel : Nat) {attempt : Attempt}
    (all : ∀ inst ∈ attempt.code, Admissible inst) :
    ∀ inst ∈ (extend previous fuel attempt).code, Admissible inst := by
  induction fuel generalizing attempt with
  | zero => exact all
  | succ fuel ih =>
    unfold extend
    split
    · apply ih
      intro inst member
      rcases List.mem_append.mp member with old | new
      · exact all inst old
      · rw [List.mem_singleton.mp new]
        constructor
        · dsimp only
          split <;> decide
        · intro other
          dsimp only at other
          split at other <;> cases other
        · intro last
          exact absurd last (variableRegister_ne_r8 _)
    · exact all

/-- A program as the generator leaves it: sixty to seventy admissible instructions and the
final RET. -/
structure Generated (body code : List V4Instruction) : Prop where
  eq : code = body ++ [V4Instruction.ret]
  admissible : ∀ inst ∈ body, Admissible inst
  least : numInstructionsMin ≤ body.length
  most : body.length ≤ numInstructionsMax

theorem attempts_generated {fuel : Nat} {stream : Stream} {code : List V4Instruction}
    (done : attempts hashExtraBlake fuel stream = some code) :
    ∃ body, Generated body code := by
  induction fuel generalizing stream with
  | zero => cases done
  | succ fuel ih =>
    unfold attempts at done
    dsimp only at done
    split at done
    · exact ih done
    · rename_i accepted
      cases done
      simp only [Bool.or_eq_true, Bool.not_eq_true', decide_eq_true_eq, not_or] at accepted
      refine ⟨_, rfl, ?_, ?_, ?_⟩
      · apply extend_admissible
        apply generate_admissible
        intro inst member
        cases member
      · omega
      · omega

end Admissible

end Xmrig.CryptonightR
