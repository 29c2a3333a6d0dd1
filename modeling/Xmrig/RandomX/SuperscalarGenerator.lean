import Xmrig.RandomX.Superscalar

/-! The generator of superscalar programs.

`generateSuperscalar` fills the slots of one decoder window after the other
with macro-operations, books a free execution port for each and picks registers
that are ready. Every array is accessed through a check here, the loops that
are not bounded by a constant count their passes, and a rejection loop gives up
after `draws` draws.
-/

set_option autoImplicit false

namespace Xmrig.RandomX

namespace Generator

inductive Fault where
  -- a rejection loop did not end in the draws it was allowed
  | rejection
  | portBusy
  | passes
  | register
  | slot
  | macroOp
  | program
  deriving DecidableEq, Repr

section Stream
variable (blake2b : List (BitVec 8) → List (BitVec 8))

/-- `Blake2Generator`: 64 bytes and the next one to use. -/
structure Blake2Generator where
  data : List (BitVec 8)
  dataIndex : Nat

namespace Blake2Generator

def checkData (gen : Blake2Generator) (bytesNeeded : Nat) : Blake2Generator :=
  if gen.dataIndex + bytesNeeded > 64 then ⟨blake2b gen.data, 0⟩ else gen

def getByte (gen : Blake2Generator) : BitVec 8 × Blake2Generator :=
  let gen := gen.checkData blake2b 1
  (gen.data.getD gen.dataIndex 0, { gen with dataIndex := gen.dataIndex + 1 })

def getUInt32 (gen : Blake2Generator) : BitVec 32 × Blake2Generator :=
  let gen := gen.checkData blake2b 4
  let byte := fun offset => gen.data.getD (gen.dataIndex + offset) 0
  (byte 3 ++ byte 2 ++ byte 1 ++ byte 0, { gen with dataIndex := gen.dataIndex + 4 })

end Blake2Generator

/-- `do value = draw(); while (!accepted)`, for at most that many draws. -/
def drawUntil {A : Type} (draw : Blake2Generator → A × Blake2Generator) (accepted : A → Bool) :
    Nat → Blake2Generator → Except Fault (A × Blake2Generator)
  | 0, _ => .error .rejection
  | draws + 1, gen =>
      let drawn := draw gen
      if accepted drawn.1 then .ok drawn else drawUntil draw accepted draws drawn.2

end Stream

section Tables

/-- The ports a micro-operation can go to, as bits; none for a move. -/
structure MacroOp where
  size : Nat
  latency : Nat
  uop1 : Nat
  uop2 : Nat
  dependent : Bool := false

def portP0 : Nat := 1
def portP1 : Nat := 2
def portP5 : Nat := 4
def portP01 : Nat := portP0 ||| portP1
def portP05 : Nat := portP0 ||| portP5
def portP015 : Nat := portP0 ||| portP1 ||| portP5

namespace MacroOp

def subRr : MacroOp := ⟨3, 1, portP015, 0, false⟩
def xorRr : MacroOp := ⟨3, 1, portP015, 0, false⟩
def imulR : MacroOp := ⟨3, 4, portP1, portP5, false⟩
def mulR : MacroOp := ⟨3, 4, portP1, portP5, false⟩
def movRr : MacroOp := ⟨3, 0, 0, 0, false⟩
def leaSib : MacroOp := ⟨4, 1, portP01, 0, false⟩
def imulRr : MacroOp := ⟨4, 3, portP1, 0, false⟩
def rorRi : MacroOp := ⟨4, 1, portP05, 0, false⟩
def addRi : MacroOp := ⟨7, 1, portP015, 0, false⟩
def xorRi : MacroOp := ⟨7, 1, portP015, 0, false⟩
def movRi64 : MacroOp := ⟨10, 1, portP015, 0, false⟩

end MacroOp

/-- `SuperscalarInstructionInfo`: the macro-operations, and which of them has the result, the
destination and the source; −1 is no source. -/
structure InstructionInfo where
  ops : List MacroOp
  resultOp : Int := 0
  dstOp : Int := 0
  srcOp : Int := 0

def instructionInfo : SuperscalarType → InstructionInfo
  | .isubR => { ops := [.subRr] }
  | .ixorR => { ops := [.xorRr] }
  | .iaddRs => { ops := [.leaSib] }
  | .imulR => { ops := [.imulRr] }
  | .irorC => { ops := [.rorRi], srcOp := -1 }
  | .iaddC7 | .iaddC8 | .iaddC9 => { ops := [.addRi], srcOp := -1 }
  | .ixorC7 | .ixorC8 | .ixorC9 => { ops := [.xorRi], srcOp := -1 }
  | .imulhR => { ops := [.movRr, .mulR, .movRr], resultOp := 1, dstOp := 0, srcOp := 1 }
  | .ismulhR => { ops := [.movRr, .imulR, .movRr], resultOp := 1, dstOp := 0, srcOp := 1 }
  | .imulRcp =>
      { ops := [.movRi64, { MacroOp.imulRr with dependent := true }], resultOp := 1, dstOp := 1,
        srcOp := -1 }

/-- The info of a type; `none` is INVALID, the type of `NOP`. -/
def infoOf : Option SuperscalarType → InstructionInfo
  | some type => instructionInfo type
  | none => { ops := [] }

def opcodeOf : SuperscalarType → Nat
  | .isubR => 0 | .ixorR => 1 | .iaddRs => 2 | .imulR => 3 | .irorC => 4
  | .iaddC7 => 5 | .ixorC7 => 6 | .iaddC8 => 7 | .ixorC8 => 8 | .iaddC9 => 9 | .ixorC9 => 10
  | .imulhR => 11 | .ismulhR => 12 | .imulRcp => 13

def isMultiplication : Option SuperscalarType → Bool
  | some .imulR | some .imulhR | some .ismulhR | some .imulRcp => true
  | _ => false

structure DecoderBuffer where
  index : Nat
  counts : List Nat

def decodeBuffer484 : DecoderBuffer := ⟨0, [4, 8, 4]⟩
def decodeBuffer7333 : DecoderBuffer := ⟨1, [7, 3, 3, 3]⟩
def decodeBuffer3733 : DecoderBuffer := ⟨2, [3, 7, 3, 3]⟩
def decodeBuffer493 : DecoderBuffer := ⟨3, [4, 9, 3]⟩
def decodeBuffer4444 : DecoderBuffer := ⟨4, [4, 4, 4, 4]⟩
def decodeBuffer3310 : DecoderBuffer := ⟨5, [3, 3, 10]⟩

def decodeBuffers : List DecoderBuffer :=
  [decodeBuffer484, decodeBuffer7333, decodeBuffer3733, decodeBuffer493]

def slot3 : List SuperscalarType := [.isubR, .ixorR]
def slot3L : List SuperscalarType := [.isubR, .ixorR, .imulhR, .ismulhR]
def slot4 : List SuperscalarType := [.irorC, .iaddRs]
def slot7 : List SuperscalarType := [.ixorC7, .iaddC7]
def slot8 : List SuperscalarType := [.ixorC8, .iaddC8]
def slot9 : List SuperscalarType := [.ixorC9, .iaddC9]

end Tables

section Ports
variable (latency : Nat)

/-- `portBusy`, by cycle and port. -/
abbrev PortBusy := Nat → Nat → Nat

def superscalarMaxLatency : Nat := 256
def superscalarMaxSize : Nat := 3 * superscalarMaxLatency + 2

def busyAt (busy : PortBusy) (cycle : Int) (port : Nat) : Except Fault Bool :=
  if 0 ≤ cycle ∧ cycle < latency + 4 ∧ port < 3 then .ok (busy cycle.toNat port != 0)
  else .error .portBusy

def occupy (busy : PortBusy) (cycle : Int) (port uop : Nat) : Except Fault PortBusy :=
  if 0 ≤ cycle ∧ cycle < latency + 4 ∧ port < 3 then
    .ok (Function.update busy cycle.toNat (Function.update (busy cycle.toNat) port uop))
  else .error .portBusy

/-- P5, P0, P1 in the order they are tried, with their places in `portBusy`. -/
def portOrder : List (Nat × Nat) := [(portP5, 2), (portP0, 0), (portP1, 1)]

def freePort (busy : PortBusy) (uop : Nat) (cycle : Int) : List (Nat × Nat) →
    Except Fault (Option Nat)
  | [] => .ok none
  | (mask, port) :: rest =>
      if uop &&& mask = 0 then freePort busy uop cycle rest
      else do
        let taken ← busyAt latency busy cycle port
        if taken then freePort busy uop cycle rest else pure (some port)

def scheduleUop (commit : Bool) (uop : Nat) : Nat → PortBusy → Int → Except Fault (Int × PortBusy)
  | 0, busy, cycle => if cycle < latency + 4 then .error .passes else .ok (-1, busy)
  | fuel + 1, busy, cycle =>
      if cycle < latency + 4 then do
        match ← freePort latency busy uop cycle portOrder with
        | some port =>
            if commit then
              let busy ← occupy latency busy cycle port uop
              pure (cycle, busy)
            else pure (cycle, busy)
        | none => scheduleUop commit uop fuel busy (cycle + 1)
      else .ok (-1, busy)

def scheduleBoth (commit : Bool) (mop : MacroOp) : Nat → PortBusy → Int →
    Except Fault (Int × PortBusy)
  | 0, busy, cycle => if cycle < latency + 4 then .error .passes else .ok (-1, busy)
  | fuel + 1, busy, cycle =>
      if cycle < latency + 4 then do
        let first ← scheduleUop latency false mop.uop1 (latency + 4) busy cycle
        let second ← scheduleUop latency false mop.uop2 (latency + 4) busy cycle
        if 0 ≤ first.1 ∧ first.1 = second.1 then
          if commit then
            let one ← scheduleUop latency true mop.uop1 (latency + 4) busy first.1
            let two ← scheduleUop latency true mop.uop2 (latency + 4) one.2 second.1
            pure (first.1, two.2)
          else pure (first.1, busy)
        else scheduleBoth commit mop fuel busy (cycle + 1)
      else .ok (-1, busy)

def scheduleMop (commit : Bool) (mop : MacroOp) (busy : PortBusy) (cycle depCycle : Int) :
    Except Fault (Int × PortBusy) :=
  let cycle := if mop.dependent then max cycle depCycle else cycle
  -- a move needs no port
  if mop.uop1 = 0 then .ok (cycle, busy)
  else if mop.uop2 = 0 then scheduleUop latency commit mop.uop1 (latency + 4) busy cycle
  else scheduleBoth latency commit mop (latency + 4) busy cycle

end Ports

section Instructions
variable (blake2b : List (BitVec 8) → List (BitVec 8)) (draws : Nat)

/-- The instruction being issued; −1 is a register not chosen yet. -/
structure PendingInstruction where
  info : Option SuperscalarType
  src : Int := -1
  dst : Int := -1
  mod : BitVec 8 := 0
  imm32 : BitVec 32 := 0
  opGroup : Option SuperscalarType := none
  opGroupPar : Int := 0
  canReuse : Bool := false
  groupParIsSource : Bool := false

namespace PendingInstruction

/-- `SuperscalarInstruction::Null`. -/
def null : PendingInstruction := { info := none }

def size (pending : PendingInstruction) : Nat := (infoOf pending.info).ops.length

/-- `create`. The group parameter of an instruction with a source is set with the source. -/
def create (pending : PendingInstruction) (type : SuperscalarType) (gen : Blake2Generator) :
    Except Fault (PendingInstruction × Blake2Generator) :=
  -- `info_` and `reset`
  let fresh : PendingInstruction :=
    { pending with
      info := some type, src := -1, dst := -1, canReuse := false, groupParIsSource := false }
  match type with
  | .isubR =>
      .ok ({ fresh with mod := 0, imm32 := 0, opGroup := some .iaddRs, groupParIsSource := true }, gen)
  | .ixorR =>
      .ok ({ fresh with mod := 0, imm32 := 0, opGroup := some .ixorR, groupParIsSource := true }, gen)
  | .iaddRs =>
      let (mod, gen) := gen.getByte blake2b
      .ok ({ fresh with mod, imm32 := 0, opGroup := some .iaddRs, groupParIsSource := true }, gen)
  | .imulR =>
      .ok ({ fresh with mod := 0, imm32 := 0, opGroup := some .imulR, groupParIsSource := true }, gen)
  | .irorC => do
      let (imm, gen) ← drawUntil (fun gen =>
        let (byte, gen) := gen.getByte blake2b
        (byte &&& 63, gen)) (fun imm => imm != 0) draws gen
      pure ({ fresh with
        mod := 0, imm32 := imm.setWidth 32, opGroup := some .irorC, opGroupPar := -1 }, gen)
  | .iaddC7 | .iaddC8 | .iaddC9 =>
      let (imm32, gen) := gen.getUInt32 blake2b
      .ok ({ fresh with mod := 0, imm32, opGroup := some .iaddC7, opGroupPar := -1 }, gen)
  | .ixorC7 | .ixorC8 | .ixorC9 =>
      let (imm32, gen) := gen.getUInt32 blake2b
      .ok ({ fresh with mod := 0, imm32, opGroup := some .ixorC7, opGroupPar := -1 }, gen)
  | .imulhR =>
      let (par, gen) := gen.getUInt32 blake2b
      .ok ({ fresh with
        canReuse := true, mod := 0, imm32 := 0, opGroup := some .imulhR, opGroupPar := par.toInt }, gen)
  | .ismulhR =>
      let (par, gen) := gen.getUInt32 blake2b
      .ok ({ fresh with
        canReuse := true, mod := 0, imm32 := 0, opGroup := some .ismulhR, opGroupPar := par.toInt }, gen)
  | .imulRcp => do
      let (imm32, gen) ← drawUntil (fun gen => gen.getUInt32 blake2b)
        (fun imm32 => !isZeroOrPowerOf2 (imm32.setWidth 64)) draws gen
      pure ({ fresh with mod := 0, imm32, opGroup := some .imulRcp, opGroupPar := -1 }, gen)

/-- `create(slot[gen.getByte() & mask], gen)`. -/
def createFrom (pending : PendingInstruction) (slot : List SuperscalarType) (mask : BitVec 8)
    (gen : Blake2Generator) : Except Fault (PendingInstruction × Blake2Generator) :=
  let (byte, gen) := gen.getByte blake2b
  match slot[(byte &&& mask).toNat]? with
  | some type => pending.create blake2b draws type gen
  | none => .error .slot

def createForSlot (pending : PendingInstruction) (slotSize fetchType : Nat) (isLast : Bool)
    (gen : Blake2Generator) : Except Fault (PendingInstruction × Blake2Generator) :=
  match slotSize with
  | 3 =>
      if isLast then pending.createFrom blake2b draws slot3L 3 gen
      else pending.createFrom blake2b draws slot3 1 gen
  | 4 =>
      if fetchType = 4 ∧ isLast = false then pending.create blake2b draws .imulR gen
      else pending.createFrom blake2b draws slot4 1 gen
  | 7 => pending.createFrom blake2b draws slot7 1 gen
  | 8 => pending.createFrom blake2b draws slot8 1 gen
  | 9 => pending.createFrom blake2b draws slot9 1 gen
  | 10 => pending.create blake2b draws .imulRcp gen
  -- `UNREACHABLE`
  | _ => .error .slot

/-- `toInstr`, with the narrowing of its integers. -/
def toInstr (pending : PendingInstruction) (type : SuperscalarType) : Instruction where
  opcode := BitVec.ofNat 8 (opcodeOf type)
  dst := BitVec.ofInt 8 pending.dst
  src := BitVec.ofInt 8 (if 0 ≤ pending.src then pending.src else pending.dst)
  mod := pending.mod
  imm32 := pending.imm32

end PendingInstruction

/-- `fetchNext`, from the type of the current instruction. -/
def fetchNext (type : Option SuperscalarType) (cycle mulCount : Nat) (gen : Blake2Generator) :
    Except Fault (DecoderBuffer × Blake2Generator) :=
  if type = some .imulhR ∨ type = some .ismulhR then .ok (decodeBuffer3310, gen)
  else if mulCount < cycle + 1 then .ok (decodeBuffer4444, gen)
  else
    let (byte, gen) := gen.getByte blake2b
    if type = some .imulRcp then
      .ok (if byte &&& 1 ≠ 0 then decodeBuffer484 else decodeBuffer493, gen)
    else match decodeBuffers[(byte &&& 3).toNat]? with
      | some buffer => .ok (buffer, gen)
      | none => .error .slot

end Instructions

section Registers
variable (blake2b : List (BitVec 8) → List (BitVec 8))

structure RegisterInfo where
  latency : Int := 0
  lastOpGroup : Option SuperscalarType := none
  lastOpPar : Int := -1

/-- The local variables of `generateSuperscalar`. -/
structure Generation where
  portBusy : PortBusy
  registers : Fin 8 → RegisterInfo
  current : PendingInstruction
  macroOpIndex : Nat
  codeSize : Nat
  macroOpCount : Nat
  cycle : Int
  depCycle : Int
  retireCycle : Int
  portsSaturated : Bool
  program : List Instruction
  mulCount : Nat
  throwAwayCount : Nat
  gen : Blake2Generator

def Generation.start (gen : Blake2Generator) : Generation where
  portBusy := fun _ _ => 0
  registers := fun _ => {}
  current := .null
  macroOpIndex := 0
  codeSize := 0
  macroOpCount := 0
  cycle := 0
  depCycle := 0
  retireCycle := 0
  portsSaturated := false
  program := []
  mulCount := 0
  throwAwayCount := 0
  gen := gen

/-- A random one of the registers, none of an empty list; nothing is drawn for a single one. -/
def selectRegister (available : List (Fin 8)) (gen : Blake2Generator) :
    Except Fault (Option (Fin 8) × Blake2Generator) :=
  if available.length = 0 then .ok (none, gen)
  else
    let (index, gen) :=
      if available.length > 1 then
        let (value, gen) := gen.getUInt32 blake2b
        (value.toNat % available.length, gen)
      else (0, gen)
    match available[index]? with
    | some register => .ok (some register, gen)
    | none => .error .register

def selectSource (cycle : Int) (state : Generation) : Except Fault (Bool × Generation) :=
  let pending := state.current
  let available := (List.finRange 8).filter fun i => decide ((state.registers i).latency ≤ cycle)
  -- r5 cannot be the destination of IADD_RS, so that one of two registers is its source
  if available.length = 2 ∧ pending.info = some .iaddRs ∧ registerNeedsDisplacement ∈ available then
    let src : Int := registerNeedsDisplacement.val
    .ok (true, { state with current := { pending with src, opGroupPar := src } })
  else do
    match ← selectRegister blake2b available state.gen with
    | (some register, gen) =>
        let src : Int := register.val
        let opGroupPar := if pending.groupParIsSource then src else pending.opGroupPar
        pure (true, { state with current := { pending with src, opGroupPar }, gen })
    | (none, gen) => pure (false, { state with gen })

def suits (cycle : Int) (allowChainedMul : Bool) (state : Generation) (i : Fin 8) : Bool :=
  let pending := state.current
  let info := state.registers i
  decide (info.latency ≤ cycle) &&
    (pending.canReuse || decide ((i.val : Int) ≠ pending.src)) &&
    (allowChainedMul || decide (pending.opGroup ≠ some .imulR) ||
      decide (info.lastOpGroup ≠ some .imulR)) &&
    (decide (info.lastOpGroup ≠ pending.opGroup) || decide (info.lastOpPar ≠ pending.opGroupPar)) &&
    (decide (pending.info ≠ some .iaddRs) || decide (i ≠ registerNeedsDisplacement))

def selectDestination (cycle : Int) (state : Generation) : Except Fault (Bool × Generation) := do
  let allowChainedMul := decide (state.throwAwayCount > 0)
  match ← selectRegister blake2b ((List.finRange 8).filter (suits cycle allowChainedMul state))
      state.gen with
  | (some register, gen) =>
      pure (true, { state with current := { state.current with dst := register.val }, gen })
  | (none, gen) => pure (false, { state with gen })

/-- Looks for a register in one cycle after the other, `forward` of them at most; with the cycle
in which one was found. -/
def stall (select : Int → Generation → Except Fault (Bool × Generation)) : Nat → Int → Generation →
    Except Fault (Bool × Int × Generation)
  | 0, scheduleCycle, state => .ok (false, scheduleCycle, state)
  | forward + 1, scheduleCycle, state => do
      let (found, state) ← select scheduleCycle state
      if found then pure (true, scheduleCycle, state)
      else stall select forward (scheduleCycle + 1) { state with cycle := state.cycle + 1 }

def lookForwardCycles : Nat := 4
def maxThrowawayCount : Nat := 256

end Registers

section Generate
variable (blake2b : List (BitVec 8) → List (BitVec 8)) (draws latency : Nat)

def programLimit : Nat := 3 * latency + 2

/-- What follows a pass over the body of the inner loop. -/
inductive Flow where
  | proceed (bufferIndex : Nat)
  | leave

/-- A new instruction for the slot when the current one is issued; none where the loop is left. -/
def beginInstruction (buffer : DecoderBuffer) (bufferIndex : Nat) (state : Generation) :
    Except Fault (Option Generation) :=
  if state.current.size ≤ state.macroOpIndex then
    if state.portsSaturated || decide (programLimit latency ≤ state.program.length) then .ok none
    else match buffer.counts[bufferIndex]? with
      | none => .error .slot
      | some slotSize => do
          let (current, gen) ← state.current.createForSlot blake2b draws slotSize buffer.index
            (decide (buffer.counts.length = bufferIndex + 1)) state.gen
          pure (some { state with current, gen, macroOpIndex := 0 })
  else .ok (some state)

/-- The source register, where the macro-operation has one. -/
def chooseSource (scheduleCycle : Int) (state : Generation) :
    Except Fault (Bool × Int × Generation) :=
  if (state.macroOpIndex : Int) = (infoOf state.current.info).srcOp then
    stall (selectSource blake2b) lookForwardCycles scheduleCycle state
  else .ok (true, scheduleCycle, state)

def chooseDestination (scheduleCycle : Int) (state : Generation) :
    Except Fault (Bool × Int × Generation) :=
  if (state.macroOpIndex : Int) = (infoOf state.current.info).dstOp then
    stall (selectDestination blake2b) lookForwardCycles scheduleCycle state
  else .ok (true, scheduleCycle, state)

/-- Both operands of the macro-operation; the second one only if the first was found. -/
def selectOperands (scheduleCycle : Int) (state : Generation) :
    Except Fault (Bool × Int × Generation) := do
  let (found, scheduleCycle, state) ← chooseSource blake2b scheduleCycle state
  if found then chooseDestination blake2b scheduleCycle state
  else pure (false, scheduleCycle, state)

/-- Without registers the instruction is thrown away, or the buffer is when that was done too
often. -/
def giveUp (bufferIndex : Nat) (state : Generation) : Flow × Generation :=
  if state.throwAwayCount < maxThrowawayCount then
    (.proceed bufferIndex,
      { state with
        throwAwayCount := state.throwAwayCount + 1, macroOpIndex := state.current.size })
  else (.leave, { state with current := .null })

/-- `registers[dst]` after the macro-operation with the result. -/
def retire (state : Generation) : Except Fault Generation :=
  if (state.macroOpIndex : Int) = (infoOf state.current.info).resultOp then
    if inside : 0 ≤ state.current.dst ∧ state.current.dst.toNat < 8 then
      .ok { state with
        retireCycle := state.depCycle
        registers := Function.update state.registers ⟨state.current.dst.toNat, inside.2⟩
          { latency := state.depCycle, lastOpGroup := state.current.opGroup,
            lastOpPar := state.current.opGroupPar } }
    else .error .register
  else .ok state

/-- The instruction goes to the program with its last macro-operation. -/
def finish (state : Generation) : Except Fault Generation :=
  if state.current.size ≤ state.macroOpIndex then
    match state.current.info with
    | none => .error .macroOp
    | some type =>
        if state.program.length < superscalarMaxSize then
          .ok { state with
            program := state.program ++ [state.current.toInstr type]
            mulCount := state.mulCount + (isMultiplication (some type)).toNat }
        else .error .program
  else .ok state

def issue (mop : MacroOp) (topCycle : Int) (bufferIndex : Nat) (scheduleCycle : Int)
    (state : Generation) : Except Fault (Flow × Generation) := do
  let state := { state with throwAwayCount := 0 }
  let (scheduleCycle, portBusy) ←
    scheduleMop latency true mop state.portBusy scheduleCycle scheduleCycle
  if scheduleCycle < 0 then pure (.leave, { state with portBusy, portsSaturated := true })
  else
    let state ← retire { state with portBusy, depCycle := scheduleCycle + mop.latency }
    let state ← finish { state with
      codeSize := state.codeSize + mop.size
      macroOpIndex := state.macroOpIndex + 1
      macroOpCount := state.macroOpCount + 1
      portsSaturated := state.portsSaturated || decide ((latency : Int) ≤ scheduleCycle)
      cycle := topCycle }
    pure (.proceed (bufferIndex + 1), state)

def pass (buffer : DecoderBuffer) (bufferIndex : Nat) (state : Generation) :
    Except Fault (Flow × Generation) := do
  let topCycle := state.cycle
  match ← beginInstruction blake2b draws latency buffer bufferIndex state with
  | none => pure (.leave, state)
  | some state =>
      match (infoOf state.current.info).ops[state.macroOpIndex]? with
      | none => .error .macroOp
      | some mop => do
          let (scheduleCycle, _) ←
            scheduleMop latency false mop state.portBusy state.cycle state.depCycle
          if scheduleCycle < 0 then pure (.leave, { state with portsSaturated := true })
          else
            let (found, scheduleCycle, state) ← selectOperands blake2b scheduleCycle state
            if found then issue latency mop topCycle bufferIndex scheduleCycle state
            else pure (giveUp bufferIndex state)

/-- The inner loop, for at most `fuel` passes. -/
def fill (buffer : DecoderBuffer) : Nat → Nat → Generation → Except Fault Generation
  | 0, bufferIndex, state =>
      if bufferIndex < buffer.counts.length then .error .passes else .ok state
  | fuel + 1, bufferIndex, state =>
      if bufferIndex < buffer.counts.length then do
        match ← pass blake2b draws latency buffer bufferIndex state with
        | (.leave, state) => pure state
        | (.proceed bufferIndex, state) => fill buffer fuel bufferIndex state
      else .ok state

def passBound : Nat := 2048

/-- The decode cycles from `decodeCycle` on; with the number of them. -/
def decode : Nat → Nat → Generation → Except Fault (Nat × Generation)
  | 0, decodeCycle, state => .ok (decodeCycle, state)
  | fuel + 1, decodeCycle, state =>
      if !state.portsSaturated && decide (state.program.length < programLimit latency) then do
        let (buffer, gen) ←
          fetchNext blake2b state.current.info decodeCycle state.mulCount state.gen
        let state ← fill blake2b draws latency buffer passBound 0 { state with gen }
        decode fuel (decodeCycle + 1) { state with cycle := state.cycle + 1 }
      else .ok (decodeCycle, state)

/-- `SuperscalarProgram` without its statistics in floating point. -/
structure SuperscalarProgram where
  instructions : List Instruction
  addrReg : Fin 8
  codeSize : Nat
  macroOps : Nat
  decodeCycles : Nat
  cpuLatency : Int
  asicLatency : Nat
  mulCount : Nat
  cpuLatencies : Fin 8 → Int
  asicLatencies : Fin 8 → Nat

/-- A register of an emitted instruction as an index of the latencies. -/
def registerIndex (register : BitVec 8) : Except Fault (Fin 8) :=
  if inside : register.toNat < 8 then .ok ⟨register.toNat, inside⟩ else .error .register

def asicStep (asicLatencies : Fin 8 → Nat) (instr : Instruction) : Except Fault (Fin 8 → Nat) := do
  let dst ← registerIndex instr.dst
  let src ← registerIndex instr.src
  let latDst := asicLatencies dst + 1
  let latSrc := if instr.dst ≠ instr.src then asicLatencies src + 1 else 0
  pure (Function.update asicLatencies dst (max latDst latSrc))

/-- The first register with the highest latency, and that latency. -/
def addressRegister (asicLatencies : Fin 8 → Nat) : Fin 8 × Nat :=
  (List.finRange 8).foldl (fun best i =>
    if asicLatencies i > best.2 then (i, asicLatencies i) else best) (0, 0)

def generateSuperscalar (gen : Blake2Generator) :
    Except Fault (SuperscalarProgram × Blake2Generator) := do
  let (decodeCycles, state) ← decode blake2b draws latency latency 0 (Generation.start gen)
  let asicLatencies ← state.program.foldlM asicStep (fun _ => 0)
  let address := addressRegister asicLatencies
  pure
    ({ instructions := state.program
       addrReg := address.1
       codeSize := state.codeSize
       macroOps := state.macroOpCount
       decodeCycles
       cpuLatency := state.retireCycle
       asicLatency := address.2
       mulCount := state.mulCount
       cpuLatencies := fun i => (state.registers i).latency
       asicLatencies }, state.gen)

end Generate

end Generator

end Xmrig.RandomX
