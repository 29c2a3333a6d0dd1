import Xmrig.CryptonightR.RandomMath

/-! Bounds of the CryptonightR generator.

The arrays of `v4_random_math_init` have fixed sizes and no access to them is checked. Here the
generator is written once more with every access checked and with the inner loops failing where
they do not end. It never fails, and what it returns is what the generator returns.
-/

set_option autoImplicit false

namespace Xmrig.CryptonightR

namespace Checked
variable (hashExtraBlake : List (BitVec 8) → List (BitVec 8))

/-- The element of an array of `size` elements that an `int` stands for. -/
def element (size : Nat) (index : Int) : Option (Fin size) :=
  if inside : 0 ≤ index ∧ index.toNat < size then some ⟨index.toNat, inside.2⟩ else none

def nextByte (stream : Stream) : Option (BitVec 8 × Stream) := do
  let stream := checkData hashExtraBlake 1 stream
  let byte ← stream.data[stream.dataIndex]?
  some (byte, { stream with dataIndex := stream.dataIndex + 1 })

def nextWord (stream : Stream) : Option (BitVec 32 × Stream) := do
  let stream := checkData hashExtraBlake 4 stream
  let byte0 ← stream.data[stream.dataIndex + 0]?
  let byte1 ← stream.data[stream.dataIndex + 1]?
  let byte2 ← stream.data[stream.dataIndex + 2]?
  let byte3 ← stream.data[stream.dataIndex + 3]?
  some (byte3 ++ byte2 ++ byte1 ++ byte0, { stream with dataIndex := stream.dataIndex + 4 })

def drawOpcode (c : BitVec 8) (stream : Stream) : Option (V4Opcode × Stream) :=
  let opcode := c.toNat % 8
  if opcode = 5 then do
    let (direction, stream) ← nextByte hashExtraBlake stream
    some (if direction.msb then .rol else .ror, stream)
  else if opcode ≥ 6 then some (.xor, stream)
  else if opcode ≤ 2 then some (.mul, stream)
  else if opcode = 3 then some (.add, stream)
  else some (.sub, stream)

/-- `alu_busy[cycle][alu]` of `bool alu_busy[TOTAL_LATENCY + 1][ALU_COUNT]`. -/
def aluBusy (attempt : Attempt) (cycle alu : Int) : Option Bool := do
  let cycle ← element (totalLatency + 1) cycle
  let alu ← element 3 alu
  some (attempt.aluBusy cycle alu)

/-- The ALUs below `count`, the last one first. -/
def freeAlu (attempt : Attempt) (opcode : V4Opcode) (cycle : Nat) : Nat → Option (Option Nat)
  | 0 => some none
  | alu + 1 => do
      let busy ← aluBusy attempt cycle alu
      if busy then freeAlu attempt opcode cycle alu
      else
        -- the cycle after is looked at for an ADD only
        let next ← if opcode = .add then aluBusy attempt (cycle + 1) alu else some false
        if next then freeAlu attempt opcode cycle alu
        else if opcode.isRotation && decide (cycle < attempt.rotateCount * opcode.latency) then
          freeAlu attempt opcode cycle alu
        else some (some alu)

/-- The loop over the cycles; it fails if it would go on without fuel. -/
def findAlu (attempt : Attempt) (opcode : V4Opcode) : Nat → Nat → Option (Nat × Option Nat)
  | 0, cycle => if cycle < totalLatency then none else some (cycle, none)
  | fuel + 1, cycle =>
      if cycle < totalLatency then do
        match ← freeAlu attempt opcode cycle opcode.alus with
        | some alu => some (cycle, some alu)
        | none => findAlu attempt opcode fuel (cycle + 1)
      else some (cycle, none)

/-- `alu_index`, which is −1 when no ALU was found. -/
def aluIndex : Option Nat → Int
  | some alu => alu
  | none => -1

/-- The writes for one instruction; `code` has a place more than the largest program. -/
def place (attempt : Attempt) (inst : V4Instruction) (cycle : Nat) (alu : Option Nat) :
    Option Attempt := do
  let _ ← aluBusy attempt cycle (aluIndex alu)
  let _ ← element (numInstructionsMax + 1) attempt.code.length
  let _ ← if inst.opcode = .add then aluBusy attempt (cycle + 1) (aluIndex alu) else some false
  some (CryptonightR.place attempt inst cycle alu)

def generateOne (attempt : Attempt) (stream : Stream) : Option (Attempt × Stream) := do
  let (c, stream) ← nextByte hashExtraBlake stream
  let (opcode, stream) ← drawOpcode hashExtraBlake c stream
  -- the tables over the operations have no entry for RET
  let _ ← element 6 opcode.value
  let dstIndex := c.toNat / 8 % 4
  let srcIndex := c.toNat / 32 % 8
  let dst ← element 4 dstIndex
  let b ← element 9 (if opcode.needsOther ∧ srcIndex = dstIndex then 8 else srcIndex : Nat)
  let inst : V4Instruction := ⟨opcode, dst, b, 0⟩
  let a := inst.dst
  if opcode.isRotation && attempt.rotated dst then some (attempt, stream)
  else if opcode ≠ .mul ∧ attempt.instData a &&& 0xFFFF00 =
      BitVec.ofNat 32 opcode.value <<< 8 + (attempt.instData b &&& 255) <<< 16 then
    some (attempt, stream)
  else
    let (cycle, alu) ←
      findAlu attempt opcode totalLatency (max (attempt.latency a) (attempt.latency b))
    if cycle > attempt.latency a + 7 then some (attempt, stream)
    else if cycle + opcode.latency ≤ totalLatency then
      if opcode = .add then
        let (constant, stream) ← nextWord hashExtraBlake stream
        let attempt ← place attempt { inst with constant } cycle alu
        some (attempt, stream)
      else
        let attempt ← place attempt inst cycle alu
        some (attempt, stream)
    else some ({ attempt with numRetries := attempt.numRetries + 1 }, stream)

def generate : Nat → Attempt → Stream → Option (Attempt × Stream)
  | 0, attempt, stream => some (attempt, stream)
  | fuel + 1, attempt, stream =>
      if latencyMissing attempt && decide (attempt.numRetries < 64) then do
        let next ← generateOne hashExtraBlake attempt stream
        if numInstructionsMin ≤ next.1.code.length then some next
        else generate fuel next.1 next.2
      else some (attempt, stream)

def extendOne (previous : Nat) (attempt : Attempt) : Option Attempt := do
  let _ ← element 3 (Int.tmod (attempt.code.length - previous) 3)
  let _ ← element (numInstructionsMax + 1) attempt.code.length
  some (CryptonightR.extendOne previous attempt)

def extend (previous : Nat) : Nat → Attempt → Option Attempt
  | 0, attempt =>
      if decide (attempt.code.length < numInstructionsMax) && asicLatencyMissing attempt then none
      else some attempt
  | fuel + 1, attempt =>
      if decide (attempt.code.length < numInstructionsMax) && asicLatencyMissing attempt then do
        let attempt ← extendOne previous attempt
        extend previous fuel attempt
      else some attempt

/-- The outer `none` is a failure, the inner one a retry loop that takes more than `fuel`
attempts. -/
def attempts : Nat → Stream → Option (Option (List V4Instruction))
  | 0, _ => some none
  | fuel + 1, stream => do
      let generated ← generate hashExtraBlake 256 Attempt.start stream
      let attempt ← extend generated.1.code.length numInstructionsMax generated.1
      if !attempt.r8Used || decide (attempt.code.length < numInstructionsMin) ||
          decide (attempt.code.length > numInstructionsMax) then attempts fuel generated.2
      else
        let _ ← element (numInstructionsMax + 1) attempt.code.length
        some (some (attempt.code ++ [V4Instruction.ret]))

def v4RandomMathInit (cnR : Bool) (height : BitVec 64) (fuel : Nat) :
    Option (Option (List V4Instruction)) :=
  attempts hashExtraBlake fuel ⟨seed cnR height, 32⟩

end Checked

section Bounds
variable (hashExtraBlake : List (BitVec 8) → List (BitVec 8))

theorem element_eq {size index : Nat} (inside : index < size) :
    Checked.element size index = some ⟨index, inside⟩ := by
  unfold Checked.element
  rw [dif_pos ⟨Int.natCast_nonneg index, by simpa using inside⟩]
  rfl

/-- The hashed bytes fill their array. -/
def Stream.Full (stream : Stream) : Prop := stream.data.length = 32

variable {hashExtraBlake}

theorem checkData_fits (keeps : ∀ data, data.length = 32 → (hashExtraBlake data).length = 32)
    {stream : Stream} (full : stream.Full) {bytesNeeded : Nat} (few : bytesNeeded ≤ 32) :
    (checkData hashExtraBlake bytesNeeded stream).Full ∧
      (checkData hashExtraBlake bytesNeeded stream).dataIndex + bytesNeeded ≤ 32 := by
  unfold checkData
  split
  · exact ⟨keeps _ full, by dsimp only; omega⟩
  · rename_i enough
    exact ⟨full, by omega⟩

theorem getElem?_full {stream : Stream} (full : stream.Full) {index : Nat} (inside : index < 32) :
    stream.data[index]? = some (stream.data.getD index 0) := by
  have within : index < stream.data.length := full ▸ inside
  rw [List.getD_eq_getElem?_getD, List.getElem?_eq_getElem within]
  rfl

variable (keeps : ∀ data, data.length = 32 → (hashExtraBlake data).length = 32)
include keeps

theorem nextByte_full {stream : Stream} (full : stream.Full) :
    (nextByte hashExtraBlake stream).2.Full :=
  (checkData_fits keeps full (by decide)).1

theorem nextByte_checked {stream : Stream} (full : stream.Full) :
    Checked.nextByte hashExtraBlake stream = some (nextByte hashExtraBlake stream) := by
  obtain ⟨filled, fits⟩ := checkData_fits keeps full (show 1 ≤ 32 by decide)
  unfold Checked.nextByte nextByte
  dsimp only
  rw [getElem?_full filled fits]
  rfl

theorem nextWord_full {stream : Stream} (full : stream.Full) :
    (nextWord hashExtraBlake stream).2.Full :=
  (checkData_fits keeps full (by decide)).1

theorem nextWord_checked {stream : Stream} (full : stream.Full) :
    Checked.nextWord hashExtraBlake stream = some (nextWord hashExtraBlake stream) := by
  obtain ⟨filled, fits⟩ := checkData_fits keeps full (show 4 ≤ 32 by decide)
  have byte : ∀ offset < 4, (checkData hashExtraBlake 4 stream).data[
      (checkData hashExtraBlake 4 stream).dataIndex + offset]? =
        some ((checkData hashExtraBlake 4 stream).data.getD
          ((checkData hashExtraBlake 4 stream).dataIndex + offset) 0) := by
    intro offset small
    exact getElem?_full filled (by omega)
  unfold Checked.nextWord nextWord
  dsimp only
  rw [byte 0 (by decide), byte 1 (by decide), byte 2 (by decide), byte 3 (by decide)]
  rfl

theorem drawOpcode_full (c : BitVec 8) {stream : Stream} (full : stream.Full) :
    (drawOpcode hashExtraBlake c stream).2.Full := by
  unfold drawOpcode
  dsimp only
  split
  · exact nextByte_full keeps full
  · repeat' split
    all_goals exact full

theorem drawOpcode_checked (c : BitVec 8) {stream : Stream} (full : stream.Full) :
    Checked.drawOpcode hashExtraBlake c stream = some (drawOpcode hashExtraBlake c stream) := by
  unfold Checked.drawOpcode drawOpcode
  dsimp only
  split
  · rw [nextByte_checked keeps full]
    rfl
  · repeat' split
    all_goals rfl

omit keeps

theorem alus_le (opcode : V4Opcode) : opcode.alus ≤ 3 := by
  cases opcode <;> decide

theorem aluBusy_checked (attempt : Attempt) {cycle alu : Nat} (early : cycle ≤ totalLatency)
    (small : alu < 3) : Checked.aluBusy attempt cycle alu = some (attempt.aluBusy cycle alu) := by
  unfold Checked.aluBusy
  rw [element_eq (Nat.lt_succ_of_le early), element_eq small]
  rfl

theorem freeAlu_checked (attempt : Attempt) (opcode : V4Opcode) {cycle : Nat}
    (early : cycle < totalLatency) {count : Nat} (few : count ≤ 3) :
    Checked.freeAlu attempt opcode cycle count =
      some ((List.range count).reverse.find? fun alu =>
        !attempt.aluBusy cycle alu && !(opcode == .add && attempt.aluBusy (cycle + 1) alu) &&
          !(opcode.isRotation && decide (cycle < attempt.rotateCount * opcode.latency))) := by
  induction count with
  | zero => rfl
  | succ alu ih =>
    have rest := ih (by omega)
    have next : Checked.aluBusy attempt (cycle + 1) alu = some (attempt.aluBusy (cycle + 1) alu) :=
      aluBusy_checked attempt (Nat.succ_le_of_lt early) few
    rw [List.range_succ, List.reverse_append, List.reverse_singleton, List.singleton_append,
      List.find?_cons]
    unfold Checked.freeAlu
    rw [aluBusy_checked attempt (Nat.le_of_lt early) few, rest, next]
    rcases attempt.aluBusy cycle alu with _ | _
    · by_cases adds : opcode = .add
      · subst adds
        rcases attempt.aluBusy (cycle + 1) alu with _ | _
        · rfl
        · rfl
      · have other : (opcode == V4Opcode.add) = false := by simpa using adds
        rw [if_neg adds, other]
        rcases opcode.isRotation && decide (cycle < attempt.rotateCount * opcode.latency) with _ | _
        · rfl
        · rfl
    · rfl

/-- The loop over the cycles ends, and without an ALU only after the last cycle. -/
theorem findAlu_checked (attempt : Attempt) (opcode : V4Opcode) {fuel cycle : Nat}
    (enough : totalLatency ≤ fuel + cycle) :
    Checked.findAlu attempt opcode fuel cycle = some (findAlu attempt opcode fuel cycle) := by
  induction fuel generalizing cycle with
  | zero =>
    unfold Checked.findAlu findAlu
    rw [if_neg (by omega)]
  | succ fuel ih =>
    unfold Checked.findAlu findAlu
    split
    · rename_i early
      rw [freeAlu_checked attempt opcode early (alus_le opcode)]
      change (match freeAlu attempt opcode cycle with
        | some alu => some (cycle, some alu)
        | none => Checked.findAlu attempt opcode fuel (cycle + 1)) = _
      rcases freeAlu attempt opcode cycle with _ | alu
      · exact ih (by omega)
      · rfl
    · rfl

theorem freeAlu_lt {attempt : Attempt} {opcode : V4Opcode} {cycle alu : Nat}
    (found : freeAlu attempt opcode cycle = some alu) : alu < 3 := by
  have member := List.mem_of_find?_eq_some found
  rw [List.mem_reverse, List.mem_range] at member
  exact Nat.lt_of_lt_of_le member (alus_le opcode)

theorem findAlu_found (attempt : Attempt) (opcode : V4Opcode) {fuel cycle : Nat}
    (enough : totalLatency ≤ fuel + cycle)
    (early : (findAlu attempt opcode fuel cycle).1 < totalLatency) :
    ∃ alu < 3, (findAlu attempt opcode fuel cycle).2 = some alu := by
  induction fuel generalizing cycle with
  | zero =>
    unfold findAlu at early
    dsimp only at early
    omega
  | succ fuel ih =>
    unfold findAlu at early ⊢
    split at early
    · rename_i within
      rw [if_pos within]
      rcases found : freeAlu attempt opcode cycle with _ | alu
      · rw [found] at early
        exact ih (by omega) early
      · exact ⟨alu, freeAlu_lt found, rfl⟩
    · rename_i late
      exact absurd early late

theorem place_checked (attempt : Attempt) (inst : V4Instruction) {cycle alu : Nat}
    (ends : cycle + inst.opcode.latency ≤ totalLatency)
    (small : alu < 3) (room : attempt.code.length < numInstructionsMax + 1) :
    Checked.place attempt inst cycle (some alu) =
      some (place attempt inst cycle (some alu)) := by
  have starts : cycle ≤ totalLatency := by omega
  unfold Checked.place
  rw [show Checked.aluIndex (some alu) = (alu : Int) from rfl,
    aluBusy_checked attempt starts small, element_eq room]
  by_cases adds : inst.opcode = .add
  · rw [adds] at ends
    have next : Checked.aluBusy attempt (cycle + 1) alu = some (attempt.aluBusy (cycle + 1) alu) :=
      aluBusy_checked attempt (Nat.le_of_succ_le ends) small
    rw [next, if_pos adds]
    rfl
  · rw [if_neg adds]
    rfl

theorem one_le_latency {opcode : V4Opcode} (running : opcode ≠ .ret) : 1 ≤ opcode.latency := by
  cases opcode
  case ret => exact absurd rfl running
  all_goals decide

theorem findAlu_placed {attempt : Attempt} {inst : V4Instruction} (running : inst.opcode ≠ .ret)
    {start : Nat} (room : attempt.code.length < numInstructionsMax + 1)
    (ends : (findAlu attempt inst.opcode totalLatency start).1 + inst.opcode.latency ≤ totalLatency)
    {opcode : V4Opcode} (same : opcode = inst.opcode) :
    Checked.place attempt inst (findAlu attempt opcode totalLatency start).1
        (findAlu attempt opcode totalLatency start).2 =
      some (place attempt inst (findAlu attempt opcode totalLatency start).1
        (findAlu attempt opcode totalLatency start).2) := by
  subst same
  have least := one_le_latency running
  have early : (findAlu attempt inst.opcode totalLatency start).1 < totalLatency := by omega
  obtain ⟨alu, small, found⟩ := findAlu_found attempt inst.opcode (Nat.le_add_right _ _) early
  rw [found]
  exact place_checked attempt inst ends small room

theorem value_lt_six {opcode : V4Opcode} (running : opcode ≠ .ret) : opcode.value < 6 := by
  cases opcode
  case ret => exact absurd rfl running
  all_goals decide

theorem element_drawDst (c : BitVec 8) :
    Checked.element 4 ((c.toNat / 8 % 4 : Nat) : Int) = some (drawDst c) :=
  element_eq (dstField_lt c)

theorem element_drawSrc (c : BitVec 8) (opcode : V4Opcode) :
    Checked.element 9 ((if opcode.needsOther ∧ c.toNat / 32 % 8 = c.toNat / 8 % 4 then 8
      else c.toNat / 32 % 8 : Nat) : Int) = some (drawSrc c opcode) := by
  unfold drawSrc
  split
  · exact element_eq eight_lt_nine
  · exact element_eq (srcField_lt c)

include keeps

theorem generateOne_checked {attempt : Attempt} {stream : Stream} (full : stream.Full)
    (room : attempt.code.length < numInstructionsMax + 1) :
    Checked.generateOne hashExtraBlake attempt stream =
      some (generateOne hashExtraBlake attempt stream) := by
  have drawn := nextByte_full keeps full
  have running := drawOpcode_ne_ret hashExtraBlake (nextByte hashExtraBlake stream).1
    (nextByte hashExtraBlake stream).2
  have filled := drawOpcode_full keeps (nextByte hashExtraBlake stream).1 drawn
  unfold Checked.generateOne generateOne
  rw [nextByte_checked keeps full]
  dsimp only [Option.bind_eq_bind, Option.bind_some]
  rw [drawOpcode_checked keeps _ drawn]
  generalize nextByte hashExtraBlake stream = byte at *
  generalize drawOpcode hashExtraBlake byte.1 byte.2 = operation at *
  obtain ⟨opcode, rest⟩ := operation
  dsimp only [Option.bind_some] at running ⊢
  rw [element_eq (value_lt_six running), element_drawDst, element_drawSrc]
  dsimp only [Option.bind_some]
  split
  · rfl
  · split
    · rfl
    · rw [findAlu_checked attempt opcode (Nat.le_add_right _ _)]
      dsimp only [Option.bind_some]
      split
      · rfl
      · split
        · rename_i ends
          split
          · rw [nextWord_checked keeps filled]
            dsimp only [Option.bind_some]
            rw [findAlu_placed _ _ _ rfl]
            · rfl
            · exact running
            · exact room
            · exact ends
          · rw [findAlu_placed _ _ _ rfl]
            · rfl
            · exact running
            · exact room
            · exact ends
        · rfl

theorem generateOne_full (attempt : Attempt) {stream : Stream} (full : stream.Full) :
    (generateOne hashExtraBlake attempt stream).2.Full := by
  have filled := drawOpcode_full keeps (nextByte hashExtraBlake stream).1
    (nextByte_full keeps full)
  unfold generateOne
  dsimp only
  generalize nextByte hashExtraBlake stream = byte at *
  generalize drawOpcode hashExtraBlake byte.1 byte.2 = operation at *
  split
  · exact filled
  · split
    · exact filled
    · split
      · exact filled
      · split
        · split
          · exact nextWord_full keeps filled
          · exact filled
        · exact filled

omit keeps

theorem generateOne_length (attempt : Attempt) (stream : Stream) :
    (generateOne hashExtraBlake attempt stream).1.code.length ≤ attempt.code.length + 1 := by
  rcases generateOne_code hashExtraBlake attempt stream with ⟨same, -⟩ | ⟨c, opcode, k, -, more, -⟩
  · rw [same]
    exact Nat.le_succ _
  · rw [more, List.length_append]
    exact Nat.le_refl _

include keeps

theorem generate_checked (fuel : Nat) {attempt : Attempt} {stream : Stream} (full : stream.Full)
    (short : attempt.code.length < numInstructionsMin) :
    Checked.generate hashExtraBlake fuel attempt stream =
        some (generate hashExtraBlake fuel attempt stream) ∧
      (generate hashExtraBlake fuel attempt stream).2.Full ∧
      (generate hashExtraBlake fuel attempt stream).1.code.length ≤ numInstructionsMin := by
  induction fuel generalizing attempt stream with
  | zero => exact ⟨rfl, full, Nat.le_of_lt short⟩
  | succ fuel ih =>
    have next := generateOne_full keeps attempt full
    have length := @generateOne_length hashExtraBlake attempt stream
    have room : attempt.code.length < numInstructionsMax + 1 :=
      Nat.lt_of_lt_of_le short (by decide)
    unfold Checked.generate generate
    split
    · rw [generateOne_checked keeps full room]
      dsimp only [Option.bind_eq_bind, Option.bind_some]
      split
      · exact ⟨rfl, next, by omega⟩
      · rename_i more
        exact ih next (Nat.lt_of_not_le more)
    · exact ⟨rfl, full, Nat.le_of_lt short⟩

omit keeps

theorem extendOne_length (previous : Nat) (attempt : Attempt) :
    (extendOne previous attempt).code.length = attempt.code.length + 1 :=
  List.length_append

theorem extendOne_checked {previous : Nat} {attempt : Attempt}
    (later : previous ≤ attempt.code.length) (room : attempt.code.length < numInstructionsMax + 1) :
    Checked.extendOne previous attempt = some (extendOne previous attempt) := by
  have position : Int.tmod ((attempt.code.length : Int) - previous) 3 =
      ((attempt.code.length - previous) % 3 : Nat) := by
    rw [← Int.ofNat_sub later]
    rfl
  unfold Checked.extendOne
  rw [position, element_eq (Nat.mod_lt _ (by decide)), element_eq room]
  rfl

theorem extend_checked {previous fuel : Nat} {attempt : Attempt}
    (later : previous ≤ attempt.code.length)
    (enough : numInstructionsMax ≤ fuel + attempt.code.length) :
    Checked.extend previous fuel attempt = some (extend previous fuel attempt) := by
  induction fuel generalizing attempt with
  | zero =>
    have full : ¬ attempt.code.length < numInstructionsMax := by omega
    unfold Checked.extend extend
    rw [decide_eq_false full]
    rfl
  | succ fuel ih =>
    unfold Checked.extend extend
    split
    · rename_i goes
      rw [Bool.and_eq_true, decide_eq_true_eq] at goes
      have length := extendOne_length previous attempt
      rw [extendOne_checked later (Nat.lt_succ_of_lt goes.1)]
      exact ih (by omega) (by omega)
    · rfl

include keeps

theorem attempts_checked (fuel : Nat) {stream : Stream} (full : stream.Full) :
    Checked.attempts hashExtraBlake fuel stream = some (attempts hashExtraBlake fuel stream) := by
  induction fuel generalizing stream with
  | zero => rfl
  | succ fuel ih =>
    have empty : Attempt.start.code.length < numInstructionsMin := by decide
    obtain ⟨ran, filled, length⟩ := generate_checked keeps 256 full empty
    unfold Checked.attempts attempts
    rw [ran]
    dsimp only [Option.bind_eq_bind, Option.bind_some]
    rw [extend_checked (Nat.le_refl _) (Nat.le_add_right _ _)]
    dsimp only [Option.bind_some]
    split
    · exact ih filled
    · rename_i accepted
      simp only [Bool.or_eq_true, Bool.not_eq_true', decide_eq_true_eq, not_or] at accepted
      rw [element_eq (show _ < numInstructionsMax + 1 by omega)]
      rfl

omit keeps

/-- The flag tells the truth about the instructions. -/
def ReadsR8 (attempt : Attempt) : Prop :=
  attempt.r8Used = true → ∃ inst ∈ attempt.code, inst.srcIndex = r8

theorem generateOne_readsR8 {attempt : Attempt} (reads : ReadsR8 attempt) (stream : Stream) :
    ReadsR8 (generateOne hashExtraBlake attempt stream).1 := by
  intro used
  rcases generateOne_code hashExtraBlake attempt stream with
    ⟨code, flag⟩ | ⟨c, opcode, constant, -, code, flag⟩
  · rw [code]
    exact reads (flag ▸ used)
  · rw [flag, Bool.or_eq_true, decide_eq_true_eq] at used
    rw [code]
    rcases used with before | now
    · obtain ⟨inst, member, same⟩ := reads before
      exact ⟨inst, List.mem_append_left _ member, same⟩
    · exact ⟨_, List.mem_append_right _ (List.mem_singleton_self _), now⟩

theorem generate_readsR8 (fuel : Nat) {attempt : Attempt} (reads : ReadsR8 attempt)
    (stream : Stream) : ReadsR8 (generate hashExtraBlake fuel attempt stream).1 := by
  induction fuel generalizing attempt stream with
  | zero => exact reads
  | succ fuel ih =>
    have next := @generateOne_readsR8 hashExtraBlake attempt reads stream
    unfold generate
    split
    · dsimp only
      split
      · exact next
      · exact ih next _
    · exact reads

theorem extend_readsR8 (previous fuel : Nat) {attempt : Attempt} (reads : ReadsR8 attempt) :
    ReadsR8 (extend previous fuel attempt) := by
  induction fuel generalizing attempt with
  | zero => exact reads
  | succ fuel ih =>
    unfold extend
    split
    · apply ih
      intro used
      obtain ⟨inst, member, same⟩ := reads used
      exact ⟨inst, List.mem_append_left _ member, same⟩
    · exact reads

theorem attempts_readsR8 {fuel : Nat} {stream : Stream} {code : List V4Instruction}
    (done : attempts hashExtraBlake fuel stream = some code) :
    ∃ inst ∈ code, inst.srcIndex = r8 := by
  induction fuel generalizing stream with
  | zero => cases done
  | succ fuel ih =>
    unfold attempts at done
    dsimp only at done
    split at done
    · exact ih done
    · rename_i accepted
      cases done
      simp only [Bool.or_eq_true, Bool.not_eq_true', not_or, Bool.not_eq_false] at accepted
      have start : ReadsR8 Attempt.start := fun used => Bool.noConfusion used
      obtain ⟨inst, member, same⟩ :=
        extend_readsR8 _ _ (generate_readsR8 256 start stream) accepted.1.1
      exact ⟨inst, List.mem_append_left _ member, same⟩

theorem Generated.readsR8 {body code : List V4Instruction} (generated : Generated body code)
    (reads : ∃ inst ∈ code, inst.srcIndex = r8) : ∃ inst ∈ body, inst.srcIndex = r8 := by
  obtain ⟨inst, member, same⟩ := reads
  rw [generated.eq, List.mem_append] at member
  rcases member with inside | last
  · exact ⟨inst, inside, same⟩
  · rw [List.mem_singleton.mp last] at same
    exact absurd same (by decide)

theorem seed_length (cnR : Bool) (height : BitVec 64) : (seed cnR height).length = 32 := by
  cases cnR <;> rfl

/-- No access is out of bounds and every inner loop ends; a program that is returned has sixty to
seventy instructions as the compiler expects them, reads R8 and ends with RET. -/
theorem v4RandomMathInit_wellFormed
    (keeps : ∀ data, data.length = 32 → (hashExtraBlake data).length = 32)
    (cnR : Bool) (height : BitVec 64) (fuel : Nat) :
    Checked.v4RandomMathInit hashExtraBlake cnR height fuel =
        some (v4RandomMathInit hashExtraBlake cnR height fuel) ∧
      ∀ code, v4RandomMathInit hashExtraBlake cnR height fuel = some code →
        ∃ body, Generated body code ∧ ∃ inst ∈ body, inst.srcIndex = r8 := by
  constructor
  · exact attempts_checked keeps fuel (seed_length cnR height)
  · intro code done
    obtain ⟨body, generated⟩ := attempts_generated hashExtraBlake done
    exact ⟨body, generated, generated.readsR8 (attempts_readsR8 done)⟩

/-- A hash of 32 bytes in which every byte depends on its neighbour. -/
def sampleHash (data : List (BitVec 8)) : List (BitVec 8) :=
  (List.range 32).map fun i =>
    data.getD i 0 * 5 + data.getD ((i + 31) % 32) 0 * 3 + BitVec.ofNat 8 (7 * i + 1)

/-- With that hash the first attempt succeeds at this height. -/
theorem v4RandomMathInit_wellFormed_sample :
    ∃ code body, v4RandomMathInit sampleHash true 1806260 1 = some code ∧
      Checked.v4RandomMathInit sampleHash true 1806260 1 = some (some code) ∧
      Generated body code ∧ ∃ inst ∈ body, inst.srcIndex = r8 := by
  have length : ∀ data : List (BitVec 8), data.length = 32 → (sampleHash data).length = 32 := by
    intro data _
    exact List.length_map _
  obtain ⟨checked, wellFormed⟩ := v4RandomMathInit_wellFormed length true 1806260 1
  have ends : (v4RandomMathInit sampleHash true 1806260 1).isSome := by decide +kernel
  obtain ⟨code, done⟩ := Option.isSome_iff_exists.mp ends
  obtain ⟨body, generated, reads⟩ := wellFormed code done
  exact ⟨code, body, done, done ▸ checked, generated, reads⟩

end Bounds

end Xmrig.CryptonightR
