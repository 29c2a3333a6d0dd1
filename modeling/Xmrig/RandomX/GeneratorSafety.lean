import Xmrig.Foundation.Faults
import Xmrig.RandomX.SuperscalarGenerator

/-! Safety of the superscalar generator.

The one fault it can end with is a rejection loop that was allowed too few
draws. The ports come first, then the creation of an instruction, the choice of
its registers, and the invariant of the loop over the slots.
-/

set_option autoImplicit false

namespace Xmrig.RandomX

open Foundation

namespace Generator

section PortBounds
variable {latency : Nat}

/-- The only fault is that of a rejection loop. -/
abbrev Sound {A : Type} (computation : Except Fault A) (post : A → Prop) : Prop :=
  Avoids (fun fault => fault ≠ .rejection) computation post

theorem busyAt_sound {cycle : Int} (start : 0 ≤ cycle) (before : cycle < latency + 4) {port : Nat}
    (small : port < 3) (busy : PortBusy) : Sound (busyAt latency busy cycle port) fun _ => True := by
  unfold busyAt
  rw [if_pos ⟨start, before, small⟩]
  trivial

theorem occupy_sound {cycle : Int} (start : 0 ≤ cycle) (before : cycle < latency + 4) {port : Nat}
    (small : port < 3) (busy : PortBusy) (uop : Nat) :
    Sound (occupy latency busy cycle port uop) fun _ => True := by
  unfold occupy
  rw [if_pos ⟨start, before, small⟩]
  trivial

theorem freePort_sound {cycle : Int} (start : 0 ≤ cycle) (before : cycle < latency + 4)
    (busy : PortBusy) (uop : Nat) {ports : List (Nat × Nat)} (small : ∀ port ∈ ports, port.2 < 3) :
    Sound (freePort latency busy uop cycle ports) fun found => ∀ port, found = some port → port < 3 := by
  induction ports with
  | nil =>
    intro port found
    cases found
  | cons head rest ih =>
    have later := ih fun port member => small port (List.mem_cons_of_mem head member)
    unfold freePort
    split
    · exact later
    · apply Avoids.bind (busyAt_sound start before (small head List.mem_cons_self) busy)
      intro taken _
      cases taken with
      | true => exact later
      | false =>
        apply avoids_ok
        rintro port ⟨⟩
        exact small head List.mem_cons_self

theorem portOrder_lt : ∀ port ∈ portOrder, port.2 < 3 := by decide

/-- A cycle in which something is scheduled, or −1. -/
def Scheduled (latency : Nat) (cycle : Int) : Prop := cycle = -1 ∨ 0 ≤ cycle ∧ cycle < latency + 4

theorem scheduleUop_sound (commit : Bool) (uop : Nat) {fuel : Nat} {busy : PortBusy} {cycle : Int}
    (start : 0 ≤ cycle) (enough : (latency : Int) + 4 ≤ fuel + cycle) :
    Sound (scheduleUop latency commit uop fuel busy cycle) fun result =>
      Scheduled latency result.1 := by
  induction fuel generalizing cycle with
  | zero =>
    unfold scheduleUop
    rw [if_neg (by omega)]
    exact .inl rfl
  | succ fuel ih =>
    unfold scheduleUop
    split
    · rename_i before
      apply Avoids.bind (freePort_sound start before busy uop portOrder_lt)
      intro found small
      cases found with
      | none => exact ih (by omega) (by omega)
      | some port =>
        cases commit with
        | false => exact .inr ⟨start, before⟩
        | true =>
          apply Avoids.bind (occupy_sound start before (small port rfl) busy uop)
          intro busy _
          exact .inr ⟨start, before⟩
    · exact .inl rfl

theorem scheduleBoth_sound (commit : Bool) (mop : MacroOp) {fuel : Nat} {busy : PortBusy}
    {cycle : Int} (start : 0 ≤ cycle) (enough : (latency : Int) + 4 ≤ fuel + cycle) :
    Sound (scheduleBoth latency commit mop fuel busy cycle) fun result =>
      Scheduled latency result.1 := by
  have uop : ∀ commit uop busy (cycle : Int), 0 ≤ cycle →
      Sound (scheduleUop latency commit uop (latency + 4) busy cycle) fun result =>
        Scheduled latency result.1 := by
    intro commit uop busy cycle start
    exact scheduleUop_sound commit uop start (by omega)
  induction fuel generalizing cycle with
  | zero =>
    unfold scheduleBoth
    rw [if_neg (by omega)]
    exact .inl rfl
  | succ fuel ih =>
    unfold scheduleBoth
    split
    · apply Avoids.bind (uop false mop.uop1 busy cycle start)
      intro first scheduled
      apply Avoids.bind (uop false mop.uop2 busy cycle start)
      intro second _
      split
      · rename_i both
        cases commit with
        | false => exact scheduled
        | true =>
          apply Avoids.bind (uop true mop.uop1 busy first.1 both.1)
          intro one _
          apply Avoids.bind (uop true mop.uop2 one.2 second.1 (both.2 ▸ both.1))
          intro two _
          exact scheduled
      · exact ih (by omega) (by omega)
    · exact .inl rfl

theorem scheduleMop_sound (commit : Bool) (mop : MacroOp) (busy : PortBusy) {cycle depCycle : Int}
    (start : 0 ≤ cycle) :
    Sound (scheduleMop latency commit mop busy cycle depCycle) fun result => -1 ≤ result.1 := by
  have weaker : ∀ result : Int × PortBusy, Scheduled latency result.1 → -1 ≤ result.1 := by
    rintro result (none | ⟨some, -⟩)
    · omega
    · omega
  have later : 0 ≤ if mop.dependent then max cycle depCycle else cycle := by
    split
    · exact Int.le_trans start (Int.le_max_left _ _)
    · exact start
  unfold scheduleMop
  dsimp only
  generalize (if mop.dependent then max cycle depCycle else cycle) = cycle at later ⊢
  split
  · apply avoids_ok
    omega
  · split
    · exact (scheduleUop_sound commit _ later (by omega)).mono weaker
    · exact (scheduleBoth_sound commit mop later (by omega)).mono weaker

end PortBounds

section Creation
variable {blake2b : List (BitVec 8) → List (BitVec 8)} {draws : Nat}

theorem drawUntil_sound {A : Type} (draw : Blake2Generator → A × Blake2Generator)
    (accepted : A → Bool) (draws : Nat) (gen : Blake2Generator) :
    Sound (drawUntil draw accepted draws gen) fun drawn => accepted drawn.1 = true := by
  induction draws generalizing gen with
  | zero => exact fun other => other rfl
  | succ draws ih =>
    unfold drawUntil
    dsimp only
    split
    · rename_i taken
      exact taken
    · exact ih _

def reuses : SuperscalarType → Bool
  | .imulhR | .ismulhR => true
  | _ => false

structure OfType (pending : PendingInstruction) (type : SuperscalarType) : Prop where
  info : pending.info = some type
  reuse : pending.canReuse = reuses type
  reciprocal : type = .imulRcp → isZeroOrPowerOf2 (pending.imm32.setWidth 64) = false

theorem create_sound (pending : PendingInstruction) (type : SuperscalarType)
    (gen : Blake2Generator) :
    Sound (pending.create blake2b draws type gen) fun created =>
      OfType created.1 type ∧ created.1.src = -1 := by
  unfold PendingInstruction.create
  cases type
  case irorC =>
    apply Avoids.bind (drawUntil_sound _ _ draws gen)
    intro drawn _
    exact ⟨⟨rfl, rfl, fun other => absurd other (by decide)⟩, rfl⟩
  case imulRcp =>
    apply Avoids.bind (drawUntil_sound _ _ draws gen)
    intro drawn accepted
    exact ⟨⟨rfl, rfl, fun _ => by simpa using accepted⟩, rfl⟩
  all_goals exact ⟨⟨rfl, rfl, fun other => absurd other (by decide)⟩, rfl⟩

/-- The instruction has just been created. -/
def Created (pending : PendingInstruction) : Prop :=
  ∃ type, OfType pending type ∧ pending.src = -1

theorem createFrom_sound (pending : PendingInstruction) {slot : List SuperscalarType}
    {mask : BitVec 8} (inside : mask.toNat < slot.length) (gen : Blake2Generator) :
    Sound (pending.createFrom blake2b draws slot mask gen) fun created => Created created.1 := by
  unfold PendingInstruction.createFrom
  generalize gen.getByte blake2b = drawn
  have small : (drawn.1 &&& mask).toNat < slot.length := by
    rw [BitVec.toNat_and]
    exact Nat.lt_of_le_of_lt Nat.and_le_right inside
  dsimp only
  rw [List.getElem?_eq_getElem small]
  exact (create_sound pending _ _).mono fun created ofType => ⟨_, ofType⟩

def slotSizes : List Nat := [3, 4, 7, 8, 9, 10]

theorem createForSlot_sound (pending : PendingInstruction) {slotSize : Nat}
    (known : slotSize ∈ slotSizes) (fetchType : Nat) (isLast : Bool) (gen : Blake2Generator) :
    Sound (pending.createForSlot blake2b draws slotSize fetchType isLast gen) fun created =>
      Created created.1 := by
  have create : ∀ type, Sound (pending.create blake2b draws type gen) fun created =>
      Created created.1 := fun type =>
    (create_sound pending type gen).mono fun created ofType => ⟨type, ofType⟩
  unfold PendingInstruction.createForSlot
  simp only [slotSizes, List.mem_cons, List.not_mem_nil, or_false] at known
  rcases known with rfl | rfl | rfl | rfl | rfl | rfl
  · cases isLast with
    | true => exact createFrom_sound pending (by decide) gen
    | false => exact createFrom_sound pending (by decide) gen
  · change Sound (if fetchType = 4 ∧ isLast = false then _ else _) _
    split
    · exact create _
    · exact createFrom_sound pending (by decide) gen
  · exact createFrom_sound pending (by decide) gen
  · exact createFrom_sound pending (by decide) gen
  · exact createFrom_sound pending (by decide) gen
  · exact create _

/-- A buffer of at most four slots of the known sizes. -/
structure Regular (buffer : DecoderBuffer) : Prop where
  known : ∀ slotSize ∈ buffer.counts, slotSize ∈ slotSizes
  few : buffer.counts.length ≤ 4

theorem fetchNext_sound (type : Option SuperscalarType) (cycle mulCount : Nat)
    (gen : Blake2Generator) :
    Sound (fetchNext blake2b type cycle mulCount gen) fun fetched => Regular fetched.1 := by
  have regular : ∀ buffer ∈ [decodeBuffer484, decodeBuffer7333, decodeBuffer3733, decodeBuffer493,
      decodeBuffer4444, decodeBuffer3310], Regular buffer := by
    intro buffer member
    simp only [List.mem_cons, List.not_mem_nil, or_false] at member
    rcases member with rfl | rfl | rfl | rfl | rfl | rfl
    all_goals exact ⟨by decide, by decide⟩
  unfold fetchNext
  split
  · exact regular _ (by simp)
  · split
    · exact regular _ (by simp)
    · generalize gen.getByte blake2b = drawn
      dsimp only
      split
      · apply avoids_ok
        split
        · exact regular _ (by simp)
        · exact regular _ (by simp)
      · have small : (drawn.1 &&& 3).toNat < decodeBuffers.length := by
          rw [BitVec.toNat_and]
          exact Nat.lt_of_le_of_lt Nat.and_le_right (by decide)
        rw [List.getElem?_eq_getElem small]
        have member : decodeBuffers[(drawn.1 &&& 3).toNat] ∈ decodeBuffers := List.getElem_mem small
        exact regular _ (List.mem_append_left [decodeBuffer4444, decodeBuffer3310] member)

end Creation

section Selection
variable {blake2b : List (BitVec 8) → List (BitVec 8)}

theorem selectRegister_sound (available : List (Fin 8)) (gen : Blake2Generator) :
    Sound (selectRegister blake2b available gen) fun selected =>
      ∀ register, selected.1 = some register → register ∈ available := by
  unfold selectRegister
  split
  · rintro register ⟨⟩
  · rename_i some
    have positive : 0 < available.length := Nat.pos_of_ne_zero some
    by_cases several : available.length > 1
    · rw [if_pos several]
      dsimp only
      rw [List.getElem?_eq_getElem (Nat.mod_lt _ positive)]
      rintro register ⟨⟩
      exact List.getElem_mem _
    · rw [if_neg several]
      dsimp only
      rw [List.getElem?_eq_getElem positive]
      rintro register ⟨⟩
      exact List.getElem_mem _

/-- What holds of an instruction whose source is chosen if its source operation comes before `i`,
and whose destination if its destination operation comes before `j`. -/
structure InProgress (pending : PendingInstruction) (type : SuperscalarType) (i j : Nat) : Prop where
  ofType : OfType pending type
  noSource : (instructionInfo type).srcOp = -1 → pending.src = -1
  source : 0 ≤ (instructionInfo type).srcOp → (instructionInfo type).srcOp < i →
    0 ≤ pending.src ∧ pending.src < 8
  destination : (instructionInfo type).dstOp < j → 0 ≤ pending.dst ∧ pending.dst < 8
  different : (instructionInfo type).dstOp < j → reuses type = false → pending.dst ≠ pending.src
  displacement : (instructionInfo type).dstOp < j → type = .iaddRs → pending.dst ≠ 5

theorem Created.inProgress {pending : PendingInstruction} (created : Created pending) :
    ∃ type, InProgress pending type 0 0 := by
  obtain ⟨type, ofType, src⟩ := created
  have operations : 0 ≤ (instructionInfo type).dstOp := by
    cases type <;> decide
  refine ⟨type, ofType, fun _ => src, ?_, ?_, ?_, ?_⟩
  · intro least before
    omega
  · intro before
    omega
  · intro before
    omega
  · intro before
    omega

theorem InProgress.mono {pending : PendingInstruction} {type : SuperscalarType} {i j k l : Nat}
    (progress : InProgress pending type i j) (less : k ≤ i) (fewer : l ≤ j) :
    InProgress pending type k l where
  ofType := progress.ofType
  noSource := progress.noSource
  source := fun least before => progress.source least (by omega)
  destination := fun before => progress.destination (by omega)
  different := fun before => progress.different (by omega)
  displacement := fun before => progress.displacement (by omega)

theorem reuses_of_later {type : SuperscalarType}
    (later : (instructionInfo type).dstOp < (instructionInfo type).srcOp) : reuses type = true := by
  cases type
  case imulhR | ismulhR => rfl
  all_goals exact absurd later (by decide)

theorem InProgress.setSource {pending : PendingInstruction} {type : SuperscalarType} {i : Nat}
    (progress : InProgress pending type i i) (here : (i : Int) = (instructionInfo type).srcOp)
    (register : Fin 8) (opGroupPar : Int) :
    InProgress { pending with src := (register.val : Int), opGroupPar } type (i + 1) i where
  ofType := ⟨progress.ofType.info, progress.ofType.reuse, progress.ofType.reciprocal⟩
  noSource := fun none => by omega
  source := fun _ _ => ⟨by dsimp only; omega, by dsimp only; omega⟩
  destination := progress.destination
  different := by
    intro before other
    rw [reuses_of_later (here ▸ before)] at other
    cases other
  displacement := progress.displacement

theorem InProgress.skipSource {pending : PendingInstruction} {type : SuperscalarType} {i j : Nat}
    (progress : InProgress pending type i j) (elsewhere : (i : Int) ≠ (instructionInfo type).srcOp) :
    InProgress pending type (i + 1) j where
  ofType := progress.ofType
  noSource := progress.noSource
  source := fun least before => progress.source least (by omega)
  destination := progress.destination
  different := progress.different
  displacement := progress.displacement

theorem InProgress.skipDestination {pending : PendingInstruction} {type : SuperscalarType}
    {i j : Nat} (progress : InProgress pending type i j)
    (elsewhere : (j : Int) ≠ (instructionInfo type).dstOp) : InProgress pending type i (j + 1) where
  ofType := progress.ofType
  noSource := progress.noSource
  source := progress.source
  destination := fun before => progress.destination (by omega)
  different := fun before => progress.different (by omega)
  displacement := fun before => progress.displacement (by omega)

theorem InProgress.setDestination {state : Generation} {type : SuperscalarType} {i j : Nat}
    (progress : InProgress state.current type i j) {cycle : Int} {chained : Bool} {register : Fin 8}
    (suitable : suits cycle chained state register = true) :
    InProgress { state.current with dst := (register.val : Int) } type i (j + 1) := by
  simp only [suits, Bool.and_eq_true, Bool.or_eq_true, decide_eq_true_eq] at suitable
  obtain ⟨⟨⟨⟨-, free⟩, -⟩, -⟩, place⟩ := suitable
  refine ⟨⟨progress.ofType.info, progress.ofType.reuse, progress.ofType.reciprocal⟩,
    progress.noSource, progress.source, ?_, ?_, ?_⟩
  · intro before
    exact ⟨by dsimp only; omega, by dsimp only; omega⟩
  · intro before other
    rw [progress.ofType.reuse, other] at free
    exact free.resolve_left (fun wrong => by cases wrong)
  · intro before isLea same
    rcases place with notLea | notFive
    · exact notLea (isLea ▸ progress.ofType.info)
    · apply notFive
      apply Fin.ext
      change register.val = 5
      dsimp only at same
      omega

end Selection

section Invariant
variable {blake2b : List (BitVec 8) → List (BitVec 8)} {draws latency : Nat}

/-- An instruction as the generator may emit it: `executeSuperscalar` handles its opcode, its
registers exist, and nothing it does could be optimized away. -/
structure Emitted (instr : Instruction) : Prop where
  opcode : ∃ type, instr.opcode.toNat = opcodeOf type
  dst : instr.dst.toNat < 8
  src : instr.src.toNat < 8
  displacement : instr.opcode.toNat = opcodeOf .iaddRs → instr.dst.toNat ≠ 5
  different : ∀ type ∈ [SuperscalarType.isubR, .ixorR, .iaddRs, .imulR],
    instr.opcode.toNat = opcodeOf type → instr.dst ≠ instr.src
  reciprocal : instr.opcode.toNat = opcodeOf .imulRcp →
    instr.imm32.toNat ≠ 0 ∧ ∀ k, instr.imm32.toNat ≠ 2 ^ k

theorem opcodeOf_injective : Function.Injective opcodeOf := by
  intro a b same
  cases a <;> cases b <;> first | rfl | exact absurd same (by decide)

theorem isZeroOrPowerOf2_spec {imm32 : BitVec 32}
    (neither : isZeroOrPowerOf2 (imm32.setWidth 64) = false) :
    imm32.toNat ≠ 0 ∧ ∀ k, imm32.toNat ≠ 2 ^ k := by
  have powers : ∀ k < 32, isZeroOrPowerOf2 ((BitVec.ofNat 32 (2 ^ k)).setWidth 64) = true := by
    decide
  constructor
  · intro zero
    rw [BitVec.eq_of_toNat_eq (y := 0#32) zero] at neither
    exact absurd neither (by decide)
  · intro k power
    have small : k < 32 := by
      have bound := imm32.isLt
      rw [power] at bound
      exact (Nat.pow_lt_pow_iff_right (by decide)).mp bound
    have same : imm32 = BitVec.ofNat 32 (2 ^ k) := by
      rw [← power, BitVec.ofNat_toNat, BitVec.setWidth_eq]
    rw [same, powers k small] at neither
    cases neither

theorem toNat_ofInt_register {x : Int} (least : 0 ≤ x) (small : x < 8) :
    ((BitVec.ofInt 8 x).toNat : Int) = x := by
  obtain ⟨n, rfl⟩ := Int.eq_ofNat_of_zero_le least
  rw [BitVec.ofInt_natCast, BitVec.toNat_ofNat]
  omega

theorem operands_lt (type : SuperscalarType) :
    (instructionInfo type).srcOp < (instructionInfo type).ops.length ∧
      (instructionInfo type).dstOp < (instructionInfo type).ops.length := by
  cases type <;> decide

theorem srcOp_cases (type : SuperscalarType) :
    (instructionInfo type).srcOp = -1 ∨ 0 ≤ (instructionInfo type).srcOp := by
  cases type <;> decide

theorem srcOp_of_mem {type : SuperscalarType}
    (member : type ∈ [SuperscalarType.isubR, .ixorR, .iaddRs, .imulR]) :
    0 ≤ (instructionInfo type).srcOp ∧ reuses type = false := by
  simp only [List.mem_cons, List.not_mem_nil, or_false] at member
  rcases member with rfl | rfl | rfl | rfl
  all_goals decide

theorem InProgress.emitted {pending : PendingInstruction} {type : SuperscalarType} {i : Nat}
    (progress : InProgress pending type i i) (all : (instructionInfo type).ops.length ≤ i) :
    Emitted (pending.toInstr type) := by
  obtain ⟨source, destination⟩ := operands_lt type
  obtain ⟨dstLeast, dstSmall⟩ := progress.destination (by omega)
  have dst : ((pending.toInstr type).dst.toNat : Int) = pending.dst :=
    toNat_ofInt_register dstLeast dstSmall
  have code : (pending.toInstr type).opcode.toNat = opcodeOf type := by
    cases type <;> rfl
  have src : 0 ≤ (instructionInfo type).srcOp →
      ((pending.toInstr type).src.toNat : Int) = pending.src ∧ pending.src < 8 := by
    intro has
    obtain ⟨least, small⟩ := progress.source has (by omega)
    refine ⟨?_, small⟩
    unfold PendingInstruction.toInstr
    rw [if_pos least]
    exact toNat_ofInt_register least small
  refine ⟨⟨type, code⟩, by omega, ?_, ?_, ?_, ?_⟩
  · rcases srcOp_cases type with none | has
    · have same : (pending.toInstr type).src = (pending.toInstr type).dst := by
        unfold PendingInstruction.toInstr
        rw [progress.noSource none, if_neg (by decide)]
      rw [same]
      omega
    · have := src has
      omega
  · intro isLea
    have := progress.displacement (by omega) (opcodeOf_injective (code.symm.trans isLea))
    omega
  · intro other member same
    obtain rfl := opcodeOf_injective (code.symm.trans same)
    obtain ⟨has, reuse⟩ := srcOp_of_mem member
    have apart := progress.different (by omega) reuse
    intro equal
    have := (src has).1
    rw [equal] at dst
    omega
  · intro isRcp
    exact isZeroOrPowerOf2_spec
      (progress.ofType.reciprocal (opcodeOf_injective (code.symm.trans isRcp)))

/-- What holds of the local variables apart from the current instruction. -/
structure Base (latency : Nat) (state : Generation) : Prop where
  emitted : ∀ instr ∈ state.program, Emitted instr
  room : state.program.length ≤ programLimit latency
  cycle : 0 ≤ state.cycle
  few : state.throwAwayCount ≤ maxThrowawayCount

/-- An instruction is being issued; its operands are chosen as in `InProgress`. -/
structure Issuing (latency : Nat) (type : SuperscalarType) (index count i j : Nat)
    (state : Generation) : Prop where
  base : Base latency state
  progress : InProgress state.current type i j
  limit : state.program.length < programLimit latency
  here : state.macroOpIndex = index
  thrown : state.throwAwayCount = count

/-- What holds at the top of the inner loop. -/
structure Inv (latency : Nat) (state : Generation) : Prop where
  base : Base latency state
  current : state.macroOpIndex < state.current.size → ∃ type,
    InProgress state.current type state.macroOpIndex state.macroOpIndex ∧
      state.program.length < programLimit latency

section Operands
variable {type : SuperscalarType} {index count i j : Nat}

theorem Issuing.stalled {state : Generation} (issuing : Issuing latency type index count i j state) :
    Issuing latency type index count i j { state with cycle := state.cycle + 1 } where
  base := ⟨issuing.base.emitted, issuing.base.room, Int.le_add_one issuing.base.cycle,
    issuing.base.few⟩
  progress := issuing.progress
  limit := issuing.limit
  here := issuing.here
  thrown := issuing.thrown

theorem stall_sound {select : Int → Generation → Except Fault (Bool × Generation)}
    {k l : Nat}
    (step : ∀ cycle state, Issuing latency type index count i j state →
      Sound (select cycle state) fun selected =>
        if selected.1 then Issuing latency type index count k l selected.2
        else Issuing latency type index count i j selected.2)
    (forward : Nat) {scheduleCycle : Int} (start : 0 ≤ scheduleCycle) {state : Generation}
    (issuing : Issuing latency type index count i j state) :
    Sound (stall select forward scheduleCycle state) fun stalled => 0 ≤ stalled.2.1 ∧
      if stalled.1 then Issuing latency type index count k l stalled.2.2
      else Issuing latency type index count i j stalled.2.2 := by
  induction forward generalizing scheduleCycle state with
  | zero => exact ⟨start, issuing⟩
  | succ forward ih =>
    unfold stall
    apply Avoids.bind (step scheduleCycle state issuing)
    rintro ⟨found, next⟩ selected
    cases found with
    | true => exact ⟨start, selected⟩
    | false =>
      have kept : Issuing latency type index count i j next := selected
      exact ih (by omega) kept.stalled

theorem selectSource_sound (here : (index : Int) = (instructionInfo type).srcOp) (cycle : Int)
    (state : Generation) (issuing : Issuing latency type index count index index state) :
    Sound (selectSource blake2b cycle state) fun selected =>
      if selected.1 then Issuing latency type index count (index + 1) index selected.2
      else Issuing latency type index count index index selected.2 := by
  have chosen : ∀ (register : Fin 8) (opGroupPar : Int) (gen : Blake2Generator),
      Issuing latency type index count (index + 1) index
        { state with
          current := { state.current with src := (register.val : Int), opGroupPar }, gen } := by
    intro register opGroupPar gen
    exact ⟨⟨issuing.base.emitted, issuing.base.room, issuing.base.cycle, issuing.base.few⟩,
      issuing.progress.setSource here register opGroupPar, issuing.limit, issuing.here,
      issuing.thrown⟩
  unfold selectSource
  dsimp only
  split
  · exact chosen registerNeedsDisplacement _ state.gen
  · apply Avoids.bind (selectRegister_sound _ state.gen)
    rintro ⟨found, gen⟩ -
    cases found with
    | none =>
      exact ⟨⟨issuing.base.emitted, issuing.base.room, issuing.base.cycle, issuing.base.few⟩,
        issuing.progress, issuing.limit, issuing.here, issuing.thrown⟩
    | some register => exact chosen register _ gen

theorem selectDestination_sound (cycle : Int) (state : Generation)
    (issuing : Issuing latency type index count i j state) :
    Sound (selectDestination blake2b cycle state) fun selected =>
      if selected.1 then Issuing latency type index count i (j + 1) selected.2
      else Issuing latency type index count i j selected.2 := by
  unfold selectDestination
  dsimp only
  apply Avoids.bind (selectRegister_sound _ state.gen)
  rintro ⟨found, gen⟩ member
  cases found with
  | none =>
    exact ⟨⟨issuing.base.emitted, issuing.base.room, issuing.base.cycle, issuing.base.few⟩,
      issuing.progress, issuing.limit, issuing.here, issuing.thrown⟩
  | some register =>
    have suitable := (List.mem_filter.mp (member register rfl)).2
    exact ⟨⟨issuing.base.emitted, issuing.base.room, issuing.base.cycle, issuing.base.few⟩,
      issuing.progress.setDestination suitable, issuing.limit, issuing.here, issuing.thrown⟩

theorem Issuing.info {state : Generation} (issuing : Issuing latency type index count i j state) :
    infoOf state.current.info = instructionInfo type := by
  rw [issuing.progress.ofType.info]
  rfl

theorem chooseSource_sound {scheduleCycle : Int} (start : 0 ≤ scheduleCycle) {state : Generation}
    (issuing : Issuing latency type index count index index state) :
    Sound (chooseSource blake2b scheduleCycle state) fun chosen => 0 ≤ chosen.2.1 ∧
      if chosen.1 then Issuing latency type index count (index + 1) index chosen.2.2
      else Issuing latency type index count index index chosen.2.2 := by
  unfold chooseSource
  rw [issuing.info, issuing.here]
  split
  · rename_i here
    exact stall_sound (selectSource_sound here) lookForwardCycles start issuing
  · rename_i elsewhere
    exact ⟨start, issuing.base, issuing.progress.skipSource elsewhere, issuing.limit,
      issuing.here, issuing.thrown⟩

theorem chooseDestination_sound {scheduleCycle : Int} (start : 0 ≤ scheduleCycle)
    {state : Generation} (issuing : Issuing latency type index count i index state) :
    Sound (chooseDestination blake2b scheduleCycle state) fun chosen => 0 ≤ chosen.2.1 ∧
      if chosen.1 then Issuing latency type index count i (index + 1) chosen.2.2
      else Issuing latency type index count i index chosen.2.2 := by
  unfold chooseDestination
  rw [issuing.info, issuing.here]
  split
  · exact stall_sound selectDestination_sound lookForwardCycles start issuing
  · rename_i elsewhere
    exact ⟨start, issuing.base, issuing.progress.skipDestination elsewhere, issuing.limit,
      issuing.here, issuing.thrown⟩

theorem selectOperands_sound {scheduleCycle : Int} (start : 0 ≤ scheduleCycle) {state : Generation}
    (issuing : Issuing latency type index count index index state) :
    Sound (selectOperands blake2b scheduleCycle state) fun selected => 0 ≤ selected.2.1 ∧
      if selected.1 then Issuing latency type index count (index + 1) (index + 1) selected.2.2
      else Issuing latency type index count index index selected.2.2 := by
  unfold selectOperands
  apply Avoids.bind (chooseSource_sound start issuing)
  rintro ⟨found, scheduleCycle, next⟩ ⟨start, selected⟩
  cases found with
  | false => exact ⟨start, selected⟩
  | true =>
    have chosen : Issuing latency type index count (index + 1) index next := selected
    apply (chooseDestination_sound start chosen).mono
    rintro ⟨found, scheduleCycle, final⟩ ⟨start, selected⟩
    cases found with
    | true => exact ⟨start, selected⟩
    | false =>
      have kept : Issuing latency type index count (index + 1) index final := selected
      exact ⟨start, kept.base, kept.progress.mono (Nat.le_succ _) (Nat.le_refl _), kept.limit,
        kept.here, kept.thrown⟩

end Operands

section Loop

theorem Issuing.inv {type : SuperscalarType} {index count i j : Nat} {state : Generation}
    (issuing : Issuing latency type index count i j state) (source : index ≤ i)
    (destination : index ≤ j) : Inv latency state where
  base := issuing.base
  current := by
    intro _
    rw [issuing.here]
    exact ⟨type, issuing.progress.mono source destination, issuing.limit⟩

/-- What a pass counts down: the slots left, and the instructions it may still throw away. -/
def left (bufferIndex throwAwayCount : Nat) : Nat :=
  (4 - bufferIndex) * 257 + (maxThrowawayCount - throwAwayCount)

/-- What holds after a pass from a slot. -/
def Passed (latency bufferIndex count : Nat) (result : Flow × Generation) : Prop :=
  Inv latency result.2 ∧ ∀ next, result.1 = .proceed next →
    left next result.2.throwAwayCount < left bufferIndex count

theorem giveUp_passed {type : SuperscalarType} {index count i j : Nat} {state : Generation}
    (issuing : Issuing latency type index count i j state) (bufferIndex : Nat) :
    Passed latency bufferIndex count (giveUp bufferIndex state) := by
  have thrown := issuing.thrown
  unfold giveUp
  split
  · rename_i fewer
    refine ⟨⟨⟨issuing.base.emitted, issuing.base.room, issuing.base.cycle, fewer⟩, ?_⟩, ?_⟩
    · intro before
      exact absurd before (Nat.lt_irrefl _)
    · rintro next ⟨⟩
      unfold left
      dsimp only
      omega
  · refine ⟨⟨⟨issuing.base.emitted, issuing.base.room, issuing.base.cycle, issuing.base.few⟩, ?_⟩, ?_⟩
    · intro before
      exact absurd before (Nat.not_lt_zero _)
    · rintro next ⟨⟩

theorem size_eq {pending : PendingInstruction} {type : SuperscalarType} {i j : Nat}
    (progress : InProgress pending type i j) :
    pending.size = (instructionInfo type).ops.length := by
  unfold PendingInstruction.size
  rw [progress.ofType.info]
  rfl

theorem resultOp_le (type : SuperscalarType) :
    (instructionInfo type).dstOp ≤ (instructionInfo type).resultOp := by
  cases type <;> decide

theorem retire_sound {type : SuperscalarType} {index count i : Nat} {state : Generation}
    (issuing : Issuing latency type index count i (index + 1) state) :
    Sound (retire state) (Issuing latency type index count i (index + 1)) := by
  have here := issuing.here
  unfold retire
  rw [issuing.info]
  split
  · rename_i result
    have order := resultOp_le type
    obtain ⟨least, small⟩ := issuing.progress.destination (by omega)
    rw [dif_pos ⟨least, by omega⟩]
    exact ⟨⟨issuing.base.emitted, issuing.base.room, issuing.base.cycle, issuing.base.few⟩,
      issuing.progress, issuing.limit, issuing.here, issuing.thrown⟩
  · exact issuing

variable (bounded : latency ≤ superscalarMaxLatency)
include bounded

theorem finish_sound {type : SuperscalarType} {index count : Nat} {state : Generation}
    (issuing : Issuing latency type index count index index state) :
    Sound (finish state) fun next => Inv latency next ∧ next.throwAwayCount = count := by
  have size := size_eq issuing.progress
  have limit := issuing.limit
  have here := issuing.here
  unfold finish
  split
  · rename_i last
    rw [issuing.progress.ofType.info]
    have room : state.program.length < superscalarMaxSize := by
      unfold programLimit at limit
      unfold superscalarMaxSize
      omega
    dsimp only
    rw [if_pos room]
    refine ⟨⟨⟨?_, ?_, issuing.base.cycle, issuing.base.few⟩, ?_⟩, issuing.thrown⟩
    · intro instr member
      rcases List.mem_append.mp member with old | new
      · exact issuing.base.emitted instr old
      · rw [List.mem_singleton.mp new]
        exact issuing.progress.emitted (by omega)
    · dsimp only
      rw [List.length_append, List.length_singleton]
      omega
    · intro before
      exact absurd before (Nat.not_lt_of_le last)
  · exact ⟨issuing.inv (Nat.le_refl _) (Nat.le_refl _), issuing.thrown⟩

theorem issue_sound {type : SuperscalarType} {index count : Nat} {state : Generation}
    (issuing : Issuing latency type index count (index + 1) (index + 1) state) (mop : MacroOp)
    {topCycle scheduleCycle : Int} (top : 0 ≤ topCycle) (start : 0 ≤ scheduleCycle)
    {bufferIndex : Nat} (inside : bufferIndex < 4) :
    Sound (issue latency mop topCycle bufferIndex scheduleCycle state)
      (Passed latency bufferIndex count) := by
  unfold issue
  dsimp only
  apply Avoids.bind (scheduleMop_sound true mop state.portBusy start)
  rintro ⟨bookedCycle, portBusy⟩ _
  dsimp only
  split
  · refine ⟨⟨⟨issuing.base.emitted, issuing.base.room, issuing.base.cycle, Nat.zero_le _⟩, ?_⟩, ?_⟩
    · exact (issuing.inv (Nat.le_succ _) (Nat.le_succ _)).current
    · rintro next ⟨⟩
  · have booked : Issuing latency type index 0 (index + 1) (index + 1)
        { state with throwAwayCount := 0, portBusy, depCycle := bookedCycle + mop.latency } :=
      ⟨⟨issuing.base.emitted, issuing.base.room, issuing.base.cycle, Nat.zero_le _⟩,
        issuing.progress, issuing.limit, issuing.here, rfl⟩
    apply Avoids.bind (retire_sound booked)
    intro retired still
    have advanced : Issuing latency type (index + 1) 0 (index + 1) (index + 1)
        { retired with
          codeSize := retired.codeSize + mop.size
          macroOpIndex := retired.macroOpIndex + 1
          macroOpCount := retired.macroOpCount + 1
          portsSaturated := retired.portsSaturated || decide ((latency : Int) ≤ bookedCycle)
          cycle := topCycle } :=
      ⟨⟨still.base.emitted, still.base.room, top, still.base.few⟩, still.progress, still.limit,
        congrArg (· + 1) still.here, still.thrown⟩
    apply Avoids.bind (finish_sound bounded advanced)
    rintro final ⟨inv, none⟩
    refine ⟨inv, ?_⟩
    rintro next ⟨⟩
    unfold left maxThrowawayCount
    omega

omit bounded

theorem beginInstruction_sound {buffer : DecoderBuffer} (regular : Regular buffer)
    {bufferIndex : Nat} (inside : bufferIndex < buffer.counts.length) {state : Generation}
    (inv : Inv latency state) :
    Sound (beginInstruction blake2b draws latency buffer bufferIndex state) fun begun =>
      ∀ next, begun = some next → next.cycle = state.cycle ∧ next.depCycle = state.depCycle ∧
        ∃ type index, index < (instructionInfo type).ops.length ∧
          Issuing latency type index state.throwAwayCount index index next := by
  unfold beginInstruction
  split
  · split
    · rintro next ⟨⟩
    · rename_i open_
      rw [Bool.or_eq_true, decide_eq_true_eq, not_or] at open_
      have known := regular.known _ (List.getElem_mem inside)
      rw [List.getElem?_eq_getElem inside]
      apply Avoids.bind (createForSlot_sound state.current known _ _ state.gen)
      rintro ⟨current, gen⟩ created
      obtain ⟨type, progress⟩ := Created.inProgress created
      rintro next ⟨⟩
      refine ⟨rfl, rfl, type, 0, ?_, ?_⟩
      · cases type <;> decide
      · exact ⟨⟨inv.base.emitted, inv.base.room, inv.base.cycle, inv.base.few⟩, progress,
          Nat.lt_of_not_le open_.2, rfl, rfl⟩
  · rename_i half
    obtain ⟨type, progress, limit⟩ := inv.current (Nat.lt_of_not_le half)
    rintro next ⟨⟩
    refine ⟨rfl, rfl, type, state.macroOpIndex, ?_, ?_⟩
    · rw [← size_eq progress]
      exact Nat.lt_of_not_le half
    · exact ⟨inv.base, progress, limit, rfl, rfl⟩

include bounded

theorem pass_sound {buffer : DecoderBuffer} (regular : Regular buffer) {bufferIndex : Nat}
    (inside : bufferIndex < buffer.counts.length) {state : Generation} (inv : Inv latency state) :
    Sound (pass blake2b draws latency buffer bufferIndex state)
      (Passed latency bufferIndex state.throwAwayCount) := by
  have few : bufferIndex < 4 := Nat.lt_of_lt_of_le inside regular.few
  unfold pass
  dsimp only
  apply Avoids.bind (beginInstruction_sound regular inside inv)
  intro begun fits
  cases begun with
  | none =>
    refine ⟨inv, ?_⟩
    rintro next ⟨⟩
  | some next =>
    obtain ⟨sameCycle, -, type, index, small, issuing⟩ := fits next rfl
    have operation : (infoOf next.current.info).ops[next.macroOpIndex]? =
        some (instructionInfo type).ops[index] := by
      rw [issuing.info, issuing.here, List.getElem?_eq_getElem small]
    dsimp only
    rw [operation]
    apply Avoids.bind (scheduleMop_sound false _ next.portBusy issuing.base.cycle)
    rintro ⟨scheduleCycle, portBusy⟩ _
    dsimp only
    split
    · refine ⟨⟨⟨issuing.base.emitted, issuing.base.room, issuing.base.cycle, issuing.base.few⟩, ?_⟩, ?_⟩
      · exact (issuing.inv (Nat.le_refl _) (Nat.le_refl _)).current
      · rintro next ⟨⟩
    · rename_i scheduled
      apply Avoids.bind (selectOperands_sound (Int.not_lt.mp scheduled) issuing)
      rintro ⟨found, scheduleCycle, chosen⟩ ⟨start, selected⟩
      cases found with
      | true => exact issue_sound bounded selected _ inv.base.cycle start few
      | false =>
        have kept : Issuing latency type index state.throwAwayCount index index chosen := selected
        exact giveUp_passed kept bufferIndex

theorem fill_sound {buffer : DecoderBuffer} (regular : Regular buffer) {fuel bufferIndex : Nat}
    {state : Generation} (inv : Inv latency state)
    (enough : left bufferIndex state.throwAwayCount < fuel) :
    Sound (fill blake2b draws latency buffer fuel bufferIndex state) (Inv latency) := by
  induction fuel generalizing bufferIndex state with
  | zero => exact absurd enough (Nat.not_lt_zero _)
  | succ fuel ih =>
    unfold fill
    split
    · rename_i inside
      apply Avoids.bind (pass_sound bounded regular inside inv)
      rintro ⟨flow, next⟩ ⟨still, fewer⟩
      cases flow with
      | leave => exact still
      | proceed bufferIndex =>
        have less : left bufferIndex next.throwAwayCount < _ := fewer bufferIndex rfl
        exact ih still (by omega)
    · exact inv

theorem decode_sound (fuel decodeCycle : Nat) {state : Generation} (inv : Inv latency state) :
    Sound (decode blake2b draws latency fuel decodeCycle state) fun result =>
      Inv latency result.2 := by
  induction fuel generalizing decodeCycle state with
  | zero => exact inv
  | succ fuel ih =>
    unfold decode
    split
    · apply Avoids.bind (fetchNext_sound _ _ _ _)
      rintro ⟨buffer, gen⟩ regular
      have drawn : Inv latency { state with gen } :=
        ⟨⟨inv.base.emitted, inv.base.room, inv.base.cycle, inv.base.few⟩, inv.current⟩
      have enough : left 0 state.throwAwayCount < passBound := by
        unfold left maxThrowawayCount passBound
        omega
      apply Avoids.bind (fill_sound bounded regular drawn enough)
      intro filled still
      apply ih
      exact ⟨⟨still.base.emitted, still.base.room, Int.le_add_one still.base.cycle, still.base.few⟩,
        still.current⟩
    · exact inv

omit bounded

theorem asicLatencies_sound {program : List Instruction}
    (emitted : ∀ instr ∈ program, Emitted instr) :
    Sound (program.foldlM asicStep (fun _ => 0)) fun _ => True := by
  apply avoids_foldlM _ trivial
  intro instr member asicLatencies _
  unfold asicStep registerIndex
  rw [dif_pos (emitted instr member).dst, dif_pos (emitted instr member).src]
  trivial

end Loop

end Invariant

section Draws
variable {blake2b : List (BitVec 8) → List (BitVec 8)} {draws latency : Nat}

/-- With more draws allowed the same happens, unless a rejection loop had too few. -/
abbrev Below {A : Type} (few many : Except Fault A) : Prop := Approximates .rejection few many

theorem drawUntil_succ {A : Type} (draw : Blake2Generator → A × Blake2Generator)
    (accepted : A → Bool) (draws : Nat) (gen : Blake2Generator) :
    Below (drawUntil draw accepted draws gen) (drawUntil draw accepted (draws + 1) gen) := by
  induction draws generalizing gen with
  | zero => exact .inl rfl
  | succ draws ih =>
    unfold drawUntil
    dsimp only
    split
    · exact .refl _
    · exact ih _

theorem create_succ (pending : PendingInstruction) (type : SuperscalarType) (gen : Blake2Generator) :
    Below (pending.create blake2b draws type gen) (pending.create blake2b (draws + 1) type gen) := by
  unfold PendingInstruction.create
  cases type
  case irorC | imulRcp =>
    apply Approximates.bind (drawUntil_succ _ _ draws gen)
    intro drawn
    exact .refl _
  all_goals exact .refl _

theorem createFrom_succ (pending : PendingInstruction) (slot : List SuperscalarType)
    (mask : BitVec 8) (gen : Blake2Generator) :
    Below (pending.createFrom blake2b draws slot mask gen)
      (pending.createFrom blake2b (draws + 1) slot mask gen) := by
  unfold PendingInstruction.createFrom
  dsimp only
  split
  · exact create_succ pending _ _
  · exact .refl _

theorem createForSlot_succ (pending : PendingInstruction) (slotSize fetchType : Nat)
    (isLast : Bool) (gen : Blake2Generator) :
    Below (pending.createForSlot blake2b draws slotSize fetchType isLast gen)
      (pending.createForSlot blake2b (draws + 1) slotSize fetchType isLast gen) := by
  unfold PendingInstruction.createForSlot
  split
  · split
    · exact createFrom_succ pending _ _ gen
    · exact createFrom_succ pending _ _ gen
  · split
    · exact create_succ pending _ gen
    · exact createFrom_succ pending _ _ gen
  · exact createFrom_succ pending _ _ gen
  · exact createFrom_succ pending _ _ gen
  · exact createFrom_succ pending _ _ gen
  · exact create_succ pending _ gen
  · exact .refl _

theorem beginInstruction_succ (buffer : DecoderBuffer) (bufferIndex : Nat) (state : Generation) :
    Below (beginInstruction blake2b draws latency buffer bufferIndex state)
      (beginInstruction blake2b (draws + 1) latency buffer bufferIndex state) := by
  unfold beginInstruction
  split
  · split
    · exact .refl _
    · split
      · exact .refl _
      · apply Approximates.bind (createForSlot_succ _ _ _ _ _)
        intro created
        exact .refl _
  · exact .refl _

theorem pass_succ (buffer : DecoderBuffer) (bufferIndex : Nat) (state : Generation) :
    Below (pass blake2b draws latency buffer bufferIndex state)
      (pass blake2b (draws + 1) latency buffer bufferIndex state) := by
  unfold pass
  apply Approximates.bind (beginInstruction_succ buffer bufferIndex state)
  intro begun
  exact .refl _

theorem fill_succ (buffer : DecoderBuffer) (fuel bufferIndex : Nat) (state : Generation) :
    Below (fill blake2b draws latency buffer fuel bufferIndex state)
      (fill blake2b (draws + 1) latency buffer fuel bufferIndex state) := by
  induction fuel generalizing bufferIndex state with
  | zero => exact .refl _
  | succ fuel ih =>
    unfold fill
    split
    · apply Approximates.bind (pass_succ buffer bufferIndex state)
      rintro ⟨flow, next⟩
      cases flow with
      | leave => exact .refl _
      | proceed bufferIndex => exact ih bufferIndex next
    · exact .refl _

theorem decode_succ (fuel decodeCycle : Nat) (state : Generation) :
    Below (decode blake2b draws latency fuel decodeCycle state)
      (decode blake2b (draws + 1) latency fuel decodeCycle state) := by
  induction fuel generalizing decodeCycle state with
  | zero => exact .refl _
  | succ fuel ih =>
    unfold decode
    split
    · apply Approximates.bind (.refl _)
      intro fetched
      apply Approximates.bind (fill_succ _ _ _ _)
      intro filled
      exact ih _ _
    · exact .refl _

theorem generateSuperscalar_succ (gen : Blake2Generator) :
    Below (generateSuperscalar blake2b draws latency gen)
      (generateSuperscalar blake2b (draws + 1) latency gen) := by
  unfold generateSuperscalar
  apply Approximates.bind (decode_succ latency 0 _)
  intro decoded
  exact .refl _

theorem generateSuperscalar_stable {gen : Blake2Generator}
    {result : SuperscalarProgram × Blake2Generator}
    (generated : generateSuperscalar blake2b draws latency gen = .ok result) {more : Nat}
    (least : draws ≤ more) : generateSuperscalar blake2b more latency gen = .ok result := by
  induction more, least using Nat.le_induction with
  | base => exact generated
  | succ more _ ih =>
    have ends : generateSuperscalar blake2b more latency gen ≠ .error .rejection := by
      rw [ih]
      intro other
      cases other
    rw [(generateSuperscalar_succ gen).eq ends]
    exact ih

end Draws

section Main

/-- When every rejection loop ends in some number of draws, the generator ends with a program: no
access is out of bounds, there are at most `3 L + 2` instructions, and all are well formed. -/
theorem generateSuperscalar_sound (blake2b : List (BitVec 8) → List (BitVec 8))
    (gen : Blake2Generator) (latency : Nat) (bounded : latency ≤ superscalarMaxLatency)
    (draws : Nat)
    (ends : generateSuperscalar blake2b draws latency gen ≠ .error .rejection) :
    ∃ prog after,
      (∀ more ≥ draws, generateSuperscalar blake2b more latency gen = .ok (prog, after)) ∧
      prog.instructions.length ≤ 3 * latency + 2 ∧ 3 * latency + 2 ≤ superscalarMaxSize ∧
      ∀ instr ∈ prog.instructions, Emitted instr := by
  have start : Inv latency (Generation.start gen) := by
    refine ⟨⟨?_, Nat.zero_le _, Int.le_refl 0, Nat.zero_le _⟩, ?_⟩
    · intro instr member
      cases member
    · intro before
      exact absurd before (Nat.not_lt_zero _)
  have sound : Sound (generateSuperscalar blake2b draws latency gen) fun result =>
      result.1.instructions.length ≤ 3 * latency + 2 ∧
        ∀ instr ∈ result.1.instructions, Emitted instr := by
    unfold generateSuperscalar
    apply Avoids.bind (decode_sound bounded latency 0 start)
    rintro ⟨decodeCycles, state⟩ inv
    apply Avoids.bind (asicLatencies_sound inv.base.emitted)
    intro asicLatencies _
    exact ⟨inv.base.room, inv.base.emitted⟩
  have size : 3 * latency + 2 ≤ superscalarMaxSize := by
    unfold superscalarMaxSize
    omega
  rcases generated : generateSuperscalar blake2b draws latency gen with fault | ⟨prog, after⟩
  · rw [generated] at ends sound
    exact absurd (not_not.mp sound) (fun same => ends (congrArg Except.error same))
  · rw [generated] at sound
    exact ⟨prog, after, fun more least => generateSuperscalar_stable generated least, sound.1, size,
      sound.2⟩

/-- A Blake2b of which every byte depends on its neighbour, and a short latency. -/
def sampleBlake2b (data : List (BitVec 8)) : List (BitVec 8) :=
  (List.range 64).map fun i =>
    data.getD i 0 * 5 + data.getD ((i + 63) % 64) 0 * 3 + BitVec.ofNat 8 (7 * i + 1)

theorem generateSuperscalar_sound_sample :
    4 ≤ superscalarMaxLatency ∧ ∃ prog after,
      (∀ more ≥ 8, generateSuperscalar sampleBlake2b more 4 ⟨List.replicate 64 0, 64⟩ =
        .ok (prog, after)) ∧
      prog.instructions.length ≤ 14 ∧ ∀ instr ∈ prog.instructions, Emitted instr := by
  have ends : generateSuperscalar sampleBlake2b 8 4 ⟨List.replicate 64 0, 64⟩ ≠
      .error .rejection := by
    have ran : (generateSuperscalar sampleBlake2b 8 4 ⟨List.replicate 64 0, 64⟩).isOk = true := by
      decide
    intro failed
    rw [failed] at ran
    cases ran
  obtain ⟨prog, after, generated, size, -, emitted⟩ :=
    generateSuperscalar_sound sampleBlake2b ⟨List.replicate 64 0, 64⟩ 4 (by decide) 8 ends
  exact ⟨by decide, prog, after, generated, size, emitted⟩

end Main

end Generator

end Xmrig.RandomX
