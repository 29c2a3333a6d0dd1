import Xmrig.Foundation.Writes
import Xmrig.RandomX.RxDataset
import Xmrig.RandomX.Superscalar
import Xmrig.RandomX.VmInterpreted

/-! The dataset, and the virtual machine without one.

An item of the dataset is eight registers that go through the superscalar programs of the
cache, with a line of the cache mixed in behind each. The threads of `RxDataset::init` write
the items to memory. The light machine computes the item of every line that it reads, so
both machines come to the same results.
-/

set_option autoImplicit false

namespace Xmrig.RandomX

open Foundation

/-- A superscalar program as an item goes through it. -/
structure SuperscalarProgram where
  instructions : List SuperscalarInstruction
  addrReg : Fin 8

/-- What `randomx_init_cache` leaves behind. -/
structure Cache where
  memory : Nat → BitVec 8
  programs : Nat → SuperscalarProgram

def argonMemory : BitVec 64 := 262144
def argonBlockSize : BitVec 64 := 1024
def cacheAccesses : Nat := 8

def cacheSize : Nat := (argonMemory * argonBlockSize).toNat

section Item

def superscalarMul0 : BitVec 64 := 6364136223846793005

/-- `superscalarAdd1` to `superscalarAdd7`; the first register is taken as it is. -/
def superscalarAdd : Fin 8 → BitVec 64 :=
  ![0, 9298411001130361340, 12065312585734608966, 9306329213124626780, 5281919268842080866,
    10536153434571861004, 3398623926847679864, 9549104520008361294]

/-- `getMixBlock`, as a distance from the memory of the cache. -/
def getMixBlock (registerValue : BitVec 64) : BitVec 64 :=
  let mask : BitVec 32 := (argonMemory * argonBlockSize / 64 - 1).setWidth 32
  (registerValue &&& mask.setWidth 64) * 64

/-- The variables of the loop of `initDatasetItem`. -/
structure Mixing where
  rl : Fin 8 → BitVec 64
  registerValue : BitVec 64

variable (cache : Cache)

def Mixing.start (itemNumber : BitVec 64) : Mixing where
  rl := fun q => (itemNumber + 1) * superscalarMul0 ^^^ superscalarAdd q
  registerValue := itemNumber

def Mixing.access (state : Mixing) (i : Nat) : Mixing :=
  let mixBlock := getMixBlock state.registerValue
  let prog := cache.programs i
  let mixed := executeSuperscalar state.rl prog.instructions
  let rl := fun q : Fin 8 => mixed q ^^^ Scratchpad.load64 cache.memory (mixBlock.toNat + 8 * q.val)
  { rl, registerValue := rl prog.addrReg }

/-- The registers that `initDatasetItem` copies to the item. -/
def initDatasetItem (itemNumber : BitVec 64) : Fin 8 → BitVec 64 :=
  ((List.range cacheAccesses).foldl (Mixing.access cache) (Mixing.start itemNumber)).rl

/-- The same access, with a fault where the line leaves the memory. -/
def Mixing.accessWithin (state : Mixing) (i : Nat) : Except VmFault Mixing := do
  let mixBlock := getMixBlock state.registerValue
  let prog := cache.programs i
  let rl ← xorLine .dataset cacheSize cache.memory mixBlock.toNat
    (executeSuperscalar state.rl prog.instructions)
  pure { rl, registerValue := rl prog.addrReg }

def initDatasetItemWithin (itemNumber : BitVec 64) : Except VmFault (Fin 8 → BitVec 64) := do
  let final ← (List.range cacheAccesses).foldlM (Mixing.accessWithin cache) (Mixing.start itemNumber)
  pure final.rl

/-- The `memcpy` of an item, byte by byte. -/
def itemWrites (item : Nat) : List (Nat × BitVec 8) :=
  (List.range 64).map fun k => (64 * item + k,
    (initDatasetItem cache (BitVec.ofNat 64 item) (Fin.ofNat 8 (k / 8)) >>> (8 * (k % 8))).setWidth 8)

end Item

section Reading

/-- `datasetRead` of a machine: a line goes into the registers. -/
abbrev DatasetRead := BitVec 64 → (Fin 8 → BitVec 64) → Except VmFault (Fin 8 → BitVec 64)

/-- `InterpretedVm::datasetRead`. -/
def fullRead (dataset : Nat → BitVec 8) : DatasetRead := fun address r =>
  xorLine .dataset (datasetBaseSize + datasetExtraSize).toNat dataset address.toNat r

/-- `InterpretedLightVm::datasetRead`. -/
def lightRead (cache : Cache) : DatasetRead := fun address r => do
  let itemNumber : BitVec 32 := (address / 64).setWidth 32
  let rl ← initDatasetItemWithin cache (itemNumber.setWidth 64)
  pure fun q => r q ^^^ rl q

variable (configuration : Configuration) (unit : FloatUnit) (read : DatasetRead)

/-- One iteration of `execute` in a machine that reads the dataset by `read`. -/
def iterateBy (initialized : Initialized) (bytecode : List InstructionByteCode) (fuel : Nat)
    (state : Iteration) : Except VmFault Iteration := do
  let size := configuration.scratchpadL3Size.toNat
  let config := initialized.config
  let machine := state.machine
  let spMix := machine.r config.readReg0 ^^^ machine.r config.readReg1
  let spAddr0 := (state.spAddr0 ^^^ spMix.setWidth 32) &&& configuration.scratchpadL3Mask64
  let spAddr1 := (state.spAddr1 ^^^ (spMix >>> 32).setWidth 32) &&& configuration.scratchpadL3Mask64
  let r ← xorLine .scratchpad size machine.scratchpad spAddr0.toNat machine.r
  let f ← convertLine unit size machine.scratchpad spAddr1.toNat id machine.f
  let e ← convertLine unit size machine.scratchpad (spAddr1.toNat + 32)
    (maskRegisterExponentMantissa config.eMask) machine.e
  let machine ← executeBytecodeWithin size unit config.eMask bytecode fuel
    ⟨0, { machine with r, f, e }⟩
  let mx := (state.mem.mx ^^^
    (machine.r config.readReg2 ^^^ machine.r config.readReg3).setWidth 32) &&&
      cacheLineAlignMask.setWidth 32
  let r ← read (initialized.datasetOffset + state.mem.ma.setWidth 64) machine.r
  let scratchpad ← storeIntegers size spAddr1.toNat r machine.scratchpad
  let f := fun i => (machine.f i).map2 (· ^^^ ·) (machine.e i)
  let scratchpad ← storeFloats size spAddr0.toNat f scratchpad
  pure { machine := { machine with r, f, scratchpad },
         mem := { mx := state.mem.ma, ma := mx }, spAddr0 := 0, spAddr1 := 0 }

def iterationsBy (initialized : Initialized) (bytecode : List InstructionByteCode) (fuel : Nat) :
    Nat → Iteration → Except VmFault Iteration
  | 0, state => .ok state
  | count + 1, state => do
      let next ← iterateBy configuration unit read initialized bytecode fuel state
      iterationsBy initialized bytecode fuel count next

/-- `InterpretedVm::execute`, with `datasetRead` as the virtual function that it is. -/
def executeBy (program : Program) (programIterations fuel : Nat) (before : Machine) :
    Except VmFault Iteration :=
  let initialized := program.initialize
  iterationsBy configuration unit read initialized (compileProgram configuration program.instructions)
    fuel programIterations
    { machine := { before with r := fun _ => 0, a := initialized.a }
      mem := initialized.mem, spAddr0 := initialized.mem.mx, spAddr1 := initialized.mem.ma }

theorem executeBy_fullRead (dataset : Nat → BitVec 8) (program : Program) (programIterations fuel : Nat)
    (before : Machine) :
    executeBy configuration unit (fullRead dataset) program programIterations fuel before =
      execute configuration unit program dataset programIterations fuel before := by
  unfold executeBy execute
  dsimp only
  generalize Iteration.mk _ _ _ _ = state
  induction programIterations generalizing state with
  | zero => rfl
  | succ count ih =>
    unfold iterationsBy iterations
    apply bind_congr
    intro next
    exact ih next

end Reading

section Items
variable {cache : Cache}

theorem xorLine_eq {fault : VmFault} {size address : Nat} {memory : Nat → BitVec 8}
    (inside : address + 64 ≤ size) (r : Fin 8 → BitVec 64) :
    xorLine fault size memory address r =
      .ok fun q => r q ^^^ Scratchpad.load64 memory (address + 8 * q.val) := by
  have word : ∀ i : Fin 8, loadWithin fault size memory (address + 8 * i.val) =
      .ok (Scratchpad.load64 memory (address + 8 * i.val)) := by
    intro i
    have small := i.isLt
    exact loadWithin_eq (by omega)
  unfold xorLine
  simp only [word]
  -- the registers after the first `n` words
  have loop : ∀ items : List (Fin 8), items.Nodup → ∀ start : Fin 8 → BitVec 64,
      items.foldlM (fun r i => (Except.ok (ε := VmFault) (Scratchpad.load64 memory (address + 8 * i.val)) >>=
        fun word => pure (Function.update r i (r i ^^^ word)))) start =
      .ok fun q => if q ∈ items then start q ^^^ Scratchpad.load64 memory (address + 8 * q.val) else start q := by
    intro items
    induction items with
    | nil =>
      intro _ start
      rfl
    | cons i rest ih =>
      intro distinct start
      obtain ⟨fresh, distinct⟩ := List.nodup_cons.mp distinct
      rw [List.foldlM_cons]
      change List.foldlM _ (Function.update start i _) rest = _
      rw [ih distinct]
      congr 1
      funext q
      by_cases own : q = i
      · subst own
        rw [if_neg fresh, Function.update_self, if_pos List.mem_cons_self]
      · simp only [Function.update_of_ne own, List.mem_cons, own, false_or]
  rw [loop _ (List.nodup_finRange 8)]
  congr 1
  funext q
  exact if_pos (List.mem_finRange q)

/-- The mask leaves a line of the cache, whatever the register. -/
theorem getMixBlock_inside (registerValue : BitVec 64) :
    (getMixBlock registerValue).toNat + 64 ≤ cacheSize := by
  have size : cacheSize = 268435456 := rfl
  have masked : (registerValue &&& 4194303).toNat ≤ 4194303 := by
    rw [BitVec.toNat_and]
    exact Nat.and_le_right
  change ((registerValue &&& 4194303) * 64).toNat + 64 ≤ cacheSize
  rw [BitVec.toNat_mul, size]
  change _ * 64 % 2 ^ 64 + 64 ≤ _
  omega

theorem accessWithin_eq (state : Mixing) (i : Nat) :
    state.accessWithin cache i = .ok (state.access cache i) := by
  unfold Mixing.accessWithin Mixing.access
  dsimp only
  rw [xorLine_eq (getMixBlock_inside _)]
  rfl

theorem initDatasetItemWithin_eq (cache : Cache) (itemNumber : BitVec 64) :
    initDatasetItemWithin cache itemNumber = .ok (initDatasetItem cache itemNumber) := by
  have loop : ∀ (accesses : List Nat) (state : Mixing),
      accesses.foldlM (Mixing.accessWithin cache) state =
        .ok (accesses.foldl (Mixing.access cache) state) := by
    intro accesses
    induction accesses with
    | nil =>
      intro state
      rfl
    | cons i rest ih =>
      intro state
      rw [List.foldlM_cons, accessWithin_eq]
      exact ih _
  unfold initDatasetItemWithin initDatasetItem
  rw [loop]
  rfl

end Items

section Filling
variable (cache : Cache)

def datasetByte (address : Nat) : BitVec 8 :=
  (initDatasetItem cache (BitVec.ofNat 64 (address / 64)) (Fin.ofNat 8 (address % 64 / 8)) >>>
    (8 * (address % 8))).setWidth 8

theorem itemWrites_agree (item : Nat) : Consistent (datasetByte cache) (itemWrites cache item) := by
  intro write member
  obtain ⟨k, small, rfl⟩ := List.mem_map.mp member
  have below := List.mem_range.mp small
  have quotient : (64 * item + k) / 64 = item := by omega
  have rest : (64 * item + k) % 64 = k := by omega
  have bits : (64 * item + k) % 8 = k % 8 := by omega
  unfold datasetByte
  rw [quotient, rest, bits]

theorem mem_itemWrites (item address : Nat) :
    address ∈ (itemWrites cache item).map Prod.fst ↔ address / 64 = item := by
  unfold itemWrites
  simp only [List.map_map, List.mem_map, List.mem_range, Function.comp_apply]
  constructor
  · rintro ⟨k, small, rfl⟩
    omega
  · intro same
    exact ⟨address % 64, by omega, by omega⟩

/-- `randomx_dataset_item_count`. -/
def datasetItemCount : BitVec 64 := (datasetBaseSize + datasetExtraSize) / 64

/-- What the threads of `RxDataset::init` write, one after the other. -/
def datasetWrites (setup : DatasetInit) (numThreads : BitVec 32) : List (Nat × BitVec 8) :=
  (initSlices datasetItemCount numThreads).flatMap fun slice =>
    (setup.threadWrites slice).flatMap (itemWrites cache)

theorem datasetWrites_agree (setup : DatasetInit) (numThreads : BitVec 32) :
    Consistent (datasetByte cache) (datasetWrites cache setup numThreads) := by
  intro write member
  obtain ⟨slice, _, written⟩ := List.mem_flatMap.mp member
  obtain ⟨item, _, own⟩ := List.mem_flatMap.mp written
  exact itemWrites_agree cache item write own

variable {numThreads : BitVec 32}

/-- Some thread writes the item exactly if it is one of the dataset. -/
theorem written_iff (setup : DatasetInit) (some : 1 ≤ numThreads.toNat)
    (enough : 5 * numThreads.toNat ≤ datasetItemCount.toNat) (item : Nat) :
    (∃ slice ∈ initSlices datasetItemCount numThreads, item ∈ setup.threadWrites slice) ↔
      item < datasetItemCount.toNat := by
  have fits : datasetItemCount.toNat < 2 ^ 32 := by decide
  have writes : ∀ i < numThreads.toNat,
      item ∈ setup.threadWrites (threadSlice datasetItemCount numThreads i) ↔
        share datasetItemCount.toNat numThreads.toNat i ≤ item ∧
          item < share datasetItemCount.toNat numThreads.toNat (i + 1) := by
    intro i own
    obtain ⟨wide, last⟩ := threadSlice_size fits some enough own
    obtain ⟨start, stop⟩ := threadSlice_toNat fits some own
    rw [setup.mem_threadWrites wide last, ← start, ← stop]
    rfl
  rw [initSlices_eq some]
  constructor
  · rintro ⟨slice, member, written⟩
    obtain ⟨i, own, rfl⟩ := List.mem_map.mp member
    have own := List.mem_range.mp own
    have stop := ((writes i own).mp written).2
    exact Nat.lt_of_lt_of_le stop (share_le some own)
  · intro below
    rw [← @share_last datasetItemCount.toNat numThreads.toNat some] at below
    obtain ⟨i, own, inside⟩ := exists_slice share_zero below
    refine ⟨_, List.mem_map_of_mem (List.mem_range.mpr own), (writes i own).mpr inside⟩

theorem applyWrites_filled (setup : DatasetInit) (some : 1 ≤ numThreads.toNat)
    (enough : 5 * numThreads.toNat ≤ datasetItemCount.toNat) {order : List (Nat × BitVec 8)}
    (scheduled : order.Perm (datasetWrites cache setup numThreads)) (memory : Nat → BitVec 8)
    (address : Nat) :
    applyWrites order memory address =
      if address / 64 < datasetItemCount.toNat then datasetByte cache address else memory address := by
  have agree := datasetWrites_agree cache setup numThreads
  have members : address ∈ (datasetWrites cache setup numThreads).map Prod.fst ↔
      address / 64 < datasetItemCount.toNat := by
    rw [← written_iff setup some enough]
    unfold datasetWrites
    simp only [List.map_flatMap, List.mem_flatMap, mem_itemWrites, exists_eq_right']
  rw [applyWrites_perm agree scheduled, applyWrites_eq agree]
  simp only [members]

end Filling

section Light
variable {cache : Cache}

theorem load64_bytes {memory : Nat → BitVec 8} {address : Nat} {value : BitVec 64}
    (bytes : ∀ k < 8, memory (address + k) = (value >>> (8 * k)).setWidth 8) :
    Scratchpad.load64 memory address = value := by
  have lowest := bytes 0 (by decide)
  unfold Scratchpad.load64
  rw [bytes 7 (by decide), bytes 6 (by decide), bytes 5 (by decide), bytes 4 (by decide),
    bytes 3 (by decide), bytes 2 (by decide), bytes 1 (by decide), ← Nat.add_zero address, lowest]
  exact append_quadBytes value

theorem load64_line {dataset : Nat → BitVec 8}
    (filled : ∀ address, address / 64 < datasetItemCount.toNat → dataset address = datasetByte cache address)
    {address : Nat} (aligned : 64 ∣ address) (inside : address / 64 < datasetItemCount.toNat) (q : Fin 8) :
    Scratchpad.load64 dataset (address + 8 * q.val) =
      initDatasetItem cache (BitVec.ofNat 64 (address / 64)) q := by
  apply load64_bytes
  intro k small
  have index := q.isLt
  have item : (address + 8 * q.val + k) / 64 = address / 64 := by omega
  have word : (address + 8 * q.val + k) % 64 / 8 = q.val := by omega
  have bits : (address + 8 * q.val + k) % 8 = k := by omega
  have same : Fin.ofNat 8 q.val = q := Fin.ext (Nat.mod_eq_of_lt index)
  rw [filled _ (item ▸ inside)]
  unfold datasetByte
  rw [item, word, bits, same]

/-- The address of a line of the dataset. -/
structure IsLine (address : BitVec 64) : Prop where
  aligned : 64 ∣ address.toNat
  inside : address.toNat + 64 ≤ (datasetBaseSize + datasetExtraSize).toNat

theorem fullRead_eq_lightRead {dataset : Nat → BitVec 8}
    (filled : ∀ address, address / 64 < datasetItemCount.toNat → dataset address = datasetByte cache address)
    {address : BitVec 64} (line : IsLine address) (r : Fin 8 → BitVec 64) :
    fullRead dataset address r = lightRead cache address r := by
  have inside := line.inside
  have size : (datasetBaseSize + datasetExtraSize).toNat = 2181038016 := rfl
  have count : datasetItemCount.toNat = 34078719 := rfl
  have item : (((address / 64).setWidth 32).setWidth 64 : BitVec 64) = BitVec.ofNat 64 (address.toNat / 64) := by
    apply BitVec.eq_of_toNat_eq
    rw [BitVec.toNat_setWidth_of_le (by decide), BitVec.toNat_setWidth, BitVec.toNat_udiv, BitVec.toNat_ofNat]
    change address.toNat / 64 % 2 ^ 32 = address.toNat / 64 % 2 ^ 64
    omega
  unfold fullRead lightRead
  rw [xorLine_eq line.inside]
  dsimp only
  rw [item, initDatasetItemWithin_eq]
  change Except.ok _ = Except.ok _
  congr 1
  funext q
  rw [load64_line filled line.aligned (by omega)]

/-! ## Whole runs -/

theorem dvd_and_mask {width : Nat} (x mask : BitVec width) (aligned : mask.toNat % 2 ^ 6 = 0) :
    64 ∣ (x &&& mask).toNat := by
  apply Nat.dvd_of_mod_eq_zero
  change _ % 2 ^ 6 = 0
  rw [BitVec.toNat_and, Nat.and_mod_two_pow, aligned, Nat.and_zero]

/-- The next line to be read begins at a multiple of 64, inside of the dataset. -/
structure MemoryRegisters.Aligned (mem : MemoryRegisters) : Prop where
  inside : mem.Inside
  aligned : 64 ∣ mem.ma.toNat

theorem initialize_aligned (program : Program) : program.initialize.mem.Aligned where
  inside := initialize_inside program
  aligned := by
    have masked : 64 ∣ (program.entropy 8 &&& cacheLineAlignMask).toNat := dvd_and_mask _ _ (by decide)
    unfold Program.initialize
    rw [BitVec.toNat_setWidth]
    change 64 ∣ (program.entropy 8 &&& cacheLineAlignMask).toNat % 2 ^ 32
    omega

theorem datasetOffset_dvd (program : Program) : 64 ∣ program.initialize.datasetOffset.toNat := by
  unfold Program.initialize
  rw [BitVec.toNat_mul]
  change 64 ∣ _ * 64 % 2 ^ 64
  omega

theorem MemoryRegisters.Aligned.line {mem : MemoryRegisters} (aligned : mem.Aligned) {offset : BitVec 64}
    (low : offset.toNat ≤ datasetExtraSize.toNat) (whole : 64 ∣ offset.toNat) :
    IsLine (offset + mem.ma.setWidth 64) where
  inside := line_inside aligned.inside low
  aligned := by
    have own := aligned.aligned
    rw [BitVec.toNat_add, BitVec.toNat_setWidth_of_le (by decide)]
    omega

variable {configuration : Configuration} {unit : FloatUnit} {program : Program}
  {bytecode : List InstructionByteCode} {fuel : Nat} {first second : DatasetRead}

variable (configuration unit first bytecode fuel) in
theorem iterateBy_aligned (initialized : Initialized) (state : Iteration) :
    Avoids (fun _ => False) (iterateBy configuration unit first initialized bytecode fuel state)
      fun next => next.mem.Aligned := by
  have always : ∀ {A : Type} (computation : Except VmFault A), Avoids (fun _ => False) computation fun _ => True := by
    intro A computation
    cases computation with
    | ok value => trivial
    | error fault => exact not_false
  unfold iterateBy
  dsimp only
  apply Avoids.bind (always _)
  intro r _
  apply Avoids.bind (always _)
  intro f _
  apply Avoids.bind (always _)
  intro e _
  apply Avoids.bind (always _)
  intro machine _
  apply Avoids.bind (always _)
  intro r _
  apply Avoids.bind (always _)
  intro scratchpad _
  apply Avoids.bind (always _)
  intro scratchpad _
  apply avoids_ok
  have mask : (cacheLineAlignMask.setWidth 32).toNat = cacheLineAlignMask.toNat := rfl
  constructor
  · unfold MemoryRegisters.Inside
    rw [← mask, BitVec.toNat_and]
    exact Nat.and_le_right
  · exact dvd_and_mask _ _ (by decide)

theorem iterationsBy_congr (agree : ∀ address, IsLine address → ∀ r, first address r = second address r)
    (count : Nat) {state : Iteration} (aligned : state.mem.Aligned) :
    iterationsBy configuration unit first program.initialize bytecode fuel count state =
      iterationsBy configuration unit second program.initialize bytecode fuel count state := by
  induction count generalizing state with
  | zero => rfl
  | succ count ih =>
    have once : iterateBy configuration unit first program.initialize bytecode fuel state =
        iterateBy configuration unit second program.initialize bytecode fuel state := by
      unfold iterateBy
      simp only [agree _ (aligned.line (datasetOffset_le program) (datasetOffset_dvd program))]
    have kept := iterateBy_aligned configuration unit bytecode fuel second program.initialize state
    unfold iterationsBy
    rw [once]
    generalize iterateBy configuration unit second program.initialize bytecode fuel state = result at kept
    cases result with
    | error fault => rfl
    | ok next => exact ih kept

/-- However the threads take turns, the machine with the dataset that they fill and the machine
that only has the cache come to the same end of every program, faults included. -/
theorem execute_light (cache : Cache) {numThreads : BitVec 32} (some : 1 ≤ numThreads.toNat)
    (enough : 5 * numThreads.toNat ≤ datasetItemCount.toNat) (hasAVX2 optimized : Bool)
    {order : List (Nat × BitVec 8)}
    (scheduled : order.Perm (datasetWrites cache ⟨false, hasAVX2, optimized⟩ numThreads))
    (memory : Nat → BitVec 8) (configuration : Configuration) (unit : FloatUnit) (program : Program)
    (programIterations fuel : Nat) (before : Machine) :
    execute configuration unit program (applyWrites order memory) programIterations fuel before =
      executeBy configuration unit (lightRead cache) program programIterations fuel before := by
  have filled : ∀ address, address / 64 < datasetItemCount.toNat →
      applyWrites order memory address = datasetByte cache address := by
    intro address inside
    rw [applyWrites_filled cache _ some enough scheduled, if_pos inside]
  rw [← executeBy_fullRead]
  apply iterationsBy_congr
  · intro address line r
    exact fullRead_eq_lightRead filled line r
  · exact initialize_aligned program

/-- Four threads on a processor with AVX2, and two iterations of one ISTORE. -/
theorem execute_light_four :
    execute Configuration.wownero
        ⟨fun _ x _ => x, fun _ x _ => x, fun _ x _ => x, fun _ x _ => x, fun _ x => x, fun x => x.setWidth 64⟩
        ⟨fun _ => 0xffffffffffffffff, [⟨240, 0, 1, 0xE0, 0⟩]⟩
        (applyWrites (datasetWrites ⟨fun _ => 7, fun _ => ⟨[⟨.imulR, 1, 2, 0, 0⟩], 1⟩⟩ ⟨false, true, true⟩ 4)
          fun _ => 0) 2 10
        ⟨fun _ => 0, fun _ => ⟨0, 0⟩, fun _ => ⟨0, 0⟩, fun _ => ⟨0, 0⟩, fun _ => 0, 0⟩ =
      executeBy Configuration.wownero
        ⟨fun _ x _ => x, fun _ x _ => x, fun _ x _ => x, fun _ x _ => x, fun _ x => x, fun x => x.setWidth 64⟩
        (lightRead ⟨fun _ => 7, fun _ => ⟨[⟨.imulR, 1, 2, 0, 0⟩], 1⟩⟩)
        ⟨fun _ => 0xffffffffffffffff, [⟨240, 0, 1, 0xE0, 0⟩]⟩ 2 10
        ⟨fun _ => 0, fun _ => ⟨0, 0⟩, fun _ => ⟨0, 0⟩, fun _ => ⟨0, 0⟩, fun _ => 0, 0⟩ :=
  execute_light _ (by decide) (by decide) true true (List.Perm.refl _) _ _ _ _ _ _ _

end Light

end Xmrig.RandomX
