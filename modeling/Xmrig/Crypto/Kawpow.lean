import Xmrig.Base.Job
import Xmrig.Crypto.VirtualMemory
import Xmrig.Foundation.Memory
import Xmrig.Foundation.Run

/-! The light cache of KawPow and the hash that the CPU recomputes with it.

The tables of sizes and the functions of libethash are the parameter `Ethash`;
of the tables only their length and the range of their entries is used. What
the source leaves undefined, a look behind the end of a table or a remainder
by zero, is a `KawpowFault`.
-/

set_option autoImplicit false

namespace Xmrig

open Foundation

abbrev Word := BitVec 32

/-- `ethash_light`: the cache with the data of its fast remainders. -/
structure EthashLight where
  cache : List Word
  cacheSize : Nat
  numParentNodes : Word
  reciprocal : Word
  increment : Word
  shift : Word
  deriving DecidableEq, Repr

/-- `data_sizes.h` and what is used of `ethash_internal.c` and `keccakf800.c`. -/
structure Ethash where
  cacheSizes : List Nat
  dagSizes : List Nat
  cacheSizes_length : cacheSizes.length = 2048
  dagSizes_length : dagSizes.length = 2048
  cacheSizes_range : ∀ size ∈ cacheSizes, 16776896 ≤ size ∧ size ≤ 285081536
  dagSizes_range : ∀ size ∈ dagSizes, 1073739904 ≤ size ∧ size ≤ 18245220736
  getSeedhash : Nat → List Byte
  /-- The words that `ethash_compute_cache_nodes` writes, for a size and a seed. -/
  computeCacheNodes : Nat → List Byte → List Word
  /-- The sixteen words of one item. -/
  calculateDagItem : EthashLight → Nat → List Word
  calculateDagItem_length : ∀ light index, (calculateDagItem light index).length = 16
  keccakf800 : List Word → List Word
  hugePageSize : Nat

/-- What the source does not define. -/
inductive KawpowFault where
  | dagSizes
  | numItems
  | parentNodes
  | l1Cache
  deriving DecidableEq, Repr

/-- The size in bytes that the memory was allocated with, and the words at its front. -/
structure KPMemory where
  size : Nat
  words : List Word
  deriving DecidableEq, Repr

structure KPCache where
  memory : Option KPMemory := none
  size : Nat := 0
  epoch : Word := 0xFFFFFFFF
  dagCache : List Word := []
  deriving DecidableEq, Repr

namespace KPCache

def nodeSize : Nat := 64
def l1CacheNumItems : Nat := 4096

/-- The number of leading zeros; the compiler's builtin leaves zero undefined. -/
def clz (word : Word) : Option Word := if word = 0 then none else some (31 - BitVec.ofNat 32 word.toNat.log2)

/-- `calculate_fast_mod_data`, as reciprocal, increment and shift. -/
def calculateFastModData (divisor : Word) : Except KawpowFault (Word × Word × Word) :=
  match clz divisor with
  | none => .error .parentNodes
  | some zeros =>
    if divisor &&& (divisor - 1) = 0 then .ok (1, 0, 31 - zeros)
    else
      let shift := 63 - zeros
      let n : BitVec 64 := 1 <<< shift.toNat
      let q := n / divisor.setWidth 64
      let r := n - q * divisor.setWidth 64
      if r * 2 < divisor.setWidth 64 then .ok (q.setWidth 32, 1, shift) else .ok ((q + 1).setWidth 32, 0, shift)

/-- The `ethash_light` that `init` and `calculate` put together. -/
def light (cache : List Word) (cacheSize : Nat) : Except KawpowFault EthashLight := do
  let numParentNodes := BitVec.ofNat 32 (cacheSize / nodeSize)
  let (reciprocal, increment, shift) ← calculateFastModData numParentNodes
  return { cache, cacheSize, numParentNodes, reciprocal, increment, shift }

def data (cache : KPCache) : List Word := (cache.memory.map KPMemory.words).getD []

variable (ethash : Ethash)

def allocate (memory : Option KPMemory) (size : Nat) : KPMemory :=
  match memory with
  | none => ⟨VirtualMemory.align size ethash.hugePageSize, []⟩
  | some memory => if memory.size < size then ⟨VirtualMemory.align size ethash.hugePageSize, []⟩ else memory

/-- The items that the threads of `init` compute between them. -/
def dagItems (light : EthashLight) (size : Nat) : List Word :=
  let cacheNodes := (size + nodeSize * 4 - 1) / nodeSize
  (List.range cacheNodes).flatMap (ethash.calculateDagItem light)

def init (cache : KPCache) (epoch : Word) : Except KawpowFault (Bool × KPCache) :=
  match ethash.cacheSizes[epoch.toNat]? with
  | none => .ok (false, cache)
  | some size =>
    if cache.epoch = epoch then .ok (true, cache)
    else do
      let memory := allocate ethash cache.memory size
      let nodes := ethash.computeCacheNodes size (ethash.getSeedhash epoch.toNat)
      let memory := { memory with words := nodes ++ memory.words.drop nodes.length }
      let light ← light memory.words size
      return (true, { memory := some memory, size, epoch, dagCache := dagItems ethash light size })

end KPCache

namespace KPHash

def epochLength : Nat := 7500
def periodLength : Nat := 3
def cntCache : Nat := 11
def cntMath : Nat := 18
def regs : Nat := 32
def lanes : Nat := 16
def ethashMixBytes : Nat := 128
def ethashAccesses : Nat := 64
def numWordsPerLane : Nat := 4

def ravencoinKawpow : List Word :=
  [0x72, 0x41, 0x56, 0x45, 0x4E, 0x43, 0x4F, 0x49, 0x4E, 0x4B, 0x41, 0x57, 0x50, 0x4F, 0x57]

def fnvPrime : Word := 0x01000193
def fnvOffsetBasis : Word := 0x811c9dc5

def fnv1a (u v : Word) : Word := (u ^^^ v) * fnvPrime

structure Kiss99 where
  z : Word
  w : Word
  jsr : Word
  jcong : Word
  deriving DecidableEq, Repr

def kiss99 (state : Kiss99) : Word × Kiss99 :=
  let z := 36969 * (state.z &&& 0xffff) + (state.z >>> 16)
  let w := 18000 * (state.w &&& 0xffff) + (state.w >>> 16)
  let jcong := 69069 * state.jcong + 1234567
  let jsr := state.jsr ^^^ (state.jsr <<< 17)
  let jsr := jsr ^^^ (jsr >>> 13)
  let jsr := jsr ^^^ (jsr <<< 5)
  ((((z <<< 16) + w) ^^^ jcong) + jsr, ⟨z, w, jsr, jcong⟩)

def rotl (n c : Word) : Word := n.rotateLeft (c.toNat % 32)

def rotr (n c : Word) : Word := n.rotateRight (c.toNat % 32)

def randomMerge (a b selector : Word) : Word :=
  let x := (selector >>> 16) % 31 + 1
  match selector.toNat % 4 with
  | 0 => a * 33 + b
  | 1 => (a ^^^ b) * 33
  | 2 => rotl a x ^^^ b
  | _ => rotr a x ^^^ b

def clz (a : Word) : Word := (KPCache.clz a).getD 32

def popcount (a : Word) : Word := BitVec.ofNat 32 ((List.range 32).filter a.getLsbD).length

def popcountSoft (a : Word) : Word :=
  let x := a.setWidth 64
  let x := x - ((x >>> 1) &&& 0x5555555555555555#64)
  let x := (x &&& 0x3333333333333333#64) + ((x >>> 2) &&& 0x3333333333333333#64)
  let x := (x + (x >>> 4)) &&& 0x0f0f0f0f0f0f0f0f#64
  ((x * 0x0101010101010101#64) >>> 56).setWidth 32

def randomMath (a b selector : Word) (hasPopcnt : Bool) : Word :=
  match selector.toNat % 11 with
  | 0 => a + b
  | 1 => a * b
  | 2 => ((a.setWidth 64 * b.setWidth 64) >>> 32).setWidth 32
  | 3 => if a < b then a else b
  | 4 => rotl a b
  | 5 => rotr a b
  | 6 => a &&& b
  | 7 => a ||| b
  | 8 => a ^^^ b
  | 9 => clz a + clz b
  | _ => if hasPopcnt then popcount a + popcount b else popcountSoft a + popcountSoft b

/-- The registers, by lane. -/
abbrev Mix := List (List Word)

def Mix.get (mix : Mix) (lane register : Nat) : Word := (mix.getD lane []).getD register 0

def Mix.merge (mix : Mix) (register : Nat) (data : Nat → Word) (selector : Word) : Mix :=
  mix.mapIdx fun lane words => words.set register (randomMerge (words.getD register 0) (data lane) selector)

def draw : Nat → Kiss99 → List Word × Kiss99
  | 0, state => ([], state)
  | count + 1, state =>
      let (word, state) := kiss99 state
      let (rest, state) := draw count state
      (word :: rest, state)

def initMix (z w : Word) : Mix :=
  (List.range lanes).map fun l =>
    let jsr := fnv1a w (BitVec.ofNat 32 l)
    (draw regs ⟨z, w, jsr, fnv1a jsr (BitVec.ofNat 32 l)⟩).1

def swap (seq : List Nat) (i j : Nat) : List Nat := (seq.set i (seq.getD j 0)).set j (seq.getD i 0)

/-- The shuffle of the sequences of registers, for `i` and everything below it down to 2. -/
def shuffle : Nat → List Nat → List Nat → Kiss99 → List Nat × List Nat × Kiss99
  | 0, dstSeq, srcSeq, state => (dstSeq, srcSeq, state)
  | 1, dstSeq, srcSeq, state => (dstSeq, srcSeq, state)
  | i + 2, dstSeq, srcSeq, state =>
      let (first, state) := kiss99 state
      let (second, state) := kiss99 state
      shuffle (i + 1) (swap dstSeq (i + 1) (first.toNat % (i + 2))) (swap srcSeq (i + 1) (second.toNat % (i + 2))) state

/-- The program of a period, which is the same for all its nonces. -/
structure Period where
  dstSeq : List Nat
  srcSeq : List Nat
  state : Kiss99

def period (blockHeight : Word) : Period :=
  let progNumber := blockHeight / BitVec.ofNat 32 periodLength
  let z := fnv1a fnvOffsetBasis progNumber
  let w := fnv1a z 0
  let jsr := fnv1a w progNumber
  let (dstSeq, srcSeq, state) :=
    shuffle regs (List.range regs) (List.range regs) ⟨z, w, jsr, fnv1a jsr 0⟩
  ⟨dstSeq, srcSeq, state⟩

/-- The registers with the counters of the inner loop. -/
structure Round where
  mix : Mix
  state : Kiss99
  dstCounter : Nat
  srcCounter : Nat

def Period.dst (period : Period) (counter : Nat) : Nat := period.dstSeq.getD (counter % regs) 0
def Period.src (period : Period) (counter : Nat) : Nat := period.srcSeq.getD (counter % regs) 0

/-- A merge from the first words of the data set; the cache must have them. -/
def cacheOperation (cache : KPCache) (period : Period) (round : Round) : Except KawpowFault Round :=
  let src := period.src round.srcCounter
  let dst := period.dst round.dstCounter
  let (sel, state) := kiss99 round.state
  let index := fun lane => (round.mix.get lane src).toNat % KPCache.l1CacheNumItems
  if (List.range lanes).all fun lane => index lane < cache.dagCache.length then
    .ok
      { mix := round.mix.merge dst (fun lane => cache.dagCache.getD (index lane) 0) sel
        state
        dstCounter := round.dstCounter + 1
        srcCounter := round.srcCounter + 1 }
  else .error .l1Cache

def mathOperation (hasPopcnt : Bool) (period : Period) (round : Round) : Round :=
  let (rnd, state) := kiss99 round.state
  let srcRnd := rnd.toNat % (regs * (regs - 1))
  let src1 := srcRnd % regs
  let src2 := if src1 ≤ srcRnd / regs then srcRnd / regs + 1 else srcRnd / regs
  let (sel1, state) := kiss99 state
  let dst := period.dst round.dstCounter
  let (sel2, state) := kiss99 state
  { mix := round.mix.merge dst (fun lane => randomMath (round.mix.get lane src1) (round.mix.get lane src2) sel1 hasPopcnt) sel2
    state
    dstCounter := round.dstCounter + 1
    srcCounter := round.srcCounter }

def operation (cache : KPCache) (hasPopcnt : Bool) (period : Period) (round : Round) (i : Nat) :
    Except KawpowFault Round := do
  let round ← if i < cntCache then cacheOperation cache period round else pure round
  return if i < cntMath then mathOperation hasPopcnt period round else round

def mergeItem (period : Period) (item : List Word) (r : Nat) (round : Round) : Mix :=
  let dsts := (List.range numWordsPerLane).map fun i => if i = 0 then 0 else period.dst (round.dstCounter + i - 1)
  let sels := (draw numWordsPerLane round.state).1
  (List.range numWordsPerLane).foldl (fun mix i =>
    Mix.merge mix (dsts.getD i 0) (fun lane => item.getD ((lane ^^^ r) % lanes * numWordsPerLane + i) 0) (sels.getD i 0))
    round.mix

def hashMix (mix : Mix) : List Word :=
  let laneHash := mix.map fun words => words.foldl fnv1a fnvOffsetBasis
  (List.range 8).map fun i => fnv1a (fnv1a fnvOffsetBasis (laneHash.getD i 0)) (laneHash.getD (i + 8) 0)

def words (bytes : List Byte) : List Word :=
  (List.range (bytes.length / 4)).map fun i => (Memory.ofBytes bytes).readWord (4 * i)

variable (ethash : Ethash)

/-- The table lookup of `calculate`. -/
def numItems (epoch : Word) : Except KawpowFault Word :=
  match ethash.dagSizes[epoch.toNat]? with
  | none => .error .dagSizes
  | some size => .ok (BitVec.ofNat 32 (size / ethashMixBytes / 2))

def access (cache : KPCache) (light : EthashLight) (hasPopcnt : Bool) (period : Period) (numItems : Word) (mix : Mix)
    (r : Nat) : Except KawpowFault Mix := do
  if numItems = 0 then throw .numItems
  let itemIndex := ((mix.get (r % lanes) 0 % numItems) * 4).toNat
  let item := (List.range 4).flatMap fun i => ethash.calculateDagItem light (itemIndex + i)
  let round ← (List.range cntMath).foldlM (operation cache hasPopcnt period) ⟨mix, period.state, 0, 0⟩
  return mergeItem period item r round

def keccakInput (headerHash : List Byte) (nonce : BitVec 64) : List Word :=
  words headerHash ++ [nonce.setWidth 32, (nonce >>> 32).setWidth 32] ++ ravencoinKawpow

def startMix (keccakState : List Word) : Mix :=
  let z := fnv1a fnvOffsetBasis (keccakState.getD 0 0)
  initMix z (fnv1a z (keccakState.getD 1 0))

def finish (keccakState : List Word) (mix : Mix) : List Word × List Word :=
  let mixHash := hashMix mix
  ((ethash.keccakf800 (keccakState.take 8 ++ mixHash ++ ravencoinKawpow.take 9)).take 8, mixHash)

def calculate (hasPopcnt : Bool) (cache : KPCache) (blockHeight : Word) (headerHash : List Byte) (nonce : BitVec 64) :
    Except KawpowFault (List Word × List Word) := do
  let keccakState := ethash.keccakf800 (keccakInput headerHash nonce)
  let items ← numItems ethash cache.epoch
  let light ← KPCache.light cache.data cache.size
  let mix ← (List.range ethashAccesses).foldlM (access ethash cache light hasPopcnt (period blockHeight) items)
    (startMix keccakState)
  return finish ethash keccakState mix

end KPHash

/-! ## A cache of an epoch -/

namespace KPCache

variable {ethash : Ethash} {cache after : KPCache}

/-- The cache holds the nodes of an epoch, its size and the items made from them. -/
structure OfEpoch (ethash : Ethash) (cache : KPCache) (epoch : Word) (size : Nat) : Prop where
  listed : ethash.cacheSizes[epoch.toNat]? = some size
  tag : cache.epoch = epoch
  length : cache.size = size
  nodes : cache.data.take (ethash.computeCacheNodes size (ethash.getSeedhash epoch.toNat)).length =
    ethash.computeCacheNodes size (ethash.getSeedhash epoch.toNat)
  items : ∃ made, light cache.data size = .ok made ∧ cache.dagCache = dagItems ethash made size

/-- A cache is as it was created or of the epoch it says. -/
def Inv (ethash : Ethash) (cache : KPCache) : Prop :=
  cache.epoch = 0xFFFFFFFF ∨ ∃ size, OfEpoch ethash cache cache.epoch size

theorem clz_isSome {word : Word} (positive : word ≠ 0) : ∃ zeros, clz word = some zeros := by
  unfold clz
  rw [if_neg positive]
  exact ⟨_, rfl⟩

theorem calculateFastModData_ok {divisor : Word} (positive : divisor ≠ 0) :
    ∃ data, calculateFastModData divisor = .ok data := by
  obtain ⟨zeros, found⟩ := clz_isSome positive
  unfold calculateFastModData
  rw [found]
  dsimp only
  split
  · exact ⟨_, rfl⟩
  · split <;> exact ⟨_, rfl⟩

theorem parentNodes_ne_zero {epoch : Nat} {size : Nat} (listed : ethash.cacheSizes[epoch]? = some size) :
    BitVec.ofNat 32 (size / nodeSize) ≠ 0 := by
  have range := ethash.cacheSizes_range size (List.mem_of_getElem? listed)
  intro zero
  have value := congrArg BitVec.toNat zero
  rw [BitVec.toNat_ofNat] at value
  simp only [nodeSize] at value
  change size / 64 % 2 ^ 32 = 0 at value
  omega

theorem light_ok {epoch : Nat} {size : Nat} (listed : ethash.cacheSizes[epoch]? = some size) (words : List Word) :
    ∃ made, light words size = .ok made := by
  obtain ⟨⟨reciprocal, increment, shift⟩, found⟩ := calculateFastModData_ok (parentNodes_ne_zero listed)
  unfold light
  simp only [found]
  exact ⟨_, rfl⟩

/-- An epoch in the table is there afterwards, whatever was there before. -/
theorem init_ofEpoch (inv : cache.Inv ethash) {epoch : Word} {size : Nat}
    (listed : ethash.cacheSizes[epoch.toNat]? = some size) :
    ∃ after, init ethash cache epoch = .ok (true, after) ∧ OfEpoch ethash after epoch size := by
  unfold init
  rw [listed]
  dsimp only
  by_cases same : cache.epoch = epoch
  · rw [if_pos same]
    refine ⟨cache, rfl, ?_⟩
    rcases inv with fresh | ⟨known, ofEpoch⟩
    · -- The sentinel is no epoch of the table.
      have inside := (List.getElem?_eq_some_iff.mp listed).1
      rw [ethash.cacheSizes_length, ← same, fresh] at inside
      exact absurd inside (Nat.not_lt.mpr (by decide))
    · rw [same] at ofEpoch
      cases ofEpoch.listed.symm.trans listed
      exact ofEpoch
  · rw [if_neg same]
    obtain ⟨made, found⟩ := light_ok listed
      (ethash.computeCacheNodes size (ethash.getSeedhash epoch.toNat) ++
        (allocate ethash cache.memory size).words.drop
          (ethash.computeCacheNodes size (ethash.getSeedhash epoch.toNat)).length)
    simp only [found]
    refine ⟨_, rfl, listed, rfl, rfl, ?_, made, found, rfl⟩
    exact List.take_left' rfl

theorem init_refused {epoch : Word} (outside : ethash.cacheSizes.length ≤ epoch.toNat) :
    init ethash cache epoch = .ok (false, cache) := by
  unfold init
  rw [List.getElem?_eq_none outside]

theorem init_inv (inv : cache.Inv ethash) (epoch : Word) :
    ∃ ready after, init ethash cache epoch = .ok (ready, after) ∧ after.Inv ethash := by
  cases listed : ethash.cacheSizes[epoch.toNat]? with
  | none => exact ⟨false, cache, init_refused (List.getElem?_eq_none_iff.mp listed), inv⟩
  | some size =>
    obtain ⟨after, made, ofEpoch⟩ := init_ofEpoch inv listed
    exact ⟨true, after, made, .inr ⟨size, by rw [ofEpoch.tag]; exact ofEpoch⟩⟩

theorem OfEpoch.l1Cache {epoch : Word} {size : Nat} (ofEpoch : OfEpoch ethash cache epoch size) :
    l1CacheNumItems ≤ cache.dagCache.length := by
  obtain ⟨made, -, items⟩ := ofEpoch.items
  have range := ethash.cacheSizes_range size (List.mem_of_getElem? ofEpoch.listed)
  have counted : ∀ indices : List Nat, (indices.flatMap (ethash.calculateDagItem made)).length = 16 * indices.length := by
    intro indices
    induction indices with
    | nil => rfl
    | cons index rest ih =>
      rw [List.flatMap_cons, List.length_append, ethash.calculateDagItem_length, ih, List.length_cons]
      omega
  rw [items, dagItems, counted, List.length_range, nodeSize, l1CacheNumItems]
  omega

end KPCache

namespace KPHash

variable {ethash : Ethash} {cache : KPCache}

theorem foldlM_ok {A B F : Type} {step : B → A → Except F B} (each : ∀ value item, ∃ next, step value item = .ok next)
    (items : List A) (value : B) : ∃ final, items.foldlM step value = .ok final := by
  induction items generalizing value with
  | nil => exact ⟨value, rfl⟩
  | cons item rest ih =>
    obtain ⟨next, stepped⟩ := each value item
    obtain ⟨final, done⟩ := ih next
    refine ⟨final, ?_⟩
    rw [List.foldlM_cons, stepped]
    exact done

theorem operation_ok (covered : KPCache.l1CacheNumItems ≤ cache.dagCache.length) (hasPopcnt : Bool) (period : Period)
    (round : Round) (i : Nat) : ∃ next, operation cache hasPopcnt period round i = .ok next := by
  have merged : ∃ next, cacheOperation cache period round = .ok next := by
    unfold cacheOperation
    dsimp only
    rw [if_pos]
    · exact ⟨_, rfl⟩
    · rw [List.all_eq_true]
      intro lane _
      refine decide_eq_true (Nat.lt_of_lt_of_le (Nat.mod_lt _ ?_) covered)
      decide
  obtain ⟨next, found⟩ := merged
  unfold operation
  by_cases early : i < cntCache
  · rw [if_pos early, found]
    exact ⟨_, rfl⟩
  · rw [if_neg early]
    exact ⟨_, rfl⟩

theorem numItems_ok {epoch : Word} {size : Nat} (listed : ethash.cacheSizes[epoch.toNat]? = some size) :
    ∃ items, numItems ethash epoch = .ok items ∧ items ≠ 0 := by
  have inside := (List.getElem?_eq_some_iff.mp listed).1
  rw [ethash.cacheSizes_length, ← ethash.dagSizes_length] at inside
  unfold numItems
  rw [List.getElem?_eq_getElem inside]
  refine ⟨_, rfl, fun zero => ?_⟩
  have range := ethash.dagSizes_range _ (List.getElem_mem inside)
  have value := congrArg BitVec.toNat zero
  rw [BitVec.toNat_ofNat] at value
  simp only [ethashMixBytes] at value
  change _ / 128 / 2 % 2 ^ 32 = 0 at value
  omega

theorem calculate_ok {epoch : Word} {size : Nat} (ofEpoch : cache.OfEpoch ethash epoch size) (hasPopcnt : Bool)
    (blockHeight : Word) (headerHash : List Byte) (nonce : BitVec 64) :
    ∃ result, calculate ethash hasPopcnt cache blockHeight headerHash nonce = .ok result := by
  obtain ⟨items, table, positive⟩ := numItems_ok ofEpoch.listed
  obtain ⟨made, lit, -⟩ := ofEpoch.items
  rw [← ofEpoch.tag] at table
  rw [← ofEpoch.length] at lit
  have each : ∀ mix r, ∃ next, access ethash cache made hasPopcnt (period blockHeight) items mix r = .ok next := by
    intro mix r
    obtain ⟨round, done⟩ := foldlM_ok (operation_ok ofEpoch.l1Cache hasPopcnt (period blockHeight))
      (List.range cntMath) ⟨mix, (period blockHeight).state, 0, 0⟩
    unfold access
    rw [if_neg positive]
    simp only [done]
    exact ⟨_, rfl⟩
  obtain ⟨mix, done⟩ := foldlM_ok each (List.range ethashAccesses)
    (startMix (ethash.keccakf800 (keccakInput headerHash nonce)))
  unfold calculate
  simp only [table, lit, bind, Except.bind, done]
  exact ⟨_, rfl⟩

end KPHash

end Xmrig
