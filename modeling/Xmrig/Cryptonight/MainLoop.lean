import Xmrig.Backend.CpuThreads
import Xmrig.Backend.CpuWorker
import Xmrig.Cryptonight.HalfMemory
import Xmrig.CryptonightR.RandomMath

/-! The main loop of CryptoNight for one input, `cryptonight_single_hash`.

The scratchpad is counted in vectors of sixteen bytes. Offsets are multiples of
sixteen there, so an exclusive or with 0x10, 0x20 or 0x30 is one of the index with
1, 2 or 3. The hash functions, the AES rounds and what works on floating point
numbers are parameters; the generated code and the assembly are left out.

A variable that an algorithm never assigns starts as zero. Nothing is said about
it later, so that any other value would do.
-/

set_option autoImplicit false

namespace Xmrig

/-! ## Properties of the algorithms -/

namespace CnAlgo

variable (algo : Algorithm)

def base : BitVec 32 := algo.base

def isHeavy : Bool := algo.family = Algorithm.cnHeavy

def isR : Bool := algo = .cnR

def memory : Nat := algo.l3

def cnIter : Nat := 0x80000

def iterations : Nat :=
  match algo with
  | .cnFast | .cnHalf | .cnLite0 | .cnLite1 | .cnHeavy0 | .cnHeavyTube | .cnHeavyXhv | .cnCcx | .cnGr2 | .cnGr3 =>
    cnIter / 2
  | .cnXao | .cnDouble => cnIter * 2
  | .cnRwz | .cnZls => 0x60000
  | .cnPico0 | .cnPicoTlo | .cnGr4 | .cnGr5 => cnIter / 8
  | .cnUpx2 => cnIter / 32
  | .cnGr0 | .cnGr1 => cnIter / 4
  | _ => cnIter

def mask : Nat :=
  match algo with
  | .cnPico0 | .cnUpx2 | .cnGr5 => 0x1FFF0
  | .cnGr1 => 0x3FFF0
  | _ => (memory algo - 1) / 16 * 16

def halfMem : Bool := mask algo < memory algo / 2

end CnAlgo

namespace Cryptonight

open CryptonightR

/-! ## Vectors of two words -/

section Words

/-- `_mm_cvtsi128_si64`. -/
def low (value : M128) : BitVec 64 := value.extractLsb' 0 64

def high (value : M128) : BitVec 64 := value.extractLsb' 64 64

/-- `_mm_set_epi64x`. -/
def setWords (hi lo : BitVec 64) : M128 := hi ++ lo

/-- `_mm_add_epi64`. -/
def addEpi64 (left right : M128) : M128 := setWords (high left + high right) (low left + low right)

@[simp] theorem low_setWords (hi lo : BitVec 64) : low (setWords hi lo) = lo :=
  BitVec.extractLsb'_append_eq_right

@[simp] theorem high_setWords (hi lo : BitVec 64) : high (setWords hi lo) = hi :=
  BitVec.extractLsb'_append_eq_left

@[simp] theorem setWords_low_high (value : M128) : setWords (high value) (low value) = value := by
  apply BitVec.eq_of_getLsbD_eq
  intro bit inside
  simp only [setWords, high, low, BitVec.getLsbD_append, BitVec.getLsbD_extractLsb']
  split
  · simp_all
  · have back : 64 + (bit - 64) = bit := by omega
    have upper : bit - 64 < 64 := by omega
    simp [back, upper]

@[simp] theorem low_xor (left right : M128) : low (left ^^^ right) = low left ^^^ low right := by
  simp [low, BitVec.extractLsb'_xor]

@[simp] theorem high_xor (left right : M128) : high (left ^^^ right) = high left ^^^ high right := by
  simp [high, BitVec.extractLsb'_xor]

@[simp] theorem low_addEpi64 (left right : M128) : low (addEpi64 left right) = low left + low right := by
  simp [addEpi64]

@[simp] theorem high_addEpi64 (left right : M128) : high (addEpi64 left right) = high left + high right := by
  simp [addEpi64]

theorem setWords_xor (hi lo other other' : BitVec 64) :
    setWords hi lo ^^^ setWords other other' = setWords (hi ^^^ other) (lo ^^^ other') := by
  rw [← setWords_low_high (setWords hi lo ^^^ setWords other other')]
  simp

end Words

/-! ## The scratchpad -/

/-- The vectors of a scratchpad. -/
abbrev Blocks := Nat → M128

def Blocks.setLow (block : Blocks) (index : Nat) (value : BitVec 64) : Blocks :=
  Function.update block index (setWords (high (block index)) value)

def Blocks.setHigh (block : Blocks) (index : Nat) (value : BitVec 64) : Blocks :=
  Function.update block index (setWords value (low (block index)))

/-- `interleaved_index`, of the offset of a byte. -/
def interleavedIndex (interleave k : Nat) : Nat :=
  if interleave = 0 then k else ((k / 64 * 64) <<< interleave) ||| (k % 64)

/-- What the main loop computes with. -/
structure Primitives where
  aes : Aes
  /-- `aes_round_tweak_div`. -/
  aesRoundTweakDiv : M128 → M128 → M128
  /-- `cryptonight_conceal_tweak`: both variables after it. -/
  concealTweak : M128 → M128 → M128 × M128
  /-- The lower word of `int_sqrt_v2`. -/
  intSqrtV2 : BitVec 64 → BitVec 64
  /-- The signed division. -/
  divide : BitVec 64 → BitVec 64 → BitVec 64
  /-- The code of `v4_random_math_init` for a height. -/
  v4RandomMathInit : BitVec 64 → List V4Instruction
  keccak : List Byte → Fin 25 → BitVec 64
  keccakf : (Fin 25 → BitVec 64) → Fin 25 → BitVec 64
  extraHashes : BitVec 2 → (Fin 25 → BitVec 64) → BitVec 256

/-- `tweak1_table` repeats these sixty-four entries; each stands in the upper four bits. -/
def tweak1Row : List (BitVec 4) :=
  [1, 0, 1, 0, 1, 0, 1, 0, 1, 0, 1, 0, 1, 0, 1, 0, 3, 0, 3, 0, 3, 0, 3, 0, 3, 0, 3, 0, 3, 0, 3, 0,
    1, 1, 1, 1, 1, 1, 1, 1, 1, 1, 1, 1, 1, 1, 1, 1, 3, 1, 3, 1, 3, 1, 3, 1, 3, 1, 3, 1, 3, 1, 3, 1]

def tweak1Table (index : BitVec 8) : BitVec 32 := tweak1Row.getD (index.toNat % 64) 0 ++ (0 : BitVec 28)

/-- `VARIANT1_1` on its byte. -/
def variant1Byte (tmp : BitVec 8) : BitVec 8 :=
  let index := (((tmp >>> 3) &&& 6) ||| (tmp &&& 1)) <<< 1
  tmp ^^^ (((0x75310 : BitVec 32) >>> index.toNat).setWidth 8 &&& 0x30)

theorem tweak1Table_variant1 (tmp : BitVec 8) :
    ((tmp ++ (0 : BitVec 24)) ^^^ tweak1Table tmp) = variant1Byte tmp ++ (0 : BitVec 24) := by
  revert tmp
  decide

/-! ## The variants -/

section Variants
variable (p : Primitives) (algo : Algorithm)

/-- The argument `reverse` of the shuffles. -/
def reversed : Bool := algo = .cnRwz || algo = .cnUpx2

/-- `VARIANT2_SHUFFLE`: the scratchpad and `_c` after it. -/
def variant2Shuffle (block : Blocks) (offset : Nat) (a b b1 c : M128) (reverse : Bool) : Blocks × M128 :=
  let chunk1 := block (offset ^^^ if reverse then 3 else 1)
  let chunk2 := block (offset ^^^ 2)
  let chunk3 := block (offset ^^^ if reverse then 1 else 3)
  let block := Function.update block (offset ^^^ 1) (addEpi64 chunk3 b1)
  let block := Function.update block (offset ^^^ 2) (addEpi64 chunk1 b)
  let block := Function.update block (offset ^^^ 3) (addEpi64 chunk2 a)
  (block, if algo = .cnR then (c ^^^ chunk3) ^^^ (chunk1 ^^^ chunk2) else c)

/-- `VARIANT2_SHUFFLE2`: the scratchpad, `hi` and `lo` after it. -/
def variant2Shuffle2 (block : Blocks) (offset : Nat) (a b b1 : M128) (hi lo : BitVec 64) (reverse : Bool) :
    Blocks × BitVec 64 × BitVec 64 :=
  let chunk1 := block (offset ^^^ 1) ^^^ setWords lo hi
  let chunk2 := block (offset ^^^ 2)
  let hi := hi ^^^ low (block (offset ^^^ 2))
  let lo := lo ^^^ high (block (offset ^^^ 2))
  let chunk3 := block (offset ^^^ 3)
  let block :=
    if reverse then
      Function.update (Function.update block (offset ^^^ 1) (addEpi64 chunk1 b1)) (offset ^^^ 2) (addEpi64 chunk3 b)
    else
      Function.update (Function.update block (offset ^^^ 1) (addEpi64 chunk3 b1)) (offset ^^^ 2) (addEpi64 chunk1 b)
  (Function.update block (offset ^^^ 3) (addEpi64 chunk2 a), hi, lo)

/-- `VARIANT2_INTEGER_MATH`: `cl` and both results after it. -/
def variant2IntegerMath (divisionResult sqrtResult cl : BitVec 64) (cx : M128) : BitVec 64 × BitVec 64 × BitVec 64 :=
  let cx0 := low cx
  let cl := cl ^^^ (divisionResult ^^^ (sqrtResult <<< 32))
  let d := ((cx0 + (sqrtResult <<< 1)).setWidth 32 ||| (0x80000001 : BitVec 32)).setWidth 64
  let cx1 := high cx
  let divisionResult := ((cx1 / d).setWidth 32).setWidth 64 + ((cx1 % d) <<< 32)
  (cl, divisionResult, p.intSqrtV2 (cx0 + divisionResult))

/-- `VARIANT4_RANDOM_MATH`: `cl` and the registers after it. -/
def variant4RandomMath (code : List V4Instruction) (r : Fin 9 → BitVec 32) (al ah cl : BitVec 64) (bx0 bx1 : M128) :
    BitVec 64 × (Fin 9 → BitVec 32) :=
  let cl := cl ^^^ ((r 0 + r 1).setWidth 64 ||| ((r 2 + r 3).setWidth 64 <<< 32))
  let r := Function.update r 4 (al.setWidth 32)
  let r := Function.update r 5 (ah.setWidth 32)
  let r := Function.update r 6 ((low bx0).setWidth 32)
  let r := Function.update r 7 ((low bx1).setWidth 32)
  let r := Function.update r 8 ((high bx1).setWidth 32)
  (cl, v4RandomMath code r)

/-- `cryptonight_monero_tweak`: the scratchpad and `cx` after it. The vector that is written is at
`out`, those that are shuffled are at `idx`. -/
def cryptonightMoneroTweak (block : Blocks) (out idx : Nat) (ax0 bx0 bx1 cx : M128) : Blocks × M128 :=
  if CnAlgo.base algo = Algorithm.cn2.id then
    let shuffled := variant2Shuffle algo block idx ax0 bx0 bx1 cx (reversed algo)
    (Function.update shuffled.1 out (bx0 ^^^ shuffled.2), shuffled.2)
  else
    let tmp := bx0 ^^^ cx
    let block := block.setLow out (low tmp)
    let vh := high tmp
    (block.setHigh out (vh ^^^ (tweak1Table ((vh.setWidth 32 >>> 24).setWidth 8)).setWidth 64), cx)

end Variants

/-! ## One iteration with scalar variables -/

/-- The variables of one input in the single and in the double hash. -/
structure Scalars where
  block : Blocks
  al : BitVec 64
  ah : BitVec 64
  idx : BitVec 64
  ax : M128
  bx0 : M128
  bx1 : M128
  cx : M128
  concVar : M128
  tweak : BitVec 64
  divisionResult : BitVec 64
  sqrtResult : BitVec 64
  r : Fin 9 → BitVec 32

section Single
variable (p : Primitives) (algo : Algorithm)

def slotOf (idx : BitVec 64) : Nat := (idx &&& BitVec.ofNat 64 (CnAlgo.mask algo)).toNat / 16

def position (interleave : Nat) (idx : BitVec 64) : Nat :=
  interleavedIndex interleave (idx &&& BitVec.ofNat 64 (CnAlgo.mask algo)).toNat / 16

namespace Scalars

/-- The load into `cx`, for CN_CCX with the tweak. -/
def loadTweaked (interleave : Nat) (x : Scalars) : Scalars :=
  let x := { x with cx := x.block (position algo interleave x.idx) }
  if algo = .cnCcx then
    let tweaked := p.concealTweak x.cx x.concVar
    { x with cx := tweaked.1, concVar := tweaked.2 }
  else x

/-- What is loaded before `ax`: nothing where the round is made from tables. -/
def load (soft : Bool) (interleave : Nat) (x : Scalars) : Scalars :=
  if algo = .cnHeavyTube ∨ !soft then x.loadTweaked p algo interleave else x

def round (soft : Bool) (interleave : Nat) (x : Scalars) : Scalars :=
  let x := { x with ax := setWords x.ah x.al }
  if algo = .cnHeavyTube then { x with cx := p.aesRoundTweakDiv x.cx x.ax }
  else if soft then
    if algo = .cnCcx then
      let x := x.loadTweaked p algo interleave
      { x with cx := p.aes.enc x.cx x.ax }
    else { x with cx := p.aes.enc (x.block (position algo interleave x.idx)) x.ax }
  else { x with cx := p.aes.enc x.cx x.ax }

/-- The store of the vector that was loaded, and the next address. -/
def store (interleave : Nat) (x : Scalars) : Scalars :=
  let x :=
    if CnAlgo.base algo = Algorithm.cn1.id ∨ CnAlgo.base algo = Algorithm.cn2.id then
      let tweaked := cryptonightMoneroTweak algo x.block (position algo interleave x.idx) (slotOf algo x.idx) x.ax x.bx0
        x.bx1 x.cx
      { x with block := tweaked.1, cx := tweaked.2 }
    else { x with block := Function.update x.block (position algo interleave x.idx) (x.bx0 ^^^ x.cx) }
  { x with idx := low x.cx }

def multiply (code : List V4Instruction) (interleave : Nat) (x : Scalars) : Scalars :=
  let cl := low (x.block (position algo interleave x.idx))
  let ch := high (x.block (position algo interleave x.idx))
  let varied : Scalars × BitVec 64 :=
    if CnAlgo.base algo = Algorithm.cn2.id then
      if CnAlgo.isR algo then
        let mixed := variant4RandomMath code x.r x.al x.ah cl x.bx0 x.bx1
        let x := { x with r := mixed.2 }
        if algo = .cnR then
          ({ x with
              al := x.al ^^^ ((x.r 2).setWidth 64 ||| ((x.r 3).setWidth 64 <<< 32))
              ah := x.ah ^^^ ((x.r 0).setWidth 64 ||| ((x.r 1).setWidth 64 <<< 32)) }, mixed.1)
        else (x, mixed.1)
      else
        let mixed := variant2IntegerMath p x.divisionResult x.sqrtResult cl x.cx
        ({ x with divisionResult := mixed.2.1, sqrtResult := mixed.2.2 }, mixed.1)
    else (x, cl)
  let x := varied.1
  let cl := varied.2
  let product := x.idx.setWidth 128 * cl.setWidth 128
  let shuffled : Scalars × BitVec 64 × BitVec 64 :=
    if CnAlgo.base algo = Algorithm.cn2.id then
      if algo = .cnR then
        let shuffled := variant2Shuffle algo x.block (slotOf algo x.idx) x.ax x.bx0 x.bx1 x.cx false
        ({ x with block := shuffled.1, cx := shuffled.2 }, high product, low product)
      else
        let shuffled := variant2Shuffle2 x.block (slotOf algo x.idx) x.ax x.bx0 x.bx1 (high product) (low product)
          (reversed algo)
        ({ x with block := shuffled.1 }, shuffled.2)
    else (x, high product, low product)
  let x := shuffled.1
  let x := { x with al := x.al + shuffled.2.1, ah := x.ah + shuffled.2.2 }
  let out := position algo interleave x.idx
  let block := x.block.setLow out x.al
  let block :=
    if algo = .cnHeavyTube ∨ algo = .cnRto then block.setHigh out (x.ah ^^^ x.tweak ^^^ x.al)
    else if CnAlgo.base algo = Algorithm.cn1.id then block.setHigh out (x.ah ^^^ x.tweak)
    else block.setHigh out x.ah
  let x := { x with block := block, al := x.al ^^^ cl, ah := x.ah ^^^ ch }
  { x with idx := x.al }

/-- The division of the heavy variants, with a divisor of 64 bits. -/
def divide64 (interleave : Nat) (x : Scalars) : Scalars :=
  if CnAlgo.isHeavy algo then
    let at_ := position algo interleave x.idx
    let n := low (x.block at_)
    let d := ((high (x.block at_)).setWidth 32).signExtend 64
    let d5 := d ||| 5
    let q := p.divide n d5
    let block := x.block.setLow at_ (n ^^^ q)
    let d := if algo = .cnHeavyXhv then ~~~d else d
    { x with block := block, idx := d ^^^ q }
  else x

def divide32 (interleave : Nat) (x : Scalars) : Scalars :=
  if CnAlgo.isHeavy algo then
    let at_ := position algo interleave x.idx
    let n := low (x.block at_)
    let d := (high (x.block at_)).setWidth 32
    let q := p.divide n ((d ||| 5).signExtend 64)
    let block := x.block.setLow at_ (n ^^^ q)
    let d := if algo = .cnHeavyXhv then ~~~d else d
    { x with block := block, idx := d.signExtend 64 ^^^ q }
  else x

def shift (x : Scalars) : Scalars :=
  let x := if CnAlgo.base algo = Algorithm.cn2.id then { x with bx1 := x.bx0 } else x
  { x with bx0 := x.cx }

/-- One iteration of `cryptonight_single_hash`. -/
def iterate (soft : Bool) (code : List V4Instruction) (interleave : Nat) (x : Scalars) : Scalars :=
  let x := x.load p algo soft interleave
  let x := x.round p algo soft interleave
  let x := x.store algo interleave
  let x := x.multiply p algo code interleave
  let x := x.divide64 p algo interleave
  x.shift algo

end Scalars

/-! ## The hash -/

/-- Word `index` of the 224 bytes of a state. -/
def word (state : State) (index : Nat) : BitVec 64 :=
  let vector := state (Fin.ofNat 14 (index / 2))
  if index % 2 = 0 then low vector else high vector

def words (state : State) : Fin 25 → BitVec 64 := fun index => word state index

def State.setBytes (state : State) (bytes : Fin 25 → BitVec 64) : State := fun vector =>
  setWords (if inside : 2 * vector.val + 1 < 25 then bytes ⟨_, inside⟩ else high (state vector))
    (if inside : 2 * vector.val < 25 then bytes ⟨_, inside⟩ else low (state vector))

def loadWord (bytes : List Byte) (offset : Nat) : BitVec 64 :=
  let byte := fun i => bytes.getD (offset + i) 0
  byte 7 ++ byte 6 ++ byte 5 ++ byte 4 ++ byte 3 ++ byte 2 ++ byte 1 ++ byte 0

def variant1Init (input : List Byte) (part size : Nat) (state : State) : BitVec 64 :=
  if CnAlgo.base algo = Algorithm.cn1.id then loadWord input (35 + part * size) ^^^ word state 24 else 0

/-- The registers of `VARIANT4_RANDOM_MATH_INIT`. -/
def variant4Init (state : State) : Fin 9 → BitVec 32 :=
  if CnAlgo.isR algo then
    let r : Fin 9 → BitVec 32 := fun _ => 0
    let r := Function.update r 0 ((word state 12).setWidth 32)
    let r := Function.update r 1 ((word state 12 >>> 32).setWidth 32)
    let r := Function.update r 2 ((word state 13).setWidth 32)
    Function.update r 3 ((word state 13 >>> 32).setWidth 32)
  else fun _ => 0

def Scalars.start (input : List Byte) (part size : Nat) (state : State) (block : Blocks) : Scalars where
  block
  al := word state 0 ^^^ word state 4
  ah := word state 1 ^^^ word state 5
  idx := word state 0 ^^^ word state 4
  ax := 0
  bx0 := setWords (word state 3 ^^^ word state 7) (word state 2 ^^^ word state 6)
  bx1 := setWords (word state 9 ^^^ word state 11) (word state 8 ^^^ word state 10)
  cx := 0
  concVar := 0
  tweak := variant1Init algo input part size state
  divisionResult := word state 12
  sqrtResult := word state 13
  r := variant4Init algo state

/-- `keccak` of an input into the state of a context. -/
def Context.keccak (input : List Byte) (ctx : Context) : Context :=
  { ctx with state := ctx.state.setBytes (p.keccak input) }

def Context.explode (interleave : Nat) (ctx : Context) : Context :=
  cnExplodeScratchpad p.aes interleave (CnAlgo.memory algo) (CnAlgo.isHeavy algo) (CnAlgo.halfMem algo) ctx

def Context.implode (interleave : Nat) (ctx : Context) : Context :=
  cnImplodeScratchpad p.aes interleave (CnAlgo.memory algo) (CnAlgo.isHeavy algo) (CnAlgo.halfMem algo) ctx

/-- `cn_explode_scratchpad`; `vaes` is `cn_vaes_enabled`. -/
def Context.explodeScratchpad (soft vaes : Bool) (interleave : Nat) (ctx : Context) : Context :=
  if !soft && !CnAlgo.isHeavy algo && vaes then
    cnExplodeScratchpadVaes p.aes (CnAlgo.memory algo) (CnAlgo.halfMem algo) ctx
  else ctx.explode p algo interleave

def Context.implodeScratchpad (soft vaes : Bool) (interleave : Nat) (ctx : Context) : Context :=
  if !soft && !CnAlgo.isHeavy algo && vaes then
    cnImplodeScratchpadVaes p.aes (CnAlgo.memory algo) (CnAlgo.halfMem algo) ctx
  else ctx.implode p algo interleave

/-- `keccakf` and the extra hash that the first byte chooses. -/
def Context.finish (ctx : Context) : BitVec 256 :=
  let final := p.keccakf (words ctx.state)
  p.extraHashes ((final 0).setWidth 2) final

def tooShort (size : Nat) : Bool := CnAlgo.base algo = Algorithm.cn1.id && decide (size < 43)

def cryptonightSingleHash (soft vaes : Bool) (interleave : Nat) (input : List Byte) (size : Nat) (height : BitVec 64)
    (ctx : Context) : BitVec 256 :=
  if tooShort algo size then 0
  else
    let ctx := ctx.keccak p (input.take size)
    let ctx := ctx.begin (CnAlgo.halfMem algo)
    let ctx := ctx.explodeScratchpad p algo soft vaes interleave
    let x := Scalars.start algo input 0 size ctx.state ctx.pad.block
    let x := (Scalars.iterate p algo soft (p.v4RandomMathInit height) interleave)^[CnAlgo.iterations algo] x
    let ctx := (ctx.withBlock x.block).implodeScratchpad p algo soft vaes interleave
    ctx.finish p

end Single

end Cryptonight

end Xmrig
