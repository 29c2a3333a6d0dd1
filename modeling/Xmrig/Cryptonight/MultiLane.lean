import Mathlib.Data.Fin.Tuple.Reflection
import Xmrig.Cryptonight.MainLoop
import Xmrig.Foundation.InTurn

/-! Several inputs at once: the double, triple, quad and penta hash of CryptoNight.

The double hash is written out for two inputs with scalar variables. The others go
through the steps CN_STEP1 to CN_STEP4 with registers of 128 bits, each step for one
input after the other. The contexts have memories of their own, so a lane is changed
only by its own steps.
-/

set_option autoImplicit false

namespace Xmrig.Cryptonight

open CryptonightR Foundation

/-! ## One iteration with vectors -/

/-- The variables of one input in the triple, quad and penta hash. -/
structure Lane where
  block : Blocks
  a : M128
  idx : BitVec 64
  b0 : M128
  b1 : M128
  c : M128
  concVar : M128
  mc : M128
  divisionResult : BitVec 64
  sqrtResult : BitVec 64
  r : Fin 9 → BitVec 32
  ptr : Nat
  cl : BitVec 64
  ch : BitVec 64

section Steps
variable (p : Primitives) (algo : Algorithm)

namespace Lane

/-- `CN_STEP1`. -/
def step1 (x : Lane) : Lane :=
  let x := { x with ptr := slotOf algo x.idx }
  let x := { x with c := x.block x.ptr }
  if algo = .cnCcx then
    let tweaked := p.concealTweak x.c x.concVar
    { x with c := tweaked.1, concVar := tweaked.2 }
  else x

def round (x : Lane) : Lane :=
  if algo = .cnHeavyTube then { x with c := p.aesRoundTweakDiv x.c x.a } else { x with c := p.aes.enc x.c x.a }

def store (x : Lane) : Lane :=
  if CnAlgo.base algo = Algorithm.cn1.id ∨ CnAlgo.base algo = Algorithm.cn2.id then
    let tweaked := cryptonightMoneroTweak algo x.block x.ptr (slotOf algo x.idx) x.a x.b0 x.b1 x.c
    { x with block := tweaked.1, c := tweaked.2 }
  else { x with block := Function.update x.block x.ptr (x.b0 ^^^ x.c) }

/-- `CN_STEP2`. -/
def step2 (x : Lane) : Lane := (x.round p algo).store algo

/-- `CN_STEP3`. -/
def step3 (x : Lane) : Lane :=
  let x := { x with idx := low x.c }
  let x := { x with ptr := slotOf algo x.idx }
  { x with cl := low (x.block x.ptr), ch := high (x.block x.ptr) }

theorem nine_neZero : NeZero (9 : Nat) := ⟨by decide⟩

attribute [local instance] nine_neZero in
/-- `CN_STEP4` up to the new address. -/
def multiply (code : List V4Instruction) (x : Lane) : Lane :=
  -- `al` and `ah` are assigned for CN_R only.
  let varied : Lane × BitVec 64 × BitVec 64 :=
    if CnAlgo.base algo = Algorithm.cn2.id then
      if CnAlgo.isR algo then
        let al := low x.a
        let ah := high x.a
        let mixed := variant4RandomMath code x.r al ah x.cl x.b0 x.b1
        let x := { x with cl := mixed.1, r := mixed.2 }
        if algo = .cnR then
          (x, al ^^^ ((x.r 2).setWidth 64 ||| ((x.r 3).setWidth 64 <<< 32)),
            ah ^^^ ((x.r 0).setWidth 64 ||| ((x.r 1).setWidth 64 <<< 32)))
        else (x, al, ah)
      else
        let mixed := variant2IntegerMath p x.divisionResult x.sqrtResult x.cl x.c
        ({ x with cl := mixed.1, divisionResult := mixed.2.1, sqrtResult := mixed.2.2 }, 0, 0)
    else (x, 0, 0)
  let x := varied.1
  let product := x.idx.setWidth 128 * x.cl.setWidth 128
  let shuffled : Lane × BitVec 64 × BitVec 64 :=
    if CnAlgo.base algo = Algorithm.cn2.id then
      if algo = .cnR then
        let shuffled := variant2Shuffle algo x.block (slotOf algo x.idx) x.a x.b0 x.b1 x.c false
        ({ x with block := shuffled.1, c := shuffled.2 }, high product, low product)
      else
        let shuffled := variant2Shuffle2 x.block (slotOf algo x.idx) x.a x.b0 x.b1 (high product) (low product)
          (reversed algo)
        ({ x with block := shuffled.1 }, shuffled.2)
    else (x, high product, low product)
  let x := shuffled.1
  let x := if algo = .cnR then { x with a := setWords varied.2.2 varied.2.1 } else x
  let x := { x with a := addEpi64 x.a (setWords shuffled.2.2 shuffled.2.1) }
  let x :=
    if CnAlgo.base algo = Algorithm.cn1.id then
      let x := { x with block := Function.update x.block x.ptr (x.a ^^^ x.mc) }
      if algo = .cnHeavyTube ∨ algo = .cnRto then
        { x with block := x.block.setHigh x.ptr (high (x.block x.ptr) ^^^ low (x.block x.ptr)) }
      else x
    else { x with block := Function.update x.block x.ptr x.a }
  let x := { x with a := x.a ^^^ setWords x.ch x.cl }
  { x with idx := low x.a }

/-- The division of `CN_STEP4`. -/
def divide (x : Lane) : Lane :=
  if CnAlgo.isHeavy algo then
    let at_ := slotOf algo x.idx
    let n := low (x.block at_)
    let d := (high (x.block at_)).setWidth 32
    let q := p.divide n ((d ||| 5).signExtend 64)
    let block := x.block.setLow at_ (n ^^^ q)
    let d := if algo = .cnHeavyXhv then ~~~d else d
    { x with block := block, idx := d.signExtend 64 ^^^ q }
  else x

/-- The end of `CN_STEP4`. -/
def shift (x : Lane) : Lane :=
  let x := if CnAlgo.base algo = Algorithm.cn2.id then { x with b1 := x.b0 } else x
  { x with b0 := x.c }

/-- `CN_STEP4`. -/
def step4 (code : List V4Instruction) (x : Lane) : Lane := ((x.multiply p algo code).divide p algo).shift algo

def iterate (code : List V4Instruction) (x : Lane) : Lane :=
  (((x.step1 p algo).step2 p algo).step3 algo).step4 p algo code

end Lane

end Steps

/-! ## Scalars and vectors -/

section Alike
variable {p : Primitives} {algo : Algorithm}

theorem position_zero (idx : BitVec 64) : position algo 0 idx = slotOf algo idx := rfl

/-- Only variables that the algorithm reads have to agree. -/
structure Alike (algo : Algorithm) (x : Scalars) (y : Lane) : Prop where
  block : y.block = x.block
  a : y.a = setWords x.ah x.al
  idx : y.idx = x.idx
  b0 : y.b0 = x.bx0
  b1 : y.b1 = x.bx1
  concVar : algo = .cnCcx → y.concVar = x.concVar
  mc : CnAlgo.base algo = Algorithm.cn1.id → y.mc = setWords x.tweak 0
  division : CnAlgo.base algo = Algorithm.cn2.id → y.divisionResult = x.divisionResult
  sqrt : CnAlgo.base algo = Algorithm.cn2.id → y.sqrtResult = x.sqrtResult
  r : CnAlgo.isR algo → y.r = x.r

/-- Between the steps of an iteration. -/
structure Within (algo : Algorithm) (x : Scalars) (y : Lane) : Prop extends Alike algo x y where
  c : y.c = x.cx
  ax : x.ax = y.a
  ptr : y.ptr = slotOf algo x.idx

theorem load_round (soft : Bool) (interleave : Nat) (x : Scalars) :
    (x.load p algo soft interleave).round p algo soft interleave =
      (x.load p algo false interleave).round p algo false interleave := by
  cases soft with
  | false => rfl
  | true =>
    by_cases tube : algo = .cnHeavyTube
    · simp [Scalars.load, Scalars.round, tube]
    · by_cases ccx : algo = .cnCcx
      · simp [Scalars.load, Scalars.round, Scalars.loadTweaked, ccx]
      · simp [Scalars.load, Scalars.round, Scalars.loadTweaked, tube, ccx]

theorem Alike.round {x : Scalars} {y : Lane} (alike : Alike algo x y) :
    Within algo ((x.load p algo false 0).round p algo false 0) ((y.step1 p algo).round p algo) := by
  obtain ⟨block, a, idx, b0, b1, concVar, mc, division, sqrt, r⟩ := alike
  unfold Scalars.load Scalars.loadTweaked Scalars.round Lane.step1 Lane.round
  simp only [position_zero, Bool.not_false, or_true, if_true, block, idx]
  by_cases ccx : algo = .cnCcx
  · simp only [ccx, if_true, concVar ccx]
    subst ccx
    exact ⟨⟨rfl, a, rfl, b0, b1, fun _ => rfl, mc, division, sqrt, r⟩, by simp [a], a.symm, rfl⟩
  · simp only [ccx, if_false]
    split
    all_goals exact ⟨⟨rfl, a, rfl, b0, b1, fun impossible => absurd impossible ccx, mc, division, sqrt, r⟩, by simp [a],
      a.symm, rfl⟩

theorem Within.store {x : Scalars} {y : Lane} (within : Within algo x y) :
    Within algo (x.store algo 0) ((y.store algo).step3 algo) ∧
      ((y.store algo).step3 algo).cl = low ((x.store algo 0).block (slotOf algo (x.store algo 0).idx)) ∧
      ((y.store algo).step3 algo).ch = high ((x.store algo 0).block (slotOf algo (x.store algo 0).idx)) := by
  obtain ⟨⟨block, a, idx, b0, b1, concVar, mc, division, sqrt, r⟩, c, ax, ptr⟩ := within
  unfold Scalars.store Lane.store Lane.step3
  simp only [position_zero, block, idx, b0, b1, c, ax, ptr]
  split
  all_goals exact ⟨⟨⟨rfl, a, rfl, rfl, rfl, concVar, mc, division, sqrt, r⟩, rfl, rfl, rfl⟩, rfl, rfl⟩

theorem setLow_setHigh (block : Blocks) (index : Nat) (hi lo : BitVec 64) :
    (block.setLow index lo).setHigh index hi = Function.update block index (setWords hi lo) := by
  simp [Blocks.setLow, Blocks.setHigh]

theorem update_setHigh (block : Blocks) (index : Nat) (value : M128) (hi : BitVec 64) :
    Blocks.setHigh (Function.update block index value) index hi = Function.update block index (setWords hi (low value)) := by
  simp [Blocks.setHigh]

theorem addEpi64_setWords (hi lo other other' : BitVec 64) :
    addEpi64 (setWords hi lo) (setWords other other') = setWords (hi + other) (lo + other') := by
  simp [addEpi64]

theorem base_of_twice (twice : algo = .cnHeavyTube ∨ algo = .cnRto) : CnAlgo.base algo = Algorithm.cn1.id := by
  rcases twice with rfl | rfl <;> rfl

theorem cn1_ne_cn2 : Algorithm.cn1.id ≠ Algorithm.cn2.id := by decide

theorem Within.multiply {x : Scalars} {y : Lane} (within : Within algo x y) (code : List V4Instruction)
    (cl : y.cl = low (x.block (slotOf algo x.idx))) (ch : y.ch = high (x.block (slotOf algo x.idx))) :
    Alike algo (x.multiply p algo code 0) (y.multiply p algo code) ∧
      (y.multiply p algo code).c = (x.multiply p algo code 0).cx := by
  obtain ⟨⟨block, a, idx, b0, b1, concVar, mc, division, sqrt, r⟩, c, ax, ptr⟩ := within
  have ax' : x.ax = setWords x.ah x.al := ax.trans a
  unfold Scalars.multiply Lane.multiply
  simp only [position_zero, block, idx, b0, b1, c, a, ax', ptr, cl, ch]
  by_cases cn2 : CnAlgo.base algo = Algorithm.cn2.id
  · have notCn1 : CnAlgo.base algo ≠ Algorithm.cn1.id := fun cn1 => cn1_ne_cn2 (cn1.symm.trans cn2)
    have once : ¬(algo = .cnHeavyTube ∨ algo = .cnRto) := fun twice => notCn1 (base_of_twice twice)
    by_cases cnR : algo = .cnR
    · have isR : CnAlgo.isR algo := by simp [CnAlgo.isR, cnR]
      simp only [if_pos cn2, if_neg notCn1, if_neg once, if_pos isR, if_pos cnR, r isR, low_setWords, high_setWords,
        addEpi64_setWords, setWords_xor, setLow_setHigh, and_true]
      exact ⟨rfl, rfl, rfl, rfl, rfl, concVar, mc, division, sqrt, fun _ => rfl⟩
    · have notR : ¬CnAlgo.isR algo := by simp [CnAlgo.isR, cnR]
      simp only [if_pos cn2, if_neg notCn1, if_neg once, if_neg notR, if_neg cnR, division cn2, sqrt cn2, low_setWords,
        addEpi64_setWords, setWords_xor, setLow_setHigh, and_true]
      exact ⟨rfl, rfl, rfl, rfl, rfl, concVar, mc, fun _ => rfl, fun _ => rfl, fun isR => absurd isR notR⟩
  · have notR : algo ≠ .cnR := fun cnR => cn2 (by rw [cnR]; rfl)
    simp only [if_neg cn2, if_neg notR, block, idx, b0, b1, c, a, ptr, cl, ch, low_setWords, addEpi64_setWords]
    have xorZero : ∀ value : BitVec 64, value ^^^ 0 = value := fun _ => BitVec.xor_zero
    by_cases cn1 : CnAlgo.base algo = Algorithm.cn1.id
    · by_cases twice : algo = .cnHeavyTube ∨ algo = .cnRto
      · simp only [if_pos cn1, if_pos twice, mc cn1, setLow_setHigh, update_setHigh, Function.update_self, setWords_xor,
          low_setWords, high_setWords, xorZero, and_true]
        exact ⟨rfl, rfl, rfl, rfl, rfl, concVar, fun _ => rfl, division, sqrt, r⟩
      · simp only [if_pos cn1, if_neg twice, mc cn1, setLow_setHigh, setWords_xor, xorZero, low_setWords, and_true]
        exact ⟨rfl, rfl, rfl, rfl, rfl, concVar, fun _ => rfl, division, sqrt, r⟩
    · have once : ¬(algo = .cnHeavyTube ∨ algo = .cnRto) := fun twice => cn1 (base_of_twice twice)
      simp only [if_neg cn1, if_neg once, setLow_setHigh, setWords_xor, low_setWords, and_true]
      exact ⟨rfl, rfl, rfl, rfl, rfl, concVar, mc, division, sqrt, r⟩

theorem divide64_eq (interleave : Nat) (x : Scalars) : x.divide64 p algo interleave = x.divide32 p algo interleave := by
  unfold Scalars.divide64 Scalars.divide32
  have five : (5 : BitVec 32).signExtend 64 = 5 := rfl
  split
  · split
    · simp only [BitVec.signExtend_or, five, BitVec.signExtend_not (show 0 < 32 by omega)]
    · simp only [BitVec.signExtend_or, five]
  · rfl

theorem Alike.divide {x : Scalars} {y : Lane} (alike : Alike algo x y) (c : y.c = x.cx) :
    Alike algo (x.divide32 p algo 0) (y.divide p algo) ∧ (y.divide p algo).c = (x.divide32 p algo 0).cx := by
  obtain ⟨block, a, idx, b0, b1, concVar, mc, division, sqrt, r⟩ := alike
  unfold Scalars.divide32 Lane.divide
  simp only [position_zero, block, idx]
  split
  · exact ⟨⟨rfl, a, rfl, b0, b1, concVar, mc, division, sqrt, r⟩, c⟩
  · exact ⟨⟨block, a, idx, b0, b1, concVar, mc, division, sqrt, r⟩, c⟩

theorem Alike.shift {x : Scalars} {y : Lane} (alike : Alike algo x y) (c : y.c = x.cx) :
    Alike algo (x.shift algo) (y.shift algo) := by
  obtain ⟨block, a, idx, b0, b1, concVar, mc, division, sqrt, r⟩ := alike
  unfold Scalars.shift Lane.shift
  split
  · exact ⟨block, a, idx, c, b0, concVar, mc, division, sqrt, r⟩
  · exact ⟨block, a, idx, c, b1, concVar, mc, division, sqrt, r⟩

theorem Alike.iterate {x : Scalars} {y : Lane} (alike : Alike algo x y) (soft : Bool) (code : List V4Instruction) :
    Alike algo (x.iterate p algo soft code 0) (y.iterate p algo code) := by
  have ciphered := @Alike.round p algo x y alike
  obtain ⟨stored, cl, ch⟩ := ciphered.store
  obtain ⟨multiplied, mixed⟩ := @Within.multiply p algo _ _ stored code cl ch
  obtain ⟨divided, kept⟩ := @Alike.divide p algo _ _ multiplied mixed
  unfold Scalars.iterate
  simp only [load_round soft, divide64_eq]
  exact divided.shift kept

theorem Alike.iterations {x : Scalars} {y : Lane} (alike : Alike algo x y) (soft : Bool) (code : List V4Instruction)
    (count : Nat) :
    Alike algo ((Scalars.iterate p algo soft code 0)^[count] x) ((Lane.iterate p algo code)^[count] y) := by
  induction count with
  | zero => exact alike
  | succ count ih =>
    rw [Function.iterate_succ_apply', Function.iterate_succ_apply']
    exact ih.iterate soft code

end Alike

/-! ## The hashes -/

section Hashes
variable (p : Primitives) (algo : Algorithm)

/-- One iteration of `cryptonight_double_hash`. -/
def doubleIterate (soft : Bool) (code : List V4Instruction) (x : Fin 2 → Scalars) : Fin 2 → Scalars :=
  let x := inTurn (fun _ => Scalars.load p algo soft 0) x
  let x := inTurn (fun _ => Scalars.round p algo soft 0) x
  let x := inTurn (fun _ => Scalars.store algo 0) x
  let x := inTurn (fun _ x => (x.multiply p algo code 0).divide32 p algo 0) x
  inTurn (fun _ => Scalars.shift algo) x

def lanesIterate {n : Nat} (code : List V4Instruction) (x : Fin n → Lane) : Fin n → Lane :=
  let x := inTurn (fun _ => Lane.step1 p algo) x
  let x := inTurn (fun _ => Lane.step2 p algo) x
  let x := inTurn (fun _ => Lane.step3 algo) x
  inTurn (fun _ => Lane.step4 p algo code) x

/-- `CONST_INIT`, and the address before the first iteration. -/
def Lane.start (input : List Byte) (part size : Nat) (state : State) (block : Blocks) : Lane where
  block
  a := setWords (word state 1 ^^^ word state 5) (word state 0 ^^^ word state 4)
  idx := low (setWords (word state 1 ^^^ word state 5) (word state 0 ^^^ word state 4))
  b0 := setWords (word state 3 ^^^ word state 7) (word state 2 ^^^ word state 6)
  b1 := setWords (word state 9 ^^^ word state 11) (word state 8 ^^^ word state 10)
  c := 0
  concVar := 0
  mc :=
    if CnAlgo.base algo = Algorithm.cn1.id then setWords (loadWord input (part * size + 35) ^^^ word state 24) 0 else 0
  divisionResult := if CnAlgo.base algo = Algorithm.cn2.id then word state 12 else 0
  sqrtResult := if CnAlgo.base algo = Algorithm.cn2.id then word state 13 else 0
  r := variant4Init algo state
  ptr := 0
  cl := 0
  ch := 0

def explodePair (soft vaes : Bool) (ctx0 ctx1 : Context) : Context × Context :=
  if !soft && !CnAlgo.isHeavy algo && vaes then
    cnExplodeScratchpadVaesDouble p.aes (CnAlgo.memory algo) (CnAlgo.halfMem algo) ctx0 ctx1
  else (ctx0.explodeScratchpad p algo soft vaes 0, ctx1.explodeScratchpad p algo soft vaes 0)

def implodePair (soft vaes : Bool) (ctx0 ctx1 : Context) : Context × Context :=
  if !soft && !CnAlgo.isHeavy algo && vaes then
    cnImplodeScratchpadVaesDouble p.aes (CnAlgo.memory algo) (CnAlgo.halfMem algo) ctx0 ctx1
  else (ctx0.implodeScratchpad p algo soft vaes 0, ctx1.implodeScratchpad p algo soft vaes 0)

/-- The contexts with the hashed inputs, which follow each other. -/
def hashed {n : Nat} (input : List Byte) (size : Nat) (ctx : Fin n → Context) : Fin n → Context := fun lane =>
  ((ctx lane).keccak p ((input.drop (size * lane.val)).take size)).begin (CnAlgo.halfMem algo)

theorem pair_neZero : NeZero (2 : Nat) := ⟨by decide⟩

attribute [local instance] pair_neZero in
def cryptonightDoubleHash (soft vaes : Bool) (input : List Byte) (size : Nat) (height : BitVec 64)
    (ctx : Fin 2 → Context) : Fin 2 → BitVec 256 :=
  if tooShort algo size then fun _ => 0
  else
    let ctx := hashed p algo input size ctx
    let pair := explodePair p algo soft vaes (ctx 0) (ctx 1)
    let exploded := ![pair.1, pair.2]
    -- The initialisations of the variants read the states before the scratchpads are filled.
    let x := fun lane : Fin 2 =>
      { Scalars.start algo input lane.val size (exploded lane).state (exploded lane).pad.block with
        tweak := variant1Init algo input lane.val size (ctx lane).state
        divisionResult := word (ctx lane).state 12
        sqrtResult := word (ctx lane).state 13
        r := variant4Init algo (ctx lane).state }
    let x := (doubleIterate p algo soft (p.v4RandomMathInit height))^[CnAlgo.iterations algo] x
    let pair := implodePair p algo soft vaes ((exploded 0).withBlock (x 0).block) ((exploded 1).withBlock (x 1).block)
    ![pair.1.finish p, pair.2.finish p]

/-- The part that the triple, quad and penta hash have in common; they fill and absorb the scratchpads
in different groups. -/
def lanesHash {n : Nat} (explode implode : (Fin n → Context) → Fin n → Context) (input : List Byte) (size : Nat)
    (height : BitVec 64) (ctx : Fin n → Context) : Fin n → BitVec 256 :=
  if tooShort algo size then fun _ => 0
  else
    let ctx := explode (hashed p algo input size ctx)
    let x := fun lane => Lane.start algo input lane.val size (ctx lane).state (ctx lane).pad.block
    let x := (lanesIterate p algo (p.v4RandomMathInit height))^[CnAlgo.iterations algo] x
    let ctx := implode fun lane => (ctx lane).withBlock (x lane).block
    fun lane => (ctx lane).finish p

def cryptonightTripleHash (soft vaes : Bool) :
    List Byte → Nat → BitVec 64 → (Fin 3 → Context) → Fin 3 → BitVec 256 :=
  lanesHash p algo (fun ctx lane => (ctx lane).explodeScratchpad p algo soft vaes 0)
    fun ctx lane => (ctx lane).implodeScratchpad p algo soft vaes 0

def cryptonightQuadHash (soft vaes : Bool) :
    List Byte → Nat → BitVec 64 → (Fin 4 → Context) → Fin 4 → BitVec 256 :=
  lanesHash p algo
    (fun ctx =>
      let first := explodePair p algo soft vaes (ctx 0) (ctx 1)
      let second := explodePair p algo soft vaes (ctx 2) (ctx 3)
      ![first.1, first.2, second.1, second.2])
    fun ctx =>
      let first := implodePair p algo soft vaes (ctx 0) (ctx 1)
      let second := implodePair p algo soft vaes (ctx 2) (ctx 3)
      ![first.1, first.2, second.1, second.2]

def cryptonightPentaHash (soft vaes : Bool) :
    List Byte → Nat → BitVec 64 → (Fin 5 → Context) → Fin 5 → BitVec 256 :=
  lanesHash p algo (fun ctx lane => (ctx lane).explodeScratchpad p algo soft vaes 0)
    fun ctx lane => (ctx lane).implodeScratchpad p algo soft vaes 0

end Hashes

/-! ## Every lane is a single hash -/

section Lanes
variable {p : Primitives} {algo : Algorithm}

theorem doubleIterate_eq (soft : Bool) (code : List V4Instruction) :
    doubleIterate p algo soft code = fun family index => (family index).iterate p algo soft code 0 := by
  funext family index
  simp only [doubleIterate, inTurn_eq, Scalars.iterate, divide64_eq]

theorem lanesIterate_eq {n : Nat} (code : List V4Instruction) :
    (lanesIterate p algo code : (Fin n → Lane) → Fin n → Lane) =
      fun family index => (family index).iterate p algo code := by
  funext family index
  simp only [lanesIterate, inTurn_eq, Lane.iterate]

/-- Whole blocks of the algorithms; the memory of `invalid` is one byte. -/
theorem memory_whole (algo : Algorithm) : CnAlgo.memory algo % 64 < 16 := by
  cases algo <;> decide

section Single
variable {interleave : Nat} (soft vaes : Bool) (plain : CnAlgo.isHeavy algo = false → interleave = 0) (ctx : Context)
include plain

/-- Only the plain layout is filled with vectors of two registers. -/
theorem explodeScratchpad_eq : ctx.explodeScratchpad p algo soft vaes interleave = ctx.explode p algo interleave := by
  unfold Context.explodeScratchpad
  split
  · rename_i wide
    have light : CnAlgo.isHeavy algo = false := by
      simp only [Bool.and_eq_true, Bool.not_eq_true'] at wide
      exact wide.1.2
    rw [cnExplodeScratchpadVaes_eq (memory_whole algo), Context.explode, light, plain light]
  · rfl

theorem implodeScratchpad_eq : ctx.implodeScratchpad p algo soft vaes interleave = ctx.implode p algo interleave := by
  unfold Context.implodeScratchpad
  split
  · rename_i wide
    have light : CnAlgo.isHeavy algo = false := by
      simp only [Bool.and_eq_true, Bool.not_eq_true'] at wide
      exact wide.1.2
    rw [cnImplodeScratchpadVaes_eq (memory_whole algo), Context.implode, light, plain light]
  · rfl

end Single

/-- Without half of the memory the mark of the first half is never read. -/
theorem explodePair_eq (soft vaes : Bool) {ctx0 ctx1 : Context} :
    explodePair p algo soft vaes (ctx0.begin (CnAlgo.halfMem algo)) (ctx1.begin (CnAlgo.halfMem algo)) =
      ((ctx0.begin (CnAlgo.halfMem algo)).explode p algo 0, (ctx1.begin (CnAlgo.halfMem algo)).explode p algo 0) := by
  unfold explodePair Context.explode
  split
  · rename_i together
    have light : CnAlgo.isHeavy algo = false := by
      simp only [Bool.and_eq_true, Bool.not_eq_true'] at together
      exact together.1.2
    rw [light]
    cases half : CnAlgo.halfMem algo with
    | true => exact cnExplodeScratchpadVaesDouble_eq rfl
    | false =>
      have same := @cnExplodeScratchpadVaesDouble_eq p.aes (CnAlgo.memory algo) false ctx0
        { ctx1 with firstHalf := ctx0.firstHalf } rfl
      have first := congrArg Prod.fst same
      have second := congrArg (fun pair => { pair.2 with firstHalf := ctx1.firstHalf }) same
      exact Prod.ext first second
  · exact Prod.ext (explodeScratchpad_eq soft vaes (fun _ => rfl) _) (explodeScratchpad_eq soft vaes (fun _ => rfl) _)

theorem implodePair_eq (soft vaes : Bool) (ctx0 ctx1 : Context) :
    implodePair p algo soft vaes ctx0 ctx1 = (ctx0.implode p algo 0, ctx1.implode p algo 0) := by
  unfold implodePair Context.implode
  split
  · rename_i together
    have light : CnAlgo.isHeavy algo = false := by
      simp only [Bool.and_eq_true, Bool.not_eq_true'] at together
      exact together.1.2
    rw [light, cnImplodeScratchpadVaesDouble_eq]
  · exact Prod.ext (implodeScratchpad_eq soft vaes (fun _ => rfl) _) (implodeScratchpad_eq soft vaes (fun _ => rfl) _)

theorem explode_state (interleave : Nat) (ctx : Context) : (ctx.explode p algo interleave).state = ctx.state := rfl

theorem loadWord_drop (input : List Byte) (from_ offset : Nat) :
    loadWord (input.drop from_) offset = loadWord input (offset + from_) := by
  simp only [loadWord, List.getD_eq_getElem?_getD, List.getElem?_drop]
  have order : ∀ byte, from_ + (offset + byte) = offset + from_ + byte := by
    intro byte
    omega
  simp only [order]

theorem start_drop (input : List Byte) (part size : Nat) (state : State) (block : Blocks) :
    Scalars.start algo (input.drop (part * size)) 0 size state block = Scalars.start algo input part size state block := by
  simp only [Scalars.start, variant1Init, loadWord_drop, Nat.zero_mul, Nat.add_zero]

theorem alike_start (input : List Byte) (part size : Nat) (state : State) (block : Blocks) :
    Alike algo (Scalars.start algo input part size state block) (Lane.start algo input part size state block) where
  block := rfl
  a := rfl
  idx := low_setWords _ _
  b0 := rfl
  b1 := rfl
  concVar := fun _ => rfl
  mc := by
    intro cn1
    simp only [Lane.start, Scalars.start, variant1Init, if_pos cn1, Nat.add_comm 35]
  division := fun cn2 => if_pos cn2
  sqrt := fun cn2 => if_pos cn2
  r := fun _ => rfl

theorem start_early (input : List Byte) (part size : Nat) (ctx : Context) (block : Blocks) :
    { Scalars.start algo input part size (ctx.explode p algo 0).state block with
      tweak := variant1Init algo input part size ctx.state
      divisionResult := word ctx.state 12
      sqrtResult := word ctx.state 13
      r := variant4Init algo ctx.state } =
      Scalars.start algo input part size (ctx.explode p algo 0).state block := rfl

/-- What the hashes of several inputs come down to for one of them. -/
def laneHash (p : Primitives) (algo : Algorithm) (loop : Context → Blocks) (ctx : Context) : BitVec 256 :=
  let ctx := ctx.explode p algo 0
  ((ctx.withBlock (loop ctx)).implode p algo 0).finish p

theorem cryptonightSingleHash_lane (soft vaes : Bool) (input : List Byte) (size : Nat) (height : BitVec 64) {n : Nat}
    (ctx : Fin n → Context) (lane : Fin n) (long : tooShort algo size = false) :
    cryptonightSingleHash p algo soft vaes 0 (input.drop (size * lane.val)) size height (ctx lane) =
      laneHash p algo (fun ctx => ((Scalars.iterate p algo soft (p.v4RandomMathInit height) 0)^[CnAlgo.iterations algo]
        (Scalars.start algo input lane.val size ctx.state ctx.pad.block)).block) (hashed p algo input size ctx lane) := by
  simp only [cryptonightSingleHash, long, Bool.false_eq_true, if_false, laneHash, hashed, Nat.mul_comm size, start_drop,
    @explodeScratchpad_eq p algo 0 soft vaes fun _ => rfl, @implodeScratchpad_eq p algo 0 soft vaes fun _ => rfl]

theorem iterate_soft (soft : Bool) (code : List V4Instruction) (interleave : Nat) (x : Scalars) :
    x.iterate p algo soft code interleave = x.iterate p algo false code interleave := by
  unfold Scalars.iterate
  simp only [load_round soft]

theorem doubleHash_lane (soft vaes single : Bool) (input : List Byte) (size : Nat) (height : BitVec 64)
    (ctx : Fin 2 → Context) (lane : Fin 2) :
    cryptonightDoubleHash p algo soft vaes input size height ctx lane =
      cryptonightSingleHash p algo soft single 0 (input.drop (size * lane.val)) size height (ctx lane) := by
  by_cases short : tooShort algo size = true
  · simp only [cryptonightDoubleHash, cryptonightSingleHash, short, if_true]
  · have long := Bool.eq_false_iff.mpr short
    rw [cryptonightSingleHash_lane soft single input size height ctx lane long]
    have filled : explodePair p algo soft vaes (hashed p algo input size ctx 0) (hashed p algo input size ctx 1) =
        ((hashed p algo input size ctx 0).explode p algo 0, (hashed p algo input size ctx 1).explode p algo 0) :=
      explodePair_eq soft vaes
    have both := FinVec.etaExpand_eq fun lane => (hashed p algo input size ctx lane).explode p algo 0
    unfold cryptonightDoubleHash
    simp only [long, Bool.false_eq_true, if_false, filled, implodePair_eq,
      show ![(hashed p algo input size ctx 0).explode p algo 0, (hashed p algo input size ctx 1).explode p algo 0] = _
        from both, start_early, iterate_family (doubleIterate_eq soft (p.v4RandomMathInit height))]
    match lane with
    | 0 | 1 => rfl

theorem lanesHash_lane {n : Nat} {explode implode : (Fin n → Context) → Fin n → Context} (soft single : Bool) (input : List Byte)
    (size : Nat) (height : BitVec 64) (ctx : Fin n → Context) (lane : Fin n)
    (fills : ∀ ctx : Fin n → Context, explode (fun lane => (ctx lane).begin (CnAlgo.halfMem algo)) =
      fun lane => ((ctx lane).begin (CnAlgo.halfMem algo)).explode p algo 0)
    (absorbs : ∀ ctx, implode ctx = fun lane => (ctx lane).implode p algo 0) :
    lanesHash p algo explode implode input size height ctx lane =
      cryptonightSingleHash p algo soft single 0 (input.drop (size * lane.val)) size height (ctx lane) := by
  by_cases short : tooShort algo size = true
  · simp only [lanesHash, cryptonightSingleHash, short, if_true]
  · have long := Bool.eq_false_iff.mpr short
    rw [cryptonightSingleHash_lane soft single input size height ctx lane long]
    have filled : explode (hashed p algo input size ctx) =
        fun lane => (hashed p algo input size ctx lane).explode p algo 0 := fills _
    unfold lanesHash
    simp only [long, Bool.false_eq_true, if_false, filled, absorbs,
      iterate_family (lanesIterate_eq (p.v4RandomMathInit height)), laneHash]
    -- The main loops leave the same scratchpad.
    have start := @alike_start algo input lane.val size ((hashed p algo input size ctx lane).explode p algo 0).state
      ((hashed p algo input size ctx lane).explode p algo 0).pad.block
    rw [(@Alike.iterations p algo _ _ start soft (p.v4RandomMathInit height) (CnAlgo.iterations algo)).block]

/-- Every lane of the hashes of several inputs is the single hash of its input. -/
theorem hash_lane (p : Primitives) (algo : Algorithm) (soft vaes single : Bool) (input : List Byte) (size : Nat) (height : BitVec 64) :
    (∀ (ctx : Fin 2 → Context) (lane : Fin 2), cryptonightDoubleHash p algo soft vaes input size height ctx lane =
        cryptonightSingleHash p algo soft single 0 (input.drop (size * lane.val)) size height (ctx lane)) ∧
      (∀ (ctx : Fin 3 → Context) (lane : Fin 3), cryptonightTripleHash p algo soft vaes input size height ctx lane =
        cryptonightSingleHash p algo soft single 0 (input.drop (size * lane.val)) size height (ctx lane)) ∧
      (∀ (ctx : Fin 4 → Context) (lane : Fin 4), cryptonightQuadHash p algo soft vaes input size height ctx lane =
        cryptonightSingleHash p algo soft single 0 (input.drop (size * lane.val)) size height (ctx lane)) ∧
      ∀ (ctx : Fin 5 → Context) (lane : Fin 5), cryptonightPentaHash p algo soft vaes input size height ctx lane =
        cryptonightSingleHash p algo soft single 0 (input.drop (size * lane.val)) size height (ctx lane) := by
  have fills {n : Nat} (ctx : Fin n → Context) : (fun lane => (ctx lane).explodeScratchpad p algo soft vaes 0) =
      fun lane => (ctx lane).explode p algo 0 := funext fun lane => explodeScratchpad_eq soft vaes (fun _ => rfl) (ctx lane)
  have absorbs {n : Nat} (ctx : Fin n → Context) : (fun lane => (ctx lane).implodeScratchpad p algo soft vaes 0) =
      fun lane => (ctx lane).implode p algo 0 := funext fun lane => implodeScratchpad_eq soft vaes (fun _ => rfl) (ctx lane)
  refine ⟨doubleHash_lane soft vaes single input size height, ?_, ?_, ?_⟩
  · intro ctx lane
    exact lanesHash_lane soft single input size height ctx lane (fun _ => fills _) absorbs
  · intro ctx lane
    apply lanesHash_lane soft single input size height ctx lane
    · intro ctx
      simp only [explodePair_eq]
      exact FinVec.etaExpand_eq fun lane => ((ctx lane).begin (CnAlgo.halfMem algo)).explode p algo 0
    · intro ctx
      simp only [implodePair_eq]
      exact FinVec.etaExpand_eq fun lane => (ctx lane).implode p algo 0
  · intro ctx lane
    exact lanesHash_lane soft single input size height ctx lane (fun _ => fills _) absorbs

end Lanes

end Xmrig.Cryptonight
