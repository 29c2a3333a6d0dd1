import Mathlib.Data.Nat.Bitwise
import Xmrig.Cryptonight.MultiLane

/-! CryptoNight as a function of its input.

The reference works on a whole scratchpad that is a function of the state, with no
memory, no layout and no halves. The single hash computes it from any context: in the
plain and in the interleaved layout, and where only half of the memory is in use.

A main loop in a memory is seen through a view: the vectors that it can reach, at their
places, and those of some other scratchpad. Every statement of the loop keeps the view.
-/

set_option autoImplicit false

namespace Xmrig.Cryptonight

open CryptonightR Foundation

/-! ## Views of a memory -/

section View
variable (algo : Algorithm) (interleave limit : Nat)

/-- The vectors below the limit, from their places, and other ones from there on. -/
def view (rest block : Blocks) : Blocks := fun index => if index < limit then block (place interleave index) else rest index

def Scalars.view (rest : Blocks) (x : Scalars) : Scalars := { x with block := Cryptonight.view interleave limit rest x.block }

/-- The addresses of an algorithm are below the limit, with those that a shuffle uses beside them. Only the plain
layout is shuffled. -/
structure Reaches : Prop where
  inside : ∀ idx, slotOf algo idx < limit
  beside : ∀ idx, ∀ k < 4, slotOf algo idx ^^^ k < limit
  plain : CnAlgo.base algo = Algorithm.cn2.id → interleave = 0

theorem place_injective (interleave : Nat) : Function.Injective (place interleave) := by
  intro first second same
  have wide := four_le_increment interleave
  have firstRow : first % 4 < increment interleave := by omega
  have secondRow : second % 4 < increment interleave := by omega
  unfold place at same
  have rows := congrArg (· / increment interleave) same
  have columns := congrArg (· % increment interleave) same
  have some_ : 0 < increment interleave := by omega
  simp only [Nat.add_comm _ (_ % 4), Nat.add_mul_div_right _ _ some_, Nat.div_eq_of_lt firstRow, Nat.div_eq_of_lt secondRow,
    Nat.add_mul_mod_self_right, Nat.mod_eq_of_lt firstRow, Nat.mod_eq_of_lt secondRow] at rows columns
  omega

theorem interleavedIndex_place (interleave k : Nat) : interleavedIndex interleave k / 16 = place interleave (k / 16) := by
  unfold interleavedIndex
  split
  · rename_i zero
    rw [zero, place_zero]
  · have disjoint : (k / 64 * 64) <<< interleave ||| k % 64 = (k / 64 * 64) <<< interleave + k % 64 := by
      have power : (k / 64 * 64) <<< interleave = (k / 64) <<< (6 + interleave) := by
        rw [Nat.shiftLeft_eq, Nat.shiftLeft_eq, Nat.pow_add, Nat.mul_assoc]
      have small : k % 64 < 2 ^ (6 + interleave) := by
        rw [Nat.pow_add]
        have := Nat.two_pow_pos interleave
        omega
      rw [power, Nat.shiftLeft_add_eq_or_of_lt small]
    have rows : k / 16 / 4 = k / 64 := by omega
    have columns : k / 16 % 4 = k % 64 / 16 := by omega
    have scaled : (k / 64 * 64) <<< interleave = 16 * (k / 64 * increment interleave) := by
      rw [Nat.shiftLeft_eq, increment_eq]
      ring
    rw [disjoint, place, rows, columns, scaled]
    omega

variable {algo interleave limit} {rest block : Blocks}

theorem position_place (idx : BitVec 64) : position algo interleave idx = place interleave (slotOf algo idx) :=
  interleavedIndex_place interleave _

theorem view_inside {index : Nat} (inside : index < limit) :
    view interleave limit rest block index = block (place interleave index) := if_pos inside

theorem view_update {index : Nat} (inside : index < limit) (value : M128) :
    view interleave limit rest (Function.update block (place interleave index) value) =
      Function.update (view interleave limit rest block) index value := by
  funext other
  by_cases here : other = index
  · subst here
    rw [view_inside inside, Function.update_self, Function.update_self]
  · rw [Function.update_of_ne here]
    unfold view
    split
    · rw [Function.update_of_ne fun same => here (place_injective interleave same)]
    · rfl

theorem view_setLow {index : Nat} (inside : index < limit) (value : BitVec 64) :
    view interleave limit rest (block.setLow (place interleave index) value) =
      (view interleave limit rest block).setLow index value := by
  unfold Blocks.setLow
  rw [view_update inside, view_inside inside]

theorem view_setHigh {index : Nat} (inside : index < limit) (value : BitVec 64) :
    view interleave limit rest (block.setHigh (place interleave index) value) =
      (view interleave limit rest block).setHigh index value := by
  unfold Blocks.setHigh
  rw [view_update inside, view_inside inside]

end View

/-! ## The statements of the loop keep a view -/

section Keeps
variable {p : Primitives} {algo : Algorithm} {interleave limit : Nat} {rest : Blocks}

theorem shuffle_view {offset : Nat} (plain : interleave = 0) (inside : ∀ k < 4, offset ^^^ k < limit) (block : Blocks)
    (a b b1 c : M128) (reverse : Bool) :
    variant2Shuffle algo (view interleave limit rest block) offset a b b1 c reverse =
      (view interleave limit rest (variant2Shuffle algo block offset a b b1 c reverse).1,
        (variant2Shuffle algo block offset a b b1 c reverse).2) := by
  subst plain
  have first := inside 1 (by omega)
  have second := inside 2 (by omega)
  have third := inside 3 (by omega)
  have write := fun (index : Nat) (below : index < limit) (block : Blocks) => @view_update 0 limit rest block index below
  simp only [place_zero] at write
  cases reverse <;>
    simp only [variant2Shuffle, write _ first, write _ second, write _ third, view_inside first, view_inside second,
      view_inside third, place_zero, if_true, Bool.false_eq_true, if_false]

theorem shuffle2_view {offset : Nat} (plain : interleave = 0) (inside : ∀ k < 4, offset ^^^ k < limit) (block : Blocks)
    (a b b1 : M128) (hi lo : BitVec 64) (reverse : Bool) :
    variant2Shuffle2 (view interleave limit rest block) offset a b b1 hi lo reverse =
      (view interleave limit rest (variant2Shuffle2 block offset a b b1 hi lo reverse).1,
        (variant2Shuffle2 block offset a b b1 hi lo reverse).2) := by
  subst plain
  have first := inside 1 (by omega)
  have second := inside 2 (by omega)
  have third := inside 3 (by omega)
  have write := fun (index : Nat) (below : index < limit) (block : Blocks) => @view_update 0 limit rest block index below
  simp only [place_zero] at write
  cases reverse <;>
    simp only [variant2Shuffle2, write _ first, write _ second, write _ third, view_inside first, view_inside second,
      view_inside third, place_zero, if_true, Bool.false_eq_true, if_false]

variable (reaches : Reaches algo interleave limit)
include reaches

theorem load_view (idx : BitVec 64) (block : Blocks) :
    view interleave limit rest block (position algo 0 idx) = block (position algo interleave idx) := by
  rw [position_zero, view_inside (reaches.inside idx), position_place]

theorem loadTweaked_view (x : Scalars) :
    (x.loadTweaked p algo interleave).view interleave limit rest = (x.view interleave limit rest).loadTweaked p algo 0 := by
  unfold Scalars.loadTweaked Scalars.view
  simp only [load_view reaches]
  split <;> rfl

theorem loadRound_view (x : Scalars) :
    ((x.load p algo false interleave).round p algo false interleave).view interleave limit rest =
      ((x.view interleave limit rest).load p algo false 0).round p algo false 0 := by
  have loaded := @loadTweaked_view p algo interleave limit rest reaches x
  unfold Scalars.load Scalars.round
  simp only [Bool.not_false, or_true, if_true, ← loaded]
  split <;> rfl

theorem store_view (x : Scalars) :
    (x.store algo interleave).view interleave limit rest = (x.view interleave limit rest).store algo 0 := by
  have inside := reaches.inside x.idx
  unfold Scalars.store Scalars.view
  simp only [position_place, place_zero]
  split
  · unfold cryptonightMoneroTweak
    by_cases cn2 : CnAlgo.base algo = Algorithm.cn2.id
    · simp only [if_pos cn2, shuffle_view (reaches.plain cn2) (reaches.beside x.idx), view_update inside]
    · simp only [if_neg cn2, view_setLow inside, view_setHigh inside]
  · simp only [view_update inside]

theorem multiply_view (code : List V4Instruction) (x : Scalars) :
    (x.multiply p algo code interleave).view interleave limit rest =
      (x.view interleave limit rest).multiply p algo code 0 := by
  have inside := reaches.inside x.idx
  have twice : CnAlgo.base algo = Algorithm.cn2.id → ¬(algo = .cnHeavyTube ∨ algo = .cnRto) :=
    fun cn2 twice => cn1_ne_cn2 ((base_of_twice twice).symm.trans cn2)
  unfold Scalars.multiply Scalars.view
  simp only [position_place, place_zero, view_inside inside]
  by_cases cn2 : CnAlgo.base algo = Algorithm.cn2.id
  · have beside := reaches.beside x.idx
    have plain := reaches.plain cn2
    have notCn1 : CnAlgo.base algo ≠ Algorithm.cn1.id := fun cn1 => cn1_ne_cn2 (cn1.symm.trans cn2)
    by_cases cnR : algo = .cnR
    · have isR : CnAlgo.isR algo := by simp [CnAlgo.isR, cnR]
      simp only [if_pos cn2, if_pos isR, if_pos cnR, if_neg (twice cn2), if_neg notCn1, shuffle_view plain beside,
        view_setLow inside, view_setHigh inside]
    · have notR : ¬CnAlgo.isR algo := by simp [CnAlgo.isR, cnR]
      simp only [if_pos cn2, if_neg notR, if_neg cnR, if_neg (twice cn2), if_neg notCn1, shuffle2_view plain beside,
        view_setLow inside, view_setHigh inside]
  · simp only [if_neg cn2]
    split
    · simp only [view_setLow inside, view_setHigh inside]
    · split
      all_goals simp only [view_setLow inside, view_setHigh inside]

theorem divide_view (x : Scalars) :
    (x.divide64 p algo interleave).view interleave limit rest = (x.view interleave limit rest).divide64 p algo 0 := by
  have inside := reaches.inside x.idx
  unfold Scalars.divide64 Scalars.view
  simp only [position_place, place_zero, view_inside inside]
  split
  · simp only [view_setLow inside]
  · rfl

omit reaches in
theorem shift_view (x : Scalars) :
    (x.shift algo).view interleave limit rest = (x.view interleave limit rest).shift algo := by
  unfold Scalars.shift Scalars.view
  split <;> rfl

theorem iterate_view (soft : Bool) (code : List V4Instruction) (x : Scalars) :
    (x.iterate p algo soft code interleave).view interleave limit rest =
      (x.view interleave limit rest).iterate p algo false code 0 := by
  rw [iterate_soft]
  unfold Scalars.iterate
  simp only [shift_view, divide_view reaches, multiply_view reaches, store_view reaches, loadRound_view reaches]

theorem iterations_view (soft : Bool) (code : List V4Instruction) (count : Nat) (x : Scalars) :
    ((Scalars.iterate p algo soft code interleave)^[count] x).view interleave limit rest =
      (Scalars.iterate p algo false code 0)^[count] (x.view interleave limit rest) :=
  (show Function.Semiconj (Scalars.view interleave limit rest) _ _ from iterate_view reaches soft code).iterate_right count x

end Keeps

/-! ## What the algorithms reach -/

/-- What the sizes and masks of the algorithms have in common. -/
def Sized (algo : Algorithm) : Prop :=
  CnAlgo.memory algo % 8192 = 0 ∧ 0 < CnAlgo.memory algo ∧
    (CnAlgo.mask algo < 2 ^ 64 ∧ 2 ≤ (CnAlgo.mask algo / 16 + 1).log2 ∧
      CnAlgo.mask algo / 16 + 1 = 2 ^ (CnAlgo.mask algo / 16 + 1).log2) ∧
    CnAlgo.mask algo / 16 + 1 ≤ vectorCount (CnAlgo.memory algo) (CnAlgo.halfMem algo) ∧
    (CnAlgo.isHeavy algo = true → CnAlgo.halfMem algo = false ∧ CnAlgo.base algo ≠ Algorithm.cn2.id)

instance (algo : Algorithm) : Decidable (Sized algo) := inferInstanceAs (Decidable (_ ∧ _))

theorem sized {algo : Algorithm} (cn : algo.isCN = true) : Sized algo := by
  revert cn
  cases algo <;> decide

theorem slotOf_le (algo : Algorithm) (narrow : CnAlgo.mask algo < 2 ^ 64) (idx : BitVec 64) :
    slotOf algo idx < CnAlgo.mask algo / 16 + 1 := by
  have below : (idx &&& BitVec.ofNat 64 (CnAlgo.mask algo)).toNat ≤ CnAlgo.mask algo := by
    rw [BitVec.toNat_and, BitVec.toNat_ofNat, Nat.mod_eq_of_lt narrow]
    exact Nat.and_le_right
  have divided : slotOf algo idx ≤ CnAlgo.mask algo / 16 := Nat.div_le_div_right below
  omega

/-- A layout that an algorithm is hashed in: the interleaved one is for the heavy variants. -/
def Layout (algo : Algorithm) (interleave : Nat) : Prop := interleave = 0 ∨ interleave = 3 ∧ CnAlgo.isHeavy algo = true

theorem Layout.plain {algo : Algorithm} {interleave : Nat} (layout : Layout algo interleave)
    (light : CnAlgo.isHeavy algo = false) : interleave = 0 := by
  rcases layout with plain | ⟨-, heavy⟩
  · exact plain
  · rw [light] at heavy
    cases heavy

theorem Sized.reaches {algo : Algorithm} (sizes : Sized algo) {interleave : Nat} (layout : Layout algo interleave) :
    Reaches algo interleave (vectorCount (CnAlgo.memory algo) (CnAlgo.halfMem algo)) := by
  obtain ⟨-, -, ⟨narrow, atLeast, power⟩, enough, heavy⟩ := sizes
  have below := slotOf_le algo narrow
  refine ⟨fun idx => Nat.lt_of_lt_of_le (below idx) enough, fun idx k small => ?_, ?_⟩
  · -- The mask ends at a power of two, which an exclusive or with less than four stays below.
    have four : k < 2 ^ (CnAlgo.mask algo / 16 + 1).log2 :=
      Nat.lt_of_lt_of_le small (Nat.pow_le_pow_right (show 0 < 2 by omega) atLeast)
    have index := below idx
    rw [power] at index
    exact Nat.lt_of_lt_of_le (Nat.xor_lt_two_pow index four) (power ▸ enough)
  · rintro cn2
    rcases layout with plain | ⟨-, isHeavy⟩
    · exact plain
    · exact absurd cn2 (heavy isHeavy).2

/-! ## The reference -/

section Reference
variable (p : Primitives) (algo : Algorithm)

def spread (state : State) : Blocks :=
  let keys := aesGenkey p.aes (state 0) (state 1)
  filled p.aes keys (if CnAlgo.isHeavy algo then (heavyRound p.aes keys)^[16] (stateLanes state) else stateLanes state)

def takeUp (state : State) (block : Blocks) : State :=
  storeState state (implodeLanes p.aes (aesGenkey p.aes (state 2) (state 3)) (CnAlgo.isHeavy algo) block
    (CnAlgo.memory algo / 128) (stateLanes state))

def mainLoop (input : List Byte) (size : Nat) (height : BitVec 64) (state : State) (block : Blocks) : Blocks :=
  ((Scalars.iterate p algo false (p.v4RandomMathInit height) 0)^[CnAlgo.iterations algo]
    (Scalars.start algo input 0 size state block)).block

def hashedWords (input : List Byte) (size : Nat) (height : BitVec 64) (state : State) : Fin 25 → BitVec 64 :=
  words (takeUp p algo state (mainLoop p algo input size height state (spread p algo state)))

theorem twentyFive_neZero : NeZero (25 : Nat) := ⟨by decide⟩

attribute [local instance] twentyFive_neZero in
def cryptonight (input : List Byte) (size : Nat) (height : BitVec 64) : BitVec 256 :=
  if tooShort algo size then 0
  else
    let final := p.keccakf (hashedWords p algo input size height (State.setBytes (fun _ => 0) (p.keccak (input.take size))))
    p.extraHashes ((final 0).setWidth 2) final

end Reference

/-! ## Filling, a loop and absorbing -/

section Scratchpads
variable {p : Primitives} {algo : Algorithm} {interleave : Nat} {loop own : Blocks → Blocks}

theorem implodeLanes_congr {aes : Aes} {keys : Keys M128} {heavy : Bool} {block other : Blocks} {passes : Nat}
    (same : ∀ index < 8 * passes, block index = other index) (lanes : Lanes) :
    implodeLanes aes keys heavy block passes lanes = implodeLanes aes keys heavy other passes lanes := by
  unfold implodeLanes
  simp only [absorb_congr same]

theorem view_filled {limit : Nat} {whole block : Blocks} (same : ∀ index < limit, block (place interleave index) = whole index) :
    view interleave limit whole block = whole := by
  funext index
  unfold view
  split
  · rename_i inside
    exact same index inside
  · rfl

theorem whole_takenUp {passes tail : Nat} (geometry : Geometry interleave (CnAlgo.memory algo) false passes tail)
    (count : CnAlgo.memory algo / 128 = passes) (half : CnAlgo.halfMem algo = false) (ctx : Context)
    (seen : ∀ rest block, view interleave (8 * passes) rest (loop block) = own (view interleave (8 * passes) rest block)) :
    (((((ctx.begin (CnAlgo.halfMem algo)).explode p algo interleave).withBlock
      (loop ((ctx.begin (CnAlgo.halfMem algo)).explode p algo interleave).pad.block)).implode p algo interleave).state) =
      takeUp p algo ctx.state (own (spread p algo ctx.state)) := by
  unfold Context.explode Context.implode
  rw [half]
  have room := Nat.le_max_right ctx.pad.reach (increment interleave * 2 * passes)
  have reach := Nat.le_max_left ctx.pad.reach (increment interleave * 2 * passes)
  obtain ⟨blocks, inside, state, -, -⟩ := @cnExplode_spec p.aes interleave (CnAlgo.memory algo) passes tail _
    (CnAlgo.isHeavy algo) false (ctx.begin false) geometry room reach
  generalize cnExplodeScratchpad p.aes interleave (CnAlgo.memory algo) (CnAlgo.isHeavy algo) false (ctx.begin false) =
    exploded at blocks inside state
  obtain ⟨final, -⟩ := @cnImplode_whole p.aes interleave (CnAlgo.memory algo) passes tail _ (CnAlgo.isHeavy algo)
    (exploded.withBlock (loop exploded.pad.block)) geometry room inside
  -- The loop saw the scratchpad of the state, and what it left is seen the same way.
  have after := seen (spread p algo ctx.state) exploded.pad.block
  rw [show view interleave (8 * passes) (spread p algo ctx.state) exploded.pad.block = _ from view_filled blocks] at after
  have left_ : ∀ index < 8 * passes,
      loop exploded.pad.block (place interleave index) = own (spread p algo ctx.state) index := by
    intro index below
    rw [← after, view_inside below]
  rw [final]
  simp only [Context.withBlock, state, takeUp, count]
  rw [implodeLanes_congr left_]
  rfl

theorem half_takenUp {passes tail : Nat} (geometry : Geometry 0 (CnAlgo.memory algo) true passes tail)
    (count : CnAlgo.memory algo / 128 = passes + passes) (half : CnAlgo.halfMem algo = true)
    (light : CnAlgo.isHeavy algo = false) (ctx : Context)
    (seen : ∀ rest block, view 0 (8 * passes) rest (loop block) = own (view 0 (8 * passes) rest block)) :
    (((((ctx.begin (CnAlgo.halfMem algo)).explode p algo 0).withBlock
      (loop ((ctx.begin (CnAlgo.halfMem algo)).explode p algo 0).pad.block)).implode p algo 0).state) =
      takeUp p algo ctx.state (own (spread p algo ctx.state)) := by
  unfold Context.explode Context.implode
  rw [half, light]
  have room := Nat.le_max_right ctx.pad.reach (8 * passes)
  have reach := Nat.le_max_left ctx.pad.reach (8 * passes)
  have same : spread p algo ctx.state = scratchpad p.aes ctx.state := by
    simp only [spread, light, Bool.false_eq_true, if_false, scratchpad]
  have blocks := (@explode_scratchpad p.aes ctx _ _ _ _ true geometry room reach).1
  have after := seen (scratchpad p.aes ctx.state)
    (cnExplodeScratchpad p.aes 0 (CnAlgo.memory algo) false true (ctx.begin true)).pad.block
  have whole := @view_filled 0 (8 * passes) (scratchpad p.aes ctx.state)
    (cnExplodeScratchpad p.aes 0 (CnAlgo.memory algo) false true (ctx.begin true)).pad.block
    fun index below => by rw [place_zero]; exact blocks index below
  rw [whole] at after
  obtain ⟨final, -⟩ := @half_absorbed p.aes ctx _ _ _ _ geometry room reach
    (loop (cnExplodeScratchpad p.aes 0 (CnAlgo.memory algo) false true (ctx.begin true)).pad.block)
    (own (scratchpad p.aes ctx.state))
    (fun index below => by rw [← after, view_inside below, place_zero])
    fun index beyond => by rw [← after, view, if_neg (by omega)]
  rw [final, same]
  simp only [takeUp, light, count, implodeLanes, Bool.false_eq_true, if_false, absorbedState]

theorem vectorCount_half {units : Nat} (half : Bool) : vectorCount (8192 * units) half =
    8 * if half then 32 * units else 64 * units := by
  cases half with
  | false =>
    simp only [vectorCount, Bool.false_eq_true, if_false]
    omega
  | true =>
    simp only [vectorCount, if_true]
    omega

theorem takenUp (sizes : Sized algo) (layout : Layout algo interleave) (ctx : Context)
    (seen : ∀ rest block,
      view interleave (vectorCount (CnAlgo.memory algo) (CnAlgo.halfMem algo)) rest (loop block) =
        own (view interleave (vectorCount (CnAlgo.memory algo) (CnAlgo.halfMem algo)) rest block)) :
    (((((ctx.begin (CnAlgo.halfMem algo)).explode p algo interleave).withBlock
      (loop ((ctx.begin (CnAlgo.halfMem algo)).explode p algo interleave).pad.block)).implode p algo interleave).state) =
      takeUp p algo ctx.state (own (spread p algo ctx.state)) := by
  obtain ⟨aligned, some_, -, -, heavy⟩ := sizes
  obtain ⟨units, memory⟩ : ∃ units, CnAlgo.memory algo = 8192 * units := ⟨CnAlgo.memory algo / 8192, by omega⟩
  rw [memory, vectorCount_half] at seen
  have counted := @vectorCount_half units
  cases half : CnAlgo.halfMem algo with
  | false =>
    simp only [half, Bool.false_eq_true, if_false] at seen
    have fits : ∃ tail, Geometry interleave (CnAlgo.memory algo) false (64 * units) tail := by
      rw [memory]
      rcases layout with rfl | ⟨rfl, -⟩
      · exact ⟨16, counted false, rfl, by omega⟩
      · exact ⟨2, counted false, rfl, by omega⟩
    obtain ⟨tail, geometry⟩ := fits
    have whole := @whole_takenUp p algo interleave loop own _ _ geometry (by omega) half ctx seen
    rwa [half] at whole
  | true =>
    -- Heavy variants use the whole memory, so the layout is the plain one.
    have light : CnAlgo.isHeavy algo = false := by
      by_contra heavy_
      rw [(heavy (Bool.eq_true_of_not_eq_false heavy_)).1] at half
      cases half
    obtain rfl := layout.plain light
    simp only [half, if_true] at seen
    have geometry : Geometry 0 (CnAlgo.memory algo) true (32 * units) 16 := by
      rw [memory]
      exact ⟨counted true, rfl, by omega⟩
    have halved := @half_takenUp p algo loop own _ _ geometry (by omega) half light ctx seen
    rwa [half] at halved

end Scratchpads

/-! ## The single hash computes the reference -/

section Hash
variable {p : Primitives} {algo : Algorithm}

theorem words_setBytes (state : State) (bytes : Fin 25 → BitVec 64) : words (state.setBytes bytes) = bytes := by
  funext index
  have inside := index.isLt
  have vector : (Fin.ofNat 14 (index.val / 2)).val = index.val / 2 := Nat.mod_eq_of_lt (by omega)
  simp only [words, word, State.setBytes, vector]
  split
  · have back : 2 * (index.val / 2) = index.val := by omega
    simp only [low_setWords, back, dif_pos inside]
  · have back : 2 * (index.val / 2) + 1 = index.val := by omega
    simp only [high_setWords, back, dif_pos inside]

variable {state other : State}

theorem word_congr (same : words state = words other) (index : Nat) (inside : index < 25) :
    word state index = word other index := congrFun same ⟨index, inside⟩

theorem vector_congr (same : words state = words other) (index : Fin 14) (inside : index.val < 12) :
    state index = other index := by
  have lows := word_congr same (2 * index.val) (by omega)
  have highs := word_congr same (2 * index.val + 1) (by omega)
  have even : 2 * index.val / 2 = index.val := by omega
  have odd : (2 * index.val + 1) / 2 = index.val := by omega
  have zero : 2 * index.val % 2 = 0 := by omega
  have one : ¬(2 * index.val + 1) % 2 = 0 := by omega
  simp only [word, even, odd, if_pos zero, if_neg one, Fin.ofNat_val_eq_self] at lows highs
  rw [← setWords_low_high (state index), ← setWords_low_high (other index), lows, highs]

theorem stateLanes_congr (same : words state = words other) : stateLanes state = stateLanes other := by
  funext lane
  have eight := lane.isLt
  exact vector_congr same _ (by simp only; omega)

theorem start_congr (same : words state = words other) (input : List Byte) (part size : Nat) (block : Blocks) :
    Scalars.start algo input part size state block = Scalars.start algo input part size other block := by
  have each := word_congr same
  simp only [Scalars.start, variant1Init, variant4Init, each 0 (by omega), each 1 (by omega), each 2 (by omega),
    each 3 (by omega), each 4 (by omega), each 5 (by omega), each 6 (by omega), each 7 (by omega), each 8 (by omega),
    each 9 (by omega), each 10 (by omega), each 11 (by omega), each 12 (by omega), each 13 (by omega), each 24 (by omega)]

theorem words_storeState (same : words state = words other) (lanes : Lanes) :
    words (storeState state lanes) = words (storeState other lanes) := by
  funext index
  have word_ := congrFun same index
  simp only [words, word, storeState] at word_ ⊢
  by_cases inside : 4 ≤ (Fin.ofNat 14 (index.val / 2)).val ∧ (Fin.ofNat 14 (index.val / 2)).val < 12
  · simp only [dif_pos inside]
  · simp only [dif_neg inside]
    exact word_

theorem hashedWords_congr (same : words state = words other) (input : List Byte) (size : Nat) (height : BitVec 64) :
    hashedWords p algo input size height state = hashedWords p algo input size height other := by
  have each := fun index : Fin 14 => vector_congr same index
  unfold hashedWords takeUp mainLoop spread
  rw [each 0 (by decide), each 1 (by decide), each 2 (by decide), each 3 (by decide), stateLanes_congr same,
    start_congr same]
  exact words_storeState same _

/-- In both layouts, with the whole or half of the memory and whatever was in the context, the single hash is CryptoNight. -/
theorem cryptonightSingleHash_eq (p : Primitives) {algo : Algorithm} (cn : algo.isCN = true) {interleave : Nat}
    (layout : Layout algo interleave) (soft vaes : Bool) (input : List Byte) (size : Nat) (height : BitVec 64) (ctx : Context) :
    cryptonightSingleHash p algo soft vaes interleave input size height ctx = cryptonight p algo input size height := by
  by_cases short : tooShort algo size = true
  · simp only [cryptonightSingleHash, cryptonight, short, if_true]
  · have sizes := sized cn
    have reaches := sizes.reaches layout
    generalize inHashed : ctx.keccak p (input.take size) = hashed
    have whole := @takenUp p algo interleave
      (fun block => ((Scalars.iterate p algo soft (p.v4RandomMathInit height) interleave)^[CnAlgo.iterations algo]
        (Scalars.start algo input 0 size hashed.state block)).block)
      (mainLoop p algo input size height hashed.state) sizes layout hashed (by
        intro rest block
        exact congrArg Scalars.block (@iterations_view p algo interleave _ rest reaches soft (p.v4RandomMathInit height)
          (CnAlgo.iterations algo) (Scalars.start algo input 0 size hashed.state block)))
    have begun : ((hashed.begin (CnAlgo.halfMem algo)).explode p algo interleave).state = hashed.state := by
      rw [explode_state]
      cases CnAlgo.halfMem algo <;> rfl
    have bytes : words hashed.state = words (State.setBytes (fun _ => 0) (p.keccak (input.take size))) := by
      rw [← inHashed, words_setBytes]
      exact words_setBytes _ _
    have final := @hashedWords_congr p algo _ _ bytes input size height
    simp only [cryptonightSingleHash, cryptonight, if_neg short, inHashed, Context.finish,
      explodeScratchpad_eq soft vaes layout.plain, implodeScratchpad_eq soft vaes layout.plain, begun]
    rw [whole, ← final]
    rfl

attribute [local instance] twentyFive_neZero in
def mixing : Primitives where
  aes := rotateAes
  aesRoundTweakDiv := fun value key => value ^^^ key
  concealTweak := fun value variable_ => (value ^^^ variable_, variable_ + value)
  intSqrtV2 := fun value => value >>> 32
  divide := BitVec.sdiv
  v4RandomMathInit := fun _ => []
  keccak := fun input index => BitVec.ofNat 64 (input.length + index.val)
  keccakf := fun words index => words index + 1
  extraHashes := fun chosen words => chosen.setWidth 256 + (words 1).setWidth 256

theorem cryptonightSingleHash_eq_heavy :
    Algorithm.cnHeavyXhv.isCN = true ∧ Layout .cnHeavyXhv 3 ∧
      cryptonightSingleHash mixing .cnHeavyXhv true true 3 [1, 2, 3] 3 0 (numbered 7) =
        cryptonight mixing .cnHeavyXhv [1, 2, 3] 3 0 :=
  ⟨by decide, .inr ⟨rfl, by decide⟩,
    cryptonightSingleHash_eq mixing (by decide) (.inr ⟨rfl, by decide⟩) true true [1, 2, 3] 3 0 (numbered 7)⟩

end Hash

end Xmrig.Cryptonight
