import Xmrig.Cryptonight.Vaes

/-! Half of the memory.

A main loop that stays in the first half of the scratchpad never needs the second
one before it is absorbed. It is then made in the place of the first half, from
where filling the first half ended.
-/

set_option autoImplicit false

namespace Xmrig.Cryptonight

/-- `first_half` as the hash functions set it. -/
def Context.begin (half : Bool) (ctx : Context) : Context := if half then { ctx with firstHalf := true } else ctx

def Context.withBlock (ctx : Context) (block : Nat → M128) : Context := { ctx with pad := { ctx.pad with block } }

section Scheme
variable {aes : Aes} {ctx : Context} {memory passes tail bound : Nat}

theorem increment_zero : increment 0 = 4 := rfl

theorem place_zero (index : Nat) : place 0 index = index := by
  rw [place, increment_zero]
  omega

/-- The vectors of the whole scratchpad that a state is filled to. -/
def scratchpad (aes : Aes) (state : State) : Nat → M128 :=
  filled aes (aesGenkey aes (state 0) (state 1)) (stateLanes state)

def absorbedState (aes : Aes) (state : State) (block : Nat → M128) (passes : Nat) : State :=
  storeState state (absorb aes (aesGenkey aes (state 2) (state 3)) false block passes (stateLanes state))

theorem explode_scratchpad {half : Bool} (geometry : Geometry 0 memory half passes tail) (room : 8 * passes ≤ bound)
    (reach : ctx.pad.reach ≤ bound) :
    (∀ index < 8 * passes, (cnExplodeScratchpad aes 0 memory false half (ctx.begin half)).pad.block index =
        scratchpad aes ctx.state index) ∧
      (cnExplodeScratchpad aes 0 memory false half (ctx.begin half)).pad.reach ≤ bound ∧
      (cnExplodeScratchpad aes 0 memory false half (ctx.begin half)).state = ctx.state ∧
      (half = true → (cnExplodeScratchpad aes 0 memory false half (ctx.begin half)).saveState =
        chain aes (aesGenkey aes (ctx.state 0) (ctx.state 1)) (stateLanes ctx.state) passes) := by
  have room' : increment 0 * 2 * passes ≤ bound := by
    rw [increment_zero]
    omega
  cases half with
  | false =>
    obtain ⟨blocks, inside, state, -, -⟩ := @cnExplode_spec aes 0 memory passes tail bound false false ctx geometry room' reach
    refine ⟨fun index small => ?_, inside, state, fun impossible => by cases impossible⟩
    have block := blocks index small
    rwa [place_zero] at block
  | true =>
    obtain ⟨blocks, inside, state, -, saved⟩ := @cnExplode_spec aes 0 memory passes tail bound false true
      (ctx.begin true) geometry room' reach
    refine ⟨fun index small => ?_, inside, state, fun _ => saved⟩
    have block := blocks index small
    rwa [place_zero] at block

theorem cnImplode_half (geometry : Geometry 0 memory true passes tail) (room : 8 * passes ≤ bound)
    (reach : ctx.pad.reach ≤ bound) :
    (cnImplodeScratchpad aes 0 memory false true ctx).state =
        storeState ctx.state (absorb aes (aesGenkey aes (ctx.state 2) (ctx.state 3)) false
          (filled aes (aesGenkey aes (ctx.state 0) (ctx.state 1)) ctx.saveState) passes
          (absorb aes (aesGenkey aes (ctx.state 2) (ctx.state 3)) false ctx.pad.block passes (stateLanes ctx.state))) ∧
      (cnImplodeScratchpad aes 0 memory false true ctx).pad.reach ≤ bound := by
  have room' : increment 0 * 2 * passes ≤ bound := by
    rw [increment_zero]
    omega
  generalize inKeys : aesGenkey aes (ctx.state 2) (ctx.state 3) = keys
  have first := @implodeLoop_absorbed aes keys false 0 bound passes ctx.pad (fun i => decide (i < 8 * passes)) room'
    (fun i inside => of_decide_eq_true inside) reach (stateLanes ctx.state)
  generalize middle : implodeLoop aes keys 0 false (fun i => decide (i < 8 * passes)) (8 * passes) (stateLanes ctx.state)
    ctx.pad = absorbed at first
  obtain ⟨blocks, inside, -, -, -⟩ := @cnExplode_spec aes 0 memory passes tail bound false true
    { ctx with pad := absorbed.pad, firstHalf := false } geometry room' first.reach
  have second := @implodeLoop_absorbed aes keys false 0 bound passes
    (cnExplodeScratchpad aes 0 memory false true { ctx with pad := absorbed.pad, firstHalf := false }).pad
    (fun i => decide (i < 8 * passes)) room' (fun i inside => of_decide_eq_true inside) inside absorbed.lanes
  simp only [cnImplodeScratchpad, geometry.count, Bool.false_eq_true, if_false, if_true, inKeys, middle]
  refine ⟨?_, second.reach⟩
  have lanes := first.lanes
  simp only [place_zero] at lanes
  rw [second.lanes, lanes, absorb_congr blocks]
  rfl

theorem whole_absorbed (geometry : Geometry 0 memory false passes tail) (room : 8 * passes ≤ bound)
    (reach : ctx.pad.reach ≤ bound) {block target : Nat → M128} (same : ∀ index < 8 * passes, block index = target index) :
    (cnImplodeScratchpad aes 0 memory false false
        ((cnExplodeScratchpad aes 0 memory false false (ctx.begin false)).withBlock block)).state =
      absorbedState aes ctx.state target passes := by
  obtain ⟨-, inside, state, -⟩ := @explode_scratchpad aes ctx memory passes tail bound false geometry room reach
  generalize cnExplodeScratchpad aes 0 memory false false (ctx.begin false) = exploded at inside state
  have room' : increment 0 * 2 * passes ≤ bound := by
    rw [increment_zero]
    omega
  obtain ⟨final, -⟩ := @cnImplode_whole aes 0 memory passes tail bound false (exploded.withBlock block) geometry room' inside
  rw [final]
  simp only [Context.withBlock, state, implodeLanes, Bool.false_eq_true, if_false, place_zero, absorbedState]
  rw [absorb_congr same]

theorem half_absorbed (geometry : Geometry 0 memory true passes tail) (room : 8 * passes ≤ bound)
    (reach : ctx.pad.reach ≤ bound) {block target : Nat → M128} (same : ∀ index < 8 * passes, block index = target index)
    (untouched : ∀ index, 8 * passes ≤ index → target index = scratchpad aes ctx.state index) :
    (cnImplodeScratchpad aes 0 memory false true
        ((cnExplodeScratchpad aes 0 memory false true (ctx.begin true)).withBlock block)).state =
        absorbedState aes ctx.state target (passes + passes) ∧
      (cnImplodeScratchpad aes 0 memory false true
        ((cnExplodeScratchpad aes 0 memory false true (ctx.begin true)).withBlock block)).pad.reach ≤ bound := by
  obtain ⟨-, inside, state, saved⟩ := @explode_scratchpad aes ctx memory passes tail bound true geometry room reach
  have kept := saved rfl
  generalize cnExplodeScratchpad aes 0 memory false true (ctx.begin true) = exploded at inside state kept
  obtain ⟨final, touched⟩ := @cnImplode_half aes (exploded.withBlock block) memory passes tail bound geometry room inside
  refine ⟨?_, touched⟩
  have rest : filled aes (aesGenkey aes (ctx.state 0) (ctx.state 1)) exploded.saveState = fun index =>
      target (8 * passes + index) := by
    funext index
    rw [untouched _ (by omega), scratchpad, filled_add, kept]
  rw [final, absorbedState, absorb_add]
  simp only [Context.withBlock, state, rest]
  rw [absorb_congr same]

end Scheme

/-! ## The three implementations -/

/-- A main loop that only accesses the vectors below a limit. -/
structure Local (loop : (Nat → M128) → Nat → M128) (limit : Nat) : Prop where
  reads : ∀ {block other : Nat → M128}, (∀ index < limit, block index = other index) →
    ∀ index < limit, loop block index = loop other index
  writes : ∀ (block : Nat → M128) {index : Nat}, limit ≤ index → loop block index = block index

/-- A main loop over two memories. -/
abbrev PairLoop := (Nat → M128) × (Nat → M128) → (Nat → M128) × (Nat → M128)

structure LocalPair (loop : PairLoop) (limit : Nat) : Prop where
  reads : ∀ {blocks others : (Nat → M128) × (Nat → M128)}, (∀ index < limit, blocks.1 index = others.1 index) →
    (∀ index < limit, blocks.2 index = others.2 index) →
      ∀ index < limit, (loop blocks).1 index = (loop others).1 index ∧ (loop blocks).2 index = (loop others).2 index
  writes : ∀ (blocks : (Nat → M128) × (Nat → M128)) {index : Nat}, limit ≤ index →
    (loop blocks).1 index = blocks.1 index ∧ (loop blocks).2 index = blocks.2 index

/-- The implementations for one context. -/
inductive Implementation where
  | plain
  | vaes
  deriving DecidableEq, Repr

def Implementation.explode (aes : Aes) (memory : Nat) (half : Bool) : Implementation → Context → Context
  | plain => cnExplodeScratchpad aes 0 memory false half
  | vaes => cnExplodeScratchpadVaes aes memory half

def Implementation.implode (aes : Aes) (memory : Nat) (half : Bool) : Implementation → Context → Context
  | plain => cnImplodeScratchpad aes 0 memory false half
  | vaes => cnImplodeScratchpadVaes aes memory half

section Schemes
variable (aes : Aes) (memory : Nat) (half : Bool)

def scheme (implementation : Implementation) (loop : (Nat → M128) → Nat → M128) (ctx : Context) : Context :=
  let exploded := implementation.explode aes memory half (ctx.begin half)
  implementation.implode aes memory half (exploded.withBlock (loop exploded.pad.block))

def doubleScheme (loop : PairLoop) (ctx1 ctx2 : Context) : Context × Context :=
  let exploded := cnExplodeScratchpadVaesDouble aes memory half (ctx1.begin half) (ctx2.begin half)
  let blocks := loop (exploded.1.pad.block, exploded.2.pad.block)
  cnImplodeScratchpadVaesDouble aes memory half (exploded.1.withBlock blocks.1) (exploded.2.withBlock blocks.2)

def pairScheme (loop : PairLoop) (ctx1 ctx2 : Context) : Context × Context :=
  let exploded1 := cnExplodeScratchpad aes 0 memory false half (ctx1.begin half)
  let exploded2 := cnExplodeScratchpad aes 0 memory false half (ctx2.begin half)
  let blocks := loop (exploded1.pad.block, exploded2.pad.block)
  (cnImplodeScratchpad aes 0 memory false half (exploded1.withBlock blocks.1),
    cnImplodeScratchpad aes 0 memory false half (exploded2.withBlock blocks.2))

end Schemes

section Equal
variable {aes : Aes} {memory : Nat}

theorem scheme_plain (whole : memory % 8192 = 0) (half : Bool) (implementation : Implementation)
    (loop : (Nat → M128) → Nat → M128) (ctx : Context) :
    scheme aes memory half implementation loop ctx = scheme aes memory half .plain loop ctx := by
  cases implementation with
  | plain => rfl
  | vaes =>
    have even : memory % 64 < 16 := by omega
    simp only [scheme, Implementation.explode, Implementation.implode, cnExplodeScratchpadVaes_eq even,
      cnImplodeScratchpadVaes_eq even]

theorem doubleScheme_pair (loop : PairLoop) (ctx1 ctx2 : Context) :
    doubleScheme aes memory true loop ctx1 ctx2 = pairScheme aes memory true loop ctx1 ctx2 := by
  have together : (ctx1.begin true).firstHalf = (ctx2.begin true).firstHalf := rfl
  simp only [doubleScheme, cnExplodeScratchpadVaesDouble_eq together, cnImplodeScratchpadVaesDouble_eq]
  rfl

theorem geometry_of_blocks {units : Nat} (some_ : 0 < units) :
    Geometry 0 (8192 * units) true (32 * units) 16 ∧ Geometry 0 (8192 * units) false (32 * units + 32 * units) 16 := by
  refine ⟨⟨?_, rfl, by omega⟩, ⟨?_, rfl, by omega⟩⟩
  · simp only [vectorCount, if_true]
    omega
  · simp only [vectorCount, Bool.false_eq_true, if_false]
    omega

/-- Vectors that agree where the loop works, and in all of the memory, agree after it. -/
theorem Local.agrees {loop : (Nat → M128) → Nat → M128} {limit count : Nat} (near : Local loop limit) (covers : limit ≤ count)
    {block other : Nat → M128} (same : ∀ index < count, block index = other index) :
    ∀ index < count, loop block index = loop other index := by
  intro index inside
  by_cases first : index < limit
  · exact near.reads (fun index below => same index (by omega)) index first
  · rw [near.writes block (by omega), near.writes other (by omega), same index inside]

theorem LocalPair.agrees {loop : PairLoop} {limit count : Nat} (near : LocalPair loop limit) (covers : limit ≤ count)
    {blocks others : (Nat → M128) × (Nat → M128)} (same1 : ∀ index < count, blocks.1 index = others.1 index)
    (same2 : ∀ index < count, blocks.2 index = others.2 index) :
    ∀ index < count, (loop blocks).1 index = (loop others).1 index ∧ (loop blocks).2 index = (loop others).2 index := by
  intro index inside
  by_cases first : index < limit
  · exact near.reads (fun index below => same1 index (by omega)) (fun index below => same2 index (by omega)) index first
  · obtain ⟨mine1, mine2⟩ := near.writes blocks (show limit ≤ index by omega)
    obtain ⟨its1, its2⟩ := near.writes others (show limit ≤ index by omega)
    rw [mine1, mine2, its1, its2, same1 index inside, same2 index inside]
    exact ⟨rfl, rfl⟩

/-- Half of the memory gives the state that the whole of it gives, and nothing beyond it is accessed. -/
theorem halfMemory_state (whole : memory % 8192 = 0) (some_ : 0 < memory) :
    (∀ (implementation : Implementation) (loop : (Nat → M128) → Nat → M128) (ctx other : Context),
        Local loop (memory / 2 / 16) → ctx.state = other.state →
          (scheme aes memory true implementation loop ctx).state = (scheme aes memory false .plain loop other).state ∧
            (scheme aes memory true implementation loop ctx).pad.reach ≤ max ctx.pad.reach (memory / 2 / 16)) ∧
      ∀ (loop : PairLoop) (ctx1 ctx2 other1 other2 : Context),
        LocalPair loop (memory / 2 / 16) → ctx1.state = other1.state → ctx2.state = other2.state →
          ((doubleScheme aes memory true loop ctx1 ctx2).1.state = (pairScheme aes memory false loop other1 other2).1.state ∧
            (doubleScheme aes memory true loop ctx1 ctx2).2.state = (pairScheme aes memory false loop other1 other2).2.state) ∧
          (doubleScheme aes memory true loop ctx1 ctx2).1.pad.reach ≤ max ctx1.pad.reach (memory / 2 / 16) ∧
          (doubleScheme aes memory true loop ctx1 ctx2).2.pad.reach ≤ max ctx2.pad.reach (memory / 2 / 16) := by
  obtain ⟨units, rfl⟩ : ∃ units, memory = 8192 * units := ⟨memory / 8192, by omega⟩
  have limit : 8192 * units / 2 / 16 = 8 * (32 * units) := by omega
  obtain ⟨halved, entire⟩ := @geometry_of_blocks units (by omega)
  rw [limit]
  constructor
  · intro implementation loop ctx other near same
    rw [scheme_plain whole]
    have first := (@explode_scratchpad aes ctx _ _ _ (max ctx.pad.reach (8 * (32 * units))) true halved (by omega) (by omega)).1
    have all := (@explode_scratchpad aes other _ _ _ (max other.pad.reach (8 * (32 * units + 32 * units))) false entire
      (by omega) (by omega)).1
    obtain ⟨result, touched⟩ := @half_absorbed aes ctx _ _ _ (max ctx.pad.reach (8 * (32 * units))) halved (by omega) (by omega)
      _ (loop (scratchpad aes ctx.state)) (near.agrees (Nat.le_refl _) first) fun index beyond => near.writes _ beyond
    have expected := @whole_absorbed aes other _ _ _ (max other.pad.reach (8 * (32 * units + 32 * units))) entire (by omega)
      (by omega) _ (loop (scratchpad aes other.state)) (near.agrees (by omega) all)
    refine ⟨?_, touched⟩
    rw [same] at result
    exact result.trans expected.symm
  · intro loop ctx1 ctx2 other1 other2 near same1 same2
    rw [doubleScheme_pair]
    have first := fun ctx => (@explode_scratchpad aes ctx _ _ _ (max ctx.pad.reach (8 * (32 * units))) true halved (by omega)
      (by omega)).1
    have all := fun ctx => (@explode_scratchpad aes ctx _ _ _ (max ctx.pad.reach (8 * (32 * units + 32 * units))) false entire
      (by omega) (by omega)).1
    have below := @LocalPair.agrees loop _ _ near (Nat.le_refl _)
      ((cnExplodeScratchpad aes 0 (8192 * units) false true (ctx1.begin true)).pad.block,
        (cnExplodeScratchpad aes 0 (8192 * units) false true (ctx2.begin true)).pad.block)
      (scratchpad aes ctx1.state, scratchpad aes ctx2.state) (first ctx1) (first ctx2)
    have inside := @LocalPair.agrees loop _ _ near (show 8 * (32 * units) ≤ 8 * (32 * units + 32 * units) by omega)
      ((cnExplodeScratchpad aes 0 (8192 * units) false false (other1.begin false)).pad.block,
        (cnExplodeScratchpad aes 0 (8192 * units) false false (other2.begin false)).pad.block)
      (scratchpad aes other1.state, scratchpad aes other2.state) (all other1) (all other2)
    have beyond := fun index => @LocalPair.writes _ _ near (scratchpad aes ctx1.state, scratchpad aes ctx2.state) index
    obtain ⟨result1, touched1⟩ := @half_absorbed aes ctx1 _ _ _ (max ctx1.pad.reach (8 * (32 * units))) halved (by omega)
      (by omega) _ _ (fun index small => (below index small).1) fun index far => (beyond index far).1
    obtain ⟨result2, touched2⟩ := @half_absorbed aes ctx2 _ _ _ (max ctx2.pad.reach (8 * (32 * units))) halved (by omega)
      (by omega) _ _ (fun index small => (below index small).2) fun index far => (beyond index far).2
    have expected1 := @whole_absorbed aes other1 _ _ _ (max other1.pad.reach (8 * (32 * units + 32 * units))) entire (by omega)
      (by omega) _ _ fun index small => (inside index small).1
    have expected2 := @whole_absorbed aes other2 _ _ _ (max other2.pad.reach (8 * (32 * units + 32 * units))) entire (by omega)
      (by omega) _ _ fun index small => (inside index small).2
    rw [same1, same2] at result1 result2
    exact ⟨⟨result1.trans expected1.symm, result2.trans expected2.symm⟩, touched1, touched2⟩

def mixFirst (block : Nat → M128) : Nat → M128 := Function.update block 0 (block 0 ^^^ block 1)

theorem mixFirst_local {limit : Nat} (wide : 2 ≤ limit) : Local mixFirst limit := by
  refine ⟨?_, ?_⟩
  · intro block other same index inside
    have first := same 0 (by omega)
    have second := same 1 (by omega)
    simp only [mixFirst, Function.update_apply, first, second, same index inside]
  · intro block index beyond
    exact Function.update_of_ne (by omega) _ _

def mixBoth (blocks : (Nat → M128) × (Nat → M128)) : (Nat → M128) × (Nat → M128) := (mixFirst blocks.1, mixFirst blocks.2)

theorem mixBoth_local {limit : Nat} (wide : 2 ≤ limit) : LocalPair mixBoth limit := by
  have near := mixFirst_local wide
  exact ⟨fun same1 same2 index inside => ⟨near.reads same1 index inside, near.reads same2 index inside⟩,
    fun blocks index beyond => ⟨near.writes blocks.1 beyond, near.writes blocks.2 beyond⟩⟩

def rotateAes : Aes where
  enc := fun value key => value.rotateLeft 8 ^^^ key
  keygenassist := fun value rcon => value ^^^ rcon.setWidth 128

def numbered (first : Nat) : Context where
  state := fun index => BitVec.ofNat 128 (first + index.val)
  pad := { block := fun _ => 0, reach := 0 }
  saveState := fun _ => 0
  firstHalf := false

theorem halfMemory_state_block :
    ((scheme rotateAes 8192 true .vaes mixFirst (numbered 1)).state =
          (scheme rotateAes 8192 false .plain mixFirst (numbered 1)).state ∧
        (scheme rotateAes 8192 true .vaes mixFirst (numbered 1)).pad.reach ≤ max (numbered 1).pad.reach (8192 / 2 / 16)) ∧
      (doubleScheme rotateAes 8192 true mixBoth (numbered 1) (numbered 2)).2.state =
        (pairScheme rotateAes 8192 false mixBoth (numbered 1) (numbered 2)).2.state := by
  obtain ⟨single, double⟩ := @halfMemory_state rotateAes 8192 (by decide) (by decide)
  have limit : 2 ≤ 8192 / 2 / 16 := by decide
  exact ⟨single .vaes mixFirst (numbered 1) (numbered 1) (mixFirst_local limit) rfl,
    (double mixBoth (numbered 1) (numbered 2) (numbered 1) (numbered 2) (mixBoth_local limit) rfl rfl).1.2⟩

end Equal

end Xmrig.Cryptonight
