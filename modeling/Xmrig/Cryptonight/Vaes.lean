import Xmrig.Cryptonight.Scratchpad

/-! Filling and absorbing with vectors of 32 bytes.

One implementation packs two neighbouring vectors of a context into a register, the
other one a vector of each of two contexts. Both do to every context what the plain
functions do.
-/

set_option autoImplicit false

namespace Xmrig.Cryptonight

open Foundation

namespace Pad

/-- The two vectors of an aligned `__m256i`. -/
def load256 (pad : Pad) (index : Nat) : M256 := ⟨pad.block (2 * index), pad.block (2 * index + 1)⟩

def touch256 (pad : Pad) (index : Nat) : Pad := (pad.touch (2 * index)).touch (2 * index + 1)

def store256 (pad : Pad) (index : Nat) (value : M256) : Pad :=
  (pad.store (2 * index) value.lo).store (2 * index + 1) value.hi

end Pad

def M256.xor (left right : M256) : M256 := ⟨left.lo ^^^ right.lo, left.hi ^^^ right.hi⟩

abbrev Wide := Fin 4 → M256

def pack (lanes : Lanes) : Wide := fun register =>
  ⟨lanes ⟨2 * register.val, by omega⟩, lanes ⟨2 * register.val + 1, by omega⟩⟩

def unpack (wide : Wide) : Lanes := fun lane =>
  if lane.val % 2 = 0 then (wide ⟨lane.val / 2, by omega⟩).lo else (wide ⟨lane.val / 2, by omega⟩).hi

/-! ## One context -/

section Single
variable (aes : Aes)

def vaesExplodePass (keys : Keys M256) (ahead output : Nat) (state : Wide × Pad) : Wide × Pad :=
  let pad := (state.2.touch (2 * (output + ahead))).touch (2 * (output + ahead + 2))
  let wide := tenRounds (vaesRound aes) keys state.1
  (wide, (((pad.store256 output (wide 0)).store256 (output + 1) (wide 1)).store256 (output + 2) (wide 2)).store256
    (output + 2 + 1) (wide 3))

def vaesExplodeLoops (keys : Keys M256) (count : Nat) (start : Wide × Pad) : Wide × Pad :=
  let dist := 2048 / 32
  let stop := count - dist
  let first := doSweep 4 (Nat.succ_pos 3) (vaesExplodePass aes keys dist) stop 0 start
  (doSweep 4 (Nat.succ_pos 3) (vaesExplodePass aes keys 0) (stop + dist) first.1 first.2).2

def cnExplodeScratchpadVaes (memory : Nat) (half : Bool) (ctx : Context) : Context :=
  let count := memory / 32 / if half then 2 else 1
  let keys := vaesGenkey aes (ctx.state 0) (ctx.state 1)
  let start := if half && !ctx.firstHalf then pack ctx.saveState else pack (stateLanes ctx.state)
  let result := vaesExplodeLoops aes keys count (start, ctx.pad)
  { ctx with
    pad := result.2
    saveState := if half && ctx.firstHalf then unpack result.1 else ctx.saveState }

structure WideAbsorbing where
  input : Nat
  wide : Wide
  pad : Pad

def vaesImplodePass (keys : Keys M256) (count i : Nat) (state : WideAbsorbing) : WideAbsorbing :=
  let wide : Wide := fun register => (state.wide register).xor (state.pad.load256 (state.input + register.val))
  let pad := (((state.pad.touch256 state.input).touch256 (state.input + 1)).touch256 (state.input + 2)).touch256
    (state.input + 2 + 1)
  let input := state.input + 2 * 2
  let pad := if i + 4 < count then (pad.touch (2 * input)).touch (2 * (input + 2)) else pad
  { input, pad, wide := tenRounds (vaesRound aes) keys wide }

def vaesImplodeLoop (keys : Keys M256) (count : Nat) (wide : Wide) (pad : Pad) : WideAbsorbing :=
  (sweep 4 (Nat.succ_pos 3) (vaesImplodePass aes keys count) count 0 { input := 0, wide, pad }).2

def cnImplodeScratchpadVaes (memory : Nat) (half : Bool) (ctx : Context) : Context :=
  let count := memory / 32 / if half then 2 else 1
  let keys := vaesGenkey aes (ctx.state 2) (ctx.state 3)
  let first := vaesImplodeLoop aes keys count (pack (stateLanes ctx.state)) ctx.pad
  let last :=
    if half then
      let again := cnExplodeScratchpadVaes aes memory half { ctx with pad := first.pad, firstHalf := false }
      let second := vaesImplodeLoop aes keys count first.wide again.pad
      (second.wide, { again with pad := second.pad })
    else (first.wide, { ctx with pad := first.pad })
  { last.2 with state := storeState ctx.state (unpack last.1) }

end Single

/-! ## Two contexts -/

/-- Eight registers with a vector of each of two contexts. -/
abbrev Paired := Fin 8 → M256

def pair (low high : Lanes) : Paired := fun lane => ⟨low lane, high lane⟩

section Double
variable (aes : Aes)

/-- `_mm256_storeu2_m128i` into both memories. -/
def storePaired (pads : Pad × Pad) (output : Nat) (paired : Paired) : Pad × Pad :=
  (storeLanes pads.1 output 4 fun lane => (paired lane).lo, storeLanes pads.2 output 4 fun lane => (paired lane).hi)

def doubleExplodePass (keys : Keys M256) (ahead output : Nat) (state : Paired × Pad × Pad) : Paired × Pad × Pad :=
  let pad1 := (state.2.1.touch (output + ahead)).touch (output + ahead + 4)
  let pad2 := (state.2.2.touch (output + ahead)).touch (output + ahead + 4)
  let paired := tenRounds (vaesRound aes) keys state.1
  (paired, storePaired (pad1, pad2) output paired)

def doubleExplodeLoops (keys : Keys M256) (count : Nat) (start : Paired × Pad × Pad) : Paired × Pad × Pad :=
  let dist := 2048 / 16
  let stop := count - dist
  let first := doSweep 8 (Nat.succ_pos 7) (doubleExplodePass aes keys dist) stop 0 start
  (doSweep 8 (Nat.succ_pos 7) (doubleExplodePass aes keys 0) (stop + dist) first.1 first.2).2

def cnExplodeScratchpadVaesDouble (memory : Nat) (half : Bool) (ctx1 ctx2 : Context) : Context × Context :=
  let count := memory / 16 / if half then 2 else 1
  let keys := vaesGenkeyDouble aes (ctx1.state 0) (ctx1.state 1) (ctx2.state 0) (ctx2.state 1)
  let b := half && !ctx1.firstHalf && !ctx2.firstHalf
  let start := pair (if b then ctx1.saveState else stateLanes ctx1.state) (if b then ctx2.saveState else stateLanes ctx2.state)
  let result := doubleExplodeLoops aes keys count (start, ctx1.pad, ctx2.pad)
  let keep := half && ctx1.firstHalf && ctx2.firstHalf
  ({ ctx1 with
      pad := result.2.1
      saveState := if keep then fun lane => (result.1 lane).lo else ctx1.saveState },
    { ctx2 with
      pad := result.2.2
      saveState := if keep then fun lane => (result.1 lane).hi else ctx2.saveState })

structure PairedAbsorbing where
  input : Nat
  paired : Paired
  pad1 : Pad
  pad2 : Pad

def doubleImplodePass (keys : Keys M256) (count i : Nat) (state : PairedAbsorbing) : PairedAbsorbing :=
  let paired := pair (loadLanes state.pad1 state.input 4 fun lane => (state.paired lane).lo)
    (loadLanes state.pad2 state.input 4 fun lane => (state.paired lane).hi)
  let pad1 := touchLanes state.pad1 state.input 4
  let pad2 := touchLanes state.pad2 state.input 4
  let input := state.input + 4 * 2
  let pad1 := if i + 8 < count then (pad1.touch input).touch (input + 4) else pad1
  let pad2 := if i + 8 < count then (pad2.touch input).touch (input + 4) else pad2
  { input, pad1, pad2, paired := tenRounds (vaesRound aes) keys paired }

def doubleImplodeLoop (keys : Keys M256) (count : Nat) (paired : Paired) (pad1 pad2 : Pad) : PairedAbsorbing :=
  (sweep 8 (Nat.succ_pos 7) (doubleImplodePass aes keys count) count 0 { input := 0, paired, pad1, pad2 }).2

def cnImplodeScratchpadVaesDouble (memory : Nat) (half : Bool) (ctx1 ctx2 : Context) : Context × Context :=
  let count := memory / 16 / if half then 2 else 1
  let keys := vaesGenkeyDouble aes (ctx1.state 2) (ctx1.state 3) (ctx2.state 2) (ctx2.state 3)
  let first := doubleImplodeLoop aes keys count (pair (stateLanes ctx1.state) (stateLanes ctx2.state)) ctx1.pad ctx2.pad
  let last :=
    if half then
      let again := cnExplodeScratchpadVaesDouble aes memory half { ctx1 with pad := first.pad1, firstHalf := false }
        { ctx2 with pad := first.pad2, firstHalf := false }
      let second := doubleImplodeLoop aes keys count first.paired again.1.pad again.2.pad
      (second.paired, { again.1 with pad := second.pad1 }, { again.2 with pad := second.pad2 })
    else (first.paired, { ctx1 with pad := first.pad1 }, { ctx2 with pad := first.pad2 })
  ({ last.2.1 with state := storeState ctx1.state fun lane => (last.1 lane).lo },
    { last.2.2 with state := storeState ctx2.state fun lane => (last.1 lane).hi })

end Double

/-! ## Both do what the plain functions do -/

section Single
variable {aes : Aes} {memory0 memory1 : M128}

theorem tenRounds_pack (lanes : Lanes) :
    tenRounds (vaesRound aes) (vaesGenkey aes memory0 memory1) (pack lanes) =
      pack (tenRounds (aesRound aes) (aesGenkey aes memory0 memory1) lanes) := rfl

theorem unpack_pack (lanes : Lanes) : unpack (pack lanes) = lanes := by
  funext lane
  simp only [unpack, pack]
  split
  · congr 1
    apply Fin.ext
    simp only
    omega
  · congr 1
    apply Fin.ext
    simp only
    omega

theorem vaesExplodePass_pack (ahead output : Nat) (lanes : Lanes) (pad : Pad) :
    vaesExplodePass aes (vaesGenkey aes memory0 memory1) ahead output (pack lanes, pad) =
      (pack (explodePass aes (aesGenkey aes memory0 memory1) 4 (2 * ahead) (2 * output) (lanes, pad)).1,
        (explodePass aes (aesGenkey aes memory0 memory1) 4 (2 * ahead) (2 * output) (lanes, pad)).2) := by
  have fetch : 2 * (output + ahead) = 2 * output + 2 * ahead := by omega
  have fetchNext : 2 * (output + ahead + 2) = 2 * output + 2 * ahead + 4 := by omega
  have second : 2 * (output + 1) = 2 * output + 2 := by omega
  have third : 2 * (output + 2) = 2 * output + 4 := by omega
  have fourth : 2 * (output + 2 + 1) = 2 * output + 4 + 2 := by omega
  simp only [vaesExplodePass, explodePass, tenRounds_pack, fetch, fetchNext, Pad.store256, second, third, fourth]
  rfl

theorem vaesExplodeLoops_pack (count : Nat) (lanes : Lanes) (pad : Pad) :
    vaesExplodeLoops aes (vaesGenkey aes memory0 memory1) count (pack lanes, pad) =
      (pack (explodeLoops aes (aesGenkey aes memory0 memory1) 0 (2 * count) (lanes, pad)).1,
        (explodeLoops aes (aesGenkey aes memory0 memory1) 0 (2 * count) (lanes, pad)).2) := by
  have pass : ∀ ahead position (first : Lanes × Pad) (second : Wide × Pad), second = (pack first.1, first.2) →
      vaesExplodePass aes (vaesGenkey aes memory0 memory1) ahead position second =
        (pack (explodePass aes (aesGenkey aes memory0 memory1) 4 (2 * ahead) (2 * position) first).1,
          (explodePass aes (aesGenkey aes memory0 memory1) 4 (2 * ahead) (2 * position) first).2) := by
    rintro ahead position ⟨first, own⟩ second rfl
    exact vaesExplodePass_pack ahead position first own
  have head := @doSweep_scale _ (explodePass aes (aesGenkey aes memory0 memory1) 4 (2 * (2048 / 32))) _
    (fun first second => second = (pack first.1, first.2)) 2 4 _ (Nat.succ_pos 1) (Nat.succ_pos 3) (Nat.succ_pos 7)
    (pass (2048 / 32)) (count - 2048 / 32) 0 (lanes, pad) _ rfl
  have stop : 2 * count - 2048 / 16 = 2 * (count - 2048 / 32) := by omega
  have last : 2 * (count - 2048 / 32) + 2048 / 16 = 2 * (count - 2048 / 32 + 2048 / 32) := by omega
  have tail := @doSweep_scale _ (explodePass aes (aesGenkey aes memory0 memory1) 4 (2 * 0)) _
    (fun first second => second = (pack first.1, first.2)) 2 4 _ (Nat.succ_pos 1) (Nat.succ_pos 3) (Nat.succ_pos 7)
    (pass 0) (count - 2048 / 32 + 2048 / 32)
    (doSweep 4 (Nat.succ_pos 3) (vaesExplodePass aes (vaesGenkey aes memory0 memory1) (2048 / 32)) (count - 2048 / 32) 0
      (pack lanes, pad)).1 _ _ head.2
  rw [← head.1] at tail
  have plain : explodeLoops aes (aesGenkey aes memory0 memory1) 0 (2 * count) (lanes, pad) =
      (doSweep (2 * 4) (Nat.succ_pos 7) (explodePass aes (aesGenkey aes memory0 memory1) 4 (2 * 0))
        (2 * (count - 2048 / 32 + 2048 / 32))
        (doSweep (2 * 4) (Nat.succ_pos 7) (explodePass aes (aesGenkey aes memory0 memory1) 4 (2 * (2048 / 32)))
          (2 * (count - 2048 / 32)) (2 * 0) (lanes, pad)).1
        (doSweep (2 * 4) (Nat.succ_pos 7) (explodePass aes (aesGenkey aes memory0 memory1) 4 (2 * (2048 / 32)))
          (2 * (count - 2048 / 32)) (2 * 0) (lanes, pad)).2).2 := by
    unfold explodeLoops
    simp only [Nat.shiftLeft_zero, stop, last]
    rfl
  rw [plain]
  exact tail.2

theorem vectorCount_eq {memory : Nat} (whole : memory % 64 < 16) (half : Bool) :
    vectorCount memory half = 2 * (memory / 32 / if half then 2 else 1) := by
  cases half
  all_goals
    simp only [vectorCount, Bool.false_eq_true, if_true, if_false]
    omega

theorem cnExplodeScratchpadVaes_eq {memory : Nat} (whole : memory % 64 < 16) (half : Bool) (ctx : Context) :
    cnExplodeScratchpadVaes aes memory half ctx = cnExplodeScratchpad aes 0 memory false half ctx := by
  have start : (if half && !ctx.firstHalf then pack ctx.saveState else pack (stateLanes ctx.state)) =
      pack (if half && !ctx.firstHalf then ctx.saveState else stateLanes ctx.state) := by
    split <;> rfl
  simp only [cnExplodeScratchpadVaes, cnExplodeScratchpad, start, vaesExplodeLoops_pack, unpack_pack, vectorCount_eq whole,
    Bool.false_eq_true, if_false]

theorem loadLanes_four (pad : Pad) (input : Nat) (lanes : Lanes) (lane : Fin 8) :
    loadLanes pad input 4 lanes lane = pad.block (input + lane.val) ^^^ lanes lane := by
  unfold loadLanes
  split
  · rfl
  · have position : input + 4 + (lane.val - 4) = input + lane.val := by omega
    rw [position]

theorem touch256_touchLanes (pad : Pad) (input : Nat) :
    (((pad.touch256 input).touch256 (input + 1)).touch256 (input + 2)).touch256 (input + 2 + 1) =
      touchLanes pad (2 * input) 4 := by
  have second : 2 * (input + 1) = 2 * input + 2 := by omega
  have third : 2 * (input + 2) = 2 * input + 4 := by omega
  have fourth : 2 * (input + 2 + 1) = 2 * input + 4 + 2 := by omega
  simp only [touchLanes, Pad.touch256, second, third, fourth]

/-- The same vectors in both forms, with the position in the memory. -/
structure Packed (plain : Absorbing) (wide : WideAbsorbing) : Prop where
  input : plain.input = 2 * wide.input
  lanes : wide.wide = pack plain.lanes
  pad : wide.pad = plain.pad

theorem Packed.pass {plain : Absorbing} {wide : WideAbsorbing} (packed : Packed plain wide) (count i : Nat) :
    Packed (implodePass aes (aesGenkey aes memory0 memory1) 4 false (fun i => decide (i < 2 * count)) (2 * i) plain)
      (vaesImplodePass aes (vaesGenkey aes memory0 memory1) count i wide) := by
  obtain ⟨input, lanes, pad⟩ := packed
  refine ⟨?_, ?_, ?_⟩
  · simp only [implodePass, vaesImplodePass, input]
    omega
  · have loaded : (fun register : Fin 4 => (wide.wide register).xor (wide.pad.load256 (wide.input + register.val))) =
        pack (loadLanes plain.pad plain.input 4 plain.lanes) := by
      funext register
      have even : 2 * (wide.input + register.val) = 2 * wide.input + 2 * register.val := by omega
      rw [lanes, pad]
      apply M256.ext
      · simp only [M256.xor, Pad.load256, pack, loadLanes_four, input, even]
        exact BitVec.xor_comm _ _
      · simp only [M256.xor, Pad.load256, pack, loadLanes_four, input, even]
        exact BitVec.xor_comm _ _
    simp only [implodePass, vaesImplodePass, loaded, tenRounds_pack, Bool.false_eq_true, if_false]
  · have follows : decide (2 * i + 8 < 2 * count) = decide (i + 4 < count) := by
      rw [decide_eq_decide]
      omega
    have next : 2 * (wide.input + 2 * 2) = 2 * wide.input + 4 * 2 := by omega
    have nextFetch : 2 * (wide.input + 2 * 2 + 2) = 2 * wide.input + 4 * 2 + 4 := by omega
    simp only [implodePass, vaesImplodePass, touch256_touchLanes, follows, decide_eq_true_eq, input, pad, next, nextFetch]

theorem vaesImplodeLoop_packed (count : Nat) (lanes : Lanes) (pad : Pad) :
    Packed (implodeLoop aes (aesGenkey aes memory0 memory1) 0 false (fun i => decide (i < 2 * count)) (2 * count) lanes pad)
      (vaesImplodeLoop aes (vaesGenkey aes memory0 memory1) count (pack lanes) pad) := by
  have loop := @sweep_scale _
    (implodePass aes (aesGenkey aes memory0 memory1) 4 false (fun i => decide (i < 2 * count))) _ Packed 2 4
    (vaesImplodePass aes (vaesGenkey aes memory0 memory1) count) (Nat.succ_pos 1) (Nat.succ_pos 3) (Nat.succ_pos 7)
    (fun position _ _ packed => packed.pass count position) count 0 { input := 0, lanes, pad }
    { input := 0, wide := pack lanes, pad } ⟨rfl, rfl, rfl⟩
  exact loop.2

theorem cnImplodeScratchpadVaes_eq {memory : Nat} (whole : memory % 64 < 16) (half : Bool) (ctx : Context) :
    cnImplodeScratchpadVaes aes memory half ctx = cnImplodeScratchpad aes 0 memory false half ctx := by
  have first := @vaesImplodeLoop_packed aes (ctx.state 2) (ctx.state 3) (memory / 32 / if half then 2 else 1)
    (stateLanes ctx.state) ctx.pad
  cases half with
  | false =>
    simp only [cnImplodeScratchpadVaes, cnImplodeScratchpad, vectorCount_eq whole, Bool.false_eq_true, if_false] at first ⊢
    rw [first.lanes, first.pad, unpack_pack]
  | true =>
    simp only [cnImplodeScratchpadVaes, cnImplodeScratchpad, vectorCount_eq whole, Bool.false_eq_true, if_false, if_true,
      cnExplodeScratchpadVaes_eq whole] at first ⊢
    rw [first.lanes, first.pad]
    have second := @vaesImplodeLoop_packed aes (ctx.state 2) (ctx.state 3) (memory / 32 / 2)
      (implodeLoop aes (aesGenkey aes (ctx.state 2) (ctx.state 3)) 0 false (fun i => decide (i < 2 * (memory / 32 / 2)))
        (2 * (memory / 32 / 2)) (stateLanes ctx.state) ctx.pad).lanes
      (cnExplodeScratchpad aes 0 memory false true
        { ctx with
          pad := (implodeLoop aes (aesGenkey aes (ctx.state 2) (ctx.state 3)) 0 false
            (fun i => decide (i < 2 * (memory / 32 / 2))) (2 * (memory / 32 / 2)) (stateLanes ctx.state) ctx.pad).pad
          firstHalf := false }).pad
    rw [second.lanes, second.pad, unpack_pack]

end Single

section Double
variable {aes : Aes} {low0 low1 high0 high1 : M128}

theorem tenRounds_pair (low high : Lanes) :
    tenRounds (vaesRound aes) (vaesGenkeyDouble aes low0 low1 high0 high1) (pair low high) =
      pair (tenRounds (aesRound aes) (aesGenkey aes low0 low1) low)
        (tenRounds (aesRound aes) (aesGenkey aes high0 high1) high) := rfl

theorem explodeLoops_zero (keys : Keys M128) (count : Nat) (start : Lanes × Pad) :
    explodeLoops aes keys 0 count start =
      (doSweep 8 (Nat.succ_pos 7) (explodePass aes keys 4 0) (count - 2048 / 16 + 2048 / 16)
        (doSweep 8 (Nat.succ_pos 7) (explodePass aes keys 4 (2048 / 16)) (count - 2048 / 16) 0 start).1
        (doSweep 8 (Nat.succ_pos 7) (explodePass aes keys 4 (2048 / 16)) (count - 2048 / 16) 0 start).2).2 := by
  unfold explodeLoops
  simp only [Nat.shiftLeft_zero]
  rfl

/-- The vectors of two contexts side by side. -/
def Beside (left right : Lanes × Pad) (both : Paired × Pad × Pad) : Prop :=
  both = (pair left.1 right.1, left.2, right.2)

theorem Beside.pass {left right : Lanes × Pad} {both : Paired × Pad × Pad} (beside : Beside left right both)
    (ahead output : Nat) :
    Beside (explodePass aes (aesGenkey aes low0 low1) 4 ahead output left)
      (explodePass aes (aesGenkey aes high0 high1) 4 ahead output right)
      (doubleExplodePass aes (vaesGenkeyDouble aes low0 low1 high0 high1) ahead output both) := by
  rw [beside]
  rfl

theorem doubleExplodeLoops_beside (count : Nat) (low high : Lanes) (pad1 pad2 : Pad) :
    Beside (explodeLoops aes (aesGenkey aes low0 low1) 0 count (low, pad1))
      (explodeLoops aes (aesGenkey aes high0 high1) 0 count (high, pad2))
      (doubleExplodeLoops aes (vaesGenkeyDouble aes low0 low1 high0 high1) count (pair low high, pad1, pad2)) := by
  have pass : ∀ ahead position first second third, Beside first second third →
      Beside (explodePass aes (aesGenkey aes low0 low1) 4 ahead position first)
        (explodePass aes (aesGenkey aes high0 high1) 4 ahead position second)
        (doubleExplodePass aes (vaesGenkeyDouble aes low0 low1 high0 high1) ahead position third) :=
    fun ahead position _ _ _ beside => beside.pass ahead position
  obtain ⟨leftEnd, rightEnd, head⟩ := @doSweep_together 8 (Nat.succ_pos 7) _ _ _ Beside _ _ _ (pass (2048 / 16))
    (count - 2048 / 16) 0 (low, pad1) (high, pad2) _ rfl
  have tail := fun position => (@doSweep_together 8 (Nat.succ_pos 7) _ _ _ Beside _ _ _ (pass 0)
    (count - 2048 / 16 + 2048 / 16) position _ _ _ head).2.2
  rw [explodeLoops_zero, explodeLoops_zero, leftEnd, rightEnd]
  exact tail _

theorem cnExplodeScratchpadVaesDouble_eq {memory : Nat} {half : Bool} {ctx1 ctx2 : Context}
    (together : ctx1.firstHalf = ctx2.firstHalf) :
    cnExplodeScratchpadVaesDouble aes memory half ctx1 ctx2 =
      (cnExplodeScratchpad aes 0 memory false half ctx1, cnExplodeScratchpad aes 0 memory false half ctx2) := by
  have start : (half && !ctx1.firstHalf && !ctx2.firstHalf) = (half && !ctx1.firstHalf) := by
    rw [← together]
    cases half <;> cases ctx1.firstHalf <;> rfl
  have keep : (half && ctx1.firstHalf && ctx2.firstHalf) = (half && ctx1.firstHalf) := by
    rw [← together]
    cases half <;> cases ctx1.firstHalf <;> rfl
  have loops := @doubleExplodeLoops_beside aes (ctx1.state 0) (ctx1.state 1) (ctx2.state 0) (ctx2.state 1)
    (vectorCount memory half) (if half && !ctx1.firstHalf then ctx1.saveState else stateLanes ctx1.state)
    (if half && !ctx1.firstHalf then ctx2.saveState else stateLanes ctx2.state) ctx1.pad ctx2.pad
  unfold Beside vectorCount at loops
  simp only [cnExplodeScratchpadVaesDouble, start, keep, loops]
  simp only [cnExplodeScratchpad, vectorCount, Bool.false_eq_true, if_false, ← together]
  rfl

/-- What two contexts absorbed, side by side. -/
structure Joined (left right : Absorbing) (both : PairedAbsorbing) : Prop where
  leftInput : both.input = left.input
  rightInput : both.input = right.input
  paired : both.paired = pair left.lanes right.lanes
  pad1 : both.pad1 = left.pad
  pad2 : both.pad2 = right.pad

theorem Joined.pass {left right : Absorbing} {both : PairedAbsorbing} (joined : Joined left right both) (count i : Nat) :
    Joined (implodePass aes (aesGenkey aes low0 low1) 4 false (fun i => decide (i < count)) i left)
      (implodePass aes (aesGenkey aes high0 high1) 4 false (fun i => decide (i < count)) i right)
      (doubleImplodePass aes (vaesGenkeyDouble aes low0 low1 high0 high1) count i both) := by
  obtain ⟨sameLeft, sameRight, paired, pad1, pad2⟩ := joined
  refine ⟨?_, ?_, ?_, ?_, ?_⟩
  · simp only [doubleImplodePass, implodePass, sameLeft]
  · simp only [doubleImplodePass, implodePass, sameRight]
  · simp only [doubleImplodePass, implodePass, tenRounds_pair, Bool.false_eq_true, if_false]
    rw [paired, pad1, pad2, ← sameLeft, ← sameRight]
    rfl
  · simp only [doubleImplodePass, implodePass, decide_eq_true_eq]
    rw [pad1, ← sameLeft]
  · simp only [doubleImplodePass, implodePass, decide_eq_true_eq]
    rw [pad2, ← sameRight]

theorem doubleImplodeLoop_joined (count : Nat) (low high : Lanes) (pad1 pad2 : Pad) :
    Joined (implodeLoop aes (aesGenkey aes low0 low1) 0 false (fun i => decide (i < count)) count low pad1)
      (implodeLoop aes (aesGenkey aes high0 high1) 0 false (fun i => decide (i < count)) count high pad2)
      (doubleImplodeLoop aes (vaesGenkeyDouble aes low0 low1 high0 high1) count (pair low high) pad1 pad2) := by
  have loop := @sweep_together 8 (Nat.succ_pos 7) _ _ _ Joined
    (implodePass aes (aesGenkey aes low0 low1) 4 false (fun i => decide (i < count)))
    (implodePass aes (aesGenkey aes high0 high1) 4 false (fun i => decide (i < count)))
    (doubleImplodePass aes (vaesGenkeyDouble aes low0 low1 high0 high1) count)
    (fun position _ _ _ joined => joined.pass count position) count 0 { input := 0, lanes := low, pad := pad1 }
    { input := 0, lanes := high, pad := pad2 } { input := 0, paired := pair low high, pad1, pad2 }
    ⟨rfl, rfl, rfl, rfl, rfl⟩
  exact loop.2.2

theorem cnImplodeScratchpadVaesDouble_eq (memory : Nat) (half : Bool) (ctx1 ctx2 : Context) :
    cnImplodeScratchpadVaesDouble aes memory half ctx1 ctx2 =
      (cnImplodeScratchpad aes 0 memory false half ctx1, cnImplodeScratchpad aes 0 memory false half ctx2) := by
  have loop := fun count => @doubleImplodeLoop_joined aes (ctx1.state 2) (ctx1.state 3) (ctx2.state 2) (ctx2.state 3) count
  cases half with
  | false =>
    have first := loop (memory / 16 / 1) (stateLanes ctx1.state) (stateLanes ctx2.state) ctx1.pad ctx2.pad
    simp only [cnImplodeScratchpadVaesDouble, cnImplodeScratchpad, vectorCount, Bool.false_eq_true, if_false]
    rw [first.paired, first.pad1, first.pad2]
    rfl
  | true =>
    have first := loop (memory / 16 / 2) (stateLanes ctx1.state) (stateLanes ctx2.state) ctx1.pad ctx2.pad
    simp only [cnImplodeScratchpadVaesDouble, cnImplodeScratchpad, vectorCount, Bool.false_eq_true, if_false, if_true,
      cnExplodeScratchpadVaesDouble_eq]
    rw [first.paired, first.pad1, first.pad2]
    generalize implodeLoop aes _ 0 false _ _ (stateLanes ctx1.state) ctx1.pad = low
    generalize implodeLoop aes _ 0 false _ _ (stateLanes ctx2.state) ctx2.pad = high
    have second := loop (memory / 16 / 2) low.lanes high.lanes
      (cnExplodeScratchpad aes 0 memory false true { ctx1 with pad := low.pad, firstHalf := false }).pad
      (cnExplodeScratchpad aes 0 memory false true { ctx2 with pad := high.pad, firstHalf := false }).pad
    rw [second.paired, second.pad1, second.pad2]
    rfl

end Double

end Xmrig.Cryptonight
