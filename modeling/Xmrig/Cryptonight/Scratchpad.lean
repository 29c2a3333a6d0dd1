import Mathlib.Logic.Function.Iterate
import Mathlib.Tactic.IntervalCases
import Xmrig.Foundation.Sweep

/-! Filling and absorbing the scratchpad of CryptoNight.

The memory is counted in vectors of sixteen bytes, and it records how far it was
accessed. One AES round and the key generation assist are parameters, so that the
hardware and the table based rounds are both meant.
-/

set_option autoImplicit false

namespace Xmrig.Cryptonight

open Foundation

abbrev M128 := BitVec 128

/-- A `__m256i`: two vectors, the lower one first in memory. -/
@[ext] structure M256 where
  lo : M128
  hi : M128
  deriving DecidableEq, Repr

structure Aes where
  /-- `aesenc` of a vector with a round key. -/
  enc : M128 → M128 → M128
  /-- `aeskeygenassist` of a vector with a round constant. -/
  keygenassist : M128 → BitVec 8 → M128

/-- The memory of a context; `reach` is where the accessed part ends. -/
structure Pad where
  block : Nat → M128
  reach : Nat

namespace Pad

def touch (pad : Pad) (index : Nat) : Pad := { pad with reach := max pad.reach (index + 1) }

def store (pad : Pad) (index : Nat) (value : M128) : Pad :=
  { pad.touch index with block := Function.update pad.block index value }

end Pad

/-- The eight vectors that are worked on together. -/
abbrev Lanes := Fin 8 → M128

/-- The 224 bytes of the state. -/
abbrev State := Fin 14 → M128

instance stateNonempty : NeZero 14 := ⟨by decide⟩

/-- The part of `cryptonight_ctx` that the scratchpad code uses. -/
structure Context where
  state : State
  pad : Pad
  saveState : Lanes
  firstHalf : Bool

/-! ## Keys and rounds -/

section Keys

def slXor (tmp1 : M128) : M128 :=
  let tmp4 := tmp1 <<< 32
  let tmp1 := tmp1 ^^^ tmp4
  let tmp4 := tmp4 <<< 32
  let tmp1 := tmp1 ^^^ tmp4
  let tmp4 := tmp4 <<< 32
  tmp1 ^^^ tmp4

/-- `_mm_shuffle_epi32` that takes one element for all. -/
def broadcast (value : M128) (element : Nat) : M128 :=
  let word := value.extractLsb' (32 * element) 32
  word ++ word ++ word ++ word

structure Keys (K : Type) where
  k0 : K
  k1 : K
  k2 : K
  k3 : K
  k4 : K
  k5 : K
  k6 : K
  k7 : K
  k8 : K
  k9 : K

variable (aes : Aes)

def aesGenkeySub (rcon : BitVec 8) (xout : M128 × M128) : M128 × M128 :=
  let xout1 := broadcast (aes.keygenassist xout.2 rcon) 3
  let xout0 := slXor xout.1 ^^^ xout1
  let xout1 := broadcast (aes.keygenassist xout0 0) 2
  (xout0, slXor xout.2 ^^^ xout1)

def aesGenkey (memory0 memory1 : M128) : Keys M128 :=
  let first := aesGenkeySub aes 0x01 (memory0, memory1)
  let second := aesGenkeySub aes 0x02 first
  let third := aesGenkeySub aes 0x04 second
  let fourth := aesGenkeySub aes 0x08 third
  ⟨memory0, memory1, first.1, first.2, second.1, second.2, third.1, third.2, fourth.1, fourth.2⟩

/-- `vaes_genkey`: both halves have the same keys. -/
def vaesGenkey (memory0 memory1 : M128) : Keys M256 :=
  let first := aesGenkeySub aes 0x01 (memory0, memory1)
  let second := aesGenkeySub aes 0x02 first
  let third := aesGenkeySub aes 0x04 second
  let fourth := aesGenkeySub aes 0x08 third
  ⟨⟨memory0, memory0⟩, ⟨memory1, memory1⟩, ⟨first.1, first.1⟩, ⟨first.2, first.2⟩, ⟨second.1, second.1⟩,
    ⟨second.2, second.2⟩, ⟨third.1, third.1⟩, ⟨third.2, third.2⟩, ⟨fourth.1, fourth.1⟩, ⟨fourth.2, fourth.2⟩⟩

/-- `vaes_genkey_double`: each half has the keys of one context. -/
def vaesGenkeyDouble (low0 low1 high0 high1 : M128) : Keys M256 :=
  let first := aesGenkeySub aes 0x01 (low0, low1)
  let first' := aesGenkeySub aes 0x01 (high0, high1)
  let second := aesGenkeySub aes 0x02 first
  let second' := aesGenkeySub aes 0x02 first'
  let third := aesGenkeySub aes 0x04 second
  let third' := aesGenkeySub aes 0x04 second'
  let fourth := aesGenkeySub aes 0x08 third
  let fourth' := aesGenkeySub aes 0x08 third'
  ⟨⟨low0, high0⟩, ⟨low1, high1⟩, ⟨first.1, first'.1⟩, ⟨first.2, first'.2⟩, ⟨second.1, second'.1⟩,
    ⟨second.2, second'.2⟩, ⟨third.1, third'.1⟩, ⟨third.2, third'.2⟩, ⟨fourth.1, fourth'.1⟩, ⟨fourth.2, fourth'.2⟩⟩

def aesRound (key : M128) (lanes : Lanes) : Lanes := fun lane => aes.enc (lanes lane) key

/-- `vaes_round`, on four and on eight registers. -/
def vaesRound {n : Nat} (key : M256) (lanes : Fin n → M256) : Fin n → M256 :=
  fun lane => ⟨aes.enc (lanes lane).lo key.lo, aes.enc (lanes lane).hi key.hi⟩

def tenRounds {K X : Type} (round : K → X → X) (keys : Keys K) (lanes : X) : X :=
  round keys.k9 (round keys.k8 (round keys.k7 (round keys.k6 (round keys.k5 (round keys.k4
    (round keys.k3 (round keys.k2 (round keys.k1 (round keys.k0 lanes)))))))))

def mixAndPropagate (lanes : Lanes) : Lanes := fun lane => lanes lane ^^^ lanes (lane + 1)

end Keys

/-! ## The plain implementation -/

section Plain
variable (aes : Aes)

/-- `(64 << interleave) / sizeof(__m128i)`. -/
def increment (interleave : Nat) : Nat := (64 <<< interleave) / 16

theorem increment_eq (interleave : Nat) : increment interleave = 4 * 2 ^ interleave := by
  rw [increment, Nat.shiftLeft_eq]
  omega

theorem increment_pos (interleave : Nat) : 0 < increment interleave * 2 := by
  rw [increment_eq]
  have := Nat.two_pow_pos interleave
  omega

def vectorCount (memory : Nat) (half : Bool) : Nat := memory / 16 / if half then 2 else 1

def storeLanes (pad : Pad) (output step : Nat) (lanes : Lanes) : Pad :=
  (((((((pad.store output (lanes 0)).store (output + 1) (lanes 1)).store (output + 2) (lanes 2)).store (output + 3)
    (lanes 3)).store (output + step) (lanes 4)).store (output + step + 1) (lanes 5)).store (output + step + 2)
    (lanes 6)).store (output + step + 3) (lanes 7)

/-- One pass of the loop of `cn_explode_scratchpad`; the prefetch pointer is `ahead` of the output. -/
def explodePass (keys : Keys M128) (step ahead output : Nat) (state : Lanes × Pad) : Lanes × Pad :=
  let pad := (state.2.touch (output + ahead)).touch (output + ahead + step)
  let lanes := tenRounds (aesRound aes) keys state.1
  (lanes, storeLanes pad output step lanes)

def stateLanes (state : State) : Lanes := fun lane => state ⟨lane.val + 4, by omega⟩

def heavyRound (keys : Keys M128) (lanes : Lanes) : Lanes := mixAndPropagate (tenRounds (aesRound aes) keys lanes)

def explodeLoops (keys : Keys M128) (interleave count : Nat) (start : Lanes × Pad) : Lanes × Pad :=
  let step := increment interleave
  let dist := 2048 / 16
  let stop := (count <<< interleave) - dist
  let first := doSweep (step * 2) (increment_pos interleave) (explodePass aes keys step dist) stop 0 start
  (doSweep (step * 2) (increment_pos interleave) (explodePass aes keys step 0) (stop + dist) first.1 first.2).2

def cnExplodeScratchpad (interleave memory : Nat) (heavy half : Bool) (ctx : Context) : Context :=
  let keys := aesGenkey aes (ctx.state 0) (ctx.state 1)
  let lanes := if half && !ctx.firstHalf then ctx.saveState else stateLanes ctx.state
  let lanes := if heavy then (heavyRound aes keys)^[16] lanes else lanes
  let result := explodeLoops aes keys interleave (vectorCount memory half) (lanes, ctx.pad)
  { ctx with
    pad := result.2
    saveState := if half && ctx.firstHalf then result.1 else ctx.saveState }

structure Absorbing where
  input : Nat
  lanes : Lanes
  pad : Pad

/-- The eight loads of one pass, exclusive-ored into the vectors. -/
def loadLanes (pad : Pad) (input step : Nat) (lanes : Lanes) : Lanes := fun lane =>
  if lane.val < 4 then pad.block (input + lane.val) ^^^ lanes lane
  else pad.block (input + step + (lane.val - 4)) ^^^ lanes lane

def touchLanes (pad : Pad) (input step : Nat) : Pad :=
  (((((((pad.touch input).touch (input + 1)).touch (input + 2)).touch (input + 3)).touch (input + step)).touch
    (input + step + 1)).touch (input + step + 2)).touch (input + step + 3)

/-- One pass of the loop of `cn_implode_scratchpad`; there is a prefetch while `more` passes follow. -/
def implodePass (keys : Keys M128) (step : Nat) (heavy : Bool) (more : Nat → Bool) (i : Nat) (state : Absorbing) :
    Absorbing :=
  let lanes := loadLanes state.pad state.input step state.lanes
  let pad := touchLanes state.pad state.input step
  let input := state.input + step * 2
  let pad := if more (i + 8) then (pad.touch input).touch (input + step) else pad
  let lanes := tenRounds (aesRound aes) keys lanes
  { input, pad, lanes := if heavy then mixAndPropagate lanes else lanes }

def implodeLoop (keys : Keys M128) (interleave : Nat) (heavy : Bool) (more : Nat → Bool) (count : Nat) (lanes : Lanes)
    (pad : Pad) : Absorbing :=
  (sweep 8 (by omega) (implodePass aes keys (increment interleave) heavy more) count 0 { input := 0, lanes, pad }).2

def storeState (state : State) (lanes : Lanes) : State := fun index =>
  if inside : 4 ≤ index.val ∧ index.val < 12 then lanes ⟨index.val - 4, by omega⟩ else state index

def cnImplodeScratchpad (interleave memory : Nat) (heavy half : Bool) (ctx : Context) : Context :=
  let keys := aesGenkey aes (ctx.state 2) (ctx.state 3)
  let count := vectorCount memory half
  let first := implodeLoop aes keys interleave heavy (· < count) count (stateLanes ctx.state) ctx.pad
  let middle :=
    if half then
      let again := cnExplodeScratchpad aes interleave memory heavy half { ctx with pad := first.pad, firstHalf := false }
      let second := implodeLoop aes keys interleave heavy (· < count) count first.lanes again.pad
      (second.lanes, { again with pad := second.pad })
    else (first.lanes, { ctx with pad := first.pad })
  let last :=
    if heavy then
      let more := fun i => 0 < interleave ∧ i < memory / 16
      let again := implodeLoop aes keys interleave true (more ·) count middle.1 middle.2.pad
      ((heavyRound aes keys)^[16] again.lanes, { middle.2 with pad := again.pad })
    else middle
  { last.2 with state := storeState ctx.state last.1 }

end Plain

/-! ## What the loops do -/

section Loops
variable (aes : Aes) (keys : Keys M128)

/-- Where vector `index` of the scratchpad is in the memory. -/
def place (interleave index : Nat) : Nat := index / 4 * increment interleave + index % 4

def chain (start : Lanes) (passes : Nat) : Lanes := (tenRounds (aesRound aes) keys)^[passes] start

/-- Vector `index` of a filled scratchpad. -/
def filled (start : Lanes) (index : Nat) : M128 :=
  chain aes keys start (index / 8 + 1) ⟨index % 8, Nat.mod_lt _ (by omega)⟩

def absorb (heavy : Bool) (block : Nat → M128) : Nat → Lanes → Lanes
  | 0, lanes => lanes
  | passes + 1, lanes =>
    let mixed := fun lane : Fin 8 => block (8 * passes + lane.val) ^^^ absorb heavy block passes lanes lane
    let rounds := tenRounds (aesRound aes) keys mixed
    if heavy then mixAndPropagate rounds else rounds

variable {aes keys}

theorem chain_succ (start : Lanes) (passes : Nat) :
    chain aes keys start (passes + 1) = tenRounds (aesRound aes) keys (chain aes keys start passes) :=
  Function.iterate_succ_apply' _ _ _

theorem chain_add (start : Lanes) (first second : Nat) :
    chain aes keys start (first + second) = chain aes keys (chain aes keys start first) second := by
  rw [chain, Nat.add_comm, Function.iterate_add_apply]
  rfl

/-- The rest of a scratchpad is filled from where its first part ended. -/
theorem filled_add (start : Lanes) (passes index : Nat) :
    filled aes keys start (8 * passes + index) = filled aes keys (chain aes keys start passes) index := by
  have row : (8 * passes + index) / 8 + 1 = passes + (index / 8 + 1) := by omega
  have lane : (8 * passes + index) % 8 = index % 8 := by omega
  simp only [filled, row, lane, chain_add]

theorem absorb_congr {heavy : Bool} {block other : Nat → M128} {passes : Nat}
    (same : ∀ index < 8 * passes, block index = other index) (lanes : Lanes) :
    absorb aes keys heavy block passes lanes = absorb aes keys heavy other passes lanes := by
  induction passes with
  | zero => rfl
  | succ passes ih =>
    have before := ih fun index inside => same index (by omega)
    have row : ∀ lane : Fin 8, block (8 * passes + lane.val) = other (8 * passes + lane.val) :=
      fun lane => same _ (by omega)
    simp only [absorb, before, row]

theorem absorb_add (heavy : Bool) (block : Nat → M128) (first second : Nat) (lanes : Lanes) :
    absorb aes keys heavy block (first + second) lanes =
      absorb aes keys heavy (fun index => block (8 * first + index)) second (absorb aes keys heavy block first lanes) := by
  induction second with
  | zero => rfl
  | succ second ih =>
    have row : ∀ lane : Fin 8, 8 * (first + second) + lane.val = 8 * first + (8 * second + lane.val) := by
      intro lane
      omega
    rw [← Nat.add_assoc]
    simp only [absorb, ih, row]

def slot (output step : Nat) (lane : Fin 8) : Nat :=
  if lane.val < 4 then output + lane.val else output + step + (lane.val - 4)

theorem storeLanes_slot {step : Nat} (wide : 4 ≤ step) (pad : Pad) (output : Nat) (lanes : Lanes) (lane : Fin 8) :
    (storeLanes pad output step lanes).block (slot output step lane) = lanes lane := by
  obtain ⟨lane, small⟩ := lane
  interval_cases lane
  all_goals
    simp only [storeLanes, Pad.store, slot]
    simp (disch := omega)
    try omega

theorem storeLanes_other {step index : Nat} {pad : Pad} {output : Nat} {lanes : Lanes}
    (low : index < output ∨ output + 4 ≤ index) (high : index < output + step ∨ output + step + 4 ≤ index) :
    (storeLanes pad output step lanes).block index = pad.block index := by
  simp only [storeLanes, Pad.store, Function.update_apply]
  repeat rw [if_neg (by omega)]

theorem storeLanes_reach {step bound : Nat} {pad : Pad} {output : Nat} {lanes : Lanes} (wide : 4 ≤ step)
    (inside : output + step + 4 ≤ bound) (before : pad.reach ≤ bound) :
    (storeLanes pad output step lanes).reach ≤ bound := by
  simp only [storeLanes, Pad.store, Pad.touch]
  omega

theorem four_le_increment (interleave : Nat) : 4 ≤ increment interleave := by
  rw [increment_eq]
  have := Nat.two_pow_pos interleave
  omega

theorem place_pass (interleave passes : Nat) (lane : Fin 8) :
    place interleave (8 * passes + lane.val) =
      slot (increment interleave * 2 * passes) (increment interleave) lane := by
  unfold place slot
  split
  · have row : (8 * passes + lane.val) / 4 = 2 * passes := by omega
    have rest : (8 * passes + lane.val) % 4 = lane.val := by omega
    rw [row, rest, Nat.mul_comm (2 * passes), Nat.mul_assoc]
  · have row : (8 * passes + lane.val) / 4 = 2 * passes + 1 := by omega
    have rest : (8 * passes + lane.val) % 4 = lane.val - 4 := by omega
    rw [row, rest, Nat.add_mul, Nat.one_mul, Nat.mul_comm (2 * passes), Nat.mul_assoc]

theorem place_before {interleave passes index : Nat} (before : index < 8 * passes) :
    place interleave index < increment interleave * 2 * passes := by
  have wide := four_le_increment interleave
  have row : index / 4 * increment interleave + increment interleave ≤ 2 * passes * increment interleave := by
    rw [← Nat.succ_mul]
    exact Nat.mul_le_mul_right _ (by omega)
  have column : index % 4 < 4 := Nat.mod_lt _ (by omega)
  have order : increment interleave * 2 * passes = 2 * passes * increment interleave := by
    rw [Nat.mul_assoc, Nat.mul_comm]
  unfold place
  omega

/-- A scratchpad after some passes, with what was accessed. -/
structure Filled (aes : Aes) (keys : Keys M128) (start : Lanes) (interleave bound passes : Nat) (state : Lanes × Pad) :
    Prop where
  lanes : state.1 = chain aes keys start passes
  block : ∀ index < 8 * passes, state.2.block (place interleave index) = filled aes keys start index
  reach : state.2.reach ≤ bound

theorem Filled.pass {start : Lanes} {interleave bound passes ahead : Nat} {state : Lanes × Pad}
    (before : Filled aes keys start interleave bound passes state)
    (inside : increment interleave * 2 * (passes + 1) ≤ bound)
    (fetch : increment interleave * 2 * passes + ahead + increment interleave < bound) :
    Filled aes keys start interleave bound (passes + 1)
      (explodePass aes keys (increment interleave) ahead (increment interleave * 2 * passes) state) := by
  have wide := four_le_increment interleave
  have next : tenRounds (aesRound aes) keys state.1 = chain aes keys start (passes + 1) := by
    rw [before.lanes, chain_succ]
  refine ⟨next, ?_, ?_⟩
  · intro index small
    simp only [explodePass]
    by_cases old : index < 8 * passes
    · have apart := @place_before interleave passes index old
      rw [storeLanes_other (by omega) (by omega)]
      exact before.block index old
    · obtain ⟨lane, rfl⟩ : ∃ lane : Fin 8, index = 8 * passes + lane.val :=
        ⟨⟨index - 8 * passes, by omega⟩, by simp only; omega⟩
      have row : (8 * passes + lane.val) / 8 + 1 = passes + 1 := by omega
      have column : (8 * passes + lane.val) % 8 = lane.val := by omega
      rw [place_pass, storeLanes_slot wide, next, filled]
      simp only [row, column]
  · have reach := before.reach
    simp only [explodePass]
    apply storeLanes_reach wide
    · rw [Nat.mul_add] at inside
      omega
    · simp only [Pad.touch]
      omega

theorem shiftLeft_passes (interleave passes : Nat) :
    (8 * passes) <<< interleave = increment interleave * 2 * passes := by
  rw [Nat.shiftLeft_eq, increment_eq, Nat.mul_right_comm, Nat.mul_right_comm 4]

theorem Filled.loop {start : Lanes} {interleave bound before : Nat} {state : Lanes × Pad}
    (filled : Filled aes keys start interleave bound before state) (passes ahead : Nat) (some_ : 0 < passes)
    (room : increment interleave * 2 * (before + passes) + ahead ≤ bound) :
    ∃ final, doSweep (increment interleave * 2) (increment_pos interleave)
        (explodePass aes keys (increment interleave) ahead) (increment interleave * 2 * (before + passes))
        (increment interleave * 2 * before) state = (increment interleave * 2 * (before + passes), final) ∧
      Filled aes keys start interleave bound (before + passes) final := by
  have wide := four_le_increment interleave
  have running : increment interleave * 2 * before < increment interleave * 2 * (before + passes) :=
    Nat.mul_lt_mul_of_pos_left (by omega) (increment_pos interleave)
  rw [doSweep_eq_sweep running]
  apply sweep_rule (Filled aes keys start interleave bound) filled
  intro done small other sofar
  have further : increment interleave * 2 * (done + 1) ≤ increment interleave * 2 * (before + passes) :=
    Nat.mul_le_mul_left _ small
  have next : increment interleave * 2 * (done + 1) = increment interleave * 2 * done + increment interleave * 2 :=
    Nat.mul_succ _ _
  exact sofar.pass (by omega) (by omega)

/-- Both loops together make all passes; the prefetch distance is `tail` of them. -/
theorem explodeLoops_filled {interleave passes tail bound : Nat} (dist : increment interleave * 2 * tail = 128)
    (long : tail < passes) (room : increment interleave * 2 * passes ≤ bound) {lanes : Lanes} {pad : Pad}
    (reach : pad.reach ≤ bound) :
    Filled aes keys lanes interleave bound passes (explodeLoops aes keys interleave (8 * passes) (lanes, pad)) := by
  have some_ : 0 < tail := by
    rcases Nat.eq_zero_or_pos tail with rfl | some_
    · cases dist
    · exact some_
  obtain ⟨head, rfl⟩ : ∃ head, passes = head + tail := ⟨passes - tail, by omega⟩
  have total : increment interleave * 2 * (head + tail) = increment interleave * 2 * (0 + head) + 128 := by
    rw [Nat.mul_add, dist, Nat.zero_add]
  have stop : (8 * (head + tail)) <<< interleave - 2048 / 16 = increment interleave * 2 * (0 + head) := by
    rw [shiftLeft_passes, total]
    omega
  have last : increment interleave * 2 * (0 + head) + 2048 / 16 = increment interleave * 2 * (0 + head + tail) := by
    rw [Nat.zero_add, total, Nat.zero_add]
  have start : Filled aes keys lanes interleave bound 0 (lanes, pad) :=
    ⟨rfl, fun index impossible => absurd impossible (by omega), reach⟩
  obtain ⟨middle, firstRan, halfway⟩ := start.loop head 128 (by omega) (by omega)
  obtain ⟨final, secondRan, all⟩ := halfway.loop tail 0 some_ (by omega)
  unfold explodeLoops
  simp only [stop, last]
  rw [show doSweep _ _ _ _ 0 _ = _ from firstRan, secondRan]
  simpa using all

theorem loadLanes_slot (pad : Pad) (input step : Nat) (lanes : Lanes) (lane : Fin 8) :
    loadLanes pad input step lanes lane = pad.block (slot input step lane) ^^^ lanes lane := by
  unfold loadLanes slot
  split <;> rfl

theorem touch_block (pad : Pad) (index : Nat) : (pad.touch index).block = pad.block := rfl

theorem touchLanes_block (pad : Pad) (input step : Nat) : (touchLanes pad input step).block = pad.block := by
  simp only [touchLanes, touch_block]

theorem touchLanes_reach {step bound : Nat} {pad : Pad} {input : Nat} (wide : 4 ≤ step)
    (inside : input + step + 4 ≤ bound) (before : pad.reach ≤ bound) : (touchLanes pad input step).reach ≤ bound := by
  simp only [touchLanes, Pad.touch]
  omega

structure Absorbed (aes : Aes) (keys : Keys M128) (heavy : Bool) (interleave bound : Nat) (pad : Pad) (lanes : Lanes)
    (passes : Nat) (state : Absorbing) : Prop where
  input : state.input = increment interleave * 2 * passes
  lanes : state.lanes = absorb aes keys heavy (fun index => pad.block (place interleave index)) passes lanes
  block : state.pad.block = pad.block
  reach : state.pad.reach ≤ bound

theorem Absorbed.pass {heavy : Bool} {interleave bound passes total : Nat} {pad : Pad} {lanes : Lanes} {state : Absorbing}
    {more : Nat → Bool} (before : Absorbed aes keys heavy interleave bound pad lanes passes state) (small : passes < total)
    (room : increment interleave * 2 * total ≤ bound) (ends : ∀ i, more i = true → i < 8 * total) :
    Absorbed aes keys heavy interleave bound pad lanes (passes + 1)
      (implodePass aes keys (increment interleave) heavy more (8 * passes) state) := by
  have wide := four_le_increment interleave
  have next : increment interleave * 2 * (passes + 1) = increment interleave * 2 * passes + increment interleave * 2 :=
    Nat.mul_succ _ _
  have inside : increment interleave * 2 * (passes + 1) ≤ bound := Nat.le_trans (Nat.mul_le_mul_left _ small) room
  refine ⟨?_, ?_, ?_, ?_⟩
  · simp only [implodePass]
    rw [before.input, next]
  · have loaded : loadLanes state.pad state.input (increment interleave) state.lanes = fun lane : Fin 8 =>
        pad.block (place interleave (8 * passes + lane.val)) ^^^
          absorb aes keys heavy (fun index => pad.block (place interleave index)) passes lanes lane := by
      funext lane
      rw [loadLanes_slot, before.block, before.input, before.lanes, place_pass]
    simp only [implodePass, loaded, absorb]
  · simp only [implodePass]
    split
    · rw [touch_block, touch_block, touchLanes_block, before.block]
    · rw [touchLanes_block, before.block]
  · have touched : (touchLanes state.pad state.input (increment interleave)).reach ≤ bound :=
      touchLanes_reach wide (by rw [before.input]; omega) before.reach
    simp only [implodePass]
    split
    · rename_i follows
      have again := ends _ follows
      have room' : increment interleave * 2 * (passes + 1 + 1) ≤ bound :=
        Nat.le_trans (Nat.mul_le_mul_left _ (by omega)) room
      rw [Nat.mul_succ] at room'
      have input := before.input
      simp only [Pad.touch]
      omega
    · exact touched

theorem implodeLoop_absorbed {heavy : Bool} {interleave bound passes : Nat} {pad : Pad} {more : Nat → Bool}
    (room : increment interleave * 2 * passes ≤ bound) (ends : ∀ i, more i = true → i < 8 * passes)
    (reach : pad.reach ≤ bound) (lanes : Lanes) :
    Absorbed aes keys heavy interleave bound pad lanes passes
      (implodeLoop aes keys interleave heavy more (8 * passes) lanes pad) := by
  have start : Absorbed aes keys heavy interleave bound pad lanes 0 { input := 0, lanes, pad } := ⟨rfl, rfl, rfl, reach⟩
  obtain ⟨final, ran, absorbed⟩ := @sweep_rule _ 8 (Nat.succ_pos 7)
    (implodePass aes keys (increment interleave) heavy more)
    (Absorbed aes keys heavy interleave bound pad lanes) 0 passes _ start
    fun done small state before => before.pass small (by rwa [Nat.zero_add]) (by rwa [Nat.zero_add])
  rw [Nat.zero_add] at ran absorbed
  unfold implodeLoop
  rw [show sweep 8 _ _ (8 * passes) 0 _ = _ from ran]
  exact absorbed

end Loops

/-! ## What both functions do -/

/-- The memory is a whole number of passes, and so is the prefetch distance. -/
structure Geometry (interleave memory : Nat) (half : Bool) (passes tail : Nat) : Prop where
  count : vectorCount memory half = 8 * passes
  dist : increment interleave * 2 * tail = 128
  long : tail < passes

section Functions
variable (aes : Aes)

def explodeStart (heavy half : Bool) (ctx : Context) : Lanes :=
  let keys := aesGenkey aes (ctx.state 0) (ctx.state 1)
  let lanes := if half && !ctx.firstHalf then ctx.saveState else stateLanes ctx.state
  if heavy then (heavyRound aes keys)^[16] lanes else lanes

variable {aes} {interleave memory passes tail bound : Nat} {heavy half : Bool} {ctx : Context}

theorem explode_filled (geometry : Geometry interleave memory half passes tail)
    (room : increment interleave * 2 * passes ≤ bound) (reach : ctx.pad.reach ≤ bound) :
    Filled aes (aesGenkey aes (ctx.state 0) (ctx.state 1)) (explodeStart aes heavy half ctx) interleave bound passes
      (explodeLoops aes (aesGenkey aes (ctx.state 0) (ctx.state 1)) interleave (vectorCount memory half)
        (explodeStart aes heavy half ctx, ctx.pad)) := by
  rw [geometry.count]
  exact explodeLoops_filled geometry.dist geometry.long room reach

/-- Filling writes every vector of the scratchpad, and for the first half it keeps where it ended. -/
theorem cnExplode_spec (geometry : Geometry interleave memory half passes tail)
    (room : increment interleave * 2 * passes ≤ bound) (reach : ctx.pad.reach ≤ bound) :
    (∀ index < 8 * passes, (cnExplodeScratchpad aes interleave memory heavy half ctx).pad.block (place interleave index) =
        filled aes (aesGenkey aes (ctx.state 0) (ctx.state 1)) (explodeStart aes heavy half ctx) index) ∧
      (cnExplodeScratchpad aes interleave memory heavy half ctx).pad.reach ≤ bound ∧
      (cnExplodeScratchpad aes interleave memory heavy half ctx).state = ctx.state ∧
      (cnExplodeScratchpad aes interleave memory heavy half ctx).firstHalf = ctx.firstHalf ∧
      (cnExplodeScratchpad aes interleave memory heavy half ctx).saveState =
        if half && ctx.firstHalf then
          chain aes (aesGenkey aes (ctx.state 0) (ctx.state 1)) (explodeStart aes heavy half ctx) passes
        else ctx.saveState := by
  have all := @explode_filled aes _ _ _ _ _ heavy _ _ geometry room reach
  refine ⟨all.block, all.reach, rfl, rfl, ?_⟩
  rw [← all.lanes]
  rfl

def implodeLanes (aes : Aes) (keys : Keys M128) (heavy : Bool) (block : Nat → M128) (passes : Nat) (lanes : Lanes) : Lanes :=
  if heavy then (heavyRound aes keys)^[16] (absorb aes keys true block passes (absorb aes keys heavy block passes lanes))
  else absorb aes keys heavy block passes lanes

theorem cnImplode_whole (geometry : Geometry interleave memory false passes tail)
    (room : increment interleave * 2 * passes ≤ bound) (reach : ctx.pad.reach ≤ bound) :
    (cnImplodeScratchpad aes interleave memory heavy false ctx).state =
        storeState ctx.state (implodeLanes aes (aesGenkey aes (ctx.state 2) (ctx.state 3)) heavy
          (fun index => ctx.pad.block (place interleave index)) passes (stateLanes ctx.state)) ∧
      (cnImplodeScratchpad aes interleave memory heavy false ctx).pad.reach ≤ bound := by
  have count : memory / 16 = 8 * passes := by
    have := geometry.count
    simpa [vectorCount] using this
  have first := @implodeLoop_absorbed aes (aesGenkey aes (ctx.state 2) (ctx.state 3)) heavy interleave bound passes ctx.pad
    (fun i => decide (i < 8 * passes)) room (fun i inside => of_decide_eq_true inside) reach (stateLanes ctx.state)
  cases heavy with
  | false =>
    simp only [cnImplodeScratchpad, geometry.count, Bool.false_eq_true, if_false, implodeLanes]
    exact ⟨by rw [first.lanes], first.reach⟩
  | true =>
    have second := @implodeLoop_absorbed aes (aesGenkey aes (ctx.state 2) (ctx.state 3)) true interleave bound passes
      (implodeLoop aes (aesGenkey aes (ctx.state 2) (ctx.state 3)) interleave true (fun i => decide (i < 8 * passes))
        (8 * passes) (stateLanes ctx.state) ctx.pad).pad
      (fun i => decide (0 < interleave ∧ i < memory / 16)) room
      (fun i inside => count ▸ (of_decide_eq_true inside).2) first.reach
      (implodeLoop aes (aesGenkey aes (ctx.state 2) (ctx.state 3)) interleave true (fun i => decide (i < 8 * passes))
        (8 * passes) (stateLanes ctx.state) ctx.pad).lanes
    simp only [cnImplodeScratchpad, geometry.count, Bool.false_eq_true, if_false, if_true, implodeLanes]
    refine ⟨?_, second.reach⟩
    rw [second.lanes, first.lanes, first.block]

end Functions

end Xmrig.Cryptonight
