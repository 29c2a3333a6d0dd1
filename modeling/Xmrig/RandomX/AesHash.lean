import Xmrig.Foundation.Sweep
import Mathlib.Logic.Function.Basic
import Mathlib.Tactic.Ring

/-! AES hashing and filling of the scratchpad.

`hashAes1Rx4` absorbs the scratchpad as round keys of four lanes,
`fillAes1Rx4` overwrites it with the successive states of four other lanes,
and `hashAndFillAes1Rx4` does both in one pass over the memory, in chunks
whose shape depends on the AES implementation. One AES round is a parameter.
-/

set_option autoImplicit false

namespace Xmrig.RandomX

open Foundation

/-- The two AES rounds, `aesenc` and `aesdec`. -/
structure AesRound where
  enc : BitVec 128 → BitVec 128 → BitVec 128
  dec : BitVec 128 → BitVec 128 → BitVec 128

/-- `rx_set_int_vec_i128`: the last word is the lowest. -/
def setIntVec (w3 w2 w1 w0 : BitVec 32) : BitVec 128 := w3 ++ w2 ++ w1 ++ w0

structure Lanes where
  lane0 : BitVec 128
  lane1 : BitVec 128
  lane2 : BitVec 128
  lane3 : BitVec 128
  deriving DecidableEq, Repr

/-- Memory from the scratchpad on, as sixteen-byte vectors. -/
abbrev Vectors := Nat → BitVec 128

/-- The four vectors of chunk `k` of 64 bytes after the byte offset `pointer`. -/
def loadLanes (memory : Vectors) (pointer k : Nat) : Lanes where
  lane0 := memory (pointer / 16 + k * 4)
  lane1 := memory (pointer / 16 + k * 4 + 1)
  lane2 := memory (pointer / 16 + k * 4 + 2)
  lane3 := memory (pointer / 16 + k * 4 + 3)

def storeLanes (memory : Vectors) (pointer k : Nat) (lanes : Lanes) : Vectors :=
  Function.update (Function.update (Function.update (Function.update memory
    (pointer / 16 + k * 4) lanes.lane0) (pointer / 16 + k * 4 + 1) lanes.lane1)
    (pointer / 16 + k * 4 + 2) lanes.lane2) (pointer / 16 + k * 4 + 3) lanes.lane3

def hashInitial : Lanes where
  lane0 := setIntVec 0xd7983aad 0xcc82db47 0x9fa856de 0x92b52c0d
  lane1 := setIntVec 0xace78057 0xf59e125a 0x15c7b798 0x338d996e
  lane2 := setIntVec 0xe8a07ce4 0x5079506b 0xae62c7d0 0x6a770017
  lane3 := setIntVec 0x7e994948 0x79a10005 0x07ad828d 0x630a240c

def hashXkey0 : BitVec 128 := setIntVec 0x06890201 0x90dc56bf 0x8b24949f 0xf6fa8389
def hashXkey1 : BitVec 128 := setIntVec 0xed18f99b 0xee1043c6 0x51f4e03c 0x61b263d1

def genKeys : Lanes where
  lane0 := setIntVec 0xb4f44917 0xdbb5552b 0x62716609 0x6daca553
  lane1 := setIntVec 0x0da1dc4e 0x1725d378 0x846a710d 0x6d7caf07
  lane2 := setIntVec 0x3e20e345 0xf4c0794f 0x9f947ec6 0x3f1262f1
  lane3 := setIntVec 0x49169154 0x16314c88 0xb1ba317c 0x6aef8135

section Loops
variable (aes : AesRound)

def hashRound (state keys : Lanes) : Lanes where
  lane0 := aes.enc state.lane0 keys.lane0
  lane1 := aes.dec state.lane1 keys.lane1
  lane2 := aes.enc state.lane2 keys.lane2
  lane3 := aes.dec state.lane3 keys.lane3

/-- One round of the fill lanes; encryption and decryption are the other way round. -/
def fillRound (state : Lanes) : Lanes where
  lane0 := aes.dec state.lane0 genKeys.lane0
  lane1 := aes.enc state.lane1 genKeys.lane1
  lane2 := aes.dec state.lane2 genKeys.lane2
  lane3 := aes.enc state.lane3 genKeys.lane3

def hashFinish (state : Lanes) : Lanes :=
  hashRound aes (hashRound aes state ⟨hashXkey0, hashXkey0, hashXkey0, hashXkey0⟩)
    ⟨hashXkey1, hashXkey1, hashXkey1, hashXkey1⟩

def hashAes1Rx4 (input : Vectors) (inputSize : Nat) : Lanes :=
  hashFinish aes (sweep 64 (by decide)
    (fun inptr state => hashRound aes state (loadLanes input inptr 0)) inputSize 0 hashInitial).2

def fillPass (outptr : Nat) (state : Lanes × Vectors) : Lanes × Vectors :=
  (fillRound aes state.1, storeLanes state.2 outptr 0 (fillRound aes state.1))

def fillAes1Rx4 (state : Lanes) (outputSize : Nat) (buffer : Vectors) : Lanes × Vectors :=
  (sweep 64 (by decide) (fillPass aes) outputSize 0 (state, buffer)).2

/-- The variables of the combined loop. -/
structure HashAndFill where
  hash : Lanes
  fill : Lanes
  memory : Vectors

/-- `HASH_STATE(k)`. -/
def hashState (pointer k : Nat) (state : HashAndFill) : HashAndFill :=
  { state with hash := hashRound aes state.hash (loadLanes state.memory pointer k) }

/-- `FILL_STATE(k)`. -/
def fillState (pointer k : Nat) (state : HashAndFill) : HashAndFill :=
  { state with
    fill := fillRound aes state.fill
    memory := storeLanes state.memory pointer k (fillRound aes state.fill) }

/-- Hash and fill chunk `k`. -/
def hashThenFill (pointer k : Nat) (state : HashAndFill) : HashAndFill :=
  fillState aes pointer k (hashState aes pointer k state)

/-- The body of the loop for the template arguments `softAes` and `unroll`. -/
def hashAndFillPass (softAes unroll pointer : Nat) (state : HashAndFill) : HashAndFill :=
  match softAes with
  | 0 => fillState aes pointer 1 (fillState aes pointer 0
      (hashState aes pointer 1 (hashState aes pointer 0 state)))
  | _ => match unroll with
    | 4 => hashThenFill aes pointer 3 (hashThenFill aes pointer 2
        (hashThenFill aes pointer 1 (hashThenFill aes pointer 0 state)))
    | 2 => hashThenFill aes pointer 1 (hashThenFill aes pointer 0 state)
    | _ => hashThenFill aes pointer 0 state

def unrolled (softAes unroll : Nat) : Nat :=
  match softAes with
  | 0 => 2
  | _ => match unroll with
    | 4 => 4
    | 2 => 2
    | _ => 1

theorem unrolled_pos (softAes unroll : Nat) : 0 < unrolled softAes unroll := by
  unfold unrolled
  split
  · decide
  · split <;> decide

theorem unrolled_stride (softAes unroll : Nat) : 0 < 64 * unrolled softAes unroll :=
  Nat.mul_pos (by decide) (unrolled_pos softAes unroll)

def prefetchDistance : Nat := 7168

/-- `hashAndFillAes1Rx4<softAes, unroll>`: the loop runs up to the prefetch distance before
the end and then, with the prefetch pointer set back, up to the end. The prefetches have no
effect on memory. -/
def hashAndFillAes1Rx4 (softAes unroll : Nat) (memory : Vectors) (scratchpadSize : Nat)
    (fill : Lanes) : HashAndFill :=
  let loop := sweep (64 * unrolled softAes unroll) (unrolled_stride softAes unroll)
    (hashAndFillPass aes softAes unroll)
  let first := loop (scratchpadSize - prefetchDistance) 0 ⟨hashInitial, fill, memory⟩
  let second := loop scratchpadSize first.1 first.2
  { second.2 with hash := hashFinish aes second.2.hash }

end Loops

section Chunks
variable (aes : AesRound)

/-- The hash lanes after the first `n` chunks of 64 bytes. -/
def absorbed (memory : Vectors) : Nat → Lanes
  | 0 => hashInitial
  | n + 1 => hashRound aes (absorbed memory n) (loadLanes memory (64 * n) 0)

/-- The fill lanes after `n` rounds. -/
def generated (fill : Lanes) : Nat → Lanes
  | 0 => fill
  | n + 1 => fillRound aes (generated fill n)

/-- The memory with its first `n` chunks filled. -/
def overwritten (fill : Lanes) (memory : Vectors) : Nat → Vectors
  | 0 => memory
  | n + 1 => storeLanes (overwritten fill memory n) (64 * n) 0 (generated aes fill (n + 1))

theorem loadLanes_chunk (memory : Vectors) (n k : Nat) :
    loadLanes memory (64 * n) k = loadLanes memory (64 * (n + k)) 0 := by
  unfold loadLanes
  rw [show 64 * (n + k) / 16 + 0 * 4 = 64 * n / 16 + k * 4 by omega]

theorem storeLanes_chunk (memory : Vectors) (n k : Nat) (lanes : Lanes) :
    storeLanes memory (64 * n) k lanes = storeLanes memory (64 * (n + k)) 0 lanes := by
  unfold storeLanes
  rw [show 64 * (n + k) / 16 + 0 * 4 = 64 * n / 16 + k * 4 by omega]

/-- A store changes the four vectors of its chunk only. -/
theorem storeLanes_apply_of_ne (memory : Vectors) {n index : Nat} (lanes : Lanes)
    (outside : index / 4 ≠ n) : storeLanes memory (64 * n) 0 lanes index = memory index := by
  unfold storeLanes
  rw [Function.update_of_ne (by omega), Function.update_of_ne (by omega),
    Function.update_of_ne (by omega), Function.update_of_ne (by omega)]

theorem overwritten_apply_of_le (fill : Lanes) (memory : Vectors) {n index : Nat}
    (outside : n ≤ index / 4) : overwritten aes fill memory n index = memory index := by
  induction n with
  | zero => rfl
  | succ n ih =>
    rw [overwritten, storeLanes_apply_of_ne _ _ (by omega)]
    exact ih (by omega)

theorem loadLanes_congr {left right : Vectors} {n : Nat}
    (same : ∀ index, index / 4 = n → left index = right index) :
    loadLanes left (64 * n) 0 = loadLanes right (64 * n) 0 := by
  unfold loadLanes
  rw [same _ (by omega), same _ (by omega), same _ (by omega), same _ (by omega)]

theorem absorbed_congr {left right : Vectors} {n : Nat}
    (same : ∀ index < 4 * n, left index = right index) :
    absorbed aes left n = absorbed aes right n := by
  induction n with
  | zero => rfl
  | succ n ih =>
    rw [absorbed, absorbed, ih fun index below => same index (by omega),
      loadLanes_congr fun index inside => same index (by omega)]

theorem overwritten_congr (fill : Lanes) (left right : Vectors) {n index : Nat}
    (inside : index < 4 * n) :
    overwritten aes fill left n index = overwritten aes fill right n index := by
  induction n with
  | zero => omega
  | succ n ih =>
    rw [overwritten, overwritten]
    by_cases last : index / 4 = n
    · unfold storeLanes
      simp only [Function.update_apply]
      split
      · rfl
      split
      · rfl
      split
      · rfl
      split
      · rfl
      · omega
    · rw [storeLanes_apply_of_ne _ _ last, storeLanes_apply_of_ne _ _ last]
      exact ih (by omega)

theorem hashAes1Rx4_eq (input : Vectors) (n : Nat) :
    hashAes1Rx4 aes input (64 * n) = hashFinish aes (absorbed aes input n) := by
  have loop := sweep_trace (show 0 < 64 by decide)
    (fun inptr state => hashRound aes state (loadLanes input inptr 0)) (absorbed aes input)
    (fun _ => rfl) 0 n
  rw [Nat.zero_add] at loop
  exact congrArg (fun result => hashFinish aes result.2) loop

theorem fillAes1Rx4_eq (fill : Lanes) (buffer : Vectors) (n : Nat) :
    fillAes1Rx4 aes fill (64 * n) buffer =
      (generated aes fill n, overwritten aes fill buffer n) := by
  have loop := sweep_trace (show 0 < 64 by decide) (fillPass aes)
    (fun i => (generated aes fill i, overwritten aes fill buffer i)) (fun _ => rfl) 0 n
  rw [Nat.zero_add] at loop
  exact congrArg Prod.snd loop

/-- The combined loop after `n` chunks: what is still to be hashed has not been filled. -/
def progress (fill : Lanes) (memory : Vectors) (n : Nat) : HashAndFill where
  hash := absorbed aes memory n
  fill := generated aes fill n
  memory := overwritten aes fill memory n

variable {aes} {fill : Lanes} {memory : Vectors}

theorem loadLanes_overwritten {n m : Nat} (ahead : n ≤ m) :
    loadLanes (overwritten aes fill memory n) (64 * m) 0 = loadLanes memory (64 * m) 0 :=
  loadLanes_congr fun _ inside => overwritten_apply_of_le aes fill memory (by omega)

theorem hashThenFill_progress (n k : Nat) :
    hashThenFill aes (64 * n) k (progress aes fill memory (n + k)) =
      progress aes fill memory (n + k + 1) := by
  unfold hashThenFill hashState fillState progress
  dsimp only
  rw [loadLanes_chunk, storeLanes_chunk, loadLanes_overwritten (Nat.le_refl _)]
  rfl

theorem hashAndFillPass_hard (unroll n : Nat) :
    hashAndFillPass aes 0 unroll (64 * n) (progress aes fill memory n) =
      progress aes fill memory (n + 2) := by
  unfold hashAndFillPass hashState fillState progress
  dsimp only
  rw [loadLanes_chunk _ n 1, storeLanes_chunk _ n 1, loadLanes_overwritten (Nat.le_refl n),
    loadLanes_overwritten (Nat.le_succ n)]
  rfl

theorem hashAndFillPass_progress (softAes unroll n : Nat) :
    hashAndFillPass aes softAes unroll (64 * n) (progress aes fill memory n) =
      progress aes fill memory (n + unrolled softAes unroll) := by
  have first : hashThenFill aes (64 * n) 0 (progress aes fill memory n) =
      progress aes fill memory (n + 1) := hashThenFill_progress n 0
  unfold hashAndFillPass unrolled
  split
  · exact hashAndFillPass_hard unroll n
  · split
    · rw [first, hashThenFill_progress, hashThenFill_progress, hashThenFill_progress]
    · rw [first, hashThenFill_progress]
    · exact first

theorem unrolled_dvd (softAes unroll : Nat) : ∃ w, unrolled softAes unroll * w = 4 := by
  unfold unrolled
  split
  · exact ⟨2, rfl⟩
  · split
    · exact ⟨1, rfl⟩
    · exact ⟨2, rfl⟩
    · exact ⟨4, rfl⟩

/-- The combined pass computes what hashing and then filling computes, whatever the AES
implementation and the unrolling. -/
theorem hashAndFillAes1Rx4_eq (softAes unroll : Nat) {size : Nat} (aligned : 256 ∣ size)
    (large : prefetchDistance ≤ size) :
    hashAndFillAes1Rx4 aes softAes unroll memory size fill =
      ⟨hashAes1Rx4 aes memory size, (fillAes1Rx4 aes fill size memory).1,
        (fillAes1Rx4 aes fill size memory).2⟩ := by
  obtain ⟨w, whole⟩ := unrolled_dvd softAes unroll
  obtain ⟨q, rfl⟩ := aligned
  obtain ⟨p, rfl⟩ : ∃ p, q = p + 28 := ⟨q - 28, by unfold prefetchDistance at large; omega⟩
  have loop := sweep_trace (unrolled_stride softAes unroll) (hashAndFillPass aes softAes unroll)
    (fun i => progress aes fill memory (unrolled softAes unroll * i)) fun i => by
      rw [Nat.mul_assoc]
      exact hashAndFillPass_progress softAes unroll _
  -- Both bounds are a whole number of passes away, so the pointer never overshoots.
  have chunks : ∀ m, unrolled softAes unroll * (w * m) = 4 * m := fun m => by
    rw [← Nat.mul_assoc, whole]
  have bytes : ∀ m, 64 * unrolled softAes unroll * (w * m) = 256 * m := fun m => by
    rw [Nat.mul_assoc, chunks, ← Nat.mul_assoc]
  have first := loop 0 (w * p)
  have second := loop (w * p) (w * 28)
  rw [Nat.zero_add, Nat.mul_zero, Nat.mul_zero, bytes, chunks] at first
  rw [← Nat.mul_add, bytes, bytes, chunks, chunks] at second
  unfold hashAndFillAes1Rx4
  dsimp only
  rw [show 256 * (p + 28) - prefetchDistance = 256 * p by unfold prefetchDistance; omega]
  rw [show (⟨hashInitial, fill, memory⟩ : HashAndFill) = progress aes fill memory 0 from rfl, first,
    second, show 256 * (p + 28) = 64 * (4 * (p + 28)) by ring, hashAes1Rx4_eq, fillAes1Rx4_eq]
  rfl

end Chunks

end Xmrig.RandomX
