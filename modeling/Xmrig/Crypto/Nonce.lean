import Xmrig.Base.Job
import Xmrig.Foundation.Block
import Mathlib.Logic.Function.Basic

/-! The process-wide nonce counters of `Nonce`.

One pass of the loop in `Nonce::next` is the pure function `attempt` of the
value that `fetch_add` returned. `next` iterates it for one caller; the
advances that other threads make between two of its `fetch_add` calls are an
argument.
-/

set_option autoImplicit false

namespace Xmrig

inductive Backend where
  | cpu | opencl | cuda
  deriving DecidableEq, Repr

/-- The static members of `Nonce`. -/
structure Nonce where
  paused : Bool := true
  sequence : Backend → BitVec 64 := fun _ => 1
  nonces : Fin 2 → BitVec 64 := fun _ => 0

namespace Nonce

def isOutdated (nonce : Nonce) (backend : Backend) (sequence : BitVec 64) : Bool :=
  nonce.sequence backend ≠ sequence

def pause (nonce : Nonce) (paused : Bool) : Nonce := { nonce with paused }

def reset (nonce : Nonce) (index : Fin 2) : Nonce :=
  { nonce with nonces := Function.update nonce.nonces index 0 }

def stop (nonce : Nonce) : Nonce := { nonce with paused := false, sequence := fun _ => 0 }

def touch (nonce : Nonce) : Nonce :=
  { nonce with sequence := fun backend => nonce.sequence backend + 1 }

/-- The two adjacent words at the nonce pointer. -/
structure Words where
  lo : BitVec 32
  hi : BitVec 32
  deriving DecidableEq, Repr

/-- `mask &= 0x7FFFFFFFFFFFFFFF` at the top of `next`. -/
def effective (mask : BitVec 64) : BitVec 64 := mask &&& 0x7FFFFFFFFFFFFFFF#64

inductive Attempt where
  | exhausted
  | short
  | last
  | retry
  | take
  deriving DecidableEq, Repr

/-- One pass of the loop body; `mask` is already the effective mask. -/
def attempt (mask counter : BitVec 64) (reserveCount : BitVec 32) : Attempt :=
  if mask < counter then .exhausted
  else if mask - counter ≤ (reserveCount - 1).setWidth 64 then
    if mask - counter < (reserveCount - 1).setWidth 64 then .short else .last
  else if 0xFFFFFFFF#32 - counter.setWidth 32 < reserveCount - 1 then .retry
  else .take

def Attempt.granted : Attempt → Bool
  | .last | .take => true
  | .exhausted | .short | .retry => false

def Attempt.pauses : Attempt → Bool
  | .short | .last => true
  | .exhausted | .retry | .take => false

/-- The two `writeUnaligned` calls of a successful pass. -/
def write (mask counter : BitVec 64) (words : Words) : Words where
  lo := ((words.lo.setWidth 64 &&& ~~~mask) ||| counter).setWidth 32
  hi :=
    if 0xFFFFFFFF#64 < mask then
      ((words.hi.setWidth 64 &&& (~~~mask >>> 32)) ||| (counter >>> 32)).setWidth 32
    else words.hi

/-- `fetch_add`, after other threads have advanced the counter by `others`. -/
def fetchAdd (nonce : Nonce) (index : Fin 2) (reserveCount : BitVec 32) (others : BitVec 62) :
    BitVec 64 × Nonce :=
  let counter := nonce.nonces index + others.setWidth 64
  (counter,
    { nonce with nonces := Function.update nonce.nonces index (counter + reserveCount.setWidth 64) })

/-- `pause(true)` of a pass that reached the end of the nonce space. -/
def pauseAfter (nonce : Nonce) (outcome : Attempt) : Nonce :=
  if outcome.pauses then nonce.pause true else nonce

/-- What `next` leaves behind: the first nonce of the block it returned (`none`
for `false`), the counters, and the words at the nonce pointer. -/
structure Reply where
  granted : Option (BitVec 64)
  nonce : Nonce
  words : Words

/-- The `while (true)` loop, with the pass number in `pass`. -/
def nextLoop (index : Fin 2) (reserveCount : BitVec 32) (mask : BitVec 64)
    (others : Nat → BitVec 62) (words : Words) : (fuel pass : Nat) → Nonce → Reply
  | 0, _, nonce => ⟨none, nonce, words⟩
  | fuel + 1, pass, nonce =>
      let (counter, nonce) := nonce.fetchAdd index reserveCount (others pass)
      let outcome := attempt mask counter reserveCount
      let nonce := nonce.pauseAfter outcome
      match outcome with
      | .exhausted | .short => ⟨none, nonce, words⟩
      | .last | .take => ⟨some counter, nonce, write mask counter words⟩
      | .retry => nextLoop index reserveCount mask others words fuel (pass + 1) nonce

/-- Every pass fetches a larger counter and the loop stops above the mask, so
this many passes are enough; see `nextLoop_fuel`. -/
def fuelFor (mask : BitVec 64) : Nat := mask.toNat + 2

def next (nonce : Nonce) (index : Fin 2) (words : Words) (reserveCount : BitVec 32)
    (mask : BitVec 64) (others : Nat → BitVec 62) : Reply :=
  let mask := effective mask
  if reserveCount = 0 ∨ mask < (reserveCount - 1).setWidth 64 then ⟨none, nonce, words⟩
  else nextLoop index reserveCount mask others words (fuelFor mask) 0 nonce

/-! ## The loop body over natural numbers -/

/-- All ones at the bottom, at most 63 of them. -/
def IsLow (mask : BitVec 64) : Prop := ∃ bits ≤ 63, mask.toNat = 2 ^ bits - 1

theorem IsLow.lt {mask : BitVec 64} (low : IsLow mask) : mask.toNat < 2 ^ 63 := by
  obtain ⟨bits, small, same⟩ := low
  have := Nat.pow_le_pow_right (n := 2) (by omega) small
  have : 0 < 2 ^ bits := Nat.two_pow_pos bits
  omega

theorem toNat_effective (mask : BitVec 64) : (effective mask).toNat = mask.toNat % 2 ^ 63 := by
  unfold effective
  rw [BitVec.toNat_and, show (0x7FFFFFFFFFFFFFFF#64).toNat = 2 ^ 63 - 1 by decide,
    Nat.and_two_pow_sub_one_eq_mod]

theorem effective_low {mask : BitVec 64} (low : ∃ bits ≤ 64, mask.toNat = 2 ^ bits - 1) :
    IsLow (effective mask) := by
  obtain ⟨bits, small, same⟩ := low
  have positive : 0 < 2 ^ bits := Nat.two_pow_pos bits
  by_cases top : bits = 64
  · exact ⟨63, by omega, by rw [toNat_effective, same, top]; decide⟩
  · have bound := Nat.pow_le_pow_right (n := 2) (by omega) (show bits ≤ 63 by omega)
    exact ⟨bits, by omega, by rw [toNat_effective, same, Nat.mod_eq_of_lt (by omega)]⟩

theorem effective_nonceMask_low (job : Job) : IsLow (effective job.nonceMask) :=
  effective_low job.nonceMask_low

theorem toNat_pred {count : BitVec 32} (positive : count ≠ 0) :
    ((count - 1).setWidth 64).toNat = count.toNat - 1 ∧ (count - 1).toNat = count.toNat - 1 ∧
      0 < count.toNat := by
  have : count.toNat ≠ 0 := fun zero => positive (BitVec.eq_of_toNat_eq zero)
  have bound := count.isLt
  bv_omega

/-- A block of `count` nonces from `first` that ends inside the mask and whose
low words do not wrap. -/
structure Fits (mask : BitVec 64) (count : BitVec 32) (first : BitVec 64) : Prop where
  positive : 0 < count.toNat
  inside : first.toNat + count.toNat ≤ mask.toNat + 1
  low : first.toNat % 2 ^ 32 + count.toNat ≤ 2 ^ 32

instance decidableFits (mask : BitVec 64) (count : BitVec 32) (first : BitVec 64) :
    Decidable (Fits mask count first) :=
  decidable_of_iff (0 < count.toNat ∧ first.toNat + count.toNat ≤ mask.toNat + 1 ∧
      first.toNat % 2 ^ 32 + count.toNat ≤ 2 ^ 32)
    ⟨fun ⟨positive, inside, low⟩ => ⟨positive, inside, low⟩, fun ⟨positive, inside, low⟩ => ⟨positive, inside, low⟩⟩

theorem low_of_last {mask first : BitVec 64} {count : BitVec 32} (low : IsLow mask)
    (positive : 0 < count.toNat) (last : first.toNat + count.toNat = mask.toNat + 1) :
    first.toNat % 2 ^ 32 + count.toNat ≤ 2 ^ 32 := by
  obtain ⟨bits, small, same⟩ := low
  have ones : 0 < 2 ^ bits := Nat.two_pow_pos bits
  have total : first.toNat + count.toNat = 2 ^ bits := by omega
  by_cases narrow : bits ≤ 32
  · have := Nat.pow_le_pow_right (n := 2) (by omega) narrow
    have := Nat.mod_le first.toNat (2 ^ 32)
    omega
  · obtain ⟨extra, rfl⟩ := Nat.exists_eq_add_of_le (show 32 ≤ bits by omega)
    rw [Nat.pow_add] at total
    have := count.isLt
    omega

theorem attempt_granted {mask counter : BitVec 64} {count : BitVec 32} (low : IsLow mask)
    (positive : count ≠ 0) :
    (attempt mask counter count).granted = true ↔ Fits mask count counter := by
  obtain ⟨wide, narrow, nonzero⟩ := toNat_pred positive
  have below := low.lt
  have lowWord : (counter.setWidth 32).toNat = counter.toNat % 2 ^ 32 := BitVec.toNat_setWidth _ _
  have room : (0xFFFFFFFF#32 - counter.setWidth 32).toNat =
      2 ^ 32 - 1 - counter.toNat % 2 ^ 32 := by
    rw [← lowWord]; bv_omega
  unfold attempt
  split
  · rename_i above
    simp only [Attempt.granted, Bool.false_eq_true, false_iff]
    intro fits
    have := fits.inside
    rw [BitVec.lt_def] at above
    omega
  · rename_i above
    have inMask : counter.toNat ≤ mask.toNat := by rw [BitVec.lt_def] at above; omega
    have difference : (mask - counter).toNat = mask.toNat - counter.toNat :=
      BitVec.toNat_sub_of_le inMask
    split
    · rename_i near
      rw [BitVec.le_def, difference, wide] at near
      split
      · rename_i tooShort
        rw [BitVec.lt_def, difference, wide] at tooShort
        simp only [Attempt.granted, Bool.false_eq_true, false_iff]
        intro fits
        have := fits.inside
        omega
      · rename_i exact
        rw [BitVec.lt_def, difference, wide] at exact
        have last : counter.toNat + count.toNat = mask.toNat + 1 := by omega
        simp only [Attempt.granted, true_iff]
        exact ⟨nonzero, by omega, low_of_last low nonzero last⟩
    · rename_i far
      rw [BitVec.le_def, difference, wide] at far
      split
      · rename_i wraps
        rw [BitVec.lt_def, room, narrow] at wraps
        simp only [Attempt.granted, Bool.false_eq_true, false_iff]
        intro fits
        have := fits.low
        omega
      · rename_i straight
        rw [BitVec.lt_def, room, narrow] at straight
        simp only [Attempt.granted, true_iff]
        exact ⟨nonzero, by omega, by omega⟩

/-- A pass asks for another one only if the block would have fitted the mask. -/
theorem attempt_retry {mask counter : BitVec 64} {count : BitVec 32}
    (retry : attempt mask counter count = .retry) :
    counter.toNat ≤ mask.toNat ∧ (count ≠ 0 → counter.toNat + count.toNat ≤ mask.toNat) := by
  unfold attempt at retry
  split at retry
  · cases retry
  · rename_i above
    have inMask : counter.toNat ≤ mask.toNat := by rw [BitVec.lt_def] at above; omega
    refine ⟨inMask, fun positive => ?_⟩
    split at retry
    · split at retry <;> cases retry
    · rename_i far
      rw [BitVec.le_def, BitVec.toNat_sub_of_le inMask, (toNat_pred positive).1] at far
      omega

/-! ## The written words -/

/-- Both words as one 64-bit number, `nonce[1]` above `nonce[0]`. -/
def Words.join (words : Words) : BitVec 64 := words.hi ++ words.lo

theorem Words.toNat_join (words : Words) :
    words.join.toNat = words.hi.toNat * 2 ^ 32 + words.lo.toNat := by
  rw [Words.join, BitVec.toNat_append, ← Nat.shiftLeft_add_eq_or_of_lt words.lo.isLt,
    Nat.shiftLeft_eq]

theorem getLsbD_high {value : BitVec 64} {bits : Nat} (small : value.toNat < 2 ^ bits)
    {position : Nat} (high : bits ≤ position) : value.getLsbD position = false := by
  rw [BitVec.getLsbD]
  exact Nat.testBit_lt_two_pow (Nat.lt_of_lt_of_le small (Nat.pow_le_pow_right (by omega) high))

theorem join_write {mask counter : BitVec 64} (words : Words) (inside : counter.toNat ≤ mask.toNat) :
    (write mask counter words).join = (words.join &&& ~~~mask) ||| counter := by
  apply BitVec.eq_of_getLsbD_eq
  intro position bound
  simp only [Words.join, BitVec.getLsbD_append, BitVec.getLsbD_or, BitVec.getLsbD_and,
    BitVec.getLsbD_not, bound, decide_true, Bool.true_and]
  by_cases lowWord : position < 32
  · simp [write, lowWord, bound]
  · have back : 32 + (position - 32) = position := by omega
    have inWord : position - 32 < 32 := by omega
    rw [if_neg lowWord, if_neg lowWord]
    by_cases wide : 0xFFFFFFFF#64 < mask
    · simp [write, wide, back, inWord, bound]
    · -- The second word is not written: neither the mask nor the counter reaches it.
      have maskBound : mask.toNat < 2 ^ 32 := by
        rw [BitVec.lt_def, show (0xFFFFFFFF#64).toNat = 2 ^ 32 - 1 by decide] at wide
        omega
      rw [getLsbD_high maskBound (by omega),
        getLsbD_high (Nat.lt_of_le_of_lt inside maskBound) (by omega)]
      simp [write, wide]

theorem toNat_merge {value mask counter : BitVec 64} {bits : Nat} (ones : mask.toNat = 2 ^ bits - 1)
    (small : counter.toNat < 2 ^ bits) :
    ((value &&& ~~~mask) ||| counter).toNat = value.toNat / 2 ^ bits * 2 ^ bits + counter.toNat := by
  have high : (value &&& ~~~mask).toNat = (value.toNat / 2 ^ bits) <<< bits := by
    apply Nat.eq_of_testBit_eq
    intro position
    have maskBit : mask.getLsbD position = decide (position < bits) := by
      rw [BitVec.getLsbD, ones, Nat.testBit_two_pow_sub_one]
    rw [Nat.testBit_shiftLeft, Nat.testBit_div_two_pow, ← BitVec.getLsbD, BitVec.getLsbD_and,
      BitVec.getLsbD_not, maskBit]
    by_cases below : position < bits
    · simp [below, Nat.not_le.mpr below]
    · have above : bits ≤ position := by omega
      rw [Nat.sub_add_cancel above, ← BitVec.getLsbD]
      by_cases inWord : position < 64
      · simp [above, inWord]
      · rw [BitVec.getLsbD_of_ge value position (by omega)]
        simp
  rw [BitVec.toNat_or, high, ← Nat.shiftLeft_add_eq_or_of_lt small, Nat.shiftLeft_eq]

/-! ## One call -/

@[simp] theorem pause_nonces (nonce : Nonce) (paused : Bool) :
    (nonce.pause paused).nonces = nonce.nonces := rfl

@[simp] theorem pauseAfter_nonces (nonce : Nonce) (outcome : Attempt) :
    (nonce.pauseAfter outcome).nonces = nonce.nonces := by
  unfold pauseAfter
  split <;> rfl

@[simp] theorem pauseAfter_sequence (nonce : Nonce) (outcome : Attempt) :
    (nonce.pauseAfter outcome).sequence = nonce.sequence := by
  unfold pauseAfter
  split <;> rfl

/-- Without overflow `fetch_add` returns the advanced counter. -/
theorem fetchAdd_fst {nonce : Nonce} {index : Fin 2} (count : BitVec 32) {others : BitVec 62}
    (total : (nonce.nonces index).toNat + others.toNat < 2 ^ 64) :
    (nonce.fetchAdd index count others).1.toNat = (nonce.nonces index).toNat + others.toNat := by
  have small := others.isLt
  simp only [fetchAdd, BitVec.toNat_add, BitVec.toNat_setWidth]
  rw [Nat.mod_eq_of_lt (a := others.toNat) (by omega), Nat.mod_eq_of_lt total]

theorem fetchAdd_counter (nonce : Nonce) (index : Fin 2) (count : BitVec 32) (others : BitVec 62) :
    (nonce.fetchAdd index count others).2.nonces index =
      (nonce.fetchAdd index count others).1 + count.setWidth 64 := by
  simp [fetchAdd]

theorem fetchAdd_other {nonce : Nonce} {index other : Fin 2} (count : BitVec 32)
    (others : BitVec 62) (apart : other ≠ index) :
    (nonce.fetchAdd index count others).2.nonces other = nonce.nonces other := by
  simp [fetchAdd, apart]

theorem toNat_bump {first : BitVec 64} {count : BitVec 32} (small : first.toNat + count.toNat < 2 ^ 64) :
    (first + count.setWidth 64).toNat = first.toNat + count.toNat := by
  have := count.isLt
  rw [BitVec.toNat_add, BitVec.toNat_setWidth, Nat.mod_eq_of_lt (a := count.toNat) (by omega),
    Nat.mod_eq_of_lt small]

/-- What a successful call has done: the block fits, the counter is just past it
and the words hold its first nonce. -/
structure Granted (index : Fin 2) (words : Words) (count : BitVec 32) (mask first : BitVec 64)
    (reply : Reply) : Prop where
  fits : Fits mask count first
  counter : (reply.nonce.nonces index).toNat = first.toNat + count.toNat
  words : reply.words = write mask first words

theorem Fits.lt {mask first : BitVec 64} {count : BitVec 32} (low : IsLow mask)
    (fits : Fits mask count first) : first.toNat + count.toNat ≤ 2 ^ 63 := by
  have := low.lt
  have := fits.inside
  omega

section Loop
variable {index : Fin 2} {count : BitVec 32} {mask : BitVec 64} {others : Nat → BitVec 62}
  {words : Words}

theorem retry_counter {nonce : Nonce} {pass : Nat} (low : IsLow mask)
    (total : (nonce.nonces index).toNat + (others pass).toNat < 2 ^ 64)
    (retry : attempt mask (nonce.fetchAdd index count (others pass)).1 count = .retry) :
    ((nonce.fetchAdd index count (others pass)).2.nonces index).toNat =
        (nonce.nonces index).toNat + (others pass).toNat + count.toNat ∧
      (nonce.nonces index).toNat + (others pass).toNat ≤ mask.toNat := by
  have inside := (attempt_retry retry).1
  rw [fetchAdd_fst count total] at inside
  have := low.lt
  have := count.isLt
  rw [fetchAdd_counter, toNat_bump (by rw [fetchAdd_fst count total]; omega), fetchAdd_fst count total]
  exact ⟨rfl, inside⟩

theorem nextLoop_succ (fuel pass : Nat) (nonce : Nonce) :
    nextLoop index count mask others words (fuel + 1) pass nonce =
      match attempt mask (nonce.fetchAdd index count (others pass)).1 count with
      | .exhausted | .short =>
        ⟨none, (nonce.fetchAdd index count (others pass)).2.pauseAfter
          (attempt mask (nonce.fetchAdd index count (others pass)).1 count), words⟩
      | .last | .take =>
        ⟨some (nonce.fetchAdd index count (others pass)).1,
          (nonce.fetchAdd index count (others pass)).2.pauseAfter
            (attempt mask (nonce.fetchAdd index count (others pass)).1 count),
          write mask (nonce.fetchAdd index count (others pass)).1 words⟩
      | .retry =>
        nextLoop index count mask others words fuel (pass + 1)
          ((nonce.fetchAdd index count (others pass)).2.pauseAfter
            (attempt mask (nonce.fetchAdd index count (others pass)).1 count)) := rfl

theorem nextLoop_granted (low : IsLow mask) (positive : count ≠ 0) {fuel pass : Nat} {nonce : Nonce}
    {first : BitVec 64}
    (taken : (nextLoop index count mask others words fuel pass nonce).granted = some first) :
    Granted index words count mask first (nextLoop index count mask others words fuel pass nonce) := by
  induction fuel generalizing pass nonce with
  | zero => cases taken
  | succ fuel ih =>
    generalize outcome : attempt mask (nonce.fetchAdd index count (others pass)).1 count = result
    cases result with
    | exhausted => simp [nextLoop_succ, outcome] at taken
    | short => simp [nextLoop_succ, outcome] at taken
    | last | take =>
      have fits := (attempt_granted low positive).mp (by rw [outcome]; rfl)
      simp only [nextLoop_succ, outcome, Option.some.injEq] at taken ⊢
      subst taken
      have bound := fits.lt low
      refine ⟨fits, ?_, rfl⟩
      rw [pauseAfter_nonces, fetchAdd_counter, toNat_bump (by omega)]
    | retry =>
      simp only [nextLoop_succ, outcome] at taken ⊢
      exact ih taken

theorem nextLoop_fresh (low : IsLow mask) {fuel pass : Nat} {nonce : Nonce} {first : BitVec 64}
    (total : (nonce.nonces index).toNat + (others pass).toNat < 2 ^ 64)
    (taken : (nextLoop index count mask others words fuel pass nonce).granted = some first) :
    (nonce.nonces index).toNat ≤ first.toNat := by
  induction fuel generalizing pass nonce with
  | zero => cases taken
  | succ fuel ih =>
    have fetched := fetchAdd_fst count total
    generalize outcome : attempt mask (nonce.fetchAdd index count (others pass)).1 count = result
    cases result with
    | exhausted => simp [nextLoop_succ, outcome] at taken
    | short => simp [nextLoop_succ, outcome] at taken
    | last | take =>
      simp only [nextLoop_succ, outcome, Option.some.injEq] at taken
      subst taken
      omega
    | retry =>
      obtain ⟨advanced, inside⟩ := retry_counter low total outcome
      have maskBound := low.lt
      have countBound := count.isLt
      have othersBound := (others (pass + 1)).isLt
      simp only [nextLoop_succ, outcome] at taken
      have tail := ih (by rw [pauseAfter_nonces, advanced]; omega) taken
      rw [pauseAfter_nonces, advanced] at tail
      omega

/-- The counter never goes down while it does not overflow. -/
theorem nextLoop_monotone (low : IsLow mask) {fuel pass : Nat} {nonce : Nonce}
    (total : (nonce.nonces index).toNat + (others pass).toNat + count.toNat < 2 ^ 64) :
    (nonce.nonces index).toNat ≤
      ((nextLoop index count mask others words fuel pass nonce).nonce.nonces index).toNat := by
  induction fuel generalizing pass nonce with
  | zero => exact Nat.le_refl _
  | succ fuel ih =>
    have room : (nonce.nonces index).toNat + (others pass).toNat < 2 ^ 64 := by omega
    have fetched := fetchAdd_fst count room
    have ended : (nonce.nonces index).toNat ≤
        ((nonce.fetchAdd index count (others pass)).2.nonces index).toNat := by
      rw [fetchAdd_counter, toNat_bump (by rw [fetched]; omega), fetched]
      omega
    generalize outcome : attempt mask (nonce.fetchAdd index count (others pass)).1 count = result
    cases result with
    | exhausted | short | last | take => simpa [nextLoop_succ, outcome] using ended
    | retry =>
      obtain ⟨advanced, inside⟩ := retry_counter low room outcome
      have maskBound := low.lt
      have countBound := count.isLt
      have othersBound := (others (pass + 1)).isLt
      simp only [nextLoop_succ, outcome]
      refine Nat.le_trans ?_ (ih (by rw [pauseAfter_nonces, advanced]; omega))
      rw [pauseAfter_nonces]
      exact ended

/-- Alone, a call leaves the counter at most one reservation above where it was,
or above the mask. -/
theorem nextLoop_bound (positive : count ≠ 0) {fuel pass : Nat} {nonce : Nonce}
    (total : (nonce.nonces index).toNat + count.toNat < 2 ^ 64) (low : IsLow mask) :
    ((nextLoop index count mask (fun _ => 0) words fuel pass nonce).nonce.nonces index).toNat ≤
      max (nonce.nonces index).toNat mask.toNat + count.toNat := by
  induction fuel generalizing pass nonce with
  | zero => exact Nat.le_trans (Nat.le_max_left _ _) (Nat.le_add_right _ _)
  | succ fuel ih =>
    have fetched : (nonce.fetchAdd index count 0).1.toNat = (nonce.nonces index).toNat := by
      rw [fetchAdd_fst count (by rw [show (0 : BitVec 62).toNat = 0 from rfl]; omega)]
      rfl
    have ended : ((nonce.fetchAdd index count 0).2.nonces index).toNat =
        (nonce.nonces index).toNat + count.toNat := by
      rw [fetchAdd_counter, toNat_bump (by omega), fetched]
    have bound := Nat.le_max_left (nonce.nonces index).toNat mask.toNat
    generalize outcome : attempt mask (nonce.fetchAdd index count 0).1 count = result
    cases result with
    | exhausted | short | last | take =>
      simp only [nextLoop_succ, outcome, pauseAfter_nonces, ended]
      omega
    | retry =>
      have inside := (attempt_retry outcome).2 positive
      have maskBound := low.lt
      have countBound := count.isLt
      simp only [nextLoop_succ, outcome]
      refine Nat.le_trans (ih (by rw [pauseAfter_nonces, ended]; omega)) ?_
      rw [pauseAfter_nonces, ended]
      omega

theorem nextLoop_other {other : Fin 2} (apart : other ≠ index) (fuel pass : Nat) (nonce : Nonce) :
    (nextLoop index count mask others words fuel pass nonce).nonce.nonces other =
      nonce.nonces other := by
  induction fuel generalizing pass nonce with
  | zero => rfl
  | succ fuel ih =>
    generalize outcome : attempt mask (nonce.fetchAdd index count (others pass)).1 count = result
    cases result with
    | exhausted | short | last | take =>
      simp only [nextLoop_succ, outcome, pauseAfter_nonces, fetchAdd_other count _ apart]
    | retry =>
      simp only [nextLoop_succ, outcome]
      rw [ih, pauseAfter_nonces, fetchAdd_other count _ apart]

theorem nextLoop_sequence (fuel pass : Nat) (nonce : Nonce) :
    (nextLoop index count mask others words fuel pass nonce).nonce.sequence = nonce.sequence := by
  induction fuel generalizing pass nonce with
  | zero => rfl
  | succ fuel ih =>
    generalize outcome : attempt mask (nonce.fetchAdd index count (others pass)).1 count = result
    cases result with
    | exhausted | short | last | take => simp only [nextLoop_succ, outcome, pauseAfter_sequence]; rfl
    | retry =>
      simp only [nextLoop_succ, outcome]
      rw [ih, pauseAfter_sequence]
      rfl

theorem nextLoop_refused {fuel pass : Nat} {nonce : Nonce}
    (refused : (nextLoop index count mask others words fuel pass nonce).granted = none) :
    (nextLoop index count mask others words fuel pass nonce).words = words := by
  induction fuel generalizing pass nonce with
  | zero => rfl
  | succ fuel ih =>
    generalize outcome : attempt mask (nonce.fetchAdd index count (others pass)).1 count = result
    cases result with
    | exhausted | short => simp [nextLoop_succ, outcome]
    | last | take => simp [nextLoop_succ, outcome] at refused
    | retry =>
      simp only [nextLoop_succ, outcome] at refused ⊢
      exact ih refused

theorem nextLoop_words (other : Words) (fuel pass : Nat) (nonce : Nonce) :
    (nextLoop index count mask others words fuel pass nonce).granted =
        (nextLoop index count mask others other fuel pass nonce).granted ∧
      (nextLoop index count mask others words fuel pass nonce).nonce =
        (nextLoop index count mask others other fuel pass nonce).nonce := by
  induction fuel generalizing pass nonce with
  | zero => exact ⟨rfl, rfl⟩
  | succ fuel ih =>
    generalize outcome : attempt mask (nonce.fetchAdd index count (others pass)).1 count = result
    cases result with
    | exhausted | short | last | take => simp [nextLoop_succ, outcome]
    | retry =>
      simp only [nextLoop_succ, outcome]
      exact ih _ _

/-- More passes than `fuelFor` grants change nothing: the loop has ended by itself. -/
theorem nextLoop_fuel (low : IsLow mask) (positive : count ≠ 0) {fuel pass : Nat} {nonce : Nonce}
    (some_ : 0 < fuel) (enough : mask.toNat + 2 ≤ fuel + (nonce.nonces index).toNat)
    (total : (nonce.nonces index).toNat + (others pass).toNat < 2 ^ 64) (extra : Nat) :
    nextLoop index count mask others words (fuel + extra) pass nonce =
      nextLoop index count mask others words fuel pass nonce := by
  induction fuel generalizing pass nonce with
  | zero => omega
  | succ fuel ih =>
    rw [Nat.succ_add]
    generalize outcome : attempt mask (nonce.fetchAdd index count (others pass)).1 count = result
    cases result with
    | exhausted | short | last | take => simp [nextLoop_succ, outcome]
    | retry =>
      obtain ⟨advanced, inside⟩ := retry_counter low total outcome
      have nonzero := (toNat_pred positive).2.2
      have maskBound := low.lt
      have countBound := count.isLt
      have othersBound := (others (pass + 1)).isLt
      simp only [nextLoop_succ, outcome]
      exact ih (by omega) (by rw [pauseAfter_nonces, advanced]; omega)
        (by rw [pauseAfter_nonces, advanced]; omega)

end Loop

section Call
variable {nonce : Nonce} {index : Fin 2} {words : Words} {count : BitVec 32} {mask : BitVec 64}
  {others : Nat → BitVec 62}

/-- The loop of `next` always ends by itself, whatever the other threads add. -/
theorem next_terminates (low : IsLow (effective mask)) (positive : count ≠ 0)
    (total : (nonce.nonces index).toNat + (others 0).toNat < 2 ^ 64) (extra : Nat) :
    nextLoop index count (effective mask) others words (fuelFor (effective mask) + extra) 0 nonce =
      nextLoop index count (effective mask) others words (fuelFor (effective mask)) 0 nonce :=
  nextLoop_fuel low positive (Nat.succ_pos _) (Nat.le_add_right _ _) total extra

/-- The guard in front of the loop refuses the request. -/
def Refused (mask : BitVec 64) (count : BitVec 32) : Prop :=
  count = 0 ∨ effective mask < (count - 1).setWidth 64

theorem next_of_refused (guard : Refused mask count) :
    next nonce index words count mask others = ⟨none, nonce, words⟩ := if_pos guard

theorem next_of_admitted (guard : ¬ Refused mask count) :
    next nonce index words count mask others =
      nextLoop index count (effective mask) others words (fuelFor (effective mask)) 0 nonce :=
  if_neg guard

theorem next_granted {first : BitVec 64} (low : IsLow (effective mask))
    (taken : (next nonce index words count mask others).granted = some first) :
    Granted index words count (effective mask) first (next nonce index words count mask others) := by
  by_cases guard : Refused mask count
  · rw [next_of_refused guard] at taken
    cases taken
  · rw [next_of_admitted guard] at taken ⊢
    exact nextLoop_granted low (fun zero => guard (.inl zero)) taken

theorem next_of_fits (low : IsLow (effective mask))
    (fits : Fits (effective mask) count (nonce.fetchAdd index count (others 0)).1) :
    (next nonce index words count mask others).granted = some (nonce.fetchAdd index count (others 0)).1 ∧
      (next nonce index words count mask others).nonce.nonces =
        (nonce.fetchAdd index count (others 0)).2.nonces := by
  have positive : count ≠ 0 := by
    rintro rfl
    exact absurd fits.positive (by decide)
  have guard : ¬ Refused mask count := by
    rintro (zero | large)
    · exact positive zero
    · have inside := fits.inside
      have := fits.positive
      rw [BitVec.lt_def, (toNat_pred positive).1] at large
      omega
  have granted := (attempt_granted low positive).mpr fits
  rw [next_of_admitted guard, fuelFor, nextLoop]
  generalize outcome : attempt (effective mask) (nonce.fetchAdd index count (others 0)).1 count = result at granted
  cases result with
  | exhausted => cases granted
  | short => cases granted
  | retry => cases granted
  | last => simp [outcome]
  | take => simp [outcome]

theorem next_fresh {first : BitVec 64} (low : IsLow (effective mask))
    (total : (nonce.nonces index).toNat + (others 0).toNat < 2 ^ 64)
    (taken : (next nonce index words count mask others).granted = some first) :
    (nonce.nonces index).toNat ≤ first.toNat := by
  by_cases guard : Refused mask count
  · rw [next_of_refused guard] at taken
    cases taken
  · rw [next_of_admitted guard] at taken
    exact nextLoop_fresh low total taken

theorem next_refused (refused : (next nonce index words count mask others).granted = none) :
    (next nonce index words count mask others).words = words := by
  by_cases guard : Refused mask count
  · rw [next_of_refused guard]
  · rw [next_of_admitted guard] at refused ⊢
    exact nextLoop_refused refused

theorem next_monotone (low : IsLow (effective mask))
    (total : (nonce.nonces index).toNat + (others 0).toNat + count.toNat < 2 ^ 64) :
    (nonce.nonces index).toNat ≤
      ((next nonce index words count mask others).nonce.nonces index).toNat := by
  by_cases guard : Refused mask count
  · rw [next_of_refused guard]
  · rw [next_of_admitted guard]
    exact nextLoop_monotone low total

theorem next_bound (total : (nonce.nonces index).toNat + count.toNat < 2 ^ 64)
    (low : IsLow (effective mask)) :
    ((next nonce index words count mask fun _ => 0).nonce.nonces index).toNat ≤
      max (nonce.nonces index).toNat (effective mask).toNat + count.toNat := by
  by_cases guard : Refused mask count
  · rw [next_of_refused guard]
    exact Nat.le_trans (Nat.le_max_left _ _) (Nat.le_add_right _ _)
  · rw [next_of_admitted guard]
    exact nextLoop_bound (fun zero => guard (.inl zero)) total low

theorem next_words (other : Words) :
    (next nonce index words count mask others).granted =
        (next nonce index other count mask others).granted ∧
      (next nonce index words count mask others).nonce =
        (next nonce index other count mask others).nonce := by
  by_cases guard : Refused mask count
  · simp only [next_of_refused guard, and_self]
  · simp only [next_of_admitted guard]
    exact nextLoop_words other _ _ _

theorem next_other {other : Fin 2} (apart : other ≠ index) :
    (next nonce index words count mask others).nonce.nonces other = nonce.nonces other := by
  by_cases guard : Refused mask count
  · rw [next_of_refused guard]
  · rw [next_of_admitted guard]
    exact nextLoop_other apart _ _ _

theorem next_sequence : (next nonce index words count mask others).nonce.sequence = nonce.sequence := by
  by_cases guard : Refused mask count
  · rw [next_of_refused guard]
  · rw [next_of_admitted guard]
    exact nextLoop_sequence _ _ _

theorem next_of_exhausted (low : IsLow (effective mask))
    (total : (nonce.nonces index).toNat + (others 0).toNat < 2 ^ 64)
    (exhausted : (effective mask).toNat < (nonce.nonces index).toNat) :
    (next nonce index words count mask others).granted = none := by
  rw [Option.eq_none_iff_forall_ne_some]
  intro first taken
  have fresh := next_fresh low total taken
  have fits := (next_granted low taken).fits
  have inside := fits.inside
  have positive := fits.positive
  omega

end Call

end Nonce

end Xmrig
