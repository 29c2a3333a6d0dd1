import Xmrig.Backend.KawpowNonces

/-! The high word of a wide nonce, in the blob that is hashed and in the job that is submitted.

A GPU worker hashes the blob of its slot and submits the job of its slot; the
full nonce of a result is put together from the low word the device reports and
the high word of the job. `nextRound` copies the high word it has reserved into
the job, `save` does not. A worker is followed here through any jobs, in both
slots, with the shared counters in any state.
-/

set_option autoImplicit false

namespace Xmrig.WorkerJob

open Foundation

/-- What a worker with one lane does; a job comes with the checks of `setBlob`. -/
inductive CoherenceEvent where
  | add (nonce : Nonce) (job : Job) (sized : job.Sized) (count : BitVec 32) (backend : Backend)
      (others : Nat → Nat → BitVec 62)
  | nextRound (nonce : Nonce) (rounds roundSize : BitVec 32) (others : Nat → Nat → BitVec 62)

def coherenceStep (worker : WorkerJob) : CoherenceEvent → Option WorkerJob
  | .add nonce job _ count backend others => some (worker.add 1 nonce job count backend others).worker
  | .nextRound nonce rounds roundSize others => some (worker.nextRound 1 nonce rounds roundSize others).worker

/-- The job in use has the high word of the blob in use, so that the number put together from it is
the number that was hashed. -/
def Coherent (worker : WorkerJob) : Prop :=
  worker.currentJob.nonceSize = 8 →
    (jobWords worker.currentJob).hi = (worker.words 0).hi ∧
      ∀ low, fullNonce worker.currentJob low = (worker.words 0).hi ++ low

/-- `add` neither finds the job in place nor goes back to it. -/
def Saves (worker : WorkerJob) (job : Job) : Prop :=
  ¬worker.currentJob.isEqual job = true ∧
    ¬(worker.index = donateIndex ∧ job.index = userIndex ∧ job.isEqual (worker.jobs userIndex) = true)

/-- The number that the shared counter gives for a job has, below the mask, the high word that the
blob of the job has already. -/
def KeepsHigh (job : Job) (nonce : Nonce) (count : BitVec 32) (others : Nat → Nat → BitVec 62) : Prop :=
  ∀ first, (nonce.next job.index (jobWords job) count job.nonceMask (others 0)).granted = some first →
    0xFFFFFFFF#64 < Nonce.effective job.nonceMask →
      (first >>> 32).setWidth 32 = (jobWords job).hi &&& (Nonce.effective job.nonceMask >>> 32).setWidth 32

def CoherenceEvent.Keeps (worker : WorkerJob) : CoherenceEvent → Prop
  | .add nonce job _ count _ others => worker.Saves job → job.nonceSize = 8 → KeepsHigh job nonce count others
  | .nextRound .. => True

/-! ## One slot -/

/-- A slot with a wide nonce whose job and blob have the same high word. -/
structure SlotCoherent (worker : WorkerJob) (slot : Fin 2) : Prop where
  index : (worker.jobs slot).index = slot
  mask : worker.nonceMasks slot = (worker.jobs slot).nonceMask
  sized : (worker.jobs slot).Sized
  high : (jobWords (worker.jobs slot)).hi = (worker.blobs slot).readWord ((worker.jobs slot).nonceOffset + 4)

/-- Both slots are in order, as far as their nonces are wide. -/
def SlotsCoherent (worker : WorkerJob) : Prop :=
  ∀ slot, (worker.jobs slot).nonceSize = 8 → worker.SlotCoherent slot

/-- A slot that an operation has left alone. -/
structure SameSlot (slot : Fin 2) (worker after : WorkerJob) : Prop where
  job : after.jobs slot = worker.jobs slot
  blob : after.blobs slot = worker.blobs slot
  mask : after.nonceMasks slot = worker.nonceMasks slot

section Slots
variable {worker middle after : WorkerJob} {slot : Fin 2} {job : Job}

theorem SameSlot.refl (slot : Fin 2) (worker : WorkerJob) : SameSlot slot worker worker := ⟨rfl, rfl, rfl⟩

theorem SameSlot.trans (first : SameSlot slot worker middle) (second : SameSlot slot middle after) :
    SameSlot slot worker after :=
  ⟨second.job.trans first.job, second.blob.trans first.blob, second.mask.trans first.mask⟩

theorem SlotCoherent.frame (coherent : worker.SlotCoherent slot) (same : SameSlot slot worker after) :
    after.SlotCoherent slot := by
  refine ⟨?_, ?_, ?_, ?_⟩
  · rw [same.job]; exact coherent.index
  · rw [same.job, same.mask]; exact coherent.mask
  · rw [same.job]; exact coherent.sized
  · rw [same.job, same.blob]; exact coherent.high

theorem setBlob_sameSlot (other : slot ≠ worker.index) (memory : Memory) :
    SameSlot slot worker (worker.setBlob memory) :=
  ⟨rfl, Function.update_of_ne other .., rfl⟩

theorem next_sameSlot (other : slot ≠ worker.index) (nonce : Nonce) (count : BitVec 32) (others : Nat → BitVec 62) :
    SameSlot slot worker (worker.next nonce 0 count others).worker := by
  simp only [next]
  split
  · exact setBlob_sameSlot other _
  · exact SameSlot.refl slot worker

theorem next_index (nonce : Nonce) (count : BitVec 32) (others : Nat → BitVec 62) :
    (worker.next nonce 0 count others).worker.index = worker.index := by
  simp only [next]
  split <;> rfl

theorem openSlot_sameSlot (other : slot ≠ job.index) (backend : Backend) :
    SameSlot slot worker (worker.openSlot job backend) :=
  ⟨Function.update_of_ne other .., rfl, Function.update_of_ne other ..⟩

theorem save_sameSlot (other : slot ≠ job.index) (nonce : Nonce) (count : BitVec 32) (backend : Backend)
    (others : Nat → Nat → BitVec 62) : SameSlot slot worker (worker.save 1 nonce job count backend others).worker := by
  have opened := @openSlot_sameSlot worker slot job other backend
  have loaded : SameSlot slot (worker.openSlot job backend) ((worker.openSlot job backend).load 0 job) :=
    setBlob_sameSlot other _
  exact (opened.trans loaded).trans (next_sameSlot other nonce count (others 0))

theorem coherent_of_slot (coherent : worker.currentJob.nonceSize = 8 → worker.SlotCoherent worker.index) :
    worker.Coherent := by
  intro wide
  have stored : (jobWords worker.currentJob).hi = (worker.words 0).hi := by
    have high := (coherent wide).high
    rw [words, nonce, Nat.zero_mul, Nat.zero_add]
    exact high
  have offset : worker.currentJob.nonceOffset = 32 := by
    unfold Job.nonceSize at wide
    unfold Job.nonceOffset
    split at wide
    · rename_i family
      rw [if_pos family]
    · cases wide
  refine ⟨stored, fun low => ?_⟩
  have high : (Memory.ofBytes worker.currentJob.blob).readWord 36 = (worker.words 0).hi := by
    rw [← stored, jobWords, offset]
  simp only [fullNonce, offset]
  rw [Memory.readWord_writeWord_apart (by omega), Memory.readWord_writeWord, high]

theorem slot_of_current (index : worker.currentJob.index = worker.index)
    (mask : worker.nonceMask = worker.currentJob.nonceMask) (sized : worker.currentJob.Sized)
    (high : (jobWords worker.currentJob).hi = (worker.words 0).hi) : worker.SlotCoherent worker.index := by
  rw [words, nonce, Nat.zero_mul, Nat.zero_add] at high
  exact ⟨index, mask, sized, high⟩

end Slots

/-! ## The high word of a reservation -/

/-- A number below the mask leaves the high word alone exactly if that word has it already. -/
theorem write_hi_iff {mask first : BitVec 64} (low : Nonce.IsLow mask) (inside : first.toNat ≤ mask.toNat)
    (words : Nonce.Words) :
    (Nonce.write mask first words).hi = words.hi ↔
      (0xFFFFFFFF#64 < mask → (first >>> 32).setWidth 32 = words.hi &&& (mask >>> 32).setWidth 32) := by
  obtain ⟨bits, -, ones⟩ := low
  have positive : 0 < 2 ^ bits := Nat.two_pow_pos bits
  -- A bit of the number is a bit of the mask.
  have below : ∀ position, first.getLsbD position = true → mask.getLsbD position = true := by
    intro position up
    have small : position < bits := by
      by_contra high
      rw [Nonce.getLsbD_high (show first.toNat < 2 ^ bits by omega) (by omega)] at up
      cases up
    rw [BitVec.getLsbD, ones, Nat.testBit_two_pow_sub_one]
    exact decide_eq_true small
  unfold Nonce.write
  by_cases wide : 0xFFFFFFFF#64 < mask
  · have bit : ∀ position < 32,
        ((((words.hi.setWidth 64 &&& (~~~mask >>> 32)) ||| (first >>> 32)).setWidth 32).getLsbD position =
            words.hi.getLsbD position ↔
          ((first >>> 32).setWidth 32).getLsbD position =
            (words.hi &&& (mask >>> 32).setWidth 32).getLsbD position) := by
      intro position bound
      have subset := below (32 + position)
      have within : 32 + position < 64 := by omega
      simp only [BitVec.getLsbD_setWidth, BitVec.getLsbD_or, BitVec.getLsbD_and, BitVec.getLsbD_ushiftRight,
        BitVec.getLsbD_not, bound, within, show position < 64 by omega, decide_true, Bool.true_and]
      revert subset
      cases words.hi.getLsbD position <;> cases mask.getLsbD (32 + position) <;>
        cases first.getLsbD (32 + position) <;> decide
    rw [if_pos wide]
    simp only [wide, forall_const]
    constructor
    · intro same
      apply BitVec.eq_of_getLsbD_eq
      intro position bound
      exact (bit position bound).mp (congrArg (fun word => word.getLsbD position) same)
    · intro same
      apply BitVec.eq_of_getLsbD_eq
      intro position bound
      exact (bit position bound).mpr (congrArg (fun word => word.getLsbD position) same)
  · rw [if_neg wide]
    simp only [wide, false_imp_iff]

section Save
variable {worker : WorkerJob} {job : Job} {nonce : Nonce} {count : BitVec 32} {backend : Backend}
  {others : Nat → Nat → BitVec 62}

theorem load_words (carries : worker.Carries job) (sized : job.Sized) (wide : job.nonceSize = 8) :
    (worker.load 0 job).words 0 = jobWords job := by
  have bound := sized.nonce
  have word : ∀ skip, skip + 4 ≤ 8 →
      (worker.load 0 job).blob.readWord ((worker.load 0 job).nonce 0 + skip) =
        (Memory.ofBytes job.blob).readWord (job.nonceOffset + skip) := by
    intro skip fits
    rw [(load_carries 0 carries).nonce]
    apply Memory.readWord_congr
    intro offset small
    have inside : job.nonceOffset + skip + offset < job.blob.length := by
      simp only [Job.size] at bound
      omega
    have byte := @Memory.copy_inside worker.blob (0 * job.size) job.blob (job.nonceOffset + skip + offset) inside
    rw [load, setBlob_blob]
    simpa only [Nat.add_assoc] using byte
  exact congrArg₂ Nonce.Words.mk (word 0 (by decide)) (word 4 (by decide))

/-- The job of the slot after `save`. -/
theorem save_currentJob :
    (worker.save 1 nonce job count backend others).worker.currentJob = { job with backend := backend.id } := by
  have kept := next_currentJob ((worker.openSlot job backend).load 0 job) nonce 0 count (others 0)
  refine kept.trans ?_
  simp [load, setBlob, currentJob, openSlot]

theorem save_index : (worker.save 1 nonce job count backend others).worker.index = job.index :=
  next_index nonce count (others 0)

theorem save_mask : (worker.save 1 nonce job count backend others).worker.nonceMasks job.index = job.nonceMask := by
  change (((worker.openSlot job backend).load 0 job).next nonce 0 count (others 0)).worker.nonceMasks job.index = _
  simp only [next]
  split <;> exact Function.update_self ..

/-- `save` leaves the high word of the job in the blob exactly if the counter gives it again. -/
theorem save_hi_iff (sized : job.Sized) (wide : job.nonceSize = 8) :
    ((worker.save 1 nonce job count backend others).worker.words 0).hi = (jobWords job).hi ↔
      KeepsHigh job nonce count others := by
  have carries := load_carries 0 (Session.openSlot_carries worker job backend)
  have loaded := load_words (Session.openSlot_carries worker job backend) sized wide
  generalize start : (worker.openSlot job backend).load 0 job = opened at carries loaded
  have saved : (worker.save 1 nonce job count backend others).worker = (opened.next nonce 0 count (others 0)).worker := by
    rw [← start]
    rfl
  have reply : (opened.next nonce 0 count (others 0)).granted =
      (nonce.next job.index (jobWords job) count job.nonceMask (others 0)).granted := by
    simp only [next, carries.index, carries.mask, loaded]
  rw [saved]
  cases taken : (opened.next nonce 0 count (others 0)).granted with
  | none =>
    rw [next_refused taken, loaded]
    refine ⟨fun _ first granted => ?_, fun _ => rfl⟩
    rw [← reply, taken] at granted
    cases granted
  | some first =>
    have granted := Nonce.next_granted (carries.mask ▸ Nonce.effective_nonceMask_low job) taken
    have inside := granted.fits.inside
    have positive := granted.fits.positive
    have written : (opened.next nonce 0 count (others 0)).worker.words 0 =
        Nonce.write (Nonce.effective opened.nonceMask) first (opened.words 0) := by
      simp only [next] at taken ⊢
      rw [if_pos (by rw [taken]; rfl), granted.words, store_words]
    rw [carries.mask] at inside written
    rw [written, loaded, write_hi_iff (Nonce.effective_nonceMask_low job) (by omega)]
    constructor
    · intro keeps other again
      rw [← reply, taken] at again
      cases again
      exact keeps
    · exact fun keeps => keeps first (reply.symm.trans taken)

end Save

/-! ## Rounds -/

section Round
variable {worker : WorkerJob} {nonce : Nonce} {rounds roundSize : BitVec 32} {others : Nat → Nat → BitVec 62}

theorem SlotCoherent.carries (coherent : worker.SlotCoherent worker.index) :
    worker.Carries worker.currentJob :=
  ⟨coherent.index.symm, rfl, rfl, coherent.mask⟩

theorem SlotCoherent.countRound (coherent : worker.SlotCoherent worker.index) :
    worker.countRound.SlotCoherent worker.index :=
  ⟨coherent.index, coherent.mask, coherent.sized, coherent.high⟩

theorem reserveLanes_refused {count : BitVec 32} (refused : (worker.next nonce 0 count (others 0)).granted = none) :
    reserveLanes count others 1 0 worker nonce =
      ⟨false, (worker.next nonce 0 count (others 0)).worker, (worker.next nonce 0 count (others 0)).nonce, [none]⟩ := by
  simp [reserveLanes, refused]

theorem reserveLanes_granted {count : BitVec 32} {first : BitVec 64}
    (taken : (worker.next nonce 0 count (others 0)).granted = some first) :
    reserveLanes count others 1 0 worker nonce =
      ⟨true, (worker.next nonce 0 count (others 0)).worker, (worker.next nonce 0 count (others 0)).nonce,
        [some first]⟩ := by
  simp [reserveLanes, taken]

/-- What `nextRound` of a worker with one lane can do. -/
theorem nextRound_single (worker : WorkerJob) (nonce : Nonce) (rounds roundSize : BitVec 32)
    (others : Nat → Nat → BitVec 62) :
    (worker.nextRound 1 nonce rounds roundSize others).worker = worker.countRound ∨
      (worker.nextRound 1 nonce rounds roundSize others).worker = worker.countRound.advance 0 roundSize ∨
      (worker.nextRound 1 nonce rounds roundSize others).worker =
        let reserved := (worker.countRound.next nonce 0 (rounds * roundSize) (others 0)).worker
        if worker.currentJob.nonceSize = 8 then reserved.setJobNonceHigh (reserved.words 0).hi else reserved := by
  simp only [nextRound]
  split
  · rcases Option.eq_none_or_eq_some (worker.countRound.next nonce 0 (rounds * roundSize) (others 0)).granted with
      refused | ⟨first, taken⟩
    · have stays := next_refused refused
      left
      rw [reserveLanes_refused refused, stays]
      simp
    · right; right
      rw [reserveLanes_granted taken]
      have same : worker.countRound.currentJob = worker.currentJob := rfl
      simp only [same, true_and]
      split <;> rfl
  · exact .inr (.inl rfl)

theorem nextRound_sameSlot {slot : Fin 2} (other : slot ≠ worker.index) :
    SameSlot slot worker (worker.nextRound 1 nonce rounds roundSize others).worker := by
  have counted : SameSlot slot worker worker.countRound := ⟨rfl, rfl, rfl⟩
  obtain done | done | done := nextRound_single worker nonce rounds roundSize others
  · rw [done]
    exact counted
  · rw [done]
    exact counted.trans (setBlob_sameSlot (show slot ≠ worker.countRound.index from other) _)
  · rw [done]
    have reserved := counted.trans
      (next_sameSlot (show slot ≠ worker.countRound.index from other) nonce (rounds * roundSize) (others 0))
    dsimp only
    split
    · refine reserved.trans ⟨Function.update_of_ne ?_ .., rfl, rfl⟩
      rw [next_index]
      exact other
    · exact reserved

theorem nextRound_index : (worker.nextRound 1 nonce rounds roundSize others).worker.index = worker.index := by
  obtain done | done | done := nextRound_single worker nonce rounds roundSize others
  · rw [done]; rfl
  · rw [done]; rfl
  · rw [done]
    have kept := @next_index worker.countRound nonce (rounds * roundSize) (others 0)
    dsimp only
    split
    · exact kept
    · exact kept

theorem nextRound_slotCoherent (coherent : worker.SlotCoherent worker.index) (wide : worker.currentJob.nonceSize = 8) :
    (worker.nextRound 1 nonce rounds roundSize others).worker.SlotCoherent worker.index := by
  have counted := coherent.countRound
  have carries : worker.countRound.Carries worker.currentJob := countRound_carries coherent.carries
  obtain done | done | done := nextRound_single worker nonce rounds roundSize others
  · rw [done]
    exact counted
  · rw [done]
    refine ⟨counted.index, counted.mask, counted.sized, counted.high.trans ?_⟩
    have high := congrArg Nonce.Words.hi (@advance_words worker.countRound 0 roundSize)
    rw [words, words, WorkerJob.nonce, WorkerJob.nonce, Nat.zero_mul, Nat.zero_mul, Nat.zero_add, Nat.zero_add] at high
    exact high.symm
  · rw [done]
    dsimp only
    rw [if_pos wide]
    have touched := next_touched 0 carries nonce (rounds * roundSize) (others 0)
    have place := @next_index worker.countRound nonce (rounds * roundSize) (others 0)
    have kept := next_currentJob worker.countRound nonce 0 (rounds * roundSize) (others 0)
    generalize (worker.countRound.next nonce 0 (rounds * roundSize) (others 0)).worker = reserved at touched place kept ⊢
    have same : reserved.currentJob = worker.currentJob := kept
    have stored := setJobNonceHigh_stored coherent.sized wide touched.carries (reserved.words 0).hi
    have still := setJobNonceHigh_same touched.carries (reserved.words 0).hi
    have job : (reserved.setJobNonceHigh (reserved.words 0).hi).currentJob =
        { reserved.currentJob with
          blob := (reserved.setJobNonceHigh (reserved.words 0).hi).currentJob.blob } := by
      simp [setJobNonceHigh, currentJob]
    have slot : (reserved.setJobNonceHigh (reserved.words 0).hi).index = worker.index := place
    rw [← slot]
    refine slot_of_current ?_ ?_ ?_ ?_
    · rw [job, slot]
      exact (congrArg Job.index same).trans coherent.index
    · rw [still.carries.mask, job, ← same]
      rfl
    · have bound := coherent.sized
      refine ⟨?_, ?_⟩
      · rw [still.carries.size, show (reserved.setJobNonceHigh (reserved.words 0).hi).currentJob.nonceOffset =
            worker.currentJob.nonceOffset by simp only [Job.nonceOffset, still.carries.algorithm],
          still.carries.nonceSize]
        exact bound.nonce
      · rw [still.carries.size]
        exact bound.fits
    · rw [stored, setJobNonceHigh_words touched.carries]

theorem nextRound_nonceSize :
    (worker.nextRound 1 nonce rounds roundSize others).worker.currentJob.nonceSize = worker.currentJob.nonceSize := by
  have algorithm : (worker.nextRound 1 nonce rounds roundSize others).worker.currentJob.algorithm =
      worker.currentJob.algorithm := by
    obtain done | done | done := nextRound_single worker nonce rounds roundSize others
    · rw [done]; rfl
    · rw [done]; rfl
    · rw [done]
      have kept := next_currentJob worker.countRound nonce 0 (rounds * roundSize) (others 0)
      generalize (worker.countRound.next nonce 0 (rounds * roundSize) (others 0)).worker = reserved at kept ⊢
      have same : reserved.currentJob.algorithm = worker.currentJob.algorithm := congrArg Job.algorithm kept
      dsimp only
      split
      · refine Eq.trans ?_ same
        simp [setJobNonceHigh, currentJob]
      · exact same
  simp only [Job.nonceSize, algorithm]

theorem nextRound_slotsCoherent (coherent : worker.SlotsCoherent) :
    (worker.nextRound 1 nonce rounds roundSize others).worker.SlotsCoherent := by
  intro slot wide
  by_cases here : slot = worker.index
  · have was : worker.currentJob.nonceSize = 8 := by
      rw [here, ← @nextRound_index worker nonce rounds roundSize others] at wide
      exact nextRound_nonceSize.symm.trans wide
    rw [here]
    exact nextRound_slotCoherent (coherent worker.index was) was
  · have same := @nextRound_sameSlot worker nonce rounds roundSize others slot here
    rw [same.job] at wide
    exact (coherent slot wide).frame same

end Round

/-! ## Whole runs -/

section Runs
variable {worker after : WorkerJob}

theorem save_slotsCoherent {job : Job} (coherent : worker.SlotsCoherent) (sized : job.Sized) {nonce : Nonce}
    {count : BitVec 32} {others : Nat → Nat → BitVec 62} (backend : Backend)
    (keeps : job.nonceSize = 8 → KeepsHigh job nonce count others) :
    (worker.save 1 nonce job count backend others).worker.SlotsCoherent := by
  intro slot wide
  by_cases here : slot = job.index
  · have place := @save_index worker job nonce count backend others
    have stored := @save_currentJob worker job nonce count backend others
    have mask := @save_mask worker job nonce count backend others
    rw [here, ← place] at wide
    rw [here]
    have eight : job.nonceSize = 8 := by
      rw [show (worker.save 1 nonce job count backend others).worker.jobs _ = _ from stored] at wide
      exact wide
    have high := (@save_hi_iff worker job nonce count backend others sized eight).mpr (keeps eight)
    generalize (worker.save 1 nonce job count backend others).worker = saved at place stored mask high ⊢
    rw [← place]
    refine slot_of_current ?_ ?_ ?_ ?_
    · rw [stored, place]
    · rw [stored, nonceMask, place, mask]
      rfl
    · rw [stored]
      exact ⟨sized.nonce, sized.fits⟩
    · rw [stored, high]
      rfl
  · have same := @save_sameSlot worker slot job here nonce count backend others
    rw [same.job] at wide
    exact (coherent slot wide).frame same

/-- `add` is one of three things. -/
theorem add_cases (worker : WorkerJob) (nonce : Nonce) (job : Job) (count : BitVec 32) (backend : Backend)
    (others : Nat → Nat → BitVec 62) :
    (∃ sequence index, (worker.add 1 nonce job count backend others).worker = { worker with sequence, index } ∧
        ¬worker.Saves job) ∨
      (worker.Saves job ∧ ∃ sequence, (worker.add 1 nonce job count backend others).worker =
        (save 1 { worker with sequence } nonce job count backend others).worker) := by
  unfold Saves
  simp only [add]
  split
  · rename_i equal
    exact .inl ⟨_, worker.index, rfl, fun saves => saves.1 equal⟩
  · rename_i different
    split
    · rename_i back
      exact .inl ⟨_, userIndex, rfl, fun saves => saves.2 back⟩
    · rename_i fresh
      exact .inr ⟨⟨different, fresh⟩, _, rfl⟩

theorem coherenceStep_slots {event : CoherenceEvent} (coherent : worker.SlotsCoherent) (keeps : event.Keeps worker)
    (stepped : worker.coherenceStep event = some after) : after.SlotsCoherent := by
  cases event with
  | nextRound nonce rounds roundSize others => cases stepped; exact nextRound_slotsCoherent coherent
  | add nonce job sized count backend others =>
    cases stepped
    have same : ∀ sequence index, SlotsCoherent { worker with sequence, index } := fun sequence index slot wide =>
      (coherent slot wide).frame ⟨rfl, rfl, rfl⟩
    obtain ⟨sequence, index, done, -⟩ | ⟨saves, sequence, done⟩ := add_cases worker nonce job count backend others
    · rw [done]
      exact same sequence index
    · rw [done]
      exact save_slotsCoherent (same sequence worker.index) sized backend (keeps saves)

theorem coherenceStep_broken {event : CoherenceEvent} (loses : ¬event.Keeps worker)
    (stepped : worker.coherenceStep event = some after) : ¬after.Coherent := by
  cases event with
  | nextRound nonce rounds roundSize others => exact absurd trivial loses
  | add nonce job sized count backend others =>
    cases stepped
    simp only [CoherenceEvent.Keeps, Classical.not_imp] at loses
    obtain ⟨saves, wide, other⟩ := loses
    obtain ⟨-, -, -, stays⟩ | ⟨-, sequence, done⟩ := add_cases worker nonce job count backend others
    · exact absurd saves stays
    · rw [done]
      intro coherent
      have stored := @save_currentJob { worker with sequence } job nonce count backend others
      have here : (save 1 { worker with sequence } nonce job count backend others).worker.currentJob.nonceSize = 8 := by
        rw [stored]
        exact wide
      have high := (coherent here).1
      rw [stored] at high
      exact other ((save_hi_iff sized wide).mp high.symm)

/-- The number that is submitted is the number that was hashed, in every state of a worker's life,
exactly if each job that is saved keeps its high word. -/
theorem coherent_throughout_iff {events : List CoherenceEvent} {final : WorkerJob}
    (executed : run coherenceStep {} events = some final) :
    Throughout coherenceStep Coherent {} events ↔
      Guarded coherenceStep (fun worker event => event.Keeps worker) {} events :=
  throughout_iff_guarded (fun _ coherent => coherent_of_slot fun wide => coherent _ wide)
    (fun _ _ _ coherent keeps stepped => coherenceStep_slots coherent keeps stepped)
    (fun _ _ _ _ loses stepped => coherenceStep_broken loses stepped)
    (show SlotsCoherent {} from fun _ wide => absurd wide (show ¬({} : Job).nonceSize = 8 by decide)) executed

end Runs

theorem sampleJob_sized : sampleJob.Sized := by decide

def sampleHarder : Job := { sampleJob with diff := 2, target := 0x7fffffffffffffff }

theorem sampleHarder_sized : sampleHarder.Sized := by decide

/-- The counter has left the low word when the difficulty changes. -/
def sampleRetargeted : List CoherenceEvent :=
  [.add {} sampleJob sampleJob_sized 16 .opencl fun _ _ => 0,
    .add { nonces := fun _ => 0x500000000 } sampleHarder sampleHarder_sized 16 .opencl fun _ _ => 0]

/-- The nonce that was hashed is not the one that will be submitted. -/
theorem sampleRetargeted_incoherent :
    ∃ final, run coherenceStep {} sampleRetargeted = some final ∧ final.currentJob.nonceSize = 8 ∧
      (final.words 0).hi ++ (3 : BitVec 32) = 0xabcd000500000003#64 ∧
      fullNonce final.currentJob 3 = 0xabcd000000000003#64 ∧
      ¬Throughout coherenceStep Coherent {} sampleRetargeted := by
  refine ⟨_, rfl, by decide, by decide, by decide, fun coherent => ?_⟩
  have last := throughout_last coherent (by rfl)
  have high := (last (by decide)).1
  revert high
  decide

theorem sampleJob_keepsHigh : KeepsHigh sampleJob {} 16 fun _ _ => 0 := by
  intro first granted _
  have given : (Nonce.next {} sampleJob.index (jobWords sampleJob) 16 sampleJob.nonceMask fun _ => 0).granted = some 0 := by
    decide
  rw [given] at granted
  cases granted
  decide

/-- A job that is saved once and then goes from reservation to reservation, beyond the low word. -/
def sampleRounds : List CoherenceEvent :=
  [.add {} sampleJob sampleJob_sized 16 .opencl fun _ _ => 0,
    .nextRound { nonces := fun _ => 0x500000000 } 1 16 fun _ _ => 0]

theorem sampleRounds_coherent :
    ∃ final, run coherenceStep {} sampleRounds = some final ∧ (final.words 0).hi = 0xabcd0005 ∧
      Throughout coherenceStep Coherent {} sampleRounds := by
  refine ⟨_, rfl, by decide +kernel, (coherent_throughout_iff (by rfl)).mpr ?_⟩
  refine ⟨fun _ _ => sampleJob_keepsHigh, fun next stepped => ?_⟩
  exact ⟨trivial, fun _ _ => trivial⟩

end Xmrig.WorkerJob
