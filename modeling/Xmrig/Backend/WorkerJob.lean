import Xmrig.Crypto.Nonce
import Xmrig.Foundation.Memory

/-! The job slots of a worker, `WorkerJob<N>`.

`N` is the argument `lanes`. A slot keeps `N` copies of the hashing blob back to
back, lane `i` at `i * size`, and the nonce of a lane is read and written in
place. Each operation also returns what its calls of `Nonce::next` returned, in
lane order. The advances that other threads make during a call are the argument
`others`, by lane and by pass of the loop in `Nonce::next`.
-/

set_option autoImplicit false

namespace Xmrig

open Foundation

def Backend.id : Backend → Nat
  | .cpu => 0
  | .opencl => 1
  | .cuda => 2

structure WorkerJob where
  blobs : Fin 2 → Memory := fun _ _ => 0
  jobs : Fin 2 → Job := fun _ => {}
  rounds : Fin 2 → BitVec 32 := fun _ => 0
  nonceMasks : Fin 2 → BitVec 64 := fun _ => 0
  sequence : BitVec 64 := 0
  index : Fin 2 := userIndex

namespace WorkerJob

def currentJob (worker : WorkerJob) : Job := worker.jobs worker.index

def blob (worker : WorkerJob) : Memory := worker.blobs worker.index

def nonceMask (worker : WorkerJob) : BitVec 64 := worker.nonceMasks worker.index

def nonce (worker : WorkerJob) (lane : Nat) : Nat :=
  lane * worker.currentJob.size + worker.currentJob.nonceOffset

def words (worker : WorkerJob) (lane : Nat) : Nonce.Words where
  lo := worker.blob.readWord (worker.nonce lane)
  hi := worker.blob.readWord (worker.nonce lane + 4)

def setBlob (worker : WorkerJob) (blob : Memory) : WorkerJob :=
  { worker with blobs := Function.update worker.blobs worker.index blob }

/-- The writes of `Nonce::next`; the second word is written for wide masks only. -/
def store (worker : WorkerJob) (lane : Nat) (words : Nonce.Words) : WorkerJob :=
  let blob := worker.blob.writeWord (worker.nonce lane) words.lo
  worker.setBlob
    (if 0xFFFFFFFF#64 < Nonce.effective worker.nonceMask then
      blob.writeWord (worker.nonce lane + 4) words.hi
    else blob)

/-- A worker and the shared counters after one call of `Nonce::next`. -/
structure Reserved where
  granted : Option (BitVec 64)
  worker : WorkerJob
  nonce : Nonce

/-- `Nonce::next(index(), nonce(i), count, nonceMask())`. -/
def next (worker : WorkerJob) (nonce : Nonce) (lane : Nat) (count : BitVec 32)
    (others : Nat → BitVec 62) : Reserved :=
  let reply := nonce.next worker.index (worker.words lane) count worker.nonceMask others
  ⟨reply.granted, if reply.granted.isSome then worker.store lane reply.words else worker, reply.nonce⟩

/-- A worker and the shared counters after an operation on all lanes, whether
the operation returned true, and the replies it got. -/
structure Outcome where
  ok : Bool
  worker : WorkerJob
  nonce : Nonce
  replies : List (Option (BitVec 64))

/-- `memcpy` of the job's blob into a lane. -/
def load (worker : WorkerJob) (lane : Nat) (job : Job) : WorkerJob :=
  worker.setBlob (worker.blob.copy (lane * job.size) job.blob)

/-- The loop of `save` over the remaining lanes; the replies are not looked at. -/
def saveLanes (job : Job) (reserveCount : BitVec 32) (others : Nat → Nat → BitVec 62) :
    (left lane : Nat) → WorkerJob → Nonce → Outcome
  | 0, _, worker, nonce => ⟨true, worker, nonce, []⟩
  | left + 1, lane, worker, nonce =>
      let reserved := (worker.load lane job).next nonce lane reserveCount (others lane)
      let rest := saveLanes job reserveCount others left (lane + 1) reserved.worker reserved.nonce
      { rest with replies := reserved.granted :: rest.replies }

def openSlot (worker : WorkerJob) (job : Job) (backend : Backend) : WorkerJob :=
  { worker with
    index := job.index
    jobs := Function.update worker.jobs job.index { job with backend := backend.id }
    rounds := Function.update worker.rounds job.index 0
    nonceMasks := Function.update worker.nonceMasks job.index job.nonceMask }

def save (lanes : Nat) (worker : WorkerJob) (nonce : Nonce) (job : Job) (reserveCount : BitVec 32)
    (backend : Backend) (others : Nat → Nat → BitVec 62) : Outcome :=
  saveLanes job reserveCount others lanes 0 (worker.openSlot job backend) nonce

def add (lanes : Nat) (worker : WorkerJob) (nonce : Nonce) (job : Job) (reserveCount : BitVec 32)
    (backend : Backend) (others : Nat → Nat → BitVec 62) : Outcome :=
  let worker := { worker with sequence := nonce.sequence backend }
  if worker.currentJob.isEqual job then ⟨true, worker, nonce, []⟩
  else if worker.index = donateIndex ∧ job.index = userIndex ∧ job.isEqual (worker.jobs userIndex) then
    ⟨true, { worker with index := userIndex }, nonce, []⟩
  else worker.save lanes nonce job reserveCount backend others

/-- The reserving branch of `nextRound`; it stops at the first refusal. -/
def reserveLanes (count : BitVec 32) (others : Nat → Nat → BitVec 62) :
    (left lane : Nat) → WorkerJob → Nonce → Outcome
  | 0, _, worker, nonce => ⟨true, worker, nonce, []⟩
  | left + 1, lane, worker, nonce =>
      let reserved := worker.next nonce lane count (others lane)
      if reserved.granted.isSome then
        let rest := reserveLanes count others left (lane + 1) reserved.worker reserved.nonce
        { rest with replies := reserved.granted :: rest.replies }
      else ⟨false, reserved.worker, reserved.nonce, [reserved.granted]⟩

def advance (worker : WorkerJob) (lane : Nat) (roundSize : BitVec 32) : WorkerJob :=
  worker.setBlob (worker.blob.writeWord (worker.nonce lane) ((worker.words lane).lo + roundSize))

def advanceLanes (roundSize : BitVec 32) : (left lane : Nat) → WorkerJob → WorkerJob
  | 0, _, worker => worker
  | left + 1, lane, worker => advanceLanes roundSize left (lane + 1) (worker.advance lane roundSize)

/-- `writeUnaligned(m_jobs[index()].nonce() + 1, word)`. -/
def setJobNonceHigh (worker : WorkerJob) (word : BitVec 32) : WorkerJob :=
  let job := worker.currentJob
  let bytes := (Memory.ofBytes job.blob).writeWord (job.nonceOffset + 4) word
  { worker with
    jobs := Function.update worker.jobs worker.index
      { job with blob := (List.range job.size).map bytes } }

def countRound (worker : WorkerJob) : WorkerJob :=
  { worker with
    rounds := Function.update worker.rounds worker.index (worker.rounds worker.index + 1) }

/-- The specialisation for one lane keeps the high word of a wide nonce in the
stored job as well. -/
def nextRound (lanes : Nat) (worker : WorkerJob) (nonce : Nonce) (rounds roundSize : BitVec 32)
    (others : Nat → Nat → BitVec 62) : Outcome :=
  let worker := worker.countRound
  if worker.rounds worker.index &&& (rounds - 1) = 0 then
    let outcome := reserveLanes (rounds * roundSize) others lanes 0 worker nonce
    if outcome.ok ∧ lanes = 1 ∧ worker.currentJob.nonceSize = 8 then
      { outcome with worker := outcome.worker.setJobNonceHigh (outcome.worker.words 0).hi }
    else outcome
  else ⟨true, advanceLanes roundSize lanes 0 worker, nonce, []⟩

/-! ## One lane -/

/-- The slot in use was filled from a job. -/
structure Carries (worker : WorkerJob) (job : Job) : Prop where
  index : worker.index = job.index
  size : worker.currentJob.size = job.size
  algorithm : worker.currentJob.algorithm = job.algorithm
  mask : worker.nonceMask = job.nonceMask

/-- The nonce as a number: both words when it has 8 bytes, else the low one. -/
def field (job : Job) (words : Nonce.Words) : BitVec 64 :=
  if job.nonceSize = 8 then words.join else words.lo.setWidth 64

def jobWords (job : Job) : Nonce.Words where
  lo := (Memory.ofBytes job.blob).readWord job.nonceOffset
  hi := (Memory.ofBytes job.blob).readWord (job.nonceOffset + 4)

/-- A lane holds the job's blob with some number in the place of its nonce. -/
structure Holds (worker : WorkerJob) (job : Job) (lane value : Nat) : Prop where
  rest : ∀ position < job.size,
    position < job.nonceOffset ∨ job.nonceOffset + job.nonceSize ≤ position →
      worker.blob (lane * job.size + position) = Memory.ofBytes job.blob position
  value : (field job (worker.words lane)).toNat = value

def SameLane (job : Job) (lane : Nat) (before after : WorkerJob) : Prop :=
  ∀ position < job.size,
    after.blob (lane * job.size + position) = before.blob (lane * job.size + position)

section Lane
variable {worker after : WorkerJob} {job : Job} {lane : Nat}

theorem Carries.nonce (carries : worker.Carries job) (lane : Nat) :
    worker.nonce lane = lane * job.size + job.nonceOffset := by
  simp only [WorkerJob.nonce, Job.nonceOffset, carries.size, carries.algorithm]

theorem Carries.nonceSize (carries : worker.Carries job) :
    worker.currentJob.nonceSize = job.nonceSize := by
  simp only [Job.nonceSize, carries.algorithm]

theorem div_of_rest {quotient rest size : Nat} (small : rest < size) :
    (quotient * size + rest) / size = quotient := by
  rw [Nat.mul_comm, Nat.mul_add_div (Nat.zero_lt_of_lt small), Nat.div_eq_of_lt small, Nat.add_zero]

theorem lane_apart {other size first second : Nat} (apart : other ≠ lane) (inFirst : first < size)
    (inSecond : second < size) : other * size + first ≠ lane * size + second := by
  intro same
  have quotients := congrArg (· / size) same
  simp only [div_of_rest inFirst, div_of_rest inSecond] at quotients
  exact apart quotients

theorem field_congr {first second : Nonce.Words} (low : first.lo = second.lo)
    (high : job.nonceSize = 8 → first.hi = second.hi) : field job first = field job second := by
  unfold field
  split
  · rename_i wide
    rw [Nonce.Words.join, Nonce.Words.join, low, high wide]
  · rw [low]

theorem SameLane.readWord (same : SameLane job lane worker after) (sized : job.Sized)
    (carries : worker.Carries job) (carriesAfter : after.Carries job) (skip : Nat)
    (fits : skip + 4 ≤ job.nonceSize) :
    after.blob.readWord (after.nonce lane + skip) =
      worker.blob.readWord (worker.nonce lane + skip) := by
  have bound := sized.nonce
  rw [carries.nonce, carriesAfter.nonce]
  apply Memory.readWord_congr
  intro offset small
  have byte := same (job.nonceOffset + skip + offset) (by omega)
  simpa only [Nat.add_assoc] using byte

/-- What a lane holds depends only on the bytes of the lane. -/
theorem Holds.frame {value : Nat} (holds : worker.Holds job lane value) (sized : job.Sized)
    (carries : worker.Carries job) (carriesAfter : after.Carries job)
    (same : SameLane job lane worker after) : after.Holds job lane value := by
  refine ⟨fun position inside outside => ?_, ?_⟩
  · rw [same position inside]
    exact holds.rest position inside outside
  · have low : (after.words lane).lo = (worker.words lane).lo :=
      same.readWord sized carries carriesAfter 0 job.nonceSize_ge
    rw [← holds.value, field_congr low]
    intro wide
    exact same.readWord sized carries carriesAfter 4 (by omega)

@[simp] theorem setBlob_blob (memory : Memory) : (worker.setBlob memory).blob = memory := by
  simp [setBlob, blob]

@[simp] theorem setBlob_index (memory : Memory) : (worker.setBlob memory).index = worker.index := rfl

@[simp] theorem setBlob_rounds (memory : Memory) : (worker.setBlob memory).rounds = worker.rounds := rfl

theorem setBlob_carries (carries : worker.Carries job) (memory : Memory) :
    (worker.setBlob memory).Carries job := ⟨carries.1, carries.2, carries.3, carries.4⟩

theorem setBlob_nonce (memory : Memory) (lane : Nat) :
    (worker.setBlob memory).nonce lane = worker.nonce lane := rfl

/-- A worker that differs in the nonce bytes of one lane only. -/
structure Touched (worker after : WorkerJob) (job : Job) (lane : Nat) : Prop where
  carries : after.Carries job
  rounds : after.rounds = worker.rounds
  blob : ∀ position, position < lane * job.size + job.nonceOffset ∨
    lane * job.size + job.nonceOffset + job.nonceSize ≤ position →
      after.blob position = worker.blob position

theorem Touched.same (touched : Touched worker after job lane) (sized : job.Sized) {other : Nat}
    (apart : other ≠ lane) : SameLane job other worker after := by
  intro position inside
  have bound := sized.nonce
  apply touched.blob
  by_contra within
  obtain ⟨offset, small, equal⟩ : ∃ offset < job.size,
      other * job.size + position = lane * job.size + offset :=
    ⟨other * job.size + position - lane * job.size, by omega, by omega⟩
  exact lane_apart apart inside small equal

theorem Touched.holds (touched : Touched worker after job lane) {old value : Nat}
    (holds : worker.Holds job lane old) (written : (field job (after.words lane)).toNat = value) :
    after.Holds job lane value where
  rest position inside outside := by
    rw [touched.blob _ (by omega)]
    exact holds.rest position inside outside
  value := written

theorem narrow_mask (narrow : job.nonceSize ≠ 8) :
    (Nonce.effective job.nonceMask).toNat < 2 ^ 32 := by
  have small : job.nonceMask.toNat < 2 ^ 32 := by
    by_contra large
    exact narrow (Job.nonceSize_of_wide (Nat.le_of_not_lt large))
  rw [Nonce.toNat_effective]
  exact Nat.lt_of_le_of_lt (Nat.mod_le _ _) small

theorem field_write {mask counter : BitVec 64} {bits : Nat} (words : Nonce.Words)
    (ones : mask.toNat = 2 ^ bits - 1) (inside : counter.toNat < 2 ^ bits)
    (narrow : job.nonceSize ≠ 8 → mask.toNat < 2 ^ 32) :
    (field job (Nonce.write mask counter words)).toNat =
      (field job words).toNat / 2 ^ bits * 2 ^ bits + counter.toNat := by
  unfold field
  split
  · rw [Nonce.join_write words (by omega), Nonce.toNat_merge ones inside]
  · rename_i short
    have small := narrow short
    rw [← Nonce.toNat_merge ones inside]
    congr 1
    apply BitVec.eq_of_getLsbD_eq
    intro position bound
    simp only [Nonce.write, BitVec.getLsbD_setWidth, BitVec.getLsbD_or, BitVec.getLsbD_and,
      BitVec.getLsbD_not, bound, decide_true, Bool.true_and]
    by_cases lowWord : position < 32
    · simp [lowWord]
    · rw [Nonce.getLsbD_high (show counter.toNat < 2 ^ 32 by omega) (by omega),
        BitVec.getLsbD_of_ge words.lo position (by omega)]
      simp [lowWord]

theorem store_words (counter : BitVec 64) :
    (worker.store lane
        (Nonce.write (Nonce.effective worker.nonceMask) counter (worker.words lane))).words lane =
      Nonce.write (Nonce.effective worker.nonceMask) counter (worker.words lane) := by
  generalize written : Nonce.write (Nonce.effective worker.nonceMask) counter (worker.words lane) =
    words
  by_cases wide : 0xFFFFFFFF#64 < Nonce.effective worker.nonceMask
  · have low : (worker.store lane words).blob.readWord (worker.nonce lane) = words.lo := by
      rw [store, if_pos wide, setBlob_blob, Memory.readWord_writeWord_apart (by omega),
        Memory.readWord_writeWord]
    have high : (worker.store lane words).blob.readWord (worker.nonce lane + 4) = words.hi := by
      rw [store, if_pos wide, setBlob_blob, Memory.readWord_writeWord]
    exact congrArg₂ Nonce.Words.mk low high
  · have low : (worker.store lane words).blob.readWord (worker.nonce lane) = words.lo := by
      rw [store, if_neg wide, setBlob_blob, Memory.readWord_writeWord]
    have high : (worker.store lane words).blob.readWord (worker.nonce lane + 4) = words.hi := by
      rw [store, if_neg wide, setBlob_blob, Memory.readWord_writeWord_apart (by omega), ← written]
      exact (if_neg wide).symm
    exact congrArg₂ Nonce.Words.mk low high

theorem store_touched (carries : worker.Carries job) (words : Nonce.Words) :
    Touched worker (worker.store lane words) job lane := by
  refine ⟨setBlob_carries carries _, rfl, ?_⟩
  intro position outside
  have size := job.nonceSize_ge
  rw [store, setBlob_blob, carries.nonce, carries.mask]
  split
  · rename_i wide
    have eight : job.nonceSize = 8 := by
      by_contra narrow
      have small := narrow_mask narrow
      rw [BitVec.lt_def, show (0xFFFFFFFF#64).toNat = 2 ^ 32 - 1 by decide] at wide
      omega
    rw [Memory.writeWord_outside (by omega), Memory.writeWord_outside (by omega)]
  · rw [Memory.writeWord_outside (by omega)]

theorem load_carries (lane : Nat) (carries : worker.Carries job) : (worker.load lane job).Carries job :=
  setBlob_carries carries _

theorem load_holds (lane : Nat) (carries : worker.Carries job) (sized : job.Sized) :
    (worker.load lane job).Holds job lane (field job (jobWords job)).toNat := by
  have bound := sized.nonce
  have byte : ∀ position < job.size,
      (worker.load lane job).blob (lane * job.size + position) = Memory.ofBytes job.blob position := by
    intro position inside
    rw [load, setBlob_blob, Memory.copy_inside inside]
  have word : ∀ skip, skip + 4 ≤ job.nonceSize →
      (worker.load lane job).blob.readWord ((worker.load lane job).nonce lane + skip) =
        (Memory.ofBytes job.blob).readWord (job.nonceOffset + skip) := by
    intro skip fits
    rw [(load_carries lane carries).nonce]
    apply Memory.readWord_congr
    intro offset small
    have := byte (job.nonceOffset + skip + offset) (by omega)
    simpa only [Nat.add_assoc] using this
  have low : ((worker.load lane job).words lane).lo = (jobWords job).lo := word 0 job.nonceSize_ge
  refine ⟨fun position inside _ => byte position inside, ?_⟩
  rw [field_congr low fun wide => word 4 (by omega)]

theorem load_same {other : Nat} (apart : other ≠ lane) :
    SameLane job other worker (worker.load lane job) := by
  intro position inside
  rw [load, setBlob_blob, Memory.copy_outside]
  by_contra within
  obtain ⟨offset, small, equal⟩ : ∃ offset < job.size,
      other * job.size + position = lane * job.size + offset :=
    ⟨other * job.size + position - lane * job.size, by simp only [Job.size] at within ⊢; omega,
      by omega⟩
  exact lane_apart apart inside small equal

def space (job : Job) : Nat := (Nonce.effective job.nonceMask).toNat + 1

theorem next_currentJob (worker : WorkerJob) (nonce : Nonce) (lane : Nat) (count : BitVec 32)
    (others : Nat → BitVec 62) : (worker.next nonce lane count others).worker.currentJob = worker.currentJob := by
  simp only [next]
  split <;> rfl

theorem next_touched (lane : Nat) (carries : worker.Carries job) (nonce : Nonce) (count : BitVec 32)
    (others : Nat → BitVec 62) :
    Touched worker (worker.next nonce lane count others).worker job lane := by
  simp only [next]
  split
  · exact store_touched carries _
  · exact ⟨carries, rfl, fun _ _ => rfl⟩

theorem next_holds {nonce : Nonce} {count : BitVec 32} {others : Nat → BitVec 62} {first : BitVec 64}
    (carries : worker.Carries job) {old : Nat} (holds : worker.Holds job lane old)
    (taken : (worker.next nonce lane count others).granted = some first) :
    (worker.next nonce lane count others).worker.Holds job lane
      (old / space job * space job + first.toNat) := by
  have touched := next_touched lane carries nonce count others
  obtain ⟨bits, _, ones⟩ := Nonce.effective_nonceMask_low job
  have granted := Nonce.next_granted (carries.mask ▸ Nonce.effective_nonceMask_low job) taken
  have inside := granted.fits.inside
  have positive := granted.fits.positive
  have whole : space job = 2 ^ bits := by
    have : 0 < 2 ^ bits := Nat.two_pow_pos bits
    rw [space, ones]
    omega
  refine touched.holds holds ?_
  have written : (worker.next nonce lane count others).worker.words lane =
      Nonce.write (Nonce.effective worker.nonceMask) first (worker.words lane) := by
    simp only [next] at taken ⊢
    rw [if_pos (by rw [taken]; rfl), granted.words, store_words]
  rw [written, carries.mask, field_write _ ones _ narrow_mask, holds.value, whole]
  rw [carries.mask] at inside
  simp only [space] at whole
  omega

theorem next_refused {nonce : Nonce} {count : BitVec 32} {others : Nat → BitVec 62}
    (refused : (worker.next nonce lane count others).granted = none) :
    (worker.next nonce lane count others).worker = worker := by
  simp only [next] at refused ⊢
  rw [refused]
  rfl

theorem advance_touched (lane : Nat) (carries : worker.Carries job) (roundSize : BitVec 32) :
    Touched worker (worker.advance lane roundSize) job lane := by
  refine ⟨setBlob_carries carries _, rfl, ?_⟩
  intro position outside
  have size := job.nonceSize_ge
  rw [advance, setBlob_blob, carries.nonce, Memory.writeWord_outside (by omega)]

theorem advance_words (roundSize : BitVec 32) :
    (worker.advance lane roundSize).words lane =
      ⟨(worker.words lane).lo + roundSize, (worker.words lane).hi⟩ := by
  have low : (worker.advance lane roundSize).blob.readWord (worker.nonce lane) =
      (worker.words lane).lo + roundSize := by
    rw [advance, setBlob_blob, Memory.readWord_writeWord]
  have high : (worker.advance lane roundSize).blob.readWord (worker.nonce lane + 4) =
      (worker.words lane).hi := by
    rw [advance, setBlob_blob, Memory.readWord_writeWord_apart (by omega), words]
  exact congrArg₂ Nonce.Words.mk low high

theorem field_mod (job : Job) (words : Nonce.Words) : (field job words).toNat % 2 ^ 32 = words.lo.toNat := by
  have := words.lo.isLt
  unfold field
  split
  · rw [Nonce.Words.toNat_join]
    omega
  · rw [BitVec.toNat_setWidth, Nat.mod_eq_of_lt (a := words.lo.toNat) (by omega),
      Nat.mod_eq_of_lt (by omega)]

theorem advance_holds {roundSize : BitVec 32} (carries : worker.Carries job) {old : Nat}
    (holds : worker.Holds job lane old) (room : old % 2 ^ 32 + roundSize.toNat < 2 ^ 32) :
    (worker.advance lane roundSize).Holds job lane (old + roundSize.toNat) := by
  refine (advance_touched lane carries roundSize).holds holds ?_
  have low := field_mod job (worker.words lane)
  rw [holds.value] at low
  have value := holds.value
  have moved : ((worker.words lane).lo + roundSize).toNat =
      (worker.words lane).lo.toNat + roundSize.toNat := by
    rw [BitVec.toNat_add, Nat.mod_eq_of_lt (by omega)]
  rw [advance_words]
  unfold field at value ⊢
  split at value
  · rename_i wide
    rw [Nonce.Words.toNat_join] at value
    rw [if_pos wide, Nonce.Words.toNat_join]
    dsimp only
    omega
  · rename_i narrow
    rw [if_neg narrow, BitVec.toNat_setWidth, moved, Nat.mod_eq_of_lt (by omega)]
    rw [BitVec.toNat_setWidth, Nat.mod_eq_of_lt (by omega)] at value
    omega

end Lane

/-! ## All lanes -/

/-- A worker that differs only in a range of lanes. -/
structure Swept (worker after : WorkerJob) (job : Job) (lane left : Nat) : Prop where
  carries : after.Carries job
  rounds : after.rounds = worker.rounds
  same : ∀ other, other < lane ∨ lane + left ≤ other → SameLane job other worker after

section Lanes
variable {worker middle after : WorkerJob} {job : Job} {lane left : Nat}

theorem Swept.refl (carries : worker.Carries job) (lane : Nat) : Swept worker worker job lane 0 :=
  ⟨carries, rfl, fun _ _ _ _ => rfl⟩

theorem Swept.cons (rounds : middle.rounds = worker.rounds)
    (same : ∀ other, other ≠ lane → SameLane job other worker middle)
    (rest : Swept middle after job (lane + 1) left) : Swept worker after job lane (left + 1) where
  carries := rest.carries
  rounds := rest.rounds.trans rounds
  same other outside := by
    intro position inside
    rw [rest.same other (by omega) position inside, same other (by omega) position inside]

theorem Swept.holds (rest : Swept middle after job (lane + 1) left) (sized : job.Sized)
    (carries : middle.Carries job) {value : Nat} (holds : middle.Holds job lane value) :
    after.Holds job lane value :=
  holds.frame sized carries rest.carries (rest.same lane (by omega))

def saved (job : Job) : Option (BitVec 64) → Nat
  | none => (field job (jobWords job)).toNat
  | some first => (field job (jobWords job)).toNat / space job * space job + first.toNat

theorem saveLanes_swept (sized : job.Sized) (count : BitVec 32) (others : Nat → Nat → BitVec 62)
    (carries : worker.Carries job) (nonce : Nonce) :
    Swept worker (saveLanes job count others left lane worker nonce).worker job lane left := by
  induction left generalizing lane worker nonce with
  | zero => exact .refl carries lane
  | succ left ih =>
    have touched := next_touched lane (load_carries lane carries) nonce count (others lane)
    refine .cons (touched.rounds) ?_ (ih touched.carries _)
    intro other apart position inside
    rw [touched.same sized apart position inside, load_same apart position inside]

theorem saveLanes_holds (sized : job.Sized) (count : BitVec 32) (others : Nat → Nat → BitVec 62)
    (carries : worker.Carries job) (nonce : Nonce) {offset : Nat} (inside : offset < left) :
    ∃ reply, (saveLanes job count others left lane worker nonce).replies[offset]? = some reply ∧
      (saveLanes job count others left lane worker nonce).worker.Holds job (lane + offset)
        (saved job reply) := by
  induction left generalizing lane worker nonce offset with
  | zero => omega
  | succ left ih =>
    have touched := next_touched lane (load_carries lane carries) nonce count (others lane)
    cases offset with
    | succ offset =>
      obtain ⟨reply, found, holds⟩ :=
        @ih _ (lane + 1) touched.carries _ offset (by omega)
      refine ⟨reply, found, ?_⟩
      rwa [show lane + (offset + 1) = lane + 1 + offset by omega]
    | zero =>
      refine ⟨_, rfl, ?_⟩
      refine (saveLanes_swept sized count others touched.carries _).holds sized touched.carries ?_
      have loaded := load_holds lane carries sized
      cases reply : ((worker.load lane job).next nonce lane count (others lane)).granted with
      | none => rw [next_refused reply]; exact loaded
      | some first => exact next_holds (load_carries lane carries) loaded reply

theorem saveLanes_length (job : Job) (count : BitVec 32) (others : Nat → Nat → BitVec 62)
    (worker : WorkerJob) (nonce : Nonce) :
    (saveLanes job count others left lane worker nonce).replies.length = left := by
  induction left generalizing lane worker nonce with
  | zero => rfl
  | succ left ih => simp only [saveLanes, List.length_cons, ih]

theorem reserveLanes_swept (sized : job.Sized) (count : BitVec 32)
    (others : Nat → Nat → BitVec 62) (carries : worker.Carries job) (nonce : Nonce)
    (ok : (reserveLanes count others left lane worker nonce).ok = true) :
    Swept worker (reserveLanes count others left lane worker nonce).worker job lane left := by
  induction left generalizing lane worker nonce with
  | zero => exact .refl carries lane
  | succ left ih =>
    have touched := next_touched lane carries nonce count (others lane)
    simp only [reserveLanes] at ok ⊢
    split at ok
    · rename_i taken
      rw [if_pos taken]
      exact .cons touched.rounds (fun other apart => touched.same sized apart)
        (ih touched.carries _ ok)
    · cases ok

theorem reserveLanes_holds (sized : job.Sized) (count : BitVec 32)
    (others : Nat → Nat → BitVec 62) (carries : worker.Carries job) (nonce : Nonce)
    (ok : (reserveLanes count others left lane worker nonce).ok = true) {offset old : Nat}
    (inside : offset < left) (holds : worker.Holds job (lane + offset) old) :
    ∃ first, (reserveLanes count others left lane worker nonce).replies[offset]? = some (some first) ∧
      (reserveLanes count others left lane worker nonce).worker.Holds job (lane + offset)
        (old / space job * space job + first.toNat) := by
  induction left generalizing lane worker nonce offset with
  | zero => omega
  | succ left ih =>
    have touched := next_touched lane carries nonce count (others lane)
    simp only [reserveLanes] at ok ⊢
    split at ok
    · rename_i taken
      rw [if_pos taken]
      obtain ⟨first, reply⟩ := Option.isSome_iff_exists.mp taken
      cases offset with
      | succ offset =>
        have kept := holds.frame sized carries touched.carries (touched.same sized (by omega))
        rw [show lane + (offset + 1) = lane + 1 + offset by omega] at kept ⊢
        exact ih touched.carries _ ok (by omega) kept
      | zero =>
        refine ⟨first, congrArg some reply, ?_⟩
        exact (reserveLanes_swept sized count others touched.carries _ ok).holds sized touched.carries
          (next_holds carries holds reply)
    · cases ok

theorem advanceLanes_swept (sized : job.Sized) (roundSize : BitVec 32)
    (carries : worker.Carries job) :
    Swept worker (advanceLanes roundSize left lane worker) job lane left := by
  induction left generalizing lane worker with
  | zero => exact .refl carries lane
  | succ left ih =>
    have touched := advance_touched lane carries roundSize
    exact .cons touched.rounds (fun other apart => touched.same sized apart) (ih touched.carries)

theorem advanceLanes_holds (sized : job.Sized) {roundSize : BitVec 32} (carries : worker.Carries job)
    {offset old : Nat} (inside : offset < left) (holds : worker.Holds job (lane + offset) old)
    (room : old % 2 ^ 32 + roundSize.toNat < 2 ^ 32) :
    (advanceLanes roundSize left lane worker).Holds job (lane + offset) (old + roundSize.toNat) := by
  induction left generalizing lane worker offset with
  | zero => omega
  | succ left ih =>
    have touched := advance_touched lane carries roundSize
    cases offset with
    | succ offset =>
      have kept := holds.frame sized carries touched.carries (touched.same sized (by omega))
      rw [show lane + (offset + 1) = lane + 1 + offset by omega] at kept ⊢
      exact ih touched.carries (by omega) kept
    | zero =>
      exact (advanceLanes_swept sized roundSize touched.carries).holds sized touched.carries
        (advance_holds carries holds room)

end Lanes

end WorkerJob

end Xmrig
