import Xmrig.Stratum.KawpowJob

/-! The nonces of a KawPow job, from the reservation to the digits of a result.

A runner hashes the blob of the worker and reports the low word of a nonce. The
submitted number is put together from this word and the high word in the
worker's copy of the job. `nextRound` writes a new high word into both places,
`save` into the blob only.
-/

set_option autoImplicit false

namespace Xmrig.WorkerJob

open Foundation EthStratumClient

/-- The nonce of a result in `JobResults`: the low word is written into the copy of the job,
then the eight bytes behind the header hash are read. -/
def fullNonce (job : Job) (low : BitVec 32) : BitVec 64 :=
  let blob := (Memory.ofBytes job.blob).writeWord job.nonceOffset low
  blob.readWord 36 ++ blob.readWord 32

/-- What a worker does while it has one job: the job is consumed again, or a round ends. The
counters are as the other threads have left them. -/
inductive KawpowEvent where
  | consume (nonce : Nonce) (count : BitVec 32) (backend : Backend) (others : Nat → Nat → BitVec 62)
  | round (nonce : Nonce) (rounds roundSize : BitVec 32) (others : Nat → Nat → BitVec 62)

/-- A round that finds no nonces left is reported, but the worker goes on. -/
def kawpowStep (job : Job) (worker : WorkerJob) : KawpowEvent → Option WorkerJob
  | .consume nonce count backend others => some (worker.add 1 nonce job count backend others).worker
  | .round nonce rounds roundSize others => some (worker.nextRound 1 nonce rounds roundSize others).worker

/-- The first request for nonces of a job ends inside the low word or beyond the nonce space. -/
def StartsLow (job : Job) (nonce : Nonce) (count : BitVec 32) (others : Nat → Nat → BitVec 62) : Prop :=
  let counter := (nonce.nonces job.index + (others 0 0).setWidth 64).toNat
  let mask := (Nonce.effective job.nonceMask).toNat
  mask < 2 ^ 32 ∨ counter + count.toNat ≤ 2 ^ 32 ∨ mask + 1 < counter + count.toNat

/-- A job that has to be saved again is saved with a low counter. -/
def kawpowGuard (job : Job) (worker : WorkerJob) : KawpowEvent → Prop
  | .consume nonce count _ others => worker.currentJob.isEqual job = true ∨ StartsLow job nonce count others
  | .round .. => True

/-! ## One reservation -/

section Reservation
variable {job : Job} {nonce : Nonce} {count : BitVec 32} {others : Nat → Nat → BitVec 62}

theorem attempt_retry_wraps {mask counter : BitVec 64} (positive : count ≠ 0)
    (retry : Nonce.attempt mask counter count = .retry) : 2 ^ 32 < counter.toNat + count.toNat := by
  unfold Nonce.attempt at retry
  split at retry
  · cases retry
  · split at retry
    · split at retry <;> cases retry
    · split at retry
      · rename_i wraps
        have word : (counter.setWidth 32).toNat = counter.toNat % 2 ^ 32 := BitVec.toNat_setWidth _ _
        have below := Nat.mod_le counter.toNat (2 ^ 32)
        have room : (0xFFFFFFFF#32 - counter.setWidth 32).toNat = 2 ^ 32 - 1 - counter.toNat % 2 ^ 32 := by
          rw [← word]
          bv_omega
        rw [BitVec.lt_def, room, (Nonce.toNat_pred positive).2.1] at wraps
        have := (Nonce.toNat_pred positive).2.2
        omega
      · cases retry

theorem next_low {words : Nonce.Words} {first : BitVec 64} (low : StartsLow job nonce count others)
    (granted : (nonce.next job.index words count job.nonceMask (others 0)).granted = some first) :
    first.toNat < 2 ^ 32 := by
  have masked := Nonce.effective_nonceMask_low job
  have fits := (Nonce.next_granted masked granted).fits
  have inside := fits.inside
  have positive := fits.positive
  have some_ : count ≠ 0 := by
    rintro rfl
    exact absurd positive (by decide)
  rcases low with narrow | low
  · omega
  · simp only [Nonce.next] at granted
    split at granted
    · cases granted
    · simp only [Nonce.fuelFor, Nonce.nextLoop, Nonce.fetchAdd] at granted
      split at granted
      · cases granted
      · cases granted
      · cases granted
        omega
      · cases granted
        omega
      · rename_i retry
        have fitted := (Nonce.attempt_retry retry).2 some_
        have wraps := attempt_retry_wraps some_ retry
        omega

end Reservation

/-! ## The digits at the top -/

section Top
variable {digits : List Byte} {job : Job}

theorem toNat_field (prepared : Prepared digits job) (words : Nonce.Words) :
    (field job words).toNat = words.hi.toNat * 2 ^ 32 + words.lo.toNat := by
  rw [field, if_pos prepared.nonceSize, Nonce.Words.toNat_join]

theorem pow_split {count : Nat} (short : count ≤ 8) : 2 ^ (64 - 4 * count) = 2 ^ 32 * 2 ^ (32 - 4 * count) := by
  rw [← Nat.pow_add]
  congr 1
  omega

theorem top_eq {count : Nat} (short : count ≤ 8) (high : Nat) {low : Nat} (small : low < 2 ^ 32) :
    (high * 2 ^ 32 + low) / 2 ^ (64 - 4 * count) = high / 2 ^ (32 - 4 * count) := by
  rw [pow_split short, ← Nat.div_div_eq_div_mul, div_of_rest small]

/-- The counters reach up to the digits, except for the bit that `Nonce::next` takes from the mask. -/
theorem space_dvd (prepared : Prepared digits job) (short : digits.length ≤ 8) :
    space job ∣ 2 ^ (64 - 4 * digits.length) := by
  have mask : job.nonceMask.toNat = 2 ^ (64 - 4 * digits.length) - 1 := by
    rw [prepared.mask, BitVec.toNat_ushiftRight, BitVec.toNat_allOnes, Nat.shiftRight_eq_div_pow,
      Nat.mul_comm digits.length]
    interval_cases digits.length <;> rfl
  rw [space, Nonce.toNat_effective, mask]
  interval_cases digits.length <;> decide

theorem top_kept (prepared : Prepared digits job) (short : digits.length ≤ 8) (old : Nat) {first : Nat}
    (inside : first < space job) :
    (old / space job * space job + first) / 2 ^ (64 - 4 * digits.length) =
      old / 2 ^ (64 - 4 * digits.length) := by
  obtain ⟨factor, whole⟩ := space_dvd prepared short
  rw [whole, ← Nat.div_div_eq_div_mul, ← Nat.div_div_eq_div_mul, div_of_rest inside]

theorem pow_digits {count : Nat} (short : count ≤ 8) : 16 ^ (16 - count) = 2 ^ (64 - 4 * count) := by
  rw [show 64 - 4 * count = 4 * (16 - count) by omega, Nat.pow_mul]

theorem templateValue_eq {digits : List Byte} (short : digits.length ≤ 8) :
    templateValue digits = hexNumber digits * 2 ^ (64 - 4 * digits.length) := by
  rw [templateValue, pow_digits short]

theorem templateValue_top {digits : List Byte} (short : digits.length ≤ 8) :
    templateValue digits / 2 ^ (64 - 4 * digits.length) = hexNumber digits := by
  rw [templateValue_eq short, Nat.mul_div_cancel _ (Nat.two_pow_pos _)]

end Top

/-! ## A worker on a job -/

/-- The digits of the extra nonce stand in the blob that is hashed, and the copy of the job has
the same high word. -/
structure Mining (digits : List Byte) (job : Job) (worker : WorkerJob) : Prop where
  carries : worker.Carries job
  holds : ∃ value, worker.Holds job 0 value
  top : (worker.words 0).hi.toNat / 2 ^ (32 - 4 * digits.length) = hexNumber digits
  stored : (jobWords worker.currentJob).hi = (worker.words 0).hi

section Worker
variable {digits : List Byte} {job : Job} {worker : WorkerJob} {nonce : Nonce} {count : BitVec 32}
  {others : Nat → Nat → BitVec 62}

theorem granted_inside (carries : worker.Carries job) {first : BitVec 64} {lane : Nat}
    {others : Nat → BitVec 62} (granted : (worker.next nonce lane count others).granted = some first) :
    first.toNat < space job := by
  have fits := (Nonce.next_granted (carries.mask ▸ Nonce.effective_nonceMask_low job) granted).fits
  have inside := fits.inside
  have positive := fits.positive
  rw [carries.mask] at inside
  rw [space]
  omega

theorem next_top (prepared : Prepared digits job) (short : digits.length ≤ 8) (carries : worker.Carries job)
    {value : Nat} (holds : worker.Holds job 0 value)
    (top : (worker.words 0).hi.toNat / 2 ^ (32 - 4 * digits.length) = hexNumber digits) {first : BitVec 64}
    {others : Nat → BitVec 62} (granted : (worker.next nonce 0 count others).granted = some first) :
    ((worker.next nonce 0 count others).worker.words 0).hi.toNat / 2 ^ (32 - 4 * digits.length) =
      hexNumber digits := by
  have written := (next_holds carries holds granted).value
  have old := holds.value
  rw [toNat_field prepared] at written old
  rw [← top_eq short _ (BitVec.isLt ((worker.next nonce 0 count others).worker.words 0).lo), written,
    top_kept prepared short value (granted_inside carries granted), ← old, top_eq short _ (BitVec.isLt _), top]

theorem setJobNonceHigh_words (carries : worker.Carries job) (word : BitVec 32) (lane : Nat) :
    (worker.setJobNonceHigh word).words lane = worker.words lane := by
  have same := setJobNonceHigh_same carries word
  simp only [words, same.blob, carries.nonce, same.carries.nonce]

theorem setJobNonceHigh_stored (sized : job.Sized) (wide : job.nonceSize = 8) (carries : worker.Carries job)
    (word : BitVec 32) : (jobWords (worker.setJobNonceHigh word).currentJob).hi = word := by
  have room := sized.nonce
  have size := carries.size
  have offset : worker.currentJob.nonceOffset = job.nonceOffset := by
    simp only [Job.nonceOffset, carries.algorithm]
  have bytes : (worker.setJobNonceHigh word).currentJob.blob = (List.range worker.currentJob.size).map
      ((Memory.ofBytes worker.currentJob.blob).writeWord (worker.currentJob.nonceOffset + 4) word) := by
    simp [setJobNonceHigh, currentJob]
  have place : (worker.setJobNonceHigh word).currentJob.nonceOffset = worker.currentJob.nonceOffset := by
    simp only [Job.nonceOffset, (setJobNonceHigh_same carries word).carries.algorithm, carries.algorithm]
  rw [jobWords, place, bytes]
  dsimp only
  rw [← @Memory.readWord_writeWord (Memory.ofBytes worker.currentJob.blob)
    (worker.currentJob.nonceOffset + 4) word]
  apply Memory.readWord_congr
  intro index small
  have inside : worker.currentJob.nonceOffset + 4 + index < worker.currentJob.size := by omega
  rw [Memory.readWord_writeWord, Memory.ofBytes, List.getD_eq_getElem?_getD, List.getElem?_map,
    List.getElem?_range inside]
  rfl

/-- `save` keeps the high word that the job came with. -/
theorem save_mining (prepared : Prepared digits job) (short : digits.length ≤ 8) (backend : Backend)
    (low : StartsLow job nonce count others) (worker : WorkerJob) :
    Mining digits job (worker.save 1 nonce job count backend others).worker := by
  have opened := Session.openSlot_carries worker job backend
  have loaded := load_holds 0 opened prepared.sized
  have carries := load_carries 0 opened
  have small := templateValue_lt (show digits.length ≤ 16 by omega)
  have zero := templateValue_low short
  have template : (field job (jobWords job)).toNat = templateValue digits := by
    rw [toNat_field prepared, prepared.words, BitVec.toNat_ofNat]
    change _ + 0 = _
    omega
  rw [template] at loaded
  -- The number behind `save` is the template, or the template with a low word.
  obtain ⟨value, holds, high⟩ : ∃ value, (worker.save 1 nonce job count backend others).worker.Holds job 0 value ∧
      value / 2 ^ 32 = templateValue digits / 2 ^ 32 := by
    cases reply : (((worker.openSlot job backend).load 0 job).next nonce 0 count (others 0)).granted with
    | none =>
      refine ⟨templateValue digits, ?_, rfl⟩
      change (((worker.openSlot job backend).load 0 job).next nonce 0 count (others 0)).worker.Holds job 0 _
      rw [next_refused reply]
      exact loaded
    | some first =>
      refine ⟨_, next_holds carries loaded reply, ?_⟩
      have inWord : first.toNat < 2 ^ 32 := by
        have granted := reply
        simp only [next, carries.mask, carries.index] at granted
        exact next_low low granted
      have whole : space job ∣ templateValue digits := by
        rw [templateValue_eq short]
        exact Nat.dvd_trans (space_dvd prepared short) (Nat.dvd_mul_left _ _)
      rw [Nat.div_mul_cancel whole]
      omega
  have value_ := holds.value
  have lowWord := BitVec.isLt ((worker.save 1 nonce job count backend others).worker.words 0).lo
  rw [toNat_field prepared] at value_
  have hi : ((worker.save 1 nonce job count backend others).worker.words 0).hi.toNat =
      templateValue digits / 2 ^ 32 := by omega
  refine ⟨(next_touched 0 carries nonce count (others 0)).carries, ⟨value, holds⟩, ?_, ?_⟩
  · rw [hi, Nat.div_div_eq_div_mul, ← pow_split short, templateValue_top short]
  · have kept : (worker.save 1 nonce job count backend others).worker.currentJob =
        { job with backend := backend.id } :=
      (next_currentJob _ nonce 0 count (others 0)).trans (Function.update_self ..)
    have stored := congrArg Nonce.Words.hi prepared.words
    rw [kept, show (jobWords { job with backend := backend.id }).hi = (jobWords job).hi from rfl, stored]
    apply BitVec.eq_of_toNat_eq
    rw [hi, BitVec.toNat_ofNat]
    omega

theorem countRound_mining (sized : job.Sized) (mining : Mining digits job worker) :
    Mining digits job worker.countRound := by
  obtain ⟨value, holds⟩ := mining.holds
  exact ⟨countRound_carries mining.carries, ⟨value, Session.countRound_holds sized mining.carries holds⟩, mining.top,
    mining.stored⟩

/-- `nextRound` writes a new high word to both places or leaves both alone. -/
theorem nextRound_mining (prepared : Prepared digits job) (short : digits.length ≤ 8)
    (mining : Mining digits job worker) (rounds roundSize : BitVec 32) :
    Mining digits job (worker.nextRound 1 nonce rounds roundSize others).worker := by
  have counted := countRound_mining prepared.sized mining
  obtain ⟨value, holds⟩ := counted.holds
  have wide : worker.countRound.currentJob.nonceSize = 8 := counted.carries.nonceSize.trans prepared.nonceSize
  simp only [nextRound, reserveLanes]
  split
  · cases reply : (worker.countRound.next nonce 0 (rounds * roundSize) (others 0)).granted with
    | none =>
      simp only [Option.isSome_none, Bool.false_eq_true, if_false, false_and]
      rw [next_refused reply]
      exact counted
    | some first =>
      have carries := (next_touched 0 counted.carries nonce (rounds * roundSize) (others 0)).carries
      have same := setJobNonceHigh_same carries
        ((worker.countRound.next nonce 0 (rounds * roundSize) (others 0)).worker.words 0).hi
      simp only [Option.isSome_some, if_true, wide, true_and]
      refine ⟨same.carries, ⟨_, same.holds prepared.sized carries (next_holds counted.carries holds reply)⟩, ?_, ?_⟩
      · rw [setJobNonceHigh_words carries]
        exact next_top prepared short counted.carries holds counted.top reply
      · rw [setJobNonceHigh_words carries, setJobNonceHigh_stored prepared.sized prepared.nonceSize carries]
  · have touched := advance_touched 0 counted.carries roundSize
    have words := @advance_words worker.countRound 0 roundSize
    simp only [advanceLanes]
    refine ⟨touched.carries, ⟨_, touched.holds holds rfl⟩, ?_, ?_⟩
    · rw [words]
      exact counted.top
    · rw [words]
      exact counted.stored

theorem kawpowStep_mining {next : WorkerJob} {event : KawpowEvent} (prepared : Prepared digits job)
    (short : digits.length ≤ 8) (mining : Mining digits job worker) (allowed : kawpowGuard job worker event)
    (stepped : kawpowStep job worker event = some next) : Mining digits job next := by
  cases event with
  | round nonce rounds roundSize others =>
    cases stepped
    exact nextRound_mining prepared short mining rounds roundSize
  | consume nonce count backend others =>
    cases stepped
    simp only [add]
    split
    · exact ⟨⟨mining.carries.1, mining.carries.2, mining.carries.3, mining.carries.4⟩,
        mining.holds.imp fun value holds => ⟨holds.rest, holds.value⟩, mining.top, mining.stored⟩
    · rename_i different
      split
      · -- The worker has the slot of this job already.
        rename_i back
        have index : worker.index = job.index := mining.carries.index
        rw [back.2.1] at index
        exact absurd (back.1.symm.trans index) (by decide)
      · exact save_mining prepared short backend (allowed.resolve_left different) _

theorem fullNonce_eq (prepared : Prepared digits job) (mining : Mining digits job worker) (low : BitVec 32) :
    fullNonce worker.currentJob low = (worker.words 0).hi ++ low := by
  have offset : worker.currentJob.nonceOffset = 32 := by
    rw [← prepared.nonceOffset]
    simp only [Job.nonceOffset, mining.carries.algorithm]
  have high : (Memory.ofBytes worker.currentJob.blob).readWord 36 = (worker.words 0).hi := by
    rw [← mining.stored, jobWords, offset]
  simp only [fullNonce, offset]
  rw [Memory.readWord_writeWord_apart (by omega), Memory.readWord_writeWord, high]

/-- The printed number begins with the digits, whatever the low word is. -/
theorem printed_starts (hex : Hex digits) (prepared : Prepared digits job) (short : digits.length ≤ 8)
    (mining : Mining digits job worker) (low : BitVec 32) :
    ((hex16 (fullNonce worker.currentJob low)).take digits.length).map Cvt.digit = digits.map Cvt.digit := by
  apply hex16_starts hex (by omega)
  have number : ((worker.words 0).hi ++ low).toNat = (worker.words 0).hi.toNat * 2 ^ 32 + low.toNat :=
    Nonce.Words.toNat_join ⟨low, (worker.words 0).hi⟩
  rw [fullNonce_eq prepared mining, number, pow_digits short, top_eq short _ low.isLt, mining.top]

end Worker

/-! ## Whole runs -/

/-- A worker that has saved a job and gone on with it, with a low counter wherever it was saved. -/
def Reaches (job : Job) (worker : WorkerJob) : Prop :=
  ∃ (earlier : WorkerJob) (nonce : Nonce) (count : BitVec 32) (backend : Backend)
    (others : Nat → Nat → BitVec 62) (events : List KawpowEvent),
    StartsLow job nonce count others ∧
      Guarded (kawpowStep job) (kawpowGuard job) (earlier.save 1 nonce job count backend others).worker events ∧
      run (kawpowStep job) (earlier.save 1 nonce job count backend others).worker events = some worker

theorem Reaches.mining {digits : List Byte} {job : Job} {worker : WorkerJob} (reaches : Reaches job worker)
    (prepared : Prepared digits job) (short : digits.length ≤ 8) : Mining digits job worker := by
  obtain ⟨earlier, nonce, count, backend, others, events, low, allowed, executed⟩ := reaches
  refine run_invariant ?_ (save_mining prepared short backend low earlier) allowed executed
  intro state event next mining permitted stepped
  exact kawpowStep_mining prepared short mining permitted stepped

section PrintedNonces
variable {client pool : EthStratumClient} {chars header id : List Byte} {elements : List Json} {job : Job}
  {before after : List Access}

/-- The extra nonce of the pool stands in front of every printed nonce, and reserved nonces that
differ, of one worker or of two, are printed differently. -/
theorem kawpow_nonces_kept (accepted : client.assignExtraNonce chars = .ok pool) (hex : Hex (skip0x chars))
    (kawpow : pool.algorithm = .kawpowRvn)
    (built : (kawpowJob pool elements (pool.startJob id)).run before = .ok (job, after))
    (here : elements[1]? = some (.str header)) (digits : Hex (Json.cString header))
    (size : (Json.cString header).length = 64) (index : Fin 2) (first second : WorkerJob)
    (reached : Reaches { job with index } first) (reachedToo : Reaches { job with index } second)
    (low lowToo : BitVec 32) :
    ((hex16 (fullNonce first.currentJob low)).take (skip0x chars).length).map Cvt.digit =
        (skip0x chars).map Cvt.digit ∧
      ((first.words 0).hi ++ low ≠ (second.words 0).hi ++ lowToo →
        hex16 (fullNonce first.currentJob low) ≠ hex16 (fullNonce second.currentJob lowToo)) := by
  obtain ⟨short, -, rfl⟩ := assignExtraNonce_of_hex hex accepted
  have prepared := (kawpowJob_prepared rfl short kawpow here digits size built).withIndex index
  have mining := reached.mining prepared short
  refine ⟨printed_starts hex prepared short mining low, ?_⟩
  rw [fullNonce_eq prepared mining, fullNonce_eq prepared (reachedToo.mining prepared short)]
  intro apart same
  exact apart (hex16_injective same)

end PrintedNonces

/-- A client for KawPow whose pool has sent the extra nonce `aBcd`. -/
def sampleClient : EthStratumClient :=
  { poolAlgorithm := .kawpowRvn, extraNonce := (0xabcd000000000000, some [97, 66, 99, 100]) }

def sampleElements : List Json :=
  [.str [49], .str (List.replicate 64 48), .null, .str [102, 102], .null, .int 5]

def sampleJob : Job :=
  { algorithm := .kawpowRvn, id := some "1", extraNonce := some "aBcd", height := 5
    blob := List.replicate 38 0 ++ [0xcd, 0xab] ++ List.replicate 36 0
    diff := 1, target := 0xffffffffffffffff }

theorem sampleClient_accepted :
    EthStratumClient.assignExtraNonce { poolAlgorithm := .kawpowRvn } [48, 120, 97, 66, 99, 100] =
      .ok sampleClient := by
  rfl

theorem sampleJob_built :
    (kawpowJob sampleClient sampleElements (sampleClient.startJob [49])).run [] =
      .ok (sampleJob, [.read ⟨.params, 1⟩ .string, .read ⟨.params, 3⟩ .string, .read ⟨.params, 5⟩ .uint64]) := by
  decide +kernel

/-- The workers of two devices: the second one starts behind the first and takes another block. -/
def sampleFirst : WorkerJob :=
  (({} : WorkerJob).save 1 {} sampleJob 16 .opencl fun _ _ => 0).worker

def sampleSecond : WorkerJob :=
  ((({} : WorkerJob).save 1 { nonces := fun _ => 16 } sampleJob 16 .opencl fun _ _ => 0).worker.nextRound 1
    { nonces := fun _ => 0x500000000 } 1 16 fun _ _ => 0).worker

theorem sampleFirst_reached : Reaches { sampleJob with index := 0 } sampleFirst :=
  ⟨{}, {}, 16, .opencl, fun _ _ => 0, [], .inr (.inl (by decide)), trivial, rfl⟩

theorem sampleSecond_reached : Reaches { sampleJob with index := 0 } sampleSecond :=
  ⟨{}, { nonces := fun _ => 16 }, 16, .opencl, fun _ _ => 0,
    [.round { nonces := fun _ => 0x500000000 } 1 16 fun _ _ => 0], .inr (.inl (by decide)),
    ⟨trivial, fun _ _ => trivial⟩, rfl⟩

theorem kawpow_nonces_kept_sample :
    ((hex16 (fullNonce sampleSecond.currentJob 3)).take 4).map Cvt.digit =
        ([97, 66, 99, 100] : List Byte).map Cvt.digit ∧
      hex16 (fullNonce sampleSecond.currentJob 3) ≠ hex16 (fullNonce sampleFirst.currentJob 3) := by
  have kept := kawpow_nonces_kept sampleClient_accepted (by decide) (by decide) sampleJob_built rfl (by decide)
    (by decide) 0 sampleSecond sampleFirst sampleSecond_reached sampleFirst_reached 3 3
  exact ⟨kept.1, kept.2 (by decide +kernel)⟩

/-- A worker that saves the job when the counter has left the low word. -/
def sampleLate : WorkerJob :=
  (({} : WorkerJob).save 1 { nonces := fun _ => 0x500000000 } sampleJob 16 .opencl fun _ _ => 0).worker

/-- A late worker reserves other nonces than the first one, but prints the same. -/
theorem late_save_prints_twice :
    EthStratumClient.assignExtraNonce { poolAlgorithm := .kawpowRvn } [48, 120, 97, 66, 99, 100] =
        .ok sampleClient ∧
      (∃ log, (kawpowJob sampleClient sampleElements (sampleClient.startJob [49])).run [] = .ok (sampleJob, log)) ∧
      (sampleLate.words 0).hi ++ (3 : BitVec 32) ≠ (sampleFirst.words 0).hi ++ (3 : BitVec 32) ∧
      hex16 (fullNonce sampleLate.currentJob 3) = hex16 (fullNonce sampleFirst.currentJob 3) := by
  refine ⟨sampleClient_accepted, ⟨_, sampleJob_built⟩, ?_, ?_⟩
  · decide
  · decide

end Xmrig.WorkerJob
