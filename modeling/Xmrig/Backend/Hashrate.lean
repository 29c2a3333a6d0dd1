import Mathlib.Data.List.Basic
import Mathlib.Tactic.Linarith
import Mathlib.Tactic.NormNum
import Xmrig.Foundation.Binary64
import Xmrig.Foundation.RingCells
import Xmrig.Foundation.Run

/-! The hashrate of a window of time.

Every thread has a ring of samples, a number of hashes with the time at which it was reached. The
ring is searched from the newest sample backwards for one that is older than the window; the rate
is that between the sample behind it and the newest one.
-/

set_option autoImplicit false

namespace Xmrig

open Foundation

/-- The samples of one thread, `m_counts[i]`, `m_timestamps[i]` and `m_top[i]`. -/
structure Hashrate.Bucket where
  counts : List (BitVec 64)
  timestamps : List (BitVec 64)
  top : BitVec 32
  deriving DecidableEq

structure Hashrate where
  buckets : List Hashrate.Bucket
  earliestTimestamp : BitVec 64
  totalCount : BitVec 64
  deriving DecidableEq

namespace Hashrate

abbrev Word := BitVec 64

def kBucketSize : Word := 2 <<< 11

def kBucketMask : Word := kBucketSize - 1

def Bucket.empty : Bucket :=
  { counts := List.replicate kBucketSize.toNat 0, timestamps := List.replicate kBucketSize.toNat 0, top := 0 }

def create (threads : Nat) : Hashrate :=
  { buckets := List.replicate (threads + 1) Bucket.empty, earliestTimestamp := BitVec.allOnes 64, totalCount := 0 }

def Bucket.addData (bucket : Bucket) (count timestamp : Word) : Option Bucket :=
  let top : Word := bucket.top.setWidth 64
  if top.toNat < bucket.counts.length ∧ top.toNat < bucket.timestamps.length then
    some {
      counts := bucket.counts.set top.toNat count
      timestamps := bucket.timestamps.set top.toNat timestamp
      top := ((top + 1) &&& kBucketMask).setWidth 32 }
  else none

def addData (h : Hashrate) (index : Nat) (count timestamp : Word) : Option Hashrate :=
  h.buckets[index]?.bind fun bucket => (bucket.addData count timestamp).map fun added =>
    { buckets := h.buckets.set index added
      earliestTimestamp :=
        if index = 0 ∧ h.earliestTimestamp = BitVec.allOnes 64 then timestamp else h.earliestTimestamp
      totalCount := if index = 0 then count else h.totalCount }

structure Found where
  haveFullSet : Bool
  earliestHashCount : Word
  earliestStamp : Word
  deriving DecidableEq

/-- The loop, with a number of rounds that it may take; nothing is left of a read outside of the
arrays, nor of a loop that did not end. -/
def Bucket.search (bucket : Bucket) (timeStampLimit idxStart : Word) : Nat → Word → Option Found
  | 0, _ => none
  | rounds + 1, idx =>
      bucket.timestamps[idx.toNat]?.bind fun stamp =>
        if stamp < timeStampLimit then
          if idx ≠ idxStart then
            let next := (idx + 1) &&& kBucketMask
            bucket.timestamps[next.toNat]?.bind fun earliestStamp =>
              bucket.counts[next.toNat]?.map fun earliestHashCount =>
                ⟨stamp != 0, earliestHashCount, earliestStamp⟩
          else some ⟨stamp != 0, 0, 0⟩
        else
          let next := (idx - 1) &&& kBucketMask
          if next ≠ idxStart then bucket.search timeStampLimit idxStart rounds next else some ⟨false, 0, 0⟩

def toDouble (n : Word) : ℚ := Binary64.round n.toNat

def rate (lastestHashCnt earliestHashCount lastestStamp earliestStamp : Word) : ℚ :=
  let hashes := toDouble (lastestHashCnt - earliestHashCount)
  let time := toDouble (lastestStamp - earliestStamp)
  Binary64.round (Binary64.round (hashes * 1000) / time)

def Found.result (found : Found) (lastestHashCnt lastestStamp : Word) : Bool × ℚ :=
  if found.haveFullSet = false ∨ found.earliestStamp = 0 ∨ lastestStamp = 0 then (false, 0)
  else if lastestHashCnt = found.earliestHashCount then (true, 0)
  else if lastestStamp = found.earliestStamp then (false, 0)
  else
    let hr := rate lastestHashCnt found.earliestHashCount lastestStamp found.earliestStamp
    if ¬Binary64.IsNormal hr then (false, 0) else (true, hr)

def Bucket.hashrate (bucket : Bucket) (timeStampLimit : Word) : Option (Bool × ℚ) :=
  let idxStart := (bucket.top - 1).setWidth 64 &&& kBucketMask
  bucket.timestamps[idxStart.toNat]?.bind fun lastestStamp =>
    bucket.counts[idxStart.toNat]?.bind fun lastestHashCnt =>
      (bucket.search timeStampLimit idxStart kBucketSize.toNat idxStart).map fun found =>
        found.result lastestHashCnt lastestStamp

/-- The rate over the last `ms` milliseconds at a time. -/
def hashrate (h : Hashrate) (now : Word) (index : Nat) (ms : Word) : Option (Bool × ℚ) :=
  match h.buckets[index]? with
  | some bucket => bucket.hashrate (now - ms)
  | none => some (false, 0)

/-! ## Samples in order -/

/-- An argument of `addData`, the total in row zero. -/
structure Sample where
  index : Nat
  count : Word
  timestamp : Word
  deriving DecidableEq

def add (h : Hashrate) (sample : Sample) : Option Hashrate := h.addData sample.index sample.count sample.timestamp

def row (index : Nat) (samples : List Sample) : List Sample :=
  (samples.filter fun sample => decide (sample.index = index)).reverse

/-- Times are positive, and neither they nor the counts go back. -/
structure Ordered (newestFirst : List Sample) : Prop where
  positive : ∀ sample ∈ newestFirst, 0 < sample.timestamp.toNat
  sorted : newestFirst.Pairwise fun newer older =>
    older.timestamp.toNat ≤ newer.timestamp.toNat ∧ older.count.toNat ≤ newer.count.toNat

def retained (newestFirst : List Sample) : List Sample := newestFirst.take kBucketSize.toNat

def Older (now ms : Word) (sample : Sample) : Prop := sample.timestamp.toNat + ms.toNat < now.toNat

instance (now ms : Word) (sample : Sample) : Decidable (Older now ms sample) := inferInstanceAs (Decidable (_ < _))

def window (now ms : Word) (newestFirst : List Sample) : List Sample :=
  (retained newestFirst).filter fun sample => !decide (Older now ms sample)

/-- There is a sample behind the window, and the first and the last one in it have the same count
or different times. -/
def Measured (now ms : Word) (newestFirst : List Sample) : Prop :=
  (∃ sample ∈ retained newestFirst, Older now ms sample) ∧
    ∃ first last, (window now ms newestFirst).getLast? = some first ∧ (window now ms newestFirst).head? = some last ∧
      (last.count = first.count ∨ last.timestamp ≠ first.timestamp)

/-- `(count_last - count_first) * 1000 / (time_last - time_first)`, every operation rounded. -/
def speed (first last : Sample) : ℚ :=
  let hashes := Binary64.round ((last.count.toNat - first.count.toNat : ℕ) : ℚ)
  let time := Binary64.round ((last.timestamp.toNat - first.timestamp.toNat : ℕ) : ℚ)
  Binary64.round (Binary64.round (hashes * 1000) / time)

/-- The value is the rate between the first and the last sample, and zero between equal counts. -/
def IsRate (samples : List Sample) (value : ℚ) : Prop :=
  ∃ first last, samples.getLast? = some first ∧ samples.head? = some last ∧
    value = if last.count = first.count then 0 else speed first last

/-! ## The ring -/

/-- The arrays of a row with its samples. -/
structure Records (bucket : Bucket) (newestFirst : List Sample) : Prop where
  counts : Aged 4096 bucket.top.toNat bucket.counts 0 (newestFirst.map Sample.count)
  timestamps : Aged 4096 bucket.top.toNat bucket.timestamps 0 (newestFirst.map Sample.timestamp)

theorem and_mask (idx : Word) : (idx &&& kBucketMask).toNat = idx.toNat % 4096 := by
  rw [BitVec.toNat_and]
  exact Nat.and_two_pow_sub_one_eq_mod idx.toNat 12

theorem next_toNat (idx : Word) : (idx + 1 &&& kBucketMask).toNat = (idx.toNat + 1) % 4096 := by
  have size := idx.isLt
  rw [and_mask, BitVec.toNat_add]
  change (idx.toNat + 1) % 2 ^ 64 % 4096 = (idx.toNat + 1) % 4096
  omega

theorem previous_toNat (idx : Word) : (idx - 1 &&& kBucketMask).toNat = (idx.toNat + 4095) % 4096 := by
  have size := idx.isLt
  rw [and_mask, BitVec.toNat_sub]
  change (2 ^ 64 - 1 + idx.toNat) % 2 ^ 64 % 4096 = (idx.toNat + 4095) % 4096
  omega

theorem start_toNat (top : BitVec 32) : ((top - 1).setWidth 64 &&& kBucketMask).toNat = cellBack 4096 top.toNat 0 := by
  have size := top.isLt
  rw [and_mask, BitVec.toNat_setWidth, BitVec.toNat_sub, cellBack]
  change (2 ^ 32 - 1 + top.toNat) % 2 ^ 32 % 2 ^ 64 % 4096 = (top.toNat + (4096 - 1 - 0)) % 4096
  omega

theorem records_empty : Records Bucket.empty [] :=
  ⟨aged_replicate (by decide) 0, aged_replicate (by decide) 0⟩

theorem addData_records {bucket : Bucket} {newestFirst : List Sample} (records : Records bucket newestFirst)
    (sample : Sample) :
    ∃ added, bucket.addData sample.count sample.timestamp = some added ∧ Records added (sample :: newestFirst) := by
  have bound := records.counts.top_lt
  have wide : (bucket.top.setWidth 64).toNat = bucket.top.toNat := by
    rw [BitVec.toNat_setWidth]
    exact Nat.mod_eq_of_lt (Nat.lt_trans bound (by decide))
  have top : (((bucket.top.setWidth 64 + 1) &&& kBucketMask).setWidth 32 : BitVec 32).toNat =
      (bucket.top.toNat + 1) % 4096 := by
    rw [BitVec.toNat_setWidth, next_toNat, wide]
    omega
  have inside : (bucket.top.setWidth 64).toNat < bucket.counts.length ∧
      (bucket.top.setWidth 64).toNat < bucket.timestamps.length := by
    rw [wide, records.counts.length, records.timestamps.length]
    exact ⟨bound, bound⟩
  refine ⟨_, if_pos inside, ?_, ?_⟩
  · dsimp only
    rw [top, wide]
    exact records.counts.push sample.count
  · dsimp only
    rw [top, wide]
    exact records.timestamps.push sample.timestamp

structure Holds (h : Hashrate) (threads : Nat) (samples : List Sample) : Prop where
  rows : h.buckets.length = threads + 1
  records : ∀ index bucket, h.buckets[index]? = some bucket → Records bucket (row index samples)

theorem row_append (index : Nat) (samples : List Sample) (sample : Sample) :
    row index (samples ++ [sample]) = if sample.index = index then sample :: row index samples else row index samples := by
  unfold row
  split <;> simp [*]

theorem create_holds (threads : Nat) : Holds (create threads) threads [] := by
  refine ⟨List.length_replicate, fun index bucket found => ?_⟩
  rw [List.eq_of_mem_replicate (List.mem_of_getElem? found)]
  exact records_empty

theorem add_holds {h : Hashrate} {threads : Nat} {samples : List Sample} {sample : Sample}
    (holds : Holds h threads samples) (inside : sample.index ≤ threads) :
    ∃ after, add h sample = some after ∧ Holds after threads (samples ++ [sample]) := by
  have bound : sample.index < h.buckets.length := by
    rw [holds.rows]
    exact Nat.lt_succ_of_le inside
  have found := List.getElem?_eq_getElem bound
  obtain ⟨added, written, records⟩ := addData_records (holds.records _ _ found) sample
  refine ⟨_, by rw [add, addData, found, Option.bind_some, written, Option.map_some], ?_, fun index bucket there => ?_⟩
  · rw [List.length_set, holds.rows]
  · rw [row_append]
    by_cases same : sample.index = index
    · subst same
      rw [List.getElem?_set_self bound] at there
      cases there
      rwa [if_pos rfl]
    · rw [List.getElem?_set_ne same] at there
      rw [if_neg same]
      exact holds.records index bucket there

theorem run_holds {h : Hashrate} {threads : Nat} {past samples : List Sample} (holds : Holds h threads past)
    (inside : ∀ sample ∈ samples, sample.index ≤ threads) :
    ∃ after, run add h samples = some after ∧ Holds after threads (past ++ samples) := by
  induction samples generalizing h past with
  | nil => exact ⟨h, rfl, by rwa [List.append_nil]⟩
  | cons sample rest ih =>
    obtain ⟨next, added, more⟩ := add_holds holds (inside sample List.mem_cons_self)
    obtain ⟨after, finished, all⟩ := ih more fun other there => inside other (List.mem_cons_of_mem _ there)
    refine ⟨after, run_cons_iff.mpr ⟨next, added, finished⟩, ?_⟩
    rwa [List.append_assoc] at all

/-! ## The search -/

section Search
variable {bucket : Bucket} {samples : List Sample} {limit start idx : Word} {rounds age last : Nat}

/-- The time of the sample that came so many samples ago, zero where there is none. -/
def stampAt (samples : List Sample) (age : Nat) : Word := (samples.map Sample.timestamp).getD age 0

def countAt (samples : List Sample) (age : Nat) : Word := (samples.map Sample.count).getD age 0

/-- What is found at the first sample that is older than the limit. -/
def foundAt (samples : List Sample) : Nat → Found
  | 0 => ⟨stampAt samples 0 != 0, 0, 0⟩
  | age + 1 => ⟨stampAt samples (age + 1) != 0, countAt samples age, stampAt samples age⟩

theorem start_iff (records : Records bucket samples) (front : start.toNat = cellBack 4096 bucket.top.toNat 0)
    (here : idx.toNat = cellBack 4096 bucket.top.toNat age) (inside : age < 4096) : idx = start ↔ age = 0 := by
  constructor
  · intro same
    by_contra later
    apply cellBack_ne records.counts.top_lt (Nat.pos_of_ne_zero later) inside
    rw [← here, ← front, same]
  · intro newest
    apply BitVec.eq_of_toNat_eq
    rw [here, front, newest]

theorem search_older (records : Records bucket samples) (front : start.toNat = cellBack 4096 bucket.top.toNat 0)
    (here : idx.toNat = cellBack 4096 bucket.top.toNat age) (inside : age < 4096) (old : stampAt samples age < limit) :
    bucket.search limit start (rounds + 1) idx = some (foundAt samples age) := by
  have stamp : bucket.timestamps[idx.toNat]? = some (stampAt samples age) := by
    rw [here]
    exact records.timestamps.back age inside
  rw [Bucket.search, stamp, Option.bind_some, if_pos old]
  cases age with
  | zero =>
    rw [if_neg (not_not_intro ((start_iff records front here inside).mpr rfl))]
    rfl
  | succ age =>
    have other : idx ≠ start := fun same => Nat.succ_ne_zero age ((start_iff records front here inside).mp same)
    have behind : (idx + 1 &&& kBucketMask).toNat = cellBack 4096 bucket.top.toNat age := by
      rw [next_toNat, here, cellBack_pred inside]
    have earlier := Nat.lt_of_succ_lt inside
    rw [if_pos other]
    dsimp only
    rw [behind, records.timestamps.back age earlier, records.counts.back age earlier]
    rfl

theorem search_younger (records : Records bucket samples) (front : start.toNat = cellBack 4096 bucket.top.toNat 0)
    (here : idx.toNat = cellBack 4096 bucket.top.toNat age) (inside : age < 4096)
    (young : ¬stampAt samples age < limit) :
    bucket.search limit start (rounds + 1) idx =
      if age + 1 < 4096 then bucket.search limit start rounds (idx - 1 &&& kBucketMask) else some ⟨false, 0, 0⟩ := by
  have stamp : bucket.timestamps[idx.toNat]? = some (stampAt samples age) := by
    rw [here]
    exact records.timestamps.back age inside
  have cell := previous_toNat idx
  rw [here] at cell
  rw [Bucket.search, stamp, Option.bind_some, if_neg young]
  dsimp only
  by_cases more : age + 1 < 4096
  · rw [cellBack_succ more] at cell
    have other : (idx - 1 &&& kBucketMask) ≠ start := fun same =>
      Nat.succ_ne_zero age ((start_iff records front cell more).mp same)
    rw [if_pos other, if_pos more]
  · have oldest : age = 4096 - 1 := by omega
    rw [oldest, cellBack_last records.counts.top_lt, ← front] at cell
    rw [if_neg (not_not_intro (BitVec.eq_of_toNat_eq cell)), if_neg more]

theorem search_found (records : Records bucket samples) (front : start.toNat = cellBack 4096 bucket.top.toNat 0)
    (here : idx.toNat = cellBack 4096 bucket.top.toNat age) (left : age + rounds = 4096) (le : age ≤ last)
    (inside : last < 4096) (young : ∀ younger, age ≤ younger → younger < last → ¬stampAt samples younger < limit)
    (old : stampAt samples last < limit) :
    bucket.search limit start rounds idx = some (foundAt samples last) := by
  induction rounds generalizing idx age with
  | zero => omega
  | succ rounds ih =>
    obtain same | before := Nat.eq_or_lt_of_le le
    · subst same
      exact search_older records front here inside old
    · have more : age + 1 < 4096 := by omega
      rw [search_younger records front here (by omega) (young age le_rfl before), if_pos more]
      apply ih _ (by omega) before fun younger later => young younger (by omega)
      rw [previous_toNat, here, cellBack_succ more]

theorem search_none (records : Records bucket samples) (front : start.toNat = cellBack 4096 bucket.top.toNat 0)
    (here : idx.toNat = cellBack 4096 bucket.top.toNat age) (left : age + rounds = 4096) (inside : age < 4096)
    (young : ∀ younger, age ≤ younger → younger < 4096 → ¬stampAt samples younger < limit) :
    bucket.search limit start rounds idx = some ⟨false, 0, 0⟩ := by
  induction rounds generalizing idx age with
  | zero => omega
  | succ rounds ih =>
    rw [search_younger records front here inside (young age le_rfl inside)]
    split
    · next more =>
      apply ih _ (by omega) more fun younger later => young younger (by omega)
      rw [previous_toNat, here, cellBack_succ more]
    · rfl

end Search

/-! ## The rate -/

section Rate
variable {n : Word}

theorem toDouble_bounds (positive : 0 < n.toNat) : 1 ≤ toDouble n ∧ toDouble n ≤ 2 ^ 64 := by
  have least : (1 : ℚ) ≤ n.toNat := by exact_mod_cast positive
  have most : (n.toNat : ℚ) ≤ 2 ^ 64 := by exact_mod_cast n.isLt.le
  have bounds : (2 : ℚ) ^ (0 : ℤ) ≤ toDouble n ∧ toDouble n ≤ 2 ^ (64 : ℤ) := by
    apply Binary64.round_bounds (by linarith)
    · rwa [zpow_zero]
    · exact_mod_cast most
  rw [zpow_zero] at bounds
  exact_mod_cast bounds

theorem quotient_normal {hashes time : ℚ} (leastHashes : 1 ≤ hashes) (mostHashes : hashes ≤ 2 ^ 64)
    (leastTime : 1 ≤ time) (mostTime : time ≤ 2 ^ 64) :
    Binary64.IsNormal (Binary64.round (Binary64.round (hashes * 1000) / time)) := by
  have product : (2 : ℚ) ^ (0 : ℤ) ≤ Binary64.round (hashes * 1000) ∧ Binary64.round (hashes * 1000) ≤ 2 ^ (74 : ℤ) := by
    apply Binary64.round_bounds (by linarith)
    · rw [zpow_zero]
      linarith
    · norm_num at mostHashes ⊢
      linarith
  obtain ⟨leastProduct, mostProduct⟩ := product
  generalize Binary64.round (hashes * 1000) = scaled at *
  rw [zpow_zero] at leastProduct
  have positive : 0 < time := by linarith
  have quotient : (2 : ℚ) ^ (-64 : ℤ) ≤ Binary64.round (scaled / time) ∧
      Binary64.round (scaled / time) ≤ 2 ^ (74 : ℤ) := by
    apply Binary64.round_bounds (by positivity)
    · rw [le_div_iff₀ positive]
      norm_num at mostTime ⊢
      linarith
    · rw [div_le_iff₀ positive]
      exact mostProduct.trans (le_mul_of_one_le_right (by positivity) leastTime)
  obtain ⟨leastRate, mostRate⟩ := quotient
  have size : |Binary64.round (scaled / time)| = Binary64.round (scaled / time) :=
    abs_of_nonneg (le_trans (by positivity) leastRate)
  rw [Binary64.IsNormal, size]
  exact ⟨le_trans (zpow_le_zpow_right₀ one_le_two (by decide)) leastRate,
    lt_of_le_of_lt mostRate (zpow_lt_zpow_right₀ one_lt_two (by decide))⟩

theorem rate_normal {lastestHashCnt earliestHashCount lastestStamp earliestStamp : Word}
    (hashes : 0 < (lastestHashCnt - earliestHashCount).toNat) (time : 0 < (lastestStamp - earliestStamp).toNat) :
    Binary64.IsNormal (rate lastestHashCnt earliestHashCount lastestStamp earliestStamp) :=
  quotient_normal (toDouble_bounds hashes).1 (toDouble_bounds hashes).2 (toDouble_bounds time).1 (toDouble_bounds time).2

end Rate

/-! ## The window -/

section Window
variable {bucket : Bucket} {samples : List Sample} {now ms limit : Word} {age : Nat} {sample first last : Sample}

theorem stampAt_eq (there : samples[age]? = some sample) : stampAt samples age = sample.timestamp := by
  rw [stampAt, List.getD_eq_getElem?_getD, List.getElem?_map, there]
  rfl

theorem countAt_eq (there : samples[age]? = some sample) : countAt samples age = sample.count := by
  rw [countAt, List.getD_eq_getElem?_getD, List.getElem?_map, there]
  rfl

theorem stampAt_none (there : samples[age]? = none) : stampAt samples age = 0 := by
  rw [stampAt, List.getD_eq_getElem?_getD, List.getElem?_map, there]
  rfl

theorem mem_retained : sample ∈ retained samples ↔ ∃ age < 4096, samples[age]? = some sample := by
  rw [retained, List.mem_iff_getElem?]
  apply exists_congr
  intro age
  rw [List.getElem?_take]
  change (if age < 4096 then _ else _) = _ ↔ _
  split <;> simp [*]

theorem older_iff (le : ms.toNat ≤ now.toNat) : Older now ms sample ↔ sample.timestamp < now - ms := by
  rw [Older, BitVec.lt_def, BitVec.toNat_sub_of_le le]
  omega

theorem Ordered.later (ordered : Ordered samples) (there : samples[age]? = some first) (behind : sample ∈ samples.drop age) :
    sample.timestamp.toNat ≤ first.timestamp.toNat ∧ sample.count.toNat ≤ first.count.toNat := by
  induction samples generalizing age with
  | nil => cases there
  | cons newest rest ih =>
    obtain ⟨newer, sorted⟩ := List.pairwise_cons.mp ordered.sorted
    cases age with
    | zero =>
      cases there
      rcases List.mem_cons.mp behind with rfl | older
      · exact ⟨le_rfl, le_rfl⟩
      · exact newer sample older
    | succ age =>
      have less : Ordered rest := ⟨fun other kept => ordered.positive other (List.mem_cons_of_mem _ kept), sorted⟩
      exact ih less there behind

theorem window_eq_take (ordered : Ordered samples) (inside : age < 4096) (there : samples[age]? = some sample)
    (old : Older now ms sample)
    (young : ∀ younger other, younger < age → samples[younger]? = some other → ¬Older now ms other) :
    window now ms samples = samples.take age := by
  have parts : retained samples = samples.take age ++ (retained samples).drop age := by
    have front : (retained samples).take age = samples.take age := by
      rw [retained, List.take_take]
      exact congrArg (List.take · samples) (Nat.min_eq_left (Nat.le_of_lt inside))
    rw [← front, List.take_append_drop]
  have newer : (samples.take age).filter (fun sample => !decide (Older now ms sample)) = samples.take age := by
    rw [List.filter_eq_self]
    intro other taken
    obtain ⟨younger, bound, rfl⟩ := List.mem_take_iff_getElem.mp taken
    simpa using young younger _ (by omega) (List.getElem?_eq_getElem (by omega))
  have rest : ((retained samples).drop age).filter (fun sample => !decide (Older now ms sample)) = [] := by
    rw [List.filter_eq_nil_iff]
    intro other dropped
    have behind : other ∈ samples.drop age := by
      rw [retained, List.drop_take] at dropped
      exact List.mem_of_mem_take dropped
    have time := (ordered.later there behind).1
    have older : Older now ms other := Nat.lt_of_le_of_lt (Nat.add_le_add_right time _) old
    simpa using older
  rw [window, parts, List.filter_append, newer, rest, List.append_nil]

/-- The result agrees with the samples of the window. -/
def Agrees (now ms : Word) (newestFirst : List Sample) (result : Bool × ℚ) : Prop :=
  (result.1 = true ↔ Measured now ms newestFirst) ∧ (result.1 = true → IsRate (window now ms newestFirst) result.2)

theorem agrees_undefined (unmeasured : ¬Measured now ms samples) : Agrees now ms samples (false, 0) :=
  ⟨⟨fun defined => (Bool.false_ne_true defined).elim, fun measured => (unmeasured measured).elim⟩,
    fun defined => (Bool.false_ne_true defined).elim⟩

theorem not_measured (young : ∀ age < 4096, ∀ sample, samples[age]? = some sample → ¬Older now ms sample) :
    ¬Measured now ms samples := by
  rintro ⟨⟨sample, kept, old⟩, -⟩
  obtain ⟨age, inside, there⟩ := mem_retained.mp kept
  exact young age inside sample there old

theorem speed_eq (counts : first.count.toNat ≤ last.count.toNat) (times : first.timestamp.toNat ≤ last.timestamp.toNat) :
    rate last.count first.count last.timestamp first.timestamp = speed first last := by
  unfold rate speed toDouble
  rw [BitVec.toNat_sub_of_le counts, BitVec.toNat_sub_of_le times]

theorem result_agrees {found : Found} (old : ∃ sample ∈ retained samples, Older now ms sample)
    (front : (window now ms samples).head? = some last) (back : (window now ms samples).getLast? = some first)
    (full : found = ⟨true, first.count, first.timestamp⟩) (positive : 0 < first.timestamp.toNat)
    (counts : first.count.toNat ≤ last.count.toNat) (times : first.timestamp.toNat ≤ last.timestamp.toNat) :
    Agrees now ms samples (found.result last.count last.timestamp) := by
  have set_full : ¬(found.haveFullSet = false ∨ found.earliestStamp = 0 ∨ last.timestamp = 0) := by
    rw [full]
    rintro (empty | zero | zero)
    · cases empty
    · rw [show first.timestamp = 0 from zero] at positive
      exact Nat.lt_irrefl 0 positive
    · rw [zero] at times
      exact Nat.not_lt.mpr times positive
  have measured_iff : Measured now ms samples ↔ last.count = first.count ∨ last.timestamp ≠ first.timestamp := by
    constructor
    · rintro ⟨-, some_first, some_last, found_first, found_last, apart⟩
      rw [back] at found_first
      rw [front] at found_last
      cases found_first
      cases found_last
      exact apart
    · exact fun apart => ⟨old, first, last, back, front, apart⟩
  subst full
  rw [Found.result, if_neg set_full]
  dsimp only
  by_cases idle : last.count = first.count
  · rw [if_pos idle]
    exact ⟨⟨fun _ => measured_iff.mpr (.inl idle), fun _ => rfl⟩, fun _ => ⟨first, last, back, front, (if_pos idle).symm⟩⟩
  · rw [if_neg idle]
    by_cases stalled : last.timestamp = first.timestamp
    · rw [if_pos stalled]
      apply agrees_undefined
      rw [measured_iff]
      exact fun apart => apart.elim idle fun moved => moved stalled
    · have hashes : 0 < (last.count - first.count).toNat := by
        rw [BitVec.toNat_sub_of_le counts]
        exact Nat.sub_pos_of_lt (Nat.lt_of_le_of_ne counts fun same => idle (BitVec.eq_of_toNat_eq same.symm))
      have time : 0 < (last.timestamp - first.timestamp).toNat := by
        rw [BitVec.toNat_sub_of_le times]
        exact Nat.sub_pos_of_lt (Nat.lt_of_le_of_ne times fun same => stalled (BitVec.eq_of_toNat_eq same.symm))
      rw [if_neg stalled, if_neg (not_not_intro (rate_normal hashes time)), speed_eq counts times]
      exact ⟨⟨fun _ => measured_iff.mpr (.inr stalled), fun _ => rfl⟩,
        fun _ => ⟨first, last, back, front, (if_neg idle).symm⟩⟩

theorem hashrate_eq (records : Records bucket samples) {found : Found}
    (searched : ∀ start : Word, start.toNat = cellBack 4096 bucket.top.toNat 0 →
      bucket.search limit start 4096 start = some found) :
    bucket.hashrate limit = some (found.result (countAt samples 0) (stampAt samples 0)) := by
  have start := start_toNat bucket.top
  have stamp := records.timestamps.back 0 (by decide)
  have count := records.counts.back 0 (by decide)
  rw [← start] at stamp count
  rw [Bucket.hashrate, stamp, Option.bind_some, count, Option.bind_some]
  change Option.map _ (bucket.search limit _ 4096 _) = _
  rw [searched _ start]
  rfl

theorem hashrate_found (records : Records bucket samples) (inside : age < 4096) (old : stampAt samples age < limit)
    (young : ∀ younger < age, ¬stampAt samples younger < limit) :
    bucket.hashrate limit = some ((foundAt samples age).result (countAt samples 0) (stampAt samples 0)) :=
  hashrate_eq records fun _ front =>
    search_found records front front rfl (Nat.zero_le age) inside (fun younger _ before => young younger before) old

theorem hashrate_newest (records : Records bucket samples) (old : stampAt samples 0 < limit) :
    bucket.hashrate limit = some (false, 0) := by
  rw [hashrate_found records (by decide) old fun younger before => absurd before (Nat.not_lt_zero younger)]
  exact congrArg some (if_pos (.inr (.inl rfl)))

theorem found_agrees (ordered : Ordered samples) (le : ms.toNat ≤ now.toNat) (inside : age < 4096)
    (old : stampAt samples age < now - ms) (young : ∀ younger < age, ¬stampAt samples younger < now - ms) :
    Agrees now ms samples ((foundAt samples age).result (countAt samples 0) (stampAt samples 0)) := by
  have kept (younger : Nat) (before : younger < age) (other : Sample) (there : samples[younger]? = some other) :
      ¬Older now ms other := by
    rw [older_iff le, ← stampAt_eq there]
    exact young younger before
  cases there : samples[age]? with
  | none =>
    -- The cell has not been written, so it is older, and the set is not full.
    have empty : (foundAt samples age).haveFullSet = false := by
      cases age <;> simp [foundAt, stampAt_none there]
    rw [Found.result, if_pos (.inl empty)]
    apply agrees_undefined
    apply not_measured
    intro younger _ other found
    apply kept younger _ other found
    by_contra behind
    rw [List.getElem?_eq_none ((List.getElem?_eq_none_iff.mp there).trans (Nat.le_of_not_lt behind))] at found
    cases found
  | some oldest =>
    have oldest_older : Older now ms oldest := by
      rw [older_iff le, ← stampAt_eq there]
      exact old
    have cut := window_eq_take ordered inside there oldest_older fun younger other before => kept younger before other
    cases age with
    | zero =>
      rw [foundAt, Found.result, if_pos (.inr (.inl rfl))]
      apply agrees_undefined
      rintro ⟨-, first, last, none_left, -⟩
      rw [cut] at none_left
      cases none_left
    | succ age =>
      obtain ⟨bound, -⟩ := List.getElem?_eq_some_iff.mp there
      have first := List.getElem?_eq_getElem (Nat.lt_of_succ_lt bound)
      have last := List.getElem?_eq_getElem (Nat.zero_lt_of_lt bound)
      have order := ordered.later last (List.getElem_mem (Nat.lt_of_succ_lt bound))
      rw [countAt_eq last, stampAt_eq last]
      apply result_agrees ⟨oldest, mem_retained.mpr ⟨age + 1, inside, there⟩, oldest_older⟩ _ _ _
        (ordered.positive _ (List.getElem_mem (Nat.lt_of_succ_lt bound))) order.2 order.1
      · rw [cut, List.head?_take, if_neg (Nat.succ_ne_zero age), List.head?_eq_getElem?, last]
      · rw [cut, List.getLast?_take, if_neg (Nat.succ_ne_zero age), Nat.add_sub_cancel, first]
        rfl
      · have written : stampAt samples (age + 1) ≠ 0 := by
          rw [stampAt_eq there]
          intro zero
          have some_time := ordered.positive oldest (List.mem_of_getElem? there)
          rw [zero] at some_time
          exact Nat.lt_irrefl 0 some_time
        rw [foundAt, countAt_eq first, stampAt_eq first, bne_iff_ne.mpr written]

/-- A window that is longer than the time so far has a limit behind every sample. -/
theorem newest_wraps (current : ∀ sample ∈ samples, sample.timestamp.toNat ≤ now.toNat) (long : now.toNat < ms.toNat) :
    stampAt samples 0 < now - ms := by
  have newest : (stampAt samples 0).toNat ≤ now.toNat := by
    cases there : samples[0]? with
    | none =>
      rw [stampAt_none there]
      exact Nat.zero_le _
    | some sample =>
      rw [stampAt_eq there]
      exact current sample (List.mem_of_getElem? there)
  have size := ms.isLt
  rw [BitVec.lt_def, BitVec.toNat_sub]
  omega

theorem bucket_agrees (records : Records bucket samples) (ordered : Ordered samples)
    (current : ∀ sample ∈ samples, sample.timestamp.toNat ≤ now.toNat) :
    ∃ result, bucket.hashrate (now - ms) = some result ∧ Agrees now ms samples result := by
  by_cases le : ms.toNat ≤ now.toNat
  · by_cases older : ∃ age, age < 4096 ∧ stampAt samples age < now - ms
    · have young : ∀ younger < Nat.find older, ¬stampAt samples younger < now - ms := fun younger before old =>
        Nat.find_min older before ⟨Nat.lt_trans before (Nat.find_spec older).1, old⟩
      obtain ⟨inside, old⟩ := Nat.find_spec older
      exact ⟨_, hashrate_found records inside old young, found_agrees ordered le inside old young⟩
    · have all_young (younger : Nat) (_ : 0 ≤ younger) (inside : younger < 4096) :
          ¬stampAt samples younger < now - ms := fun old => older ⟨younger, inside, old⟩
      refine ⟨(false, 0), ?_, ?_⟩
      · rw [hashrate_eq records fun start front => search_none records front front rfl (by decide) all_young]
        exact congrArg some (if_pos (.inl rfl))
      · apply agrees_undefined
        apply not_measured
        intro age inside sample there old
        rw [older_iff le, ← stampAt_eq there] at old
        exact all_young age (Nat.zero_le age) inside old
  · refine ⟨(false, 0), hashrate_newest records (newest_wraps current (Nat.lt_of_not_le le)), agrees_undefined ?_⟩
    rintro ⟨⟨sample, -, old⟩, -⟩
    unfold Older at old
    omega

end Window

/-- Every sequence of samples leaves rings from which the rate of every window is read: defined
exactly when it is measured, and the rate between the first and the last sample of the window. -/
theorem hashrate_agrees {threads index : Nat} {samples : List Sample} {now ms : Word}
    (inside : ∀ sample ∈ samples, sample.index ≤ threads) (ordered : Ordered (row index samples))
    (current : ∀ sample ∈ row index samples, sample.timestamp.toNat ≤ now.toNat) :
    ∃ h result, run add (create threads) samples = some h ∧ h.hashrate now index ms = some result ∧
      Agrees now ms (row index samples) result := by
  obtain ⟨h, ran, holds⟩ := run_holds (create_holds threads) inside
  rw [List.nil_append] at holds
  cases there : h.buckets[index]? with
  | some bucket =>
    obtain ⟨result, computed, agrees⟩ := bucket_agrees (holds.records index bucket there) ordered current
    exact ⟨h, result, ran, by rw [hashrate, there]; exact computed, agrees⟩
  | none =>
    have missing : row index samples = [] := by
      rw [row, List.reverse_eq_nil_iff, List.filter_eq_nil_iff]
      intro sample added
      have bound := inside sample added
      rw [List.getElem?_eq_none_iff, holds.rows] at there
      simp only [decide_eq_true_eq]
      omega
    refine ⟨h, (false, 0), ran, by rw [hashrate, there], agrees_undefined (not_measured ?_)⟩
    rw [missing]
    intro age _ sample found
    cases found

def behindAndInside : List Sample := [⟨0, 10, 100⟩, ⟨0, 30, 200⟩]

/-- The rate of a single sample is zero, and it is defined. -/
theorem single_sample_defined :
    (run add (create 0) behindAndInside).bind (fun h => h.hashrate 200 0 50) = some (true, 0) ∧
      ¬∃ first ∈ window 200 50 (row 0 behindAndInside), ∃ last ∈ window 200 50 (row 0 behindAndInside),
        first.timestamp ≠ last.timestamp := by decide +kernel

theorem hashrate_agrees_single :
    ∃ h result, run add (create 0) behindAndInside = some h ∧ h.hashrate 200 0 50 = some result ∧
      Agrees 200 50 (row 0 behindAndInside) result :=
  hashrate_agrees (by decide) ⟨by decide, by decide⟩ (by decide)

end Hashrate

end Xmrig
