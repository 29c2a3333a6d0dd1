import Mathlib.Data.List.Induction
import Xmrig.Base.Names

/-! The hashes of a GPU at a time between two reports.

A query looks a fixed lag into the past, where there are reports on both sides, and takes the value
on the line between them. Reports older than twice the lag are dropped when a new one comes.
-/

set_option autoImplicit false

namespace Xmrig.HashrateInterpolator

/-- A number of hashes, and the time at which it was reported. -/
abbrev Point := BitVec 64 × BitVec 64

def lagMS : BitVec 64 := 4000

/-- The value on the line; the difference of the counts is a signed number that becomes unsigned again. -/
def between (a b : Point) (timeStamp : BitVec 64) : BitVec 64 :=
  a.1 + (b.1 - a.1) * (timeStamp - a.2) / (b.2 - a.2)

/-- The loop over neighbours; nothing is left of a division by zero. -/
def search (timeStamp : BitVec 64) : List Point → Option (BitVec 64)
  | a :: b :: rest =>
      if a.2 ≤ timeStamp ∧ timeStamp ≤ b.2 then
        if b.2 - a.2 = 0 then none else some (between a b timeStamp)
      else search timeStamp (b :: rest)
  | _ => some 0

def interpolate (data : List Point) (timeStamp : BitVec 64) : Option (BitVec 64) :=
  search (timeStamp - lagMS) data

def addDataPoint (data : List Point) (point : Point) : List Point :=
  (data.dropWhile fun front => decide (lagMS * 2 < point.2 - front.2)) ++ [point]

/-! ## Points in order -/

/-- Neither the counts nor the times go back. -/
def Ordered (points : List Point) : Prop := points.Pairwise fun a b => a.1 ≤ b.1 ∧ a.2 ≤ b.2

def dataOf (points : List Point) : List Point := points.foldl addDataPoint []

/-- Two neighbours around a time, and a value between theirs. -/
def Around (data : List Point) (timeStamp value : BitVec 64) : Prop :=
  ∃ front a b rest, data = front ++ a :: b :: rest ∧ a.2 ≤ timeStamp ∧ timeStamp ≤ b.2 ∧ a.1 ≤ value ∧ value ≤ b.1

/-- The two oldest points have the time that is asked for. -/
def Doubled (data : List Point) (timeStamp : BitVec 64) : Prop :=
  ∃ a b rest, data = a :: b :: rest ∧ a.2 = timeStamp ∧ b.2 = timeStamp

/-- The products of the differences of neighbours are 64-bit numbers. -/
def Fits : List Point → Prop
  | a :: b :: rest => (b.1 - a.1).toNat * (b.2 - a.2).toNat < 2 ^ 64 ∧ Fits (b :: rest)
  | _ => True

/-- A query between the oldest and the newest point, seen with the lag. -/
def Retained (data : List Point) (query : BitVec 64) : Prop :=
  ∃ oldest newest, data.head? = some oldest ∧ data.getLast? = some newest ∧
    oldest.2.toNat + lagMS.toNat ≤ query.toNat ∧ query.toNat ≤ newest.2.toNat + lagMS.toNat

/-! ## Between two points -/

section Line
variable {a b : Point} {first second timeStamp : BitVec 64}

theorem between_toNat (counts : a.1 ≤ b.1) (lower : a.2 ≤ timeStamp) (upper : timeStamp ≤ b.2) (apart : a.2 < b.2) :
    (between a b timeStamp).toNat = a.1.toNat + ((b.1 - a.1) * (timeStamp - a.2) / (b.2 - a.2)).toNat ∧
      ((b.1 - a.1) * (timeStamp - a.2) / (b.2 - a.2)).toNat ≤ b.1.toNat - a.1.toNat := by
  have times := BitVec.le_of_lt apart
  have quotient : ((b.1 - a.1) * (timeStamp - a.2) / (b.2 - a.2)).toNat ≤ b.1.toNat - a.1.toNat := by
    rw [BitVec.toNat_udiv, BitVec.toNat_mul, BitVec.toNat_sub_of_le counts, BitVec.toNat_sub_of_le lower,
      BitVec.toNat_sub_of_le times]
    rw [BitVec.le_def] at upper
    rw [BitVec.lt_def] at apart
    apply Nat.div_le_of_le_mul
    rw [Nat.mul_comm (b.2.toNat - a.2.toNat)]
    exact Nat.le_trans (Nat.mod_le _ _) (Nat.mul_le_mul_left _ (Nat.sub_le_sub_right upper _))
  refine ⟨?_, quotient⟩
  have bound := b.1.isLt
  rw [BitVec.le_def] at counts
  rw [between, BitVec.toNat_add]
  apply Nat.mod_eq_of_lt
  omega

theorem between_le (counts : a.1 ≤ b.1) (lower : a.2 ≤ timeStamp) (upper : timeStamp ≤ b.2) (apart : a.2 < b.2) :
    a.1 ≤ between a b timeStamp ∧ between a b timeStamp ≤ b.1 := by
  obtain ⟨value, small⟩ := between_toNat counts lower upper apart
  rw [BitVec.le_def] at counts
  rw [BitVec.le_def, BitVec.le_def, value]
  omega

theorem between_mono (counts : a.1 ≤ b.1) (fits : (b.1 - a.1).toNat * (b.2 - a.2).toNat < 2 ^ 64)
    (lower : a.2 ≤ first) (le : first ≤ second) (upper : second ≤ b.2) (apart : a.2 < b.2) :
    between a b first ≤ between a b second := by
  have middle := BitVec.le_trans lower le
  have times := BitVec.le_trans middle upper
  have product {time : BitVec 64} (after : a.2 ≤ time) (before : time ≤ b.2) :
      ((b.1 - a.1) * (time - a.2)).toNat = (b.1 - a.1).toNat * (time.toNat - a.2.toNat) := by
    rw [BitVec.toNat_mul, BitVec.toNat_sub_of_le after]
    apply Nat.mod_eq_of_lt
    apply Nat.lt_of_le_of_lt _ fits
    rw [BitVec.toNat_sub_of_le times]
    exact Nat.mul_le_mul_left _ (Nat.sub_le_sub_right before _)
  rw [BitVec.le_def, (between_toNat counts lower (BitVec.le_trans le upper) apart).1,
    (between_toNat counts middle upper apart).1, BitVec.toNat_udiv, BitVec.toNat_udiv,
    product lower (BitVec.le_trans le upper), product middle upper]
  apply Nat.add_le_add_left
  apply Nat.div_le_div_right
  exact Nat.mul_le_mul_left _ (Nat.sub_le_sub_right le _)

theorem sub_ne_zero (apart : a.2 < b.2) : b.2 - a.2 ≠ 0 := by
  intro zero
  have none_left := congrArg BitVec.toNat zero
  rw [BitVec.toNat_sub_of_le (BitVec.le_of_lt apart)] at none_left
  rw [BitVec.lt_def] at apart
  change b.2.toNat - a.2.toNat = 0 at none_left
  omega

end Line

/-! ## The loop -/

section Loop
variable {data points : List Point} {a b : Point} {rest : List Point} {timeStamp first second value : BitVec 64}

theorem Ordered.tail (ordered : Ordered (a :: rest)) : Ordered rest := (List.pairwise_cons.mp ordered).2

theorem Ordered.head (ordered : Ordered (a :: b :: rest)) : a.1 ≤ b.1 ∧ a.2 ≤ b.2 :=
  (List.pairwise_cons.mp ordered).1 b List.mem_cons_self

theorem search_later (ordered : Ordered (a :: rest)) (before : a.2 < timeStamp) :
    ∃ value, search timeStamp (a :: rest) = some value ∧ (value = 0 ∨ Around (a :: rest) timeStamp value) := by
  induction rest generalizing a with
  | nil => exact ⟨0, rfl, .inl rfl⟩
  | cons b rest ih =>
    rw [search]
    by_cases reached : timeStamp ≤ b.2
    · have apart : a.2 < b.2 := Nat.lt_of_lt_of_le before reached
      rw [if_pos ⟨BitVec.le_of_lt before, reached⟩, if_neg (sub_ne_zero apart)]
      obtain ⟨lower, upper⟩ := between_le ordered.head.1 (BitVec.le_of_lt before) reached apart
      exact ⟨_, rfl, .inr ⟨[], a, b, rest, rfl, BitVec.le_of_lt before, reached, lower, upper⟩⟩
    · rw [if_neg fun both => reached both.2]
      obtain ⟨value, found, zero | ⟨front, c, d, behind, split, inside⟩⟩ := ih ordered.tail (BitVec.not_le.mp reached)
      · exact ⟨value, found, .inl zero⟩
      · exact ⟨value, found, .inr ⟨a :: front, c, d, behind, congrArg (a :: ·) split, inside⟩⟩

theorem search_earlier (ordered : Ordered (a :: rest)) (behind : timeStamp < a.2) :
    search timeStamp (a :: rest) = some 0 := by
  induction rest generalizing a with
  | nil => rfl
  | cons b rest ih =>
    rw [search, if_neg fun both => BitVec.not_le.mpr behind both.1]
    exact ih ordered.tail (Nat.lt_of_lt_of_le behind ordered.head.2)

/-- The loop divides by zero exactly if the two oldest points have the time. -/
theorem search_iff (ordered : Ordered data) :
    (∃ value, search timeStamp data = some value ∧ (value = 0 ∨ Around data timeStamp value)) ↔
      ¬Doubled data timeStamp := by
  match data, ordered with
  | [], _ => exact iff_of_true ⟨0, rfl, .inl rfl⟩ fun ⟨_, _, _, split, _⟩ => by cases split
  | [_], _ => exact iff_of_true ⟨0, rfl, .inl rfl⟩ fun ⟨_, _, _, split, _⟩ => by cases split
  | a :: b :: rest, ordered =>
    have doubled : Doubled (a :: b :: rest) timeStamp ↔ a.2 = timeStamp ∧ b.2 = timeStamp := by
      constructor
      · rintro ⟨c, d, tail, split, both⟩
        cases split
        exact both
      · exact fun both => ⟨a, b, rest, rfl, both⟩
    rw [doubled]
    rcases Nat.lt_trichotomy a.2.toNat timeStamp.toNat with before | same | behind
    · refine iff_of_true (search_later ordered before) fun both => ?_
      exact absurd (congrArg BitVec.toNat both.1) (Nat.ne_of_lt before)
    · have here : a.2 = timeStamp := BitVec.eq_of_toNat_eq same
      subst here
      rw [search, if_pos ⟨BitVec.le_refl _, ordered.head.2⟩]
      by_cases equal : b.2 = a.2
      · rw [if_pos (show b.2 - a.2 = 0 by rw [equal]; exact BitVec.sub_self _)]
        exact iff_of_false (fun ⟨_, none_left, _⟩ => by cases none_left) fun apart => apart ⟨rfl, equal⟩
      · have apart : a.2 < b.2 := BitVec.lt_of_le_ne ordered.head.2 fun same => equal same.symm
        rw [if_neg (sub_ne_zero apart)]
        obtain ⟨lower, upper⟩ := between_le ordered.head.1 (BitVec.le_refl _) (BitVec.le_of_lt apart) apart
        exact iff_of_true ⟨_, rfl, .inr ⟨[], a, b, rest, rfl, BitVec.le_refl _, ordered.head.2, lower, upper⟩⟩
          fun both => equal both.2
    · refine iff_of_true ⟨0, search_earlier ordered behind, .inl rfl⟩ fun both => ?_
      exact absurd (congrArg BitVec.toNat both.1).symm (Nat.ne_of_lt behind)

theorem Ordered.last {newest : Point} (ordered : Ordered (a :: rest)) (last : (a :: rest).getLast? = some newest) :
    a.1 ≤ newest.1 ∧ a.2 ≤ newest.2 := by
  rcases List.mem_cons.mp (List.mem_of_getLast? last) with rfl | member
  · exact ⟨BitVec.le_refl _, BitVec.le_refl _⟩
  · exact (List.pairwise_cons.mp ordered).1 newest member

theorem apart_of_search (ordered : Ordered (a :: b :: rest)) (inside : a.2 ≤ timeStamp ∧ timeStamp ≤ b.2)
    (found : search timeStamp (a :: b :: rest) = some value) : a.2 < b.2 ∧ value = between a b timeStamp := by
  rw [search, if_pos inside] at found
  split at found
  · cases found
  · rename_i divides
    refine ⟨BitVec.lt_of_le_ne ordered.head.2 fun same => divides ?_, (Option.some.inj found).symm⟩
    rw [same]
    exact BitVec.sub_self _

theorem search_of_later (later : b.2 < timeStamp) : search timeStamp (a :: b :: rest) = search timeStamp (b :: rest) := by
  rw [search, if_neg fun both => BitVec.not_le.mpr later both.2]

theorem search_bounds {newest : Point} (ordered : Ordered (a :: rest)) (last : (a :: rest).getLast? = some newest)
    (more : rest ≠ []) (lower : a.2 ≤ timeStamp) (upper : timeStamp ≤ newest.2)
    (found : search timeStamp (a :: rest) = some value) : a.1 ≤ value ∧ value ≤ newest.1 := by
  induction rest generalizing a with
  | nil => exact absurd rfl more
  | cons b rest ih =>
    rw [List.getLast?_cons_cons] at last
    by_cases reached : timeStamp ≤ b.2
    · obtain ⟨apart, rfl⟩ := apart_of_search ordered ⟨lower, reached⟩ found
      obtain ⟨least, most⟩ := between_le ordered.head.1 lower reached apart
      exact ⟨least, BitVec.le_trans most (ordered.tail.last last).1⟩
    · have later := BitVec.not_le.mp reached
      rw [search_of_later later] at found
      have tail : rest ≠ [] := by
        rintro rfl
        cases last
        exact reached upper
      obtain ⟨least, most⟩ := ih ordered.tail last tail (BitVec.le_of_lt later) found
      exact ⟨BitVec.le_trans ordered.head.1 least, most⟩

theorem search_mono {newest : Point} {low high : BitVec 64} (ordered : Ordered (a :: rest)) (fits : Fits (a :: rest))
    (last : (a :: rest).getLast? = some newest) (lower : a.2 ≤ first) (le : first ≤ second) (upper : second ≤ newest.2)
    (early : search first (a :: rest) = some low) (late : search second (a :: rest) = some high) : low ≤ high := by
  induction rest generalizing a with
  | nil =>
    cases early
    cases late
    exact BitVec.le_refl _
  | cons b rest ih =>
    rw [List.getLast?_cons_cons] at last
    by_cases reached : first ≤ b.2
    · obtain ⟨apart, rfl⟩ := apart_of_search ordered ⟨lower, reached⟩ early
      by_cases both : second ≤ b.2
      · obtain ⟨-, rfl⟩ := apart_of_search ordered ⟨BitVec.le_trans lower le, both⟩ late
        exact between_mono ordered.head.1 fits.1 lower le both apart
      · -- the later value lies behind the pair that has the earlier one
        have later := BitVec.not_le.mp both
        rw [search_of_later later] at late
        have tail : rest ≠ [] := by
          rintro rfl
          cases last
          exact both upper
        have least := (search_bounds ordered.tail last tail (BitVec.le_of_lt later) upper late).1
        exact BitVec.le_trans (between_le ordered.head.1 lower reached apart).2 least
    · have later := BitVec.not_le.mp reached
      have even := Nat.lt_of_lt_of_le later le
      rw [search_of_later later] at early
      rw [search_of_later even] at late
      exact ih ordered.tail fits.2 last (BitVec.le_of_lt later) early late

end Loop

/-! ## Points that are added -/

section Points
variable {points : List Point}

theorem dataOf_suffix (points : List Point) : dataOf points <:+ points := by
  induction points using List.reverseRecOn with
  | nil => exact List.suffix_rfl
  | append_singleton points point ih =>
    rw [dataOf, List.foldl_append, List.foldl_cons, List.foldl_nil]
    obtain ⟨front, whole⟩ :=
      (List.dropWhile_suffix fun front : Point => decide (lagMS * 2 < point.2 - front.2)).trans ih
    refine ⟨front, ?_⟩
    rw [addDataPoint, ← List.append_assoc]
    exact congrArg (· ++ [point]) whole

theorem dataOf_ordered (ordered : Ordered points) : Ordered (dataOf points) :=
  ordered.sublist (dataOf_suffix points).sublist

/-- For points in order a query divides by zero exactly if it asks for the time of the two oldest
points that are left; otherwise it gives nothing or a value between the neighbours around its time.
It does not decrease over the range of the points, if no product wraps. -/
theorem interpolate_iff (ordered : Ordered points) :
    (∀ query, (∃ value, interpolate (dataOf points) query = some value ∧
        (value = 0 ∨ Around (dataOf points) (query - lagMS) value)) ↔ ¬Doubled (dataOf points) (query - lagMS)) ∧
    (Fits (dataOf points) → ∀ first second low high, first ≤ second →
      Retained (dataOf points) first → Retained (dataOf points) second →
      interpolate (dataOf points) first = some low → interpolate (dataOf points) second = some high → low ≤ high) := by
  have left := dataOf_ordered ordered
  refine ⟨fun query => search_iff left, fun fits first second low high le before behind early late => ?_⟩
  obtain ⟨oldest, newest, head, last, start, -⟩ := before
  obtain ⟨_, newest', -, last', -, stop⟩ := behind
  rw [last] at last'
  cases last'
  obtain ⟨rest, split⟩ := List.head?_eq_some_iff.mp head
  unfold interpolate at early late
  rw [split] at left fits last early late
  have lagged {query : BitVec 64} (behind : lagMS ≤ query) : (query - lagMS).toNat = query.toNat - lagMS.toNat :=
    BitVec.toNat_sub_of_le behind
  have enough : lagMS ≤ first := by
    rw [BitVec.le_def]
    omega
  have more := BitVec.le_trans enough le
  rw [BitVec.le_def] at le
  refine search_mono left fits last ?_ ?_ ?_ early late
  · rw [BitVec.le_def, lagged enough]
    omega
  · rw [BitVec.le_def, lagged enough, lagged more]
    omega
  · rw [BitVec.le_def, lagged more]
    omega

/-- Three points, the newest two reported in the same millisecond. -/
def threePoints : List Point := [(0, 1000), (50, 2000), (70, 2000)]

theorem interpolate_iff_three :
    (∃ value, interpolate (dataOf threePoints) 5500 = some value ∧
        (value = 0 ∨ Around (dataOf threePoints) 1500 value)) ∧
      ∀ low high, interpolate (dataOf threePoints) 5500 = some low →
        interpolate (dataOf threePoints) 6000 = some high → low ≤ high := by
  have ordered : Ordered threePoints := by
    unfold Ordered threePoints
    decide
  have data : dataOf threePoints = threePoints := by decide
  have ends : Retained threePoints 5500 ∧ Retained threePoints 6000 :=
    ⟨⟨(0, 1000), (70, 2000), by decide⟩, ⟨(0, 1000), (70, 2000), by decide⟩⟩
  obtain ⟨defined, monotone⟩ := interpolate_iff ordered
  rw [data] at defined monotone ⊢
  refine ⟨(defined 5500).mpr ?_, fun low high => monotone ?_ 5500 6000 low high (by decide) ends.1 ends.2⟩
  · rintro ⟨a, b, rest, split, first, -⟩
    cases split
    exact absurd first (by decide)
  · unfold threePoints Fits Fits Fits
    decide

/-- Two reports of one millisecond, asked for with the lag; and a difference whose product wraps. -/
theorem interpolate_faults :
    interpolate (dataOf [(5, 1000), (9, 1000)]) 5000 = none ∧
      interpolate (dataOf [(0, 0), (0x8000000000000000, 2)]) 4001 = some 0x4000000000000000 ∧
      interpolate (dataOf [(0, 0), (0x8000000000000000, 2)]) 4002 = some 0 := by
  decide

end Points

end Xmrig.HashrateInterpolator
