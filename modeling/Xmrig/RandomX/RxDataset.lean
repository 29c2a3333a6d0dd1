import Xmrig.Foundation.Slices

/-! Filling the RandomX dataset with several threads.

Every thread has a slice of the items. With AVX2 the compiled code fills five items a
round, so a slice whose size is no multiple of five is filled by two calls that overlap.
-/

set_option autoImplicit false

namespace Xmrig.RandomX

open Foundation

/-- Items as they are handed on: the first one and their number. -/
structure ItemRange where
  startItem : BitVec 32
  itemCount : BitVec 32
  deriving DecidableEq, Repr

namespace ItemRange

/-- The end as `randomx_init_dataset` adds it up. -/
def endItem (range : ItemRange) : Nat := range.startItem.toNat + range.itemCount.toNat

def Contains (range : ItemRange) (item : Nat) : Prop :=
  range.startItem.toNat ≤ item ∧ item < range.endItem

def Inside (inner outer : ItemRange) : Prop :=
  outer.startItem.toNat ≤ inner.startItem.toNat ∧ inner.endItem ≤ outer.endItem

end ItemRange

/-- What decides how items are filled: compiled code or the interpreter, the processor's AVX2, and
whether the compiler chooses the code for it. -/
structure DatasetInit where
  jit : Bool
  hasAVX2 : Bool
  optimized : Bool

/-- The compiled loop: some items a round, and the test behind them. -/
def compiledLoop (width endItem : Nat) : (rounds : Nat) → (item : Nat) → List Nat
  | 0, _ => []
  | rounds + 1, item => List.range' item width ++
      if item + width < endItem then compiledLoop width endItem rounds (item + width) else []

namespace DatasetInit

/-- The compiler drops the code for AVX2 without the processor's support. -/
def initDatasetAVX2 (setup : DatasetInit) : Bool := setup.optimized && setup.hasAVX2

/-- The items that `randomx_init_dataset` writes. No loop makes more rounds than there are items,
but for a compiled one, which makes one round at least. -/
def randomxInitDataset (setup : DatasetInit) (range : ItemRange) : List Nat :=
  if setup.jit then
    compiledLoop (if setup.initDatasetAVX2 then 5 else 1) range.endItem (range.itemCount.toNat + 1)
      range.startItem.toNat
  else List.range' range.startItem.toNat range.itemCount.toNat

/-- The calls that `init_dataset_wrapper` makes for a slice. -/
def initDatasetWrapper (setup : DatasetInit) (slice : ItemRange) : List ItemRange :=
  if setup.hasAVX2 ∧ slice.itemCount % 5#32 ≠ 0#32 then
    [⟨slice.startItem, slice.itemCount - slice.itemCount % 5#32⟩,
      ⟨slice.startItem + slice.itemCount - 5#32, 5#32⟩]
  else [slice]

def threadWrites (setup : DatasetInit) (slice : ItemRange) : List Nat :=
  (setup.initDatasetWrapper slice).flatMap setup.randomxInitDataset

end DatasetInit

/-- The slice of the thread `i`. -/
def threadSlice (datasetItemCount : BitVec 64) (numThreads : BitVec 32) (i : Nat) : ItemRange :=
  let a := (datasetItemCount * BitVec.ofNat 64 i / numThreads.setWidth 64).setWidth 32
  let b := (datasetItemCount * (BitVec.ofNat 64 i + 1#64) / numThreads.setWidth 64).setWidth 32
  ⟨a, b - a⟩

/-- The slices of the threads that `RxDataset::init` starts, or of the caller alone. -/
def initSlices (datasetItemCount : BitVec 64) (numThreads : BitVec 32) : List ItemRange :=
  if 1#32 < numThreads then (List.range numThreads.toNat).map (threadSlice datasetItemCount numThreads)
  else [⟨0#32, datasetItemCount.setWidth 32⟩]

/-! ## One slice -/

theorem compiledLoop_eq {width : Nat} (some : 0 < width) {rounds groups : Nat} (enough : groups < rounds)
    (item : Nat) :
    compiledLoop width (item + width * (groups + 1)) rounds item = List.range' item (width * (groups + 1)) := by
  induction groups generalizing rounds item with
  | zero =>
    obtain ⟨rest, rfl⟩ := Nat.exists_eq_succ_of_ne_zero (Nat.ne_of_gt enough)
    rw [compiledLoop, if_neg (by omega), List.append_nil, Nat.zero_add, Nat.mul_one]
  | succ groups ih =>
    obtain ⟨rest, rfl⟩ := Nat.exists_eq_succ_of_ne_zero (Nat.ne_of_gt (Nat.zero_lt_of_lt enough))
    have more : width * (groups + 1 + 1) = width + width * (groups + 1) := by
      rw [Nat.mul_succ, Nat.add_comm]
    have positive : 0 < width * (groups + 1) := Nat.mul_pos some (Nat.succ_pos groups)
    rw [compiledLoop, if_pos (by omega), more, ← Nat.add_assoc, ih (Nat.lt_of_succ_lt_succ enough),
      List.range'_append_1]

namespace DatasetInit
variable (setup : DatasetInit) {slice : ItemRange}

theorem mem_randomxInitDataset {range : ItemRange} (some : 0 < range.itemCount.toNat)
    (groups : setup.initDatasetAVX2 = true → 5 ∣ range.itemCount.toNat) (item : Nat) :
    item ∈ setup.randomxInitDataset range ↔ range.Contains item := by
  have whole : setup.randomxInitDataset range =
      List.range' range.startItem.toNat range.itemCount.toNat := by
    unfold randomxInitDataset ItemRange.endItem
    split
    · split
      · rename_i wide
        obtain ⟨rounds, size⟩ := groups wide
        obtain ⟨last, rfl⟩ := Nat.exists_eq_succ_of_ne_zero (show rounds ≠ 0 by omega)
        rw [size]
        exact compiledLoop_eq (by decide) (by omega) _
      · obtain ⟨last, size⟩ := Nat.exists_eq_succ_of_ne_zero (Nat.ne_of_gt some)
        have loop := @compiledLoop_eq 1 (by decide) _ _ (Nat.lt_succ_of_lt (Nat.lt_succ_self last))
          range.startItem.toNat
        rw [Nat.one_mul] at loop
        rw [size]
        exact loop
    · rfl
  rw [whole, List.mem_range'_1]
  rfl

theorem overlap_toNat (wide : 5 ≤ slice.itemCount.toNat) (fits : slice.endItem < 2 ^ 32) :
    (slice.itemCount - slice.itemCount % 5#32).toNat = slice.itemCount.toNat - slice.itemCount.toNat % 5 ∧
      (slice.startItem + slice.itemCount - 5#32).toNat = slice.endItem - 5 := by
  have rest : (slice.itemCount % 5#32).toNat = slice.itemCount.toNat % 5 := BitVec.toNat_umod
  have sum : (slice.startItem + slice.itemCount).toNat = slice.endItem := by
    rw [BitVec.toNat_add]
    exact Nat.mod_eq_of_lt fits
  have five : (5#32).toNat = 5 := rfl
  constructor
  · rw [BitVec.toNat_sub_of_le (BitVec.le_def.mpr (by omega)), rest]
  · rw [BitVec.toNat_sub_of_le (BitVec.le_def.mpr (by unfold ItemRange.endItem at sum; omega)), sum, five]

theorem initDatasetWrapper_suits (wide : 5 ≤ slice.itemCount.toNat) (fits : slice.endItem < 2 ^ 32)
    {call : ItemRange} (made : call ∈ setup.initDatasetWrapper slice) :
    call.Inside slice ∧ 0 < call.itemCount.toNat ∧
      (setup.hasAVX2 = true → 5 ∣ call.itemCount.toNat) := by
  obtain ⟨front, back⟩ := overlap_toNat wide fits
  have rest : (slice.itemCount % 5#32).toNat = slice.itemCount.toNat % 5 := BitVec.toNat_umod
  unfold ItemRange.Inside
  unfold ItemRange.endItem at fits back ⊢
  unfold initDatasetWrapper at made
  split at made
  · simp only [List.mem_cons, List.not_mem_nil, or_false] at made
    rcases made with rfl | rfl
    · dsimp only
      rw [front]
      exact ⟨⟨le_rfl, by omega⟩, by omega, fun _ => by omega⟩
    · have five : (5#32).toNat = 5 := rfl
      dsimp only
      rw [back, five]
      exact ⟨⟨by omega, by omega⟩, by decide, fun _ => dvd_rfl⟩
  · rename_i whole
    obtain rfl := List.mem_singleton.mp made
    refine ⟨⟨le_rfl, le_rfl⟩, by omega, fun avx2 => ?_⟩
    have even : call.itemCount % 5#32 = 0#32 := by
      by_contra odd
      exact whole ⟨avx2, odd⟩
    rw [even] at rest
    exact Nat.dvd_of_mod_eq_zero rest.symm

theorem initDatasetWrapper_covers (wide : 5 ≤ slice.itemCount.toNat) (fits : slice.endItem < 2 ^ 32)
    {item : Nat} (inside : slice.Contains item) :
    ∃ call, call ∈ setup.initDatasetWrapper slice ∧ call.Contains item := by
  obtain ⟨front, back⟩ := overlap_toNat wide fits
  unfold ItemRange.Contains at inside ⊢
  unfold ItemRange.endItem at fits back inside ⊢
  unfold initDatasetWrapper
  split
  · by_cases before : item < slice.startItem.toNat + (slice.itemCount.toNat - slice.itemCount.toNat % 5)
    · refine ⟨_, List.mem_cons_self, inside.1, ?_⟩
      dsimp only
      rw [front]
      exact before
    · have five : (5#32).toNat = 5 := rfl
      refine ⟨_, List.mem_cons_of_mem _ List.mem_cons_self, ?_, ?_⟩
      · dsimp only
        omega
      · dsimp only
        omega
  · exact ⟨slice, List.mem_singleton_self slice, inside⟩

theorem mem_threadWrites (wide : 5 ≤ slice.itemCount.toNat) (fits : slice.endItem < 2 ^ 32) (item : Nat) :
    item ∈ setup.threadWrites slice ↔ slice.Contains item := by
  have suits {call : ItemRange} (made : call ∈ setup.initDatasetWrapper slice) :
      item ∈ setup.randomxInitDataset call ↔ call.Contains item := by
    obtain ⟨-, some, groups⟩ := setup.initDatasetWrapper_suits wide fits made
    apply setup.mem_randomxInitDataset some
    intro optimized
    exact groups (Bool.and_eq_true_iff.mp optimized).2
  unfold threadWrites
  rw [List.mem_flatMap]
  constructor
  · rintro ⟨call, made, written⟩
    obtain ⟨inside, -⟩ := setup.initDatasetWrapper_suits wide fits made
    have own := (suits made).mp written
    exact ⟨inside.1.trans own.1, Nat.lt_of_lt_of_le own.2 inside.2⟩
  · intro inside
    obtain ⟨call, made, own⟩ := setup.initDatasetWrapper_covers wide fits inside
    exact ⟨call, made, (suits made).mpr own⟩

end DatasetInit

/-! ## All slices -/

section Slices
variable {M : BitVec 64} {n : BitVec 32}

theorem share_le (some : 1 ≤ n.toNat) {j : Nat} (inside : j ≤ n.toNat) :
    share M.toNat n.toNat j ≤ M.toNat := by
  calc share M.toNat n.toNat j ≤ share M.toNat n.toNat n.toNat := share_mono inside
    _ = M.toNat := share_last some

theorem bound_toNat (fits : M.toNat < 2 ^ 32) (some : 1 ≤ n.toNat) {j : BitVec 64} (inside : j.toNat ≤ n.toNat) :
    ((M * j / n.setWidth 64).setWidth 32).toNat = share M.toNat n.toNat j.toNat := by
  have bound := n.isLt
  have below := @share_le M n some j.toNat inside
  have product : M.toNat * j.toNat < 2 ^ 64 := by
    calc M.toNat * j.toNat ≤ (2 ^ 32 - 1) * (2 ^ 32 - 1) := Nat.mul_le_mul (by omega) (by omega)
      _ < 2 ^ 64 := by decide
  have count : (n.setWidth 64).toNat = n.toNat := by
    rw [BitVec.toNat_setWidth]
    exact Nat.mod_eq_of_lt (by omega)
  rw [BitVec.toNat_setWidth, BitVec.toNat_udiv, BitVec.toNat_mul, Nat.mod_eq_of_lt product, count]
  exact Nat.mod_eq_of_lt (Nat.lt_of_le_of_lt below fits)

theorem threadSlice_toNat (fits : M.toNat < 2 ^ 32) (some : 1 ≤ n.toNat) {i : Nat} (own : i < n.toNat) :
    (threadSlice M n i).startItem.toNat = share M.toNat n.toNat i ∧
      (threadSlice M n i).endItem = share M.toNat n.toNat (i + 1) := by
  have bound := n.isLt
  have first : (BitVec.ofNat 64 i).toNat = i := by
    rw [BitVec.toNat_ofNat]
    exact Nat.mod_eq_of_lt (by omega)
  have second : (BitVec.ofNat 64 i + 1#64).toNat = i + 1 := by
    rw [BitVec.toNat_add, first, show (1#64).toNat = 1 from rfl]
    exact Nat.mod_eq_of_lt (by omega)
  have a := bound_toNat fits some (j := BitVec.ofNat 64 i) (by omega)
  have b := bound_toNat fits some (j := BitVec.ofNat 64 i + 1#64) (by omega)
  rw [first] at a
  rw [second] at b
  have grows : share M.toNat n.toNat i ≤ share M.toNat n.toNat (i + 1) := share_mono (Nat.le_succ i)
  unfold ItemRange.endItem threadSlice
  dsimp only
  rw [BitVec.toNat_sub_of_le (BitVec.le_def.mpr (by omega)), a, b]
  omega

theorem initSlices_eq (some : 1 ≤ n.toNat) :
    initSlices M n = (List.range n.toNat).map (threadSlice M n) := by
  unfold initSlices
  split
  · rfl
  · rename_i single
    have one : n = 1#32 := by
      apply BitVec.eq_of_toNat_eq
      have most : ¬ 1 < n.toNat := fun more => single (BitVec.lt_def.mpr more)
      exact Nat.le_antisymm (Nat.le_of_not_lt most) some
    subst one
    simp [threadSlice, List.range_succ]

theorem threadSlice_size (fits : M.toNat < 2 ^ 32) (some : 1 ≤ n.toNat) (enough : 5 * n.toNat ≤ M.toNat)
    {i : Nat} (own : i < n.toNat) :
    5 ≤ (threadSlice M n i).itemCount.toNat ∧ (threadSlice M n i).endItem < 2 ^ 32 := by
  obtain ⟨start, stop⟩ := threadSlice_toNat fits some own
  have wide := share_wide some enough i
  have below := @share_le M n some (i + 1) own
  unfold ItemRange.endItem at stop ⊢
  omega

/-- With fewer than 2^32 items, every one is in a range that is handed to `randomx_init_dataset`
and no range leaves the dataset; each range is written exactly, the code for AVX2 is only given
multiples of five, a thread keeps to its slice, and no two threads write the same item. -/
theorem init_covers (setup : DatasetInit) (fits : M.toNat < 2 ^ 32) (some : 1 ≤ n.toNat)
    (enough : 5 * n.toNat ≤ M.toNat) :
    (∀ item, item < M.toNat ↔
      ∃ slice ∈ initSlices M n, ∃ call ∈ setup.initDatasetWrapper slice, call.Contains item) ∧
    (∀ slice ∈ initSlices M n, ∀ call ∈ setup.initDatasetWrapper slice,
      call.Inside slice ∧ (setup.hasAVX2 = true → 5 ∣ call.itemCount.toNat) ∧
        ∀ item, item ∈ setup.randomxInitDataset call ↔ call.Contains item) ∧
    (∀ slice ∈ initSlices M n, ∀ item ∈ setup.threadWrites slice, slice.Contains item) ∧
    (initSlices M n).Pairwise fun first second =>
      ∀ item ∈ setup.threadWrites first, item ∉ setup.threadWrites second := by
  have size {slice : ItemRange} (member : slice ∈ initSlices M n) :
      5 ≤ slice.itemCount.toNat ∧ slice.endItem < 2 ^ 32 := by
    rw [initSlices_eq some] at member
    obtain ⟨i, own, rfl⟩ := List.mem_map.mp member
    exact threadSlice_size fits some enough (List.mem_range.mp own)
  have suits {slice call : ItemRange} (member : slice ∈ initSlices M n)
      (made : call ∈ setup.initDatasetWrapper slice) :=
    setup.initDatasetWrapper_suits (size member).1 (size member).2 made
  have writes {slice : ItemRange} (member : slice ∈ initSlices M n) :=
    setup.mem_threadWrites (size member).1 (size member).2
  refine ⟨fun item => ⟨?_, ?_⟩, ?_, ?_, ?_⟩
  · intro below
    rw [← @share_last M.toNat n.toNat some] at below
    obtain ⟨i, own, slice⟩ := exists_slice share_zero below
    obtain ⟨start, stop⟩ := threadSlice_toNat fits some own
    have member : threadSlice M n i ∈ initSlices M n := by
      rw [initSlices_eq some]
      exact List.mem_map_of_mem (List.mem_range.mpr own)
    have inside : (threadSlice M n i).Contains item := by
      rw [← start, ← stop] at slice
      exact slice
    exact ⟨_, member, setup.initDatasetWrapper_covers (size member).1 (size member).2 inside⟩
  · rintro ⟨slice, member, call, made, own⟩
    have inside := (suits member made).1
    rw [initSlices_eq some] at member
    obtain ⟨i, thread, rfl⟩ := List.mem_map.mp member
    have stop := (threadSlice_toNat fits some (List.mem_range.mp thread)).2
    have below := @share_le M n some (i + 1) (List.mem_range.mp thread)
    rw [← stop] at below
    exact Nat.lt_of_lt_of_le own.2 (inside.2.trans below)
  · intro slice member call made
    obtain ⟨inside, positive, groups⟩ := suits member made
    refine ⟨inside, groups, setup.mem_randomxInitDataset positive fun optimized => ?_⟩
    exact groups (Bool.and_eq_true_iff.mp optimized).2
  · intro slice member item written
    exact (writes member item).mp written
  · have apart : (initSlices M n).Pairwise fun first second =>
        ∀ item, first.Contains item → ¬ second.Contains item := by
      rw [initSlices_eq some, List.pairwise_map]
      refine List.pairwise_lt_range.imp_of_mem fun {i j} first second before item inFirst inSecond => ?_
      have stop := (threadSlice_toNat fits some (List.mem_range.mp first)).2
      have start := (threadSlice_toNat fits some (List.mem_range.mp second)).1
      have left : item < share M.toNat n.toNat (i + 1) := stop ▸ inFirst.2
      have right : share M.toNat n.toNat j ≤ item := start ▸ inSecond.1
      exact slice_unique share_mono before left right
    refine apart.imp_of_mem fun first second disjoint item one two => ?_
    exact disjoint item ((writes first item).mp one) ((writes second item).mp two)

/-- Two threads fill slices of seven and eight items with AVX2. -/
theorem init_covers_fifteen :
    (∀ item, item < (15#64).toNat ↔ ∃ slice ∈ initSlices 15#64 2#32,
        ∃ call ∈ DatasetInit.initDatasetWrapper ⟨true, true, true⟩ slice, call.Contains item) ∧
      initSlices 15#64 2#32 = [⟨0#32, 7#32⟩, ⟨7#32, 8#32⟩] := by
  have covers := init_covers (M := 15#64) (n := 2#32) ⟨true, true, true⟩ (by decide) (by decide) (by decide)
  exact ⟨covers.1, by decide⟩

/-- Of 2^32 items none is filled: the first one is in no range. -/
theorem init_wide_uncovered :
    ¬ ∀ item, item < (0x100000000#64).toNat ↔ ∃ slice ∈ initSlices 0x100000000#64 1#32,
      ∃ call ∈ DatasetInit.initDatasetWrapper ⟨false, false, false⟩ slice, call.Contains item := by
  intro covers
  obtain ⟨slice, member, call, made, inside⟩ := (covers 0).mp (by decide)
  have none : initSlices 0x100000000#64 1#32 = [⟨0#32, 0#32⟩] := by decide
  rw [none] at member
  obtain rfl := List.mem_singleton.mp member
  have same : DatasetInit.initDatasetWrapper ⟨false, false, false⟩ ⟨0#32, 0#32⟩ = [⟨0#32, 0#32⟩] := by decide
  rw [same] at made
  obtain rfl := List.mem_singleton.mp made
  exact absurd inside.2 (Nat.lt_irrefl 0)

end Slices

end Xmrig.RandomX
