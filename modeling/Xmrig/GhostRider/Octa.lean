import Xmrig.GhostRider.HashOcta
import Mathlib.Data.List.Nodup
import Mathlib.Data.List.Perm.Subperm
import Mathlib.Data.List.Range
import Mathlib.Tactic.Convert

/-! Every path of `hash_octa` computes eight GhostRider hashes.

A thread running alone is computed loop by loop. Two threads own the lanes,
contexts and context memories below four and from four on, so every
interleaving splits into two threads running alone.
-/

set_option autoImplicit false

namespace Xmrig.GhostRider

open Foundation

section Indices

theorem selectLoop_perm {n : Nat} (drawn : List Nat) {indices : List Nat}
    (range : ∀ index ∈ drawn, index < n) (below : ∀ index ∈ indices, index < n)
    (distinct : indices.Nodup) : (selectLoop n drawn indices).Perm (List.range n) := by
  induction drawn generalizing indices with
  | nil =>
    rw [List.perm_ext_iff_of_nodup _ List.nodup_range]
    · intro index
      simp only [selectLoop, List.mem_append, List.mem_filter, List.mem_range, decide_not,
        Bool.not_eq_true', decide_eq_false_iff_not]
      constructor
      · rintro (old | new)
        · exact below index old
        · exact new.1
      · intro small
        by_cases old : index ∈ indices
        · exact .inl old
        · exact .inr ⟨small, old⟩
    · apply List.Nodup.append distinct (List.nodup_range.filter _)
      intro index old new
      simp only [List.mem_filter, decide_not, Bool.not_eq_true', decide_eq_false_iff_not] at new
      exact new.2 old
  | cons index rest ih =>
    have later : ∀ other ∈ rest, other < n := fun other member =>
      range other (List.mem_cons_of_mem _ member)
    have small := range index List.mem_cons_self
    unfold selectLoop
    split
    · exact ih later below distinct
    · rename_i fresh
      have more : ∀ other ∈ indices ++ [index], other < n := by
        intro other member
        rcases List.mem_append.mp member with old | new
        · exact below other old
        · rw [List.mem_singleton.mp new]
          exact small
      have still : (indices ++ [index]).Nodup := by
        apply List.Nodup.append distinct (List.nodup_singleton index)
        intro other old new
        rw [List.mem_singleton.mp new] at old
        exact fresh old
      split
      · rename_i full
        apply List.Subperm.perm_of_length_le
        · exact List.subperm_of_subset still fun other member => List.mem_range.mpr (more other member)
        · rw [List.length_range]
          exact full
      · exact ih later more still

theorem selectIndices_perm {n : Nat} (positive : 0 < n) (seed : Nat → BitVec 8) :
    (selectIndices n seed).Perm (List.range n) := by
  apply selectLoop_perm
  · intro index member
    obtain ⟨i, _, rfl⟩ := List.mem_map.mp member
    exact Nat.mod_lt _ positive
  · intro index member
    cases member
  · exact List.nodup_nil

theorem selectIndices_lt {n : Nat} (positive : 0 < n) (seed : Nat → BitVec 8) (i : Nat) :
    (selectIndices n seed).getD i 0 < n := by
  rw [List.getD_eq_getElem?_getD]
  cases found : (selectIndices n seed)[i]? with
  | none => exact positive
  | some index =>
    exact List.mem_range.mp
      ((selectIndices_perm positive seed).subset (List.mem_of_getElem? found))

end Indices

section Loops
variable (setup : Setup) (thread : Bool)

theorem mem_lanes {lo hi lane : Nat} (ordered : lo ≤ hi) :
    lane ∈ lanes lo hi ↔ lo ≤ lane ∧ lane < hi := by
  rw [lanes, List.mem_range'_1]
  omega

theorem runOps_cores (index : Nat) (input : Source) {chosen : List Nat} (distinct : chosen.Nodup)
    (state : Shared) :
    runOps (exec setup) thread (chosen.map (.core index input)) state =
      { state with
        tmp := fun j => if j ∈ chosen then setup.core index (inputOf setup state j input)
          else state.tmp j } := by
  induction chosen generalizing state with
  | nil => simp [runOps]
  | cons lane rest ih =>
    obtain ⟨fresh, distinct⟩ := List.nodup_cons.mp distinct
    have first := ih distinct (exec setup thread (.core index input lane) state)
    refine first.trans ?_
    simp only [exec, Shared.mk.injEq, and_true]
    funext j
    by_cases here : j = lane
    · subst here
      simp [fresh]
    · have unread : inputOf setup { state with
          tmp := Function.update state.tmp lane
            (setup.core index (inputOf setup state lane input)) } j input =
          inputOf setup state j input := by
        cases input <;> simp [inputOf, here]
      simp [here, unread]

theorem runOps_copies (chosen : List Nat) (state : Shared) :
    runOps (exec setup) thread (chosen.map .copy) state =
      { state with
        tmp := fun j => if j ∈ chosen then zeroExtended (state.output j) else state.tmp j } := by
  induction chosen generalizing state with
  | nil => simp [runOps]
  | cons lane rest ih =>
    refine (ih (exec setup thread (.copy lane) state)).trans ?_
    simp only [exec, Shared.mk.injEq, and_true]
    funext j
    by_cases here : j = lane
    · subst here
      simp
    · simp [here]

theorem runOps_corePasses (part : Nat) {chosen : List Nat} (distinct : chosen.Nodup)
    (passes : List Nat) (input : Source) (state : Shared) :
    ∃ tmp, runOps (exec setup) thread (corePasses setup part chosen passes input).1 state =
        { state with tmp } ∧
      (∀ j ∈ chosen, passes ≠ [] →
        (tmp j).toList = coreChain setup part passes (inputOf setup state j input)) ∧
      ∀ j, j ∉ chosen → tmp j = state.tmp j := by
  induction passes generalizing input state with
  | nil => exact ⟨state.tmp, rfl, fun _ _ impossible => absurd rfl impossible, fun _ _ => rfl⟩
  | cons i rest ih =>
    have first := runOps_cores setup thread (setup.coreIndices (part * 5 + i)) input distinct state
    obtain ⟨tmp, ran, results, others⟩ := ih .tmp (runOps (exec setup) thread
      (chosen.map (.core (setup.coreIndices (part * 5 + i)) input)) state)
    refine ⟨tmp, ?_, fun j member _ => ?_, fun j outside => ?_⟩
    · rw [corePasses, runOps_append, ran, first]
    · have hashed : inputOf setup (runOps (exec setup) thread
          (chosen.map (.core (setup.coreIndices (part * 5 + i)) input)) state) j .tmp =
          (setup.core (setup.coreIndices (part * 5 + i)) (inputOf setup state j input)).toList := by
        rw [first]
        simp [inputOf, member]
      cases rest with
      | nil =>
        have same := congrFun (congrArg Shared.tmp ran) j
        exact (congrArg Vector.toList same).symm.trans hashed
      | cons i' rest =>
        rw [results j member (List.cons_ne_nil _ _), hashed]
        rfl
    · rw [others j outside, first]
      simp [outside]

theorem corePasses_tmp (part : Nat) (chosen : List Nat) {passes : List Nat} (some : passes ≠ [])
    (input : Source) : (corePasses setup part chosen passes input).2 = .tmp := by
  induction passes generalizing input with
  | nil => exact absurd rfl some
  | cons i rest ih =>
    cases rest with
    | nil => rfl
    | cons i' rest => exact ih (List.cons_ne_nil _ _) .tmp

theorem chainPart_next (part step base lo hi : Nat) (input : Source) :
    (chainPart setup part step base lo hi input).2 = .tmp := by
  have passes : List.range 5 ≠ [] := by decide
  exact corePasses_tmp setup part (lanes lo hi) passes input

theorem runOps_calls (index base ways : Nat) (starts : List Nat) (state : Shared)
    (idle : state.active = fun _ => []) (calm : state.overlap = false)
    (usable : Usable (pads state index base ways) []) :
    runOps (exec setup) thread (starts.flatMap fun j => [.cnBegin index base ways,
        .cnEnd index j ways]) state =
      { state with
        output := fun j => if ∃ start ∈ starts, start ≤ j ∧ j < start + ways then
          setup.cn index (state.tmp j).toList else state.output j } := by
  induction starts generalizing state with
  | nil => simp [runOps]
  | cons start rest ih =>
    have called : exec setup thread (.cnEnd index start ways)
        (exec setup thread (.cnBegin index base ways) state) =
        { state with
          output := fun j => if start ≤ j ∧ j < start + ways then
            setup.cn index (state.tmp j).toList else state.output j } := by
      have cleared : Function.update (Function.update state.active thread
          (pads state index base ways)) thread [] = state.active := by
        rw [Function.update_idem, idle]
        exact Function.update_eq_self thread _
      simp only [exec, calm, idle, usable, decide_true, Bool.not_true, Bool.or_false,
        Bool.false_eq_true, if_false] at cleared ⊢
      rw [cleared]
    have later := ih { state with
      output := fun j => if start ≤ j ∧ j < start + ways then
        setup.cn index (state.tmp j).toList else state.output j } idle calm usable
    rw [List.flatMap_cons, runOps_append]
    change runOps (exec setup) thread _ (exec setup thread (.cnEnd index start ways)
      (exec setup thread (.cnBegin index base ways) state)) = _
    rw [called, later]
    simp only [Shared.mk.injEq, and_true, true_and]
    funext j
    by_cases here : start ≤ j ∧ j < start + ways
    · simp [here]
    · simp [here]

theorem av_ways {step : Nat} (chosen : step = 1 ∨ step = 2 ∨ step = 4) :
    (setup.av step).ways = step := by
  unfold Setup.av
  cases setup.hasAES <;> rcases chosen with rfl | rfl | rfl <;> rfl

theorem strided_covers {lo hi step : Nat} (positive : 0 < step) (whole : step ∣ hi - lo)
    (ordered : lo ≤ hi) (j : Nat) :
    (∃ start ∈ strided lo hi step, start ≤ j ∧ j < start + step) ↔ lo ≤ j ∧ j < hi := by
  obtain ⟨count, length⟩ := whole
  have calls : (hi - lo + step - 1) / step = count := by
    rw [length]
    apply Nat.div_eq_of_lt_le
    · rw [Nat.mul_comm]
      omega
    · rw [Nat.mul_comm (count + 1), Nat.mul_add, Nat.mul_one]
      omega
  simp only [strided, calls, List.mem_range']
  constructor
  · rintro ⟨start, ⟨i, small, rfl⟩, above, below⟩
    have last : step * (i + 1) ≤ step * count := Nat.mul_le_mul_left step small
    rw [Nat.mul_succ] at last
    omega
  · rintro ⟨above, below⟩
    refine ⟨lo + step * ((j - lo) / step), ⟨(j - lo) / step, ?_, rfl⟩, ?_, ?_⟩
    · exact Nat.div_lt_of_lt_mul (by omega)
    · have := Nat.mul_div_le (j - lo) step
      omega
    · have := Nat.lt_mul_div_succ (j - lo) positive
      rw [Nat.mul_succ] at this
      omega

theorem runOps_chainPart (part : Nat) {step base lo hi : Nat} (input : Source) (state : Shared)
    (chosen : step = 1 ∨ step = 2 ∨ step = 4) (whole : step ∣ hi - lo) (ordered : lo ≤ hi)
    (idle : state.active = fun _ => []) (calm : state.overlap = false)
    (usable : Usable (pads state (setup.cnIndices part) base step) []) :
    ∃ tmp output,
      runOps (exec setup) thread (chainPart setup part step base lo hi input).1 state =
        { state with tmp, output } ∧
      (∀ j, lo ≤ j → j < hi → output j = partHash setup part (inputOf setup state j input) ∧
        tmp j = zeroExtended (output j)) ∧
      ∀ j, ¬ (lo ≤ j ∧ j < hi) → output j = state.output j ∧ tmp j = state.tmp j := by
  have distinct : (lanes lo hi).Nodup := List.nodup_range'
  obtain ⟨tmp, cores, hashed, others⟩ := runOps_corePasses setup thread part distinct
    (List.range 5) input state
  have positive : 0 < step := by omega
  have calls := runOps_calls setup thread (setup.cnIndices part) base step (strided lo hi step)
    { state with tmp } idle calm usable
  simp only [strided_covers positive whole ordered] at calls
  refine ⟨fun j => if j ∈ lanes lo hi then zeroExtended (if lo ≤ j ∧ j < hi then
      setup.cn (setup.cnIndices part) (tmp j).toList else state.output j) else tmp j,
    fun j => if lo ≤ j ∧ j < hi then setup.cn (setup.cnIndices part) (tmp j).toList
      else state.output j, ?_, fun j above below => ?_, fun j outside => ?_⟩
  · simp only [chainPart, runOps_append, cores, cnCalls, av_ways setup chosen, calls, runOps_copies]
  · have member := (mem_lanes ordered).mpr ⟨above, below⟩
    simp only [member, above, below, and_self, if_true, hashed j member (by decide)]
    exact ⟨rfl, trivial⟩
  · have missing : j ∉ lanes lo hi := fun member => outside ((mem_lanes ordered).mp member)
    simp only [missing, outside, if_false, others j missing, and_self]

end Loops

section Scratchpads
variable (setup : Setup) (thread : Bool)

def slotAfter : List Op → Nat → Option Pointer
  | [], _ => none
  | op :: rest, i =>
      match slotAfter rest i with
      | some p => some p
      | none =>
          match op with
          | .allocate k p => if k = i then some p else none
          | _ => none

/-- Every operation assigns the pointer of one of the contexts. -/
def Assigns (contexts : List Nat) (ops : List Op) : Prop :=
  ∀ op ∈ ops, ∃ i ∈ contexts, ∃ p, op = .allocate i p

theorem allocate_assigns (base step size : Nat) (contexts : List Nat) (k : Nat) (p : Pointer) :
    Assigns contexts (allocate base step size contexts k p).1 := by
  induction contexts generalizing k p with
  | nil =>
    intro op member
    cases member
  | cons i rest ih =>
    intro op member
    rcases List.mem_cons.mp member with first | later
    · exact ⟨i, List.mem_cons_self, _, first⟩
    · obtain ⟨other, listed, q, equal⟩ := ih _ _ op later
      exact ⟨other, List.mem_cons_of_mem _ listed, q, equal⟩

theorem Assigns.append {first second : List Nat} {ops more : List Op} (left : Assigns first ops)
    (right : Assigns second more) : Assigns (first ++ second) (ops ++ more) := by
  intro op member
  rcases List.mem_append.mp member with here | there
  · obtain ⟨i, listed, p, equal⟩ := left op here
    exact ⟨i, List.mem_append_left _ listed, p, equal⟩
  · obtain ⟨i, listed, p, equal⟩ := right op there
    exact ⟨i, List.mem_append_right _ listed, p, equal⟩

theorem runOps_assigns {contexts : List Nat} {ops : List Op} (assigns : Assigns contexts ops)
    (state : Shared) :
    ∃ memory, runOps (exec setup) thread ops state = { state with memory } ∧
      (∀ i p, slotAfter ops i = some p → memory i = p) ∧
      ∀ i, slotAfter ops i = none → memory i = state.memory i := by
  induction ops generalizing state with
  | nil =>
    refine ⟨state.memory, rfl, fun _ _ impossible => ?_, fun _ _ => rfl⟩
    cases impossible
  | cons op rest ih =>
    obtain ⟨i, _, p, rfl⟩ := assigns op List.mem_cons_self
    have others : Assigns contexts rest := fun other member =>
      assigns other (List.mem_cons_of_mem _ member)
    obtain ⟨memory, ran, slots, kept⟩ := ih others (exec setup thread (.allocate i p) state)
    refine ⟨memory, ran, fun k q found => ?_, fun k missing => ?_⟩
    · unfold slotAfter at found
      cases later : slotAfter rest k with
      | some r =>
        rw [later] at found
        cases found
        exact slots k q later
      | none =>
        rw [later] at found
        dsimp only at found
        split at found
        · rename_i same
          cases found
          simp only [kept k later, exec, same, Function.update_self]
        · cases found
    · unfold slotAfter at missing
      cases later : slotAfter rest k with
      | some r =>
        rw [later] at missing
        cases missing
      | none =>
        rw [later] at missing
        dsimp only at missing
        split at missing
        · cases missing
        · rename_i other
          simp only [kept k later, exec, Function.update_of_ne (Ne.symm other)]

def padAt (index : Nat) (p : Pointer) : Pad := ⟨p.block, p.offset, cnSizes index⟩

/-- The scratchpads that the assignments give to `ways` contexts from `base` on. -/
def padsAfter (ops : List Op) (index base ways : Nat) : List Pad :=
  (List.range ways).map fun way => padAt index ((slotAfter ops (base + way)).getD ⟨0, 0⟩)

/-- Scratchpads that do not overlap, in four context memories from `base` on. -/
def Placed (pads : List Pad) (base : Nat) : Prop :=
  Usable pads [] ∧ ∀ pad ∈ pads, base ≤ pad.block ∧ pad.block < base + 4

instance (pads : List Pad) (base : Nat) : Decidable (Placed pads base) :=
  inferInstanceAs (Decidable (_ ∧ _))

/-- The assignments give every one of the contexts a scratchpad of its own. -/
def Provides (ops : List Op) (index base ways : Nat) : Prop :=
  (∀ way ∈ List.range ways, (slotAfter ops (base + way)).isSome) ∧
    Placed (padsAfter ops index base ways) base

instance (ops : List Op) (index base ways : Nat) : Decidable (Provides ops index base ways) :=
  inferInstanceAs (Decidable (_ ∧ _))

theorem Provides.placed {ops : List Op} {index base ways : Nat}
    (provides : Provides ops index base ways) (state : Shared)
    (slots : ∀ i p, slotAfter ops i = some p → state.memory i = p) :
    Placed (pads state index base ways) base := by
  have same : pads state index base ways = padsAfter ops index base ways := by
    apply List.map_congr_left
    intro way member
    obtain ⟨p, found⟩ := Option.isSome_iff_exists.mp (provides.1 way member)
    rw [found, slots _ _ found]
    rfl
  rw [same]
  exact provides.2

theorem allocate_provides : ∀ index ∈ List.range 6, ∀ step ∈ [1, 2, 4],
    ∀ range ∈ [(0, 4), (4, 8), (0, 8)],
      Provides (allocate range.1 step (cnSizes index) (lanes range.1 range.2) range.1
        ⟨range.1, 0⟩).1 index range.1 step := by
  decide

theorem allocate_part_provides : ∀ index ∈ List.range 6, ∀ step ∈ [1, 2, 4],
    ∀ n ∈ [4, 8], ∀ base ∈ [0, 4], (base = 4 → n = 4) →
      let first := allocate 0 step (cnSizes index) (lanes 0 n) 0 ⟨0, 0⟩
      let second := allocate 4 step (cnSizes index) (lanes n 8) 4 first.2
      Provides (first.1 ++ second.1) index base step := by
  decide

end Scratchpads

section Ownership
variable (setup : Setup)

/-- An operation on lanes, contexts and context memories of one's own, with scratchpads that do
not overlap. -/
def Fits (mine : Nat → Prop) : Op → Shared → Prop
  | .allocate i _, _ => mine i
  | .core _ _ lane, _ => mine lane
  | .cnBegin index base ways, state =>
      (∀ way, way < ways → mine (base + way)) ∧ Usable (pads state index base ways) [] ∧
        ∀ pad ∈ pads state index base ways, mine pad.block
  | .cnEnd _ lane ways, _ => ∀ j, lane ≤ j → j < lane + ways → mine j
  | .copy lane, _ => mine lane

/-- A thread running alone, within a call or between two. -/
structure Alone (mine : Nat → Prop) (thread : Bool) (state : Shared) : Prop where
  calm : state.overlap = false
  idle : state.active (!thread) = []
  inside : ∀ pad ∈ state.active thread, pad.Inside ∧ mine pad.block
  apart : (state.active thread).Pairwise Pad.Apart

variable {setup} {mine : Nat → Prop} {thread : Bool}

theorem Alone.step {state : Shared} (alone : Alone mine thread state) {op : Op}
    (fits : Fits mine op state) : Alone mine thread (exec setup thread op state) := by
  have other : (!thread) ≠ thread := by cases thread <;> decide
  cases op with
  | allocate | core | copy => exact ⟨alone.calm, alone.idle, alone.inside, alone.apart⟩
  | cnBegin index base ways =>
    obtain ⟨_, usable, blocks⟩ := fits
    constructor
    · simp only [exec, alone.calm, alone.idle, usable, decide_true, Bool.not_true, Bool.or_false]
    · simp only [exec, Function.update_of_ne other, alone.idle]
    · simp only [exec, Function.update_self]
      exact fun pad member => ⟨usable.1 pad member, blocks pad member⟩
    · simp only [exec, Function.update_self]
      exact usable.2.1
  | cnEnd index lane ways =>
    constructor
    · exact alone.calm
    · simp only [exec, Function.update_of_ne other, alone.idle]
    · simp [exec]
    · simp [exec]

/-- Nothing overlaps: the scratchpads in use at the same time are apart and inside the context
memories. -/
structure Safe (state : Shared) : Prop where
  calm : state.overlap = false
  inside : ∀ pad ∈ state.active false ++ state.active true, pad.Inside
  apart : (state.active false ++ state.active true).Pairwise Pad.Apart

theorem Alone.safe {state : Shared} (alone : Alone mine false state) : Safe state := by
  have idle : state.active true = [] := alone.idle
  constructor
  · exact alone.calm
  · rw [idle, List.append_nil]
    exact fun pad member => (alone.inside pad member).1
  · rw [idle, List.append_nil]
    exact alone.apart

theorem Alone.along {state : Shared} (alone : Alone mine false state) {ops : List Op}
    (fits : Along (exec setup) false (Fits mine) ops state) :
    Along (exec setup) false (fun op current => Safe (exec setup false op current)) ops state := by
  induction ops generalizing state with
  | nil => trivial
  | cons op rest ih =>
    have next : Alone mine false (exec setup false op state) := alone.step fits.1
    exact ⟨next.safe, ih next fits.2⟩

/-- Two states agree in one place. -/
def Same (first second : Shared) (i : Nat) : Prop :=
  first.tmp i = second.tmp i ∧ first.output i = second.output i ∧ first.memory i = second.memory i

def side (index : Nat) : Bool := decide (4 ≤ index)

/-- A state of both threads, in two halves that each thread would have reached alone. -/
structure Halves (state : Shared) (alone : Bool → Shared) : Prop where
  same : ∀ i, Same state (alone (side i)) i
  active : ∀ thread, state.active thread = (alone thread).active thread
  calm : state.overlap = false
  each : ∀ thread, Alone (fun index => side index = thread) thread (alone thread)

theorem Pad.apart_of_side {first second : Pad} (different : side first.block ≠ side second.block) :
    first.Apart second := by
  refine .inl fun same => different ?_
  rw [same]

theorem Pad.Apart.symm {first second : Pad} (apart : first.Apart second) :
    second.Apart first := by
  unfold Pad.Apart at *
  omega

theorem Halves.safe {state : Shared} {alone : Bool → Shared} (halves : Halves state alone) :
    Safe state := by
  have lower := halves.each false
  have upper := halves.each true
  constructor
  · exact halves.calm
  · rw [halves.active, halves.active]
    intro pad member
    rcases List.mem_append.mp member with mine | other
    · exact (lower.inside pad mine).1
    · exact (upper.inside pad other).1
  · rw [halves.active, halves.active, List.pairwise_append]
    refine ⟨lower.apart, upper.apart, fun first mine second other => ?_⟩
    apply Pad.apart_of_side
    rw [(lower.inside first mine).2, (upper.inside second other).2]
    decide

variable (setup thread) in
theorem exec_frame {op : Op} {other : Shared} (fits : Fits mine op other) (state : Shared) {i : Nat}
    (foreign : ¬ mine i) : Same (exec setup thread op state) state i := by
  have apart : ∀ {place}, mine place → i ≠ place := by
    intro place owned same
    rw [same] at foreign
    exact foreign owned
  cases op with
  | allocate k p => exact ⟨rfl, rfl, Function.update_of_ne (apart fits) _ _⟩
  | core index input lane => exact ⟨Function.update_of_ne (apart fits) _ _, rfl, rfl⟩
  | cnBegin index base ways => exact ⟨rfl, rfl, rfl⟩
  | cnEnd index lane ways =>
    refine ⟨rfl, if_neg fun here => ?_, rfl⟩
    exact foreign (fits i here.1 here.2)
  | copy lane => exact ⟨Function.update_of_ne (apart fits) _ _, rfl, rfl⟩

theorem exec_agree {op : Op} {state alone : Shared} (fits : Fits mine op alone)
    (same : ∀ i, mine i → Same state alone i) (calm : state.overlap = alone.overlap) {i : Nat}
    (own : mine i) : Same (exec setup thread op state) (exec setup thread op alone) i := by
  obtain ⟨tmp, output, memory⟩ := same i own
  cases op with
  | allocate k p =>
    refine ⟨tmp, output, ?_⟩
    by_cases here : i = k
    · subst here
      simp [exec]
    · simp [exec, here, memory]
  | core index input lane =>
    refine ⟨?_, output, memory⟩
    by_cases here : i = lane
    · subst here
      cases input <;> simp [exec, inputOf, tmp]
    · simp [exec, here, tmp]
  | cnBegin index base ways => exact ⟨tmp, output, memory⟩
  | cnEnd index lane ways =>
    refine ⟨tmp, ?_, memory⟩
    simp only [exec, calm, tmp, output]
  | copy lane =>
    refine ⟨?_, output, memory⟩
    by_cases here : i = lane
    · subst here
      simp [exec, output]
    · simp [exec, here, tmp]

variable (setup thread) in
theorem exec_calls {op : Op} {state alone : Shared} (fits : Fits mine op alone)
    (same : ∀ i, mine i → Same state alone i) (active : state.active thread = alone.active thread)
    (calm : state.overlap = false)
    (foreign : ∀ pad ∈ state.active (!thread), ¬ mine pad.block) :
    (exec setup thread op state).active thread = (exec setup thread op alone).active thread ∧
      (exec setup thread op state).active (!thread) = state.active (!thread) ∧
      (exec setup thread op state).overlap = false := by
  have other : (!thread) ≠ thread := by cases thread <;> decide
  cases op with
  | allocate | core | copy => exact ⟨active, rfl, calm⟩
  | cnBegin index base ways =>
    obtain ⟨contexts, usable, blocks⟩ := fits
    have equal : pads state index base ways = pads alone index base ways := by
      apply List.map_congr_left
      intro way member
      rw [(same _ (contexts way (List.mem_range.mp member))).2.2]
    have free : Usable (pads alone index base ways) (state.active !thread) := by
      refine ⟨usable.1, usable.2.1, fun pad member taken held => .inl fun block => ?_⟩
      apply foreign taken held
      rw [← block]
      exact blocks pad member
    simp only [exec, equal, Function.update_self, Function.update_of_ne other, calm, free,
      decide_true, Bool.not_true, Bool.or_false, and_self]
  | cnEnd index lane ways =>
    simp only [exec, Function.update_self, Function.update_of_ne other, calm, and_self]

variable (setup thread) in
theorem Halves.step {state : Shared} {alone : Bool → Shared} (halves : Halves state alone)
    {op : Op} (fits : Fits (fun index => side index = thread) op (alone thread)) :
    Halves (exec setup thread op state)
      (Function.update alone thread (exec setup thread op (alone thread))) := by
  have mine := halves.each thread
  have same : ∀ i, side i = thread → Same state (alone thread) i := by
    intro i own
    rw [← own]
    exact halves.same i
  have foreign : ∀ pad ∈ state.active (!thread), ¬ side pad.block = thread := by
    intro pad member own
    rw [halves.active] at member
    have owner := ((halves.each _).inside pad member).2
    rw [own] at owner
    cases thread <;> cases owner
  obtain ⟨called, untouched, calm⟩ := exec_calls setup thread fits same (halves.active thread)
    halves.calm foreign
  constructor
  · intro i
    by_cases own : side i = thread
    · rw [own, Function.update_self]
      exact exec_agree fits same (halves.calm.trans mine.calm.symm) own
    · rw [Function.update_of_ne own]
      obtain ⟨tmp, output, memory⟩ := exec_frame setup thread fits state own
      obtain ⟨tmp', output', memory'⟩ := halves.same i
      exact ⟨tmp.trans tmp', output.trans output', memory.trans memory'⟩
  · intro other
    by_cases equal : other = thread
    · subst equal
      rw [Function.update_self]
      exact called
    · have flipped : other = !thread := by cases other <;> cases thread <;> simp_all
      rw [Function.update_of_ne equal, flipped, untouched]
      exact halves.active _
  · exact calm
  · intro other
    by_cases equal : other = thread
    · subst equal
      rw [Function.update_self]
      exact mine.step fits
    · rw [Function.update_of_ne equal]
      exact halves.each other

end Ownership

section Threads
variable (setup : Setup) (thread : Bool) {mine : Nat → Prop}

theorem corePasses_ops (part : Nat) (chosen passes : List Nat) (input : Source) :
    ∀ op ∈ (corePasses setup part chosen passes input).1,
      ∃ index source, ∃ lane ∈ chosen, op = .core index source lane := by
  induction passes generalizing input with
  | nil =>
    intro op member
    cases member
  | cons i rest ih =>
    intro op member
    rcases List.mem_append.mp member with first | later
    · obtain ⟨lane, listed, rfl⟩ := List.mem_map.mp first
      exact ⟨_, _, lane, listed, rfl⟩
    · exact ih .tmp op later

theorem chainPart_fits (part : Nat) {step base lo hi : Nat} (input : Source) {state : Shared}
    (chosen : step = 1 ∨ step = 2 ∨ step = 4) (whole : step ∣ hi - lo) (ordered : lo ≤ hi)
    (owned : ∀ j, lo ≤ j → j < hi → mine j) (contexts : ∀ way, way < step → mine (base + way))
    (blocks : ∀ block, base ≤ block → block < base + 4 → mine block)
    (placed : Placed (pads state (setup.cnIndices part) base step) base) :
    Along (exec setup) thread (Fits mine) (chainPart setup part step base lo hi input).1 state := by
  have lane : ∀ {j}, j ∈ lanes lo hi → mine j := fun member =>
    owned _ ((mem_lanes ordered).mp member).1 ((mem_lanes ordered).mp member).2
  -- only allocations move scratchpads
  apply along_of_invariant
    (fun current => Placed (pads current (setup.cnIndices part) base step) base) _ placed
  intro op member current holds
  simp only [chainPart, List.mem_append, List.mem_map, cnCalls, List.mem_flatMap, List.mem_cons,
    List.not_mem_nil, or_false, av_ways setup chosen] at member
  rcases member with (core | ⟨start, listed, rfl | rfl⟩) | ⟨j, listed, rfl⟩
  · obtain ⟨index, source, j, listed, rfl⟩ := corePasses_ops setup part _ _ _ op core
    exact ⟨lane listed, holds⟩
  · exact ⟨⟨contexts, holds.1, fun pad member =>
      blocks _ (holds.2 pad member).1 (holds.2 pad member).2⟩, holds⟩
  · refine ⟨fun j above below => ?_, holds⟩
    have inside := (strided_covers (by omega) whole ordered j).mp ⟨start, listed, above, below⟩
    exact owned j inside.1 inside.2
  · exact ⟨lane listed, holds⟩

/-- The parts on one lane, from what it starts with and what its output is then. -/
def chainFrom : List Nat → List (BitVec 8) → Vector (BitVec 8) 32 → Vector (BitVec 8) 32
  | [], _, last => last
  | part :: rest, input, _ =>
      chainFrom rest (padded (partHash setup part input)) (partHash setup part input)

theorem toList_zeroExtended (hash : Vector (BitVec 8) 32) :
    (zeroExtended hash).toList = padded hash := by
  change (hash ++ Vector.replicate 32 (0 : BitVec 8)).toList = _
  rw [Vector.toList_append, Vector.toList_replicate, padded]

/-- The lanes of a thread are one of the halves or all of them. -/
def Shape (lo hi : Nat) : Prop := (lo, hi) ∈ [(0, 4), (4, 8), (0, 8)]

instance (lo hi : Nat) : Decidable (Shape lo hi) := inferInstanceAs (Decidable (_ ∈ _))

theorem Shape.bounds {lo hi : Nat} (shape : Shape lo hi) :
    lo + 4 ≤ hi ∧ 1 ∣ hi - lo ∧ 2 ∣ hi - lo ∧ 4 ∣ hi - lo := by
  simp only [Shape, List.mem_cons, Prod.mk.injEq, List.not_mem_nil, or_false] at shape
  rcases shape with ⟨rfl, rfl⟩ | ⟨rfl, rfl⟩ | ⟨rfl, rfl⟩ <;> decide

theorem Shape.whole {lo hi step : Nat} (shape : Shape lo hi)
    (chosen : step = 1 ∨ step = 2 ∨ step = 4) : step ∣ hi - lo := by
  obtain ⟨_, one, two, four⟩ := shape.bounds
  rcases chosen with rfl | rfl | rfl
  · exact one
  · exact two
  · exact four

theorem cnIndices_mem (part : Nat) : setup.cnIndices part ∈ List.range 6 :=
  List.mem_range.mpr (selectIndices_lt (by decide) setup.seed part)

theorem step_mem {step : Nat} (chosen : step = 1 ∨ step = 2 ∨ step = 4) : step ∈ [1, 2, 4] := by
  simpa using chosen

theorem wholeThread_run {step : Nat → Nat}
    (steps : ∀ index, step index = 1 ∨ step index = 2 ∨ step index = 4) {lo hi : Nat}
    (shape : Shape lo hi) (owned : ∀ j, lo ≤ j → j < hi → mine j) (parts : List Nat)
    (input : Source) (state : Shared) (idle : state.active = fun _ => [])
    (calm : state.overlap = false) :
    Along (exec setup) thread (Fits mine) (wholeThread setup step lo lo hi parts input) state ∧
    (runOps (exec setup) thread (wholeThread setup step lo lo hi parts input) state).active =
      (fun _ => []) ∧
    (runOps (exec setup) thread (wholeThread setup step lo lo hi parts input) state).overlap =
      false ∧
    ∀ j, lo ≤ j → j < hi →
      (runOps (exec setup) thread (wholeThread setup step lo lo hi parts input) state).output j =
        chainFrom setup parts (inputOf setup state j input) (state.output j) := by
  induction parts generalizing input state with
  | nil => exact ⟨trivial, idle, calm, fun _ _ _ => rfl⟩
  | cons part rest ih =>
    obtain ⟨wide, _⟩ := shape.bounds
    have ordered : lo ≤ hi := by omega
    have chosen := steps (setup.cnIndices part)
    have assigns := allocate_assigns lo (step (setup.cnIndices part))
      (cnSizes (setup.cnIndices part)) (lanes lo hi) lo ⟨lo, 0⟩
    have provides := allocate_provides (setup.cnIndices part) (cnIndices_mem setup part)
      (step (setup.cnIndices part)) (step_mem chosen) (lo, hi) shape
    obtain ⟨memory, allocated, slots, _⟩ := runOps_assigns setup thread assigns state
    have placed := provides.placed { state with memory } slots
    obtain ⟨tmp, output, hashed, results, _⟩ := runOps_chainPart setup thread part input
      { state with memory } chosen (shape.whole chosen) ordered idle calm placed.1
    have fits := chainPart_fits setup thread part input chosen (shape.whole chosen) ordered owned
      (fun way small => owned _ (by omega) (by omega)) (fun block above below =>
        owned block above (by omega)) placed
    obtain ⟨along, idleEnd, calmEnd, final⟩ := ih .tmp { state with memory, tmp, output } idle calm
    have unfolded : wholeThread setup step lo lo hi (part :: rest) input =
        (allocate lo (step (setup.cnIndices part)) (cnSizes (setup.cnIndices part)) (lanes lo hi)
          lo ⟨lo, 0⟩).1 ++
        (chainPart setup part (step (setup.cnIndices part)) lo lo hi input).1 ++
        wholeThread setup step lo lo hi rest .tmp := by
      rw [← chainPart_next setup part (step (setup.cnIndices part)) lo lo hi input]
      rfl
    rw [unfolded, runOps_append, runOps_append, allocated, hashed]
    refine ⟨?_, idleEnd, calmEnd, fun j above below => ?_⟩
    · apply Along.append
      · apply Along.append
        · apply along_of_invariant (fun _ => True) _ trivial
          intro op member current _
          obtain ⟨i, listed, p, rfl⟩ := assigns op member
          have inside := (mem_lanes ordered).mp listed
          exact ⟨owned i inside.1 inside.2, trivial⟩
        · rw [allocated]
          exact fits
      · rw [runOps_append, allocated, hashed]
        exact along
    · obtain ⟨hash, next⟩ := results j above below
      have input' : inputOf setup { state with memory, tmp, output } j .tmp = padded (output j) := by
        simp only [inputOf, next, toList_zeroExtended]
      have same : inputOf setup { state with memory } j input = inputOf setup state j input := by
        cases input <;> rfl
      rw [final j above below, input']
      change chainFrom setup rest (padded (output j)) (output j) = _
      rw [hash, same]
      rfl

end Threads

section Phases
variable {setup : Setup}

/-- No call is running, and none had to share. -/
structure Quiet (state : Shared) : Prop where
  idle : state.active = fun _ => []
  calm : state.overlap = false

theorem Quiet.alone {state : Shared} (quiet : Quiet state) (mine : Nat → Prop) (thread : Bool) :
    Alone mine thread state := by
  constructor
  · exact quiet.calm
  · rw [quiet.idle]
  · rw [quiet.idle]
    intro pad member
    cases member
  · rw [quiet.idle]
    exact List.Pairwise.nil

theorem halves_splits {start : Shared} (quiet : Quiet start) {main helper : List Op}
    (lower : Along (exec setup) false (Fits fun index => side index = false) main start)
    (upper : Along (exec setup) true (Fits fun index => side index = true) helper start) :
    Splits (exec setup)
      (fun state alone other => Halves state fun thread => if thread then other else alone)
      start main helper := by
  constructor
  · constructor
    · intro i
      cases side i <;> exact ⟨rfl, rfl, rfl⟩
    · intro thread
      cases thread <;> rfl
    · exact quiet.calm
    · intro thread
      cases thread <;> exact quiet.alone _ _
  · intro done op rest past future state split _ halves
    rw [split] at lower
    have next := halves.step setup false lower.middle
    rw [runOps_append]
    convert next using 1
    funext thread
    cases thread <;> rfl
  · intro done rest past op future state _ split halves
    rw [split] at upper
    have next := halves.step setup true upper.middle
    rw [runOps_append]
    convert next using 1
    funext thread
    cases thread <;> rfl

theorem solo_phase {before after : Shared → Prop} {main : List Op}
    (quiet : ∀ start, before start → Quiet start)
    (fits : ∀ start, before start →
      Along (exec setup) false (Fits fun _ => True) main start)
    (ends : ∀ start, before start → after (runOps (exec setup) false main start)) :
    PhaseSpec (exec setup) Safe before after main [] := by
  apply PhaseSpec.solo
  intro start begins
  have alone := (quiet start begins).alone (fun _ => True) false
  exact ⟨alone.safe, alone.along (fits start begins), ends start begins⟩

theorem duo_phase {before after : Shared → Prop} {main helper : List Op}
    (quiet : ∀ start, before start → Quiet start)
    (lower : ∀ start, before start →
      Along (exec setup) false (Fits fun index => side index = false) main start)
    (upper : ∀ start, before start →
      Along (exec setup) true (Fits fun index => side index = true) helper start)
    (ends : ∀ start, before start → ∀ state,
      Halves state (fun thread => if thread then runOps (exec setup) true helper start
        else runOps (exec setup) false main start) → after state) :
    PhaseSpec (exec setup) Safe before after main helper := by
  intro start begins
  refine ⟨_, halves_splits (quiet start begins) (lower start begins) (upper start begins), ?_, ?_⟩
  · intro state alone other halves
    exact halves.safe
  · exact ends start begins

theorem Halves.quiet {state main helper : Shared}
    (halves : Halves state fun thread => if thread then helper else main)
    (mainIdle : main.active = fun _ => []) (helperIdle : helper.active = fun _ => []) :
    Quiet state := by
  refine ⟨?_, halves.calm⟩
  funext thread
  rw [halves.active]
  cases thread
  · exact congrFun mainIdle false
  · exact congrFun helperIdle true

theorem Halves.output {state main helper : Shared}
    (halves : Halves state fun thread => if thread then helper else main) (j : Nat) :
    state.output j = if 4 ≤ j then helper.output j else main.output j := by
  rw [(halves.same j).2.1]
  by_cases upper : 4 ≤ j <;> simp [side, upper]

theorem Halves.tmp {state main helper : Shared}
    (halves : Halves state fun thread => if thread then helper else main) (j : Nat) :
    state.tmp j = if 4 ≤ j then helper.tmp j else main.tmp j := by
  rw [(halves.same j).1]
  by_cases upper : 4 ≤ j <;> simp [side, upper]

structure Hashed (setup : Setup) (state : Shared) : Prop extends Quiet state where
  outputs : ∀ j, j < 8 → state.output j = ghostRider setup (setup.blob j)

theorem wholeThreads_phase {step : Nat → Nat}
    (steps : ∀ index, step index = 1 ∨ step index = 2 ∨ step index = 4) :
    PhaseSpec (exec setup) Safe Quiet (Hashed setup)
      (wholeThread setup step 0 0 4 [0, 1, 2] .data)
      (wholeThread setup step 4 4 8 [0, 1, 2] .data) := by
  have lowerOwn : ∀ j, 0 ≤ j → j < 4 → side j = false := by
    intro j _ below
    simp [side, below]
  have upperOwn : ∀ j, 4 ≤ j → j < 8 → side j = true := by
    intro j above _
    simp [side, above]
  have lower := fun (start : Shared) (quiet : Quiet start) =>
    wholeThread_run setup false steps (by decide : Shape 0 4) lowerOwn [0, 1, 2] .data
      start quiet.idle quiet.calm
  have upper := fun (start : Shared) (quiet : Quiet start) =>
    wholeThread_run setup true steps (by decide : Shape 4 8) upperOwn [0, 1, 2] .data
      start quiet.idle quiet.calm
  apply duo_phase
  · exact fun start quiet => quiet
  · exact fun start quiet => (lower start quiet).1
  · exact fun start quiet => (upper start quiet).1
  · intro start quiet state halves
    obtain ⟨_, mainIdle, _, mainOutput⟩ := lower start quiet
    obtain ⟨_, helperIdle, _, helperOutput⟩ := upper start quiet
    refine ⟨halves.quiet mainIdle helperIdle, fun j small => ?_⟩
    rw [halves.output]
    split
    · rename_i above
      exact helperOutput j above small
    · exact mainOutput j (Nat.zero_le j) (by omega)

/-- All is done, and every context has its memory back. -/
structure Restored (setup : Setup) (state : Shared) : Prop extends Hashed setup state where
  memory : ∀ i, i < 8 → state.memory i = ⟨i, 0⟩

theorem restore_assigns : Assigns (List.range 8) restore := by
  intro op member
  obtain ⟨i, listed, rfl⟩ := List.mem_map.mp member
  exact ⟨i, listed, _, rfl⟩

theorem restore_slots : ∀ i ∈ List.range 8, slotAfter restore i = some ⟨i, 0⟩ := by
  decide

theorem restored_of_hashed {state : Shared} (hashed : Hashed setup state) :
    Restored setup (runOps (exec setup) false restore state) := by
  obtain ⟨memory, ran, slots, _⟩ := runOps_assigns setup false restore_assigns state
  rw [ran]
  refine ⟨⟨⟨hashed.idle, hashed.calm⟩, hashed.outputs⟩, fun i small => ?_⟩
  exact slots i _ (restore_slots i (List.mem_range.mpr small))

theorem assigns_fits {contexts : List Nat} {ops : List Op} (assigns : Assigns contexts ops)
    (state : Shared) : Along (exec setup) false (Fits fun _ => True) ops state := by
  apply along_of_invariant (fun _ => True) _ trivial
  intro op member current _
  obtain ⟨i, _, p, rfl⟩ := assigns op member
  exact ⟨trivial, trivial⟩

theorem restore_phase : PhaseSpec (exec setup) Safe (Hashed setup) (Restored setup) restore [] := by
  apply solo_phase
  · exact fun start hashed => hashed.toQuiet
  · exact fun start _ => assigns_fits restore_assigns start
  · exact fun start hashed => restored_of_hashed hashed

/-- Between two parts: what each lane is hashed from next, and its last hash. -/
structure Stage (setup : Setup) (x : Nat → List (BitVec 8)) (y : Nat → Vector (BitVec 8) 32)
    (input : Source) (state : Shared) : Prop extends Quiet state where
  inputs : ∀ j, j < 8 → inputOf setup state j input = x j
  outputs : ∀ j, j < 8 → state.output j = y j

/-- Scratchpads are placed for the main thread and, in two threads, for the helper. -/
structure Prepared (setup : Setup) (x : Nat → List (BitVec 8)) (y : Nat → Vector (BitVec 8) 32)
    (input : Source) (part step : Nat) (two : Bool) (state : Shared) : Prop
    extends Stage setup x y input state where
  main : Placed (pads state (setup.cnIndices part) 0 step) 0
  helper : two = true → Placed (pads state (setup.cnIndices part) 4 step) 4

variable {x : Nat → List (BitVec 8)} {y : Nat → Vector (BitVec 8) 32}

theorem allocate_phase (part : Nat) (t : AlgoTune) (input : Source) (two : Bool)
    (threads : two = true → t.threads = 2) :
    let first := allocate 0 t.step (cnSizes (setup.cnIndices part)) (lanes 0 (8 / t.threads)) 0 ⟨0, 0⟩
    let second := allocate 4 t.step (cnSizes (setup.cnIndices part)) (lanes (8 / t.threads) 8) 4
      first.2
    PhaseSpec (exec setup) Safe (Stage setup x y input)
      (Prepared setup x y input part t.step two) (first.1 ++ second.1) [] := by
  intro first second
  have assigns := (allocate_assigns 0 t.step (cnSizes (setup.cnIndices part))
    (lanes 0 (8 / t.threads)) 0 ⟨0, 0⟩).append (allocate_assigns 4 t.step
    (cnSizes (setup.cnIndices part)) (lanes (8 / t.threads) 8) 4 first.2)
  have count : 8 / t.threads ∈ [4, 8] := by
    rcases t.threads_mem with one | two <;> simp [*]
  have provides := allocate_part_provides (setup.cnIndices part) (cnIndices_mem setup part)
    t.step (step_mem t.step_mem) (8 / t.threads) count
  apply solo_phase
  · exact fun start stage => stage.toQuiet
  · exact fun start _ => assigns_fits assigns start
  · intro start stage
    obtain ⟨memory, ran, slots, _⟩ := runOps_assigns setup false assigns start
    rw [ran]
    refine ⟨⟨⟨stage.idle, stage.calm⟩, fun j small => ?_, stage.outputs⟩, ?_, fun both => ?_⟩
    · rw [← stage.inputs j small]
      cases input <;> rfl
    · exact (provides 0 (by decide) (by omega)).placed _ slots
    · have four : 8 / t.threads = 4 := by
        rw [threads both]
      exact (provides 4 (by decide) fun _ => four).placed _ slots

theorem solo_part (part : Nat) (t : AlgoTune) (input : Source) {two : Bool} :
    PhaseSpec (exec setup) Safe (Prepared setup x y input part t.step two)
      (Stage setup (fun j => padded (partHash setup part (x j)))
        (fun j => partHash setup part (x j)) .tmp)
      (chainPart setup part t.step 0 0 8 input).1 [] := by
  have whole : t.step ∣ 8 - 0 := Shape.whole (by decide : Shape 0 8) t.step_mem
  apply solo_phase
  · exact fun start prepared => prepared.toQuiet
  · intro start prepared
    exact chainPart_fits setup false part input t.step_mem whole (Nat.zero_le 8)
      (fun _ _ _ => trivial) (fun _ _ => trivial) (fun _ _ _ => trivial) prepared.main
  · intro start prepared
    obtain ⟨tmp, output, ran, results, _⟩ := runOps_chainPart setup false part input start
      t.step_mem whole (Nat.zero_le 8) prepared.idle prepared.calm prepared.main.1
    rw [ran]
    refine ⟨⟨prepared.idle, prepared.calm⟩, fun j small => ?_, fun j small => ?_⟩
    · obtain ⟨hash, next⟩ := results j (Nat.zero_le j) small
      change (tmp j).toList = _
      rw [next, toList_zeroExtended, hash, prepared.inputs j small]
    · rw [← prepared.inputs j small]
      exact (results j (Nat.zero_le j) small).1

theorem duo_part (part : Nat) (t : AlgoTune) (input : Source) :
    PhaseSpec (exec setup) Safe (Prepared setup x y input part t.step true)
      (Stage setup (fun j => padded (partHash setup part (x j)))
        (fun j => partHash setup part (x j)) .tmp)
      (chainPart setup part t.step 0 0 4 input).1 (chainPart setup part t.step 4 4 8 input).1 := by
  have lowerWhole : t.step ∣ 4 - 0 := Shape.whole (by decide : Shape 0 4) t.step_mem
  have upperWhole : t.step ∣ 8 - 4 := Shape.whole (by decide : Shape 4 8) t.step_mem
  have four : t.step ≤ 4 := by
    have := t.step_mem
    omega
  apply duo_phase
  · exact fun start prepared => prepared.toQuiet
  · intro start prepared
    apply chainPart_fits setup false part input t.step_mem lowerWhole (Nat.zero_le 4) _ _ _
      prepared.main
    · intro j _ below
      simp [side, below]
    · intro way small
      simp only [side, decide_eq_false_iff_not]
      omega
    · intro block _ below
      simp only [side, decide_eq_false_iff_not]
      omega
  · intro start prepared
    apply chainPart_fits setup true part input t.step_mem upperWhole (by decide) _ _ _
      (prepared.helper rfl)
    · intro j above _
      simp [side, above]
    · intro way _
      simp [side]
    · intro block above _
      simp [side, above]
  · intro start prepared state halves
    obtain ⟨tmp, output, ran, results, _⟩ := runOps_chainPart setup false part input start
      t.step_mem lowerWhole (Nat.zero_le 4) prepared.idle prepared.calm prepared.main.1
    obtain ⟨tmp', output', ran', results', _⟩ := runOps_chainPart setup true part input start
      t.step_mem upperWhole (by decide) prepared.idle prepared.calm (prepared.helper rfl).1
    rw [ran, ran'] at halves
    have each : ∀ j, j < 8 → state.output j = partHash setup part (x j) ∧
        state.tmp j = zeroExtended (state.output j) := by
      intro j small
      rw [halves.output, halves.tmp, ← prepared.inputs j small]
      by_cases above : 4 ≤ j
      · simp only [above, if_true]
        exact results' j above small
      · simp only [above, if_false]
        exact results j (Nat.zero_le j) (by omega)
    refine ⟨halves.quiet prepared.idle prepared.idle, fun j small => ?_, fun j small => ?_⟩
    · change (state.tmp j).toList = _
      rw [(each j small).2, toList_zeroExtended, (each j small).1]
    · exact (each j small).1

theorem partPhases_outline (tune : Nat → AlgoTune) (helper : Bool) (parts : List Nat)
    (x : Nat → List (BitVec 8)) (y : Nat → Vector (BitVec 8) 32) (input : Source) :
    ∃ x' input', Outline (exec setup) Safe (Stage setup x y input)
      (partPhases setup tune helper parts input)
      (Stage setup x' (fun j => chainFrom setup parts (x j) (y j)) input') := by
  induction parts generalizing x y input with
  | nil => exact ⟨x, input, .done fun _ stage => stage⟩
  | cons part rest ih =>
    obtain ⟨x', input', later⟩ := ih (fun j => padded (partHash setup part (x j)))
      (fun j => partHash setup part (x j)) .tmp
    refine ⟨x', input', ?_⟩
    unfold partPhases
    by_cases two : (helper && decide ((tune (setup.cnIndices part)).threads = 2)) = true
    · have threads : (tune (setup.cnIndices part)).threads = 2 := by
        simp only [Bool.and_eq_true, decide_eq_true_eq] at two
        exact two.2
      simp only [two, if_true, chainPart_next]
      exact .phase (allocate_phase part _ input true fun _ => threads)
        (.phase (duo_part part _ input) later)
    · simp only [two, chainPart_next]
      exact .phase (allocate_phase part _ input false fun impossible => by cases impossible)
        (.phase (solo_part part _ input) later)

end Phases

section Main

/-- What the shared memory is at the start: every context has its own memory. -/
structure Begins (state : Shared) : Prop extends Quiet state where
  memory : ∀ i, i < 8 → state.memory i = ⟨i, 0⟩

variable (setup : Setup)

theorem stepTable_mem (arm : Bool) (index : Nat) :
    stepTable arm index = 1 ∨ stepTable arm index = 2 ∨ stepTable arm index = 4 := by
  unfold stepTable
  cases arm
  · match index with
    | 0 | 1 | 2 | 3 | 4 | 5 => decide
    | _ + 6 => exact .inl rfl
  · match index with
    | 0 | 1 | 2 | 3 | 4 | 5 => decide
    | _ + 6 => exact .inl rfl

/-- Every path, whatever the outputs are at the start. -/
theorem hashOcta_outline (build : Build) (y : Nat → Vector (BitVec 8) 32) :
    Outline (exec setup) Safe (Stage setup setup.blob y .data) (hashOcta setup build)
      (Restored setup) := by
  cases build with
  | plain arm =>
    have ran := fun (start : Shared) (stage : Stage setup setup.blob y .data start) =>
      wholeThread_run setup false (stepTable_mem arm) (by decide : Shape 0 8)
        (fun _ _ _ => trivial : ∀ j, 0 ≤ j → j < 8 → (fun _ => True) j) [0, 1, 2] .data start
        stage.idle stage.calm
    refine .phase (solo_phase ?_ ?_ ?_) (.done fun _ restored => restored)
    · exact fun start stage => stage.toQuiet
    · exact fun start stage => (ran start stage).1.append (assigns_fits restore_assigns _)
    · intro start stage
      obtain ⟨_, idle, calm, outputs⟩ := ran start stage
      rw [runOps_append]
      apply restored_of_hashed
      refine ⟨⟨idle, calm⟩, fun j small => ?_⟩
      exact outputs j (Nat.zero_le j) small
  | hwloc helper =>
    unfold hashOcta hashOctaHwloc
    dsimp only
    split
    · refine .phase (fun start stage => ?_) (.phase restore_phase (.done fun _ restored => restored))
      exact wholeThreads_phase (fun index => (setup.tune helper index).step_mem) start stage.toQuiet
    · obtain ⟨x', input', parts⟩ := partPhases_outline (setup.tune helper) helper.isSome [0, 1, 2]
        setup.blob y .data
      refine parts.append (.phase (fun state stage => ?_) (.done fun _ restored => restored))
      exact restore_phase state ⟨stage.toQuiet, stage.outputs⟩

/-- Every path of `hash_octa`, in every interleaving with a helper: the indices are permutations,
scratchpads in use at the same time are apart and inside the context memories, the call neither
stops before its end nor goes on for ever, every lane ends with the hash of its blob, and every
context has its memory back. -/
theorem hashOcta_correct (build : Build) (start : Shared) (begins : Begins start)
    (config : ForkJoin Shared Op)
    (reached : Relation.ReflTransGen (ForkJoin.Step (exec setup)) ⟨hashOcta setup build, start⟩
      config) :
    (selectIndices 15 setup.seed).Perm (List.range 15) ∧
    (selectIndices 6 setup.seed).Perm (List.range 6) ∧
    Safe config.state ∧
    (config.phases = [] ∨ ∃ next, ForkJoin.Step (exec setup) config next) ∧
    (∀ next, ForkJoin.Step (exec setup) config next → next.remaining < config.remaining) ∧
    (config.phases = [] →
      (∀ j, j < 8 → config.state.output j = ghostRider setup (setup.blob j)) ∧
      ∀ i, i < 8 → config.state.memory i = start.memory i) := by
  have stage : Stage setup setup.blob start.output .data start :=
    ⟨begins.toQuiet, fun _ _ => rfl, fun _ _ => rfl⟩
  have safeEnd : ∀ state, Restored setup state → Safe state := fun state restored =>
    (restored.toQuiet.alone (fun _ => True) false).safe
  obtain ⟨safe, final⟩ := (hashOcta_outline setup build start.output).sound safeEnd stage reached
  refine ⟨selectIndices_perm (by decide) _, selectIndices_perm (by decide) _, safe,
    ForkJoin.progress (exec setup) config, fun next step => ?_, fun finished => ?_⟩
  · rw [step.remaining]
    exact Nat.lt_succ_self _
  have restored := final finished
  refine ⟨restored.outputs, fun i small => ?_⟩
  rw [restored.memory i small, begins.memory i small]

/-- A run with a helper, to its end: two variants of CryptoNight in quadruple form and the one
with 2 MB in single form. -/
theorem hashOcta_correct_helper :
    let hash : List (BitVec 8) → BitVec 8 := fun x => x.foldl (fun sum byte => sum * 31 + byte) 7
    let tune : Nat → AlgoTune := fun index =>
      if index = 2 then ⟨1, 2, .inl rfl, .inr rfl⟩ else ⟨4, 2, .inr (.inr rfl), .inr rfl⟩
    let setup : Setup :=
      { core := fun index x => Vector.replicate 64 (hash x + BitVec.ofNat 8 index)
        cn := fun index x => Vector.replicate 32 (hash x - BitVec.ofNat 8 index)
        spoiled := fun _ => Vector.replicate 32 0
        data := (List.range 640).map (BitVec.ofNat 8), size := 80, hasAES := true
        tuneDefault := tune, tune8MB := tune }
    ∃ state, Relation.ReflTransGen (ForkJoin.Step (exec setup))
        ⟨hashOcta setup (.hwloc (some false)), ⟨fun _ => Vector.replicate 64 0,
          fun _ => Vector.replicate 32 0, fun i => ⟨i, 0⟩, fun _ => [], false⟩⟩ ⟨[], state⟩ ∧
      ∀ j, j < 8 → state.output j = ghostRider setup (setup.blob j) := by
  intro hash tune setup
  obtain ⟨state, reached⟩ := ForkJoin.finishes (exec setup)
    ⟨hashOcta setup (.hwloc (some false)), ⟨fun _ => Vector.replicate 64 0,
      fun _ => Vector.replicate 32 0, fun i => ⟨i, 0⟩, fun _ => [], false⟩⟩
  refine ⟨state, reached, ?_⟩
  exact ((hashOcta_correct setup (.hwloc (some false)) _ ⟨⟨rfl, rfl⟩, fun _ _ => rfl⟩ _
    reached).2.2.2.2.2 rfl).1

end Main

end Xmrig.GhostRider
