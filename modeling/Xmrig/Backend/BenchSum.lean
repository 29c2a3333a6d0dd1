import Mathlib.Algebra.BigOperators.Group.Finset.Piecewise
import Mathlib.Algebra.Order.BigOperators.Group.Finset
import Mathlib.Algebra.Order.Ring.Nat
import Mathlib.Data.List.Perm.Basic
import Xmrig.Backend.BenchRounds

/-! The sum of a benchmark does not depend on the schedule.

Each nonce below the counter is owed by exactly one worker or was added once. When the last worker is done no nonce
below the size is owed any more.
-/

set_option autoImplicit false

namespace Foundation

section Shares
variable {α : Type} {members : Nat}

theorem sum_of_changed (share : Nat → α → Nat) (state : Nat → α) (after : α) {index : Nat} (inside : index < members) :
    (∑ i ∈ Finset.range members, share i (Function.update state index after i)) + share index (state index) =
      (∑ i ∈ Finset.range members, share i (state i)) + share index after := by
  have member := Finset.mem_range.mpr inside
  rw [← Finset.add_sum_erase _ _ member,
    ← Finset.add_sum_erase (Finset.range members) (fun i => share i (state i)) member, Function.update_self]
  have rest : ∑ i ∈ (Finset.range members).erase index, share i (Function.update state index after i) =
      ∑ i ∈ (Finset.range members).erase index, share i (state i) := by
    apply Finset.sum_congr rfl
    intro i kept
    rw [Function.update_of_ne (Finset.ne_of_mem_erase kept)]
  rw [rest]
  omega

end Shares

end Foundation

namespace Xmrig

open Foundation

namespace BenchRun
variable {hasher : Hasher} {bench : Bench} {state after : BenchRun hasher}

def done (bench : Bench) (workers : Nat → CpuWorker hasher) : Nat :=
  ∑ index ∈ Finset.range bench.threads, if (workers index).stage = .finished then 1 else 0

def debts (bench : Bench) (workers : Nat → CpuWorker hasher) (nonce : BitVec 32) : Nat :=
  ∑ index ∈ Finset.range bench.threads, ((workers index).owed bench (bench.config index).lanes).count nonce

def counter (state : BenchRun hasher) : Nat := (state.shared.nonce.nonces userIndex).toNat

structure Sound (bench : Bench) (state : BenchRun hasher) : Prop where
  offered : state.shared.job = bench.job ∧ state.shared.benchSize = bench.size
  bound : state.counter ≤ 2 ^ 32
  placed : ∀ index < bench.threads, (state.workers index).Placed bench (bench.config index).lanes state.counter
  counts : ∀ nonce < bench.size, (state.added.map Prod.fst).count nonce + debts bench state.workers nonce =
    if nonce.toNat < state.counter then 1 else 0
  own : ∀ entry ∈ state.added, entry.1 < bench.size ∧ entry.2 = bench.value hasher entry.1
  data : state.shared.data = (state.added.map Prod.snd).foldl (· ^^^ ·) 0
  remaining : state.shared.remaining.toNat + done bench state.workers = bench.threads
  sends : state.shared.sends = if 0 < bench.threads ∧ done bench state.workers = bench.threads then 1 else 0

/-- There is a nonce left where the next step takes one. -/
def Room (bench : Bench) (state : BenchRun hasher) : BenchEvent → Prop
  | .work index _ => (state.workers index).Takes (bench.config index) → state.counter < 2 ^ 32
  | _ => True

instance (bench : Bench) (state : BenchRun hasher) : (event : BenchEvent) → Decidable (state.Room bench event)
  | .work index _ =>
    inferInstanceAs (Decidable ((state.workers index).Takes (bench.config index) → state.counter < 2 ^ 32))
  | .touch | .pause _ => .isTrue trivial

theorem start_sound (few : bench.threads < 2 ^ 32) (machines : Nat → hasher.Machine) :
    (start bench machines).Sound bench where
  offered := ⟨rfl, rfl⟩
  bound := Nat.zero_le _
  placed index _ := .inl ⟨rfl, rfl⟩
  counts nonce _ := by
    have none : ∀ index, ((start bench machines).workers index).owed bench (bench.config index).lanes = [] :=
      fun index => if_neg bench.job_ne
    unfold debts
    simp only [none, List.count_nil, Finset.sum_const_zero]
    exact (if_neg (Nat.not_lt_zero _)).symm
  own entry member := by cases member
  data := rfl
  remaining := by
    have none : done bench (start bench machines).workers = 0 := Finset.sum_eq_zero fun index _ => rfl
    rw [none]
    exact Nat.mod_eq_of_lt few
  sends := by
    have none : done bench (start bench machines).workers = 0 := Finset.sum_eq_zero fun index _ => rfl
    rw [none, if_neg (by omega)]
    rfl

theorem done_le (bench : Bench) (workers : Nat → CpuWorker hasher) : done bench workers ≤ bench.threads := by
  have each : done bench workers ≤ ∑ index ∈ Finset.range bench.threads, 1 :=
    Finset.sum_le_sum fun index _ => by split <;> omega
  simpa using each

theorem done_eq_iff (bench : Bench) (workers : Nat → CpuWorker hasher) :
    done bench workers = bench.threads ↔ ∀ index < bench.threads, (workers index).stage = .finished := by
  have counted : done bench workers =
      ((Finset.range bench.threads).filter fun index => (workers index).stage = .finished).card :=
    (Finset.card_filter _ _).symm
  have all :=
    @Finset.card_filter_eq_iff _ (Finset.range bench.threads) (fun index => (workers index).stage = .finished) _
  rw [Finset.card_range] at all
  rw [counted, all]
  simp only [Finset.mem_range]

theorem Sound.environment (sound : state.Sound bench) {nonce : Nonce}
    (kept : nonce.nonces = state.shared.nonce.nonces) :
    Sound bench { state with shared := { state.shared with nonce } } := by
  have counter : counter { state with shared := { state.shared with nonce } } = state.counter := by
    unfold BenchRun.counter
    dsimp only
    rw [kept]
  exact ⟨sound.offered, counter ▸ sound.bound, counter ▸ sound.placed, counter ▸ sound.counts, sound.own, sound.data,
    sound.remaining, sound.sends⟩

theorem Sound.work (sound : state.Sound bench) (several : bench.threads ≠ 1) {index random : Nat}
    (inside : index < bench.threads) (room : state.Room bench (.work index random)) {worker : CpuWorker hasher}
    {shared : CpuShared} {outputs : List CpuOutput}
    (stepped : (state.workers index).step (bench.config index) state.shared random = some (worker, shared, outputs)) :
    Sound bench
      { workers := Function.update state.workers index worker
        shared
        added := state.added ++ (state.workers index).adds (bench.config index) } := by
  have booked := CpuWorker.step_booked index random several (sound.placed index inside) sound.offered sound.bound room
    stepped
  have same := CpuWorker.step_shared stepped
  have going : (state.workers index).stage ≠ .finished := by
    intro finished
    unfold CpuWorker.step at stepped
    rw [finished] at stepped
    cases stepped
  have finishes := sum_of_changed (fun _ (worker : CpuWorker hasher) => if worker.stage = .finished then 1 else 0)
    state.workers worker inside
  rw [if_neg going, Nat.add_zero] at finishes
  change done bench (Function.update state.workers index worker) = done bench state.workers + _ at finishes
  have most := done_le bench (Function.update state.workers index worker)
  have remaining := sound.remaining
  refine ⟨⟨same.1.trans sound.offered.1, same.2.trans sound.offered.2⟩, booked.bound, ?_, ?_, ?_, ?_, ?_, ?_⟩
  · intro other below
    dsimp only
    by_cases here : other = index
    · subst here
      rw [Function.update_self]
      exact booked.placed
    · rw [Function.update_of_ne here]
      exact (sound.placed other below).mono booked.grows
  · intro nonce small
    have moved := sum_of_changed
      (fun i (worker : CpuWorker hasher) => (worker.owed bench (bench.config i).lanes).count nonce)
      state.workers worker inside
    have before := sound.counts nonce small
    have step := booked.counts nonce small
    change debts bench (Function.update state.workers index worker) nonce +
        ((state.workers index).owed bench (bench.config index).lanes).count nonce =
      debts bench state.workers nonce + (worker.owed bench (bench.config index).lanes).count nonce at moved
    rw [List.map_append, List.count_append]
    change _ + debts bench (Function.update state.workers index worker) nonce =
      if nonce.toNat < (shared.nonce.nonces userIndex).toNat then 1 else 0
    change _ = if nonce.toNat < (state.shared.nonce.nonces userIndex).toNat then 1 else 0 at before
    omega
  · intro entry member
    rcases List.mem_append.mp member with old | new
    · exact sound.own entry old
    · exact booked.own entry new
  · rw [List.map_append, List.foldl_append, ← sound.data]
    exact booked.data
  · rcases booked.signals with ⟨finished, left, -⟩ | ⟨other, left, -⟩
    · rw [if_pos finished] at finishes
      change shared.remaining.toNat + done bench (Function.update state.workers index worker) = bench.threads
      rw [left]
      change (state.shared.remaining - 1).toNat + _ = _
      rw [BitVec.toNat_sub]
      change (2 ^ 32 - 1 + state.shared.remaining.toNat) % 2 ^ 32 + _ = _
      have small := state.shared.remaining.isLt
      omega
    · rw [if_neg other] at finishes
      change shared.remaining.toNat + done bench (Function.update state.workers index worker) = bench.threads
      rw [left]
      omega
  · have pending : state.shared.sends = 0 := by
      rw [sound.sends]
      apply if_neg
      rintro ⟨-, all⟩
      exact going ((done_eq_iff bench state.workers).mp all index inside)
    change shared.sends =
      if 0 < bench.threads ∧ done bench (Function.update state.workers index worker) = bench.threads then 1 else 0
    rcases booked.signals with ⟨finished, left, sends⟩ | ⟨other, left, sends⟩
    · rw [if_pos finished] at finishes
      rw [sends]
      change (if state.shared.remaining - 1 = 0 then state.shared.sends + 1 else state.shared.sends) = _
      rw [pending]
      have last : state.shared.remaining - 1 = 0 ↔
          0 < bench.threads ∧ done bench (Function.update state.workers index worker) = bench.threads := by
        rw [← BitVec.toNat_inj, BitVec.toNat_sub]
        change (2 ^ 32 - 1 + state.shared.remaining.toNat) % 2 ^ 32 = 0 ↔ _
        have small := state.shared.remaining.isLt
        omega
      exact if_congr last rfl rfl
    · rw [if_neg other] at finishes
      rw [sends, sound.sends]
      apply if_congr _ rfl rfl
      rw [finishes, Nat.add_zero]

theorem step_sound (several : bench.threads ≠ 1) {event : BenchEvent} (sound : state.Sound bench)
    (room : state.Room bench event) (stepped : state.step bench event = some after) : after.Sound bench := by
  cases event with
  | work index random =>
    simp only [step] at stepped
    split at stepped
    · rename_i inside
      obtain ⟨⟨worker, shared, outputs⟩, worked, rfl⟩ := Option.map_eq_some_iff.mp stepped
      exact sound.work several inside room worked
    · cases stepped
  | touch =>
    cases stepped
    exact sound.environment rfl
  | pause paused =>
    cases stepped
    exact sound.environment rfl

/-! ## The sum -/

theorem foldl_xor_perm {first second : List (BitVec 64)} (perm : first.Perm second) (seed : BitVec 64) :
    first.foldl (· ^^^ ·) seed = second.foldl (· ^^^ ·) seed := by
  apply perm.foldl_eq'
  intro a _ b _ sum
  rw [BitVec.xor_assoc, BitVec.xor_comm a b, BitVec.xor_assoc]

end BenchRun

section Finished
variable {hasher : Hasher} {bench : Bench} {worker : CpuWorker hasher} {lanes counter : Nat}

theorem CpuWorker.owed_of_finished (placed : worker.Placed bench lanes counter) (finished : worker.stage = .finished)
    {nonce : BitVec 32} (small : nonce < bench.size) : (worker.owed bench lanes).count nonce = 0 := by
  simp only [Placed, finished] at placed
  obtain ⟨full, reached⟩ := placed
  rw [owed_of_between (by rw [finished]; rfl), if_pos full.loaded.job]
  apply List.count_eq_zero_of_not_mem
  intro member
  obtain ⟨lane, inside, rfl⟩ := List.mem_map.mp member
  have first := (full.ordered lane (List.mem_range.mp inside)).1
  rw [BitVec.lt_def] at small
  rw [BitVec.le_def] at reached
  omega

theorem CpuWorker.counter_of_finished (placed : worker.Placed bench lanes counter) (finished : worker.stage = .finished)
    (positive : 0 < lanes) : bench.size.toNat < counter := by
  simp only [Placed, finished] at placed
  obtain ⟨full, reached⟩ := placed
  have taken := (full.ordered 0 positive).2
  rw [BitVec.le_def] at reached
  omega

theorem Bench.mem_nonces (bench : Bench) (nonce : BitVec 32) : nonce ∈ bench.nonces ↔ nonce < bench.size := by
  rw [BitVec.lt_def]
  constructor
  · intro member
    obtain ⟨number, inside, rfl⟩ := List.mem_map.mp member
    have small := List.mem_range.mp inside
    rw [BitVec.toNat_ofNat]
    exact Nat.lt_of_le_of_lt (Nat.mod_le _ _) small
  · intro small
    exact List.mem_map.mpr ⟨nonce.toNat, List.mem_range.mpr small, BitVec.ofNat_toNat 32 nonce⟩

theorem Bench.nodup_nonces (bench : Bench) : bench.nonces.Nodup := by
  apply List.Nodup.map_on _ List.nodup_range
  intro first below second under same
  have size := bench.size.isLt
  have numbers := congrArg BitVec.toNat same
  rw [BitVec.toNat_ofNat, BitVec.toNat_ofNat, Nat.mod_eq_of_lt, Nat.mod_eq_of_lt] at numbers
  · exact numbers
  · exact Nat.lt_trans (List.mem_range.mp under) size
  · exact Nat.lt_trans (List.mem_range.mp below) size

end Finished

namespace BenchRun
variable {hasher : Hasher} {bench : Bench} {state : BenchRun hasher}

theorem Sound.sends_eq_one (sound : state.Sound bench) :
    state.shared.sends = 1 ↔ 0 < bench.threads ∧ state.Finished bench := by
  rw [sound.sends, Finished, ← done_eq_iff]
  split
  · rename_i all
    exact iff_of_true rfl all
  · rename_i notAll
    exact iff_of_false (by decide) notAll

/-- When all are done, each nonce of the benchmark was added exactly once. -/
theorem Sound.count_of_finished (sound : state.Sound bench) (some : 0 < bench.threads) (finished : state.Finished bench)
    {nonce : BitVec 32} (small : nonce < bench.size) : (state.added.map Prod.fst).count nonce = 1 := by
  have settled : debts bench state.workers nonce = 0 := by
    apply Finset.sum_eq_zero
    intro index inside
    have inside := Finset.mem_range.mp inside
    exact CpuWorker.owed_of_finished (sound.placed index inside) (finished index inside) small
  have behind := CpuWorker.counter_of_finished (sound.placed 0 some) (finished 0 some) (bench.config 0).positive
  have counted := sound.counts nonce small
  rw [BitVec.lt_def] at small
  rw [settled, if_pos (by omega)] at counted
  exact counted

theorem Sound.perm_of_finished (sound : state.Sound bench) (some : 0 < bench.threads)
    (finished : state.Finished bench) :
    (state.added.map Prod.fst).Perm bench.nonces := by
  have small : ∀ nonce ∈ state.added.map Prod.fst, nonce < bench.size := by
    intro nonce member
    obtain ⟨entry, added, rfl⟩ := List.mem_map.mp member
    exact (sound.own entry added).1
  have once : (state.added.map Prod.fst).Nodup := by
    rw [List.nodup_iff_count_le_one]
    intro nonce
    by_cases member : nonce ∈ state.added.map Prod.fst
    · exact (sound.count_of_finished some finished (small nonce member)).le
    · rw [List.count_eq_zero_of_not_mem member]
      exact Nat.zero_le 1
  rw [List.perm_ext_iff_of_nodup once bench.nodup_nonces]
  intro nonce
  rw [bench.mem_nonces]
  constructor
  · exact small nonce
  · intro inside
    rw [← List.count_pos_iff, sound.count_of_finished some finished inside]
    exact Nat.one_pos

theorem Sound.correct (sound : state.Sound bench) : bench.Correct state where
  once := by
    rw [sound.sends]
    split <;> omega
  last := sound.sends_eq_one
  each sent :=
    have all := sound.sends_eq_one.mp sent
    sound.perm_of_finished all.1 all.2
  own entry member := (sound.own entry member).2
  result sent := by
    have all := sound.sends_eq_one.mp sent
    have values : state.added.map Prod.snd = (state.added.map Prod.fst).map (bench.value hasher) := by
      rw [List.map_map]
      exact List.map_congr_left fun entry member => (sound.own entry member).2
    rw [sound.data, values, Bench.sum]
    exact foldl_xor_perm ((sound.perm_of_finished all.1 all.2).map _) 0

/-- With any number of workers but one, the sum is that of all nonces in every run in which no worker asks for a nonce
when all were handed out. -/
theorem sum_of_every_schedule (bench : Bench) (several : bench.threads ≠ 1) (few : bench.threads < 2 ^ 32)
    (machines : Nat → hasher.Machine) (events : List BenchEvent)
    (room : Guarded (step bench) (fun state event => state.Room bench event) (start bench machines) events) :
    Throughout (step bench) bench.Correct (start bench machines) events :=
  throughout_of_guarded (fun _ sound => sound.correct)
    (fun _ _ _ sound allowed stepped => step_sound several sound allowed stepped) (start_sound few machines) room

end BenchRun

/-! ## A run of two workers -/

def Job.squared (job : Job) (input : List Byte) : BitVec 256 :=
  let nonce := (job.nonceIn input).toNat
  BitVec.ofNat 256 (nonce * nonce + 5) <<< 192

def pairHasher : Hasher where
  Machine := List Byte
  first _ _ input := input
  next job machine input := (job.squared machine, input)
  randomX := Job.squared
  direct := Job.squared
  sign _ _ _ := Vector.replicate 64 0
  Ready job input machine := job.squared machine = job.squared input
  first_ready _ _ _ := rfl
  next_output _ _ _ _ ready := ready
  next_ready _ _ _ _ _ := rfl

def pairBench : Bench where
  job := { algorithm := .rx0, blob := List.replicate 112 0, target := 1, diff := 1 }
  size := 3
  intensities := [1, 1]
  positive := by decide
  sized := by decide
  known := by decide
  narrow := by decide
  open_ := rfl
  unsigned := rfl
  own := rfl
  unassigned := rfl

def pairStart : BenchRun pairHasher := BenchRun.start pairBench fun _ => []

def pairEvents : List BenchEvent :=
  .pause false :: works 0 8 ++ works 1 8 ++ works 0 3 ++ works 1 4 ++ [.touch] ++ works 1 9 ++ works 0 17

theorem pairEvents_room :
    Guarded (BenchRun.step pairBench) (fun state event => state.Room pairBench event) pairStart pairEvents := by
  decide +kernel

theorem pairEvents_run : (run (BenchRun.step pairBench) pairStart pairEvents).isSome = true := by decide +kernel

theorem sum_of_pair :
    ∃ final, run (BenchRun.step pairBench) pairStart pairEvents = some final ∧ final.shared.sends = 1 ∧
      final.shared.data = pairBench.sum pairHasher := by
  have executed := (Option.some_get pairEvents_run).symm
  have sent : ((run (BenchRun.step pairBench) pairStart pairEvents).get pairEvents_run).shared.sends = 1 := by
    decide +kernel
  have always : Throughout (BenchRun.step pairBench) pairBench.Correct pairStart pairEvents :=
    @BenchRun.sum_of_every_schedule pairHasher pairBench (by decide) (by decide) (fun _ => []) pairEvents
      pairEvents_room
  exact ⟨_, executed, sent, (throughout_last always executed).result sent⟩

end Xmrig
