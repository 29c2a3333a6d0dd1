import Xmrig.Foundation.Run
import Mathlib.Data.List.Basic
import Mathlib.Logic.Function.Basic
import Mathlib.Tactic.Common

/-! The failover strategy over a list of pools.

A pool is a client of which the strategy sees the callbacks and which it tells to connect
or to disconnect; the last such command is recorded for every pool. A client reports
in any order and as often as it likes, also after a disconnect.
-/

set_option autoImplicit false

namespace Xmrig

open Foundation

inductive Command where
  | connect
  | disconnect
  deriving DecidableEq, Repr

structure FailoverStrategy where
  index : Nat := 0
  active : Int := -1
  /-- What each pool was told last; nothing of the strategy reads it. -/
  commanded : Nat → Option Command := fun _ => none

namespace FailoverStrategy

/-- The callbacks of the strategy's listener. -/
inductive Output where
  | onActive (client : Nat)
  | onPause
  | onJob (client : Nat)
  deriving DecidableEq, Repr

inductive Event (n : Nat) where
  | connect
  | resume
  | stop
  | tick
  | onClose (client : Fin n) (failures : Int)
  | onJobReceived (client : Fin n)
  | onLoginSuccess (client : Fin n)
  deriving DecidableEq, Repr

def isActive (strategy : FailoverStrategy) : Bool := 0 ≤ strategy.active

section Step
variable (n : Nat) (retries : Int)

/-- A call on `m_pools[i]`; no result outside of the vector. -/
def tell (strategy : FailoverStrategy) (i : Nat) (command : Command) : Option FailoverStrategy :=
  if i < n then some { strategy with commanded := Function.update strategy.commanded i (some command) }
  else none

def connect (strategy : FailoverStrategy) : Option FailoverStrategy :=
  strategy.tell n strategy.index .connect

/-- `pool->disconnect()` on the pools of a loop, except for one. -/
def disconnectOthers (strategy : FailoverStrategy) (active : Int) (pools : List Nat) : FailoverStrategy :=
  pools.foldl (fun s (i : Nat) => if active ≠ i then
    { s with commanded := Function.update s.commanded i (some .disconnect) } else s) strategy

def stop (strategy : FailoverStrategy) : FailoverStrategy × List Output :=
  ({ strategy.disconnectOthers (-1) (List.range n) with index := 0, active := -1 }, [.onPause])

def resume (strategy : FailoverStrategy) : Option (FailoverStrategy × List Output) :=
  if strategy.isActive = false then some (strategy, [])
  else if strategy.active.toNat < n then some (strategy, [.onJob strategy.active.toNat])
  else none

def onClose (strategy : FailoverStrategy) (client : Nat) (failures : Int) :
    Option (FailoverStrategy × List Output) :=
  if failures = -1 then some (strategy, [])
  else
    let paused := strategy.active = client
    let output := if paused then [Output.onPause] else []
    let strategy := if paused then { strategy with active := -1 } else strategy
    if strategy.index = 0 ∧ failures < retries then some (strategy, output)
    else if strategy.index = client ∧ 1 < n - strategy.index then
      ({ strategy with index := strategy.index + 1 }.connect n).map (·, output)
    else some (strategy, output)

def onJobReceived (strategy : FailoverStrategy) (client : Nat) : FailoverStrategy × List Output :=
  (strategy, if strategy.active = client then [.onJob client] else [])

def onLoginSuccess (strategy : FailoverStrategy) (client : Nat) : FailoverStrategy × List Output :=
  let active : Int := if client = 0 ∨ strategy.isActive = false then client else strategy.active
  let strategy := strategy.disconnectOthers active (List.range' 1 (n - 1))
  if 0 ≤ active ∧ active ≠ strategy.active then
    ({ strategy with index := active.toNat, active }, [.onActive client])
  else (strategy, [])

/-- One call; `tick` only passes the time on to the clients. -/
def step (strategy : FailoverStrategy) : Event n → Option (FailoverStrategy × List Output)
  | .connect => (strategy.connect n).map (·, [])
  | .resume => strategy.resume n
  | .stop => some (strategy.stop n)
  | .tick => some (strategy, [])
  | .onClose client failures => strategy.onClose n retries client failures
  | .onJobReceived client => some (strategy.onJobReceived client)
  | .onLoginSuccess client => some (strategy.onLoginSuccess n client)

def move (strategy : FailoverStrategy) (event : Event n) : Option FailoverStrategy :=
  (strategy.step n retries event).map Prod.fst

end Step

/-- What the strategy keeps track of. -/
structure Bookkeeping (n : Nat) (strategy : FailoverStrategy) : Prop where
  index : strategy.index < n
  active : strategy.active = -1 ∨ ∃ i < n, strategy.active = i
  current : 0 ≤ strategy.active → (strategy.index : Int) = strategy.active
  others : 0 ≤ strategy.active → ∀ i < n, i ≠ 0 → (i : Int) ≠ strategy.active →
    strategy.commanded i ≠ some .connect

/-- What the listener is told in a step. -/
structure Reported (before after : FailoverStrategy) (output : List Output) : Prop where
  job : ∀ i : Nat, .onJob i ∈ output → before.active = i ∧ after.active = i
  active : ∀ i : Nat, .onActive i ∈ output ↔ after.active = i ∧ before.active ≠ i
  once : output.length ≤ 1

variable {n : Nat} {strategy : FailoverStrategy}

theorem disconnectOthers_index (active : Int) (pools : List Nat) :
    (strategy.disconnectOthers active pools).index = strategy.index ∧
      (strategy.disconnectOthers active pools).active = strategy.active := by
  induction pools generalizing strategy with
  | nil => exact ⟨rfl, rfl⟩
  | cons i rest ih =>
    unfold disconnectOthers at ih ⊢
    rw [List.foldl_cons]
    split
    · exact ih
    · exact ih

theorem disconnectOthers_commanded (active : Int) (pools : List Nat) (i : Nat) :
    (strategy.disconnectOthers active pools).commanded i =
      if i ∈ pools ∧ active ≠ i then some .disconnect else strategy.commanded i := by
  induction pools generalizing strategy with
  | nil => simp [disconnectOthers]
  | cons j rest ih =>
    unfold disconnectOthers at ih ⊢
    rw [List.foldl_cons, ih]
    by_cases later : i ∈ rest ∧ active ≠ i
    · rw [if_pos later, if_pos ⟨List.mem_cons_of_mem j later.1, later.2⟩]
    · rw [if_neg later]
      by_cases here : i = j
      · subst here
        by_cases other : active ≠ i
        · simp [other]
        · simp [other]
      · have same : (i ∈ j :: rest ∧ active ≠ i) ↔ (i ∈ rest ∧ active ≠ i) := by simp [here]
        rw [if_neg (mt same.mp later)]
        split
        · exact Function.update_of_ne here _ _
        · rfl

theorem reported_nil {after : FailoverStrategy} (same : after.active = strategy.active) :
    Reported strategy after [] := by
  refine ⟨nofun, fun i => ?_, Nat.zero_le 1⟩
  rw [same]
  constructor
  · exact nofun
  · intro moved
    exact absurd moved.1 moved.2

theorem reported_pause {after : FailoverStrategy} (lost : after.active = -1) :
    Reported strategy after [.onPause] := by
  refine ⟨by simp, fun i => ?_, Nat.le_refl 1⟩
  rw [lost]
  simp only [List.mem_singleton, reduceCtorEq, false_iff]
  rintro ⟨same, _⟩
  omega

theorem connect_kept (kept : Bookkeeping n strategy) :
    ∃ after, strategy.connect n = some after ∧ after.active = strategy.active ∧ Bookkeeping n after := by
  refine ⟨_, if_pos kept.index, rfl, ⟨kept.index, kept.active, kept.current, fun up i bound first other => ?_⟩⟩
  have apart : i ≠ strategy.index := by
    rintro rfl
    exact other (kept.current up)
  change Function.update _ _ _ i ≠ _
  rw [Function.update_of_ne apart]
  exact kept.others up i bound first other

theorem stop_kept (pos : 0 < n) : Bookkeeping n (strategy.stop n).1 :=
  ⟨pos, .inl rfl, nofun, nofun⟩

theorem bookkeeping_idle {after : FailoverStrategy} (index : after.index < n) (idle : after.active = -1) :
    Bookkeeping n after := by
  refine ⟨index, .inl idle, fun up => ?_, fun up => ?_⟩
  · rw [idle] at up; omega
  · rw [idle] at up; omega

/-- What `onClose` leaves behind the first test. -/
theorem paused_kept (kept : Bookkeeping n strategy) (client : Nat) :
    Bookkeeping n (if strategy.active = client then { strategy with active := -1 } else strategy) ∧
      (if strategy.active = client then { strategy with active := -1 } else strategy).active ≠ client ∧
      ∀ after : FailoverStrategy, after.active =
          (if strategy.active = client then { strategy with active := -1 } else strategy).active →
        Reported strategy after (if strategy.active = client then [.onPause] else []) := by
  split
  · exact ⟨bookkeeping_idle kept.index rfl, nofun, fun after lost => reported_pause lost⟩
  · rename_i other
    exact ⟨kept, other, fun after same => reported_nil same⟩

theorem onClose_kept (retries : Int) (kept : Bookkeeping n strategy) (client : Nat) (failures : Int) :
    ∃ after output, strategy.onClose n retries client failures = some (after, output) ∧
      Bookkeeping n after ∧ Reported strategy after output := by
  simp only [onClose]
  split
  · exact ⟨_, _, rfl, kept, reported_nil rfl⟩
  · obtain ⟨still, apart, told⟩ := paused_kept kept client
    generalize (if strategy.active = client then { strategy with active := -1 } else strategy) = paused
      at still apart told ⊢
    split
    · exact ⟨_, _, rfl, still, told _ rfl⟩
    · split
      · rename_i last
        -- the index leaves the pool that is not active, so none is
        have idle : paused.active = -1 := by
          rcases still.active with idle | ⟨i, _, here⟩
          · exact idle
          · have index := still.current (by omega)
            omega
        have moved : Bookkeeping n { paused with index := paused.index + 1 } :=
          bookkeeping_idle (show paused.index + 1 < n by omega) idle
        obtain ⟨after, connected, same, next⟩ := connect_kept moved
        rw [connected]
        exact ⟨_, _, rfl, next, told _ same⟩
      · exact ⟨_, _, rfl, still, told _ rfl⟩

theorem onJobReceived_reported (client : Nat) :
    Reported strategy (strategy.onJobReceived client).1 (strategy.onJobReceived client).2 := by
  simp only [onJobReceived]
  split
  · rename_i here
    refine ⟨fun i told => ?_, fun i => ?_, Nat.le_refl 1⟩
    · cases List.mem_singleton.mp told
      exact ⟨here, here⟩
    · simp
  · exact reported_nil rfl

theorem onLoginSuccess_kept (kept : Bookkeeping n strategy) {client : Nat} (bound : client < n) :
    Bookkeeping n (strategy.onLoginSuccess n client).1 ∧
      Reported strategy (strategy.onLoginSuccess n client).1 (strategy.onLoginSuccess n client).2 := by
  simp only [onLoginSuccess]
  generalize chosen : (if client = 0 ∨ strategy.isActive = false then (client : Int) else strategy.active) = active
  have valid : active = client ∨ (0 ≤ strategy.active ∧ active = strategy.active) := by
    rw [← chosen]
    split
    · exact .inl rfl
    · rename_i later
      simp only [isActive, not_or, decide_eq_false_iff_not, not_not] at later
      exact .inr ⟨later.2, rfl⟩
  obtain ⟨index, same⟩ := strategy.disconnectOthers_index active (List.range' 1 (n - 1))
  have told (i : Nat) (inside : i < n) (first : i ≠ 0) (other : (i : Int) ≠ active) :
      (strategy.disconnectOthers active (List.range' 1 (n - 1))).commanded i = some .disconnect := by
    rw [disconnectOthers_commanded, if_pos]
    exact ⟨List.mem_range'_1.mpr (by omega), other.symm⟩
  rw [same]
  split
  · rename_i moved
    have here : active = client := by
      rcases valid with here | ⟨_, stays⟩
      · exact here
      · exact absurd stays moved.2
    subst here
    refine ⟨⟨?_, .inr ⟨client, bound, rfl⟩, fun _ => rfl, fun _ i inside first other => ?_⟩, ?_⟩
    · exact bound
    · rw [told i inside first other]
      exact nofun
    · refine ⟨by simp, fun i => ?_, Nat.le_refl 1⟩
      simp only [List.mem_singleton, Output.onActive.injEq]
      constructor
      · rintro rfl
        exact ⟨rfl, fun stays => moved.2 stays.symm⟩
      · intro new
        exact Int.ofNat.inj new.1.symm
  · rename_i stays
    have settled : active = strategy.active := by
      rcases valid with here | ⟨_, here⟩
      · by_contra moved
        exact stays ⟨by omega, moved⟩
      · exact here
    refine ⟨⟨?_, ?_, ?_, ?_⟩, reported_nil same⟩
    · rw [index]; exact kept.index
    · rw [same]; exact kept.active
    · rw [index, same]; exact kept.current
    · rw [same]
      intro _ i inside first other
      rw [told i inside first (settled ▸ other)]
      exact nofun

theorem step_kept (retries : Int) (pos : 0 < n) (kept : Bookkeeping n strategy) (event : Event n) :
    ∃ after output, strategy.step n retries event = some (after, output) ∧
      Bookkeeping n after ∧ Reported strategy after output := by
  cases event with
  | connect =>
    obtain ⟨after, connected, same, next⟩ := connect_kept kept
    refine ⟨after, [], ?_, next, reported_nil same⟩
    simp only [step, connected, Option.map_some]
  | resume =>
    simp only [step, resume]
    split
    · exact ⟨_, _, rfl, kept, reported_nil rfl⟩
    · rename_i up
      simp only [isActive, decide_eq_false_iff_not, not_not] at up
      rcases kept.active with idle | ⟨i, inside, here⟩
      · omega
      · rw [if_pos (by omega)]
        refine ⟨_, _, rfl, kept, ⟨fun j told => ?_, fun j => by simp, Nat.le_refl 1⟩⟩
        cases List.mem_singleton.mp told
        omega
  | stop => exact ⟨_, _, rfl, stop_kept pos, reported_pause rfl⟩
  | tick => exact ⟨_, _, rfl, kept, reported_nil rfl⟩
  | onClose client failures => exact onClose_kept retries kept client failures
  | onJobReceived client => exact ⟨_, _, rfl, kept, onJobReceived_reported client⟩
  | onLoginSuccess client => exact ⟨_, _, rfl, onLoginSuccess_kept kept client.isLt⟩

/-- The books are right in every state that is reached, and from there every call tells the
listener what it has to. -/
theorem failover_bookkeeping (pos : 0 < n) (retries : Int) (events : List (Event n)) :
    ∃ final, run (move n retries) {} events = some final ∧ Bookkeeping n final ∧
      ∀ event, ∃ after output, final.step n retries event = some (after, output) ∧
        Reported final after output := by
  have reached (strategy : FailoverStrategy) (kept : Bookkeeping n strategy) :
      ∃ final, run (move n retries) strategy events = some final ∧ Bookkeeping n final := by
    induction events generalizing strategy with
    | nil => exact ⟨strategy, rfl, kept⟩
    | cons event rest ih =>
      obtain ⟨after, output, stepped, next, _⟩ := step_kept retries pos kept event
      obtain ⟨final, executed, last⟩ := ih after next
      refine ⟨final, run_cons_iff.mpr ⟨after, ?_, executed⟩, last⟩
      simp only [move, stepped, Option.map_some]
  obtain ⟨final, executed, kept⟩ := reached {} (bookkeeping_idle pos rfl)
  refine ⟨final, executed, kept, fun event => ?_⟩
  obtain ⟨after, output, stepped, _, told⟩ := step_kept retries pos kept event
  exact ⟨after, output, stepped, told⟩

/-- Two pools. The first one does not answer, the second one logs in, then the first one. -/
def lateFirstPool : List (Event 2) :=
  [.connect, .onClose ⟨0, Nat.zero_lt_two⟩ 5, .onLoginSuccess ⟨1, Nat.one_lt_two⟩,
    .onLoginSuccess ⟨0, Nat.zero_lt_two⟩]

theorem failover_bookkeeping_lateFirstPool :
    ∃ final, run (move 2 5) {} lateFirstPool = some final ∧ Bookkeeping 2 final ∧
      ∀ event, ∃ after output, final.step 2 5 event = some (after, output) ∧ Reported final after output :=
  failover_bookkeeping Nat.zero_lt_two 5 lateFirstPool

end FailoverStrategy

end Xmrig
