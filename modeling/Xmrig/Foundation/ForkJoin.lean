import Mathlib.Data.List.Basic
import Mathlib.Logic.Relation

/-! Two threads that run in phases.

In each phase a main thread and a helper run a list of operations each, in any
interleaving; the next phase starts when both lists are done. A phase is proved
by a relation that splits every intermediate state into a state of the main
thread running alone and one of the helper running alone.
-/

set_option autoImplicit false

namespace Foundation

universe u v

variable {State : Type u} {Op : Type v}

/-- What is left of each phase, and the state. -/
structure ForkJoin (State : Type u) (Op : Type v) where
  phases : List (List Op × List Op)
  state : State

variable (exec : Bool → Op → State → State)

namespace ForkJoin

inductive Step : ForkJoin State Op → ForkJoin State Op → Prop where
  | main (op : Op) (main helper : List Op) (later : List (List Op × List Op)) (state : State) :
      Step ⟨(op :: main, helper) :: later, state⟩ ⟨(main, helper) :: later, exec false op state⟩
  | helper (op : Op) (main helper : List Op) (later : List (List Op × List Op)) (state : State) :
      Step ⟨(main, op :: helper) :: later, state⟩ ⟨(main, helper) :: later, exec true op state⟩
  | join (later : List (List Op × List Op)) (state : State) :
      Step ⟨([], []) :: later, state⟩ ⟨later, state⟩

theorem progress (config : ForkJoin State Op) :
    config.phases = [] ∨ ∃ next, Step exec config next := by
  obtain ⟨phases, state⟩ := config
  cases phases with
  | nil => exact .inl rfl
  | cons phase later =>
    obtain ⟨main, helper⟩ := phase
    cases main with
    | cons op main => exact .inr ⟨_, Step.main op main helper later state⟩
    | nil =>
      cases helper with
      | cons op helper => exact .inr ⟨_, Step.helper op [] helper later state⟩
      | nil => exact .inr ⟨_, Step.join later state⟩

def remaining (config : ForkJoin State Op) : Nat :=
  config.phases.foldr (fun phase later => phase.1.length + phase.2.length + 1 + later) 0

theorem Step.remaining {config next : ForkJoin State Op} (step : Step exec config next) :
    config.remaining = next.remaining + 1 := by
  cases step <;> simp only [ForkJoin.remaining, List.foldr_cons, List.length_cons,
    List.length_nil] <;> omega

theorem finishes (config : ForkJoin State Op) :
    ∃ state, Relation.ReflTransGen (Step exec) config ⟨[], state⟩ := by
  generalize left : config.remaining = count
  induction count generalizing config with
  | zero =>
    obtain ⟨phases, state⟩ := config
    cases phases with
    | nil => exact ⟨state, .refl⟩
    | cons phase later => simp [ForkJoin.remaining] at left
  | succ count ih =>
    rcases progress exec config with finished | ⟨next, step⟩
    · simp [ForkJoin.remaining, finished] at left
    · obtain ⟨state, rest⟩ := ih next (by have := step.remaining; omega)
      exact ⟨state, .head step rest⟩

end ForkJoin

section Sequential
variable (thread : Bool)

def runOps (ops : List Op) (state : State) : State :=
  ops.foldl (fun current op => exec thread op current) state

theorem runOps_append (first second : List Op) (state : State) :
    runOps exec thread (first ++ second) state =
      runOps exec thread second (runOps exec thread first state) :=
  List.foldl_append

/-- The operation is allowed in the state where one thread alone would perform it. -/
def Along (allowed : Op → State → Prop) : List Op → State → Prop
  | [], _ => True
  | op :: rest, state => allowed op state ∧ Along allowed rest (exec thread op state)

variable {exec thread}

theorem Along.append {allowed : Op → State → Prop} {first second : List Op} {state : State}
    (before : Along exec thread allowed first state)
    (after : Along exec thread allowed second (runOps exec thread first state)) :
    Along exec thread allowed (first ++ second) state := by
  induction first generalizing state with
  | nil => exact after
  | cons op rest ih => exact ⟨before.1, ih before.2 after⟩

theorem Along.middle {allowed : Op → State → Prop} {first rest : List Op} {op : Op} {state : State}
    (along : Along exec thread allowed (first ++ op :: rest) state) :
    allowed op (runOps exec thread first state) := by
  induction first generalizing state with
  | nil => exact along.1
  | cons earlier first ih => exact ih along.2

theorem along_of_invariant {allowed : Op → State → Prop} (invariant : State → Prop) {ops : List Op}
    (each : ∀ op ∈ ops, ∀ state, invariant state →
      allowed op state ∧ invariant (exec thread op state))
    {state : State} (holds : invariant state) : Along exec thread allowed ops state := by
  induction ops generalizing state with
  | nil => trivial
  | cons op rest ih =>
    obtain ⟨first, next⟩ := each op List.mem_cons_self state holds
    exact ⟨first, ih (fun other member => each other (List.mem_cons_of_mem _ member)) next⟩

end Sequential

section Phases

/-- `R state alone other`: what the main thread and the helper would have reached alone. -/
structure Splits (R : State → State → State → Prop) (start : State) (main helper : List Op) :
    Prop where
  begins : R start start start
  main_step : ∀ done op rest past future state, main = done ++ op :: rest →
    helper = past ++ future →
    R state (runOps exec false done start) (runOps exec true past start) →
    R (exec false op state) (runOps exec false (done ++ [op]) start)
      (runOps exec true past start)
  helper_step : ∀ done rest past op future state, main = done ++ rest →
    helper = past ++ op :: future →
    R state (runOps exec false done start) (runOps exec true past start) →
    R (exec true op state) (runOps exec false done start)
      (runOps exec true (past ++ [op]) start)

/-- A phase that is safe throughout and leads from one condition to another. -/
def PhaseSpec (Safe before after : State → Prop) (main helper : List Op) : Prop :=
  ∀ start, before start → ∃ R, Splits exec R start main helper ∧
    (∀ state alone other, R state alone other → Safe state) ∧
    ∀ state, R state (runOps exec false main start) (runOps exec true helper start) → after state

inductive Outline (Safe : State → Prop) :
    (State → Prop) → List (List Op × List Op) → (State → Prop) → Prop where
  | done {before after : State → Prop} (implies : ∀ state, before state → after state) :
      Outline Safe before [] after
  | phase {before middle after : State → Prop} {main helper : List Op}
      {later : List (List Op × List Op)} (first : PhaseSpec exec Safe before middle main helper)
      (rest : Outline Safe middle later after) : Outline Safe before ((main, helper) :: later) after

/-- A configuration inside one of the phases of an outline. -/
inductive Covered (Safe after : State → Prop) : ForkJoin State Op → Prop where
  | finished (state : State) (final : after state) : Covered Safe after ⟨[], state⟩
  | inside (R : State → State → State → Prop) (start state : State)
      (done rest past future : List Op) (later : List (List Op × List Op))
      (middle : State → Prop)
      (splits : Splits exec R start (done ++ rest) (past ++ future))
      (safe : ∀ state alone other, R state alone other → Safe state)
      (leads : ∀ state, R state (runOps exec false (done ++ rest) start)
        (runOps exec true (past ++ future) start) → middle state)
      (current : R state (runOps exec false done start) (runOps exec true past start))
      (outline : Outline exec Safe middle later after) :
      Covered Safe after ⟨(rest, future) :: later, state⟩

variable {exec} {Safe before after : State → Prop}

theorem Outline.append {middle : State → Prop}
    {first second : List (List Op × List Op)} (left : Outline exec Safe before first middle)
    (right : Outline exec Safe middle second after) :
    Outline exec Safe before (first ++ second) after := by
  induction left with
  | done implies =>
    cases right with
    | done further => exact .done fun state holds => further state (implies state holds)
    | phase spec rest =>
      exact .phase (fun state holds => spec state (implies state holds)) rest
  | phase spec _ ih => exact .phase spec (ih right)

theorem Outline.covers {phases : List (List Op × List Op)}
    (outline : Outline exec Safe before phases after) {state : State} (start : before state) :
    Covered exec Safe after ⟨phases, state⟩ := by
  cases outline with
  | done implies => exact .finished state (implies state start)
  | phase first rest =>
    obtain ⟨R, splits, safe, leads⟩ := first state start
    exact .inside R state state [] _ [] _ _ _ splits safe leads splits.begins rest

theorem Covered.step {config next : ForkJoin State Op}
    (covered : Covered exec Safe after config) (step : ForkJoin.Step exec config next) :
    Covered exec Safe after next := by
  cases covered with
  | finished state final => cases step
  | inside R start state done rest past future later middle splits safe leads current outline =>
    cases step with
    | main op main =>
      have moved := splits.main_step done op main past future state rfl rfl current
      rw [List.append_cons] at splits leads
      exact .inside R start _ (done ++ [op]) main past future later middle splits safe leads moved
        outline
    | helper op main helper =>
      have moved := splits.helper_step done rest past op helper state rfl rfl current
      rw [List.append_cons past] at splits leads
      exact .inside R start _ done rest (past ++ [op]) helper later middle splits safe leads moved
        outline
    | join =>
      rw [List.append_nil, List.append_nil] at leads
      exact outline.covers (leads state current)

theorem Outline.sound {phases : List (List Op × List Op)}
    (outline : Outline exec Safe before phases after) (safeEnd : ∀ state, after state → Safe state)
    {start : State} (begins : before start) {config : ForkJoin State Op}
    (reached : Relation.ReflTransGen (ForkJoin.Step exec) ⟨phases, start⟩ config) :
    Safe config.state ∧ (config.phases = [] → after config.state) := by
  have covered : Covered exec Safe after config := by
    induction reached with
    | refl => exact outline.covers begins
    | tail _ step ih => exact ih.step step
  cases covered with
  | finished state final => exact ⟨safeEnd state final, fun _ => final⟩
  | inside R start state done rest past future later middle splits safe leads current outline =>
    exact ⟨safe state _ _ current, fun impossible => by cases impossible⟩

theorem PhaseSpec.solo {main : List Op}
    (alone : ∀ start, before start → Safe start ∧
      Along exec false (fun op state => Safe (exec false op state)) main start ∧
      after (runOps exec false main start)) : PhaseSpec exec Safe before after main [] := by
  intro start begins
  obtain ⟨safe, along, ends⟩ := alone start begins
  refine ⟨fun state alone _ => state = alone ∧ Safe state, ⟨⟨rfl, safe⟩, ?_, ?_⟩, ?_, ?_⟩
  · intro done op rest past future state split _ current
    rw [split] at along
    rw [current.1, runOps_append]
    exact ⟨rfl, along.middle⟩
  · intro done rest past op future state _ split
    exact absurd split.symm (by simp)
  · intro state alone other current
    exact current.2
  · intro state current
    rw [current.1]
    exact ends

end Phases

end Foundation
