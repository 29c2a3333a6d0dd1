import Mathlib.Logic.Basic

/-! Finite runs of a partial step function under an event schedule.

An event carries every choice the environment makes, so a step is a function
and a run is a fold over the schedule. A guard says which event may be taken in
which state. Invariants are proved once per step and lifted to whole runs here.
-/

set_option autoImplicit false

namespace Foundation

universe u v

section Runs
variable {State : Type u} {Event : Type v}

/-- Execute a schedule; a step that is not enabled stops the run without a result. -/
def run (step : State → Event → Option State) : State → List Event → Option State
  | state, [] => some state
  | state, event :: rest => (step state event).bind fun next => run step next rest

/-- Every event of the schedule is taken in a state where the guard allows it. -/
def Guarded (step : State → Event → Option State) (guard : State → Event → Prop) :
    State → List Event → Prop
  | _, [] => True
  | state, event :: rest =>
      guard state event ∧ ∀ next, step state event = some next → Guarded step guard next rest

/-- The property holds in every state that the run reaches. -/
def Throughout (step : State → Event → Option State) (P : State → Prop) :
    State → List Event → Prop
  | state, [] => P state
  | state, event :: rest =>
      P state ∧ ∀ next, step state event = some next → Throughout step P next rest

variable {step : State → Event → Option State} {guard : State → Event → Prop}

@[simp] theorem run_nil (state : State) : run step state [] = some state := rfl

theorem run_cons_iff {state final : State} {event : Event} {rest : List Event} :
    run step state (event :: rest) = some final ↔
      ∃ next, step state event = some next ∧ run step next rest = some final := by
  simp only [run, Option.bind_eq_some_iff]

theorem run_append (state : State) (first second : List Event) :
    run step state (first ++ second) = (run step state first).bind fun middle =>
      run step middle second := by
  induction first generalizing state with
  | nil => rfl
  | cons event rest ih =>
    simp only [List.cons_append, run]
    cases step state event with
    | none => rfl
    | some next => exact ih next

theorem guarded_cons_of_some {state next : State} {event : Event} {rest : List Event}
    (stepped : step state event = some next) :
    Guarded step guard state (event :: rest) ↔ guard state event ∧ Guarded step guard next rest := by
  constructor
  · exact fun allowed => ⟨allowed.1, allowed.2 next stepped⟩
  · rintro ⟨first, later⟩
    refine ⟨first, fun other moved => ?_⟩
    rw [stepped] at moved
    cases moved
    exact later

theorem guarded_cons_of_none {state : State} {event : Event} {rest : List Event}
    (stuck : step state event = none) :
    Guarded step guard state (event :: rest) ↔ guard state event := by
  refine ⟨fun allowed => allowed.1, fun first => ⟨first, fun other moved => ?_⟩⟩
  rw [stuck] at moved
  cases moved

instance decidableGuarded [∀ state event, Decidable (guard state event)] :
    (state : State) → (events : List Event) → Decidable (Guarded step guard state events)
  | _, [] => .isTrue trivial
  | state, event :: rest =>
      match stepped : step state event with
      | none => decidable_of_iff _ (guarded_cons_of_none stepped).symm
      | some next =>
          have := decidableGuarded next rest
          decidable_of_iff _ (guarded_cons_of_some stepped).symm

theorem guarded_of_mem {allowed : Event → Prop} {events : List Event}
    (each : ∀ event ∈ events, allowed event) (state : State) :
    Guarded step (fun _ event => allowed event) state events := by
  induction events generalizing state with
  | nil => trivial
  | cons event rest ih =>
    refine ⟨each event (by simp), fun next _ => ih ?_ next⟩
    exact fun other member => each other (List.mem_cons_of_mem _ member)

theorem run_invariant {P : State → Prop}
    (preserved : ∀ state event next, P state → guard state event →
      step state event = some next → P next)
    {state final : State} {events : List Event} (start : P state)
    (allowed : Guarded step guard state events) (executed : run step state events = some final) :
    P final := by
  induction events generalizing state with
  | nil => cases executed; exact start
  | cons event rest ih =>
    obtain ⟨next, stepped, executed⟩ := run_cons_iff.mp executed
    exact ih (preserved state event next start allowed.1 stepped) (allowed.2 next stepped) executed

theorem run_keeps {P : State → Prop}
    (preserved : ∀ state event next, P state → step state event = some next → P next)
    {state final : State} {events : List Event} (start : P state)
    (executed : run step state events = some final) : P final :=
  run_invariant (fun state event next holds _ stepped => preserved state event next holds stepped)
    start (guarded_of_mem (fun _ _ => trivial) state) executed

theorem run_repeat {P : Nat → State → Prop} {block : List Event} (count : Nat)
    (round : ∀ done state, done < count → P done state → ∃ next, run step state block = some next ∧ P (done + 1) next)
    {state : State} (start : P 0 state) :
    ∃ final, run step state (List.replicate count block).flatten = some final ∧ P count final := by
  induction count with
  | zero => exact ⟨state, rfl, start⟩
  | succ count ih =>
    obtain ⟨middle, executed, reached⟩ := ih fun done other small => round done other (Nat.lt_succ_of_lt small)
    obtain ⟨final, last, arrived⟩ := round count middle (Nat.lt_succ_self count) reached
    refine ⟨final, ?_, arrived⟩
    rw [List.replicate_succ', List.flatten_append, run_append, executed, Option.bind_some, List.flatten_singleton,
      last]

theorem throughout_head {P : State → Prop} {state : State} {events : List Event}
    (holds : Throughout step P state events) : P state := by
  cases events with
  | nil => exact holds
  | cons event rest => exact holds.1

theorem throughout_last {P : State → Prop} {state final : State} {events : List Event}
    (holds : Throughout step P state events) (executed : run step state events = some final) :
    P final := by
  induction events generalizing state with
  | nil => cases executed; exact holds
  | cons event rest ih =>
    obtain ⟨next, stepped, executed⟩ := run_cons_iff.mp executed
    exact ih (holds.2 next stepped) executed

theorem throughout_of_guarded {P Inv : State → Prop} (good : ∀ state, Inv state → P state)
    (preserved : ∀ state event next, Inv state → guard state event →
      step state event = some next → Inv next)
    {state : State} {events : List Event} (start : Inv state) (allowed : Guarded step guard state events) :
    Throughout step P state events := by
  induction events generalizing state with
  | nil => exact good state start
  | cons event rest ih =>
    refine ⟨good state start, fun next stepped => ?_⟩
    exact ih (preserved state event next start allowed.1 stepped) (allowed.2 next stepped)

/-- Where an allowed step keeps the invariant behind a property and any other step breaks the
property at once, the property holds throughout exactly the allowed runs. -/
theorem throughout_iff_guarded {P Inv : State → Prop} (good : ∀ state, Inv state → P state)
    (preserved : ∀ state event next, Inv state → guard state event →
      step state event = some next → Inv next)
    (broken : ∀ state event next, Inv state → ¬guard state event →
      step state event = some next → ¬P next)
    {state final : State} {events : List Event} (start : Inv state)
    (executed : run step state events = some final) :
    Throughout step P state events ↔ Guarded step guard state events := by
  induction events generalizing state with
  | nil => exact ⟨fun _ => trivial, fun _ => good state start⟩
  | cons event rest ih =>
    obtain ⟨next, stepped, executed⟩ := run_cons_iff.mp executed
    rw [guarded_cons_of_some stepped]
    constructor
    · rintro ⟨_, later⟩
      have holds := later next stepped
      have allowed : guard state event := Classical.byContradiction fun refused =>
        broken state event next start refused stepped (throughout_head holds)
      exact ⟨allowed, (ih (preserved state event next start allowed stepped) executed).mp holds⟩
    · rintro ⟨allowed, later⟩
      refine ⟨good state start, fun other moved => ?_⟩
      rw [stepped] at moved
      cases moved
      exact (ih (preserved state event next start allowed stepped) executed).mpr later

end Runs

end Foundation
