import Mathlib.Logic.Basic

/-! Programs over an interface of operations, executed by a handler.

A program is a finite tree of operations; the handler gives each operation its
meaning on a state and may stop the execution with a reason. What a handler does
in one operation is lifted here to whole programs, and two handlers that agree
until a recorded event are compared on every program at once.
-/

set_option autoImplicit false

namespace Foundation

structure Interface where
  Op : Type
  Reply : Op → Type

inductive Program (I : Interface) (A : Type) where
  | done (value : A)
  | call (op : I.Op) (next : I.Reply op → Program I A)

namespace Program

variable {I : Interface} {A B : Type}

def bind : Program I A → (A → Program I B) → Program I B
  | done value, after => after value
  | call op next, after => call op fun reply => bind (next reply) after

instance : Monad (Program I) where
  pure := done
  bind := bind

def perform (op : I.Op) : Program I (I.Reply op) := call op done

/-- Every operation that the program can perform satisfies the predicate. -/
def All (allowed : I.Op → Prop) : Program I A → Prop
  | done _ => True
  | call op next => allowed op ∧ ∀ reply, All allowed (next reply)

variable {allowed : I.Op → Prop}

@[simp] theorem all_pure (value : A) : All allowed (pure value : Program I A) := trivial

@[simp] theorem all_perform {op : I.Op} : All allowed (perform op) ↔ allowed op := by
  simp [perform, All]

theorem all_bind {program : Program I A} {after : A → Program I B}
    (first : All allowed program) (later : ∀ value, All allowed (after value)) :
    All allowed (program >>= after) := by
  change All allowed (program.bind after)
  induction program with
  | done value => exact later value
  | call op next ih => exact ⟨first.1, fun reply => ih reply (first.2 reply)⟩

theorem all_of_forall (each : ∀ op, allowed op) (program : Program I A) : All allowed program := by
  induction program with
  | done value => trivial
  | call op next ih => exact ⟨each op, ih⟩

section Interpretation
variable {J : Interface}

/-- A program over a smaller interface, each of whose operations stands for a program. -/
def interpret (meaning : (op : I.Op) → Program J (I.Reply op)) : Program I A → Program J A
  | done value => done value
  | call op next => (meaning op).bind fun reply => interpret meaning (next reply)

theorem all_interpret {meaning : (op : I.Op) → Program J (I.Reply op)} {small : I.Op → Prop}
    {allowed : J.Op → Prop} (each : ∀ op, small op → All allowed (meaning op))
    {program : Program I A} (all : All small program) : All allowed (interpret meaning program) := by
  induction program with
  | done value => trivial
  | call op next ih => exact all_bind (each op all.1) fun reply => ih reply (all.2 reply)

end Interpretation

end Program

/-- The meaning of each operation: a reply, or a reason to stop, and the state after it. -/
abbrev Handler (I : Interface) (Stop State : Type) :=
  (op : I.Op) → State → Except Stop (I.Reply op) × State

section Execution

variable {I : Interface} {Stop State A B : Type}

def exec (handler : Handler I Stop State) : Program I A → State → Except Stop A × State
  | .done value, state => (.ok value, state)
  | .call op next, state =>
    match handler op state with
    | (.ok reply, after) => exec handler (next reply) after
    | (.error why, after) => (.error why, after)

variable {handler : Handler I Stop State}

@[simp] theorem exec_pure (value : A) (state : State) :
    exec handler (pure value) state = (.ok value, state) := rfl

@[simp] theorem exec_perform (op : I.Op) (state : State) :
    exec handler (.perform op) state = handler op state := by
  simp only [Program.perform, exec]
  split <;> simp_all

theorem exec_bind (program : Program I A) (after : A → Program I B) (state : State) :
    exec handler (program >>= after) state =
      match exec handler program state with
      | (.ok value, middle) => exec handler (after value) middle
      | (.error why, middle) => (.error why, middle) := by
  change exec handler (program.bind after) state = _
  induction program generalizing state with
  | done value => rfl
  | call op next ih =>
    simp only [Program.bind, exec]
    split
    · exact ih _ _
    · rfl

theorem exec_bind_ok {program : Program I A} {state middle : State} {value : A}
    (ran : exec handler program state = (.ok value, middle)) (after : A → Program I B) :
    exec handler (program >>= after) state = exec handler (after value) middle := by
  rw [exec_bind, ran]

theorem exec_bind_inv {program : Program I A} {after : A → Program I B} {state final : State} {result : B}
    (ran : exec handler (program >>= after) state = (.ok result, final)) :
    ∃ value middle, exec handler program state = (.ok value, middle) ∧
      exec handler (after value) middle = (.ok result, final) := by
  rw [exec_bind] at ran
  rcases first : exec handler program state with ⟨why | value, middle⟩
  · rw [first] at ran
    cases ran
  · rw [first] at ran
    exact ⟨value, middle, rfl, ran⟩

theorem exec_bind_avoids {program : Program I A} {after : A → Program I B} {state : State} {why : Stop}
    (first : (exec handler program state).1 ≠ .error why)
    (later : ∀ value middle, exec handler program state = (.ok value, middle) →
      (exec handler (after value) middle).1 ≠ .error why) :
    (exec handler (program >>= after) state).1 ≠ .error why := by
  rw [exec_bind]
  rcases ran : exec handler program state with ⟨other | value, middle⟩
  · rw [ran] at first
    intro stopped
    cases stopped
    exact first rfl
  · exact later value middle ran

/-- A sequence whose second part never stops for a reason stops for it in the first. -/
theorem exec_bind_error_iff {program : Program I A} {after : A → Program I B} {state : State} {why : Stop}
    (later : ∀ value middle, exec handler program state = (.ok value, middle) →
      (exec handler (after value) middle).1 ≠ .error why) :
    (exec handler (program >>= after) state).1 = .error why ↔
      (exec handler program state).1 = .error why := by
  rw [exec_bind]
  rcases ran : exec handler program state with ⟨other | value, middle⟩
  · simp
  · simp [later value middle ran]

theorem exec_interpret {J : Interface} {inner : Handler J Stop State}
    {meaning : (op : J.Op) → Program I (J.Reply op)}
    (realizes : ∀ op state, exec handler (meaning op) state = inner op state)
    (program : Program J A) (state : State) :
    exec handler (program.interpret meaning) state = exec inner program state := by
  induction program generalizing state with
  | done value => rfl
  | call op next ih =>
    change exec handler (meaning op >>= fun reply => (next reply).interpret meaning) state = _
    rw [exec_bind, realizes]
    simp only [exec]
    rcases inner op state with ⟨why | reply, after⟩
    · rfl
    · exact ih reply after

theorem exec_keeps {allowed : I.Op → Prop} (handler : Handler I Stop State) (P : State → Prop) (Q : Stop → Prop)
    (step : ∀ op state, allowed op → P state →
      P (handler op state).2 ∧ ∀ why, (handler op state).1 = .error why → Q why)
    {program : Program I A} (all : program.All allowed) (state : State) (holds : P state) :
    P (exec handler program state).2 ∧
      ∀ why, (exec handler program state).1 = .error why → Q why := by
  induction program generalizing state with
  | done value => exact ⟨holds, fun why stopped => by cases stopped⟩
  | call op next ih =>
    have kept := step op state all.1 holds
    simp only [exec]
    split
    · rename_i reply after taken
      rw [taken] at kept
      exact ih reply (all.2 reply) after kept.1
    · rename_i why after taken
      rw [taken] at kept
      exact ⟨kept.1, fun reason stopped => kept.2 reason (by cases stopped; rfl)⟩

theorem exec_persists (handler : Handler I Stop State) (Flag : State → Prop)
    (keep : ∀ op state, Flag state → Flag (handler op state).2)
    (program : Program I A) {state : State} (up : Flag state) :
    Flag (exec handler program state).2 := by
  induction program generalizing state with
  | done value => exact up
  | call op next ih =>
    have kept := keep op state up
    simp only [exec]
    split
    · rename_i reply after taken
      rw [taken] at kept
      exact ih reply kept
    · rename_i why after taken
      rw [taken] at kept
      exact kept

theorem exec_call_raises {Flag : State → Prop}
    (keep : ∀ op state, Flag state → Flag (handler op state).2)
    {op : I.Op} (next : I.Reply op → Program I A) {state : State}
    (raised : Flag (handler op state).2) :
    Flag (exec handler (.call op next) state).2 := by
  simp only [exec]
  split
  · rename_i reply after taken
    rw [taken] at raised
    exact exec_persists handler Flag keep _ raised
  · rename_i why after taken
    rw [taken] at raised
    exact raised

/-- Two handlers with the same meaning until a mark is set on both sides: a
program runs alike under both, or both executions end marked. -/
theorem exec_split {code exact : Handler I Stop State} (P Marked Broken : State → Prop)
    (step : ∀ op state, P state →
      (code op state = exact op state ∧ P (exact op state).2) ∨
        (Marked (exact op state).2 ∧ Broken (code op state).2))
    (marked : ∀ op state, Marked state → Marked (exact op state).2)
    (broken : ∀ op state, Broken state → Broken (code op state).2)
    (program : Program I A) {state : State} (holds : P state) :
    (exec code program state = exec exact program state ∧ P (exec exact program state).2) ∨
      (Marked (exec exact program state).2 ∧ Broken (exec code program state).2) := by
  induction program generalizing state with
  | done value => exact .inl ⟨rfl, holds⟩
  | call op next ih =>
    rcases step op state holds with ⟨same, kept⟩ | ⟨mark, break'⟩
    · simp only [exec, same]
      split
      · rename_i reply after taken
        rw [taken] at kept
        exact ih reply kept
      · rename_i why after taken
        rw [taken] at kept
        exact .inl ⟨rfl, kept⟩
    · exact .inr ⟨exec_call_raises marked next mark, exec_call_raises broken next break'⟩

section Leads
variable {before : State → Prop} {after : A → State → Prop} {stopped : State → Prop}

variable (handler) in
/-- From a state in the first set, a value leaves a state in the second and a stop one in the third. -/
def Leads (before : State → Prop) (program : Program I A) (after : A → State → Prop) (stopped : State → Prop) : Prop :=
  ∀ state, before state → match exec handler program state with
    | (.ok value, final) => after value final
    | (.error _, final) => stopped final

theorem leads_pure {value : A} (here : ∀ state, before state → after value state) :
    Leads handler before (pure value) after stopped :=
  here

theorem Leads.bind {program : Program I A} {next : A → Program I B} {last : B → State → Prop}
    (first : Leads handler before program after stopped)
    (rest : ∀ value, Leads handler (after value) (next value) last stopped) :
    Leads handler before (program >>= next) last stopped := by
  intro state here
  have led := first state here
  rw [exec_bind]
  rcases ran : exec handler program state with ⟨why | value, middle⟩
  · rw [ran] at led
    exact led
  · rw [ran] at led
    exact rest value middle led

theorem Leads.mono {before' : State → Prop} {after' : A → State → Prop} {program : Program I A}
    (leads : Leads handler before program after stopped) (stronger : ∀ state, before' state → before state)
    (weaker : ∀ value state, after value state → after' value state) : Leads handler before' program after' stopped := by
  intro state here
  have led := leads state (stronger state here)
  rcases ran : exec handler program state with ⟨why | value, final⟩
  · rw [ran] at led
    exact led
  · rw [ran] at led
    exact weaker value final led

theorem Leads.stop {stopped' : State → Prop} {program : Program I A}
    (leads : Leads handler before program after stopped) (weaker : ∀ state, stopped state → stopped' state) :
    Leads handler before program after stopped' := by
  intro state here
  have led := leads state here
  rcases ran : exec handler program state with ⟨why | value, final⟩
  · rw [ran] at led
    exact weaker final led
  · rw [ran] at led
    exact led

theorem leads_all {allowed : I.Op → Prop}
    (step : ∀ op, allowed op → ∀ state, before state → before (handler op state).2) {program : Program I A}
    (all : program.All allowed) : Leads handler before program (fun _ => before) before := by
  intro state here
  have kept := (exec_keeps handler before (fun _ => True)
    (fun op state here holds => ⟨step op here state holds, fun _ _ => trivial⟩) all state here).1
  rcases ran : exec handler program state with ⟨why | value, final⟩
  · rw [ran] at kept
    exact kept
  · rw [ran] at kept
    exact kept

end Leads

end Execution

end Foundation
