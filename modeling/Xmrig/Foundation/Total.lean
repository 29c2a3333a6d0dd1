import Mathlib.Logic.Basic

/-! Total correctness of programs with a state that may end with a fault. -/

set_option autoImplicit false

namespace Foundation

variable {State Fault A B : Type}

/-- The program comes to its end, with a value and a state of that kind. -/
def Yields (program : StateT State (Except Fault) A) (state : State) (post : A → State → Prop) : Prop :=
  ∃ value after, program.run state = .ok (value, after) ∧ post value after

variable {program : StateT State (Except Fault) A} {next : A → StateT State (Except Fault) B}
variable {state after : State} {value : A} {fault : Fault}

theorem yields_iff {post : A → State → Prop} (ran : program.run state = .ok (value, after)) :
    Yields program state post ↔ post value after := by
  constructor
  · rintro ⟨other, final, same, holds⟩
    rw [ran] at same
    cases same
    exact holds
  · exact fun holds => ⟨value, after, ran, holds⟩

@[simp] theorem yields_pure {post : A → State → Prop} :
    Yields (pure value : StateT State (Except Fault) A) state post ↔ post value state := yields_iff rfl

theorem yields_bind {post : B → State → Prop} (ran : program.run state = .ok (value, after)) :
    Yields (program >>= next) state post ↔ Yields (next value) after post := by
  have whole : (program >>= next).run state = (next value).run after := by
    rw [StateT.run_bind, ran]
    rfl
  unfold Yields
  rw [whole]

theorem not_yields {post : A → State → Prop} (failed : program.run state = .error fault) :
    ¬ Yields program state post := by
  rintro ⟨value, after, ran, -⟩
  rw [failed] at ran
  cases ran

theorem not_yields_bind {post : B → State → Prop} (failed : program.run state = .error fault) :
    ¬ Yields (program >>= next) state post := by
  have whole : (program >>= next).run state = .error fault := by
    rw [StateT.run_bind, failed]
    rfl
  exact not_yields whole

theorem yields_bind_iff {post : B → State → Prop} :
    Yields (program >>= next) state post ↔
      Yields program state fun value after => Yields (next value) after post := by
  rcases ran : program.run state with fault | ⟨value, after⟩
  · exact iff_of_false (not_yields_bind ran) (not_yields ran)
  · rw [yields_bind ran, yields_iff ran]

theorem Yields.mono {post weaker : A → State → Prop} (yields : Yields program state post)
    (implies : ∀ value after, post value after → weaker value after) : Yields program state weaker := by
  obtain ⟨value, after, ran, holds⟩ := yields
  exact ⟨value, after, ran, implies value after holds⟩

/-- A computation without a state leaves the state alone. -/
theorem lift_run (computation : Except Fault A) :
    (liftM computation : StateT State (Except Fault) A).run state = computation.map fun value => (value, state) := by
  cases computation <;> rfl

theorem yields_lift {computation : Except Fault A} {post : A → State → Prop} :
    Yields (liftM computation : StateT State (Except Fault) A) state post ↔
      ∃ value, computation = .ok value ∧ post value state := by
  cases computation with
  | error fault => exact iff_of_false (not_yields (lift_run _)) (by simp)
  | ok value =>
    rw [yields_iff (lift_run _)]
    exact ⟨fun holds => ⟨value, rfl, holds⟩, fun ⟨other, same, holds⟩ => by cases same; exact holds⟩

theorem yields_lift_bind {computation : Except Fault A} {post : B → State → Prop} :
    Yields ((liftM computation : StateT State (Except Fault) A) >>= next) state post ↔
      ∃ value, computation = .ok value ∧ Yields (next value) state post := by
  rw [yields_bind_iff, yields_lift]

end Foundation
