import Mathlib.Logic.Basic

/-! What programs with a state that may end with a fault leave behind when they come to
their end. -/

set_option autoImplicit false

namespace Foundation

variable {State Fault A B : Type}

/-- Whenever the program comes to its end, its value has the property. -/
def Leaves (program : StateT State (Except Fault) A) (post : A → Prop) : Prop :=
  ∀ state value after, program.run state = .ok (value, after) → post value

variable {program : StateT State (Except Fault) A} {next : A → StateT State (Except Fault) B}

theorem leaves_pure {value : A} {post : A → Prop} (holds : post value) :
    Leaves (pure value : StateT State (Except Fault) A) post := by
  intro state other after ran
  cases ran
  exact holds

theorem leaves_throw {post : A → Prop} (fault : Fault) :
    Leaves (throw fault : StateT State (Except Fault) A) post := by
  intro state value after ran
  cases ran

theorem leaves_lift {computation : Except Fault A} {post : A → Prop}
    (holds : ∀ value, computation = .ok value → post value) :
    Leaves (liftM computation : StateT State (Except Fault) A) post := by
  intro state value after ran
  cases computation with
  | error fault => cases ran
  | ok inner =>
    cases ran
    exact holds _ rfl

theorem Leaves.bind {between : A → Prop} {post : B → Prop} (first : Leaves program between)
    (rest : ∀ value, between value → Leaves (next value) post) : Leaves (program >>= next) post := by
  intro state value after ran
  rw [StateT.run_bind] at ran
  rcases started : program.run state with fault | ⟨middle, inner⟩
  · rw [started] at ran
    cases ran
  · rw [started] at ran
    exact rest middle (first state middle inner started) inner value after ran

theorem Leaves.skip {post : B → Prop} (rest : ∀ value, Leaves (next value) post) :
    Leaves (program >>= next) post := by
  have first : Leaves program fun _ => True := fun _ _ _ _ => trivial
  exact first.bind fun value _ => rest value

theorem Leaves.mono {post weaker : A → Prop} (leaves : Leaves program post)
    (implies : ∀ value, post value → weaker value) : Leaves program weaker :=
  fun state value after ran => implies value (leaves state value after ran)

end Foundation
