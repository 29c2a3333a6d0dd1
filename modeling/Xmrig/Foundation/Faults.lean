import Mathlib.Logic.Basic

/-! Computations that may end with a fault, and the faults that they do not end with. -/

set_option autoImplicit false

namespace Foundation

variable {Fault A B : Type}

/-- No excluded fault ends the computation, and a value has the property. -/
def Avoids (excluded : Fault → Prop) (computation : Except Fault A) (post : A → Prop) : Prop :=
  match computation with
  | .ok value => post value
  | .error fault => ¬ excluded fault

variable {excluded : Fault → Prop} {computation : Except Fault A} {next : A → Except Fault B}

theorem avoids_ok {value : A} {post : A → Prop} (holds : post value) :
    Avoids excluded (.ok value) post := holds

theorem Avoids.bind {between : A → Prop} {post : B → Prop}
    (first : Avoids excluded computation between)
    (rest : ∀ value, between value → Avoids excluded (next value) post) :
    Avoids excluded (computation >>= next) post := by
  cases computation with
  | ok value => exact rest value first
  | error fault => exact first

theorem Avoids.mono {post weaker : A → Prop} (avoids : Avoids excluded computation post)
    (implies : ∀ value, post value → weaker value) : Avoids excluded computation weaker := by
  cases computation with
  | ok value => exact implies value avoids
  | error fault => exact avoids

theorem avoids_foldlM {body : B → A → Except Fault B} {kept : B → Prop} (items : List A) {start : B}
    (initial : kept start)
    (step : ∀ item ∈ items, ∀ value, kept value → Avoids excluded (body value item) kept) :
    Avoids excluded (items.foldlM body start) kept := by
  induction items generalizing start with
  | nil => exact initial
  | cons item rest ih =>
    rw [List.foldlM_cons]
    apply Avoids.bind (step item List.mem_cons_self start initial)
    intro value holds
    apply ih holds
    intro other member
    exact step other (List.mem_cons_of_mem item member)

theorem Avoids.ne_error {post : A → Prop} (avoids : Avoids excluded computation post)
    {fault : Fault} (bad : excluded fault) : computation ≠ .error fault := by
  intro failed
  rw [failed] at avoids
  exact avoids bad

theorem Avoids.exists_ok {post : A → Prop} (avoids : Avoids (fun _ => True) computation post) :
    ∃ value, computation = .ok value ∧ post value := by
  cases computation with
  | ok value => exact ⟨value, rfl, avoids⟩
  | error fault => exact absurd trivial avoids

/-- The same computation, but for a fault that ends the first one early. -/
def Approximates (early : Fault) (first second : Except Fault A) : Prop :=
  first = .error early ∨ first = second

variable {early : Fault} {second : Except Fault A} {nextSecond : A → Except Fault B}

theorem Approximates.refl (computation : Except Fault A) :
    Approximates early computation computation := .inr rfl

theorem Approximates.bind (less : Approximates early computation second)
    (rest : ∀ value, Approximates early (next value) (nextSecond value)) :
    Approximates early (computation >>= next) (second >>= nextSecond) := by
  rcases less with failed | same
  · left
    rw [failed]
    rfl
  · subst same
    cases computation with
    | ok value => exact rest value
    | error fault => exact .inr rfl

theorem Approximates.eq {first : Except Fault A} (less : Approximates early first second)
    (ends : first ≠ .error early) : second = first :=
  (less.resolve_left ends).symm

end Foundation
