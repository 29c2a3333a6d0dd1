import Mathlib.Logic.Function.Basic

/-! Locks with an owner.

A lock that is not recursive is free or owned by one party. What a party holds
is read off where it stands in its code; the lemmas here keep that reading and
the owners in step, whatever the parties are.
-/

set_option autoImplicit false

namespace Foundation

universe u v

variable {Party : Type u} {Mutex : Type v}

/-- The owner of a lock is the party that stands where it holds it. -/
def Owned (owner : Mutex → Option Party) (holds : Party → Mutex → Prop) : Prop :=
  ∀ mutex party, owner mutex = some party ↔ holds party mutex

variable {owner taken : Mutex → Option Party} {holds after : Party → Mutex → Prop} {party : Party} {mutex : Mutex}

theorem Owned.unique (owned : Owned owner holds) {other : Party} (first : holds party mutex)
    (second : holds other mutex) : party = other := by
  rw [← owned] at first second
  exact Option.some.inj (first.symm.trans second)

variable [DecidableEq Mutex]

/-- Take a lock; a party that finds it owned, by itself too, has to wait. -/
def acquire (owner : Mutex → Option Party) (party : Party) (mutex : Mutex) : Option (Mutex → Option Party) :=
  if (owner mutex).isSome then none else some (Function.update owner mutex (some party))

def release (owner : Mutex → Option Party) (mutex : Mutex) : Mutex → Option Party :=
  Function.update owner mutex none

theorem acquire_eq_some :
    acquire owner party mutex = some taken ↔
      owner mutex = none ∧ taken = Function.update owner mutex (some party) := by
  unfold acquire
  cases owner mutex with
  | none => simp [eq_comm]
  | some other => simp

/-- A step of one party: it keeps what it holds, takes a lock, or gives one back. -/
inductive Locking (party : Party) (owner : Mutex → Option Party) (before now : Mutex → Prop) :
    (Mutex → Option Party) → Prop where
  | keep (same : ∀ any, now any ↔ before any) : Locking party owner before now owner
  | take {mutex : Mutex} {taken : Mutex → Option Party} (got : acquire owner party mutex = some taken)
      (mine : ∀ any, now any ↔ before any ∨ any = mutex) : Locking party owner before now taken
  | give {mutex : Mutex} (held : before mutex) (mine : ∀ any, now any ↔ before any ∧ any ≠ mutex) :
      Locking party owner before now (release owner mutex)

theorem Owned.step (owned : Owned owner holds) (locking : Locking party owner (holds party) (after party) taken)
    (others : ∀ other, other ≠ party → ∀ any, after other any ↔ holds other any) : Owned taken after := by
  intro any other
  cases locking with
  | keep same =>
    rw [owned]
    by_cases me : other = party
    · rw [me, same]
    · rw [others other me]
  | @take mutex taken got mine =>
    obtain ⟨free, rfl⟩ := acquire_eq_some.mp got
    by_cases this : any = mutex
    · rw [this, Function.update_self, Option.some_inj]
      constructor
      · rintro rfl
        exact (mine mutex).mpr (.inr rfl)
      · intro held
        by_contra differ
        rw [others other (Ne.symm differ), ← owned, free] at held
        cases held
    · rw [Function.update_of_ne this, owned]
      by_cases me : other = party
      · rw [me, mine]
        exact ⟨.inl, fun held => held.resolve_right this⟩
      · exact (others other me any).symm
  | @give mutex held mine =>
    unfold release
    by_cases this : any = mutex
    · rw [this, Function.update_self]
      constructor
      · intro owns
        cases owns
      · intro still
        by_cases me : other = party
        · rw [me, mine] at still
          exact absurd rfl still.2
        · exact absurd (owned.unique held ((others other me mutex).mp still)) (Ne.symm me)
    · rw [Function.update_of_ne this, owned]
      by_cases me : other = party
      · rw [me, mine]
        exact ⟨fun holding => ⟨holding, this⟩, fun holding => holding.1⟩
      · exact (others other me any).symm

end Foundation
