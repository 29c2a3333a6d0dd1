import Mathlib.Data.List.Nodup

/-! Half-open blocks of natural numbers handed out by an ascending counter.

A log of blocks that all end at or below a bound stays pairwise disjoint when a
block that starts at or above the bound is added. Several users may each hold a
block in reserve and use it up part by part.
-/

set_option autoImplicit false

namespace Foundation

structure Block where
  first : Nat
  count : Nat
  deriving DecidableEq, Repr

namespace Block

def Mem (value : Nat) (block : Block) : Prop :=
  block.first ≤ value ∧ value < block.first + block.count

def Disjoint (left right : Block) : Prop := ∀ value, ¬ (Mem value left ∧ Mem value right)

def Subset (inner outer : Block) : Prop := ∀ value, Mem value inner → Mem value outer

def stop (block : Block) : Nat := block.first + block.count

theorem disjoint_of_stop_le {left right : Block} (apart : left.stop ≤ right.first) :
    Disjoint left right := by
  rintro value ⟨inLeft, inRight⟩
  have below := inLeft.2
  have above := inRight.1
  simp only [stop] at apart
  omega

theorem Disjoint.symm {left right : Block} (apart : Disjoint left right) : Disjoint right left :=
  fun value both => apart value ⟨both.2, both.1⟩

theorem Disjoint.mono {left right inner other : Block} (apart : Disjoint left right)
    (first : Subset inner left) (second : Subset other right) : Disjoint inner other :=
  fun value both => apart value ⟨first value both.1, second value both.2⟩

theorem subset_of_bounds {inner outer : Block} (low : outer.first ≤ inner.first)
    (high : inner.stop ≤ outer.stop) : Subset inner outer := by
  intro value member
  have := member.1
  have := member.2
  simp only [stop] at high
  exact ⟨by omega, by omega⟩

end Block

/-- Blocks that end at or below a bound and are pairwise disjoint. -/
structure Allocated (blocks : List Block) (bound : Nat) : Prop where
  below : ∀ block ∈ blocks, block.stop ≤ bound
  disjoint : blocks.Pairwise Block.Disjoint

theorem Allocated.nil (bound : Nat) : Allocated [] bound :=
  ⟨by simp, .nil⟩

theorem Allocated.mono {blocks : List Block} {bound larger : Nat} (allocated : Allocated blocks bound)
    (grows : bound ≤ larger) : Allocated blocks larger :=
  ⟨fun block member => Nat.le_trans (allocated.below block member) grows, allocated.disjoint⟩

theorem Allocated.push {blocks : List Block} {bound larger : Nat} {block : Block}
    (allocated : Allocated blocks bound) (starts : bound ≤ block.first) (ends : block.stop ≤ larger) :
    Allocated (block :: blocks) larger := by
  have grows : bound ≤ larger := by
    have := starts
    simp only [Block.stop] at ends
    omega
  refine ⟨?_, List.pairwise_cons.mpr ⟨?_, allocated.disjoint⟩⟩
  · intro other member
    rcases List.mem_cons.mp member with rfl | member
    · exact ends
    · exact Nat.le_trans (allocated.below other member) grows
  · intro other member
    exact (Block.disjoint_of_stop_le (Nat.le_trans (allocated.below other member) starts)).symm

/-- The blocks used so far and the block that each of `users` holds in reserve
are disjoint. -/
structure Shared (used : List Block) (reserve : Nat → Block) (users : Nat) : Prop where
  history : used.Pairwise Block.Disjoint
  fresh : ∀ user < users, ∀ block ∈ used, Block.Disjoint (reserve user) block
  apart : ∀ user < users, ∀ other < users, user ≠ other →
    Block.Disjoint (reserve user) (reserve other)

theorem Shared.use {used : List Block} {reserve part kept : Nat → Block} {users : Nat}
    (shared : Shared used reserve users) (parts : ∀ user < users, (part user).Subset (reserve user))
    (rest : ∀ user < users, (kept user).Subset (reserve user))
    (split : ∀ user < users, Block.Disjoint (kept user) (part user)) :
    Shared ((List.range users).map part ++ used) kept users := by
  refine ⟨?_, ?_, ?_⟩
  · rw [List.pairwise_append]
    refine ⟨?_, shared.history, ?_⟩
    · rw [List.pairwise_map]
      refine List.nodup_range.imp_of_mem ?_
      intro user other inFirst inSecond apart
      rw [List.mem_range] at inFirst inSecond
      exact (shared.apart user inFirst other inSecond apart).mono (parts user inFirst)
        (parts other inSecond)
    · intro block member other old
      obtain ⟨user, inside, rfl⟩ := List.mem_map.mp member
      rw [List.mem_range] at inside
      exact (shared.fresh user inside other old).mono (parts user inside) fun _ same => same
  · intro user inside block member
    rcases List.mem_append.mp member with new | old
    · obtain ⟨other, small, rfl⟩ := List.mem_map.mp new
      rw [List.mem_range] at small
      by_cases same : user = other
      · subst same
        exact split user inside
      · exact (shared.apart user inside other small same).mono (rest user inside) (parts other small)
    · exact (shared.fresh user inside block old).mono (rest user inside) fun _ same => same
  · intro user inside other small apart
    exact (shared.apart user inside other small apart).mono (rest user inside) (rest other small)

end Foundation
