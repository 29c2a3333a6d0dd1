import Mathlib.Data.Nat.Digits.Lemmas

/-! Numerals of a fixed width, least significant digit first.

The numeral of a given width that Mathlib calls `Nat.digitsAppend` is inverse to
`Nat.ofDigits`. Added here are the digits that a machine word is cut into, and the
numerals that are left of a value which does not fit.
-/

set_option autoImplicit false

namespace Foundation

variable {base : Nat}

/-- The `count` lowest digits of a value. -/
def lowDigits (base count value : Nat) : List Nat :=
  (List.range count).map fun i => value / base ^ i % base

@[simp] theorem lowDigits_length (base count value : Nat) : (lowDigits base count value).length = count := by
  simp only [lowDigits, List.length_map, List.length_range]

theorem lowDigits_lt (positive : 0 < base) {count value digit : Nat}
    (member : digit ∈ lowDigits base count value) : digit < base := by
  obtain ⟨i, _, rfl⟩ := List.mem_map.mp member
  exact Nat.mod_lt _ positive

theorem ofDigits_lowDigits (base count value : Nat) :
    Nat.ofDigits base (lowDigits base count value) = value % base ^ count := by
  induction count with
  | zero => simp [lowDigits, Nat.mod_one]
  | succ count ih =>
    have split : lowDigits base (count + 1) value =
        lowDigits base count value ++ [value / base ^ count % base] := by
      simp only [lowDigits, List.range_succ, List.map_append, List.map_cons, List.map_nil]
    rw [split, Nat.ofDigits_append, ih, lowDigits_length, Nat.ofDigits_singleton, Nat.mod_pow_succ]

/-- The digits of a numeral are its own, and no others, if they are read back in a width and
cut off at `count` digits of another base. -/
theorem digitsAppend_mod_iff (large : 1 < base) {digits : List Nat} (valid : ∀ digit ∈ digits, digit < base)
    (bound : Nat) :
    Nat.digitsAppend base digits.length (Nat.ofDigits base digits % bound) = digits ↔
      Nat.ofDigits base digits % bound = Nat.ofDigits base digits := by
  have inverse := Nat.setInvOn_digitsAppend_ofDigits large digits.length
  have member : digits ∈ { L : List Nat | L.length = digits.length ∧ ∀ x ∈ L, x < base } := ⟨rfl, valid⟩
  constructor
  · intro same
    have fits : Nat.ofDigits base digits % bound < base ^ digits.length :=
      lt_of_le_of_lt (Nat.mod_le _ _) (Nat.ofDigits_lt_base_pow_length large valid)
    have back := inverse.2 fits
    rw [same] at back
    exact back.symm
  · intro same
    rw [same]
    exact inverse.1 member

end Foundation
