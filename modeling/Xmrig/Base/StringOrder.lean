import Xmrig.Base.Json
import Xmrig.Foundation.OrderedMap

/-! Strings as the keys of maps. -/

set_option autoImplicit false

namespace Xmrig

open Foundation

/-- `strcmp` is negative. -/
def strcmpBelow : List Byte → List Byte → Bool
  | _, [] => false
  | [], _ :: _ => true
  | first :: rest, other :: others =>
    if first = other then strcmpBelow rest others else first.toNat < other.toNat

theorem strcmpBelow_irrefl (name : List Byte) : strcmpBelow name name = false := by
  induction name with
  | nil => rfl
  | cons char rest ih =>
    unfold strcmpBelow
    rw [if_pos rfl, ih]

theorem strcmpBelow_trans {first second third : List Byte} (one : strcmpBelow first second = true)
    (two : strcmpBelow second third = true) : strcmpBelow first third = true := by
  induction third generalizing first second with
  | nil => cases second <;> cases two
  | cons c third ih =>
    cases second with
    | nil => cases first <;> cases one
    | cons b second =>
      cases first with
      | nil => rfl
      | cons a first =>
        unfold strcmpBelow at one two ⊢
        by_cases ab : a = b
        · rw [if_pos ab] at one
          by_cases bc : b = c
          · rw [if_pos bc] at two
            rw [if_pos (ab.trans bc)]
            exact ih one two
          · rw [if_neg bc] at two
            rw [ab, if_neg bc]
            exact two
        · rw [if_neg ab, decide_eq_true_eq] at one
          by_cases bc : b = c
          · rw [← bc, if_neg ab]
            exact decide_eq_true one
          · rw [if_neg bc, decide_eq_true_eq] at two
            have less := one.trans two
            rw [if_neg fun ac => by rw [ac] at less; exact Nat.lt_irrefl _ less]
            exact decide_eq_true less

theorem strcmpBelow_total {first second : List Byte} (one : strcmpBelow first second = false)
    (other : strcmpBelow second first = false) : first = second := by
  induction first generalizing second with
  | nil =>
    cases second with
    | nil => rfl
    | cons b second => cases one
  | cons a first ih =>
    cases second with
    | nil => cases other
    | cons b second =>
      unfold strcmpBelow at one other
      by_cases ab : a = b
      · rw [if_pos ab] at one
        rw [if_pos ab.symm] at other
        rw [ab, ih one other]
      · rw [if_neg ab, decide_eq_false_iff_not] at one
        rw [if_neg (Ne.symm ab), decide_eq_false_iff_not] at other
        exact (ab (BitVec.eq_of_toNat_eq (by omega))).elim

/-- `String::operator<`: an empty string is below nothing and above nothing. -/
def nameOrder : KeyOrder (List Byte) where
  below first second := !first.isEmpty && !second.isEmpty && strcmpBelow first second
  irrefl name := by
    rw [strcmpBelow_irrefl, Bool.and_false]
  trans := by
    intro first second third one two
    rw [Bool.and_eq_true, Bool.and_eq_true] at one two ⊢
    exact ⟨⟨one.1.1, two.1.2⟩, strcmpBelow_trans one.2 two.2⟩

end Xmrig
