import Xmrig.Base.JobBlob
import Xmrig.Foundation.Memory
import Xmrig.Stratum.EthStratumClient

/-! The target of a job as a pool writes it.

A compact target is widened by two divisions. Where a division by zero would end
the process there is no result.
-/

set_option autoImplicit false

namespace Xmrig.Job

open Foundation EthStratumClient

/-- The source's division of unsigned numbers. -/
def divide (dividend divisor : BitVec 64) : Option (BitVec 64) :=
  if divisor = 0 then none else some (dividend / divisor)

/-- Four bytes as a `uint32_t`, the low one first. -/
def compact (raw : List Byte) : BitVec 32 := (Memory.ofBytes raw).readWord 0

/-- Eight bytes as a `uint64_t`. -/
def wide (raw : List Byte) : BitVec 64 :=
  (Memory.ofBytes raw).readWord 4 ++ (Memory.ofBytes raw).readWord 0

/-- The function `parse` inside `setTarget`. -/
def parseTarget (algorithm : Algorithm) (target : List Byte) : Option (BitVec 64) :=
  if algorithm = .rxYada then some (strtoull target)
  else
    let raw := fromHexBuffer target
    match raw.length with
    | 4 => (divide 0xFFFFFFFF ((compact raw).setWidth 64)).bind (divide (BitVec.allOnes 64))
    | 8 => some (wide raw)
    | _ => some 0

/-- `setTarget`: the job it leaves and its answer. The target is overwritten before it is tested. -/
def setTarget (job : Job) (target : Option (List Byte)) : Option (Job × Bool) :=
  let chars := target.getD []
  if chars.length < 4 then some (job, false)
  else (parseTarget job.algorithm chars).map fun value =>
    if value = 0 then ({ job with target := value }, false)
    else ({ job with target := value, diff := toDiff value }, true)

def targetOf (algorithm : Algorithm) (target : List Byte) : Nat :=
  if algorithm = .rxYada then (strtoull target).toNat
  else
    let raw := fromHexBuffer target
    if raw.length = 4 then (2 ^ 64 - 1) / ((2 ^ 32 - 1) / (compact raw).toNat)
    else if raw.length = 8 then (wide raw).toNat
    else 0

/-- A compact target of zero. -/
def ZeroCompact (algorithm : Algorithm) (target : List Byte) : Prop :=
  algorithm ≠ .rxYada ∧ (fromHexBuffer target).length = 4 ∧ compact (fromHexBuffer target) = 0

instance (algorithm : Algorithm) (target : List Byte) : Decidable (ZeroCompact algorithm target) :=
  inferInstanceAs (Decidable (_ ∧ _ ∧ _))

section Division
variable {word : BitVec 32}

theorem inner_pos (nonzero : word ≠ 0) : 0 < (2 ^ 32 - 1) / word.toNat := by
  have positive : 0 < word.toNat := by
    rw [Nat.pos_iff_ne_zero]
    exact fun zero => nonzero (BitVec.eq_of_toNat_eq zero)
  have range := word.isLt
  exact Nat.div_pos (by omega) positive

theorem divide_compact (nonzero : word ≠ 0) :
    ∃ value, (divide 0xFFFFFFFF (word.setWidth 64)).bind (divide (BitVec.allOnes 64)) = some value ∧
      value.toNat = (2 ^ 64 - 1) / ((2 ^ 32 - 1) / word.toNat) := by
  have same : (word.setWidth 64).toNat = word.toNat := BitVec.toNat_setWidth_of_le (by decide)
  have inner : ((0xFFFFFFFF : BitVec 64) / word.setWidth 64).toNat = (2 ^ 32 - 1) / word.toNat := by
    rw [BitVec.toNat_udiv, same]
    rfl
  have outer : word.setWidth 64 ≠ 0 := by
    intro zero
    have none_left := congrArg BitVec.toNat zero
    rw [same] at none_left
    exact nonzero (BitVec.eq_of_toNat_eq none_left)
  have divisor : (0xFFFFFFFF : BitVec 64) / word.setWidth 64 ≠ 0 := by
    intro zero
    have none_left := congrArg BitVec.toNat zero
    rw [inner] at none_left
    exact absurd none_left (Nat.ne_of_gt (inner_pos nonzero))
  refine ⟨BitVec.allOnes 64 / ((0xFFFFFFFF : BitVec 64) / word.setWidth 64), ?_, ?_⟩
  · rw [divide, if_neg outer, Option.bind_some, divide, if_neg divisor]
  · rw [BitVec.toNat_udiv, inner]
    rfl

theorem compact_le (word : BitVec 32) (nonzero : word ≠ 0) :
    word.toNat * 2 ^ 32 ≤ (2 ^ 64 - 1) / ((2 ^ 32 - 1) / word.toNat) := by
  have product := Nat.div_mul_le_self (2 ^ 32 - 1) word.toNat
  rw [Nat.le_div_iff_mul_le (inner_pos nonzero)]
  calc word.toNat * 2 ^ 32 * ((2 ^ 32 - 1) / word.toNat)
      = (2 ^ 32 - 1) / word.toNat * word.toNat * 2 ^ 32 := by
        rw [Nat.mul_comm, Nat.mul_assoc]
    _ ≤ (2 ^ 32 - 1) * 2 ^ 32 := Nat.mul_le_mul_right _ product
    _ ≤ 2 ^ 64 - 1 := by decide

theorem toDiff_toNat {target : BitVec 64} (nonzero : target ≠ 0) :
    (toDiff target).toNat = (2 ^ 64 - 1) / target.toNat ∧ 1 ≤ (toDiff target).toNat := by
  have value : (toDiff target).toNat = (2 ^ 64 - 1) / target.toNat := by
    rw [toDiff, if_neg nonzero, BitVec.toNat_udiv]
    rfl
  have positive : 0 < target.toNat := by
    rw [Nat.pos_iff_ne_zero]
    exact fun zero => nonzero (BitVec.eq_of_toNat_eq zero)
  have range := target.isLt
  refine ⟨value, value ▸ ?_⟩
  exact Nat.div_pos (by omega) positive

end Division

theorem parseTarget_eq {algorithm : Algorithm} {target : List Byte} (other : ¬ ZeroCompact algorithm target) :
    ∃ value, parseTarget algorithm target = some value ∧ value.toNat = targetOf algorithm target := by
  unfold parseTarget targetOf
  by_cases yada : algorithm = .rxYada
  · rw [if_pos yada, if_pos yada]
    exact ⟨_, rfl, rfl⟩
  · simp only [if_neg yada]
    split
    · rename_i short
      have nonzero : compact (fromHexBuffer target) ≠ 0 := fun zero => other ⟨yada, short, zero⟩
      rw [if_pos short]
      exact divide_compact nonzero
    · rename_i long
      rw [if_neg (by omega), if_pos long]
      exact ⟨_, rfl, rfl⟩
    · rename_i neither
      rw [if_neg (by omega), if_neg (by omega)]
      exact ⟨0, rfl, rfl⟩

/-- Every target but a compact zero is handled without a trap: it is accepted if the text has
four characters and stands for a target, and a job that accepted it holds the target and its
difficulty. -/
theorem setTarget_spec (job : Job) (target : Option (List Byte))
    (other : ¬ ZeroCompact job.algorithm (target.getD [])) :
    ∃ after accepted, job.setTarget target = some (after, accepted) ∧
      (accepted = true ↔ 4 ≤ (target.getD []).length ∧ targetOf job.algorithm (target.getD []) ≠ 0) ∧
      (accepted = true →
        after = { job with target := after.target, diff := after.diff } ∧
        after.target.toNat = targetOf job.algorithm (target.getD []) ∧
        after.diff.toNat = (2 ^ 64 - 1) / after.target.toNat ∧ 1 ≤ after.diff.toNat ∧
        (job.algorithm ≠ .rxYada → (fromHexBuffer (target.getD [])).length = 4 →
          (compact (fromHexBuffer (target.getD []))).toNat * 2 ^ 32 ≤ after.target.toNat)) := by
  obtain ⟨value, parsed, stands⟩ := parseTarget_eq other
  have zero : value = 0 ↔ targetOf job.algorithm (target.getD []) = 0 := by
    rw [← stands]
    exact ⟨fun same => congrArg BitVec.toNat same, fun same => BitVec.eq_of_toNat_eq same⟩
  simp only [setTarget, parsed, Option.map_some]
  by_cases short : (target.getD []).length < 4
  · rw [if_pos short]
    refine ⟨job, false, rfl, ?_, by simp⟩
    exact iff_of_false (by simp) (by omega)
  · rw [if_neg short]
    by_cases refused : value = 0
    · rw [if_pos refused]
      refine ⟨_, false, rfl, ?_, by simp⟩
      exact iff_of_false (by simp) (fun both => both.2 (zero.mp refused))
    · rw [if_neg refused]
      obtain ⟨quotient, positive⟩ := toDiff_toNat refused
      refine ⟨_, true, rfl, iff_of_true rfl ⟨by omega, fun none => refused (zero.mpr none)⟩, fun _ => ?_⟩
      refine ⟨rfl, stands, quotient, positive, fun plain length => ?_⟩
      have nonzero : compact (fromHexBuffer (target.getD [])) ≠ 0 := fun none => other ⟨plain, length, none⟩
      have bound := compact_le _ nonzero
      simp only [stands]
      rwa [targetOf, if_neg plain, if_pos length]

/-- The compact target `0x80000000`. -/
theorem setTarget_spec_half :
    ∃ after, setTarget { algorithm := .rx0 } (some [48, 48, 48, 48, 48, 48, 56, 48]) = some (after, true) ∧
      after.target = BitVec.allOnes 64 ∧ after.diff = 1 := by
  obtain ⟨after, accepted, done, answer, held⟩ := setTarget_spec { algorithm := .rx0 }
    (some [48, 48, 48, 48, 48, 48, 56, 48]) (by decide)
  have taken : accepted = true := answer.mpr (by decide)
  obtain ⟨-, target, diff, -, -⟩ := held taken
  subst taken
  refine ⟨after, done, BitVec.eq_of_toNat_eq (target.trans (by decide)), BitVec.eq_of_toNat_eq ?_⟩
  rw [diff, target]
  decide

/-- A number of two digits is refused for rx/yada, and a compact zero ends in a division by zero. -/
theorem setTarget_refuses_short :
    (setTarget { algorithm := .rxYada } (some [102, 102])).map Prod.snd = some false ∧
      targetOf .rxYada [102, 102] = 255 ∧
      setTarget { algorithm := .rx0 } (some [48, 48, 48, 48, 48, 48, 48, 48]) = none := by
  decide

end Xmrig.Job
