import Mathlib.Data.Nat.Bitwise

/-! Algorithms and mining jobs, as far as nonce handling and job identity read them.

A hashing blob is the list of the `m_size` bytes that the source keeps at the
front of its fixed array; the bytes behind them are never read. Nullable
strings are options.
-/

set_option autoImplicit false

namespace Xmrig

abbrev Byte := BitVec 8

instance : LawfulBEq Byte := inferInstance

/-- `Algorithm::Id`, in the order of the source. -/
inductive Algorithm where
  | invalid
  | cn0 | cn1 | cn2 | cnR | cnFast | cnHalf | cnXao | cnRto | cnRwz | cnZls | cnDouble | cnCcx
  | cnLite0 | cnLite1
  | cnHeavy0 | cnHeavyTube | cnHeavyXhv
  | cnPico0 | cnPicoTlo
  | cnUpx2
  | cnGr0 | cnGr1 | cnGr2 | cnGr3 | cnGr4 | cnGr5
  | ghostriderRtm
  | rx0 | rxWow | rxArq | rxGraft | rxSfx | rxYada
  | ar2Chukwa | ar2ChukwaV2 | ar2Wrkz
  | kawpowRvn
  deriving DecidableEq, Repr

namespace Algorithm

def id : Algorithm → BitVec 32
  | invalid => 0
  | cn0 => 0x63150000
  | cn1 => 0x63150100
  | cn2 => 0x63150200
  | cnR => 0x63150272
  | cnFast => 0x63150166
  | cnHalf => 0x63150268
  | cnXao => 0x63150078
  | cnRto => 0x63150172
  | cnRwz => 0x63150277
  | cnZls => 0x6315027a
  | cnDouble => 0x63150264
  | cnCcx => 0x63150063
  | cnLite0 => 0x63140000
  | cnLite1 => 0x63140100
  | cnHeavy0 => 0x63160000
  | cnHeavyTube => 0x63160172
  | cnHeavyXhv => 0x63160068
  | cnPico0 => 0x63120200
  | cnPicoTlo => 0x63120274
  | cnUpx2 => 0x63110200
  | cnGr0 => 0x63130100
  | cnGr1 => 0x63130101
  | cnGr2 => 0x63150102
  | cnGr3 => 0x63140103
  | cnGr4 => 0x63120104
  | cnGr5 => 0x63120105
  | ghostriderRtm => 0x6c150000
  | rx0 => 0x72151200
  | rxWow => 0x72141177
  | rxArq => 0x72121061
  | rxGraft => 0x72151267
  | rxSfx => 0x72151273
  | rxYada => 0x72151279
  | ar2Chukwa => 0x61130000
  | ar2ChukwaV2 => 0x61140000
  | ar2Wrkz => 0x61120000
  | kawpowRvn => 0x6b0f0000

def isCN (algorithm : Algorithm) : Bool := algorithm.id &&& 0xff000000 = 0x63000000

def family (algorithm : Algorithm) : BitVec 32 :=
  algorithm.id &&& (if algorithm.isCN then 0xffff0000 else 0xff000000)

def randomX : BitVec 32 := 0x72000000
def cnHeavy : BitVec 32 := 0x63160000
def kawpow : BitVec 32 := 0x6b000000
def ghostrider : BitVec 32 := 0x6c000000

def isValid (algorithm : Algorithm) : Bool :=
  algorithm.id ≠ 0 ∧ 0 < algorithm.family

end Algorithm

def userIndex : Fin 2 := 0

def donateIndex : Fin 2 := 1

structure Job where
  algorithm : Algorithm := .invalid
  nicehash : Bool := false
  seed : List Byte := []
  blob : List Byte := []
  clientId : Option String := none
  extraNonce : Option String := none
  id : Option String := none
  poolWallet : Option String := none
  backend : Nat := 0
  diff : BitVec 64 := 0
  height : BitVec 64 := 0
  target : BitVec 64 := 0
  index : Fin 2 := userIndex
  hasMinerSignature : Bool := false
  deriving DecidableEq, Repr

namespace Job

def kMaxBlobSize : Nat := 408

def slot (donate : Bool) : Fin 2 := if donate then donateIndex else userIndex

def size (job : Job) : Nat := job.blob.length

def isEqualBlob (job other : Job) : Bool := job.blob = other.blob

def isEqual (job other : Job) : Bool :=
  job.id = other.id && job.clientId = other.clientId && job.isEqualBlob other &&
    job.target = other.target

def isValid (job : Job) : Bool :=
  (0 < job.size && 0 < job.diff) || (job.poolWallet.getD "") ≠ ""

def nonceSize (job : Job) : Nat := if job.algorithm.family = Algorithm.kawpow then 8 else 4

def nonceOffset (job : Job) : Nat :=
  if job.algorithm.family = Algorithm.kawpow then 32
  else if job.algorithm.family = Algorithm.ghostrider then 76
  else if job.algorithm = .rxYada then 147
  else 39

/-- The extra nonce takes four bits per hexadecimal digit from the top of the
nonce. The source leaves a shift by 64 or more undefined; here it gives 0. -/
def nonceMask (job : Job) : BitVec 64 :=
  if job.nicehash then 0xFFFFFF
  else if job.nonceSize = 8 then BitVec.allOnes 64 >>> ((job.extraNonce.getD "").length * 4)
  else 0xFFFFFFFF

/-- What `setBlob` has checked before it stores a blob. -/
structure Sized (job : Job) : Prop where
  nonce : job.nonceOffset + job.nonceSize ≤ job.size
  fits : job.size < kMaxBlobSize

instance (job : Job) : Decidable job.Sized :=
  decidable_of_iff (job.nonceOffset + job.nonceSize ≤ job.size ∧ job.size < kMaxBlobSize)
    ⟨fun ⟨nonce, fits⟩ => ⟨nonce, fits⟩, fun ⟨nonce, fits⟩ => ⟨nonce, fits⟩⟩

theorem nonceSize_cases (job : Job) : job.nonceSize = 4 ∨ job.nonceSize = 8 := by
  unfold nonceSize
  split
  · exact .inr rfl
  · exact .inl rfl

theorem nonceSize_ge (job : Job) : 4 ≤ job.nonceSize := by
  rcases job.nonceSize_cases with narrow | wide <;> omega

theorem nonceMask_low (job : Job) : ∃ bits ≤ 64, job.nonceMask.toNat = 2 ^ bits - 1 := by
  unfold nonceMask
  split
  · exact ⟨24, by omega, by decide⟩
  · split
    · generalize (job.extraNonce.getD "").length * 4 = shift
      refine ⟨64 - shift, by omega, ?_⟩
      rw [BitVec.toNat_ushiftRight, BitVec.toNat_allOnes, Nat.shiftRight_eq_div_pow]
      by_cases small : shift ≤ 64
      · have split64 : (2 : Nat) ^ 64 = 2 ^ (64 - shift) * 2 ^ shift := by
          rw [← Nat.pow_add, Nat.sub_add_cancel small]
        have positive : 0 < 2 ^ shift := Nat.two_pow_pos shift
        rw [Nat.div_eq_iff positive, split64]
        have low : 1 ≤ 2 ^ (64 - shift) := Nat.one_le_two_pow
        rw [Nat.sub_mul, Nat.one_mul]
        have bound : 2 ^ shift ≤ 2 ^ (64 - shift) * 2 ^ shift := Nat.le_mul_of_pos_left _ low
        omega
      · have large : 2 ^ 64 ≤ 2 ^ shift := Nat.pow_le_pow_right (by omega) (by omega)
        rw [show 64 - shift = 0 by omega, Nat.div_eq_of_lt (by omega)]
        rfl
    · exact ⟨32, by omega, by decide⟩

theorem nonceSize_of_wide {job : Job} (wide : 2 ^ 32 ≤ job.nonceMask.toNat) : job.nonceSize = 8 := by
  unfold nonceMask at wide
  split at wide
  · exact absurd wide (by decide)
  · split at wide
    · assumption
    · exact absurd wide (by decide)

end Job

end Xmrig
