import Xmrig.Base.Cvt

/-! The setters of a mining job that check what a pool or a daemon has sent. -/

set_option autoImplicit false

namespace Xmrig.Job

/-- `setBlob` on the characters of a C string; no job if the blob is refused. A nonce
that is not zero turns nicehash mode on. -/
def setBlob (job : Job) (blob : Option (List Byte)) : Option Job :=
  match blob with
  | none => none
  | some hex =>
    let size := hex.length / 2
    let decoded := Cvt.hex2bin hex kMaxBlobSize none
    if hex.length % 2 ≠ 0 then none
    else if size < job.nonceOffset + job.nonceSize ∨ kMaxBlobSize ≤ size then none
    else if decoded.ok = false then none
    else some { job with
      blob := decoded.written
      nicehash := job.nicehash || (decoded.written.drop job.nonceOffset).take 4 ≠ [0, 0, 0, 0] }

/-- A seed of the wrong length leaves the job as it is; one that is not hexadecimal
clears the seed. -/
def setSeedHash (job : Job) (hash : Option (List Byte)) : Job :=
  match hash with
  | none => job
  | some hex =>
    if hex.length ≠ 64 then job
    else { job with seed := if (Cvt.fromHex [] hex).2 then (Cvt.fromHex [] hex).1 else [] }

def toDiff (target : BitVec 64) : BitVec 64 :=
  if target = 0 then 0 else BitVec.allOnes 64 / target

def setDiff (job : Job) (diff : BitVec 64) : Job := { job with diff, target := toDiff diff }

theorem setBlob_sized {job after : Job} {blob : Option (List Byte)} (set : job.setBlob blob = some after) :
    after.Sized ∧ after.algorithm = job.algorithm := by
  unfold setBlob at set
  split at set
  · cases set
  · rename_i hex
    simp only at set
    split at set
    · cases set
    · rename_i even
      split at set
      · cases set
      · rename_i bounds
        split at set
        · cases set
        · rename_i ok
          cases set
          have whole := Cvt.hex2bin_ok_length (Bool.not_eq_false _ ▸ ok)
          simp only [Option.isSome_none, Bool.false_eq_true, if_false, Nat.add_zero] at whole
          refine ⟨⟨?_, ?_⟩, rfl⟩
          · simp only [size, nonceOffset, nonceSize] at bounds ⊢
            omega
          · simp only [size]
            omega

end Xmrig.Job
