import Xmrig.Crypto.Nonce
import Xmrig.Foundation.Run

/-! Any number of threads inside `Nonce::next` for one index.

The shared access of a pass is its `fetch_add`; the rest of the pass reads only
the value that came back. A schedule therefore interleaves callers pass by
pass: `call` enters `next` and makes the first pass, `resume` makes another one
for a caller that was sent back to the top of the loop.
-/

set_option autoImplicit false

namespace Xmrig.Nonce

open Foundation

structure Call where
  words : Words
  reserveCount : BitVec 32
  mask : BitVec 64
  deriving DecidableEq, Repr

/-- A caller at `continue`, with the counter it last fetched and the number of
`fetch_add` calls it has made. -/
structure Waiting where
  call : Call
  counter : BitVec 64
  fetches : Nat

/-- A call that returned true, with the words it wrote. -/
structure Grant where
  call : Call
  first : BitVec 64
  words : Words
  deriving DecidableEq, Repr

def Grant.block (grant : Grant) : Block := ⟨grant.first.toNat, grant.call.reserveCount.toNat⟩

/-- The counters, the callers inside the loop, the successful calls (newest
first) and the sum of all reservations so far. -/
structure Callers where
  nonce : Nonce
  waiting : Nat → Option Waiting
  grants : List Grant
  reserved : Nat

inductive Event where
  | call (caller : Nat) (call : Call)
  | resume (caller : Nat)

instance (mask : BitVec 64) (count : BitVec 32) : Decidable (Refused mask count) :=
  inferInstanceAs (Decidable (_ ∨ _))

def Callers.settle (callers : Callers) (caller : Nat) (call : Call) (fetches : Nat)
    (counter : BitVec 64) : Attempt → Callers
  | .exhausted | .short => { callers with waiting := Function.update callers.waiting caller none }
  | .last | .take =>
      { callers with
        waiting := Function.update callers.waiting caller none
        grants := ⟨call, counter, write (effective call.mask) counter call.words⟩ :: callers.grants }
  | .retry =>
      { callers with
        waiting := Function.update callers.waiting caller (some ⟨call, counter, fetches⟩) }

/-- One `fetch_add` of a caller and the pass that follows it. -/
def Callers.pass (index : Fin 2) (callers : Callers) (caller : Nat) (call : Call) (fetches : Nat) :
    Callers :=
  let fetched := callers.nonce.fetchAdd index call.reserveCount 0
  let outcome := attempt (effective call.mask) fetched.1 call.reserveCount
  { callers with
    nonce := fetched.2.pauseAfter outcome
    reserved := callers.reserved + call.reserveCount.toNat
  }.settle caller call (fetches + 1) fetched.1 outcome

def Callers.step (index : Fin 2) (callers : Callers) : Event → Option Callers
  | .call caller call =>
      if (callers.waiting caller).isSome then none
      else if Refused call.mask call.reserveCount then some callers
      else some (callers.pass index caller call 0)
  | .resume caller =>
      (callers.waiting caller).map fun waiting => callers.pass index caller waiting.call waiting.fetches

/-- Nobody is inside `next`; the counter has its value after the last reset. -/
def Callers.start (nonce : Nonce) (index : Fin 2) : Callers :=
  ⟨nonce, fun _ => none, [], (nonce.nonces index).toNat⟩

/-- The masks are those of jobs and the reserve counts are not zero. -/
def Event.Admissible : Event → Prop
  | .call _ request => (∃ job : Job, job.nonceMask = request.mask) ∧ request.reserveCount ≠ 0
  | .resume _ => True

/-! ## One pass -/

/-- What holds of a call between two of its passes, with `counter` the shared one. -/
structure Waiting.Valid (waiting : Waiting) (counter : Nat) : Prop where
  low : IsLow (effective waiting.call.mask)
  positive : waiting.call.reserveCount ≠ 0
  inside : waiting.counter.toNat ≤ (effective waiting.call.mask).toNat
  behind : waiting.counter.toNat + waiting.call.reserveCount.toNat ≤ counter
  spent : waiting.fetches * waiting.call.reserveCount.toNat ≤
    waiting.counter.toNat + waiting.call.reserveCount.toNat

/-- What holds of a call that returned true. -/
structure Grant.Valid (grant : Grant) : Prop where
  low : IsLow (effective grant.call.mask)
  fits : Fits (effective grant.call.mask) grant.call.reserveCount grant.first
  words : grant.words = write (effective grant.call.mask) grant.first grant.call.words

structure Callers.Inv (index : Fin 2) (callers : Callers) : Prop where
  counter : (callers.nonce.nonces index).toNat = callers.reserved
  waiting : ∀ caller waiting, callers.waiting caller = some waiting →
    waiting.Valid callers.reserved
  allocated : Allocated (callers.grants.map Grant.block) callers.reserved
  grants : ∀ grant ∈ callers.grants, grant.Valid

theorem Callers.start_inv (nonce : Nonce) (index : Fin 2) :
    (Callers.start nonce index).Inv index where
  counter := rfl
  waiting caller waiting inside := by cases inside
  allocated := .nil _
  grants grant member := by cases member

theorem Waiting.Valid.mono {waiting : Waiting} {counter larger : Nat} (valid : waiting.Valid counter)
    (grows : counter ≤ larger) : waiting.Valid larger :=
  { valid with behind := Nat.le_trans valid.behind grows }

@[simp] theorem Callers.settle_nonce (callers : Callers) (caller : Nat) (call : Call) (fetches : Nat)
    (counter : BitVec 64) (outcome : Attempt) :
    (callers.settle caller call fetches counter outcome).nonce = callers.nonce := by
  cases outcome <;> rfl

@[simp] theorem Callers.settle_reserved (callers : Callers) (caller : Nat) (call : Call)
    (fetches : Nat) (counter : BitVec 64) (outcome : Attempt) :
    (callers.settle caller call fetches counter outcome).reserved = callers.reserved := by
  cases outcome <;> rfl

theorem Callers.pass_reserved (index : Fin 2) (callers : Callers) (caller : Nat) (call : Call)
    (fetches : Nat) : (callers.pass index caller call fetches).reserved =
      callers.reserved + call.reserveCount.toNat := by
  simp [pass]

/-- Only the passing caller moves; it is back in the loop exactly after a retry. -/
theorem Callers.settle_waiting {callers : Callers} {caller : Nat} {call : Call} {fetches : Nat}
    {counter : BitVec 64} {outcome : Attempt} {other : Nat} {waiting : Waiting}
    (inside : (callers.settle caller call fetches counter outcome).waiting other = some waiting) :
    callers.waiting other = some waiting ∨
      (outcome = .retry ∧ waiting = ⟨call, counter, fetches⟩) := by
  by_cases same : other = caller
  · subst same
    cases outcome <;> simp_all [settle]
  · left
    cases outcome <;> simpa [settle, same] using inside

theorem Callers.settle_grants {callers : Callers} {caller : Nat} {call : Call} {fetches : Nat}
    {counter : BitVec 64} {outcome : Attempt} :
    (callers.settle caller call fetches counter outcome).grants =
      if outcome.granted then
        ⟨call, counter, write (effective call.mask) counter call.words⟩ :: callers.grants
      else callers.grants := by
  cases outcome <;> rfl

theorem Callers.pass_inv {index : Fin 2} {callers : Callers} (inv : callers.Inv index) {caller : Nat}
    {call : Call} {fetches : Nat} (low : IsLow (effective call.mask)) (positive : call.reserveCount ≠ 0)
    (spent : fetches * call.reserveCount.toNat ≤ callers.reserved)
    (total : (callers.pass index caller call fetches).reserved < 2 ^ 64) :
    (callers.pass index caller call fetches).Inv index := by
  rw [pass_reserved] at total
  have counter := inv.counter
  have nonzero := (toNat_pred positive).2.2
  have fetched : (callers.nonce.fetchAdd index call.reserveCount 0).1.toNat = callers.reserved := by
    rw [fetchAdd_fst call.reserveCount (by rw [counter]; exact Nat.lt_of_le_of_lt (Nat.le_add_right _ _) total), counter]
    rfl
  have advanced : ((callers.nonce.fetchAdd index call.reserveCount 0).2.nonces index).toNat =
      callers.reserved + call.reserveCount.toNat := by
    rw [fetchAdd_counter, toNat_bump (by rw [fetched]; exact total), fetched]
  constructor
  · rw [pass_reserved]
    simpa [pass] using advanced
  · intro other waiting inside
    rw [pass_reserved]
    rcases settle_waiting inside with older | ⟨retry, rfl⟩
    · exact (inv.waiting other waiting older).mono (Nat.le_add_right _ _)
    · exact ⟨low, positive, (attempt_retry retry).1, Nat.le_of_eq (by rw [fetched]),
        by simp only [fetched, Nat.add_mul, Nat.one_mul]; omega⟩
  · rw [pass_reserved, pass, settle_grants]
    split
    · exact inv.allocated.push (Nat.le_of_eq fetched.symm)
        (Nat.le_of_eq (by simp only [Block.stop, Grant.block, fetched]))
    · exact inv.allocated.mono (Nat.le_add_right _ _)
  · rw [pass, settle_grants]
    split
    · rename_i granted
      intro grant member
      rcases List.mem_cons.mp member with rfl | member
      · exact ⟨low, (attempt_granted low positive).mp granted, rfl⟩
      · exact inv.grants grant member
    · exact inv.grants

theorem Callers.step_reserved {index : Fin 2} {callers after : Callers} {event : Event}
    (stepped : callers.step index event = some after) : callers.reserved ≤ after.reserved := by
  cases event with
  | call caller call =>
    simp only [step] at stepped
    split at stepped
    · cases stepped
    · split at stepped
      · cases stepped; exact Nat.le_refl _
      · cases stepped; rw [pass_reserved]; exact Nat.le_add_right _ _
  | resume caller =>
    simp only [step, Option.map_eq_some_iff] at stepped
    obtain ⟨waiting, _, rfl⟩ := stepped
    rw [pass_reserved]
    exact Nat.le_add_right _ _

theorem Callers.step_inv {index : Fin 2} {callers after : Callers} {event : Event}
    (inv : callers.Inv index) (admissible : event.Admissible)
    (stepped : callers.step index event = some after) (total : after.reserved < 2 ^ 64) :
    after.Inv index := by
  cases event with
  | call caller call =>
    obtain ⟨⟨job, mask⟩, positive⟩ := admissible
    simp only [step] at stepped
    split at stepped
    · cases stepped
    · split at stepped
      · cases stepped; exact inv
      · cases stepped
        exact pass_inv inv (mask ▸ effective_nonceMask_low job) positive (by omega) total
  | resume caller =>
    simp only [step, Option.map_eq_some_iff] at stepped
    obtain ⟨waiting, inside, rfl⟩ := stepped
    have valid := inv.waiting caller waiting inside
    exact pass_inv inv valid.low valid.positive (Nat.le_trans valid.spent valid.behind) total

/-- The invariant holds after every schedule whose reservations stay below `2 ^ 64`. -/
theorem Callers.run_inv {index : Fin 2} {nonce : Nonce} {events : List Event} {final : Callers}
    (admissible : ∀ event ∈ events, event.Admissible)
    (executed : run (Callers.step index) (.start nonce index) events = some final)
    (total : final.reserved < 2 ^ 64) : final.Inv index := by
  refine run_invariant (P := fun callers => callers.reserved < 2 ^ 64 → callers.Inv index) ?_
    (fun _ => start_inv nonce index) (guarded_of_mem admissible _) executed total
  intro callers event after inv good stepped small
  exact step_inv (inv (Nat.lt_of_le_of_lt (step_reserved stepped) small)) good stepped small

/-! ## Block allocation -/

theorem merge_inside {value mask counter : BitVec 64} {bits : Nat} (ones : mask.toNat = 2 ^ bits - 1)
    (small : counter.toNat < 2 ^ bits) :
    ((value &&& ~~~mask) ||| counter) &&& mask = counter &&& mask ∧
      ((value &&& ~~~mask) ||| counter) &&& ~~~mask = value &&& ~~~mask := by
  have maskBit : ∀ position, mask.getLsbD position = decide (position < bits) := fun position => by
    rw [BitVec.getLsbD, ones, Nat.testBit_two_pow_sub_one]
  constructor
  · apply BitVec.eq_of_getLsbD_eq
    intro position bound
    simp only [BitVec.getLsbD_and, BitVec.getLsbD_or, BitVec.getLsbD_not, maskBit, bound]
    by_cases below : position < bits <;> simp [below]
  · apply BitVec.eq_of_getLsbD_eq
    intro position bound
    simp only [BitVec.getLsbD_and, BitVec.getLsbD_or, BitVec.getLsbD_not, maskBit, bound]
    by_cases below : position < bits
    · simp [below]
    · simp [below, getLsbD_high small (Nat.le_of_not_lt below)]

theorem Grant.Valid.bits {grant : Grant} (valid : grant.Valid) :
    grant.words.join &&& effective grant.call.mask = grant.first &&& effective grant.call.mask ∧
      grant.words.join &&& ~~~effective grant.call.mask =
        grant.call.words.join &&& ~~~effective grant.call.mask := by
  obtain ⟨bits, _, ones⟩ := valid.low
  have inside := valid.fits.inside
  have positive := valid.fits.positive
  have : 0 < 2 ^ bits := Nat.two_pow_pos bits
  rw [valid.words, join_write _ (by omega)]
  exact merge_inside ones (by omega)

/-- Block allocation by any number of concurrent callers. -/
theorem callers_blocks {index : Fin 2} {nonce : Nonce} {events : List Event} {final : Callers}
    (admissible : ∀ event ∈ events, event.Admissible)
    (executed : run (Callers.step index) (.start nonce index) events = some final)
    (total : final.reserved < 2 ^ 64) :
    (∀ grant ∈ final.grants,
      grant.first.toNat + (grant.call.reserveCount.toNat - 1) ≤
          (grant.call.mask &&& 0x7FFFFFFFFFFFFFFF#64).toNat ∧
        grant.first.toNat % 2 ^ 32 + (grant.call.reserveCount.toNat - 1) < 2 ^ 32 ∧
        grant.words.join &&& effective grant.call.mask =
          grant.first &&& effective grant.call.mask ∧
        grant.words.join &&& ~~~effective grant.call.mask =
          grant.call.words.join &&& ~~~effective grant.call.mask) ∧
      (final.grants.map Grant.block).Pairwise Block.Disjoint ∧
      ∀ caller waiting, final.waiting caller = some waiting →
        (final.step index (.resume caller)).isSome ∧
          waiting.fetches ≤ (effective waiting.call.mask).toNat / waiting.call.reserveCount.toNat + 1 := by
  have inv := Callers.run_inv admissible executed total
  refine ⟨?_, inv.allocated.disjoint, ?_⟩
  · intro grant member
    have valid := inv.grants grant member
    have positive := valid.fits.positive
    have inside := valid.fits.inside
    have noWrap := valid.fits.low
    obtain ⟨kept, rest⟩ := valid.bits
    exact ⟨by change _ ≤ (effective grant.call.mask).toNat; omega, by omega, kept, rest⟩
  · intro caller waiting inside
    have valid := inv.waiting caller waiting inside
    have positive := (toNat_pred valid.positive).2.2
    refine ⟨by simp [Callers.step, inside], ?_⟩
    have spent := Nat.le_trans valid.spent (Nat.add_le_add_right valid.inside _)
    have bound := (Nat.le_div_iff_mul_le positive).mpr spent
    rwa [Nat.add_div_right _ positive] at bound

/-- Two backends with different reserve counts and masks on one counter. -/
theorem callers_blocks_pair :
    ∃ final, run (Callers.step 0) (.start {} 0)
        [.call 0 ⟨⟨7, 9⟩, 4, 0xFFFFFFFF⟩, .call 1 ⟨⟨0, 0⟩, 3, 0xFFFFFF⟩] = some final ∧
      final.grants.map Grant.block = [⟨4, 3⟩, ⟨0, 4⟩] ∧
      (final.grants.map Grant.block).Pairwise Block.Disjoint := by
  refine ⟨_, rfl, by decide, (@callers_blocks 0 {}
    [.call 0 ⟨⟨7, 9⟩, 4, 0xFFFFFFFF⟩, .call 1 ⟨⟨0, 0⟩, 3, 0xFFFFFF⟩] _ ?_ rfl (by decide)).2.1⟩
  intro event member
  simp only [List.mem_cons, List.not_mem_nil, or_false] at member
  rcases member with rfl | rfl
  · exact ⟨⟨{}, by decide⟩, by decide⟩
  · exact ⟨⟨{ nicehash := true }, by decide⟩, by decide⟩

/-- For a job that leaves all 64 bits to the miner, bit 63 belongs to the mask
but is neither cleared nor written. -/
theorem top_bit_not_written :
    ∃ (job : Job) (call : Call) (final : Callers), job.nonceMask = call.mask ∧
      call.reserveCount ≠ 0 ∧ run (Callers.step 0) (.start {} 0) [.call 0 call] = some final ∧
      final.reserved < 2 ^ 64 ∧
      ∃ grant ∈ final.grants, grant.words.join &&& grant.call.mask ≠ grant.first &&& grant.call.mask := by
  exact ⟨{ algorithm := .kawpowRvn }, ⟨⟨0, 0x80000000⟩, 1, BitVec.allOnes 64⟩, _, by decide, by decide,
    rfl, by decide, _, .head _, by decide⟩

end Xmrig.Nonce
