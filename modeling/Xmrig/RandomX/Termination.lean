import Xmrig.RandomX.Bytecode
import Mathlib.Algebra.BigOperators.Fin
import Mathlib.Algebra.Order.BigOperators.Group.Finset
import Mathlib.Tactic.IntervalCases
import Mathlib.Tactic.Ring

/-! Every RandomX program terminates.

The compiler keeps a discipline: a CBRANCH jumps to just after the last write
of its register or the last CBRANCH, whichever is later. Between the landing
point and the branch nothing changes the register, so the values it is tested
with are successive sums of one immediate. Bit `b` of that immediate is set,
bit `b - 1` is clear, and the test reads the eight bits from `b` on; such a
sum passes the test at most twice in a row.
-/

set_option autoImplicit false

namespace Xmrig.RandomX

section Carry

/-- The eight bits from `b` on are zero. -/
def FieldZero (b : Nat) (x : Nat) : Prop := x / 2 ^ b % 2 ^ 8 = 0

theorem add_div_carry (b x y : Nat) :
    (x + y) / 2 ^ b = x / 2 ^ b + y / 2 ^ b + (x % 2 ^ b + y % 2 ^ b) / 2 ^ b ∧
      (x % 2 ^ b + y % 2 ^ b) / 2 ^ b ≤ 1 := by
  have pos : 0 < 2 ^ b := Nat.two_pow_pos b
  have left := Nat.mod_lt x pos
  have right := Nat.mod_lt y pos
  constructor
  · conv_lhs => rw [← Nat.div_add_mod x (2 ^ b), ← Nat.div_add_mod y (2 ^ b)]
    rw [show 2 ^ b * (x / 2 ^ b) + x % 2 ^ b + (2 ^ b * (y / 2 ^ b) + y % 2 ^ b) =
      x % 2 ^ b + y % 2 ^ b + 2 ^ b * (x / 2 ^ b + y / 2 ^ b) by ring]
    rw [Nat.add_mul_div_left _ _ pos, Nat.add_comm]
  · rw [Nat.le_iff_lt_add_one, Nat.div_lt_iff_lt_mul pos]
    omega

/-- Adding an immediate with bit `b` set and bit `b - 1` clear to a value that passes the
test fails it, unless there is a carry into bit `b`; two carries in a row are impossible. -/
theorem not_fieldZero_thrice {b v d : Nat} (bit : 1 ≤ d / 2 ^ b % 2 ^ 8)
    (low : 2 * (d % 2 ^ b) < 2 ^ b) (first : FieldZero b v) (second : FieldZero b (v + d)) :
    ¬ FieldZero b (v + d + d) := by
  intro third
  have pos : 0 < 2 ^ b := Nat.two_pow_pos b
  obtain ⟨sum, carry⟩ := add_div_carry b v d
  obtain ⟨sum', _⟩ := add_div_carry b (v + d) d
  unfold FieldZero at first second third
  -- The first sum can only be zero again with a carry, and then its low part is small.
  have carried : (v % 2 ^ b + d % 2 ^ b) / 2 ^ b = 1 := by
    rw [sum] at second
    generalize (v % 2 ^ b + d % 2 ^ b) / 2 ^ b = c at *
    generalize v / 2 ^ b = p at *
    generalize d / 2 ^ b = q at *
    omega
  have large : 2 ^ b ≤ v % 2 ^ b + d % 2 ^ b := by
    have := Nat.div_mul_le_self (v % 2 ^ b + d % 2 ^ b) (2 ^ b)
    rw [carried, one_mul] at this
    exact this
  have rest : (v + d) % 2 ^ b < d % 2 ^ b := by
    have small := Nat.mod_lt v pos
    rw [Nat.add_mod, Nat.mod_eq_sub_mod large, Nat.mod_eq_of_lt (by omega)]
    omega
  have none : ((v + d) % 2 ^ b + d % 2 ^ b) / 2 ^ b = 0 := Nat.div_eq_of_lt (by omega)
  rw [sum', none] at third
  generalize (v + d) / 2 ^ b = p at *
  generalize d / 2 ^ b = q at *
  omega

theorem fieldZero_mod {b w x : Nat} (inside : b + 8 ≤ w) :
    FieldZero b (x % 2 ^ w) ↔ FieldZero b x := by
  unfold FieldZero
  rw [← Nat.mod_mul_right_div_self, ← Nat.mod_mul_right_div_self, ← Nat.pow_add,
    Nat.mod_mod_of_dvd _ (Nat.pow_dvd_pow 2 inside)]

theorem and_field_eq_zero (b x : Nat) : x &&& ((2 ^ 8 - 1) <<< b) = 0 ↔ FieldZero b x := by
  have high : (x &&& ((2 ^ 8 - 1) <<< b)) / 2 ^ b = x / 2 ^ b % 2 ^ 8 := by
    rw [← Nat.shiftRight_eq_div_pow, Nat.shiftRight_and_distrib, Nat.shiftLeft_shiftRight,
      Nat.and_two_pow_sub_one_eq_mod, Nat.shiftRight_eq_div_pow]
  have low : (x &&& ((2 ^ 8 - 1) <<< b)) % 2 ^ b = 0 := by
    rw [Nat.and_mod_two_pow, Nat.shiftLeft_eq, Nat.mul_mod_left, Nat.and_zero]
  unfold FieldZero
  rw [← high]
  constructor
  · intro zero
    rw [zero, Nat.zero_div]
  · intro zero
    rw [← Nat.div_add_mod (x &&& ((2 ^ 8 - 1) <<< b)) (2 ^ b), zero, low, Nat.mul_zero]

theorem branchMask_toNat {shift : Nat} (small : shift < 16) :
    ((branchMask shift).setWidth 64).toNat = (2 ^ 8 - 1) <<< (8 + shift) := by
  interval_cases shift <;> rfl

/-- The test of a CBRANCH reads the eight bits from `8 + shift` on. -/
theorem test_iff {shift : Nat} (small : shift < 16) (x : BitVec 64) :
    (x &&& (branchMask shift).setWidth 64 == 0) = true ↔ FieldZero (8 + shift) x.toNat := by
  rw [beq_iff_eq, ← BitVec.toNat_inj, BitVec.toNat_and, branchMask_toNat small]
  exact and_field_eq_zero (8 + shift) x.toNat

theorem branchImm_set (imm32 : BitVec 32) {shift : Nat} (small : shift < 16) :
    (branchImm imm32 shift).toNat.testBit (8 + shift) = true := by
  rw [BitVec.testBit_toNat]
  simp [branchImm, jumpOffset]
  omega

theorem branchImm_clear (imm32 : BitVec 32) (shift : Nat) :
    (branchImm imm32 shift).toNat.testBit (7 + shift) = false := by
  rw [BitVec.testBit_toNat]
  simp [branchImm, jumpOffset]

theorem not_taken_thrice (imm32 : BitVec 32) {shift : Nat} (small : shift < 16) (x : BitVec 64)
    (first : FieldZero (8 + shift) x.toNat)
    (second : FieldZero (8 + shift) (x + branchImm imm32 shift).toNat) :
    ¬ FieldZero (8 + shift) (x + branchImm imm32 shift + branchImm imm32 shift).toNat := by
  have bit : 1 ≤ (branchImm imm32 shift).toNat / 2 ^ (8 + shift) % 2 ^ 8 := by
    have set := branchImm_set imm32 small
    rw [Nat.testBit_eq_decide_div_mod_eq, decide_eq_true_iff] at set
    generalize (branchImm imm32 shift).toNat / 2 ^ (8 + shift) = q at *
    omega
  have low : 2 * ((branchImm imm32 shift).toNat % 2 ^ (8 + shift)) < 2 ^ (8 + shift) := by
    have clear := branchImm_clear imm32 shift
    rw [Nat.testBit_eq_decide_div_mod_eq, decide_eq_false_iff_not] at clear
    have even : (branchImm imm32 shift).toNat / 2 ^ (7 + shift) % 2 = 0 := by omega
    have below := Nat.mod_lt (branchImm imm32 shift).toNat (Nat.two_pow_pos (7 + shift))
    rw [show 8 + shift = 7 + shift + 1 by omega, Nat.pow_succ, Nat.mod_mul, even]
    omega
  rw [BitVec.toNat_add, fieldZero_mod (by omega)] at second
  rw [BitVec.toNat_add, fieldZero_mod (by omega), BitVec.toNat_add]
  have modulo : ∀ y z : Nat, FieldZero (8 + shift) (y % 2 ^ 64 + z) ↔ FieldZero (8 + shift) (y + z) := by
    intro y z
    rw [← fieldZero_mod (show 8 + shift + 8 ≤ 64 by omega), Nat.mod_add_mod,
      fieldZero_mod (by omega)]
  rw [modulo]
  exact not_fieldZero_thrice bit low first second

end Carry

section Discipline

/-- What holds of a compiled CBRANCH at `c`: its landing point is after every earlier CBRANCH
and after every earlier write of its register. -/
structure BranchAt (code : List InstructionByteCode) (c : Nat) (ibc : InstructionByteCode) :
    Prop where
  lower : -1 ≤ ibc.target.toInt
  upper : ibc.target.toInt < c
  quiet : ∀ (j : Nat) (other : InstructionByteCode), ibc.target.toInt < j → j < c →
    code[j]? = some other → other.type ≠ .cbranch ∧ ibc.idst ∉ other.written
  shape : ∃ imm32 shift, shift < 16 ∧ ibc.imm = branchImm imm32 shift ∧
    ibc.memMask = branchMask shift

def Disciplined (code : List InstructionByteCode) : Prop :=
  ∀ (c : Nat) (ibc : InstructionByteCode), code[c]? = some ibc → ibc.type = .cbranch →
    BranchAt code c ibc

/-- What `registerUsage` says about the instructions compiled so far. -/
structure Tracks (code : List InstructionByteCode) (usage : RegisterUsage) : Prop where
  lower : ∀ index, -1 ≤ usage index
  upper : ∀ index, usage index < code.length
  quiet : ∀ (index : Fin 8) (j : Nat) (other : InstructionByteCode), usage index < j →
    code[j]? = some other → other.type ≠ .cbranch ∧ index ∉ other.written

theorem tracks_begin : Tracks [] RegisterUsage.begin where
  lower _ := Int.le_refl _
  upper _ := by simp [RegisterUsage.begin]
  quiet _ _ _ _ found := by simp at found

variable (config : Configuration) {code : List InstructionByteCode} {usage : RegisterUsage}

theorem Tracks.compileInstruction (tracks : Tracks code usage) (instr : Instruction) :
    Tracks (code ++ [(RandomX.compileInstruction config instr code.length usage).1])
      (RandomX.compileInstruction config instr code.length usage).2 where
  lower index := by
    rw [compileInstruction_usage]
    split
    · omega
    · exact tracks.lower index
  upper index := by
    rw [compileInstruction_usage, List.length_append, List.length_singleton]
    have := tracks.upper index
    split <;> omega
  quiet index j other above found := by
    rw [compileInstruction_usage] at above
    split at above
    · rw [List.getElem?_eq_none (by simp; omega)] at found
      cases found
    · rename_i unmarked
      rcases Nat.lt_or_ge j code.length with inside | outside
      · rw [List.getElem?_append_left inside] at found
        exact tracks.quiet index j other above found
      · obtain rfl : j = code.length := by
          have := (List.getElem?_eq_some_iff.mp found).1
          simp only [List.length_append, List.length_singleton] at this
          omega
        rw [List.getElem?_concat_length] at found
        cases found
        exact not_or.mp unmarked

theorem BranchAt.append {c : Nat} {ibc : InstructionByteCode} (inside : c < code.length)
    (branch : BranchAt code c ibc) (more : List InstructionByteCode) :
    BranchAt (code ++ more) c ibc where
  lower := branch.lower
  upper := branch.upper
  quiet j other above below found := by
    rw [List.getElem?_append_left (by omega)] at found
    exact branch.quiet j other above below found
  shape := branch.shape

theorem toInt_ofInt_16 {x : Int} (lower : -1 ≤ x) (upper : x < 2 ^ 15) :
    (BitVec.ofInt 16 x).toInt = x := by
  exact BitVec.toInt_ofInt_eq_self (by decide) (by omega) upper

theorem Disciplined.compileInstruction (disciplined : Disciplined code)
    (tracks : Tracks code usage) (fits : code.length < 2 ^ 15) (instr : Instruction) :
    Disciplined (code ++ [(RandomX.compileInstruction config instr code.length usage).1]) := by
  intro c ibc found branch
  rcases Nat.lt_or_ge c code.length with inside | outside
  · rw [List.getElem?_append_left inside] at found
    exact (disciplined c ibc found branch).append inside _
  · obtain rfl : c = code.length := by
      have := (List.getElem?_eq_some_iff.mp found).1
      simp only [List.length_append, List.length_singleton] at this
      omega
    rw [List.getElem?_concat_length] at found
    cases found
    have upper := tracks.upper (register instr.dst)
    have exact : (BitVec.ofInt 16 (usage (register instr.dst))).toInt =
        usage (register instr.dst) :=
      toInt_ofInt_16 (tracks.lower _) (by omega)
    rw [compileInstruction_cbranch branch]
    constructor
    · rw [exact]
      exact tracks.lower _
    · rw [exact]
      exact upper
    · intro j other above below found
      rw [exact] at above
      rw [List.getElem?_append_left below] at found
      exact tracks.quiet _ j other above found
    · exact ⟨instr.imm32, instr.getModCond, instr.getModCond_lt, rfl, rfl⟩

theorem Disciplined.compileFrom (disciplined : Disciplined code) (tracks : Tracks code usage)
    (rest : List Instruction) (fits : code.length + rest.length ≤ 2 ^ 15) :
    Disciplined (code ++ RandomX.compileFrom config code.length usage rest) := by
  induction rest generalizing code usage with
  | nil =>
    rw [RandomX.compileFrom, List.append_nil]
    exact disciplined
  | cons instr rest ih =>
    rw [List.length_cons] at fits
    have later := ih (disciplined.compileInstruction config tracks (by omega) instr)
      (tracks.compileInstruction config instr) (by simp; omega)
    rw [List.length_append, List.length_singleton, List.append_assoc] at later
    exact later

/-- The discipline of every compiled program; the bound is that of an `int16_t` target. -/
theorem compileProgram_disciplined (config : Configuration) (program : List Instruction)
    (fits : program.length ≤ 2 ^ 15) : Disciplined (compileProgram config program) := by
  have empty : Disciplined [] := by
    intro c ibc found
    simp at found
  exact empty.compileFrom config tracks_begin program (by simpa using fits)

end Discipline

section Run
variable (unit : FloatUnit) (eMask : Vec128) (code : List InstructionByteCode)

/-- The state after `n` passes of the loop. -/
def after (start : Running) : Nat → Option Running
  | 0 => some start
  | n + 1 => (after start n).bind (stepBytecode unit eMask code)

/-- The CBRANCH at `c` is the next instruction and will jump. -/
def TakenAt (c : Nat) (state : Running) : Prop :=
  ∃ ibc, code[c]? = some ibc ∧ ibc.type = .cbranch ∧ state.pc = c ∧ ibc.taken state.machine = true

/-- How many times in a row the branch is taken when its register holds `x`. -/
def takes (ibc : InstructionByteCode) (x : BitVec 64) : Nat :=
  if x + ibc.imm &&& ibc.memMask.setWidth 64 == 0 then
    if x + ibc.imm + ibc.imm &&& ibc.memMask.setWidth 64 == 0 then 2 else 1
  else 0

/-- A bound on how often the branch at `c` can still be taken: before the landing point its
register may get any value, from there on it keeps its value up to the branch. -/
def remaining (c : Nat) (ibc : InstructionByteCode) (state : Running) : Nat :=
  if state.pc ≤ ibc.target.toInt then 2
  else if state.pc ≤ c then takes ibc (state.machine.r ibc.idst)
  else 0

theorem takes_le (ibc : InstructionByteCode) (x : BitVec 64) : takes ibc x ≤ 2 := by
  unfold takes
  split
  · split <;> omega
  · omega

theorem remaining_le (c : Nat) (ibc : InstructionByteCode) (state : Running) :
    remaining c ibc state ≤ 2 := by
  unfold remaining
  split
  · exact Nat.le_refl 2
  · split
    · exact takes_le _ _
    · omega

variable {unit eMask code}

theorem takes_add {c : Nat} {ibc : InstructionByteCode} (branch : BranchAt code c ibc)
    {x : BitVec 64} (taken : (x + ibc.imm &&& ibc.memMask.setWidth 64 == 0) = true) :
    takes ibc (x + ibc.imm) + 1 ≤ takes ibc x := by
  obtain ⟨imm32, shift, small, imm, mask⟩ := branch.shape
  have thrice := not_taken_thrice imm32 small (x + ibc.imm)
  simp only [← test_iff small, ← imm, ← mask] at thrice
  unfold takes
  rw [if_pos taken]
  split
  · rename_i again
    rw [if_neg (thrice taken again)]
  · omega

theorem stepBytecode_cases {state next : Running}
    (stepped : stepBytecode unit eMask code state = some next) :
    ∃ (p : Nat) (ibc : InstructionByteCode), state.pc = p ∧ code[p]? = some ibc ∧
      ((ibc.type ≠ .cbranch ∧ next.pc = p + 1 ∧
          ∀ index ∉ ibc.written, next.machine.r index = state.machine.r index) ∨
        (ibc.type = .cbranch ∧
          next.pc = (if ibc.taken state.machine then ibc.target.toInt else p) + 1 ∧
          next.machine = state.machine.setR ibc.idst (state.machine.r ibc.idst + ibc.imm))) := by
  unfold stepBytecode at stepped
  split at stepped
  · cases stepped
  rename_i inside
  obtain ⟨ibc, found, executed⟩ := Option.bind_eq_some_iff.mp stepped
  split at executed
  · cases executed
  cases executed
  have position : state.pc = state.pc.toNat := by omega
  refine ⟨state.pc.toNat, ibc, position, found, ?_⟩
  by_cases branch : ibc.type = .cbranch
  · right
    rw [executeInstruction_cbranch unit eMask branch, ← position]
    exact ⟨branch, rfl, rfl⟩
  · left
    refine ⟨branch, ?_, fun index kept => ?_⟩
    · dsimp only
      rw [executeInstruction_pc unit eMask ibc _ _ branch, ← position]
    · exact executeInstruction_frame unit eMask ibc _ _ kept

theorem remaining_step (disciplined : Disciplined code) {c : Nat} {ibc : InstructionByteCode}
    (found : code[c]? = some ibc) (isBranch : ibc.type = .cbranch) {state next : Running}
    (stepped : stepBytecode unit eMask code state = some next) [Decidable (TakenAt code c state)] :
    remaining c ibc next + (if TakenAt code c state then 1 else 0) ≤ remaining c ibc state := by
  have branch := disciplined c ibc found isBranch
  have lower := branch.lower
  have upper := branch.upper
  obtain ⟨p, other, position, executed, effect⟩ := stepBytecode_cases stepped
  have elsewhere : p ≠ c → ¬ TakenAt code c state := by
    rintro different ⟨_, _, _, same, _⟩
    omega
  rcases lt_trichotomy p c with before | rfl | past
  · rw [if_neg (elsewhere (by omega)), Nat.add_zero]
    by_cases early : (p : Int) ≤ ibc.target.toInt
    · rw [show remaining c ibc state = 2 by unfold remaining; rw [position, if_pos early]]
      exact remaining_le c ibc next
    · -- Between the landing point and the branch the register is not written.
      obtain ⟨straight, kept⟩ := branch.quiet p other (by omega) before executed
      rcases effect with ⟨_, moved, frame⟩ | ⟨jumps, _⟩
      · have same := frame ibc.idst kept
        unfold remaining
        rw [position, moved, same, if_neg (by omega), if_pos (by omega), if_neg early,
          if_pos (by omega)]
      · exact absurd jumps straight
  · obtain rfl : other = ibc := by
      rw [executed] at found
      exact Option.some.inj found
    rcases effect with ⟨straight, _⟩ | ⟨_, moved, machine⟩
    · exact absurd isBranch straight
    by_cases taken : other.taken state.machine = true
    · rw [if_pos taken] at moved
      have used := takes_add branch taken
      have now : remaining p other state = takes other (state.machine.r other.idst) := by
        unfold remaining
        rw [position, if_neg (by omega), if_pos (by omega)]
      have later : remaining p other next =
          takes other (state.machine.r other.idst + other.imm) := by
        unfold remaining
        rw [moved, if_neg (by omega), if_pos (by omega), machine, Machine.setR_r,
          Function.update_self]
      rw [now, later]
      split <;> omega
    · rw [if_neg taken] at moved
      have none : ¬ TakenAt code p state := by
        rintro ⟨same, at_p, _, _, jumped⟩
        rw [executed] at at_p
        cases at_p
        exact taken jumped
      have done : remaining p other next = 0 := by
        unfold remaining
        rw [moved, if_neg (by omega), if_neg (by omega)]
      rw [if_neg none, done]
      omega
  · -- Later branches land after `c`.
    have stays : (c : Int) < next.pc := by
      rcases effect with ⟨_, moved, _⟩ | ⟨jumps, moved, _⟩
      · omega
      · have landing : (c : Int) ≤ other.target.toInt := by
          by_contra below
          exact ((disciplined p other executed jumps).quiet c ibc (by omega) past found).1 isBranch
        rw [moved]
        split <;> omega
    rw [if_neg (elsewhere (by omega)), show remaining c ibc next = 0 by
      unfold remaining
      rw [if_neg (by omega), if_neg (by omega)]]
    omega

theorem remaining_mono (disciplined : Disciplined code) {c : Nat} {ibc : InstructionByteCode}
    (found : code[c]? = some ibc) (isBranch : ibc.type = .cbranch) {start first last : Running}
    {m n : Nat} (early : after unit eMask code start m = some first)
    (late : after unit eMask code start (m + n) = some last) :
    remaining c ibc last ≤ remaining c ibc first := by
  induction n generalizing last with
  | zero =>
    rw [Nat.add_zero, early] at late
    cases late
    exact Nat.le_refl _
  | succ n ih =>
    obtain ⟨middle, reached, stepped⟩ := Option.bind_eq_some_iff.mp late
    classical
    have one := remaining_step disciplined found isBranch stepped
    have others := ih reached
    omega

theorem remaining_lt_of_taken (disciplined : Disciplined code) {c : Nat}
    {ibc : InstructionByteCode} (found : code[c]? = some ibc) (isBranch : ibc.type = .cbranch)
    {start first last : Running} {m n : Nat} (before : m < n)
    (early : after unit eMask code start m = some first) (taken : TakenAt code c first)
    (late : after unit eMask code start n = some last) :
    remaining c ibc last + 1 ≤ remaining c ibc first := by
  obtain ⟨k, rfl⟩ : ∃ k, n = m + 1 + k := ⟨n - (m + 1), by omega⟩
  cases stepped : stepBytecode unit eMask code first with
  | none =>
    obtain ⟨ibc, found, isBranch, position, _⟩ := taken
    simp [stepBytecode, position, found, isBranch] at stepped
  | some next =>
    have reached : after unit eMask code start (m + 1) = some next := by
      rw [after, early]
      exact stepped
    classical
    have one := remaining_step disciplined found isBranch stepped
    have rest := remaining_mono disciplined found isBranch reached late
    rw [if_pos taken] at one
    omega

theorem taken_at_most_twice (disciplined : Disciplined code) {c i j k : Nat}
    (first : i < j) (second : j < k) {start x y z : Running}
    (reached_x : after unit eMask code start i = some x)
    (reached_y : after unit eMask code start j = some y)
    (reached_z : after unit eMask code start k = some z)
    (taken_x : TakenAt code c x) (taken_y : TakenAt code c y) : ¬ TakenAt code c z := by
  intro taken_z
  obtain ⟨ibc, found, isBranch, position, jumps⟩ := taken_z
  have branch := disciplined c ibc found isBranch
  have upper := branch.upper
  have xy := remaining_lt_of_taken disciplined found isBranch first reached_x taken_x reached_y
  have yz := remaining_lt_of_taken disciplined found isBranch second reached_y taken_y reached_z
  have bound := remaining_le c ibc x
  have last : 1 ≤ remaining c ibc z := by
    have used := takes_add branch jumps
    unfold remaining
    rw [position, if_neg (by omega), if_pos (Int.le_refl _)]
    omega
  omega

/-- What the turns of the branch at `c` cost: each repeats the instructions from its landing
point on. -/
def debt (code : List InstructionByteCode) (state : Running) (c : Nat) : Nat :=
  match code[c]? with
  | some ibc => if ibc.type = .cbranch then
      remaining c ibc state * (c - ibc.target.toInt).toNat else 0
  | none => 0

def budget (code : List InstructionByteCode) (state : Running) : Nat :=
  ∑ c ∈ Finset.range code.length, debt code state c + (code.length - state.pc).toNat

theorem debt_step (disciplined : Disciplined code) {state next : Running}
    (stepped : stepBytecode unit eMask code state = some next) (c : Nat) :
    debt code next c ≤ debt code state c := by
  unfold debt
  split
  · rename_i ibc found
    split
    · rename_i isBranch
      classical
      have turns := remaining_step disciplined found isBranch stepped
      exact Nat.mul_le_mul_right _ (by omega)
    · exact Nat.le_refl 0
  · exact Nat.le_refl 0

theorem debt_taken (disciplined : Disciplined code) {state next : Running}
    (stepped : stepBytecode unit eMask code state = some next) {c : Nat}
    {ibc : InstructionByteCode} (found : code[c]? = some ibc) (isBranch : ibc.type = .cbranch)
    (taken : TakenAt code c state) :
    debt code next c + (c - ibc.target.toInt).toNat ≤ debt code state c := by
  unfold debt
  rw [found]
  simp only [isBranch, if_true]
  classical
  have turns := remaining_step disciplined found isBranch stepped
  rw [if_pos taken] at turns
  calc remaining c ibc next * (c - ibc.target.toInt).toNat + (c - ibc.target.toInt).toNat
      = (remaining c ibc next + 1) * (c - ibc.target.toInt).toNat := by ring
    _ ≤ remaining c ibc state * (c - ibc.target.toInt).toNat := Nat.mul_le_mul_right _ turns

theorem budget_step (disciplined : Disciplined code) {state next : Running}
    (stepped : stepBytecode unit eMask code state = some next) :
    budget code next < budget code state ∧ 0 ≤ next.pc := by
  obtain ⟨p, ibc, position, executed, effect⟩ := stepBytecode_cases stepped
  have inside := (List.getElem?_eq_some_iff.mp executed).1
  unfold budget
  by_cases jump : ibc.type = .cbranch ∧ ibc.taken state.machine = true
  · obtain ⟨isBranch, taken⟩ := jump
    have branch := disciplined p ibc executed isBranch
    have lower := branch.lower
    have upper := branch.upper
    rcases effect with ⟨straight, _⟩ | ⟨_, moved, _⟩
    · exact absurd isBranch straight
    rw [if_pos taken] at moved
    have paid : ∑ c ∈ Finset.range code.length, debt code next c + (p - ibc.target.toInt).toNat ≤
        ∑ c ∈ Finset.range code.length, debt code state c := by
      have split : ∀ state, ∑ c ∈ Finset.range code.length, debt code state c =
          debt code state p + ∑ c ∈ (Finset.range code.length).erase p, debt code state c :=
        fun state => (Finset.add_sum_erase _ _ (Finset.mem_range.mpr inside)).symm
      have here := debt_taken disciplined stepped executed isBranch
        ⟨ibc, executed, isBranch, position, taken⟩
      have rest := Finset.sum_le_sum (s := (Finset.range code.length).erase p) fun c _ =>
        debt_step disciplined stepped c
      rw [split next, split state]
      omega
    omega
  · have forward : next.pc = p + 1 := by
      rcases effect with ⟨_, moved, _⟩ | ⟨isBranch, moved, _⟩
      · exact moved
      · rw [moved, if_neg fun taken => jump ⟨isBranch, taken⟩]
    have kept : ∑ c ∈ Finset.range code.length, debt code next c ≤
        ∑ c ∈ Finset.range code.length, debt code state c :=
      Finset.sum_le_sum fun c _ => debt_step disciplined stepped c
    omega

theorem executeBytecode_isSome (disciplined : Disciplined code)
    (executable : ∀ ibc ∈ code, ibc.type ≠ .imulRcp) (fuel : Nat) (state : Running)
    (inside : 0 ≤ state.pc) (enough : budget code state ≤ fuel) :
    (executeBytecode unit eMask code fuel state).isSome := by
  induction fuel generalizing state with
  | zero =>
    unfold budget at enough
    rw [executeBytecode, if_neg (by omega)]
    rfl
  | succ fuel ih =>
    rw [executeBytecode]
    split
    · rename_i running
      cases stepped : stepBytecode unit eMask code state with
      | none =>
        have found : state.pc.toNat < code.length := by omega
        have possible := executable code[state.pc.toNat] (List.getElem_mem found)
        simp [stepBytecode, found, Int.not_lt.mpr inside, possible] at stepped
      | some next =>
        obtain ⟨less, nonneg⟩ := budget_step disciplined stepped
        exact ih next nonneg (by omega)
    · rfl

end Run

/-- Every program, compiled and started with any registers, scratchpad and rounding mode:
every CBRANCH lands after every earlier CBRANCH, no instruction between the landing point and
the branch changes its register, no CBRANCH is taken a third time, and the loop ends. -/
theorem executeBytecode_terminates (config : Configuration) (program : List Instruction)
    (fits : program.length ≤ 2 ^ 15) (unit : FloatUnit) (eMask : Vec128) (machine : Machine) :
    (∀ (c : Nat) (ibc : InstructionByteCode), (compileProgram config program)[c]? = some ibc →
      ibc.type = .cbranch →
        0 ≤ ibc.target.toInt + 1 ∧ ibc.target.toInt + 1 ≤ c ∧
        ∀ (j : Nat) (other : InstructionByteCode), j < c →
          (compileProgram config program)[j]? = some other →
            (other.type = .cbranch → j < ibc.target.toInt + 1) ∧
            (ibc.target.toInt + 1 ≤ j → ∀ pc before,
              (executeInstruction unit eMask other pc before).2.r ibc.idst = before.r ibc.idst)) ∧
    (∀ (c i j k : Nat) (x y z : Running), i < j → j < k →
      after unit eMask (compileProgram config program) ⟨0, machine⟩ i = some x →
      after unit eMask (compileProgram config program) ⟨0, machine⟩ j = some y →
      after unit eMask (compileProgram config program) ⟨0, machine⟩ k = some z →
      ¬ (TakenAt (compileProgram config program) c x ∧ TakenAt (compileProgram config program) c y ∧
        TakenAt (compileProgram config program) c z)) ∧
    ∃ fuel final,
      executeBytecode unit eMask (compileProgram config program) fuel ⟨0, machine⟩ = some final := by
  have disciplined := compileProgram_disciplined config program fits
  refine ⟨fun c ibc found isBranch => ?_, ?_, ?_⟩
  · have branch := disciplined c ibc found isBranch
    have lower := branch.lower
    have upper := branch.upper
    refine ⟨by omega, by omega, fun j other earlier placed => ⟨fun jumps => ?_, ?_⟩⟩
    · by_contra between
      exact (branch.quiet j other (by omega) earlier placed).1 jumps
    · intro between pc before
      apply executeInstruction_frame
      exact (branch.quiet j other (by omega) earlier placed).2
  · rintro c i j k x y z first second reached_x reached_y reached_z ⟨taken_x, taken_y, taken_z⟩
    exact taken_at_most_twice disciplined first second reached_x reached_y reached_z taken_x taken_y
      taken_z
  · exact ⟨_, Option.isSome_iff_exists.mp
      (executeBytecode_isSome disciplined (compileFrom_executable _ _ _ _) _ _ (Int.le_refl 0)
        (Nat.le_refl _))⟩

/-- A program that is one CBRANCH back to itself, in the processor's reset state. -/
theorem executeBytecode_terminates_loop :
    ([⟨214, 0, 0, 0, 0xffffffff⟩] : List Instruction).length ≤ 2 ^ 15 ∧
      ∃ fuel final, executeBytecode
        ⟨fun _ x _ => x, fun _ x _ => x, fun _ x _ => x, fun _ x _ => x, fun _ x => x,
          fun x => x.setWidth 64⟩ ⟨0, 0⟩
        (compileProgram Configuration.base [⟨214, 0, 0, 0, 0xffffffff⟩]) fuel
        ⟨0, ⟨fun _ => 0x200, fun _ => ⟨0, 0⟩, fun _ => ⟨0, 0⟩, fun _ => ⟨0, 0⟩, fun _ => 0, 0⟩⟩ =
          some final :=
  ⟨by decide, (executeBytecode_terminates Configuration.base [⟨214, 0, 0, 0, 0xffffffff⟩]
    (by decide) _ _ _).2.2⟩

end Xmrig.RandomX
