import Xmrig.RandomX.Termination

/-! CFROUND instructions that nothing uses.

While the native compiler goes through a program it remembers the last instruction whose
result depends on the rounding mode and the last CFROUND. A CBRANCH that jumps to before
the former counts as one itself. A CFROUND that no such instruction follows before the
next CFROUND is dead: the compiler takes it out of the code again. What is shown here is
that taking out all of them changes no run of the program.

The mode may differ only in a stretch that ends at a CFROUND and begins behind the last
such instruction before it. In the stretch nothing rounds, every CBRANCH lands inside,
and every CFROUND but the one at the end is dead.
-/

set_option autoImplicit false

namespace Xmrig.RandomX

def InstructionType.rounds : InstructionType → Bool
  | .faddR | .faddM | .fsubR | .fsubM | .fmulR | .fdivM | .fsqrtR => true
  | _ => false

/-- What is remembered, as indices of instructions, and the CFROUNDs that were taken out. -/
structure Marks where
  lastRounding : Int := -1
  lastCfround : Int := -1
  dead : List Nat := []

def Marks.next (marks : Marks) (ibc : InstructionByteCode) (i : Nat) : Marks :=
  match ibc.type with
  | .cbranch =>
      if ibc.target.toInt + 1 ≤ marks.lastRounding then { marks with lastRounding := i } else marks
  | .cfround =>
      { marks with
        lastCfround := i
        dead := if marks.lastRounding < marks.lastCfround then marks.lastCfround.toNat :: marks.dead
          else marks.dead }
  | type => if type.rounds then { marks with lastRounding := i } else marks

/-- The marks after the first `n` instructions. -/
def marksAfter (code : List InstructionByteCode) : Nat → Marks
  | 0 => {}
  | n + 1 =>
      match code[n]? with
      | some ibc => (marksAfter code n).next ibc n
      | none => marksAfter code n

def withoutDead (code : List InstructionByteCode) : List InstructionByteCode :=
  code.mapIdx fun i ibc => if i ∈ (marksAfter code code.length).dead then { type := .nop } else ibc

section Marks
variable {code : List InstructionByteCode}

theorem marksAfter_succ {n : Nat} {ibc : InstructionByteCode} (found : code[n]? = some ibc) :
    marksAfter code (n + 1) = (marksAfter code n).next ibc n := by
  rw [marksAfter, found]

theorem Marks.next_lastRounding (marks : Marks) (ibc : InstructionByteCode) (i : Nat) :
    (marks.next ibc i).lastRounding =
      if ibc.type.rounds ∨ ibc.type = .cbranch ∧ ibc.target.toInt + 1 ≤ marks.lastRounding then (i : Int)
      else marks.lastRounding := by
  obtain ⟨type, idst, isrc, fdst, fsrc, imm, target, shift, memMask⟩ := ibc
  cases type
  case cbranch =>
    by_cases overwrites : target.toInt + 1 ≤ marks.lastRounding
    · simp [Marks.next, overwrites]
    · simp [Marks.next, overwrites, InstructionType.rounds]
  all_goals simp [Marks.next, InstructionType.rounds]

theorem Marks.next_lastCfround (marks : Marks) (ibc : InstructionByteCode) (i : Nat) :
    (marks.next ibc i).lastCfround = if ibc.type = .cfround then (i : Int) else marks.lastCfround := by
  obtain ⟨type, idst, isrc, fdst, fsrc, imm, target, shift, memMask⟩ := ibc
  cases type
  case cbranch =>
    simp only [Marks.next]
    split <;> rfl
  all_goals simp [Marks.next, InstructionType.rounds]

theorem Marks.next_dead (marks : Marks) (ibc : InstructionByteCode) (i : Nat) :
    (marks.next ibc i).dead =
      if ibc.type = .cfround ∧ marks.lastRounding < marks.lastCfround then
        marks.lastCfround.toNat :: marks.dead
      else marks.dead := by
  obtain ⟨type, idst, isrc, fdst, fsrc, imm, target, shift, memMask⟩ := ibc
  cases type
  case cbranch =>
    simp only [Marks.next]
    split <;> simp
  all_goals simp [Marks.next, InstructionType.rounds]

theorem lastRounding_succ {n : Nat} {ibc : InstructionByteCode} (found : code[n]? = some ibc) :
    (marksAfter code (n + 1)).lastRounding = n ∨
      (marksAfter code (n + 1)).lastRounding = (marksAfter code n).lastRounding ∧ ibc.type.rounds = false ∧
        (ibc.type = .cbranch → (marksAfter code n).lastRounding < ibc.target.toInt + 1) := by
  rw [marksAfter_succ found, Marks.next_lastRounding]
  split
  · exact .inl rfl
  · rename_i silent
    refine .inr ⟨rfl, ?_, fun branch => ?_⟩
    · simpa using fun rounds => silent (.inl rounds)
    · exact Int.not_le.mp fun before => silent (.inr ⟨branch, before⟩)

variable (code) in
theorem lastRounding_spec (n : Nat) :
    (marksAfter code n).lastRounding = -1 ∨
      ∃ (k : Nat) (ibc : InstructionByteCode), k < n ∧ (marksAfter code n).lastRounding = k ∧
        code[k]? = some ibc ∧ (ibc.type.rounds ∨ ibc.type = .cbranch) := by
  induction n with
  | zero => exact .inl rfl
  | succ n ih =>
    have earlier : (marksAfter code (n + 1)).lastRounding = (marksAfter code n).lastRounding →
        (marksAfter code (n + 1)).lastRounding = -1 ∨
          ∃ (k : Nat) (ibc : InstructionByteCode), k < n + 1 ∧ (marksAfter code (n + 1)).lastRounding = k ∧
            code[k]? = some ibc ∧ (ibc.type.rounds ∨ ibc.type = .cbranch) := by
      intro same
      rw [same]
      rcases ih with none | ⟨k, ibc, small, rest⟩
      · exact .inl none
      · exact .inr ⟨k, ibc, by omega, rest⟩
    cases entry : code[n]? with
    | none => exact earlier (by rw [marksAfter, entry])
    | some ibc =>
      have next := (marksAfter code n).next_lastRounding ibc n
      rw [← marksAfter_succ entry] at next
      split at next
      · rename_i marked
        refine .inr ⟨n, ibc, by omega, next, entry, ?_⟩
        rcases marked with rounds | ⟨branch, _⟩
        · exact .inl rounds
        · exact .inr branch
      · exact earlier next

variable (code) in
theorem lastRounding_bounds (n : Nat) :
    -1 ≤ (marksAfter code n).lastRounding ∧ (marksAfter code n).lastRounding < n := by
  rcases lastRounding_spec code n with none | ⟨k, _, small, same, _⟩
  · omega
  · omega

/-- An instruction behind the last one that rounds does not round, and a CBRANCH there does not
jump to before it. -/
theorem quiet_behind {m : Nat} {k : Nat} (before : k < m) (behind : (marksAfter code m).lastRounding < k)
    {ibc : InstructionByteCode} (found : code[k]? = some ibc) :
    (marksAfter code k).lastRounding = (marksAfter code m).lastRounding ∧ ibc.type.rounds = false ∧
      (ibc.type = .cbranch → (marksAfter code m).lastRounding < ibc.target.toInt + 1) := by
  induction m with
  | zero => omega
  | succ m ih =>
    rcases Nat.lt_or_ge k m with earlier | last
    · have same : (marksAfter code (m + 1)).lastRounding = (marksAfter code m).lastRounding := by
        cases entry : code[m]? with
        | none => rw [marksAfter, entry]
        | some other =>
          rcases lastRounding_succ entry with set | ⟨kept, _⟩
          · omega
          · exact kept
      rw [same] at behind ⊢
      exact ih earlier behind
    · obtain rfl : k = m := by omega
      rcases lastRounding_succ found with set | ⟨kept, silent, jumps⟩
      · omega
      · rw [kept]
        exact ⟨rfl, silent, jumps⟩

variable (code) in
theorem lastCfround_spec (n : Nat) :
    (∀ k < n, ∀ ibc, code[k]? = some ibc → ibc.type = .cfround → (k : Int) ≤ (marksAfter code n).lastCfround) ∧
      ((marksAfter code n).lastCfround = -1 ∨
        ∃ (k : Nat) (ibc : InstructionByteCode), k < n ∧ (marksAfter code n).lastCfround = k ∧
          code[k]? = some ibc ∧ ibc.type = .cfround) := by
  induction n with
  | zero => exact ⟨fun k small => absurd small (Nat.not_lt_zero k), .inl rfl⟩
  | succ n ih =>
    obtain ⟨latest, origin⟩ := ih
    rw [marksAfter]
    cases entry : code[n]? with
    | none =>
      refine ⟨fun k small ibc found round => ?_, ?_⟩
      · obtain rfl | earlier : k = n ∨ k < n := by omega
        · rw [entry] at found
          cases found
        · exact latest k earlier ibc found round
      · rcases origin with none | ⟨k, ibc, small, rest⟩
        · exact .inl none
        · exact .inr ⟨k, ibc, by omega, rest⟩
    | some last =>
      simp only [Marks.next_lastCfround]
      by_cases round : last.type = .cfround
      · rw [if_pos round]
        exact ⟨fun k small _ _ _ => by omega, .inr ⟨n, last, by omega, rfl, entry, round⟩⟩
      · rw [if_neg round]
        refine ⟨fun k small ibc found isRound => ?_, ?_⟩
        · obtain rfl | earlier : k = n ∨ k < n := by omega
          · rw [entry] at found
            cases found
            exact absurd isRound round
          · exact latest k earlier ibc found isRound
        · rcases origin with none | ⟨k, ibc, small, rest⟩
          · exact .inl none
          · exact .inr ⟨k, ibc, by omega, rest⟩

/-- A CFROUND with a later one and nothing that rounds in between. -/
structure Dead (code : List InstructionByteCode) (n i : Nat) : Prop where
  round : ∃ ibc, code[i]? = some ibc ∧ ibc.type = .cfround
  later : ∃ (j : Nat) (ibc : InstructionByteCode), i < j ∧ j < n ∧ code[j]? = some ibc ∧ ibc.type = .cfround ∧
    (marksAfter code j).lastRounding < i

/-- Exactly the dead instructions are taken out, although only the next CFROUND is looked at. -/
theorem mem_dead_iff (n i : Nat) : i ∈ (marksAfter code n).dead ↔ Dead code n i := by
  induction n with
  | zero =>
    constructor
    · intro member
      cases member
    · rintro ⟨_, j, _, _, small, _⟩
      omega
  | succ n ih =>
    have widen : Dead code n i → Dead code (n + 1) i := by
      rintro ⟨round, j, ibc, behind, small, rest⟩
      exact ⟨round, j, ibc, behind, by omega, rest⟩
    have narrow : Dead code (n + 1) i → (∀ ibc, code[n]? = some ibc → ibc.type = .cfround → False) →
        Dead code n i := by
      rintro ⟨round, j, ibc, behind, small, found, isRound, quiet⟩ none
      obtain rfl | earlier : j = n ∨ j < n := by omega
      · exact (none ibc found isRound).elim
      · exact ⟨round, j, ibc, behind, earlier, found, isRound, quiet⟩
    rw [marksAfter]
    cases entry : code[n]? with
    | none =>
      rw [ih]
      exact ⟨widen, fun dead => narrow dead fun ibc found => by rw [entry] at found; cases found⟩
    | some last =>
      simp only [Marks.next_dead]
      obtain ⟨latest, origin⟩ := lastCfround_spec code n
      by_cases round : last.type = .cfround
      · constructor
        · intro member
          split at member
          · rename_i unused
            rcases List.mem_cons.mp member with here | before
            · rcases origin with none | ⟨k, ibc, small, same, found, isRound⟩
              · have := (lastRounding_bounds code n).1
                omega
              · have index : i = k := by
                  rw [here, same]
                  exact Int.toNat_natCast k
                subst index
                exact ⟨⟨ibc, found, isRound⟩, n, last, small, by omega, entry, round, by omega⟩
            · exact widen (ih.mp before)
          · exact widen (ih.mp member)
        · rintro ⟨⟨ibc, found, isRound⟩, j, other, behind, small, foundOther, otherRound, quiet⟩
          obtain rfl | earlier : j = n ∨ j < n := by omega
          · have reached := latest i behind ibc found isRound
            rcases origin with none | ⟨k, between, kSmall, same, kFound, kRound⟩
            · omega
            · rw [if_pos ⟨round, by omega⟩]
              obtain rfl | above : i = k ∨ i < k := by omega
              · rw [same]
                exact List.mem_cons_self
              · -- the last CFROUND comes later; it makes this one dead as well
                refine List.mem_cons_of_mem _ (ih.mpr ⟨⟨ibc, found, isRound⟩, k, between, above, kSmall, kFound,
                  kRound, ?_⟩)
                rw [(quiet_behind kSmall (by omega) kFound).1]
                exact quiet
          · have before := ih.mpr ⟨⟨ibc, found, isRound⟩, j, other, behind, earlier, foundOther, otherRound, quiet⟩
            split
            · exact List.mem_cons_of_mem _ before
            · exact before
      · rw [if_neg (fun both => round both.1), ih]
        refine ⟨widen, fun dead => narrow dead fun ibc found isRound => ?_⟩
        rw [entry] at found
        cases found
        exact round isRound

end Marks

section Runs
variable (unit : FloatUnit) (eMask : Vec128)

def Machine.inMode (machine : Machine) (rounding : RoundingMode) : Machine := { machine with rounding }

theorem executeInstruction_inMode {ibc : InstructionByteCode} (silent : ibc.type.rounds = false)
    (other : ibc.type ≠ .cfround) (pc : Int) (machine : Machine) (rounding : RoundingMode) :
    executeInstruction unit eMask ibc pc (machine.inMode rounding) =
      ((executeInstruction unit eMask ibc pc machine).1,
        (executeInstruction unit eMask ibc pc machine).2.inMode rounding) ∧
      (executeInstruction unit eMask ibc pc machine).2.rounding = machine.rounding := by
  obtain ⟨type, idst, isrc, fdst, fsrc, imm, target, shift, memMask⟩ := ibc
  cases type
  case faddR | faddM | fsubR | fsubM | fmulR | fdivM | fsqrtR => cases silent
  case cfround => exact absurd rfl other
  case fswapR | fscalR =>
    cases fdst <;> exact ⟨rfl, rfl⟩
  case iswapR =>
    cases isrc <;> exact ⟨rfl, rfl⟩
  all_goals
    cases isrc <;> exact ⟨rfl, rfl⟩

/-- A CFROUND leaves the same state whatever the mode was before. -/
theorem executeInstruction_cfround {ibc : InstructionByteCode} (round : ibc.type = .cfround) (pc : Int)
    (machine : Machine) :
    ∃ mode, ∀ rounding, executeInstruction unit eMask ibc pc (machine.inMode rounding) = (pc, machine.inMode mode) := by
  refine ⟨((ibc.source machine).rotateRight ibc.imm.toNat).setWidth 2, fun rounding => ?_⟩
  have source : ibc.source (machine.inMode rounding) = ibc.source machine := by
    unfold InstructionByteCode.source
    cases ibc.isrc <;> rfl
  simp only [executeInstruction, round, source]
  rfl

/-- A stretch that ends at a CFROUND, behind the last instruction that rounds before it. -/
def Stretch (code : List InstructionByteCode) (pc : Int) : Prop :=
  ∃ (j : Nat) (ibc : InstructionByteCode), code[j]? = some ibc ∧ ibc.type = .cfround ∧
    (marksAfter code j).lastRounding < pc ∧ pc ≤ j

/-- The modes agree outside of the stretches. -/
structure Agree (code : List InstructionByteCode) (pc : Int) (full reduced : Machine) : Prop where
  state : reduced = full.inMode reduced.rounding
  mode : reduced.rounding = full.rounding ∨ Stretch code pc

variable {code : List InstructionByteCode}

theorem stretch_lt_length {pc : Int} (stretch : Stretch code pc) : pc < code.length := by
  obtain ⟨j, ibc, found, _, _, upper⟩ := stretch
  have := (List.getElem?_eq_some_iff.mp found).1
  omega

theorem Agree.equal {pc : Int} {full reduced : Machine} (agree : Agree code pc full reduced)
    (past : ¬ pc < code.length) : reduced = full := by
  rcases agree.mode with same | stretch
  · rw [agree.state, same]
    rfl
  · exact absurd (stretch_lt_length stretch) past

theorem withoutDead_length (code : List InstructionByteCode) : (withoutDead code).length = code.length :=
  List.length_mapIdx

theorem withoutDead_getElem? (i : Nat) : (withoutDead code)[i]? = code[i]?.map fun ibc =>
    if i ∈ (marksAfter code code.length).dead then { type := .nop } else ibc := by
  rw [withoutDead, List.getElem?_mapIdx]

theorem agree_step {pc : Nat} {ibc : InstructionByteCode} (disciplined : Disciplined code)
    (found : code[pc]? = some ibc) (other : ibc.type ≠ .cfround) {full reduced : Machine}
    (agree : Agree code pc full reduced) :
    (executeInstruction unit eMask ibc pc reduced).1 = (executeInstruction unit eMask ibc pc full).1 ∧
      Agree code ((executeInstruction unit eMask ibc pc full).1 + 1) (executeInstruction unit eMask ibc pc full).2
        (executeInstruction unit eMask ibc pc reduced).2 := by
  obtain ⟨state, mode⟩ := agree
  rcases mode with same | ⟨j, last, foundLast, round, lower, upper⟩
  · have equal : reduced = full := by
      rw [state, same]
      rfl
    rw [equal]
    exact ⟨rfl, ⟨rfl, .inl rfl⟩⟩
  · have before : pc < j := by
      rcases Nat.lt_or_ge pc j with less | more
      · exact less
      · obtain rfl : pc = j := by omega
        rw [found] at foundLast
        cases foundLast
        exact absurd round other
    obtain ⟨_, silent, jumps⟩ := quiet_behind before lower found
    obtain ⟨same, kept⟩ := executeInstruction_inMode unit eMask silent other pc full reduced.rounding
    rw [← state] at same
    rw [same]
    refine ⟨rfl, ⟨rfl, .inr ⟨j, last, foundLast, round, ?_⟩⟩⟩
    by_cases branch : ibc.type = .cbranch
    · rw [executeInstruction_cbranch unit eMask branch]
      have landing := jumps branch
      have upperTarget := (disciplined pc ibc found branch).upper
      dsimp only
      split <;> omega
    · rw [executeInstruction_pc unit eMask ibc pc full branch]
      omega

theorem agree_cfround {pc : Nat} {ibc : InstructionByteCode}
    (round : ibc.type = .cfround) {full reduced : Machine} (agree : Agree code pc full reduced) :
    (executeInstruction unit eMask ibc pc full).1 = pc ∧
      (pc ∈ (marksAfter code code.length).dead →
        Agree code (pc + 1) (executeInstruction unit eMask ibc pc full).2 reduced) ∧
      (executeInstruction unit eMask ibc pc reduced).1 = pc ∧
      Agree code (pc + 1) (executeInstruction unit eMask ibc pc full).2
        (executeInstruction unit eMask ibc pc reduced).2 := by
  obtain ⟨mode, sets⟩ := executeInstruction_cfround unit eMask round pc full
  have fullSet := sets full.rounding
  have reducedSet := sets reduced.rounding
  rw [← agree.state] at reducedSet
  rw [show full.inMode full.rounding = full from rfl] at fullSet
  rw [fullSet, reducedSet]
  refine ⟨rfl, fun dead => ⟨agree.state, .inr ?_⟩, rfl, ⟨rfl, .inl rfl⟩⟩
  obtain ⟨_, j, last, behind, _, foundLast, lastRound, quiet⟩ := (mem_dead_iff _ _).mp dead
  exact ⟨j, last, foundLast, lastRound, by omega, by omega⟩

theorem executeBytecode_withoutDead (disciplined : Disciplined code) (fuel : Nat) {pc : Int} {full reduced : Machine}
    (agree : Agree code pc full reduced) :
    executeBytecode unit eMask (withoutDead code) fuel ⟨pc, reduced⟩ =
      executeBytecode unit eMask code fuel ⟨pc, full⟩ := by
  induction fuel generalizing pc full reduced with
  | zero =>
    rw [executeBytecode, executeBytecode, withoutDead_length]
    dsimp only
    split
    · rfl
    · rename_i past
      rw [agree.equal past]
  | succ fuel ih =>
    rw [executeBytecode, executeBytecode, withoutDead_length]
    dsimp only
    split
    · rename_i inside
      by_cases negative : pc < 0
      · simp only [stepBytecode, if_pos negative, Option.bind_none]
      · obtain ⟨n, rfl⟩ := Int.eq_ofNat_of_zero_le (show 0 ≤ pc by omega)
        obtain ⟨ibc, found⟩ : ∃ ibc, code[n]? = some ibc :=
          ⟨_, List.getElem?_eq_getElem (show n < code.length by omega)⟩
        have next : ∀ {fullNext reducedNext : Int × Machine}, reducedNext.1 = fullNext.1 →
            Agree code (fullNext.1 + 1) fullNext.2 reducedNext.2 →
            executeBytecode unit eMask (withoutDead code) fuel ⟨reducedNext.1 + 1, reducedNext.2⟩ =
              executeBytecode unit eMask code fuel ⟨fullNext.1 + 1, fullNext.2⟩ := by
          intro fullNext reducedNext sameNext later
          rw [sameNext]
          exact ih later
        simp only [stepBytecode, if_neg negative, Int.toNat_natCast, withoutDead_getElem?, found, Option.map_some,
          Option.bind_some]
        by_cases round : ibc.type = .cfround
        · obtain ⟨fullPc, whenDead, reducedPc, whenKept⟩ := agree_cfround unit eMask round agree
          rw [if_neg (show ¬ ibc.type = .imulRcp by rw [round]; decide)]
          split
          · rename_i dead
            rw [if_neg (by decide)]
            exact @next _ (n, reduced) fullPc.symm (by rw [fullPc]; exact whenDead dead)
          · rw [if_neg (show ¬ ibc.type = .imulRcp by rw [round]; decide)]
            exact next (reducedPc.trans fullPc.symm) (by rw [fullPc]; exact whenKept)
        · have stays : n ∉ (marksAfter code code.length).dead := by
            intro dead
            obtain ⟨⟨other, foundOther, isRound⟩, _⟩ := (mem_dead_iff _ _).mp dead
            rw [found] at foundOther
            cases foundOther
            exact round isRound
          rw [if_neg stays]
          split
          · rfl
          · obtain ⟨samePc, later⟩ := agree_step unit eMask disciplined found round agree
            exact next samePc later
    · rename_i past
      rw [agree.equal past]

/-- Taking out every dead CFROUND of a compiled program changes none of its runs. -/
theorem compileProgram_withoutDead (config : Configuration) (program : List Instruction)
    (fits : program.length ≤ 2 ^ 15) (fuel : Nat) (machine : Machine) :
    executeBytecode unit eMask (withoutDead (compileProgram config program)) fuel ⟨0, machine⟩ =
      executeBytecode unit eMask (compileProgram config program) fuel ⟨0, machine⟩ :=
  executeBytecode_withoutDead unit eMask (compileProgram_disciplined config program fits) fuel ⟨rfl, .inl rfl⟩

/-- Two CFROUNDs and an FADD_R: the first one is dead. -/
theorem compileProgram_withoutDead_pair :
    let program : List Instruction := [⟨239, 0, 1, 0, 5⟩, ⟨239, 0, 2, 0, 7⟩, ⟨124, 0, 0, 0, 0⟩]
    let unit : FloatUnit :=
      ⟨fun _ x _ => x, fun _ x _ => x, fun _ x _ => x, fun _ x _ => x, fun _ x => x, fun x => x.setWidth 64⟩
    let machine : Machine := ⟨fun _ => 5, fun _ => ⟨1, 2⟩, fun _ => ⟨3, 4⟩, fun _ => ⟨5, 6⟩, fun _ => 0, 0⟩
    (marksAfter (compileProgram .base program) 3).dead = [0] ∧
      executeBytecode unit ⟨0, 0⟩ (withoutDead (compileProgram .base program)) 3 ⟨0, machine⟩ =
        executeBytecode unit ⟨0, 0⟩ (compileProgram .base program) 3 ⟨0, machine⟩ :=
  ⟨by decide, compileProgram_withoutDead _ _ .base _ (by decide) 3 _⟩

end Runs

end Xmrig.RandomX
