import Mathlib.Algebra.Order.BigOperators.Group.List
import Mathlib.Algebra.Order.Ring.Nat
import Xmrig.Foundation.Ceilings
import Xmrig.Foundation.Run
import Xmrig.RandomX.Instruction

/-! What applying a configuration leaves for the two compilers.

The interpreter compares an opcode with the frequencies of the current configuration, one after the other. The native
compiler reads a table of handlers that stays from one configuration to the next and that `Apply` fills again with
loops over the same frequencies. Both are over words of 32 bits, and each lists the operations on its own.
-/

set_option autoImplicit false

namespace Xmrig.RandomX

open Foundation

/-- What is read of a configuration here. -/
structure ConfigurationBase where
  frequency : InstructionType → BitVec 32
  scratchpadL1Size : BitVec 32
  scratchpadL2Size : BitVec 32
  scratchpadL3Size : BitVec 32

namespace ConfigurationBase

def width (config : ConfigurationBase) (type : InstructionType) : Nat := (config.frequency type).toNat

def total (config : ConfigurationBase) : Nat := (InstructionType.all.map config.width).sum

/-- The comparisons of `compileInstruction`, in its order. -/
def compileOrder : List InstructionType :=
  [.iaddRs, .iaddM, .isubR, .isubM, .imulR, .imulM, .imulhR, .imulhM, .ismulhR, .ismulhM, .imulRcp, .inegR,
    .ixorR, .ixorM, .irorR, .irolR, .iswapR, .fswapR, .faddR, .faddM, .fsubR, .fsubM, .fscalR, .fmulR,
    .fdivM, .fsqrtR, .cbranch, .cfround, .istore, .nop]

/-- Each comparison that fails takes its frequency off the opcode; none is `UNREACHABLE`. -/
def compileKind (config : ConfigurationBase) : BitVec 32 → List InstructionType → Option InstructionType
  | _, [] => none
  | opcode, type :: rest =>
      if opcode < config.frequency type then some type
      else compileKind config (opcode - config.frequency type) rest

/-- The operation that `compileInstruction` compiles an opcode to. -/
def kind (config : ConfigurationBase) (opcode : BitVec 8) : Option InstructionType :=
  compileKind config (opcode.setWidth 32) compileOrder

end ConfigurationBase

/-- The builds with a table of handlers, and what the one for x86 asks its processor. -/
inductive Target where
  | x86 (hasBMI2 jccErratum : Bool)
  | arm
  deriving DecidableEq, Repr

/-- The members `h_…` of the native compiler. -/
inductive Handler where
  | h (type : InstructionType)
  | imulhRBmi2
  | imulhMBmi2
  | cbranchJcc (jccErratum : Bool)
  | cfroundBmi2
  deriving DecidableEq, Repr

def Handler.type : Handler → InstructionType
  | .h type => type
  | .imulhRBmi2 => .imulhR
  | .imulhMBmi2 => .imulhM
  | .cbranchJcc _ => .cbranch
  | .cfroundBmi2 => .cfround

namespace Target

def hasBMI2 : Target → Bool
  | x86 hasBMI2 _ => hasBMI2
  | arm => false

/-- `INST_HANDLE`: the handler has the operation's own name. -/
def instHandle (type : InstructionType) : InstructionType × Handler := (type, .h type)

/-- The statements of `Apply` that fill the table, in its order. -/
def handles (target : Target) : List (InstructionType × Handler) :=
  [instHandle .iaddRs, instHandle .iaddM, instHandle .isubR, instHandle .isubM, instHandle .imulR, instHandle .imulM] ++
    (if target.hasBMI2 then [(.imulhR, .imulhRBmi2), (.imulhM, .imulhMBmi2)]
      else [instHandle .imulhR, instHandle .imulhM]) ++
    [instHandle .ismulhR, instHandle .ismulhM, instHandle .imulRcp, instHandle .inegR, instHandle .ixorR,
      instHandle .ixorM, instHandle .irorR, instHandle .irolR, instHandle .iswapR, instHandle .fswapR,
      instHandle .faddR, instHandle .faddM, instHandle .fsubR, instHandle .fsubM, instHandle .fscalR,
      instHandle .fmulR, instHandle .fdivM, instHandle .fsqrtR] ++
    (match target with
      | x86 _ jccErratum => [(.cbranch, .cbranchJcc jccErratum)]
      | arm => [instHandle .cbranch]) ++
    (if target.hasBMI2 then [(.cfround, .cfroundBmi2)] else [instHandle .cfround]) ++
    [instHandle .istore, instHandle .nop]

end Target

/-- `engine[256]`, null at first. -/
abbrev Engine := Vector (Option Handler) 256

/-- The two counters of `Apply` beside the table. -/
structure Filling where
  k : BitVec 32
  freqSum : BitVec 32
  engine : Engine

/-- `for (; k < freq_sum; ++k)`; a store behind the table faults. -/
def storeHandlers (handler : Handler) (filling : Filling) : Option Filling :=
  if filling.k < filling.freqSum then
    if inside : filling.k.toNat < 256 then
      storeHandlers handler { filling with
        k := filling.k + 1
        engine := filling.engine.set filling.k.toNat (some handler) }
    else none
  else some filling
termination_by filling.freqSum.toNat - filling.k.toNat
decreasing_by
  rename_i more
  rw [BitVec.lt_def] at more
  rw [BitVec.toNat_add_of_lt]
  · change _ - (filling.k.toNat + 1) < _
    omega
  · have := filling.freqSum.isLt
    change filling.k.toNat + 1 < _
    omega

/-- `INST_HANDLE2`: the sum of the frequencies goes up, then the table is filled to it. -/
def instHandle2 (config : ConfigurationBase) (filling : Filling) (entry : InstructionType × Handler) : Option Filling :=
  storeHandlers entry.2 { filling with freqSum := filling.freqSum + config.frequency entry.1 }

/-- The masks that `Apply` calculates from the sizes of the scratchpad. -/
structure Masks where
  addressMask : Vector (BitVec 32) 4
  scratchpadL3Mask : BitVec 32
  scratchpadL3Mask64 : BitVec 32
  deriving DecidableEq

def ConfigurationBase.masks (config : ConfigurationBase) : Masks :=
  let scratchpadL1Mask := (config.scratchpadL1Size / 8 - 1) * 8
  let scratchpadL2Mask := (config.scratchpadL2Size / 8 - 1) * 8
  { addressMask := #v[scratchpadL2Mask, scratchpadL1Mask, scratchpadL1Mask, scratchpadL1Mask]
    scratchpadL3Mask := (config.scratchpadL3Size / 8 - 1) * 8
    scratchpadL3Mask64 := (config.scratchpadL3Size / 8 / 8 - 1) * 64 }

/-- `RandomX_CurrentConfig` with what was calculated for it, and the table. -/
structure Current where
  config : ConfigurationBase
  masks : Masks
  engine : Engine

/-- `randomx_apply_config` -/
def applyConfig (target : Target) (current : Current) (config : ConfigurationBase) : Option Current :=
  (run (instHandle2 config) ⟨0, 0, current.engine⟩ target.handles).map fun filled =>
    ⟨config, config.masks, filled.engine⟩

/-! ## The interpreter's choice -/

namespace ConfigurationBase

/-- No subtraction wraps, since the comparison before it has failed. -/
theorem compileKind_eq_pick (config : ConfigurationBase) (opcode : BitVec 32) (types : List InstructionType) :
    config.compileKind opcode types = pick config.width opcode.toNat types := by
  induction types generalizing opcode with
  | nil => rfl
  | cons type rest ih =>
    rw [compileKind, pick]
    by_cases inside : opcode < config.frequency type
    · rw [if_pos inside, if_pos (show opcode.toNat < config.width type from BitVec.lt_def.mp inside)]
    · have reached : config.width type ≤ opcode.toNat := Nat.le_of_not_lt fun below => inside (BitVec.lt_def.mpr below)
      rw [if_neg inside, if_neg (Nat.not_lt_of_le reached), ih, BitVec.toNat_sub_of_le (BitVec.le_def.mpr reached)]
      rfl

theorem kind_eq_pick (config : ConfigurationBase) (opcode : BitVec 8) :
    config.kind opcode = pick config.width opcode.toNat compileOrder := by
  have opcode_lt := opcode.isLt
  unfold kind
  rw [compileKind_eq_pick, BitVec.toNat_setWidth, Nat.mod_eq_of_lt (by omega)]

end ConfigurationBase

/-! ## The loops over the table -/

theorem storeHandlers_spec (handler : Handler) (filling : Filling) (behind : filling.k.toNat ≤ filling.freqSum.toNat)
    (fits : filling.freqSum.toNat ≤ 256) :
    ∃ engine : Engine, storeHandlers handler filling = some ⟨filling.freqSum, filling.freqSum, engine⟩ ∧
      ∀ i (_ : i < 256), engine[i] =
        if filling.k.toNat ≤ i ∧ i < filling.freqSum.toNat then some handler else filling.engine[i] := by
  fun_induction storeHandlers handler filling with
  | case1 filling more inside ih =>
    rw [BitVec.lt_def] at more
    have next : (filling.k + 1).toNat = filling.k.toNat + 1 := by
      rw [BitVec.toNat_add]
      exact Nat.mod_eq_of_lt (by change filling.k.toNat + 1 < _; omega)
    obtain ⟨engine, stored, entries⟩ := ih (by rw [next]; exact more) fits
    refine ⟨engine, stored, fun i below => ?_⟩
    dsimp only at entries
    rw [entries i below, Vector.getElem_set, next]
    by_cases counter : filling.k.toNat = i
    · rw [if_neg (by omega), if_pos counter, if_pos (by omega)]
    · rw [if_neg counter]
      apply if_congr _ rfl rfl
      constructor
      · rintro ⟨_, last⟩
        omega
      · rintro ⟨_, last⟩
        omega
  | case2 filling more outside =>
    rw [BitVec.lt_def] at more
    omega
  | case3 filling done =>
    have level : filling.k = filling.freqSum := by
      rw [BitVec.lt_def] at done
      apply BitVec.eq_of_toNat_eq
      omega
    refine ⟨filling.engine, ?_, fun i _ => ?_⟩
    · cases filling
      cases level
      rfl
    · rw [level, if_neg (by omega)]

/-- What the rest of `Apply` does to the table, from a point where the counter has reached the sum: below the counter
nothing, and from there on each position gets the handler of the statement whose frequency covers it. -/
theorem run_instHandle2 (config : ConfigurationBase) {filling : Filling} (entries : List (InstructionType × Handler))
    (level : filling.k = filling.freqSum)
    (fits : filling.k.toNat + (entries.map (config.width ∘ Prod.fst)).sum ≤ 256) :
    ∃ filled, run (instHandle2 config) filling entries = some filled ∧
      (∀ i (_ : i < 256), i < filling.k.toNat → filled.engine[i] = filling.engine[i]) ∧
      ∀ i (_ : i < 256) entry, filling.k.toNat ≤ i →
        pick (config.width ∘ Prod.fst) (i - filling.k.toNat) entries = some entry →
          filled.engine[i] = some entry.2 := by
  induction entries generalizing filling with
  | nil =>
    refine ⟨filling, rfl, fun i _ _ => rfl, fun i _ entry _ picked => ?_⟩
    cases picked
  | cons first rest ih =>
    rw [List.map_cons, List.sum_cons] at fits
    have sum : (filling.freqSum + config.frequency first.1).toNat = filling.k.toNat + config.width first.1 := by
      rw [BitVec.toNat_add, ← level]
      apply Nat.mod_eq_of_lt
      change filling.k.toNat + config.width first.1 < _
      change filling.k.toNat + (config.width first.1 + _) ≤ 256 at fits
      omega
    change filling.k.toNat + (config.width first.1 + _) ≤ 256 at fits
    obtain ⟨engine, stored, entries⟩ := storeHandlers_spec first.2
      { filling with freqSum := filling.freqSum + config.frequency first.1 } (by dsimp only; omega) (by dsimp only; omega)
    obtain ⟨filled, ran, kept, picked⟩ := @ih
      ⟨filling.freqSum + config.frequency first.1, filling.freqSum + config.frequency first.1, engine⟩ rfl
      (by dsimp only; omega)
    refine ⟨filled, run_cons_iff.mpr ⟨_, stored, ran⟩, ?_, ?_⟩
    · intro i inside below
      rw [kept i inside (by dsimp only; omega), entries i inside, if_neg (by dsimp only; omega)]
    · intro i inside entry reached found
      dsimp only at kept picked entries
      by_cases here : i < filling.k.toNat + config.width first.1
      · rw [pick_of_lt rest (show i - filling.k.toNat < config.width first.1 by omega)] at found
        cases found
        rw [kept i inside (by omega), entries i inside, if_pos (by omega)]
      · apply picked i inside entry (by omega)
        rw [show i - filling.k.toNat = config.width first.1 + (i - (filling.k.toNat + config.width first.1)) by omega]
          at found
        rw [sum]
        exact (pick_add _ first rest).symm.trans found

/-! ## Both dispatches -/

/-- `engine[instr.opcode]`, which the native compiler calls. -/
def Engine.handler (engine : Engine) (opcode : BitVec 8) : Option Handler := engine.get ⟨opcode.toNat, opcode.isLt⟩

/-- The interpreter has an operation for every opcode, the handler in the table is one of that operation, and each
operation has as many opcodes as its frequency says. -/
structure Agrees (current : Current) : Prop where
  reached : ∀ opcode, (current.config.kind opcode).isSome
  same : ∀ opcode, (current.engine.handler opcode).map Handler.type = current.config.kind opcode
  share : ∀ type, ((List.range 256).countP fun opcode => current.config.kind (BitVec.ofNat 8 opcode) = some type) =
    (current.config.frequency type).toNat

namespace Target

theorem handles_order (target : Target) : target.handles.map Prod.fst = ConfigurationBase.compileOrder := by
  cases target with
  | x86 hasBMI2 jccErratum => cases hasBMI2 <;> rfl
  | arm => rfl

theorem handles_type (target : Target) : ∀ entry ∈ target.handles, entry.2.type = entry.1 := by
  cases target with
  | x86 hasBMI2 jccErratum => revert hasBMI2 jccErratum; decide
  | arm => decide

theorem handles_sum (target : Target) (config : ConfigurationBase) :
    (target.handles.map (config.width ∘ Prod.fst)).sum = config.total := by
  rw [← List.map_map, handles_order]
  rfl

end Target

namespace ConfigurationBase
variable {config : ConfigurationBase}

theorem compileOrder_nodup : compileOrder.Nodup := by decide

theorem mem_compileOrder (type : InstructionType) : type ∈ compileOrder := by cases type <;> decide

theorem kind_isSome (full : config.total = 256) (opcode : BitVec 8) : (config.kind opcode).isSome := by
  rw [kind_eq_pick]
  apply pick_isSome
  change opcode.toNat < config.total
  rw [full]
  exact opcode.isLt

theorem countP_kind (full : config.total = 256) (type : InstructionType) :
    ((List.range 256).countP fun opcode => config.kind (BitVec.ofNat 8 opcode) = some type) =
      (config.frequency type).toNat := by
  have shared : (List.range config.total).countP (fun opcode => pick config.width opcode compileOrder = some type) =
      config.width type := countP_pick compileOrder_nodup (mem_compileOrder type)
  rw [full] at shared
  rw [← show config.width type = (config.frequency type).toNat from rfl, ← shared]
  apply List.countP_congr
  intro opcode below
  rw [kind_eq_pick, BitVec.toNat_ofNat, Nat.mod_eq_of_lt (List.mem_range.mp below)]

end ConfigurationBase

theorem applyConfig_agrees (target : Target) (before : Current) {config : ConfigurationBase}
    (full : config.total = 256) :
    ∃ after, applyConfig target before config = some after ∧ after.config = config ∧ after.masks = config.masks ∧
      Agrees after := by
  obtain ⟨filled, ran, -, stored⟩ := @run_instHandle2 config ⟨0, 0, before.engine⟩ target.handles rfl (by
    rw [target.handles_sum, full]
    exact Nat.le_refl 256)
  refine ⟨⟨config, config.masks, filled.engine⟩, ?_, rfl, rfl, ?_⟩
  · rw [applyConfig, ran]
    rfl
  · refine ⟨ConfigurationBase.kind_isSome full, fun opcode => ?_, ConfigurationBase.countP_kind full⟩
    obtain ⟨type, compiled⟩ := Option.isSome_iff_exists.mp (ConfigurationBase.kind_isSome full opcode)
    have chosen := compiled
    rw [ConfigurationBase.kind_eq_pick, ← target.handles_order, pick_map] at chosen
    obtain ⟨entry, picked, named⟩ := Option.map_eq_some_iff.mp chosen
    have held : filled.engine.get ⟨opcode.toNat, opcode.isLt⟩ = some entry.2 :=
      stored opcode.toNat opcode.isLt entry (Nat.zero_le _) picked
    change (filled.engine.get ⟨opcode.toNat, opcode.isLt⟩).map Handler.type = config.kind opcode
    rw [held, compiled, ← named]
    exact congrArg some (target.handles_type entry (mem_of_pick picked))

/-! ## Configurations that fill the opcodes -/

namespace ConfigurationBase
variable {config : ConfigurationBase}

/-- A configuration of words that fills the opcodes, as the compilers' models take it. -/
def toConfiguration (config : ConfigurationBase) (full : config.total = 256) : Configuration where
  frequency := config.width
  total := full
  scratchpadL1Size := config.scratchpadL1Size
  scratchpadL2Size := config.scratchpadL2Size
  scratchpadL3Size := config.scratchpadL3Size

theorem select_eq_pick (frequency : InstructionType → Nat) (opcode : Nat) (types : List InstructionType) :
    Configuration.select frequency opcode types = pick frequency opcode types := by
  induction types generalizing opcode with
  | nil => rfl
  | cons type rest ih => rw [Configuration.select, pick, ih]

theorem kind_eq_instructionType (full : config.total = 256) (opcode : BitVec 8) :
    config.kind opcode = some ((config.toConfiguration full).instructionType opcode) := by
  rw [kind_eq_pick, Configuration.instructionType, Option.some_get, select_eq_pick]
  rfl

theorem getModMem_lt (instr : Instruction) : instr.getModMem.toNat < 4 := by
  unfold Instruction.getModMem
  rw [BitVec.toNat_and]
  exact Nat.lt_succ_of_le Nat.and_le_right

theorem masks_addressMask (full : config.total = 256) (instr : Instruction) :
    config.masks.addressMask.get ⟨instr.getModMem.toNat, getModMem_lt instr⟩ =
      (config.toConfiguration full).addressMask instr.getModMem := by
  have every : ∀ (modMem : BitVec 8) (bound : modMem.toNat < 4),
      config.masks.addressMask.get ⟨modMem.toNat, bound⟩ = (config.toConfiguration full).addressMask modMem := by
    intro modMem bound
    unfold Configuration.addressMask
    by_cases zero : modMem = 0
    · subst zero
      rfl
    · rw [if_neg zero]
      have positive : modMem.toNat ≠ 0 := fun none => zero (BitVec.eq_of_toNat_eq none)
      obtain one | two | three : modMem.toNat = 1 ∨ modMem.toNat = 2 ∨ modMem.toNat = 3 := by omega
      · simp only [one]
        rfl
      · simp only [two]
        rfl
      · simp only [three]
        rfl
  exact every _ _

theorem masks_scratchpadL3Mask (full : config.total = 256) :
    config.masks.scratchpadL3Mask = (config.toConfiguration full).scratchpadL3Mask := rfl

end ConfigurationBase

theorem Agrees.engine_eq {current : Current} (agree : Agrees current) (full : current.config.total = 256)
    (opcode : BitVec 8) :
    (current.engine.handler opcode).map Handler.type =
      (Configuration.engine current.config.width InstructionType.all)[opcode.toNat]? := by
  rw [agree.same, ConfigurationBase.kind_eq_instructionType full]
  exact (Configuration.engine_instructionType (current.config.toConfiguration full) opcode).symm

def Configuration.toBase (config : Configuration) : ConfigurationBase where
  frequency type := BitVec.ofNat 32 (config.frequency type)
  scratchpadL1Size := config.scratchpadL1Size
  scratchpadL2Size := config.scratchpadL2Size
  scratchpadL3Size := config.scratchpadL3Size

theorem Configuration.toBase_total (config : Configuration) : config.toBase.total = 256 := by
  have exact_width : config.toBase.width = config.frequency := by
    funext type
    have part : config.frequency type ≤ (InstructionType.all.map config.frequency).sum :=
      List.le_sum_of_mem (List.mem_map_of_mem (ConfigurationBase.mem_compileOrder type))
    rw [config.total] at part
    change (BitVec.ofNat 32 (config.frequency type)).toNat = _
    rw [BitVec.toNat_ofNat]
    exact Nat.mod_eq_of_lt (by omega)
  unfold ConfigurationBase.total
  rw [exact_width]
  exact config.total

/-- Before anything is applied: the default configuration, no masks and no handlers. -/
def Current.start : Current := ⟨Configuration.base.toBase, ⟨#v[0, 0, 0, 0], 0, 0⟩, Vector.replicate 256 none⟩

/-- The algorithms' own configurations never fault, in whichever order they are applied, and the two compilers agree
from the first one on. -/
theorem run_agrees (target : Target) (configs : List Configuration) (last : Configuration) :
    ∃ after, run (applyConfig target) Current.start ((configs ++ [last]).map Configuration.toBase) = some after ∧
      after.config = last.toBase ∧ Agrees after := by
  have later : ∀ before : Current, ∃ after,
      run (applyConfig target) before ((configs ++ [last]).map Configuration.toBase) = some after ∧
        after.config = last.toBase ∧ Agrees after := by
    induction configs with
    | nil =>
      intro before
      obtain ⟨after, applied, config, -, agree⟩ := applyConfig_agrees target before last.toBase_total
      exact ⟨after, run_cons_iff.mpr ⟨after, applied, rfl⟩, config, agree⟩
    | cons first rest ih =>
      intro before
      obtain ⟨next, applied, -⟩ := applyConfig_agrees target before first.toBase_total
      obtain ⟨after, ran, agree⟩ := ih next
      exact ⟨after, run_cons_iff.mpr ⟨next, applied, ran⟩, agree⟩
  exact later Current.start

/-- After any run of applied configurations, full ones or not, a full one makes the two compilers agree. -/
theorem dispatches_agree (target : Target) (earlier : List ConfigurationBase) {before : Current}
    (ran : run (applyConfig target) Current.start earlier = some before) {config : ConfigurationBase}
    (full : config.total = 256) :
    ∃ after, run (applyConfig target) Current.start (earlier ++ [config]) = some after ∧ after.config = config ∧
      Agrees after := by
  obtain ⟨after, applied, current, -, agree⟩ := applyConfig_agrees target before full
  refine ⟨after, ?_, current, agree⟩
  rw [run_append, ran]
  exact run_cons_iff.mpr ⟨after, applied, rfl⟩

/-- From the start, the variant of Wownero, which has no rotations to the left. -/
theorem dispatches_agree_wownero :
    ∃ after, run (applyConfig (.x86 true false)) Current.start ([] ++ [Configuration.wownero.toBase]) = some after ∧
      after.config = Configuration.wownero.toBase ∧ Agrees after :=
  dispatches_agree (.x86 true false) [] rfl (by decide)

end Xmrig.RandomX
