import Xmrig.Core.Miner

/-! Who may pause the miner.

One flag, `enabled`, is written by the timer, which looks at battery power and
user activity, by commands of the user, and by the system monitor. `Pausing`
puts the members these sources read next to the miner, together with the last
command of the user, which the code does not remember. A source that pauses is
always heard; one that resumes speaks for itself only, apart from battery power.
-/

set_option autoImplicit false

namespace Xmrig

open Foundation

/-- The members of `SystemMonitor` that pausing writes; the reason is a set of bits. -/
structure SystemMonitor where
  paused : Bool := false
  pauseReason : Nat := 0
  deriving DecidableEq, Repr

/-- The miner with its sources of pauses; `manual` says that the last command was a pause. -/
structure Pausing where
  mining : Mining := {}
  userActive : Bool := false
  autoPause : Int := 0
  idleTime : Nat := 0
  monitor : SystemMonitor := {}
  manual : Bool := false

namespace Pausing

/-- The conditions that the timer watches. -/
inductive Watch where
  | batteryPower
  | userActive
  deriving DecidableEq, Repr

def isPauseOnBattery (pausing : Pausing) : Bool := pausing.mining.pauseOnBattery

def isPauseOnActive (pausing : Pausing) : Bool := 0 < pausing.idleTime

def enabled (pausing : Pausing) : Bool := pausing.mining.miner.enabled

def flag (pausing : Pausing) : Watch → Bool
  | .batteryPower => pausing.mining.miner.batteryPower
  | .userActive => pausing.userActive

def setFlag (pausing : Pausing) (pause : Bool) : Watch → Pausing
  | .batteryPower =>
      { pausing with mining := { pausing.mining with miner := { pausing.mining.miner with batteryPower := pause } } }
  | .userActive => { pausing with userActive := pause }

def option (pausing : Pausing) : Watch → Bool
  | .batteryPower => pausing.isPauseOnBattery
  | .userActive => pausing.isPauseOnActive

def setEnabled (pausing : Pausing) (enabled : Bool) : Pausing :=
  { pausing with mining := pausing.mining.setEnabled enabled }

def record (pausing : Pausing) (watch : Watch) (pause : Bool) : Pausing :=
  { pausing.setFlag pause watch with autoPause := pausing.autoPause + if pause then 1 else -1 }

/-- The `autoPause` of `onTimer`, with the condition it is called for. -/
def autoPauseOn (pausing : Pausing) (watch : Watch) (pause : Bool) : Pausing :=
  let state := pausing.flag watch
  if (pause && !state) || (!pause && state) then
    let pausing := pausing.record watch pause
    pausing.setEnabled (pausing.autoPause = 0)
  else pausing

def countTick (pausing : Pausing) : Pausing :=
  { pausing with
    mining := { pausing.mining with miner := { pausing.mining.miner with ticks := pausing.mining.miner.ticks + 1 } } }

/-- One condition of `onTimer`: it is looked at while its option is on. -/
def look (pausing : Pausing) (watch : Watch) (holds : Bool) : Pausing :=
  if pausing.option watch then pausing.autoPauseOn watch holds else pausing

def stop (pausing : Pausing) : Pausing := { pausing with mining := pausing.mining.stop }

/-- `onTimer` with what the platform says; `stopMiner` is a backend that gives up. -/
def onTimer (pausing : Pausing) (onBatteryPower isUserActive stopMiner : Bool) : Pausing :=
  let pausing := pausing.countTick
  let pausing := pausing.look .batteryPower onBatteryPower
  let pausing := pausing.look .userActive isUserActive
  if stopMiner then pausing.stop else pausing

def command (pausing : Pausing) (pause : Bool) : Pausing :=
  { pausing.setEnabled !pause with manual := pause }

def execCommand (pausing : Pausing) (command : Char) : Pausing :=
  if command = 'p' ∨ command = 'P' then pausing.command true
  else if command = 'r' ∨ command = 'R' then pausing.command false
  else pausing

/-- The JSON-RPC methods that `onRequest` accepts. -/
inductive RpcMethod where
  | pause
  | resume
  | stop
  deriving DecidableEq, Repr

def onRequest (pausing : Pausing) : RpcMethod → Pausing
  | .pause => pausing.command true
  | .resume => pausing.command false
  | .stop => pausing.stop

/-- A new configuration; `onConfigChanged` itself looks at none of the flags. -/
def reload (pausing : Pausing) (pauseOnBattery : Bool) (idleTime : Nat) : Pausing :=
  { pausing with mining := { pausing.mining with pauseOnBattery }, idleTime }

def pauseMining (pausing : Pausing) (reason : Nat) : Pausing :=
  { pausing with monitor := { paused := true, pauseReason := reason } }.setEnabled false

def resumeMining (pausing : Pausing) : Pausing :=
  { pausing with monitor := { paused := false, pauseReason := 0 } }.setEnabled true

inductive Event where
  | timer (onBatteryPower isUserActive stopMiner : Bool)
  | execCommand (command : Char)
  | request (method : RpcMethod)
  | reload (pauseOnBattery : Bool) (idleTime : Nat)
  | pauseMining (reason : Nat)
  | resumeMining
  | mine (event : Mining.Event)

/-- `mine` is everything else that happens to the miner: jobs, datasets, pools that go away. -/
def step (pausing : Pausing) : Event → Option Pausing
  | .timer onBatteryPower isUserActive stopMiner =>
      some (pausing.onTimer onBatteryPower isUserActive stopMiner)
  | .execCommand command => some (pausing.execCommand command)
  | .request method => some (pausing.onRequest method)
  | .reload pauseOnBattery idleTime => some (pausing.reload pauseOnBattery idleTime)
  | .pauseMining reason => some (pausing.pauseMining reason)
  | .resumeMining => some pausing.resumeMining
  | .mine (.setEnabled _) => none
  | .mine (.battery _) => none
  | .mine event => (pausing.mining.step event).map fun mining => { pausing with mining }

/-! ## What each source has asked for -/

def isAutoPaused (pausing : Pausing) : Bool :=
  pausing.option .batteryPower && pausing.flag .batteryPower ||
    pausing.option .userActive && pausing.flag .userActive

/-- No source wants the miner to rest. -/
def isWanted (pausing : Pausing) : Bool :=
  !pausing.isAutoPaused && !pausing.monitor.paused && !pausing.manual

def flags (pausing : Pausing) : Int :=
  (pausing.flag .batteryPower).toInt + (pausing.flag .userActive).toInt

structure Respected (pausing : Pausing) : Prop where
  counted : pausing.autoPause = pausing.flags
  optional : ∀ watch, pausing.flag watch = true → pausing.option watch = true
  enabled : pausing.enabled = pausing.isWanted

/-- A resume is for everybody, or battery power refuses it. -/
def MayResume (pausing : Pausing) (others : Bool) : Prop :=
  pausing.flag .batteryPower = true ∨ (pausing.flag .userActive = false ∧ others = false)

/-- A step that no other source objects to. -/
def Event.Agreed (pausing : Pausing) : Event → Prop
  | .timer onBatteryPower isUserActive _ =>
      pausing.isAutoPaused = true →
        (pausing.isPauseOnBattery && onBatteryPower || pausing.isPauseOnActive && isUserActive) = false →
          pausing.monitor.paused = false ∧ pausing.manual = false
  | .execCommand command => command = 'r' ∨ command = 'R' → pausing.MayResume pausing.monitor.paused
  | .request method => method = .resume → pausing.MayResume pausing.monitor.paused
  | .reload pauseOnBattery idleTime =>
      (pausing.flag .batteryPower = true → pauseOnBattery = true) ∧
        (pausing.flag .userActive = true → 0 < idleTime)
  | .resumeMining => pausing.MayResume pausing.manual
  | _ => True

instance (pausing : Pausing) (others : Bool) : Decidable (pausing.MayResume others) :=
  inferInstanceAs (Decidable (_ ∨ _))

instance (pausing : Pausing) : (event : Event) → Decidable (event.Agreed pausing)
  | .timer _ _ _ => inferInstanceAs (Decidable (_ → _ → _ ∧ _))
  | .execCommand _ => inferInstanceAs (Decidable (_ → MayResume _ _))
  | .request _ => inferInstanceAs (Decidable (_ → MayResume _ _))
  | .reload _ _ => inferInstanceAs (Decidable ((_ → _) ∧ (_ → _)))
  | .pauseMining _ => .isTrue trivial
  | .resumeMining => inferInstanceAs (Decidable (MayResume _ _))
  | .mine _ => .isTrue trivial

/-! ## One step -/

variable {pausing after : Pausing}

def refuses (pausing : Pausing) (enabled : Bool) : Bool :=
  pausing.isPauseOnBattery && pausing.flag .batteryPower && enabled

/-- `setEnabled` writes the flag it is for, and of the rest only the nonce state. -/
theorem setEnabled_miner (pausing : Pausing) (enabled : Bool) :
    (pausing.setEnabled enabled).mining.pauseOnBattery = pausing.mining.pauseOnBattery ∧
      (pausing.setEnabled enabled).mining.miner =
        { pausing.mining.miner with enabled := if pausing.refuses enabled then pausing.enabled else enabled } := by
  change (pausing.mining.setEnabled enabled).pauseOnBattery = _ ∧ (pausing.mining.setEnabled enabled).miner = _
  unfold Mining.setEnabled
  split
  · rename_i same
    refine ⟨rfl, ?_⟩
    rw [show pausing.enabled = enabled from same, ite_self, ← same]
  · split
    · rename_i refused
      rw [if_pos (show pausing.refuses enabled = true from refused)]
      exact ⟨rfl, rfl⟩
    · rename_i allowed
      rw [if_neg (show ¬pausing.refuses enabled = true from allowed)]
      dsimp only
      split <;> exact ⟨rfl, rfl⟩

theorem setEnabled_enabled (pausing : Pausing) (enabled : Bool) :
    (pausing.setEnabled enabled).enabled = if pausing.refuses enabled then pausing.enabled else enabled := by
  rw [Pausing.enabled, (setEnabled_miner pausing enabled).2]

@[simp] theorem setEnabled_flag (pausing : Pausing) (enabled : Bool) (watch : Watch) :
    (pausing.setEnabled enabled).flag watch = pausing.flag watch := by
  cases watch with
  | userActive => rfl
  | batteryPower => rw [flag, (setEnabled_miner pausing enabled).2]; rfl

@[simp] theorem setEnabled_option (pausing : Pausing) (enabled : Bool) (watch : Watch) :
    (pausing.setEnabled enabled).option watch = pausing.option watch := by
  cases watch with
  | userActive => rfl
  | batteryPower => exact (setEnabled_miner pausing enabled).1

@[simp] theorem setEnabled_autoPause (pausing : Pausing) (enabled : Bool) :
    (pausing.setEnabled enabled).autoPause = pausing.autoPause := rfl

@[simp] theorem setEnabled_monitor (pausing : Pausing) (enabled : Bool) :
    (pausing.setEnabled enabled).monitor = pausing.monitor := rfl

@[simp] theorem setEnabled_manual (pausing : Pausing) (enabled : Bool) :
    (pausing.setEnabled enabled).manual = pausing.manual := rfl

/-- A state that differs from another one in `enabled` at most. -/
structure Alike (pausing after : Pausing) : Prop where
  autoPause : after.autoPause = pausing.autoPause
  flag : ∀ watch, after.flag watch = pausing.flag watch
  option : ∀ watch, after.option watch = pausing.option watch

theorem Alike.flags (alike : Alike pausing after) : after.flags = pausing.flags := by
  simp only [Pausing.flags, alike.flag]

theorem Alike.isAutoPaused (alike : Alike pausing after) : after.isAutoPaused = pausing.isAutoPaused := by
  simp only [Pausing.isAutoPaused, alike.flag, alike.option]

theorem Alike.setEnabled (alike : Alike pausing after) (enabled : Bool) :
    Alike pausing (after.setEnabled enabled) where
  autoPause := alike.autoPause
  flag watch := by rw [setEnabled_flag, alike.flag]
  option watch := by rw [setEnabled_option, alike.option]

/-- Where the timer has nothing to do, only `enabled` and the wishes have to fit. -/
theorem Alike.respected (alike : Alike pausing after) (respected : pausing.Respected)
    (enabled : after.enabled = after.isWanted) : after.Respected where
  counted := by rw [alike.autoPause, alike.flags, respected.counted]
  optional watch up := by
    rw [alike.option]
    exact respected.optional watch (by rw [← alike.flag]; exact up)
  enabled := enabled

theorem Respected.isAutoPaused (respected : pausing.Respected) :
    pausing.isAutoPaused = (pausing.flag .batteryPower || pausing.flag .userActive) := by
  have battery := respected.optional .batteryPower
  have active := respected.optional .userActive
  unfold Pausing.isAutoPaused
  cases down : pausing.flag .batteryPower <;> cases idle : pausing.flag .userActive <;> simp_all

theorem record_flag (pausing : Pausing) (pause : Bool) (watch other : Watch) :
    (pausing.record watch pause).flag other = if other = watch then pause else pausing.flag other := by
  cases watch <;> cases other <;> rfl

theorem record_option (pausing : Pausing) (pause : Bool) (watch other : Watch) :
    (pausing.record watch pause).option other = pausing.option other := by
  cases watch <;> cases other <;> rfl

theorem record_counted {watch : Watch} {pause : Bool} (counted : pausing.autoPause = pausing.flags)
    (changed : pausing.flag watch = !pause) :
    (pausing.record watch pause).autoPause = (pausing.record watch pause).flags := by
  have moved : (pausing.record watch pause).autoPause = pausing.flags + if pause then 1 else -1 := by
    rw [← counted]
    cases watch <;> rfl
  rw [moved]
  unfold flags
  simp only [record_flag]
  cases watch with
  | batteryPower =>
    rw [changed]
    cases pause <;> cases pausing.flag .userActive <;> decide
  | userActive =>
    rw [changed]
    cases pause <;> cases pausing.flag .batteryPower <;> decide

/-- Recorded conditions after one look: the one looked at changes, the count follows, and a change
decides anew whether the miner runs. -/
structure Looked (pausing after : Pausing) (watch : Watch) (now : Bool) : Prop where
  counted : after.autoPause = after.flags
  flag : ∀ other, after.flag other = if other = watch then now else pausing.flag other
  option : ∀ other, after.option other = pausing.option other
  enabled : after.enabled =
    if now = pausing.flag watch then pausing.enabled else !(after.flag .batteryPower || after.flag .userActive)
  monitor : after.monitor = pausing.monitor
  manual : after.manual = pausing.manual

theorem flags_eq_zero_iff (pausing : Pausing) :
    pausing.flags = 0 ↔ (pausing.flag .batteryPower || pausing.flag .userActive) = false := by
  unfold flags
  cases pausing.flag .batteryPower <;> cases pausing.flag .userActive <;> decide

/-- The miner is resumed only where no condition is left, so battery power never refuses it here. -/
theorem record_refuses {watch : Watch} {pause : Bool}
    (counted : (pausing.record watch pause).autoPause = (pausing.record watch pause).flags) :
    (pausing.record watch pause).refuses ((pausing.record watch pause).autoPause = 0) = false := by
  unfold refuses
  by_cases none : (pausing.record watch pause).autoPause = 0
  · rw [counted, flags_eq_zero_iff, Bool.or_eq_false_iff] at none
    simp [none.1]
  · simp [none]

theorem autoPauseOn_looked (counted : pausing.autoPause = pausing.flags) (watch : Watch) (pause : Bool) :
    Looked pausing (pausing.autoPauseOn watch pause) watch pause := by
  have changes : ((pause && !pausing.flag watch) || (!pause && pausing.flag watch)) = true ↔
      pausing.flag watch = !pause := by
    cases pause <;> cases pausing.flag watch <;> decide
  unfold autoPauseOn
  by_cases changed : pausing.flag watch = !pause
  · have recorded := record_counted counted changed
    rw [if_pos (changes.mpr changed)]
    refine ⟨?_, fun other => ?_, fun other => ?_, ?_, ?_, ?_⟩
    · simp only [flags, setEnabled_flag, setEnabled_autoPause]
      exact recorded
    · rw [setEnabled_flag, record_flag]
    · rw [setEnabled_option, record_option]
    · have moved : pause ≠ pausing.flag watch := by rw [changed]; cases pause <;> decide
      rw [setEnabled_enabled, record_refuses recorded, if_neg Bool.false_ne_true, if_neg moved,
        setEnabled_flag, setEnabled_flag, recorded]
      have zero := flags_eq_zero_iff (pausing.record watch pause)
      cases clear : ((pausing.record watch pause).flag .batteryPower || (pausing.record watch pause).flag .userActive)
      · exact decide_eq_true (zero.mpr clear)
      · exact decide_eq_false fun none => by rw [zero.mp none] at clear; cases clear
    · cases watch <;> rfl
    · cases watch <;> rfl
  · have same : pause = pausing.flag watch := by
      cases pause <;> cases up : pausing.flag watch <;> simp_all
    rw [if_neg (mt changes.mp changed)]
    refine ⟨counted, fun other => ?_, fun other => rfl, ?_, rfl, rfl⟩
    · split
      · rename_i this
        rw [this, same]
      · rfl
    · rw [if_pos same]

def found (pausing : Pausing) (watch : Watch) (holds : Bool) : Bool :=
  if pausing.option watch then holds else pausing.flag watch

theorem look_looked (counted : pausing.autoPause = pausing.flags) (watch : Watch) (holds : Bool) :
    Looked pausing (pausing.look watch holds) watch (pausing.found watch holds) := by
  unfold look found
  split
  · exact autoPauseOn_looked counted watch holds
  · refine ⟨counted, fun other => ?_, fun other => rfl, ?_, rfl, rfl⟩
    · split
      · rename_i this
        rw [this]
      · rfl
    · rw [if_pos rfl]

/-- A whole tick: both conditions are recorded, and any change decides whether the miner runs. -/
structure Ticked (pausing after : Pausing) (battery active : Bool) : Prop where
  counted : after.autoPause = after.flags
  powered : after.flag .batteryPower = battery
  busy : after.flag .userActive = active
  option : ∀ watch, after.option watch = pausing.option watch
  enabled : after.enabled =
    if battery = pausing.flag .batteryPower ∧ active = pausing.flag .userActive then pausing.enabled
    else !(battery || active)
  monitor : after.monitor = pausing.monitor
  manual : after.manual = pausing.manual

theorem ticked_of_looked {middle : Pausing} {battery active : Bool}
    (first : Looked pausing middle .batteryPower battery) (second : Looked middle after .userActive active) :
    Ticked pausing after battery active := by
  have power : middle.flag .batteryPower = battery := by rw [first.flag, if_pos rfl]
  have before : middle.flag .userActive = pausing.flag .userActive := by rw [first.flag]; rfl
  have powered : after.flag .batteryPower = battery := by rw [second.flag, ← power]; rfl
  have found : after.flag .userActive = active := by rw [second.flag, if_pos rfl]
  refine ⟨second.counted, powered, found, fun watch => ?_, ?_, ?_, ?_⟩
  · rw [second.option, first.option]
  · rw [second.enabled, first.enabled, power, before, powered, found]
    by_cases idle : active = pausing.flag .userActive
    · rw [if_pos idle, ← idle]
      by_cases plugged : battery = pausing.flag .batteryPower
      · rw [if_pos plugged, if_pos ⟨plugged, rfl⟩]
      · rw [if_neg plugged, if_neg fun same => plugged same.1]
    · rw [if_neg idle, if_neg fun same => idle same.2]
  · rw [second.monitor, first.monitor]
  · rw [second.manual, first.manual]

theorem onTimer_ticked (counted : pausing.autoPause = pausing.flags) (onBatteryPower isUserActive stopMiner : Bool) :
    Ticked pausing (pausing.onTimer onBatteryPower isUserActive stopMiner)
      (pausing.found .batteryPower onBatteryPower) (pausing.found .userActive isUserActive) := by
  have first : Looked pausing.countTick (pausing.countTick.look .batteryPower onBatteryPower) .batteryPower
      (pausing.found .batteryPower onBatteryPower) :=
    look_looked (show pausing.countTick.autoPause = pausing.countTick.flags from counted) .batteryPower onBatteryPower
  have second := look_looked first.counted .userActive isUserActive
  have known : (pausing.countTick.look .batteryPower onBatteryPower).found .userActive isUserActive =
      pausing.found .userActive isUserActive := by
    unfold found
    rw [first.option, first.flag]
    rfl
  rw [known] at second
  -- Neither the counter of ticks nor the stop of the workers is read by any source.
  have whole := ticked_of_looked first second
  unfold onTimer
  dsimp only
  split
  · exact ⟨whole.counted, whole.powered, whole.busy, whole.option, whole.enabled, whole.monitor, whole.manual⟩
  · exact ⟨whole.counted, whole.powered, whole.busy, whole.option, whole.enabled, whole.monitor, whole.manual⟩

/-- Where a condition is recorded only under its option, so is what the tick finds. -/
theorem Respected.found (respected : pausing.Respected) (watch : Watch) (holds : Bool) :
    pausing.found watch holds = (pausing.option watch && holds) := by
  have optional := respected.optional watch
  unfold Pausing.found
  cases on : pausing.option watch
  · cases up : pausing.flag watch
    · rfl
    · rw [optional up] at on
      cases on
  · rfl

theorem Ticked.respected_iff {onBatteryPower isUserActive stopMiner : Bool} (respected : pausing.Respected)
    (ticked : Ticked pausing after (pausing.found .batteryPower onBatteryPower)
      (pausing.found .userActive isUserActive)) :
    after.Respected ↔ (Event.timer onBatteryPower isUserActive stopMiner).Agreed pausing := by
  have before := respected.isAutoPaused
  have optional : ∀ watch, after.flag watch = true → after.option watch = true := by
    intro watch up
    rw [ticked.option]
    cases watch with
    | batteryPower =>
      rw [ticked.powered, respected.found, Bool.and_eq_true] at up
      exact up.1
    | userActive =>
      rw [ticked.busy, respected.found, Bool.and_eq_true] at up
      exact up.1
  have wanted : after.isWanted = (!(pausing.found .batteryPower onBatteryPower ||
      pausing.found .userActive isUserActive) && !pausing.monitor.paused && !pausing.manual) := by
    unfold isWanted isAutoPaused
    rw [ticked.option, ticked.option, ticked.powered, ticked.busy, ticked.monitor, ticked.manual,
      respected.found, respected.found, ← Bool.and_assoc, ← Bool.and_assoc, Bool.and_self, Bool.and_self]
  have reduced : after.Respected ↔ after.enabled = after.isWanted :=
    ⟨fun good => good.enabled, fun good => ⟨ticked.counted, optional, good⟩⟩
  have agreed : (Event.timer onBatteryPower isUserActive stopMiner).Agreed pausing ↔
      (pausing.isAutoPaused = true → (pausing.found .batteryPower onBatteryPower ||
        pausing.found .userActive isUserActive) = false → pausing.monitor.paused = false ∧ pausing.manual = false) := by
    rw [respected.found, respected.found]
    rfl
  rw [reduced, agreed, wanted, ticked.enabled, before]
  split
  · rename_i same
    rw [same.1, same.2, respected.enabled, isWanted, before]
    refine ⟨fun _ up clear => ?_, fun _ => rfl⟩
    rw [up] at clear
    cases clear
  · rename_i changed
    cases now : (pausing.found .batteryPower onBatteryPower || pausing.found .userActive isUserActive)
    · have lifted : (pausing.flag .batteryPower || pausing.flag .userActive) = true := by
        rw [Bool.or_eq_false_iff] at now
        by_contra clear
        rw [Bool.not_eq_true, Bool.or_eq_false_iff] at clear
        exact changed ⟨now.1.trans clear.1.symm, now.2.trans clear.2.symm⟩
      rw [lifted]
      cases pausing.monitor.paused <;> cases pausing.manual <;> decide
    · simp

theorem Respected.paused (respected : pausing.Respected) (alike : Alike pausing after)
    (asked : (after.monitor.paused || after.manual) = true) : (after.setEnabled false).Respected := by
  refine (alike.setEnabled false).respected respected ?_
  have off : (after.setEnabled false).enabled = false := by
    rw [setEnabled_enabled, refuses, Bool.and_false]
    rfl
  rw [off, isWanted, setEnabled_monitor, setEnabled_manual, Bool.and_assoc, ← Bool.not_or, asked, Bool.not_true,
    Bool.and_false]

/-- A source that resumes has its way unless battery power refuses. -/
theorem Respected.resumed_iff (respected : pausing.Respected) (alike : Alike pausing after)
    (same : after.enabled = pausing.enabled) {others : Bool} (left : (after.monitor.paused || after.manual) = others) :
    (after.setEnabled true).Respected ↔ pausing.MayResume others := by
  have whole := alike.setEnabled true
  have reduced : (after.setEnabled true).Respected ↔
      (after.setEnabled true).enabled = (after.setEnabled true).isWanted :=
    ⟨fun good => good.enabled, fun good => whole.respected respected good⟩
  have wanted : (after.setEnabled true).isWanted =
      (!(pausing.flag .batteryPower || pausing.flag .userActive) && !others) := by
    rw [isWanted, whole.isAutoPaused, respected.isAutoPaused, setEnabled_monitor, setEnabled_manual, Bool.and_assoc,
      ← Bool.not_or (after.monitor.paused), left]
  rw [reduced, wanted, setEnabled_enabled, refuses, alike.flag, Bool.and_true, same, MayResume]
  cases power : pausing.flag .batteryPower
  · rw [Bool.and_false, if_neg Bool.false_ne_true]
    cases pausing.flag .userActive <;> cases others <;> decide
  · have on : after.isPauseOnBattery = true :=
      (alike.option .batteryPower).trans (respected.optional .batteryPower power)
    rw [on, Bool.and_true, if_pos rfl, respected.enabled, isWanted, respected.isAutoPaused, power]
    simp

end Pausing

/-! ## The rest of the miner -/

namespace Mining

variable {mining after : Mining}

/-- Two states whose pauses look the same. -/
structure SamePauses (mining after : Mining) : Prop where
  enabled : after.miner.enabled = mining.miner.enabled
  battery : after.miner.batteryPower = mining.miner.batteryPower
  option : after.pauseOnBattery = mining.pauseOnBattery

theorem setJob_samePauses (mining : Mining) (job : Job) (donate : Bool) (nodeset : List Nat) (between : List Bool) :
    SamePauses mining (mining.setJob job donate nodeset between) := by
  have held : SamePauses mining (mining.hold job) := by
    unfold hold
    dsimp only
    split
    · split <;> exact ⟨rfl, rfl, rfl⟩
    · exact ⟨rfl, rfl, rfl⟩
  unfold setJob
  dsimp only
  split
  · exact ⟨held.enabled, held.battery, held.option⟩
  · exact ⟨held.enabled, held.battery, held.option⟩

theorem onReady_samePauses (mining : Mining) : SamePauses mining mining.onReady := by
  unfold onReady onDatasetReady
  dsimp only
  split
  · split <;> exact ⟨rfl, rfl, rfl⟩
  · exact ⟨rfl, rfl, rfl⟩

theorem step_samePauses {event : Event} (stepped : mining.step event = some after)
    (job : ∀ enabled, event ≠ .setEnabled enabled) (other : ∀ power, event ≠ .battery power) :
    SamePauses mining after := by
  cases event with
  | setJob next donate nodeset between => cases stepped; exact setJob_samePauses mining next donate nodeset between
  | setEnabled enabled => exact absurd rfl (job enabled)
  | battery power => exact absurd rfl (other power)
  | pause => cases stepped; exact ⟨rfl, rfl, rfl⟩
  | stop => cases stepped; exact ⟨rfl, rfl, rfl⟩
  | background allocates =>
    obtain ⟨queue, -, rfl⟩ := Option.map_eq_some_iff.mp stepped
    exact ⟨rfl, rfl, rfl⟩
  | ready =>
    simp only [step] at stepped
    split at stepped
    · cases stepped; exact onReady_samePauses mining
    · cases stepped
  | exhausted => cases stepped; exact ⟨rfl, rfl, rfl⟩

end Mining

/-! ## Whole runs -/

namespace Pausing

variable {pausing after : Pausing}

theorem step_mine {event : Mining.Event} (stepped : pausing.step (.mine event) = some after) :
    ∃ mining, Mining.SamePauses pausing.mining mining ∧ after = { pausing with mining } := by
  have plain : ∀ enabled, event ≠ .setEnabled enabled := by
    rintro enabled rfl
    cases stepped
  have still : ∀ power, event ≠ .battery power := by
    rintro power rfl
    cases stepped
  have moved : (pausing.mining.step event).map (fun mining => { pausing with mining }) = some after := by
    cases event with
    | setEnabled enabled => exact absurd rfl (plain enabled)
    | battery power => exact absurd rfl (still power)
    | _ => exact stepped
  obtain ⟨mining, next, rfl⟩ := Option.map_eq_some_iff.mp moved
  exact ⟨mining, Mining.step_samePauses next plain still, rfl⟩

theorem alike_mine {mining : Mining} (same : Mining.SamePauses pausing.mining mining) :
    Alike pausing { pausing with mining } := by
  refine ⟨rfl, fun watch => ?_, fun watch => ?_⟩
  · cases watch with
    | batteryPower => exact same.battery
    | userActive => rfl
  · cases watch with
    | batteryPower => exact same.option
    | userActive => rfl

theorem Respected.same (respected : pausing.Respected) (alike : Alike pausing after)
    (enabled : after.enabled = pausing.enabled) (monitor : after.monitor = pausing.monitor)
    (manual : after.manual = pausing.manual) : after.Respected := by
  refine alike.respected respected ?_
  rw [isWanted, alike.isAutoPaused, monitor, manual, enabled]
  exact respected.enabled

theorem command_respected_iff (respected : pausing.Respected) (pause : Bool) :
    (pausing.command pause).Respected ↔ (pause = false → pausing.MayResume pausing.monitor.paused) := by
  have alike : Alike pausing { pausing with manual := pause } :=
    ⟨rfl, fun watch => by cases watch <;> rfl, fun watch => by cases watch <;> rfl⟩
  cases pause with
  | true =>
    have good : (pausing.command true).Respected :=
      respected.paused alike (by rw [Bool.or_true])
    exact ⟨fun _ resumed => (by cases resumed), fun _ => good⟩
  | false =>
    have resumed : (pausing.command false).Respected ↔ pausing.MayResume pausing.monitor.paused :=
      respected.resumed_iff alike rfl (by rw [Bool.or_false])
    rw [resumed]
    exact ⟨fun may _ => may, fun may => may rfl⟩

theorem execCommand_respected_iff (respected : pausing.Respected) (command : Char) :
    (pausing.execCommand command).Respected ↔ (Event.execCommand command).Agreed pausing := by
  unfold execCommand Event.Agreed
  split
  · rename_i pauses
    rw [command_respected_iff respected]
    have other : ¬(command = 'r' ∨ command = 'R') := by
      rcases pauses with rfl | rfl <;> decide
    exact ⟨fun _ resumes => absurd resumes other, fun _ resumed => by cases resumed⟩
  · split
    · rename_i resumes
      rw [command_respected_iff respected]
      exact ⟨fun may _ => may rfl, fun may _ => may resumes⟩
    · rename_i other
      exact ⟨fun _ resumes => absurd resumes other, fun _ => respected⟩

theorem onRequest_respected_iff (respected : pausing.Respected) (method : RpcMethod) :
    (pausing.onRequest method).Respected ↔ (Event.request method).Agreed pausing := by
  cases method with
  | pause =>
    refine (command_respected_iff respected true).trans ?_
    exact ⟨fun _ resumes => (by cases resumes), fun _ resumed => (by cases resumed)⟩
  | resume =>
    refine (command_respected_iff respected false).trans ?_
    exact ⟨fun may _ => may rfl, fun may _ => may rfl⟩
  | stop =>
    have good : pausing.stop.Respected :=
      respected.same (alike_mine ⟨rfl, rfl, rfl⟩) rfl rfl rfl
    exact ⟨fun _ resumes => (by cases resumes), fun _ => good⟩

theorem reload_respected_iff (respected : pausing.Respected) (pauseOnBattery : Bool) (idleTime : Nat) :
    (pausing.reload pauseOnBattery idleTime).Respected ↔ (Event.reload pauseOnBattery idleTime).Agreed pausing := by
  constructor
  · intro good
    have battery := good.optional .batteryPower
    have active := good.optional .userActive
    exact ⟨battery, fun up => of_decide_eq_true (active up)⟩
  · rintro ⟨battery, active⟩
    have optional : ∀ watch, (pausing.reload pauseOnBattery idleTime).flag watch = true →
        (pausing.reload pauseOnBattery idleTime).option watch = true := by
      intro watch up
      cases watch with
      | batteryPower => exact battery up
      | userActive => exact decide_eq_true (active up)
    -- The options only matter for conditions that are recorded.
    have still : (pausing.reload pauseOnBattery idleTime).isAutoPaused = pausing.isAutoPaused := by
      rw [respected.isAutoPaused]
      unfold Pausing.isAutoPaused
      have power := optional .batteryPower
      have busy := optional .userActive
      change (_ && pausing.flag .batteryPower || _ && pausing.flag .userActive) = _
      change pausing.flag .batteryPower = true → _ at power
      change pausing.flag .userActive = true → _ at busy
      cases up : pausing.flag .batteryPower <;> cases here : pausing.flag .userActive <;> simp_all
    refine ⟨respected.counted, optional, ?_⟩
    rw [isWanted, still]
    exact respected.enabled

/-- From a good state, exactly the steps that no other source objects to lead to a good state. -/
theorem step_respected_iff (respected : pausing.Respected) {event : Event}
    (stepped : pausing.step event = some after) : after.Respected ↔ event.Agreed pausing := by
  cases event with
  | timer onBatteryPower isUserActive stopMiner =>
    cases stepped
    exact (onTimer_ticked respected.counted onBatteryPower isUserActive stopMiner).respected_iff respected
  | execCommand command => cases stepped; exact execCommand_respected_iff respected command
  | request method => cases stepped; exact onRequest_respected_iff respected method
  | reload pauseOnBattery idleTime => cases stepped; exact reload_respected_iff respected pauseOnBattery idleTime
  | pauseMining reason =>
    cases stepped
    have alike : Alike pausing { pausing with monitor := { paused := true, pauseReason := reason } } :=
      ⟨rfl, fun watch => by cases watch <;> rfl, fun watch => by cases watch <;> rfl⟩
    exact ⟨fun _ => trivial, fun _ => respected.paused alike rfl⟩
  | resumeMining =>
    cases stepped
    have alike : Alike pausing { pausing with monitor := { paused := false, pauseReason := 0 } } :=
      ⟨rfl, fun watch => by cases watch <;> rfl, fun watch => by cases watch <;> rfl⟩
    exact respected.resumed_iff alike rfl rfl
  | mine event =>
    obtain ⟨mining, same, rfl⟩ := step_mine stepped
    exact ⟨fun _ => trivial, fun _ => respected.same (alike_mine same) same.enabled rfl rfl⟩

theorem command_flags (pausing : Pausing) (pause : Bool) : (pausing.command pause).flags = pausing.flags := by
  change (pausing.setEnabled !pause).flags = _
  simp only [flags, setEnabled_flag]

/-- The count of the timer follows the recorded conditions whatever the other sources do. -/
theorem step_counted (counted : pausing.autoPause = pausing.flags) {event : Event}
    (stepped : pausing.step event = some after) : after.autoPause = after.flags := by
  cases event with
  | timer onBatteryPower isUserActive stopMiner =>
    cases stepped
    exact (onTimer_ticked counted onBatteryPower isUserActive stopMiner).counted
  | execCommand command =>
    cases stepped
    unfold execCommand
    split
    · rw [command_flags]; exact counted
    · split
      · rw [command_flags]; exact counted
      · exact counted
  | request method =>
    cases stepped
    cases method with
    | stop => exact counted
    | pause => rw [onRequest, command_flags]; exact counted
    | resume => rw [onRequest, command_flags]; exact counted
  | reload pauseOnBattery idleTime => cases stepped; exact counted
  | pauseMining reason =>
    cases stepped
    simp only [pauseMining, flags, setEnabled_flag]
    exact counted
  | resumeMining =>
    cases stepped
    simp only [resumeMining, flags, setEnabled_flag]
    exact counted
  | mine event =>
    obtain ⟨mining, same, rfl⟩ := step_mine stepped
    rw [(alike_mine same).flags]
    exact counted

def start (pauseOnBattery : Bool) (idleTime : Nat) : Pausing :=
  { mining := { pauseOnBattery }, idleTime }

theorem start_respected (pauseOnBattery : Bool) (idleTime : Nat) : (start pauseOnBattery idleTime).Respected where
  counted := rfl
  optional watch up := by cases watch <;> cases up
  enabled := by simp [start, enabled, isWanted, isAutoPaused, flag]

theorem run_counted {pauseOnBattery : Bool} {idleTime : Nat} {events : List Event} {final : Pausing}
    (executed : run step (start pauseOnBattery idleTime) events = some final) : final.autoPause = final.flags :=
  run_keeps (fun _ _ _ counted stepped => step_counted counted stepped)
    (start_respected pauseOnBattery idleTime).counted executed

/-- Every pause is respected in every state of a run exactly if each step is one that no other
source objects to. -/
theorem respected_throughout_iff {pauseOnBattery : Bool} {idleTime : Nat} {events : List Event} {final : Pausing}
    (executed : run step (start pauseOnBattery idleTime) events = some final) :
    Throughout step Respected (start pauseOnBattery idleTime) events ↔
      Guarded step (fun pausing event => event.Agreed pausing) (start pauseOnBattery idleTime) events :=
  throughout_iff_guarded (fun _ good => good)
    (fun _ _ _ good agreed stepped => (step_respected_iff good stepped).mpr agreed)
    (fun _ _ _ good objected stepped kept => objected ((step_respected_iff good stepped).mp kept))
    (start_respected pauseOnBattery idleTime) executed

/-- The user pauses the miner, and the machine leaves the mains and comes back to them. -/
def unplugged : List Event := [.execCommand 'p', .timer true false false, .timer false false false]

/-- The timer resumes a miner that the user has paused. -/
theorem unplugged_resumes :
    ∃ final, run step (start true 0) unplugged = some final ∧ final.manual = true ∧ final.enabled = true ∧
      ¬Throughout step Respected (start true 0) unplugged := by
  refine ⟨_, rfl, rfl, rfl, fun good => ?_⟩
  have wanted := (throughout_last good (by rfl)).enabled
  cases wanted

/-- The user comes back, leaves, and pauses the miner; the monitor pauses it too and resumes later. -/
def takingTurns : List Event :=
  [.timer false true false, .timer false false false, .pauseMining 1, .execCommand 'p', .execCommand 'h',
    .reload true 60, .timer true false false, .resumeMining, .execCommand 'r', .timer false false true]

/-- On battery power neither the monitor nor the user brings the miner back, and the timer does once
both have asked for it. -/
theorem takingTurns_respected :
    ∃ final, run step (start false 60) takingTurns = some final ∧ final.enabled = true ∧
      Throughout step Respected (start false 60) takingTurns := by
  exact ⟨_, rfl, rfl, (respected_throughout_iff (by rfl)).mpr (by decide)⟩

end Pausing

end Xmrig
