import Mathlib.Data.Nat.Bitwise
import Xmrig.Foundation.Locks
import Xmrig.Foundation.Run

/-! The reporter and the donation controller, with their locks.

Both keep their configuration under a mutex that is not recursive. The thread
that calls them and the report thread are two parties; a party stops in front
of every lock, at the join and at every access to `m_running`, so that any
interleaving is a list of events. What a party does between two such points
touches nothing that the other one can see, and is one step.
-/

set_option autoImplicit false

namespace Xmrig

open Foundation

inductive Party where
  | caller
  | reportThread
  deriving DecidableEq, Repr

inductive Mutex where
  | reporterConfig
  | reporterStats
  | donationConfig
  deriving DecidableEq, Repr

namespace Reporter

structure Config where
  host : String := ""
  port : Nat := 8181
  path : String := ""
  interval : Nat := 60
  enabled : Bool := false
  deriving DecidableEq, Repr

def url (config : Config) : String :=
  "http://" ++ config.host ++ ":" ++ toString config.port ++ config.path

/-- Where a party stands in `doReport`. -/
inductive DoReport where
  | lockConfig
  | readConfig
  | lockStats (config : Config)
  | readStats (config : Config)
  | httpPost (config : Config)
  deriving DecidableEq, Repr

/-- Where the report thread stands; `wait` is its sleep of `interval` seconds. -/
inductive ReportThread where
  | absent
  | head
  | lockConfig
  | readConfig
  | doReport (config : Config) (point : DoReport)
  | wait (config : Config) (i : Nat)
  | finished
  deriving DecidableEq, Repr

end Reporter

structure Reporter where
  config : Reporter.Config := {}
  running : Bool := false
  /-- The requests sent, newest first. -/
  posts : List String := []
  deriving DecidableEq, Repr

namespace DonationController

structure Config where
  donateLevel : Nat := 0
  donateAddress : String := ""
  useUserPool : Bool := true
  deriving DecidableEq, Repr

def cycleTime : Nat := 100 * 60 * 1000

end DonationController

structure DonationController where
  config : DonationController.Config := {}
  isDonating : Bool := false
  startTime : Nat := 0
  lastSwitchTime : Nat := 0
  donationTime : Nat := 0
  userTime : Nat := 0
  deriving DecidableEq, Repr

namespace DonationController

/-- The part of `updateConfig` before the state is updated. -/
def setConfig (donation : DonationController) (config : Config) (now : Nat) : DonationController :=
  let levelChanged := donation.config.donateLevel ≠ config.donateLevel
  let donation := { donation with config }
  let donation :=
    if donation.config.donateLevel > 100 then
      { donation with config := { donation.config with donateLevel := 100 } }
    else donation
  if levelChanged then
    { donation with startTime := now, lastSwitchTime := now, donationTime := 0, userTime := 0 }
  else donation

/-- Sums of `uint64_t`. -/
def addTime (time elapsed : Nat) : Nat := (time + elapsed) % 2 ^ 64

/-- `updateDonationState` under its lock. -/
def updateState (donation : DonationController) (now : Nat) : DonationController :=
  if donation.config.donateLevel = 0 then { donation with isDonating := false }
  else if donation.config.donateLevel = 100 then { donation with isDonating := true }
  else
    let elapsed := (now + (2 ^ 64 - donation.lastSwitchTime)) % 2 ^ 64
    let donateTimePerCycle := cycleTime * donation.config.donateLevel / 100
    let userTimePerCycle := cycleTime - donateTimePerCycle
    if donation.isDonating then
      let donation := { donation with donationTime := addTime donation.donationTime elapsed }
      if donation.donationTime ≥ donateTimePerCycle then
        { donation with isDonating := false, lastSwitchTime := now, donationTime := 0 }
      else donation
    else
      let donation := { donation with userTime := addTime donation.userTime elapsed }
      if donation.userTime ≥ userTimePerCycle then
        { donation with isDonating := true, lastSwitchTime := now, userTime := 0 }
      else donation

def currentWallet (donation : DonationController) : String :=
  if donation.isDonating && donation.config.donateAddress ≠ "" then donation.config.donateAddress else ""

end DonationController

/-- Where the calling thread stands. `inside` marks a call made by `updateConfig` itself, under its
lock. -/
inductive Caller where
  | idle
  | updateLock (config : Reporter.Config)
  | updateBody (config : Reporter.Config)
  | start (inside : Bool)
  | stop (inside : Bool)
  | join (inside : Bool)
  | updateReturn
  | statsLock
  | statsBody
  | doReport (point : Reporter.DoReport)
  | donationLock (config : DonationController.Config)
  | donationBody (config : DonationController.Config)
  | stateLock (inside : Bool)
  | stateBody (inside : Bool)
  | donationReturn
  | walletLock
  | walletBody
  deriving DecidableEq, Repr

/-- The public functions of the two modules that take a lock or touch the thread. -/
inductive Call where
  | start
  | stop
  | updateReporter (config : Reporter.Config)
  | updateStats
  | reportNow
  | updateDonation (config : DonationController.Config)
  | onJob
  | getCurrentWallet
  deriving DecidableEq, Repr

structure Modules where
  owner : Mutex → Option Party := fun _ => none
  reporter : Reporter := {}
  donation : DonationController := {}
  caller : Caller := .idle
  thread : Reporter.ReportThread := .absent
  wallet : String := ""

namespace Modules

open Reporter (DoReport ReportThread)

def enter : Call → Caller
  | .start => .start false
  | .stop => .stop false
  | .updateReporter config => .updateLock config
  | .updateStats => .statsLock
  | .reportNow => .doReport .lockConfig
  | .updateDonation config => .donationLock config
  | .onJob => .stateLock false
  | .getCurrentWallet => .walletLock

def lock (modules : Modules) (party : Party) (mutex : Mutex) : Option Modules :=
  (acquire modules.owner party mutex).map fun owner => { modules with owner }

def unlock (modules : Modules) (mutex : Mutex) : Modules :=
  { modules with owner := release modules.owner mutex }

/-- One step of `doReport`; without a next point it returns. -/
def doReport (modules : Modules) (party : Party) : DoReport → Option (Modules × Option DoReport)
  | .lockConfig => (modules.lock party .reporterConfig).map (·, some .readConfig)
  | .readConfig =>
      let config := modules.reporter.config
      let modules := modules.unlock .reporterConfig
      if !config.enabled || config.host = "" then some (modules, none)
      else some (modules, some (.lockStats config))
  | .lockStats config => (modules.lock party .reporterStats).map (·, some (.readStats config))
  | .readStats config => some (modules.unlock .reporterStats, some (.httpPost config))
  | .httpPost config =>
      let reporter := { modules.reporter with posts := Reporter.url config :: modules.reporter.posts }
      some ({ modules with reporter }, none)

/-- Return from `start` or `stop`. -/
def back (inside : Bool) : Caller := if inside then .updateReturn else .idle

/-- `updateConfig` of the reporter under its lock: the call that follows. -/
def update (modules : Modules) (config : Reporter.Config) : Modules :=
  let wasEnabled := modules.reporter.config.enabled
  let modules := { modules with reporter := { modules.reporter with config } }
  if !wasEnabled && config.enabled then { modules with caller := .start true }
  else if wasEnabled && !config.enabled then { modules with caller := .stop true }
  else { modules with caller := .updateReturn }

def start (modules : Modules) (inside : Bool) : Modules :=
  if modules.reporter.running || !modules.reporter.config.enabled then { modules with caller := back inside }
  else
    { modules with
      reporter := { modules.reporter with running := true }
      thread := .head
      caller := back inside }

def stop (modules : Modules) (inside : Bool) : Modules :=
  if !modules.reporter.running then { modules with caller := back inside }
  else
    { modules with
      reporter := { modules.reporter with running := false }
      caller := if modules.thread = .absent then back inside else .join inside }

/-- `updateConfig` of the donation controller under its lock. -/
def updateDonation (modules : Modules) (config : DonationController.Config) (now : Nat) : Modules :=
  { modules with
    donation := modules.donation.setConfig config now
    caller := if modules.donation.config.donateLevel ≠ config.donateLevel then .stateLock true else .donationReturn }

def take (modules : Modules) (mutex : Mutex) (next : Caller) : Option Modules :=
  (modules.lock .caller mutex).map fun modules => { modules with caller := next }

def stepCaller (modules : Modules) (now : Nat) : Option Modules :=
  match modules.caller with
  | .idle => none
  | .updateLock config => modules.take .reporterConfig (.updateBody config)
  | .updateBody config => some (modules.update config)
  | .start inside => some (modules.start inside)
  | .stop inside => some (modules.stop inside)
  | .join inside =>
      if modules.thread = .finished then some { modules with thread := .absent, caller := back inside } else none
  | .updateReturn => some { modules.unlock .reporterConfig with caller := .idle }
  | .statsLock => modules.take .reporterStats .statsBody
  | .statsBody => some { modules.unlock .reporterStats with caller := .idle }
  | .doReport point =>
      (modules.doReport .caller point).map fun result =>
        { result.1 with caller := (result.2.map Caller.doReport).getD .idle }
  | .donationLock config => modules.take .donationConfig (.donationBody config)
  | .donationBody config => some (modules.updateDonation config now)
  | .stateLock inside => modules.take .donationConfig (.stateBody inside)
  | .stateBody inside =>
      some
        { modules.unlock .donationConfig with
          donation := modules.donation.updateState now
          caller := if inside then .donationReturn else .idle }
  | .donationReturn => some { modules.unlock .donationConfig with caller := .idle }
  | .walletLock => modules.take .donationConfig .walletBody
  | .walletBody =>
      some { modules.unlock .donationConfig with wallet := modules.donation.currentWallet, caller := .idle }

def stepThread (modules : Modules) : Option Modules :=
  match modules.thread with
  | .absent => none
  | .head => some { modules with thread := if modules.reporter.running then .lockConfig else .finished }
  | .lockConfig =>
      (modules.lock .reportThread .reporterConfig).map fun modules => { modules with thread := .readConfig }
  | .readConfig =>
      let config := modules.reporter.config
      some
        { modules.unlock .reporterConfig with
          thread := if config.enabled then .doReport config .lockConfig else .wait config 0 }
  | .doReport config point =>
      (modules.doReport .reportThread point).map fun result =>
        { result.1 with thread := (result.2.map (ReportThread.doReport config)).getD (.wait config 0) }
  | .wait config i =>
      some
        { modules with
          thread := if i < config.interval ∧ modules.reporter.running then .wait config (i + 1) else .head }
  | .finished => none

inductive Event where
  | call (call : Call)
  | caller (now : Nat)
  | thread
  deriving DecidableEq, Repr

def step (modules : Modules) : Event → Option Modules
  | .call call => if modules.caller = .idle then some { modules with caller := enter call } else none
  | .caller now => modules.stepCaller now
  | .thread => modules.stepThread

/-! ## Waiting and holding -/

end Modules

namespace Reporter

def DoReport.waits : DoReport → Option Mutex
  | .lockConfig => some .reporterConfig
  | .lockStats _ => some .reporterStats
  | _ => none

def DoReport.holds (mutex : Mutex) : DoReport → Bool
  | .readConfig => mutex = .reporterConfig
  | .readStats _ => mutex = .reporterStats
  | _ => false

def ReportThread.waits : ReportThread → Option Mutex
  | .lockConfig => some .reporterConfig
  | .doReport _ point => point.waits
  | _ => none

def ReportThread.holds (mutex : Mutex) : ReportThread → Bool
  | .readConfig => mutex = .reporterConfig
  | .doReport _ point => point.holds mutex
  | _ => false

end Reporter

def Caller.waits : Caller → Option Mutex
  | .updateLock _ => some .reporterConfig
  | .statsLock => some .reporterStats
  | .doReport point => point.waits
  | .donationLock _ => some .donationConfig
  | .stateLock _ => some .donationConfig
  | .walletLock => some .donationConfig
  | _ => none

def Caller.holds (mutex : Mutex) : Caller → Bool
  | .updateBody _ => mutex = .reporterConfig
  | .start inside => inside && mutex = .reporterConfig
  | .stop inside => inside && mutex = .reporterConfig
  | .join inside => inside && mutex = .reporterConfig
  | .updateReturn => mutex = .reporterConfig
  | .statsBody => mutex = .reporterStats
  | .doReport point => point.holds mutex
  | .donationBody _ => mutex = .donationConfig
  | .stateLock inside => inside && mutex = .donationConfig
  | .stateBody _ => mutex = .donationConfig
  | .donationReturn => mutex = .donationConfig
  | .walletBody => mutex = .donationConfig
  | _ => false

namespace Modules

open Reporter (DoReport ReportThread)

def waits (modules : Modules) : Party → Option Mutex
  | .caller => modules.caller.waits
  | .reportThread => modules.thread.waits

def holds (modules : Modules) (party : Party) (mutex : Mutex) : Prop :=
  match party with
  | .caller => modules.caller.holds mutex = true
  | .reportThread => modules.thread.holds mutex = true

/-- A party waits for a lock that it owns, or for a thread that waits for a lock it owns. -/
def Deadlocked (modules : Modules) : Prop :=
  (∃ party mutex, modules.waits party = some mutex ∧ modules.owner mutex = some party) ∨
    ∃ inside mutex, modules.caller = .join inside ∧ modules.owner mutex = some .caller ∧
      modules.waits .reportThread = some mutex

/-- The level of the donation stays, and a reporter is not switched off under the nose of a thread
that is about to read its configuration. -/
def Event.isHarmless (modules : Modules) : Event → Bool
  | .caller _ =>
      match modules.caller with
      | .donationBody config => config.donateLevel = modules.donation.config.donateLevel
      | .stop inside =>
          !(inside && modules.reporter.running && modules.waits .reportThread = some .reporterConfig)
      | _ => true
  | _ => true

/-! ## Every interleaving -/

/-- What holds along every run of harmless steps. -/
structure Inv (modules : Modules) : Prop where
  owned : Owned modules.owner modules.holds
  /-- Nobody is in `updateDonationState` on behalf of `updateConfig`. -/
  direct : ∀ inside, modules.caller = .stateLock inside ∨ modules.caller = .stateBody inside → inside = false
  joining : ∀ inside, modules.caller = .join inside → modules.reporter.running = false
  absent : modules.reporter.running = false → (∀ inside, modules.caller ≠ .join inside) → modules.thread = .absent
  /-- The thread that is joined under the lock does not need it any more. -/
  leaving : modules.caller = .join true → modules.waits .reportThread ≠ some .reporterConfig

variable {modules after : Modules}

theorem lock_eq_some {party : Party} {mutex : Mutex} {locked : Modules} :
    modules.lock party mutex = some locked ↔
      ∃ owner, acquire modules.owner party mutex = some owner ∧ locked = { modules with owner } := by
  unfold lock
  rw [Option.map_eq_some_iff]
  exact exists_congr fun owner => and_congr_right fun _ => eq_comm

theorem take_eq_some {mutex : Mutex} {next : Caller} (got : modules.take mutex next = some after) :
    ∃ owner, acquire modules.owner .caller mutex = some owner ∧ after = { modules with owner, caller := next } := by
  obtain ⟨locked, taken, rfl⟩ := Option.map_eq_some_iff.mp got
  obtain ⟨owner, acquired, rfl⟩ := lock_eq_some.mp taken
  exact ⟨owner, acquired, rfl⟩

/-- What a party holds at a point of `doReport`, or after it. -/
def held (point : Option DoReport) (mutex : Mutex) : Prop :=
  (point.map (DoReport.holds mutex)).getD false = true

/-- A step of `doReport` moves one lock, or sends the report. -/
theorem doReport_spec {party : Party} {point : DoReport} {next : Option DoReport}
    (stepped : modules.doReport party point = some (after, next)) :
    (∃ owner posts, after = { modules with owner, reporter := { modules.reporter with posts } } ∧
        Locking party modules.owner (held (some point)) (held next) owner) ∧
      next ≠ some .lockConfig := by
  cases point with
  | lockConfig =>
    obtain ⟨locked, got, same⟩ := Option.map_eq_some_iff.mp stepped
    obtain ⟨owner, taken, rfl⟩ := lock_eq_some.mp got
    cases same
    refine ⟨⟨owner, modules.reporter.posts, rfl, .take taken fun any => ?_⟩, fun first => by cases first⟩
    simp [held, DoReport.holds]
  | readConfig =>
    simp only [doReport] at stepped
    split at stepped
    · cases stepped
      refine ⟨⟨_, modules.reporter.posts, rfl, .give (show held (some .readConfig) .reporterConfig from rfl) fun any => ?_⟩,
        fun first => by cases first⟩
      simp [held, DoReport.holds]
    · cases stepped
      refine ⟨⟨_, modules.reporter.posts, rfl, .give (show held (some .readConfig) .reporterConfig from rfl) fun any => ?_⟩,
        fun first => by cases first⟩
      simp [held, DoReport.holds]
  | lockStats config =>
    obtain ⟨locked, got, same⟩ := Option.map_eq_some_iff.mp stepped
    obtain ⟨owner, taken, rfl⟩ := lock_eq_some.mp got
    cases same
    refine ⟨⟨owner, modules.reporter.posts, rfl, .take taken fun any => ?_⟩, fun first => by cases first⟩
    simp [held, DoReport.holds]
  | readStats config =>
    cases stepped
    refine ⟨⟨_, modules.reporter.posts, rfl, .give (show held (some (.readStats config)) .reporterStats from rfl) fun any => ?_⟩,
      fun first => by cases first⟩
    simp [held, DoReport.holds]
  | httpPost config =>
    cases stepped
    refine ⟨⟨modules.owner, _, rfl, .keep fun any => ?_⟩, fun first => by cases first⟩
    simp [held, DoReport.holds]

theorem back_holds (inside : Bool) (mutex : Mutex) :
    (back inside).holds mutex = (inside && mutex = .reporterConfig) := by
  cases inside <;> rfl

theorem stepCaller_locking {now : Nat} (direct : ∀ inside, modules.caller = .stateBody inside → inside = false)
    (stepped : modules.stepCaller now = some after) :
    Locking .caller modules.owner (fun mutex => modules.caller.holds mutex = true)
      (fun mutex => after.caller.holds mutex = true) after.owner := by
  unfold stepCaller at stepped
  cases point : modules.caller with
  | idle => rw [point] at stepped; cases stepped
  | updateLock config =>
    rw [point] at stepped
    obtain ⟨owner, taken, rfl⟩ := take_eq_some stepped
    refine .take taken fun any => ?_
    simp [Caller.holds]
  | updateBody config =>
    rw [point] at stepped
    cases stepped
    unfold update
    dsimp only
    split
    · exact .keep fun any => by simp [Caller.holds]
    · split <;> exact .keep fun any => by simp [Caller.holds]
  | start inside =>
    rw [point] at stepped
    cases stepped
    unfold start
    split <;> exact .keep fun any => by rw [back_holds]; rfl
  | stop inside =>
    rw [point] at stepped
    cases stepped
    unfold stop
    split
    · exact .keep fun any => by rw [back_holds]; rfl
    · refine .keep fun any => ?_
      dsimp only
      split
      · rw [back_holds]; rfl
      · rfl
  | join inside =>
    rw [point] at stepped
    dsimp only at stepped
    split at stepped
    · cases stepped
      exact .keep fun any => by rw [back_holds]; rfl
    · cases stepped
  | updateReturn =>
    rw [point] at stepped
    cases stepped
    refine .give (show Caller.holds .reporterConfig .updateReturn = true from rfl) fun any => ?_
    simp [Caller.holds]
  | statsLock =>
    rw [point] at stepped
    obtain ⟨owner, taken, rfl⟩ := take_eq_some stepped
    refine .take taken fun any => ?_
    simp [Caller.holds]
  | statsBody =>
    rw [point] at stepped
    cases stepped
    refine .give (show Caller.holds .reporterStats .statsBody = true from rfl) fun any => ?_
    simp [Caller.holds]
  | doReport inner =>
    rw [point] at stepped
    obtain ⟨⟨middle, next⟩, moved, rfl⟩ := Option.map_eq_some_iff.mp stepped
    obtain ⟨⟨owner, posts, rfl, locking⟩, -⟩ := doReport_spec moved
    have same : (fun mutex => ((next.map Caller.doReport).getD .idle).holds mutex = true) = held next := by
      funext mutex
      cases next <;> rfl
    dsimp only
    rw [same]
    exact locking
  | donationLock config =>
    rw [point] at stepped
    obtain ⟨owner, taken, rfl⟩ := take_eq_some stepped
    refine .take taken fun any => ?_
    simp [Caller.holds]
  | donationBody config =>
    rw [point] at stepped
    cases stepped
    refine .keep fun any => ?_
    unfold updateDonation
    dsimp only
    split <;> simp [Caller.holds]
  | stateLock inside =>
    rw [point] at stepped
    obtain ⟨owner, taken, rfl⟩ := take_eq_some stepped
    refine .take taken fun any => ?_
    cases inside <;> simp [Caller.holds]
  | stateBody inside =>
    rw [point] at stepped
    cases stepped
    rw [direct inside point]
    refine .give (show Caller.holds .donationConfig (.stateBody false) = true from rfl) fun any => ?_
    simp [Caller.holds]
  | donationReturn =>
    rw [point] at stepped
    cases stepped
    refine .give (show Caller.holds .donationConfig .donationReturn = true from rfl) fun any => ?_
    simp [Caller.holds]
  | walletLock =>
    rw [point] at stepped
    obtain ⟨owner, taken, rfl⟩ := take_eq_some stepped
    refine .take taken fun any => ?_
    simp [Caller.holds]
  | walletBody =>
    rw [point] at stepped
    cases stepped
    refine .give (show Caller.holds .donationConfig .walletBody = true from rfl) fun any => ?_
    simp [Caller.holds]

theorem stepThread_locking (stepped : modules.stepThread = some after) :
    Locking .reportThread modules.owner (fun mutex => modules.thread.holds mutex = true)
      (fun mutex => after.thread.holds mutex = true) after.owner := by
  unfold stepThread at stepped
  cases point : modules.thread with
  | absent => rw [point] at stepped; cases stepped
  | head =>
    rw [point] at stepped
    cases stepped
    refine .keep fun any => ?_
    dsimp only
    split <;> simp [ReportThread.holds]
  | lockConfig =>
    rw [point] at stepped
    obtain ⟨locked, got, rfl⟩ := Option.map_eq_some_iff.mp stepped
    obtain ⟨owner, taken, rfl⟩ := lock_eq_some.mp got
    refine .take taken fun any => ?_
    simp [ReportThread.holds]
  | readConfig =>
    rw [point] at stepped
    cases stepped
    refine .give (show ReportThread.holds .reporterConfig .readConfig = true from rfl) fun any => ?_
    dsimp only
    split <;> simp [ReportThread.holds, DoReport.holds]
  | doReport config inner =>
    rw [point] at stepped
    obtain ⟨⟨middle, next⟩, moved, rfl⟩ := Option.map_eq_some_iff.mp stepped
    obtain ⟨⟨owner, posts, rfl, locking⟩, -⟩ := doReport_spec moved
    have same : (fun mutex => ((next.map (ReportThread.doReport config)).getD (.wait config 0)).holds mutex = true) =
        held next := by
      funext mutex
      cases next <;> rfl
    dsimp only
    rw [same]
    exact locking
  | wait config i =>
    rw [point] at stepped
    cases stepped
    refine .keep fun any => ?_
    dsimp only
    split <;> simp [ReportThread.holds]
  | finished => rw [point] at stepped; cases stepped

/-- A step of the report thread leaves the caller and `m_running` alone. -/
theorem stepThread_frame (stepped : modules.stepThread = some after) :
    after.caller = modules.caller ∧ after.reporter.running = modules.reporter.running := by
  unfold stepThread at stepped
  cases point : modules.thread with
  | absent => rw [point] at stepped; cases stepped
  | head => rw [point] at stepped; cases stepped; exact ⟨rfl, rfl⟩
  | lockConfig =>
    rw [point] at stepped
    obtain ⟨locked, got, rfl⟩ := Option.map_eq_some_iff.mp stepped
    obtain ⟨owner, taken, rfl⟩ := lock_eq_some.mp got
    exact ⟨rfl, rfl⟩
  | readConfig => rw [point] at stepped; cases stepped; exact ⟨rfl, rfl⟩
  | doReport config inner =>
    rw [point] at stepped
    obtain ⟨⟨middle, next⟩, moved, rfl⟩ := Option.map_eq_some_iff.mp stepped
    obtain ⟨⟨owner, posts, rfl, -⟩, -⟩ := doReport_spec moved
    exact ⟨rfl, rfl⟩
  | wait config i => rw [point] at stepped; cases stepped; exact ⟨rfl, rfl⟩
  | finished => rw [point] at stepped; cases stepped

theorem stepThread_leaves (stepped : modules.stepThread = some after) (stopped : modules.reporter.running = false)
    (away : modules.waits .reportThread ≠ some .reporterConfig)
    (free : modules.thread.holds .reporterConfig = false) :
    after.waits .reportThread ≠ some .reporterConfig := by
  unfold stepThread at stepped
  unfold waits at away ⊢
  cases point : modules.thread with
  | absent => rw [point] at stepped; cases stepped
  | head =>
    rw [point] at stepped
    cases stepped
    simp [stopped, ReportThread.waits]
  | lockConfig =>
    rw [point] at away
    exact absurd rfl away
  | readConfig =>
    rw [point] at free
    cases free
  | doReport config inner =>
    rw [point] at stepped
    obtain ⟨⟨middle, next⟩, moved, rfl⟩ := Option.map_eq_some_iff.mp stepped
    have later := (doReport_spec moved).2
    cases next with
    | none => simp [ReportThread.waits]
    | some next =>
      cases next with
      | lockConfig => exact absurd rfl later
      | _ => simp [ReportThread.waits, DoReport.waits]
  | wait config i =>
    rw [point] at stepped
    cases stepped
    simp [stopped, ReportThread.waits]
  | finished => rw [point] at stepped; cases stepped

theorem Inv.thread (inv : modules.Inv) (stepped : modules.stepThread = some after) : after.Inv := by
  obtain ⟨caller, running⟩ := stepThread_frame stepped
  refine ⟨?_, ?_, ?_, ?_, ?_⟩
  · refine inv.owned.step (stepThread_locking stepped) fun other differs any => ?_
    cases other with
    | caller => exact Eq.to_iff (congrArg (fun point => Caller.holds any point = true) caller)
    | reportThread => exact absurd rfl differs
  · rw [caller]; exact inv.direct
  · rw [caller, running]; exact inv.joining
  · rw [caller, running]
    intro stopped elsewhere
    unfold stepThread at stepped
    rw [inv.absent stopped elsewhere] at stepped
    cases stepped
  · rw [caller]
    intro joins
    refine stepThread_leaves stepped (inv.joining true joins) (inv.leaving joins) ?_
    -- The caller holds the lock while it joins, so the thread does not.
    by_contra holding
    have mine : modules.holds .caller .reporterConfig := by
      unfold holds
      rw [joins]
      rfl
    rw [Bool.not_eq_false] at holding
    cases inv.owned.unique mine (show modules.holds .reportThread .reporterConfig from holding)

/-- A step of the caller that has nothing to do with the life of the thread. Only a new level leads
from under the lock of `updateConfig` to `updateDonationState`. -/
structure Aside (modules after : Modules) : Prop where
  thread : after.thread = modules.thread
  running : after.reporter.running = modules.reporter.running
  before : ∀ inside, modules.caller ≠ .join inside
  later : ∀ inside, after.caller ≠ .join inside
  state : ∀ inside, after.caller = .stateLock inside ∨ after.caller = .stateBody inside →
    (inside = false ∨ modules.caller = .stateLock inside) ∨
      ∃ config, modules.caller = .donationBody config ∧
        config.donateLevel ≠ modules.donation.config.donateLevel

theorem stepCaller_cases {now : Nat} (stepped : modules.stepCaller now = some after) :
    (∃ inside, modules.caller = .start inside ∧ after = modules.start inside) ∨
      (∃ inside, modules.caller = .stop inside ∧ after = modules.stop inside) ∨
      (∃ inside, modules.caller = .join inside ∧ modules.thread = .finished ∧
        after = { modules with thread := .absent, caller := back inside }) ∨
      Aside modules after := by
  unfold stepCaller at stepped
  cases point : modules.caller with
  | idle => rw [point] at stepped; cases stepped
  | start inside => rw [point] at stepped; cases stepped; exact .inl ⟨inside, rfl, rfl⟩
  | stop inside => rw [point] at stepped; cases stepped; exact .inr (.inl ⟨inside, rfl, rfl⟩)
  | join inside =>
    rw [point] at stepped
    dsimp only at stepped
    split at stepped
    · rename_i done
      cases stepped
      exact .inr (.inr (.inl ⟨inside, rfl, done, rfl⟩))
    · cases stepped
  | updateBody config =>
    rw [point] at stepped
    cases stepped
    refine .inr (.inr (.inr ?_))
    unfold update
    dsimp only
    split
    · exact ⟨rfl, rfl, by simp [point], by simp, by simp⟩
    · split <;> exact ⟨rfl, rfl, by simp [point], by simp, by simp⟩
  | doReport inner =>
    rw [point] at stepped
    obtain ⟨⟨middle, next⟩, moved, rfl⟩ := Option.map_eq_some_iff.mp stepped
    obtain ⟨⟨owner, posts, rfl, -⟩, -⟩ := doReport_spec moved
    refine .inr (.inr (.inr ?_))
    cases next <;> exact ⟨rfl, rfl, by simp [point], by simp, by simp⟩
  | donationBody config =>
    rw [point] at stepped
    cases stepped
    refine .inr (.inr (.inr ?_))
    unfold updateDonation
    split
    · rename_i changed
      exact ⟨rfl, rfl, by simp [point], by simp, fun _ _ => .inr ⟨config, point, Ne.symm changed⟩⟩
    · exact ⟨rfl, rfl, by simp [point], by simp, by simp⟩
  | stateBody inside =>
    rw [point] at stepped
    cases stepped
    refine .inr (.inr (.inr ?_))
    cases inside <;> exact ⟨rfl, rfl, by simp [point], by simp, by simp⟩
  | updateReturn =>
    rw [point] at stepped
    cases stepped
    exact .inr (.inr (.inr ⟨rfl, rfl, by simp [point], by simp, by simp⟩))
  | statsBody =>
    rw [point] at stepped
    cases stepped
    exact .inr (.inr (.inr ⟨rfl, rfl, by simp [point], by simp, by simp⟩))
  | donationReturn =>
    rw [point] at stepped
    cases stepped
    exact .inr (.inr (.inr ⟨rfl, rfl, by simp [point], by simp, by simp⟩))
  | walletBody =>
    rw [point] at stepped
    cases stepped
    exact .inr (.inr (.inr ⟨rfl, rfl, by simp [point], by simp, by simp⟩))
  | updateLock config =>
    rw [point] at stepped
    obtain ⟨owner, -, rfl⟩ := take_eq_some stepped
    exact .inr (.inr (.inr ⟨rfl, rfl, by simp [point], by simp, by simp⟩))
  | statsLock =>
    rw [point] at stepped
    obtain ⟨owner, -, rfl⟩ := take_eq_some stepped
    exact .inr (.inr (.inr ⟨rfl, rfl, by simp [point], by simp, by simp⟩))
  | donationLock config =>
    rw [point] at stepped
    obtain ⟨owner, -, rfl⟩ := take_eq_some stepped
    exact .inr (.inr (.inr ⟨rfl, rfl, by simp [point], by simp, by simp⟩))
  | stateLock inside =>
    rw [point] at stepped
    obtain ⟨owner, -, rfl⟩ := take_eq_some stepped
    exact .inr (.inr (.inr ⟨rfl, rfl, by simp [point], by simp, by simp [point]⟩))
  | walletLock =>
    rw [point] at stepped
    obtain ⟨owner, -, rfl⟩ := take_eq_some stepped
    exact .inr (.inr (.inr ⟨rfl, rfl, by simp [point], by simp, by simp⟩))

@[simp] theorem back_ne_join (inside other : Bool) : back inside ≠ .join other := by
  cases inside <;> simp [back]

@[simp] theorem back_ne_state (inside other : Bool) : back inside ≠ .stateLock other ∧ back inside ≠ .stateBody other := by
  cases inside <;> simp [back]

/-- Starting and joining only touch a thread that holds nothing. -/
theorem stepCaller_others {now : Nat} (inv : modules.Inv) (stepped : modules.stepCaller now = some after)
    (mutex : Mutex) : after.thread.holds mutex = modules.thread.holds mutex := by
  obtain ⟨inside, point, rfl⟩ | ⟨inside, point, rfl⟩ | ⟨inside, point, done, rfl⟩ | aside := stepCaller_cases stepped
  · unfold start
    split
    · rfl
    · rename_i starts
      simp only [Bool.or_eq_true, not_or, Bool.not_eq_true] at starts
      rw [inv.absent starts.1 (by simp [point])]
      rfl
  · unfold stop
    split <;> rfl
  · rw [done]
    rfl
  · rw [aside.thread]

theorem Inv.start {inside : Bool} (inv : modules.Inv) (point : modules.caller = .start inside)
    (owned : Owned (modules.start inside).owner (modules.start inside).holds) : (modules.start inside).Inv := by
  refine ⟨owned, ?_, ?_, ?_, ?_⟩
  · unfold Modules.start
    split <;> simp
  · unfold Modules.start
    split <;> simp
  · unfold Modules.start
    split
    · exact fun stopped _ => inv.absent stopped (by simp [point])
    · intro stopped
      cases stopped
  · unfold Modules.start
    split <;> simp

theorem Inv.stop {inside : Bool} (inv : modules.Inv) (point : modules.caller = .stop inside)
    (harmless : inside = true → modules.reporter.running = true → modules.waits .reportThread ≠ some .reporterConfig)
    (owned : Owned (modules.stop inside).owner (modules.stop inside).holds) : (modules.stop inside).Inv := by
  by_cases runs : modules.reporter.running = true
  · have stopped : modules.stop inside =
        { modules with
          reporter := { modules.reporter with running := false }
          caller := if modules.thread = .absent then back inside else .join inside } := by
      unfold Modules.stop
      rw [if_neg (by simp [runs])]
    rw [stopped] at owned ⊢
    refine ⟨owned, ?_, fun _ _ => rfl, ?_, ?_⟩
    · dsimp only
      split <;> simp
    · intro _ elsewhere
      dsimp only at elsewhere
      by_contra there
      rw [if_neg there] at elsewhere
      exact elsewhere inside rfl
    · intro joins
      dsimp only at joins
      split at joins
      · exact absurd joins (back_ne_join inside true)
      · cases joins
        exact harmless rfl runs
  · have stopped : modules.stop inside = { modules with caller := back inside } := by
      unfold Modules.stop
      rw [if_pos (by simp [runs])]
    rw [stopped] at owned ⊢
    refine ⟨owned, by simp, by simp, fun down _ => inv.absent down (by simp [point]), by simp⟩

theorem Inv.join {inside : Bool} (inv : modules.Inv) (point : modules.caller = .join inside)
    (owned : Owned modules.owner { modules with thread := .absent, caller := back inside }.holds) :
    { modules with thread := .absent, caller := back inside }.Inv := by
  have stopped := inv.joining inside point
  refine ⟨owned, by simp, fun _ _ => stopped, fun _ _ => rfl, by simp⟩

theorem Inv.aside (inv : modules.Inv) (aside : Aside modules after) (owned : Owned after.owner after.holds)
    (level : ∀ config, modules.caller = .donationBody config →
      config.donateLevel = modules.donation.config.donateLevel) : after.Inv := by
  refine ⟨owned, fun inside here => ?_, fun inside joins => absurd joins (aside.later inside), ?_,
    fun joins => absurd joins (aside.later true)⟩
  · obtain (direct | before) | ⟨config, point, changed⟩ := aside.state inside here
    · exact direct
    · exact inv.direct inside (.inl before)
    · exact absurd (level config point) changed
  · rw [aside.running, aside.thread]
    exact fun stopped _ => inv.absent stopped aside.before

theorem Inv.caller {now : Nat} (inv : modules.Inv) (harmless : (Event.caller now).isHarmless modules = true)
    (stepped : modules.stepCaller now = some after) : after.Inv := by
  have owned : Owned after.owner after.holds := by
    refine inv.owned.step (stepCaller_locking (fun inside point => inv.direct inside (.inr point)) stepped) ?_
    intro other differs any
    cases other with
    | caller => exact absurd rfl differs
    | reportThread => exact Eq.to_iff (congrArg (· = true) (stepCaller_others inv stepped any))
  unfold Event.isHarmless at harmless
  obtain ⟨inside, point, rfl⟩ | ⟨inside, point, rfl⟩ | ⟨inside, point, -, rfl⟩ | aside := stepCaller_cases stepped
  · exact inv.start point owned
  · rw [point] at harmless
    refine inv.stop point (fun under runs waiting => ?_) owned
    simp [under, runs, waiting] at harmless
  · exact inv.join point owned
  · refine inv.aside aside owned fun config point => ?_
    rw [point] at harmless
    exact of_decide_eq_true harmless

theorem Inv.call (inv : modules.Inv) (idle : modules.caller = .idle) (call : Call) :
    { modules with caller := enter call }.Inv := by
  have same : ∀ mutex, (enter call).holds mutex = false := by
    intro mutex
    cases call <;> rfl
  refine ⟨?_, ?_, ?_, ?_, ?_⟩
  · intro mutex party
    rw [inv.owned]
    cases party with
    | caller =>
      change modules.caller.holds mutex = true ↔ (enter call).holds mutex = true
      rw [idle, same]
      rfl
    | reportThread => exact Iff.rfl
  · cases call <;> simp [enter]
  · cases call <;> simp [enter]
  · exact fun stopped _ => inv.absent stopped (by simp [idle])
  · cases call <;> simp [enter]

theorem step_inv (inv : modules.Inv) {event : Event} (harmless : event.isHarmless modules = true)
    (stepped : modules.step event = some after) : after.Inv := by
  cases event with
  | call call =>
    simp only [step] at stepped
    split at stepped
    · rename_i idle
      cases stepped
      exact inv.call idle call
    · cases stepped
  | caller now => exact inv.caller harmless stepped
  | thread => exact inv.thread stepped

theorem Inv.free (inv : modules.Inv) : ¬modules.Deadlocked := by
  rintro (⟨party, mutex, waiting, owns⟩ | ⟨inside, mutex, joins, owns, waiting⟩)
  · rw [inv.owned] at owns
    cases party with
    | reportThread =>
      simp only [waits, holds] at waiting owns
      cases point : modules.thread with
      | lockConfig => rw [point] at owns; cases owns
      | doReport config inner =>
        rw [point] at waiting owns
        cases inner <;> simp_all [ReportThread.waits, ReportThread.holds, DoReport.waits, DoReport.holds]
      | _ => rw [point] at waiting; cases waiting
    | caller =>
      simp only [waits, holds] at waiting owns
      cases point : modules.caller with
      | stateLock inside =>
        rw [point, inv.direct inside (.inl point)] at owns
        cases owns
      | doReport inner =>
        rw [point] at waiting owns
        cases inner <;> simp_all [Caller.waits, Caller.holds, DoReport.waits, DoReport.holds]
      | updateLock config => rw [point] at owns; cases owns
      | statsLock => rw [point] at owns; cases owns
      | donationLock config => rw [point] at owns; cases owns
      | walletLock => rw [point] at owns; cases owns
      | _ => rw [point] at waiting; cases waiting
  · rw [inv.owned] at owns
    simp only [holds, joins, Caller.holds, Bool.and_eq_true, decide_eq_true_eq] at owns
    rw [owns.1] at joins
    rw [owns.2] at waiting
    exact inv.leaving joins waiting

theorem deadlocked_of_harmful (inv : modules.Inv) {event : Event} (harmful : ¬event.isHarmless modules = true)
    (stepped : modules.step event = some after) : after.Deadlocked := by
  cases event with
  | call call => exact absurd rfl harmful
  | thread => exact absurd rfl harmful
  | caller now =>
    change modules.stepCaller now = some after at stepped
    unfold stepCaller at stepped
    unfold Event.isHarmless at harmful
    cases point : modules.caller with
    | donationBody config =>
      rw [point] at stepped harmful
      cases stepped
      have owns : modules.owner .donationConfig = some .caller := by
        rw [inv.owned, holds, point]
        rfl
      refine .inl ⟨.caller, .donationConfig, ?_, owns⟩
      rw [waits, updateDonation, if_pos fun same => harmful (decide_eq_true same.symm)]
      rfl
    | stop inside =>
      rw [point] at stepped harmful
      cases stepped
      simp only [Bool.not_eq_true, Bool.not_eq_false', Bool.and_eq_true, decide_eq_true_eq] at harmful
      obtain ⟨⟨rfl, runs⟩, waiting⟩ := harmful
      have owns : modules.owner .reporterConfig = some .caller := by
        rw [inv.owned, holds, point]
        rfl
      have there : modules.thread ≠ .absent := by
        intro gone
        rw [waits, gone] at waiting
        cases waiting
      refine .inr ⟨true, .reporterConfig, ?_, ?_, ?_⟩
      · simp [Modules.stop, runs, there]
      · simpa [Modules.stop, runs] using owns
      · simpa [Modules.stop, runs, waits] using waiting
    | _ => rw [point] at harmful; exact absurd rfl harmful

def created (now : Nat) : Modules := { donation := { startTime := now, lastSwitchTime := now } }

theorem created_inv (now : Nat) : (created now).Inv where
  owned mutex party := by
    cases party <;> simp [created, holds, Caller.holds, ReportThread.holds]
  direct := by simp [created]
  joining := by simp [created]
  absent _ _ := rfl
  leaving := by simp [created]

/-- In every interleaving nobody waits in vain exactly if no step changes the level of the donation
or stops the reporter, under its lock, while its thread is in front of that lock. -/
theorem deadlock_free_iff {now : Nat} {events : List Event} {final : Modules}
    (executed : run step (created now) events = some final) :
    Throughout step (fun modules => ¬modules.Deadlocked) (created now) events ↔
      Guarded step (fun modules event => event.isHarmless modules = true) (created now) events :=
  throughout_iff_guarded (fun _ inv => inv.free) (fun _ _ _ inv harmless stepped => step_inv inv harmless stepped)
    (fun _ _ _ inv harmful stepped free => free (deadlocked_of_harmful inv harmful stepped))
    (created_inv now) executed

/-- The first configuration of the donation with a level of one percent. -/
def newLevel : List Event := [.call (.updateDonation { donateLevel := 1 }), .caller 0, .caller 0]

def reportingConfig : Reporter.Config := { host := "localhost", enabled := true }

/-- The reporter is switched on, its thread starts, and the reporter is switched off again. -/
def switchedOff : List Event :=
  [.call (.updateReporter reportingConfig), .caller 0, .caller 0, .caller 0, .caller 0, .thread,
    .call (.updateReporter {}), .caller 0, .caller 0, .caller 0]

theorem updates_deadlock :
    (∃ final, run step (created 0) newLevel = some final ∧ final.Deadlocked) ∧
      ∃ final, run step (created 0) switchedOff = some final ∧ final.Deadlocked := by
  constructor
  · exact ⟨_, rfl, .inl ⟨.caller, .donationConfig, rfl, rfl⟩⟩
  · exact ⟨_, rfl, .inr ⟨true, .reporterConfig, rfl, rfl, rfl⟩⟩

/-- The same while the thread sleeps between two reports, and a donation without a level. -/
def switchedOffAsleep : List Event :=
  [.call (.updateReporter reportingConfig), .caller 0, .caller 0, .caller 0, .caller 0, .thread, .thread, .thread,
    .thread, .thread, .thread, .thread, .thread, .call (.updateReporter {}), .caller 0, .caller 0, .caller 0,
    .thread, .thread, .caller 0, .caller 0, .call (.updateDonation { donateAddress := "wallet" }), .caller 0,
    .caller 0, .caller 0]

theorem switchedOffAsleep_free :
    ∃ final, run step (created 0) switchedOffAsleep = some final ∧ final.caller = .idle ∧
      final.reporter.posts = ["http://localhost:8181"] ∧
      Throughout step (fun modules => ¬modules.Deadlocked) (created 0) switchedOffAsleep := by
  exact ⟨_, rfl, rfl, rfl, (deadlock_free_iff (by rfl)).mpr (by decide)⟩

end Modules

end Xmrig
