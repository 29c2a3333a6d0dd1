import Xmrig.Foundation.Locks
import Xmrig.Foundation.Run
import Mathlib.Algebra.BigOperators.Fin
import Mathlib.Data.List.Perm.Basic
import Mathlib.Data.Multiset.AddSub

/-! From the threads that find results to the main loop: `JobResultsPrivate` and `Async`.

A thread pushes what it found and raises the counter of an eventfd, both under the mutex.
The main loop is woken by the counter, empties it, and takes both lists under the mutex.
Results go to the listener at once; bundles are verified in the thread pool, and their
results go to the listener when the main loop is told of the end of the work. A step is
what a party does between two points where another one can be seen; `read` and `write` are
not interrupted, and the counter does not come to its maximum.
-/

set_option autoImplicit false

namespace Xmrig

open Foundation

namespace JobResultsPrivate

section Parties
variable (Result Bundle : Type)

/-- The argument of a call of `submit`. -/
inductive Submission where
  | result (result : Result)
  | bundle (bundle : Bundle)
  deriving DecidableEq, Repr

/-- Where a thread is in `submit`: behind the lock, behind the push, behind `send`. -/
inductive Submitting where
  | idle
  | locked (submission : Submission Result Bundle)
  | pushed
  | sent
  deriving DecidableEq, Repr

/-- Where the main loop is. `draining` is the loop of `on_schedule`, and `called` is `onAsync`
before its lock; the callback of a work that has ended is `completing`. -/
inductive MainLoop where
  | polling
  | draining
  | called
  | locked
  | swappedBundles (bundles : List Bundle)
  | swapped (bundles : List Bundle) (results : List Result)
  | delivering (bundles : List Bundle) (results : List Result)
  | completing (results : List Result)
  deriving DecidableEq, Repr

/-- `JobBaton`: the bundles that are still to be verified, and the results so far. -/
structure JobBaton where
  bundles : List Bundle
  results : List Result
  deriving DecidableEq, Repr

end Parties

variable {Result Bundle : Type} {workers : Nat}

namespace Submitting

def holds : Submitting Result Bundle → Bool
  | idle => false
  | locked _ | pushed | sent => true

end Submitting

namespace MainLoop

def holds : MainLoop Result Bundle → Bool
  | locked | swappedBundles _ | swapped _ _ => true
  | polling | draining | called | delivering _ _ | completing _ => false

/-- The bundles that the loop has taken and not yet handed to the pool. -/
def bundles : MainLoop Result Bundle → List Bundle
  | swappedBundles bundles | swapped bundles _ | delivering bundles _ => bundles
  | polling | draining | called | locked | completing _ => []

/-- The results that the loop has taken from the list and not yet delivered. -/
def results : MainLoop Result Bundle → List Result
  | swapped _ results | delivering _ results => results
  | polling | draining | called | locked | swappedBundles _ | completing _ => []

def verified : MainLoop Result Bundle → List Result
  | completing results => results
  | polling | draining | called | locked | swappedBundles _ | swapped _ _ | delivering _ _ => []

def woken : MainLoop Result Bundle → Bool
  | draining | called | locked => true
  | polling | swappedBundles _ | swapped _ _ | delivering _ _ | completing _ => false

def takesResults : MainLoop Result Bundle → Bool
  | draining | called | locked | swappedBundles _ => true
  | polling | swapped _ _ | delivering _ _ | completing _ => false

end MainLoop

inductive Contender (workers : Nat) where
  | worker (thread : Fin workers)
  | loop
  deriving DecidableEq, Repr

end JobResultsPrivate

open JobResultsPrivate in
/-- The shared state and where everyone is. The last five fields record what has happened: the
calls of `onJobResult` for results and for those of batons, all that was pushed, and every
bundle that was verified with what was found. -/
structure JobResultsPrivate (Result Bundle : Type) (workers : Nat) where
  owner : Unit → Option (Contender workers) := fun _ => none
  results : List Result := []
  bundles : List Bundle := []
  counter : Nat := 0
  stage : Fin workers → Submitting Result Bundle := fun _ => .idle
  loop : MainLoop Result Bundle := .polling
  pool : List (JobBaton Result Bundle) := []
  direct : List Result := []
  checked : List Result := []
  pushedResults : List Result := []
  pushedBundles : List Bundle := []
  verified : List (Bundle × List Result) := []

namespace JobResultsPrivate
variable {Result Bundle : Type} {workers : Nat}

inductive Event (Result Bundle : Type) (workers : Nat) where
  | lock (thread : Fin workers) (submission : Submission Result Bundle)
  | push (thread : Fin workers)
  | send (thread : Fin workers)
  | unlock (thread : Fin workers)
  | wake
  | read
  | drained
  | acquire
  | swapBundles
  | swapResults
  | release
  | onJobResult
  | leave
  -- `getResults` of the next bundle of a baton
  | verify (baton : Nat) (found : List Result)
  | complete (baton : Nat)

/-- All but the begin of a call. -/
def Event.Internal : Event Result Bundle workers → Prop
  | .lock _ _ => False
  | _ => True

variable (nonces : Bundle → Nat)

/-- One step; `nonces` counts those of a bundle, each of which gives one result at most. -/
def step (state : JobResultsPrivate Result Bundle workers) :
    Event Result Bundle workers → Option (JobResultsPrivate Result Bundle workers)
  | .lock thread submission =>
      match state.stage thread with
      | .idle => (acquire state.owner (.worker thread) ()).map fun owner =>
          { state with owner, stage := Function.update state.stage thread (.locked submission) }
      | _ => none
  | .push thread =>
      match state.stage thread with
      | .locked (.result result) => some
          { state with
            results := state.results ++ [result]
            pushedResults := state.pushedResults ++ [result]
            stage := Function.update state.stage thread .pushed }
      | .locked (.bundle bundle) => some
          { state with
            bundles := state.bundles ++ [bundle]
            pushedBundles := state.pushedBundles ++ [bundle]
            stage := Function.update state.stage thread .pushed }
      | _ => none
  | .send thread =>
      match state.stage thread with
      | .pushed => some
          { state with
            counter := state.counter + 1, stage := Function.update state.stage thread .sent }
      | _ => none
  | .unlock thread =>
      match state.stage thread with
      | .sent => some
          { state with
            owner := Foundation.release state.owner ()
            stage := Function.update state.stage thread .idle }
      | _ => none
  | .wake =>
      match state.loop with
      | .polling => if 0 < state.counter then some { state with loop := .draining } else none
      | _ => none
  | .read =>
      match state.loop with
      | .draining => if 0 < state.counter then some { state with counter := 0 } else none
      | _ => none
  | .drained =>
      -- the read that would block
      match state.loop with
      | .draining => if state.counter = 0 then some { state with loop := .called } else none
      | _ => none
  | .acquire =>
      match state.loop with
      | .called => (Foundation.acquire state.owner .loop ()).map fun owner =>
          { state with owner, loop := .locked }
      | _ => none
  | .swapBundles =>
      match state.loop with
      | .locked => some { state with bundles := [], loop := .swappedBundles state.bundles }
      | _ => none
  | .swapResults =>
      match state.loop with
      | .swappedBundles bundles => some
          { state with results := [], loop := .swapped bundles state.results }
      | _ => none
  | .release =>
      match state.loop with
      | .swapped bundles results => some
          { state with
            owner := Foundation.release state.owner (), loop := .delivering bundles results }
      | _ => none
  | .onJobResult =>
      match state.loop with
      | .delivering bundles (result :: rest) => some
          { state with direct := state.direct ++ [result], loop := .delivering bundles rest }
      | .completing (result :: rest) => some
          { state with checked := state.checked ++ [result], loop := .completing rest }
      | _ => none
  | .leave =>
      match state.loop with
      | .delivering [] [] => some { state with loop := .polling }
      | .delivering (bundle :: rest) [] => some
          { state with loop := .polling, pool := state.pool ++ [⟨bundle :: rest, []⟩] }
      | .completing [] => some { state with loop := .polling }
      | _ => none
  | .verify baton found =>
      match state.pool[baton]? with
      | some ⟨bundle :: rest, results⟩ =>
          if found.length ≤ nonces bundle then some
            { state with
              pool := state.pool.set baton ⟨rest, results ++ found⟩
              verified := state.verified ++ [(bundle, found)] }
          else none
      | _ => none
  | .complete baton =>
      match state.loop, state.pool[baton]? with
      | .polling, some ⟨[], results⟩ => some
          { state with pool := state.pool.eraseIdx baton, loop := .completing results }
      | _, _ => none

section Steps
variable {nonces : Bundle → Nat} {state next : JobResultsPrivate Result Bundle workers}

/-- What a step finds and leaves behind. -/
inductive Moves (nonces : Bundle → Nat) (state : JobResultsPrivate Result Bundle workers) :
    Event Result Bundle workers → JobResultsPrivate Result Bundle workers → Prop where
  | lock {thread : Fin workers} {submission : Submission Result Bundle} {owner : Unit → Option (Contender workers)}
      (idle : state.stage thread = .idle) (got : acquire state.owner (.worker thread) () = some owner) :
      Moves nonces state (.lock thread submission)
        { state with owner, stage := Function.update state.stage thread (.locked submission) }
  | pushResult {thread : Fin workers} {result : Result} (locked : state.stage thread = .locked (.result result)) :
      Moves nonces state (.push thread)
        { state with
          results := state.results ++ [result]
          pushedResults := state.pushedResults ++ [result]
          stage := Function.update state.stage thread .pushed }
  | pushBundle {thread : Fin workers} {bundle : Bundle} (locked : state.stage thread = .locked (.bundle bundle)) :
      Moves nonces state (.push thread)
        { state with
          bundles := state.bundles ++ [bundle]
          pushedBundles := state.pushedBundles ++ [bundle]
          stage := Function.update state.stage thread .pushed }
  | send {thread : Fin workers} (pushed : state.stage thread = .pushed) :
      Moves nonces state (.send thread)
        { state with
          counter := state.counter + 1, stage := Function.update state.stage thread .sent }
  | unlock {thread : Fin workers} (sent : state.stage thread = .sent) :
      Moves nonces state (.unlock thread)
        { state with
          owner := Foundation.release state.owner ()
          stage := Function.update state.stage thread .idle }
  | wake (atLoop : state.loop = .polling) (raised : 0 < state.counter) :
      Moves nonces state .wake { state with loop := .draining }
  | read (atLoop : state.loop = .draining) (raised : 0 < state.counter) :
      Moves nonces state .read { state with counter := 0 }
  | drained (atLoop : state.loop = .draining) (empty : state.counter = 0) :
      Moves nonces state .drained { state with loop := .called }
  | acquire {owner : Unit → Option (Contender workers)} (atLoop : state.loop = .called)
      (got : Foundation.acquire state.owner .loop () = some owner) :
      Moves nonces state .acquire { state with owner, loop := .locked }
  | swapBundles (atLoop : state.loop = .locked) :
      Moves nonces state .swapBundles { state with bundles := [], loop := .swappedBundles state.bundles }
  | swapResults {bundles : List Bundle} (atLoop : state.loop = .swappedBundles bundles) :
      Moves nonces state .swapResults { state with results := [], loop := .swapped bundles state.results }
  | release {bundles : List Bundle} {results : List Result} (atLoop : state.loop = .swapped bundles results) :
      Moves nonces state .release
        { state with owner := Foundation.release state.owner (), loop := .delivering bundles results }
  | direct {bundles : List Bundle} {result : Result} {rest : List Result}
      (atLoop : state.loop = .delivering bundles (result :: rest)) :
      Moves nonces state .onJobResult
        { state with direct := state.direct ++ [result], loop := .delivering bundles rest }
  | checked {result : Result} {rest : List Result} (atLoop : state.loop = .completing (result :: rest)) :
      Moves nonces state .onJobResult
        { state with checked := state.checked ++ [result], loop := .completing rest }
  | leave (atLoop : state.loop = .delivering [] [] ∨ state.loop = .completing []) :
      Moves nonces state .leave { state with loop := .polling }
  | queue {bundle : Bundle} {rest : List Bundle} (atLoop : state.loop = .delivering (bundle :: rest) []) :
      Moves nonces state .leave
        { state with loop := .polling, pool := state.pool ++ [⟨bundle :: rest, []⟩] }
  | verify {baton : Nat} {found results : List Result} {bundle : Bundle} {rest : List Bundle}
      (atPool : state.pool[baton]? = some ⟨bundle :: rest, results⟩) (few : found.length ≤ nonces bundle) :
      Moves nonces state (.verify baton found)
        { state with
          pool := state.pool.set baton ⟨rest, results ++ found⟩
          verified := state.verified ++ [(bundle, found)] }
  | complete {baton : Nat} {results : List Result} (atLoop : state.loop = .polling)
      (atPool : state.pool[baton]? = some ⟨[], results⟩) :
      Moves nonces state (.complete baton)
        { state with pool := state.pool.eraseIdx baton, loop := .completing results }

theorem moves_of_step {event : Event Result Bundle workers} (stepped : step nonces state event = some next) :
    Moves nonces state event next := by
  cases event with
  | lock thread submission =>
    simp only [step] at stepped
    split at stepped
    · rename_i idle
      obtain ⟨owner, got, rfl⟩ := Option.map_eq_some_iff.mp stepped
      exact .lock idle got
    · cases stepped
  | acquire =>
    simp only [step] at stepped
    split at stepped
    · rename_i atLoop
      obtain ⟨owner, got, rfl⟩ := Option.map_eq_some_iff.mp stepped
      exact .acquire atLoop got
    · cases stepped
  | push thread =>
    simp only [step] at stepped
    split at stepped
    · rename_i locked
      cases stepped
      exact .pushResult locked
    · rename_i locked
      cases stepped
      exact .pushBundle locked
    · cases stepped
  | send thread =>
    simp only [step] at stepped
    split at stepped
    · rename_i pushed
      cases stepped
      exact .send pushed
    · cases stepped
  | unlock thread =>
    simp only [step] at stepped
    split at stepped
    · rename_i sent
      cases stepped
      exact .unlock sent
    · cases stepped
  | wake =>
    simp only [step] at stepped
    split at stepped
    · rename_i atLoop
      obtain ⟨raised, same⟩ := Option.ite_none_right_eq_some.mp stepped
      cases same
      exact .wake atLoop raised
    · cases stepped
  | read =>
    simp only [step] at stepped
    split at stepped
    · rename_i atLoop
      obtain ⟨raised, same⟩ := Option.ite_none_right_eq_some.mp stepped
      cases same
      exact .read atLoop raised
    · cases stepped
  | drained =>
    simp only [step] at stepped
    split at stepped
    · rename_i atLoop
      obtain ⟨empty, same⟩ := Option.ite_none_right_eq_some.mp stepped
      cases same
      exact .drained atLoop empty
    · cases stepped
  | swapBundles =>
    simp only [step] at stepped
    split at stepped
    · rename_i atLoop
      cases stepped
      exact .swapBundles atLoop
    · cases stepped
  | swapResults =>
    simp only [step] at stepped
    split at stepped
    · rename_i atLoop
      cases stepped
      exact .swapResults atLoop
    · cases stepped
  | release =>
    simp only [step] at stepped
    split at stepped
    · rename_i atLoop
      cases stepped
      exact .release atLoop
    · cases stepped
  | onJobResult =>
    simp only [step] at stepped
    split at stepped
    · rename_i atLoop
      cases stepped
      exact .direct atLoop
    · rename_i atLoop
      cases stepped
      exact .checked atLoop
    · cases stepped
  | leave =>
    simp only [step] at stepped
    split at stepped
    · rename_i atLoop
      cases stepped
      exact .leave (.inl atLoop)
    · rename_i atLoop
      cases stepped
      exact .queue atLoop
    · rename_i atLoop
      cases stepped
      exact .leave (.inr atLoop)
    · cases stepped
  | verify baton found =>
    simp only [step] at stepped
    split at stepped
    · rename_i atPool
      obtain ⟨few, same⟩ := Option.ite_none_right_eq_some.mp stepped
      cases same
      exact .verify atPool few
    · cases stepped
  | complete baton =>
    simp only [step] at stepped
    split at stepped
    · rename_i atLoop atPool
      cases stepped
      exact .complete atLoop atPool
    · cases stepped

end Steps

/-! ## The mutex -/

/-- Who stands where the mutex is held. -/
def Holds (stage : Fin workers → Submitting Result Bundle) (loop : MainLoop Result Bundle) : Contender workers → Unit → Prop
  | .worker thread, _ => (stage thread).holds = true
  | .loop, _ => loop.holds = true

section Mutex
variable {nonces : Bundle → Nat} {state next : JobResultsPrivate Result Bundle workers}
  {stage : Fin workers → Submitting Result Bundle} {loop : MainLoop Result Bundle}
  {before owner : Unit → Option (Contender workers)}

theorem holds_worker (thread : Fin workers) (any : Unit) :
    Holds stage loop (.worker thread) any ↔ (stage thread).holds = true := Iff.rfl

theorem owned_worker (owned : Owned before (Holds stage loop)) {thread : Fin workers}
    {after : Submitting Result Bundle}
    (locking : Locking (.worker thread) before (fun _ => (stage thread).holds = true) (fun _ => after.holds = true) owner) :
    Owned owner (Holds (Function.update stage thread after) loop) := by
  have own : Holds (Function.update stage thread after) loop (.worker thread) = fun _ => after.holds = true := by
    funext any
    rw [holds_worker, Function.update_self]
  apply owned.step (own ▸ locking)
  intro other apart any
  cases other with
  | worker second =>
    have differ : second ≠ thread := fun equal => apart (congrArg Contender.worker equal)
    rw [holds_worker, holds_worker, Function.update_of_ne differ]
  | loop => exact Iff.rfl

theorem owned_loop (owned : Owned before (Holds stage loop)) {after : MainLoop Result Bundle}
    (locking : Locking .loop before (fun _ => loop.holds = true) (fun _ => after.holds = true) owner) :
    Owned owner (Holds stage after) := by
  apply owned.step locking
  intro other apart any
  cases other with
  | worker second => exact Iff.rfl
  | loop => exact absurd rfl apart

theorem Moves.owned {event : Event Result Bundle workers} (moves : Moves nonces state event next)
    (owned : Owned state.owner (Holds state.stage state.loop)) : Owned next.owner (Holds next.stage next.loop) := by
  cases moves with
  | lock idle got =>
    apply owned_worker owned (.take got fun any => ?_)
    simp [Submitting.holds]
  | unlock sent =>
    apply owned_worker owned
    dsimp only
    apply Locking.give
    · simp [sent, Submitting.holds]
    · simp [Submitting.holds]
  | pushResult locked | pushBundle locked =>
    apply owned_worker owned (.keep fun any => ?_)
    simp [locked, Submitting.holds]
  | send pushed =>
    apply owned_worker owned (.keep fun any => ?_)
    simp [pushed, Submitting.holds]
  | acquire atLoop got =>
    apply owned_loop owned (.take got fun any => ?_)
    simp [MainLoop.holds]
  | release atLoop =>
    apply owned_loop owned
    dsimp only
    apply Locking.give
    · simp [atLoop, MainLoop.holds]
    · simp [MainLoop.holds]
  | wake atLoop | drained atLoop | swapBundles atLoop | swapResults atLoop | direct atLoop
  | checked atLoop | queue atLoop | complete atLoop =>
    apply owned_loop owned (.keep fun any => ?_)
    simp [atLoop, MainLoop.holds]
  | leave atLoop =>
    apply owned_loop owned (.keep fun any => ?_)
    rcases atLoop with atLoop | atLoop
    · simp [atLoop, MainLoop.holds]
    · simp [atLoop, MainLoop.holds]
  | read | verify => exact owned

end Mutex

/-! ## What is on its way -/

/-- The main loop will be woken: the counter is raised, or a thread is about to raise it. -/
def Signalled (counter : Nat) (stage : Fin workers → Submitting Result Bundle) : Prop :=
  0 < counter ∨ ∃ thread, stage thread = .pushed

/-- Everything that was pushed is in one place, everything that was found is in one place, and
what lies in the lists is not forgotten. -/
structure Booked (state : JobResultsPrivate Result Bundle workers) : Prop where
  owned : Owned state.owner (Holds state.stage state.loop)
  results : state.direct ++ state.loop.results ++ state.results = state.pushedResults
  bundles : (state.verified.map Prod.fst : Multiset Bundle) + (state.pool.flatMap JobBaton.bundles : Multiset Bundle) +
      (state.loop.bundles : Multiset Bundle) + (state.bundles : Multiset Bundle) = (state.pushedBundles : Multiset Bundle)
  found : (state.checked : Multiset Result) + (state.loop.verified : Multiset Result) +
      (state.pool.flatMap JobBaton.results : Multiset Result) = (state.verified.flatMap Prod.snd : Multiset Result)
  wakesResults : state.results ≠ [] → Signalled state.counter state.stage ∨ state.loop.takesResults = true
  wakesBundles : state.bundles ≠ [] → Signalled state.counter state.stage ∨ state.loop.woken = true

section Pool
variable {A : Type} {pool : List (JobBaton Result Bundle)} {baton : Nat} {found changed : JobBaton Result Bundle}

theorem flatMap_taken (part : JobBaton Result Bundle → List A) (there : pool[baton]? = some found) :
    (pool.flatMap part : Multiset A) = part found + ((pool.eraseIdx baton).flatMap part : Multiset A) := by
  obtain ⟨inside, rfl⟩ := List.getElem?_eq_some_iff.mp there
  have order := (List.getElem_cons_eraseIdx_perm inside).flatMap_right part
  exact (Multiset.coe_eq_coe.mpr order.symm).trans (Multiset.coe_add _ _).symm

theorem flatMap_set (part : JobBaton Result Bundle → List A) (there : pool[baton]? = some found) :
    ((pool.set baton changed).flatMap part : Multiset A) =
      part changed + ((pool.eraseIdx baton).flatMap part : Multiset A) := by
  obtain ⟨inside, rfl⟩ := List.getElem?_eq_some_iff.mp there
  have order := (List.set_perm_cons_eraseIdx inside changed).flatMap_right part
  exact (Multiset.coe_eq_coe.mpr order).trans (Multiset.coe_add _ _).symm

end Pool

section Booking
variable {nonces : Bundle → Nat} {state next : JobResultsPrivate Result Bundle workers}
  {event : Event Result Bundle workers}

theorem Moves.results (moves : Moves nonces state event next)
    (booked : state.direct ++ state.loop.results ++ state.results = state.pushedResults) :
    next.direct ++ next.loop.results ++ next.results = next.pushedResults := by
  cases moves with
  | pushResult => simp [← booked]
  | leave atLoop => rcases atLoop with atLoop | atLoop <;> simpa [atLoop, MainLoop.results] using booked
  | wake atLoop | drained atLoop | acquire atLoop | swapBundles atLoop | swapResults atLoop | release atLoop
  | direct atLoop | checked atLoop | queue atLoop | complete atLoop =>
    simpa [atLoop, MainLoop.results] using booked
  | lock | pushBundle | send | unlock | read | verify => exact booked

theorem Moves.bundles (moves : Moves nonces state event next)
    (booked : (state.verified.map Prod.fst : Multiset Bundle) +
      (state.pool.flatMap JobBaton.bundles : Multiset Bundle) + (state.loop.bundles : Multiset Bundle) +
        (state.bundles : Multiset Bundle) = (state.pushedBundles : Multiset Bundle)) :
    (next.verified.map Prod.fst : Multiset Bundle) + (next.pool.flatMap JobBaton.bundles : Multiset Bundle) +
      (next.loop.bundles : Multiset Bundle) + (next.bundles : Multiset Bundle) =
        (next.pushedBundles : Multiset Bundle) := by
  cases moves with
  | pushBundle =>
    simp only [← Multiset.coe_add] at booked ⊢
    rw [← booked]
    ac_rfl
  | leave atLoop => rcases atLoop with atLoop | atLoop <;> simpa [atLoop, MainLoop.bundles] using booked
  | queue atLoop =>
    rw [atLoop] at booked
    rw [← booked]
    simp only [MainLoop.bundles, List.flatMap_append, List.flatMap_singleton, ← Multiset.coe_add]
    simp only [Multiset.coe_nil, add_zero]
    ac_rfl
  | verify atPool few =>
    -- the bundle leaves the baton and is recorded
    rw [flatMap_taken JobBaton.bundles atPool] at booked
    dsimp only
    rw [flatMap_set JobBaton.bundles atPool, ← booked, List.map_append, ← Multiset.coe_add]
    simp only [List.map_cons, List.map_nil, ← Multiset.cons_coe, Multiset.coe_nil, Multiset.cons_add,
      Multiset.add_cons, add_zero]
  | complete atLoop atPool =>
    rw [flatMap_taken JobBaton.bundles atPool, atLoop] at booked
    simpa [MainLoop.bundles] using booked
  | swapBundles atLoop => simpa [atLoop, MainLoop.bundles, add_assoc] using booked
  | wake atLoop | drained atLoop | acquire atLoop | swapResults atLoop | release atLoop
  | direct atLoop | checked atLoop =>
    simpa [atLoop, MainLoop.bundles] using booked
  | lock | pushResult | send | unlock | read => exact booked

theorem Moves.found (moves : Moves nonces state event next)
    (booked : (state.checked : Multiset Result) + (state.loop.verified : Multiset Result) +
      (state.pool.flatMap JobBaton.results : Multiset Result) =
        (state.verified.flatMap Prod.snd : Multiset Result)) :
    (next.checked : Multiset Result) + (next.loop.verified : Multiset Result) +
      (next.pool.flatMap JobBaton.results : Multiset Result) =
        (next.verified.flatMap Prod.snd : Multiset Result) := by
  cases moves with
  | leave atLoop => rcases atLoop with atLoop | atLoop <;> simpa [atLoop, MainLoop.verified] using booked
  | queue atLoop => simpa [atLoop, MainLoop.verified] using booked
  | verify atPool few =>
    rw [flatMap_taken JobBaton.results atPool] at booked
    dsimp only
    rw [flatMap_set JobBaton.results atPool, List.flatMap_append, List.flatMap_singleton, ← Multiset.coe_add,
      ← Multiset.coe_add, ← booked]
    ac_rfl
  | complete atLoop atPool =>
    rw [flatMap_taken JobBaton.results atPool, atLoop] at booked
    simpa [MainLoop.verified, add_assoc] using booked
  | checked atLoop =>
    rw [atLoop] at booked
    simp only [MainLoop.verified, ← Multiset.coe_add, ← Multiset.cons_coe, Multiset.coe_nil, Multiset.cons_add,
      Multiset.add_cons, add_zero] at booked ⊢
    exact booked
  | wake atLoop | drained atLoop | acquire atLoop | swapBundles atLoop | swapResults atLoop | release atLoop
  | direct atLoop =>
    simpa [atLoop, MainLoop.verified] using booked
  | lock | pushResult | pushBundle | send | unlock | read => exact booked

theorem Signalled.update {counter : Nat} {stage : Fin workers → Submitting Result Bundle}
    (signalled : Signalled counter stage) {thread : Fin workers} (other : stage thread ≠ .pushed)
    (after : Submitting Result Bundle) : Signalled counter (Function.update stage thread after) := by
  rcases signalled with raised | ⟨waiting, pushed⟩
  · exact .inl raised
  · have apart : waiting ≠ thread := by
      rintro rfl
      exact other pushed
    exact .inr ⟨waiting, by rw [Function.update_of_ne apart, pushed]⟩

theorem signalled_push {counter : Nat} (stage : Fin workers → Submitting Result Bundle) (thread : Fin workers) :
    Signalled counter (Function.update stage thread .pushed) := .inr ⟨thread, Function.update_self ..⟩

/-- A push signals, and a signal is only lost where the loop is about to take the list. -/
theorem Moves.wakes (moves : Moves nonces state event next)
    (results : state.results ≠ [] → Signalled state.counter state.stage ∨ state.loop.takesResults = true)
    (bundles : state.bundles ≠ [] → Signalled state.counter state.stage ∨ state.loop.woken = true) :
    (next.results ≠ [] → Signalled next.counter next.stage ∨ next.loop.takesResults = true) ∧
      (next.bundles ≠ [] → Signalled next.counter next.stage ∨ next.loop.woken = true) := by
  cases moves with
  | @lock thread _ _ idle =>
    have other : state.stage thread ≠ .pushed := by simp [idle]
    exact ⟨fun some => (results some).imp_left (·.update other _), fun some => (bundles some).imp_left (·.update other _)⟩
  | @unlock thread sent =>
    have other : state.stage thread ≠ .pushed := by simp [sent]
    exact ⟨fun some => (results some).imp_left (·.update other _), fun some => (bundles some).imp_left (·.update other _)⟩
  | pushResult | pushBundle => exact ⟨fun _ => .inl (signalled_push _ _), fun _ => .inl (signalled_push _ _)⟩
  | send => exact ⟨fun _ => .inl (.inl (Nat.succ_pos _)), fun _ => .inl (.inl (Nat.succ_pos _))⟩
  | read atLoop => exact ⟨fun _ => .inr (by rw [atLoop]; rfl), fun _ => .inr (by rw [atLoop]; rfl)⟩
  | wake | drained | acquire => exact ⟨fun _ => .inr rfl, fun _ => .inr rfl⟩
  | swapBundles => exact ⟨fun _ => .inr rfl, fun some => absurd rfl some⟩
  | swapResults atLoop =>
    rw [atLoop] at bundles
    exact ⟨fun some => absurd rfl some, fun some => (bundles some).imp_right Bool.noConfusion⟩
  | leave atLoop =>
    rcases atLoop with atLoop | atLoop
    all_goals
      rw [atLoop] at results bundles
      exact ⟨fun some => (results some).imp_right Bool.noConfusion,
        fun some => (bundles some).imp_right Bool.noConfusion⟩
  | release atLoop | direct atLoop | checked atLoop | queue atLoop | complete atLoop =>
    rw [atLoop] at results bundles
    exact ⟨fun some => (results some).imp_right Bool.noConfusion,
      fun some => (bundles some).imp_right Bool.noConfusion⟩
  | verify => exact ⟨results, bundles⟩

theorem Booked.step (booked : state.Booked) (stepped : step nonces state event = some next) : next.Booked := by
  have moves := moves_of_step stepped
  obtain ⟨wakesResults, wakesBundles⟩ := moves.wakes booked.wakesResults booked.wakesBundles
  exact ⟨moves.owned booked.owned, moves.results booked.results, moves.bundles booked.bundles,
    moves.found booked.found, wakesResults, wakesBundles⟩

end Booking

/-! ## How much is left to do -/

section Weights
variable (nonces : Bundle → Nat)

def bundlesWeight (bundles : List Bundle) : Nat := (bundles.map fun bundle => nonces bundle + 1).sum

def JobBaton.weight (baton : JobBaton Result Bundle) : Nat :=
  bundlesWeight nonces baton.bundles + baton.results.length + 2

/-- The steps of a call, a wakeup of the loop, and what becomes of the argument. -/
def Submitting.weight : Submitting Result Bundle → Nat
  | .idle => 0
  | .locked (.result _) => 14
  | .locked (.bundle bundle) => nonces bundle + 14
  | .pushed => 12
  | .sent => 1

def MainLoop.weight (counter : Nat) : MainLoop Result Bundle → Nat
  | .polling => if 0 < counter then 10 else 0
  | .draining => if 0 < counter then 9 else 8
  | .called => 7 + if 0 < counter then 10 else 0
  | .locked => 6 + if 0 < counter then 10 else 0
  | .swappedBundles bundles => 5 + (if 0 < counter then 10 else 0) + bundlesWeight nonces bundles
  | .swapped bundles results =>
      4 + (if 0 < counter then 10 else 0) + bundlesWeight nonces bundles + results.length
  | .delivering bundles results =>
      3 + (if 0 < counter then 10 else 0) + bundlesWeight nonces bundles + results.length
  | .completing results => 1 + (if 0 < counter then 10 else 0) + results.length

def poolWeight (pool : List (JobBaton Result Bundle)) : Nat := (pool.map (JobBaton.weight nonces)).sum

def stagesWeight (stage : Fin workers → Submitting Result Bundle) : Nat :=
  ∑ thread, (stage thread).weight nonces

/-- A bound on the steps that are left once no call begins any more. -/
def remaining (state : JobResultsPrivate Result Bundle workers) : Nat :=
  stagesWeight nonces state.stage + state.loop.weight nonces state.counter + state.results.length +
    bundlesWeight nonces state.bundles + poolWeight nonces state.pool

variable {nonces}

@[simp] theorem bundlesWeight_nil : bundlesWeight nonces [] = 0 := rfl

@[simp] theorem bundlesWeight_append (first second : List Bundle) :
    bundlesWeight nonces (first ++ second) = bundlesWeight nonces first + bundlesWeight nonces second := by
  simp [bundlesWeight]

@[simp] theorem bundlesWeight_cons (bundle : Bundle) (rest : List Bundle) :
    bundlesWeight nonces (bundle :: rest) = nonces bundle + 1 + bundlesWeight nonces rest := by
  simp [bundlesWeight]

variable (nonces) in
theorem stagesWeight_update (stage : Fin workers → Submitting Result Bundle) (thread : Fin workers)
    (after : Submitting Result Bundle) :
    stagesWeight nonces (Function.update stage thread after) + (stage thread).weight nonces =
      stagesWeight nonces stage + after.weight nonces := by
  unfold stagesWeight
  rw [← Finset.add_sum_erase _ _ (Finset.mem_univ thread),
    ← Finset.add_sum_erase Finset.univ (fun other => (stage other).weight nonces) (Finset.mem_univ thread),
    Function.update_self]
  have rest : ∑ other ∈ Finset.univ.erase thread, (Function.update stage thread after other).weight nonces =
      ∑ other ∈ Finset.univ.erase thread, (stage other).weight nonces := by
    apply Finset.sum_congr rfl
    intro other member
    rw [Function.update_of_ne (Finset.ne_of_mem_erase member)]
  omega

section Pool
variable {pool : List (JobBaton Result Bundle)} {baton : Nat} {found changed : JobBaton Result Bundle}

theorem poolWeight_taken (there : pool[baton]? = some found) :
    poolWeight nonces pool = found.weight nonces + poolWeight nonces (pool.eraseIdx baton) := by
  obtain ⟨inside, rfl⟩ := List.getElem?_eq_some_iff.mp there
  exact (((List.getElem_cons_eraseIdx_perm inside).map (JobBaton.weight nonces)).sum_eq).symm

theorem poolWeight_set (there : pool[baton]? = some found) :
    poolWeight nonces (pool.set baton changed) =
      changed.weight nonces + poolWeight nonces (pool.eraseIdx baton) := by
  obtain ⟨inside, rfl⟩ := List.getElem?_eq_some_iff.mp there
  exact ((List.set_perm_cons_eraseIdx inside changed).map (JobBaton.weight nonces)).sum_eq

theorem poolWeight_append (first second : List (JobBaton Result Bundle)) :
    poolWeight nonces (first ++ second) = poolWeight nonces first + poolWeight nonces second := by
  simp [poolWeight]

end Pool

variable (nonces) in
theorem weight_raised (loop : MainLoop Result Bundle) (counter : Nat) :
    loop.weight nonces (counter + 1) ≤ loop.weight nonces counter + 10 := by
  cases loop with
  | draining =>
    simp only [MainLoop.weight]
    split <;> split <;> omega
  | polling | called | locked | swappedBundles | swapped | delivering | completing =>
    simp only [MainLoop.weight]
    split <;> split <;> omega

variable {state next : JobResultsPrivate Result Bundle workers} {event : Event Result Bundle workers}

theorem Moves.remaining (moves : Moves nonces state event next) (within : event.Internal) :
    next.remaining nonces < state.remaining nonces := by
  unfold JobResultsPrivate.remaining
  cases moves with
  | lock => exact within.elim
  | @pushResult thread result locked =>
    have sum := stagesWeight_update nonces state.stage thread .pushed
    rw [locked] at sum
    simp only [Submitting.weight, List.length_append, List.length_singleton] at sum ⊢
    omega
  | @pushBundle thread bundle locked =>
    have sum := stagesWeight_update nonces state.stage thread .pushed
    rw [locked] at sum
    simp only [Submitting.weight, bundlesWeight_append, bundlesWeight_cons, bundlesWeight_nil] at sum ⊢
    omega
  | @send thread pushed =>
    have sum := stagesWeight_update nonces state.stage thread .sent
    have raised := weight_raised nonces state.loop state.counter
    rw [pushed] at sum
    simp only [Submitting.weight] at sum ⊢
    omega
  | @unlock thread sent =>
    have sum := stagesWeight_update nonces state.stage thread .idle
    rw [sent] at sum
    simp only [Submitting.weight] at sum ⊢
    omega
  | wake atLoop raised =>
    rw [atLoop]
    simp only [MainLoop.weight, if_pos raised]
    omega
  | read atLoop raised =>
    rw [atLoop]
    simp only [MainLoop.weight, if_pos raised, Nat.lt_irrefl, if_false]
    omega
  | drained atLoop empty =>
    rw [atLoop]
    simp only [MainLoop.weight, empty, Nat.lt_irrefl, if_false]
    omega
  | acquire atLoop | release atLoop =>
    rw [atLoop]
    simp only [MainLoop.weight]
    omega
  | swapBundles atLoop | swapResults atLoop =>
    rw [atLoop]
    simp only [MainLoop.weight, bundlesWeight_nil, List.length_nil]
    omega
  | direct atLoop | checked atLoop =>
    rw [atLoop]
    simp only [MainLoop.weight, List.length_cons]
    omega
  | leave atLoop =>
    rcases atLoop with atLoop | atLoop
    all_goals
      rw [atLoop]
      simp only [MainLoop.weight, bundlesWeight_nil, List.length_nil]
      omega
  | queue atLoop =>
    rw [atLoop, poolWeight_append]
    simp only [MainLoop.weight, poolWeight, List.map_cons, List.map_nil, List.sum_cons, List.sum_nil, JobBaton.weight,
      List.length_nil]
    omega
  | verify atPool few =>
    dsimp only
    rw [poolWeight_set atPool, poolWeight_taken atPool]
    simp only [JobBaton.weight, bundlesWeight_cons, List.length_append]
    omega
  | complete atLoop atPool =>
    rw [atLoop, poolWeight_taken atPool]
    simp only [MainLoop.weight, JobBaton.weight, bundlesWeight_nil]
    omega

end Weights

/-! ## Runs -/

section Runs
variable {nonces : Bundle → Nat} {state last : JobResultsPrivate Result Bundle workers}
  {events more : List (Event Result Bundle workers)}

theorem booked_start : ({} : JobResultsPrivate Result Bundle workers).Booked where
  owned := by
    intro mutex party
    cases party <;> simp [Holds, Submitting.holds, MainLoop.holds]
  results := rfl
  bundles := rfl
  found := rfl
  wakesResults := fun some => absurd rfl some
  wakesBundles := fun some => absurd rfl some

theorem run_booked (executed : run (step nonces) {} events = some state) : state.Booked :=
  run_keeps (fun _ _ _ booked stepped => Booked.step booked stepped) booked_start executed

/-- Where nothing can be done, every thread has left `submit`. -/
theorem idle_of_stuck (stuck : ∀ event, event.Internal → step nonces state event = none) (thread : Fin workers) :
    state.stage thread = .idle := by
  cases at_ : state.stage thread with
  | idle => rfl
  | locked submission =>
    have none := stuck (.push thread) trivial
    cases submission <;> simp [step, at_] at none
  | pushed =>
    have none := stuck (.send thread) trivial
    simp [step, at_] at none
  | sent =>
    have none := stuck (.unlock thread) trivial
    simp [step, at_] at none

theorem polling_of_stuck (booked : state.Booked) (stuck : ∀ event, event.Internal → step nonces state event = none) :
    state.loop = .polling ∧ state.counter = 0 := by
  have free : state.loop.holds = false → state.owner () = none := by
    intro outside
    cases owner : state.owner () with
    | none => rfl
    | some party =>
      have held := (booked.owned () party).mp owner
      cases party with
      | worker thread =>
        rw [holds_worker, idle_of_stuck stuck thread] at held
        cases held
      | loop =>
        have inside : state.loop.holds = true := held
        rw [outside] at inside
        cases inside
  cases at_ : state.loop with
  | polling =>
    have none := stuck .wake trivial
    simp only [step, at_] at none
    exact ⟨rfl, by by_contra raised; simp [Nat.pos_of_ne_zero raised] at none⟩
  | draining =>
    have unread := stuck .read trivial
    have blocked := stuck .drained trivial
    simp only [step, at_] at unread blocked
    split at unread
    · cases unread
    · rename_i empty
      rw [if_pos (Nat.eq_zero_of_not_pos empty)] at blocked
      cases blocked
  | called =>
    have none := stuck .acquire trivial
    simp [step, at_, acquire, free (by rw [at_]; rfl)] at none
  | locked =>
    have none := stuck .swapBundles trivial
    simp [step, at_] at none
  | swappedBundles bundles =>
    have none := stuck .swapResults trivial
    simp [step, at_] at none
  | swapped bundles results =>
    have none := stuck .release trivial
    simp [step, at_] at none
  | delivering bundles results =>
    have left := stuck .leave trivial
    have undelivered := stuck .onJobResult trivial
    cases results with
    | nil => cases bundles <;> simp [step, at_] at left
    | cons result rest => simp [step, at_] at undelivered
  | completing results =>
    have left := stuck .leave trivial
    have undelivered := stuck .onJobResult trivial
    cases results with
    | nil => simp [step, at_] at left
    | cons result rest => simp [step, at_] at undelivered

theorem pool_of_stuck (polling : state.loop = .polling)
    (stuck : ∀ event, event.Internal → step nonces state event = none) : state.pool = [] := by
  cases pool : state.pool with
  | nil => rfl
  | cons baton rest =>
    obtain ⟨bundles, results⟩ := baton
    cases bundles with
    | nil =>
      have none := stuck (.complete 0) trivial
      simp [step, polling, pool] at none
    | cons bundle bundles =>
      have none := stuck (.verify 0 []) trivial
      simp [step, pool] at none

/-- Whatever the schedule: the mutex has one holder, the results of the list come to the listener
in the order of their pushes, no bundle is lost or verified twice, no result of a bundle is lost or
delivered twice, and nothing waits in a list without a wakeup ahead. -/
theorem handoff_exact (executed : run (step nonces) {} events = some state) :
    (∀ first second, Holds state.stage state.loop first () → Holds state.stage state.loop second () →
      first = second) ∧
    state.direct ++ state.loop.results ++ state.results = state.pushedResults ∧
    (state.verified.map Prod.fst : Multiset Bundle) + (state.pool.flatMap JobBaton.bundles : Multiset Bundle) +
      (state.loop.bundles : Multiset Bundle) + (state.bundles : Multiset Bundle) =
        (state.pushedBundles : Multiset Bundle) ∧
    (state.checked : Multiset Result) + (state.loop.verified : Multiset Result) +
      (state.pool.flatMap JobBaton.results : Multiset Result) =
        (state.verified.flatMap Prod.snd : Multiset Result) ∧
    (state.results ≠ [] → Signalled state.counter state.stage ∨ state.loop.takesResults = true) ∧
    (state.bundles ≠ [] → Signalled state.counter state.stage ∨ state.loop.woken = true) := by
  have booked := run_booked executed
  exact ⟨fun first second one two => booked.owned.unique one two, booked.results, booked.bundles, booked.found,
    booked.wakesResults, booked.wakesBundles⟩

theorem two_neZero : NeZero (2 : Nat) := ⟨by decide⟩

attribute [local instance] two_neZero in
/-- A thread finds a result and another one a bundle while the loop is woken; one more result comes
while the loop delivers. -/
def exampleSchedule : List (Event Nat Nat 2) :=
  [.lock 0 (.result 7), .push 0, .send 0, .unlock 0, .wake, .lock 1 (.bundle 40), .push 1, .read, .drained,
    .send 1, .unlock 1, .acquire, .swapBundles, .swapResults, .release, .lock 0 (.result 8), .push 0,
    .onJobResult, .leave, .verify 0 [41], .complete 0, .onJobResult]

theorem handoff_exact_two :
    ∃ state, run (step fun _ => 2) {} exampleSchedule = some state ∧
      (state.direct, state.checked, state.results) = ([7], [41], [8]) ∧
      state.direct ++ state.loop.results ++ state.results = state.pushedResults :=
  ⟨_, rfl, rfl, (handoff_exact (show run (step fun _ => 2) {} exampleSchedule = some _ from rfl)).2.1⟩

theorem run_remaining (internal : ∀ event ∈ more, event.Internal) (ran : run (step nonces) state more = some last) :
    last.remaining nonces + more.length ≤ state.remaining nonces := by
  induction more generalizing state with
  | nil =>
    cases ran
    exact Nat.le_refl _
  | cons event rest ih =>
    obtain ⟨next, stepped, ran⟩ := run_cons_iff.mp ran
    have less := (moves_of_step stepped).remaining (internal event List.mem_cons_self)
    have later := ih (fun other member => internal other (List.mem_cons_of_mem event member)) ran
    rw [List.length_cons]
    omega

/-- Once no call begins any more, every schedule comes to an end, and where it cannot go on all
that was pushed has been delivered: each result in its order, each bundle verified once, and what
was found in the bundles delivered once. -/
theorem handoff_settles (executed : run (step nonces) {} events = some state)
    (internal : ∀ event ∈ more, event.Internal) (ran : run (step nonces) state more = some last) :
    more.length ≤ state.remaining nonces ∧
      ((∀ event, event.Internal → step nonces last event = none) →
        last.direct = last.pushedResults ∧
          (last.verified.map Prod.fst : Multiset Bundle) = (last.pushedBundles : Multiset Bundle) ∧
          (last.checked : Multiset Result) = (last.verified.flatMap Prod.snd : Multiset Result)) := by
  refine ⟨by have := run_remaining internal ran; omega, fun stuck => ?_⟩
  have whole : run (step nonces) {} (events ++ more) = some last := by
    rw [run_append, executed]
    exact ran
  have booked := run_booked whole
  obtain ⟨polling, counter⟩ := polling_of_stuck booked stuck
  have silent : ¬ Signalled last.counter last.stage := by
    rintro (raised | ⟨thread, pushed⟩)
    · omega
    · rw [idle_of_stuck stuck thread] at pushed
      cases pushed
  have results : last.results = [] := by
    by_contra some
    rcases booked.wakesResults some with signalled | taken
    · exact silent signalled
    · rw [polling] at taken
      cases taken
  have bundles : last.bundles = [] := by
    by_contra some
    rcases booked.wakesBundles some with signalled | taken
    · exact silent signalled
    · rw [polling] at taken
      cases taken
  have pool := pool_of_stuck polling stuck
  have delivered := booked.results
  have verified := booked.bundles
  have found := booked.found
  rw [polling, results] at delivered
  rw [polling, bundles, pool] at verified
  rw [polling, pool] at found
  exact ⟨by simpa [MainLoop.results] using delivered, by simpa [MainLoop.bundles] using verified,
    by simpa [MainLoop.verified] using found⟩

attribute [local instance] two_neZero in
def exampleEnd : List (Event Nat Nat 2) :=
  [.leave, .send 0, .unlock 0, .wake, .read, .drained, .acquire, .swapBundles, .swapResults, .release,
    .onJobResult, .leave]

theorem handoff_settles_two :
    ∃ state last, run (step fun _ => 2) {} exampleSchedule = some state ∧
      run (step fun _ => 2) state exampleEnd = some last ∧
      exampleEnd.length ≤ state.remaining (fun _ => 2) ∧ last.direct = [7, 8] := by
  have internal : ∀ event ∈ exampleEnd, event.Internal := by simp [exampleEnd, Event.Internal]
  exact ⟨_, _, rfl, rfl,
    (handoff_settles (show run (step fun _ => 2) {} exampleSchedule = some _ from rfl) internal rfl).1, rfl⟩

end Runs

end JobResultsPrivate

end Xmrig
