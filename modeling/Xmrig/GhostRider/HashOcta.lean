import Xmrig.Foundation.ForkJoin
import Mathlib.Logic.Function.Basic

/-! Eight GhostRider hashes at once.

`hash_octa` runs three parts of five core hashes and one CryptoNight variant
on eight lanes. With hwloc it may share the lanes with a helper thread, for all
three parts at once or part by part, as the tuning table says; without hwloc
there is one thread. Several CryptoNight hashes run in one call, on scratchpads
that are cut out of the memories of the eight contexts. Here each thread is a
list of operations on what both share; core hashes and CryptoNight are
parameters.
-/

set_option autoImplicit false

namespace Xmrig.GhostRider

open Foundation

section Indices

def nibble (seed : Nat → BitVec 8) (i : Nat) : Nat :=
  ((seed (i / 2)).toNat >>> ((i &&& 1) * 4)) &&& 0xF

/-- The loop over the seed with the indices selected so far; what was never selected follows in
order. -/
def selectLoop (n : Nat) : List Nat → List Nat → List Nat
  | [], indices => indices ++ (List.range n).filter (· ∉ indices)
  | index :: rest, indices =>
      if index ∈ indices then selectLoop n rest indices
      else if n ≤ (indices ++ [index]).length then indices ++ [index]
      else selectLoop n rest (indices ++ [index])

def selectIndices (n : Nat) (seed : Nat → BitVec 8) : List Nat :=
  selectLoop n ((List.range 64).map fun i => nibble seed i % n) []

end Indices

section Tables

/-- `Algorithm::l3` -/
def l3 (id : Nat) : Nat := 1 <<< ((id >>> 16) &&& 0xff)

def cnSizes (index : Nat) : Nat :=
  [l3 0x63130100, l3 0x63130101 / 2, l3 0x63150102, l3 0x63140103, l3 0x63120104,
    l3 0x63120105 / 2].getD index 0

inductive AlgoVariant where
  | avSingle | avDouble | avTriple | avQuad
  | avSingleSoft | avDoubleSoft | avTripleSoft | avQuadSoft
  deriving DecidableEq, Repr

def AlgoVariant.ways : AlgoVariant → Nat
  | avSingle | avSingleSoft => 1
  | avDouble | avDoubleSoft => 2
  | avTriple | avTripleSoft => 3
  | avQuad | avQuadSoft => 4

def avHwAes : List AlgoVariant := [.avSingle, .avSingle, .avDouble, .avTriple, .avQuad]

def avSoftAes : List AlgoVariant :=
  [.avSingleSoft, .avSingleSoft, .avDoubleSoft, .avTripleSoft, .avQuadSoft]

/-- What the benchmark may choose for one variant. -/
structure AlgoTune where
  step : Nat
  threads : Nat
  step_mem : step = 1 ∨ step = 2 ∨ step = 4
  threads_mem : threads = 1 ∨ threads = 2

/-- Everything a call depends on, the hashes included. `spoiled` stands for what a call leaves
whose scratchpads overlap. -/
structure Setup where
  core : Nat → List (BitVec 8) → Vector (BitVec 8) 64
  cn : Nat → List (BitVec 8) → Vector (BitVec 8) 32
  spoiled : Nat → Vector (BitVec 8) 32
  data : List (BitVec 8)
  size : Nat
  hasAES : Bool
  tuneDefault : Nat → AlgoTune
  tune8MB : Nat → AlgoTune

namespace Setup
variable (setup : Setup)

def blob (lane : Nat) : List (BitVec 8) := (setup.data.drop (lane * setup.size)).take setup.size

def seed (i : Nat) : BitVec 8 := setup.data.getD (4 + i) 0

def coreIndices (i : Nat) : Nat := (selectIndices 15 setup.seed).getD i 0

def cnIndices (part : Nat) : Nat := (selectIndices 6 setup.seed).getD part 0

def av (step : Nat) : AlgoVariant :=
  (if setup.hasAES then avHwAes else avSoftAes).getD step .avSingle

/-- The table for a helper, if there is one, that shares 8 MB of cache. -/
def tune (helper : Option Bool) : Nat → AlgoTune :=
  if helper = some true then setup.tune8MB else setup.tuneDefault

end Setup

end Tables

section Machine

/-- A pointer into the memory of a context. -/
structure Pointer where
  block : Nat
  offset : Nat
  deriving DecidableEq, Repr

structure Pad where
  block : Nat
  offset : Nat
  size : Nat
  deriving DecidableEq, Repr

def memorySize : Nat := 1 <<< 21

def Pad.Inside (pad : Pad) : Prop := pad.block < 8 ∧ pad.offset + pad.size ≤ memorySize

instance (pad : Pad) : Decidable pad.Inside := inferInstanceAs (Decidable (_ ∧ _))

def Pad.Apart (first second : Pad) : Prop :=
  first.block ≠ second.block ∨ first.offset + first.size ≤ second.offset ∨
    second.offset + second.size ≤ first.offset

instance (first second : Pad) : Decidable (first.Apart second) :=
  inferInstanceAs (Decidable (_ ∨ _ ∨ _))

/-- The scratchpads of a call, and of the call the other thread is in. -/
def Usable (mine other : List Pad) : Prop :=
  (∀ pad ∈ mine, pad.Inside) ∧ mine.Pairwise Pad.Apart ∧
    ∀ pad ∈ mine, ∀ foreign ∈ other, pad.Apart foreign

instance (mine other : List Pad) : Decidable (Usable mine other) :=
  inferInstanceAs (Decidable (_ ∧ _ ∧ _))

/-- What the threads share: `tmp`, `output` and `ctx[i]->memory`. `active` has the scratchpads of
the CryptoNight call each thread is in, and `overlap` tells that some call had to share. -/
structure Shared where
  tmp : Nat → Vector (BitVec 8) 64
  output : Nat → Vector (BitVec 8) 32
  memory : Nat → Pointer
  active : Bool → List Pad
  overlap : Bool

/-- Where a core hash reads: the first ones the blobs, later ones `tmp`. -/
inductive Source where
  | data | tmp
  deriving DecidableEq, Repr

inductive Op where
  | allocate (i : Nat) (p : Pointer)
  | core (index : Nat) (input : Source) (lane : Nat)
  | cnBegin (index ctx ways : Nat)
  | cnEnd (index lane ways : Nat)
  | copy (lane : Nat)
  deriving DecidableEq, Repr

/-- The scratchpads `ctx[base]` and the following ones point to. -/
def pads (state : Shared) (index base ways : Nat) : List Pad :=
  (List.range ways).map fun way =>
    ⟨(state.memory (base + way)).block, (state.memory (base + way)).offset, cnSizes index⟩

variable (setup : Setup)

/-- The `size` bytes at `input + lane * size`. -/
def inputOf (state : Shared) (lane : Nat) : Source → List (BitVec 8)
  | .data => setup.blob lane
  | .tmp => (state.tmp lane).toList

/-- `memcpy(tmp + j * 64, output + j * 32, 32)` and `memset(tmp + j * 64 + 32, 0, 32)`. -/
def zeroExtended (hash : Vector (BitVec 8) 32) : Vector (BitVec 8) 64 :=
  (hash ++ Vector.replicate 32 (0 : BitVec 8) : Vector (BitVec 8) (32 + 32))

def exec (thread : Bool) (op : Op) (state : Shared) : Shared :=
  match op with
  | .allocate i p => { state with memory := Function.update state.memory i p }
  | .core index input lane =>
      { state with
        tmp := Function.update state.tmp lane (setup.core index (inputOf setup state lane input)) }
  | .cnBegin index base ways =>
      let mine := pads state index base ways
      { state with
        active := Function.update state.active thread mine
        overlap := state.overlap || !decide (Usable mine (state.active !thread)) }
  | .cnEnd index lane ways =>
      { state with
        output := fun j =>
          if lane ≤ j ∧ j < lane + ways then
            if state.overlap then setup.spoiled j else setup.cn index (state.tmp j).toList
          else state.output j
        active := Function.update state.active thread [] }
  | .copy lane =>
      { state with
        tmp := Function.update state.tmp lane (zeroExtended (state.output lane)) }

end Machine

section Loops
variable (setup : Setup)

/-- `for (j = lo; j < hi; j += step)` -/
def strided (lo hi step : Nat) : List Nat := List.range' lo ((hi - lo + step - 1) / step) step

def lanes (lo hi : Nat) : List Nat := List.range' lo (hi - lo)

/-- Scratchpads for the contexts in the list, from the memory of context `base` on. `p` points
into the memory of context `k`, and is where the next scratchpad starts. -/
def allocate (base step size : Nat) : List Nat → Nat → Pointer → List Op × Pointer
  | [], _, p => ([], p)
  | i :: rest, k, p =>
      let (k, p) :=
        if i % step = 0 then (base, ⟨base, 0⟩)
        else if p.offset ≥ memorySize then (k + 1, ⟨k + 1, 0⟩)
        else (k, p)
      let (ops, last) := allocate base step size rest k ⟨p.block, p.offset + size⟩
      (.allocate i p :: ops, last)

/-- Passes of core hashes over the lanes; after the first one the input is `tmp`. -/
def corePasses (part : Nat) (chosen : List Nat) : List Nat → Source → List Op × Source
  | [], input => ([], input)
  | i :: rest, input =>
      let (ops, last) := corePasses part chosen rest .tmp
      (chosen.map (.core (setup.coreIndices (part * 5 + i)) input) ++ ops, last)

/-- `f(tmp + j * 64, 64, output + j * 32, ctx + base, 0)` for every `step` lanes. -/
def cnCalls (part step base lo hi : Nat) : List Op :=
  let ways := (setup.av step).ways
  (strided lo hi step).flatMap fun j =>
    [.cnBegin (setup.cnIndices part) base ways, .cnEnd (setup.cnIndices part) j ways]

/-- The hashes of one part on the lanes from `lo` to `hi`, with the contexts from `base` on. -/
def chainPart (part step base lo hi : Nat) (input : Source) : List Op × Source :=
  let (cores, input) := corePasses setup part (lanes lo hi) (List.range 5) input
  (cores ++ cnCalls setup part step base lo hi ++ (lanes lo hi).map .copy, input)

end Loops

section Paths
variable (setup : Setup)

/-- A thread that runs all three parts on its own, as with two threads throughout. -/
def wholeThread (step : Nat → Nat) (base lo hi : Nat) : List Nat → Source → List Op
  | [], _ => []
  | part :: rest, input =>
      let step' := step (setup.cnIndices part)
      let scratchpads :=
        allocate base step' (cnSizes (setup.cnIndices part)) (lanes lo hi) base ⟨base, 0⟩
      let (ops, input) := chainPart setup part step' base lo hi input
      scratchpads.1 ++ ops ++ wholeThread step base lo hi rest input

def partPhases (tune : Nat → AlgoTune) (helper : Bool) :
    List Nat → Source → List (List Op × List Op)
  | [], _ => []
  | part :: rest, input =>
      let t := tune (setup.cnIndices part)
      let size := cnSizes (setup.cnIndices part)
      let n := 8 / t.threads
      let first := allocate 0 t.step size (lanes 0 n) 0 ⟨0, 0⟩
      let second := allocate 4 t.step size (lanes n 8) 4 first.2
      let n := if helper && t.threads = 2 then 8 / 2 else 8
      let (ops, next) := chainPart setup part t.step 0 0 n input
      let task := if helper && t.threads = 2 then (chainPart setup part t.step n n 8 input).1 else []
      (first.1 ++ second.1, []) :: (ops, task) :: partPhases tune helper rest next

/-- `ctx[i]->memory = ctx_memory[i]` -/
def restore : List Op := (List.range 8).map fun i => .allocate i ⟨i, 0⟩

/-- `hash_octa` with hwloc; a helper comes with whether it shares 8 MB of cache. -/
def hashOctaHwloc (helper : Option Bool) : List (List Op × List Op) :=
  let tune := setup.tune helper
  let step := fun index => (tune index).step
  let parts := [0, 1, 2]
  if helper.isSome ∧ ∀ part ∈ parts, (tune (setup.cnIndices part)).threads = 2 then
    [(wholeThread setup step 0 0 4 parts .data, wholeThread setup step 4 4 8 parts .data),
      (restore, [])]
  else partPhases setup tune helper.isSome parts .data ++ [(restore, [])]

def stepTable (arm : Bool) (index : Nat) : Nat :=
  (if arm then [1, 1, 1, 1, 1, 1] else [4, 4, 1, 2, 4, 4]).getD index 1

/-- `hash_octa` without hwloc. -/
def hashOctaPlain (arm : Bool) : List (List Op × List Op) :=
  [(wholeThread setup (stepTable arm) 0 0 8 [0, 1, 2] .data ++ restore, [])]

/-- How the program was built, and the helper thread of the worker. -/
inductive Build where
  | hwloc (helper : Option Bool)
  | plain (arm : Bool)

def hashOcta : Build → List (List Op × List Op)
  | .hwloc helper => hashOctaHwloc setup helper
  | .plain arm => hashOctaPlain setup arm

end Paths

section Purpose
variable (setup : Setup)

def coreChain (part : Nat) (passes : List Nat) (input : List (BitVec 8)) : List (BitVec 8) :=
  passes.foldl (fun x i => (setup.core (setup.coreIndices (part * 5 + i)) x).toList) input

def partHash (part : Nat) (input : List (BitVec 8)) : Vector (BitVec 8) 32 :=
  setup.cn (setup.cnIndices part) (coreChain setup part (List.range 5) input)

def padded (hash : Vector (BitVec 8) 32) : List (BitVec 8) := hash.toList ++ List.replicate 32 0

def ghostRider (blob : List (BitVec 8)) : Vector (BitVec 8) 32 :=
  partHash setup 2 (padded (partHash setup 1 (padded (partHash setup 0 blob))))

end Purpose

end Xmrig.GhostRider
