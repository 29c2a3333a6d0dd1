import Xmrig.Base.Cvt
import Xmrig.Base.Names
import Xmrig.Base.StringOrder

/-! Thread lists of the processor and the profiles that name them.

The names of a configuration stand for their bytes, one character each. What `GetUint` and
`GetInt` make of a value that is no integer is whatever its first word holds.
-/

set_option autoImplicit false

namespace Xmrig

open Foundation

namespace Algorithm

def cn : BitVec 32 := 0x63150000

def base (algorithm : Algorithm) : BitVec 32 :=
  if algorithm.isCN then cn0.id ||| (algorithm.id &&& 0xff00) else invalid.id

end Algorithm

/-! ### Numbers in strings -/

def digitOf (radix : Nat) (char : Byte) : Option Nat :=
  let value :=
    if 48 ≤ char ∧ char ≤ 57 then char.toNat - 48
    else if 97 ≤ char ∧ char ≤ 122 then char.toNat - 87
    else if 65 ≤ char ∧ char ≤ 90 then char.toNat - 55
    else 36
  if value < radix then some value else none

def digitsFrom (radix : Nat) (sum : Nat) : List Byte → Nat
  | [] => sum
  | char :: rest =>
    match digitOf radix char with
    | none => sum
    | some digit => digitsFrom radix (sum * radix + digit) rest

/-- `strtoll`; what does not fit is the nearest value that does. -/
def strtoll (radix : Nat) (chars : List Byte) : Int :=
  let (negative, chars) := splitSign (chars.dropWhile isSpace)
  let chars := if radix = 16 ∧ chars.take 2 = text "0x" then chars.drop 2 else chars
  let value : Int := digitsFrom radix 0 chars
  if negative then max (-value) (-2 ^ 63) else min value (2 ^ 63 - 1)

/-- `strstr` for `0x`. -/
def hexStart : List Byte → Option (List Byte)
  | [] => none
  | char :: rest => if (char :: rest).take 2 = text "0x" then some (char :: rest) else hexStart rest

def getAffinityMask (value : Json) : Int :=
  match value.asInt64 with
  | some mask => mask
  | none =>
    match value.asString with
    | some chars =>
      match hexStart chars with
      | some hex => strtoll 16 hex
      | none => strtoll 10 chars
    | none => -1

def getAffinity (index : Nat) (affinity : Int) : Int :=
  if affinity = -1 then -1
  else match ((List.range 64).filter fun i => (BitVec.ofInt 64 affinity).getLsbD i)[index]? with
    | some i => i
    | none => -1

/-! ### Lists of threads -/

section Lists
variable (union : Json → BitVec 32)

def wordOf : Json → BitVec 32
  | .int value => BitVec.ofInt 32 value
  | .double bits => bits.setWidth 32
  | other => union other

structure CpuThread where
  affinity : Int := -1
  intensity : Nat := 0
  deriving DecidableEq, Repr

namespace CpuThread

def read (value : Json) : CpuThread :=
  match value with
  | .arr (first :: second :: _) =>
    { intensity := (wordOf union first).toNat, affinity := (wordOf union second).toInt }
  | other =>
    match other.asInt with
    | some affinity => { intensity := 0, affinity }
    | none => {}

def isValid (thread : CpuThread) : Bool := thread.intensity ≤ 8

/-- `intensity()`, which is never zero. -/
def getIntensity (thread : CpuThread) : Nat := if thread.intensity = 0 then 1 else thread.intensity

def toJSON (thread : CpuThread) : Json :=
  if thread.intensity = 0 then .int thread.affinity else .arr [.int thread.intensity, .int thread.affinity]

end CpuThread

inductive CpuFormat where
  | array
  | object
  deriving DecidableEq, Repr

structure CpuThreads where
  format : CpuFormat := .array
  affinity : Int := -1
  data : List CpuThread := []
  deriving DecidableEq, Repr

namespace CpuThreads

def count (threads : CpuThreads) : Nat := threads.data.length

def isEqual (threads other : CpuThreads) : Bool := threads.data = other.data

def ofCount (count intensity : Nat) : CpuThreads :=
  { data := List.replicate count { affinity := -1, intensity } }

def read (value : Json) : CpuThreads :=
  match value with
  | .arr elements => { data := (elements.map (CpuThread.read union)).filter CpuThread.isValid }
  | .obj members =>
    let value := Json.obj members
    let intensity := value.getUint "intensity" 1
    let threads := min (value.getUint "threads" 0) 1024
    let affinity := getAffinityMask (value.getValue "affinity")
    let intensity := if intensity < 1 ∨ 5 < intensity then 1 else intensity
    { format := .object, affinity,
      data := (List.range threads).map fun i => { affinity := getAffinity i affinity, intensity } }
  | _ => {}

def toJSON (threads : CpuThreads) : Json :=
  match threads.format with
  | .array => .arr (threads.data.map CpuThread.toJSON)
  | .object =>
    .obj [("intensity", .int ((threads.data.head?.map CpuThread.getIntensity).getD 1)),
      ("threads", .int threads.count), ("affinity", .int threads.affinity)]

end CpuThreads

end Lists

/-! ### Profiles -/

def algorithmOrder : KeyOrder Algorithm where
  below first second := first.id.toNat < second.id.toNat
  irrefl _ := decide_eq_false (Nat.lt_irrefl _)
  trans one two := decide_eq_true ((of_decide_eq_true one).trans (of_decide_eq_true two))

/-- What the profiles need to know of the lists that they name. -/
structure ThreadList (T : Type) where
  ofJson : Json → T
  toJSON : T → Json
  count : T → Nat
  empty : T

def ThreadList.isEmpty {T : Type} (list : ThreadList T) (threads : T) : Bool := list.count threads = 0

structure Threads (T : Type) where
  aliases : OrderedMap algorithmOrder (List Byte) := OrderedMap.empty
  profiles : OrderedMap nameOrder T := OrderedMap.empty
  disabled : OrderedMap algorithmOrder Unit := OrderedMap.empty

/-- `String::split`: the pieces between the separators that are not empty. -/
def split (sep : Byte) (chars : List Byte) : List (List Byte) :=
  if chars.isEmpty then [chars] else (chars.splitOn sep).filter (!·.isEmpty)

def memberName (name : List Byte) : String := String.ofList (name.map fun byte => Char.ofNat byte.toNat)

namespace Threads
variable {T : Type} (list : ThreadList T) (threads : Threads T)

def kAsterisk : List Byte := text "*"

def has (profile : List Byte) : Bool := threads.profiles.has profile

def isDisabled (algo : Algorithm) : Bool := threads.disabled.has algo

def isExist (algo : Algorithm) : Bool :=
  threads.isDisabled algo || threads.aliases.has algo || threads.has (text algo.name)

def disable (algo : Algorithm) : Threads T := { threads with disabled := threads.disabled.insert algo () }

def setAlias (algo : Algorithm) (profile : List Byte) : Threads T :=
  { threads with aliases := threads.aliases.assign algo profile }

def move (profile : List Byte) (moved : T) : Threads T × Nat :=
  if threads.has profile then (threads, 0)
  else
    (if list.isEmpty moved then threads
      else { threads with profiles := threads.profiles.insert profile moved }, list.count moved)

def profileName (algorithm : Algorithm) (strict : Bool) : Option (List Byte) :=
  if threads.isDisabled algorithm then none
  else
    let name := text algorithm.name
    if threads.has name then some name
    else match threads.aliases.find algorithm with
      | some profile => some profile
      | none =>
        let first := (split 47 name).head?.getD []
        if strict then none
        else if algorithm.family = Algorithm.cn ∧ algorithm.base = Algorithm.cn2.id ∧
            threads.has (text Algorithm.cn2.name) then some (text Algorithm.cn2.name)
        else if 47 ∈ name ∧ threads.has first then some first
        else if threads.has kAsterisk then some kAsterisk
        else none

def getProfile (profileName : Option (List Byte)) : T :=
  (profileName.bind threads.profiles.find).getD list.empty

def get (algo : Algorithm) (strict : Bool) : T := threads.getProfile list (threads.profileName algo strict)

/-- The first loop of `read`. -/
def readProfile (threads : Threads T) (member : String × Json) : Threads T :=
  if member.2.isArray || member.2.isObject then
    let moved := list.ofJson member.2
    if list.isEmpty moved then threads
    else (threads.move list (Json.cString (text member.1)) moved).1
  else threads

/-- The second loop of `read`. -/
def readAlgorithm (threads : Threads T) (member : String × Json) : Threads T :=
  if member.2.isArray || member.2.isObject then threads
  else
    let algo := Algorithm.parse (some (Json.cString (text member.1)))
    if !algo.isValid then threads
    else match member.2 with
      | .bool false => threads.disable algo
      | .str chars =>
        let profile := Json.cString chars
        if threads.has profile then { threads with aliases := threads.aliases.insert algo profile }
        else threads.disable algo
      | _ => threads

def read (members : List (String × Json)) : Threads T :=
  members.foldl readAlgorithm (members.foldl (readProfile list) threads)

def toJSON : List (String × Json) :=
  threads.profiles.entries.map (fun entry => (memberName entry.1, list.toJSON entry.2)) ++
    threads.disabled.entries.map (fun entry => (entry.1.name, .bool false)) ++
    threads.aliases.entries.map fun entry => (entry.1.name, .str entry.2)

end Threads

end Xmrig
