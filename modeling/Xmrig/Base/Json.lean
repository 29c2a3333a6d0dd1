import Xmrig.Base.Job

/-! JSON values and the readers that fall back to a default.

Values are what the parser has built. An integer that fits neither 64-bit type is a
double there, and a string is read up to its first null character.
-/

set_option autoImplicit false

namespace Xmrig

/-- The characters of a literal of the source. -/
def text (literal : String) : List Byte := literal.toList.map fun char => BitVec.ofNat 8 char.toNat

inductive Json where
  | null
  | bool (value : Bool)
  | int (value : Int)
  | double (bits : BitVec 64)
  | str (chars : List Byte)
  | arr (elements : List Json)
  | obj (members : List (String × Json))

namespace Json

/-- What a `const char *` into the characters of a string is read as. -/
def cString (chars : List Byte) : List Byte := chars.takeWhile (· ≠ 0)

def isObject : Json → Bool
  | obj _ => true
  | _ => false

def isArray : Json → Bool
  | arr _ => true
  | _ => false

def isNull : Json → Bool
  | null => true
  | _ => false

/-- `FindMember`: the first member of that name. -/
def findMember (value : Json) (key : String) : Option Json :=
  match value with
  | obj members => members.lookup key
  | _ => none

def hasMember (value : Json) (key : String) : Bool := (value.findMember key).isSome

/-! The value itself as one of the types it is asked for. -/

def asBool : Json → Option Bool
  | bool value => some value
  | _ => none

def asString : Json → Option (List Byte)
  | str chars => some (cString chars)
  | _ => none

def asInteger (low high : Int) : Json → Option Int
  | int value => if low ≤ value ∧ value < high then some value else none
  | _ => none

def asInt : Json → Option Int := asInteger (-2 ^ 31) (2 ^ 31)
def asInt64 : Json → Option Int := asInteger (-2 ^ 63) (2 ^ 63)
def asUint : Json → Option Nat := fun value => (value.asInteger 0 (2 ^ 32)).map Int.toNat
def asUint64 : Json → Option Nat := fun value => (value.asInteger 0 (2 ^ 64)).map Int.toNat

/-! The readers of `Json.cpp`. A value that is no object, or an empty one, has no member. -/

def getBool (value : Json) (key : String) (defaultValue : Bool) : Bool :=
  ((value.findMember key).bind asBool).getD defaultValue

/-- Without a default the source returns a null pointer. -/
def getString (value : Json) (key : String) : Option (List Byte) := (value.findMember key).bind asString

def getValue (value : Json) (key : String) : Json := (value.findMember key).getD null

def getObject (value : Json) (key : String) : Json :=
  ((value.findMember key).filter isObject).getD null

def getArray (value : Json) (key : String) : Json :=
  ((value.findMember key).filter isArray).getD null

def getInt (value : Json) (key : String) (defaultValue : Int) : Int :=
  ((value.findMember key).bind asInt).getD defaultValue

def getInt64 (value : Json) (key : String) (defaultValue : Int) : Int :=
  ((value.findMember key).bind asInt64).getD defaultValue

def getUint (value : Json) (key : String) (defaultValue : Nat) : Nat :=
  ((value.findMember key).bind asUint).getD defaultValue

def getUint64 (value : Json) (key : String) (defaultValue : Nat) : Nat :=
  ((value.findMember key).bind asUint64).getD defaultValue

end Json

end Xmrig
