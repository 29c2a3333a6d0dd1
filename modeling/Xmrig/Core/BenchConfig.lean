import Xmrig.Core.Config
import Xmrig.Foundation.Numerals
import Xmrig.Stratum.KawpowJob

/-! The settings of a benchmark, from the object they are read from and back.

A benchmark has one of twelve sizes, which are written as they are read. The rotation is
read and not written.
-/

set_option autoImplicit false

namespace Xmrig

open Foundation.Numerals

structure BenchConfig where
  algorithm : Algorithm
  dmi : Bool
  submit : Bool
  id : Option (List Byte)
  seed : Option (List Byte)
  token : Option (List Byte)
  user : Option (List Byte)
  size : BitVec 32
  rotation : BitVec 32
  hash : BitVec 64
  deriving DecidableEq, Repr

namespace BenchConfig

/-- `strtoul(.., nullptr, 10)` of 64 bits. -/
def strtoul (chars : List Byte) : BitVec 64 :=
  let (negative, rest) := splitSign (chars.dropWhile isSpace)
  match readDigits 10 rest with
  | none => 0
  | some magnitude =>
    if 2 ^ 64 ≤ magnitude then BitVec.allOnes 64
    else if negative then -BitVec.ofNat 64 magnitude else BitVec.ofNat 64 magnitude

/-- `getSize` of a build with `NDEBUG`. -/
def getSize (benchmark : Option (List Byte)) : BitVec 32 :=
  match benchmark with
  | none => 0
  | some chars =>
    let size := (strtoul chars).toNat
    if 1 ≤ size ∧ size ≤ 10 then
      if sameName chars (writeDigits 10 size ++ text "M") then BitVec.ofNat 32 (size * 1000000) else 0
    else if size = 250 ∨ size = 500 then
      if sameName chars (writeDigits 10 size ++ text "K") then BitVec.ofNat 32 (size * 1000) else 0
    else 0

def algorithmOf (chars : Option (List Byte)) : Algorithm :=
  let algorithm := Algorithm.parse chars
  if algorithm.isValid = false ∨ (algorithm.family ≠ Algorithm.randomX ∧ algorithm.family ≠ Algorithm.ghostrider) then .rx0
  else algorithm

/-- `BenchConfig::BenchConfig`. -/
def ofObject (size : BitVec 32) (id : Option (List Byte)) (object : Json) (dmi : Bool) (rotation : BitVec 32) :
    BenchConfig where
  algorithm := algorithmOf (object.getString "algo")
  dmi
  submit := object.getBool "submit" false
  id
  seed := object.getString "seed"
  token := object.getString "token"
  user := object.getString "user"
  size
  rotation
  hash := ((object.getString "hash").map strtoull).getD 0

def rotationOf (object : Json) : BitVec 32 :=
  ((object.getString "rotation").map fun chars => (strtoul chars).setWidth 32).getD 0

def create (object : Json) (dmi : Bool) : Option BenchConfig :=
  if Config.isEmpty object then none
  else
    let size := getSize (object.getString "size")
    let id := object.getString "verify"
    if size = 0 ∧ id.getD [] = [] then none else some (ofObject size id object dmi (rotationOf object))

def sizeJSON (size : BitVec 32) : Json :=
  if size = 0 then .int 0
  else if size < 1000000 then .str (writeDigits 10 (size.toNat / 1000) ++ text "K")
  else .str (writeDigits 10 (size.toNat / 1000000) ++ text "M")

def capital (char : Byte) : Byte := if 97 ≤ char ∧ char ≤ 122 then char - 32 else char

/-- `{:016X}`. -/
def hashText (hash : BitVec 64) : List Byte := (EthStratumClient.hex16 hash).map capital

def toJSON (bench : BenchConfig) : Json :=
  .obj [("size", sizeJSON bench.size), ("algo", bench.algorithm.toJSON), ("submit", .bool bench.submit),
    ("verify", stringJSON bench.id), ("token", stringJSON bench.token), ("seed", stringJSON bench.seed),
    ("user", stringJSON bench.user), ("hash", if bench.hash ≠ 0 then .str (hashText bench.hash) else .null)]

def codec : BenchCodec where
  Bench := BenchConfig
  create := create
  toJSON := toJSON
  create_null := fun _ => rfl
  object := fun _ => rfl

/-! ## Reading back -/

def sizes : List (BitVec 32) :=
  [0, 250000, 500000, 1000000, 2000000, 3000000, 4000000, 5000000, 6000000, 7000000, 8000000, 9000000, 10000000]

theorem getSize_listed (benchmark : Option (List Byte)) : getSize benchmark ∈ sizes := by
  have millions : ∀ size < 11, BitVec.ofNat 32 (size * 1000000) ∈ sizes := by
    intro size small
    interval_cases size <;> simp [sizes]
  have none : (0 : BitVec 32) ∈ sizes := by decide
  unfold getSize
  split
  · exact none
  · dsimp only
    split
    · rename_i range
      split
      · exact millions _ (by omega)
      · exact none
    · split
      · rename_i half
        split
        · rcases half with same | same
          all_goals
            rw [same]
            decide
        · exact none
      · exact none

theorem getSize_sizeJSON : ∀ size ∈ sizes, getSize (sizeJSON size).asString = size := by
  -- Sizes are written in thousands below a million, and in millions from there on.
  have thousands : ∀ number ∈ [250, 500],
      getSize (some (Json.cString (writeDigits 10 number ++ text "K"))) = BitVec.ofNat 32 (number * 1000) := by
    decide +kernel
  have millions : ∀ number ∈ [1, 2, 3, 4, 5, 6, 7, 8, 9, 10],
      getSize (some (Json.cString (writeDigits 10 number ++ text "M"))) = BitVec.ofNat 32 (number * 1000000) := by
    decide
  intro size listed
  simp only [sizes, List.mem_cons, List.not_mem_nil, or_false] at listed
  rcases listed with rfl | rfl | rfl | rfl | rfl | rfl | rfl | rfl | rfl | rfl | rfl | rfl | rfl
  · rfl
  · exact thousands 250 (by decide)
  · exact thousands 500 (by decide)
  · exact millions 1 (by decide)
  · exact millions 2 (by decide)
  · exact millions 3 (by decide)
  · exact millions 4 (by decide)
  · exact millions 5 (by decide)
  · exact millions 6 (by decide)
  · exact millions 7 (by decide)
  · exact millions 8 (by decide)
  · exact millions 9 (by decide)
  · exact millions 10 (by decide)

theorem algorithmOf_toJSON (chars : Option (List Byte)) :
    algorithmOf (algorithmOf chars).toJSON.asString = algorithmOf chars := by
  have parsed := Algorithm.parse_toJSON chars
  by_cases other : (Algorithm.parse chars).isValid = false ∨
      ((Algorithm.parse chars).family ≠ Algorithm.randomX ∧ (Algorithm.parse chars).family ≠ Algorithm.ghostrider)
  · have base : algorithmOf chars = .rx0 := if_pos other
    -- Whatever is no algorithm for a benchmark is replaced by one that is.
    obtain ⟨entry, listed, rx⟩ := List.mem_map.mp (show Algorithm.rx0 ∈ Algorithm.aliases.map Prod.fst by decide)
    have again := (Algorithm.aliases_roundTrip entry listed).2
    rw [rx] at again
    have valid : Algorithm.rx0.isValid = true := rfl
    have name : Algorithm.parse (Algorithm.toJSON .rx0).asString = .rx0 := by
      rw [Algorithm.toJSON, if_pos valid, Json.asString, Algorithm.cString_text_name, again]
    rw [base, algorithmOf, name]
    rfl
  · have same : algorithmOf chars = Algorithm.parse chars := if_neg other
    rw [same, algorithmOf, parsed]
    exact if_neg other

theorem digit_capital : ∀ char : Byte, Cvt.digit (capital char) = Cvt.digit char := by
  decide +kernel

theorem strtoull_hashText (hash : BitVec 64) : strtoull (Json.cString (hashText hash)) = hash := by
  have digits : EthStratumClient.Hex (hashText hash) := by
    intro char member
    obtain ⟨small, listed, rfl⟩ := List.mem_map.mp member
    rw [digit_capital]
    exact EthStratumClient.hex16_hex hash small listed
  have number : EthStratumClient.hexNumber (hashText hash) = hash.toNat := by
    rw [hashText, EthStratumClient.hexNumber, List.filterMap_map, show Cvt.digit ∘ capital = Cvt.digit from funext digit_capital]
    exact EthStratumClient.hexNumber_hex16 hash
  have some_ : hashText hash ≠ [] := by simp [hashText, EthStratumClient.hex16]
  rw [EthStratumClient.cString_of_hex digits, strtoull, EthStratumClient.scanHex_of_hex digits some_, number]
  have small : ¬ 2 ^ 64 ≤ hash.toNat := Nat.not_le.mpr hash.isLt
  simp only [if_neg small, Bool.false_eq_true, if_false, BitVec.ofNat_toNat, BitVec.setWidth_eq]

theorem create_written {bench : BenchConfig} (size : bench.size ∈ sizes)
    (algorithm : algorithmOf bench.algorithm.toJSON.asString = bench.algorithm) (id : Pool.Terminated bench.id)
    (seed : Pool.Terminated bench.seed) (token : Pool.Terminated bench.token) (user : Pool.Terminated bench.user)
    (asked : ¬(bench.size = 0 ∧ bench.id.getD [] = [])) :
    create bench.toJSON bench.dmi = some { bench with rotation := 0 } := by
  have length : getSize (bench.toJSON.getString "size") = bench.size := getSize_sizeJSON _ size
  have name : algorithmOf (bench.toJSON.getString "algo") = bench.algorithm := algorithm
  have submit : bench.toJSON.getBool "submit" false = bench.submit := Config.getBool_of_find rfl _
  have verify : bench.toJSON.getString "verify" = bench.id := Config.getString_of_find rfl id
  have seedRead : bench.toJSON.getString "seed" = bench.seed := Config.getString_of_find rfl seed
  have tokenRead : bench.toJSON.getString "token" = bench.token := Config.getString_of_find rfl token
  have userRead : bench.toJSON.getString "user" = bench.user := Config.getString_of_find rfl user
  have rotation : rotationOf bench.toJSON = 0 := rfl
  have hash : ((bench.toJSON.getString "hash").map strtoull).getD 0 = bench.hash := by
    have found : bench.toJSON.getString "hash" =
        (if bench.hash ≠ 0 then Json.str (hashText bench.hash) else .null).asString := rfl
    rw [found]
    split
    · exact strtoull_hashText bench.hash
    · rename_i zero
      rw [not_not.mp zero]
      rfl
  rw [create, if_neg (show ¬Config.isEmpty bench.toJSON = true from Bool.false_ne_true)]
  dsimp only
  rw [length, verify, if_neg asked]
  simp only [ofObject, name, submit, seedRead, tokenRead, userRead, hash, rotation]

/-- What is written for a benchmark is read as the same one, but without its rotation. -/
theorem create_toJSON_iff {object : Json} {dmi : Bool} {bench : BenchConfig} (made : create object dmi = some bench) :
    create bench.toJSON dmi = some bench ↔ rotationOf object = 0 := by
  unfold create at made
  split at made
  · cases made
  · dsimp only at made
    split at made
    · cases made
    · rename_i asked
      have terminated := Pool.terminated_getString object
      -- What was read meets everything that the writer relies on; only the rotation is not written.
      have again := @create_written (ofObject (getSize (object.getString "size")) (object.getString "verify") object dmi
        (rotationOf object)) (getSize_listed _) (algorithmOf_toJSON _) (terminated "verify") (terminated "seed")
        (terminated "token") (terminated "user") asked
      obtain rfl := Option.some.inj made
      rw [show create _ dmi = _ from again, Option.some.injEq]
      constructor
      · intro same
        exact (congrArg rotation same).symm
      · intro none
        simp only [ofObject, none]

end BenchConfig

end Xmrig
