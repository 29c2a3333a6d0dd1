import Mathlib.Data.List.TakeWhile
import Xmrig.Base.Names

/-! Urls of pools and proxies.

A text that is refused leaves the url as far as it was filled in: the scheme may be set without
anything else, and the text may be kept without a host.
-/

set_option autoImplicit false

namespace Xmrig

inductive Scheme where
  | unspecified
  | stratum
  | daemon
  | socks5
  deriving DecidableEq, Repr

structure Url where
  tls : Bool := false
  scheme : Scheme := .unspecified
  host : Option (List Byte) := none
  url : Option (List Byte) := none
  port : BitVec 16 := 3333
  deriving DecidableEq, Repr

namespace Url

/-- `Url()`. -/
def empty : Url := {}

def isValid (url : Url) : Bool := url.host.isSome && 0 < url.port

/-- `isEqual` compares every field. -/
def isEqual (url other : Url) : Bool := url = other

def isDigit (char : Byte) : Bool := 48 ≤ char ∧ char ≤ 57

def isBlank (char : Byte) : Bool := char = 32 ∨ (9 ≤ char ∧ char ≤ 13)

def decimal (chars : List Byte) : Int :=
  (chars.takeWhile isDigit).foldl (fun value char => value * 10 + (char.toNat - 48)) 0

/-- `strtol(.., nullptr, 10)` with a `long` of 64 bits. -/
def strtol (chars : List Byte) : Int :=
  match chars.dropWhile isBlank with
  | 45#8 :: digits => max (-decimal digits) (-2 ^ 63)
  | 43#8 :: digits => min (decimal digits) (2 ^ 63 - 1)
  | digits => min (decimal digits) (2 ^ 63 - 1)

def toPort (chars : List Byte) : BitVec 16 := BitVec.ofInt 16 (strtol chars)

/-- What follows the first `://`. -/
def behindScheme : List Byte → Option (List Byte)
  | 58#8 :: 47#8 :: 47#8 :: rest => some rest
  | _ :: rest => behindScheme rest
  | [] => none

/-- `strncasecmp` over the length of the literal. -/
def startsWith (chars literal : List Byte) : Bool := sameName (chars.take literal.length) literal

def knownScheme (chars : List Byte) : Option (Scheme × Bool) :=
  if startsWith chars (text "stratum+tcp://") then some (.stratum, false)
  else if startsWith chars (text "stratum+ssl://") then some (.stratum, true)
  else if startsWith chars (text "socks5://") then some (.socks5, false)
  else if startsWith chars (text "daemon+https://") then some (.daemon, true)
  else if startsWith chars (text "daemon+http://") then some (.daemon, false)
  else none

def parseIPv6 (url : Url) (addr : List Byte) : Url × Bool :=
  match (addr.dropWhile (· ≠ 93)).dropWhile (· ≠ 58) with
  | [] => (url, false)
  | _ :: port => ({ url with host := some ((addr.takeWhile (· ≠ 93)).drop 1), port := toPort port }, true)

def parseHost (url : Url) (base : List Byte) : Url :=
  match base.dropWhile (· ≠ 58) with
  | [] => { url with host := some base }
  | _ :: port => { url with host := some (base.takeWhile (· ≠ 58)), port := toPort port }

def parseBase (url : Url) (chars base : List Byte) : Url × Bool :=
  match base with
  | [] => (url, false)
  | 47#8 :: _ => (url, false)
  | 91#8 :: _ => parseIPv6 { url with url := some chars } base
  | _ => (parseHost { url with url := some chars } base, true)

/-- `Url::parse`: the url that it leaves, and its answer. -/
def parseText (url : Url) (chars : Option (List Byte)) : Url × Bool :=
  match chars with
  | none => (url, false)
  | some chars =>
    match behindScheme chars with
    | none => parseBase url chars chars
    | some base =>
      match knownScheme chars with
      | none => (url, false)
      | some (scheme, tls) => parseBase { url with scheme, tls } chars base

def parse (url : Url) (chars : Option (List Byte)) : Url := (url.parseText chars).1

def answer (url : Url) (chars : Option (List Byte)) : Bool := (url.parseText chars).2

theorem parseBase_cases (url : Url) (chars base : List Byte) :
    (parseBase url chars base).1 = url ∨ (parseBase url chars base).1.url = some chars := by
  unfold parseBase
  split
  · exact .inl rfl
  · exact .inl rfl
  · right
    unfold parseIPv6
    split <;> rfl
  · right
    unfold parseHost
    split <;> rfl

theorem parse_cases (url : Url) (chars : Option (List Byte)) :
    (∃ scheme tls, parse url chars = { url with scheme, tls }) ∨
      (chars.isSome ∧ (parse url chars).url = chars) := by
  cases chars with
  | none => exact .inl ⟨url.scheme, url.tls, rfl⟩
  | some chars =>
    simp only [parse, parseText]
    cases behindScheme chars with
    | none =>
      rcases parseBase_cases url chars chars with same | kept
      · exact .inl ⟨url.scheme, url.tls, same⟩
      · exact .inr ⟨rfl, kept⟩
    | some base =>
      cases knownScheme chars with
      | none => exact .inl ⟨url.scheme, url.tls, rfl⟩
      | some known =>
        rcases parseBase_cases { url with scheme := known.1, tls := known.2 } chars base with same | kept
        · exact .inl ⟨known.1, known.2, same⟩
        · exact .inr ⟨rfl, kept⟩

theorem text_of_valid (chars : Option (List Byte)) (valid : (empty.parse chars).isValid = true) :
    (empty.parse chars).url.isSome = true := by
  rcases empty.parse_cases chars with ⟨scheme, tls, same⟩ | ⟨given, kept⟩
  · rw [same] at valid
    cases valid
  · rw [kept]
    exact given

theorem parseBase_port (url : Url) (chars base : List Byte) :
    (parseBase url chars base).1.host.isSome ∨ (parseBase url chars base).1.port = url.port := by
  unfold parseBase
  split
  · exact .inr rfl
  · exact .inr rfl
  · unfold parseIPv6
    split
    · exact .inr rfl
    · exact .inl rfl
  · unfold parseHost
    split <;> exact .inl rfl

theorem parse_port (url : Url) (chars : Option (List Byte)) :
    (parse url chars).host.isSome ∨ (parse url chars).port = url.port := by
  unfold parse parseText
  split
  · exact .inr rfl
  · split
    · exact parseBase_port _ _ _
    · split
      · exact .inr rfl
      · exact parseBase_port _ _ _

end Url

/-- `String::toJSON`. -/
def stringJSON : Option (List Byte) → Json
  | none => .null
  | some chars => .str chars

/-! A proxy is a url whose port is 0 unless it is given. -/

namespace ProxyUrl

def empty : Url := { port := 0 }

def ofJSON (value : Json) : Url :=
  match value with
  | .str chars => empty.parse (some (Json.cString chars))
  | value => { empty with port := BitVec.ofNat 16 (value.asUint.getD 0) }

def isValid (proxy : Url) : Bool :=
  0 < proxy.port && (proxy.scheme = .unspecified || proxy.scheme = .socks5)

def toJSON (proxy : Url) : Json :=
  if isValid proxy then
    if proxy.host.isSome then stringJSON proxy.url else .int proxy.port.toNat
  else .null

end ProxyUrl

theorem cString_cString (chars : List Byte) : Json.cString (Json.cString chars) = Json.cString chars := by
  exact List.takeWhile_idem

namespace Url

theorem parse_stringJSON {url : Url} {chars : Option (List Byte)} (fresh : url.url = none)
    (terminated : ∀ text, chars = some text → Json.cString text = text) :
    url.parse (stringJSON (url.parse chars).url).asString =
      if (url.parse chars).url.isSome then url.parse chars else url := by
  rcases url.parse_cases chars with ⟨scheme, tls, same⟩ | ⟨given, kept⟩
  · rw [same, fresh]
    rfl
  · obtain ⟨text, rfl⟩ := Option.isSome_iff_exists.mp given
    rw [kept, stringJSON, Json.asString, terminated text rfl]
    rfl

end Url

namespace ProxyUrl

theorem ofJSON_int (port : BitVec 16) : ofJSON (.int port.toNat) = { empty with port } := by
  have small : port.toNat < 2 ^ 16 := port.isLt
  have fits : (0 : Int) ≤ port.toNat ∧ (port.toNat : Int) < 2 ^ 32 := by omega
  simp only [ofJSON, Json.asUint, Json.asInteger, if_pos fits, Option.map_some, Option.getD_some, Int.toNat_natCast]
  rw [BitVec.ofNat_toNat, BitVec.setWidth_eq]

theorem ofJSON_toJSON (value : Json) :
    ofJSON (toJSON (ofJSON value)) = if isValid (ofJSON value) then ofJSON value else empty := by
  unfold toJSON
  by_cases valid : isValid (ofJSON value) = true
  · rw [if_pos valid, if_pos valid]
    have positive : (ofJSON value).port ≠ 0 := by
      intro zero
      simp [isValid, zero] at valid
    by_cases string : ∃ chars, value = .str chars
    · obtain ⟨chars, rfl⟩ := string
      have hosted : (ofJSON (.str chars)).host.isSome = true :=
        (empty.parse_port (some (Json.cString chars))).resolve_right positive
      have kept : (ofJSON (.str chars)).url = some (Json.cString chars) := by
        rcases empty.parse_cases (some (Json.cString chars)) with ⟨scheme, tls, same⟩ | ⟨-, kept⟩
        · exact absurd (congrArg Url.port same) positive
        · exact kept
      rw [if_pos hosted, kept, stringJSON, ofJSON, cString_cString]
      rfl
    · have plain : ofJSON value = { empty with port := BitVec.ofNat 16 (value.asUint.getD 0) } := by
        cases value with
        | str chars => exact absurd ⟨chars, rfl⟩ string
        | _ => rfl
      rw [plain, if_neg (by simp [empty]), ofJSON_int]
  · rw [if_neg valid, if_neg valid]
    rfl

end ProxyUrl

end Xmrig
