import Xmrig.Foundation.Numerals
import Xmrig.Stratum.Url

/-! What the parser of urls makes of a text.

A text is a prefix with the scheme, a host and a port. The parser takes the first colon, narrows
the port to sixteen bits and fills in one member after the other, also where it ends with a
refusal. A url that is printed from its parts puts the host in front of a colon as it is.
-/

set_option autoImplicit false

namespace Xmrig.Url

open Foundation Foundation.Numerals

/-- `Url(host, port, tls, scheme)`. -/
def ofHost (host : List Byte) (port : BitVec 16) (tls : Bool) (scheme : Scheme) : Url :=
  { tls, scheme, host := some host, url := some (host ++ 58 :: writeDigits 10 port.toNat), port }

/-! ## Urls as they are written -/

def prefixes : List (List Byte × Scheme × Bool) :=
  [(text "stratum+tcp://", .stratum, false), (text "stratum+ssl://", .stratum, true),
    (text "socks5://", .socks5, false), (text "daemon+https://", .daemon, true),
    (text "daemon+http://", .daemon, false)]

/-- A text with its scheme, whether it stands for TLS, and what is behind the scheme; without a
prefix these are the ones of the url. -/
inductive Splits (url : Url) : List Byte → Scheme → Bool → List Byte → Prop
  | bare {chars : List Byte} : (∀ front rest, chars ≠ front ++ 58 :: 47 :: 47 :: rest) →
      Splits url chars url.scheme url.tls chars
  | prefixed {literal front base : List Byte} {scheme : Scheme} {tls : Bool} : (literal, scheme, tls) ∈ prefixes →
      sameName front literal = true → Splits url (front ++ base) scheme tls base

/-- A text that begins with the number of a port. -/
def Port (chars : List Byte) (port : BitVec 16) : Prop := strtol chars = port.toNat ∧ 1 ≤ port.toNat

/-- A host and a port; a host in brackets may have colons. -/
inductive Addressed (default : BitVec 16) : List Byte → List Byte → BitVec 16 → Prop
  | ipv6 {host chars : List Byte} {port : BitVec 16} : (93 : Byte) ∉ host → Port chars port →
      Addressed default (91 :: (host ++ 93 :: 58 :: chars)) host port
  | alone {host : List Byte} : host.head? ≠ some 91 → (58 : Byte) ∉ host → Addressed default host host default
  | withPort {host chars : List Byte} {port : BitVec 16} : host.head? ≠ some 91 → (58 : Byte) ∉ host → Port chars port →
      Addressed default (host ++ 58 :: chars) host port

/-- The members of a url are the parts of the text. -/
def Faithful (url after : Url) (chars : List Byte) : Prop :=
  ∃ base host, Splits url chars after.scheme after.tls base ∧ after.host = some host ∧
    Addressed url.port base host after.port

def baseOf (chars : List Byte) : List Byte := (behindScheme chars).getD chars

def PortFits (chars : List Byte) : Prop := 1 ≤ strtol chars ∧ strtol chars ≤ 65535

instance (chars : List Byte) : Decidable (PortFits chars) := inferInstanceAs (Decidable (_ ∧ _))

/-- The number of a port in the text is one, and stands directly behind a bracket. -/
def PortsFit (base : List Byte) : Prop :=
  if base.head? = some 91 then
    ∃ chars, base.dropWhile (· ≠ 93) = 93 :: 58 :: chars ∧ PortFits chars
  else ∀ chars, base.dropWhile (· ≠ 58) = 58 :: chars → PortFits chars

/-- A refused text changes nothing: the url has the scheme of the text already, and the text too
if it gets as far as a bracket. -/
def Untouched (url : Url) (chars : List Byte) : Prop :=
  match behindScheme chars, knownScheme chars with
  | none, _ => chars.head? = some 91 → url.url = some chars
  | some _, none => True
  | some base, some known => known = (url.scheme, url.tls) ∧ (base.head? = some 91 → url.url = some chars)

/-! ## The scheme -/

section Scheme
variable {chars base : List Byte}

theorem toLower_colon : ∀ char : Byte, (toLower char = 58 ↔ char = 58) ∧ (toLower char = 47 ↔ char = 47) := by
  decide

theorem behindScheme_append {front : List Byte} (plain : (58 : Byte) ∉ front) :
    behindScheme (front ++ 58 :: 47 :: 47 :: base) = some base := by
  induction front with
  | nil => rfl
  | cons char rest ih =>
    rw [List.mem_cons, not_or] at plain
    rw [List.cons_append, behindScheme]
    · exact ih plain.2
    · rintro tail rfl
      exact absurd rfl plain.1

theorem behindScheme_none (plain : behindScheme chars = none) (front rest : List Byte) :
    chars ≠ front ++ 58 :: 47 :: 47 :: rest := by
  rintro rfl
  induction front with
  | nil => cases plain
  | cons char front ih =>
    rw [List.cons_append] at plain
    unfold behindScheme at plain
    split at plain
    · cases plain
    · rename_i same
      cases same
      exact ih plain
    · rename_i empty
      cases empty

theorem behindScheme_some (found : behindScheme chars = some base) :
    ∃ front, chars = front ++ 58 :: 47 :: 47 :: base := by
  induction chars with
  | nil => cases found
  | cons char rest ih =>
    unfold behindScheme at found
    split at found
    · rename_i same
      cases same
      cases found
      exact ⟨[], rfl⟩
    · rename_i same
      cases same
      obtain ⟨front, rfl⟩ := ih found
      exact ⟨char :: front, rfl⟩
    · cases found

theorem knownScheme_eq (chars : List Byte) :
    knownScheme chars = (prefixes.find? fun entry => startsWith chars entry.1).map Prod.snd := by
  unfold knownScheme prefixes
  generalize text "stratum+tcp://" = tcp, text "stratum+ssl://" = ssl, text "socks5://" = socks,
    text "daemon+https://" = https, text "daemon+http://" = http
  by_cases first : startsWith chars tcp = true
  · simp [first]
  by_cases second : startsWith chars ssl = true
  · simp [first, second]
  by_cases third : startsWith chars socks = true
  · simp [first, second, third]
  by_cases fourth : startsWith chars https = true
  · simp [first, second, third, fourth]
  by_cases fifth : startsWith chars http = true
  · simp [first, second, third, fourth, fifth]
  · simp [first, second, third, fourth, fifth]

/-- Every prefix ends with the first `://` in it. -/
theorem prefixes_end : ∀ entry ∈ prefixes, ∃ word, entry.1 = word ++ [58, 47, 47] ∧ (58 : Byte) ∉ word.map toLower := by
  intro entry listed
  refine ⟨entry.1.dropLast.dropLast.dropLast, ?_⟩
  revert entry
  decide

theorem behindScheme_prefixed {entry : List Byte × Scheme × Bool} (listed : entry ∈ prefixes) {front : List Byte}
    (same : sameName front entry.1 = true) : behindScheme (front ++ base) = some base := by
  obtain ⟨word, ends, plain⟩ := prefixes_end entry listed
  have lowered : front.map toLower = word.map toLower ++ [58, 47, 47] := by
    rw [sameName, ends, List.map_append, decide_eq_true_eq] at same
    exact same
  obtain ⟨start, rest, rfl, first, second⟩ := List.map_eq_append_iff.mp lowered
  have colon : rest = [58, 47, 47] := by
    obtain ⟨a, rest, rfl, colon, second⟩ := List.map_eq_cons_iff.mp second
    obtain ⟨b, rest, rfl, slash, second⟩ := List.map_eq_cons_iff.mp second
    obtain ⟨c, rest, rfl, last, second⟩ := List.map_eq_cons_iff.mp second
    rw [(toLower_colon a).1.mp colon, (toLower_colon b).2.mp slash, (toLower_colon c).2.mp last,
      List.map_eq_nil_iff.mp second]
  have free : (58 : Byte) ∉ start := by
    intro member
    rw [← first] at plain
    exact plain (List.mem_map.mpr ⟨58, member, rfl⟩)
  rw [colon, List.append_assoc]
  exact behindScheme_append free

theorem Splits.base_eq {url : Url} {scheme : Scheme} {tls : Bool} (splits : Splits url chars scheme tls base) :
    base = baseOf chars := by
  cases splits with
  | bare free =>
    have plain : behindScheme chars = none := by
      cases found : behindScheme chars with
      | none => rfl
      | some base =>
        obtain ⟨front, same⟩ := behindScheme_some found
        exact absurd same (free front base)
    rw [baseOf, plain, Option.getD_none]
  | prefixed listed same => rw [baseOf, behindScheme_prefixed listed same, Option.getD_some]

theorem Splits.suffix {url : Url} {scheme : Scheme} {tls : Bool} (splits : Splits url chars scheme tls base) :
    base <:+ chars := by
  cases splits with
  | bare => exact List.suffix_rfl
  | prefixed => exact List.suffix_append _ _

end Scheme

/-! ## The host and the port -/

section Address
variable {front base chars rest : List Byte} {stop : Byte}

theorem takeWhile_ne (free : stop ∉ front) : (front ++ stop :: rest).takeWhile (· ≠ stop) = front := by
  rw [List.takeWhile_append_of_pos, List.takeWhile_cons_of_neg (by simp), List.append_nil]
  intro char member
  simp only [ne_eq, decide_not, Bool.not_eq_true', decide_eq_false_iff_not]
  rintro rfl
  exact free member

theorem dropWhile_ne (free : stop ∉ front) : (front ++ stop :: rest).dropWhile (· ≠ stop) = stop :: rest := by
  rw [List.dropWhile_append_of_pos, List.dropWhile_cons_of_neg (by simp)]
  intro char member
  simp only [ne_eq, decide_not, Bool.not_eq_true', decide_eq_false_iff_not]
  rintro rfl
  exact free member

theorem eq_of_dropWhile_ne {first : Byte} (found : base.dropWhile (· ≠ stop) = first :: rest) :
    first = stop ∧ stop ∉ base.takeWhile (· ≠ stop) ∧ base = base.takeWhile (· ≠ stop) ++ stop :: rest := by
  have same : first = stop := by
    have head := List.head?_dropWhile_not (fun char => decide (char ≠ stop)) base
    rw [found] at head
    simpa using head
  subst same
  refine ⟨rfl, fun member => ?_, ?_⟩
  · simpa using List.mem_takeWhile_imp member
  · rw [← found, List.takeWhile_append_dropWhile]

theorem not_mem_of_dropWhile_ne (none_left : base.dropWhile (· ≠ stop) = []) : stop ∉ base := by
  intro member
  have every := List.dropWhile_eq_nil_iff.mp none_left stop member
  simp at every

theorem toPort_toNat (fits : PortFits chars) : strtol chars = (toPort chars).toNat := by
  obtain ⟨low, high⟩ := fits
  rw [toPort, BitVec.toNat_ofInt]
  omega

theorem Port.fits {port : BitVec 16} (read : Port chars port) : PortFits chars := by
  have bound := port.isLt
  obtain ⟨number, positive⟩ := read
  constructor <;> omega

theorem PortFits.port (fits : PortFits chars) : Port chars (toPort chars) := by
  have number := toPort_toNat fits
  refine ⟨number, ?_⟩
  have positive := fits.1
  omega

theorem Addressed.portsFit {default port : BitVec 16} {host : List Byte}
    (addressed : Addressed default base host port) : PortsFit base := by
  cases addressed with
  | ipv6 free read =>
    have bracket : (93 : Byte) ∉ 91 :: host := by
      rw [List.mem_cons, not_or]
      exact ⟨by decide, free⟩
    rw [PortsFit, if_pos (by rfl)]
    exact ⟨_, @dropWhile_ne (91 :: _) _ 93 bracket, read.fits⟩
  | alone other free =>
    rw [PortsFit, if_neg other]
    intro chars found
    obtain ⟨-, -, same⟩ := eq_of_dropWhile_ne found
    exact absurd (by rw [same]; simp) free
  | withPort other free read =>
    rw [PortsFit, if_neg]
    · intro chars found
      rw [dropWhile_ne free] at found
      cases found
      exact read.fits
    · cases host with
      | nil => exact fun same => absurd (Option.some.inj same) (by decide)
      | cons char host => exact other

theorem parseIPv6_addressed {url : Url} (bracket : base.head? = some 91) (fits : PortsFit base) :
    ∃ host, (parseIPv6 url base).1.host = some host ∧ Addressed url.port base host (parseIPv6 url base).1.port := by
  rw [PortsFit, if_pos bracket] at fits
  obtain ⟨chars, found, fit⟩ := fits
  obtain ⟨-, free, same⟩ := eq_of_dropWhile_ne found
  have behind : (93 :: 58 :: chars : List Byte).dropWhile (· ≠ 58) = 58 :: chars := rfl
  have result : (parseIPv6 url base).1 =
      { url with host := some ((base.takeWhile (· ≠ 93)).drop 1), port := toPort chars } := by
    rw [parseIPv6, found, behind]
  refine ⟨(base.takeWhile (· ≠ 93)).drop 1, by rw [result], ?_⟩
  obtain ⟨rest, whole⟩ : ∃ rest, base.takeWhile (· ≠ 93) = 91 :: rest := by
    obtain ⟨rest, rfl⟩ := List.head?_eq_some_iff.mp bracket
    exact ⟨_, List.takeWhile_cons_of_pos (by decide)⟩
  rw [result, whole, List.drop_one, List.tail_cons]
  rw [whole, List.mem_cons, not_or] at free
  rw [whole, List.cons_append] at same
  rw [same]
  exact .ipv6 free.2 fit.port

theorem parseHost_addressed {url : Url} (other : base.head? ≠ some 91) (fits : PortsFit base) :
    ∃ host, (parseHost url base).host = some host ∧ Addressed url.port base host (parseHost url base).port := by
  rw [PortsFit, if_neg other] at fits
  cases found : base.dropWhile (· ≠ 58) with
  | nil =>
    have result : parseHost url base = { url with host := some base } := by
      rw [parseHost, found]
    rw [result]
    exact ⟨base, rfl, .alone other (not_mem_of_dropWhile_ne found)⟩
  | cons first chars =>
    obtain ⟨rfl, free, same⟩ := eq_of_dropWhile_ne found
    have result : parseHost url base = { url with host := some (base.takeWhile (· ≠ 58)), port := toPort chars } := by
      rw [parseHost, found]
    refine ⟨base.takeWhile (· ≠ 58), by rw [result], ?_⟩
    have front : (base.takeWhile (· ≠ 58)).head? ≠ some 91 := by
      intro bracket
      obtain ⟨rest, whole⟩ := List.head?_eq_some_iff.mp bracket
      rw [whole] at same
      exact other (by rw [same]; rfl)
    have joined : Addressed url.port (base.takeWhile (· ≠ 58) ++ 58 :: chars) (base.takeWhile (· ≠ 58)) (toPort chars) :=
      .withPort front free (fits chars found).port
    rw [← same] at joined
    rw [result]
    exact joined

theorem parseBase_addressed {url : Url} (accepted : (parseBase url chars base).2 = true) (fits : PortsFit base) :
    ∃ host, (parseBase url chars base).1.host = some host ∧
      Addressed url.port base host (parseBase url chars base).1.port := by
  revert accepted
  unfold parseBase
  split
  · exact nofun
  · exact nofun
  · exact fun _ => parseIPv6_addressed rfl fits
  · rename_i bracket
    intro _
    apply parseHost_addressed ?_ fits
    intro head
    obtain ⟨rest, same⟩ := List.head?_eq_some_iff.mp head
    exact bracket rest same

theorem parseBase_scheme (url : Url) (chars base : List Byte) :
    (parseBase url chars base).1.scheme = url.scheme ∧ (parseBase url chars base).1.tls = url.tls := by
  unfold parseBase
  split
  · exact ⟨rfl, rfl⟩
  · exact ⟨rfl, rfl⟩
  · unfold parseIPv6
    split <;> exact ⟨rfl, rfl⟩
  · unfold parseHost
    split <;> exact ⟨rfl, rfl⟩

end Address

/-! ## Accepted texts -/

section Accepted
variable {url : Url} {chars : List Byte}

theorem parse_accepted (accepted : url.answer (some chars) = true) :
    ∃ scheme tls, Splits url chars scheme tls (baseOf chars) ∧
      (parseBase { url with scheme, tls } chars (baseOf chars)).2 = true ∧
      url.parse (some chars) = (parseBase { url with scheme, tls } chars (baseOf chars)).1 := by
  unfold answer parseText at accepted
  unfold parse parseText
  cases found : behindScheme chars with
  | none =>
    simp only [found] at accepted ⊢
    refine ⟨url.scheme, url.tls, ?_, ?_, ?_⟩
    · rw [baseOf, found]
      exact .bare (behindScheme_none found)
    · rw [baseOf, found]
      exact accepted
    · rw [baseOf, found, Option.getD_none]
  | some base =>
    obtain ⟨⟨scheme, tls⟩, known⟩ : ∃ meaning, knownScheme chars = some meaning := by
      cases known : knownScheme chars with
      | none =>
        simp only [found, known] at accepted
        cases accepted
      | some meaning => exact ⟨meaning, rfl⟩
    simp only [found, known] at accepted ⊢
    have entry := known
    rw [knownScheme_eq, Option.map_eq_some_iff] at entry
    obtain ⟨⟨literal, meaning⟩, listed, rfl⟩ := entry
    have member := List.mem_of_find?_eq_some listed
    have starts : sameName (chars.take literal.length) literal = true := by
      simpa [startsWith] using List.find?_some listed
    have whole : chars = chars.take literal.length ++ chars.drop literal.length := (List.take_append_drop _ _).symm
    have same : baseOf chars = chars.drop literal.length := by
      rw [baseOf, whole, behindScheme_prefixed member starts, Option.getD_some, ← whole]
    refine ⟨scheme, tls, ?_, ?_, ?_⟩
    · rw [same]
      conv =>
        arg 2
        rw [whole]
      exact .prefixed member starts
    · rw [baseOf, found]
      exact accepted
    · rw [baseOf, found, Option.getD_some]

/-- An accepted text is taken over faithfully exactly if its port, where it has one, is a number
that fits, directly behind the bracket where there is one. -/
theorem faithful_iff_ports (accepted : url.answer (some chars) = true) :
    Faithful url (url.parse (some chars)) chars ↔ PortsFit (baseOf chars) := by
  constructor
  · rintro ⟨base, host, splits, -, addressed⟩
    rw [← splits.base_eq]
    exact addressed.portsFit
  · intro fits
    obtain ⟨scheme, tls, splits, taken, result⟩ := @parse_accepted url chars accepted
    obtain ⟨host, named, addressed⟩ := @parseBase_addressed (baseOf chars) chars { url with scheme, tls } taken fits
    have kept := parseBase_scheme { url with scheme, tls } chars (baseOf chars)
    refine ⟨baseOf chars, host, ?_, ?_, ?_⟩
    · rw [result, kept.1, kept.2]
      exact splits
    · rw [result]
      exact named
    · rw [result]
      exact addressed

end Accepted

/-! ## Refused texts -/

section Refused
variable {url : Url} {chars base : List Byte}

theorem parseBase_refused (refused : (parseBase url chars base).2 = false) :
    (parseBase url chars base).1 = if base.head? = some 91 then { url with url := some chars } else url := by
  revert refused
  unfold parseBase
  split
  · exact fun _ => rfl
  · exact fun _ => rfl
  · rename_i rest
    rw [if_pos (by rfl), parseIPv6]
    split
    · exact fun _ => rfl
    · exact nofun
  · exact nofun

theorem withText_iff {bracket : Prop} [Decidable bracket] :
    (if bracket then { url with url := some chars } else url) = url ↔ (bracket → url.url = some chars) := by
  split
  · rename_i holds
    obtain ⟨tls, scheme, host, text, port⟩ := url
    simp [holds, eq_comm]
  · rename_i fails
    exact iff_of_true rfl fun holds => absurd holds fails

theorem untouched_iff (refused : url.answer (some chars) = false) : url.parse (some chars) = url ↔ Untouched url chars := by
  unfold answer parseText at refused
  unfold parse parseText Untouched
  cases found : behindScheme chars with
  | none =>
    simp only [found] at refused ⊢
    rw [parseBase_refused refused]
    exact withText_iff
  | some base =>
    cases known : knownScheme chars with
    | none => simp only [found, known]
    | some meaning =>
      simp only [found, known] at refused ⊢
      rw [parseBase_refused refused]
      obtain ⟨tls, scheme, host, text, port⟩ := url
      obtain ⟨newScheme, newTls⟩ := meaning
      by_cases bracket : base.head? = some 91
      · rw [if_pos bracket, Url.mk.injEq, Prod.mk.injEq]
        grind
      · rw [if_neg bracket, Url.mk.injEq, Prod.mk.injEq]
        grind

theorem parse_refused (refused : url.answer (some chars) = false) :
    (url.parse (some chars)).host = url.host ∧ (url.parse (some chars)).port = url.port := by
  unfold answer parseText at refused
  unfold parse parseText
  cases found : behindScheme chars with
  | none =>
    simp only [found] at refused ⊢
    rw [parseBase_refused refused]
    split <;> exact ⟨rfl, rfl⟩
  | some base =>
    cases known : knownScheme chars with
    | none => simp only [found, known, and_self]
    | some meaning =>
      simp only [found, known] at refused ⊢
      rw [parseBase_refused refused]
      split <;> exact ⟨rfl, rfl⟩

theorem isValid_refused (refused : url.answer (some chars) = false) : (url.parse (some chars)).isValid = url.isValid := by
  obtain ⟨host, port⟩ := @parse_refused url chars refused
  rw [isValid, host, port, isValid]

end Refused

/-! ## Printed urls -/

section Printed
variable {host : List Byte} {port : BitVec 16}

theorem foldl_digitChar {digits : List Nat} (valid : ∀ digit ∈ digits, digit < 10) (start : Nat) :
    (digits.map digitChar).foldl (fun (value : Int) (char : Byte) => value * 10 + (char.toNat - 48)) start =
      (digits.foldl (fun value digit => value * 10 + digit) start : Nat) := by
  have single : ∀ digit < 10, (digitChar digit).toNat = 48 + digit := by decide
  induction digits generalizing start with
  | nil => rfl
  | cons digit digits ih =>
    rw [List.forall_mem_cons] at valid
    rw [List.map_cons, List.foldl_cons, List.foldl_cons, ← ih valid.2]
    congr 1
    rw [single digit valid.1]
    omega

theorem isDigit_of_mem {number : Nat} {char : Byte} (member : char ∈ writeDigits 10 number) : isDigit char = true := by
  have every : ∀ digit < 10, isDigit (digitChar digit) = true := by decide
  obtain ⟨digit, small, rfl⟩ := mem_writeDigits (by decide) member
  exact every digit small

theorem decimal_writeDigits (number : Nat) : decimal (writeDigits 10 number) = number := by
  rw [decimal, List.takeWhile_eq_self_iff.mpr fun char member => isDigit_of_mem member, writeDigits]
  split
  · rename_i zero
    rw [zero]
    rfl
  · rw [← Int.natCast_zero, foldl_digitChar, foldl_digits, Nat.ofDigits_digits]
    intro digit member
    exact Nat.digits_lt_base (by decide) (List.mem_reverse.mp member)

theorem digit_plain : ∀ char : Byte, isDigit char = true →
    isBlank char = false ∧ char ≠ 45 ∧ char ≠ 43 ∧ char ≠ 47 ∧ char ≠ 58 ∧ char ≠ 93 := by
  decide

theorem toPort_writeDigits (port : BitVec 16) : toPort (writeDigits 10 port.toNat) = port := by
  have bound := port.isLt
  have number : strtol (writeDigits 10 port.toNat) = port.toNat := by
    obtain ⟨first, rest, written⟩ := List.exists_cons_of_ne_nil (@writeDigits_ne_nil 10 port.toNat)
    obtain ⟨blank, minus, plus, -⟩ := digit_plain first (isDigit_of_mem (by rw [written]; exact List.mem_cons_self))
    have value := decimal_writeDigits port.toNat
    rw [strtol, written, List.dropWhile_cons_of_neg (by simp [blank])]
    rw [written] at value
    split
    · rename_i same
      exact absurd (List.cons.inj same).1 minus
    · rename_i same
      exact absurd (List.cons.inj same).1 plus
    · rw [value]
      omega
  rw [toPort, number]
  apply BitVec.eq_of_toNat_eq
  rw [BitVec.toNat_ofInt]
  omega

theorem not_mem_writeDigits {char : Byte} (other : isDigit char = false) (number : Nat) :
    char ∉ writeDigits 10 number := by
  intro member
  rw [isDigit_of_mem member] at other
  cases other

/-- The only colon of a printed url is the one in front of the port. -/
theorem behindScheme_printed (free : 58 ∉ host) : behindScheme (host ++ 58 :: writeDigits 10 port.toNat) = none := by
  cases found : behindScheme (host ++ 58 :: writeDigits 10 port.toNat) with
  | none => rfl
  | some base =>
    obtain ⟨front, same⟩ := behindScheme_some found
    have slash : (47 : Byte) ∈ writeDigits 10 port.toNat := by
      rcases List.append_eq_append_iff.mp same with ⟨middle, -, rest⟩ | ⟨middle, before, rest⟩
      · have member : (47 : Byte) ∈ 58 :: writeDigits 10 port.toNat := by
          rw [rest]
          simp
        exact (List.mem_cons.mp member).resolve_left (by decide)
      · cases middle with
        | nil =>
          rw [← (List.cons.inj rest).2]
          exact List.mem_cons_self
        | cons char middle =>
          rw [← (List.cons.inj rest).1] at before
          exact absurd (by rw [before]; simp) free
    exact absurd slash (not_mem_writeDigits (by decide) _)

/-- The host of an accepted base: the part in front of a bracket, or a name without a colon. -/
theorem parseBase_host {url : Url} {chars base : List Byte} (accepted : (parseBase url chars base).2 = true) :
    ∃ host, (parseBase url chars base).1.host = some host ∧
      ((93 ∈ base ∧ 93 ∉ host) ∨ (base.head? ≠ some 47 ∧ base.head? ≠ some 91 ∧ 58 ∉ host)) := by
  revert accepted
  unfold parseBase
  split
  · exact nofun
  · exact nofun
  · rename_i rest
    unfold parseIPv6
    split
    · exact nofun
    · rename_i first chars found
      intro _
      refine ⟨_, rfl, .inl ⟨?_, ?_⟩⟩
      · cases bracket : (91#8 :: rest).dropWhile (· ≠ 93) with
        | nil =>
          rw [bracket] at found
          cases found
        | cons first chars =>
          obtain ⟨-, -, same⟩ := eq_of_dropWhile_ne bracket
          rw [same]
          simp
      · intro member
        simpa using List.mem_takeWhile_imp (List.mem_of_mem_drop member)
  · rename_i empty slash bracket
    intro _
    have head (char : Byte) (other : ∀ rest, base ≠ char :: rest) : base.head? ≠ some char := by
      intro same
      obtain ⟨rest, whole⟩ := List.head?_eq_some_iff.mp same
      exact other rest whole
    unfold parseHost
    split
    · rename_i alone
      exact ⟨base, rfl, .inr ⟨head 47 slash, head 91 bracket, not_mem_of_dropWhile_ne alone⟩⟩
    · rename_i first chars found
      exact ⟨_, rfl, .inr ⟨head 47 slash, head 91 bracket, (eq_of_dropWhile_ne found).2.1⟩⟩

theorem head?_printed (nonempty : host ≠ []) (digits : List Byte) : (host ++ 58 :: digits).head? = host.head? := by
  obtain ⟨char, rest, rfl⟩ := List.exists_cons_of_ne_nil nonempty
  rfl

theorem parse_ofHost (nonempty : host ≠ []) (free : 58 ∉ host) (slash : host.head? ≠ some 47)
    (bracket : host.head? ≠ some 91) (tls : Bool) (scheme : Scheme) :
    empty.parse (ofHost host port tls scheme).url =
      { host := some host, url := (ofHost host port tls scheme).url, port } := by
  have whole := @behindScheme_printed host port free
  rw [← head?_printed nonempty (writeDigits 10 port.toNat)] at slash bracket
  have named : (parseBase empty (host ++ 58 :: writeDigits 10 port.toNat) (host ++ 58 :: writeDigits 10 port.toNat)).1 =
      parseHost { empty with url := some (host ++ 58 :: writeDigits 10 port.toNat) }
        (host ++ 58 :: writeDigits 10 port.toNat) := by
    unfold parseBase
    split
    · rename_i same
      exact absurd same (by simp)
    · rename_i same
      rw [same] at slash
      exact absurd rfl slash
    · rename_i same
      rw [same] at bracket
      exact absurd rfl bracket
    · rfl
  rw [ofHost, parse, parseText]
  simp only [whole]
  rw [named, parseHost, takeWhile_ne free]
  simp only [dropWhile_ne free, toPort_writeDigits]
  rfl

/-- A printed url is parsed to its host and port exactly if the host is a plain name. -/
theorem parse_ofHost_iff (nonempty : host ≠ []) (tls : Bool) (scheme : Scheme) :
    ((empty.parse (ofHost host port tls scheme).url).host = some host ∧
      (empty.parse (ofHost host port tls scheme).url).port = port) ↔
      58 ∉ host ∧ host.head? ≠ some 47 ∧ host.head? ≠ some 91 := by
  constructor
  · rintro ⟨named, -⟩
    cases accepted : empty.answer (ofHost host port tls scheme).url with
    | false =>
      rw [ofHost] at named accepted
      rw [(parse_refused accepted).1] at named
      cases named
    | true =>
      rw [ofHost] at named accepted
      obtain ⟨scheme', tls', splits, taken, result⟩ := @parse_accepted empty _ accepted
      obtain ⟨parsed, found, kind⟩ := @parseBase_host { empty with scheme := scheme', tls := tls' }
        (host ++ 58 :: writeDigits 10 port.toNat) _ taken
      rw [result, found] at named
      cases named
      rcases kind with ⟨bracket, outside⟩ | ⟨slash, bracket, free⟩
      · -- the bracket that ended the host is in the text, but in no part of it
        have inText : (93 : Byte) ∈ host ++ 58 :: writeDigits 10 port.toNat := splits.suffix.subset bracket
        rcases List.mem_append.mp inText with inHost | behind
        · exact absurd inHost outside
        · rcases List.mem_cons.mp behind with colon | digit
          · cases colon
          · exact absurd digit (not_mem_writeDigits (by decide) _)
      · rw [baseOf, behindScheme_printed free, Option.getD_none, head?_printed nonempty] at slash bracket
        exact ⟨free, slash, bracket⟩
  · rintro ⟨free, slash, bracket⟩
    rw [parse_ofHost nonempty free slash bracket]
    exact ⟨rfl, rfl⟩

end Printed

/-- A text that is accepted is taken over faithfully exactly if its port fits; one that is refused
leaves the url exactly if nothing was written before, and always its validity; and a printed url is
parsed again exactly if its host has no colon and no bracket or slash in front. -/
theorem parse_iff (url : Url) (chars : List Byte) {host : List Byte} (nonempty : host ≠ []) (port : BitVec 16)
    (tls : Bool) (scheme : Scheme) :
    (url.answer (some chars) = true → (Faithful url (url.parse (some chars)) chars ↔ PortsFit (baseOf chars))) ∧
    (url.answer (some chars) = false → (url.parse (some chars) = url ↔ Untouched url chars) ∧
      (url.parse (some chars)).isValid = url.isValid) ∧
    (url.parse none = url ∧ url.answer none = false) ∧
    (((empty.parse (ofHost host port tls scheme).url).host = some host ∧
      (empty.parse (ofHost host port tls scheme).url).port = port) ↔
      58 ∉ host ∧ host.head? ≠ some 47 ∧ host.head? ≠ some 91) :=
  ⟨faithful_iff_ports, fun refused => ⟨untouched_iff refused, isValid_refused refused⟩, ⟨rfl, rfl⟩,
    parse_ofHost_iff nonempty tls scheme⟩

/-- A name with a port, with a scheme in front. -/
theorem parse_iff_plain :
    Faithful empty (empty.parse (some (text "SOCKS5://ab:80"))) (text "SOCKS5://ab:80") ∧
      (empty.parse (ofHost (text "ab") 80 false .stratum).url).host = some (text "ab") := by
  obtain ⟨taken, -, -, again⟩ := @parse_iff empty (text "SOCKS5://ab:80") (text "ab") (by simp [text]) 80 false .stratum
  have base : baseOf (text "SOCKS5://ab:80") = text "ab" ++ 58 :: text "80" := by decide
  refine ⟨(taken (by decide)).mpr ?_, (again.mpr (by decide)).1⟩
  rw [base, PortsFit, if_neg (by decide)]
  intro chars found
  rw [dropWhile_ne (by decide)] at found
  rw [← (List.cons.inj found).2]
  decide

/-- A port that is narrowed to another one, a scheme that is kept from a refused text, and an
address with colons that does not come back. -/
theorem parse_unfaithful :
    empty.answer (some (text "ab:65616")) = true ∧ (empty.parse (some (text "ab:65616"))).port = 80 ∧
      ¬Faithful empty (empty.parse (some (text "ab:65616"))) (text "ab:65616") ∧
      empty.answer (some (text "socks5://")) = false ∧ empty.parse (some (text "socks5://")) ≠ empty ∧
      (empty.parse (ofHost (text "::1") 80 false .stratum).url).host ≠ some (text "::1") := by
  have accepted : empty.answer (some (text "ab:65616")) = true := by decide
  refine ⟨accepted, by decide, fun faithful => ?_, by decide⟩
  have fits := (faithful_iff_ports accepted).mp faithful
  rw [PortsFit, if_neg (by decide)] at fits
  exact absurd (fits (text "65616") (by decide)) (by decide)

end Xmrig.Url
