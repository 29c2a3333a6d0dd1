import Xmrig.Base.Coin
import Xmrig.Base.Json

/-! Names of algorithms and coins, with the aliases that configurations use. -/

set_option autoImplicit false

namespace Xmrig

/-- `tolower` in the C locale. -/
def toLower (char : Byte) : Byte := if 65 ≤ char ∧ char ≤ 90 then char + 32 else char

/-- `strcasecmp` finds no difference. -/
def sameName (first second : List Byte) : Bool := first.map toLower = second.map toLower

namespace Algorithm

/-- `kAlgorithmNames`; the variants inside of GhostRider have no name. -/
def name : Algorithm → String
  | cn0 => "cn/0"
  | cn1 => "cn/1"
  | cn2 => "cn/2"
  | cnR => "cn/r"
  | cnFast => "cn/fast"
  | cnHalf => "cn/half"
  | cnXao => "cn/xao"
  | cnRto => "cn/rto"
  | cnRwz => "cn/rwz"
  | cnZls => "cn/zls"
  | cnDouble => "cn/double"
  | cnCcx => "cn/ccx"
  | cnLite0 => "cn-lite/0"
  | cnLite1 => "cn-lite/1"
  | cnHeavy0 => "cn-heavy/0"
  | cnHeavyTube => "cn-heavy/tube"
  | cnHeavyXhv => "cn-heavy/xhv"
  | cnPico0 => "cn-pico"
  | cnPicoTlo => "cn-pico/tlo"
  | cnUpx2 => "cn/upx2"
  | rx0 => "rx/0"
  | rxWow => "rx/wow"
  | rxArq => "rx/arq"
  | rxGraft => "rx/graft"
  | rxSfx => "rx/sfx"
  | rxYada => "rx/yada"
  | ar2Chukwa => "argon2/chukwa"
  | ar2ChukwaV2 => "argon2/chukwav2"
  | ar2Wrkz => "argon2/ninja"
  | kawpowRvn => "kawpow"
  | ghostriderRtm => "ghostrider"
  | _ => "invalid"

/-- `kAlgorithmAliases`, with `chukwav2` as the source has it. -/
def aliases : List (Algorithm × List String) :=
  [(cn0, ["cn/0", "cryptonight/0", "cryptonight", "cn"]),
    (cn1, ["cn/1", "cryptonight/1", "cryptonight-monerov7", "cryptonight_v7"]),
    (cn2, ["cn/2", "cryptonight/2", "cryptonight-monerov8", "cryptonight_v8"]),
    (cnFast, ["cn/fast", "cryptonight/fast", "cryptonight/msr", "cn/msr"]),
    (cnR, ["cn/r", "cryptonight/r", "cryptonight_r"]),
    (cnXao, ["cn/xao", "cryptonight/xao", "cryptonight_alloy"]),
    (cnHalf, ["cn/half", "cryptonight/half"]),
    (cnRto, ["cn/rto", "cryptonight/rto"]),
    (cnRwz, ["cn/rwz", "cryptonight/rwz"]),
    (cnZls, ["cn/zls", "cryptonight/zls"]),
    (cnDouble, ["cn/double", "cryptonight/double"]),
    (cnCcx, ["cn/ccx", "cryptonight/ccx", "cryptonight/conceal", "cn/conceal"]),
    (cnLite0, ["cn-lite/0", "cryptonight-lite/0", "cryptonight-lite", "cryptonight-light", "cn-lite", "cn-light",
      "cryptonight_lite"]),
    (cnLite1, ["cn-lite/1", "cryptonight-lite/1", "cryptonight-aeonv7", "cryptonight_lite_v7"]),
    (cnHeavy0, ["cn-heavy/0", "cryptonight-heavy/0", "cryptonight-heavy", "cn-heavy", "cryptonight_heavy"]),
    (cnHeavyXhv, ["cn-heavy/xhv", "cryptonight-heavy/xhv", "cryptonight_haven"]),
    (cnHeavyTube, ["cn-heavy/tube", "cryptonight-heavy/tube", "cryptonight-bittube2"]),
    (cnPico0, ["cn-pico", "cryptonight-pico", "cn-pico/0", "cryptonight-pico/trtl", "cn-pico/trtl",
      "cryptonight-turtle", "cn-trtl", "cryptonight-ultralite", "cn-ultralite", "cryptonight_turtle", "cn_turtle"]),
    (cnPicoTlo, ["cn-pico/tlo", "cryptonight-pico/tlo", "cryptonight/ultra", "cn/ultra", "cryptonight-talleo",
      "cn-talleo", "cryptonight_talleo", "cn_talleo"]),
    (cnUpx2, ["cn/upx2", "cryptonight/upx2", "cn-extremelite/upx2", "cryptonight-upx/2"]),
    (rx0, ["rx/0", "randomx/0", "randomx/test", "rx/test", "randomx", "rx"]),
    (rxWow, ["rx/wow", "randomx/wow", "randomwow"]),
    (rxArq, ["rx/arq", "randomx/arq", "randomarq"]),
    (rxGraft, ["rx/graft", "randomx/graft", "randomgraft"]),
    (rxSfx, ["rx/sfx", "randomx/sfx", "randomsfx"]),
    (rxYada, ["rx/yada", "randomx/yada", "randomyada"]),
    (ar2Chukwa, ["argon2/chukwa", "chukwa"]),
    (ar2ChukwaV2, ["argon2/chukwav2"]),
    (ar2Chukwa, ["chukwav2"]),
    (ar2Wrkz, ["argon2/ninja", "argon2/wrkz"]),
    (kawpowRvn, ["kawpow", "kawpow/rvn"]),
    (ghostriderRtm, ["ghostrider", "ghostrider/rtm", "gr"])]

def named (chars : List Byte) (entry : Algorithm × List String) : Bool :=
  entry.2.any fun other => sameName chars (text other)

/-- `Algorithm::parse`; an empty name is in no line of the table. -/
def parse (chars : Option (List Byte)) : Algorithm :=
  match chars with
  | none => invalid
  | some chars => ((aliases.find? (named chars)).map Prod.fst).getD invalid

def toJSON (algorithm : Algorithm) : Json :=
  if algorithm.isValid then .str (text algorithm.name) else .null

theorem aliases_roundTrip : ∀ entry ∈ aliases, entry.1.isValid = true ∧ parse (some (text entry.1.name)) = entry.1 := by
  decide +kernel

theorem parse_cases (chars : Option (List Byte)) :
    parse chars = invalid ∨ ∃ entry ∈ aliases, parse chars = entry.1 := by
  cases chars with
  | none => exact .inl rfl
  | some chars =>
    rcases found : aliases.find? (named chars) with _ | entry
    · exact .inl (by simp [parse, found])
    · exact .inr ⟨entry, List.mem_of_find?_eq_some found, by simp [parse, found]⟩

theorem cString_text_name (algorithm : Algorithm) : Json.cString (text algorithm.name) = text algorithm.name := by
  cases algorithm <;> decide

theorem parse_toJSON (chars : Option (List Byte)) : parse (parse chars).toJSON.asString = parse chars := by
  rcases parse_cases chars with none | ⟨entry, listed, same⟩
  · rw [none]
    rfl
  · obtain ⟨valid, again⟩ := aliases_roundTrip entry listed
    rw [same, toJSON, if_pos valid, Json.asString, cString_text_name, again]

end Algorithm

namespace Coin

/-- The second column of `coinInfo`. -/
def code : Coin → String
  | invalid => ""
  | monero => "XMR"
  | sumo => "SUMO"
  | arqma => "ARQ"
  | graft => "GRFT"
  | raven => "RVN"
  | wownero => "WOW"
  | zephyr => "ZEPH"
  | townforge => "Townforge"
  | yada => "YDA"

/-- The third column of `coinInfo`. -/
def name : Coin → String
  | invalid => ""
  | monero => "Monero"
  | sumo => "Sumokoin"
  | arqma => "ArQmA"
  | graft => "Graft"
  | raven => "Ravencoin"
  | wownero => "Wownero"
  | zephyr => "Zephyr"
  | townforge => "Townforge"
  | yada => "YadaCoin"

def known : List Coin := [monero, sumo, arqma, graft, raven, wownero, zephyr, townforge, yada]

def named (chars : List Byte) (coin : Coin) : Bool :=
  sameName chars (text coin.code) || sameName chars (text coin.name)

def parse (chars : Option (List Byte)) : Coin :=
  match chars with
  | none => invalid
  | some chars => if chars.length < 3 then invalid else (known.find? (named chars)).getD invalid

def toJSON (coin : Coin) : Json := if coin.isValid then .str (text coin.code) else .null

theorem roundTrip (coin : Coin) : parse coin.toJSON.asString = coin := by
  cases coin <;> decide

end Coin

end Xmrig
