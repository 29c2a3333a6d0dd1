import Xmrig.Base.Coin
import Xmrig.Cryptonote.AddressFields

/-! What a wallet address says of itself after `decode`.

Callers keep one object and ask `isValid` instead of looking at the result, and they hand
`data()` on as the address that was decoded.
-/

set_option autoImplicit false

namespace Xmrig.Cryptonote.WalletAddress

def isValid (wallet : WalletAddress) : Bool := 0 < wallet.tag ∧ kMinSize ≤ wallet.data.length

/-- The coins of the tags in `tagInfo`. -/
def tags : List (BitVec 64 × Coin) :=
  [(0x12, .monero), (0x13, .monero), (0x2a, .monero),
   (0x35, .monero), (0x36, .monero), (0x3f, .monero),
   (0x18, .monero), (0x19, .monero), (0x24, .monero),
   (0x2bb39a, .sumo), (0x29339a, .sumo), (0x8319a, .sumo),
   (0x37751a, .sumo), (0x34f51a, .sumo), (0x1d351a, .sumo),
   (0x2cca, .arqma), (0x116bc7, .arqma), (0x6847, .arqma),
   (0x53ca, .arqma), (0x504a, .arqma), (0x524a, .arqma),
   (0x39ca, .arqma), (0x1742ca, .arqma), (0x1d84ca, .arqma),
   (0x1032, .wownero), (0x1a9a, .wownero), (0x2fb0, .wownero),
   (0x5a, .graft), (0x5b, .graft), (0x66, .graft),
   (0x54, .graft), (0x55, .graft), (0x70, .graft),
   (0x424200, .townforge), (0x424201, .townforge),
   (0x424210, .townforge), (0x424211, .townforge),
   (0x424220, .townforge), (0x424221, .townforge)]

def coin (wallet : WalletAddress) : Coin :=
  ((tags.find? (·.1 = wallet.tag)).map Prod.snd).getD .invalid

section Validity
variable (keccak : List Byte → List Byte)

/-- A wallet that `decode` has returned with is valid if it returned true, and then it depends on
the address alone and `data` is decoded to the same again. -/
structure Faithful (wallet : WalletAddress) (address : List Byte) : Prop where
  valid : ∀ accepted after, wallet.decode keccak address = some (accepted, after) → after.isValid = accepted
  fresh : ∀ after, wallet.decode keccak address = some (true, after) →
    ∀ other : WalletAddress, other.decode keccak address = some (true, after)
  again : ∀ after, wallet.decode keccak address = some (true, after) →
    ∃ twice, after.decode keccak after.data = some (true, twice) ∧ twice.tag = after.tag ∧
      twice.publicSpendKey = after.publicSpendKey ∧ twice.publicViewKey = after.publicViewKey ∧
      twice.coin = after.coin

def keysOf (body : List Byte) : Option (List Byte × List Byte) :=
  ((decodeData body).toOption.bind (fieldsOf keccak)).map fun fields => (fields.2.1, fields.2.2.1)

/-- What is left behind a prefix is an address of the same tag: its own tag is that of the prefix,
or there is the same prefix once more, and behind it the same keys. -/
def SameBehind (tfTag : BitVec 64) (body : List Byte) (tag : BitVec 64) (spend view : List Byte) : Prop :=
  match strip body with
  | none => False
  | some (next, inner) =>
    if next = 0 then tag = tfTag else next = tfTag ∧ keysOf keccak inner = some (spend, view)

/-- A refusal in front of the first field finds an object that was not valid. An accepted address
has a tag other than zero, or a prefix with the same address behind it. -/
def FaithfulWhen (wallet : WalletAddress) (address : List Byte) : Prop :=
  match strip address with
  | none => wallet.isValid = false
  | some (tfTag, body) =>
    match decodeData body with
    | .error .fault => True
    | .error .rejected => wallet.isValid = false
    | .ok data =>
      match fieldsOf keccak data with
      | none => True
      | some (tag, spend, view, _) => if tfTag = 0 then tag ≠ 0 else SameBehind keccak tfTag body tag spend view

end Validity

section Proofs
variable {keccak : List Byte → List Byte} {wallet after : WalletAddress} {address body data : List Byte}

theorem isValid_zero (zero : wallet.tag = 0) : wallet.isValid = false := by
  unfold isValid
  rw [zero]
  rfl

theorem isValid_iff (long : kMinSize ≤ wallet.data.length) : wallet.isValid = true ↔ wallet.tag ≠ 0 := by
  unfold isValid
  rw [decide_eq_true_iff]
  constructor
  · rintro ⟨positive, -⟩ zero
    rw [zero] at positive
    exact absurd positive (by decide)
  · intro other
    refine ⟨?_, long⟩
    rw [BitVec.lt_def]
    exact Nat.pos_of_ne_zero fun zero => other (BitVec.eq_of_toNat_eq zero)

theorem decodeData_long (decoded : decodeData body = .ok data) : kMinSize ≤ body.length := by
  unfold decodeData at decoded
  dsimp only at decoded
  split at decoded
  · cases decoded
  · rename_i sized
    omega

theorem tfTag_ne_zero {network kind : Byte} {tag : BitVec 64} (found : tfTag network kind = some tag) : tag ≠ 0 := by
  unfold tfTag at found
  obtain ⟨low, first, second⟩ := Option.bind_eq_some_iff.mp found
  obtain ⟨high, -, rfl⟩ := Option.map_eq_some_iff.mp second
  intro zero
  -- bit 9 of the base of the tags
  have bit := congrArg (fun word => word.getLsbD 9) zero
  simp at bit

theorem strip_zero (stripped : strip address = some (0, body)) : body = address := by
  unfold strip at stripped
  split at stripped
  · obtain ⟨tag, found, made⟩ := Option.map_eq_some_iff.mp stripped
    cases made
    exact absurd rfl (tfTag_ne_zero found)
  · cases stripped
    rfl

theorem keysOf_some {spend view : List Byte} : keysOf keccak body = some (spend, view) ↔
    ∃ data tag checksum, decodeData body = .ok data ∧ fieldsOf keccak data = some (tag, spend, view, checksum) := by
  unfold keysOf
  constructor
  · intro found
    obtain ⟨⟨tag, spent, viewed, checksum⟩, fields, made⟩ := Option.map_eq_some_iff.mp found
    cases made
    obtain ⟨data, decoded, fields⟩ := Option.bind_eq_some_iff.mp fields
    cases outcome : decodeData body with
    | error why => rw [outcome] at decoded; cases decoded
    | ok bytes =>
      rw [outcome] at decoded
      cases decoded
      exact ⟨data, tag, checksum, rfl, fields⟩
  · rintro ⟨data, tag, checksum, decoded, fields⟩
    rw [decoded]
    change Option.map _ (fieldsOf keccak data) = _
    rw [fields]
    rfl

theorem sameBehind_iff {tfTag tag : BitVec 64} {spend view checksum : List Byte} (marked : tfTag ≠ 0)
    (decoded : decodeData body = .ok data) (fields : fieldsOf keccak data = some (tag, spend, view, checksum)) :
    SameBehind keccak tfTag body tag spend view ↔
      ∃ twice, wallet.decode keccak body = some (true, twice) ∧ twice.tag = tfTag ∧
        twice.publicSpendKey = spend ∧ twice.publicViewKey = view := by
  unfold SameBehind
  constructor
  · intro same
    cases stripped : strip body with
    | none => rw [stripped] at same; exact same.elim
    | some found =>
      obtain ⟨next, inner⟩ := found
      rw [stripped] at same
      dsimp only at same
      by_cases plain : next = 0
      · rw [if_pos plain] at same
        subst plain
        obtain rfl := strip_zero stripped
        refine ⟨_, decode_accepts.mpr ⟨0, inner, data, tag, spend, view, checksum, stripped, decoded, fields, rfl⟩,
          ?_, rfl, rfl⟩
        exact same
      · rw [if_neg plain] at same
        obtain ⟨rfl, keys⟩ := same
        obtain ⟨data', tag', checksum', decoded', fields'⟩ := keysOf_some.mp keys
        refine ⟨_, decode_accepts.mpr ⟨next, inner, data', tag', spend, view, checksum', stripped, decoded', fields', rfl⟩,
          ?_, rfl, rfl⟩
        exact if_pos plain
  · rintro ⟨twice, accepted, tags, spent, viewed⟩
    obtain ⟨next, inner, data', tag', spend', view', checksum', stripped, decoded', fields', rfl⟩ :=
      decode_accepts.mp accepted
    dsimp only at tags spent viewed
    subst spent viewed
    rw [stripped]
    dsimp only
    by_cases plain : next = 0
    · subst plain
      obtain rfl := strip_zero stripped
      rw [decoded] at decoded'
      cases decoded'
      rw [fields] at fields'
      cases fields'
      rw [if_pos rfl]
      rw [if_neg (not_not.mpr rfl)] at tags
      exact tags
    · rw [if_neg plain]
      rw [if_pos plain] at tags
      exact ⟨tags, keysOf_some.mpr ⟨data', tag', checksum', decoded', fields'⟩⟩

/-- `decode` reports faithfully exactly if it does not refuse early over a valid object, and what it
accepts has a tag that `data` keeps. -/
theorem decode_faithful_iff (keccak : List Byte → List Byte) (wallet : WalletAddress) (address : List Byte) :
    Faithful keccak wallet address ↔ FaithfulWhen keccak wallet address := by
  unfold FaithfulWhen
  cases stripped : strip address with
  | none =>
    have result : wallet.decode keccak address = some (false, wallet) := by
      rw [decode_eq, stripped]
    dsimp only
    constructor
    · intro faithful
      exact faithful.valid false wallet result
    · intro invalid
      refine ⟨fun accepted after done => ?_, fun after done => ?_, fun after done => ?_⟩ <;>
        rw [result] at done <;> cases done
      exact invalid
  | some found =>
    obtain ⟨tfTag, body⟩ := found
    dsimp only
    cases decoded : decodeData body with
    | error why =>
      cases why with
      | fault =>
        have result : wallet.decode keccak address = none := decode_none.mpr ⟨tfTag, body, stripped, decoded⟩
        dsimp only
        refine iff_of_true ⟨fun accepted after done => ?_, fun after done => ?_, fun after done => ?_⟩ trivial <;>
          rw [result] at done <;> cases done
      | rejected =>
        have result : wallet.decode keccak address = some (false, wallet) := by
          rw [decode_eq, stripped]
          dsimp only
          unfold decodePlain
          rw [decoded]
        dsimp only
        constructor
        · intro faithful
          exact faithful.valid false wallet result
        · intro invalid
          refine ⟨fun accepted after done => ?_, fun after done => ?_, fun after done => ?_⟩ <;>
            rw [result] at done <;> cases done
          exact invalid
    | ok data =>
      dsimp only
      have made := @decodePlain_ok keccak wallet tfTag data body decoded
      cases fields : fieldsOf keccak data with
      | none =>
        rw [fields] at made
        obtain ⟨refused, done', zero⟩ := made
        have result : wallet.decode keccak address = some (false, refused) := by
          rw [decode_eq, stripped]
          exact done'
        refine iff_of_true ⟨fun accepted after done => ?_, fun after done => ?_, fun after done => ?_⟩ trivial <;>
          rw [result] at done <;> cases done
        exact isValid_zero zero
      | some found =>
        obtain ⟨tag, spend, view, checksum⟩ := found
        dsimp only
        have result (other : WalletAddress) : other.decode keccak address =
            some (true, ⟨body, if tfTag ≠ 0 then tfTag else tag, checksum, spend, view⟩) :=
          decode_accepts.mpr ⟨tfTag, body, data, tag, spend, view, checksum, stripped, decoded, fields, rfl⟩
        have long := decodeData_long decoded
        by_cases plain : tfTag = 0
        · subst plain
          obtain rfl := strip_zero stripped
          rw [if_pos rfl]
          rw [if_neg (not_not.mpr rfl)] at result
          have valid : (⟨body, tag, checksum, spend, view⟩ : WalletAddress).isValid = true ↔ tag ≠ 0 := isValid_iff long
          constructor
          · intro faithful
            exact valid.mp (faithful.valid true _ (result wallet))
          · intro other
            refine ⟨fun accepted after done => ?_, fun after done => ?_, fun after done => ?_⟩ <;>
              rw [result] at done <;> cases done
            · exact valid.mpr other
            · exact result
            · exact ⟨_, result _, rfl, rfl, rfl, rfl⟩
        · rw [if_neg plain]
          rw [if_pos plain] at result
          have valid : (⟨body, tfTag, checksum, spend, view⟩ : WalletAddress).isValid = true := (isValid_iff long).mpr plain
          have twice := @sameBehind_iff keccak ⟨body, tfTag, checksum, spend, view⟩ body data tfTag tag spend view
            checksum plain decoded fields
          rw [twice]
          constructor
          · intro faithful
            obtain ⟨again, accepted, tags, spent, viewed, -⟩ := faithful.again _ (result wallet)
            exact ⟨again, accepted, tags, spent, viewed⟩
          · rintro ⟨again, accepted, tags, spent, viewed⟩
            refine ⟨fun accepted after done => ?_, fun after done => ?_, fun after done => ?_⟩ <;>
              rw [result] at done <;> cases done
            · exact valid
            · exact result
            · refine ⟨again, accepted, tags, spent, viewed, ?_⟩
              unfold coin
              rw [tags]

/-- An object that has held a valid address stays valid when a text is refused. -/
theorem decode_not_faithful :
    ∃ held : WalletAddress, ({} : WalletAddress).decode sampleKeccak (sampleAddress ownBlock) = some (true, held) ∧
      held.decode sampleKeccak [] = some (false, held) ∧ held.isValid = true ∧ ¬Faithful sampleKeccak held [] := by
  have accepted : (({} : WalletAddress).decode sampleKeccak (sampleAddress ownBlock)).map
      (fun result => (result.1, result.2.isValid)) = some (true, true) := by
    decide
  obtain ⟨⟨_, held⟩, decoded, same⟩ := Option.map_eq_some_iff.mp accepted
  obtain ⟨rfl, valid⟩ := Prod.mk.inj same
  have refused : held.decode sampleKeccak [] = some (false, held) := rfl
  refine ⟨held, decoded, refused, valid, fun faithful => ?_⟩
  have invalid := faithful.valid false held refused
  rw [valid] at invalid
  cases invalid

end Proofs

end Xmrig.Cryptonote.WalletAddress
