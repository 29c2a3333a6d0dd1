import Xmrig.Cryptonote.BlobReader
import Xmrig.Foundation.Radix

/-! Decoding of wallet addresses.

An address is cut into blocks of eleven characters, each a number to the base 58, of
which eight bytes are kept; the last block may be shorter. Keccak is a parameter.
-/

set_option autoImplicit false

namespace Xmrig.Cryptonote

open Foundation

structure WalletAddress where
  data : List Byte := []
  tag : BitVec 64 := 0
  checksum : List Byte := List.replicate 4 0
  publicSpendKey : List Byte := List.replicate 32 0
  publicViewKey : List Byte := List.replicate 32 0
  deriving DecidableEq, Repr

namespace WalletAddress

def kKeySize : Nat := 32
def kMaxSize : Nat := 256
def kMinDataSize : Nat := 69
def kMinSize : Nat := 95

/-- `block_sizes`: the characters for a number of bytes. -/
def blockSizes : List Nat := [0, 2, 3, 5, 6, 7, 9, 10, 11]

def blockSize : Nat := 11

/-- `"123456789ABCDEFGHJKLMNPQRSTUVWXYZabcdefghijkmnopqrstuvwxyz"`. -/
def alphabet : List Byte :=
  [0x31, 0x32, 0x33, 0x34, 0x35, 0x36, 0x37, 0x38, 0x39,
   0x41, 0x42, 0x43, 0x44, 0x45, 0x46, 0x47, 0x48, 0x4a, 0x4b, 0x4c, 0x4d, 0x4e,
   0x50, 0x51, 0x52, 0x53, 0x54, 0x55, 0x56, 0x57, 0x58, 0x59, 0x5a,
   0x61, 0x62, 0x63, 0x64, 0x65, 0x66, 0x67, 0x68, 0x69, 0x6a, 0x6b,
   0x6d, 0x6e, 0x6f, 0x70, 0x71, 0x72, 0x73, 0x74, 0x75, 0x76, 0x77, 0x78, 0x79, 0x7a]

def alphabetSize : Nat := 58

/-- Why the blocks of an address are not decoded. A character above 0x7f is negative and
indexes `reverse_alphabet` in front of its first element. -/
inductive Refusal where
  | rejected
  | fault
  deriving DecidableEq, Repr

/-- A lookup in `reverse_alphabet`; none stands for -1. -/
def reverseAlphabet (char : Byte) : Option Nat := alphabet.findIdx? (· = char)

def digit (char : Byte) : Except Refusal Nat :=
  if 0x80 ≤ char.toNat then .error .fault
  else match reverseAlphabet char with
    | none => .error .rejected
    | some digit => .ok digit

def umul128 (a b : Nat) : Nat × Nat := (a * b % 2 ^ 64, a * b / 2 ^ 64)

def addDigit (num order digit : Nat) : Except Refusal Nat :=
  let product := umul128 order digit
  let tmp := (num + product.1) % 2 ^ 64
  if tmp < num ∨ product.2 ≠ 0 then .error .rejected else .ok tmp

/-- The loop over the characters of a block, the last character first. -/
def addDigits : (num order : Nat) → List Byte → Except Refusal Nat
  | num, _, [] => .ok num
  | num, order, char :: rest =>
    match digit char with
    | .error why => .error why
    | .ok digit =>
      match addDigit num order digit with
      | .error why => .error why
      | .ok num => addDigits num (order * alphabetSize % 2 ^ 64) rest

def decodeBlock (chars : List Byte) : Except Refusal Nat := addDigits 0 1 chars.reverse

/-- The `count` lowest bytes of a number, the highest of them first. -/
def blockBytes (count num : Nat) : List Byte := ((lowDigits 256 count num).map (BitVec.ofNat 8)).reverse

def decodeBlocks (lastBlockSizeIndex : Nat) : (numFullBlocks : Nat) → List Byte → Except Refusal (List Byte)
  | 0, address => (decodeBlock address).map (blockBytes lastBlockSizeIndex)
  | full + 1, address =>
    match decodeBlock (address.take blockSize) with
    | .error why => .error why
    | .ok num => (decodeBlocks lastBlockSizeIndex full (address.drop blockSize)).map (blockBytes 8 num ++ ·)

/-- The part of `decode` that yields the bytes. -/
def decodeData (address : List Byte) : Except Refusal (List Byte) :=
  let numFullBlocks := address.length / blockSize
  if address.length < kMinSize ∨ kMaxSize < address.length then .error .rejected
  else match blockSizes.findIdx? (· = address.length % blockSize) with
    | none => .error .rejected
    | some lastBlockSizeIndex =>
      if numFullBlocks * 8 + lastBlockSizeIndex < kMinDataSize then .error .rejected
      else decodeBlocks lastBlockSizeIndex numFullBlocks address

/-- The reads of `ar(m_tag) && ar(m_publicSpendKey) && ...`; what was read before a failure stays. -/
def readFields (wallet : WalletAddress) (data : List Byte) : Bool × WalletAddress :=
  match (BlobReader.open' 0 data.length).getVarint data with
  | .error _ => (false, wallet)
  | .ok (tag, ar) =>
    let wallet := { wallet with tag }
    match ar.array sizeT data kKeySize with
    | .error _ => (false, wallet)
    | .ok (publicSpendKey, ar) =>
      let wallet := { wallet with publicSpendKey }
      match ar.array sizeT data kKeySize with
      | .error _ => (false, wallet)
      | .ok (publicViewKey, ar) =>
        let wallet := { wallet with publicViewKey }
        match ar.skip sizeT (sizeT (ar.remaining + 2 ^ 64 - 4)) with
        | .error _ => (false, wallet)
        | .ok (_, ar) =>
          match ar.array sizeT data 4 with
          | .error _ => (false, wallet)
          | .ok (checksum, _) => (true, { wallet with checksum })

def tfTag (network kind : Byte) : Option (BitVec 64) :=
  let first : Option (BitVec 64) := if network = 0x31 then some 0 else if network = 0x32 then some 1 else none
  let second : Option (BitVec 64) :=
    if kind = 0x4d then some 0 else if kind = 0x54 then some 0x10 else if kind = 0x53 then some 0x20 else none
  first.bind fun low => second.map fun high => 0x424200 ||| low ||| high

/-- `"TF"`. -/
def kPrefix : List Byte := [0x54, 0x46]

section Decode
variable (keccak : List Byte → List Byte)

/-- `decode` behind the prefix; `tfTag` is 0 without one. No result if the table is read
outside. -/
def decodePlain (wallet : WalletAddress) (tfTag : BitVec 64) (address : List Byte) :
    Option (Bool × WalletAddress) :=
  match decodeData address with
  | .error .fault => none
  | .error .rejected => some (false, wallet)
  | .ok data =>
    let (read, wallet) := wallet.readFields data
    if read ∧ wallet.checksum = (keccak (data.take (data.length - 4))).take 4 then
      some (true, { wallet with data := address, tag := if tfTag ≠ 0 then tfTag else wallet.tag })
    else some (false, { wallet with tag := 0 })

def decode (wallet : WalletAddress) (address : List Byte) : Option (Bool × WalletAddress) :=
  if 4 ≤ address.length ∧ address.take 2 = kPrefix then
    match tfTag (address.getD 2 0) (address.getD 3 0) with
    | none => some (false, wallet)
    | some tag => wallet.decodePlain keccak tag (address.drop 4)
  else wallet.decodePlain keccak 0 address

end Decode

/-! The block code that an address is written in: the numeral of every eight bytes, and of
the bytes that are left. -/

def character (digit : Nat) : Byte := alphabet.getD digit 0

def encodeBlock (bytes : List Byte) : List Byte :=
  ((Nat.digitsAppend alphabetSize (blockSizes.getD bytes.length 0)
    (Nat.ofDigits 256 (bytes.reverse.map BitVec.toNat))).map character).reverse

def encodeBlocks : (full : Nat) → List Byte → List Byte
  | 0, data => encodeBlock data
  | full + 1, data => encodeBlock (data.take 8) ++ encodeBlocks full (data.drop 8)

def encode (data : List Byte) : List Byte := encodeBlocks (data.length / 8) data

def lastBlockValue (address : List Byte) : Nat :=
  Nat.ofDigits alphabetSize
    ((address.drop (address.length / blockSize * blockSize)).reverse.map fun c => (reverseAlphabet c).getD 0)

def lastBlockFits (address : List Byte) : Bool :=
  lastBlockValue address < 256 ^ (blockSizes.findIdx? (· = address.length % blockSize)).getD 0

theorem character_digit : ∀ d < alphabetSize, digit (character d) = .ok d ∧
    reverseAlphabet (character d) = some d := by
  decide +kernel

theorem digit_ok {char : Byte} {d : Nat} (found : digit char = .ok d) :
    d < alphabetSize ∧ character d = char := by
  unfold digit at found
  split at found
  · cases found
  · split at found
    · cases found
    · rename_i position
      cases found
      obtain ⟨inside, here, _⟩ := List.findIdx?_eq_some_iff_getElem.mp position
      refine ⟨inside, ?_⟩
      rw [character, List.getD_eq_getElem _ _ inside]
      exact of_decide_eq_true here

theorem addDigit_ok {num order digit sum : Nat} (bound : num < 2 ^ 64)
    (added : addDigit num order digit = .ok sum) : sum = num + order * digit ∧ sum < 2 ^ 64 := by
  unfold addDigit at added
  dsimp only at added
  split at added
  · cases added
  · rename_i exact_
    cases added
    rw [not_or, not_lt, not_not] at exact_
    simp only [umul128] at exact_ ⊢
    have small : order * digit < 2 ^ 64 := by omega
    rw [Nat.mod_eq_of_lt small] at exact_ ⊢
    omega

theorem addDigits_ok {chars : List Byte} {num k value : Nat} (bound : num < 2 ^ 64)
    (short : k + chars.length ≤ 11) (added : addDigits num (alphabetSize ^ k % 2 ^ 64) chars = .ok value) :
    ∃ digits, chars = digits.map character ∧ (∀ d ∈ digits, d < alphabetSize) ∧
      value = num + alphabetSize ^ k * Nat.ofDigits alphabetSize digits ∧ value < 2 ^ 64 := by
  induction chars generalizing num k with
  | nil =>
    cases added
    exact ⟨[], rfl, nofun, by simp, bound⟩
  | cons char rest ih =>
    unfold addDigits at added
    split at added
    · cases added
    · rename_i d found
      obtain ⟨inside, here⟩ := digit_ok found
      split at added
      · cases added
      · rename_i sum next
        -- the weight of a character of a block is less than the word
        have weight : alphabetSize ^ k % 2 ^ 64 = alphabetSize ^ k := by
          apply Nat.mod_eq_of_lt
          have small : k ≤ 10 := by simp only [List.length_cons] at short; omega
          exact lt_of_le_of_lt (Nat.pow_le_pow_right (by decide) small) (by decide)
        rw [weight] at next
        obtain ⟨same, fits⟩ := addDigit_ok bound next
        have moved : alphabetSize ^ k % 2 ^ 64 * alphabetSize % 2 ^ 64 = alphabetSize ^ (k + 1) % 2 ^ 64 := by
          rw [weight, ← Nat.pow_succ]
        rw [moved] at added
        obtain ⟨digits, chars, valid, value, bounded⟩ :=
          ih fits (by simp only [List.length_cons] at short; omega) added
        refine ⟨d :: digits, ?_, ?_, ?_, bounded⟩
        · rw [List.map_cons, here, chars]
        · exact List.forall_mem_cons.mpr ⟨inside, valid⟩
        · rw [value, same, Nat.ofDigits_cons, Nat.pow_succ]
          ring

theorem decodeBlock_ok {chars : List Byte} {value : Nat} (short : chars.length ≤ 11)
    (decoded : decodeBlock chars = .ok value) :
    ∃ digits, chars.reverse = digits.map character ∧ (∀ d ∈ digits, d < alphabetSize) ∧
      value = Nat.ofDigits alphabetSize digits ∧ value < 2 ^ 64 := by
  obtain ⟨digits, same, valid, value, bounded⟩ := addDigits_ok (k := 0) (Nat.two_pow_pos 64)
    (by rw [List.length_reverse]; omega) decoded
  refine ⟨digits, same, valid, ?_, bounded⟩
  rw [value, Nat.pow_zero, Nat.zero_add, Nat.one_mul]

theorem character_injective {first second : List Nat} (valid : ∀ d ∈ first, d < alphabetSize)
    (valid' : ∀ d ∈ second, d < alphabetSize) (same : first.map character = second.map character) :
    first = second := by
  have read (digits : List Nat) (inside : ∀ d ∈ digits, d < alphabetSize) :
      (digits.map character).map reverseAlphabet = digits.map some := by
    rw [List.map_map]
    exact List.map_congr_left fun d member => (character_digit d (inside d member)).2
  have images := congrArg (List.map reverseAlphabet) same
  rw [read first valid, read second valid'] at images
  exact List.map_injective_iff.mpr (Option.some_injective Nat) images

@[simp] theorem blockBytes_length (count num : Nat) : (blockBytes count num).length = count := by
  simp only [blockBytes, List.length_reverse, List.length_map, lowDigits_length]

theorem ofDigits_blockBytes (count num : Nat) :
    Nat.ofDigits 256 ((blockBytes count num).reverse.map BitVec.toNat) = num % 256 ^ count := by
  have bytes : (blockBytes count num).reverse.map BitVec.toNat = lowDigits 256 count num := by
    rw [blockBytes, List.reverse_reverse, List.map_map]
    conv_rhs => rw [← List.map_id (lowDigits 256 count num)]
    refine List.map_congr_left fun d member => ?_
    have small : d < 256 := lowDigits_lt (by decide) member
    simp only [Function.comp_apply, BitVec.toNat_ofNat, id_eq]
    exact Nat.mod_eq_of_lt small
  rw [bytes, ofDigits_lowDigits]

/-- A block is its own code exactly if its number fits into its bytes. -/
theorem encodeBlock_iff {chars : List Byte} {count value : Nat} (width : blockSizes.getD count 0 = chars.length)
    (short : chars.length ≤ 11) (decoded : decodeBlock chars = .ok value) :
    encodeBlock (blockBytes count value) = chars ↔ value < 256 ^ count := by
  obtain ⟨digits, same, valid, rfl, _⟩ := decodeBlock_ok short decoded
  have length : chars.length = digits.length := by
    rw [← List.length_reverse, same, List.length_map]
  rw [encodeBlock, blockBytes_length, ofDigits_blockBytes, width, length]
  have large : 1 < alphabetSize := by decide
  constructor
  · intro equal
    have back := congrArg List.reverse equal
    rw [List.reverse_reverse, same] at back
    have again := character_injective
      (fun d member => Nat.lt_of_mem_digitsAppend large _ d member) valid back
    have kept := (digitsAppend_mod_iff large valid _).mp again
    rw [← kept]
    exact Nat.mod_lt _ (by positivity)
  · intro fits
    rw [(digitsAppend_mod_iff large valid _).mpr (Nat.mod_eq_of_lt fits), ← same, List.reverse_reverse]

theorem encodeBlock_full {chars : List Byte} {value : Nat} (full : chars.length = 11)
    (decoded : decodeBlock chars = .ok value) : encodeBlock (blockBytes 8 value) = chars := by
  obtain ⟨_, _, _, _, bounded⟩ := decodeBlock_ok (by omega) decoded
  exact (encodeBlock_iff (by rw [full]; rfl) (by omega) decoded).mpr bounded

theorem decodeBlock_value {chars : List Byte} {value : Nat} (short : chars.length ≤ 11)
    (decoded : decodeBlock chars = .ok value) :
    Nat.ofDigits alphabetSize (chars.reverse.map fun c => (reverseAlphabet c).getD 0) = value := by
  obtain ⟨digits, same, valid, rfl, _⟩ := decodeBlock_ok short decoded
  rw [same, List.map_map]
  conv_rhs => rw [← List.map_id digits]
  congr 1
  refine List.map_congr_left fun d member => ?_
  simp only [Function.comp_apply, (character_digit d (valid d member)).2, Option.getD_some, id_eq]

/-- The blocks of an address are its own code exactly if the last one fits. -/
theorem decodeBlocks_iff {index full : Nat} {address data : List Byte} (partial_ : blockSizes.getD index 0 ≤ 11)
    (length : address.length = full * 11 + blockSizes.getD index 0)
    (decoded : decodeBlocks index full address = .ok data) :
    data.length = full * 8 + index ∧
      (encodeBlocks full data = address ↔
        Nat.ofDigits alphabetSize ((address.drop (full * 11)).reverse.map fun c => (reverseAlphabet c).getD 0) <
          256 ^ index) := by
  induction full generalizing address data with
  | zero =>
    unfold decodeBlocks at decoded
    cases block : decodeBlock address with
    | error why => rw [block] at decoded; cases decoded
    | ok value =>
      rw [block] at decoded
      cases decoded
      have width : blockSizes.getD index 0 = address.length := by omega
      refine ⟨by rw [blockBytes_length, Nat.zero_mul, Nat.zero_add], ?_⟩
      rw [Nat.zero_mul, List.drop_zero, decodeBlock_value (by omega) block]
      exact encodeBlock_iff width (by omega) block
  | succ full ih =>
    unfold decodeBlocks at decoded
    cases block : decodeBlock (address.take blockSize) with
    | error why => rw [block] at decoded; cases decoded
    | ok value =>
      rw [block] at decoded
      cases rest : decodeBlocks index full (address.drop blockSize) with
      | error why => simp only [rest] at decoded; cases decoded
      | ok tail =>
        simp only [rest] at decoded
        cases decoded
        have here : (address.take blockSize).length = 11 := by
          rw [List.length_take, blockSize]
          omega
        have left : (address.drop blockSize).length = full * 11 + blockSizes.getD index 0 := by
          rw [List.length_drop, blockSize]
          omega
        obtain ⟨size, same⟩ := ih left rest
        refine ⟨?_, ?_⟩
        · rw [List.length_append, blockBytes_length, size]
          omega
        · have first : (blockBytes 8 value ++ tail).take 8 = blockBytes 8 value := by
            rw [List.take_left' (blockBytes_length 8 value)]
          have second : (blockBytes 8 value ++ tail).drop 8 = tail := by
            rw [List.drop_left' (blockBytes_length 8 value)]
          rw [encodeBlocks, first, second, encodeBlock_full here block]
          rw [List.drop_drop, show blockSize + full * 11 = (full + 1) * 11 by rw [blockSize]; omega] at same
          rw [← same]
          constructor
          · intro whole
            have cut := congrArg (List.drop blockSize) whole
            rw [List.drop_left' (show _ = blockSize from here)] at cut
            exact cut
          · intro whole
            rw [whole, List.take_append_drop]

theorem lastBlock_index {size index : Nat} (found : blockSizes.findIdx? (· = size % blockSize) = some index) :
    index < 8 ∧ blockSizes.getD index 0 = size % blockSize := by
  obtain ⟨inside, here, _⟩ := List.findIdx?_eq_some_iff_getElem.mp found
  have same : blockSizes.getD index 0 = size % blockSize := by
    rw [List.getD_eq_getElem _ _ inside]
    exact of_decide_eq_true here
  refine ⟨?_, same⟩
  -- the last entry is the size of a full block
  have less : size % blockSize < 11 := Nat.mod_lt _ (by decide)
  by_contra last
  have eight : index = 8 := by
    have bound : index < 9 := inside
    omega
  subst eight
  have eleven : blockSizes.getD 8 0 = 11 := rfl
  omega

theorem decodeData_iff {address data : List Byte} (decoded : decodeData address = .ok data) :
    encode data = address ↔ lastBlockFits address = true := by
  unfold decodeData at decoded
  dsimp only at decoded
  split at decoded
  · cases decoded
  · cases found : blockSizes.findIdx? (· = address.length % blockSize) with
    | none => rw [found] at decoded; cases decoded
    | some index =>
      rw [found] at decoded
      dsimp only at decoded
      split at decoded
      · cases decoded
      · obtain ⟨small, same⟩ := lastBlock_index found
        have length : address.length = address.length / blockSize * 11 + blockSizes.getD index 0 := by
          rw [same]
          exact (Nat.div_add_mod' address.length 11).symm
        have narrow : blockSizes.getD index 0 ≤ 11 := by
          rw [same]
          exact (Nat.mod_lt _ (by decide)).le
        obtain ⟨size, own⟩ := decodeBlocks_iff narrow length decoded
        have full : data.length / 8 = address.length / blockSize := by omega
        rw [encode, full, own, lastBlockFits, found, decide_eq_true_eq]
        rfl

/-- An accepted address without a prefix was decoded from its own characters. -/
theorem decode_plain {keccak : List Byte → List Byte} {wallet after : WalletAddress} {address : List Byte}
    (plain : address.take 2 ≠ kPrefix) (accepted : wallet.decode keccak address = some (true, after)) :
    ∃ data, decodeData address = .ok data := by
  unfold decode at accepted
  rw [if_neg (fun marked => plain marked.2)] at accepted
  unfold decodePlain at accepted
  cases decoded : decodeData address with
  | ok data => exact ⟨data, rfl⟩
  | error why =>
    rw [decoded] at accepted
    cases why <;> cases accepted

/-- An accepted address is the code of its bytes exactly if its last block fits, and among the
addresses of one length whose last block fits no two have the same bytes. -/
theorem decode_canonical_iff {keccak : List Byte → List Byte} {wallet after : WalletAddress}
    {address : List Byte} (plain : address.take 2 ≠ kPrefix)
    (accepted : wallet.decode keccak address = some (true, after)) :
    ∃ data, decodeData address = .ok data ∧
      (encode data = address ↔ lastBlockFits address = true) ∧
      ∀ (wallet' after' : WalletAddress) (other : List Byte), other.take 2 ≠ kPrefix →
        wallet'.decode keccak other = some (true, after') → other.length = address.length →
        decodeData other = .ok data → lastBlockFits address = true → lastBlockFits other = true →
        other = address := by
  obtain ⟨data, decoded⟩ := decode_plain plain accepted
  refine ⟨data, decoded, decodeData_iff decoded, fun _ _ other _ _ _ same fits fits' => ?_⟩
  rw [← (decodeData_iff same).mpr fits', (decodeData_iff decoded).mpr fits]

def sampleData : List Byte := 0x12 :: List.replicate 64 0

/-- Keccak on `sampleData`; other inputs do not matter here. -/
def sampleKeccak (bytes : List Byte) : List Byte :=
  if bytes = sampleData then
    [0x33, 0xbb, 0x94, 0x41, 0x2f, 0x93, 0x27, 0xe6, 0x5d, 0x8a, 0xea, 0xe7, 0x9d, 0xda, 0x48, 0x18,
     0xe3, 0x24, 0x1f, 0xfb, 0xc9, 0x4c, 0x5c, 0xeb, 0xdd, 0xb1, 0x4b, 0xf9, 0x06, 0x7e, 0x17, 0x8f]
  else List.replicate 32 0

/-- `"41d7FXjswpK"`, seven blocks of zero bytes and a last block of seven characters. -/
def sampleAddress (lastBlock : List Byte) : List Byte :=
  [0x34, 0x31, 0x64, 0x37, 0x46, 0x58, 0x6a, 0x73, 0x77, 0x70, 0x4b] ++ List.replicate 77 0x31 ++ lastBlock

/-- `"12KhNi4"`, the numeral of the last five bytes. -/
def ownBlock : List Byte := [0x31, 0x32, 0x4b, 0x68, 0x4e, 0x69, 0x34]

/-- `"VuVmsEg"`, the same number and 2 ^ 40. -/
def twinBlock : List Byte := [0x56, 0x75, 0x56, 0x6d, 0x73, 0x45, 0x67]

/-- The address with the numeral of its bytes is canonical. -/
theorem decode_canonical_ownBlock :
    lastBlockFits (sampleAddress ownBlock) = true ∧
      ∃ data, decodeData (sampleAddress ownBlock) = .ok data ∧ encode data = sampleAddress ownBlock := by
  have fits : lastBlockFits (sampleAddress ownBlock) = true := by decide
  have accepted : (({} : WalletAddress).decode sampleKeccak (sampleAddress ownBlock)).map Prod.fst = some true := by
    decide
  obtain ⟨⟨_, after⟩, decoded, rfl⟩ := Option.map_eq_some_iff.mp accepted
  obtain ⟨data, bytes, own, _⟩ := decode_canonical_iff (by decide) decoded
  exact ⟨fits, data, bytes, own.mpr fits⟩

/-- A last block that does not fit is accepted for the same bytes. -/
theorem twinBlock_accepted :
    let own := sampleAddress ownBlock
    let twin := sampleAddress twinBlock
    own.take 2 ≠ kPrefix ∧ twin.take 2 ≠ kPrefix ∧ own.length = twin.length ∧
      (({} : WalletAddress).decode sampleKeccak own).map Prod.fst = some true ∧
      (({} : WalletAddress).decode sampleKeccak twin).map Prod.fst = some true ∧
      (decodeData own).toOption.isSome = true ∧ (decodeData twin).toOption = (decodeData own).toOption ∧
      twin ≠ own ∧ (decodeData twin).toOption.map encode ≠ some twin := by
  decide

end WalletAddress

end Xmrig.Cryptonote
