import Xmrig.Cryptonote.WalletAddress

/-! Where the fields of a decoded address lie, and what `decode` reads on the way.

The tag is a number of variable length, and the skip over what stands between the keys
and the checksum is an unsigned difference.
-/

set_option autoImplicit false

namespace Xmrig.Cryptonote.WalletAddress

open BlobReader

/-- The tag that the prefix of an address stands for, zero without one, and the characters
behind it. No result for a prefix that `decode` refuses. -/
def strip (address : List Byte) : Option (BitVec 64 × List Byte) :=
  if 4 ≤ address.length ∧ address.take 2 = kPrefix then
    (tfTag (address.getD 2 0) (address.getD 3 0)).map fun tag => (tag, address.drop 4)
  else some (0, address)

def decodedBytes (address : List Byte) : Option (List Byte) :=
  (strip address).bind fun stripped => (decodeData stripped.2).toOption

/-- `decode` where plain `char` is signed or not. An unsigned character above 0x7f finds -1 in
the table, like any other outside of the alphabet, and no member has been written then. -/
def decodeAs (keccak : List Byte → List Byte) (signed : Bool) (wallet : WalletAddress) (address : List Byte) :
    Option (Bool × WalletAddress) :=
  if signed then wallet.decode keccak address
  else some ((wallet.decode keccak address).getD (false, wallet))

def padding (ar : BlobReader) : Nat := sizeT (ar.remaining + 2 ^ 64 - 4)

/-- The reads of `readFields` with the error of the one that fails. -/
def reads (data : List Byte) : Except ReadError (BitVec 64 × List Byte × List Byte × List Byte) := do
  let (tag, ar) ← (BlobReader.open' 0 data.length).getVarint data
  let (publicSpendKey, ar) ← ar.array sizeT data kKeySize
  let (publicViewKey, ar) ← ar.array sizeT data kKeySize
  let (_, ar) ← ar.skip sizeT (padding ar)
  let (checksum, _) ← ar.array sizeT data 4
  return (tag, publicSpendKey, publicViewKey, checksum)

def tagSize (data : List Byte) : Nat := (data.takeWhile fun byte => byte &&& 0x80 ≠ 0).length + 1

def block (address : List Byte) (i : Nat) : List Byte := (address.drop (i * blockSize)).take blockSize

def checksumOf (keccak : List Byte → List Byte) (data : List Byte) : List Byte :=
  (keccak (data.take (data.length - 4))).take 4

/-- The fields of the data that `decode` accepts. -/
def fieldsOf (keccak : List Byte → List Byte) (data : List Byte) :
    Option (BitVec 64 × List Byte × List Byte × List Byte) :=
  match reads data with
  | .error _ => none
  | .ok fields => if fields.2.2.2 = checksumOf keccak data then some fields else none

/-! The varint at the start of the data. -/

/-- The loop of `getVarint` on a list: the number and the bytes it takes. -/
def readVarint : (result : BitVec 64) → (shift : Nat) → List Byte → Option (BitVec 64 × Nat)
  | _, _, [] => none
  | result, shift, byte :: rest =>
    let sum := result ||| ((byte &&& 0x7f).setWidth 64 <<< (shift % 64))
    if byte &&& 0x80 = 0 then some (sum, 1)
    else (readVarint sum (shift + 7) rest).map fun read => (read.1, read.2 + 1)

theorem tagSize_cons (byte : Byte) (rest : List Byte) :
    tagSize (byte :: rest) = if byte &&& 0x80 = 0 then 1 else tagSize rest + 1 := by
  by_cases last : byte &&& 0x80 = 0
  · simp only [tagSize, List.takeWhile_cons, last]
    rfl
  · simp only [tagSize, List.takeWhile_cons, last, ne_eq, not_false_eq_true, decide_true, if_true, if_false,
      List.length_cons]

theorem varintFrom_eq (before rest : List Byte) (rounds : Nat) (result : BitVec 64) (shift : Nat)
    (enough : rest.length < rounds) :
    varintFrom (before ++ rest) rounds result shift ⟨0, (before ++ rest).length, before.length⟩ =
      match readVarint result shift rest with
      | none => .error .outOfRange
      | some (tag, size) => .ok (tag, ⟨0, (before ++ rest).length, before.length + size⟩) := by
  induction rest generalizing before rounds result shift with
  | nil =>
    obtain ⟨rounds, rfl⟩ := Nat.exists_eq_add_of_lt enough
    simp [varintFrom, getByte, readVarint]
  | cons byte rest ih =>
    cases rounds with
    | zero => simp at enough
    | succ rounds =>
      have first : getByte (before ++ byte :: rest) ⟨0, (before ++ byte :: rest).length, before.length⟩ =
          .ok (byte, ⟨0, (before ++ byte :: rest).length, before.length + 1⟩) := by
        simp [getByte]
      simp only [varintFrom, first, readVarint]
      split
      · rfl
      · have later := ih (before ++ [byte]) rounds
          (result ||| ((byte &&& 0x7f).setWidth 64 <<< (shift % 64))) (shift + 7)
          (by simp only [List.length_cons] at enough; omega)
        have one : (before ++ [byte]).length = before.length + 1 := List.length_append
        rw [List.append_assoc, List.singleton_append, one] at later
        rw [later]
        cases readVarint (result ||| ((byte &&& 0x7f).setWidth 64 <<< (shift % 64))) (shift + 7) rest with
        | none => rfl
        | some read => simp only [Option.map_some, Nat.add_assoc, Nat.add_comm 1]

theorem getVarint_eq (data : List Byte) :
    (BlobReader.open' 0 data.length).getVarint data =
      match readVarint 0 0 data with
      | none => .error .outOfRange
      | some (tag, size) => .ok (tag, ⟨0, data.length, size⟩) := by
  have whole := varintFrom_eq [] data (data.length + 1) 0 0 (Nat.lt_succ_self _)
  simp only [List.nil_append, List.length_nil, Nat.zero_add] at whole
  exact whole

theorem readVarint_size {data : List Byte} {result tag : BitVec 64} {shift size : Nat}
    (read : readVarint result shift data = some (tag, size)) :
    size = tagSize data ∧ size ≤ data.length ∧ 0 < size ∧
      ∀ other, readVarint result shift (data.take size ++ other) = some (tag, size) := by
  induction data generalizing result shift size with
  | nil => cases read
  | cons byte rest ih =>
    simp only [readVarint] at read
    rw [tagSize_cons]
    split at read
    · rename_i last
      cases read
      refine ⟨(if_pos last).symm, by simp, Nat.one_pos, fun other => ?_⟩
      simp only [List.take_succ_cons, List.take_zero, List.cons_append, readVarint, if_pos last]
    · rename_i more
      obtain ⟨⟨value, used⟩, later, made⟩ := Option.map_eq_some_iff.mp read
      simp only [Prod.mk.injEq] at made
      obtain ⟨rfl, rfl⟩ := made
      obtain ⟨same, inside, _, own⟩ := ih later
      refine ⟨?_, ?_, Nat.succ_pos _, fun other => ?_⟩
      · rw [if_neg more, same]
      · rw [List.length_cons]
        omega
      · simp only [List.take_succ_cons, List.cons_append, readVarint, if_neg more, own other, Option.map_some]

/-! The reads of the fields. -/

section Fields
variable {data : List Byte}

abbrev at' (data : List Byte) (index : Nat) : BlobReader := ⟨0, data.length, index⟩

theorem array_eq {index n : Nat} (word : data.length < 2 ^ 63) (short : n < 2 ^ 63) (inside : index ≤ data.length) :
    (at' data index).array sizeT data n =
      if index + n ≤ data.length then .ok ((data.drop index).take n, at' data (index + n))
      else .error .outOfRange := by
  have whole : sizeT (index + n) = index + n := sizeT_of_lt (by omega)
  unfold array advance
  rw [whole, Nat.zero_add]
  by_cases fits : index + n ≤ data.length
  · rw [if_neg (Nat.not_lt.mpr fits), if_pos fits]
    simp only [Except.bind]
    rw [if_neg (Nat.not_lt.mpr fits)]
  · rw [if_pos (Nat.not_le.mp fits), if_neg fits]
    rfl

/-- The unsigned difference of the skip leads to four bytes before the end, with or without a wrap. -/
theorem skip_target {index rest total : Nat} (sum : index + rest = total) (word : total < 2 ^ 63)
    (large : 4 ≤ total) : sizeT (index + sizeT (rest + 2 ^ 64 - 4)) = total - 4 := by
  have back : rest + 2 ^ 64 - 4 = rest + (2 ^ 64 - 4) := Nat.add_sub_assoc (by decide) rest
  rw [back]
  unfold sizeT
  rw [Nat.add_mod_mod, ← Nat.add_assoc, sum]
  omega

theorem advance_eq {reader : BlobReader} {n position : Nat} (target : sizeT (reader.index + n) = position)
    (inside : position ≤ reader.size) :
    reader.skip sizeT n = .ok ((), { reader with index := position }) := by
  unfold skip advance
  rw [target, if_neg (by omega)]
  rfl

/-- The skip ends four bytes before the end, also where it has to go back for it. -/
theorem skip_eq {index : Nat} (word : data.length < 2 ^ 63) (inside : index ≤ data.length) (large : 4 ≤ data.length) :
    (at' data index).skip sizeT (padding (at' data index)) =
      .ok ((), at' data (data.length - 4)) := by
  apply advance_eq
  · exact skip_target (Nat.add_sub_of_le inside) word large
  · exact Nat.sub_le _ _

theorem ok_bind {ε α β : Type} (value : α) (next : α → Except ε β) : (Except.ok value >>= next) = next value := rfl

theorem error_bind {ε α β : Type} (why : ε) (next : α → Except ε β) :
    ((.error why : Except ε α) >>= next) = .error why := rfl

theorem reads_eq (word : data.length < 2 ^ 63) :
    reads data = match readVarint 0 0 data with
      | none => .error .outOfRange
      | some (tag, size) =>
        if size + 64 ≤ data.length then
          .ok (tag, (data.drop size).take 32, (data.drop (size + 32)).take 32, data.drop (data.length - 4))
        else .error .outOfRange := by
  cases read : readVarint 0 0 data with
  | none =>
    have start : (BlobReader.open' 0 data.length).getVarint data = .error .outOfRange := by
      rw [getVarint_eq, read]
    unfold reads
    rw [start]
    rfl
  | some found =>
    obtain ⟨tag, size⟩ := found
    obtain ⟨_, inside, positive, _⟩ := readVarint_size read
    have start : (BlobReader.open' 0 data.length).getVarint data = .ok (tag, at' data size) := by
      rw [getVarint_eq, read]
    have key {index : Nat} (before : index ≤ data.length) : (at' data index).array sizeT data kKeySize =
        if index + 32 ≤ data.length then .ok ((data.drop index).take 32, at' data (index + 32))
        else .error .outOfRange := array_eq word (by decide) before
    unfold reads
    rw [start, ok_bind]
    dsimp only
    rw [key inside]
    by_cases first : size + 32 ≤ data.length
    · rw [if_pos first, ok_bind]
      dsimp only
      rw [key first]
      by_cases second : size + 64 ≤ data.length
      · have large : 4 ≤ data.length := by omega
        rw [if_pos second, if_pos second, ok_bind]
        dsimp only
        rw [skip_eq word second large, ok_bind]
        dsimp only
        have end_ : (data.drop (data.length - 4)).take 4 = data.drop (data.length - 4) := by
          apply List.take_of_length_le
          rw [List.length_drop]
          omega
        rw [array_eq word (by decide) (Nat.sub_le _ _), if_pos (Nat.sub_add_cancel large).le, ok_bind, end_]
        rfl
      · rw [if_neg second, if_neg second, error_bind]
    · rw [if_neg first, if_neg (by omega), error_bind]

/-- `readFields` makes these reads and keeps what they give. -/
theorem readFields_reads (wallet : WalletAddress) (data : List Byte) :
    match reads data with
    | .ok (tag, spend, view, checksum) => wallet.readFields data =
      (true, { wallet with tag, publicSpendKey := spend, publicViewKey := view, checksum })
    | .error _ => (wallet.readFields data).1 = false := by
  -- any arithmetic will do, and that of the code would be unfolded up to its modulus
  obtain ⟨wrap, isWrap⟩ : ∃ wrap, wrap = sizeT := ⟨sizeT, rfl⟩
  unfold reads padding readFields
  rw [← isWrap]
  rcases (BlobReader.open' 0 data.length).getVarint data with why | ⟨tag, ar⟩
  · rfl
  · rw [ok_bind]
    dsimp only
    rcases ar.array wrap data kKeySize with why | ⟨spend, ar⟩
    · rfl
    · rw [ok_bind]
      dsimp only
      rcases ar.array wrap data kKeySize with why | ⟨view, ar⟩
      · rfl
      · rw [ok_bind]
        dsimp only
        rcases ar.skip wrap (wrap (ar.remaining + 2 ^ 64 - 4)) with why | ⟨_, ar⟩
        · rfl
        · rw [ok_bind]
          dsimp only
          rcases ar.array wrap data 4 with why | ⟨checksum, ar⟩
          · rfl
          · rfl

theorem tagSize_pos (data : List Byte) : 0 < tagSize data := Nat.succ_pos _

theorem readVarint_of_tagSize {result : BitVec 64} {shift : Nat} (inside : tagSize data ≤ data.length) :
    ∃ tag, readVarint result shift data = some (tag, tagSize data) := by
  induction data generalizing result shift with
  | nil => exact absurd inside (by decide)
  | cons byte rest ih =>
    rw [tagSize_cons] at inside ⊢
    simp only [readVarint]
    by_cases last : byte &&& 0x80 = 0
    · rw [if_pos last, if_pos last]
      exact ⟨_, rfl⟩
    · rw [if_neg last, List.length_cons] at inside
      obtain ⟨tag, read⟩ := @ih _ (shift + 7) (Nat.le_of_succ_le_succ inside)
      rw [if_neg last, if_neg last, read]
      exact ⟨tag, rfl⟩

end Fields

/-! The result of `decode`. -/

section Result
variable {keccak : List Byte → List Byte} {wallet after : WalletAddress} {tfTag : BitVec 64} {data body address : List Byte}

theorem decode_eq : wallet.decode keccak address =
    match strip address with
    | none => some (false, wallet)
    | some (tag, body) => wallet.decodePlain keccak tag body := by
  unfold decode strip
  split
  · cases WalletAddress.tfTag (address.getD 2 0) (address.getD 3 0) <;> rfl
  · rfl

theorem decodePlain_ok (decoded : decodeData body = .ok data) :
    match fieldsOf keccak data with
    | some (tag, spend, view, checksum) => wallet.decodePlain keccak tfTag body =
      some (true, ⟨body, if tfTag ≠ 0 then tfTag else tag, checksum, spend, view⟩)
    | none => ∃ after, wallet.decodePlain keccak tfTag body = some (false, after) ∧ after.tag = 0 := by
  have made := readFields_reads wallet data
  unfold fieldsOf decodePlain
  rw [decoded]
  dsimp only
  rcases outcome : reads data with why | ⟨tag, spend, view, checksum⟩
  · rw [outcome] at made
    dsimp only at made ⊢
    rw [made]
    exact ⟨_, rfl, rfl⟩
  · rw [outcome] at made
    dsimp only at made ⊢
    rw [made]
    by_cases same : checksum = checksumOf keccak data
    · rw [if_pos same]
      have taken : (true = true) ∧ checksum = (keccak (data.take (data.length - 4))).take 4 := ⟨rfl, same⟩
      rw [if_pos taken]
    · rw [if_neg same]
      have other : ¬((true = true) ∧ checksum = (keccak (data.take (data.length - 4))).take 4) :=
        fun taken => same taken.2
      rw [if_neg other]
      exact ⟨_, rfl, rfl⟩

theorem decode_accepts : wallet.decode keccak address = some (true, after) ↔
    ∃ tfTag body data tag spend view checksum, strip address = some (tfTag, body) ∧ decodeData body = .ok data ∧
      fieldsOf keccak data = some (tag, spend, view, checksum) ∧
      after = ⟨body, if tfTag ≠ 0 then tfTag else tag, checksum, spend, view⟩ := by
  rw [decode_eq]
  constructor
  · intro accepted
    cases stripped : strip address with
    | none => rw [stripped] at accepted; cases accepted
    | some found =>
      obtain ⟨tfTag, body⟩ := found
      rw [stripped] at accepted
      dsimp only at accepted
      cases decoded : decodeData body with
      | error why =>
        unfold decodePlain at accepted
        rw [decoded] at accepted
        cases why <;> cases accepted
      | ok data =>
        have made := @decodePlain_ok keccak wallet tfTag data body decoded
        cases fields : fieldsOf keccak data with
        | none =>
          rw [fields] at made
          obtain ⟨_, refused, _⟩ := made
          rw [refused] at accepted
          cases accepted
        | some found =>
          obtain ⟨tag, spend, view, checksum⟩ := found
          rw [fields] at made
          dsimp only at made
          rw [made] at accepted
          cases accepted
          exact ⟨tfTag, body, data, tag, spend, view, checksum, rfl, decoded, fields, rfl⟩
  · rintro ⟨tfTag, body, data, tag, spend, view, checksum, stripped, decoded, fields, rfl⟩
    rw [stripped]
    have made := @decodePlain_ok keccak wallet tfTag data body decoded
    rw [fields] at made
    exact made

theorem decode_none : wallet.decode keccak address = none ↔
    ∃ tfTag body, strip address = some (tfTag, body) ∧ decodeData body = .error .fault := by
  rw [decode_eq]
  constructor
  · intro fault
    cases stripped : strip address with
    | none => rw [stripped] at fault; cases fault
    | some found =>
      obtain ⟨tfTag, body⟩ := found
      rw [stripped] at fault
      dsimp only at fault
      refine ⟨tfTag, body, rfl, ?_⟩
      cases decoded : decodeData body with
      | error why =>
        unfold decodePlain at fault
        rw [decoded] at fault
        cases why with
        | rejected => cases fault
        | fault => rfl
      | ok data =>
        have made := @decodePlain_ok keccak wallet tfTag data body decoded
        rw [fault] at made
        cases fields : fieldsOf keccak data with
        | none =>
          rw [fields] at made
          obtain ⟨_, refused, _⟩ := made
          cases refused
        | some found =>
          rw [fields] at made
          cases made
  · rintro ⟨tfTag, body, stripped, decoded⟩
    rw [stripped]
    dsimp only
    unfold decodePlain
    rw [decoded]

end Result

/-! Where the blocks leave the table. -/

/-- The loop over a block gets to a character above 0x7f: those behind it decode. -/
def HighIn (chars : List Byte) : Prop :=
  ∃ front char behind, chars = front ++ char :: behind ∧ 0x80 ≤ char.toNat ∧ ∃ num, decodeBlock behind = .ok num

/-- An address whose length `decode` takes. -/
def Sized (address : List Byte) : Prop :=
  kMinSize ≤ address.length ∧ address.length ≤ kMaxSize ∧
    ∃ index, blockSizes.findIdx? (· = address.length % blockSize) = some index ∧
      kMinDataSize ≤ address.length / blockSize * 8 + index

/-- The loops get to a character above 0x7f: the blocks in front of its own decode. -/
def HighReached (address : List Byte) : Prop :=
  Sized address ∧ ∃ i ≤ address.length / blockSize,
    (∀ before < i, ∃ num, decodeBlock (block address before) = .ok num) ∧ HighIn (block address i)

section Faults
variable {address : List Byte}

theorem digit_fault {char : Byte} : digit char = .error .fault ↔ 0x80 ≤ char.toNat := by
  unfold digit
  split
  · rename_i high
    exact iff_of_true rfl high
  · rename_i low
    cases reverseAlphabet char with
    | none => exact iff_of_false (by simp) low
    | some d => exact iff_of_false (by simp) low

theorem addDigit_ne_fault {num order d : Nat} : addDigit num order d ≠ .error .fault := by
  unfold addDigit
  dsimp only
  split <;> simp

theorem addDigits_fault {num order : Nat} {chars : List Byte} : addDigits num order chars = .error .fault ↔
    ∃ front char behind, chars = front ++ char :: behind ∧ 0x80 ≤ char.toNat ∧
      ∃ sum, addDigits num order front = .ok sum := by
  induction chars generalizing num order with
  | nil =>
    refine iff_of_false (by simp [addDigits]) ?_
    rintro ⟨front, char, behind, same, -⟩
    cases front <;> cases same
  | cons first rest ih =>
    constructor
    · intro fault
      unfold addDigits at fault
      cases found : digit first with
      | error why =>
        rw [found] at fault
        cases fault
        exact ⟨[], first, rest, rfl, digit_fault.mp found, num, rfl⟩
      | ok d =>
        rw [found] at fault
        dsimp only at fault
        cases next : addDigit num order d with
        | error why =>
          rw [next] at fault
          cases fault
          exact absurd next addDigit_ne_fault
        | ok sum =>
          rw [next] at fault
          obtain ⟨front, char, behind, rfl, high, reached⟩ := ih.mp fault
          refine ⟨first :: front, char, behind, rfl, high, ?_⟩
          unfold addDigits
          rw [found]
          dsimp only
          rw [next]
          exact reached
    · rintro ⟨front, char, behind, same, high, sum, reached⟩
      cases front with
      | nil =>
        cases same
        unfold addDigits
        rw [digit_fault.mpr high]
      | cons _ front =>
        cases same
        unfold addDigits at reached ⊢
        cases found : digit first with
        | error why => rw [found] at reached; cases reached
        | ok d =>
          rw [found] at reached
          dsimp only at reached ⊢
          cases next : addDigit num order d with
          | error why => rw [next] at reached; cases reached
          | ok value =>
            rw [next] at reached
            exact ih.mpr ⟨front, char, behind, rfl, high, sum, reached⟩

theorem decodeBlock_fault {chars : List Byte} : decodeBlock chars = .error .fault ↔ HighIn chars := by
  unfold decodeBlock HighIn
  rw [addDigits_fault]
  -- the loop starts at the last character
  constructor
  · rintro ⟨front, char, behind, same, high, reached⟩
    refine ⟨behind.reverse, char, front.reverse, ?_, high, ?_⟩
    · rw [← List.reverse_reverse chars, same]
      simp
    · unfold decodeBlock
      rw [List.reverse_reverse]
      exact reached
  · rintro ⟨front, char, behind, same, high, reached⟩
    refine ⟨behind.reverse, char, front.reverse, ?_, high, reached⟩
    rw [same]
    simp

theorem block_succ (address : List Byte) (i : Nat) : block (address.drop blockSize) i = block address (i + 1) := by
  unfold block
  rw [List.drop_drop, Nat.succ_mul, Nat.add_comm]

theorem block_last (short : address.length < blockSize) : block address 0 = address := by
  unfold block
  rw [Nat.zero_mul, List.drop_zero, List.take_of_length_le (Nat.le_of_lt short)]

theorem decodeBlocks_fault {index full : Nat} (length : address.length / blockSize = full) :
    decodeBlocks index full address = .error .fault ↔
      ∃ i ≤ full, (∀ before < i, ∃ num, decodeBlock (block address before) = .ok num) ∧ HighIn (block address i) := by
  induction full generalizing address with
  | zero =>
    have short : address.length < blockSize := (Nat.div_eq_zero_iff_lt (by decide)).mp length
    unfold decodeBlocks
    constructor
    · intro fault
      refine ⟨0, Nat.le_refl 0, fun before early => absurd early (Nat.not_lt_zero _), ?_⟩
      rw [block_last short, ← decodeBlock_fault]
      cases here : decodeBlock address with
      | error why => rw [here] at fault; cases fault; rfl
      | ok num => rw [here] at fault; cases fault
    · rintro ⟨i, inside, -, high⟩
      obtain rfl := Nat.le_zero.mp inside
      rw [block_last short, ← decodeBlock_fault] at high
      rw [high]
      rfl
  | succ full ih =>
    have rest : (address.drop blockSize).length / blockSize = full := by
      rw [List.length_drop, blockSize] at *
      omega
    have first : address.take blockSize = block address 0 := by
      unfold block
      rw [Nat.zero_mul, List.drop_zero]
    have later := @ih (address.drop blockSize) rest
    simp only [block_succ] at later
    unfold decodeBlocks
    rw [first]
    cases here : decodeBlock (block address 0) with
    | error why =>
      dsimp only
      constructor
      · intro fault
        cases fault
        exact ⟨0, Nat.zero_le _, fun before early => absurd early (Nat.not_lt_zero _), decodeBlock_fault.mp here⟩
      · rintro ⟨i, inside, before, high⟩
        cases i with
        | zero =>
          have fault := decodeBlock_fault.mpr high
          rw [here] at fault
          cases fault
          rfl
        | succ i =>
          obtain ⟨num, decoded⟩ := before 0 (Nat.succ_pos i)
          rw [here] at decoded
          cases decoded
    | ok num =>
      dsimp only
      have kept : Except.map (blockBytes 8 num ++ ·) (decodeBlocks index full (address.drop blockSize)) =
          .error .fault ↔ decodeBlocks index full (address.drop blockSize) = .error .fault := by
        cases decodeBlocks index full (address.drop blockSize) with
        | error why => exact ⟨fun fault => by cases fault; rfl, fun fault => by cases fault; rfl⟩
        | ok data => exact iff_of_false (by simp [Except.map]) (by simp)
      rw [kept, later]
      constructor
      · rintro ⟨i, inside, before, high⟩
        refine ⟨i + 1, Nat.succ_le_succ inside, fun earlier early => ?_, high⟩
        cases earlier with
        | zero => exact ⟨num, here⟩
        | succ earlier => exact before earlier (Nat.lt_of_succ_lt_succ early)
      · rintro ⟨i, inside, before, high⟩
        cases i with
        | zero =>
          rw [decodeBlock_fault.mpr high] at here
          cases here
        | succ i => exact ⟨i, Nat.le_of_succ_le_succ inside, fun earlier early => before (earlier + 1) (Nat.succ_lt_succ early), high⟩

/-- Where `decode` leaves the table, for signed characters. -/
theorem decodeData_fault : decodeData address = .error .fault ↔ HighReached address := by
  unfold decodeData HighReached Sized
  dsimp only
  by_cases sized : address.length < kMinSize ∨ kMaxSize < address.length
  · rw [if_pos sized]
    refine iff_of_false (by simp) ?_
    rintro ⟨⟨least, most, -⟩, -⟩
    omega
  · rw [if_neg sized]
    cases found : blockSizes.findIdx? (· = address.length % blockSize) with
    | none =>
      refine iff_of_false (by simp) ?_
      rintro ⟨⟨-, -, index, here, -⟩, -⟩
      cases here
    | some index =>
      dsimp only
      by_cases small : address.length / blockSize * 8 + index < kMinDataSize
      · rw [if_pos small]
        refine iff_of_false (by simp) ?_
        rintro ⟨⟨-, -, _, here, large⟩, -⟩
        cases here
        omega
      · rw [if_neg small, decodeBlocks_fault rfl]
        refine (and_iff_right ?_).symm
        exact ⟨by omega, by omega, index, rfl, by omega⟩

theorem decodeData_size {data : List Byte} (decoded : decodeData address = .ok data) :
    kMinDataSize ≤ data.length ∧ data.length < 2 ^ 63 := by
  unfold decodeData at decoded
  dsimp only at decoded
  split at decoded
  · cases decoded
  · rename_i sized
    cases found : blockSizes.findIdx? (· = address.length % blockSize) with
    | none => rw [found] at decoded; cases decoded
    | some index =>
      rw [found] at decoded
      dsimp only at decoded
      split at decoded
      · cases decoded
      · rename_i large
        obtain ⟨small, same⟩ := lastBlock_index found
        have length : address.length = address.length / blockSize * 11 + blockSizes.getD index 0 := by
          rw [same]
          exact (Nat.div_add_mod' address.length 11).symm
        have narrow : blockSizes.getD index 0 ≤ 11 := by
          rw [same]
          exact (Nat.mod_lt _ (by decide)).le
        obtain ⟨size, _⟩ := decodeBlocks_iff narrow length decoded
        have most : address.length ≤ kMaxSize := by omega
        unfold kMaxSize blockSize at *
        omega

end Faults

/-! The fields of an accepted address and their place in its data. -/

/-- The bytes of an address are the varint of a tag, the two keys, what is left, and the checksum,
in this order. A prefix stands for another tag. -/
def Tiled (keccak : List Byte → List Byte) (address : List Byte) (wallet : WalletAddress) : Prop :=
  ∃ tfTag body tag code rest, strip address = some (tfTag, body) ∧
    decodeData body =
      .ok (code ++ (wallet.publicSpendKey ++ (wallet.publicViewKey ++ (rest ++ wallet.checksum)))) ∧
    (BlobReader.open' 0 code.length).getVarint code = .ok (tag, ⟨0, code.length, code.length⟩) ∧
    wallet.tag = (if tfTag ≠ 0 then tfTag else tag) ∧
    wallet.publicSpendKey.length = 32 ∧ wallet.publicViewKey.length = 32 ∧ wallet.checksum.length = 4 ∧
    wallet.checksum =
      (keccak (code ++ (wallet.publicSpendKey ++ (wallet.publicViewKey ++ rest)))).take 4

/-- What `decode` has to do with some characters: its reads lie inside of what they read from,
and the fields that it accepts are those of the data. -/
structure Exact (keccak : List Byte → List Byte) (signed : Bool) (wallet : WalletAddress) (address : List Byte) :
    Prop where
  /-- Every lookup has found an entry of the table. -/
  table : decodeAs keccak signed wallet address ≠ none
  /-- The positions that the loops over the blocks read at. -/
  characters : ∀ tfTag body, strip address = some (tfTag, body) → ∀ i ≤ body.length / blockSize,
    ∀ j < (if i < body.length / blockSize then blockSize else body.length % blockSize), i * blockSize + j < body.length
  fields : ∀ data, decodedBytes address = some data → reads data ≠ .error .fault
  tiled : ∀ after, decodeAs keccak signed wallet address = some (true, after) → Tiled keccak address after

/-- The last of the keys reaches into the last four bytes, and these are a checksum all the same. -/
def Overlaps (keccak : List Byte → List Byte) (address : List Byte) : Prop :=
  ∃ data, decodedBytes address = some data ∧ tagSize data + 64 ≤ data.length ∧
    data.length < tagSize data + 68 ∧ data.drop (data.length - 4) = checksumOf keccak data

section Main
variable {keccak : List Byte → List Byte} {signed : Bool} {wallet after : WalletAddress} {address data : List Byte}

theorem block_position {size i j : Nat} (inside : i ≤ size / blockSize)
    (before : j < if i < size / blockSize then blockSize else size % blockSize) : i * blockSize + j < size := by
  have whole := Nat.div_add_mod' size blockSize
  split at before
  · rename_i full
    have next : (i + 1) * blockSize ≤ size / blockSize * blockSize := Nat.mul_le_mul_right _ full
    rw [Nat.succ_mul] at next
    omega
  · rename_i last
    have same : i = size / blockSize := by omega
    rw [← same] at whole
    omega

theorem reads_inside (word : data.length < 2 ^ 63) : reads data ≠ .error .fault := by
  rw [reads_eq word]
  cases readVarint 0 0 data with
  | none => simp
  | some found =>
    dsimp only
    split <;> simp

theorem fieldsOf_some {tag : BitVec 64} {spend view checksum : List Byte} (word : data.length < 2 ^ 63) :
    fieldsOf keccak data = some (tag, spend, view, checksum) ↔
      readVarint 0 0 data = some (tag, tagSize data) ∧ tagSize data + 64 ≤ data.length ∧
        spend = (data.drop (tagSize data)).take 32 ∧ view = (data.drop (tagSize data + 32)).take 32 ∧
        checksum = data.drop (data.length - 4) ∧ checksum = checksumOf keccak data := by
  unfold fieldsOf
  rw [reads_eq word]
  cases read : readVarint 0 0 data with
  | none => exact iff_of_false (by simp) (by simp)
  | some found =>
    obtain ⟨value, size⟩ := found
    obtain ⟨rfl, -⟩ := readVarint_size read
    dsimp only
    by_cases fits : tagSize data + 64 ≤ data.length
    · rw [if_pos fits]
      dsimp only
      by_cases same : data.drop (data.length - 4) = checksumOf keccak data
      · rw [if_pos same]
        constructor
        · intro found
          cases found
          exact ⟨rfl, fits, rfl, rfl, rfl, same⟩
        · rintro ⟨found, -, rfl, rfl, rfl, -⟩
          cases found
          rfl
      · rw [if_neg same]
        refine iff_of_false (by simp) ?_
        rintro ⟨-, -, -, -, rfl, other⟩
        exact same other
    · rw [if_neg fits]
      exact iff_of_false (by simp) fun ⟨_, inside, _⟩ => fits inside

theorem tiles (long : tagSize data + 68 ≤ data.length) :
    data = data.take (tagSize data) ++ ((data.drop (tagSize data)).take 32 ++
      ((data.drop (tagSize data + 32)).take 32 ++
        ((data.drop (tagSize data + 64)).take (data.length - 4 - (tagSize data + 64)) ++
          data.drop (data.length - 4)))) := by
  have cut (from_ size : Nat) : (data.drop from_).take size ++ data.drop (from_ + size) = data.drop from_ := by
    rw [← List.drop_drop]
    exact List.take_append_drop size _
  have last : tagSize data + 64 + (data.length - 4 - (tagSize data + 64)) = data.length - 4 := by omega
  have rest := cut (tagSize data + 64) (data.length - 4 - (tagSize data + 64))
  rw [last] at rest
  rw [rest, cut (tagSize data + 32) 32, cut (tagSize data) 32]
  exact (List.take_append_drop _ _).symm

theorem tiles_front (long : tagSize data + 68 ≤ data.length) :
    data.take (data.length - 4) = data.take (tagSize data) ++ ((data.drop (tagSize data)).take 32 ++
      ((data.drop (tagSize data + 32)).take 32 ++
        (data.drop (tagSize data + 64)).take (data.length - 4 - (tagSize data + 64)))) := by
  have whole := tiles long
  rw [← List.append_assoc, ← List.append_assoc, ← List.append_assoc, List.append_assoc _ _ (List.take _ _),
    List.append_assoc _ _ (_ ++ _)] at whole
  exact List.append_cancel_right ((List.take_append_drop _ data).trans whole)

theorem decodeAs_true : decodeAs keccak signed wallet address = some (true, after) ↔
    wallet.decode keccak address = some (true, after) := by
  unfold decodeAs
  cases signed with
  | true => rfl
  | false =>
    rw [if_neg (by decide)]
    cases wallet.decode keccak address with
    | none => exact iff_of_false (by simp) (by simp)
    | some result => rfl

theorem decodeAs_none : decodeAs keccak signed wallet address = none ↔
    signed = true ∧ wallet.decode keccak address = none := by
  unfold decodeAs
  cases signed with
  | true => exact (and_iff_right rfl).symm
  | false => exact iff_of_false (by simp) fun ⟨wrong, _⟩ => absurd wrong (by decide)

theorem Overlaps.decoded (overlaps : Overlaps keccak address) (wallet : WalletAddress) :
    ∃ data after, decodedBytes address = some data ∧ data.length < tagSize data + 68 ∧
      wallet.decode keccak address = some (true, after) ∧ (strip address).map Prod.snd = some after.data := by
  obtain ⟨data, decoded, fits, short, same⟩ := overlaps
  obtain ⟨⟨tfTag, body⟩, stripped, bytes⟩ := Option.bind_eq_some_iff.mp decoded
  have given : decodeData body = .ok data := by
    dsimp only at bytes
    cases outcome : decodeData body with
    | error why => rw [outcome] at bytes; cases bytes
    | ok found => rw [outcome] at bytes; cases bytes; rfl
  obtain ⟨tag, read⟩ := @readVarint_of_tagSize data 0 0 (by omega)
  have fields := (@fieldsOf_some keccak data tag _ _ _ (decodeData_size given).2).mpr
    ⟨read, fits, rfl, rfl, rfl, same⟩
  refine ⟨data, _, decoded, short, decode_accepts.mpr ⟨tfTag, body, data, tag, _, _, _, stripped, given, fields, rfl⟩, ?_⟩
  rw [stripped]
  rfl

/-- The parts of an accepted address are as long as they should be, so that they need room. -/
theorem Tiled.room (tiled : Tiled keccak address wallet) :
    ∃ data, decodedBytes address = some data ∧ tagSize data + 68 ≤ data.length := by
  obtain ⟨tfTag, body, tag, code, rest, stripped, decoded, varint, -, spend, view, checksum, -⟩ := tiled
  refine ⟨code ++ (wallet.publicSpendKey ++ (wallet.publicViewKey ++ (rest ++ wallet.checksum))), ?_, ?_⟩
  · unfold decodedBytes
    rw [stripped, Option.bind_some, decoded]
    rfl
  · rw [getVarint_eq] at varint
    cases read : readVarint 0 0 code with
    | none => rw [read] at varint; cases varint
    | some found =>
      obtain ⟨value, size⟩ := found
      rw [read] at varint
      obtain ⟨-, -, -, extend⟩ := readVarint_size read
      simp only [Except.ok.injEq, Prod.mk.injEq, BlobReader.mk.injEq, true_and] at varint
      rw [varint.2, List.take_length] at extend
      obtain ⟨same, -⟩ := readVarint_size (extend _)
      rw [← same]
      simp only [List.length_append, spend, view, checksum]
      omega

/-- The reads of `decode` are inside of what they read, and the fields it accepts tile the data,
exactly if no signed character above 0x7f is looked up and the checksum does not overlap a key. -/
theorem decode_exact_iff (keccak : List Byte → List Byte) (signed : Bool) (wallet : WalletAddress)
    (address : List Byte) :
    Exact keccak signed wallet address ↔
      (signed = true → ∀ tfTag body, strip address = some (tfTag, body) → ¬HighReached body) ∧
        ¬Overlaps keccak address := by
  constructor
  · intro sound
    refine ⟨?_, fun overlaps => ?_⟩
    · rintro rfl tfTag body stripped high
      apply sound.table
      rw [decodeAs_none, decode_none]
      exact ⟨rfl, tfTag, body, stripped, decodeData_fault.mpr high⟩
    · obtain ⟨data, after, decoded, short, accepted, -⟩ := overlaps.decoded wallet
      obtain ⟨data', decoded', room⟩ := (sound.tiled after (decodeAs_true.mpr accepted)).room
      rw [decoded] at decoded'
      cases decoded'
      omega
  · rintro ⟨low, apart⟩
    refine ⟨?_, fun _ _ _ i inside j before => block_position inside before, ?_, fun after accepted => ?_⟩
    · intro fault
      rw [decodeAs_none, decode_none] at fault
      obtain ⟨plain, tfTag, body, stripped, decoded⟩ := fault
      exact low plain tfTag body stripped (decodeData_fault.mp decoded)
    · intro data decoded
      obtain ⟨⟨tfTag, body⟩, -, bytes⟩ := Option.bind_eq_some_iff.mp decoded
      cases outcome : decodeData body with
      | error why => simp only [outcome] at bytes; cases bytes
      | ok found =>
        simp only [outcome] at bytes
        cases bytes
        exact reads_inside (decodeData_size outcome).2
    · obtain ⟨tfTag, body, data, tag, spend, view, checksum, stripped, decoded, fields, rfl⟩ :=
        decode_accepts.mp (decodeAs_true.mp accepted)
      obtain ⟨least, word⟩ := decodeData_size decoded
      obtain ⟨read, fits, rfl, rfl, rfl, same⟩ := (fieldsOf_some word).mp fields
      have long : tagSize data + 68 ≤ data.length := by
        by_contra short
        refine apart ⟨data, ?_, fits, by omega, same⟩
        unfold decodedBytes
        rw [stripped, Option.bind_some, decoded]
        rfl
      have whole := tiles long
      have positive := tagSize_pos data
      refine ⟨tfTag, body, tag, data.take (tagSize data), _, stripped, decoded.trans (congrArg _ whole), ?_, rfl,
        ?_, ?_, ?_, ?_⟩
      · obtain ⟨-, inside, -, own⟩ := readVarint_size read
        have alone := own []
        rw [List.append_nil] at alone
        rw [getVarint_eq, alone, List.length_take, Nat.min_eq_left inside]
      · simp only [List.length_take, List.length_drop]
        omega
      · simp only [List.length_take, List.length_drop]
        omega
      · rw [List.length_drop]
        omega
      · rw [same, checksumOf, tiles_front long]

def highAddress : List Byte := List.replicate 95 0xc3

/-- A tag of two bytes and two keys of which the second is one byte too long for 69 bytes. -/
def narrowData : List Byte := [0x92, 0x01] ++ List.replicate 63 0

/-- The first four bytes of Keccak on `narrowData`; other inputs do not matter here. -/
def narrowKeccak (bytes : List Byte) : List Byte :=
  if bytes = narrowData then [0xb5, 0xbd, 0xd6, 0xb7] else List.replicate 4 0

/-- `"RRRQWj2qhDR"`, seven blocks of zero bytes and `"5eSXN6"` behind a `1`. -/
def narrowAddress : List Byte :=
  [0x52, 0x52, 0x52, 0x51, 0x57, 0x6a, 0x32, 0x71, 0x68, 0x44, 0x52] ++ List.replicate 78 0x31 ++
    [0x35, 0x65, 0x53, 0x58, 0x4e, 0x36]

/-- A signed character is looked up in front of the table, and a checksum shares a byte with a key. -/
theorem decode_not_exact :
    ¬Exact narrowKeccak true {} highAddress ∧ ¬Exact narrowKeccak false {} narrowAddress ∧
      (({} : WalletAddress).decode narrowKeccak narrowAddress).map Prod.fst = some true := by
  have accepted : (({} : WalletAddress).decode narrowKeccak narrowAddress).map Prod.fst = some true := by
    decide
  refine ⟨fun sound => ?_, fun sound => ?_, accepted⟩
  · exact sound.table (by decide)
  · obtain ⟨⟨_, after⟩, decoded, rfl⟩ := Option.map_eq_some_iff.mp accepted
    obtain ⟨data, bytes, room⟩ := (sound.tiled after (decodeAs_true.mpr decoded)).room
    have narrow : decodedBytes narrowAddress =
        some (narrowData ++ [0xb5, 0xbd, 0xd6, 0xb7]) := by
      decide
    rw [narrow] at bytes
    cases bytes
    exact absurd room (by decide)

end Main

end Xmrig.Cryptonote.WalletAddress
