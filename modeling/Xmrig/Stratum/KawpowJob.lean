import Xmrig.Base.HexCodec
import Xmrig.Stratum.EthNotification
import Xmrig.Backend.WorkerRounds
import Xmrig.Foundation.Radix
import Mathlib.Data.List.TakeWhile

/-! The extra nonce of a KawPow pool, from its text to the blob of a job.

The digits are padded to a 64-bit number, whose bytes stand low end first
behind the header hash. The number is printed with sixteen digits again when a
result is submitted.
-/

set_option autoImplicit false

namespace Xmrig.EthStratumClient

open Foundation

/-- `std::hex << std::setw(16) << std::setfill('0')`. -/
def hex16 (value : BitVec 64) : List Byte :=
  (List.range 16).map fun index => Cvt.hexDigit ((value >>> (4 * (15 - index))).setWidth 8 &&& 0xf#8)

def hexNumber (chars : List Byte) : Nat :=
  (chars.filterMap Cvt.digit).foldl (fun value digit => value * 16 + digit.toNat) 0

instance decidableHex (chars : List Byte) : Decidable (Hex chars) :=
  inferInstanceAs (Decidable (∀ char ∈ chars, (Cvt.digit char).isSome = true))

section Digits

theorem digit_plain : ∀ char : Byte, (Cvt.digit char).isSome = true →
    isSpace char = false ∧ char ≠ 45#8 ∧ char ≠ 43#8 ∧ char ≠ 120#8 ∧ char ≠ 88#8 ∧ char ≠ 0#8 := by
  decide

theorem hexNumber_concat {chars : List Byte} {char digit : Byte} (known : Cvt.digit char = some digit) :
    hexNumber (chars ++ [char]) = hexNumber chars * 16 + digit.toNat := by
  simp [hexNumber, known]

theorem hexNumber_append_zeros (chars : List Byte) (count : Nat) :
    hexNumber (chars ++ List.replicate count 48) = hexNumber chars * 16 ^ count := by
  induction count with
  | zero => simp
  | succ count ih =>
    have zero : Cvt.digit 48 = some 0#8 := by decide
    rw [List.replicate_succ', ← List.append_assoc, hexNumber_concat zero, ih]
    rw [show (0#8).toNat = 0 from rfl, Nat.add_zero, Nat.pow_succ, Nat.mul_assoc]

theorem hexNumber_lt (chars : List Byte) : hexNumber chars < 16 ^ chars.length := by
  have small : ∀ digit ∈ chars.filterMap Cvt.digit, digit.toNat < 16 := by
    intro digit listed
    obtain ⟨char, -, known⟩ := List.mem_filterMap.mp listed
    exact digit_lt char digit known
  have bound := foldl_hex_lt small 0
  rw [Nat.zero_add, Nat.one_mul] at bound
  exact Nat.lt_of_lt_of_le bound (Nat.pow_le_pow_right (by decide) (List.length_filterMap_le _ _))

theorem hexNumber_digit {chars : List Byte} (hex : Hex chars) {index : Nat} (inside : index < chars.length) :
    (chars[index]?).bind Cvt.digit =
      some (BitVec.ofNat 8 (hexNumber chars / 16 ^ (chars.length - 1 - index) % 16)) := by
  induction chars using List.reverseRecOn with
  | nil => simp at inside
  | append_singleton chars char ih =>
    obtain ⟨digit, known⟩ := Option.isSome_iff_exists.mp (hex char (by simp))
    have small := digit_lt char digit known
    rw [hexNumber_concat known]
    rw [List.length_append, List.length_singleton] at inside ⊢
    by_cases last : index = chars.length
    · subst last
      rw [List.getElem?_concat_length, Option.bind_some, known, Nat.add_sub_cancel, Nat.sub_self,
        Nat.pow_zero, Nat.div_one]
      congr 1
      apply BitVec.eq_of_toNat_eq
      rw [BitVec.toNat_ofNat]
      omega
    · have before : index < chars.length := by omega
      obtain ⟨rest, gap⟩ := Nat.exists_eq_add_of_le (show index + 1 ≤ chars.length by omega)
      rw [List.getElem?_append_left before, ih (fun c member => hex c (by simp [member])) before,
        show chars.length + 1 - 1 - index = (chars.length - 1 - index) + 1 by omega, Nat.pow_succ',
        ← Nat.div_div_eq_div_mul]
      congr 4
      omega

theorem hex16_digit (value : BitVec 64) {index : Nat} (inside : index < 16) :
    ((hex16 value)[index]?).bind Cvt.digit =
      some (BitVec.ofNat 8 (value.toNat / 16 ^ (15 - index) % 16)) := by
  have listed : (hex16 value)[index]? =
      some (Cvt.hexDigit ((value >>> (4 * (15 - index))).setWidth 8 &&& 0xf#8)) := by
    simp [hex16, inside]
  rw [listed, Option.bind_some, Cvt.digit_hexDigit_nibble]
  congr 1
  apply BitVec.eq_of_toNat_eq
  have power : 2 ^ (4 * (15 - index)) = 16 ^ (15 - index) := by rw [Nat.pow_mul]
  rw [BitVec.toNat_and, BitVec.toNat_setWidth, BitVec.toNat_ushiftRight, Nat.shiftRight_eq_div_pow, power,
    show (0xf#8).toNat = 2 ^ 4 - 1 by decide, Nat.and_two_pow_sub_one_eq_mod, BitVec.toNat_ofNat]
  omega

theorem hex16_starts {chars : List Byte} {value : BitVec 64} (hex : Hex chars) (short : chars.length ≤ 16)
    (top : value.toNat / 16 ^ (16 - chars.length) = hexNumber chars) :
    ((hex16 value).take chars.length).map Cvt.digit = chars.map Cvt.digit := by
  apply List.ext_getElem?
  intro index
  by_cases inside : index < chars.length
  · have same : ((hex16 value)[index]?).bind Cvt.digit = (chars[index]?).bind Cvt.digit := by
      have places : 16 - chars.length + (chars.length - 1 - index) = 15 - index := by omega
      rw [hex16_digit value (by omega), hexNumber_digit hex inside, ← top, Nat.div_div_eq_div_mul,
        ← Nat.pow_add, places]
    have present : ∃ printed, (hex16 value)[index]? = some printed :=
      ⟨_, List.getElem?_eq_getElem (by simp [hex16]; omega)⟩
    obtain ⟨printed, here⟩ := present
    rw [List.getElem?_map, List.getElem?_map, List.getElem?_take_of_lt inside]
    rw [here, List.getElem?_eq_getElem inside, Option.bind_some, Option.bind_some] at same
    rw [here, List.getElem?_eq_getElem inside, Option.map_some, Option.map_some, same]
  · have long : ((hex16 value).take chars.length).length ≤ index := by
      rw [List.length_take]
      omega
    rw [List.getElem?_map, List.getElem?_map, List.getElem?_eq_none long,
      List.getElem?_eq_none (Nat.le_of_not_lt inside)]

theorem hex16_hex (value : BitVec 64) : Hex (hex16 value) := by
  intro char member
  obtain ⟨index, -, rfl⟩ := List.mem_map.mp member
  rw [Cvt.digit_hexDigit_nibble]
  rfl

theorem eq_of_digits {first second : Nat} (small : first < 16 ^ 16) (other : second < 16 ^ 16)
    (digits : ∀ index < 16, first / 16 ^ (15 - index) % 16 = second / 16 ^ (15 - index) % 16) : first = second := by
  have low {number : Nat} (fits : number < 16 ^ 16) : Nat.ofDigits 16 (lowDigits 16 16 number) = number := by
    rw [ofDigits_lowDigits]
    exact Nat.mod_eq_of_lt fits
  rw [← low small, ← low other]
  congr 1
  apply List.map_congr_left
  intro place member
  have inside := List.mem_range.mp member
  have same := digits (15 - place) (by omega)
  rwa [Nat.sub_sub_self (by omega)] at same

theorem hex16_injective {first second : BitVec 64} (same : hex16 first = hex16 second) : first = second := by
  apply BitVec.eq_of_toNat_eq
  apply eq_of_digits first.isLt second.isLt
  intro index inside
  have read := hex16_digit first inside
  rw [same, hex16_digit second inside, Option.some.injEq] at read
  have numbers := congrArg BitVec.toNat read
  simp only [BitVec.toNat_ofNat] at numbers
  omega

theorem hexNumber_hex16 (value : BitVec 64) : hexNumber (hex16 value) = value.toNat := by
  have length : (hex16 value).length = 16 := by simp [hex16]
  have bound := hexNumber_lt (hex16 value)
  rw [length] at bound
  apply eq_of_digits bound value.isLt
  intro index inside
  have read := hexNumber_digit (hex16_hex value) (show index < (hex16 value).length by omega)
  rw [hex16_digit value inside, length, show 16 - 1 - index = 15 - index by omega, Option.some.injEq] at read
  have numbers := congrArg BitVec.toNat read
  simp only [BitVec.toNat_ofNat] at numbers
  omega

end Digits

/-! ## From the text to the number -/

section Number
variable {chars : List Byte}

theorem hexValue_of_hex (hex : Hex chars) (nonempty : chars ≠ []) :
    hexValue chars = some (hexNumber chars) := by
  have whole : chars.takeWhile (fun char => (Cvt.digit char).isSome) = chars :=
    List.takeWhile_eq_self_iff.mpr hex
  rw [hexValue, whole]
  obtain ⟨char, rest, rfl⟩ := List.exists_cons_of_ne_nil nonempty
  obtain ⟨digit, known⟩ := Option.isSome_iff_exists.mp (hex char (by simp))
  simp only [List.filterMap_cons, known, hexNumber]

/-- Digits alone have nothing in front that `strtoull` skips. -/
theorem scanHex_of_hex (hex : Hex chars) (nonempty : chars ≠ []) :
    scanHex chars = some (false, hexNumber chars) := by
  obtain ⟨char, rest, rfl⟩ := List.exists_cons_of_ne_nil nonempty
  obtain ⟨space, minus, plus, -, -, -⟩ := digit_plain char (hex char (by simp))
  have signed : splitSign (char :: rest) = (false, char :: rest) := by
    unfold splitSign
    split
    · rename_i equal
      exact absurd (List.cons.inj equal).1 minus
    · rename_i equal
      exact absurd (List.cons.inj equal).1 plus
    · rfl
  have radix : skipRadix (char :: rest) = char :: rest := by
    unfold skipRadix
    split
    · rename_i x digit tail equal
      obtain ⟨-, -, -, small, capital, -⟩ := digit_plain x (hex x (by rw [equal]; simp))
      rw [if_neg, equal]
      rintro ⟨lower | upper, -⟩
      · exact small lower
      · exact capital upper
    · rfl
  rw [scanHex, List.dropWhile_cons_of_neg (by simp [space]), signed]
  simp only [radix, hexValue_of_hex hex nonempty, Option.map_some]

theorem stoull_of_hex (hex : Hex chars) (nonempty : chars ≠ []) (short : chars.length ≤ 16) :
    stoull chars = .ok (BitVec.ofNat 64 (hexNumber chars)) := by
  have small : ¬ 2 ^ 64 ≤ hexNumber chars := by
    have bound := hexNumber_lt chars
    have power : 16 ^ chars.length ≤ 16 ^ 16 := Nat.pow_le_pow_right (by decide) short
    omega
  rw [stoull, strtoull, scanHex_of_hex hex nonempty]
  simp only [small, if_false, Bool.false_eq_true]

theorem cString_of_hex (hex : Hex chars) : Json.cString chars = chars := by
  apply List.takeWhile_eq_self_iff.mpr
  intro char member
  simpa using (digit_plain char (hex char member)).2.2.2.2.2

theorem hex_replicate_zero (count : Nat) : Hex (List.replicate count 48) := by
  intro char member
  rw [List.eq_of_mem_replicate member]
  decide

theorem Hex.append {front back : List Byte} (first : Hex front) (second : Hex back) : Hex (front ++ back) := by
  intro char member
  rcases List.mem_append.mp member with inFront | inBack
  · exact first char inFront
  · exact second char inBack

def templateValue (digits : List Byte) : Nat := hexNumber digits * 16 ^ (16 - digits.length)

theorem templateValue_lt {digits : List Byte} (short : digits.length ≤ 16) : templateValue digits < 2 ^ 64 := by
  have positive : 0 < 16 ^ (16 - digits.length) := Nat.pow_pos (by decide)
  calc templateValue digits < 16 ^ digits.length * 16 ^ (16 - digits.length) :=
        Nat.mul_lt_mul_of_pos_right (hexNumber_lt digits) positive
    _ = 16 ^ 16 := by rw [← Nat.pow_add, Nat.add_sub_cancel' short]

/-- The part of `setExtraNonce` behind its checks, for a text of digits. -/
theorem assignExtraNonce_of_hex {client after : EthStratumClient} (hex : Hex (skip0x chars))
    (accepted : client.assignExtraNonce chars = .ok after) :
    (skip0x chars).length ≤ 8 ∧ (skip0x chars).length % 2 = 0 ∧
      after = { client with extraNonce := (BitVec.ofNat 64 (templateValue (skip0x chars)), some (skip0x chars)) } := by
  unfold assignExtraNonce at accepted
  simp only at accepted
  split at accepted
  · cases accepted
  · rename_i even
    split at accepted
    · cases accepted
    · rename_i short
      have pad : padZeros (skip0x chars) 16 = skip0x chars ++ List.replicate (16 - (skip0x chars).length) 48 := by
        rw [padZeros, List.take_of_length_le (by omega)]
      have padded : Hex (padZeros (skip0x chars) 16) := pad ▸ hex.append (hex_replicate_zero _)
      have length : (padZeros (skip0x chars) 16).length = 16 := by
        rw [pad, List.length_append, List.length_replicate]
        omega
      have number : hexNumber (padZeros (skip0x chars) 16) = templateValue (skip0x chars) := by
        rw [pad, hexNumber_append_zeros, templateValue]
      rw [cString_of_hex hex, stoull_of_hex padded (by rw [← List.length_pos_iff]; omega) (by omega), number]
        at accepted
      cases accepted
      exact ⟨by omega, by omega, rfl⟩

end Number

/-! ## From the number to the blob -/

section Blob

theorem hex2bin_front {front : List Byte} {size : Nat} (hex : Hex front) (even : front.length = 2 * size) :
    ∃ decoded : List Byte, decoded.length = size ∧ ∀ (rest : List Byte) (room : Nat),
      Cvt.hex2bin (front ++ rest) (room + size) none =
        ⟨decoded ++ (Cvt.hex2bin rest room none).written, (Cvt.hex2bin rest room none).ok⟩ := by
  induction size generalizing front with
  | zero =>
    have empty : front = [] := List.length_eq_zero_iff.mp even
    subst empty
    exact ⟨[], rfl, fun _ _ => rfl⟩
  | succ size ih =>
    cases front with
    | nil => simp at even
    | cons first front =>
      cases front with
      | nil =>
        rw [List.length_singleton] at even
        omega
      | cons second tail =>
        obtain ⟨upper, high⟩ := Option.isSome_iff_exists.mp (hex first (by simp))
        obtain ⟨lower, low⟩ := Option.isSome_iff_exists.mp (hex second (by simp))
        have rest : Hex tail := fun char member => hex char (by simp [member])
        obtain ⟨decoded, length, append⟩ := ih rest (by simpa [Nat.mul_add] using even)
        refine ⟨(upper * 16 ||| lower) :: decoded, by simp [length], fun rest room => ?_⟩
        rw [List.cons_append, List.cons_append, ← Nat.add_assoc, Cvt.hex2bin_pair high low, append]
        rfl

def templateBytes (nonce : BitVec 64) : List Byte :=
  (List.range 8).map fun index => (nonce >>> (8 * index)).setWidth 8

theorem ofBytes_template {front back : List Byte} (nonce : BitVec 64) {offset : Nat} (inside : offset < 8) :
    Memory.ofBytes (front ++ (templateBytes nonce ++ back)) (front.length + offset) =
      (nonce >>> (8 * offset)).setWidth 8 := by
  have listed : (templateBytes nonce)[offset]? = some ((nonce >>> (8 * offset)).setWidth 8) := by
    simp [templateBytes, inside]
  have size : (templateBytes nonce).length = 8 := by simp [templateBytes]
  rw [Memory.ofBytes, List.getD_eq_getElem?_getD, List.getElem?_append_right (Nat.le_add_right _ _),
    Nat.add_sub_cancel_left, List.getElem?_append_left (by omega), listed, Option.getD_some]

theorem readWord_template {front back : List Byte} (nonce : BitVec 64) {skip : Nat} (inside : skip + 4 ≤ 8) :
    (Memory.ofBytes (front ++ (templateBytes nonce ++ back))).readWord (front.length + skip) =
      (nonce >>> (8 * skip)).setWidth 32 := by
  rw [← @Memory.readWord_writeWord (fun _ => 0) (front.length + skip) ((nonce >>> (8 * skip)).setWidth 32)]
  apply Memory.readWord_congr
  intro offset small
  rw [Nat.add_assoc, ofBytes_template nonce (by omega), Memory.writeWord, if_pos (by omega),
    ← Nat.add_assoc, Nat.add_sub_cancel_left]
  apply BitVec.eq_of_getLsbD_eq
  intro position bound
  rw [BitVec.getLsbD_setWidth, BitVec.getLsbD_ushiftRight, BitVec.getLsbD_extractLsb',
    BitVec.getLsbD_setWidth, BitVec.getLsbD_ushiftRight]
  simp only [bound, decide_true, Bool.true_and, show 8 * offset + position < 32 by omega]
  congr 1
  omega

theorem templateBytes_low {nonce : BitVec 64} (low : nonce.setWidth 32 = 0#32) (rest : List Byte) :
    (templateBytes nonce ++ rest).take 4 = [0, 0, 0, 0] := by
  have byte (index : Nat) (small : index < 4) : (nonce >>> (8 * index)).setWidth 8 = 0#8 := by
    apply BitVec.eq_of_getLsbD_eq
    intro position bound
    have bit := congrArg (fun word => word.getLsbD (8 * index + position)) low
    have inWord : 8 * index + position < 32 := by omega
    simp only [BitVec.getLsbD_setWidth, inWord, decide_true, Bool.true_and, BitVec.getLsbD_zero] at bit
    rw [BitVec.getLsbD_setWidth, BitVec.getLsbD_ushiftRight, bit, Bool.and_false, BitVec.getLsbD_zero]
  calc (templateBytes nonce ++ rest).take 4
      = [(nonce >>> (8 * 0)).setWidth 8, (nonce >>> (8 * 1)).setWidth 8, (nonce >>> (8 * 2)).setWidth 8,
          (nonce >>> (8 * 3)).setWidth 8] := rfl
    _ = [0, 0, 0, 0] := by rw [byte 0 (by omega), byte 1 (by omega), byte 2 (by omega), byte 3 (by omega)]; rfl

/-- A job with the digits of an extra nonce at the top of its nonce. -/
structure Prepared (digits : List Byte) (job : Job) : Prop where
  algorithm : job.algorithm = .kawpowRvn
  sized : job.Sized
  mask : job.nonceMask = BitVec.allOnes 64 >>> (digits.length * 4)
  words : WorkerJob.jobWords job = ⟨0, BitVec.ofNat 32 (templateValue digits / 2 ^ 32)⟩

section Jobs
variable {digits : List Byte} {job : Job}

theorem Prepared.nonceSize (prepared : Prepared digits job) : job.nonceSize = 8 := by
  rw [Job.nonceSize, prepared.algorithm]
  decide

theorem Prepared.nonceOffset (prepared : Prepared digits job) : job.nonceOffset = 32 := by
  rw [Job.nonceOffset, prepared.algorithm]
  decide

theorem Prepared.withIndex (prepared : Prepared digits job) (index : Fin 2) :
    Prepared digits { job with index } :=
  ⟨prepared.algorithm, ⟨prepared.sized.nonce, prepared.sized.fits⟩, prepared.mask, prepared.words⟩

end Jobs

theorem decode_blob {header : List Byte} (hex : Hex header) (size : header.length = 64) (nonce : BitVec 64) :
    ∃ hash rest : List Byte, hash.length = 32 ∧
      Cvt.hex2bin (padZeros (header ++ nonceTemplate nonce) (76 * 2)) Job.kMaxBlobSize none =
        ⟨hash ++ (templateBytes nonce ++ rest), true⟩ := by
  obtain ⟨hash, length, decoded⟩ := @hex2bin_front header 32 hex size
  have template : (nonceTemplate nonce).length = 16 := by simp [nonceTemplate]
  have padded : padZeros (header ++ nonceTemplate nonce) (76 * 2) =
      header ++ (Cvt.toHex (templateBytes nonce) ++ List.replicate 72 48) := by
    rw [padZeros, List.take_of_length_le (by rw [List.length_append]; omega), List.length_append, size, template,
      List.append_assoc]
    rfl
  have zeros : (Cvt.hex2bin (List.replicate 72 48) 368 none).ok = true := by decide
  have bytes : (templateBytes nonce).length = 8 := by simp [templateBytes]
  refine ⟨hash, (Cvt.hex2bin (List.replicate 72 48) 368 none).written, length, ?_⟩
  have inner := Cvt.hex2bin_toHex (templateBytes nonce) (List.replicate 72 48) 368
  rw [bytes] at inner
  rw [padded, show Job.kMaxBlobSize = 376 + 32 from rfl, decoded, show 376 = 368 + 8 from rfl, inner, zeros]

theorem templateValue_low {digits : List Byte} (short : digits.length ≤ 8) :
    templateValue digits % 2 ^ 32 = 0 := by
  obtain ⟨extra, gap⟩ := Nat.exists_eq_add_of_le (show 8 ≤ 16 - digits.length by omega)
  rw [templateValue, gap, Nat.pow_add, ← Nat.mul_assoc, Nat.mul_comm (hexNumber digits), Nat.mul_assoc]
  exact Nat.mul_mod_right _ _

variable {client : EthStratumClient} {elements : List Json} {digits header id : List Byte}

theorem setBlob_prepared (nonce : client.extraNonce = (BitVec.ofNat 64 (templateValue digits), some digits))
    (short : digits.length ≤ 8) (kawpow : client.algorithm = .kawpowRvn) (hex : Hex header)
    (size : header.length = 64) :
    ∃ job, (client.startJob id).setBlob
        (some (padZeros (header ++ nonceTemplate client.extraNonce.1) (76 * 2))) = some job ∧
      Prepared digits job := by
  obtain ⟨hash, rest, length, decoded⟩ := decode_blob hex size client.extraNonce.1
  have text : (padZeros (header ++ nonceTemplate client.extraNonce.1) (76 * 2)).length = 152 := by
    simp [padZeros, nonceTemplate, size]
  have low : client.extraNonce.1.setWidth 32 = 0#32 := by
    apply BitVec.eq_of_toNat_eq
    rw [nonce, BitVec.toNat_setWidth, BitVec.toNat_ofNat, Nat.mod_eq_of_lt (templateValue_lt (by omega)),
      templateValue_low short]
    rfl
  have offset : (client.startJob id).nonceOffset = 32 := by
    simp only [startJob, Job.nonceOffset, kawpow]
    decide
  have nonceSize : (client.startJob id).nonceSize = 8 := by
    simp only [startJob, Job.nonceSize, kawpow]
    decide
  have quiet : ((hash ++ (templateBytes client.extraNonce.1 ++ rest)).drop 32).take 4 = [0, 0, 0, 0] := by
    rw [List.drop_append_of_le_length (by omega), List.drop_of_length_le (by omega), List.nil_append]
    exact templateBytes_low low rest
  have set : (client.startJob id).setBlob
      (some (padZeros (header ++ nonceTemplate client.extraNonce.1) (76 * 2))) =
        some { client.startJob id with blob := hash ++ (templateBytes client.extraNonce.1 ++ rest) } := by
    simp only [Job.setBlob, text, offset, nonceSize, decoded, quiet]
    rfl
  refine ⟨_, set, kawpow, (Job.setBlob_sized set).1, ?_, ?_⟩
  · have extra : ((client.startJob id).extraNonce.getD "").length = digits.length := by
      simp [startJob, nonce, chars]
    rw [← extra]
    exact if_pos nonceSize
  · have base : Job.nonceOffset
        { client.startJob id with blob := hash ++ (templateBytes client.extraNonce.1 ++ rest) } = hash.length :=
      offset.trans length.symm
    have first := @readWord_template hash rest client.extraNonce.1 0 (by decide)
    have second := @readWord_template hash rest client.extraNonce.1 4 (by decide)
    rw [Nat.add_zero, Nat.mul_zero, BitVec.ushiftRight_zero, low] at first
    have high : (client.extraNonce.1 >>> (8 * 4)).setWidth 32 = BitVec.ofNat 32 (templateValue digits / 2 ^ 32) := by
      apply BitVec.eq_of_toNat_eq
      rw [nonce, BitVec.toNat_setWidth, BitVec.toNat_ushiftRight, BitVec.toNat_ofNat, BitVec.toNat_ofNat,
        Nat.mod_eq_of_lt (templateValue_lt (by omega)), Nat.shiftRight_eq_div_pow]
    simp only [WorkerJob.jobWords, base, first, second, high]
    rfl

theorem kawpowJob_prepared {job : Job} {chars : List Byte} {before after : List Access}
    (nonce : client.extraNonce = (BitVec.ofNat 64 (templateValue digits), some digits))
    (short : digits.length ≤ 8) (kawpow : client.algorithm = .kawpowRvn)
    (here : elements[1]? = some (.str chars)) (hex : Hex (Json.cString chars))
    (size : (Json.cString chars).length = 64)
    (built : (kawpowJob client elements (client.startJob id)).run before = .ok (job, after)) :
    Prepared digits job := by
  obtain ⟨start, set, prepared⟩ := @setBlob_prepared client digits _ id nonce short kawpow hex size
  simp only [kawpowJob, StateT.run_bind, Reading.getString_run here] at built
  change ((Reading.getString .params elements 3).run _ >>= _) = _ at built
  cases target : (Reading.getString .params elements 3).run (before ++ [.read ⟨.params, 1⟩ .string]) with
  | error fault => rw [target] at built; cases built
  | ok result =>
    rw [target] at built
    change ((Reading.getUint64 .params elements 5).run result.2 >>= _) = _ at built
    cases height : (Reading.getUint64 .params elements 5).run result.2 with
    | error fault => rw [height] at built; cases built
    | ok last =>
      rw [height, set] at built
      cases built
      exact ⟨prepared.algorithm, ⟨prepared.sized.nonce, prepared.sized.fits⟩, prepared.mask, prepared.words⟩

end Blob

end Xmrig.EthStratumClient
