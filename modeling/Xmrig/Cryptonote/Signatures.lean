import Mathlib.Data.ZMod.Basic
import Xmrig.Base.Json
import Xmrig.Cryptonote.Varint

/-! Miner signatures and one-time keys.

The curve is a group of the order that the scalar arithmetic reduces by, and the hash
is any function. An array of 32 bytes is the little-endian number that it is read as.
-/

set_option autoImplicit false

namespace Xmrig.Signatures

open Foundation

/-- 32 bytes. -/
abbrev Key := BitVec 256

def Key.bytes (key : Key) : List Byte := (List.range 32).map fun i => (key >>> (8 * i)).setWidth 8

def groupOrder : Nat := 2 ^ 252 + 27742317777372353535851937790883648493

/-- The points that are computed with, and their encoding. -/
structure Curve (Point : Type) [AddCommGroup Point] where
  base : Point
  order : ∀ point : Point, groupOrder • point = 0
  base_order : ∀ n : Nat, n • base = 0 → groupOrder ∣ n
  tobytes : Point → Key
  frombytes : Key → Option Point
  frombytes_tobytes : ∀ point, frombytes (tobytes point) = some point
  tobytes_zero : tobytes 0 = 1#256

/-! Scalars. -/

def scReduce32 (s : Key) : Key := BitVec.ofNat 256 (s.toNat % groupOrder)

def scAdd (a b : Key) : Key := BitVec.ofNat 256 ((a.toNat + b.toNat) % groupOrder)

def scSub (a b : Key) : Key := BitVec.ofNat 256 (((a.toNat : Int) - b.toNat) % groupOrder).toNat

/-- `(c - ab) mod l`. -/
def scMulsub (a b c : Key) : Key :=
  BitVec.ofNat 256 (((c.toNat : Int) - a.toNat * b.toNat) % groupOrder).toNat

/-- `sc_check` gives zero. -/
def scCheck (s : Key) : Bool := s.toNat < groupOrder

def scIsnonzero (s : Key) : Bool := s ≠ 0#256

structure Signature where
  c : Key
  r : Key
  deriving DecidableEq

section Functions
variable {Point : Type} [AddCommGroup Point] (curve : Curve Point) (keccak : List Byte → Key)

def publicKey (secret : Key) : Key := curve.tobytes (secret.toNat • curve.base)

def hashToScalar (data : List Byte) : Key := scReduce32 (keccak data)

/-- The index is written behind the derivation; nothing if it is longer than its part of the
buffer. `width` is that of `size_t`. -/
def derivationToScalar {width : Nat} (derivation : Key) (outputIndex : BitVec width) : Option Key :=
  if (width + 6) / 7 < (putVarint outputIndex).length then none
  else some (hashToScalar keccak (derivation.bytes ++ putVarint outputIndex))

def challenge (prefixHash pub comm : Key) : Key :=
  hashToScalar keccak (prefixHash.bytes ++ pub.bytes ++ comm.bytes)

/-- One round of the loop on a random scalar. Without a challenge the response stays as it is. -/
def signRound (prefixHash pub sec draw : Key) (sig : Signature) : Signature :=
  let k := scReduce32 draw
  let comm := publicKey curve k
  let c := challenge keccak prefixHash pub comm
  if scIsnonzero c then ⟨c, scMulsub c sec k⟩ else { sig with c }

/-- The loop over the random scalars that are drawn; nothing if they do not suffice. The last
argument is what the output holds. -/
def generateSignature (prefixHash pub sec : Key) : List Key → Signature → Option Signature
  | [], _ => none
  | draw :: rest, sig =>
    let sig := signRound curve keccak prefixHash pub sec draw sig
    if scIsnonzero sig.r then some sig else generateSignature prefixHash pub sec rest sig

def checkSignature (prefixHash pub : Key) (sig : Signature) : Bool :=
  match curve.frombytes pub with
  | none => false
  | some point =>
    if scCheck sig.c && scCheck sig.r && scIsnonzero sig.c then
      let comm := curve.tobytes (sig.c.toNat • point + sig.r.toNat • curve.base)
      if comm = 1#256 then false
      else !scIsnonzero (scSub (challenge keccak prefixHash pub comm) sig.c)
    else false

def generateKeyDerivation (key1 key2 : Key) : Option (Key × Byte) :=
  (curve.frombytes key1).map fun point =>
    let derivation := curve.tobytes (8 • (key2.toNat • point))
    (derivation, (keccak (text "view_tag" ++ derivation.bytes ++ [0])).setWidth 8)

def deriveSecretKey {width : Nat} (derivation : Key) (outputIndex : BitVec width) (base : Key) : Option Key :=
  (derivationToScalar keccak derivation outputIndex).map fun scalar => scAdd base scalar

def derivePublicKey {width : Nat} (derivation : Key) (outputIndex : BitVec width) (base : Key) : Option Key :=
  match curve.frombytes base with
  | none => none
  | some point =>
    (derivationToScalar keccak derivation outputIndex).map fun scalar =>
      curve.tobytes (point + scalar.toNat • curve.base)

end Functions

/-! ## Scalars and points -/

theorem groupOrder_pos : 0 < groupOrder := by decide

theorem toNat_reduced (n : Nat) : (BitVec.ofNat 256 (n % groupOrder)).toNat = n % groupOrder := by
  have small : n % groupOrder < groupOrder := Nat.mod_lt n groupOrder_pos
  have fits : groupOrder < 2 ^ 256 := by decide
  rw [BitVec.toNat_ofNat]
  exact Nat.mod_eq_of_lt (small.trans fits)

theorem scReduce32_toNat (s : Key) : (scReduce32 s).toNat = s.toNat % groupOrder := toNat_reduced s.toNat

theorem scAdd_toNat (a b : Key) : (scAdd a b).toNat = (a.toNat + b.toNat) % groupOrder := toNat_reduced _

theorem scIsnonzero_iff (s : Key) : scIsnonzero s = true ↔ s.toNat ≠ 0 := by
  rw [scIsnonzero, decide_eq_true_iff, ne_eq, ne_eq, ← BitVec.toNat_inj]
  rfl

theorem toNat_ofInt_emod (n : Int) :
    (BitVec.ofNat 256 (n % groupOrder).toNat).toNat = (n % groupOrder).toNat := by
  have positive : (0 : Int) < groupOrder := by exact_mod_cast groupOrder_pos
  have least := Int.emod_nonneg n positive.ne'
  have small := Int.emod_lt_of_pos n positive
  have fits : groupOrder < 2 ^ 256 := by decide
  rw [BitVec.toNat_ofNat]
  apply Nat.mod_eq_of_lt
  omega

section Group
variable {Point : Type} [AddCommGroup Point] (curve : Curve Point)

theorem Curve.nsmul_mod (curve : Curve Point) (n : Nat) (point : Point) : (n % groupOrder) • point = n • point := by
  conv_rhs => rw [← Nat.div_add_mod n groupOrder, add_nsmul, mul_nsmul', curve.order, zero_add]

theorem Curve.frombytes_publicKey (secret : Key) :
    curve.frombytes (publicKey curve secret) = some (secret.toNat • curve.base) :=
  curve.frombytes_tobytes _

theorem Curve.tobytes_eq_one_iff (point : Point) : curve.tobytes point = 1#256 ↔ point = 0 := by
  constructor
  · intro same
    rw [← curve.tobytes_zero] at same
    have decoded := congrArg curve.frombytes same
    rw [curve.frombytes_tobytes, curve.frombytes_tobytes] at decoded
    exact Option.some.inj decoded
  · rintro rfl
    exact curve.tobytes_zero

end Group

/-! ## Signatures -/

section Sign
variable {Point : Type} [AddCommGroup Point] (curve : Curve Point) (keccak : List Byte → Key)
variable (prefixHash sec draw : Key)

theorem response_opens (c k : Key) :
    c.toNat • (sec.toNat • curve.base) + (scMulsub c sec k).toNat • curve.base = k.toNat • curve.base := by
  have positive : (0 : Int) < groupOrder := by exact_mod_cast groupOrder_pos
  have response : ((scMulsub c sec k).toNat : Int) = ((k.toNat : Int) - c.toNat * sec.toNat) % groupOrder := by
    rw [scMulsub, toNat_ofInt_emod]
    exact Int.toNat_of_nonneg (Int.emod_nonneg _ positive.ne')
  have sum : (c.toNat * sec.toNat + (scMulsub c sec k).toNat) % groupOrder = k.toNat % groupOrder := by
    zify
    rw [response, Int.add_emod, Int.emod_emod_of_dvd _ dvd_rfl, ← Int.add_emod]
    congr 1
    ring
  rw [← mul_nsmul', ← add_nsmul, ← curve.nsmul_mod, sum, curve.nsmul_mod]

theorem scCheck_hashToScalar (data : List Byte) : scCheck (hashToScalar keccak data) = true := by
  rw [scCheck, decide_eq_true_iff, hashToScalar, scReduce32_toNat]
  exact Nat.mod_lt _ groupOrder_pos

theorem scCheck_scMulsub (a b c : Key) : scCheck (scMulsub a b c) = true := by
  have positive : (0 : Int) < groupOrder := by exact_mod_cast groupOrder_pos
  have small := Int.emod_lt_of_pos ((c.toNat : Int) - a.toNat * b.toNat) positive
  have least := Int.emod_nonneg ((c.toNat : Int) - a.toNat * b.toNat) positive.ne'
  rw [scCheck, decide_eq_true_iff, scMulsub, toNat_ofInt_emod]
  omega

theorem scSub_self (a : Key) : scSub a a = 0#256 := by
  rw [scSub, Int.sub_self, Int.zero_emod]
  rfl

/-- The commitment is the neutral point only for the scalar zero. -/
theorem publicKey_eq_one_iff : publicKey curve (scReduce32 draw) = 1#256 ↔ scIsnonzero (scReduce32 draw) = false := by
  rw [publicKey, curve.tobytes_eq_one_iff, ← Bool.not_eq_true, scIsnonzero_iff, not_not]
  constructor
  · intro neutral
    apply Nat.eq_zero_of_dvd_of_lt (curve.base_order _ neutral)
    rw [scReduce32_toNat]
    exact Nat.mod_lt _ groupOrder_pos
  · intro zero
    rw [zero, zero_nsmul]

def drawnChallenge : Key :=
  challenge keccak prefixHash (publicKey curve sec) (publicKey curve (scReduce32 draw))

theorem signRound_challenged (sig : Signature)
    (challenged : scIsnonzero (drawnChallenge curve keccak prefixHash sec draw) = true) :
    signRound curve keccak prefixHash (publicKey curve sec) sec draw sig =
      ⟨drawnChallenge curve keccak prefixHash sec draw,
        scMulsub (drawnChallenge curve keccak prefixHash sec draw) sec (scReduce32 draw)⟩ :=
  if_pos challenged

/-- A response to a challenge verifies unless the random scalar was zero. -/
theorem signRound_checks (sig : Signature)
    (challenged : scIsnonzero (drawnChallenge curve keccak prefixHash sec draw) = true) :
    checkSignature curve keccak prefixHash (publicKey curve sec)
      (signRound curve keccak prefixHash (publicKey curve sec) sec draw sig) =
      scIsnonzero (scReduce32 draw) := by
  have canonical : scCheck (drawnChallenge curve keccak prefixHash sec draw) = true :=
    scCheck_hashToScalar keccak _
  have comm : curve.tobytes ((drawnChallenge curve keccak prefixHash sec draw).toNat • sec.toNat • curve.base +
      (scMulsub (drawnChallenge curve keccak prefixHash sec draw) sec (scReduce32 draw)).toNat • curve.base) =
      publicKey curve (scReduce32 draw) := by
    rw [response_opens]
    rfl
  have same : challenge keccak prefixHash (publicKey curve sec) (publicKey curve (scReduce32 draw)) =
      drawnChallenge curve keccak prefixHash sec draw := rfl
  rw [signRound_challenged curve keccak prefixHash sec draw sig challenged, checkSignature,
    curve.frombytes_publicKey]
  dsimp only
  rw [canonical, scCheck_scMulsub, challenged, comm, same, scSub_self]
  cases scalar : scIsnonzero (scReduce32 draw) with
  | false =>
    rw [if_pos ((publicKey_eq_one_iff curve draw).mpr scalar)]
    rfl
  | true =>
    have proper : publicKey curve (scReduce32 draw) ≠ 1#256 := fun one =>
      absurd ((publicKey_eq_one_iff curve draw).mp one) (by rw [scalar]; decide)
    rw [if_neg proper]
    rfl

/-- The outcome that a caller counts on. -/
structure Verifies (sig : Signature) : Prop where
  c : scIsnonzero sig.c = true
  r : scIsnonzero sig.r = true
  check : checkSignature curve keccak prefixHash (publicKey curve sec) sig = true

theorem generateSignature_challenged {rest : List Key} {out sig : Signature}
    (proper : scIsnonzero (scReduce32 draw) = true)
    (challenged : scIsnonzero (drawnChallenge curve keccak prefixHash sec draw) = true)
    (returned : generateSignature curve keccak prefixHash (publicKey curve sec) sec (draw :: rest) out = some sig) :
    Verifies curve keccak prefixHash sec sig ∨ ∃ next : Signature, scIsnonzero next.r = false ∧
      generateSignature curve keccak prefixHash (publicKey curve sec) sec rest next = some sig := by
  have round := signRound_challenged curve keccak prefixHash sec draw out challenged
  have checks := signRound_checks curve keccak prefixHash sec draw out challenged
  rw [generateSignature] at returned
  split at returned
  · rename_i done
    cases returned
    left
    rw [proper] at checks
    have c : scIsnonzero (signRound curve keccak prefixHash (publicKey curve sec) sec draw out).c = true := by
      rw [round]
      exact challenged
    exact ⟨c, done, checks⟩
  · rename_i more
    right
    exact ⟨_, Bool.eq_false_iff.mpr more, returned⟩

theorem generateSignature_of_zero {draws : List Key} {out sig : Signature}
    (proper : ∀ draw ∈ draws, scIsnonzero (scReduce32 draw) = true) (fresh : scIsnonzero out.r = false)
    (returned : generateSignature curve keccak prefixHash (publicKey curve sec) sec draws out = some sig) :
    Verifies curve keccak prefixHash sec sig := by
  induction draws generalizing out with
  | nil => cases returned
  | cons draw rest ih =>
    rw [List.forall_mem_cons] at proper
    cases challenged : scIsnonzero (drawnChallenge curve keccak prefixHash sec draw) with
    | true =>
      rcases generateSignature_challenged curve keccak prefixHash sec draw proper.1 challenged returned with
        verified | ⟨next, zero, later⟩
      · exact verified
      · exact ih proper.2 zero later
    | false =>
      -- the response is still the one that was there before
      have kept : (signRound curve keccak prefixHash (publicKey curve sec) sec draw out).r = out.r := by
        unfold signRound
        dsimp only
        rw [if_neg]
        exact Bool.eq_false_iff.mp challenged
      rw [generateSignature, if_neg (by rw [kept, fresh]; decide)] at returned
      exact ih proper.2 (by rw [kept]; exact fresh) returned

/-- A signature verifies if no random scalar is zero and the loop does not find an old response
before its first challenge. -/
theorem generateSignature_verifies {draws : List Key} {out sig : Signature}
    (proper : ∀ draw ∈ draws, scIsnonzero (scReduce32 draw) = true)
    (fresh : scIsnonzero out.r = false ∨ ∀ draw, draws.head? = some draw →
      scIsnonzero (drawnChallenge curve keccak prefixHash sec draw) = true)
    (returned : generateSignature curve keccak prefixHash (publicKey curve sec) sec draws out = some sig) :
    Verifies curve keccak prefixHash sec sig := by
  rcases fresh with zero | first
  · exact generateSignature_of_zero curve keccak prefixHash sec proper zero returned
  · cases draws with
    | nil => cases returned
    | cons draw rest =>
      rw [List.forall_mem_cons] at proper
      rcases generateSignature_challenged curve keccak prefixHash sec draw proper.1 (first draw rfl) returned with
        verified | ⟨next, zero, later⟩
      · exact verified
      · exact generateSignature_of_zero curve keccak prefixHash sec proper.2 zero later

end Sign

/-! A group with the encoding of its elements by their numbers. -/

instance : NeZero groupOrder := ⟨groupOrder_pos.ne'⟩

def cyclicBytes (point : ZMod groupOrder) : Key := BitVec.ofNat 256 (point.val + 1)

def cyclicPoint (bytes : Key) : Option (ZMod groupOrder) :=
  if 1 ≤ bytes.toNat ∧ bytes.toNat ≤ groupOrder then some ((bytes.toNat - 1 : Nat) : ZMod groupOrder) else none

theorem cyclicBytes_toNat (point : ZMod groupOrder) : (cyclicBytes point).toNat = point.val + 1 := by
  have small := ZMod.val_lt point
  have fits : groupOrder + 1 < 2 ^ 256 := by decide
  rw [cyclicBytes, BitVec.toNat_ofNat]
  apply Nat.mod_eq_of_lt
  omega

def cyclic : Curve (ZMod groupOrder) where
  base := 1
  order point := by rw [nsmul_eq_mul, ZMod.natCast_self, zero_mul]
  base_order n zero := by
    rw [nsmul_eq_mul, mul_one] at zero
    exact (ZMod.natCast_eq_zero_iff n groupOrder).mp zero
  tobytes := cyclicBytes
  frombytes := cyclicPoint
  frombytes_tobytes point := by
    have small := ZMod.val_lt point
    rw [cyclicPoint, cyclicBytes_toNat, if_pos (by omega), Nat.add_sub_cancel, ZMod.natCast_zmod_val]
  tobytes_zero := by rw [cyclicBytes, ZMod.val_zero]

/-- With the random scalar zero the commitment is the point that is refused. -/
theorem generateSignature_zero_draw :
    ∃ sig, generateSignature cyclic (fun _ => 1#256) 0#256 (publicKey cyclic 1#256) 1#256 [0#256] ⟨0#256, 0#256⟩ =
      some sig ∧ checkSignature cyclic (fun _ => 1#256) 0#256 (publicKey cyclic 1#256) sig = false := by
  have challenged : scIsnonzero (drawnChallenge cyclic (fun _ => 1#256) 0#256 1#256 0#256) = true := by
    change scIsnonzero (scReduce32 1#256) = true
    decide
  have checks := signRound_checks cyclic (fun _ => 1#256) 0#256 1#256 0#256 ⟨0#256, 0#256⟩ challenged
  have answered : scIsnonzero (scMulsub (scReduce32 1#256) 1#256 (scReduce32 0#256)) = true := by decide
  refine ⟨_, ?_, checks.trans (by decide)⟩
  rw [generateSignature, if_pos]
  rw [signRound_challenged cyclic _ _ _ _ _ challenged]
  exact answered

/-- The random scalar three signs. -/
theorem generateSignature_three_verifies :
    ∃ sig, generateSignature cyclic (fun _ => 1#256) 0#256 (publicKey cyclic 1#256) 1#256 [3#256] ⟨0#256, 7#256⟩ =
      some sig ∧ Verifies cyclic (fun _ => 1#256) 0#256 1#256 sig := by
  have challenged : scIsnonzero (drawnChallenge cyclic (fun _ => 1#256) 0#256 1#256 3#256) = true := by
    change scIsnonzero (scReduce32 1#256) = true
    decide
  have returned : generateSignature cyclic (fun _ => 1#256) 0#256 (publicKey cyclic 1#256) 1#256 [3#256]
      ⟨0#256, 7#256⟩ = some (signRound cyclic (fun _ => 1#256) 0#256 (publicKey cyclic 1#256) 1#256 3#256
        ⟨0#256, 7#256⟩) := by
    have answered : scIsnonzero (scMulsub (scReduce32 1#256) 1#256 (scReduce32 3#256)) = true := by decide
    rw [generateSignature, if_pos]
    rw [signRound_challenged cyclic _ _ _ _ _ challenged]
    exact answered
  have proper : ∀ draw ∈ [3#256], scIsnonzero (scReduce32 draw) = true := by
    intro draw member
    rw [List.mem_singleton.mp member]
    decide
  refine ⟨_, returned, generateSignature_verifies cyclic _ 0#256 1#256 proper (Or.inr ?_) returned⟩
  intro draw head
  cases head
  exact challenged

/-! ## One-time keys -/

section Keys
variable {Point : Type} [AddCommGroup Point] (curve : Curve Point) (keccak : List Byte → Key)

theorem derivationToScalar_fits {width : Nat} (some : 0 < width) (derivation : Key) (outputIndex : BitVec width) :
    derivationToScalar keccak derivation outputIndex =
      .some (hashToScalar keccak (derivation.bytes ++ varint outputIndex.toNat)) := by
  have fits := varint_length_word some outputIndex.isLt
  rw [derivationToScalar, putVarint_eq, if_neg (Nat.not_lt.mpr fits)]

theorem generateKeyDerivation_publicKey (secret key : Key) :
    generateKeyDerivation curve keccak (publicKey curve secret) key =
      some (curve.tobytes (8 • key.toNat • secret.toNat • curve.base),
        (keccak (text "view_tag" ++
          (curve.tobytes (8 • key.toNat • secret.toNat • curve.base)).bytes ++ [0])).setWidth 8) := by
  rw [generateKeyDerivation, curve.frombytes_publicKey]
  rfl

theorem publicKey_scAdd (a b : Key) :
    publicKey curve (scAdd a b) = curve.tobytes (a.toNat • curve.base + b.toNat • curve.base) := by
  rw [publicKey, scAdd_toNat, curve.nsmul_mod, add_nsmul]

theorem derivePublicKey_publicKey {width : Nat} (derivation : Key) (outputIndex : BitVec width) (base : Key) :
    derivePublicKey curve keccak derivation outputIndex (publicKey curve base) =
      (deriveSecretKey keccak derivation outputIndex base).map (publicKey curve) := by
  rw [derivePublicKey, curve.frombytes_publicKey, deriveSecretKey, Option.map_map]
  dsimp only
  congr 1
  funext scalar
  exact (publicKey_scAdd curve base scalar).symm

/-- Sender and receiver derive the same, and the derived secret key is that of the derived public
key, at every index. -/
theorem keys_consistent {width : Nat} (some : 0 < width) :
    (∀ r v : Key, ∃ derived : Key × Byte,
      generateKeyDerivation curve keccak (publicKey curve v) r = .some derived ∧
      generateKeyDerivation curve keccak (publicKey curve r) v = .some derived) ∧
    (∀ (d : Key) (i : BitVec width) (b : Key), ∃ secret : Key,
      deriveSecretKey keccak d i b = .some secret ∧
      derivePublicKey curve keccak d i (publicKey curve b) = .some (publicKey curve secret)) ∧
    ∀ i : BitVec width, (putVarint i).length ≤ (width + 6) / 7 := by
  refine ⟨?_, ?_, ?_⟩
  · intro r v
    have swapped : r.toNat • v.toNat • curve.base = v.toNat • r.toNat • curve.base := smul_comm _ _ _
    refine ⟨_, generateKeyDerivation_publicKey curve keccak v r, ?_⟩
    rw [generateKeyDerivation_publicKey, swapped]
  · intro d i b
    have derived : deriveSecretKey keccak d i b = .some _ :=
      congrArg (Option.map (scAdd b)) (derivationToScalar_fits keccak some d i)
    refine ⟨_, derived, ?_⟩
    rw [derivePublicKey_publicKey, derived]
    rfl
  · intro i
    rw [putVarint_eq]
    exact varint_length_word some i.isLt

end Keys

/-- The keys of a wallet on 64 bits. -/
theorem keys_consistent_word : generateKeyDerivation cyclic (fun _ => 1#256) (publicKey cyclic 5#256) 7#256 =
      generateKeyDerivation cyclic (fun _ => 1#256) (publicKey cyclic 7#256) 5#256 ∧
    (putVarint 18446744073709551615#64).length ≤ 10 := by
  have consistent := @keys_consistent _ _ cyclic (fun _ => 1#256) 64 (by decide)
  obtain ⟨derived, first, second⟩ := consistent.1 7#256 5#256
  exact ⟨first.trans second.symm, consistent.2.2 18446744073709551615#64⟩

end Xmrig.Signatures
