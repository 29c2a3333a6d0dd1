import Xmrig.Stratum.Client

/-! The SOCKS5 handshake of a client whose pool is behind a proxy.

A read is looked at by itself: there is no buffer in which the parts of a reply could
come together. What the replies of the proxy mean is told by their whole stream.
Writes to the proxy succeed.
-/

set_option autoImplicit false

namespace Xmrig.Socks5

open Foundation

/-- The client while `m_socks5` is there, and what reaches the reader of the pool afterwards. -/
structure ProxyClient where
  state : Option SocksState := some .created
  nextSize : Nat := 0
  closed : Bool := false
  poolData : List Byte := []
  deriving DecidableEq, Repr

def handshake (client : ProxyClient) : ProxyClient :=
  { client with nextSize := 2, state := some .sentInitialHandshake }

def granted (data : List Byte) : Bool := data.getD 0 0 = 5 && data.getD 1 0 = 0

/-- `Socks5::read`; a handshake that is ready is deleted by its caller. -/
def readReply (client : ProxyClient) (socks : SocksState) (data : List Byte) : ProxyClient :=
  if data.length < client.nextSize then client
  else if granted data then
    if socks = .sentInitialHandshake then { client with nextSize := 5, state := some .sentFinalHandshake }
    else { client with state := none }
  else { client with closed := true }

/-- `Client::read`. A client that is closing is not read from. -/
def read (client : ProxyClient) (data : List Byte) : Option ProxyClient :=
  if client.closed then none
  else match client.state with
    | some socks => some (readReply client socks data)
    | none => some { client with poolData := client.poolData ++ data }

/-! ## What the proxy has said -/

inductive Verdict where
  | waiting
  | refused
  | ready (rest : List Byte)
  deriving DecidableEq, Repr

def replySize : List Byte → Option Nat
  | _ :: _ :: _ :: type :: rest =>
    if type = 1 then some 10
    else if type = 4 then some 22
    else if type = 3 then rest.head?.map fun length => 7 + length.toNat
    else none
  | _ => none

def connectVerdict (stream : List Byte) : Verdict :=
  if stream.length < 2 then .waiting
  else if granted stream then
    match replySize stream with
    | none => .waiting
    | some size => if size ≤ stream.length then .ready (stream.drop size) else .waiting
  else .refused

/-- The meaning of a stream: the method reply and the connect reply behind it. -/
def verdict (stream : List Byte) : Verdict :=
  if stream.length < 2 then .waiting
  else if granted stream then connectVerdict (stream.drop 2)
  else .refused

/-- The client is where the stream has brought it, and the pool's reader has got what follows. -/
def Agrees (client : ProxyClient) (stream : List Byte) : Prop :=
  match verdict stream with
  | .waiting => client.state.isSome ∧ client.closed = false ∧ client.poolData = []
  | .refused => client.state.isSome ∧ client.closed = true ∧ client.poolData = []
  | .ready rest => client.state = none ∧ client.closed = false ∧ client.poolData = rest

/-- A read during the handshake is empty, exactly one reply, or a refusal. -/
def OneReply (client : ProxyClient) (data : List Byte) : Prop :=
  match client.state with
  | none => True
  | some .created => False
  | some .sentInitialHandshake => data = [] ∨ data.length = 2 ∨ (2 ≤ data.length ∧ granted data = false)
  | some .sentFinalHandshake =>
    data = [] ∨ replySize data = some data.length ∨ (5 ≤ data.length ∧ granted data = false)

/-- What a client knows of the stream when every reply came in one read. -/
def Inv (client : ProxyClient) (stream : List Byte) : Prop :=
  if client.closed then client.state.isSome ∧ client.poolData = [] ∧ verdict stream = .refused
  else match client.state with
    | none => verdict stream = .ready client.poolData
    | some .created => False
    | some .sentInitialHandshake => client.nextSize = 2 ∧ client.poolData = [] ∧ stream = []
    | some .sentFinalHandshake => client.nextSize = 5 ∧ client.poolData = [] ∧ stream = [5, 0]

section Replies
variable {stream more : List Byte}

theorem granted_append (long : 2 ≤ stream.length) : granted (stream ++ more) = granted stream := by
  match stream, long with
  | _ :: _ :: _, _ => rfl

theorem replySize_append {size : Nat} (known : replySize stream = some size) :
    replySize (stream ++ more) = some size := by
  match stream, known with
  | first :: second :: third :: type :: rest, known =>
    simp only [replySize, List.cons_append] at known ⊢
    split at known
    · rename_i short
      rwa [if_pos short]
    · rename_i other
      split at known
      · rename_i long
        rwa [if_neg other, if_pos long]
      · rename_i neither
        split at known
        · rename_i named
          rw [if_neg other, if_neg neither, if_pos named]
          cases rest with
          | nil => cases known
          | cons length rest => exact known
        · cases known

theorem replySize_ge {size : Nat} (known : replySize stream = some size) : 7 ≤ size := by
  match stream, known with
  | first :: second :: third :: type :: rest, known =>
    simp only [replySize] at known
    split at known
    · cases known
      decide
    · split at known
      · cases known
        decide
      · split at known
        · obtain ⟨length, -, rfl⟩ := Option.map_eq_some_iff.mp known
          exact Nat.le_add_right 7 _
        · cases known

theorem connectVerdict_ready_append {rest : List Byte} (done : connectVerdict stream = .ready rest) :
    connectVerdict (stream ++ more) = .ready (rest ++ more) := by
  unfold connectVerdict at done
  split at done
  · cases done
  · rename_i long
    split at done
    · rename_i grants
      split at done
      · cases done
      · rename_i size known
        split at done
        · rename_i complete
          cases done
          have length : (stream ++ more).length = stream.length + more.length := List.length_append
          rw [connectVerdict, if_neg (by omega), if_pos (by rwa [granted_append (by omega)]),
            replySize_append known]
          simp only
          rw [if_pos (by omega), List.drop_append_of_le_length complete]
        · cases done
    · cases done

theorem verdict_ready_append {rest : List Byte} (done : verdict stream = .ready rest) :
    verdict (stream ++ more) = .ready (rest ++ more) := by
  unfold verdict at done
  split at done
  · cases done
  · rename_i long
    split at done
    · rename_i grants
      have length : (stream ++ more).length = stream.length + more.length := List.length_append
      rw [verdict, if_neg (by omega), if_pos (by rwa [granted_append (by omega)]),
        List.drop_append_of_le_length (by omega)]
      exact connectVerdict_ready_append done
    · cases done

theorem connectVerdict_refused (long : 2 ≤ stream.length) (refuses : granted stream = false) :
    connectVerdict stream = .refused := by
  rw [connectVerdict, if_neg (by omega), if_neg (by simp [refuses])]

theorem connectVerdict_whole (whole : replySize stream = some stream.length) (grants : granted stream = true) :
    connectVerdict stream = .ready [] := by
  have long := replySize_ge whole
  rw [connectVerdict, if_neg (by omega), if_pos grants, whole]
  simp

end Replies

section Runs
variable {client after : ProxyClient} {stream data : List Byte}

theorem granted_pair (two : data.length = 2) (grants : granted data = true) : data = [5, 0] := by
  match data, two with
  | [first, second], _ => simpa [granted] using grants

theorem Inv.read (inv : Inv client stream) (one : OneReply client data) (done : read client data = some after) :
    Inv after (stream ++ data) := by
  unfold Socks5.read at done
  cases closed : client.closed with
  | true => simp [closed] at done
  | false =>
    rw [Inv, closed] at inv
    simp only [Bool.false_eq_true, if_false] at inv
    simp only [closed, Bool.false_eq_true, if_false] at done
    cases state : client.state with
    | none =>
      simp only [state, Option.some.injEq] at inv done
      subst done
      simpa [Inv, closed, state] using verdict_ready_append inv
    | some socks =>
      simp only [state, Option.some.injEq] at done
      rw [state] at inv
      simp only [OneReply, state] at one
      have silent : readReply client socks [] = client ∨ client.nextSize = 0 := by
        by_cases zero : client.nextSize = 0
        · exact .inr zero
        · exact .inl (if_pos (by simpa [Nat.pos_iff_ne_zero] using zero))
      cases socks with
      | created => exact inv.elim
      | sentInitialHandshake =>
        obtain ⟨size, empty, begun⟩ := inv
        subst begun
        rw [List.nil_append]
        obtain rfl | long : data = [] ∨ 2 ≤ data.length := by
          obtain none | two | refusal := one
          · exact .inl none
          · exact .inr (by omega)
          · exact .inr refusal.1
        · rw [silent.resolve_right (by omega)] at done
          subst done
          simp [Inv, closed, state, size, empty]
        · rw [readReply, if_neg (by omega)] at done
          cases grants : granted data with
          | true =>
            have two : data.length = 2 := by
              obtain none | two | refusal := one
              · simp [none] at long
              · exact two
              · simp [refusal.2] at grants
            simp only [grants, if_true] at done
            subst done
            simp [Inv, closed, empty, granted_pair two grants]
          | false =>
            simp only [grants, Bool.false_eq_true, if_false] at done
            subst done
            have refused : verdict data = .refused := by
              rw [verdict, if_neg (by omega), if_neg (by simp [grants])]
            simp [Inv, state, empty, refused]
      | sentFinalHandshake =>
        obtain ⟨size, empty, begun⟩ := inv
        subst begun
        have behind : verdict (5#8 :: 0#8 :: data) = connectVerdict data := by
          simp [verdict, granted]
        obtain rfl | long : data = [] ∨ 5 ≤ data.length := by
          obtain none | whole | refusal := one
          · exact .inl none
          · have enough := replySize_ge whole
            exact .inr (by omega)
          · exact .inr refusal.1
        · rw [silent.resolve_right (by omega)] at done
          subst done
          simp [Inv, closed, state, size, empty]
        · rw [readReply, if_neg (by omega)] at done
          cases grants : granted data with
          | true =>
            have whole : replySize data = some data.length := by
              obtain none | whole | refusal := one
              · simp [none] at long
              · exact whole
              · simp [refusal.2] at grants
            simp only [grants, if_true] at done
            subst done
            simpa [Inv, closed, behind, empty] using connectVerdict_whole whole grants
          | false =>
            simp only [grants, Bool.false_eq_true, if_false] at done
            subst done
            simpa [Inv, state, empty, behind] using connectVerdict_refused (by omega) grants

theorem Inv.run {reads : List (List Byte)} (inv : Inv client stream) (whole : Guarded Socks5.read OneReply client reads)
    (executed : run Socks5.read client reads = some after) : Inv after (stream ++ reads.flatten) := by
  induction reads generalizing client stream with
  | nil =>
    cases executed
    simpa using inv
  | cons data rest ih =>
    obtain ⟨next, done, executed⟩ := run_cons_iff.mp executed
    rw [List.flatten_cons, ← List.append_assoc]
    exact ih (inv.read whole.1 done) (whole.2 next done) executed

theorem Inv.agrees (inv : Inv client stream) : Agrees client stream := by
  unfold Inv at inv
  unfold Agrees
  split at inv
  · rename_i closed
    rw [inv.2.2]
    exact ⟨inv.1, closed, inv.2.1⟩
  · rename_i open_
    have closed : client.closed = false := by simpa using open_
    split at inv
    · rename_i state
      rw [inv]
      exact ⟨state, closed, rfl⟩
    · exact inv.elim
    · rename_i state
      rw [inv.2.2]
      exact ⟨by simp [state], closed, inv.2.1⟩
    · rename_i state
      rw [inv.2.2]
      exact ⟨by simp [state], closed, inv.2.1⟩

end Runs

/-! ## The request for a connection -/

/-- What reads a host as a numeric address. -/
structure AddressParser where
  ip4 : List Byte → Option (List Byte)
  ip6 : List Byte → Option (List Byte)
  ip4_length : ∀ host address, ip4 host = some address → address.length = 4
  ip6_length : ∀ host address, ip6 host = some address → address.length = 16

inductive Destination where
  | ip4 (address : List Byte)
  | ip6 (address : List Byte)
  | domain (host : List Byte)
  deriving DecidableEq, Repr

/-- The buffer that `connect` writes; the port is in network order. -/
def request (parser : AddressParser) (host : List Byte) (port : BitVec 16) : List Byte :=
  let destination :=
    match parser.ip4 host with
    | some address => 1 :: address
    | none =>
      match parser.ip6 host with
      | some address => 4 :: address
      | none => 3 :: BitVec.ofNat 8 host.length :: host
  ([5, 1, 0] : List Byte) ++ destination ++ [(port >>> 8).setWidth 8, port.setWidth 8]

def destination (parser : AddressParser) (host : List Byte) : Destination :=
  match parser.ip4 host with
  | some address => .ip4 address
  | none =>
    match parser.ip6 host with
    | some address => .ip6 address
    | none => .domain host

def decodePort : List Byte → Option (BitVec 16)
  | [high, low] => some (high ++ low)
  | _ => none

def decode : List Byte → Option (Destination × BitVec 16)
  | version :: command :: _ :: type :: rest =>
    if version = 5 ∧ command = 1 then
      if type = 1 then (decodePort (rest.drop 4)).map fun port => (.ip4 (rest.take 4), port)
      else if type = 4 then (decodePort (rest.drop 16)).map fun port => (.ip6 (rest.take 16), port)
      else if type = 3 then
        match rest with
        | [] => none
        | length :: rest =>
          (decodePort (rest.drop length.toNat)).map fun port => (.domain (rest.take length.toNat), port)
      else none
    else none
  | _ => none

theorem decodePort_bytes (port : BitVec 16) :
    decodePort [(port >>> 8).setWidth 8, port.setWidth 8] = some port := by
  rw [decodePort, Option.some.injEq]
  apply BitVec.eq_of_getLsbD_eq
  intro index inside
  simp only [BitVec.getLsbD_append, BitVec.getLsbD_setWidth, BitVec.getLsbD_ushiftRight]
  by_cases low : index < 8
  · simp [low]
  · have shift : 8 + (index - 8) = index := by omega
    simp [low, shift, show index - 8 < 8 by omega]

theorem decode_request (parser : AddressParser) (host : List Byte) (port : BitVec 16) (short : host.length ≤ 255) :
    decode (request parser host port) = some (destination parser host, port) := by
  unfold request destination
  cases numeric : parser.ip4 host with
  | some address =>
    have length := parser.ip4_length host address numeric
    simp [decode, List.take_left' length, List.drop_left' length, decodePort_bytes]
  | none =>
    cases wide : parser.ip6 host with
    | some address =>
      have length := parser.ip6_length host address wide
      simp [decode, List.take_left' length, List.drop_left' length, decodePort_bytes]
    | none =>
      have length : (BitVec.ofNat 8 host.length).toNat = host.length := by
        rw [BitVec.toNat_ofNat]
        omega
      simp only [decode, List.cons_append, List.nil_append, length]
      simp [decodePort_bytes]

/-- When every reply comes in one read, the client is at any time where the stream of the proxy
has brought it. The request for a host of at most 255 bytes names that host and port. -/
theorem socks5_agrees {reads : List (List Byte)} {client : ProxyClient}
    (whole : Guarded read OneReply (handshake {}) reads) (executed : run read (handshake {}) reads = some client)
    (parser : AddressParser) (host : List Byte) (port : BitVec 16) (short : host.length ≤ 255) :
    Agrees client reads.flatten ∧ decode (request parser host port) = some (destination parser host, port) := by
  refine ⟨?_, decode_request parser host port short⟩
  have start : Inv (handshake {}) [] := ⟨rfl, rfl, rfl⟩
  exact (start.run whole executed).agrees

def namesOnly : AddressParser := ⟨fun _ => none, fun _ => none, by simp, by simp⟩

def wholeReplies : List (List Byte) := [[5, 0], [5, 0, 0, 1, 10, 0, 0, 1, 4, 210], [123, 125, 10]]

instance (client : ProxyClient) (data : List Byte) : Decidable (OneReply client data) := by
  unfold OneReply
  split <;> infer_instance

instance (client : ProxyClient) (stream : List Byte) : Decidable (Agrees client stream) := by
  unfold Agrees
  split <;> infer_instance

theorem socks5_agrees_wholeReplies :
    Agrees { state := none, nextSize := 5, poolData := [123, 125, 10] } wholeReplies.flatten ∧
      decode (request namesOnly [97] 3333) = some (.domain [97], 3333) :=
  socks5_agrees (by decide) (by decide) namesOnly [97] 3333 (by decide)

/-- A connect reply in two reads: its second part is taken for a line of the pool. Both replies in
one read: the client waits for a reply that it has dropped. -/
theorem socks5_cut_replies :
    (∃ client, run read (handshake {}) [[5, 0], [5, 0, 0, 1, 10, 0], [0, 1, 4, 210]] = some client ∧
      client.poolData = [0, 1, 4, 210] ∧
      ¬ Agrees client [5, 0, 5, 0, 0, 1, 10, 0, 0, 1, 4, 210]) ∧
    ∃ client, run read (handshake {}) [[5, 0, 5, 0, 0, 1, 10, 0, 0, 1, 4, 210]] = some client ∧
      client.state = some .sentFinalHandshake ∧
      ¬ Agrees client [5, 0, 5, 0, 0, 1, 10, 0, 0, 1, 4, 210] :=
  ⟨⟨_, rfl, by decide, by decide⟩, ⟨_, rfl, by decide, by decide⟩⟩

end Xmrig.Socks5
