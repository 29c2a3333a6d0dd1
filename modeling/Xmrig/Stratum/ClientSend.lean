import Xmrig.Base.Json
import Xmrig.Foundation.JsonText
import Xmrig.Foundation.Run

/-! The send buffer of a client.

Requests are written into the buffer, which grows for them; the keepalive is printed into
the buffer as it is. Either way the number of bytes is handed to the sender, which looks
at nothing else.
-/

set_option autoImplicit false

namespace Xmrig

open Foundation Foundation.JsonText

/-- One call of `send(size_t)`, with the buffer it finds. -/
structure SizedSend where
  size : Nat
  buf : List Byte
  deriving DecidableEq, Repr

/-- A client as far as its messages go. `sequence` is shared by all clients. -/
structure Sender where
  sendBuf : List Byte := List.replicate 1024 0
  rpcId : Option (List Byte) := none
  sequence : Int := 1
  sends : List SizedSend := []
  deriving DecidableEq, Repr

namespace Sender

/-- `kMaxSendBufferSize`. -/
def maxSendBufferSize : Nat := 1024 * 16

inductive Event where
  | setRpcId (id : Option (List Byte))
  | send (obj : Value) (sent : Bool)
  | ping (sent : Bool)
  | sequence

/-- `send(size_t)`; a message that could be sent uses up its number. -/
def sendBytes (sender : Sender) (size : Nat) (sent : Bool) : Sender :=
  { sender with
    sends := sender.sends ++ [⟨size, sender.sendBuf⟩]
    sequence := if sent then sender.sequence + 1 else sender.sequence }

/-- `std::vector::resize`. -/
def resized (buf : List Byte) (size : Nat) : List Byte :=
  buf.take size ++ List.replicate (size - buf.length) 0

/-- `send(const rapidjson::Value &)`. -/
def send (sender : Sender) (obj : Value) (sent : Bool) : Sender :=
  let buffer := write obj
  let size := buffer.length
  if maxSendBufferSize < size then sender
  else
    let sendBuf := if sender.sendBuf.length - 2 < size
      then resized sender.sendBuf (((size + 1) / 1024 + 1) * 1024) else sender.sendBuf
    { sender with sendBuf := buffer ++ [10, 0] ++ sendBuf.drop (size + 2) }.sendBytes (size + 1) sent

/-- What `snprintf` leaves in a buffer. -/
def printed (buf message : List Byte) : List Byte :=
  if buf.length = 0 then buf
  else
    let kept := message.take (buf.length - 1)
    kept ++ [0] ++ buf.drop (kept.length + 1)

/-- What `snprintf` returns, as the size it is taken for: `EOVERFLOW` is -1. -/
def printedSize (message : List Byte) : Nat := if message.length < 2 ^ 31 then message.length else 2 ^ 64 - 1

/-- The message of `ping`. A null string is printed as `(null)`. -/
def pingText (sequence : Int) (rpcId : Option (List Byte)) : List Byte :=
  text "\x7b\"id\":" ++ writeInt sequence ++
    text ",\"jsonrpc\":\"2.0\",\"method\":\"keepalived\",\"params\":\x7b\"id\":\"" ++
    rpcId.getD (text "(null)") ++ text "\"\x7d\x7d\n"

def ping (sender : Sender) (sent : Bool) : Sender :=
  let message := pingText sender.sequence sender.rpcId
  { sender with sendBuf := printed sender.sendBuf message }.sendBytes (printedSize message) sent

def step (sender : Sender) : Event → Option Sender
  | .setRpcId rpcId => some { sender with rpcId }
  | .send obj sent => some (sender.send obj sent)
  | .ping sent => some (sender.ping sent)
  | .sequence => some { sender with sequence := sender.sequence + 1 }

/-- The bytes are in the buffer, and they are one JSON text and a newline. -/
def Complete (call : SizedSend) : Prop :=
  call.size ≤ call.buf.length ∧ ∃ json, IsJson json ∧ call.buf.take call.size = json ++ [10]

/-- At a keepalive the message is shorter than the buffer, and the id of the pool needs no escapes. -/
def KeepaliveFits (sender : Sender) : Event → Prop
  | .ping _ => (pingText sender.sequence sender.rpcId).length < min sender.sendBuf.length (2 ^ 31) ∧
      ∀ id, sender.rpcId = some id → IsChars id
  | _ => True

/-- The buffer never shrinks, and every message was complete. -/
structure Inv (sender : Sender) : Prop where
  buffer : 1024 ≤ sender.sendBuf.length
  complete : ∀ call ∈ sender.sends, Complete call

variable {sender : Sender}

theorem Inv.written (inv : sender.Inv) {size : Nat} {buf : List Byte} (large : 1024 ≤ buf.length)
    (complete : Complete ⟨size, buf⟩) (sent : Bool) : ({ sender with sendBuf := buf }.sendBytes size sent).Inv where
  buffer := large
  complete := by
    intro call listed
    obtain older | newest := List.mem_append.mp listed
    · exact inv.complete call older
    · rw [List.mem_singleton.mp newest]
      exact complete

@[simp] theorem resized_length (buf : List Byte) (size : Nat) : (resized buf size).length = size := by
  simp only [resized, List.length_append, List.length_take, List.length_replicate]
  omega

theorem Inv.room (inv : sender.Inv) (size : Nat) :
    size + 2 ≤ (if sender.sendBuf.length - 2 < size
      then resized sender.sendBuf (((size + 1) / 1024 + 1) * 1024) else sender.sendBuf).length ∧
    1024 ≤ (if sender.sendBuf.length - 2 < size
      then resized sender.sendBuf (((size + 1) / 1024 + 1) * 1024) else sender.sendBuf).length := by
  have buffer := inv.buffer
  split
  · rw [resized_length]
    omega
  · omega

theorem Inv.send (inv : sender.Inv) (obj : Value) (sent : Bool) : (sender.send obj sent).Inv := by
  unfold Sender.send
  dsimp only
  split
  · exact inv
  · obtain ⟨room, large⟩ := inv.room (write obj).length
    generalize (if sender.sendBuf.length - 2 < (write obj).length
      then resized sender.sendBuf ((((write obj).length + 1) / 1024 + 1) * 1024) else sender.sendBuf) = buf at room large ⊢
    have length : (write obj ++ [10, 0] ++ buf.drop ((write obj).length + 2)).length = buf.length := by
      simp only [List.length_append, List.length_cons, List.length_nil, List.length_drop]
      omega
    refine inv.written (length ▸ large) ⟨?_, write obj, isJson_write obj, ?_⟩ sent
    · simp only [length]
      omega
    · simp only
      rw [List.append_assoc, List.take_append, List.take_of_length_le (by omega), Nat.add_sub_cancel_left]
      rfl

theorem isString_text {chars : List Byte} (plain : ∀ char ∈ chars, 32 ≤ char.toNat ∧ char ≠ 34 ∧ char ≠ 92) :
    IsString (34 :: (chars ++ [34])) := .mk (isChars_of_plain plain)

/-- The message of a keepalive is an object, whatever the number. -/
theorem pingText_isJson (sequence : Int) {rpcId : Option (List Byte)} (chars : ∀ id, rpcId = some id → IsChars id) :
    ∃ json, IsJson json ∧ pingText sequence rpcId = json ++ [10] := by
  have body : IsChars (rpcId.getD (text "(null)")) := by
    cases rpcId with
    | none => exact isChars_of_plain (by simp [text])
    | some id => exact chars id rfl
  have params := IsJson.object (.one (@isString_text (text "id") (by simp [text])) (.string (.mk body)))
  have object := IsJson.object
    (.more (@isString_text (text "id") (by simp [text])) (.number (isNumber_writeInt sequence))
      (.more (@isString_text (text "jsonrpc") (by simp [text])) (.string (@isString_text (text "2.0") (by simp [text])))
        (.more (@isString_text (text "method") (by simp [text]))
          (.string (@isString_text (text "keepalived") (by simp [text])))
          (.one (@isString_text (text "params") (by simp [text])) params))))
  refine ⟨_, object, ?_⟩
  have first : text "\x7b\"id\":" = 123 :: 34 :: (text "id" ++ [34, 58]) := by simp [text]
  have middle : text ",\"jsonrpc\":\"2.0\",\"method\":\"keepalived\",\"params\":\x7b\"id\":\"" =
      44 :: 34 :: (text "jsonrpc" ++ 34 :: 58 :: 34 :: (text "2.0" ++ 34 :: 44 :: 34 :: (text "method" ++
        34 :: 58 :: 34 :: (text "keepalived" ++ 34 :: 44 :: 34 :: (text "params" ++ 34 :: 58 :: 123 :: 34 ::
          (text "id" ++ [34, 58, 34])))))) := by simp [text]
  have last : text "\"\x7d\x7d\n" = [34, 125, 125, 10] := by simp [text]
  rw [pingText, first, middle, last]
  simp only [List.append_assoc, List.cons_append, List.nil_append]

theorem printed_length (buf message : List Byte) : (printed buf message).length = buf.length := by
  unfold printed
  split
  · rfl
  · simp only [List.length_append, List.length_take, List.length_cons, List.length_nil, List.length_drop]
    omega

theorem Inv.ping (inv : sender.Inv) {sent : Bool} (fits : sender.KeepaliveFits (.ping sent)) : (sender.ping sent).Inv := by
  have buffer := inv.buffer
  obtain ⟨short, chars⟩ := fits
  obtain ⟨json, isJson, same⟩ := pingText_isJson sender.sequence chars
  rw [Nat.lt_min] at short
  have kept : (pingText sender.sequence sender.rpcId).take (sender.sendBuf.length - 1) =
      pingText sender.sequence sender.rpcId := List.take_of_length_le (by omega)
  have size : printedSize (pingText sender.sequence sender.rpcId) =
      (pingText sender.sequence sender.rpcId).length := if_pos short.2
  have written : printed sender.sendBuf (pingText sender.sequence sender.rpcId) =
      pingText sender.sequence sender.rpcId ++ ([0] ++
        sender.sendBuf.drop ((pingText sender.sequence sender.rpcId).length + 1)) := by
    simp only [printed, kept, if_neg (show sender.sendBuf.length ≠ 0 by omega), List.append_assoc]
  have length := printed_length sender.sendBuf (pingText sender.sequence sender.rpcId)
  refine inv.written (length ▸ buffer) ⟨?_, json, isJson, ?_⟩ sent
  · simp only [size, length]
    omega
  · simp only [size, written]
    rw [List.take_left, same]

theorem Inv.step {next : Sender} {event : Event} (inv : sender.Inv) (fits : sender.KeepaliveFits event)
    (stepped : sender.step event = some next) : next.Inv := by
  cases event with
  | setRpcId rpcId =>
    cases stepped
    exact ⟨inv.buffer, inv.complete⟩
  | send obj sent =>
    cases stepped
    exact inv.send obj sent
  | ping sent =>
    cases stepped
    exact inv.ping fits
  | sequence =>
    cases stepped
    exact ⟨inv.buffer, inv.complete⟩

/-- Every message of a client is complete and inside of its buffer while keepalives fit. -/
theorem sends_complete {events : List Event} {final : Sender} (sequence : Int)
    (fits : Guarded step KeepaliveFits { sequence } events) (executed : run step { sequence } events = some final) :
    ∀ call ∈ final.sends, Complete call := by
  have start : Inv { sequence } := ⟨Nat.le_of_eq List.length_replicate.symm, fun _ listed => absurd listed List.not_mem_nil⟩
  exact (run_invariant (fun _ _ _ inv allowed stepped => Inv.step inv allowed stepped) start fits executed).complete

def shortId : List Event := [.setRpcId (some [97, 98, 99]), .ping true]

theorem sends_complete_shortId :
    ∃ final, run step { sequence := 2 } shortId = some final ∧ ∀ call ∈ final.sends, Complete call := by
  refine ⟨_, rfl, @sends_complete shortId _ 2 ⟨trivial, fun next stepped => ?_⟩ rfl⟩
  cases stepped
  refine ⟨⟨by decide +kernel, fun id known => ?_⟩, fun _ _ => trivial⟩
  cases known
  exact isChars_of_plain (by decide)

/-- A long id: the keepalive is longer than the buffer. -/
theorem sends_longId :
    ∃ final, run step { sequence := 2 } [.setRpcId (some (List.replicate 2000 97)), .ping true] = some final ∧
      ∃ call ∈ final.sends, ¬ Complete call := by
  refine ⟨_, rfl, _, List.mem_singleton_self _, fun complete => ?_⟩
  have inside := complete.1
  have long : 2000 ≤ (pingText 2 (some (List.replicate 2000 97))).length ∧
      (pingText 2 (some (List.replicate 2000 97))).length < 2 ^ 31 := by
    simp only [pingText, List.length_append, Option.getD_some, List.length_replicate]
    exact ⟨by omega, by decide⟩
  simp only [printed_length, List.length_replicate, printedSize, if_pos long.2] at inside
  omega

end Sender

end Xmrig
