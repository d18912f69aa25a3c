import Morfeusz.Lib.Runs
import Morfeusz.Proxyd.Crypto

/-!
# The receiver of the game proxy

`handle_input` receives a header into the front of `raw_buf`, decrypts it there, and
receives the rest of the packet behind it; what is then missing of the packet is
`expected_data`, and the calls that follow receive that. It calls `recv` up to twice, and
`Morfeusz.Proxyd.Receiver.step` is what it does with one answer: the size of a packet is
two bytes of the client, `recv` counts in `size_t`, and so does everything that is computed
from either.

The model keeps what the receiver has done in two histories, the headers given to `decrypt`
and the packets given to `process_incoming`, and it marks a subtraction that went below
zero; the program reads none of the three.
-/

namespace Morfeusz.Proxyd

open ByteNumbers ByteBuffer

/-! ### The packet being put together -/

/-- A number converted to `size_t`. -/
def sizeT (n : ℤ) : ℕ := (n % 2 ^ 64).toNat

theorem sizeT_of_lt {n : ℕ} (h : n < 2 ^ 64) : sizeT n = n := by
  rw [sizeT]
  omega

theorem sizeT_sub {m n : ℕ} (hle : n ≤ m) (h : m < 2 ^ 64) : sizeT (m - n) = m - n := by
  rw [← Nat.cast_sub hle, sizeT_of_lt (by omega)]

/-- `ClientPkt(siz)`: a buffer with nothing in it, its read position behind the header. -/
def newClientPkt : ByteBuffer := { rpos := 6, wpos := 0, storage := [] }

/-- `PeekSize`. -/
def peekSize (pkt : ByteBuffer) : Option ℕ :=
  (readBytes { pkt with rpos := 0 } 2).map fun (bs, _) => leVal bs.val

/-- `PeekOpcode`. -/
def peekOpcode (pkt : ByteBuffer) : Option UInt32 :=
  (readUint32 { pkt with rpos := 2 }).map Prod.fst

/-- `in_packet`. Nothing resets the pointer once its packet is deleted. -/
inductive InPacket
  | null
  | live (pkt : ByteBuffer)
  | deleted

theorem peekSize_eq {pkt : ByteBuffer} (h : 2 ≤ pkt.size) :
    peekSize pkt = some (leVal (pkt.storage.take 2)) := by
  rw [peekSize, readBytes, dif_pos (by simpa [size] using h)]
  rfl

theorem exists_peekOpcode {pkt : ByteBuffer} (h : 6 ≤ pkt.size) :
    ∃ op, peekOpcode pkt = some op := by
  rw [peekOpcode, readUint32, readBytes, dif_pos (by simpa [size] using h)]
  exact ⟨_, rfl⟩

theorem append_newClientPkt (bs : List UInt8) :
    newClientPkt.append bs = some { rpos := 6, wpos := bs.length, storage := bs } := by
  rw [append_of_wpos_eq (by rfl) (by decide), newClientPkt, Nat.zero_add, List.nil_append]

/-! ### The receiver -/

/-- What a `recv` returned. -/
inductive Recv
  | data (bytes : List UInt8)
  | failed

namespace Recv

def bytes : Recv → List UInt8
  | data bytes => bytes
  | failed => []

/-- `bytes_read`, a `size_t`. -/
def count : Recv → ℕ
  | data bytes => bytes.length
  | failed => 2 ^ 64 - 1

end Recv

/-- Where `handle_input` waits: for the `recv` it begins with, or for that of a body. -/
inductive Waits
  | start
  | body
  deriving DecidableEq

/-- The part of a `Proxy_Socket` that receives. -/
structure Receiver where
  waits : Waits
  readRegistered : Bool
  expectedData : ℕ
  rawBuf : Bytes 4096
  inPacket : InPacket
  crypto : ProxyCrypto
  /-- The packets given to `process_incoming`, oldest first. -/
  processed : List ByteBuffer
  /-- The headers given to `decrypt`, oldest first. -/
  decrypted : List (Bytes 6)
  /-- A subtraction for `expected_data` has gone below zero. -/
  wrapped : Bool

namespace Receiver

/-- The receiver after the constructor, with a cipher in any state. -/
def init (crypto : ProxyCrypto) : Receiver where
  waits := .start
  readRegistered := true
  expectedData := 0
  rawBuf := Bytes.zero 4096
  inPacket := .null
  crypto := crypto
  processed := []
  decrypted := []
  wrapped := false

/-- The size field at the front of `raw_buf`, in host order. -/
def sizeField (r : Receiver) : ℕ := leVal (r.rawBuf.val.take 2)

/-- Where the next `recv` is to store, and how many bytes are asked of it. -/
def request (r : Receiver) : ℕ × ℕ :=
  match r.waits with
  | .start => (0, if r.expectedData = 0 then 6 else r.expectedData)
  | .body => (6, sizeT (r.sizeField - 4))

/-- `raw_buf` once bytes are stored in it. -/
def stored (raw : Bytes 4096) (offset : ℕ) (bs : List UInt8) (h : offset + bs.length ≤ 4096) :
    Bytes 4096 :=
  ⟨raw.val.take offset ++ bs ++ raw.val.drop (offset + bs.length), by
    rw [List.length_append, List.length_append, List.length_take, List.length_drop, raw.length]
    omega⟩

/-- What `recv` stores. The process does not survive bytes behind the end of `raw_buf`. -/
def store (r : Receiver) (offset : ℕ) (bs : List UInt8) : Option Receiver :=
  if h : offset + bs.length ≤ 4096 then some { r with rawBuf := stored r.rawBuf offset bs h }
  else none

/-- The first six bytes of `raw_buf`. -/
def header (r : Receiver) : Bytes 6 :=
  ⟨r.rawBuf.val.take 6, by rw [List.length_take, r.rawBuf.length]; rfl⟩

/-- A header with the bytes of its size swapped. -/
def endianSwitch (plain : Bytes 6) : Bytes 6 :=
  ⟨(plain.val.take 2).reverse ++ plain.val.drop 2, by
    rw [List.length_append, List.length_reverse, List.length_take, List.length_drop, plain.length]
    rfl⟩

/-- The header is decrypted where it stands, and its size switched. -/
def decodeHeader (r : Receiver) : Receiver :=
  let (plain, crypto) := r.crypto.decrypt r.header
  { r with
    crypto
    decrypted := r.decrypted ++ [r.header]
    rawBuf := ⟨(endianSwitch plain).val ++ r.rawBuf.val.drop 6, by
      rw [List.length_append, Bytes.length, List.length_drop, r.rawBuf.length]⟩ }

/-- `process_incoming`: the packet goes to its handler, and is deleted. -/
def processIncoming (r : Receiver) : Option Receiver :=
  match r.inPacket with
  | .null => some r
  | .deleted => none
  | .live pkt => (peekOpcode pkt).map fun _ =>
      { r with processed := r.processed ++ [pkt], inPacket := .deleted }

/-- After the `recv` of a header. A failed one is not less than six. -/
def recvHeader (r : Receiver) (answer : Recv) : Receiver :=
  if answer.count < 6 then { r with readRegistered := false }
  else { r.decodeHeader with waits := .body }

/-- After the `recv` of a body. -/
def recvBody (r : Receiver) (answer : Recv) : Option Receiver := do
  let pkt ← newClientPkt.append (r.rawBuf.val.take (sizeT (answer.count + 6)))
  let siz ← peekSize pkt
  let r := { r with waits := .start, inPacket := .live pkt }
  if sizeT (answer.count + 4) ≠ siz then
    some { r with
      expectedData := sizeT (siz - answer.count - 4)
      wrapped := r.wrapped || decide ((siz : ℤ) - answer.count - 4 < 0) }
  else r.processIncoming

/-- After the `recv` of what is missing. `expected_data` stays as it is with the last of it. -/
def recvRest (r : Receiver) (answer : Recv) : Option Receiver :=
  if answer.count = 2 ^ 64 - 1 ∨ answer.count = 0 then some { r with readRegistered := false }
  else
    match r.inPacket with
    | .live pkt => do
      let pkt ← pkt.append (r.rawBuf.val.take answer.count)
      let r := { r with inPacket := .live pkt }
      if answer.count ≠ r.expectedData then
        some { r with
          expectedData := sizeT (r.expectedData - answer.count)
          wrapped := r.wrapped || decide ((r.expectedData : ℤ) - answer.count < 0) }
      else r.processIncoming
    | .null | .deleted => none

/-- What happens to a receiver: a `recv` it waits for returns, or the key of the cipher is
set. -/
inductive Input
  | recv (answer : Recv)
  | setKey (key : ℕ)

/-- One step. `recv` is only called on a registered socket, and stores no more than it was
asked for. -/
def step (hmac : Hmac) (r : Receiver) : Input → Option Receiver
  | .setKey key => some { r with crypto := r.crypto.setKey hmac key }
  | .recv answer =>
    if r.readRegistered ∧ answer.bytes.length ≤ r.request.2 then do
      let s ← r.store r.request.1 answer.bytes
      match r.waits with
      | .start => if r.expectedData = 0 then some (s.recvHeader answer) else s.recvRest answer
      | .body => s.recvBody answer
    else none

/-! ### What is found in `raw_buf` -/

section RawBuf

variable {hmac : Hmac} {r r' s : Receiver} {offset n : ℕ} {bs : List UInt8} {answer : Recv}

theorem take_stored_append (raw : Bytes 4096) (h : offset + bs.length ≤ 4096) :
    (stored raw offset bs h).val.take (offset + bs.length) = raw.val.take offset ++ bs := by
  have hlen : (raw.val.take offset ++ bs).length = offset + bs.length := by
    rw [List.length_append, List.length_take, raw.length, min_eq_left (by omega)]
  exact List.take_left' hlen

/-- The bytes in front of those stored are as they were. -/
theorem take_stored (raw : Bytes 4096) (h : offset + bs.length ≤ 4096) (hn : n ≤ offset) :
    (stored raw offset bs h).val.take n = raw.val.take n := by
  have hlen : n ≤ (raw.val.take offset).length := by
    rw [List.length_take, raw.length]
    omega
  rw [stored]
  dsimp only
  rw [List.append_assoc, List.take_append_of_le_length hlen, List.take_take, min_eq_left hn]

theorem store_eq_some_iff :
    r.store offset bs = some s ↔
      ∃ h : offset + bs.length ≤ 4096, s = { r with rawBuf := stored r.rawBuf offset bs h } := by
  rw [store]
  split
  · next h =>
    rw [exists_prop_of_true h, Option.some_inj]
    exact eq_comm
  · next h =>
    constructor
    · rintro ⟨⟩
    · rintro ⟨hle, -⟩
      exact absurd hle h

/-- Storing is all a `recv` does. -/
theorem store_frame (h : r.store offset bs = some s) :
    s.waits = r.waits ∧ s.expectedData = r.expectedData ∧ s.inPacket = r.inPacket ∧
      s.crypto = r.crypto ∧ s.wrapped = r.wrapped := by
  obtain ⟨-, rfl⟩ := store_eq_some_iff.mp h
  exact ⟨rfl, rfl, rfl, rfl, rfl⟩

/-- The size a header stands for. -/
def plainSize (crypto : ProxyCrypto) (header : Bytes 6) : ℕ :=
  beVal ((crypto.decrypt header).1.val.take 2)

theorem take_decodeHeader (r : Receiver) :
    r.decodeHeader.rawBuf.val.take 6 = (endianSwitch (r.crypto.decrypt r.header).1).val :=
  List.take_left' (Bytes.length _)

/-- **The size that is looked at is the one the header stands for.** -/
theorem sizeField_decodeHeader (r : Receiver) :
    r.decodeHeader.sizeField = plainSize r.crypto r.header := by
  have hlen : ((r.crypto.decrypt r.header).1.val.take 2).reverse.length = 2 := by
    rw [List.length_reverse, List.length_take, Bytes.length]
    rfl
  have htake := congrArg (List.take 2) r.take_decodeHeader
  rw [List.take_take, endianSwitch] at htake
  rw [List.take_left' hlen] at htake
  exact congrArg leVal htake

theorem sizeField_lt (r : Receiver) : r.sizeField < 65536 := by
  have hlt := leVal_lt (r.rawBuf.val.take 2)
  rw [List.length_take, r.rawBuf.length] at hlt
  exact hlt

/-- The packet a body is the first part of. -/
def fresh (r : Receiver) (n : ℕ) : Receiver :=
  { r with
    waits := .start
    inPacket := .live
      { rpos := 6, wpos := (r.rawBuf.val.take n).length, storage := r.rawBuf.val.take n } }

/-- **The size the packet says it has is the one at the front of `raw_buf`.** -/
theorem recvBody_eq (r : Receiver) (hcount : 2 ≤ sizeT (answer.count + 6)) :
    r.recvBody answer =
      if sizeT (answer.count + 4) ≠ r.sizeField then
        some { r.fresh (sizeT (answer.count + 6)) with
          expectedData := sizeT (r.sizeField - answer.count - 4)
          wrapped := r.wrapped || decide ((r.sizeField : ℤ) - answer.count - 4 < 0) }
      else (r.fresh (sizeT (answer.count + 6))).processIncoming := by
  rw [recvBody, append_newClientPkt, Option.bind_eq_bind, Option.bind_some, peekSize_eq]
  · rw [Option.bind_eq_bind, Option.bind_some, List.take_take, min_eq_left hcount]
    rfl
  · rw [size, List.length_take, r.rawBuf.length]
    omega

/-- A continued packet has the piece appended to it. -/
theorem recvRest_eq {pkt pkt' : ByteBuffer} (hin : r.inPacket = .live pkt)
    (happend : pkt.append (r.rawBuf.val.take answer.count) = some pkt')
    (hcount : ¬(answer.count = 2 ^ 64 - 1 ∨ answer.count = 0)) :
    r.recvRest answer =
      if answer.count ≠ r.expectedData then
        some { r with
          inPacket := .live pkt'
          expectedData := sizeT (r.expectedData - answer.count)
          wrapped := r.wrapped || decide ((r.expectedData : ℤ) - answer.count < 0) }
      else ({ r with inPacket := .live pkt' } : Receiver).processIncoming := by
  rw [recvRest, if_neg hcount, hin]
  dsimp only
  rw [happend]
  rfl

theorem processIncoming_frame (h : r.processIncoming = some r') :
    r'.waits = r.waits ∧ r'.expectedData = r.expectedData ∧ r'.wrapped = r.wrapped := by
  rw [processIncoming] at h
  split at h
  · obtain rfl := Option.some.inj h
    exact ⟨rfl, rfl, rfl⟩
  · cases h
  · obtain ⟨op, -, rfl⟩ := Option.map_eq_some_iff.mp h
    exact ⟨rfl, rfl, rfl⟩

/-- What the step of a `recv` is made of. -/
theorem step_recv_eq_some_iff :
    step hmac r (.recv answer) = some r' ↔
      (r.readRegistered = true ∧ answer.bytes.length ≤ r.request.2) ∧
        ∃ s, r.store r.request.1 answer.bytes = some s ∧
          (r.waits = .start ∧ r.expectedData = 0 ∧ r' = s.recvHeader answer ∨
            r.waits = .start ∧ r.expectedData ≠ 0 ∧ s.recvRest answer = some r' ∨
            r.waits = .body ∧ s.recvBody answer = some r') := by
  rw [step, Option.ite_none_right_eq_some, Option.bind_eq_bind, Option.bind_eq_some_iff]
  refine and_congr_right fun _ => exists_congr fun s => and_congr_right fun _ => ?_
  rcases r.waits with _ | _
  · by_cases hexpected : r.expectedData = 0
    · simp [hexpected, eq_comm]
    · simp [hexpected]
  · simp

end RawBuf

end Receiver

end Morfeusz.Proxyd
