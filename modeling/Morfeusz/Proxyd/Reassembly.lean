import Morfeusz.Proxyd.Receiver

/-!
# Putting packets together

TCP delivers the packets of a client in pieces of its own choosing, and `handle_input` is
to put them together again. It does where every header and every body arrives in one
piece, and a body may even arrive in several if its packet is the last: once a packet was
continued `expected_data` keeps the length of its last piece, and the header that follows
is received as a piece of the packet that has just been deleted. A header that arrives in
several pieces closes the connection.

That is all there is to it (`Morfeusz.Proxyd.packets_delivered_iff`). The proof follows the
receiver through a stream of which some front has arrived: between two packets, behind a
header, within a body, and with `expected_data` left over. In each of the four it is known
which pieces of the rest of the stream are put together to the rest of the packets.
-/

namespace Morfeusz.Proxyd

open ByteNumbers ByteBuffer Receiver

/-! ### The stream of a client -/

/-- What a receiver is given, one after the other: a byte, or a key for its cipher. -/
inductive Symbol
  | byte (b : UInt8)
  | setKey (key : ℕ)

/-- The bytes of a stream. -/
def bytesOf : List Symbol → List UInt8
  | [] => []
  | .byte b :: symbols => b :: bytesOf symbols
  | .setKey _ :: symbols => bytesOf symbols

/-- The cipher after the keys of a stream. -/
def rekeyed (hmac : Hmac) : ProxyCrypto → List Symbol → ProxyCrypto
  | crypto, [] => crypto
  | crypto, .byte _ :: symbols => rekeyed hmac crypto symbols
  | crypto, .setKey key :: symbols => rekeyed hmac (crypto.setKey hmac key) symbols

/-- A packet on its way: the header as it is sent, and behind it the payload, with the keys
that are set until the next header comes. -/
structure Frame where
  header : Bytes 6
  pkt : ClientPkt
  body : List Symbol
  bytesOf_body : bytesOf body = pkt.payload
  short : pkt.siz.toNat ≤ 4094

def Frame.buffer (frame : Frame) : ByteBuffer := frame.pkt.buffer

def Frame.symbols (frame : Frame) : List Symbol := frame.header.val.map .byte ++ frame.body

/-- A header before it is encrypted, the size with its most significant byte first. -/
def plainHeader (pkt : ClientPkt) : List UInt8 := (uint16 pkt.siz).reverse ++ uint32 pkt.opcode

/-- Each header is the one of its packet to the cipher that has decrypted those before. -/
def Encodes (hmac : Hmac) : ProxyCrypto → List Frame → Prop
  | _, [] => True
  | crypto, frame :: frames =>
    (crypto.decrypt frame.header).1.val = plainHeader frame.pkt ∧
      Encodes hmac (rekeyed hmac (crypto.decrypt frame.header).2 frame.body) frames

/-! ### The pieces it is delivered in -/

/-- What reaches the receiver at one time. -/
inductive Delivery
  | piece (bytes : List UInt8)
  | setKey (key : ℕ)

namespace Delivery

def symbols : Delivery → List Symbol
  | piece bytes => bytes.map .byte
  | setKey key => [.setKey key]

def input : Delivery → Input
  | piece bytes => .recv (.data bytes)
  | setKey key => .setKey key

/-- What `recv` may return: at least one byte and at most those it was asked for, and
nothing only if it was asked for nothing. -/
def Offered (r : Receiver) : Delivery → Prop
  | piece bytes => bytes.length ≤ r.request.2 ∧ (bytes = [] → r.request.2 = 0)
  | setKey _ => True

instance (r : Receiver) : DecidablePred (Offered r)
  | piece bytes => inferInstanceAs (Decidable (bytes.length ≤ r.request.2 ∧ (bytes = [] → _)))
  | setKey _ => inferInstanceAs (Decidable True)

end Delivery

/-- The pieces among the deliveries. -/
def pieces : List Delivery → List (List UInt8)
  | [] => []
  | .piece bytes :: ds => bytes :: pieces ds
  | .setKey _ :: ds => pieces ds

/-- A step of the receiver, over TCP. -/
def tcpStep (hmac : Hmac) (r : Receiver) (d : Delivery) : Option Receiver :=
  if d.Offered r then r.step hmac d.input else none

/-- A payload that arrives in pieces, none of them empty. -/
def InPieces (payload : List UInt8) (ps : List (List UInt8)) : Prop :=
  ps ≠ [] ∧ ps.flatten = payload ∧ ∀ p ∈ ps, p ≠ []

/-- Every header and every payload in one piece, but for the payload of the last packet,
which may be in any number of them. -/
def Unbroken : List Frame → List (List UInt8) → Prop
  | [], ps => ps = []
  | frame :: frames, ps => ∃ rest, ps = frame.header.val :: rest ∧
      ((∃ more, rest = frame.pkt.payload :: more ∧ Unbroken frames more) ∨
        frames = [] ∧ InPieces frame.pkt.payload rest)

section Streams

variable {hmac : Hmac} {crypto : ProxyCrypto} {d : Delivery} {ds : List Delivery}
  {bs : List UInt8} {left right : List Symbol}

@[simp] theorem bytesOf_append (left right : List Symbol) :
    bytesOf (left ++ right) = bytesOf left ++ bytesOf right := by
  induction left with
  | nil => rfl
  | cons symbol left ih => cases symbol <;> simp [bytesOf, ih]

@[simp] theorem bytesOf_map_byte (bs : List UInt8) : bytesOf (bs.map .byte) = bs := by
  induction bs with
  | nil => rfl
  | cons b bs ih => rw [List.map_cons, bytesOf, ih]

theorem rekeyed_map_byte_append (crypto : ProxyCrypto) (bs : List UInt8) (right : List Symbol) :
    rekeyed hmac crypto (bs.map .byte ++ right) = rekeyed hmac crypto right := by
  induction bs with
  | nil => rfl
  | cons b bs ih => exact ih

theorem length_bytesOf_le (symbols : List Symbol) : (bytesOf symbols).length ≤ symbols.length := by
  induction symbols with
  | nil => exact Nat.le_refl _
  | cons symbol symbols ih => cases symbol <;> simp only [bytesOf, List.length_cons] <;> omega

/-- The bytes that are delivered are those of the pieces. -/
theorem bytesOf_symbols (ds : List Delivery) :
    bytesOf (ds.flatMap Delivery.symbols) = (pieces ds).flatten := by
  induction ds with
  | nil => rfl
  | cons d ds ih =>
    rw [List.flatMap_cons, bytesOf_append, ih]
    rcases d with bs | key
    · rw [Delivery.symbols, bytesOf_map_byte, pieces, List.flatten_cons]
    · rfl

theorem eq_nil_of_flatten_eq_nil {ps : List (List UInt8)} (h : ps.flatten = [])
    (hne : ∀ p ∈ ps, p ≠ []) : ps = [] := by
  rcases ps with _ | ⟨p, ps⟩
  · rfl
  · rw [List.flatten_cons, List.append_eq_nil_iff] at h
    exact absurd h.1 (hne p List.mem_cons_self)

/-- Where no bytes are left, pieces that are not empty are none. -/
theorem pieces_eq_nil_of_bytesOf (h : bytesOf (ds.flatMap Delivery.symbols) = [])
    (hne : ∀ p ∈ pieces ds, p ≠ []) : pieces ds = [] := by
  rw [bytesOf_symbols] at h
  exact eq_nil_of_flatten_eq_nil h hne

/-- A piece that ends within a part of the stream is the front of it. -/
theorem exists_of_map_byte_append {rest tail : List Symbol}
    (h : bs.map .byte ++ rest = left ++ tail) (hlen : bs.length ≤ (bytesOf left).length) :
    ∃ behind, left = bs.map .byte ++ behind ∧ rest = behind ++ tail ∧
      bytesOf left = bs ++ bytesOf behind := by
  have hprefix : bs.map Symbol.byte <+: left :=
    List.prefix_of_prefix_length_le ⟨rest, h⟩ (List.prefix_append _ _) (by
      rw [List.length_map]
      exact hlen.trans (length_bytesOf_le left))
  obtain ⟨behind, rfl⟩ := hprefix
  rw [List.append_assoc, List.append_cancel_left_eq] at h
  exact ⟨behind, rfl, h, by rw [bytesOf_append, bytesOf_map_byte]⟩

/-- A piece that ends within some bytes is the front of them. -/
theorem exists_of_map_byte_append_map {cs : List UInt8} {rest tail : List Symbol}
    (h : bs.map .byte ++ rest = cs.map .byte ++ tail) (hlen : bs.length ≤ cs.length) :
    ∃ behind, cs = bs ++ behind ∧ rest = behind.map .byte ++ tail := by
  obtain ⟨behind, hmap, hrest, hbytes⟩ :=
    exists_of_map_byte_append h (hlen.trans_eq (congrArg List.length (bytesOf_map_byte cs)).symm)
  rw [bytesOf_map_byte] at hbytes
  have hbehind : behind = (bytesOf behind).map .byte := by
    rw [hbytes, List.map_append] at hmap
    exact (List.append_cancel_left hmap).symm
  exact ⟨bytesOf behind, hbytes, hbehind ▸ hrest⟩

/-- A stream of packets begins with a header, if it does not end there. -/
theorem exists_of_setKey_cons {frames : List Frame} {key : ℕ} {rest : List Symbol}
    (h : .setKey key :: rest = left ++ frames.flatMap Frame.symbols) :
    ∃ behind, left = .setKey key :: behind ∧ rest = behind ++ frames.flatMap Frame.symbols := by
  rcases left with _ | ⟨symbol, behind⟩
  · rcases frames with _ | ⟨frame, frames⟩
    · cases h
    · obtain ⟨b, bs, hheader⟩ := List.exists_cons_of_length_eq_add_one frame.header.length
      rw [List.nil_append, List.flatMap_cons, Frame.symbols, hheader] at h
      cases h
  · obtain ⟨rfl, hrest⟩ := List.cons.inj h
    exact ⟨behind, rfl, hrest⟩

/-- Where a byte is next no key is. -/
theorem eq_nil_of_map_byte_append {rest tail : List Symbol} (hne : bs ≠ [])
    (hleft : bytesOf left = []) (h : bs.map .byte ++ rest = left ++ tail) : left = [] := by
  obtain ⟨b, bs, rfl⟩ := List.exists_cons_of_ne_nil hne
  rcases left with _ | ⟨_ | _, left⟩
  · rfl
  · cases hleft
  · cases h

theorem bytesOf_flatMap_symbols_eq_nil {frames : List Frame}
    (h : bytesOf (frames.flatMap Frame.symbols) = []) : frames = [] := by
  rcases frames with _ | ⟨frame, frames⟩
  · rfl
  · have hlen := congrArg List.length h
    rw [List.flatMap_cons, Frame.symbols, bytesOf_append, bytesOf_append, bytesOf_map_byte,
      List.length_append, List.length_append, frame.header.length, List.length_nil] at hlen
    omega

/-- A piece is at most as long as the bytes there are. -/
theorem length_le_of_map_byte_append {rest : List Symbol} (h : bs.map .byte ++ rest = left) :
    bs.length ≤ (bytesOf left).length := by
  rw [← h, bytesOf_append, bytesOf_map_byte, List.length_append]
  exact Nat.le_add_right _ _

end Streams

/-! ### The receiver within a stream -/

/-- The buffer of a packet of which a part of the payload has arrived. -/
def ClientPkt.holding (pkt : ClientPkt) (got : List UInt8) : ByteBuffer where
  rpos := 6
  wpos := 6 + got.length
  storage := uint16 pkt.siz ++ uint32 pkt.opcode ++ got

namespace Receiver

variable {hmac : Hmac} {r r' : Receiver} {pkt : ClientPkt} {bs got : List UInt8}

/-- Between two packets. -/
structure AtStart (r : Receiver) : Prop where
  registered : r.readRegistered = true
  waits : r.waits = .start
  expected : r.expectedData = 0

/-- Behind the header of a packet. -/
structure AtBody (pkt : ClientPkt) (r : Receiver) : Prop where
  registered : r.readRegistered = true
  waits : r.waits = .body
  expected : r.expectedData = 0
  header : r.rawBuf.val.take 6 = uint16 pkt.siz ++ uint32 pkt.opcode

/-- Within the payload of a packet. -/
structure AtRest (pkt : ClientPkt) (got : List UInt8) (r : Receiver) : Prop where
  registered : r.readRegistered = true
  waits : r.waits = .start
  inPacket : r.inPacket = .live (pkt.holding got)
  pos : 0 < r.expectedData
  expected : got.length + r.expectedData = pkt.payload.length

/-- With `expected_data` left over from a packet that is deleted. -/
structure LeftOver (r : Receiver) : Prop where
  waits : r.waits = .start
  inPacket : r.inPacket = .deleted
  expected : r.expectedData ≠ 0

theorem AtStart.request (hr : r.AtStart) : r.request = (0, 6) := by
  rw [Receiver.request, hr.waits, hr.expected]
  rfl

theorem AtRest.request (hr : r.AtRest pkt got) : r.request = (0, r.expectedData) := by
  rw [Receiver.request, hr.waits]
  dsimp only
  rw [if_neg hr.pos.ne']

/-- What is left of the payload is what is expected. -/
theorem AtRest.length_left {left : List UInt8} (hr : r.AtRest pkt got)
    (h : got ++ left = pkt.payload) : left.length = r.expectedData := by
  have hexpected := hr.expected
  rw [← h, List.length_append] at hexpected
  omega

theorem LeftOver.request (hr : r.LeftOver) : r.request = (0, r.expectedData) := by
  rw [Receiver.request, hr.waits]
  dsimp only
  rw [if_neg hr.expected]

theorem AtBody.sizeField (hr : r.AtBody pkt) : r.sizeField = pkt.siz.toNat := by
  have htake : r.rawBuf.val.take 2 = uint16 pkt.siz := by
    have h := congrArg (List.take 2) hr.header
    rwa [List.take_take, List.take_left' (length_uint16 _)] at h
  rw [Receiver.sizeField, htake, uint16]
  exact leVal_leBytes_of_lt pkt.siz.toNat_lt

theorem AtBody.request (hr : r.AtBody pkt) : r.request = (6, pkt.payload.length) := by
  have hcomplete := pkt.complete
  have hlt := pkt.siz.toNat_lt
  rw [Receiver.request, hr.waits]
  dsimp only
  rw [hr.sizeField, show (4 : ℤ) = ((4 : ℕ) : ℤ) from rfl, sizeT_sub (by omega) (by omega)]
  congr 1
  omega

/-! ### What the next piece does -/

/-- The receiver once a piece is stored. -/
def received (r : Receiver) (offset : ℕ) (bs : List UInt8) (h : offset + bs.length ≤ 4096) :
    Receiver := { r with rawBuf := stored r.rawBuf offset bs h }

/-- A piece of a length that `recv` may return is stored, and `handle_input` goes on. -/
theorem tcpStep_piece {offset n : ℕ} (hr : r.readRegistered = true)
    (hrequest : r.request = (offset, n)) (hlen : bs.length ≤ n) (hnil : bs = [] → n = 0)
    (hle : offset + bs.length ≤ 4096) :
    tcpStep hmac r (.piece bs) =
      match r.waits with
      | .start =>
        if r.expectedData = 0 then some ((r.received offset bs hle).recvHeader (.data bs))
        else (r.received offset bs hle).recvRest (.data bs)
      | .body => (r.received offset bs hle).recvBody (.data bs) := by
  have hoffered : (Delivery.piece bs).Offered r := by
    rw [Delivery.Offered, hrequest]
    exact ⟨hlen, hnil⟩
  have hstore : r.store offset bs = some (r.received offset bs hle) :=
    store_eq_some_iff.mpr ⟨hle, rfl⟩
  rw [tcpStep, if_pos hoffered, Delivery.input, step, hrequest, if_pos ⟨hr, hlen⟩]
  exact (congrArg (Option.bind · _) hstore).trans (Option.bind_some _ _)

/-- What a step adds to the two histories. -/
def Adds (r r' : Receiver) (pkts : List ByteBuffer) (headers : List (Bytes 6)) : Prop :=
  r'.processed = r.processed ++ pkts ∧ r'.decrypted = r.decrypted ++ headers

theorem adds_nil (r : Receiver) : Adds r r [] [] :=
  ⟨(List.append_nil _).symm, (List.append_nil _).symm⟩

theorem AtStart.tcpStep_eq (hr : r.AtStart) (hne : bs ≠ []) (hlen : bs.length ≤ 6) :
    tcpStep hmac r (.piece bs) =
      some ((r.received 0 bs (by omega)).recvHeader (.data bs)) := by
  rw [tcpStep_piece hr.registered hr.request hlen (fun h => absurd h hne) (by omega), hr.waits]
  exact if_pos hr.expected

/-- A part of a header closes the connection. -/
theorem AtStart.tcpStep_part (hr : r.AtStart) (hne : bs ≠ []) (hlt : bs.length < 6) :
    ∃ r', tcpStep hmac r (.piece bs) = some r' ∧ r'.readRegistered = false := by
  rw [hr.tcpStep_eq hne hlt.le, recvHeader, if_pos (show (Recv.data bs).count < 6 from hlt)]
  exact ⟨_, rfl, rfl⟩

/-- The size switched. -/
theorem endianSwitch_plainHeader {plain : Bytes 6} (h : plain.val = plainHeader pkt) :
    (endianSwitch plain).val = uint16 pkt.siz ++ uint32 pkt.opcode := by
  have hlen : (uint16 pkt.siz).reverse.length = 2 := by simp
  change (plain.val.take 2).reverse ++ plain.val.drop 2 = _
  rw [h, plainHeader, List.take_left' hlen, List.drop_left' hlen, List.reverse_reverse]

/-- A whole header is decrypted. -/
theorem AtStart.tcpStep_header (hr : r.AtStart) {header : Bytes 6}
    (hplain : (r.crypto.decrypt header).1.val = plainHeader pkt) :
    ∃ r', tcpStep hmac r (.piece header.val) = some r' ∧ r'.AtBody pkt ∧
      r'.crypto = (r.crypto.decrypt header).2 ∧ Adds r r' [] [header] := by
  have hne : header.val ≠ [] := List.ne_nil_of_length_eq_add_one header.length
  have hlen : 0 + header.val.length ≤ 4096 := by rw [header.length]; decide
  have hheader : (r.received 0 header.val hlen).header = header := by
    refine Subtype.ext ?_
    have htake := take_stored_append r.rawBuf hlen
    rwa [header.length] at htake
  have hcount : ¬(Recv.data header.val).count < 6 := by
    rw [Recv.count, header.length]
    exact lt_irrefl 6
  refine ⟨{ (r.received 0 header.val hlen).decodeHeader with waits := .body }, ?_,
    ⟨hr.registered, rfl, hr.expected, ?_⟩, ?_, (List.append_nil _).symm, ?_⟩
  · rw [hr.tcpStep_eq hne header.length.le, recvHeader, if_neg hcount]
  · change (r.received 0 header.val hlen).decodeHeader.rawBuf.val.take 6 = _
    rw [take_decodeHeader, hheader]
    exact endianSwitch_plainHeader hplain
  · change (r.crypto.decrypt (r.received 0 header.val hlen).header).2 = _
    rw [hheader]
  · change r.decrypted ++ [(r.received 0 header.val hlen).header] = _
    rw [hheader]

/-- The receiver once a piece of a payload is put behind its header. -/
def begun (r : Receiver) (pkt : ClientPkt) (bs : List UInt8) (h : 6 + bs.length ≤ 4096) :
    Receiver := { r.received 6 bs h with waits := .start, inPacket := .live (pkt.holding bs) }

theorem AtBody.fresh_received (hr : r.AtBody pkt) (hle : 6 + bs.length ≤ 4096) :
    (r.received 6 bs hle).fresh (6 + bs.length) = r.begun pkt bs hle := by
  have htake : (r.received 6 bs hle).rawBuf.val.take (6 + bs.length) =
      uint16 pkt.siz ++ uint32 pkt.opcode ++ bs := by
    rw [← hr.header]
    exact take_stored_append r.rawBuf hle
  rw [fresh, htake, begun, ClientPkt.holding]
  simp only [List.length_append, length_uint16, length_uint32]

theorem AtBody.tcpStep_eq (hr : r.AtBody pkt) (hshort : pkt.siz.toNat ≤ 4094)
    (hlen : bs.length ≤ pkt.payload.length) (hnil : bs = [] → pkt.payload.length = 0)
    (hle : 6 + bs.length ≤ 4096) :
    tcpStep hmac r (.piece bs) =
      if bs.length ≠ pkt.payload.length then
        some { r.begun pkt bs hle with
          expectedData := pkt.payload.length - bs.length
          wrapped := r.wrapped }
      else (r.begun pkt bs hle).processIncoming := by
  have hcomplete := pkt.complete
  have hcount : sizeT ((Recv.data bs).count + 6) = 6 + bs.length := by
    have h := sizeT_of_lt (n := bs.length + 6) (by omega)
    rw [Recv.count, Nat.add_comm 6]
    exact_mod_cast h
  have hcount' : sizeT ((Recv.data bs).count + 4) = bs.length + 4 := by
    have h := sizeT_of_lt (n := bs.length + 4) (by omega)
    rw [Recv.count]
    exact_mod_cast h
  have hsize : (r.received 6 bs hle).sizeField = pkt.siz.toNat := by
    rw [← hr.sizeField, Receiver.sizeField, Receiver.sizeField]
    exact congrArg leVal (take_stored r.rawBuf hle (by decide))
  rw [tcpStep_piece hr.registered hr.request hlen hnil hle, hr.waits]
  dsimp only
  rw [recvBody_eq _ (by omega), hcount, hcount', hsize, hr.fresh_received hle]
  by_cases hwhole : bs.length = pkt.payload.length
  · rw [if_neg (by omega), if_neg (by omega)]
  · have hmissing : (pkt.siz.toNat : ℤ) - (Recv.data bs).count - 4 =
        ((pkt.payload.length - bs.length : ℕ) : ℤ) := by
      rw [Recv.count]
      omega
    rw [if_pos (by omega), if_pos hwhole, hmissing, sizeT_of_lt (by omega),
      decide_eq_false (by omega), Bool.or_false]
    rfl

/-- A packet that has its header is handed over. -/
theorem exists_processIncoming {s : Receiver} (h : s.inPacket = .live pkt.buffer) :
    s.processIncoming =
      some { s with processed := s.processed ++ [pkt.buffer], inPacket := .deleted } := by
  obtain ⟨op, hop⟩ := exists_peekOpcode (size_buffer pkt ▸ Nat.le_add_right 6 _)
  rw [processIncoming, h]
  dsimp only
  rw [hop, Option.map_some]

/-- A whole payload completes the packet. -/
theorem AtBody.tcpStep_whole (hr : r.AtBody pkt) (hshort : pkt.siz.toNat ≤ 4094) :
    ∃ r', tcpStep hmac r (.piece pkt.payload) = some r' ∧ r'.AtStart ∧
      r'.crypto = r.crypto ∧ Adds r r' [pkt.buffer] [] := by
  have hcomplete := pkt.complete
  have hnil : pkt.payload = [] → pkt.payload.length = 0 := fun h => by rw [h]; rfl
  rw [hr.tcpStep_eq hshort (Nat.le_refl _) hnil (by omega), if_neg (not_not.mpr rfl),
    exists_processIncoming (by rfl)]
  exact ⟨_, rfl, ⟨hr.registered, rfl, hr.expected⟩, rfl, rfl, (List.append_nil _).symm⟩

/-- A part of one leaves the rest to be expected. -/
theorem AtBody.tcpStep_part (hr : r.AtBody pkt) (hshort : pkt.siz.toNat ≤ 4094) (hne : bs ≠ [])
    (hlt : bs.length < pkt.payload.length) :
    ∃ r', tcpStep hmac r (.piece bs) = some r' ∧ r'.AtRest pkt bs ∧ Adds r r' [] [] := by
  have hcomplete := pkt.complete
  rw [hr.tcpStep_eq hshort hlt.le (fun h => absurd h hne) (by omega), if_pos hlt.ne]
  refine ⟨_, rfl, ⟨hr.registered, rfl, rfl, ?_, ?_⟩, adds_nil r⟩
  · exact Nat.sub_pos_of_lt hlt
  · exact Nat.add_sub_of_le hlt.le

theorem append_holding (pkt : ClientPkt) (h : got.length < 4096) (bs : List UInt8) :
    (pkt.holding got).append bs = some (pkt.holding (got ++ bs)) := by
  have hsize : (pkt.holding got).size = 6 + got.length := by
    simp only [ClientPkt.holding, size, List.length_append, length_uint16, length_uint32]
  rw [append_of_wpos_eq hsize.symm (by rw [hsize, sizeLimit]; omega)]
  simp only [ClientPkt.holding, List.append_assoc, List.length_append, Nat.add_assoc]

/-- The receiver once a piece is put behind those that came before. -/
def continued (r : Receiver) (pkt : ClientPkt) (got bs : List UInt8) (h : 0 + bs.length ≤ 4096) :
    Receiver := { r.received 0 bs h with inPacket := .live (pkt.holding (got ++ bs)) }

theorem AtRest.tcpStep_eq (hr : r.AtRest pkt got) (hshort : pkt.siz.toNat ≤ 4094) (hne : bs ≠ [])
    (hlen : bs.length ≤ r.expectedData) (hle : 0 + bs.length ≤ 4096) :
    tcpStep hmac r (.piece bs) =
      if bs.length ≠ r.expectedData then
        some { r.continued pkt got bs hle with
          expectedData := r.expectedData - bs.length
          wrapped := r.wrapped }
      else (r.continued pkt got bs hle).processIncoming := by
  have hcomplete := pkt.complete
  have hexpected := hr.expected
  have hpos : 0 < bs.length := List.length_pos_iff.mpr hne
  have htake : (r.received 0 bs hle).rawBuf.val.take bs.length = bs := by
    have h := take_stored_append r.rawBuf hle
    rwa [Nat.zero_add, List.take_zero, List.nil_append] at h
  rw [tcpStep_piece hr.registered hr.request hlen (fun h => absurd h hne) hle, hr.waits]
  dsimp only
  have hin : (r.received 0 bs hle).inPacket = .live (pkt.holding got) := hr.inPacket
  have hcount : (Recv.data bs).count = bs.length := rfl
  have happend : (pkt.holding got).append
      ((r.received 0 bs hle).rawBuf.val.take (Recv.data bs).count) =
        some (pkt.holding (got ++ bs)) := by
    rw [hcount, htake, append_holding pkt (by omega)]
  have hleft : (r.received 0 bs hle).expectedData = r.expectedData := rfl
  rw [if_neg hr.pos.ne', recvRest_eq hin happend (by omega), hleft, hcount]
  by_cases hlast : bs.length = r.expectedData
  · rw [if_neg (not_not.mpr hlast), if_neg (not_not.mpr hlast)]
    rfl
  · have hlt : bs.length < r.expectedData := by omega
    rw [if_pos hlast, if_pos hlast, sizeT_sub hlt.le (by omega), decide_eq_false (by omega),
      Bool.or_false]
    rfl

/-- The next part is added to those before. -/
theorem AtRest.tcpStep_part (hr : r.AtRest pkt got) (hshort : pkt.siz.toNat ≤ 4094) (hne : bs ≠ [])
    (hlt : bs.length < r.expectedData) :
    ∃ r', tcpStep hmac r (.piece bs) = some r' ∧ r'.AtRest pkt (got ++ bs) ∧ Adds r r' [] [] := by
  have hcomplete := pkt.complete
  have hexpected := hr.expected
  rw [hr.tcpStep_eq hshort hne hlt.le (by omega), if_pos hlt.ne]
  refine ⟨_, rfl, ⟨hr.registered, hr.waits, rfl, Nat.sub_pos_of_lt hlt, ?_⟩, adds_nil r⟩
  change (got ++ bs).length + (r.expectedData - bs.length) = _
  rw [List.length_append]
  omega

/-- **The last part completes the packet, and leaves its own length to be expected.** -/
theorem AtRest.tcpStep_last (hr : r.AtRest pkt got) (hshort : pkt.siz.toNat ≤ 4094)
    (hpayload : got ++ bs = pkt.payload) :
    ∃ r', tcpStep hmac r (.piece bs) = some r' ∧ r'.LeftOver ∧ Adds r r' [pkt.buffer] [] := by
  have hcomplete := pkt.complete
  have hlen : bs.length = r.expectedData := hr.length_left hpayload
  have hne : bs ≠ [] := by
    rintro rfl
    exact hr.pos.ne hlen
  have hexpected := hr.expected
  rw [hr.tcpStep_eq hshort hne hlen.le (by omega), if_neg (not_not.mpr hlen)]
  have hlive : (r.continued pkt got bs (by omega)).inPacket = .live pkt.buffer := by
    rw [continued, hpayload]
    rfl
  rw [exists_processIncoming hlive]
  exact ⟨_, rfl, ⟨hr.waits, rfl, hr.pos.ne'⟩, rfl, (List.append_nil _).symm⟩

/-- What comes then is added to a packet that is no more. -/
theorem LeftOver.tcpStep_eq_none (hr : r.LeftOver) (bs : List UInt8) :
    tcpStep hmac r (.piece bs) = none := by
  refine Option.eq_none_iff_forall_ne_some.mpr fun r' h => ?_
  obtain ⟨⟨-, hnil⟩, hstep⟩ := Option.ite_none_right_eq_some.mp h
  obtain ⟨-, s, hstore, hcases⟩ := step_recv_eq_some_iff.mp hstep
  obtain ⟨-, -, hin, -, -⟩ := store_frame hstore
  rw [hr.inPacket] at hin
  rcases hcases with ⟨-, h0, -⟩ | ⟨-, -, hrest⟩ | ⟨hw, -⟩
  · exact hr.expected h0
  · rw [recvRest, hin] at hrest
    obtain ⟨hle, -⟩ := store_eq_some_iff.mp hstore
    rw [if_neg] at hrest
    · cases hrest
    · rintro (hcount | hcount)
      · change bs.length = _ at hcount
        change _ + bs.length ≤ 4096 at hle
        omega
      · rw [hr.request] at hnil
        exact hr.expected (hnil (List.length_eq_zero_iff.mp hcount))
  · rw [hr.waits] at hw
    cases hw

theorem tcpStep_eq_none_of_closed (hr : r.readRegistered = false) (bs : List UInt8) :
    tcpStep hmac r (.piece bs) = none := by
  rw [tcpStep]
  split
  · rw [Delivery.input, step, hr]
    rfl
  · rfl

/-! ### What the rest of the stream does -/

section Rest

variable {ds : List Delivery} {d : Delivery} {frames : List Frame} {left : List Symbol}
  {pkts ps : List ByteBuffer} {headers hs : List (Bytes 6)}

/-- The deliveries are survived, and add to the two histories. -/
def Ends (hmac : Hmac) (r : Receiver) (ds : List Delivery) (pkts : List ByteBuffer)
    (headers : List (Bytes 6)) : Prop :=
  ∃ t, Runs.run (tcpStep hmac) r ds = some t ∧ Adds r t pkts headers

theorem ends_cons (hstep : tcpStep hmac r d = some r') (hadds : Adds r r' ps hs) :
    Ends hmac r (d :: ds) (ps ++ pkts) (hs ++ headers) ↔ Ends hmac r' ds pkts headers := by
  simp only [Ends, Adds, Runs.run_cons_of_step hstep, hadds.1, hadds.2, List.append_assoc]

theorem ends_setKey {key : ℕ} :
    Ends hmac r (.setKey key :: ds) pkts headers ↔
      Ends hmac { r with crypto := r.crypto.setKey hmac key } ds pkts headers := by
  have hstep : tcpStep hmac r (.setKey key) =
      some { r with crypto := r.crypto.setKey hmac key } := rfl
  exact ends_cons hstep (adds_nil r)

theorem not_ends_of_eq_none (hstep : tcpStep hmac r d = none) :
    ¬Ends hmac r (d :: ds) pkts headers := by
  rintro ⟨t, hrun, -⟩
  rw [Runs.run_cons, hstep] at hrun
  cases hrun

theorem not_ends_of_not_offered (h : ¬d.Offered r) : ¬Ends hmac r (d :: ds) pkts headers :=
  not_ends_of_eq_none (if_neg h)

/-- Where nothing can be received, the rest of the stream has to have nothing in it. -/
theorem pieces_eq_nil_of_run {P : Receiver → Prop}
    (hkey : ∀ r key, P r → P { r with crypto := ProxyCrypto.setKey hmac r.crypto key })
    (hpiece : ∀ r bs, P r → tcpStep hmac r (.piece bs) = none) (hr : P r) {t : Receiver}
    (h : Runs.run (tcpStep hmac) r ds = some t) : pieces ds = [] := by
  induction ds generalizing r with
  | nil => rfl
  | cons d ds ih =>
    rcases d with bs | key
    · rw [Runs.run_cons, hpiece r bs hr] at h
      cases h
    · exact ih (hkey r key hr) h

/-- Keys alone add nothing. -/
theorem ends_of_pieces_eq_nil (h : pieces ds = []) : Ends hmac r ds [] [] := by
  induction ds generalizing r with
  | nil => exact ⟨r, rfl, adds_nil r⟩
  | cons d ds ih =>
    rcases d with bs | key
    · cases h
    · exact ends_setKey.mpr (ih h)

theorem not_ends_of_closed (hstep : tcpStep hmac r d = some r') (hr : r'.readRegistered = false)
    (hne : pieces ds ≠ []) : ¬Ends hmac r (d :: ds) pkts headers := by
  rintro ⟨t, hrun, -⟩
  rw [Runs.run_cons_of_step hstep] at hrun
  exact hne (pieces_eq_nil_of_run (P := fun r => r.readRegistered = false) (fun _ _ h => h)
    (fun _ bs h => tcpStep_eq_none_of_closed h bs) hr hrun)

theorem LeftOver.ends_iff (hr : r.LeftOver) :
    Ends hmac r ds pkts headers ↔ pieces ds = [] ∧ pkts = [] ∧ headers = [] := by
  constructor
  · rintro ⟨t, hrun, hadds⟩
    have hnil : pieces ds = [] :=
      pieces_eq_nil_of_run (fun _ _ h => ⟨h.waits, h.inPacket, h.expected⟩)
        (fun _ bs h => h.tcpStep_eq_none bs) hr hrun
    obtain ⟨t', hrun', hadds'⟩ : Ends hmac r ds [] [] := ends_of_pieces_eq_nil hnil
    obtain rfl := Option.some.inj (hrun'.symm.trans hrun)
    exact ⟨hnil, List.append_cancel_left (hadds.1.symm.trans hadds'.1),
      List.append_cancel_left (hadds.2.symm.trans hadds'.2)⟩
  · rintro ⟨hnil, rfl, rfl⟩
    exact ends_of_pieces_eq_nil hnil

/-- The last part of a payload, if no packet follows. -/
theorem AtRest.ends_last_iff {pkt : ClientPkt} {got bs : List UInt8} (hr : r.AtRest pkt got)
    (hshort : pkt.siz.toNat ≤ 4094) (hpayload : got ++ bs = pkt.payload) :
    Ends hmac r (.piece bs :: ds) (pkt.buffer :: frames.map Frame.buffer)
        (frames.map Frame.header) ↔
      frames = [] ∧ pieces ds = [] := by
  obtain ⟨r', hstep, hr', hadds⟩ := hr.tcpStep_last hshort hpayload
  refine (ends_cons hstep hadds).trans (hr'.ends_iff.trans ?_)
  rw [List.map_eq_nil_iff, List.map_eq_nil_iff, and_self]
  exact and_comm

/-- **Within a payload.** The rest of it may arrive in any pieces, but nothing behind it. -/
theorem AtRest.ends_iff {pkt : ClientPkt} {got : List UInt8} (hr : r.AtRest pkt got)
    (hshort : pkt.siz.toNat ≤ 4094)
    (hstream : ds.flatMap Delivery.symbols = left ++ frames.flatMap Frame.symbols)
    (hpayload : got ++ bytesOf left = pkt.payload) :
    Ends hmac r ds (pkt.buffer :: frames.map Frame.buffer) (frames.map Frame.header) ↔
      frames = [] ∧ ∀ p ∈ pieces ds, p ≠ [] := by
  induction ds generalizing r got left with
  | nil =>
    -- bytes are still expected
    obtain ⟨rfl, -⟩ := List.append_eq_nil_iff.mp hstream.symm
    exact absurd (hr.length_left hpayload) hr.pos.ne
  | cons d ds ih =>
    rw [List.flatMap_cons] at hstream
    have hlen := hr.length_left hpayload
    rcases d with bs | key
    · rw [Delivery.symbols] at hstream
      by_cases hne : bs = []
      · subst hne
        refine iff_of_false (not_ends_of_not_offered ?_) ?_
        · rintro ⟨-, hnil⟩
          rw [hr.request] at hnil
          exact hr.pos.ne' (hnil rfl)
        · rintro ⟨-, hall⟩
          exact hall [] List.mem_cons_self rfl
      rcases Nat.lt_trichotomy bs.length r.expectedData with hlt | hlast | hgt
      · obtain ⟨behind, rfl, hrest, hbytes⟩ := exists_of_map_byte_append hstream (by omega)
        rw [hbytes, ← List.append_assoc] at hpayload
        obtain ⟨r', hstep, hr', hadds⟩ := hr.tcpStep_part hshort hne hlt
        refine (ends_cons hstep hadds).trans ((ih hr' hrest hpayload).trans ?_)
        rw [pieces, List.forall_mem_cons, and_iff_right hne]
      · obtain ⟨behind, rfl, hrest, hbytes⟩ := exists_of_map_byte_append hstream (by omega)
        rw [hbytes, List.length_append] at hlen
        have hbehind : bytesOf behind = [] := List.length_eq_zero_iff.mp (by omega)
        rw [hbytes, hbehind, List.append_nil] at hpayload
        refine (hr.ends_last_iff hshort hpayload).trans (and_congr_right ?_)
        rintro rfl
        rw [List.flatMap_nil, List.append_nil] at hrest
        rw [pieces, List.forall_mem_cons, and_iff_right hne]
        exact ⟨fun hnil => hnil ▸ List.forall_mem_nil _,
          pieces_eq_nil_of_bytesOf (hrest ▸ hbehind)⟩
      · refine iff_of_false (not_ends_of_not_offered ?_) ?_
        · rintro ⟨hle, -⟩
          rw [hr.request] at hle
          exact absurd hle (Nat.not_le.mpr hgt)
        · rintro ⟨rfl, -⟩
          rw [List.flatMap_nil, List.append_nil] at hstream
          have hle := length_le_of_map_byte_append hstream
          omega
    · obtain ⟨behind, rfl, hrest⟩ := exists_of_setKey_cons hstream
      exact ends_setKey.trans
        (ih ⟨hr.registered, hr.waits, hr.inPacket, hr.pos, hr.expected⟩ hrest hpayload)

/-- Between two packets, exactly the unbroken pieces are put together. -/
def StartIff (hmac : Hmac) (ds : List Delivery) : Prop :=
  ∀ (r : Receiver) (frames : List Frame) (left : List Symbol), r.AtStart → bytesOf left = [] →
    ds.flatMap Delivery.symbols = left ++ frames.flatMap Frame.symbols →
    Encodes hmac (rekeyed hmac r.crypto left) frames →
    (Ends hmac r ds (frames.map Frame.buffer) (frames.map Frame.header) ↔
      Unbroken frames (pieces ds))

/-- What the pieces behind the header of a packet have to be. -/
def UnbrokenBody (pkt : ClientPkt) (frames : List Frame) (ps : List (List UInt8)) : Prop :=
  (∃ more, ps = pkt.payload :: more ∧ Unbroken frames more) ∨ frames = [] ∧ InPieces pkt.payload ps

/-- The same behind a header. -/
def BodyIff (hmac : Hmac) (ds : List Delivery) : Prop :=
  ∀ (r : Receiver) (pkt : ClientPkt) (frames : List Frame) (left : List Symbol), r.AtBody pkt →
    pkt.siz.toNat ≤ 4094 → bytesOf left = pkt.payload →
    ds.flatMap Delivery.symbols = left ++ frames.flatMap Frame.symbols →
    Encodes hmac (rekeyed hmac r.crypto left) frames →
    (Ends hmac r ds (pkt.buffer :: frames.map Frame.buffer) (frames.map Frame.header) ↔
      UnbrokenBody pkt frames (pieces ds))

theorem startIff_nil : StartIff hmac [] := by
  intro r frames left hr hleft hstream hencodes
  obtain ⟨-, hnil⟩ := List.append_eq_nil_iff.mp hstream.symm
  obtain rfl := bytesOf_flatMap_symbols_eq_nil (congrArg bytesOf hnil)
  exact iff_of_true ⟨r, rfl, adds_nil r⟩ rfl

theorem bodyIff_nil : BodyIff hmac [] := by
  intro r pkt frames left hr hshort hleft hstream hencodes
  refine iff_of_false ?_ ?_
  · rintro ⟨t, hrun, hadds⟩
    obtain rfl := Option.some.inj hrun
    have hlen := congrArg List.length hadds.1
    rw [List.length_append, List.length_cons] at hlen
    omega
  · rintro (⟨more, hmore, -⟩ | ⟨-, hne, -⟩)
    · cases hmore
    · exact hne rfl

theorem StartIff.setKey (h : StartIff hmac ds) (key : ℕ) : StartIff hmac (.setKey key :: ds) := by
  intro r frames left hr hleft hstream hencodes
  obtain ⟨behind, rfl, hrest⟩ := exists_of_setKey_cons hstream
  exact ends_setKey.trans
    (h _ frames behind ⟨hr.registered, hr.waits, hr.expected⟩ hleft hrest hencodes)

theorem BodyIff.setKey (h : BodyIff hmac ds) (key : ℕ) : BodyIff hmac (.setKey key :: ds) := by
  intro r pkt frames left hr hshort hleft hstream hencodes
  obtain ⟨behind, rfl, hrest⟩ := exists_of_setKey_cons hstream
  exact ends_setKey.trans
    (h _ pkt frames behind ⟨hr.registered, hr.waits, hr.expected, hr.header⟩ hshort hleft hrest
      hencodes)

/-- A part of a header is the end of a connection, if the rest of it is still to come. -/
theorem AtStart.not_ends_part (hr : r.AtStart) {bs : List UInt8} (hne : bs ≠ [])
    (hlt : bs.length < 6) (hrest : bytesOf (ds.flatMap Delivery.symbols) ≠ []) :
    ¬Ends hmac r (.piece bs :: ds) pkts headers := by
  obtain ⟨r', hstep, hclosed⟩ := hr.tcpStep_part hne hlt
  refine not_ends_of_closed hstep hclosed fun hnil => hrest ?_
  rw [bytesOf_symbols, hnil, List.flatten_nil]

/-- A whole header leads to the body of its packet. -/
theorem BodyIff.header (h : BodyIff hmac ds) {frame : Frame} (hr : r.AtStart)
    (hstream : ds.flatMap Delivery.symbols = frame.body ++ frames.flatMap Frame.symbols)
    (hencodes : Encodes hmac r.crypto (frame :: frames)) :
    Ends hmac r (.piece frame.header.val :: ds) ((frame :: frames).map Frame.buffer)
        ((frame :: frames).map Frame.header) ↔
      Unbroken (frame :: frames) (frame.header.val :: pieces ds) := by
  obtain ⟨hplain, hencodes⟩ := hencodes
  obtain ⟨r', hstep, hr', hcrypto, hadds⟩ := hr.tcpStep_header hplain
  rw [← hcrypto] at hencodes
  have hiff := h r' frame.pkt frames frame.body hr' frame.short frame.bytesOf_body hstream hencodes
  refine (ends_cons hstep hadds).trans (hiff.trans ?_)
  constructor
  · exact fun hbody => ⟨_, rfl, hbody⟩
  · rintro ⟨rest, hcons, hbody⟩
    rwa [(List.cons.inj hcons).2]

/-- The next piece is a whole header, or the connection ends with it. -/
theorem BodyIff.piece (h : BodyIff hmac ds) (bs : List UInt8) :
    StartIff hmac (.piece bs :: ds) := by
  intro r frames left hr hleft hstream hencodes
  rw [List.flatMap_cons, Delivery.symbols] at hstream
  by_cases hoffered : bs ≠ [] ∧ bs.length ≤ 6
  · obtain ⟨hne, hle⟩ := hoffered
    obtain rfl := eq_nil_of_map_byte_append hne hleft hstream
    rw [List.nil_append] at hstream
    rcases frames with _ | ⟨frame, frames⟩
    · rw [List.flatMap_nil, List.append_eq_nil_iff, List.map_eq_nil_iff] at hstream
      exact absurd hstream.1 hne
    · rw [List.flatMap_cons, Frame.symbols, List.append_assoc] at hstream
      obtain ⟨behind, hheader, hrest⟩ :=
        exists_of_map_byte_append_map hstream (hle.trans frame.header.length.ge)
      have hlen := congrArg List.length hheader
      rw [List.length_append, frame.header.length] at hlen
      rcases Nat.lt_or_eq_of_le hle with hlt | heq
      · refine iff_of_false (hr.not_ends_part hne hlt ?_) ?_
        · rw [hrest, bytesOf_append, bytesOf_map_byte]
          refine List.append_ne_nil_of_left_ne_nil ?_ _
          rintro rfl
          rw [List.length_nil] at hlen
          omega
        · rintro ⟨rest, hcons, -⟩
          have hwhole := congrArg List.length (List.cons.inj hcons).1
          rw [frame.header.length] at hwhole
          omega
      · obtain rfl : behind = [] := List.length_eq_zero_iff.mp (by omega)
        rw [List.append_nil] at hheader
        subst hheader
        exact h.header hr hrest hencodes
  · refine iff_of_false (not_ends_of_not_offered ?_) ?_
    · rintro ⟨hle, hnil⟩
      rw [hr.request] at hle hnil
      exact hoffered ⟨fun hbs => absurd (hnil hbs) (by decide), hle⟩
    · rcases frames with _ | ⟨frame, frames⟩
      · rintro ⟨⟩
      · rintro ⟨rest, hcons, -⟩
        rw [(List.cons.inj hcons).1] at hoffered
        exact hoffered
          ⟨List.ne_nil_of_length_eq_add_one frame.header.length, frame.header.length.le⟩

/-- A part of a payload is one of its pieces, if no packet follows. -/
theorem AtBody.ends_part_iff {pkt : ClientPkt} {bs : List UInt8} (hr : r.AtBody pkt)
    (hshort : pkt.siz.toNat ≤ 4094) (hne : bs ≠ []) (hlt : bs.length < pkt.payload.length)
    (hstream : ds.flatMap Delivery.symbols = left ++ frames.flatMap Frame.symbols)
    (hpayload : bs ++ bytesOf left = pkt.payload) :
    Ends hmac r (.piece bs :: ds) (pkt.buffer :: frames.map Frame.buffer)
        (frames.map Frame.header) ↔
      UnbrokenBody pkt frames (bs :: pieces ds) := by
  obtain ⟨r', hstep, hr', hadds⟩ := hr.tcpStep_part hshort hne hlt
  refine (ends_cons hstep hadds).trans ((hr'.ends_iff hshort hstream hpayload).trans ?_)
  constructor
  · rintro ⟨rfl, hall⟩
    have hflat := bytesOf_symbols ds
    rw [hstream, List.flatMap_nil, List.append_nil] at hflat
    refine Or.inr ⟨rfl, List.cons_ne_nil _ _, ?_, List.forall_mem_cons.mpr ⟨hne, hall⟩⟩
    rw [List.flatten_cons, ← hflat, hpayload]
  · rintro (⟨more, hcons, -⟩ | ⟨rfl, -, -, hall⟩)
    · rw [(List.cons.inj hcons).1] at hlt
      exact absurd hlt (lt_irrefl _)
    · exact ⟨rfl, (List.forall_mem_cons.mp hall).2⟩

/-- A whole payload leads to the next packet. -/
theorem StartIff.whole (h : StartIff hmac ds) {pkt : ClientPkt} (hr : r.AtBody pkt)
    (hshort : pkt.siz.toNat ≤ 4094) (hleft : bytesOf left = [])
    (hstream : ds.flatMap Delivery.symbols = left ++ frames.flatMap Frame.symbols)
    (hencodes : Encodes hmac (rekeyed hmac r.crypto left) frames) :
    Ends hmac r (.piece pkt.payload :: ds) (pkt.buffer :: frames.map Frame.buffer)
        (frames.map Frame.header) ↔
      UnbrokenBody pkt frames (pkt.payload :: pieces ds) := by
  obtain ⟨r', hstep, hr', hcrypto, hadds⟩ := hr.tcpStep_whole hshort
  rw [← hcrypto] at hencodes
  refine (ends_cons hstep hadds).trans ((h r' frames left hr' hleft hstream hencodes).trans ?_)
  constructor
  · exact fun hunbroken => Or.inl ⟨_, rfl, hunbroken⟩
  · rintro (⟨more, hcons, hunbroken⟩ | ⟨rfl, -, hflat, hall⟩)
    · rwa [(List.cons.inj hcons).2]
    · rw [List.flatten_cons] at hflat
      exact eq_nil_of_flatten_eq_nil (List.append_right_eq_self.mp hflat)
        (List.forall_mem_cons.mp hall).2

/-- The next piece is a whole payload, or a part of the last. -/
theorem StartIff.piece (h : StartIff hmac ds) (bs : List UInt8) :
    BodyIff hmac (.piece bs :: ds) := by
  intro r pkt frames left hr hshort hleft hstream hencodes
  rw [List.flatMap_cons, Delivery.symbols] at hstream
  by_cases hoffered : bs.length ≤ pkt.payload.length ∧ (bs = [] → pkt.payload.length = 0)
  · obtain ⟨hle, hnil⟩ := hoffered
    obtain ⟨behind, rfl, hrest, hbytes⟩ := exists_of_map_byte_append hstream (hleft ▸ hle)
    rw [hleft] at hbytes
    rw [rekeyed_map_byte_append] at hencodes
    rcases Nat.lt_or_eq_of_le hle with hlt | heq
    · refine hr.ends_part_iff hshort ?_ hlt hrest hbytes.symm
      intro hbs
      rw [hnil hbs] at hlt
      exact Nat.not_lt_zero _ hlt
    · have hbehind : bytesOf behind = [] := by
        have hlen := congrArg List.length hbytes
        rw [List.length_append] at hlen
        exact List.length_eq_zero_iff.mp (by omega)
      rw [hbehind, List.append_nil] at hbytes
      subst hbytes
      exact h.whole hr hshort hbehind hrest hencodes
  · refine iff_of_false (not_ends_of_not_offered ?_) ?_
    · rintro ⟨hle, hnil⟩
      rw [hr.request] at hle hnil
      exact hoffered ⟨hle, hnil⟩
    · rintro (⟨more, hcons, -⟩ | ⟨-, -, hflat, hall⟩)
      · rw [(List.cons.inj hcons).1] at hoffered
        exact hoffered ⟨Nat.le_refl _, fun hnil => congrArg List.length hnil⟩
      · have hlen := congrArg List.length hflat
        rw [pieces, List.flatten_cons, List.length_append] at hlen
        exact hoffered ⟨by omega, fun hbs => absurd hbs (hall bs List.mem_cons_self)⟩

/-- **Between two packets, and behind a header.** Both are followed at once, as each of
them leads to the other. -/
theorem startIff_and_bodyIff (ds : List Delivery) : StartIff hmac ds ∧ BodyIff hmac ds := by
  induction ds with
  | nil => exact ⟨startIff_nil, bodyIff_nil⟩
  | cons d ds ih =>
    obtain ⟨hstart, hbody⟩ := ih
    rcases d with bs | key
    · exact ⟨hbody.piece bs, hstart.piece bs⟩
    · exact ⟨hstart.setKey key, hbody.setKey key⟩

end Rest

end Receiver

/-- **The packets are delivered exactly where each of them arrives unbroken.** For every
stream that is a sequence of client packets, with headers that are encrypted or not and the
key set at any moments, and for every way `recv` cuts it, the packets given to
`process_incoming` are those of the stream and every header is decrypted once, if and only
if every header and every payload arrived in one piece, but for the payload of the last
packet. A handler that aborts or closes the connection ends the stream: there is no `recv`
after it. -/
theorem packets_delivered_iff (hmac : Hmac) (crypto : ProxyCrypto) (frames : List Frame)
    (ds : List Delivery) (hencodes : Encodes hmac crypto frames)
    (hstream : ds.flatMap Delivery.symbols = frames.flatMap Frame.symbols) :
    (∃ r, Runs.run (tcpStep hmac) (Receiver.init crypto) ds = some r ∧
      r.processed = frames.map Frame.buffer ∧ r.decrypted = frames.map Frame.header) ↔
      Unbroken frames (pieces ds) :=
  (startIff_and_bodyIff ds).1 (Receiver.init crypto) frames [] ⟨rfl, rfl, rfl⟩ rfl hstream hencodes

namespace StreamSample

/-- A ping, and a second one whose header is encrypted with a key of zeros. -/
def ping : ClientPkt where
  siz := 12
  opcode := 0x1DC
  payload := [1, 0, 0, 0, 9, 0, 0, 0]
  complete := rfl

def first : Frame where
  header := ⟨[0, 12, 220, 1, 0, 0], rfl⟩
  pkt := ping
  body := ping.payload.map .byte ++ [.setKey 7]
  bytesOf_body := rfl
  short := by decide

def second : Frame where
  header := ⟨[0, 12, 232, 233, 233, 233], rfl⟩
  pkt := ping
  body := ping.payload.map .byte
  bytesOf_body := rfl
  short := by decide

def zeroHmac : Hmac := fun _ _ => Bytes.zero 20

theorem encodes : Encodes zeroHmac ProxyCrypto.init [first, second] := ⟨rfl, rfl, trivial⟩

/-- The second payload in two pieces, and the first. -/
def lastCut : List Delivery :=
  [.piece first.header.val, .piece ping.payload, .setKey 7, .piece second.header.val,
    .piece (ping.payload.take 3), .piece (ping.payload.drop 3)]

def firstCut : List Delivery :=
  [.piece first.header.val, .piece (ping.payload.take 3), .piece (ping.payload.drop 3), .setKey 7,
    .piece (second.header.val.take 5), .piece (second.header.val.drop 5), .piece ping.payload]

end StreamSample

open StreamSample

/-- A packet in pieces is put together if it is the last. -/
theorem packets_delivered_iff_last_cut : ∃ r,
    Runs.run (tcpStep zeroHmac) (Receiver.init ProxyCrypto.init) lastCut = some r ∧
      r.processed = [ping.buffer, ping.buffer] ∧ r.decrypted = [first.header, second.header] :=
  (packets_delivered_iff zeroHmac ProxyCrypto.init [first, second] lastCut encodes rfl).mpr
    ⟨_, rfl, Or.inl ⟨_, rfl, _, rfl, Or.inr ⟨rfl, List.cons_ne_nil _ _, rfl, by decide⟩⟩⟩

/-- If it is not, the one behind it is added to it, which is no more. -/
theorem first_cut_not_delivered :
    Encodes zeroHmac ProxyCrypto.init [first, second] ∧
      firstCut.flatMap Delivery.symbols = [first, second].flatMap Frame.symbols ∧
      ∃ r, Runs.run (tcpStep zeroHmac) (Receiver.init ProxyCrypto.init) (firstCut.take 4) = some r ∧
        (Delivery.piece (second.header.val.take 5)).Offered r ∧
          Runs.run (tcpStep zeroHmac) (Receiver.init ProxyCrypto.init) firstCut = none := by
  refine ⟨encodes, rfl, _, rfl, ?_, rfl⟩
  decide

end Morfeusz.Proxyd
