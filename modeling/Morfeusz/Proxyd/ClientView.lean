import Morfeusz.Proxyd.Authentication
import Morfeusz.Proxyd.Output

/-!
# What the client of the proxy reads

The header of a packet is encrypted when its turn comes to be written, not when it is queued, and
`set_key` may come in between: a packet that was queued in plain may be written with the key.
This file puts a socket and its output together, with the handlers, the callbacks and
`handle_output` in any order, and asks what a client reads that knows the session key.

The stream is cut once (`Morfeusz.Proxyd.Link.Written`): the packets whose turn came before the
session was accepted are plain, all the others belong to one run of the cipher. A client that
changes over at that packet reads every packet as it was queued
(`Morfeusz.Proxyd.client_reads_session`).
-/

namespace Morfeusz.Proxyd

open ByteNumbers ByteBuffer ProxyCrypto

/-! ### A socket with its output -/

/-- The bytes that are left of a packet that is being written. -/
def cutOf : Bool → List ByteBuffer → List UInt8
  | true, rest :: _ => rest.storage
  | _, _ => []

/-- A socket, with what its output side has besides, what was ever queued and what the client
has taken. -/
structure Link extends ProxySocket where
  continueSend : Bool
  queued : List ByteBuffer
  delivered : List UInt8

/-- A step of the socket, or a call of `handle_output`. -/
inductive LinkEvent
  | conn (e : SocketEvent)
  | output (results : List ℤ)

namespace Link

def outbox (s : Link) : Outbox := s.conn.outbox s.continueSend s.queued s.delivered

/-- The outbox is as `handle_output` has left it. -/
def written (s : Link) (o : Outbox) : Link where
  conn :=
    { s.conn with
      packetQueue := o.packetQueue
      outActive := o.outActive
      crypto := o.crypto }
  creation := s.creation
  continueSend := o.continueSend
  queued := o.queued
  delivered := o.delivered

/-- The socket after `open`. -/
def init (f : Start) : Link where
  toProxySocket := .init f
  continueSend := false
  queued := (Conn.init f).packetQueue
  delivered := []

/-- One step of both. -/
def step (sha : Sha1) (hmac : Hmac) (s : Link) : LinkEvent → Option Link
  | .conn e => (s.toProxySocket.step sha hmac e).map fun sock =>
    { s with
      toProxySocket := sock
      queued := s.queued ++ sock.conn.packetQueue.drop s.conn.packetQueue.length }
  | .output results =>
    if s.conn.Held then (s.outbox.step (.output results)).map s.written else none

/-- The packets no byte of which was written. -/
def unstarted (s : Link) : List ByteBuffer :=
  Proxyd.unstarted s.continueSend s.conn.packetQueue

/-- Those whose turn has come. -/
def begun (s : Link) : List ByteBuffer := s.queued.take (s.queued.length - s.unstarted.length)

/-- The rest of the packet that is being written, if there is one. -/
def cut (s : Link) : List UInt8 := cutOf s.continueSend s.conn.packetQueue

end Link

/-- An accepted session. -/
def LinkEvent.Accepts (sha : Sha1) (s : Link) (ev : LinkEvent) (acct : Account) : Prop :=
  ∃ e, ev = .conn e ∧ s.toProxySocket.Accepts sha e acct

/-- A call of `handle_output` loses nothing. -/
def LinkEvent.Harmless (s : Link) : LinkEvent → Prop
  | .conn _ => True
  | .output results =>
    Proxyd.Harmless s.continueSend s.conn.crypto s.conn.packetQueue results

/-! ### A client -/

/-- A packet as the client has it. -/
structure Packet where
  opcode : UInt16
  payload : List UInt8
  deriving DecidableEq

/-- The packet a buffer holds. -/
def Packet.ofBuffer (buf : ByteBuffer) : Packet where
  opcode := Proxyd.opcode buf
  payload := buf.storage.drop 4

/-- What a client needs to read headers: the key, if it has one by now, how many bytes it has
decrypted and the last of them as it came. -/
structure Client where
  key : Option (Bytes 20)
  received : ℕ
  last : UInt8

namespace Client

/-- Without a key. -/
def plain : Client := { key := none, received := 0, last := 0 }

/-- With a key, and before the first header. -/
def keyed (key : Bytes 20) : Client := { key := some key, received := 0, last := 0 }

/-- A header is decrypted. -/
def decrypt (client : Client) (header : List UInt8) : List UInt8 × Client :=
  match client.key with
  | none => (header, client)
  | some key =>
    ((cipher key).dec client.received client.last header,
      { client with
        received := client.received + header.length
        last := header.getLastD client.last })

/-- A packet is read: the size, which counts the opcode, the opcode and the payload. -/
def readPacket (client : Client) (stream : List UInt8) :
    Option (Packet × Client × List UInt8) :=
  let (header, client) := client.decrypt (stream.take 4)
  let size := beVal (header.take 2)
  let opcode := UInt16.ofNat (leVal (header.drop 2))
  if header.length = 4 ∧ 2 ≤ size ∧ size + 2 ≤ stream.length then
    some ({ opcode, payload := (stream.drop 4).take (size - 2) }, client, stream.drop (size + 2))
  else none

/-- A number of packets. -/
def readPackets : ℕ → Client → List UInt8 → Option (List Packet × List UInt8)
  | 0, _, stream => some ([], stream)
  | n + 1, client, stream => do
    let (packet, client, stream) ← client.readPacket stream
    let (packets, stream) ← readPackets n client stream
    some (packet :: packets, stream)

end Client

/-- Some packets in plain, and some more with a key. -/
def readSession (m n : ℕ) (key : Bytes 20) (stream : List UInt8) :
    Option (List Packet × List UInt8) := do
  let (plain, stream) ← Client.plain.readPackets m stream
  let (keyed, stream) ← (Client.keyed key).readPackets n stream
  some (plain ++ keyed, stream)

/-! ### Reading a packet -/

/-- The client is as far as the cipher of the server. -/
def InStep (client : Client) (crypto : ProxyCrypto) : Prop :=
  match client.key with
  | none => crypto.isInitialised = false
  | some key => ∃ received recvJ, At key client.received client.last received recvJ crypto

theorem inStep_plain : InStep .plain .init := rfl

theorem inStep_keyed (key : Bytes 20) : InStep (.keyed key) (ProxyCrypto.keyed key) :=
  ⟨0, 0, at_keyed key⟩

theorem encrypt_of_not_initialised {crypto : ProxyCrypto} (h : crypto.isInitialised = false)
    (data : Bytes cryptedSendLen) : crypto.encrypt data = (data, crypto) := by
  rw [ProxyCrypto.encrypt, if_neg]
  rw [h]
  exact Bool.false_ne_true

/-- **A header comes out as it went in**, and the client keeps up. -/
theorem InStep.decrypt {client : Client} {crypto : ProxyCrypto} (h : InStep client crypto)
    (data : Bytes cryptedSendLen) : ∃ client',
      client.decrypt (crypto.encrypt data).1.val = (data.val, client') ∧
        InStep client' (crypto.encrypt data).2 := by
  rw [InStep] at h
  cases hkey : client.key with
  | none =>
    rw [hkey] at h
    rw [encrypt_of_not_initialised h, Client.decrypt, hkey]
    refine ⟨client, rfl, ?_⟩
    rw [InStep, hkey]
    exact h
  | some key =>
    rw [hkey] at h
    obtain ⟨received, recvJ, hat⟩ := h
    obtain ⟨hout, hat'⟩ := hat.encrypt data
    rw [Client.decrypt, hkey, hout]
    dsimp only
    rw [ChainCipher.dec_enc, ChainCipher.length_enc]
    refine ⟨_, rfl, ?_⟩
    rw [InStep]
    dsimp only
    exact ⟨received, recvJ, hat'⟩

theorem beVal_header {buf : ByteBuffer} (h : IsPacket buf) :
    beVal ((header buf).val.take 2) = buf.size - 2 := by
  obtain ⟨h4, hle⟩ := h
  have htake : (header buf).val.take 2 = (uint16 (UInt16.ofNat (buf.size - 4 + 2))).reverse :=
    List.take_left' (by rw [List.length_reverse, length_uint16])
  have hlt : buf.size - 4 + 2 < 2 ^ 16 := by omega
  rw [htake, beVal_reverse, uint16, UInt16.toNat_ofNat_of_lt' hlt, leVal_leBytes_of_lt hlt]
  omega

theorem leVal_header (buf : ByteBuffer) :
    UInt16.ofNat (leVal ((header buf).val.drop 2)) = opcode buf := by
  have hdrop : (header buf).val.drop 2 = uint16 (opcode buf) :=
    List.drop_left' (by rw [List.length_reverse, length_uint16])
  rw [hdrop, uint16, leVal_leBytes_of_lt (opcode buf).toNat_lt]
  exact UInt16.ofNat_toNat

/-- **A packet is read as it was queued.** -/
theorem InStep.readPacket {client : Client} {crypto : ProxyCrypto} (h : InStep client crypto)
    {buf : ByteBuffer} (hpkt : IsPacket buf) (rest : List UInt8) : ∃ client',
      client.readPacket (packetBytes crypto buf ++ rest) =
        some (Packet.ofBuffer buf, client', rest) ∧
      InStep client' (crypto.encrypt (header buf)).2 := by
  obtain ⟨client', hdecrypt, hin⟩ := h.decrypt (header buf)
  refine ⟨client', ?_, hin⟩
  have hlen := size_packetBytes hpkt crypto
  have hfront : (packetBytes crypto buf ++ rest).take 4 = (crypto.encrypt (header buf)).1.val := by
    rw [packetBytes, List.append_assoc]
    exact List.take_left' (crypto.encrypt (header buf)).1.length
  have hback : (packetBytes crypto buf ++ rest).drop 4 = buf.storage.drop 4 ++ rest := by
    rw [packetBytes, List.append_assoc]
    exact List.drop_left' (crypto.encrypt (header buf)).1.length
  have hsize : buf.size - 2 + 2 = (packetBytes crypto buf).length := by
    have := hpkt.1
    omega
  have hpayload : buf.size - 2 - 2 = (buf.storage.drop 4).length := by
    rw [List.length_drop, size]
    omega
  rw [Client.readPacket, hfront, hdecrypt]
  dsimp only
  rw [beVal_header hpkt, leVal_header, hback, hsize, hpayload, List.take_left, List.drop_left,
    if_pos]
  · rfl
  · refine ⟨length_header buf, ?_, ?_⟩
    · have := hpkt.1
      omega
    · rw [List.length_append]
      exact Nat.le_add_right _ _

/-- **A stream is read packet by packet.** -/
theorem InStep.readPackets {client : Client} {crypto : ProxyCrypto} (h : InStep client crypto)
    {bufs : List ByteBuffer} (hpkts : ∀ buf ∈ bufs, IsPacket buf) (rest : List UInt8) :
    client.readPackets bufs.length (wire crypto bufs ++ rest) =
      some (bufs.map Packet.ofBuffer, rest) := by
  induction bufs generalizing client crypto with
  | nil => rfl
  | cons buf bufs ih =>
    obtain ⟨client', hread, hin⟩ :=
      h.readPacket (hpkts buf List.mem_cons_self)
        (wire (crypto.encrypt (header buf)).2 bufs ++ rest)
    have hbufs := ih hin fun buf hbuf => hpkts buf (List.mem_cons_of_mem _ hbuf)
    rw [wire, List.append_assoc, List.length_cons, Client.readPackets, hread, Option.bind_eq_bind,
      Option.bind_some]
    dsimp only
    rw [hbufs]
    rfl

/-- A stream with one change over. -/
theorem readSession_wire {plain keyed : List ByteBuffer} (key : Bytes 20)
    (hplain : ∀ buf ∈ plain, IsPacket buf) (hkeyed : ∀ buf ∈ keyed, IsPacket buf) :
    readSession plain.length keyed.length key
        (wire .init plain ++ wire (ProxyCrypto.keyed key) keyed) =
      some ((plain ++ keyed).map Packet.ofBuffer, []) := by
  have hrest := (inStep_keyed key).readPackets hkeyed []
  rw [List.append_nil] at hrest
  rw [readSession, inStep_plain.readPackets hplain, Option.bind_eq_bind, Option.bind_some]
  dsimp only
  rw [hrest, List.map_append]
  rfl

/-! ### What the handlers queue -/

namespace Conn

variable {env : Env} {c c' c₁ : Conn} {pkt : ClientPkt}

theorem queue_ask (c : Conn) (obs : Observer) (op : ProxydRequest) :
    (c.ask obs op).packetQueue = c.packetQueue := by
  rw [ask]
  split
  · rfl
  · rfl

/-- A handler that answers with one packet. -/
theorem queue_of_bind_send {pkt? : Option ByteBuffer} (hq : c₁.packetQueue = c.packetQueue)
    (h : (do let pkt ← pkt?; some (c₁.send pkt)) = some c') :
    c.packetQueue <+: c'.packetQueue := by
  obtain ⟨pkt, -, h⟩ := Option.bind_eq_some_iff.mp h
  rw [← Option.some.inj h, ← hq]
  exact List.prefix_append _ _

theorem queue_of_sendCharCreate {response : ResponseCodes} (hq : c₁.packetQueue = c.packetQueue)
    (h : c₁.sendCharCreate response = some c') : c.packetQueue <+: c'.packetQueue :=
  queue_of_bind_send hq h

theorem queue_of_insertCharacter {race pclass : UInt8} {name : List UInt8} {buf : ByteBuffer}
    (hq : c₁.packetQueue = c.packetQueue)
    (h : c₁.insertCharacter env race pclass name buf = some c') :
    c.packetQueue <+: c'.packetQueue := by
  obtain ⟨_, _, _, _, _, _, hsend⟩ := sendCharCreate_of_insertCharacter h
  refine queue_of_sendCharCreate ?_ hsend
  exact hq

/-- A piece of a handler that answers is its last. -/
theorem queue_of_map_send {response : ResponseCodes} {creation : Option Creation}
    (h : (c.sendCharCreate response).map (fun c => (c, (none : Option Creation))) =
      some (c', creation)) : c.packetQueue <+: c'.packetQueue := by
  obtain ⟨c₁, hc₁, h⟩ := Option.map_eq_some_iff.mp h
  obtain ⟨rfl, -⟩ := Prod.mk.inj h
  exact queue_of_sendCharCreate rfl hc₁

/-- One that asks sends nothing. -/
theorem queue_of_ask {h : Creation} {query : Query} {creation : Option Creation}
    (hask : h.ask c query = (c', creation)) : c.packetQueue <+: c'.packetQueue := by
  rw [← (Prod.mk.inj hask).1]
  exact List.prefix_rfl

theorem queue_of_resume {h : Creation} {res : ResultSet} {creation : Option Creation}
    (hres : c.resume h res = some (c', creation)) : c.packetQueue <+: c'.packetQueue := by
  rw [resume] at hres
  split at hres
  · split at hres
    · exact queue_of_map_send hres
    · exact queue_of_ask (Option.some.inj hres)
  · obtain ⟨full, -, hres⟩ := Option.bind_eq_some_iff.mp hres
    split at hres
    · exact queue_of_map_send hres
    · exact queue_of_ask (Option.some.inj hres)
  · obtain ⟨full, -, hres⟩ := Option.bind_eq_some_iff.mp hres
    split at hres
    · exact queue_of_map_send hres
    · obtain ⟨c₁, hc₁, hres⟩ := Option.map_eq_some_iff.mp hres
      obtain ⟨rfl, -⟩ := Prod.mk.inj hres
      exact queue_of_insertCharacter rfl hc₁

theorem queue_of_beginCharCreate {creation : Option Creation}
    (h : c.beginCharCreate env pkt = some (c', creation)) : c.packetQueue <+: c'.packetQueue := by
  rw [beginCharCreate] at h
  split at h
  · rw [(Prod.mk.inj (Option.some.inj h)).1]
  · dsimp only at h
    split at h
    · rw [(Prod.mk.inj (Option.some.inj h)).1]
    · obtain ⟨_, -, h⟩ := Option.bind_eq_some_iff.mp h
      obtain ⟨_, -, h⟩ := Option.bind_eq_some_iff.mp h
      split at h
      · exact queue_of_map_send h
      · exact queue_of_ask (Option.some.inj h)

/-- However far a handler gets. -/
theorem queue_of_settle {n : ℕ} {creation : Option Creation}
    (h : settle env n (c, creation) = some c') : c.packetQueue <+: c'.packetQueue := by
  induction n generalizing c creation with
  | zero =>
    cases creation with
    | none => rw [Option.some.inj h]
    | some _ => cases h
  | succ n ih =>
    cases creation with
    | none => rw [Option.some.inj h]
    | some waits =>
      obtain ⟨⟨c₁, creation₁⟩, hres, h⟩ := Option.bind_eq_some_iff.mp h
      exact (queue_of_resume hres).trans (ih h)

theorem queue_of_handleCmsgCharCreate (h : c.handleCmsgCharCreate env pkt = some c') :
    c.packetQueue <+: c'.packetQueue := by
  rw [← handleCmsgCharCreate_eq] at h
  obtain ⟨⟨c₁, creation⟩, hbegin, hsettle⟩ := Option.bind_eq_some_iff.mp h
  exact (queue_of_beginCharCreate hbegin).trans (queue_of_settle hsettle)

theorem queue_of_handleCmsgAuthSession (h : c.handleCmsgAuthSession pkt = some c') :
    c.packetQueue <+: c'.packetQueue := by
  rcases handleCmsgAuthSession_some h with rfl | ⟨login, clientSeed, clientDigest, rfl⟩
  · exact List.prefix_rfl
  · rw [getAccount, queue_ask]

theorem queue_of_processIncoming (h : c.processIncoming env pkt = some c') :
    c.packetQueue <+: c'.packetQueue := by
  rw [processIncoming] at h
  split at h
  · exact queue_of_handleCmsgAuthSession h
  · obtain ⟨_, -, h⟩ := Option.bind_eq_some_iff.mp h
    exact queue_of_bind_send rfl h
  · obtain ⟨_, -, h⟩ := Option.bind_eq_some_iff.mp h
    exact queue_of_bind_send rfl h
  · rw [← Option.some.inj h, handleCmsgCharEnum, getChars, queue_ask]
  · exact queue_of_handleCmsgCharCreate h
  · exact queue_of_bind_send rfl h
  · rw [Option.some.inj h]

theorem queue_of_receive {creation : Option Creation}
    (h : c.receive env pkt = some (c', creation)) : c.packetQueue <+: c'.packetQueue := by
  rw [receive] at h
  split at h
  · split at h
    · exact queue_of_beginCharCreate h
    · obtain ⟨c₁, hc₁, h⟩ := Option.map_eq_some_iff.mp h
      obtain ⟨rfl, -⟩ := Prod.mk.inj h
      exact queue_of_processIncoming hc₁
  · cases h

theorem queue_of_update {sha : Sha1} {hmac : Hmac} {res : ResultSet} {obs : Observer}
    (h : c.update sha hmac env res obs = some c') : c.packetQueue <+: c'.packetQueue := by
  cases obs with
  | getAcctObsv =>
    rw [update, getAcctObsv] at h
    split at h
    · obtain ⟨pkt, rfl⟩ := accountRetrieved_none h
      exact List.prefix_append _ _
    · obtain ⟨acct, -, h⟩ := Option.bind_eq_some_iff.mp h
      rcases accountRetrieved_some h with ⟨-, pkt, rfl⟩ | ⟨-, rfl⟩
      · exact List.prefix_append _ _
      · exact List.prefix_rfl
  | getCharsObsv =>
    rw [update, getCharsObsv] at h
    split at h
    · exact queue_of_bind_send rfl h
    · obtain ⟨_, -, h⟩ := Option.bind_eq_some_iff.mp h
      exact queue_of_bind_send (by rfl) h

end Conn

theorem queue_of_step {sha : Sha1} {hmac : Hmac} {c c' : Conn} {e : Event}
    (h : Proxyd.step sha hmac c e = some c') : c.packetQueue <+: c'.packetQueue := by
  obtain ⟨env, action⟩ := e
  rw [step] at h
  split at h
  · cases action with
    | input pkt =>
      dsimp only at h
      split at h
      · exact Conn.queue_of_processIncoming h
      · cases h
    | hangup =>
      dsimp only at h
      split at h
      · rw [← Option.some.inj h]
        exact List.prefix_rfl
      · cases h
    | answer obs res =>
      dsimp only at h
      split at h
      · show (c.answered obs).packetQueue <+: c'.packetQueue
        exact Conn.queue_of_update h
      · cases h
  · cases h

/-- **Packets are only put at the end of the queue.** -/
theorem ProxySocket.queue_of_step {sha : Sha1} {hmac : Hmac} {s s' : ProxySocket} {e : SocketEvent}
    (h : s.step sha hmac e = some s') : s.conn.packetQueue <+: s'.conn.packetQueue := by
  cases e with
  | event g =>
    rw [ProxySocket.step] at h
    split at h
    · obtain ⟨⟨c', creation⟩, hreceive, rfl⟩ := Option.map_eq_some_iff.mp h
      exact Conn.queue_of_receive hreceive
    · obtain ⟨c', hc', rfl⟩ := Option.map_eq_some_iff.mp h
      exact Proxyd.queue_of_step hc'
    · obtain ⟨c', hc', rfl⟩ := Option.map_eq_some_iff.mp h
      exact Proxyd.queue_of_step hc'
    · cases h
  | resume res =>
    obtain ⟨h', -, h⟩ := Option.bind_eq_some_iff.mp h
    obtain ⟨⟨c', creation⟩, hresume, rfl⟩ := Option.map_eq_some_iff.mp h
    exact Conn.queue_of_resume hresume

/-! ### What `handle_output` writes -/

section Written

variable {crypto : ProxyCrypto} {continueSend : Bool} {queue new : List ByteBuffer}
  {results : List ℤ} {taken : List UInt8} {r : Outbox.OutputResult}

theorem wire_append (crypto : ProxyCrypto) (bufs bufs' : List ByteBuffer) :
    wire crypto (bufs ++ bufs') = wire crypto bufs ++ wire (cryptoAfter crypto bufs) bufs' := by
  induction bufs generalizing crypto with
  | nil => rfl
  | cons buf bufs ih => rw [List.cons_append, wire, wire, ih, cryptoAfter, List.append_assoc]

theorem cryptoAfter_append (crypto : ProxyCrypto) (bufs bufs' : List ByteBuffer) :
    cryptoAfter crypto (bufs ++ bufs') = cryptoAfter (cryptoAfter crypto bufs) bufs' := by
  induction bufs generalizing crypto with
  | nil => rfl
  | cons buf bufs ih => rw [List.cons_append, cryptoAfter, ih, cryptoAfter]

/-- The queue begins with what is left of a packet, if anything is. -/
theorem wireFrom_eq (continueSend : Bool) (crypto : ProxyCrypto) (queue : List ByteBuffer) :
    wireFrom continueSend crypto queue =
      cutOf continueSend queue ++ wire crypto (unstarted continueSend queue) := by
  rcases continueSend with _ | _
  · rcases queue with _ | ⟨buf, queue⟩
    · rfl
    · rfl
  · rcases queue with _ | ⟨buf, queue⟩
    · rfl
    · rfl

/-- **The packets that a call begins** are the first ones, and the cipher goes on with them. -/
theorem exists_begun_false (hq : ∀ buf ∈ queue, IsPacket buf)
    (hpos : results.all (0 < ·) = true)
    (h : Outbox.outputLoop false crypto queue results taken = some r) :
    ∃ begun, queue = begun ++ unstarted r.continueSend r.queue ∧
      r.crypto = cryptoAfter crypto begun := by
  induction queue generalizing crypto results taken with
  | nil =>
    rw [Outbox.outputLoop] at h
    obtain rfl := Option.some.inj h
    exact ⟨[], rfl, rfl⟩
  | cons buffer queue ih =>
    rcases results with _ | ⟨sent, results⟩
    · cases h
    · obtain ⟨hsent, hpos⟩ : 0 < sent ∧ results.all (0 < ·) = true := by simpa using hpos
      rcases outputLoop_cons (prepare_false (hq _ List.mem_cons_self) crypto) hsent h with
        ⟨-, rfl⟩ | ⟨-, h⟩
      · exact ⟨[buffer], rfl, rfl⟩
      · obtain ⟨begun, hbegun, hcrypto⟩ :=
          ih (fun buf hbuf => hq _ (List.mem_cons_of_mem _ hbuf)) hpos h
        refine ⟨buffer :: begun, ?_, hcrypto⟩
        rw [List.cons_append, ← hbegun]

theorem exists_begun (hq : QueueOk continueSend queue) (hpos : results.all (0 < ·) = true)
    (h : Outbox.outputLoop continueSend crypto queue results taken = some r) :
    ∃ begun, unstarted continueSend queue = begun ++ unstarted r.continueSend r.queue ∧
      r.crypto = cryptoAfter crypto begun := by
  rcases continueSend with _ | _
  · exact exists_begun_false hq hpos h
  · obtain ⟨rest, queue, rfl⟩ := hq.exists_cons
    rcases results with _ | ⟨sent, results⟩
    · cases h
    · obtain ⟨hsent, hpos⟩ : 0 < sent ∧ results.all (0 < ·) = true := by simpa using hpos
      have hlimit : rest.size < sizeLimit := by
        have := hq.2.1
        rw [sizeLimit]
        omega
      rcases outputLoop_cons (prepare_true hlimit crypto) hsent h with ⟨-, rfl⟩ | ⟨-, h⟩
      · exact ⟨[], rfl, rfl⟩
      · exact exists_begun_false hq.2.2 hpos h

/-- **A harmless call finishes the packet that was begun and goes on with the next ones.** -/
theorem exists_written (hq : QueueOk continueSend queue) (hpos : results.all (0 < ·) = true)
    (h : Outbox.outputLoop continueSend crypto queue results [] = some r)
    (hgood : Harmless continueSend crypto queue results) :
    ∃ begun, unstarted continueSend queue = begun ++ unstarted r.continueSend r.queue ∧
      r.crypto = cryptoAfter crypto begun ∧
      r.taken ++ cutOf r.continueSend r.queue =
        cutOf continueSend queue ++ wire crypto begun ∧
      QueueOk r.continueSend r.queue := by
  obtain ⟨begun, hbegun, hcrypto⟩ := exists_begun hq hpos h
  obtain ⟨-, -, ⟨piece, htaken, -, hiff⟩, hqueue⟩ := hq.delivers hpos h
  refine ⟨begun, hbegun, hcrypto, ?_, hqueue hgood⟩
  have hall := hiff.mpr hgood
  rw [wireFrom_eq, wireFrom_eq, hbegun, wire_append, ← hcrypto, ← List.append_assoc,
    ← List.append_assoc] at hall
  rw [htaken, List.nil_append]
  exact List.append_cancel_right hall

/-- Where every packet is taken as a whole, nothing is lost. -/
theorem harmless_of_whole (crypto : ProxyCrypto) (hq : ∀ buf ∈ queue, IsPacket buf) :
    Harmless false crypto queue (queue.map fun buf => (buf.size : ℤ)) := by
  induction queue generalizing crypto with
  | nil => trivial
  | cons buf queue ih =>
    have hlen := size_packetBytes (hq buf List.mem_cons_self) crypto
    rw [List.map_cons, Harmless]
    refine ⟨fun h => absurd h Bool.false_ne_true, ?_⟩
    rw [if_neg Bool.false_ne_true, if_neg Bool.false_ne_true, hlen,
      if_neg fun h => lt_irrefl _ h.2]
    exact ih _ fun buf hbuf => hq buf (List.mem_cons_of_mem _ hbuf)

/-- More packets behind. -/
theorem QueueOk.append (h : QueueOk continueSend queue) (hnew : ∀ buf ∈ new, IsPacket buf) :
    QueueOk continueSend (queue ++ new) ∧
      unstarted continueSend (queue ++ new) = unstarted continueSend queue ++ new ∧
      cutOf continueSend (queue ++ new) = cutOf continueSend queue := by
  rcases continueSend with _ | _
  · refine ⟨?_, rfl, ?_⟩
    · intro buf hbuf
      rcases List.mem_append.mp hbuf with hbuf | hbuf
      · exact h buf hbuf
      · exact hnew buf hbuf
    · rcases queue with _ | ⟨buf, queue⟩
      · rcases new with _ | ⟨buf, new⟩
        · rfl
        · rfl
      · rfl
  · obtain ⟨rest, queue, rfl⟩ := h.exists_cons
    refine ⟨⟨h.1, h.2.1, ?_⟩, rfl, rfl⟩
    intro buf hbuf
    rcases List.mem_append.mp hbuf with hbuf | hbuf
    · exact h.2.2 buf hbuf
    · exact hnew buf hbuf

end Written

/-! ### Runs -/

variable {sha : Sha1} {hmac : Hmac} {f : Start} {s s' t : Link} {ev : LinkEvent}
  {es es' : List LinkEvent} {acct : Account}

/-- Nothing is accepted, nothing is lost and every packet fits its size field. -/
structure Smooth (sha : Sha1) (hmac : Hmac) (s₀ : Link) (es : List LinkEvent) : Prop where
  quiet : ∀ i s ev s' acct, Runs.StepAt (Link.step sha hmac) s₀ es i s ev s' →
    ¬ev.Accepts sha s acct
  harmless : ∀ i s ev s', Runs.StepAt (Link.step sha hmac) s₀ es i s ev s' → ev.Harmless s
  fits : ∀ i s ev s', Runs.StepAt (Link.step sha hmac) s₀ es i s ev s' →
    ∀ pkt ∈ s'.queued, IsPacket pkt

theorem Smooth.fits_of_run (h : Smooth sha hmac s es) (hfits : ∀ pkt ∈ s.queued, IsPacket pkt)
    (hrun : Runs.run (Link.step sha hmac) s es = some t) : ∀ pkt ∈ t.queued, IsPacket pkt := by
  have hall := Runs.run_take_induction (P := fun t => ∀ pkt ∈ t.queued, IsPacket pkt) hfits
    (fun i u ev u' hat _ => h.fits i u ev u' hat) es.length t
  rw [List.take_length] at hall
  exact hall hrun

/-- **The stream since a certain moment.** The packets `before` have been dealt with, the bytes
`stream` are theirs, and since then the packets `begun` were begun with the cipher `crypto`. -/
structure Link.Written (before : List ByteBuffer) (stream : List UInt8) (crypto : ProxyCrypto)
    (begun : List ByteBuffer) (s : Link) : Prop where
  queued : s.queued = before ++ begun ++ s.unstarted
  crypto_eq : s.conn.crypto = cryptoAfter crypto begun
  delivered : s.delivered ++ s.cut = stream ++ wire crypto begun
  queueOk : QueueOk s.continueSend s.conn.packetQueue

namespace Link

variable {before begun : List ByteBuffer} {stream : List UInt8} {crypto : ProxyCrypto}

theorem written_init (f : Start) : Written [] [] .init [] (init f) where
  queued := rfl
  crypto_eq := rfl
  delivered := rfl
  queueOk := by
    intro buf hbuf
    rw [List.mem_singleton.mp hbuf]
    exact isPacket_of_serverPkt (serverPkt_authChallenge f.seed) (by simp)

/-- What a step of the socket does to the queue. -/
theorem exists_of_conn {e : SocketEvent} (h : s.step sha hmac (.conn e) = some s') :
    ∃ sock new, s.toProxySocket.step sha hmac e = some sock ∧
      sock.conn.packetQueue = s.conn.packetQueue ++ new ∧
      s' = { s with toProxySocket := sock, queued := s.queued ++ new } := by
  obtain ⟨sock, hsock, rfl⟩ := Option.map_eq_some_iff.mp h
  obtain ⟨new, hnew⟩ := ProxySocket.queue_of_step hsock
  refine ⟨sock, new, hsock, hnew.symm, ?_⟩
  rw [← hnew, List.drop_left]

/-- **Packets that are queued are not begun.** -/
theorem Written.of_conn {e : SocketEvent} (h : Written before stream crypto begun s)
    (hstep : s.step sha hmac (.conn e) = some s') (hfits : ∀ pkt ∈ s'.queued, IsPacket pkt) :
    s'.queued = before ++ begun ++ s'.unstarted ∧
      s'.delivered ++ s'.cut = stream ++ wire crypto begun ∧
      QueueOk s'.continueSend s'.conn.packetQueue := by
  obtain ⟨sock, new, -, hnew, rfl⟩ := exists_of_conn hstep
  obtain ⟨hok, hunstarted, hcut⟩ :=
    h.queueOk.append fun buf hbuf => hfits buf (List.mem_append_right _ hbuf)
  rw [unstarted, cut]
  dsimp only
  rw [hnew, hunstarted, hcut]
  refine ⟨?_, h.delivered, hok⟩
  rw [h.queued, List.append_assoc]
  rfl

/-- **A step that accepts nothing** goes on with the stream. -/
theorem Written.of_step (h : Written before stream crypto begun s)
    (hstep : s.step sha hmac ev = some s') (hquiet : ∀ acct, ¬ev.Accepts sha s acct)
    (hgood : ev.Harmless s) (hfits : ∀ pkt ∈ s'.queued, IsPacket pkt) :
    ∃ more, Written before stream crypto (begun ++ more) s' := by
  cases ev with
  | conn e =>
    obtain ⟨hqueued, hdelivered, hok⟩ := h.of_conn hstep hfits
    refine ⟨[], ?_⟩
    rw [List.append_nil]
    refine ⟨hqueued, ?_, hdelivered, hok⟩
    obtain ⟨sock, new, hsock, -, rfl⟩ := exists_of_conn hstep
    have hsame := (ProxySocket.trans_of_step hsock).crypto_eq fun acct hacc =>
      hquiet acct ⟨e, rfl, hacc⟩
    exact hsame.trans h.crypto_eq
  | output results =>
    obtain ⟨-, hstep⟩ := Option.ite_none_right_eq_some.mp hstep
    obtain ⟨o, ho, rfl⟩ := Option.map_eq_some_iff.mp hstep
    obtain ⟨hpos, ho⟩ := Option.ite_none_right_eq_some.mp ho
    obtain ⟨r, hr, ho⟩ := Option.bind_eq_some_iff.mp ho
    obtain ⟨more, hmore, hcrypto, htaken, hok⟩ := exists_written h.queueOk hpos hr hgood
    -- `out_active` has no part in the stream
    obtain ⟨active, rfl⟩ : ∃ active, o =
        { s.outbox with
          packetQueue := r.queue
          outActive := active
          continueSend := r.continueSend
          crypto := r.crypto
          delivered := s.delivered ++ r.taken } := by
      dsimp only at ho
      split at ho
      · exact ⟨false, (Option.some.inj ho).symm⟩
      · exact ⟨s.outbox.outActive, (Option.some.inj ho).symm⟩
    refine ⟨more, ?_, ?_, ?_, hok⟩
    · show s.queued = before ++ (begun ++ more) ++ Proxyd.unstarted r.continueSend r.queue
      rw [h.queued, unstarted, hmore, List.append_assoc, List.append_assoc, List.append_assoc]
    · show r.crypto = cryptoAfter crypto (begun ++ more)
      rw [hcrypto, cryptoAfter_append, ← h.crypto_eq]
      rfl
    · show s.delivered ++ r.taken ++ cutOf r.continueSend r.queue = _
      rw [List.append_assoc, htaken, ← List.append_assoc, wire_append, ← List.append_assoc,
        ← h.crypto_eq, ← h.delivered]
      rfl

/-- **Smooth runs go on with it.** -/
theorem Written.of_run (h : Written before stream crypto begun s) (hsmooth : Smooth sha hmac s es)
    (hrun : Runs.run (step sha hmac) s es = some t) :
    ∃ more, Written before stream crypto (begun ++ more) t := by
  have hall := Runs.run_take_induction
    (P := fun t => ∃ more, Written before stream crypto (begun ++ more) t)
    ⟨[], by rwa [List.append_nil]⟩ (fun i u ev u' hat ⟨more, hu⟩ => by
      obtain ⟨more', hu'⟩ := hu.of_step hat.2.2 (hsmooth.quiet i u ev u' · hat)
        (hsmooth.harmless i u ev u' hat) (hsmooth.fits i u ev u' hat)
      exact ⟨more ++ more', by rwa [← List.append_assoc]⟩) es.length t
  rw [List.take_length] at hall
  exact hall hrun

/-- The packets whose turn has come. -/
theorem Written.begun_eq (h : Written before stream crypto begun s) :
    s.begun = before ++ begun := by
  rw [Link.begun, h.queued, List.length_append, Nat.add_sub_cancel, List.take_left]

/-- **A session that is accepted begins a new stream.** -/
theorem Written.of_accepts {e : SocketEvent} (h : Written [] [] .init begun s)
    (hstep : s.step sha hmac (.conn e) = some s') (hacc : s.toProxySocket.Accepts sha e acct)
    (hfits : ∀ pkt ∈ s'.queued, IsPacket pkt) :
    Written begun (wire .init begun)
      (keyed (hmac tbcEncryptionKey (hmacInput (numberOfText acct.sessionkey)))) [] s' := by
  obtain ⟨hqueued, hdelivered, hok⟩ := h.of_conn hstep hfits
  have hplain : ∀ bufs, cryptoAfter .init bufs = .init := by
    intro bufs
    induction bufs with
    | nil => rfl
    | cons buf bufs ih => rw [cryptoAfter, encrypt_of_not_initialised rfl, ih]
  refine ⟨?_, ?_, ?_, hok⟩
  · rw [hqueued, List.nil_append, List.append_nil]
  · obtain ⟨sock, new, hsock, -, rfl⟩ := exists_of_conn hstep
    rw [cryptoAfter, ← setKey_init, ← hplain begun, ← h.crypto_eq]
    exact ProxySocket.crypto_of_accepts hsock hacc
  · rw [hdelivered, List.nil_append, wire, List.append_nil]

end Link

/-- **What the client of one session reads.** Whatever packets come, whatever answers and however
the calls of `handle_output` lie between them: if a session was accepted, no other was before or
after it and no short write has done harm, then a client that has the key of the session and
knows how many packets were begun before reads from the bytes it has got, with the rest of the
packet that is being written, all packets that were begun, each as it was queued; and those that
were not begun are still in the queue. -/
theorem client_reads_session {e : SocketEvent}
    (hbefore : Runs.run (Link.step sha hmac) (Link.init f) es = some s)
    (hsmooth : Smooth sha hmac (Link.init f) es) (hstep : s.step sha hmac (.conn e) = some s')
    (hacc : s.toProxySocket.Accepts sha e acct) (hfits : ∀ pkt ∈ s'.queued, IsPacket pkt)
    (hafter : Runs.run (Link.step sha hmac) s' es' = some t) (hsmooth' : Smooth sha hmac s' es') :
    t.queued = t.begun ++ t.unstarted ∧ s.begun <+: t.begun ∧
      readSession s.begun.length (t.begun.length - s.begun.length)
          (hmac tbcEncryptionKey (hmacInput (numberOfText acct.sessionkey)))
          (t.delivered ++ t.cut) = some (t.begun.map Packet.ofBuffer, []) := by
  obtain ⟨plain, hplain⟩ := (Link.written_init f).of_run hsmooth hbefore
  rw [List.nil_append] at hplain
  obtain ⟨keyed, hkeyed⟩ := (hplain.of_accepts hstep hacc hfits).of_run hsmooth' hafter
  rw [List.nil_append] at hkeyed
  have hpackets := hsmooth'.fits_of_run hfits hafter
  rw [hkeyed.queued] at hpackets
  have hqueued := hkeyed.queued
  rw [hkeyed.begun_eq, hplain.begun_eq, List.nil_append, hkeyed.delivered, List.length_append,
    Nat.add_sub_cancel_left]
  refine ⟨hqueued, List.prefix_append _ _, readSession_wire _ ?_ ?_⟩
  · exact fun buf hbuf => hpackets buf (List.mem_append_left _ (List.mem_append_left _ hbuf))
  · exact fun buf hbuf => hpackets buf (List.mem_append_left _ (List.mem_append_right _ hbuf))

/-! ### A client that does not wait for the challenge -/

namespace Sample

/-- The session is asked for and accepted before anything is written. -/
def early : List LinkEvent :=
  [.conn (.event ⟨env, .input authSession⟩), .conn (.event ⟨env, .answer .getAcctObsv account⟩),
    .output [8, 15]]

/-- A step that is no answer accepts nothing. -/
theorem not_accepts {s : Link} {pkt : ClientPkt} {acct : Account} :
    ¬LinkEvent.Accepts zeroSha s (.conn (.event ⟨env, .input pkt⟩)) acct := by
  rintro ⟨e, he, d, rfl, ⟨res, hact, -⟩, -⟩
  rw [← SocketEvent.event.inj (LinkEvent.conn.inj he)] at hact
  cases hact

/-- A run of one step. -/
theorem smooth_singleton (hquiet : ∀ acct, ¬ev.Accepts sha s acct) (hgood : ev.Harmless s)
    (hfits : ∀ s' ∈ s.step sha hmac ev, ∀ pkt ∈ s'.queued, IsPacket pkt) :
    Smooth sha hmac s [ev] := by
  have honly : ∀ {i u ev' u'}, Runs.StepAt (Link.step sha hmac) s [ev] i u ev' u' →
      u = s ∧ ev' = ev := by
    intro i u ev' u' hat
    obtain rfl : i = 0 := by simpa using hat.lt_length
    exact ⟨(Option.some.inj hat.1).symm, (Option.some.inj hat.2.1).symm⟩
  refine ⟨fun i u ev' u' acct hat => ?_, fun i u ev' u' hat => ?_, fun i u ev' u' hat => ?_⟩
  · obtain ⟨rfl, rfl⟩ := honly hat
    exact hquiet acct
  · obtain ⟨rfl, rfl⟩ := honly hat
    exact hgood
  · obtain ⟨rfl, rfl⟩ := honly hat
    exact hfits u' hat.2.2

/-- The run gets to its end, and every packet fits. -/
theorem run_early : ∀ n ≤ 3,
    (Runs.run (Link.step zeroSha zeroHmac) (Link.init start) (early.take n)).isSome ∧
      ∀ s ∈ Runs.run (Link.step zeroSha zeroHmac) (Link.init start) (early.take n),
        ∀ pkt ∈ s.queued, IsPacket pkt := by
  decide +kernel

/-- The session is accepted before the first byte is written. -/
theorem unwritten_early : ∀ s ∈ Runs.run (Link.step zeroSha zeroHmac) (Link.init start)
    (early.take 1), s.begun = [] ∧ s.conn.crypto.isInitialised = false := by
  decide +kernel

theorem accepted_early : ∀ s ∈ Runs.run (Link.step zeroSha zeroHmac) (Link.init start)
    (early.take 2), s.conn.crypto.isInitialised = true ∧ s.continueSend = false ∧
      s.conn.packetQueue.map (fun buf => (buf.size : ℤ)) = [8, 15] ∧
      ∀ buf ∈ s.conn.packetQueue, IsPacket buf := by
  decide +kernel

theorem begun_early : ∀ s ∈ Runs.run (Link.step zeroSha zeroHmac) (Link.init start) early,
    s.begun.length = 2 := by
  decide +kernel

end Sample

/-- Its challenge is encrypted too. -/
theorem client_reads_session_sample : ∃ t : Link, t.begun.length = 2 ∧
    readSession 0 2 (Bytes.zero 20) (t.delivered ++ t.cut) =
      some (t.begun.map Packet.ofBuffer, []) := by
  obtain ⟨s, s', hat⟩ :=
    Runs.exists_stepAt_of_isSome (i := 1) (Sample.run_early 2 (by decide)).1 rfl
  obtain ⟨u, t, hat'⟩ := Runs.exists_stepAt_of_isSome (i := 2) (Sample.run_early 3 le_rfl).1 rfl
  obtain rfl : s' = u := Option.some.inj (hat.run_succ.symm.trans hat'.1)
  obtain ⟨hbegun, hplain⟩ := Sample.unwritten_early s hat.1
  obtain ⟨hkeyed, hcontinue, hsizes, hqueue⟩ := Sample.accepted_early s' hat.run_succ
  have hfits := (Sample.run_early 2 (by decide)).2 s' hat.run_succ
  have hlength := Sample.begun_early t hat'.run_succ
  have hbefore : Smooth Sample.zeroSha Sample.zeroHmac (Link.init Sample.start)
      (Sample.early.take 1) :=
    Sample.smooth_singleton (fun _ => Sample.not_accepts) trivial fun u hu =>
      (Sample.run_early 1 (by decide)).2 u (Runs.run_singleton.trans hu)
  have hafter : Smooth Sample.zeroSha Sample.zeroHmac s' [.output [8, 15]] := by
    refine Sample.smooth_singleton (by rintro acct ⟨e, ⟨⟩, -⟩) ?_ ?_
    · show Harmless s'.continueSend s'.conn.crypto s'.conn.packetQueue [8, 15]
      rw [hcontinue, ← hsizes]
      exact harmless_of_whole _ hqueue
    · rintro v hv
      obtain rfl : v = t := Option.some.inj (hv.symm.trans hat'.2.2)
      exact (Sample.run_early 3 le_rfl).2 v hat'.run_succ
  obtain ⟨c, hc, hs'⟩ := Option.map_eq_some_iff.mp hat.2.2
  rcases (ProxySocket.trans_of_step hc).key with ⟨acct, hacc, -⟩ | ⟨-, hsame, -⟩
  · obtain ⟨-, -, hread⟩ := client_reads_session hat.1 hbefore hat.2.2 hacc hfits
      (Runs.run_singleton.trans hat'.2.2) hafter
    refine ⟨t, hlength, ?_⟩
    rw [hbegun, hlength] at hread
    exact hread
  · rw [← hs'] at hkeyed
    rw [hplain, hkeyed] at hsame
    cases hsame

end Morfeusz.Proxyd
