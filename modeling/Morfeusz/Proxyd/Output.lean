import Morfeusz.Lib.OutputStream
import Morfeusz.Lib.Runs
import Morfeusz.Proxyd.Crypto

/-!
# What the game proxy sends

`send` and `handle_output` of one socket, with the part of its state they work on
(`Morfeusz.Proxyd.Outbox`). A packet is finished only when its turn comes: its size is
written and its header encrypted in the buffer, and then the peer is offered all of it.

What the peer does not take is moved to the front of the buffer from one byte too early,
as in the realm daemon. And when the turn of that rest comes, its first two bytes are
taken for the size of a packet and written again; only the encryption is left out
(`Morfeusz.Proxyd.Harmless`). So a short write is survived by next to no packet
(`Morfeusz.Proxyd.outboxRun_conserved_iff`), and without one everything arrives.
-/

namespace Morfeusz.Proxyd

open ByteNumbers ByteBuffer OutputStream ProxyCrypto

/-! ### A packet whose turn has come -/

/-- `SetSize`, which goes to the front of the buffer and leaves the write position. -/
def setSize (buf : ByteBuffer) (siz : UInt16) : Option ByteBuffer :=
  ({ buf with wpos := 0 }.append (uint16 (siz + 2)).reverse).map
    fun (written : ByteBuffer) => { written with wpos := buf.wpos }

/-- The call of `encrypt` on the first four bytes of a buffer. -/
def encryptFront (crypto : ProxyCrypto) (buf : ByteBuffer) : Option (ByteBuffer × ProxyCrypto) :=
  if h : cryptedSendLen ≤ buf.storage.length then
    let header : Bytes cryptedSendLen :=
      ⟨buf.storage.take cryptedSendLen, by rw [List.length_take]; exact min_eq_left h⟩
    some ({ buf with
      storage := (crypto.encrypt header).1.val ++ buf.storage.drop cryptedSendLen },
      (crypto.encrypt header).2)
  else none

/-- What `handle_output` does with a buffer before it offers it: the size is written, and
the header encrypted unless the buffer is the rest of one. -/
def prepare (continueSend : Bool) (crypto : ProxyCrypto) (buf : ByteBuffer) :
    Option (ByteBuffer × ProxyCrypto) := do
  let buf ← setSize buf (UInt16.ofNat buf.size - 4)
  if continueSend then some (buf, crypto) else encryptFront crypto buf

/-- `Opcode`. -/
def opcode (buf : ByteBuffer) : UInt16 := UInt16.ofNat (leVal ((buf.storage.drop 2).take 2))

/-- The header of a packet as it has to be: the size counts the opcode and the payload. -/
def header (buf : ByteBuffer) : Bytes cryptedSendLen :=
  ⟨(uint16 (UInt16.ofNat (buf.size - 4 + 2))).reverse ++ uint16 (opcode buf), by simp [uint16]⟩

/-- The two bytes `SetSize` writes in `handle_output`, whatever the buffer holds. -/
def sizeBytes (buf : ByteBuffer) : List UInt8 := (uint16 (UInt16.ofNat buf.size - 4 + 2)).reverse

/-- A packet with its header encrypted. -/
def packetBytes (crypto : ProxyCrypto) (buf : ByteBuffer) : List UInt8 :=
  (crypto.encrypt (header buf)).1.val ++ buf.storage.drop 4

/-- **The stream of a list of packets**: each header encrypted once, in order, with its
payload behind it. -/
def wire (crypto : ProxyCrypto) : List ByteBuffer → List UInt8
  | [] => []
  | buf :: bufs => packetBytes crypto buf ++ wire (crypto.encrypt (header buf)).2 bufs

/-- The cipher once the headers of a list of packets are encrypted. -/
def cryptoAfter (crypto : ProxyCrypto) : List ByteBuffer → ProxyCrypto
  | [] => crypto
  | buf :: bufs => cryptoAfter (crypto.encrypt (header buf)).2 bufs

/-- The stream of a queue whose first buffer may be the rest of a packet. -/
def wireFrom : Bool → ProxyCrypto → List ByteBuffer → List UInt8
  | true, crypto, rest :: queue => rest.storage ++ wire crypto queue
  | _, crypto, queue => wire crypto queue

/-- The packets of such a queue that were not begun. -/
def unstarted : Bool → List ByteBuffer → List ByteBuffer
  | true, _ :: queue => queue
  | _, queue => queue

/-- A buffer that holds a `ServerPkt` of at most 65533 bytes of payload. -/
def IsPacket (buf : ByteBuffer) : Prop := 4 ≤ buf.size ∧ buf.size ≤ 65533 + 4

instance (buf : ByteBuffer) : Decidable (IsPacket buf) := inferInstanceAs (Decidable (_ ∧ _))

/-! ### The calls -/

/-- The members of a socket that `send` and `handle_output` use, with what was ever given
to `send` and what the peer has taken. -/
structure Outbox where
  packetQueue : List ByteBuffer
  outActive : Bool
  continueSend : Bool
  crypto : ProxyCrypto
  queued : List ByteBuffer
  delivered : List UInt8

namespace Outbox

/-- The outbox of a socket nothing was sent on, whatever its cipher has come to. -/
def init (crypto : ProxyCrypto) : Outbox where
  packetQueue := []
  outActive := false
  continueSend := false
  crypto := crypto
  queued := []
  delivered := []

/-- `send`. -/
def send (o : Outbox) (pkt : ByteBuffer) : Outbox :=
  { o with
    packetQueue := o.packetQueue ++ [pkt]
    outActive := true
    queued := o.queued ++ [pkt] }

/-- How the loop of `handle_output` ended. -/
structure OutputResult where
  failed : Bool
  queue : List ByteBuffer
  continueSend : Bool
  crypto : ProxyCrypto
  taken : List UInt8

/-- The loop of `handle_output` over the results of the successive `send` calls of the
peer. -/
def outputLoop : Bool → ProxyCrypto → List ByteBuffer → List ℤ → List UInt8 → Option OutputResult
  | continueSend, crypto, [], _, taken =>
    some { failed := false, queue := [], continueSend, crypto, taken }
  | _, _, _ :: _, [], _ => none
  | continueSend, crypto, buffer :: queue, sent :: results, taken => do
    let (buffer, crypto) ← prepare continueSend crypto buffer
    -- a part of the buffer was taken: the rest waits for the next time
    if 0 < sent ∧ sent < buffer.size then
      some
        { failed := false
          queue := buffer.keepUnsent sent.toNat :: queue
          continueSend := true
          crypto
          taken := taken ++ buffer.storage.take sent.toNat }
    else if sent = -1 then
      some { failed := true, queue := buffer :: queue, continueSend := false, crypto, taken }
    else if 0 ≤ sent ∧ sent ≤ buffer.size then
      outputLoop false crypto queue results (taken ++ buffer.storage.take sent.toNat)
    else none

/-- `handle_output`. -/
def handleOutput (o : Outbox) (results : List ℤ) : Option Outbox := do
  let r ← outputLoop o.continueSend o.crypto o.packetQueue results []
  let o :=
    { o with
      packetQueue := r.queue
      continueSend := r.continueSend
      crypto := r.crypto
      delivered := o.delivered ++ r.taken }
  if r.failed = false ∧ r.queue = [] then some { o with outActive := false } else some o

/-- The bytes still queued, as they have to come out: the rest of the packet that is being
sent, if there is one, and the packets no byte of which was sent. -/
def pendingBytes (o : Outbox) : List UInt8 := wireFrom o.continueSend o.crypto o.packetQueue

/-- The bytes the peer has are a prefix of the stream of the packets, and those still
queued are the rest. -/
def StreamConserved (crypto : ProxyCrypto) (o : Outbox) : Prop :=
  Conserved (wire crypto o.queued) o.delivered o.pendingBytes

end Outbox

/-- The outbox of a connection. -/
def Conn.outbox (c : Conn) (continueSend : Bool) (queued : List ByteBuffer)
    (delivered : List UInt8) : Outbox where
  packetQueue := c.packetQueue
  outActive := c.outActive
  continueSend := continueSend
  crypto := c.crypto
  queued := queued
  delivered := delivered

/-- What the handlers do is a `send` of the outbox. -/
theorem Conn.outbox_send (c : Conn) (continueSend : Bool) (queued : List ByteBuffer)
    (delivered : List UInt8) (pkt : ByteBuffer) :
    (c.send pkt).outbox continueSend (queued ++ [pkt]) delivered =
      (c.outbox continueSend queued delivered).send pkt := rfl

/-- What the handlers send is a packet, unless it is too long for its size field. -/
theorem isPacket_of_serverPkt {op : ServerOpcode} {siz : UInt16} {values : List (List UInt8)}
    {buf : ByteBuffer} (h : serverPkt op siz values = some buf)
    (hlen : values.flatten.length ≤ 65533) : IsPacket buf := by
  rw [serverPkt] at h
  rw [eq_ofBytes_of_foldlM _ h]
  rw [IsPacket, size_ofBytes, List.length_append, length_serverHeader]
  omega

/-- A call that has to do with the output of a socket. -/
inductive OutboxEvent
  | send (pkt : ByteBuffer)
  /-- The peer is ready for output; its `send` calls return these results. -/
  | output (results : List ℤ)

/-- One call, with a peer that takes at least one byte of what it is offered. -/
def Outbox.step (o : Outbox) : OutboxEvent → Option Outbox
  | .send pkt => if IsPacket pkt then some (o.send pkt) else none
  | .output results => if results.all (0 < ·) then o.handleOutput results else none

/-- The calls of a list, made on a socket with nothing to send. -/
def outboxRun (crypto : ProxyCrypto) (es : List OutboxEvent) : Option Outbox :=
  Runs.run Outbox.step (Outbox.init crypto) es

/-- A call of `handle_output` after which nothing is wrong. A rest whose turn comes has to
begin with what is written over it, and what is left of a buffer that is taken in part has
to be repetitions of the last byte taken. -/
def Harmless : Bool → ProxyCrypto → List ByteBuffer → List ℤ → Prop
  | continueSend, crypto, buffer :: queue, sent :: results =>
    let offered := if continueSend then buffer.storage else packetBytes crypto buffer
    let crypto := if continueSend then crypto else (crypto.encrypt (header buffer)).2
    (continueSend = true → buffer.storage.take 2 = sizeBytes buffer) ∧
      if 0 < sent ∧ sent < offered.length then (offered.drop (sent.toNat - 1)).IsChain (· = ·)
      else Harmless false crypto queue results
  | _, _, _, _ => True

/-- A `send` is never in the way. -/
def OutboxEvent.Harmless (o : Outbox) : OutboxEvent → Prop
  | .send _ => True
  | .output results => Proxyd.Harmless o.continueSend o.crypto o.packetQueue results

/-! ### Preparing a buffer -/

theorem setSize_eq {buf : ByteBuffer} (h : buf.size < sizeLimit) (siz : UInt16) :
    setSize buf siz =
      some { buf with storage := (uint16 (siz + 2)).reverse ++ buf.storage.drop 2 } := by
  have hlen : (uint16 (siz + 2)).reverse.length = 2 := by simp
  have hne : (uint16 (siz + 2)).reverse ≠ [] := by
    intro hnil
    rw [hnil] at hlen
    cases hlen
  have hdrop : (buf.storage ++ List.replicate (0 + 2 - buf.size) 0).drop (0 + 2) =
      buf.storage.drop 2 := by
    rw [List.drop_append, List.drop_replicate]
    have hnil : 0 + 2 - buf.size - (0 + 2 - buf.storage.length) = 0 := Nat.sub_self _
    rw [hnil, List.replicate_zero, List.append_nil]
  rw [setSize, append, if_neg hne, hlen]
  change Option.map _ (if buf.size < sizeLimit then some _ else none) = _
  rw [if_pos h, Option.map_some]
  simp only [size] at hdrop ⊢
  rw [hdrop, List.take_zero, List.nil_append]

/-- The rest of a packet is offered with a new size in front. -/
theorem prepare_true {buf : ByteBuffer} (h : buf.size < sizeLimit) (crypto : ProxyCrypto) :
    prepare true crypto buf =
      some ({ buf with storage := sizeBytes buf ++ buf.storage.drop 2 }, crypto) := by
  rw [prepare, setSize_eq h]
  rfl

theorem length_header (buf : ByteBuffer) : (header buf).val.length = 4 := (header buf).length

theorem uint16_opcode {buf : ByteBuffer} (h : 4 ≤ buf.size) :
    uint16 (opcode buf) = (buf.storage.drop 2).take 2 := by
  have hlen : ((buf.storage.drop 2).take 2).length = 2 := by
    rw [size] at h
    rw [List.length_take, List.length_drop]
    omega
  have hlt : leVal ((buf.storage.drop 2).take 2) < 2 ^ 16 := by
    have := leVal_lt ((buf.storage.drop 2).take 2)
    rwa [hlen] at this
  rw [uint16, opcode, UInt16.toNat_ofNat_of_lt' hlt]
  have hbytes := leBytes_leVal ((buf.storage.drop 2).take 2)
  rwa [hlen] at hbytes

/-- The front of a packet once its size is written. -/
theorem header_eq {buf : ByteBuffer} (h : IsPacket buf) :
    (header buf).val = sizeBytes buf ++ (buf.storage.drop 2).take 2 := by
  obtain ⟨h4, hle⟩ := h
  have hsiz : UInt16.ofNat (buf.size - 4 + 2) = UInt16.ofNat buf.size - 4 + 2 := by
    rw [UInt16.ofNat_add, UInt16.ofNat_sub h4]
    rfl
  rw [sizeBytes, ← uint16_opcode h4, ← hsiz]
  rfl

/-- **A packet is offered with its header encrypted.** -/
theorem prepare_false {buf : ByteBuffer} (h : IsPacket buf) (crypto : ProxyCrypto) :
    prepare false crypto buf =
      some ({ buf with storage := packetBytes crypto buf },
        (crypto.encrypt (header buf)).2) := by
  have hlimit : buf.size < sizeLimit := by
    have := h.2
    rw [sizeLimit]
    omega
  have hsplit : sizeBytes buf ++ buf.storage.drop 2 = (header buf).val ++ buf.storage.drop 4 := by
    rw [header_eq h, List.append_assoc, List.append_cancel_left_eq]
    have hdrop : buf.storage.drop 4 = (buf.storage.drop 2).drop 2 := by rw [List.drop_drop]
    rw [hdrop, List.take_append_drop]
  rw [prepare, setSize_eq hlimit, Option.bind_eq_bind, Option.bind_some, if_neg Bool.false_ne_true]
  change encryptFront crypto { buf with storage := sizeBytes buf ++ buf.storage.drop 2 } = _
  rw [hsplit, encryptFront, dif_pos (by simp)]
  have hfront : ((header buf).val ++ buf.storage.drop 4).take cryptedSendLen = (header buf).val :=
    List.take_left' (length_header buf)
  have hback : ((header buf).val ++ buf.storage.drop 4).drop cryptedSendLen =
      buf.storage.drop 4 := List.drop_left' (length_header buf)
  simp only [hfront, hback]
  rfl

/-! ### What a call takes and leaves -/

/-- The queue between two calls: packets, the first of them cut where a harmless short
write has cut it. -/
def QueueOk : Bool → List ByteBuffer → Prop
  | false, queue => ∀ buf ∈ queue, IsPacket buf
  | true, [] => False
  | true, rest :: queue =>
    rest.storage.IsChain (· = ·) ∧ rest.size ≤ 65533 + 4 ∧ ∀ buf ∈ queue, IsPacket buf

theorem QueueOk.exists_cons {queue : List ByteBuffer} (h : QueueOk true queue) :
    ∃ rest queue', queue = rest :: queue' := by
  rcases queue with _ | ⟨rest, queue⟩
  · exact h.elim
  · exact ⟨rest, queue, rfl⟩

/-- How the loop ends that was to send a stream: nothing got shorter, and what was taken
and left is the stream if and only if the call was harmless. -/
structure Delivers (r : Outbox.OutputResult) (taken stream : List UInt8) (after : ProxyCrypto)
    (harmless : Prop) : Prop where
  ok : r.failed = false
  crypto : cryptoAfter r.crypto (unstarted r.continueSend r.queue) = after
  piece : ∃ piece, r.taken = taken ++ piece ∧
    stream.length ≤ (piece ++ wireFrom r.continueSend r.crypto r.queue).length ∧
    (piece ++ wireFrom r.continueSend r.crypto r.queue = stream ↔ harmless)
  queueOk : harmless → QueueOk r.continueSend r.queue

variable {r : Outbox.OutputResult} {taken stream : List UInt8} {harmless : Prop}
  {crypto : ProxyCrypto} {queue : List ByteBuffer} {results : List ℤ} {sent : ℤ}

/-- A buffer that was taken as a whole. -/
theorem Delivers.cons {offered : List UInt8} {after : ProxyCrypto}
    (h : Delivers r (taken ++ offered) stream after harmless) :
    Delivers r taken (offered ++ stream) after harmless := by
  obtain ⟨hok, hcrypto, ⟨piece, htaken, hlen, hiff⟩, hqueue⟩ := h
  refine ⟨hok, hcrypto, ⟨offered ++ piece, ?_, ?_, ?_⟩, hqueue⟩
  · rw [htaken, List.append_assoc]
  · rw [List.append_assoc, List.length_append, List.length_append]
    exact Nat.add_le_add_left hlen _
  · rw [List.append_assoc, List.append_cancel_left_eq, hiff]

/-- A buffer that was taken in part. -/
theorem delivers_short {offered : ByteBuffer} (hq : ∀ buf ∈ queue, IsPacket buf)
    (hsize : offered.size ≤ 65533 + 4) (hsent : 0 < sent ∧ sent < offered.size) :
    Delivers
      { failed := false
        queue := offered.keepUnsent sent.toNat :: queue
        continueSend := true
        crypto
        taken := taken ++ offered.storage.take sent.toNat }
      taken (offered.storage ++ wire crypto queue) (cryptoAfter crypto queue)
      ((offered.storage.drop (sent.toNat - 1)).IsChain (· = ·)) := by
  have hn : 0 < sent.toNat := by omega
  have hlt : sent.toNat < offered.storage.length := by
    have := hsent.2
    rw [size] at this
    omega
  have hkept := offered.storage_keepUnsent hn
  refine ⟨rfl, rfl, ⟨_, rfl, ?_, ?_⟩, ?_⟩
  · simp only [wireFrom, hkept, List.length_append, List.length_take, length_staleTail hn]
    omega
  · rw [wireFrom, hkept]
    exact take_append_staleTail_iff hn hlt _
  · intro hchain
    refine ⟨?_, ?_, hq⟩
    · -- what is left repeats one byte, as what it was cut from did
      rw [hkept, (staleTail_eq_drop_iff hn hlt).mpr hchain]
      have hdrop : offered.storage.drop sent.toNat =
          (offered.storage.drop (sent.toNat - 1)).drop 1 := by
        rw [List.drop_drop, Nat.sub_add_cancel hn]
      rw [hdrop]
      exact hchain.drop 1
    · rw [size, hkept, length_staleTail hn]
      rw [size] at hsize
      omega

theorem wireFrom_false (crypto : ProxyCrypto) (queue : List ByteBuffer) :
    wireFrom false crypto queue = wire crypto queue := by
  rcases queue with _ | ⟨buf, queue⟩ <;> rfl

theorem size_packetBytes {buf : ByteBuffer} (h : IsPacket buf) (crypto : ProxyCrypto) :
    (packetBytes crypto buf).length = buf.size := by
  have := h.1
  rw [size] at this
  rw [packetBytes, List.length_append, (crypto.encrypt (header buf)).1.length, List.length_drop,
    size, cryptedSendLen]
  omega

/-- One round of the loop, with a peer that takes something. -/
theorem outputLoop_cons {continueSend : Bool} {buffer offered : ByteBuffer}
    {crypto' : ProxyCrypto} (hprep : prepare continueSend crypto buffer = some (offered, crypto'))
    (hsent : 0 < sent)
    (h : Outbox.outputLoop continueSend crypto (buffer :: queue) (sent :: results) taken = some r) :
    (sent < offered.size ∧ r =
      { failed := false
        queue := offered.keepUnsent sent.toNat :: queue
        continueSend := true
        crypto := crypto'
        taken := taken ++ offered.storage.take sent.toNat }) ∨
    (sent = offered.size ∧
      Outbox.outputLoop false crypto' queue results (taken ++ offered.storage) = some r) := by
  rw [Outbox.outputLoop, hprep, Option.bind_eq_bind, Option.bind_some] at h
  dsimp only at h
  rcases lt_trichotomy sent offered.size with hlt | heq | hgt
  · rw [if_pos ⟨hsent, hlt⟩] at h
    exact Or.inl ⟨hlt, (Option.some.inj h).symm⟩
  · have htake : offered.storage.take sent.toNat = offered.storage := by
      rw [heq, Int.toNat_natCast, size, List.take_length]
    rw [if_neg (by omega), if_neg (by omega), if_pos (by omega), htake] at h
    exact Or.inr ⟨heq, h⟩
  · rw [if_neg (by omega), if_neg (by omega), if_neg (by omega)] at h
    cases h

/-- **A loop over whole packets.** -/
theorem delivers_false (hq : ∀ buf ∈ queue, IsPacket buf) (hpos : results.all (0 < ·) = true)
    (h : Outbox.outputLoop false crypto queue results taken = some r) :
    Delivers r taken (wire crypto queue) (cryptoAfter crypto queue)
      (Harmless false crypto queue results) := by
  induction queue generalizing crypto results taken with
  | nil =>
    rw [Outbox.outputLoop] at h
    obtain rfl := Option.some.inj h
    exact ⟨rfl, rfl, ⟨[], (List.append_nil _).symm, le_rfl, iff_of_true rfl trivial⟩, fun _ => hq⟩
  | cons buffer queue ih =>
    rcases results with _ | ⟨sent, results⟩
    · cases h
    · have hpkt : IsPacket buffer := hq _ List.mem_cons_self
      have hrest : ∀ buf ∈ queue, IsPacket buf := fun buf hbuf => hq _ (List.mem_cons_of_mem _ hbuf)
      obtain ⟨hsent, hpos⟩ : 0 < sent ∧ results.all (0 < ·) = true := by simpa using hpos
      have hlen := size_packetBytes hpkt crypto
      rw [Harmless, wire, cryptoAfter]
      simp only [Bool.false_eq_true, if_false, false_implies, true_and, hlen]
      rcases outputLoop_cons (prepare_false hpkt crypto) hsent h with ⟨hlt, rfl⟩ | ⟨heq, h⟩
      · simp only [size, hlen] at hlt
        rw [if_pos ⟨hsent, hlt⟩]
        refine delivers_short hrest ?_ ⟨hsent, ?_⟩
        · rw [size, hlen]
          exact hpkt.2
        · rwa [size, hlen]
      · simp only [size, hlen] at heq
        rw [if_neg (by rw [size]; omega)]
        exact (ih hrest hpos h).cons

/-- **A size written over a rest that repeats one byte** is seen, whatever the peer takes
of it, unless it is that byte twice. -/
theorem take_two_of_short {front rest : List UInt8} {n : ℕ} (hfront : front.length = 2)
    (hrest : rest.IsChain (· = ·)) (htwo : rest.length = 2 → front.IsChain (· = ·)) (hn : 0 < n)
    (h : (front ++ rest.drop 2).take n ++ staleTail n (front ++ rest.drop 2) = rest) :
    rest.take 2 = front := by
  obtain ⟨a, b, rfl⟩ := List.length_eq_two.mp hfront
  rcases n with _ | _ | n
  · omega
  · -- one byte is taken, and taken again
    rw [staleTail] at h
    rcases hdrop : rest.drop 2 with _ | ⟨x, xs⟩
    · obtain rfl : [a, a] = rest := by simpa [hdrop] using h
      have hab : a = b := by simpa using htwo rfl
      rw [hab]
      rfl
    · rw [hdrop] at h
      simp only [List.cons_append, List.nil_append, Nat.reduceAdd, List.take_succ_cons,
        List.take_zero, Nat.sub_self, List.drop_zero, List.length_cons, Nat.add_sub_cancel] at h
      rw [← h] at hrest ⊢
      have hab : a = b := by
        rw [List.isChain_cons_cons, List.isChain_cons_cons] at hrest
        exact hrest.2.1
      rw [hab]
      rfl
  · rw [← h]
    rfl

/-- The rest of a packet, once a size is written over its first two bytes. -/
def overwritten (rest : ByteBuffer) : ByteBuffer :=
  { rest with storage := sizeBytes rest ++ rest.storage.drop 2 }

theorem length_sizeBytes (buf : ByteBuffer) : (sizeBytes buf).length = 2 := by
  simp [sizeBytes]

theorem length_le_overwritten (rest : ByteBuffer) :
    rest.storage.length ≤ (overwritten rest).storage.length := by
  rw [overwritten, List.length_append, List.length_drop, length_sizeBytes]
  omega

/-- Where another size was there, and a part of what is offered is taken. -/
theorem delivers_overwritten_short {rest : ByteBuffer} (hchain : rest.storage.IsChain (· = ·))
    (hfront : ¬rest.storage.take 2 = sizeBytes rest)
    (hsent : 0 < sent ∧ sent < (overwritten rest).size) :
    Delivers
      { failed := false
        queue := (overwritten rest).keepUnsent sent.toNat :: queue
        continueSend := true
        crypto
        taken := taken ++ (overwritten rest).storage.take sent.toNat }
      taken (rest.storage ++ wire crypto queue) (cryptoAfter crypto queue) False := by
  have hn : 0 < sent.toNat := by omega
  have hlt := hsent.2
  have hge := length_le_overwritten rest
  have hkept := (overwritten rest).storage_keepUnsent hn
  refine ⟨rfl, rfl, ⟨_, rfl, ?_, ?_⟩, False.elim⟩
  · simp only [wireFrom, hkept, List.length_append, List.length_take, length_staleTail hn]
    rw [size] at hlt
    omega
  · refine iff_of_false ?_ id
    intro heq
    rw [wireFrom, hkept, ← List.append_assoc, List.append_cancel_right_eq] at heq
    refine hfront (take_two_of_short (length_sizeBytes rest) hchain ?_ hn heq)
    intro htwo
    rw [sizeBytes, size, htwo]
    decide

/-- Where another size was there, and all of what is offered is taken. -/
theorem Delivers.overwritten_cons {rest : ByteBuffer} {after : ProxyCrypto}
    (hfront : ¬rest.storage.take 2 = sizeBytes rest)
    (h : Delivers r (taken ++ (overwritten rest).storage) stream after harmless) :
    Delivers r taken (rest.storage ++ stream) after False := by
  obtain ⟨hok, hcrypto, ⟨piece, htaken, hle, -⟩, -⟩ := h
  have hge := length_le_overwritten rest
  refine ⟨hok, hcrypto, ⟨(overwritten rest).storage ++ piece, ?_, ?_, ?_⟩, False.elim⟩
  · rw [htaken, List.append_assoc]
  · rw [List.append_assoc, List.length_append, List.length_append]
    exact Nat.add_le_add hge hle
  · refine iff_of_false ?_ id
    intro heq
    -- nothing got shorter, so the rest is what was written over it
    rw [List.append_assoc] at heq
    have hlengths := congrArg List.length heq
    simp only [List.length_append] at hlengths hle
    have hrest := (List.append_inj heq (by omega)).1
    refine hfront ?_
    rw [← hrest]
    exact List.take_left' (length_sizeBytes rest)

/-- **A loop that begins with the rest of a packet.** -/
theorem delivers_true {rest : ByteBuffer} (hq : QueueOk true (rest :: queue))
    (hpos : results.all (0 < ·) = true)
    (h : Outbox.outputLoop true crypto (rest :: queue) results taken = some r) :
    Delivers r taken (rest.storage ++ wire crypto queue) (cryptoAfter crypto queue)
      (Harmless true crypto (rest :: queue) results) := by
  obtain ⟨hchain, hsize, hqueue⟩ := hq
  rcases results with _ | ⟨sent, results⟩
  · cases h
  obtain ⟨hsent, hpos⟩ : 0 < sent ∧ results.all (0 < ·) = true := by simpa using hpos
  have hlimit : rest.size < sizeLimit := by
    rw [sizeLimit]
    omega
  have hloop := outputLoop_cons (prepare_true hlimit crypto) hsent h
  rw [Harmless]
  simp only [if_true, true_imp_iff]
  by_cases hfront : rest.storage.take 2 = sizeBytes rest
  · -- the size that is written is there already
    have hsame : sizeBytes rest ++ rest.storage.drop 2 = rest.storage := by
      rw [← hfront, List.take_append_drop]
    rw [hsame] at hloop
    simp only [hfront, true_and]
    rcases hloop with ⟨hlt, rfl⟩ | ⟨heq, h⟩
    · rw [if_pos ⟨hsent, hlt⟩]
      exact delivers_short hqueue hsize ⟨hsent, hlt⟩
    · simp only [size] at heq
      rw [if_neg (by omega)]
      exact (delivers_false hqueue hpos h).cons
  · simp only [hfront, false_and]
    rcases hloop with ⟨hlt, rfl⟩ | ⟨-, h⟩
    · exact delivers_overwritten_short hchain hfront ⟨hsent, hlt⟩
    · exact (delivers_false hqueue hpos h).overwritten_cons hfront

/-! ### Every run -/

/-- A socket whose stream is conserved, and whose queue was cut harmlessly. -/
structure Outbox.Inv (crypto : ProxyCrypto) (o : Outbox) : Prop where
  conserved : o.StreamConserved crypto
  crypto_eq : cryptoAfter o.crypto (unstarted o.continueSend o.packetQueue) =
    cryptoAfter crypto o.queued
  queueOk : QueueOk o.continueSend o.packetQueue

variable {o o' : Outbox}

theorem Outbox.inv_init (crypto : ProxyCrypto) : (Outbox.init crypto).Inv crypto :=
  ⟨conserved_nil, rfl, fun _ h => nomatch h⟩

theorem wire_concat (crypto : ProxyCrypto) (queue : List ByteBuffer) (pkt : ByteBuffer) :
    wire crypto (queue ++ [pkt]) =
      wire crypto queue ++ packetBytes (cryptoAfter crypto queue) pkt := by
  induction queue generalizing crypto with
  | nil => simp [wire, cryptoAfter]
  | cons buf queue ih => rw [List.cons_append, wire, wire, ih, cryptoAfter, List.append_assoc]

theorem cryptoAfter_concat (crypto : ProxyCrypto) (queue : List ByteBuffer) (pkt : ByteBuffer) :
    cryptoAfter crypto (queue ++ [pkt]) =
      ((cryptoAfter crypto queue).encrypt (header pkt)).2 := by
  induction queue generalizing crypto with
  | nil => rfl
  | cons buf queue ih => rw [List.cons_append, cryptoAfter, ih, cryptoAfter]

section Concat

variable {continueSend : Bool} {pkt : ByteBuffer}

theorem QueueOk.concat (h : QueueOk continueSend queue) (hpkt : IsPacket pkt) :
    QueueOk continueSend (queue ++ [pkt]) := by
  have hmem {bufs : List ByteBuffer} (hbufs : ∀ buf ∈ bufs, IsPacket buf) :
      ∀ buf ∈ bufs ++ [pkt], IsPacket buf := by
    intro buf hbuf
    rcases List.mem_append.mp hbuf with hbuf | hbuf
    · exact hbufs buf hbuf
    · rwa [List.mem_singleton.mp hbuf]
  rcases continueSend with _ | _
  · exact hmem h
  · obtain ⟨rest, queue, rfl⟩ := h.exists_cons
    exact ⟨h.1, h.2.1, hmem h.2.2⟩

theorem QueueOk.unstarted_concat (h : QueueOk continueSend queue) :
    unstarted continueSend (queue ++ [pkt]) = unstarted continueSend queue ++ [pkt] := by
  rcases continueSend with _ | _
  · rfl
  · obtain ⟨rest, queue, rfl⟩ := h.exists_cons
    rfl

/-- A packet that is queued comes last, with the cipher that the others leave it. -/
theorem QueueOk.wireFrom_concat (h : QueueOk continueSend queue) (crypto : ProxyCrypto) :
    wireFrom continueSend crypto (queue ++ [pkt]) = wireFrom continueSend crypto queue ++
      packetBytes (cryptoAfter crypto (unstarted continueSend queue)) pkt := by
  rcases continueSend with _ | _
  · rw [wireFrom_false, wireFrom_false, wire_concat]
    rfl
  · obtain ⟨rest, queue, rfl⟩ := h.exists_cons
    rw [List.cons_append, wireFrom, wireFrom, wire_concat, List.append_assoc]
    rfl

end Concat

theorem Outbox.Inv.send (h : o.Inv crypto) {pkt : ByteBuffer} (hpkt : IsPacket pkt) :
    (o.send pkt).Inv crypto where
  conserved := by
    have hpush := h.conserved.push (packetBytes (cryptoAfter crypto o.queued) pkt)
    rw [← wire_concat, pendingBytes, ← h.crypto_eq, ← h.queueOk.wireFrom_concat] at hpush
    exact hpush
  crypto_eq := by
    change cryptoAfter o.crypto (unstarted o.continueSend (o.packetQueue ++ [pkt])) =
      cryptoAfter crypto (o.queued ++ [pkt])
    rw [h.queueOk.unstarted_concat, cryptoAfter_concat, cryptoAfter_concat, h.crypto_eq]
  queueOk := h.queueOk.concat hpkt

/-- The loop, from any queue that was cut harmlessly. -/
theorem QueueOk.delivers {continueSend : Bool} (hq : QueueOk continueSend queue)
    (hpos : results.all (0 < ·) = true)
    (h : Outbox.outputLoop continueSend crypto queue results taken = some r) :
    Delivers r taken (wireFrom continueSend crypto queue)
      (cryptoAfter crypto (unstarted continueSend queue))
      (Harmless continueSend crypto queue results) := by
  rcases continueSend with _ | _
  · rw [wireFrom_false]
    exact delivers_false hq hpos h
  · obtain ⟨rest, queue, rfl⟩ := hq.exists_cons
    exact delivers_true hq hpos h

/-- **A call of `handle_output` conserves the stream if and only if it is harmless.** -/
theorem Outbox.Inv.handleOutput (h : o.Inv crypto) (hpos : results.all (0 < ·) = true)
    (ho : o.handleOutput results = some o') :
    (o'.StreamConserved crypto ↔ Harmless o.continueSend o.crypto o.packetQueue results) ∧
      (Harmless o.continueSend o.crypto o.packetQueue results → o'.Inv crypto) := by
  rw [Outbox.handleOutput] at ho
  obtain ⟨r, hr, ho⟩ := Option.bind_eq_some_iff.mp ho
  obtain ⟨hok, hcrypto, ⟨piece, htaken, -, hiff⟩, hqueue⟩ := h.queueOk.delivers hpos hr
  rw [List.nil_append] at htaken
  -- `out_active` has no part in what follows
  obtain ⟨active, rfl⟩ : ∃ active, o' =
      { o with
        packetQueue := r.queue
        outActive := active
        continueSend := r.continueSend
        crypto := r.crypto
        delivered := o.delivered ++ r.taken } := by
    dsimp only at ho
    split at ho
    · exact ⟨false, (Option.some.inj ho).symm⟩
    · exact ⟨o.outActive, (Option.some.inj ho).symm⟩
  have hconserved : Conserved (wire crypto o.queued) (o.delivered ++ r.taken)
      (wireFrom r.continueSend r.crypto r.queue) ↔
        r.taken ++ wireFrom r.continueSend r.crypto r.queue = o.pendingBytes :=
    h.conserved.take_iff
  rw [htaken, pendingBytes, hiff, ← htaken] at hconserved
  refine ⟨hconserved, fun hgood => ⟨hconserved.mpr hgood, ?_, hqueue hgood⟩⟩
  exact hcrypto.trans h.crypto_eq

/-- **What the proxy sends is what it queued, up to the first harmful short write.** For
every cipher, every sequence of packets and `handle_output` calls and every way the peer
takes what it is offered, what it has is at any time a prefix of the stream of the packets,
with what is queued the rest of it, if and only if every call of `handle_output` is
harmless. -/
theorem outboxRun_conserved_iff (crypto : ProxyCrypto) (es : List OutboxEvent) :
    (∀ i o, outboxRun crypto (es.take i) = some o → o.StreamConserved crypto) ↔
      ∀ i o e o', Runs.StepAt Outbox.step (Outbox.init crypto) es i o e o' → e.Harmless o := by
  refine Runs.forall_run_take_iff (P := Outbox.Inv crypto) (fun o h => h.conserved) ?_ ?_
    (Outbox.inv_init crypto)
  · intro o e o' h hstep hgood
    rcases e with pkt | results
    · obtain ⟨hpkt, ho⟩ := Option.ite_none_right_eq_some.mp hstep
      obtain rfl := Option.some.inj ho
      exact h.send hpkt
    · obtain ⟨hpos, ho⟩ := Option.ite_none_right_eq_some.mp hstep
      exact (h.handleOutput hpos ho).2 hgood
  · intro o e o' h hstep hQ
    rcases e with pkt | results
    · trivial
    · obtain ⟨hpos, ho⟩ := Option.ite_none_right_eq_some.mp hstep
      exact (h.handleOutput hpos ho).1.mp hQ

/-- The first packet of a connection, of which the peer takes five bytes and then the rest:
the fifth byte comes again, under a size that is not there. -/
theorem outboxRun_authChallenge_not_conserved :
    ∃ o, outboxRun .init [.send (authChallenge 0x04030201), .output [5], .output [3]] = some o ∧
      wire .init o.queued = [0, 6, 0xEC, 1, 1, 2, 3, 4] ∧
      o.delivered = [0, 6, 0xEC, 1, 1, 0, 1, 3] ∧ ¬o.StreamConserved .init := by
  refine ⟨_, rfl, rfl, rfl, ?_⟩
  rw [Outbox.StreamConserved, conserved_iff]
  decide

end Morfeusz.Proxyd
