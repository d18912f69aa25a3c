import Morfeusz.Lib.OutputStream
import Morfeusz.Lib.Runs
import Morfeusz.Realmd.Admission

/-!
# What the realm daemon sends

Any sequence of `send` and `handle_output` calls on one socket, with a peer that takes
of every buffer as much as it likes but something
(`Morfeusz.Realmd.OutputEvent`, `Morfeusz.Realmd.Conn.outputStep`).

A buffer that was taken in part is moved to its front, and the move reads from one byte
too early: `rpos(sent_bytes - 1)` is the last byte that was sent. What comes of the
stream is then an `OutputStream.staleTail`, and so it is the stream that was queued as
long as the bytes left over repeat the one before them
(`Morfeusz.Realmd.Harmless`, `Morfeusz.Realmd.outputRun_conserved_iff`).
-/

namespace Morfeusz.Realmd

open OutputStream

/-! ### The calls -/

/-- A call that has to do with the output of a socket. -/
inductive OutputEvent
  | send (pkt : ByteBuffer)
  /-- The peer is ready for output; its `send` calls return these results. -/
  | output (results : List ℤ)

/-- The results of a peer that takes at least one byte of every buffer it is offered,
and all of it before it is offered the next one. -/
def accepts : List ByteBuffer → List ℤ → Bool
  | [], _ => true
  | _ :: _, [] => false
  | buffer :: queue, sent :: results =>
    (0 < sent ∧ sent < buffer.size) || (sent = buffer.size && accepts queue results)

/-- The bytes of a list of buffers. -/
def queueBytes (queue : List ByteBuffer) : List UInt8 := (queue.map ByteBuffer.storage).flatten

namespace Conn

/-- One call. -/
def outputStep (c : Conn) : OutputEvent → Option Conn
  | .send pkt => some (c.send pkt)
  | .output results => if accepts c.packetQueue results then c.handleOutput results else none

/-- The bytes the peer has are a prefix of those that were queued, and the packets still
queued are the rest. -/
def OutputConserved (c : Conn) : Prop :=
  Conserved (queueBytes c.queued) c.delivered (queueBytes c.packetQueue)

end Conn

/-- The calls of a list, made on a socket just opened. -/
def outputRun (f : Start) (es : List OutputEvent) : Option Conn :=
  Runs.run Conn.outputStep (Conn.init f) es

/-- A call of `handle_output` in which the buffer that is taken in part, if there is one,
has nothing left but repetitions of the last byte that was taken. -/
def Harmless : List ByteBuffer → List ℤ → Prop
  | buffer :: queue, sent :: results =>
    if 0 < sent ∧ sent < buffer.size then
      (buffer.storage.drop (sent.toNat - 1)).IsChain (· = ·)
    else Harmless queue results
  | _, _ => True

/-- A `send` is never in the way. -/
def OutputEvent.Harmless (c : Conn) : OutputEvent → Prop
  | .send _ => True
  | .output results => Realmd.Harmless c.packetQueue results

/-! ### One call -/

@[simp] theorem queueBytes_nil : queueBytes [] = [] := rfl

@[simp] theorem queueBytes_cons (buffer : ByteBuffer) (queue : List ByteBuffer) :
    queueBytes (buffer :: queue) = buffer.storage ++ queueBytes queue := rfl

@[simp] theorem queueBytes_concat (queue : List ByteBuffer) (buffer : ByteBuffer) :
    queueBytes (queue ++ [buffer]) = queueBytes queue ++ buffer.storage := by
  simp [queueBytes]

/-- **What a call of the loop takes and leaves**: it is what was in the queue if and only
if the call was harmless. -/
theorem Conn.outputLoop_iff {queue : List ByteBuffer} {results : List ℤ} {taken : List UInt8}
    {r : Conn.OutputResult} (hacc : accepts queue results = true)
    (h : Conn.outputLoop queue results taken = some r) :
    r.failed = false ∧ ∃ piece, r.taken = taken ++ piece ∧
      (piece ++ queueBytes r.queue = queueBytes queue ↔ Harmless queue results) := by
  induction queue generalizing results taken with
  | nil =>
    rw [outputLoop] at h
    obtain rfl := Option.some.inj h
    exact ⟨rfl, [], (List.append_nil _).symm, iff_of_true rfl trivial⟩
  | cons buffer queue ih =>
    rcases results with _ | ⟨sent, results⟩
    · cases hacc
    · rw [accepts] at hacc
      rw [outputLoop] at h
      by_cases hshort : 0 < sent ∧ sent < buffer.size
      · rw [if_pos hshort] at h
        obtain rfl := Option.some.inj h
        have hn : 0 < sent.toNat := by omega
        have hlt : sent.toNat < buffer.storage.length := by
          have := hshort.2
          rw [ByteBuffer.size] at this
          omega
        refine ⟨rfl, buffer.storage.take sent.toNat, rfl, ?_⟩
        rw [Harmless, if_pos hshort, queueBytes_cons, queueBytes_cons]
        change buffer.storage.take sent.toNat ++
          ((buffer.keepUnsent sent.toNat).storage ++ _) = _ ↔ _
        rw [buffer.storage_keepUnsent hn]
        exact take_append_staleTail_iff hn hlt _
      · -- the whole buffer was taken
        obtain ⟨hall, hrest⟩ : sent = buffer.size ∧ accepts queue results = true := by
          simpa [hshort] using hacc
        rw [if_neg hshort, if_neg (by omega), if_pos (by omega)] at h
        obtain ⟨hfailed, piece, htaken, hiff⟩ := ih hrest h
        refine ⟨hfailed, buffer.storage ++ piece, ?_, ?_⟩
        · rw [htaken, hall, List.append_assoc, Int.toNat_natCast, ByteBuffer.size,
            List.take_length]
        · rw [Harmless, if_neg hshort, queueBytes_cons, List.append_assoc,
            List.append_cancel_left_eq, hiff]

/-- A socket whose stream is conserved, and that is waiting for the peer as long as
something is queued. -/
structure Conn.OutputInv (c : Conn) : Prop where
  conserved : c.OutputConserved
  active : c.packetQueue ≠ [] → c.outActive = true

theorem Conn.outputInv_init (f : Start) : (Conn.init f).OutputInv :=
  ⟨conserved_nil, fun h => absurd rfl h⟩

variable {c c' : Conn}

theorem Conn.OutputInv.send (h : c.OutputInv) (pkt : ByteBuffer) : (c.send pkt).OutputInv where
  conserved := by
    rw [OutputConserved, Conn.send, queueBytes_concat, queueBytes_concat]
    exact h.conserved.push pkt.storage
  active _ := rfl

/-- **A call of `handle_output` conserves the stream if and only if it is harmless.** -/
theorem Conn.OutputInv.handleOutput (h : c.OutputInv) {results : List ℤ}
    (hacc : accepts c.packetQueue results = true) (hc : c.handleOutput results = some c') :
    (c'.OutputConserved ↔ Harmless c.packetQueue results) ∧
      (c'.packetQueue ≠ [] → c'.outActive = true) := by
  rw [Conn.handleOutput] at hc
  by_cases hactive : c.outActive = true
  · rw [if_pos hactive] at hc
    obtain ⟨r, hr, hc⟩ := Option.bind_eq_some_iff.mp hc
    obtain ⟨hfailed, piece, htaken, hiff⟩ := outputLoop_iff hacc hr
    rw [List.nil_append] at htaken
    -- the state differs in what is registered, not in what is sent and queued
    have hconserved : Conserved (queueBytes c.queued) (c.delivered ++ r.taken)
        (queueBytes r.queue) ↔ Harmless c.packetQueue results := by
      rw [h.conserved.take_iff, htaken, hiff]
    rw [hfailed] at hc
    by_cases hnil : r.queue = []
    · obtain rfl : _ = c' := by simpa [hnil] using hc
      rw [hnil] at hconserved
      exact ⟨hconserved, fun hne => absurd rfl hne⟩
    · obtain rfl : _ = c' := by simpa [hnil] using hc
      exact ⟨hconserved, fun _ => hactive⟩
  · -- nothing is waiting
    have hnil : c.packetQueue = [] := by
      by_contra hne
      exact hactive (h.active hne)
    rw [if_neg hactive] at hc
    obtain rfl := Option.some.inj hc
    refine ⟨iff_of_true h.conserved ?_, h.active⟩
    rw [hnil]
    trivial

/-! ### Every run -/

/-- **What the realm daemon sends is what it queued, up to the first harmful short
write.** For every sequence of packets and `handle_output` calls and every way the peer
takes what it is offered, what it has is at any time a prefix of what was queued, with
the packets still queued the rest, if and only if every buffer that is taken in part has
nothing left but repetitions of the last byte taken. -/
theorem outputRun_conserved_iff (f : Start) (es : List OutputEvent) :
    (∀ i c, outputRun f (es.take i) = some c → c.OutputConserved) ↔
      ∀ i c e c', Runs.StepAt Conn.outputStep (Conn.init f) es i c e c' → e.Harmless c := by
  refine Runs.forall_run_take_iff (P := Conn.OutputInv) (fun c h => h.conserved) ?_ ?_
    (Conn.outputInv_init f)
  · intro c e c' h hstep hgood
    rcases e with pkt | results
    · obtain rfl := Option.some.inj hstep
      exact h.send pkt
    · obtain ⟨hacc, hc⟩ := Option.ite_none_right_eq_some.mp hstep
      obtain ⟨hiff, hactive⟩ := h.handleOutput hacc hc
      exact ⟨hiff.mpr hgood, hactive⟩
  · intro c e c' h hstep hQ
    rcases e with pkt | results
    · trivial
    · obtain ⟨hacc, hc⟩ := Option.ite_none_right_eq_some.mp hstep
      exact (h.handleOutput hacc hc).1.mp hQ

/-- A reply of three bytes of which the peer takes one: it says that there is no such
account, and what is left of it says that the logon has succeeded. -/
theorem outputRun_authReply_not_conserved :
    ∃ c, outputRun Sample.start [.send (authReply .realmAuthNoMatch), .output [1]] = some c ∧
      c.delivered ++ queueBytes c.packetQueue = (authReply .realmAuthSuccess).storage ∧
      ¬c.OutputConserved := by
  refine ⟨_, rfl, rfl, ?_⟩
  rw [Conn.OutputConserved, conserved_iff]
  decide

end Morfeusz.Realmd
