import Morfeusz.Lib.Wakeup
import Morfeusz.Proxyd.Output
import Morfeusz.Realmd.Admission
import Morfeusz.Realmd.Transitions

/-!
# Packets nobody comes back for

`send`, `handle_output` and `die` of both sockets, with the registration for output at the
reactor. The reactor calls `handle_output` of a socket only while it is registered, and a
call that returns -1 costs the registration; `handle_close`, which is called with it, does
nothing for output.

Neither `handle_output` lowers `out_active` where it returns -1, so no later `send`
registers the socket again: what is queued stays queued as long as the connection lives.
In every run a packet of an open connection waits for the reactor if and only if no send of
the peer is refused (`Morfeusz.queued_registered_iff`).
-/

namespace Morfeusz

open Wakeup ByteBuffer

/-- The peer refuses one of the buffers of a queue, given by their sizes: those before it
are taken as a whole, or not at all. -/
def refused : List ℕ → List ℤ → Bool
  | size :: sizes, sent :: results =>
    sent = -1 || (¬(0 < sent ∧ sent < size) && refused sizes results)
  | _, _ => false

/-- What is refused was queued. -/
theorem ne_nil_of_refused {sizes : List ℕ} {results : List ℤ}
    (h : refused sizes results = true) : sizes ≠ [] := by
  rintro rfl
  cases h

/-- A call that has to do with the registration for output. -/
inductive WriteEvent
  | send (pkt : ByteBuffer)
  /-- The peer is ready for output; its `send` calls return these results. -/
  | output (results : List ℤ)
  | die

/-- The call is one of `handle_output` on an open connection, and the peer refuses. -/
def WriteEvent.Refused (isOpen : Bool) (sizes : List ℕ) : WriteEvent → Prop
  | .output results => isOpen = true ∧ refused sizes results = true
  | _ => False

namespace Realmd

/-! ### The socket of the realm daemon -/

namespace Conn

/-- One call: the reactor makes those of `handle_output`, while the socket is registered. -/
def writeStep (c : Conn) : WriteEvent → Option Conn
  | .send pkt => some (c.send pkt)
  | .output results => if c.writeRegistered then c.handleOutput results else none
  | .die => some c.die

/-- What the registration of a socket goes by. -/
def writer (c : Conn) : Writer where
  waiting := !c.packetQueue.isEmpty
  active := c.outActive
  registered := c.writeRegistered
  isOpen := c.peerOpen

/-- If the connection is open and something is queued, the socket is registered. -/
def Served (c : Conn) : Prop :=
  c.peerOpen = true → c.packetQueue ≠ [] → c.writeRegistered = true

theorem not_stranded_iff (c : Conn) : ¬c.writer.Stranded ↔ c.Served := by
  simp [Writer.Stranded, Served, writer]

end Conn

/-- The loop fails exactly where the peer refuses, and not without leaving something. -/
theorem Conn.outputLoop_failed {queue : List ByteBuffer} {results : List ℤ}
    {taken : List UInt8} {r : OutputResult} (h : outputLoop queue results taken = some r) :
    r.failed = refused (queue.map size) results ∧ (r.failed = true → r.queue ≠ []) := by
  induction queue generalizing results taken with
  | nil =>
    rw [outputLoop] at h
    obtain rfl := Option.some.inj h
    exact ⟨rfl, fun hfailed => absurd hfailed Bool.false_ne_true⟩
  | cons buffer queue ih =>
    rcases results with _ | ⟨sent, results⟩
    · cases h
    · rw [outputLoop] at h
      rw [List.map_cons, refused]
      by_cases hshort : 0 < sent ∧ sent < buffer.size
      · rw [if_pos hshort] at h
        obtain rfl := Option.some.inj h
        have hne : sent ≠ -1 := by omega
        exact ⟨by simp [hne, hshort], fun hfailed => absurd hfailed Bool.false_ne_true⟩
      · rw [if_neg hshort] at h
        by_cases hrefused : sent = -1
        · rw [if_pos hrefused] at h
          obtain rfl := Option.some.inj h
          exact ⟨by simp [hrefused], fun _ => List.cons_ne_nil _ _⟩
        · -- the buffer is dropped, whatever was taken of it
          rw [if_neg hrefused] at h
          obtain ⟨-, h⟩ := Option.ite_none_right_eq_some.mp h
          rw [decide_eq_true hshort, Bool.true_and, decide_eq_false hrefused, Bool.false_or]
          exact ih h

/-- Nothing is left of an empty queue. -/
theorem Conn.queue_ne_nil_of_outputLoop {queue : List ByteBuffer} {results : List ℤ}
    {r : OutputResult} (h : outputLoop queue results [] = some r) (hne : r.queue ≠ []) :
    queue ≠ [] := by
  rintro rfl
  rw [outputLoop] at h
  obtain rfl := Option.some.inj h
  exact hne rfl

/-- The socket once the loop has ended. -/
def Conn.took (c : Conn) (r : OutputResult) : Conn :=
  { c with packetQueue := r.queue, delivered := c.delivered ++ r.taken }

theorem Conn.writer_of_ne_nil {c : Conn} (h : c.packetQueue ≠ []) :
    c.writer =
      { waiting := true
        active := c.outActive
        registered := c.writeRegistered
        isOpen := c.peerOpen } := by
  rw [writer, List.isEmpty_eq_false_iff.mpr h, Bool.not_false]

variable {c c' : Conn} {results : List ℤ}

/-- **`handle_output` moves the socket**, unless the peer refuses. -/
theorem Conn.moves_handleOutput (h : c.handleOutput results = some c')
    (hkept : ¬refused (c.packetQueue.map size) results = true) :
    Writer.Moves c.writer c'.writer := by
  rw [handleOutput] at h
  by_cases hactive : c.outActive = true
  · rw [if_pos hactive] at h
    obtain ⟨r, hr, h⟩ := Option.bind_eq_some_iff.mp h
    dsimp only at h
    rw [← (outputLoop_failed hr).1] at hkept
    rw [if_neg hkept] at h
    by_cases hempty : r.queue = []
    · rw [if_pos hempty] at h
      obtain rfl := Option.some.inj h
      rw [hempty]
      exact .drained _
    · rw [if_neg hempty] at h
      obtain rfl := Option.some.inj h
      -- something is left, and everything else stays
      have hleft : (c.took r).writer = c.writer := by
        rw [writer_of_ne_nil hempty, writer_of_ne_nil (queue_ne_nil_of_outputLoop hr hempty)]
        rfl
      change Writer.Moves c.writer (c.took r).writer
      rw [hleft]
      exact .keep _
  · rw [if_neg hactive] at h
    obtain rfl := Option.some.inj h
    exact .keep _

/-- **A refusal strands what is queued.** -/
theorem Conn.stranded_handleOutput (hinStep : c.writer.InStep) (hopen : c.peerOpen = true)
    (h : c.handleOutput results = some c')
    (hrefused : refused (c.packetQueue.map size) results = true) : c'.writer.Stranded := by
  have hne : c.packetQueue ≠ [] := fun hnil =>
    ne_nil_of_refused hrefused (by rw [hnil, List.map_nil])
  have hactive : c.outActive = true :=
    (hinStep hopen).2 (by rw [writer_of_ne_nil hne])
  rw [handleOutput, if_pos hactive] at h
  obtain ⟨r, hr, h⟩ := Option.bind_eq_some_iff.mp h
  obtain ⟨hfailed, hleft⟩ := outputLoop_failed hr
  rw [hrefused] at hfailed
  dsimp only at h
  rw [if_pos hfailed] at h
  obtain rfl := Option.some.inj h
  rw [writer_of_ne_nil (hleft hfailed)]
  exact ⟨hopen, rfl, rfl⟩

/-- The calls of a list, made on a socket just opened. -/
def writeRun (f : Start) (es : List WriteEvent) : Option Conn :=
  Runs.run Conn.writeStep (Conn.init f) es

/-- In any run, an open socket with something queued is registered if and only if the peer
refuses nothing. -/
theorem never_stranded_iff (f : Start) (es : List WriteEvent) :
    (∀ i c, writeRun f (es.take i) = some c → c.Served) ↔
      ∀ i c e c', Runs.StepAt Conn.writeStep (Conn.init f) es i c e c' →
        ¬e.Refused c.peerOpen (c.packetQueue.map size) := by
  simp only [← Conn.not_stranded_iff]
  refine Wakeup.never_stranded_iff ?_ ?_ fun _ => ⟨rfl, fun h => nomatch h⟩
  · intro c e c' hstep hkept
    cases e with
    | send pkt =>
      obtain rfl := Option.some.inj hstep
      have hpush : (c.send pkt).writer = c.writer.push := by
        rw [Conn.writer_of_ne_nil (List.concat_ne_nil _ _)]
        rfl
      rw [hpush]
      exact .push _
    | output results =>
      obtain ⟨-, hstep⟩ := Option.ite_none_right_eq_some.mp hstep
      by_cases hopen : c.peerOpen = true
      · exact Conn.moves_handleOutput hstep fun hrefused => hkept ⟨hopen, hrefused⟩
      · refine .closed ?_
        obtain ⟨queue, delivered, write, active, rfl⟩ := Conn.handleOutput_some hstep
        exact Bool.not_eq_true _ ▸ hopen
    | die =>
      obtain rfl := Option.some.inj hstep
      exact .closed rfl
  · intro c e c' hinStep hstep hrefused
    cases e with
    | send pkt => exact hrefused.elim
    | output results =>
      obtain ⟨-, hstep⟩ := Option.ite_none_right_eq_some.mp hstep
      exact Conn.stranded_handleOutput hinStep hrefused.1 hstep hrefused.2
    | die => exact hrefused.elim

end Realmd

namespace Proxyd

/-! ### The socket of the proxy -/

/-- What the reactor knows of the output of a socket. -/
structure OutputSide where
  outbox : Outbox
  writeRegistered : Bool
  isOpen : Bool

namespace OutputSide

/-- A socket nothing was sent on. -/
def init (crypto : ProxyCrypto) : OutputSide where
  outbox := .init crypto
  writeRegistered := false
  isOpen := true

/-- `send`. -/
def send (o : OutputSide) (pkt : ByteBuffer) : OutputSide :=
  { o with
    outbox := o.outbox.send pkt
    writeRegistered := o.writeRegistered || !o.outbox.outActive }

/-- `handle_output`, and what the reactor makes of its result: the registration is gone
where the peer has refused, and where the queue has run empty. -/
def handleOutput (o : OutputSide) (results : List ℤ) : Option OutputSide := do
  let r ← Outbox.outputLoop o.outbox.continueSend o.outbox.crypto o.outbox.packetQueue results []
  let outbox ← o.outbox.handleOutput results
  some
    { o with
      outbox
      writeRegistered := o.writeRegistered && !r.failed && !r.queue.isEmpty }

/-- `die`, which leaves the reactor alone. -/
def die (o : OutputSide) : OutputSide := { o with isOpen := false }

end OutputSide

namespace OutputSide

/-- One call: the reactor makes those of `handle_output`, while the socket is registered. -/
def step (o : OutputSide) : WriteEvent → Option OutputSide
  | .send pkt => some (o.send pkt)
  | .output results => if o.writeRegistered then o.handleOutput results else none
  | .die => some o.die

/-- What the registration of a socket goes by. -/
def writer (o : OutputSide) : Writer where
  waiting := !o.outbox.packetQueue.isEmpty
  active := o.outbox.outActive
  registered := o.writeRegistered
  isOpen := o.isOpen

/-- If the connection is open and something is queued, the socket is registered. -/
def Served (o : OutputSide) : Prop :=
  o.isOpen = true → o.outbox.packetQueue ≠ [] → o.writeRegistered = true

theorem not_stranded_iff (o : OutputSide) : ¬o.writer.Stranded ↔ o.Served := by
  simp [Writer.Stranded, Served, writer]

end OutputSide

/-- The bytes of a buffer once `SetSize` has been called on it. -/
def offeredSize (buf : ByteBuffer) : ℕ := max 2 buf.size

theorem size_setSize {buf written : ByteBuffer} {siz : UInt16}
    (h : setSize buf siz = some written) : written.size = offeredSize buf := by
  have hlimit : buf.size < sizeLimit := by
    by_contra hlimit
    change ¬({ buf with wpos := 0 } : ByteBuffer).size < sizeLimit at hlimit
    rw [setSize, append, if_neg (by simp [uint16, ByteNumbers.leBytes]), if_neg hlimit] at h
    cases h
  rw [setSize_eq hlimit] at h
  obtain rfl := Option.some.inj h
  simp only [size, offeredSize, List.length_append, List.length_reverse, length_uint16,
    List.length_drop]
  omega

theorem size_prepare {continueSend : Bool} {crypto crypto' : ProxyCrypto}
    {buf offered : ByteBuffer} (h : prepare continueSend crypto buf = some (offered, crypto')) :
    offered.size = offeredSize buf := by
  rw [prepare] at h
  obtain ⟨written, hwritten, h⟩ := Option.bind_eq_some_iff.mp h
  rw [← size_setSize hwritten]
  by_cases hcontinue : continueSend = true
  · rw [if_pos hcontinue] at h
    obtain ⟨rfl, -⟩ := Prod.mk.inj (Option.some.inj h)
    rfl
  · rw [if_neg hcontinue, encryptFront] at h
    by_cases hlong : ProxyCrypto.cryptedSendLen ≤ written.storage.length
    · rw [dif_pos hlong] at h
      obtain ⟨rfl, -⟩ := Prod.mk.inj (Option.some.inj h)
      simp only [size, List.length_append, List.length_drop, Bytes.length]
      omega
    · rw [dif_neg hlong] at h
      cases h

/-- The loop fails exactly where the peer refuses, and not without leaving something. -/
theorem outputLoop_failed {continueSend : Bool} {crypto : ProxyCrypto}
    {queue : List ByteBuffer} {results : List ℤ} {taken : List UInt8} {r : Outbox.OutputResult}
    (h : Outbox.outputLoop continueSend crypto queue results taken = some r) :
    r.failed = refused (queue.map offeredSize) results ∧ (r.failed = true → r.queue ≠ []) := by
  induction queue generalizing continueSend crypto results taken with
  | nil =>
    rw [Outbox.outputLoop] at h
    obtain rfl := Option.some.inj h
    exact ⟨rfl, fun hfailed => absurd hfailed Bool.false_ne_true⟩
  | cons buffer queue ih =>
    rcases results with _ | ⟨sent, results⟩
    · cases h
    · rw [Outbox.outputLoop] at h
      obtain ⟨⟨offered, crypto'⟩, hprep, h⟩ := Option.bind_eq_some_iff.mp h
      dsimp only at h
      rw [List.map_cons, refused, ← size_prepare hprep]
      by_cases hshort : 0 < sent ∧ sent < offered.size
      · rw [if_pos hshort] at h
        obtain rfl := Option.some.inj h
        have hne : sent ≠ -1 := by omega
        exact ⟨by simp [hne, hshort], fun hfailed => absurd hfailed Bool.false_ne_true⟩
      · rw [if_neg hshort] at h
        by_cases hrefused : sent = -1
        · rw [if_pos hrefused] at h
          obtain rfl := Option.some.inj h
          exact ⟨by simp [hrefused], fun _ => List.cons_ne_nil _ _⟩
        · -- the buffer is dropped, whatever was taken of it
          rw [if_neg hrefused] at h
          obtain ⟨-, h⟩ := Option.ite_none_right_eq_some.mp h
          rw [decide_eq_true hshort, Bool.true_and, decide_eq_false hrefused, Bool.false_or]
          exact ih h

/-- Nothing is left of an empty queue. -/
theorem queue_ne_nil_of_outputLoop {continueSend : Bool} {crypto : ProxyCrypto}
    {queue : List ByteBuffer} {results : List ℤ} {r : Outbox.OutputResult}
    (h : Outbox.outputLoop continueSend crypto queue results [] = some r) (hne : r.queue ≠ []) :
    queue ≠ [] := by
  rintro rfl
  rw [Outbox.outputLoop] at h
  obtain rfl := Option.some.inj h
  exact hne rfl

namespace OutputSide

variable {o o' : OutputSide} {results : List ℤ}

theorem writer_of_ne_nil (h : o.outbox.packetQueue ≠ []) :
    o.writer =
      { waiting := true
        active := o.outbox.outActive
        registered := o.writeRegistered
        isOpen := o.isOpen } := by
  rw [writer, List.isEmpty_eq_false_iff.mpr h, Bool.not_false]

/-- What a call of `handle_output` comes to, once the loop has ended. -/
theorem exists_of_handleOutput (h : o.handleOutput results = some o') :
    ∃ r, Outbox.outputLoop o.outbox.continueSend o.outbox.crypto o.outbox.packetQueue results [] =
        some r ∧ o'.outbox.packetQueue = r.queue ∧
      o'.outbox.outActive = (if r.failed = false ∧ r.queue = [] then false else
        o.outbox.outActive) ∧
      o'.writeRegistered = (o.writeRegistered && !r.failed && !r.queue.isEmpty) ∧
      o'.isOpen = o.isOpen := by
  rw [handleOutput] at h
  obtain ⟨r, hr, h⟩ := Option.bind_eq_some_iff.mp h
  obtain ⟨outbox, houtbox, h⟩ := Option.bind_eq_some_iff.mp h
  obtain rfl := Option.some.inj h
  rw [Outbox.handleOutput, hr] at houtbox
  refine ⟨r, hr, ?_⟩
  dsimp only [Option.bind_eq_bind, Option.bind_some] at houtbox
  by_cases hdone : r.failed = false ∧ r.queue = []
  · rw [if_pos hdone] at houtbox ⊢
    obtain rfl := Option.some.inj houtbox
    exact ⟨rfl, rfl, rfl, rfl⟩
  · rw [if_neg hdone] at houtbox ⊢
    obtain rfl := Option.some.inj houtbox
    exact ⟨rfl, rfl, rfl, rfl⟩

/-- **`handle_output` moves the socket**, unless the peer refuses. -/
theorem moves_handleOutput (h : o.handleOutput results = some o')
    (hkept : ¬refused (o.outbox.packetQueue.map offeredSize) results = true) :
    Writer.Moves o.writer o'.writer := by
  obtain ⟨r, hr, hqueue, hactive, hregistered, hopen⟩ := exists_of_handleOutput h
  rw [← (outputLoop_failed hr).1, Bool.not_eq_true] at hkept
  rw [hkept] at hactive hregistered
  by_cases hempty : r.queue = []
  · have hdrained : o'.writer = o.writer.drained := by
      rw [writer, hqueue, hactive, hregistered, hopen, hempty, if_pos ⟨rfl, rfl⟩]
      simp [Writer.drained, writer]
    rw [hdrained]
    exact .drained _
  · have hsame : o'.writer = o.writer := by
      rw [writer_of_ne_nil (by rwa [hqueue]),
        writer_of_ne_nil (queue_ne_nil_of_outputLoop hr hempty), hactive, hregistered, hopen,
        if_neg fun hdone => hempty hdone.2, List.isEmpty_eq_false_iff.mpr hempty]
      simp
    rw [hsame]
    exact .keep _

/-- **A refusal strands what is queued.** -/
theorem stranded_handleOutput (hopen : o.isOpen = true) (h : o.handleOutput results = some o')
    (hrefused : refused (o.outbox.packetQueue.map offeredSize) results = true) :
    o'.writer.Stranded := by
  obtain ⟨r, hr, hqueue, -, hregistered, hsame⟩ := exists_of_handleOutput h
  obtain ⟨hfailed, hleft⟩ := outputLoop_failed hr
  rw [hrefused] at hfailed
  rw [hfailed, Bool.not_true, Bool.and_false, Bool.false_and] at hregistered
  rw [writer_of_ne_nil (by rw [hqueue]; exact hleft hfailed)]
  exact ⟨hsame.trans hopen, rfl, hregistered⟩

end OutputSide

/-- The calls of a list, made on a socket with nothing to send. -/
def writeRun (crypto : ProxyCrypto) (es : List WriteEvent) : Option OutputSide :=
  Runs.run OutputSide.step (.init crypto) es

/-- In any run, an open socket with something queued is registered if and only if the peer
refuses nothing. -/
theorem never_stranded_iff (crypto : ProxyCrypto) (es : List WriteEvent) :
    (∀ i o, writeRun crypto (es.take i) = some o → o.Served) ↔
      ∀ i o e o', Runs.StepAt OutputSide.step (.init crypto) es i o e o' →
        ¬e.Refused o.isOpen (o.outbox.packetQueue.map offeredSize) := by
  simp only [← OutputSide.not_stranded_iff]
  refine Wakeup.never_stranded_iff ?_ ?_ fun _ => ⟨rfl, fun h => nomatch h⟩
  · intro o e o' hstep hkept
    cases e with
    | send pkt =>
      obtain rfl := Option.some.inj hstep
      by_cases hopen : o.isOpen = true
      · have hpush : (o.send pkt).writer = o.writer.push := by
          rw [OutputSide.writer_of_ne_nil (List.concat_ne_nil _ _), Writer.push,
            OutputSide.writer, hopen, Bool.and_true]
          exact congrArg (Writer.mk _ _ _) hopen
        rw [hpush]
        exact .push _
      · exact .closed (Bool.not_eq_true _ ▸ hopen)
    | output results =>
      obtain ⟨-, hstep⟩ := Option.ite_none_right_eq_some.mp hstep
      by_cases hopen : o.isOpen = true
      · exact OutputSide.moves_handleOutput hstep fun hrefused => hkept ⟨hopen, hrefused⟩
      · obtain ⟨_, _, _, _, _, hsame⟩ := OutputSide.exists_of_handleOutput hstep
        refine .closed ?_
        rw [OutputSide.writer, hsame]
        exact Bool.not_eq_true _ ▸ hopen
    | die =>
      obtain rfl := Option.some.inj hstep
      exact .closed rfl
  · intro o e o' _ hstep hrefused
    cases e with
    | send pkt => exact hrefused.elim
    | output results =>
      obtain ⟨-, hstep⟩ := Option.ite_none_right_eq_some.mp hstep
      exact OutputSide.stranded_handleOutput hrefused.1 hstep hrefused.2
    | die => exact hrefused.elim

end Proxyd

/-! ### Both sockets -/

/-- **A packet is stranded exactly by a peer that refuses.** For both sockets, and whatever
is sent, taken and closed in whatever order, an open connection with something queued is
registered for output in every state of a run, if and only if no send of the peer is
refused in a call of `handle_output` of that run. -/
theorem queued_registered_iff (f : Realmd.Start) (crypto : Proxyd.ProxyCrypto)
    (es : List WriteEvent) :
    ((∀ i c, Realmd.writeRun f (es.take i) = some c → c.Served) ↔
      ∀ i c e c', Runs.StepAt Realmd.Conn.writeStep (Realmd.Conn.init f) es i c e c' →
        ¬e.Refused c.peerOpen (c.packetQueue.map size)) ∧
    ((∀ i o, Proxyd.writeRun crypto (es.take i) = some o → o.Served) ↔
      ∀ i o e o', Runs.StepAt Proxyd.OutputSide.step (.init crypto) es i o e o' →
        ¬e.Refused o.isOpen (o.outbox.packetQueue.map Proxyd.offeredSize)) :=
  ⟨Realmd.never_stranded_iff f es, Proxyd.never_stranded_iff crypto es⟩

/-- The peer refuses the first packet of a connection once, and the one sent later does not
get the socket registered either. -/
theorem not_served_refused :
    (∃ c, Realmd.writeRun Realmd.Sample.start
        [.send (Realmd.authReply .realmAuthNoMatch), .output [-1],
          .send (Realmd.authReply .realmAuthNoMatch)] = some c ∧
      c.peerOpen = true ∧ c.packetQueue.length = 2 ∧ ¬c.Served) ∧
    ∃ o, Proxyd.writeRun .init
        [.send (Proxyd.authChallenge 0x04030201), .output [-1],
          .send (Proxyd.authChallenge 0x04030201)] = some o ∧
      o.isOpen = true ∧ o.outbox.packetQueue.length = 2 ∧ ¬o.Served := by
  refine ⟨⟨_, rfl, rfl, rfl, ?_⟩, ⟨_, rfl, rfl, rfl, ?_⟩⟩
  · exact fun hserved => Bool.false_ne_true (hserved rfl (List.cons_ne_nil _ _))
  · exact fun hserved => Bool.false_ne_true (hserved rfl (List.cons_ne_nil _ _))

end Morfeusz
