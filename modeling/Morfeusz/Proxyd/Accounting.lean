import Morfeusz.Proxyd.Service
import Morfeusz.Proxyd.Transitions

/-!
# The connections a proxy counts

Every connection of the proxy is counted by the service: `open` counts it up, and `die`
counts it down. The two are not a pair. A connection that is refused because the proxy is
full was never counted up, but the acceptor closes its socket, and that counts down; and
`die` counts down as often as it is called, which is twice where an account is rejected
after the client has gone, or two accounts are.

`Morfeusz.Proxyd.Server` is the service with all sockets it has admitted. The count is
that of the sockets that are open for as long as neither happens
(`Morfeusz.Proxyd.connections_counted_iff`).
-/

namespace Morfeusz.Proxyd

open ByteNumbers

variable (sha : Sha1) (hmac : Hmac)

/-! ### The calls of `die` -/

instance (env : Env) (c : Conn) : Decidable (c.Authentic sha env) :=
  inferInstanceAs (Decidable (_ ∧ _))

/-- An event on which the socket calls `die`: `handle_close`, and an account that is
unknown or not the client's. -/
def Event.dies (e : Event) (c : Conn) : Bool :=
  match e.action with
  | .input _ => false
  | .hangup => true
  | .answer .getCharsObsv _ => false
  | .answer .getAcctObsv res =>
    if res.rowsCount = 0 then true
    else
      match Conn.readAccount res.next.2 with
      | none => false
      | some acct => !decide (({ c with acct } : Conn).Authentic sha e.env)

/-- **`die` is what releases the pointer of a socket**, and nothing sets it again. -/
theorem ptr_of_step {c c' : Conn} {e : Event} (h : step sha hmac c e = some c') :
    c'.ptr = (c.ptr && !e.dies sha c) := by
  cases trans_of_step h with
  | input pkt hact hread hframe => simp [Event.dies, hact, hframe.ptr]
  | hangup hact hacct hcrypto hptr => simp [Event.dies, hact, hptr]
  | listed res hact hframe => simp [Event.dies, hact, hframe.ptr]
  | accepted acct hbrings hauth hacct hkey hptr =>
    obtain ⟨res, hact, hrows, hread⟩ := hbrings
    simp [Event.dies, hact, hrows, hread, hauth, hptr]
  | rejected acct hbrings hauth hacct hcrypto hptr =>
    obtain ⟨res, hact, hrows, hread⟩ := hbrings
    simp [Event.dies, hact, hrows, hread, hauth, hptr]
  | unknown hbrings hacct hcrypto hptr =>
    obtain ⟨res, hact, hrows⟩ := hbrings
    simp [Event.dies, hact, hrows, hptr]

/-! ### The server -/

/-- The service, and the sockets `open` has admitted, oldest first. -/
structure Server where
  service : ProxyService
  conns : List Conn

/-- What can happen: a client connects, and its socket can be registered with the
reactor or cannot; or something happens to a socket that was admitted. -/
inductive ServerEvent
  | accept (f : Start) (registered : Bool)
  | conn (i : ℕ) (e : Event)

namespace Server

/-- The proxy after its start. -/
def init (service : ProxyService) : Server := { service, conns := [] }

/-- `open`. Where it returns -1 the acceptor calls `close`, which is `die`. -/
def accept (s : Server) (f : Start) (registered : Bool) : Option Server :=
  if s.service.load = 1 then do
    let service ← s.service.updateConnections false
    some { s with service }
  else do
    let service ← s.service.updateConnections true
    if registered then some { service, conns := s.conns ++ [Conn.init f] }
    else do
      let service ← service.updateConnections false
      some { s with service }

/-- What `die` does to the service. -/
def countOff (service : ProxyService) (dies : Bool) : Option ProxyService :=
  if dies then service.updateConnections false else some service

/-- An event of one socket. -/
def onConn (s : Server) (i : ℕ) (e : Event) : Option Server := do
  let c ← s.conns[i]?
  let c' ← Proxyd.step sha hmac c e
  let service ← countOff s.service (e.dies sha c)
  some { service, conns := s.conns.set i c' }

/-- One step of the proxy. -/
def step (s : Server) : ServerEvent → Option Server
  | .accept f registered => s.accept f registered
  | .conn i e => s.onConn sha hmac i e

/-- The sockets that were admitted and have not been closed. -/
def openCount (s : Server) : ℕ := s.conns.countP Conn.ptr

/-- The count is that of the open sockets, of which there are no more than the limit
allows. -/
def Counted (s : Server) : Prop :=
  s.service.currentConnections.toNat = s.openCount ∧
    s.openCount ≤ s.service.connectionLimit.toNat

end Server

/-- An event that is counted once: a client connects while the load is not one, and a
socket dies that has not died before. -/
def ServerEvent.CountsOnce (e : ServerEvent) (s : Server) : Prop :=
  match e with
  | .accept _ _ => s.service.load ≠ 1
  | .conn i e => ∀ c, s.conns[i]? = some c → e.dies sha c = true → c.ptr = true

/-- The state a sequence of events takes a proxy to, from its start. -/
def serverRun (service : ProxyService) (es : List ServerEvent) : Option Server :=
  Runs.run (Server.step sha hmac) (Server.init service) es

namespace Server

variable {sha hmac} {s s' : Server}

/-! ### One step -/

/-- The invariant of a proxy that counts right. -/
structure Inv (s : Server) : Prop where
  counted : s.Counted
  load : s.service.LoadOk

theorem inv_init (limit : UInt16) (realmId : UInt8) (bindAddr : List UInt8) :
    (init (ProxyService.start limit realmId bindAddr)).Inv :=
  ⟨⟨rfl, Nat.zero_le _⟩, ProxyService.loadOk_start limit realmId bindAddr⟩

/-- **A client that connects** is counted where it is admitted, and a client that is
refused is counted off. -/
theorem Inv.accept {f : Start} {registered : Bool} (h : s.Inv)
    (hstep : s.accept f registered = some s') :
    (s.service.load ≠ 1 → s'.Inv) ∧ (s.service.load = 1 → ¬s'.Counted) := by
  obtain ⟨⟨hcount, hle⟩, hload⟩ := h
  have hle' : s.service.currentConnections.toNat ≤ s.service.connectionLimit.toNat := by omega
  have hlimit := s.service.connectionLimit.toNat_lt
  rw [Server.accept] at hstep
  split at hstep
  · next hfull =>
    refine ⟨fun hne => absurd hfull hne, fun _ hcounted => ?_⟩
    obtain ⟨service, hdown, hs⟩ := Option.bind_eq_some_iff.mp hstep
    obtain rfl := Option.some.inj hs
    obtain ⟨hpos, -, -, -, hcur⟩ := ProxyService.updateConnections_frame hdown
    have hfull := (ProxyService.load_eq_one_iff hload hpos hle').mp hfull
    have hone : 1 ≤ s.service.currentConnections := by
      rw [UInt32.le_iff_toNat_le, hfull]
      exact Nat.one_le_iff_ne_zero.mpr fun h0 => hpos (UInt16.toNat_inj.mp h0)
    -- as many sockets as before, and one connection less
    have hdec := UInt32.toNat_sub_of_le _ _ hone
    have hnew := hcounted.1
    rw [hcur, if_neg Bool.false_ne_true, hdec] at hnew
    have hsame : s.service.currentConnections.toNat - UInt32.toNat 1 = s.openCount := hnew
    have : UInt32.toNat 1 = 1 := rfl
    have := UInt32.le_iff_toNat_le.mp hone
    omega
  · next hnotfull =>
    refine ⟨fun _ => ?_, fun hfull => absurd hfull hnotfull⟩
    obtain ⟨service, hup, hs⟩ := Option.bind_eq_some_iff.mp hstep
    obtain ⟨hpos, hlimit', -, -, hcur⟩ := ProxyService.updateConnections_frame hup
    have hroom : s.service.currentConnections.toNat < s.service.connectionLimit.toNat := by
      refine lt_of_le_of_ne hle' fun heq => hnotfull ?_
      exact (ProxyService.load_eq_one_iff hload hpos hle').mpr heq
    have hcur' : service.currentConnections.toNat = s.openCount + 1 := by
      rw [hcur, if_pos rfl, UInt32.toNat_add]
      have : UInt32.toNat 1 = 1 := rfl
      omega
    split at hs
    · obtain rfl := Option.some.inj hs
      have hopen : (Server.mk service (s.conns ++ [Conn.init f])).openCount = s.openCount + 1 := by
        rw [openCount, List.countP_append]
        rfl
      refine ⟨⟨hcur'.trans hopen.symm, ?_⟩, ProxyService.loadOk_updateConnections hup⟩
      rw [hopen, hlimit']
      omega
    · obtain ⟨service', hdown, hs⟩ := Option.bind_eq_some_iff.mp hs
      obtain rfl := Option.some.inj hs
      obtain ⟨-, hlimit'', -, -, hcur''⟩ := ProxyService.updateConnections_frame hdown
      refine ⟨⟨?_, ?_⟩, ProxyService.loadOk_updateConnections hdown⟩
      · rw [hcur'', if_neg Bool.false_ne_true, hcur, if_pos rfl, UInt32.add_sub_cancel]
        exact hcount
      · rw [hlimit'', hlimit']
        exact hle

/-- **An event of a socket** is counted right where the socket does not die a second
time, and wrong where it does. -/
theorem Inv.onConn {i : ℕ} {e : Event} (h : s.Inv) (hstep : s.onConn sha hmac i e = some s') :
    (ServerEvent.CountsOnce sha (.conn i e) s → s'.Inv) ∧
      (s'.Counted → ServerEvent.CountsOnce sha (.conn i e) s) := by
  obtain ⟨⟨hcount, hle⟩, hload⟩ := h
  have hlimit := s.service.connectionLimit.toNat_lt
  obtain ⟨c, hc, hstep⟩ := Option.bind_eq_some_iff.mp hstep
  obtain ⟨c', hc', hstep⟩ := Option.bind_eq_some_iff.mp hstep
  obtain ⟨service, hservice, hs⟩ := Option.bind_eq_some_iff.mp hstep
  obtain rfl := Option.some.inj hs
  obtain ⟨hi, hget⟩ := List.getElem?_eq_some_iff.mp hc
  have hptr := ptr_of_step sha hmac hc'
  have hopen : (s.conns.set i c').countP Conn.ptr =
      s.conns.countP Conn.ptr - (if c.ptr = true then 1 else 0) +
        if c'.ptr = true then 1 else 0 := by
    rw [List.countP_set hi, hget]
  have hmem : c.ptr = true → 0 < s.openCount := fun hc' =>
    List.countP_pos_iff.mpr ⟨c, hget ▸ List.getElem_mem hi, hc'⟩
  have hcounts : ServerEvent.CountsOnce sha (.conn i e) s ↔
      (e.dies sha c = true → c.ptr = true) := by
    refine ⟨fun h => h c hc, fun h d hd => ?_⟩
    obtain rfl := Option.some.inj (hc.symm.trans hd)
    exact h
  rw [hcounts]
  rw [countOff] at hservice
  split at hservice
  · next hdies =>
    obtain ⟨-, hlimit', -, -, hcur⟩ := ProxyService.updateConnections_frame hservice
    rw [if_neg Bool.false_ne_true] at hcur
    have hclosed : c'.ptr = false := by rw [hptr, hdies, Bool.not_true, Bool.and_false]
    rw [hclosed, if_neg Bool.false_ne_true, Nat.add_zero] at hopen
    by_cases halive : c.ptr = true
    · rw [if_pos halive] at hopen
      have hpos := hmem halive
      have hone : 1 ≤ s.service.currentConnections := by
        rw [UInt32.le_iff_toNat_le, hcount]
        exact hpos
      refine ⟨fun _ => ⟨⟨?_, ?_⟩, ProxyService.loadOk_updateConnections hservice⟩,
        fun _ _ => halive⟩
      · rw [hcur, UInt32.toNat_sub_of_le _ _ hone, hcount]
        exact hopen.symm
      · rw [hlimit']
        exact (hopen.trans_le (Nat.sub_le _ _)).trans hle
    · rw [if_neg halive, Nat.sub_zero] at hopen
      refine ⟨fun h => absurd (h hdies) halive, fun hcounted => absurd hcounted.1 ?_⟩
      -- as many sockets as before, and one connection less, or as many as there can be
      have hsame : (Server.mk service (s.conns.set i c')).openCount = s.openCount := hopen
      rw [hsame, hcur, UInt32.toNat_sub, hcount]
      have : UInt32.toNat 1 = 1 := rfl
      omega
  · next hlives =>
    obtain rfl := Option.some.inj hservice
    have hsame : c'.ptr = c.ptr := by
      rw [hptr, Bool.eq_false_iff.mpr hlives, Bool.not_false, Bool.and_true]
    have hopen' : (Server.mk s.service (s.conns.set i c')).openCount = s.openCount := by
      rw [openCount, hopen, hsame, openCount]
      split
      · next halive =>
        have := hmem halive
        rw [openCount] at this
        omega
      · rfl
    refine ⟨fun _ => ⟨⟨hcount.trans hopen'.symm, hopen'.trans_le hle⟩, hload⟩, fun _ hdies => ?_⟩
    exact absurd hdies hlives

end Server

/-! ### Every run -/

/-- **The connections are counted for as long as nobody is counted off twice.** For every
limit and every sequence of clients that connect, whether they are admitted, refused or
cannot be registered, and of whatever happens to their sockets, the count is at any time
that of the open sockets and within the limit, if and only if no client connects while
the load is one and no socket dies twice. -/
theorem connections_counted_iff (limit : UInt16) (realmId : UInt8) (bindAddr : List UInt8)
    (es : List ServerEvent) :
    (∀ i s, serverRun sha hmac (ProxyService.start limit realmId bindAddr) (es.take i) = some s →
      s.Counted) ↔
      ∀ i s e s', Runs.StepAt (Server.step sha hmac)
        (Server.init (ProxyService.start limit realmId bindAddr)) es i s e s' →
        e.CountsOnce sha s := by
  refine Runs.forall_run_take_iff (P := Server.Inv) (fun s h => h.counted) ?_ ?_
    (Server.inv_init limit realmId bindAddr)
  · intro s e s' h hstep hgood
    cases e with
    | accept f registered => exact (h.accept hstep).1 hgood
    | conn i e => exact (h.onConn hstep).1 hgood
  · intro s e s' h hstep hcounted
    cases e with
    | accept f registered => exact fun hfull => (h.accept hstep).2 hfull hcounted
    | conn i e => exact (h.onConn hstep).2 hcounted

/-- What the constructor of a client's socket leaves to chance. -/
def AccountingSample.client : Start :=
  { seed := 0, id := 0, gmlevel := 0, expansion := 0, clientSeed := 0 }

/-- A proxy for one connection: the second client is refused, the third is admitted to the
proxy that is full. -/
theorem refused_client_not_counted :
    ∃ s, serverRun (fun _ => Bytes.zero 20) (fun _ _ => Bytes.zero 20) (ProxyService.start 1 1 [97])
        [.accept AccountingSample.client true, .accept AccountingSample.client true,
          .accept AccountingSample.client true] = some s ∧
      s.openCount = 2 ∧ s.service.currentConnections = 1 ∧ ¬s.Counted := by
  refine ⟨_, rfl, rfl, rfl, ?_⟩
  rintro ⟨hcount, -⟩
  exact absurd hcount (by decide)

end Morfeusz.Proxyd
