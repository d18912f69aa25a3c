import Mathlib.Algebra.Order.Ring.Rat
import Morfeusz.Lib.FifoChannel
import Morfeusz.Proxyd.Process
import Morfeusz.Realmd.Registry

/-!
# A proxy that stops

The proxy, the event channel and the realm daemon together. The channel delivers what the
proxy has said in the order in which it was said; between two deliveries the realm daemon
may be told anything, but not of the address of this proxy.

`stop` takes leave first and clears `is_running` then. So a thread that is in the reactor,
or in the ORB, or has tested `is_running` before it was cleared, announces a proxy that
has left. The realm daemon has no entry for a proxy that has stopped if and only if this
did not happen (`Morfeusz.stopped_proxy_gone_iff`).
-/

namespace Morfeusz

open ByteNumbers Realmd Proxyd

/-! ### The realm daemon at the end of the channel -/

/-- The message as an event of the realm daemon, with what an iterator reads by chance. -/
def Proxyd.Message.toEvent (stale : UInt8) : Message → ServiceEvent ℚ
  | .announce msg => .announce msg stale
  | .shutdowned proxy => .shutdowned proxy

/-- What else the realm daemon is told: it does not name the address. -/
def Realmd.ServiceEvent.Names (address : List UInt8) : ServiceEvent ℚ → Prop
  | .updateRealms _ => False
  | .announce msg _ => msg.address = address
  | .shutdowned proxy => proxy.address = address

instance (address : List UInt8) (e : ServiceEvent ℚ) : Decidable (e.Names address) :=
  match e with
  | .updateRealms _ => inferInstanceAs (Decidable False)
  | .announce msg _ => inferInstanceAs (Decidable (msg.address = address))
  | .shutdowned proxy => inferInstanceAs (Decidable (proxy.address = address))

namespace Shutdown

/-- A step of the realm daemon in which it is told of somebody else. -/
def other (address : List UInt8) (s : Service ℚ) (e : ServiceEvent ℚ) : Option (Service ℚ) :=
  if e.Names address then none else s.step e

/-- The realm daemon is given a message of the proxy. -/
def receive (stale : UInt8) (s : Service ℚ) (m : Message) : Option (Service ℚ) :=
  s.step (m.toEvent stale)

end Shutdown

/-- A proxy, the channel and the realm daemon. -/
abbrev System := FifoChannel.State Process (Service ℚ)

/-- What happens to one of them, or between them. -/
abbrev SystemEvent := FifoChannel.Event ProcessEvent (ServiceEvent ℚ) UInt8

/-- The start: the threads of the proxy are activated, and the realm daemon is at its own. -/
def System.init (service : ProxyService) (netThreads : ℕ) : System where
  sender := Process.init service netThreads
  delivered := 0
  receiver := Service.init

/-- One step of the three. -/
def System.step (address : List UInt8) : System → SystemEvent → Option System :=
  FifoChannel.step Process.step Process.sent (Shutdown.other address) Shutdown.receive

/-- The state a sequence of events takes the three to. -/
def systemRun (service : ProxyService) (netThreads : ℕ) (es : List SystemEvent) : Option System :=
  Runs.run (System.step service.bindAddr) (System.init service netThreads) es

/-- The proxy has stopped: `stop` is finished, and all threads have left `svc`. -/
def Proxyd.Process.Stopped (p : Process) : Prop :=
  p.stop = .finished ∧ ∀ pc ∈ p.threads, pc = .left

/-! ### Taking leave -/

namespace Shutdown

variable {address : List UInt8} {s s' : Service ℚ}

/-- A shutdown leaves no entry of the address. -/
theorem notMem_of_receive_shutdowned {stale : UInt8} {proxy : ProxyShutdowned}
    (h : receive stale s (.shutdowned proxy) = some s') : proxy.address ∉ s'.addresses := by
  rw [receive, Message.toEvent, Service.step] at h
  obtain ⟨-, rfl⟩ := Service.deleteProxy_eq_some_iff.mp h
  rw [Service.mem_addresses]
  rintro ⟨entry, hentry, hip⟩
  exact of_decide_eq_true (List.mem_filter.mp hentry).2 hip

/-- Nobody else enters the address. -/
theorem notMem_of_other {e : ServiceEvent ℚ} (hnot : address ∉ s.addresses)
    (h : other address s e = some s') : address ∉ s'.addresses := by
  rw [other] at h
  split at h
  · cases h
  · next hother =>
    rcases e with res | ⟨announce, stale⟩ | proxy
    · rcases res with _ | res
      · obtain rfl := Option.some.inj h
        exact hnot
      · obtain ⟨t, ht, hnil, -⟩ := s.updateRealms_some res
        obtain rfl := Option.some.inj (ht.symm.trans h)
        simp [Service.addresses, hnil]
    · rcases s.processProxyAnnounce_cases announce stale with
        ⟨-, heq⟩ | ⟨-, -, heq⟩ | ⟨-, -, heq⟩ | ⟨-, -, heq⟩ <;>
        obtain rfl := Option.some.inj (heq.symm.trans h)
      · exact hnot
      · rw [(s.addresses_addProxy _ _ _).mem_iff, List.mem_cons, not_or]
        exact ⟨fun heq => hother heq.symm, hnot⟩
      · rwa [Service.addresses_updateProxyLoad]
      · exact fun hmem => hnot ((s.addresses_filter_sublist _ _).subset hmem)
    · obtain ⟨-, rfl⟩ := Service.deleteProxy_eq_some_iff.mp h
      exact fun hmem => hnot ((s.addresses_filter_sublist _ s.requests).subset hmem)

/-! ### A realm daemon that is told of nobody else -/

/-- The realm is known, and has no proxies but the one. -/
structure Alone (address : List UInt8) (realmId : UInt8) (s : Service ℚ) : Prop where
  known : realmId ∈ s.realmIds
  entries : ∀ entry ∈ s.proxies, entry.1 = realmId ∧ entry.2.ip = address

variable {realmId : UInt8} {m : Message}

/-- The announcement of the one is entered, or brings its load up to date. -/
theorem Alone.receive_announce (stale : UInt8) (h : Alone address realmId s)
    (hm : m.Announces address realmId) :
    ∃ s', receive stale s m = some s' ∧ Alone address realmId s' ∧ address ∈ s'.addresses := by
  obtain ⟨load, rfl⟩ := hm
  have hrealm :
      ({ realmId := realmId.toUInt16, address, load } : ProxyAnnounce ℚ).realm = realmId :=
    UInt8.toNat_inj.mp (by simp [ProxyAnnounce.realm])
  have hcases := s.processProxyAnnounce_cases
    { realmId := realmId.toUInt16, address, load } stale
  rw [hrealm] at hcases
  rcases hcases with ⟨hunknown, -⟩ | ⟨-, -, heq⟩ | ⟨-, ⟨entry, hentry, hip, -⟩, heq⟩ |
    ⟨-, ⟨entry, hentry, -, hother⟩, -⟩
  · exact absurd h.known hunknown
  · refine ⟨s.addProxy realmId address load, heq, ⟨h.known, ?_⟩, ?_⟩
    · intro entry hentry
      rcases List.mem_cons.mp ((List.perm_orderedInsert _ _ _).mem_iff.mp hentry) with rfl | hold
      · exact ⟨rfl, rfl⟩
      · exact h.entries entry hold
    · rw [(s.addresses_addProxy _ _ _).mem_iff]
      exact List.mem_cons_self
  · refine ⟨s.updateProxyLoad address load, heq, ⟨h.known, ?_⟩, ?_⟩
    · intro entry' hentry'
      have hkeys := Service.map_key_updateLoadLoop address load s.proxies
      obtain ⟨old, hold, hkey⟩ := List.mem_map.mp (hkeys ▸ List.mem_map_of_mem hentry' :
        (entry'.1, entry'.2.ip) ∈ s.proxies.map fun entry => (entry.1, entry.2.ip))
      obtain ⟨hrealm', hip'⟩ := Prod.mk.inj hkey
      rw [← hrealm', ← hip']
      exact h.entries old hold
    · rw [Service.addresses_updateProxyLoad]
      exact Service.mem_addresses.mpr ⟨entry, hentry, hip⟩
  · exact absurd (h.entries entry hentry).1 hother

/-- Its shutdown takes it away. -/
theorem Alone.receive_shutdowned (stale : UInt8) (h : Alone address realmId s)
    (hmem : address ∈ s.addresses) :
    ∃ s', receive stale s (.shutdowned { address }) = some s' ∧ Alone address realmId s' := by
  refine ⟨{ s with proxies := s.proxies.filter fun entry => entry.2.ip ≠ address },
    Service.deleteProxy_eq_some_iff.mpr ⟨hmem, rfl⟩, h.known, ?_⟩
  intro entry hentry
  exact h.entries entry (List.mem_filter.mp hentry).1

/-- Any number of announcements. -/
theorem Alone.run_announces (stale : UInt8) (h : Alone address realmId s) {ms : List Message}
    (hms : ∀ m ∈ ms, m.Announces address realmId) :
    ∃ s', Runs.run (receive stale) s ms = some s' ∧ Alone address realmId s' ∧
      (ms ≠ [] → address ∈ s'.addresses) := by
  induction ms generalizing s with
  | nil => exact ⟨s, rfl, h, fun hne => absurd rfl hne⟩
  | cons m ms ih =>
    obtain ⟨s₁, hs₁, h₁, hmem⟩ := h.receive_announce stale (hms m List.mem_cons_self)
    obtain ⟨s', hrun, h', hlast⟩ := ih h₁ fun m hm => hms m (List.mem_cons_of_mem _ hm)
    refine ⟨s', by rw [Runs.run_cons_of_step hs₁, hrun], h', fun _ => ?_⟩
    rcases ms with _ | ⟨m', ms⟩
    · obtain rfl := Option.some.inj hrun
      exact hmem
    · exact hlast (List.cons_ne_nil _ _)

/-- The answer to the query of the realm list, with one realm. -/
def realmlist (realmId : UInt8) : RealmlistResult where
  res := { engine := .mysql, numFields := 8, rows := [[.integer 4 realmId.toNat]] }
  fresh := rfl
  columns := rfl

theorem ids_realmlist (realmId : UInt8) : (realmlist realmId).ids = [realmId] := by
  have hcolumns : 1 ≤ (realmlist realmId).res.next.2.numFields := Nat.le_add_left 1 7
  have hrow : (realmlist realmId).res.next.2.ReadsRow [.integer 4 realmId.toUInt32.toNat] :=
    ResultSet.readsRow_of_mysql rfl rfl rfl hcolumns
      (List.forall_mem_singleton.mpr ⟨_, rfl, realmId.toUInt32.toNat_lt⟩)
  have hid : (realmlist realmId).res.next.2.getUint32 1 = some realmId.toUInt32 :=
    ResultSet.getUint32_of_readsAs (hrow 0 _ rfl)
  obtain ⟨realm, hread⟩ : ∃ realm, Service.readRealm (realmlist realmId).res.next.2 =
      ((realmlist realmId).res.next.2.getUint32 1).bind fun id => some (id, realm) := ⟨_, rfl⟩
  have hloop : Service.realmsLoop (realmlist realmId).res.rows.length (realmlist realmId).res =
      (Service.readRealm (realmlist realmId).res.next.2).bind fun row => some [row] := rfl
  rw [RealmlistResult.ids, hloop, hread, hid]
  refine congrArg (fun id => [id]) (UInt8.toNat_inj.mp ?_)
  simp

theorem alone_realmlist (address : List UInt8) (realmId : UInt8) :
    ∃ s, other address Service.init (.updateRealms (some (realmlist realmId))) = some s ∧
      Alone address realmId s := by
  obtain ⟨s, hs, hnil, hids⟩ := (Service.init : Service ℚ).updateRealms_some (realmlist realmId)
  refine ⟨s, ?_, ?_, ?_⟩
  · rw [other, if_neg (by rw [ServiceEvent.Names]; exact not_false)]
    exact hs
  · rw [hids]
    exact Or.inr (by rw [ids_realmlist]; exact List.mem_cons_self)
  · rw [hnil]
    intro entry hentry
    cases hentry

end Shutdown

/-! ### Every run -/

variable {service : ProxyService} {netThreads : ℕ}

/-- The realm daemon has no entry of a proxy whose last word was that it leaves, when it
has been told everything. -/
theorem notMem_of_lastWord {es : List SystemEvent} {s : System} {front : List Message}
    {proxy : ProxyShutdowned} (hrun : systemRun service netThreads es = some s)
    (hlast : s.sender.sent = front ++ [.shutdowned proxy])
    (haddress : proxy.address = service.bindAddr)
    (hdelivered : s.delivered = s.sender.sent.length) :
    service.bindAddr ∉ s.receiver.addresses := by
  have hgone := FifoChannel.last_delivered
    (C := fun m => m = Message.shutdowned proxy) (Q := fun s => service.bindAddr ∉ s.addresses)
    ?_ ?_ ?_ (by rfl) hrun
  · refine hgone.2 (.shutdowned proxy) ?_ rfl
    rw [hdelivered, List.take_length, hlast, List.getLast?_concat]
  · intro p e p' hstep
    cases Process.says_of_step hstep with
    | nothing _ _ _ hsent => exact ⟨[], hsent.trans (List.append_nil _).symm⟩
    | announce _ _ hsent => exact ⟨_, hsent⟩
    | shutdowned _ _ _ _ _ hsent => exact ⟨_, hsent⟩
  · rintro stale r m r' rfl hreceive
    exact haddress ▸ Shutdown.notMem_of_receive_shutdowned hreceive
  · intro r e r' hnot hother
    exact Shutdown.notMem_of_other hnot hother

/-- Of a proxy that has announced itself after it left, the realm daemon can have an
entry when it has been told everything: it only needs to know the realm. -/
theorem exists_run_of_speaksAgain {ps : List ProcessEvent} {p : Process}
    (hrun : processRun service netThreads ps = some p) (hagain : p.SpeaksAgain) :
    ∃ es s, systemRun service netThreads es = some s ∧
      es.filterMap FifoChannel.Event.send? = ps ∧ s.delivered = s.sender.sent.length ∧
      service.bindAddr ∈ s.receiver.addresses := by
  obtain ⟨hstop, front', announce, hlast⟩ := hagain
  obtain ⟨front, rest, hne, hfront, hrest, hsent⟩ := (Process.said_run hrun).after hstop
  have hrest_ne : rest ≠ [] := by
    rintro rfl
    have hlast' := congrArg List.getLast? (hsent.symm.trans hlast)
    simp at hlast'
  obtain ⟨s₀, hs₀, halone₀⟩ := Shutdown.alone_realmlist service.bindAddr service.realmId
  obtain ⟨s₁, hs₁, halone₁, hmem₁⟩ := halone₀.run_announces 0 hfront
  obtain ⟨s₂, hs₂, halone₂⟩ := halone₁.receive_shutdowned 0 (hmem₁ hne)
  obtain ⟨s₃, hs₃, -, hmem₃⟩ := halone₂.run_announces 0 hrest
  have hreceive : Runs.run (Shutdown.receive 0) s₀ p.sent = some s₃ := by
    rw [hsent, Runs.run_append_of_run hs₁, Runs.run_cons_of_step hs₂, hs₃]
  -- the proxy first, the realm list then, and all messages at the end
  have hsend : Runs.run (System.step service.bindAddr) (System.init service netThreads)
      (ps.map FifoChannel.Event.send) = some { System.init service netThreads with sender := p } :=
    FifoChannel.run_send hrun
  have hlist : System.step service.bindAddr { System.init service netThreads with sender := p }
      (.other (.updateRealms (some (Shutdown.realmlist service.realmId)))) =
      some { sender := p, delivered := 0, receiver := s₀ } := by
    rw [System.step, FifoChannel.step]
    exact congrArg (Option.map _) hs₀
  have hdeliver : Runs.run (System.step service.bindAddr)
      { sender := p, delivered := 0, receiver := s₀ }
      (List.replicate (p.sent.length - 0) (.deliver 0)) =
      some { sender := p, delivered := max 0 p.sent.length, receiver := s₃ } :=
    FifoChannel.run_deliver 0 hreceive
  refine ⟨ps.map FifoChannel.Event.send ++
    .other (.updateRealms (some (Shutdown.realmlist service.realmId))) ::
      List.replicate (p.sent.length - 0) (.deliver 0),
    { sender := p, delivered := max 0 p.sent.length, receiver := s₃ }, ?_, ?_, ?_, hmem₃ hrest_ne⟩
  · rw [systemRun, Runs.run_append_of_run hsend, Runs.run_cons_of_step hlist, hdeliver]
  · refine FifoChannel.filterMap_send?_map_send ps ?_
    intro e he
    rcases List.mem_cons.mp he with rfl | he
    · rfl
    · rw [List.eq_of_mem_replicate he]
      rfl
  · exact Nat.max_eq_right (Nat.zero_le _)

/-- **A stopped proxy is gone.** For every number of threads and every order of the steps of
the threads, of `start` and of `stop` with which the proxy has stopped, the realm daemon has
no entry of its address when all its messages are delivered, whatever else the realm daemon
was told and when, if and only if no thread announced the proxy after `stop` had taken
leave. -/
theorem stopped_proxy_gone_iff {ps : List ProcessEvent} {p : Process}
    (hrun : processRun service netThreads ps = some p) (hstopped : p.Stopped) :
    (∀ es s, systemRun service netThreads es = some s →
      es.filterMap FifoChannel.Event.send? = ps → s.delivered = s.sender.sent.length →
      service.bindAddr ∉ s.receiver.addresses) ↔
      ∀ i q e q', Runs.StepAt Process.step (Process.init service netThreads) ps i q e q' →
        e.announces = true → q.stop = .notCalled := by
  have hstop : p.stop ≠ .notCalled := by
    rw [hstopped.1]
    simp
  rw [← Process.lastWord_iff hrun hstop]
  constructor
  · intro hgone
    by_contra hlast
    have hagain : p.SpeaksAgain := by
      refine ⟨hstop, ?_⟩
      obtain ⟨front, rest, -, -, hrest, hsent⟩ := (Process.said_run hrun).after hstop
      rcases List.eq_nil_or_concat rest with rfl | ⟨rest, m, rfl⟩
      · exact absurd ⟨front, _, hsent⟩ hlast
      · obtain ⟨load, rfl⟩ := hrest m (by simp)
        refine ⟨front ++ .shutdowned { address := service.bindAddr } :: rest,
          { realmId := service.realmId.toUInt16, address := service.bindAddr, load }, ?_⟩
        rw [hsent, List.concat_eq_append, List.append_assoc, List.cons_append]
    obtain ⟨es, s, hes, hsend, hdelivered, hmem⟩ := exists_run_of_speaksAgain hrun hagain
    exact hgone es s hes hsend hdelivered hmem
  · rintro ⟨front, proxy, hlast⟩ es s hes hsend hdelivered
    have hsender := FifoChannel.run_sender hes
    rw [hsend] at hsender
    obtain rfl : p = s.sender := Option.some.inj (hrun.symm.trans hsender)
    exact notMem_of_lastWord hes hlast ((Process.said_run hrun).address_of_lastWord hstop hlast)
      hdelivered

namespace ShutdownSample

/-- A proxy of the realm 1. -/
def proxy : ProxyService := ProxyService.start 10 1 [97]

/-- A proxy with one thread, which is at `work_pending` when `stop` is called. -/
def quiet : List ProcessEvent :=
  [.announce, .scheduleTimer 0, .test 0, .handled 0 none, .shutdowned, .clear, .close, .idle 0,
    .test 0]

/-- A proxy with one thread, in which the timer expires after `stop` has taken leave. -/
def late : List ProcessEvent :=
  [.announce, .scheduleTimer 0, .test 0, .shutdowned, .timeout 0 0, .clear, .close, .idle 0,
    .test 0]

/-- The proxy stops, the realm daemon learns its realms, and everything is delivered. -/
def events (ps : List ProcessEvent) (messages : ℕ) : List SystemEvent :=
  ps.map FifoChannel.Event.send ++
    .other (.updateRealms (some (Shutdown.realmlist 1))) :: List.replicate messages (.deliver 0)

end ShutdownSample

open ShutdownSample

/-- The quiet proxy is gone. -/
theorem stopped_proxy_gone_quiet :
    proxy.bindAddr ∉
      ((systemRun proxy 1 (events quiet 2)).getD (System.init proxy 1)).receiver.addresses := by
  have hrun : processRun proxy 1 quiet =
      some ((processRun proxy 1 quiet).getD (Process.init proxy 1)) := rfl
  have hlast := (Process.lastWord_iff hrun (by decide)).mp
    ⟨[.announce proxy.announce], proxy.shutdowned, rfl⟩
  exact (stopped_proxy_gone_iff hrun ⟨rfl, by decide⟩).mpr hlast (events quiet 2) _ rfl rfl rfl

/-- **A timer that expires late**: the proxy has stopped, all its messages are delivered, and
the realm daemon has an entry of it. -/
theorem stopped_proxy_stays :
    ∃ s, systemRun proxy 1 (events late 3) = some s ∧ s.sender.Stopped ∧
      s.delivered = s.sender.sent.length ∧
      proxy.bindAddr ∈ s.receiver.addresses :=
  ⟨(systemRun proxy 1 (events late 3)).getD (System.init proxy 1),
    rfl, ⟨rfl, by decide⟩, rfl, by decide⟩

end Morfeusz
