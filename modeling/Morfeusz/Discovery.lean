import Mathlib.Logic.Function.Basic
import Morfeusz.Shutdown

/-!
# The realm daemon and all of its proxies

Any number of proxies, the event channel and the realm daemon. A proxy announces itself when it
is started, whenever its timer expires and whenever it is asked; the realm daemon forgets all
proxies when the list of realms is loaded, and asks those of every realm. The channel delivers
to the realm daemon what each proxy has pushed, in the order in which it was pushed, and to
every proxy that is connected what the realm daemon has asked for; between deliveries anything
may happen, and proxies may end, be killed and be started again.

Whatever was forgotten is told again: when nothing is under way, every proxy that runs has an
entry, of its realm and with the load it announced last
(`Morfeusz.running_proxies_registered`).
-/

namespace Morfeusz

open Realmd Proxyd

variable {ι : Type}

/-- How a proxy is configured: its service after `start`, and the threads it activates. -/
structure Installation where
  service : ProxyService
  netThreads : ℕ

/-- The proxies that run, what is under way, and the realm daemon. -/
structure Network (ι : Type) where
  procs : ι → Option Process
  /-- What each proxy has pushed and the realm daemon has not been given, oldest first. -/
  outbox : ι → List Message
  /-- The requests each proxy has not taken, since it is connected, oldest first. -/
  inbox : ι → List UInt8
  realmd : Service ℚ

/-- What can happen. -/
inductive NetworkEvent (ι : Type)
  /-- A proxy is started: it connects to the event channel and activates its threads. -/
  | launch (i : ι)
  /-- A proxy ends, or is killed. -/
  | exit (i : ι)
  /-- A step of a proxy that is not the arrival of a request. -/
  | proc (i : ι) (e : ProcessEvent)
  /-- A thread of a proxy is given the next request. -/
  | take (i : ι) (thread : ℕ)
  /-- The realm daemon is given the next message of a proxy. -/
  | deliver (i : ι) (stale : UInt8)
  | updateRealms (res : Option RealmlistResult)

/-- The step in which a request arrives. -/
def Proxyd.ProcessEvent.isRequest : ProcessEvent → Bool
  | .request _ _ => true
  | _ => false

namespace Network

/-- Nobody has been started. -/
def init : Network ι where
  procs := fun _ => none
  outbox := fun _ => []
  inbox := fun _ => []
  realmd := .init

/-- A step of the realm daemon: what it asks for goes to every proxy that is connected. -/
def realmdStep (n : Network ι) (e : ServiceEvent ℚ) : Option (Network ι) :=
  (n.realmd.step e).map fun realmd =>
    { n with
      realmd
      inbox := fun i =>
        if (n.procs i).isSome then n.inbox i ++ realmd.requests.drop n.realmd.requests.length
        else n.inbox i }

variable [DecidableEq ι]

/-- A step of a proxy: what it pushes is under way. -/
def procStep (n : Network ι) (i : ι) (e : ProcessEvent) : Option (Network ι) := do
  let p ← n.procs i
  let p' ← p.step e
  some
    { n with
      procs := Function.update n.procs i (some p')
      outbox := Function.update n.outbox i (n.outbox i ++ p'.sent.drop p.sent.length) }

variable (config : ι → Installation)

/-- One step of all of them. -/
def step (n : Network ι) : NetworkEvent ι → Option (Network ι)
  | .launch i =>
    if (n.procs i).isNone then
      some
        { n with
          procs := Function.update n.procs i
            (some (.init (config i).service (config i).netThreads))
          inbox := Function.update n.inbox i [] }
    else none
  | .exit i =>
    if (n.procs i).isSome then
      some
        { n with
          procs := Function.update n.procs i none
          inbox := Function.update n.inbox i [] }
    else none
  | .proc i e => if e.isRequest then none else n.procStep i e
  | .take i thread =>
    match n.inbox i with
    | [] => none
    | id :: rest =>
      { n with inbox := Function.update n.inbox i rest }.procStep i (.request thread id.toUInt16)
  | .deliver i stale =>
    match n.outbox i with
    | [] => none
    | m :: rest =>
      { n with outbox := Function.update n.outbox i rest }.realmdStep (m.toEvent stale)
  | .updateRealms res => n.realmdStep (.updateRealms res)

end Network

/-- The state a sequence of events takes all of them to. -/
def networkRun [DecidableEq ι] (config : ι → Installation) (es : List (NetworkEvent ι)) :
    Option (Network ι) :=
  Runs.run (Network.step config) Network.init es

namespace Network

variable (config : ι → Installation)

/-! ### What holds all the time -/

/-- The realm daemon knows what it was told, and what it was told is true. -/
structure Truthful (n : Network ι) (r : Roster ℚ) : Prop where
  refines : n.realmd.Refines r
  owned : ∀ ip realm load, r.live ip = some (realm, load) → r.known realm = true ∧
    ∃ i, ip = (config i).service.bindAddr ∧ realm = (config i).service.realmId
  speaks : ∀ i, ∀ m ∈ n.outbox i,
    m.Announces (config i).service.bindAddr (config i).service.realmId ∨
      m = .shutdowned { address := (config i).service.bindAddr }
  said : ∀ i p, n.procs i = some p →
    p.Said (config i).service.bindAddr (config i).service.realmId
  last : ∀ i p, n.procs i = some p → p.sent ≠ [] → n.outbox i ≠ [] →
    (n.outbox i).getLast? = p.sent.getLast?

/-- A proxy that has announced itself and has not taken leave. -/
def Stands (n : Network ι) (i : ι) (p : Process) : Prop :=
  n.procs i = some p ∧ p.stop = .notCalled ∧ p.sent ≠ []

/-- A proxy is accounted for: something it has pushed is under way, or its last announcement is
in the registry, or it will be asked, or is about to answer. -/
inductive Accounted (n : Network ι) (r : Roster ℚ) (i : ι) (p : Process) : Prop
  | underWay (h : n.outbox i ≠ [])
  | registered (announce : ProxyAnnounce ℚ) (hlast : p.sent.getLast? = some (.announce announce))
      (hlive : r.live (config i).service.bindAddr =
        some ((config i).service.realmId, announce.load))
  | asked (h : (config i).service.realmId ∈ n.inbox i)
  | answering (h : .requested ∈ p.threads)

/-- **No proxy is lost**: each that stands is accounted for, where its realm is known. -/
def Complete (n : Network ι) (r : Roster ℚ) : Prop :=
  ∀ i p, n.Stands i p → r.known (config i).service.realmId = true → n.Accounted config r i p

variable {config} {n n' : Network ι} {r : Roster ℚ} {i : ι} {p : Process}

theorem truthful_init : (init : Network ι).Truthful config .init where
  refines := Service.refines_init
  owned _ _ _ h := nomatch h
  speaks _ _ h := nomatch h
  said _ _ h := nomatch h
  last _ _ h := nomatch h

theorem complete_init : (init : Network ι).Complete config .init :=
  fun _ _ hstands => nomatch hstands.1

/-! ### A step of a proxy -/

theorem exists_of_procStep [DecidableEq ι] {e : ProcessEvent} (h : n.procStep i e = some n') :
    ∃ p p', n.procs i = some p ∧ p.step e = some p' ∧
      n' = { n with
        procs := Function.update n.procs i (some p')
        outbox := Function.update n.outbox i (n.outbox i ++ p'.sent.drop p.sent.length) } := by
  obtain ⟨p, hp, h⟩ := Option.bind_eq_some_iff.mp h
  obtain ⟨p', hp', h⟩ := Option.bind_eq_some_iff.mp h
  exact ⟨p, p', hp, hp', (Option.some.inj h).symm⟩

/-- What a step of a proxy puts under way: nothing, or the one message that it says. -/
inductive Pushes (bindAddr : List UInt8) (realmId : UInt8) (p : Process) (e : ProcessEvent)
    (p' : Process) : Prop
  | nothing (hquiet : e.announces = false) (hsent : p'.sent = p.sent)
      (hstop : p'.stop = .notCalled ↔ p.stop = .notCalled)
  | announce (m : Message) (hannounces : e.announces = true) (hm : m.Announces bindAddr realmId)
      (hsent : p'.sent = p.sent ++ [m]) (hstop : p'.stop = .notCalled ↔ p.stop = .notCalled)
  | shutdowned (hsent : p'.sent = p.sent ++ [.shutdowned { address := bindAddr }])
      (hstop : p'.stop ≠ .notCalled)

theorem pushes_of_step {bindAddr : List UInt8} {realmId : UInt8} {p p' : Process}
    {e : ProcessEvent} (h : p.Said bindAddr realmId) (hstep : p.step e = some p') :
    Pushes bindAddr realmId p e p' := by
  have hbind := h.address
  have hrealm := h.realm
  subst hbind hrealm
  cases Process.says_of_step hstep with
  | nothing hquiet hframe _ hsent => exact .nothing hquiet hsent hframe.stop
  | announce hannounces hframe hsent =>
    exact .announce _ hannounces ⟨p.service.load, rfl⟩ hsent hframe.stop
  | shutdowned _ _ _ _ hstop hsent => exact .shutdowned hsent hstop

theorem Truthful.procStep [DecidableEq ι] {e : ProcessEvent} (h : n.Truthful config r)
    (hstep : n.procStep i e = some n') : n'.Truthful config r := by
  obtain ⟨p, p', hp, hp', rfl⟩ := exists_of_procStep hstep
  have hsaid := h.said i p hp
  have hpushes := pushes_of_step hsaid hp'
  refine ⟨h.refines, h.owned, ?_, ?_, ?_⟩
  · intro j m hm
    dsimp only at hm
    rcases eq_or_ne j i with rfl | hne
    · rw [Function.update_self] at hm
      cases hpushes with
      | nothing _ hsent =>
        rw [hsent, List.drop_length, List.append_nil] at hm
        exact h.speaks j m hm
      | announce m' _ hm' hsent =>
        rw [hsent, List.drop_left, List.mem_append, List.mem_singleton] at hm
        rcases hm with hm | rfl
        · exact h.speaks j m hm
        · exact Or.inl hm'
      | shutdowned hsent =>
        rw [hsent, List.drop_left, List.mem_append, List.mem_singleton] at hm
        rcases hm with hm | rfl
        · exact h.speaks j m hm
        · exact Or.inr rfl
    · rw [Function.update_of_ne hne] at hm
      exact h.speaks j m hm
  · intro j q hq
    dsimp only at hq
    rcases eq_or_ne j i with rfl | hne
    · rw [Function.update_self] at hq
      obtain rfl := Option.some.inj hq
      exact hsaid.step hp'
    · rw [Function.update_of_ne hne] at hq
      exact h.said j q hq
  · intro j q hq hsent hout
    dsimp only at hq hout ⊢
    rcases eq_or_ne j i with rfl | hne
    · rw [Function.update_self] at hq hout ⊢
      obtain rfl := Option.some.inj hq
      cases hpushes with
      | nothing _ hsame =>
        rw [hsame, List.drop_length, List.append_nil] at hout ⊢
        exact h.last j p hp (hsame ▸ hsent) hout
      | announce m _ _ hsame =>
        rw [hsame, List.drop_left, List.getLast?_concat, List.getLast?_concat]
      | shutdowned hsame =>
        rw [hsame, List.drop_left, List.getLast?_concat, List.getLast?_concat]
    · rw [Function.update_of_ne hne] at hq hout ⊢
      exact h.last j q hq hsent hout

/-- A thread that moves from somewhere else leaves those alone that are about to answer. -/
theorem requested_of_move {p p' : Process} {k : ℕ} {here there : ThreadPc}
    (h : p.move k here there = some p') (hne : here ≠ .requested)
    (hmem : .requested ∈ p.threads) : .requested ∈ p'.threads := by
  rw [Process.move, Option.ite_none_right_eq_some] at h
  obtain ⟨hhere, rfl⟩ := h.imp_right Option.some.inj
  obtain ⟨l, hl⟩ := List.mem_iff_getElem?.mp hmem
  have hkl : k ≠ l := by
    rintro rfl
    exact hne (Option.some.inj (hhere.symm.trans hl))
  exact List.mem_iff_getElem?.mpr ⟨l, by rw [List.getElem?_set_ne hkl, hl]⟩

/-- **A thread that is about to answer** goes on to be where nothing is announced. -/
theorem requested_of_step {p p' : Process} {e : ProcessEvent} (h : p.step e = some p')
    (hquiet : e.announces = false) (hmem : .requested ∈ p.threads) : .requested ∈ p'.threads := by
  cases e with
  | announce => cases hquiet
  | timeout _ _ => cases hquiet
  | answer _ => cases hquiet
  | scheduleTimer id =>
    rw [Process.step, Option.ite_none_right_eq_some] at h
    obtain rfl := Option.some.inj h.2
    exact hmem
  | test k => exact requested_of_move h (by decide) hmem
  | handled k change =>
    obtain ⟨q, hq, hchange⟩ := Option.bind_eq_some_iff.mp h
    have hmem := requested_of_move hq (by decide) hmem
    rcases change with _ | up
    · obtain rfl := Option.some.inj hchange
      exact hmem
    · obtain ⟨service, -, rfl⟩ := Option.map_eq_some_iff.mp hchange
      exact hmem
  | request k realmId =>
    rw [Process.step] at h
    split at h
    · obtain ⟨q, hq, rfl⟩ := Option.map_eq_some_iff.mp h
      have hmem := requested_of_move hq (by decide) hmem
      rw [Process.cancelTimer]
      split <;> exact hmem
    · exact requested_of_move h (by decide) hmem
  | restartTimer k id =>
    rw [Process.step] at h
    split at h
    · exact requested_of_move h (by decide) hmem
    · obtain ⟨q, hq, rfl⟩ := Option.map_eq_some_iff.mp (Option.ite_none_right_eq_some.mp h).2
      have hmem := requested_of_move hq (by decide) hmem
      exact hmem
  | idle k => exact requested_of_move h (by decide) hmem
  | shutdowned =>
    rw [Process.step, Option.ite_none_right_eq_some] at h
    obtain rfl := Option.some.inj h.2
    exact hmem
  | clear =>
    rw [Process.step, Option.ite_none_right_eq_some] at h
    obtain rfl := Option.some.inj h.2
    exact hmem
  | close =>
    rw [Process.step, Option.ite_none_right_eq_some] at h
    obtain rfl := Option.some.inj h.2
    exact hmem

/-- A request for its own realm is about to be answered. -/
theorem requested_of_request {p p' : Process} {k : ℕ} {realmId : UInt16}
    (h : p.step (.request k realmId) = some p') (hrealm : realmId = p.service.realmId.toUInt16) :
    .requested ∈ p'.threads := by
  rw [Process.step, if_pos hrealm] at h
  obtain ⟨q, hq, rfl⟩ := Option.map_eq_some_iff.mp h
  rw [Process.move, Option.ite_none_right_eq_some] at hq
  obtain ⟨hhere, rfl⟩ := hq.imp_right Option.some.inj
  have hlt := (List.getElem?_eq_some_iff.mp hhere).1
  have hmem : ThreadPc.requested ∈ p.threads.set k .requested :=
    List.mem_iff_getElem?.mpr ⟨k, List.getElem?_set_self hlt⟩
  rw [Process.cancelTimer]
  split <;> exact hmem

/-- What is said of a proxy that is not the one that steps. -/
theorem Accounted.congr {q : Process} {j : ι} (h : n.Accounted config r j q)
    (hout : n'.outbox j = n.outbox j) (hin : n'.inbox j = n.inbox j) :
    n'.Accounted config r j q := by
  cases h with
  | underWay h => exact .underWay (hout ▸ h)
  | registered announce hlast hlive => exact .registered announce hlast hlive
  | asked h => exact .asked (hin ▸ h)
  | answering h => exact .answering h

/-- **A step of a proxy loses nobody**: what accounts for the proxy that steps goes on to, or
is a message under way. `n₀` is the state before a request was taken. -/
theorem Complete.procStep [DecidableEq ι] {n₀ : Network ι} {e : ProcessEvent}
    (h : n₀.Complete config r) (htruth : n.Truthful config r) (hprocs : n.procs = n₀.procs)
    (hout : n.outbox = n₀.outbox) (hin : ∀ j, j ≠ i → n.inbox j = n₀.inbox j)
    (htaken : ∀ p p', n.procs i = some p → p.step e = some p' →
      (config i).service.realmId ∈ n₀.inbox i →
      (config i).service.realmId ∈ n.inbox i ∨ .requested ∈ p'.threads)
    (hstep : n.procStep i e = some n') : n'.Complete config r := by
  obtain ⟨p, p', hp, hp', rfl⟩ := exists_of_procStep hstep
  rintro j q ⟨hq, hstop, hsent⟩ hknown
  dsimp only at hq
  rcases eq_or_ne j i with rfl | hne
  · rw [Function.update_self] at hq
    obtain rfl := Option.some.inj hq
    -- a message that is pushed is under way, and else nothing was said
    have hpushed : ∀ m, p'.sent = p.sent ++ [m] →
        Accounted config { n with
          procs := Function.update n.procs j (some p')
          outbox := Function.update n.outbox j (n.outbox j ++ p'.sent.drop p.sent.length) }
          r j p' := by
      intro m hm
      refine .underWay ?_
      dsimp only
      rw [Function.update_self, hm, List.drop_left]
      exact List.append_ne_nil_of_right_ne_nil _ (List.cons_ne_nil _ _)
    cases pushes_of_step (htruth.said j p hp) hp' with
    | announce m _ _ hsame => exact hpushed m hsame
    | shutdowned hsame => exact hpushed _ hsame
    | nothing hquiet hsame hstop' =>
      have hold := h j p ⟨hprocs ▸ hp, hstop'.mp hstop, hsame ▸ hsent⟩ hknown
      cases hold with
      | underWay hne =>
        refine .underWay ?_
        dsimp only
        rw [Function.update_self]
        exact List.append_ne_nil_of_left_ne_nil (hout ▸ hne) _
      | registered announce hlast hlive => exact .registered announce (hsame ▸ hlast) hlive
      | asked hmem =>
        rcases htaken p p' hp hp' hmem with hmem | hmem
        · exact .asked hmem
        · exact .answering hmem
      | answering hmem => exact .answering (requested_of_step hp' hquiet hmem)
  · rw [Function.update_of_ne hne] at hq
    have hold := h j q ⟨hprocs ▸ hq, hstop, hsent⟩ hknown
    refine hold.congr ?_ (hin j hne)
    dsimp only
    rw [Function.update_of_ne hne, hout]

/-! ### A step of the realm daemon -/

theorem realm_toUInt16 (realmId : UInt8) (address : List UInt8) (load : ℚ) :
    ({ realmId := realmId.toUInt16, address, load } : ProxyAnnounce ℚ).realm = realmId :=
  UInt8.toNat_inj.mp (by simp [ProxyAnnounce.realm])

theorem exists_of_realmdStep {e : ServiceEvent ℚ} (h : n.realmdStep e = some n') :
    ∃ s, n.realmd.step e = some s ∧ n'.realmd = s ∧ n'.procs = n.procs ∧ n'.outbox = n.outbox ∧
      (∀ j x, x ∈ n.inbox j → x ∈ n'.inbox j) ∧
      ∀ j, (n.procs j).isSome →
        n'.inbox j = n.inbox j ++ s.requests.drop n.realmd.requests.length := by
  obtain ⟨s, hs, rfl⟩ := Option.map_eq_some_iff.mp h
  refine ⟨s, hs, rfl, rfl, rfl, ?_, ?_⟩
  · intro j x hx
    dsimp only
    split
    · exact List.mem_append_left _ hx
    · exact hx
  · intro j hj
    dsimp only
    rw [if_pos hj]

/-- What a message of a proxy means to what is known of the others: nothing. -/
theorem live_step_of_ne {m : Message} {bindAddr : List UInt8} {realmId : UInt8} {stale : UInt8}
    (hm : m.Announces bindAddr realmId ∨ m = .shutdowned { address := bindAddr })
    {ip : List UInt8} (hip : ip ≠ bindAddr) :
    (r.step (m.toEvent stale)).live ip = r.live ip := by
  rcases hm with ⟨load, rfl⟩ | rfl
  · rw [Message.toEvent, Roster.step]
    split
    · exact Roster.live_set_of_ne _ hip _
    · rfl
  · exact Roster.live_set_of_ne _ hip _

theorem known_step {m : Message} {stale : UInt8} : (r.step (m.toEvent stale)).known = r.known := by
  rcases m with announce | proxy
  · rw [Message.toEvent, Roster.step]
    split <;> rfl
  · rfl

/-- What its own message means. -/
theorem live_step_announce {bindAddr : List UInt8} {realmId stale : UInt8} {load : ℚ}
    (hknown : r.known realmId = true) :
    (r.step (Message.toEvent stale
      (.announce { realmId := realmId.toUInt16, address := bindAddr, load }))).live bindAddr =
      some (realmId, load) := by
  rw [Message.toEvent, Roster.step, realm_toUInt16, if_pos hknown]
  exact Roster.live_set_self _ _ _

theorem live_step_shutdowned {bindAddr : List UInt8} {stale : UInt8} :
    (r.step (Message.toEvent stale (.shutdowned { address := bindAddr }))).live bindAddr = none :=
  Roster.live_set_self _ _ _

/-- An entry of the proxy after one of its messages is of its realm, which is known. -/
theorem realm_of_live_step {m : Message} {bindAddr : List UInt8} {realmId stale : UInt8}
    (hm : m.Announces bindAddr realmId ∨ m = .shutdowned { address := bindAddr })
    (hold : ∀ realm load, r.live bindAddr = some (realm, load) →
      r.known realm = true ∧ realm = realmId)
    {realm : UInt8} {load : ℚ}
    (hlive : (r.step (m.toEvent stale)).live bindAddr = some (realm, load)) :
    r.known realm = true ∧ realm = realmId := by
  rcases hm with ⟨load', rfl⟩ | rfl
  · by_cases hknown : r.known realmId = true
    · rw [live_step_announce hknown] at hlive
      obtain ⟨rfl, -⟩ := Prod.mk.inj (Option.some.inj hlive)
      exact ⟨hknown, rfl⟩
    · rw [Message.toEvent, Roster.step, realm_toUInt16, if_neg hknown] at hlive
      exact hold realm load hlive
  · rw [live_step_shutdowned] at hlive
    cases hlive

section Delivery

variable {m : Message} {rest : List Message} {stale : UInt8}

/-- The address of a proxy is live for its realm only. -/
theorem Truthful.realm_of_live (h : n.Truthful config r)
    (hinj : Function.Injective fun i => (config i).service.bindAddr) {realm : UInt8} {load : ℚ}
    (hlive : r.live (config i).service.bindAddr = some (realm, load)) :
    realm = (config i).service.realmId := by
  obtain ⟨-, j, hip, hrealm⟩ := h.owned _ _ _ hlive
  obtain rfl : i = j := hinj hip
  exact hrealm

/-- **A message is delivered.** -/
theorem Truthful.deliver [DecidableEq ι] (h : n.Truthful config r)
    (hinj : Function.Injective fun i => (config i).service.bindAddr) (hout : n.outbox i = m :: rest)
    (hstep : realmdStep { n with outbox := Function.update n.outbox i rest } (m.toEvent stale) =
      some n') : n'.Truthful config (r.step (m.toEvent stale)) := by
  obtain ⟨s, hs, hrealmd, hprocs, houtbox, -, -⟩ := exists_of_realmdStep hstep
  dsimp only at hs hprocs houtbox
  have hm := h.speaks i m (by rw [hout]; exact List.mem_cons_self)
  refine ⟨?_, ?_, ?_, ?_, ?_⟩
  · have hrealm : ∀ msg stale', m.toEvent stale = .announce msg stale' →
        ∀ realm load, r.live msg.address = some (realm, load) → realm = msg.realm := by
      intro msg stale' heq realm load hlive
      rcases hm with ⟨load', rfl⟩ | rfl
      · obtain ⟨rfl, -⟩ := ServiceEvent.announce.inj heq
        rw [realm_toUInt16]
        exact h.realm_of_live hinj hlive
      · cases heq
    -- the realm daemon has survived, so there was an entry
    have hentry : ∀ proxy, m.toEvent stale = .shutdowned proxy → r.live proxy.address ≠ none := by
      intro proxy heq
      rw [heq] at hs
      exact h.refines.mem_addresses_iff.mp (Service.deleteProxy_eq_some_iff.mp hs).1
    obtain ⟨s', hs', href⟩ := h.refines.step hrealm hentry
    obtain rfl := Option.some.inj (hs.symm.trans hs')
    exact hrealmd ▸ href
  · intro ip realm load hlive
    rw [known_step]
    rcases eq_or_ne ip (config i).service.bindAddr with rfl | hip
    · obtain ⟨hknown, hrealm⟩ := realm_of_live_step hm
        (fun _ _ h' => ⟨(h.owned _ _ _ h').1, h.realm_of_live hinj h'⟩) hlive
      exact ⟨hknown, i, rfl, hrealm⟩
    · rw [live_step_of_ne hm hip] at hlive
      exact h.owned ip realm load hlive
  · intro j m' hm'
    rw [houtbox] at hm'
    rcases eq_or_ne j i with rfl | hne
    · rw [Function.update_self] at hm'
      exact h.speaks j m' (by rw [hout]; exact List.mem_cons_of_mem _ hm')
    · rw [Function.update_of_ne hne] at hm'
      exact h.speaks j m' hm'
  · intro j q hq
    exact h.said j q (hprocs ▸ hq)
  · intro j q hq hsent hne
    rw [houtbox] at hne ⊢
    have hlast := h.last j q (hprocs ▸ hq) hsent
    rcases eq_or_ne j i with rfl | hji
    · rw [Function.update_self] at hne ⊢
      rw [← hlast (by rw [hout]; exact List.cons_ne_nil _ _), hout,
        List.getLast?_cons_of_ne_nil hne]
    · rw [Function.update_of_ne hji] at hne ⊢
      exact hlast hne

/-- **A delivery loses nobody**: the last message of a proxy that stands is its last
announcement, which is then in the registry. -/
theorem Complete.deliver [DecidableEq ι] (hcomplete : n.Complete config r)
    (h : n.Truthful config r) (hinj : Function.Injective fun i => (config i).service.bindAddr)
    (hout : n.outbox i = m :: rest)
    (hstep : realmdStep { n with outbox := Function.update n.outbox i rest } (m.toEvent stale) =
      some n') : n'.Complete config (r.step (m.toEvent stale)) := by
  obtain ⟨s, -, -, hprocs, houtbox, hinbox, -⟩ := exists_of_realmdStep hstep
  dsimp only at hprocs houtbox hinbox
  have hm := h.speaks i m (by rw [hout]; exact List.mem_cons_self)
  rintro j q ⟨hq, hstop, hsent⟩ hknown
  rw [known_step] at hknown
  rw [hprocs] at hq
  have hold := hcomplete j q ⟨hq, hstop, hsent⟩ hknown
  rcases eq_or_ne j i with rfl | hne
  · rcases eq_or_ne rest [] with rfl | hrest
    · have hlast := h.last j q hq hsent (by rw [hout]; exact List.cons_ne_nil _ _)
      rw [hout, List.getLast?_singleton] at hlast
      obtain ⟨load, rfl⟩ := (h.said j q hq).before hstop m (List.mem_of_getLast? hlast.symm)
      exact .registered _ hlast.symm (live_step_announce hknown)
    · refine .underWay ?_
      rw [houtbox, Function.update_self]
      exact hrest
  · cases hold with
    | underWay hnil =>
      refine .underWay ?_
      rw [houtbox, Function.update_of_ne hne]
      exact hnil
    | registered announce hlast hlive =>
      refine .registered announce hlast ?_
      rw [live_step_of_ne hm (fun heq => hne (hinj heq))]
      exact hlive
    | asked hmem => exact .asked (hinbox j _ hmem)
    | answering hmem => exact .answering hmem

end Delivery

/-- **The realms are loaded**: everybody is forgotten, and everybody is asked. -/
theorem Truthful.updateRealms {res : Option RealmlistResult} (h : n.Truthful config r)
    (hcomplete : n.Complete config r) (hstep : n.realmdStep (.updateRealms res) = some n') :
    n'.Truthful config (r.step (.updateRealms res)) ∧
      n'.Complete config (r.step (.updateRealms res)) := by
  obtain ⟨s, hs, hrealmd, hprocs, houtbox, hinbox, hasked⟩ := exists_of_realmdStep hstep
  have href : n'.realmd.Refines (r.step (.updateRealms res)) := by
    obtain ⟨s', hs', href⟩ := h.refines.step (e := .updateRealms res) nofun nofun
    obtain rfl := Option.some.inj (hs.symm.trans hs')
    exact hrealmd ▸ href
  have hframe : ∀ j q, n'.Stands j q → n.Stands j q := by
    rintro j q ⟨hq, hstands⟩
    exact ⟨hprocs ▸ hq, hstands⟩
  rcases res with _ | res
  · refine ⟨⟨href, h.owned, ?_, ?_, ?_⟩, ?_⟩
    · intro j m hm
      exact h.speaks j m (houtbox ▸ hm)
    · intro j q hq
      exact h.said j q (hprocs ▸ hq)
    · intro j q hq hsent hne
      rw [houtbox] at hne ⊢
      exact h.last j q (hprocs ▸ hq) hsent hne
    · intro j q hq hknown
      have hold := hcomplete j q (hframe j q hq) hknown
      cases hold with
      | underWay hne => exact .underWay (houtbox ▸ hne)
      | registered announce hlast hlive => exact .registered announce hlast hlive
      | asked hmem => exact .asked (hinbox j _ hmem)
      | answering hmem => exact .answering hmem
  · refine ⟨⟨href, nofun, ?_, ?_, ?_⟩, ?_⟩
    · intro j m hm
      exact h.speaks j m (houtbox ▸ hm)
    · intro j q hq
      exact h.said j q (hprocs ▸ hq)
    · intro j q hq hsent hne
      rw [houtbox] at hne ⊢
      exact h.last j q (hprocs ▸ hq) hsent hne
    · intro j q hq hknown
      -- the realm is one of those that are asked
      obtain ⟨rows, -, heq⟩ := Option.bind_eq_some_iff.mp hs
      obtain rfl := Option.some.inj heq
      have hmem := (href.known _).mpr hknown
      rw [hrealmd] at hmem
      refine .asked ?_
      have hsome : (n.procs j).isSome := by
        rw [← hprocs, hq.1]
        rfl
      rw [hasked j hsome, Service.requestProxies_eq]
      rw [Service.requestProxies_eq] at hmem
      dsimp only at hmem ⊢
      rw [List.drop_left]
      exact List.mem_append_right _ hmem

/-! ### Every run -/

/-- Processes that come and go, with nobody else touched. -/
theorem Truthful.of_procs (h : n.Truthful config r) (hrealmd : n'.realmd = n.realmd)
    (hout : n'.outbox = n.outbox)
    (hprocs : ∀ j q, n'.procs j = some q → n.procs j = some q ∨
      q = .init (config j).service (config j).netThreads) : n'.Truthful config r := by
  refine ⟨hrealmd ▸ h.refines, h.owned, fun j m hm => h.speaks j m (hout ▸ hm), ?_, ?_⟩
  · intro j q hq
    rcases hprocs j q hq with hq | rfl
    · exact h.said j q hq
    · exact Process.said_init _ _
  · intro j q hq hsent hne
    rw [hout] at hne ⊢
    rcases hprocs j q hq with hq | rfl
    · exact h.last j q hq hsent hne
    · exact absurd rfl hsent

/-- What an event means to the roster. -/
def rosterStep (n : Network ι) (r : Roster ℚ) : NetworkEvent ι → Roster ℚ
  | .deliver i stale =>
    match n.outbox i with
    | [] => r
    | m :: _ => r.step (m.toEvent stale)
  | .updateRealms res => r.step (.updateRealms res)
  | _ => r

/-- **One step keeps the truth, and loses nobody.** -/
theorem Truthful.step [DecidableEq ι]
    (hinj : Function.Injective fun i => (config i).service.bindAddr) {e : NetworkEvent ι}
    (h : n.Truthful config r) (hcomplete : n.Complete config r)
    (hstep : n.step config e = some n') :
    n'.Truthful config (n.rosterStep r e) ∧ n'.Complete config (n.rosterStep r e) := by
  cases e with
  | launch i =>
    rw [Network.step, Option.ite_none_right_eq_some] at hstep
    obtain rfl := Option.some.inj hstep.2
    refine ⟨h.of_procs rfl rfl ?_, ?_⟩
    · intro j q hq
      dsimp only at hq
      rcases eq_or_ne j i with rfl | hne
      · rw [Function.update_self] at hq
        exact Or.inr (Option.some.inj hq).symm
      · rw [Function.update_of_ne hne] at hq
        exact Or.inl hq
    · rintro j q ⟨hq, hstop, hsent⟩ hknown
      dsimp only at hq
      rcases eq_or_ne j i with rfl | hne
      · rw [Function.update_self] at hq
        obtain rfl := Option.some.inj hq
        exact absurd rfl hsent
      · rw [Function.update_of_ne hne] at hq
        refine (hcomplete j q ⟨hq, hstop, hsent⟩ hknown).congr rfl ?_
        exact Function.update_of_ne hne _ _
  | exit i =>
    rw [Network.step, Option.ite_none_right_eq_some] at hstep
    obtain rfl := Option.some.inj hstep.2
    have hold : ∀ j q, Function.update n.procs i none j = some q →
        j ≠ i ∧ n.procs j = some q := by
      intro j q hq
      rcases eq_or_ne j i with rfl | hne
      · rw [Function.update_self] at hq
        cases hq
      · rw [Function.update_of_ne hne] at hq
        exact ⟨hne, hq⟩
    refine ⟨h.of_procs rfl rfl fun j q hq => Or.inl (hold j q hq).2, ?_⟩
    rintro j q ⟨hq, hstop, hsent⟩ hknown
    obtain ⟨hne, hq⟩ := hold j q hq
    refine (hcomplete j q ⟨hq, hstop, hsent⟩ hknown).congr rfl ?_
    exact Function.update_of_ne hne _ _
  | proc i e =>
    rw [Network.step, Option.ite_none_left_eq_some] at hstep
    exact ⟨h.procStep hstep.2, hcomplete.procStep h rfl rfl (fun _ _ => rfl)
      (fun _ _ _ _ hmem => Or.inl hmem) hstep.2⟩
  | take i thread =>
    rw [Network.step] at hstep
    split at hstep
    · cases hstep
    · next id rest hin =>
      have htruth : Truthful config { n with inbox := Function.update n.inbox i rest } r :=
        h.of_procs rfl rfl fun _ _ hq => Or.inl hq
      refine ⟨htruth.procStep hstep, hcomplete.procStep htruth rfl rfl ?_ ?_ hstep⟩
      · intro j hne
        exact Function.update_of_ne hne _ _
      · -- the request is for another realm, or about to be answered
        intro p p' hp hp' hmem
        rw [hin] at hmem
        rcases List.mem_cons.mp hmem with heq | hmem
        · refine Or.inr (requested_of_request hp' ?_)
          rw [← heq, (h.said i p hp).realm]
        · refine Or.inl ?_
          dsimp only
          rwa [Function.update_self]
  | deliver i stale =>
    rw [Network.step] at hstep
    split at hstep
    · cases hstep
    · next m rest hout =>
      rw [rosterStep, hout]
      exact ⟨h.deliver hinj hout hstep, hcomplete.deliver h hinj hout hstep⟩
  | updateRealms res => exact h.updateRealms hcomplete hstep

/-- Nothing is under way: all messages are delivered, and no proxy that has not taken leave has
a request to take or to answer. -/
def Quiet (n : Network ι) : Prop :=
  (∀ i, n.outbox i = []) ∧ ∀ i p, n.procs i = some p → p.stop = .notCalled →
    n.inbox i = [] ∧ .requested ∉ p.threads

/-- In a quiet state who stands is in the registry. -/
theorem Complete.registered_of_quiet (h : n.Complete config r) (hquiet : n.Quiet)
    (hstands : n.Stands i p) (hknown : r.known (config i).service.realmId = true) :
    ∃ announce, p.sent.getLast? = some (.announce announce) ∧
      r.live (config i).service.bindAddr =
        some ((config i).service.realmId, announce.load) := by
  obtain ⟨hin, hthreads⟩ := hquiet.2 i p hstands.1 hstands.2.1
  cases h i p hstands hknown with
  | underWay hne => exact absurd (hquiet.1 i) hne
  | registered announce hlast hlive => exact ⟨announce, hlast, hlive⟩
  | asked hmem =>
    rw [hin] at hmem
    cases hmem
  | answering hmem => exact absurd hmem hthreads

end Network

/-- **Every proxy that runs is registered.** In every run of the realm daemon and any number of
proxies with different addresses – in which proxies are started, end, are killed and started
again, the list of realms is loaded any number of times, and what is pushed is delivered at
any time – when nothing is under way, a proxy that has announced itself and has not taken
leave has one entry, where its realm is known: that of its realm and of the load it announced
last. -/
theorem running_proxies_registered [DecidableEq ι] {config : ι → Installation}
    (hinj : Function.Injective fun i => (config i).service.bindAddr) {es : List (NetworkEvent ι)}
    {n : Network ι} (hrun : networkRun config es = some n) (hquiet : n.Quiet) {i : ι}
    {p : Process} (hstands : n.Stands i p)
    (hknown : (config i).service.realmId ∈ n.realmd.realmIds) :
    ∃ announce, p.sent.getLast? = some (.announce announce) ∧
      (n.realmd.proxies.filter fun entry => entry.2.ip = (config i).service.bindAddr) =
        [((config i).service.realmId,
          { ip := (config i).service.bindAddr, load := announce.load })] := by
  obtain ⟨r, htruth, hcomplete⟩ : ∃ r, n.Truthful config r ∧ n.Complete config r := by
    refine Runs.run_invariant (P := fun n => ∃ r, n.Truthful config r ∧ n.Complete config r)
      ?_ ⟨_, Network.truthful_init, Network.complete_init⟩ hrun
    rintro n e n' ⟨r, htruth, hcomplete⟩ hstep
    exact ⟨_, htruth.step hinj hcomplete hstep⟩
  obtain ⟨announce, hlast, hlive⟩ :=
    hcomplete.registered_of_quiet hquiet hstands ((htruth.refines.known _).mp hknown)
  refine ⟨announce, hlast, ?_⟩
  rw [htruth.refines.entries, hlive]
  rfl

namespace DiscoverySample

/-- Two proxies of the realm 1, with one thread each. -/
def config : Bool → Installation
  | true => { service := ProxyService.start 10 1 [97], netThreads := 1 }
  | false => { service := ProxyService.start 10 1 [98], netThreads := 1 }

theorem config_injective : Function.Injective fun i => (config i).service.bindAddr := by
  rintro (_ | _) (_ | _) h
  · rfl
  · cases h
  · cases h
  · rfl

/-- Both announce themselves before the realm daemon knows a realm. -/
def started : List (NetworkEvent Bool) :=
  [true, false].flatMap fun i =>
    [.launch i, .proc i .announce, .proc i (.scheduleTimer 0), .proc i (.test 0),
      .proc i (.handled 0 none), .deliver i 0]

/-- The realm daemon learns its realms and asks both, which answer. -/
def asked : List (NetworkEvent Bool) :=
  .updateRealms (some (Shutdown.realmlist 1)) :: [true, false].flatMap fun i =>
    [.take i 0, .proc i (.answer 0), .proc i (.restartTimer 0 1), .deliver i 0]

/-- The state after the events. -/
def after (es : List (NetworkEvent Bool)) : Network Bool := (networkRun config es).getD .init

end DiscoverySample

open DiscoverySample in
/-- What both said first was not heard, and what they answered was. -/
theorem running_proxies_registered_asked :
    ∃ p announce, (after (started ++ asked)).procs true = some p ∧
      p.sent.getLast? = some (.announce announce) ∧
      ((after (started ++ asked)).realmd.proxies.filter fun entry => entry.2.ip = [97]) =
        [(1, { ip := [97], load := announce.load })] := by
  have hrun : networkRun config (started ++ asked) = some (after (started ++ asked)) := rfl
  have hquiet : (after (started ++ asked)).Quiet := by
    refine ⟨?_, ?_⟩
    · rintro (_ | _) <;> rfl
    · rintro (_ | _) p hp - <;> cases hp <;> exact ⟨rfl, by decide⟩
  obtain ⟨p, hp⟩ : ∃ p, (after (started ++ asked)).procs true = some p := ⟨_, rfl⟩
  have hstands : (after (started ++ asked)).Stands true p := by
    cases hp
    exact ⟨rfl, rfl, List.cons_ne_nil _ _⟩
  obtain ⟨announce, hlast, hentries⟩ :=
    running_proxies_registered config_injective hrun hquiet hstands (by decide)
  exact ⟨p, announce, hp, hlast, hentries⟩

end Morfeusz
