import Mathlib.Algebra.Order.Ring.Rat
import Mathlib.Data.Rat.Cast.Order
import Morfeusz.Proxyd.Service
import Morfeusz.Realmd.Registry

/-!
# The choice of a proxy, and the connections it has

The realm daemon gives a client the proxy of the lowest load, and of several that have it
the one that stands first among the proxies of the realm
(`Morfeusz.Realmd.Service.getProxyForRealm_eq_iff`). The load a proxy announces is zero as
long as it is not full. So it is not the number of connections that decides between two
proxies, but which of them has registered first
(`Morfeusz.busier_proxy_not_chosen_iff`).
-/

namespace Morfeusz

open Realmd Proxyd

/-! ### The first of the lowest -/

namespace Realmd

variable {Load : Type}

section Choice

variable [LinearOrder Load]

/-- **The proxy that is chosen is the first of the lowest load.** -/
theorem lowestLoad_split (first : ProxyInfo Load) (proxies : List (ProxyInfo Load)) :
    ∃ front rest, first :: proxies = front ++ Service.lowestLoad first proxies :: rest ∧
      (∀ info ∈ front, (Service.lowestLoad first proxies).load < info.load) ∧
      ∀ info ∈ rest, (Service.lowestLoad first proxies).load ≤ info.load := by
  induction proxies generalizing first with
  | nil => exact ⟨[], [], rfl, nofun, nofun⟩
  | cons info proxies ih =>
    have hstep : Service.lowestLoad first (info :: proxies) =
        Service.lowestLoad (if info.load < first.load then info else first) proxies := rfl
    rw [hstep]
    by_cases hlt : info.load < first.load
    · rw [if_pos hlt]
      obtain ⟨front, rest, heq, hfront, hrest⟩ := ih info
      refine ⟨first :: front, rest, by rw [heq, List.cons_append], ?_, hrest⟩
      intro other hother
      rcases List.mem_cons.mp hother with rfl | hother
      · exact (lowestLoad_spec info proxies).2.1.trans_lt hlt
      · exact hfront other hother
    · rw [if_neg hlt]
      obtain ⟨_ | ⟨head, front⟩, rest, heq, hfront, hrest⟩ := ih first
      · -- the first is the lowest still
        obtain ⟨hlow, rfl⟩ := List.cons.inj heq
        refine ⟨[], info :: proxies, by rw [← hlow, List.nil_append], nofun, ?_⟩
        intro other hother
        rcases List.mem_cons.mp hother with rfl | hother
        · rw [← hlow]
          exact not_lt.mp hlt
        · exact hrest other hother
      · obtain ⟨hfirst, htail⟩ := List.cons.inj heq
        rw [← hfirst] at hfront
        have hhead := hfront first List.mem_cons_self
        refine ⟨first :: info :: front, rest, ?_, ?_, hrest⟩
        · exact congrArg (fun tail => first :: info :: tail) htail
        intro other hother
        rcases List.mem_cons.mp hother with rfl | hother
        · exact hhead
        · rcases List.mem_cons.mp hother with rfl | hother
          · exact hhead.trans_le (not_lt.mp hlt)
          · exact hfront other (List.mem_cons_of_mem _ hother)

/-- The proxy at a place of the list is the one that is chosen exactly where it is lower
than all before it and no higher than those behind it. -/
theorem lowestLoad_ip_eq_iff {first info : ProxyInfo Load}
    {proxies front rest : List (ProxyInfo Load)}
    (heq : first :: proxies = front ++ info :: rest)
    (hnodup : ((first :: proxies).map ProxyInfo.ip).Nodup) :
    (Service.lowestLoad first proxies).ip = info.ip ↔
      (∀ other ∈ front, info.load < other.load) ∧ ∀ other ∈ rest, info.load ≤ other.load := by
  obtain ⟨front', rest', heq', hfront, hrest⟩ := lowestLoad_split first proxies
  set low := Service.lowestLoad first proxies
  have hboth := heq'.symm.trans heq
  constructor
  · intro hip
    have hlow : low ∈ first :: proxies := by
      rw [heq']
      exact List.mem_append_right _ List.mem_cons_self
    have hinfo : info ∈ first :: proxies := by
      rw [heq]
      exact List.mem_append_right _ List.mem_cons_self
    obtain rfl : low = info := List.inj_on_of_nodup_map hnodup hlow hinfo hip
    have hother := hnodup.of_map
    rw [heq, List.nodup_append, List.nodup_cons] at hother
    obtain ⟨-, ⟨hnotin, -⟩, hdisjoint⟩ := hother
    have hnotin' : low ∉ front := fun hmem => hdisjoint low hmem low List.mem_cons_self rfl
    obtain ⟨rfl, -, rfl⟩ := (List.append_cons_inj_of_notMem hnotin' hnotin).mp hboth.symm
    exact ⟨hfront, hrest⟩
  · rintro ⟨hbefore, hbehind⟩
    rcases List.append_eq_append_iff.mp hboth with
      ⟨between, hsplit, htail⟩ | ⟨between, hsplit, htail⟩
    · rcases between with _ | ⟨head, between⟩
      · rw [(List.cons.inj htail).1]
      · -- the lowest stands before the proxy, which is lower
        obtain ⟨hhead, hrest'⟩ := List.cons.inj htail
        have hmem : low ∈ front := by
          rw [hsplit, ← hhead]
          exact List.mem_append_right _ List.mem_cons_self
        have hle : low.load ≤ info.load := by
          refine hrest info ?_
          rw [hrest']
          exact List.mem_append_right _ List.mem_cons_self
        exact absurd (hbefore low hmem) (not_lt.mpr hle)
    · rcases between with _ | ⟨head, between⟩
      · rw [(List.cons.inj htail).1]
      · -- the lowest stands behind the proxy, and is lower than it
        obtain ⟨hhead, hrest'⟩ := List.cons.inj htail
        have hmem : info ∈ front' := by
          rw [hsplit, ← hhead]
          exact List.mem_append_right _ List.mem_cons_self
        have hle : info.load ≤ low.load := by
          refine hbehind low ?_
          rw [hrest']
          exact List.mem_append_right _ List.mem_cons_self
        exact absurd (hfront info hmem) (not_lt.mpr hle)

end Choice

/-! ### The addresses of a realm -/

namespace Service

variable {s s' : Service Load}

/-- The realm and the address of every entry. -/
def keys (s : Service Load) : List (UInt8 × List UInt8) :=
  s.proxies.map fun entry => (entry.1, entry.2.ip)

theorem nodup_keys_step {e : ServiceEvent Load} (h : s.keys.Nodup) (hstep : s.step e = some s') :
    s'.keys.Nodup := by
  have hfilter (p : UInt8 × ProxyInfo Load → Bool) (requests : List UInt8) :
      { s with proxies := s.proxies.filter p, requests }.keys.Nodup :=
    (List.filter_sublist.map _).nodup h
  rcases e with res | ⟨announce, stale⟩ | proxy
  · rcases res with _ | res
    · obtain rfl := Option.some.inj hstep
      exact h
    · obtain ⟨t, ht, hnil, -⟩ := s.updateRealms_some res
      obtain rfl := Option.some.inj (ht.symm.trans hstep)
      rw [keys, hnil]
      exact List.nodup_nil
  · rcases s.processProxyAnnounce_cases announce stale with
      ⟨-, heq⟩ | ⟨-, hnew, heq⟩ | ⟨-, -, heq⟩ | ⟨-, -, heq⟩ <;>
      obtain rfl := Option.some.inj (heq.symm.trans hstep)
    · exact h
    · have hperm : (s.addProxy announce.realm announce.address announce.load).keys.Perm
          ((announce.realm, announce.address) :: s.keys) :=
        (List.perm_orderedInsert _ _ _).map _
      rw [hperm.nodup_iff, List.nodup_cons]
      refine ⟨fun hmem => ?_, h⟩
      obtain ⟨entry, hentry, hkey⟩ := List.mem_map.mp hmem
      obtain ⟨hrealm, hip⟩ := Prod.mk.inj hkey
      -- the realm had no proxy, or the address no entry
      rcases hnew with hnone | hnone
      · exact hnone (List.mem_map.mpr ⟨entry, hentry, hrealm⟩)
      · exact hnone (mem_addresses.mpr ⟨entry, hentry, hip⟩)
    · rw [keys, updateProxyLoad]
      dsimp only
      rw [map_key_updateLoadLoop]
      exact h
    · exact hfilter _ _
  · obtain ⟨-, rfl⟩ := deleteProxy_eq_some_iff.mp hstep
    exact hfilter _ s.requests

/-- **Within a realm no address has two entries**, in any run. -/
theorem nodup_keys {es : List (ServiceEvent Load)} (h : serviceRun es = some s) : s.keys.Nodup :=
  Runs.run_invariant (P := fun s => s.keys.Nodup) (fun _ _ _ hs hstep => nodup_keys_step hs hstep)
    List.nodup_nil h

/-- The proxies of a realm, in the order of the list. -/
def ofRealm (id : UInt8) (entries : List (UInt8 × ProxyInfo Load)) : List (ProxyInfo Load) :=
  (entries.filter fun entry => entry.1 = id).map Prod.snd

theorem mem_ofRealm {id : UInt8} {entries : List (UInt8 × ProxyInfo Load)} {info : ProxyInfo Load} :
    info ∈ ofRealm id entries ↔ (id, info) ∈ entries := by
  simp [ofRealm]

theorem ofRealm_append (id : UInt8) (front rest : List (UInt8 × ProxyInfo Load))
    (info : ProxyInfo Load) :
    ofRealm id (front ++ (id, info) :: rest) = ofRealm id front ++ info :: ofRealm id rest := by
  simp [ofRealm]

theorem nodup_ofRealm (h : s.keys.Nodup) (id : UInt8) :
    ((ofRealm id s.proxies).map ProxyInfo.ip).Nodup := by
  have hsub : ((s.proxies.filter fun entry => entry.1 = id).map
      fun entry => (entry.1, entry.2.ip)).Nodup :=
    (List.filter_sublist.map _).nodup h
  have heq : (s.proxies.filter fun entry => entry.1 = id).map (fun entry => (entry.1, entry.2.ip)) =
      ((ofRealm id s.proxies).map ProxyInfo.ip).map (Prod.mk id) := by
    rw [ofRealm, List.map_map, List.map_map]
    refine List.map_congr_left fun entry hentry => ?_
    rw [Function.comp, Function.comp, ← of_decide_eq_true (List.mem_filter.mp hentry).2]
  rw [heq] at hsub
  exact hsub.of_map

variable [LinearOrder Load]

/-- **The proxy a realm is given**, at a place of the list. -/
theorem getProxyForRealm_eq_iff {es : List (ServiceEvent Load)} (h : serviceRun es = some s)
    {id : UInt8} {info : ProxyInfo Load} {front rest : List (UInt8 × ProxyInfo Load)}
    (hproxies : s.proxies = front ++ (id, info) :: rest) :
    s.getProxyForRealm id = info.ip ↔
      (∀ other, (id, other) ∈ front → info.load < other.load) ∧
        ∀ other, (id, other) ∈ rest → info.load ≤ other.load := by
  have hlist : ofRealm id s.proxies = ofRealm id front ++ info :: ofRealm id rest := by
    rw [hproxies, ofRealm_append]
  have hnodup := nodup_ofRealm (nodup_keys h) id
  obtain ⟨first, proxies, hcons⟩ : ∃ first proxies, ofRealm id s.proxies = first :: proxies :=
    List.exists_cons_of_ne_nil (by rw [hlist]; simp)
  have hget : s.getProxyForRealm id = (lowestLoad first proxies).ip := by
    have hfirst : lowestLoad first (first :: proxies) = lowestLoad first proxies := by
      rw [lowestLoad, List.foldl_cons, if_neg (lt_irrefl _), ← lowestLoad]
    rw [ofRealm] at hcons
    rw [getProxyForRealm, hcons]
    exact congrArg ProxyInfo.ip hfirst
  rw [hcons] at hlist hnodup
  rw [hget, lowestLoad_ip_eq_iff hlist hnodup]
  simp only [mem_ofRealm]

/-- Where another proxy of the realm is lower, the realm is not given this one. -/
theorem getProxyForRealm_ne_of_lower {es : List (ServiceEvent Load)} (h : serviceRun es = some s)
    {id : UInt8} {info other : ProxyInfo Load} (hinfo : (id, info) ∈ s.proxies)
    (hother : (id, other) ∈ s.proxies) (hlt : other.load < info.load) :
    s.getProxyForRealm id ≠ info.ip := by
  obtain ⟨front, rest, hproxies⟩ := List.append_of_mem hinfo
  intro hchosen
  obtain ⟨hfront, hrest⟩ := (getProxyForRealm_eq_iff h hproxies).mp hchosen
  rw [hproxies, List.mem_append, List.mem_cons] at hother
  rcases hother with hmem | heq | hmem
  · exact lt_asymm hlt (hfront other hmem)
  · obtain rfl := (Prod.mk.inj heq).2
    exact lt_irrefl _ hlt
  · exact not_lt.mpr (hrest other hmem) hlt

/-- A proxy is not the one its realm is given exactly where another of the realm stands before
it with the same load, or is lower. -/
theorem getProxyForRealm_ne_iff {es : List (ServiceEvent Load)} (h : serviceRun es = some s)
    {id : UInt8} {info : ProxyInfo Load} {front rest : List (UInt8 × ProxyInfo Load)}
    (hproxies : s.proxies = front ++ (id, info) :: rest) :
    s.getProxyForRealm id ≠ info.ip ↔
      (∃ other, (id, other) ∈ front ∧ other.load = info.load) ∨
        ∃ other, (id, other) ∈ s.proxies ∧ other.load < info.load := by
  have hmem : (id, info) ∈ s.proxies := by
    rw [hproxies]
    exact List.mem_append_right _ List.mem_cons_self
  constructor
  · intro hne
    rw [Ne, getProxyForRealm_eq_iff h hproxies, not_and_or] at hne
    push Not at hne
    rcases hne with ⟨other, hother, hle⟩ | ⟨other, hother, hlt⟩
    · rcases hle.eq_or_lt with heq | hlt
      · exact Or.inl ⟨other, hother, heq⟩
      · refine Or.inr ⟨other, ?_, hlt⟩
        rw [hproxies]
        exact List.mem_append_left _ hother
    · refine Or.inr ⟨other, ?_, hlt⟩
      rw [hproxies]
      exact List.mem_append_right _ (List.mem_cons_of_mem _ hother)
  · rintro (⟨other, hother, heq⟩ | ⟨other, hother, hlt⟩)
    · rw [Ne, getProxyForRealm_eq_iff h hproxies]
      rintro ⟨hfront, -⟩
      exact absurd (hfront other hother) (heq ▸ lt_irrefl _)
    · exact getProxyForRealm_ne_of_lower h hmem hother hlt

omit [LinearOrder Load] in
/-- An entry has one place. -/
theorem front_eq_of_split {es : List (ServiceEvent Load)} (h : serviceRun es = some s)
    {entry : UInt8 × ProxyInfo Load} {front rest front' rest' : List (UInt8 × ProxyInfo Load)}
    (hsplit : s.proxies = front ++ entry :: rest) (hsplit' : s.proxies = front' ++ entry :: rest') :
    front' = front := by
  have hnodup : s.proxies.Nodup := (nodup_keys h).of_map
  rw [hsplit, List.nodup_append, List.nodup_cons] at hnodup
  obtain ⟨-, ⟨hrest, -⟩, hfront⟩ := hnodup
  have hfront' : entry ∉ front := fun hmem => hfront _ hmem _ List.mem_cons_self rfl
  exact ((List.append_cons_inj_of_notMem hfront' hrest).mp (hsplit.symm.trans hsplit')).1.symm

end Service

end Realmd

/-! ### The proxies -/

namespace Proxyd.ProxyService

/-- A service as some changes of its connections have left it. -/
def Reached (p : ProxyService) : Prop :=
  ∃ limit realmId bindAddr ups,
    Runs.run updateConnections (start limit realmId bindAddr) ups = some p

theorem Reached.loadOk {p : ProxyService} (h : p.Reached) : p.LoadOk := by
  obtain ⟨limit, realmId, bindAddr, ups, hrun⟩ := h
  exact Runs.run_invariant (P := LoadOk) (fun _ _ _ _ hstep => loadOk_updateConnections hstep)
    (loadOk_start limit realmId bindAddr) hrun

/-- What the realm daemon has of a proxy whose last announcement it was given. -/
def entry (p : ProxyService) : UInt8 × ProxyInfo ℚ :=
  (p.announce.realm, { ip := p.announce.address, load := p.announce.load })

/-- The realm of a proxy comes through the sixteen bits of the message. -/
theorem realm_announce (p : ProxyService) : p.announce.realm = p.realmId := by
  rw [ProxyAnnounce.realm, announce, UInt16.toUInt8, UInt8.toUInt16]
  refine UInt8.toNat_inj.mp ?_
  simp

theorem entry_eq (p : ProxyService) :
    p.entry = (p.realmId, { ip := p.bindAddr, load := p.load }) := by
  rw [entry, realm_announce, announce]

end Proxyd.ProxyService

open Service

/-- **Load balancing.** Of two proxies of one realm and one limit, with the numbers of
connections the realm daemon was told last, the busier is not the one the realm is given
exactly where it is full, or another proxy of the realm stands before it with a load of
zero, or has announced a load below zero. -/
theorem busier_proxy_not_chosen_iff {es : List (ServiceEvent ℚ)} {s : Service ℚ}
    (hrun : serviceRun es = some s) {p₁ p₂ : ProxyService} (h₁ : p₁.Reached) (h₂ : p₂.Reached)
    (hrealm : p₁.realmId = p₂.realmId) (hlimit : p₁.connectionLimit = p₂.connectionLimit)
    (hlt : p₁.currentConnections < p₂.currentConnections)
    (hle : p₂.currentConnections.toNat ≤ p₂.connectionLimit.toNat)
    (hmem₁ : p₁.entry ∈ s.proxies) (hmem₂ : p₂.entry ∈ s.proxies) :
    s.getProxyForRealm p₂.realmId ≠ p₂.bindAddr ↔
      p₂.currentConnections.toNat = p₂.connectionLimit.toNat ∨
      (∃ front rest, s.proxies = front ++ p₂.entry :: rest ∧
        ∃ other, (p₂.realmId, other) ∈ front ∧ other.load = 0) ∨
      ∃ other, (p₂.realmId, other) ∈ s.proxies ∧ other.load < 0 := by
  have hlt' : p₁.currentConnections.toNat < p₂.currentConnections.toNat :=
    UInt32.lt_iff_toNat_lt.mp hlt
  have hle₁ : p₁.currentConnections.toNat < p₁.connectionLimit.toNat := by
    rw [hlimit]
    omega
  have hpos : p₂.connectionLimit ≠ 0 := by
    intro h0
    rw [h0, UInt16.toNat_zero] at hle
    omega
  rw [p₁.entry_eq, hrealm, ProxyService.load_eq_zero h₁.loadOk hle₁] at hmem₁
  rw [p₂.entry_eq] at hmem₂ ⊢
  rcases hle.eq_or_lt with hfull | hfree
  · -- it is full, and the other is not
    refine iff_of_true (getProxyForRealm_ne_of_lower hrun hmem₂ hmem₁ ?_) (Or.inl hfull)
    rw [(ProxyService.load_eq_one_iff h₂.loadOk hpos hle).mpr hfull]
    norm_num
  · -- it has a load of zero
    have hload := ProxyService.load_eq_zero h₂.loadOk hfree
    rw [hload, Nat.cast_zero] at hmem₂ ⊢
    obtain ⟨front, rest, hsplit⟩ := List.append_of_mem hmem₂
    rw [getProxyForRealm_ne_iff hrun hsplit, or_iff_right hfree.ne]
    refine or_congr_left ⟨fun hother => ⟨front, rest, hsplit, hother⟩, ?_⟩
    rintro ⟨front', rest', hsplit', hother⟩
    rwa [front_eq_of_split hrun hsplit hsplit'] at hother

namespace LoadBalanceSample

/-- A proxy of the realm 1 with a limit of ten. -/
def proxy (bindAddr : List UInt8) (ups : List Bool) : ProxyService :=
  ((Runs.run ProxyService.updateConnections (ProxyService.start 10 1 bindAddr) ups).getD
    (ProxyService.start 10 1 bindAddr))

/-- A proxy with one connection. -/
def idle : ProxyService := proxy [97] [true]

/-- A proxy with two. -/
def busy : ProxyService := proxy [98] [true, true]

/-- The realm daemon is told of two proxies. -/
def events (p q : ProxyService) : List (ServiceEvent ℚ) :=
  [.updateRealms (some RegistrySample.realmlist), .announce p.announce 0, .announce q.announce 0]

/-- What it then has. -/
def service (p q : ProxyService) : Service ℚ := (serviceRun (events p q)).getD Service.init

end LoadBalanceSample

open LoadBalanceSample

/-- Two proxies, of which the idle one has registered first. -/
theorem busier_proxy_not_chosen_idle_first :
    (service idle busy).getProxyForRealm 1 ≠ busy.bindAddr :=
  (busier_proxy_not_chosen_iff
    (show serviceRun (events idle busy) = some (service idle busy) from rfl)
    (show idle.Reached from ⟨10, 1, [97], [true], rfl⟩)
    (show busy.Reached from ⟨10, 1, [98], [true, true], rfl⟩) rfl rfl (by decide) (by decide)
    (List.mem_cons_self) (List.mem_cons_of_mem _ List.mem_cons_self)).mpr
    (Or.inr (Or.inl ⟨[idle.entry], [], rfl, idle.entry.2, List.mem_cons_self, rfl⟩))

/-- **The busier of two proxies is chosen**, where it has registered first: with one
connection of ten and with two both have a load of zero. -/
theorem busier_proxy_chosen :
    serviceRun (events busy idle) = some (service busy idle) ∧
      idle.entry ∈ (service busy idle).proxies ∧ busy.entry ∈ (service busy idle).proxies ∧
      idle.connectionLimit = 10 ∧ busy.connectionLimit = 10 ∧
      idle.currentConnections = 1 ∧ busy.currentConnections = 2 ∧
      (service busy idle).getProxyForRealm 1 = busy.bindAddr :=
  ⟨rfl, List.mem_cons_of_mem _ List.mem_cons_self, List.mem_cons_self, rfl, rfl, rfl, rfl, rfl⟩

end Morfeusz
