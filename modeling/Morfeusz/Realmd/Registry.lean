import Morfeusz.Realmd.Service

/-!
# The registry of the proxies

What `Realm_Service` knows of the proxies after any sequence of realm lists,
announcements and shutdowns.

Everything an announcement can do is said once
(`Morfeusz.Realmd.Service.processProxyAnnounce_cases`): it is ignored, it adds an entry,
it changes a load, or it deletes the address it names. From this follows who the address
of a proxy identifies, and when: the one way to enter it twice is to announce it for a
realm that has no proxy yet (`Morfeusz.Realmd.uniqueAddresses_iff`); and the one way to
make the `ASSERT` of `delete_proxy` fail is to shut down a proxy that is not there
(`Morfeusz.Realmd.serviceRun_isSome_iff`), since the duplicate that is deleted was found
just before.

Where every address keeps to one realm the list is the map it is meant to be, from the
addresses that are live to their realm and their latest load
(`Morfeusz.Realmd.Roster`, `Morfeusz.Realmd.registry_refines`).
-/

namespace Morfeusz.Realmd

variable {Load : Type}

namespace Service

variable {s s' : Service Load} {ip : List UInt8} {announce : ProxyAnnounce Load} {stale : UInt8}

/-! ### A new list of realms -/

theorem foldl_requestProxiesForRealm (s : Service Load) (ids : List UInt8) :
    ids.foldl requestProxiesForRealm s = { s with requests := s.requests ++ ids } := by
  induction ids generalizing s with
  | nil => simp
  | cons id ids ih => simp [ih, requestProxiesForRealm]

theorem requestProxies_eq (s : Service Load) :
    s.requestProxies = { s with proxies := [], requests := s.requests ++ s.realmIds } := by
  rw [requestProxies, foldl_requestProxiesForRealm]

theorem exists_readRealm {res : ResultSet} (hrow : res.rowPosition ≠ 0)
    (hcols : res.numFields = 8) : ∃ row, readRealm res = some row := by
  have : Nonempty SqlValue := ⟨.null⟩
  have hcol (i : ℕ) (h1 : 1 ≤ i) (hle : i ≤ 8) : ∃ v, res.column i = some v :=
    res.exists_column hrow h1 (hle.trans hcols.ge)
  choose! v hv using hcol
  simp [readRealm, ResultSet.getString, ResultSet.getUint8, ResultSet.getUint16,
    ResultSet.getUint32, ResultSet.getFloat, ResultSet.getUint, hv]

/-- The realm list can be read. -/
theorem exists_realmsLoop (left : ℕ) {res : ResultSet} (hcols : res.numFields = 8) :
    ∃ rows, realmsLoop left res = some rows := by
  induction left generalizing res with
  | zero => exact ⟨[], rfl⟩
  | succ left ih =>
    rw [realmsLoop]
    rcases hnext : res.next with ⟨_ | _, res'⟩
    · exact ⟨[], rfl⟩
    · have hpos := res.rowPosition_next_ne_zero (by rw [hnext])
      have hcols' := res.numFields_next
      rw [hnext] at hpos hcols'
      obtain ⟨row, hrow⟩ := exists_readRealm hpos (hcols'.trans hcols)
      obtain ⟨rows, hrows⟩ := ih (hcols'.trans hcols)
      exact ⟨row :: rows, by simp [hrow, hrows]⟩

theorem mem_fst_foldl_assignRealm {realmMap : List (UInt8 × Realm)} {rows : List (UInt32 × Realm)}
    {id : UInt8} : id ∈ (rows.foldl assignRealm realmMap).map Prod.fst ↔
      id ∈ realmMap.map Prod.fst ∨ id ∈ rows.map fun row => row.1.toUInt8 := by
  induction rows generalizing realmMap with
  | nil => simp
  | cons row rows ih =>
    have hkeys : id ∈ (assignRealm realmMap row).map Prod.fst ↔
        id ∈ realmMap.map Prod.fst ∨ id = row.1.toUInt8 := by
      rw [assignRealm, ((List.perm_orderedInsert _ _ _).map Prod.fst).mem_iff]
      by_cases hid : id = row.1.toUInt8
      · simp [hid]
      · simp [hid]
    rw [List.foldl_cons, ih, hkeys, List.map_cons, List.mem_cons, or_assoc]

/-- **A new list of realms** adds realms, and forgets all proxies. -/
theorem updateRealms_some (s : Service Load) (res : RealmlistResult) :
    ∃ s', s.updateRealms (some res) = some s' ∧ s'.proxies = [] ∧
      ∀ id, id ∈ s'.realmIds ↔ id ∈ s.realmIds ∨ id ∈ res.ids := by
  obtain ⟨rows, hrows⟩ := exists_realmsLoop res.res.rows.length res.columns
  refine ⟨{ s with realmMap := rows.foldl assignRealm s.realmMap }.requestProxies, ?_, ?_, ?_⟩
  · simp [updateRealms, hrows]
  · rw [requestProxies_eq]
  · intro id
    rw [requestProxies_eq, RealmlistResult.ids, hrows]
    exact mem_fst_foldl_assignRealm

/-! ### An announcement -/

theorem mem_addresses : ip ∈ s.addresses ↔ ∃ entry ∈ s.proxies, entry.2.ip = ip := List.mem_map

/-- What the search for an address has found. -/
theorem searchLoop_spec (realmId : UInt8) (address : List UInt8)
    (entries : List (UInt8 × ProxyInfo Load)) :
    match searchLoop realmId address entries with
    | .duplicate => ∃ entry ∈ entries, entry.2.ip = address ∧ entry.1 ≠ realmId
    | .known => ∃ entry ∈ entries, entry.2.ip = address ∧ entry.1 = realmId
    | .newProxy => ∀ entry ∈ entries, entry.2.ip ≠ address := by
  induction entries with
  | nil => simp [searchLoop]
  | cons entry entries ih =>
    rw [searchLoop]
    by_cases hip : entry.2.ip = address
    · by_cases hrealm : entry.1 = realmId
      · simp only [hrealm, ne_eq, not_true_eq_false, if_false, hip, if_true]
        exact ⟨entry, List.mem_cons_self, hip, hrealm⟩
      · simp only [ne_eq, hrealm, not_false_eq_true, if_true, hip]
        exact ⟨entry, List.mem_cons_self, hip, hrealm⟩
    · simp only [hip, if_false, ite_self]
      -- the entry has another address: what was found is among the others
      cases hsearch : searchLoop realmId address entries <;> rw [hsearch] at ih
      · obtain ⟨other, hmem, hother⟩ := ih
        exact ⟨other, List.mem_cons_of_mem _ hmem, hother⟩
      · obtain ⟨other, hmem, hother⟩ := ih
        exact ⟨other, List.mem_cons_of_mem _ hmem, hother⟩
      · intro other hmem
        rcases List.mem_cons.mp hmem with rfl | hmem
        · exact hip
        · exact ih other hmem

/-- **Everything an announcement can do**, and that it always does something. -/
theorem processProxyAnnounce_cases (s : Service Load) (announce : ProxyAnnounce Load)
    (stale : UInt8) :
    (announce.realm ∉ s.realmIds ∧ s.processProxyAnnounce announce stale = some s) ∨
    (announce.realm ∈ s.realmIds ∧
      (announce.realm ∉ s.proxyRealms ∨ announce.address ∉ s.addresses) ∧
      s.processProxyAnnounce announce stale =
        some (s.addProxy announce.realm announce.address announce.load)) ∨
    (announce.realm ∈ s.realmIds ∧
      (∃ entry ∈ s.proxies, entry.2.ip = announce.address ∧ entry.1 = announce.realm) ∧
      s.processProxyAnnounce announce stale =
        some (s.updateProxyLoad announce.address announce.load)) ∨
    (announce.realm ∈ s.proxyRealms ∧
      (∃ entry ∈ s.proxies, entry.2.ip = announce.address ∧ entry.1 ≠ announce.realm) ∧
      s.processProxyAnnounce announce stale =
        some { s with
          proxies := s.proxies.filter fun entry => entry.2.ip ≠ announce.address
          requests := s.requests ++ [stale] ++ [announce.realm] }) := by
  rw [processProxyAnnounce]
  by_cases hknown : announce.realm ∈ s.realmIds
  · rw [if_neg (not_not.mpr hknown)]
    by_cases hrealm : announce.realm ∈ s.proxyRealms
    · rw [if_neg (not_not.mpr hrealm)]
      have hspec := searchLoop_spec announce.realm announce.address s.proxies
      cases hsearch : searchLoop announce.realm announce.address s.proxies <;>
        rw [hsearch] at hspec <;> dsimp only at hspec ⊢
      case duplicate =>
        -- the entry that is deleted is the one that was found
        obtain ⟨entry, hmem, hip, hother⟩ := hspec
        rw [deleteProxy, if_pos (mem_addresses.mpr ⟨entry, hmem, hip⟩)]
        exact Or.inr (Or.inr (Or.inr ⟨hrealm, ⟨entry, hmem, hip, hother⟩, rfl⟩))
      case known => exact Or.inr (Or.inr (Or.inl ⟨hknown, hspec, rfl⟩))
      case newProxy =>
        refine Or.inr (Or.inl ⟨hknown, Or.inr ?_, rfl⟩)
        intro hmem
        obtain ⟨entry, hmem, hip⟩ := mem_addresses.mp hmem
        exact hspec entry hmem hip
    · rw [if_pos hrealm]
      exact Or.inr (Or.inl ⟨hknown, Or.inl hrealm, rfl⟩)
  · rw [if_pos hknown]
    exact Or.inl ⟨hknown, rfl⟩

theorem deleteProxy_eq_some_iff :
    s.deleteProxy ip = some s' ↔ ip ∈ s.addresses ∧
      s' = { s with proxies := s.proxies.filter fun entry => entry.2.ip ≠ ip } := by
  rw [deleteProxy, Option.ite_none_right_eq_some, Option.some.injEq, eq_comm (a := s')]

/-! ### The addresses -/

theorem addresses_addProxy (s : Service Load) (realm : UInt8) (ip : List UInt8) (load : Load) :
    (s.addProxy realm ip load).addresses.Perm (ip :: s.addresses) :=
  (List.perm_orderedInsert _ _ _).map _

/-- A new load leaves the realms and the addresses of the entries. -/
theorem map_key_updateLoadLoop (ip : List UInt8) (load : Load)
    (entries : List (UInt8 × ProxyInfo Load)) :
    (updateLoadLoop ip load entries).map (fun entry => (entry.1, entry.2.ip)) =
      entries.map fun entry => (entry.1, entry.2.ip) := by
  induction entries with
  | nil => rfl
  | cons entry entries ih =>
    rw [updateLoadLoop]
    split
    · rfl
    · rw [List.map_cons, List.map_cons, ih]

theorem addresses_updateProxyLoad (s : Service Load) (ip : List UInt8) (load : Load) :
    (s.updateProxyLoad ip load).addresses = s.addresses := by
  have hkeys := congrArg (List.map Prod.snd) (map_key_updateLoadLoop ip load s.proxies)
  rwa [List.map_map, List.map_map] at hkeys

theorem addresses_filter_sublist (s : Service Load) (p : UInt8 × ProxyInfo Load → Bool)
    (requests : List UInt8) :
    { s with proxies := s.proxies.filter p, requests }.addresses.Sublist s.addresses :=
  List.filter_sublist.map _

/-- No address has two entries. -/
def UniqueAddresses (s : Service Load) : Prop := s.addresses.Nodup

end Service

open Service

namespace RegistrySample

/-- The realms 1 and 2. -/
def realmlist : RealmlistResult where
  res :=
    { engine := .mysql
      numFields := 8
      rows := [[.integer 4 1], [.integer 4 2]] }
  fresh := rfl
  columns := rfl

/-- An announcement, for the realm `realmId`. -/
def announce (realmId : UInt16) (address : List UInt8) (load : ℕ) : ServiceEvent ℕ :=
  .announce { realmId, address, load } 0

end RegistrySample

/-! ### An address is entered once -/

/-- An announcement that does not enter an address again: it is for a realm that is not
known or has a proxy, or its address has no entry. -/
def ServiceEvent.KeepsUnique (s : Service Load) : ServiceEvent Load → Prop
  | .updateRealms _ => True
  | .announce msg _ =>
    msg.realm ∈ s.realmIds → msg.realm ∉ s.proxyRealms → msg.address ∉ s.addresses
  | .shutdowned _ => True

variable {s s' : Service Load} {e : ServiceEvent Load}

theorem Service.UniqueAddresses.step (h : s.UniqueAddresses) (hstep : s.step e = some s') :
    s'.UniqueAddresses ↔ e.KeepsUnique s := by
  rcases e with res | ⟨announce, stale⟩ | proxy
  · refine iff_of_true ?_ trivial
    rcases res with _ | res
    · obtain rfl := Option.some.inj hstep
      exact h
    · obtain ⟨t, ht, hnil, -⟩ := s.updateRealms_some res
      obtain rfl := Option.some.inj (ht.symm.trans hstep)
      rw [UniqueAddresses, addresses, hnil]
      exact List.nodup_nil
  · rcases s.processProxyAnnounce_cases announce stale with
      ⟨hunknown, heq⟩ | ⟨hknown, hnew, heq⟩ | ⟨hknown, ⟨entry, hmem, -, hrealm⟩, heq⟩ |
      ⟨hrealm, -, heq⟩ <;>
      obtain rfl := Option.some.inj (heq.symm.trans hstep)
    · exact iff_of_true h fun hknown => absurd hknown hunknown
    · rw [UniqueAddresses, (s.addresses_addProxy _ _ _).nodup_iff, List.nodup_cons]
      constructor
      · intro hnodup _ _
        exact hnodup.1
      · intro hkeeps
        rcases hnew with hrealm | haddress
        · exact ⟨hkeeps hknown hrealm, h⟩
        · exact ⟨haddress, h⟩
    · -- the load of an entry of the realm is changed
      rw [UniqueAddresses, addresses_updateProxyLoad]
      refine iff_of_true h fun _ hnone => absurd ?_ hnone
      exact List.mem_map.mpr ⟨entry, hmem, hrealm⟩
    · exact iff_of_true ((s.addresses_filter_sublist _ _).nodup h)
        fun _ hnone => absurd hrealm hnone
  · obtain ⟨-, rfl⟩ := deleteProxy_eq_some_iff.mp hstep
    exact iff_of_true ((s.addresses_filter_sublist _ s.requests).nodup h) trivial

/-- **An address has one entry for as long as no announcement enters it again.** In every
run the addresses are unique in every state if and only if no proxy announces itself, for
a realm that is known and has no proxy, with an address that is registered. -/
theorem uniqueAddresses_iff (es : List (ServiceEvent Load)) :
    (∀ i s, serviceRun (es.take i) = some s → s.UniqueAddresses) ↔
      ∀ i s e s', Runs.StepAt Service.step Service.init es i s e s' → e.KeepsUnique s := by
  refine Runs.forall_run_take_iff (P := UniqueAddresses) (fun _ h => h) ?_ ?_ List.nodup_nil
  · intro s e s' h hstep hkeeps
    exact (h.step hstep).mpr hkeeps
  · intro s e s' h hstep h'
    exact (h.step hstep).mp h'

/-- A proxy that is announced for two realms, the second of them without a proxy. -/
theorem addresses_not_unique :
    ∃ s, serviceRun [.updateRealms (some RegistrySample.realmlist),
        RegistrySample.announce 1 [97] 3, RegistrySample.announce 2 [97] 3] = some s ∧
      ¬s.UniqueAddresses := by
  refine ⟨_, rfl, ?_⟩
  rw [UniqueAddresses]
  decide

/-! ### A shutdown of a proxy that is not there -/

/-- A shutdown finds the proxy it is about. -/
def ServiceEvent.FindsProxy (s : Service Load) : ServiceEvent Load → Prop
  | .updateRealms _ => True
  | .announce _ _ => True
  | .shutdowned proxy => proxy.address ∈ s.addresses

/-- **A shutdown is all that can abort the service**: the deletion of a duplicate always
finds it. -/
theorem exists_step_iff (s : Service Load) (e : ServiceEvent Load) :
    (∃ s', s.step e = some s') ↔ e.FindsProxy s := by
  rcases e with res | ⟨announce, stale⟩ | proxy
  · refine iff_of_true ?_ trivial
    rcases res with _ | res
    · exact ⟨s, rfl⟩
    · obtain ⟨s', hs', -⟩ := s.updateRealms_some res
      exact ⟨s', hs'⟩
  · refine iff_of_true ?_ trivial
    rcases s.processProxyAnnounce_cases announce stale with
      ⟨-, heq⟩ | ⟨-, -, heq⟩ | ⟨-, -, heq⟩ | ⟨-, -, heq⟩ <;> exact ⟨_, heq⟩
  · constructor
    · rintro ⟨s', hs'⟩
      exact (deleteProxy_eq_some_iff.mp hs').1
    · intro hmem
      exact ⟨_, deleteProxy_eq_some_iff.mpr ⟨hmem, rfl⟩⟩

/-- **The service survives exactly the runs in which every shutdown finds its proxy.** -/
theorem serviceRun_isSome_iff (es : List (ServiceEvent Load)) :
    (∃ s, serviceRun es = some s) ↔
      ∀ i s e, serviceRun (es.take i) = some s → es[i]? = some e → e.FindsProxy s :=
  Runs.exists_run_iff exists_step_iff

/-- A proxy that is announced before there is a list of realms, and shut down. -/
theorem serviceRun_early_proxy_eq_none :
    serviceRun [RegistrySample.announce 1 [97] 3, .shutdowned { address := [97] }] = none := rfl

/-! ### What the list is meant to be -/

/-- The realms that are known, and the proxies that are live: announced for a known realm
since the last list of realms, and not shut down since. -/
structure Roster (Load : Type) where
  known : UInt8 → Bool
  live : List UInt8 → Option (UInt8 × Load)

namespace Roster

def init : Roster Load := { known := fun _ => false, live := fun _ => none }

/-- What is known of an address is set. -/
def set (r : Roster Load) (ip : List UInt8) (entry : Option (UInt8 × Load)) : Roster Load :=
  { r with live := Function.update r.live ip entry }

@[simp] theorem live_set_self (r : Roster Load) (ip : List UInt8) (entry : Option (UInt8 × Load)) :
    (r.set ip entry).live ip = entry := Function.update_self ..

theorem live_set_of_ne (r : Roster Load) {ip ip' : List UInt8} (h : ip' ≠ ip)
    (entry : Option (UInt8 × Load)) : (r.set ip entry).live ip' = r.live ip' :=
  Function.update_of_ne h ..

/-- What a message means. -/
def step (r : Roster Load) : ServiceEvent Load → Roster Load
  | .updateRealms none => r
  | .updateRealms (some res) =>
    { known := fun id => r.known id || res.ids.contains id, live := fun _ => none }
  | .announce msg _ =>
    if r.known msg.realm then r.set msg.address (some (msg.realm, msg.load)) else r
  | .shutdowned proxy => r.set proxy.address none

end Roster

/-- The roster a sequence of messages leads to. -/
def rosterAfter (es : List (ServiceEvent Load)) : Roster Load := es.foldl Roster.step .init

/-- **The list holds one entry for every live address, and no other.** -/
structure Service.Refines (s : Service Load) (r : Roster Load) : Prop where
  known : ∀ id, id ∈ s.realmIds ↔ r.known id = true
  entries : ∀ ip, (s.proxies.filter fun entry => entry.2.ip = ip) =
    ((r.live ip).map fun (realm, load) => (realm, { ip, load })).toList

theorem Service.refines_init : (Service.init : Service Load).Refines .init where
  known id := by simp [realmIds, Service.init, Roster.init]
  entries ip := rfl

variable {r : Roster Load}

theorem Service.Refines.mem_proxies_iff (h : s.Refines r) {realm : UInt8} {info : ProxyInfo Load} :
    (realm, info) ∈ s.proxies ↔ r.live info.ip = some (realm, info.load) := by
  have hmem : (realm, info) ∈ s.proxies ↔
      (realm, info) ∈ s.proxies.filter fun entry => entry.2.ip = info.ip := by simp
  rw [hmem, h.entries, Option.mem_toList, Option.map_eq_some_iff]
  constructor
  · rintro ⟨⟨realm', load⟩, hlive, heq⟩
    obtain ⟨ip, load'⟩ := info
    simp only [Prod.mk.injEq, ProxyInfo.mk.injEq, true_and] at heq
    rw [hlive, heq.1, heq.2]
  · intro hlive
    exact ⟨_, hlive, rfl⟩

theorem Service.Refines.mem_proxiesOf_iff (h : s.Refines r) {id : UInt8} {info : ProxyInfo Load} :
    info ∈ (s.proxies.filter fun entry => entry.1 = id).map Prod.snd ↔
      r.live info.ip = some (id, info.load) := by
  rw [← h.mem_proxies_iff]
  simp

theorem Service.Refines.mem_addresses_iff (h : s.Refines r) {ip : List UInt8} :
    ip ∈ s.addresses ↔ r.live ip ≠ none := by
  rw [mem_addresses, Option.ne_none_iff_exists']
  constructor
  · rintro ⟨⟨realm, info⟩, hmem, rfl⟩
    exact ⟨_, h.mem_proxies_iff.mp hmem⟩
  · rintro ⟨⟨realm, load⟩, hlive⟩
    exact ⟨(realm, { ip, load }), h.mem_proxies_iff.mpr hlive, rfl⟩

/-- A list in any order of what is at most one is that. -/
theorem eq_toList_of_perm {α : Type*} {l : List α} {o : Option α} (h : l.Perm o.toList) :
    l = o.toList := by
  rcases o with _ | a
  · exact h.eq_nil
  · exact List.perm_singleton.mp h

/-! ### One message -/

theorem filter_updateLoadLoop {ip : List UInt8} {load : Load} (ip' : List UInt8)
    (entries : List (UInt8 × ProxyInfo Load)) :
    ((updateLoadLoop ip load entries).filter fun entry => entry.2.ip = ip') =
      if ip' = ip then updateLoadLoop ip load (entries.filter fun entry => entry.2.ip = ip')
      else entries.filter fun entry => entry.2.ip = ip' := by
  induction entries with
  | nil => simp [updateLoadLoop]
  | cons entry entries ih =>
    by_cases hip : ip' = ip
    · subst hip
      by_cases hentry : entry.2.ip = ip'
      · simp [updateLoadLoop, hentry]
      · simp only [updateLoadLoop, hentry, if_false, if_true] at ih ⊢
        rw [List.filter_cons_of_neg (by simpa using hentry), ih,
          List.filter_cons_of_neg (by simpa using hentry)]
    · rw [if_neg hip] at ih ⊢
      by_cases hentry : entry.2.ip = ip
      · have hne : ¬ip = ip' := fun h => hip h.symm
        simp [updateLoadLoop, hentry, hne]
      · rw [updateLoadLoop, if_neg hentry, List.filter_cons, List.filter_cons, ih]

/-- A proxy that was not there. -/
theorem Service.Refines.addProxy (h : s.Refines r) (realm : UInt8) {ip : List UInt8} (load : Load)
    (hnew : r.live ip = none) :
    (s.addProxy realm ip load).Refines (r.set ip (some (realm, load))) where
  known := h.known
  entries ip' := by
    refine eq_toList_of_perm ?_
    have hperm := (List.perm_orderedInsert (fun a b : UInt8 × ProxyInfo Load => a.1 < b.1)
      (realm, { ip, load }) s.proxies).filter fun entry => decide (entry.2.ip = ip')
    refine hperm.trans ?_
    by_cases hip : ip' = ip
    · subst hip
      rw [List.filter_cons_of_pos (by simp), h.entries, hnew, Roster.live_set_self]
      rfl
    · have hne : ¬ip = ip' := fun heq => hip heq.symm
      rw [List.filter_cons_of_neg (by simpa using hne), h.entries, Roster.live_set_of_ne _ hip]

/-- A proxy whose load has changed. -/
theorem Service.Refines.updateProxyLoad (h : s.Refines r) {realm : UInt8} {ip : List UInt8}
    {old : Load} (load : Load) (hlive : r.live ip = some (realm, old)) :
    (s.updateProxyLoad ip load).Refines (r.set ip (some (realm, load))) where
  known := h.known
  entries ip' := by
    rw [Service.updateProxyLoad, filter_updateLoadLoop, h.entries]
    by_cases hip : ip' = ip
    · subst hip
      rw [if_pos rfl, hlive, Roster.live_set_self]
      simp [updateLoadLoop]
    · rw [if_neg hip, Roster.live_set_of_ne _ hip]

/-- A proxy that is gone. -/
theorem Service.Refines.filter (h : s.Refines r) (ip : List UInt8) :
    { s with proxies := s.proxies.filter fun entry => entry.2.ip ≠ ip }.Refines
      (r.set ip none) where
  known := h.known
  entries ip' := by
    rw [List.filter_filter]
    by_cases hip : ip' = ip
    · subst hip
      rw [Roster.live_set_self]
      refine List.filter_eq_nil_iff.mpr ?_
      intro entry _
      simp
    · rw [Roster.live_set_of_ne _ hip, ← h.entries]
      refine List.filter_congr ?_
      intro entry _
      by_cases hentry : entry.2.ip = ip'
      · simp [hentry, hip]
      · simp [hentry]

/-- An announcement, of an address that is live for no other realm. -/
theorem Service.Refines.announce (h : s.Refines r) (msg : ProxyAnnounce Load) (stale : UInt8)
    (hrealm : ∀ realm load, r.live msg.address = some (realm, load) → realm = msg.realm) :
    ∃ s', s.processProxyAnnounce msg stale = some s' ∧
      s'.Refines (r.step (.announce msg stale)) := by
  rw [Roster.step]
  have hknown := h.known msg.realm
  rcases s.processProxyAnnounce_cases msg stale with
    ⟨hunknown, heq⟩ | ⟨hmem, hnew, heq⟩ | ⟨hmem, ⟨entry, hentry, hip, hrealm'⟩, heq⟩ |
    ⟨-, ⟨entry, hentry, hip, hother⟩, heq⟩
  · rw [hknown] at hunknown
    rw [if_neg hunknown]
    exact ⟨s, heq, h⟩
  · rw [if_pos (hknown.mp hmem)]
    refine ⟨_, heq, h.addProxy _ _ ?_⟩
    -- an entry of the address would be one of the realm
    by_contra hne
    obtain ⟨⟨realm, load⟩, hload⟩ := Option.ne_none_iff_exists'.mp hne
    obtain rfl := hrealm realm load hload
    rcases hnew with hno | hno
    · have hentry : (msg.realm, ({ ip := msg.address, load } : ProxyInfo Load)) ∈ s.proxies :=
        h.mem_proxies_iff.mpr hload
      exact hno (List.mem_map.mpr ⟨_, hentry, rfl⟩)
    · exact hno (h.mem_addresses_iff.mpr hne)
  · rw [if_pos (hknown.mp hmem)]
    obtain ⟨realm, info⟩ := entry
    obtain rfl : realm = msg.realm := hrealm'
    have hload := h.mem_proxies_iff.mp hentry
    rw [show info.ip = msg.address from hip] at hload
    exact ⟨_, heq, h.updateProxyLoad msg.load hload⟩
  · obtain ⟨realm, info⟩ := entry
    have hload := h.mem_proxies_iff.mp hentry
    rw [show info.ip = msg.address from hip] at hload
    exact absurd (hrealm realm _ hload) hother

/-- **One message**: where an address keeps to its realm and a shutdown is of a live
proxy, the service does what the message means. -/
theorem Service.Refines.step (h : s.Refines r)
    (hrealm : ∀ msg stale, e = .announce msg stale →
      ∀ realm load, r.live msg.address = some (realm, load) → realm = msg.realm)
    (hlive : ∀ proxy, e = .shutdowned proxy → r.live proxy.address ≠ none) :
    ∃ s', s.step e = some s' ∧ s'.Refines (r.step e) := by
  rcases e with res | ⟨msg, stale⟩ | proxy
  · rcases res with _ | res
    · exact ⟨s, rfl, h⟩
    · obtain ⟨s', hs', hnil, hids⟩ := s.updateRealms_some res
      refine ⟨s', hs', ?_, ?_⟩
      · intro id
        rw [hids, h.known, Roster.step]
        simp
      · intro ip
        rw [hnil]
        rfl
  · exact h.announce msg stale (hrealm msg stale rfl)
  · have hmem := h.mem_addresses_iff.mpr (hlive proxy rfl)
    exact ⟨_, deleteProxy_eq_some_iff.mpr ⟨hmem, rfl⟩, h.filter proxy.address⟩

/-! ### Every run -/

/-- No address announces two realms. -/
def OneRealm (es : List (ServiceEvent Load)) : Prop :=
  ∀ msg stale msg' stale', .announce msg stale ∈ es → .announce msg' stale' ∈ es →
    msg.address = msg'.address → msg.realm = msg'.realm

/-- Every shutdown is of a proxy that is live. -/
def LiveShutdowns (es : List (ServiceEvent Load)) : Prop :=
  ∀ i proxy, es[i]? = some (.shutdowned proxy) →
    (rosterAfter (es.take i)).live proxy.address ≠ none

theorem rosterAfter_concat (es : List (ServiceEvent Load)) (e : ServiceEvent Load) :
    rosterAfter (es ++ [e]) = (rosterAfter es).step e := by
  rw [rosterAfter, List.foldl_append]
  rfl

/-- A proxy that is live was announced, for the realm it is live for. -/
theorem exists_announce_of_live {es : List (ServiceEvent Load)} {ip : List UInt8} {realm : UInt8}
    {load : Load} (h : (rosterAfter es).live ip = some (realm, load)) :
    ∃ msg stale, .announce msg stale ∈ es ∧ msg.address = ip ∧ msg.realm = realm := by
  induction es using List.reverseRecOn generalizing realm load with
  | nil => cases h
  | append_singleton es e ih =>
    have hold (h : (rosterAfter es).live ip = some (realm, load)) :
        ∃ msg stale, .announce msg stale ∈ es ++ [e] ∧ msg.address = ip ∧ msg.realm = realm := by
      obtain ⟨msg, stale, hmem, hmsg⟩ := ih h
      exact ⟨msg, stale, List.mem_append_left _ hmem, hmsg⟩
    rw [rosterAfter_concat] at h
    rcases e with res | ⟨msg, stale⟩ | proxy
    · rcases res with _ | res
      · exact hold h
      · cases h
    · rw [Roster.step] at h
      split at h
      · by_cases hip : ip = msg.address
        · subst hip
          rw [Roster.live_set_self] at h
          obtain ⟨rfl, -⟩ := Prod.mk.inj (Option.some.inj h)
          exact ⟨msg, stale, List.mem_append_right _ List.mem_cons_self, rfl, rfl⟩
        · rw [Roster.live_set_of_ne _ hip] at h
          exact hold h
      · exact hold h
    · rw [Roster.step] at h
      by_cases hip : ip = proxy.address
      · subst hip
        rw [Roster.live_set_self] at h
        cases h
      · rw [Roster.live_set_of_ne _ hip] at h
        exact hold h

/-- **The list is what the messages mean**, at the end of every run in which no address
announces two realms and every shutdown is of a live proxy; and there is such an end. -/
theorem exists_refines (es : List (ServiceEvent Load)) (hone : OneRealm es)
    (hlive : LiveShutdowns es) : ∃ s, serviceRun es = some s ∧ s.Refines (rosterAfter es) := by
  induction es using List.reverseRecOn with
  | nil => exact ⟨_, rfl, Service.refines_init⟩
  | append_singleton es e ih =>
    have hone' : OneRealm es := by
      intro msg stale msg' stale' hmem hmem'
      exact hone _ _ _ _ (List.mem_append_left _ hmem) (List.mem_append_left _ hmem')
    have hlive' : LiveShutdowns es := by
      intro i proxy hi
      have hlt := (List.getElem?_eq_some_iff.mp hi).1
      have hcut := hlive i proxy (by rwa [List.getElem?_append_left hlt])
      rwa [List.take_append_of_le_length (Nat.le_of_lt hlt)] at hcut
    obtain ⟨s, hrun, href⟩ := ih hone' hlive'
    have hlast : e ∈ es ++ [e] := List.mem_append_right _ List.mem_cons_self
    obtain ⟨s', hstep, href'⟩ := href.step (e := e) (by
      rintro msg stale rfl realm load hload
      obtain ⟨msg', stale', hmem, hip, rfl⟩ := exists_announce_of_live hload
      exact hone _ _ _ _ (List.mem_append_left _ hmem) hlast hip) (by
      rintro proxy rfl
      have hcut := hlive es.length proxy (by simp)
      rwa [List.take_left' rfl] at hcut)
    refine ⟨s', Runs.run_concat hrun hstep, ?_⟩
    rwa [rosterAfter_concat]

/-! ### The choice of a proxy -/

section Choice

variable [LinearOrder Load]

/-- The proxy that is chosen is one of them, and none has a lower load. -/
theorem lowestLoad_spec (first : ProxyInfo Load) (proxies : List (ProxyInfo Load)) :
    (lowestLoad first proxies = first ∨ lowestLoad first proxies ∈ proxies) ∧
      (lowestLoad first proxies).load ≤ first.load ∧
      ∀ info ∈ proxies, (lowestLoad first proxies).load ≤ info.load := by
  induction proxies generalizing first with
  | nil => exact ⟨Or.inl rfl, le_rfl, fun _ h => absurd h List.not_mem_nil⟩
  | cons info proxies ih =>
    have hstep : lowestLoad first (info :: proxies) =
        lowestLoad (if info.load < first.load then info else first) proxies := rfl
    rw [hstep]
    obtain ⟨hmem, hle, hall⟩ := ih (if info.load < first.load then info else first)
    by_cases hlt : info.load < first.load
    · rw [if_pos hlt] at hmem hle hall ⊢
      refine ⟨Or.inr ?_, hle.trans hlt.le, ?_⟩
      · rcases hmem with heq | hmem
        · rw [heq]
          exact List.mem_cons_self
        · exact List.mem_cons_of_mem _ hmem
      · intro other hother
        rcases List.mem_cons.mp hother with rfl | hother
        · exact hle
        · exact hall other hother
    · rw [if_neg hlt] at hmem hle hall ⊢
      refine ⟨hmem.imp_right (List.mem_cons_of_mem _), hle, ?_⟩
      intro other hother
      rcases List.mem_cons.mp hother with rfl | hother
      · exact hle.trans (not_lt.mp hlt)
      · exact hall other hother

/-- **The proxy a realm is given**: none where none is live, and else one that is, of the
lowest load. -/
theorem Service.Refines.getProxyForRealm (h : s.Refines r)
    (hne : ∀ ip entry, r.live ip = some entry → ip ≠ []) (id : UInt8) :
    (s.getProxyForRealm id = [] ↔ ∀ ip load, r.live ip ≠ some (id, load)) ∧
      (s.getProxyForRealm id ≠ [] →
        ∃ load, r.live (s.getProxyForRealm id) = some (id, load) ∧
          ∀ ip load', r.live ip = some (id, load') → load ≤ load') := by
  have hmem (info : ProxyInfo Load) :
      info ∈ (s.proxies.filter fun entry => entry.1 = id).map Prod.snd ↔
        r.live info.ip = some (id, info.load) := h.mem_proxiesOf_iff
  rcases hproxies : (s.proxies.filter fun entry => entry.1 = id).map Prod.snd with
    _ | ⟨first, proxies⟩ <;> rw [hproxies] at hmem
  · have hnone : s.getProxyForRealm id = [] := by rw [Service.getProxyForRealm, hproxies]
    refine ⟨iff_of_true hnone ?_, fun hsome => absurd hnone hsome⟩
    intro ip load hload
    exact List.not_mem_nil ((hmem { ip, load }).mpr hload)
  · have hget : s.getProxyForRealm id = (lowestLoad first (first :: proxies)).ip := by
      rw [Service.getProxyForRealm, hproxies]
    obtain ⟨hchosen, -, hall⟩ := lowestLoad_spec first (first :: proxies)
    have hchosen : lowestLoad first (first :: proxies) ∈ first :: proxies := by
      rcases hchosen with heq | hchosen
      · rw [heq]
        exact List.mem_cons_self
      · exact hchosen
    have hlive := (hmem _).mp hchosen
    rw [hget]
    have hnil := hne _ _ hlive
    refine ⟨iff_of_false hnil fun hnone => hnone _ _ hlive, fun _ => ⟨_, hlive, ?_⟩⟩
    intro ip load' hload'
    exact hall { ip, load := load' } ((hmem { ip, load := load' }).mpr hload')

/-- **The registry of the proxies.** In every run in which no address announces two realms,
no address is empty, and every shutdown is of a proxy that is live, the service holds one
entry for every live address, of its realm and with its latest load, and no other; and
it gives a realm no proxy exactly where none is live for it, and else a live one of the
lowest load. -/
theorem registry_refines (es : List (ServiceEvent Load)) (hone : OneRealm es)
    (haddress : ∀ msg stale, .announce msg stale ∈ es → msg.address ≠ [])
    (hlive : LiveShutdowns es) :
    ∃ s, serviceRun es = some s ∧ s.Refines (rosterAfter es) ∧
      ∀ id, (s.getProxyForRealm id = [] ↔ ∀ ip load, (rosterAfter es).live ip ≠ some (id, load)) ∧
        (s.getProxyForRealm id ≠ [] →
          ∃ load, (rosterAfter es).live (s.getProxyForRealm id) = some (id, load) ∧
            ∀ ip load', (rosterAfter es).live ip = some (id, load') → load ≤ load') := by
  obtain ⟨s, hrun, href⟩ := exists_refines es hone hlive
  refine ⟨s, hrun, href, href.getProxyForRealm ?_⟩
  rintro ip ⟨realm, load⟩ hload
  obtain ⟨msg, stale, hmem, rfl, -⟩ := exists_announce_of_live hload
  exact haddress msg stale hmem

end Choice

/-- Two proxies of the realm 1: the first announces itself twice, and the second goes. -/
theorem registry_refines_two_proxies :
    let es : List (ServiceEvent ℕ) :=
      [.updateRealms (some RegistrySample.realmlist), RegistrySample.announce 1 [97] 3,
        RegistrySample.announce 1 [98] 1, RegistrySample.announce 1 [97] 2,
        .shutdowned { address := [98] }]
    ∃ s, serviceRun es = some s ∧ s.Refines (rosterAfter es) ∧ s.getProxyForRealm 1 = [97] := by
  intro es
  obtain ⟨s, hrun, href, -⟩ := registry_refines es (by
    intro msg stale msg' stale' h h' _
    simp only [es, RegistrySample.announce, List.mem_cons, reduceCtorEq,
      ServiceEvent.announce.injEq, false_or, List.not_mem_nil, or_false] at h h'
    rcases h with h | h | h <;> rcases h' with h' | h' | h' <;> rw [h.1, h'.1] <;> rfl) (by
    intro msg stale h
    simp only [es, RegistrySample.announce, List.mem_cons, reduceCtorEq,
      ServiceEvent.announce.injEq, false_or, List.not_mem_nil, or_false] at h
    rcases h with h | h | h <;> rw [h.1] <;> simp) (by
    intro i proxy h
    rcases i with _ | _ | _ | _ | _ | i <;> cases h
    intro hnone
    cases hnone)
  refine ⟨s, hrun, href, ?_⟩
  obtain rfl := Option.some.inj hrun
  rfl

end Morfeusz.Realmd
