import Morfeusz.Lib.NodeMap
import Morfeusz.Realmd.Registry

/-!
# Announcements in conflict

The list of the proxies with the memory it lies in: `proxies` is a `multimap`, and what
`process_proxy_announce` holds while it walks through it is an iterator. Every read through
an iterator is recorded, with the nodes there are at that time
(`Morfeusz.Realmd.NodeService.processProxyAnnounce`), and without the memory the service is
the one of `Morfeusz.Realmd.Service` (`Morfeusz.Realmd.NodeService.toService_step`).

An announcement is in conflict where its address is registered, but for other realms only.
The entries of the address are deleted then and two requests are sent, the first of them
for the realm that is read through the iterator to an entry that has just been deleted. So
the entries are as they should be, and the requests only by chance
(`Morfeusz.Realmd.NodeService.processProxyAnnounce_of_conflict`).
-/

namespace Morfeusz.Realmd

instance byteOrder : LinearOrder UInt8 where
  le_refl a := UInt8.le_refl a
  le_trans _ _ _ := UInt8.le_trans
  le_antisymm _ _ := UInt8.le_antisymm
  le_total := UInt8.le_total
  lt_iff_le_not_ge a b := by
    rw [UInt8.lt_iff_toNat_lt, UInt8.le_iff_toNat_le, UInt8.le_iff_toNat_le]
    omega
  toDecidableLE := inferInstance
  toDecidableLT := inferInstance

/-- The members of `Realm_Service` of `Service`, with the nodes of the `multimap`. -/
structure NodeService (Load : Type) where
  realmMap : List (UInt8 × Realm)
  proxies : NodeMap UInt8 (ProxyInfo Load)
  /-- The realms of the requests to the event channel, oldest first. -/
  requests : List UInt8

variable {Load : Type}

namespace NodeService

open NodeMap

def init : NodeService Load := { realmMap := [], proxies := .empty, requests := [] }

/-- The service without its memory. -/
def toService (s : NodeService Load) : Service Load :=
  { realmMap := s.realmMap, proxies := s.proxies.entries, requests := s.requests }

/-- A read of the node at `place`, while the nodes of `m` are there. -/
def readOf (m : NodeMap UInt8 (ProxyInfo Load)) (node : Node UInt8 (ProxyInfo Load)) : Read :=
  { place := node.place, live := m.places }

variable (a : Allocator)

/-- `add_proxy`. -/
def addProxy (s : NodeService Load) (realm : UInt8) (ip : List UInt8) (load : Load) :
    NodeService Load :=
  { s with proxies := s.proxies.insert a realm { ip, load } }

/-- The loop of `update_proxy_load` over the nodes ahead: the node whose load it sets, and
the nodes it reads. -/
def updateLoadLoop (ip : List UInt8) : List (Node UInt8 (ProxyInfo Load)) →
    Option (Node UInt8 (ProxyInfo Load)) × List (Node UInt8 (ProxyInfo Load))
  | [] => (none, [])
  | node :: nodes =>
    if node.value.ip = ip then (some node, [node])
    else
      let (found, visited) := updateLoadLoop ip nodes
      (found, node :: visited)

/-- `update_proxy_load`. -/
def updateProxyLoad (s : NodeService Load) (ip : List UInt8) (load : Load) :
    NodeService Load × List Read :=
  let (found, visited) := updateLoadLoop ip s.proxies.nodes
  let reads := visited.map (readOf s.proxies)
  match found with
  | some node =>
    ({ s with proxies := s.proxies.assign node.place { node.value with load } }, reads)
  | none => (s, reads)

/-- The loop of `delete_proxy` over the nodes ahead: a node is read, and its successor
found, before it is erased. -/
def deleteLoop (ip : List UInt8) : List (Node UInt8 (ProxyInfo Load)) →
    NodeMap UInt8 (ProxyInfo Load) → NodeMap UInt8 (ProxyInfo Load) × List Read
  | [], m => (m, [])
  | node :: nodes, m =>
    let (m', reads) := deleteLoop ip nodes (if node.value.ip = ip then m.erase node.place else m)
    (m', readOf m node :: reads)

/-- `delete_proxy`, with the `ASSERT` at its end. -/
def deleteProxy (s : NodeService Load) (ip : List UInt8) :
    Option (NodeService Load × List Read) :=
  if s.toService.addresses.contains ip then
    let (proxies, reads) := deleteLoop ip s.proxies.nodes s.proxies
    some ({ s with proxies }, reads)
  else none

/-- How the search of `process_proxy_announce` ends. -/
inductive Search
  /-- The address has an entry for another realm: the iterator points to it. -/
  | duplicate (itr : ℕ)
  | known
  | newProxy

/-- The loop of `process_proxy_announce` over the nodes ahead, with the nodes it reads. -/
def searchLoop (realmId : UInt8) (address : List UInt8) :
    List (Node UInt8 (ProxyInfo Load)) → Search × List (Node UInt8 (ProxyInfo Load))
  | [] => (.newProxy, [])
  | node :: nodes =>
    if node.key ≠ realmId then
      if node.value.ip = address then (.duplicate node.place, [node])
      else
        let (found, visited) := searchLoop realmId address nodes
        (found, node :: visited)
    else if node.value.ip = address then (.known, [node])
    else
      let (found, visited) := searchLoop realmId address nodes
      (found, node :: visited)

/-- `itr->first`: the key of the node, or what lies where there is none. -/
def realmAt (s : NodeService Load) (itr : ℕ) (stale : UInt8) : UInt8 :=
  ((s.proxies.node? itr).map Node.key).getD stale

/-- `request_proxies_for_realm`. -/
def requestProxiesForRealm (s : NodeService Load) (id : UInt8) : NodeService Load :=
  { s with requests := s.requests ++ [id] }

/-- `process_proxy_announce`. -/
def processProxyAnnounce (s : NodeService Load) (announce : ProxyAnnounce Load) (stale : UInt8) :
    Option (NodeService Load × List Read) :=
  if announce.realm ∉ s.toService.realmIds then some (s, [])
  else if announce.realm ∉ s.toService.proxyRealms then
    some (s.addProxy a announce.realm announce.address announce.load, [])
  else
    let (found, visited) := searchLoop announce.realm announce.address s.proxies.nodes
    let reads := visited.map (readOf s.proxies)
    match found with
    | .duplicate itr => do
      let (t, erasing) ← s.deleteProxy announce.address
      let t' := t.requestProxiesForRealm (t.realmAt itr stale)
      some (t'.requestProxiesForRealm announce.realm,
        reads ++ erasing ++ [{ place := itr, live := t.proxies.places }])
    | .newProxy => some (s.addProxy a announce.realm announce.address announce.load, reads)
    | .known =>
      let (t, updating) := s.updateProxyLoad announce.address announce.load
      some (t, reads ++ updating)

/-- `update_realms`, which forgets all proxies. -/
def updateRealms (s : NodeService Load) : Option RealmlistResult → Option (NodeService Load)
  | none => some s
  | some res => do
    let t ← s.toService.updateRealms (some res)
    some { realmMap := t.realmMap, proxies := .empty, requests := t.requests }

/-- What reaches the service, with the reads through iterators. -/
def step (s : NodeService Load) : ServiceEvent Load → Option (NodeService Load × List Read)
  | .updateRealms res => (s.updateRealms res).map (·, [])
  | .announce announce stale => s.processProxyAnnounce a announce stale
  | .shutdowned proxy => s.deleteProxy proxy.address

/-! ### The loops -/

variable {a} {s t : NodeService Load} {m : NodeMap UInt8 (ProxyInfo Load)} {ip : List UInt8}
  {before ahead : List (Node UInt8 (ProxyInfo Load))}

theorem mem_addresses :
    ip ∈ s.toService.addresses ↔ ∃ node ∈ s.proxies.nodes, node.value.ip = ip := by
  rw [Service.addresses, toService, entries, List.map_map]
  exact List.mem_map

/-- **What a deletion does**: the nodes of the address go, and every node is read while it
is there. -/
theorem deleteLoop_spec (h : m.nodes = before ++ ahead) :
    (deleteLoop ip ahead m).1.nodes =
        before ++ ahead.filter (fun node => node.value.ip ≠ ip) ∧
      ∀ read ∈ (deleteLoop ip ahead m).2, read.Live := by
  induction ahead generalizing m before with
  | nil => exact ⟨h, fun _ hread => absurd hread List.not_mem_nil⟩
  | cons node ahead ih =>
    have hlive : (readOf m node).Live := by
      rw [Read.Live, readOf, places, h]
      exact List.mem_map_of_mem (List.mem_append_right _ List.mem_cons_self)
    rw [deleteLoop]
    by_cases hip : node.value.ip = ip
    · obtain ⟨hnodes, hreads⟩ := ih (nodes_erase h)
      rw [if_pos hip, List.filter_cons_of_neg (by simpa using hip)]
      exact ⟨hnodes, List.forall_mem_cons.mpr ⟨hlive, hreads⟩⟩
    · have hsplit : m.nodes = (before ++ [node]) ++ ahead := by simpa using h
      obtain ⟨hnodes, hreads⟩ := ih hsplit
      rw [if_neg hip, List.filter_cons_of_pos (by simpa using hip)]
      exact ⟨by simpa using hnodes, List.forall_mem_cons.mpr ⟨hlive, hreads⟩⟩

theorem deleteProxy_eq_none (hip : ip ∉ s.toService.addresses) : s.deleteProxy ip = none :=
  if_neg fun hcontains => hip (List.contains_iff_mem.mp hcontains)

theorem deleteProxy_eq_some (hip : ip ∈ s.toService.addresses) :
    ∃ reads, s.deleteProxy ip =
        some ({ s with proxies := s.proxies.filter fun node => node.value.ip ≠ ip }, reads) ∧
      ∀ read ∈ reads, read.Live := by
  obtain ⟨hnodes, hreads⟩ := @deleteLoop_spec Load s.proxies ip [] s.proxies.nodes rfl
  refine ⟨(deleteLoop ip s.proxies.nodes s.proxies).2, ?_, hreads⟩
  have hproxies : (deleteLoop ip s.proxies.nodes s.proxies).1 =
      s.proxies.filter fun node => node.value.ip ≠ ip := ext_nodes hnodes
  rw [deleteProxy, if_pos (List.contains_iff_mem.mpr hip), ← hproxies]

/-- The search finds what it finds in the entries, and reads nodes that are there. -/
theorem searchLoop_spec (realmId : UInt8) (address : List UInt8)
    (nodes : List (Node UInt8 (ProxyInfo Load))) :
    (match (searchLoop realmId address nodes).1 with
      | .duplicate itr =>
        Service.searchLoop realmId address (nodes.map fun node => (node.key, node.value)) =
            .duplicate ∧
          ∃ node ∈ nodes, node.place = itr ∧ node.value.ip = address ∧ node.key ≠ realmId
      | .known =>
        Service.searchLoop realmId address (nodes.map fun node => (node.key, node.value)) = .known
      | .newProxy =>
        Service.searchLoop realmId address (nodes.map fun node => (node.key, node.value)) =
          .newProxy) ∧
      ∀ node ∈ (searchLoop realmId address nodes).2, node ∈ nodes := by
  induction nodes with
  | nil => exact ⟨rfl, fun _ h => absurd h List.not_mem_nil⟩
  | cons node nodes ih =>
    rw [searchLoop, List.map_cons, Service.searchLoop]
    by_cases hip : node.value.ip = address
    · by_cases hkey : node.key = realmId
      · simp [hip, hkey]
      · simp [hip, hkey]
    · -- the node has another address: the search goes on
      simp only [hip, if_false, ite_self]
      obtain ⟨hfound, hvisited⟩ := ih
      refine ⟨?_, ?_⟩
      · cases hsearch : (searchLoop realmId address nodes).1 <;> rw [hsearch] at hfound
        · obtain ⟨heq, other, hmem, hother⟩ := hfound
          exact ⟨heq, other, List.mem_cons_of_mem _ hmem, hother⟩
        · exact hfound
        · exact hfound
      · intro other hmem
        rcases List.mem_cons.mp hmem with rfl | hmem
        · exact List.mem_cons_self
        · exact List.mem_cons_of_mem _ (hvisited other hmem)

theorem updateLoadLoop_spec (load : Load) (nodes : List (Node UInt8 (ProxyInfo Load))) :
    (match (updateLoadLoop ip nodes).1 with
      | some node => ∃ before ahead, nodes = before ++ node :: ahead ∧
          Service.updateLoadLoop ip load (nodes.map fun node => (node.key, node.value)) =
            (before ++ { node with value := { node.value with load } } :: ahead).map
              fun node => (node.key, node.value)
      | none =>
        Service.updateLoadLoop ip load (nodes.map fun node => (node.key, node.value)) =
          nodes.map fun node => (node.key, node.value)) ∧
      ∀ node ∈ (updateLoadLoop ip nodes).2, node ∈ nodes := by
  induction nodes with
  | nil => exact ⟨rfl, fun _ h => absurd h List.not_mem_nil⟩
  | cons node nodes ih =>
    rw [updateLoadLoop, List.map_cons, Service.updateLoadLoop]
    by_cases hip : node.value.ip = ip
    · simp only [hip, if_true]
      exact ⟨⟨[], nodes, rfl, by simp⟩, by simp⟩
    · simp only [hip, if_false]
      obtain ⟨hfound, hvisited⟩ := ih
      refine ⟨?_, ?_⟩
      · cases hloop : (updateLoadLoop ip nodes).1 <;> rw [hloop] at hfound
        · exact congrArg _ hfound
        · obtain ⟨before, ahead, rfl, heq⟩ := hfound
          exact ⟨node :: before, ahead, rfl, congrArg _ heq⟩
      · intro other hmem
        rcases List.mem_cons.mp hmem with rfl | hmem
        · exact List.mem_cons_self
        · exact List.mem_cons_of_mem _ (hvisited other hmem)

/-- The nodes that a walk has read are there as long as nothing is changed. -/
theorem live_of_mem_map_readOf {visited : List (Node UInt8 (ProxyInfo Load))}
    (h : ∀ node ∈ visited, node ∈ m.nodes) : ∀ read ∈ visited.map (readOf m), read.Live := by
  intro read hread
  obtain ⟨node, hnode, rfl⟩ := List.mem_map.mp hread
  exact List.mem_map_of_mem (h node hnode)

/-! ### Without the memory -/

theorem toService_addProxy (s : NodeService Load) (realm : UInt8) (ip : List UInt8) (load : Load) :
    (s.addProxy a realm ip load).toService = s.toService.addProxy realm ip load := by
  rw [Service.addProxy, toService, addProxy, entries_insert]
  rfl

theorem updateProxyLoad_spec (s : NodeService Load) (ip : List UInt8) (load : Load) :
    (s.updateProxyLoad ip load).1.toService = s.toService.updateProxyLoad ip load ∧
      ∀ read ∈ (s.updateProxyLoad ip load).2, read.Live := by
  have hspec := @updateLoadLoop_spec Load ip load s.proxies.nodes
  rw [updateProxyLoad]
  rcases hloop : updateLoadLoop ip s.proxies.nodes with ⟨_ | node, visited⟩ <;>
    rw [hloop] at hspec <;> obtain ⟨hfound, hvisited⟩ := hspec
  · have hfound : Service.updateLoadLoop ip load s.proxies.entries = s.proxies.entries := hfound
    refine ⟨?_, live_of_mem_map_readOf hvisited⟩
    simp only [toService, Service.updateProxyLoad, hfound]
  · obtain ⟨before, ahead, hnodes, heq⟩ := hfound
    refine ⟨?_, live_of_mem_map_readOf hvisited⟩
    simp only [toService, Service.updateProxyLoad, entries, nodes_assign_of_nodes_eq hnodes, heq]

theorem toService_filter (s : NodeService Load) (ip : List UInt8) :
    { s with proxies := s.proxies.filter fun node => node.value.ip ≠ ip }.toService =
      { s.toService with
        proxies := s.toService.proxies.filter fun entry => entry.2.ip ≠ ip } := by
  simp only [toService, entries, nodes_filter, List.filter_map]
  rfl

theorem toService_deleteProxy (s : NodeService Load) (ip : List UInt8) :
    (s.deleteProxy ip).map (fun (t, _) => t.toService) = s.toService.deleteProxy ip := by
  by_cases hip : ip ∈ s.toService.addresses
  · obtain ⟨reads, heq, -⟩ := deleteProxy_eq_some hip
    rw [heq, Service.deleteProxy, if_pos hip, ← toService_filter]
    rfl
  · rw [deleteProxy_eq_none hip, Service.deleteProxy, if_neg hip]
    rfl

theorem toService_updateRealms (s : NodeService Load) (res : Option RealmlistResult) :
    (s.updateRealms res).map toService = s.toService.updateRealms res := by
  rcases res with _ | res
  · rfl
  · obtain ⟨t, ht, hnil, -⟩ := s.toService.updateRealms_some res
    rw [updateRealms, ht]
    have heq : t = { t with proxies := [] } := by rw [← hnil]
    exact congrArg some heq.symm

/-! ### An announcement -/

/-- The search for the address of the announcement finds it under another realm. -/
def FindsDuplicate (s : NodeService Load) (announce : ProxyAnnounce Load) : Prop :=
  announce.realm ∈ s.toService.realmIds ∧ announce.realm ∈ s.toService.proxyRealms ∧
    Service.searchLoop announce.realm announce.address s.toService.proxies = .duplicate

/-- **What is done about a duplicate.** All entries of the address go, and no other; two
requests are sent; and of the reads through iterators one is of a node that is gone: the one
that the realm of the first request is from. -/
theorem processProxyAnnounce_of_findsDuplicate {announce : ProxyAnnounce Load}
    (h : s.FindsDuplicate announce) (a : Allocator) (stale : UInt8) :
    ∃ reads dead, s.processProxyAnnounce a announce stale = some
        ({ s with
          proxies := s.proxies.filter fun node => node.value.ip ≠ announce.address
          requests := s.requests ++ [stale] ++ [announce.realm] }, reads ++ [dead]) ∧
      (∀ read ∈ reads, read.Live) ∧ ¬dead.Live := by
  obtain ⟨hknown, hrealm, hdup⟩ := h
  have hspec := searchLoop_spec announce.realm announce.address s.proxies.nodes
  have hdup : Service.searchLoop announce.realm announce.address
      (s.proxies.nodes.map fun node => (node.key, node.value)) = .duplicate := hdup
  rw [hdup] at hspec
  rcases hsearch : searchLoop announce.realm announce.address s.proxies.nodes with
    ⟨_ | _ | _, visited⟩ <;> rw [hsearch] at hspec
  case duplicate itr =>
    obtain ⟨⟨-, node, hnode, rfl, hip, -⟩, hvisited⟩ := hspec
    obtain ⟨erasing, hdelete, herasing⟩ :=
      deleteProxy_eq_some (mem_addresses.mpr ⟨node, hnode, hip⟩)
    -- the node the iterator points to is one of those that are deleted
    have hgone : node.place ∉
        (s.proxies.filter fun node => node.value.ip ≠ announce.address).places :=
      notMem_places_filter hnode (by simpa using hip)
    refine ⟨visited.map (readOf s.proxies) ++ erasing, ⟨node.place, _⟩, ?_, ?_, hgone⟩
    · rw [processProxyAnnounce, if_neg (not_not.mpr hknown), if_neg (not_not.mpr hrealm), hsearch]
      simp only [hdelete, Option.bind_eq_bind, Option.bind_some, requestProxiesForRealm, realmAt,
        node?_eq_none hgone, Option.map_none, Option.getD_none]
      rfl
    · intro read hread
      rcases List.mem_append.mp hread with hread | hread
      · exact live_of_mem_map_readOf hvisited read hread
      · exact herasing read hread
  · exact absurd hspec.1 (by simp)
  · exact absurd hspec.1 (by simp)

/-- **The reads of an announcement** are all of nodes that are there if and only if it finds
no duplicate; and without the memory it is the announcement of `Service`. -/
theorem processProxyAnnounce_spec (a : Allocator) (s : NodeService Load)
    (announce : ProxyAnnounce Load) (stale : UInt8) :
    ∃ t reads, s.processProxyAnnounce a announce stale = some (t, reads) ∧
      s.toService.processProxyAnnounce announce stale = some t.toService ∧
      ((∀ read ∈ reads, read.Live) ↔ ¬s.FindsDuplicate announce) := by
  rw [Service.processProxyAnnounce]
  by_cases hknown : announce.realm ∈ s.toService.realmIds
  swap
  · rw [if_pos hknown, processProxyAnnounce, if_pos hknown]
    exact ⟨s, [], rfl, rfl, iff_of_true (by simp) fun h => hknown h.1⟩
  rw [if_neg (not_not.mpr hknown)]
  by_cases hrealm : announce.realm ∈ s.toService.proxyRealms
  swap
  · rw [if_pos hrealm, processProxyAnnounce, if_neg (not_not.mpr hknown), if_pos hrealm]
    refine ⟨_, _, rfl, ?_, iff_of_true (by simp) fun h => hrealm h.2.1⟩
    rw [toService_addProxy]
  rw [if_neg (not_not.mpr hrealm)]
  have hspec := searchLoop_spec announce.realm announce.address s.proxies.nodes
  rcases hsearch : searchLoop announce.realm announce.address s.proxies.nodes with
    ⟨itr | _ | _, visited⟩ <;> rw [hsearch] at hspec <;> obtain ⟨hfound, hvisited⟩ := hspec
  case duplicate =>
    obtain ⟨hdup, node, hnode, -, hip, -⟩ := hfound
    have hfinds : s.FindsDuplicate announce := ⟨hknown, hrealm, hdup⟩
    obtain ⟨reads, dead, heq, -, hdead⟩ := processProxyAnnounce_of_findsDuplicate hfinds a stale
    refine ⟨_, _, heq, ?_, iff_of_false ?_ (not_not.mpr hfinds)⟩
    · rw [hfinds.2.2, Service.deleteProxy, if_pos (mem_addresses.mpr ⟨node, hnode, hip⟩),
        ← toService_filter]
      rfl
    · intro hlive
      exact hdead (hlive dead (List.mem_append_right _ List.mem_cons_self))
  case known =>
    have hfound : Service.searchLoop announce.realm announce.address s.toService.proxies =
      .known := hfound
    obtain ⟨hupdate, hupdating⟩ := s.updateProxyLoad_spec announce.address announce.load
    rw [processProxyAnnounce, if_neg (not_not.mpr hknown), if_neg (not_not.mpr hrealm), hsearch]
    refine ⟨_, _, rfl, ?_, iff_of_true ?_ ?_⟩
    · rw [hfound, ← hupdate]
      rfl
    · intro read hread
      rcases List.mem_append.mp hread with hread | hread
      · exact live_of_mem_map_readOf hvisited read hread
      · exact hupdating read hread
    · intro hfinds
      exact Service.Search.noConfusion (hfound.symm.trans hfinds.2.2)
  case newProxy =>
    have hfound : Service.searchLoop announce.realm announce.address s.toService.proxies =
      .newProxy := hfound
    rw [processProxyAnnounce, if_neg (not_not.mpr hknown), if_neg (not_not.mpr hrealm), hsearch]
    refine ⟨_, _, rfl, ?_, iff_of_true (live_of_mem_map_readOf hvisited) ?_⟩
    · rw [hfound, toService_addProxy]
    · intro hfinds
      exact Service.Search.noConfusion (hfound.symm.trans hfinds.2.2)

/-- **The nodes are those of the entries**: without its memory the service takes the steps of
`Service`. -/
theorem toService_step (a : Allocator) (s : NodeService Load) (e : ServiceEvent Load) :
    (s.step a e).map (fun (t, _) => t.toService) = s.toService.step e := by
  rcases e with res | ⟨announce, stale⟩ | proxy
  · rw [step, Option.map_map]
    exact s.toService_updateRealms res
  · obtain ⟨t, reads, heq, hservice, -⟩ := s.processProxyAnnounce_spec a announce stale
    rw [step, heq, Service.step, hservice]
    rfl
  · exact s.toService_deleteProxy proxy.address

/-- The state a step leads to. -/
def advance (a : Allocator) (s : NodeService Load) (e : ServiceEvent Load) :
    Option (NodeService Load) := (s.step a e).map Prod.fst

/-! ### Announcements in conflict -/

/-- The realm of the announcement is known and has a proxy, and the address has entries, but
only for other realms. -/
structure Conflict (s : NodeService Load) (announce : ProxyAnnounce Load) : Prop where
  known : announce.realm ∈ s.toService.realmIds
  hasProxy : announce.realm ∈ s.toService.proxyRealms
  registered : ∃ node ∈ s.proxies.nodes, node.value.ip = announce.address
  otherRealms : ∀ node ∈ s.proxies.nodes, node.value.ip = announce.address →
    node.key ≠ announce.realm

/-- The conflict is resolved by what was done: the entries of the address are gone and the
others as they were, the realm of the announcement and one that the address was registered
for are asked once each, and every read was of a node that was there. -/
structure Resolves (s t : NodeService Load) (announce : ProxyAnnounce Load) (reads : List Read) :
    Prop where
  nodes : t.proxies.nodes = s.proxies.nodes.filter fun node => node.value.ip ≠ announce.address
  requests : ∃ node ∈ s.proxies.nodes, node.value.ip = announce.address ∧
    ∃ sent, t.requests = s.requests ++ sent ∧ sent.Perm [announce.realm, node.key]
  live : ∀ read ∈ reads, read.Live

theorem Conflict.findsDuplicate {announce : ProxyAnnounce Load} (h : s.Conflict announce) :
    s.FindsDuplicate announce := by
  refine ⟨h.known, h.hasProxy, ?_⟩
  have hspec := Service.searchLoop_spec announce.realm announce.address s.toService.proxies
  cases hsearch : Service.searchLoop announce.realm announce.address s.toService.proxies <;>
    rw [hsearch] at hspec
  case known =>
    obtain ⟨entry, hmem, hip, hrealm⟩ := hspec
    obtain ⟨node, hnode, rfl⟩ := List.mem_map.mp hmem
    exact absurd hrealm (h.otherRealms node hnode hip)
  case newProxy =>
    obtain ⟨node, hnode, hip⟩ := h.registered
    exact absurd hip (hspec (node.key, node.value) (List.mem_map_of_mem hnode))

/-- **What comes of a conflict.** The entries are right; and the requests are right exactly
where what is read through the iterator is a realm the address was registered for. -/
theorem processProxyAnnounce_of_conflict {announce : ProxyAnnounce Load} (h : s.Conflict announce)
    (a : Allocator) (stale : UInt8) :
    ∃ t reads dead, s.processProxyAnnounce a announce stale = some (t, reads ++ [dead]) ∧
      t.proxies.nodes = s.proxies.nodes.filter (fun node => node.value.ip ≠ announce.address) ∧
      t.requests = s.requests ++ [stale, announce.realm] ∧
      (∀ read ∈ reads, read.Live) ∧ ¬dead.Live := by
  obtain ⟨reads, dead, heq, hreads, hdead⟩ :=
    processProxyAnnounce_of_findsDuplicate h.findsDuplicate a stale
  exact ⟨_, reads, dead, heq, rfl, List.append_assoc _ _ _, hreads, hdead⟩

theorem not_resolves_of_conflict {announce : ProxyAnnounce Load} (h : s.Conflict announce)
    (a : Allocator) (stale : UInt8) :
    ¬∃ t reads, s.processProxyAnnounce a announce stale = some (t, reads) ∧
      s.Resolves t announce reads := by
  rintro ⟨t, reads, heq, hres⟩
  obtain ⟨t', reads', dead, heq', -, -, -, hdead⟩ := processProxyAnnounce_of_conflict h a stale
  obtain ⟨-, rfl⟩ := Prod.mk.inj (Option.some.inj (heq.symm.trans heq'))
  exact hdead (hres.live dead (List.mem_append_right _ List.mem_cons_self))

end NodeService

/-- The state a sequence of events takes the service to, from its start. -/
def nodeRun (a : Allocator) (es : List (ServiceEvent Load)) : Option (NodeService Load) :=
  Runs.run (NodeService.advance a) NodeService.init es

open NodeService

/-- Every run of the service is one of `Service`, and every run of `Service` has its nodes. -/
theorem toService_nodeRun (a : Allocator) (es : List (ServiceEvent Load)) :
    (nodeRun a es).map toService = serviceRun es := by
  induction es using List.reverseRecOn with
  | nil => rfl
  | append_singleton es e ih =>
    rw [nodeRun, serviceRun, Runs.run_append, Runs.run_append, ← nodeRun, ← serviceRun, ← ih]
    rcases nodeRun a es with _ | s
    · rfl
    · rw [Option.bind_some, Runs.run_singleton, Option.map_some, Option.bind_some,
        Runs.run_singleton, ← s.toService_step a e, advance, Option.map_map]
      rfl

/-- **The reads of a step** are all of nodes that are there, unless it is an announcement
that finds a duplicate. -/
theorem reads_live_iff {a : Allocator} {s t : NodeService Load} {e : ServiceEvent Load}
    {reads : List NodeMap.Read} (h : s.step a e = some (t, reads)) :
    (∀ read ∈ reads, read.Live) ↔ ∀ msg stale, e = .announce msg stale → ¬s.FindsDuplicate msg := by
  rcases e with res | ⟨announce, stale⟩ | proxy
  · obtain ⟨t', -, heq⟩ := Option.map_eq_some_iff.mp h
    obtain ⟨-, rfl⟩ := Prod.mk.inj heq
    simp
  · obtain ⟨t', reads', heq, -, hiff⟩ := s.processProxyAnnounce_spec a announce stale
    obtain ⟨-, rfl⟩ := Prod.mk.inj (Option.some.inj (heq.symm.trans h))
    rw [hiff]
    constructor
    · rintro hnone msg stale' heq
      obtain ⟨rfl, -⟩ := ServiceEvent.announce.inj heq
      exact hnone
    · intro hnone
      exact hnone announce stale rfl
  · refine iff_of_true ?_ (by simp)
    have hmem : proxy.address ∈ s.toService.addresses := by
      by_contra hmem
      rw [NodeService.step, deleteProxy_eq_none hmem] at h
      cases h
    obtain ⟨reads', heq, hlive⟩ := deleteProxy_eq_some hmem
    obtain ⟨-, rfl⟩ := Prod.mk.inj (Option.some.inj (heq.symm.trans h))
    exact hlive

/-- **A conflict is never resolved soundly**: in every state, whatever the memory holds, the
realm of one of the two requests is read from an entry that was deleted before. -/
theorem conflict_not_resolved (a : Allocator) (s : NodeService Load)
    (announce : ProxyAnnounce Load) (stale : UInt8) (h : s.Conflict announce) :
    ¬∃ t reads, s.processProxyAnnounce a announce stale = some (t, reads) ∧
      s.Resolves t announce reads := not_resolves_of_conflict h a stale

namespace ConflictSample

/-- The realms 1 and 2, and a proxy of each. -/
def events : List (ServiceEvent ℕ) :=
  [.updateRealms (some RegistrySample.realmlist), RegistrySample.announce 1 [97] 3,
    RegistrySample.announce 2 [98] 5]

/-- The service after them. -/
def service : NodeService ℕ := (nodeRun NodeMap.topAllocator events).getD .init

/-- The proxy of the realm 2 announces itself for the realm 1. -/
def announce : ProxyAnnounce ℕ := { realmId := 1, address := [98], load := 5 }

theorem conflict : service.Conflict announce where
  known := by decide
  hasProxy := by decide
  registered := by decide
  otherRealms := by decide

end ConflictSample

theorem conflict_not_resolved_sample :
    ¬∃ t reads, ConflictSample.service.processProxyAnnounce NodeMap.topAllocator
        ConflictSample.announce 0 = some (t, reads) ∧
      ConflictSample.service.Resolves t ConflictSample.announce reads :=
  conflict_not_resolved NodeMap.topAllocator _ _ 0 ConflictSample.conflict

/-- A conflict that a run of the service leads to; and where the memory holds a 0, the realm 0
is asked for a proxy, which there is not. -/
theorem not_resolves_conflict_sample :
    nodeRun NodeMap.topAllocator ConflictSample.events = some ConflictSample.service ∧
    ConflictSample.service.Conflict ConflictSample.announce ∧
    (ConflictSample.service.processProxyAnnounce NodeMap.topAllocator ConflictSample.announce 0).map
      (fun (t, _) => t.requests) = some [1, 2, 0, 1] ∧
    ¬∃ t reads, ConflictSample.service.processProxyAnnounce NodeMap.topAllocator
        ConflictSample.announce 0 = some (t, reads) ∧
      ConflictSample.service.Resolves t ConflictSample.announce reads :=
  ⟨rfl, ConflictSample.conflict, rfl, not_resolves_of_conflict ConflictSample.conflict _ 0⟩

end Morfeusz.Realmd
