import Mathlib.Data.List.Sort
import Morfeusz.Lib.Runs
import Morfeusz.Realmd.Socket

/-!
# The realms and the proxies of the service

`Realm_Service` keeps the list of the realms, which the database fills, and the game
proxies that have announced themselves, which the event channel tells it of. The two
meet in `update_realms`: whatever the answer says, it ends with a request to the proxies
of all realms, before which those that are known are forgotten.

A proxy is known by its address. `process_proxy_announce` looks for it before it adds
it, among the proxies of all realms – but only if the realm of the announcement has a
proxy already. And where it finds the address under another realm it deletes the entry
and asks both realms again, reading the first of them through an iterator it has just
invalidated; what is read there is a parameter of the message.

A failed `ASSERT` aborts the process, and is `none`.
-/

namespace Morfeusz.Realmd

/-! ### The messages of the event channel -/

/-- `Proxy_Announce`. -/
structure ProxyAnnounce (Load : Type) where
  realmId : UInt16
  address : List UInt8
  load : Load

/-- The realm an announcement is taken for: the id is cut to eight bits, which is what a
proxy has it in. -/
def ProxyAnnounce.realm {Load : Type} (announce : ProxyAnnounce Load) : UInt8 :=
  announce.realmId.toUInt8

/-- `Proxy_Shutdowned`. -/
structure ProxyShutdowned where
  address : List UInt8

/-- `Proxy_Info`. -/
structure ProxyInfo (Load : Type) where
  ip : List UInt8
  load : Load
  deriving DecidableEq

/-- The answer to the query of the realm list: the statement has eight columns. -/
structure RealmlistResult where
  res : ResultSet
  fresh : res.Fresh
  columns : res.numFields = 8

/-- The members of `Realm_Service` that have to do with the realms and their proxies. The
first is a `map` and the second a `multimap`, both in the order of their keys. -/
structure Service (Load : Type) where
  realmMap : List (UInt8 × Realm)
  proxies : List (UInt8 × ProxyInfo Load)
  /-- The realms of the requests to the event channel, oldest first. -/
  requests : List UInt8

namespace Service

variable {Load : Type}

def init : Service Load := { realmMap := [], proxies := [], requests := [] }

/-! ### The realms -/

/-- The row of a realm, as the loop of `update_realms` reads it. -/
def readRealm (res : ResultSet) : Option (UInt32 × Realm) := do
  let name ← res.getString 2
  let icon ← res.getUint8 3
  let color ← res.getUint8 4
  let timezone ← res.getUint8 5
  let allowedSecurityLevel ← res.getUint8 6
  let population ← res.getFloat 7
  let build ← res.getUint16 8
  let id ← res.getUint32 1
  some (id, { name, icon, color, timezone, allowedSecurityLevel, population, build })

/-- The `while` loop of `update_realms`; the rows that are left bound it. -/
def realmsLoop : ℕ → ResultSet → Option (List (UInt32 × Realm))
  | 0, _ => some []
  | left + 1, res =>
    match res.next with
    | (true, res) => do
      let row ← readRealm res
      let rows ← realmsLoop left res
      some (row :: rows)
    | (false, _) => some []

/-- `realm_map[id] = rlm`, with an id that is cut to the key of the map. -/
def assignRealm (realmMap : List (UInt8 × Realm)) (row : UInt32 × Realm) : List (UInt8 × Realm) :=
  (realmMap.filter fun entry => entry.1 ≠ row.1.toUInt8).orderedInsert
    (fun a b => a.1 < b.1) (row.1.toUInt8, row.2)

/-- The realm ids there are. -/
def realmIds (s : Service Load) : List UInt8 := s.realmMap.map Prod.fst

/-- `request_proxies_for_realm`. -/
def requestProxiesForRealm (s : Service Load) (id : UInt8) : Service Load :=
  { s with requests := s.requests ++ [id] }

/-- `request_proxies`, which deletes the proxies first. -/
def requestProxies (s : Service Load) : Service Load :=
  s.realmIds.foldl requestProxiesForRealm { s with proxies := [] }

/-- `update_realms`. -/
def updateRealms (s : Service Load) (res : Option RealmlistResult) : Option (Service Load) :=
  match res with
  | none => some s
  | some res => do
    let rows ← realmsLoop res.res.rows.length res.res
    some { s with realmMap := rows.foldl assignRealm s.realmMap }.requestProxies

/-! ### The proxies -/

/-- `add_proxy`: a `multimap` puts an entry behind those of the same key. -/
def addProxy (s : Service Load) (realm : UInt8) (ip : List UInt8) (load : Load) : Service Load :=
  { s with proxies := s.proxies.orderedInsert (fun a b => a.1 < b.1) (realm, { ip, load }) }

/-- The loop of `update_proxy_load`, which stops at the first match. -/
def updateLoadLoop (ip : List UInt8) (load : Load) :
    List (UInt8 × ProxyInfo Load) → List (UInt8 × ProxyInfo Load)
  | [] => []
  | entry :: entries =>
    if entry.2.ip = ip then (entry.1, { entry.2 with load }) :: entries
    else entry :: updateLoadLoop ip load entries

/-- `update_proxy_load`. -/
def updateProxyLoad (s : Service Load) (ip : List UInt8) (load : Load) : Service Load :=
  { s with proxies := updateLoadLoop ip load s.proxies }

/-- The addresses that have an entry. -/
def addresses (s : Service Load) : List (List UInt8) := s.proxies.map fun entry => entry.2.ip

/-- The realms that have a proxy. -/
def proxyRealms (s : Service Load) : List UInt8 := s.proxies.map Prod.fst

/-- `delete_proxy`: all entries of the address go, and the `ASSERT` at the end is that
there was one. -/
def deleteProxy (s : Service Load) (ip : List UInt8) : Option (Service Load) :=
  if ip ∈ s.addresses then
    some { s with proxies := s.proxies.filter fun entry => entry.2.ip ≠ ip }
  else none

/-- How the search of `process_proxy_announce` ends. -/
inductive Search
  /-- The address has an entry for another realm. -/
  | duplicate
  | known
  | newProxy
  deriving DecidableEq

/-- The loop of `process_proxy_announce` over the proxies of all realms. -/
def searchLoop (realmId : UInt8) (address : List UInt8) : List (UInt8 × ProxyInfo Load) → Search
  | [] => .newProxy
  | entry :: entries =>
    if entry.1 ≠ realmId then
      if entry.2.ip = address then .duplicate else searchLoop realmId address entries
    else if entry.2.ip = address then .known
    else searchLoop realmId address entries

/-- `process_proxy_announce`. In the case of a duplicate the key of the entry is read
after the entry was deleted. -/
def processProxyAnnounce (s : Service Load) (announce : ProxyAnnounce Load) (stale : UInt8) :
    Option (Service Load) :=
  if announce.realm ∉ s.realmIds then some s
  else if announce.realm ∉ s.proxyRealms then
    some (s.addProxy announce.realm announce.address announce.load)
  else
    match searchLoop announce.realm announce.address s.proxies with
    | .duplicate => do
      let s ← s.deleteProxy announce.address
      some ((s.requestProxiesForRealm stale).requestProxiesForRealm announce.realm)
    | .newProxy => some (s.addProxy announce.realm announce.address announce.load)
    | .known => some (s.updateProxyLoad announce.address announce.load)

/-- The loop of `get_proxy_for_realm` over the proxies of the realm. -/
def lowestLoad [LT Load] [DecidableLT Load] (first : ProxyInfo Load)
    (proxies : List (ProxyInfo Load)) : ProxyInfo Load :=
  proxies.foldl (fun lowest info => if info.load < lowest.load then info else lowest) first

/-- `get_proxy_for_realm`. -/
def getProxyForRealm [LT Load] [DecidableLT Load] (s : Service Load) (id : UInt8) : List UInt8 :=
  match (s.proxies.filter fun entry => entry.1 = id).map Prod.snd with
  | [] => []
  | first :: proxies => (lowestLoad first (first :: proxies)).ip

end Service

/-- The ids of the realms of an answer. -/
def RealmlistResult.ids (res : RealmlistResult) : List UInt8 :=
  ((Service.realmsLoop res.res.rows.length res.res).getD []).map fun row => row.1.toUInt8

/-! ### The system -/

/-- What reaches the service: the answer to its query, and the two messages. -/
inductive ServiceEvent (Load : Type)
  | updateRealms (res : Option RealmlistResult)
  /-- With what is read through the iterator of a deleted entry. -/
  | announce (announce : ProxyAnnounce Load) (stale : UInt8)
  | shutdowned (proxy : ProxyShutdowned)

variable {Load : Type}

/-- `push` of the event channel, and the callback of the database. -/
def Service.step (s : Service Load) : ServiceEvent Load → Option (Service Load)
  | .updateRealms res => s.updateRealms res
  | .announce announce stale => s.processProxyAnnounce announce stale
  | .shutdowned proxy => s.deleteProxy proxy.address

/-- The state a sequence of events takes the service to, from its start. -/
def serviceRun (es : List (ServiceEvent Load)) : Option (Service Load) :=
  Runs.run Service.step Service.init es

end Morfeusz.Realmd
