import Morfeusz.Common.Values
import Morfeusz.Realmd.Admission

/-!
# What a client reads in a realm list

There are two layouts of a realm list, one for the first client and one for the
expansions: they differ in the width of the number of realms, in the flag of a locked
realm and in the two bytes at the end. For either there is a reader here, field by field,
and what it reads of the packet that is built are the realms of the client's build
(`Morfeusz.Realmd.readsAs_buildRealmPacket`,
`Morfeusz.Realmd.readsAs_buildExpansionRealmPacket`).
-/

namespace Morfeusz.Realmd

open ByteNumbers ByteBuffer

/-! ### The layouts -/

/-- A realm in a list. -/
structure RealmRecord where
  icon : UInt8
  color : UInt8
  name : List UInt8
  address : List UInt8
  population : UInt32
  chars : UInt8
  timezone : UInt8
  /-- The byte behind the realm. -/
  unknown : UInt8
  deriving DecidableEq

/-- A realm list packet, with its realms. -/
structure RealmListPacket (α : Type) where
  cmd : UInt8
  length : UInt16
  unknown : UInt32
  count : ℕ
  realms : List α
  trailer : UInt8 × UInt8
  deriving DecidableEq

/-- A realm from its colour on. -/
def readRealmTail (icon : UInt8) (buf : ByteBuffer) : Option (RealmRecord × ByteBuffer) := do
  let (color, buf) ← buf.readUint8
  let (name, buf) ← some buf.readString
  let (address, buf) ← some buf.readString
  let (population, buf) ← buf.readUint32
  let (chars, buf) ← buf.readUint8
  let (timezone, buf) ← buf.readUint8
  let (unknown, buf) ← buf.readUint8
  some ({ icon, color, name, address, population, chars, timezone, unknown }, buf)

/-- A realm of the first client. -/
def readRealm (buf : ByteBuffer) : Option (RealmRecord × ByteBuffer) := do
  let (icon, buf) ← buf.readUint8
  readRealmTail icon buf

/-- A realm of an expansion, with its lock. -/
def readExpansionRealm (buf : ByteBuffer) : Option ((UInt8 × RealmRecord) × ByteBuffer) := do
  let (icon, buf) ← buf.readUint8
  let (lock, buf) ← buf.readUint8
  let (realm, buf) ← readRealmTail icon buf
  some ((lock, realm), buf)

/-- A realm list, with the readers of its number of realms and of a realm. -/
def readRealmList {α : Type} (readCount : ByteBuffer → Option (ℕ × ByteBuffer))
    (read : ByteBuffer → Option (α × ByteBuffer)) (buf : ByteBuffer) :
    Option (RealmListPacket α × ByteBuffer) := do
  let (cmd, buf) ← buf.readUint8
  let (length, buf) ← buf.readUint16
  let (unknown, buf) ← buf.readUint32
  let (count, buf) ← readCount buf
  let (realms, buf) ← readElements read count buf
  let (first, buf) ← buf.readUint8
  let (second, buf) ← buf.readUint8
  some ({ cmd, length, unknown, count, realms, trailer := (first, second) }, buf)

/-- The number of realms for the first client. -/
def readCount (buf : ByteBuffer) : Option (ℕ × ByteBuffer) :=
  buf.readUint8.map fun (n, buf) => (n.toNat, buf)

/-- The number of realms for an expansion. -/
def readExpansionCount (buf : ByteBuffer) : Option (ℕ × ByteBuffer) :=
  buf.readUint16.map fun (n, buf) => (n.toNat, buf)

/-- A realm list of the first client. -/
def readRealmPacket : ByteBuffer → Option (RealmListPacket RealmRecord × ByteBuffer) :=
  readRealmList readCount readRealm

/-- A realm list of an expansion. -/
def readExpansionRealmPacket :
    ByteBuffer → Option (RealmListPacket (UInt8 × RealmRecord) × ByteBuffer) :=
  readRealmList readExpansionCount readExpansionRealm

/-! ### Reading what was built -/

theorem reads_readRealmTail (r : RealmRecord) (hname : 0 ∉ r.name) (haddress : 0 ∉ r.address) :
    Reads (readRealmTail r.icon)
      [uint8 r.color, string r.name, string r.address, uint32 r.population, uint8 r.chars,
        uint8 r.timezone, uint8 r.unknown].flatten r :=
  (reads_readUint8 r.color).bind <| (reads_readString hname).bind <|
    (reads_readString haddress).bind <| (reads_readUint32 r.population).bind <|
    (reads_readUint8 r.chars).bind <| (reads_readUint8 r.timezone).bind <|
    (reads_readUint8 r.unknown).bind <| reads_some r

/-- The values of a realm for the first client. -/
def realmValues (r : RealmRecord) : List (List UInt8) :=
  [uint8 r.icon, uint8 r.color, string r.name, string r.address, uint32 r.population,
    uint8 r.chars, uint8 r.timezone, uint8 r.unknown]

/-- The values of a realm for an expansion. -/
def expansionRealmValues (r : UInt8 × RealmRecord) : List (List UInt8) :=
  [uint8 r.2.icon, uint8 r.1, uint8 r.2.color, string r.2.name, string r.2.address,
    uint32 r.2.population, uint8 r.2.chars, uint8 r.2.timezone, uint8 r.2.unknown]

theorem reads_readRealm (r : RealmRecord) (hname : 0 ∉ r.name) (haddress : 0 ∉ r.address) :
    Reads readRealm (realmValues r).flatten r :=
  (reads_readUint8 r.icon).bind (reads_readRealmTail r hname haddress)

theorem reads_readExpansionRealm (r : UInt8 × RealmRecord) (hname : 0 ∉ r.2.name)
    (haddress : 0 ∉ r.2.address) : Reads readExpansionRealm (expansionRealmValues r).flatten r :=
  (reads_readUint8 r.2.icon).bind <| (reads_readUint8 r.1).bind <|
    (reads_readRealmTail r.2 hname haddress).bind_some fun realm => (r.1, realm)

/-- The builders count in sixteen bits, and the first of them writes eight of those. -/
theorem reads_readCount {n : ℕ} (h : n ≤ 255) :
    Reads readCount (uint8 (UInt16.ofNat n).toUInt8) n := by
  have hn := (reads_readUint8 (UInt16.ofNat n).toUInt8).map UInt8.toNat
  rwa [UInt16.toNat_toUInt8, UInt16.toNat_ofNat', Nat.mod_eq_of_lt (by omega),
    Nat.mod_eq_of_lt (by omega)] at hn

theorem reads_readExpansionCount {n : ℕ} (h : n ≤ 255) :
    Reads readExpansionCount (uint16 (UInt16.ofNat n)) n := by
  have hn := (reads_readUint16 (UInt16.ofNat n)).map UInt16.toNat
  rwa [UInt16.toNat_ofNat', Nat.mod_eq_of_lt (by omega)] at hn

theorem length_realmValues (r : RealmRecord) :
    (realmValues r).flatten.length = 11 + r.name.length + r.address.length := by
  simp [realmValues, uint8, string]
  omega

theorem length_expansionRealmValues (r : UInt8 × RealmRecord) :
    (expansionRealmValues r).flatten.length = 12 + r.2.name.length + r.2.address.length := by
  simp [expansionRealmValues, uint8, string]
  omega

/-! ### The packet -/

/-- A packet is read as the list of some realms: to its last byte, with the number of the
realms and of the bytes that follow. -/
def ReadsAs {α : Type} (read : ByteBuffer → Option (RealmListPacket α × ByteBuffer))
    (pkt : ByteBuffer) (realms : List α) : Prop :=
  ∃ list buf, read pkt = some (list, buf) ∧ buf.rpos = pkt.size ∧
    list.cmd = EAuthCmd.realmList.code ∧ list.length.toNat = pkt.size - 3 ∧
    list.count = list.realms.length ∧ list.realms = realms

/-- **Any list that is built in one of the layouts is read as what was put into it.** -/
theorem readsAs_of_build {α : Type} {readCount : ByteBuffer → Option (ℕ × ByteBuffer)}
    {read : ByteBuffer → Option (α × ByteBuffer)} {count : List UInt8}
    (values : α → List (List UInt8)) (realms : List α) (first second : UInt8)
    (hcount : Reads readCount count realms.length)
    (hread : ∀ r ∈ realms, Reads read (values r).flatten r)
    (hsize : 6 + count.length + (realms.map fun r => (values r).flatten.length).sum ≤ 65535) :
    ∃ pkt, (build ([uint32 0, count] ++ realms.flatMap values ++ [uint8 first, uint8 second]) >>=
        Conn.realmListPacket) = some pkt ∧
      pkt.size = 9 + count.length + (realms.map fun r => (values r).flatten.length).sum ∧
      ReadsAs (readRealmList readCount read) pkt realms := by
  -- the bytes of the body, and their number
  have hbody : ([uint32 0, count] ++ realms.flatMap values ++ [uint8 first, uint8 second]).flatten =
      uint32 0 ++ (count ++ (realms.flatMap (fun r => (values r).flatten) ++
        (uint8 first ++ (uint8 second ++ [])))) := by
    simp [List.flatMap, List.flatten_flatten, Function.comp_def]
  have hlen :
      ([uint32 0, count] ++ realms.flatMap values ++ [uint8 first, uint8 second]).flatten.length =
      6 + count.length + (realms.map fun r => (values r).flatten.length).sum := by
    rw [hbody]
    simp [List.length_flatMap, uint8]
    omega
  generalize ([uint32 0, count] ++ realms.flatMap values ++ [uint8 first, uint8 second]) = vs
    at hbody hlen ⊢
  have hlimit : vs.flatten.length < sizeLimit := by
    rw [hlen, sizeLimit]
    omega
  have hpktlen : [uint8 EAuthCmd.realmList.code, uint16 (UInt16.ofNat vs.flatten.length),
      vs.flatten].flatten.length = 3 + vs.flatten.length := by
    simp [uint8]
    omega
  have hpkt : Conn.realmListPacket (ofBytes vs.flatten) =
      some (ofBytes [uint8 EAuthCmd.realmList.code, uint16 (UInt16.ofNat vs.flatten.length),
        vs.flatten].flatten) := by
    refine build_eq ?_
    change [uint8 _, uint16 (UInt16.ofNat vs.flatten.length), vs.flatten].flatten.length < _
    rw [hpktlen, hlen, sizeLimit]
    omega
  have hreads : Reads (readRealmList readCount read)
      [uint8 EAuthCmd.realmList.code, uint16 (UInt16.ofNat vs.flatten.length), vs.flatten].flatten
      { cmd := EAuthCmd.realmList.code, length := UInt16.ofNat vs.flatten.length, unknown := 0
        count := realms.length, realms, trailer := (first, second) } := by
    rw [List.flatten_cons, List.flatten_cons, List.flatten_singleton, hbody]
    exact (reads_readUint8 _).bind <| (reads_readUint16 _).bind <| (reads_readUint32 0).bind <|
      hcount.bind <| (reads_readElements hread).bind <| (reads_readUint8 first).bind <|
      (reads_readUint8 second).bind <| reads_some _
  refine ⟨_, (congrArg (· >>= Conn.realmListPacket) (build_eq hlimit)).trans hpkt, ?_, ?_⟩
  · rw [size_ofBytes, hpktlen, hlen]
    omega
  · refine ⟨_, _, hreads _ [] (List.append_nil _).symm, Nat.zero_add _, rfl, ?_, rfl, rfl⟩
    rw [size_ofBytes, hpktlen, UInt16.toNat_ofNat', Nat.mod_eq_of_lt (by rw [hlen]; omega)]
    omega

/-! ### The two builders -/

section Builders

variable (env : Env)

/-- What a client is told of a realm: one without a proxy is marked offline, and one the
account has no characters on has none. -/
def listedRealm (amnt : List (UInt8 × UInt8)) (r : UInt8 × Realm) : RealmRecord where
  icon := r.2.icon
  color := if env.proxyForRealm r.1 = [] then 2 else r.2.color
  name := r.2.name
  address := env.proxyForRealm r.1
  population := r.2.population
  chars := (amnt.lookup r.1).getD 0
  timezone := r.2.timezone
  unknown := 0

/-- The same in an expansion, with the lock. -/
def listedExpansionRealm (gmlevel : UInt8) (amnt : List (UInt8 × UInt8)) (r : UInt8 × Realm) :
    UInt8 × RealmRecord :=
  (if r.2.allowedSecurityLevel > gmlevel then 1 else 0, listedRealm env amnt r)

/-- The bytes of the texts of a realm. -/
def textSize (r : UInt8 × Realm) : ℕ := r.2.name.length + (env.proxyForRealm r.1).length

namespace Conn

/-- The bytes behind the length of a list for the first client. -/
def payloadSize (c : Conn) : ℕ := 7 + ((c.realmsOfBuild env).map fun r => 11 + textSize env r).sum

/-- The bytes behind the length of a list for an expansion. -/
def expansionPayloadSize (c : Conn) : ℕ :=
  8 + ((c.realmsOfBuild env).map fun r => 12 + textSize env r).sum

end Conn

variable {env} {c : Conn}

/-- The counts that are inserted on the way are all zero. -/
theorem lookup_charAmountAt (amnt : List (UInt8 × UInt8)) (id id' : UInt8) :
    (Conn.charAmountAt amnt id).1 = (amnt.lookup id).getD 0 ∧
      ((Conn.charAmountAt amnt id).2.lookup id').getD 0 = (amnt.lookup id').getD 0 := by
  rw [Conn.charAmountAt]
  cases h : amnt.lookup id with
  | some n => exact ⟨rfl, rfl⟩
  | none =>
    refine ⟨rfl, ?_⟩
    rw [List.lookup_append]
    cases amnt.lookup id' with
    | some n => rfl
    | none =>
      rw [Option.none_or, List.lookup_singleton]
      split <;> rfl

theorem expansionEntries_eq (gmlevel : UInt8) (realms : List (UInt8 × Realm))
    (amnt : List (UInt8 × UInt8)) :
    (Conn.expansionEntries env gmlevel realms amnt).1 =
      (realms.map (listedExpansionRealm env gmlevel amnt)).flatMap expansionRealmValues := by
  induction realms generalizing amnt with
  | nil => rfl
  | cons r realms ih =>
    obtain ⟨id, realm⟩ := r
    -- what comes behind finds the same counts in the map that has grown
    have hsame : listedExpansionRealm env gmlevel (Conn.charAmountAt amnt id).2 =
        listedExpansionRealm env gmlevel amnt := by
      funext r
      rw [listedExpansionRealm, listedRealm, (lookup_charAmountAt amnt id r.1).2]
      rfl
    have hrest := ih (Conn.charAmountAt amnt id).2
    rw [hsame] at hrest
    have hchars := (lookup_charAmountAt amnt id id).1
    rw [Conn.expansionEntries, List.map_cons, List.flatMap_cons, ← hrest]
    dsimp only
    rw [hchars]
    rfl

/-- A list of ascending numbers between two bounds is not longer than they are apart. -/
theorem length_le_of_sorted {a b : ℕ} {l : List ℕ} (h : l.Pairwise (· < ·))
    (hl : ∀ x ∈ l, a ≤ x ∧ x < b) : l.length ≤ b - a := by
  induction l generalizing a with
  | nil => exact Nat.zero_le _
  | cons x l ih =>
    obtain ⟨hx, hrest⟩ := List.pairwise_cons.mp h
    have hbounds := hl x List.mem_cons_self
    have hlen := ih hrest (a := x + 1) fun y hy => ⟨hx y hy, (hl y (List.mem_cons_of_mem x hy)).2⟩
    rw [List.length_cons]
    omega

/-- There are no more realms than a byte counts. -/
theorem length_realmlist (hmap : env.realmlist.Pairwise fun a b => a.1 < b.1)
    (hids : ∀ r ∈ env.realmlist, 1 ≤ r.1) : env.realmlist.length ≤ 255 := by
  have hsorted : (env.realmlist.map fun r => r.1.toNat).Pairwise (· < ·) :=
    List.pairwise_map.mpr (hmap.imp fun h => UInt8.lt_iff_toNat_lt.mp h)
  have hlen := length_le_of_sorted (a := 1) (b := 256) hsorted fun x hx => by
    obtain ⟨r, hr, rfl⟩ := List.mem_map.mp hx
    exact ⟨UInt8.le_iff_toNat_le.mp (hids r hr), r.1.toNat_lt⟩
  rwa [List.length_map] at hlen

/-- The texts of the realms, and of their proxies, have no NUL. -/
def NulFree (env : Env) : Prop :=
  ∀ r ∈ env.realmlist, 0 ∉ r.2.name ∧ 0 ∉ env.proxyForRealm r.1

instance (env : Env) : Decidable (NulFree env) :=
  inferInstanceAs (Decidable (∀ r ∈ env.realmlist, _))

theorem nulFree_listedRealm (hnul : NulFree env) {amnt : List (UInt8 × UInt8)} {r : UInt8 × Realm}
    (hr : r ∈ c.realmsOfBuild env) :
    0 ∉ (listedRealm env amnt r).name ∧ 0 ∉ (listedRealm env amnt r).address :=
  hnul r (List.mem_filter.mp hr).1

/-- **What `build_realm_packet` builds is read as the realms of the build.** -/
theorem readsAs_buildRealmPacket (hnul : NulFree env) (hlen : (c.realmsOfBuild env).length ≤ 255)
    (hsize : c.payloadSize env ≤ 65535) :
    ∃ pkt, c.buildRealmPacket env = some pkt ∧ pkt.size = c.payloadSize env + 3 ∧
      ReadsAs readRealmPacket pkt
        ((c.realmsOfBuild env).map (listedRealm env c.realmCharAmount)) := by
  have hbuild : c.buildRealmPacket env = build ([uint32 0,
      uint8 (UInt16.ofNat (c.realmsOfBuild env).length).toUInt8] ++
        ((c.realmsOfBuild env).map (listedRealm env c.realmCharAmount)).flatMap realmValues ++
        [uint8 0x00, uint8 0x02]) >>= Conn.realmListPacket := by
    rw [List.flatMap_map]
    rfl
  have hcount := reads_readCount hlen
  rw [← List.length_map (listedRealm env c.realmCharAmount)] at hcount hbuild
  have hread : ∀ x ∈ (c.realmsOfBuild env).map (listedRealm env c.realmCharAmount),
      Reads readRealm (realmValues x).flatten x := by
    intro x hx
    obtain ⟨r, hr, rfl⟩ := List.mem_map.mp hx
    obtain ⟨hname, haddress⟩ := nulFree_listedRealm hnul hr
    exact reads_readRealm _ hname haddress
  have hpayload : ((c.realmsOfBuild env).map (listedRealm env c.realmCharAmount)).map
      (fun x => (realmValues x).flatten.length) =
        (c.realmsOfBuild env).map fun r => 11 + textSize env r := by
    rw [List.map_map]
    exact List.map_congr_left fun r _ => (length_realmValues _).trans (Nat.add_assoc _ _ _)
  rw [Conn.payloadSize, ← hpayload] at hsize ⊢
  rw [hbuild]
  obtain ⟨pkt, hpkt, hlength, hreads⟩ :=
    readsAs_of_build realmValues _ 0x00 0x02 hcount hread hsize
  refine ⟨pkt, hpkt, hlength.trans ?_, hreads⟩
  rw [uint8, List.length_singleton]
  omega

/-- **And what `build_expansion_realm_packet` builds.** -/
theorem readsAs_buildExpansionRealmPacket (hnul : NulFree env)
    (hlen : (c.realmsOfBuild env).length ≤ 255) (hsize : c.expansionPayloadSize env ≤ 65535) :
    ∃ c' pkt, c.buildExpansionRealmPacket env = some (c', pkt) ∧
      pkt.size = c.expansionPayloadSize env + 3 ∧ ReadsAs readExpansionRealmPacket pkt
        ((c.realmsOfBuild env).map
          (listedExpansionRealm env c.acct.gmlevel c.realmCharAmount)) := by
  have hentries : (Conn.expansionEntries env _ _ _).1 = _ :=
    expansionEntries_eq c.acct.gmlevel (c.realmsOfBuild env) c.realmCharAmount
  have hcount := reads_readExpansionCount hlen
  rw [← List.length_map (listedExpansionRealm env c.acct.gmlevel c.realmCharAmount)] at hcount
  have hread : ∀ x ∈ (c.realmsOfBuild env).map
      (listedExpansionRealm env c.acct.gmlevel c.realmCharAmount),
      Reads readExpansionRealm (expansionRealmValues x).flatten x := by
    intro x hx
    obtain ⟨r, hr, rfl⟩ := List.mem_map.mp hx
    obtain ⟨hname, haddress⟩ := nulFree_listedRealm hnul hr
    exact reads_readExpansionRealm _ hname haddress
  have hpayload : ((c.realmsOfBuild env).map
      (listedExpansionRealm env c.acct.gmlevel c.realmCharAmount)).map
        (fun x => (expansionRealmValues x).flatten.length) =
        (c.realmsOfBuild env).map fun r => 12 + textSize env r := by
    rw [List.map_map]
    exact List.map_congr_left fun r _ => (length_expansionRealmValues _).trans (Nat.add_assoc _ _ _)
  rw [Conn.expansionPayloadSize, ← hpayload] at hsize ⊢
  obtain ⟨pkt, hpkt, hlength, hreads⟩ :=
    readsAs_of_build expansionRealmValues _ 0x10 0x00 hcount hread hsize
  rw [List.length_map, ← hentries] at hpkt
  have hbuild := (Option.bind_assoc (build _) Conn.realmListPacket fun data => some
    ({ c with realmCharAmount := (Conn.expansionEntries env c.acct.gmlevel (c.realmsOfBuild env)
      c.realmCharAmount).2 }, data)).symm.trans (congrArg (Option.bind · _) hpkt)
  refine ⟨_, pkt, hbuild, hlength.trans ?_, hreads⟩
  rw [length_uint16]
  omega

/-- **A client reads in a realm list the realms of its build**, in the order of their ids
and to the last byte, whichever of the two layouts the list has. -/
theorem realm_list_read (env : Env) (c : Conn)
    (hmap : env.realmlist.Pairwise fun a b => a.1 < b.1) (hids : ∀ r ∈ env.realmlist, 1 ≤ r.1)
    (hnul : NulFree env) :
    ∃ realms : List (UInt8 × Realm), realms.Pairwise (fun a b => a.1 < b.1) ∧
      (∀ r, r ∈ realms ↔ r ∈ env.realmlist ∧ r.2.build = c.clientBuild) ∧
      (c.payloadSize env ≤ 65535 → ∃ pkt, c.buildRealmPacket env = some pkt ∧
        pkt.size = c.payloadSize env + 3 ∧
        ReadsAs readRealmPacket pkt (realms.map (listedRealm env c.realmCharAmount))) ∧
      (c.expansionPayloadSize env ≤ 65535 → ∃ c' pkt,
        c.buildExpansionRealmPacket env = some (c', pkt) ∧
        pkt.size = c.expansionPayloadSize env + 3 ∧
        ReadsAs readExpansionRealmPacket pkt
          (realms.map (listedExpansionRealm env c.acct.gmlevel c.realmCharAmount))) := by
  have hlen : (c.realmsOfBuild env).length ≤ 255 :=
    (List.length_filter_le _ _).trans (length_realmlist hmap hids)
  refine ⟨c.realmsOfBuild env, hmap.filter _, ?_, readsAs_buildRealmPacket hnul hlen,
    readsAs_buildExpansionRealmPacket hnul hlen⟩
  intro r
  rw [Conn.realmsOfBuild, List.mem_filter, decide_eq_true_iff]

end Builders

/-- Two realms of the oldest client, the second without a proxy. -/
def Sample.twoRealms : Env :=
  { env with
    realmlist := [(1, realm), (3, { realm with name := [83, 84], color := 1 })]
    proxyForRealm := fun id => if id = 1 then [80] else [] }

/-- A client with characters on the first of them. -/
def Sample.client : Conn :=
  { Conn.init start with clientBuild := build, realmCharAmount := [(1, 4)] }

theorem realm_list_read_twoRealms :
    ∃ (realms : List (UInt8 × Realm)) (pkt : ByteBuffer),
      (∀ r, r ∈ realms ↔ r ∈ Sample.twoRealms.realmlist ∧ r.2.build = Sample.build) ∧
      Sample.client.buildRealmPacket Sample.twoRealms = some pkt ∧
      ReadsAs readRealmPacket pkt (realms.map (listedRealm Sample.twoRealms [(1, 4)])) := by
  obtain ⟨realms, -, hmem, hread, -⟩ :=
    realm_list_read Sample.twoRealms Sample.client (by decide) (by decide) (by decide)
  obtain ⟨pkt, hpkt, -, hreads⟩ := hread (by decide)
  exact ⟨realms, pkt, hmem, hpkt, hreads⟩

end Morfeusz.Realmd
