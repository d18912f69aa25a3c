import Morfeusz.Realmd.Lockout
import Morfeusz.Realmd.RealmList

/-!
# The lock of a realm

In the realm list of an expansion a realm is marked locked where its
`allowedSecurityLevel` is above `acct.gmlevel`. That member is filled in by `checkAcctObsv`
from the fifth column of its query, and the fifth column is `ab.active`: the level of the
account is not among the columns at all. And since the observer has just found the fifth
column to be zero, the member is zero from then on, whatever the level of the account is
(`Morfeusz.Realmd.gmlevel_of_loaded`).

So the flags are right as long as no realm of the client's build has a security level
between zero and that of the account (`Morfeusz.Realmd.locks_right_iff`).
-/

namespace Morfeusz.Realmd

open ByteNumbers ByteBuffer

variable {sha : Sha1} {env : Env} {f : Start} {es : List Event} {c c' : Conn} {e : Event}
  {acct : Account} {level : UInt8}

/-! ### The row of an account -/

/-- An account in the database: its columns in `account`, and whether `account_banned` has
an active row of it. -/
structure CheckedAccount where
  shaPassHash : List UInt8
  id : UInt32
  locked : Bool
  lastIp : List UInt8
  gmlevel : UInt8
  failedLogins : UInt32
  banned : Bool

/-- What `REALMD_DB_CHECK_ACCT_BAN` selects of it. -/
def CheckedAccount.result (row : CheckedAccount) (engine : Engine) : ResultSet where
  engine := engine
  numFields := 6
  rows :=
    [[.text (row.shaPassHash.map HexText.toUpper), .integer 4 row.id.toNat,
      .integer 1 (if row.locked then 1 else 0), .text row.lastIp,
      if row.banned then .integer 1 1 else .null, .integer 4 row.failedLogins.toNat]]

/-- The level the socket has after the answer: that of the account it has read, or what the
member starts from if it has read none. -/
def CheckedAccount.levelRead (row : CheckedAccount) (engine : Engine) (start : UInt8) : UInt8 :=
  ((loadedAccount (row.result engine)).map Account.gmlevel).getD start

/-- **An account that is loaded has the level zero.** -/
theorem gmlevel_of_loaded {res : ResultSet} (h : loadedAccount res = some acct) :
    acct.gmlevel = 0 := by
  obtain ⟨⟨-, hactive⟩, hread⟩ := Option.ite_none_right_eq_some.mp h
  simp only [Conn.readAccount, hactive, Option.bind_eq_bind, Option.bind_some,
    Option.bind_eq_some_iff, Option.some.injEq] at hread
  obtain ⟨_, -, _, -, _, -, _, -, _, -, rfl⟩ := hread
  rfl

theorem CheckedAccount.levelRead_eq (row : CheckedAccount) (engine : Engine) (start : UInt8) :
    row.levelRead engine start =
      if (loadedAccount (row.result engine)).isSome then 0 else start := by
  rw [levelRead]
  cases h : loadedAccount (row.result engine) with
  | none => rfl
  | some acct => exact gmlevel_of_loaded h

/-- MySQL loads every account that is not banned. -/
theorem CheckedAccount.levelRead_mysql {row : CheckedAccount} (h : row.banned = false)
    (start : UInt8) :
    row.levelRead .mysql start = 0 := by
  obtain ⟨shaPassHash, id, locked, lastIp, gmlevel, failedLogins, banned⟩ := row
  obtain rfl : banned = false := h
  rw [levelRead_eq]
  exact if_pos rfl

/-! ### The level of a connection -/

/-- Without an answer of the account query the level stays. -/
theorem Trans.gmlevel_eq (h : Trans sha c e c')
    (hrow : ∀ res, e.action ≠ .answer .checkAcctObsv res) : c'.acct.gmlevel = c.acct.gmlevel := by
  cases h with
  | accountLocked res _ hact | challengeSent res _ _ _ _ hact => exact absurd hact (hrow res)
  | charsCounted res mid _ _ _ hmid hlast =>
    exact Conn.counted_induction (P := fun d => d.acct.gmlevel = c.acct.gmlevel) hmid hlast rfl
      fun _ _ hd h => hd.acct_eq ▸ h
  | _ => rfl

/-- No account will be loaded any more, and the level is what it is. -/
structure Conn.LevelSet (level : UInt8) (c : Conn) : Prop where
  noLookup : c.lookups = 0
  busy : c.state ≠ .connected
  level_eq : c.acct.gmlevel = level

theorem levelSet_of_step (h : step sha c e = some c') (hc : c.LevelSet level) :
    c'.LevelSet level := by
  have htrans := trans_of_step h
  have hrow : ∀ res, e.action ≠ .answer .checkAcctObsv res := by
    intro res hact
    obtain ⟨⟨hpending, -⟩, -⟩ := update_of_step h hact
    exact absurd (Conn.lookups_pos hpending rfl) (by rw [hc.noLookup]; exact lt_irrefl 0)
  have hle := htrans.lookups_le hc.busy
  rw [hc.noLookup] at hle
  exact ⟨Nat.le_zero.mp hle, (htrans.sameClient hc.busy).1,
    (htrans.gmlevel_eq hrow).trans hc.level_eq⟩

/-- What is done with an account asks for nothing more. -/
theorem Conn.lookups_accountChecked {answer : AccountState}
    (h : c.accountChecked sha env answer = some c') : c'.lookups = c.lookups := by
  cases answer with
  | accountNotfound => rw [← Option.some.inj h, Conn.lookups, Conn.lookups, Conn.send]
  | accountBanned => rw [← Option.some.inj h, Conn.lookups, Conn.lookups, Conn.send]
  | accountExists =>
    rw [Conn.accountChecked] at h
    split at h
    · rw [← Option.some.inj h, Conn.lookups, Conn.lookups, Conn.send]
    · obtain ⟨I, reqs, pkt, -, -, -, rfl⟩ := Conn.startLogon_some h
      rfl

/-- After the answer of the account query there is none left. -/
theorem lookups_of_checkAcctObsv {res : ResultSet} (hi : Inv sha c) (h : step sha c e = some c')
    (hact : e.action = .answer .checkAcctObsv res) : c'.lookups = 0 ∧ c'.state ≠ .connected := by
  obtain ⟨⟨hpending, -⟩, hupdate⟩ := update_of_step h hact
  refine ⟨?_, ((trans_of_step h).sameClient (hi.busy_of_pending hpending)).1⟩
  rw [← hi.lookups_answered_eq_zero hpending rfl]
  rcases Conn.checkAcctObsv_some hupdate with ⟨-, h⟩ | ⟨-, ⟨_, -, -, h⟩ | ⟨acct, -, -, h⟩⟩
  · exact Conn.lookups_accountChecked h
  · exact Conn.lookups_accountChecked h
  · exact (Conn.lookups_accountChecked h).trans rfl

/-- Until the account query is answered the level is what the member starts from. -/
theorem gmlevel_of_run (h : run sha f es = some c) (hpending : .checkAcctObsv ∈ c.pending) :
    c.acct.gmlevel = f.gmlevel := by
  have hor : Inv sha c ∧ (c.acct.gmlevel = f.gmlevel ∨ c.LevelSet c.acct.gmlevel) := by
    refine Runs.run_invariant
      (P := fun c => Inv sha c ∧ (c.acct.gmlevel = f.gmlevel ∨ c.LevelSet c.acct.gmlevel)) ?_
      ⟨inv_init f, Or.inl rfl⟩ h
    rintro t g t' ⟨hi, hlevel⟩ hs
    refine ⟨hi.of_step hs, ?_⟩
    by_cases hrow : ∃ res, g.action = .answer .checkAcctObsv res
    · obtain ⟨res, hact⟩ := hrow
      obtain ⟨hnone, hbusy⟩ := lookups_of_checkAcctObsv hi hs hact
      exact Or.inr ⟨hnone, hbusy, rfl⟩
    · rcases hlevel with hlevel | hset
      · exact Or.inl (((trans_of_step hs).gmlevel_eq (not_exists.mp hrow)).trans hlevel)
      · have hset' := levelSet_of_step hs hset
        exact Or.inr ⟨hset'.noLookup, hset'.busy, rfl⟩
  rcases hor.2 with hlevel | hset
  · exact hlevel
  · exact absurd (Conn.lookups_pos hpending rfl) (by rw [hset.noLookup]; exact lt_irrefl 0)

/-! ### The lock in the packet -/

/-- Where the lock of the realm of index `k` lies in the packet: the header, the realms
before, and the icon. -/
def Conn.lockOffset (env : Env) (c : Conn) (k : ℕ) : ℕ :=
  9 + (((c.realmsOfBuild env).take k).map fun r => 12 + textSize env r).sum + 1

/-- The bytes of a realm in the list. -/
def lockedRealmBytes (env : Env) (c : Conn) (r : UInt8 × Realm) : List UInt8 :=
  (expansionRealmValues (listedExpansionRealm env c.acct.gmlevel c.realmCharAmount r)).flatten

/-- **What `build_expansion_realm_packet` writes**: nine bytes, the realms, and two more. -/
theorem storage_of_buildExpansionRealmPacket {data : ByteBuffer}
    (h : c.buildExpansionRealmPacket env = some (c', data)) :
    ∃ front back, front.length = 9 ∧
      data.storage = front ++ (c.realmsOfBuild env).flatMap (lockedRealmBytes env c) ++ back := by
  have hentries : (Conn.expansionEntries env _ _ _).1 = _ :=
    expansionEntries_eq c.acct.gmlevel (c.realmsOfBuild env) c.realmCharAmount
  obtain ⟨body, hbody, h⟩ := Option.bind_eq_some_iff.mp h
  obtain ⟨data', hdata, h⟩ := Option.bind_eq_some_iff.mp h
  obtain ⟨-, rfl⟩ := Prod.mk.inj (Option.some.inj h)
  have hbodyBytes := congrArg storage (eq_ofBytes_of_build hbody)
  have hdataBytes := congrArg storage (eq_ofBytes_of_build hdata)
  rw [storage_ofBytes] at hbodyBytes hdataBytes
  refine ⟨uint8 EAuthCmd.realmList.code ++ uint16 (UInt16.ofNat body.size) ++ (uint32 0 ++
    uint16 (UInt16.ofNat (c.realmsOfBuild env).length)), uint8 0x10 ++ uint8 0x00, ?_, ?_⟩
  · simp [uint8]
  · have hrealms : (c.realmsOfBuild env).flatMap (lockedRealmBytes env c) =
        (Conn.expansionEntries env c.acct.gmlevel (c.realmsOfBuild env)
          c.realmCharAmount).1.flatten := by
      rw [hentries, List.flatMap_map]
      simp only [List.flatMap, List.flatten_flatten, List.map_map, Function.comp_def]
      rfl
    rw [hdataBytes, hbodyBytes, hrealms]
    simp

theorem getElem?_flatMap_of_getElem? {α β : Type} {l : List α} {g : α → List β} {k i : ℕ} {x : α}
    {y : β} (hx : l[k]? = some x) (hy : (g x)[i]? = some y) :
    (l.flatMap g)[((l.take k).map fun x => (g x).length).sum + i]? = some y := by
  obtain ⟨hlt, rfl⟩ := List.getElem?_eq_some_iff.mp hx
  have hi := (List.getElem?_eq_some_iff.mp hy).1
  have hlen : ((l.take k).flatMap g).length = ((l.take k).map fun x => (g x).length).sum :=
    List.length_flatMap
  have hl : l.flatMap g = (l.take k).flatMap g ++ (g l[k] ++ (l.drop (k + 1)).flatMap g) := by
    rw [← List.flatMap_cons, ← List.drop_eq_getElem_cons hlt, ← List.flatMap_append,
      List.take_append_drop]
  rw [hl, ← hlen, List.getElem?_append_right (Nat.le_add_right _ _), Nat.add_sub_cancel_left,
    List.getElem?_append_left hi, hy]

/-- **The lock byte of a realm.** -/
theorem lock_of_buildExpansionRealmPacket {data : ByteBuffer} {k : ℕ} {r : UInt8 × Realm}
    (h : c.buildExpansionRealmPacket env = some (c', data))
    (hr : (c.realmsOfBuild env)[k]? = some r) :
    data.storage[c.lockOffset env k]? =
      some (if r.2.allowedSecurityLevel > c.acct.gmlevel then 1 else 0) := by
  obtain ⟨front, back, hfront, hstorage⟩ := storage_of_buildExpansionRealmPacket h
  have hbyte : (lockedRealmBytes env c r)[1]? =
      some (if r.2.allowedSecurityLevel > c.acct.gmlevel then 1 else 0) := rfl
  have hget := getElem?_flatMap_of_getElem? hr hbyte
  have hsizes : ((c.realmsOfBuild env).take k).map (fun r => (lockedRealmBytes env c r).length) =
      ((c.realmsOfBuild env).take k).map fun r => 12 + textSize env r := by
    refine List.map_congr_left ?_
    intro r _
    exact (length_expansionRealmValues _).trans (Nat.add_assoc _ _ _)
  rw [hsizes] at hget
  have hlt := (List.getElem?_eq_some_iff.mp hget).1
  rw [hstorage, Conn.lockOffset, List.append_assoc, Nat.add_assoc, ← hfront,
    List.getElem?_append_right (Nat.le_add_right _ _), Nat.add_sub_cancel_left,
    List.getElem?_append_left hlt, hget]

/-! ### The flags after a logon -/

/-- A logon to the account of the row: the query of the account was answered with the row,
and a logon proof was accepted, on the way to the connection `c`. -/
structure LogsOn (sha : Sha1) (f : Start) (es : List Event) (engine : Engine) (row : CheckedAccount)
    (c : Conn) : Prop where
  run : run sha f es = some c
  loaded : ∃ e ∈ es, e.action = .answer .checkAcctObsv (row.result engine)
  accepted : ∃ i t e t', StepAt sha f es i t e t' ∧ PassesLogonProof sha t e

/-- The level of a connection that has had the row of its account. -/
theorem gmlevel_of_logsOn {engine : Engine} {row : CheckedAccount}
    (h : LogsOn sha f es engine row c) :
    c.acct.gmlevel = row.levelRead engine f.gmlevel := by
  obtain ⟨e, hmem, hact⟩ := h.loaded
  obtain ⟨j, hj⟩ := List.mem_iff_getElem?.mp hmem
  have hjlt := (List.getElem?_eq_some_iff.mp hj).1
  obtain ⟨t, t', hat⟩ := Runs.exists_stepAt_of_lt (i := es.length)
    (by rw [List.take_length]; exact h.run) hjlt hj
  have hrun := hat.run_drop h.run
  obtain ⟨⟨hpending, -⟩, -⟩ := update_of_step hat.2.2 hact
  obtain ⟨hnone, hbusy⟩ := lookups_of_checkAcctObsv (inv_of_stepAt hat) hat.2.2 hact
  have hlevel : t'.acct.gmlevel = row.levelRead engine f.gmlevel := by
    rw [CheckedAccount.levelRead]
    rcases step_checkAcctObsv hat.2.2 hact with ⟨acct, hload, hacct, -⟩ | ⟨hno, hacct, -⟩
    · obtain ⟨res, hact', hloaded⟩ := loadsAccount_iff.mp hload
      obtain ⟨-, rfl⟩ := Action.answer.inj (hact.symm.trans hact')
      rw [hacct, hloaded]
      rfl
    · have hfail : loadedAccount (row.result engine) = none := by
        by_contra hne
        obtain ⟨acct, hacct'⟩ := Option.ne_none_iff_exists'.mp hne
        exact hno acct (loadsAccount_iff.mpr ⟨_, hact, hacct'⟩)
      rw [hacct, hfail, gmlevel_of_run hat.1 hpending]
      rfl
  exact (Runs.run_invariant (P := Conn.LevelSet (row.levelRead engine f.gmlevel))
    (fun _ _ _ hd hs => levelSet_of_step hs hd) ⟨hnone, hbusy, hlevel⟩ hrun).level_eq

/-- **What the list should tell of every realm**: it is locked exactly where its level is
above that of the account. -/
def LocksRight (env : Env) (c : Conn) (gmlevel : UInt8) (data : ByteBuffer) : Prop :=
  ∀ k r, (c.realmsOfBuild env)[k]? = some r →
    (data.storage[c.lockOffset env k]? = some 1 ↔ r.2.allowedSecurityLevel > gmlevel)

/-- The lock is right for a security level that is not between the level that was read and
the one in the column. -/
theorem lock_iff_iff {a read level : UInt8} :
    ((if a > read then 1 else 0 : UInt8) = 1 ↔ a > level) ↔
      ¬(read < a ∧ a ≤ level) ∧ ¬(level < a ∧ a ≤ read) := by
  have hlock : (if a > read then 1 else 0 : UInt8) = 1 ↔ read < a := by
    split <;> simp_all
  rw [hlock, gt_iff_lt, ← UInt8.not_lt (a := level), ← UInt8.not_lt (a := read)]
  tauto

/-- **When the locks are right.** After a logon every realm in a list for an expansion is
locked exactly where its level is above that of the account, if and only if no realm of the
client's build has a level that is above one of the two levels, the one the socket has and
the one in the database, and not above the other. -/
theorem locks_right_iff {engine : Engine} {row : CheckedAccount} (h : LogsOn sha f es engine row c)
    (env : Env) (amnt : List (UInt8 × UInt8)) {data : ByteBuffer}
    (hdata : { c with realmCharAmount := amnt }.buildExpansionRealmPacket env = some (c', data)) :
    LocksRight env c row.gmlevel data ↔
      ∀ r ∈ env.realmlist, r.2.build = c.clientBuild →
        ¬(row.levelRead engine f.gmlevel < r.2.allowedSecurityLevel ∧
            r.2.allowedSecurityLevel ≤ row.gmlevel) ∧
          ¬(row.gmlevel < r.2.allowedSecurityLevel ∧
            r.2.allowedSecurityLevel ≤ row.levelRead engine f.gmlevel) := by
  rw [← gmlevel_of_logsOn h]
  have hlock (k : ℕ) (r : UInt8 × Realm) (hr : (c.realmsOfBuild env)[k]? = some r) :
      (data.storage[c.lockOffset env k]? = some 1 ↔ r.2.allowedSecurityLevel > row.gmlevel) ↔
        ¬(c.acct.gmlevel < r.2.allowedSecurityLevel ∧ r.2.allowedSecurityLevel ≤ row.gmlevel) ∧
          ¬(row.gmlevel < r.2.allowedSecurityLevel ∧
            r.2.allowedSecurityLevel ≤ c.acct.gmlevel) := by
    have hbyte : data.storage[c.lockOffset env k]? =
        some (if r.2.allowedSecurityLevel > c.acct.gmlevel then 1 else 0) :=
      lock_of_buildExpansionRealmPacket (c := { c with realmCharAmount := amnt }) hdata hr
    rw [hbyte, Option.some.injEq]
    exact lock_iff_iff
  constructor
  · intro hright r hmem hbuild
    have hr : r ∈ c.realmsOfBuild env :=
      List.mem_filter.mpr ⟨hmem, decide_eq_true hbuild⟩
    obtain ⟨k, hk⟩ := List.mem_iff_getElem?.mp hr
    exact (hlock k r hk).mp (hright k r hk)
  · intro hlevels k r hk
    obtain ⟨hmem, hbuild⟩ := List.mem_filter.mp (List.mem_of_getElem? hk)
    exact (hlock k r hk).mpr (hlevels r hmem (of_decide_eq_true hbuild))

/-- With MySQL, and an account that is not banned: the locks are right as long as no realm
is for a level that the account has and a player has not. -/
theorem locks_right_mysql_iff {row : CheckedAccount} (h : LogsOn sha f es .mysql row c)
    (hfree : row.banned = false) (env : Env) (amnt : List (UInt8 × UInt8)) {data : ByteBuffer}
    (hdata : { c with realmCharAmount := amnt }.buildExpansionRealmPacket env = some (c', data)) :
    LocksRight env c row.gmlevel data ↔ ∀ r ∈ env.realmlist, r.2.build = c.clientBuild →
      ¬(0 < r.2.allowedSecurityLevel ∧ r.2.allowedSecurityLevel ≤ row.gmlevel) := by
  rw [locks_right_iff h env amnt hdata, row.levelRead_mysql hfree]
  refine forall₂_congr fun r _ => imp_congr_right fun _ => and_iff_left ?_
  rintro ⟨hlt, hle⟩
  rw [UInt8.lt_iff_toNat_lt] at hlt
  exact Nat.not_le_of_gt (Nat.zero_lt_of_lt hlt) (UInt8.le_iff_toNat_le.mp hle)

/-! ### A game master -/

namespace Sample

/-- An account of the level 3. -/
def gameMaster : CheckedAccount where
  shaPassHash := List.replicate 40 49
  id := 7
  locked := false
  lastIp := ip
  gmlevel := 3
  failedLogins := 0
  banned := false

/-- A realm of the third client, for the level 1. -/
def realmOfMasters : Realm :=
  { realm with allowedSecurityLevel := 1, build := SupportedClientBuilds.build320.number }

def guardedRealm : Env := { Sample.env with realmlist := [(1, realmOfMasters)] }

/-- The logon of the account with that client. -/
def gameMasterEvents : List Event :=
  logonEvents Sample.env SupportedClientBuilds.build320.number login (gameMaster.result .mysql) ++
    [⟨Sample.env, .input (Client.logonProof (Bytes.zero 32) (Bytes.zero 20))⟩]

/-- The account is logged on, and its list can be built. -/
theorem exists_logsOn : ∃ c c' data,
    LogsOn zeroSha start gameMasterEvents .mysql gameMaster c ∧
      c.clientBuild = SupportedClientBuilds.build320.number ∧
      c.buildExpansionRealmPacket guardedRealm = some (c', data) := by
  have hsome : (run zeroSha start (gameMasterEvents.take 4)).isSome := by decide +kernel
  have hbefore : ∀ c ∈ run zeroSha start (gameMasterEvents.take 3),
      c.state = .needProof ∧
        (Bytes.zero 20).val = (c.expectedM zeroSha Sample.env (Bytes.zero 32).val).val := by
    decide +kernel
  have hafter : ∀ c ∈ run zeroSha start (gameMasterEvents.take 4),
      c.clientBuild = SupportedClientBuilds.build320.number ∧
        (c.buildExpansionRealmPacket guardedRealm).isSome := by
    decide +kernel
  obtain ⟨t, c, hat⟩ := Runs.exists_stepAt_of_isSome hsome rfl
  obtain ⟨hstate, hproof⟩ := hbefore t hat.1
  obtain ⟨hbuild, hlist⟩ := hafter c hat.run_succ
  obtain ⟨⟨c', data⟩, hdata⟩ := Option.isSome_iff_exists.mp hlist
  refine ⟨c, c', data, ⟨hat.run_succ, ?_, 3, t, _, c, hat, _, rfl, rfl, hstate, hproof⟩, hbuild,
    hdata⟩
  exact ⟨⟨Sample.env, .answer .checkAcctObsv (gameMaster.result .mysql)⟩,
    List.mem_append_left _ (List.mem_cons_of_mem _ (List.mem_cons_of_mem _ List.mem_cons_self)),
    rfl⟩

end Sample

/-- What the two sides say of the list of the game master. -/
theorem locks_right_iff_sample :
    ∃ (c c' : Conn) (data : ByteBuffer),
      c.buildExpansionRealmPacket Sample.guardedRealm = some (c', data) ∧
      (LocksRight Sample.guardedRealm c Sample.gameMaster.gmlevel data ↔
        ∀ r ∈ Sample.guardedRealm.realmlist, r.2.build = c.clientBuild →
          ¬(Sample.gameMaster.levelRead .mysql Sample.start.gmlevel < r.2.allowedSecurityLevel ∧
              r.2.allowedSecurityLevel ≤ Sample.gameMaster.gmlevel) ∧
            ¬(Sample.gameMaster.gmlevel < r.2.allowedSecurityLevel ∧
              r.2.allowedSecurityLevel ≤
                Sample.gameMaster.levelRead .mysql Sample.start.gmlevel)) := by
  obtain ⟨c, c', data, hlogs, -, hdata⟩ := Sample.exists_logsOn
  exact ⟨c, c', data, hdata, locks_right_iff hlogs Sample.guardedRealm c.realmCharAmount hdata⟩

/-- **A realm for the level 1 is locked for an account of the level 3.** -/
theorem not_locksRight_gameMaster :
    ∃ (c c' : Conn) (data : ByteBuffer),
      LogsOn Sample.zeroSha Sample.start Sample.gameMasterEvents .mysql Sample.gameMaster c ∧
      c.buildExpansionRealmPacket Sample.guardedRealm = some (c', data) ∧
      ¬LocksRight Sample.guardedRealm c Sample.gameMaster.gmlevel data := by
  obtain ⟨c, c', data, hlogs, hbuild, hdata⟩ := Sample.exists_logsOn
  refine ⟨c, c', data, hlogs, hdata, ?_⟩
  intro hright
  have hrealm : (c.realmsOfBuild Sample.guardedRealm)[0]? = some (1, Sample.realmOfMasters) := by
    rw [Conn.realmsOfBuild, hbuild]
    rfl
  have hbyte := lock_of_buildExpansionRealmPacket hdata hrealm
  have hset := hright 0 _ hrealm
  rw [hbyte, gmlevel_of_logsOn hlogs, Sample.gameMaster.levelRead_mysql rfl] at hset
  exact absurd hset (by decide)

end Morfeusz.Realmd
