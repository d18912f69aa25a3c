import Morfeusz.Proxyd.Authentication
import Morfeusz.Realmd.Lockout
import Morfeusz.Realmdb.Estate

/-!
# How long a ban lasts

A failed logon may ban the account or the address for ten minutes. The ban is a row with the
second it ends; but what a lookup asks for is whether the row is active, and for an address only
whether it is there. So a ban lasts until the timer of the realm daemon has looked at it: every
minute `Unban_Timer` has two statements executed, of which the one marks the bans of accounts
whose time has come as inactive and the other deletes those of addresses. A ban without an end,
whose two dates are the same, they leave alone.

This file follows a ban through the runs of both daemons. It is active exactly as long as no such
statement was executed when its time had come (`Morfeusz.Realmdb.ban_active_iff`), and as long as
it is, no connection of the realm daemon gets the account from the database: the client is told
of the ban instead of being challenged (`Morfeusz.Realmdb.autoban_refuses_iff`).
-/

namespace Morfeusz.Realmdb

open Realmd (RealmdRequest accountRequest)

variable {collate : List UInt8 → List UInt8} {κ π : Type} [DecidableEq κ] [DecidableEq π]
  {sha : Sha1} {hmac : Hmac} {s₀ s s' t t' : Estate collate κ π} {es : List (EstateEvent κ π)}
  {ev : EstateEvent κ π} {i j : ℕ} {ban : AccountBan} {ipBan : IpBan} {row : AccountRow}

/-! ### What a step does to the bans -/

/-- A request of a connection adds a ban of an account, or none. -/
theorem accountBanned_execute (tables : Tables collate) (now : ℤ) (op : RealmdRequest) :
    (tables.execute now op).accountBanned = tables.accountBanned ∨
      ∃ ban, (tables.execute now op).accountBanned = ban :: tables.accountBanned := by
  rw [Tables.execute]
  split
  · exact Or.inl rfl
  · split
    · rw [Tables.insertAccountBan]
      split
      · exact Or.inl rfl
      · exact Or.inr ⟨_, rfl⟩
    · rw [Tables.insertIpBan]
      split
      · exact Or.inl rfl
      · exact Or.inl rfl
    · exact Or.inl rfl

/-- One of an address is one of the moment. -/
theorem ipBanned_execute (tables : Tables collate) (now : ℤ) (op : RealmdRequest) :
    (tables.execute now op).ipBanned = tables.ipBanned ∨
      ∃ ban : IpBan, ban.bandate = now ∧
        (tables.execute now op).ipBanned = ban :: tables.ipBanned := by
  rw [Tables.execute]
  split
  · exact Or.inl rfl
  · split
    · rw [Tables.insertAccountBan]
      split
      · exact Or.inl rfl
      · exact Or.inl rfl
    · rw [Tables.insertIpBan]
      split
      · exact Or.inl rfl
      · exact Or.inr ⟨_, rfl, rfl⟩
    · exact Or.inl rfl

/-- Only one statement is about the bans of accounts. -/
theorem accountBanned_of_other (h : s.step sha hmac ev = some s')
    (hset : ¬s.ExecutesTimer ev .setInactiveBans) :
    s'.tables.accountBanned = s.tables.accountBanned ∨
      ∃ ban, s'.tables.accountBanned = ban :: s.tables.accountBanned := by
  rcases tables_of_step h with heq | ⟨_ | _, hexec, heq⟩ | ⟨op, -, heq⟩
  · exact Or.inl (by rw [heq])
  · rw [heq]
    exact Or.inl rfl
  · exact absurd hexec hset
  · rw [heq]
    exact accountBanned_execute s.tables s.now op

/-- And only one about those of addresses. -/
theorem ipBanned_of_other (h : s.step sha hmac ev = some s')
    (hprune : ¬s.ExecutesTimer ev .pruneBans) :
    s'.tables.ipBanned = s.tables.ipBanned ∨
      ∃ ban : IpBan, ban.bandate = s.now ∧ s'.tables.ipBanned = ban :: s.tables.ipBanned := by
  rcases tables_of_step h with heq | ⟨_ | _, hexec, heq⟩ | ⟨op, -, heq⟩
  · exact Or.inl (by rw [heq])
  · exact absurd hexec hprune
  · rw [heq]
    exact Or.inl rfl
  · rw [heq]
    exact ipBanned_execute s.tables s.now op

/-- A ban that is inserted is there, where its key is free. -/
theorem mem_insertAccountBan {tables : Tables collate}
    (h : (ban.id, ban.bandate) ∉ tables.accountBanned.map fun ban => (ban.id, ban.bandate)) :
    ban ∈ (tables.insertAccountBan ban).accountBanned := by
  rw [Tables.insertAccountBan, dif_neg h]
  exact List.mem_cons_self

theorem mem_insertIpBan {tables : Tables collate}
    (h : (collate ipBan.ip, ipBan.bandate) ∉
      tables.ipBanned.map fun ban => (collate ban.ip, ban.bandate)) :
    ipBan ∈ (tables.insertIpBan ipBan).ipBanned := by
  rw [Tables.insertIpBan, dif_neg h]
  exact List.mem_cons_self

/-- The bans of accounts are looked at when the time of this one has come. -/
def LiftsBan (s : Estate collate κ π) (ev : EstateEvent κ π) (ban : AccountBan) : Prop :=
  s.ExecutesTimer ev .setInactiveBans ∧ ban.due s.now = true

/-- Those of addresses are. -/
def PrunesBan (s : Estate collate κ π) (ev : EstateEvent κ π) (ban : IpBan) : Prop :=
  s.ExecutesTimer ev .pruneBans ∧ ban.due s.now = true

/-- **A ban of an account is there after a step, and inactive if the step has lifted it.** -/
theorem accountBanned_of_step (h : s.step sha hmac ev = some s')
    (hban : ban ∈ s.tables.accountBanned) :
    (¬LiftsBan s ev ban → ban ∈ s'.tables.accountBanned) ∧
      (LiftsBan s ev ban → { ban with active := false } ∈ s'.tables.accountBanned) := by
  by_cases hset : s.ExecutesTimer ev .setInactiveBans
  · have hmem := List.mem_map_of_mem
      (f := fun ban => if ban.due s.now then { ban with active := false } else ban) hban
    rw [tables_of_timer h hset]
    constructor
    · intro hno
      rwa [if_neg fun hdue => hno ⟨hset, hdue⟩] at hmem
    · rintro ⟨-, hdue⟩
      rwa [if_pos hdue] at hmem
  · refine ⟨fun _ => ?_, fun hlift => absurd hlift.1 hset⟩
    rcases accountBanned_of_other h hset with heq | ⟨ban', heq⟩
    · rwa [heq]
    · rw [heq]
      exact List.mem_cons_of_mem _ hban

/-- **One of an address is there exactly if the step has not deleted it.** -/
theorem ipBanned_of_step (h : s.step sha hmac ev = some s') (hban : ipBan ∈ s.tables.ipBanned) :
    ipBan ∈ s'.tables.ipBanned ↔ ¬PrunesBan s ev ipBan := by
  by_cases hprune : s.ExecutesTimer ev .pruneBans
  · rw [tables_of_timer h hprune, PrunesBan, and_iff_right hprune]
    refine List.mem_filter.trans ((and_iff_right hban).trans ?_)
    rw [Bool.not_eq_true', Bool.not_eq_true]
  · refine iff_of_true ?_ fun hprunes => hprune hprunes.1
    rcases ipBanned_of_other h hprune with heq | ⟨ban', -, heq⟩
    · rwa [heq]
    · rw [heq]
      exact List.mem_cons_of_mem _ hban

/-! ### How long a ban lasts -/

/-- **A ban is active exactly until it is lifted.** In every run from a state in which an account
has an active ban, the ban is active at the end if and only if the bans of accounts were not looked
at when its time had come. -/
theorem ban_active_iff (hban : ban ∈ s.tables.accountBanned) (hactive : ban.active = true)
    (hrun : Runs.run (Estate.step sha hmac) s es = some s') :
    ban ∈ s'.tables.accountBanned ↔
      ∀ i t ev t', Estate.StepAt sha hmac s es i t ev t' → ¬LiftsBan t ev ban := by
  refine Runs.run_holds_iff (P := fun s => { ban with active := false } ∈ s.tables.accountBanned)
    (fun i s ev s' hat hmem hno => (accountBanned_of_step hat.2.2 hmem).1 hno)
    (fun i s ev s' hat hmem hlift => (accountBanned_of_step hat.2.2 hmem).2 hlift) ?_ ?_ hban hrun
  · intro i s ev s' hat hmem
    by_cases hlift : LiftsBan s ev { ban with active := false }
    · exact (accountBanned_of_step hat.2.2 hmem).2 hlift
    · exact (accountBanned_of_step hat.2.2 hmem).1 hlift
  · -- the two rows would have one key
    intro s hmem hmem'
    have heq := List.inj_on_of_nodup_map s.tables.accountBanned_key hmem hmem' rfl
    rw [← heq] at hactive
    cases hactive

/-- The clock of the server does not go back. -/
def Forward (sha : Sha1) (hmac : Hmac) (s : Estate collate κ π) (es : List (EstateEvent κ π)) :
    Prop :=
  ∀ i t now t', Estate.StepAt sha hmac s es i t (.clock now) t' → t.now ≤ now

theorem now_of_stepAt (hforward : Forward sha hmac s es)
    (hat : Estate.StepAt sha hmac s es i t ev t') : t.now ≤ t'.now := by
  cases estateTrans_of_step hat.2.2 with
  | openRealmd k f hfree heq | openProxyd j f hfree heq | timeout heq | failed i heq => rw [heq]
  | realmd k c e c' hr => exact hr.now.ge
  | proxyd j d e d' hr => exact hr.now.ge
  | clock now hev heq =>
    subst hev heq
    exact hforward i t now _ hat
  | executed n other k op hev htask heq =>
    obtain ⟨tables, answers, hperform⟩ :=
      performRealmd_eq { t with tasks := t.tasks.eraseIdx n } other k op
    rw [heq, hperform]
  | lifted n other stmt hev htask heq => rw [heq]
  | executedProxyd w n other ended worker j op hev hworker htask heq =>
    obtain ⟨workers, answers, hperform⟩ :=
      performProxyd_eq { t with tasks := t.tasks.eraseIdx n } other ended w worker j op
    rw [heq, hperform]

/-- What is gone and was of an earlier moment does not come back. -/
theorem gone_of_step (h : s.step sha hmac ev = some s') (hnow : s.now ≤ s'.now)
    (hgone : ipBan ∉ s.tables.ipBanned ∧ ipBan.bandate < s.now) :
    ipBan ∉ s'.tables.ipBanned ∧ ipBan.bandate < s'.now := by
  obtain ⟨hmem, htime⟩ := hgone
  refine ⟨fun hmem' => ?_, htime.trans_le hnow⟩
  by_cases hprune : s.ExecutesTimer ev .pruneBans
  · rw [tables_of_timer h hprune] at hmem'
    exact hmem (List.mem_filter.mp hmem').1
  · rcases ipBanned_of_other h hprune with heq | ⟨ban', hdate, heq⟩
    · exact hmem (heq ▸ hmem')
    · rw [heq] at hmem'
      rcases List.mem_cons.mp hmem' with rfl | hmem'
      · exact htime.ne hdate
      · exact hmem hmem'

/-- **A ban of an address is there exactly until it is deleted**, as long as the clock of the
server does not go back. -/
theorem ipBan_there_iff (hforward : Forward sha hmac s es) (hban : ipBan ∈ s.tables.ipBanned)
    (hlasts : ipBan.bandate ≤ ipBan.unbandate)
    (hrun : Runs.run (Estate.step sha hmac) s es = some s') :
    ipBan ∈ s'.tables.ipBanned ↔
      ∀ i t ev t', Estate.StepAt sha hmac s es i t ev t' → ¬PrunesBan t ev ipBan := by
  refine Runs.run_holds_iff
    (P := fun s => ipBan ∉ s.tables.ipBanned ∧ ipBan.bandate < s.now)
    (fun i s ev s' hat hmem hno => (ipBanned_of_step hat.2.2 hmem).mpr hno) ?_
    (fun i s ev s' hat hgone => gone_of_step hat.2.2 (now_of_stepAt hforward hat) hgone)
    (fun s hgone => hgone.1) hban hrun
  intro i s ev s' hat hmem hprunes
  refine ⟨fun hmem' => (ipBanned_of_step hat.2.2 hmem).mp hmem' hprunes, ?_⟩
  obtain ⟨htime, hne⟩ := of_decide_eq_true hprunes.2
  have := now_of_stepAt hforward hat
  omega

/-! ### What a connection is told -/

section Told

variable {tables : Tables collate} {login : List UInt8} {other : ResultSet}

/-- What the query of an account returns. -/
theorem select_accountRequest (hrow : row ∈ tables.account)
    (hname : row.named collate (cStr login) = true) :
    tables.select other (accountRequest login) = answer 6 (tables.checkedRows row) := by
  have hselect : tables.select other (accountRequest login) =
      answer 6 ((tables.accountsNamed (cStr login)).flatMap tables.checkedRows) := rfl
  rw [hselect, Tables.accountsNamed_eq hrow hname, List.flatMap_singleton]

/-- **The account is read if and only if no ban of it is active.** -/
theorem loadedAccount_checkedRows (tables : Tables collate) (row : AccountRow) :
    (Realmd.loadedAccount (answer 6 (tables.checkedRows row))).isSome ↔
      tables.activeBans row = [] := by
  obtain ⟨active, rows, hchecked, hactive⟩ := exists_checkedRows tables row
  have hcolumn : ∀ i v, (row.checkedColumns active)[i]? = some v → i < 6 →
      (answer 6 (row.checkedColumns active :: rows)).next.2.column (i + 1) = some v :=
    fun i v hv hi => column_answer hi hv
  have hread : ∃ acct, Realmd.Conn.readAccount
      (answer 6 (row.checkedColumns active :: rows)).next.2 = some acct := by
    have hpass := hcolumn 0 _ rfl (by decide)
    have hid := hcolumn 1 _ rfl (by decide)
    have hlocked := hcolumn 2 _ rfl (by decide)
    have hip := hcolumn 3 _ rfl (by decide)
    have hlevel := hcolumn 4 _ rfl (by decide)
    have hfailed := hcolumn 5 _ rfl (by decide)
    have hengine : (answer 6 (row.checkedColumns active :: rows)).next.2.engine = .mysql := rfl
    simp only [Realmd.Conn.readAccount, ResultSet.getString, ResultSet.getUint32,
      ResultSet.getUint8, ResultSet.getBool, ResultSet.getUint, hengine, hpass, hid, hlocked, hip,
      hlevel, hfailed, Option.map_some, Option.bind_eq_bind, Option.bind_some]
    exact ⟨_, rfl⟩
  have hbyte : (answer 6 (row.checkedColumns active :: rows)).next.2.getUint8 5 =
      some (UInt8.ofNat (ByteNumbers.leVal (active.buffer.take 1))) := by
    have hlevel := hcolumn 4 active rfl (by decide)
    rw [ResultSet.getUint8, ResultSet.getUint, hlevel]
    rfl
  rw [hchecked, Realmd.loadedAccount, hbyte]
  rcases hactive with ⟨hnone, rfl⟩ | ⟨hsome, rfl⟩
  · obtain ⟨acct, hacct⟩ := hread
    rw [if_pos ⟨List.cons_ne_nil _ _, rfl⟩, hacct]
    exact iff_of_true rfl hnone
  · rw [if_neg fun h => absurd h.2 (by decide)]
    exact iff_of_false Bool.false_ne_true hsome

/-- The client is told of a ban, and that is all. -/
def toldBanned (c : Realmd.Conn) (obs : Realmd.Observer) : Realmd.Conn :=
  (c.answered obs).send (Realmd.authReply .realmAuthAccountBanned)

variable {env : Realmd.Env} {c c' : Realmd.Conn}

/-- **An account that is not read for a ban is refused.** -/
theorem toldBanned_of_account
    (hno : ¬(Realmd.loadedAccount (answer 6 (tables.checkedRows row))).isSome)
    (h : Realmd.step sha c ⟨env, .answer .checkAcctObsv (answer 6 (tables.checkedRows row))⟩ =
      some c') : c' = toldBanned c .checkAcctObsv := by
  obtain ⟨⟨-, hfresh⟩, h⟩ := Realmd.update_of_step h rfl
  have hrows : (answer 6 (tables.checkedRows row)).rows ≠ [] := by
    obtain ⟨active, rows, hchecked, -⟩ := exists_checkedRows tables row
    rw [hchecked]
    exact List.cons_ne_nil _ _
  rcases Realmd.Conn.checkAcctObsv_some h with
    ⟨hnone, -⟩ | ⟨-, ⟨_, -, -, h⟩ | ⟨acct, hactive, hacct, -⟩⟩
  · exact absurd ((ResultSet.rowsCount_next_eq_zero_iff hfresh).mp hnone) hrows
  · exact (Option.some.inj h).symm
  · rw [Realmd.loadedAccount, if_pos ⟨hrows, hactive⟩, hacct] at hno
    exact absurd rfl hno

/-- An address with a ban is refused. -/
theorem toldBanned_of_address {rows : List (List SqlValue)} (hrows : rows ≠ [])
    (h : Realmd.step sha c ⟨env, .answer .checkIpBanObsv (answer 5 rows)⟩ = some c') :
    c' = toldBanned c .checkIpBanObsv := by
  obtain ⟨⟨-, hfresh⟩, h⟩ := Realmd.update_of_step h rfl
  have hcount := mt (ResultSet.rowsCount_next_eq_zero_iff hfresh).mp hrows
  rw [Realmd.Conn.update, Realmd.Conn.checkIpBanObsv, decide_eq_true hcount] at h
  exact (Option.some.inj h).symm

end Told

/-! ### The bans of the realm daemon -/

/-- The request that bans an account, and the one that bans an address. -/
def autobanRequest (id : UInt32) : RealmdRequest :=
  { statement := .addAccountAutoban, params := [addUint32 1 id, addUint32 2 600] }

def ipAutobanRequest (ip : List UInt8) : RealmdRequest :=
  { statement := .addIpAutoban, params := [addString 1 ip, addUint32 2 600] }

theorem banRequest_eq (env : Realmd.Env) (c : Realmd.Conn) : c.banRequest env =
    if env.wrongPassBanType ≠ [105, 112] then autobanRequest c.acct.id.toUInt32
    else ipAutobanRequest c.ip := rfl

/-- The one that asks for the bans of an address. -/
def ipRequest (ip : List UInt8) : RealmdRequest :=
  { statement := .checkIpBan, params := [addString 1 ip] }

/-- The row of such a ban. -/
def autoban (id : UInt32) (now : ℤ) : AccountBan where
  id := boundInt id
  bandate := now
  unbandate := now + 600
  active := true

def ipAutoban (ip : List UInt8) (now : ℤ) : IpBan where
  ip := cStr ip
  bandate := now
  unbandate := now + 600
  bannedby := autobanBy
  banreason := autobanReason

/-- Ids of up to thirty-one digits go into the table as they are. -/
theorem boundInt_of_lt {id : UInt32} (h : id.toNat < 2 ^ 31) : boundInt id = id.toNat := by
  have hmsb : 2 * id.toBitVec.toNat < 2 ^ 32 := by
    have : id.toBitVec.toNat = id.toNat := rfl
    omega
  exact BitVec.toInt_eq_toNat_of_lt hmsb

/-- The time of an autoban comes ten minutes after it. -/
theorem due_autoban_iff {id : UInt32} {now now' : ℤ} :
    (autoban id now).due now' = true ↔ now + 600 ≤ now' := by
  rw [AccountBan.due, decide_eq_true_iff, autoban]
  dsimp only
  omega

theorem due_ipAutoban_iff {ip : List UInt8} {now now' : ℤ} :
    (ipAutoban ip now).due now' = true ↔ now + 600 ≤ now' := by
  rw [IpBan.due, decide_eq_true_iff, ipAutoban]
  dsimp only
  omega

theorem execute_autobanRequest (tables : Tables collate) (now : ℤ) (id : UInt32) :
    tables.execute now (autobanRequest id) = tables.insertAccountBan (autoban id now) := rfl

theorem execute_ipAutobanRequest (tables : Tables collate) (now : ℤ) (ip : List UInt8) :
    tables.execute now (ipAutobanRequest ip) = tables.insertIpBan (ipAutoban ip now) := rfl

/-! ### Bans that nobody looks at, and bans that are lifted -/

namespace Sample

/-- The sample account or the address `1` is to be banned, and then asked for. -/
def banning (ban query : RealmdRequest) : Estate id Unit Unit :=
  waiting 0 tables [.realmd () ban, .realmd () query]

/-- It is banned since the time `0`. -/
def banned (now : ℤ) (ban query : RealmdRequest) : Estate id Unit Unit :=
  waiting now (tables.execute 0 ban) [.realmd () query]

/-- Nothing but the clock has moved. -/
theorem not_executesTimer {s₀ s s' : Estate id Unit Unit} {now : ℤ} {i : ℕ}
    {ev : EstateEvent Unit Unit} {stmt : BanStatement}
    (hat : Estate.StepAt Proxyd.Sample.zeroSha Proxyd.Sample.zeroHmac s₀ [.clock now] i s ev s') :
    ¬s.ExecutesTimer ev stmt := by
  rintro ⟨n, other, rfl, -⟩
  have hmem := List.mem_of_getElem? hat.2.1
  rw [List.mem_singleton] at hmem
  cases hmem

/-- An hour later the timer has run, and both of its statements are executed. -/
def lookedAt : List (EstateEvent Unit Unit) :=
  [.clock 3600, .timeout, .execute 1 (answer 0 []), .execute 1 (answer 0 [])]

/-- Then the ban is lifted. -/
def unbanned (ban query : RealmdRequest) : Estate id Unit Unit :=
  waiting 3600 (((tables.execute 0 ban).lift 3600 .pruneBans).lift 3600 .setInactiveBans)
    [.realmd () query]

/-- The clock has moved once. -/
theorem forward_clock {s : Estate id Unit Unit} {now : ℤ} {es : List (EstateEvent Unit Unit)}
    (h : s.now ≤ now) (hes : ∀ now', .clock now' ∉ es) :
    Forward Proxyd.Sample.zeroSha Proxyd.Sample.zeroHmac s (.clock now :: es) := by
  intro i t now' t' hat
  cases i with
  | zero =>
    obtain rfl := EstateEvent.clock.inj (Option.some.inj hat.2.1)
    obtain rfl := Option.some.inj hat.1
    exact h
  | succ i =>
    have hget : es[i]? = some (.clock now') := hat.2.1
    exact absurd (List.mem_of_getElem? hget) (hes now')

end Sample

/-- **How long an account is refused for a ban.** After an autoban of an account, and whatever
happens in between, the account is read for a connection of the realm daemon if and only if the
bans were looked at ten minutes later or more, and there is no other ban; and where it is not
read, the client is told of a ban and not challenged. -/
theorem autoban_refuses_iff {n m : ℕ} {k k' : κ} {other other' : ResultSet} {id : UInt32}
    {login : List UInt8} (htask : s.tasks[n]? = some (.realmd k (autobanRequest id)))
    (hban : s.step sha hmac (.execute n other) = some s') (hid : id.toNat < 2 ^ 31)
    (hfree : (boundInt id, s.now) ∉
      s.tables.accountBanned.map fun ban => (ban.id, ban.bandate))
    (hrun : Runs.run (Estate.step sha hmac) s' es = some t)
    (hquery : t.tasks[m]? = some (.realmd k' (accountRequest login)))
    (hask : t.step sha hmac (.execute m other') = some t') (hrow : row ∈ t.tables.account)
    (hname : row.named collate (cStr login) = true) (hrowid : row.id = id) :
    ∃ res, t'.answers = t.answers ++ [.realmd k' .checkAcctObsv res] ∧
      ((Realmd.loadedAccount res).isSome ↔
        (∃ i u ev u', Estate.StepAt sha hmac s' es i u ev u' ∧
          u.ExecutesTimer ev .setInactiveBans ∧ s.now + 600 ≤ u.now) ∧
        ∀ ban ∈ t.tables.activeBans row, ban = autoban id s.now) ∧
      (¬(Realmd.loadedAccount res).isSome → ∀ c env c',
        Realmd.step sha c ⟨env, .answer .checkAcctObsv res⟩ = some c' →
          c' = toldBanned c .checkAcctObsv) := by
  refine ⟨_, answers_of_execute hquery rfl hask, ?_, ?_⟩
  · have hinserted : autoban id s.now ∈ s'.tables.accountBanned := by
      rw [tables_of_execute htask rfl hban, execute_autobanRequest]
      exact mem_insertAccountBan hfree
    have hlasts := ban_active_iff hinserted rfl hrun
    have hactive : autoban id s.now ∈ t.tables.activeBans row ↔
        autoban id s.now ∈ t.tables.accountBanned := by
      rw [Tables.activeBans, List.mem_filter, decide_eq_true_iff, hrowid]
      exact and_iff_left ⟨boundInt_of_lt hid, rfl⟩
    rw [select_accountRequest hrow hname, loadedAccount_checkedRows]
    constructor
    · intro hnone
      rw [hnone] at hactive ⊢
      refine ⟨?_, nofun⟩
      by_contra hno
      refine List.not_mem_nil (hactive.mpr (hlasts.mpr ?_))
      rintro i u ev u' hat ⟨htimer, hdue⟩
      exact hno ⟨i, u, ev, u', hat, htimer, due_autoban_iff.mp hdue⟩
    · rintro ⟨⟨i, u, ev, u', hat, htimer, htime⟩, honly⟩
      rw [List.eq_nil_iff_forall_not_mem]
      intro ban hmem
      rw [honly ban hmem] at hmem
      exact hlasts.mp (hactive.mp hmem) i u ev u' hat ⟨htimer, due_autoban_iff.mpr htime⟩
  · rw [select_accountRequest hrow hname]
    exact fun hno c env c' hstep => toldBanned_of_account hno hstep

/-- The sample account is still refused after an hour, and is read when the timer has run. -/
theorem autoban_refuses_iff_sample :
    (∃ (t' : Estate id Unit Unit) (res : ResultSet),
      t'.answers = [.realmd () .checkAcctObsv res] ∧ ¬(Realmd.loadedAccount res).isSome) ∧
    ∃ (t' : Estate id Unit Unit) (res : ResultSet),
      t'.answers = [.realmd () .checkAcctObsv res] ∧ (Realmd.loadedAccount res).isSome := by
  have htask : (Sample.banning (autobanRequest 7) (accountRequest [65])).tasks[0]? =
      some (.realmd () (autobanRequest 7)) := rfl
  have hban : (Sample.banning (autobanRequest 7) (accountRequest [65])).step
      Proxyd.Sample.zeroSha Proxyd.Sample.zeroHmac (.execute 0 (answer 0 [])) =
        some (Sample.banned 0 (autobanRequest 7) (accountRequest [65])) := rfl
  constructor
  · have hrun : Runs.run (Estate.step Proxyd.Sample.zeroSha Proxyd.Sample.zeroHmac)
        (Sample.banned 0 (autobanRequest 7) (accountRequest [65])) [.clock 3600] =
          some (Sample.banned 3600 (autobanRequest 7) (accountRequest [65])) := rfl
    have hask : (Sample.banned 3600 (autobanRequest 7) (accountRequest [65])).step
        Proxyd.Sample.zeroSha Proxyd.Sample.zeroHmac (.execute 0 (answer 0 [])) = some _ := rfl
    obtain ⟨res, hanswers, hiff, -⟩ := autoban_refuses_iff htask hban (by decide) (by decide) hrun
      rfl hask (List.mem_singleton_self Sample.accountRow) (by decide) rfl
    refine ⟨_, res, hanswers, fun hsome => ?_⟩
    obtain ⟨⟨i, u, ev, u', hat, htimer, -⟩, -⟩ := hiff.mp hsome
    exact Sample.not_executesTimer hat htimer
  · have hrun : Runs.run (Estate.step Proxyd.Sample.zeroSha Proxyd.Sample.zeroHmac)
        (Sample.banned 0 (autobanRequest 7) (accountRequest [65])) Sample.lookedAt =
          some (Sample.unbanned (autobanRequest 7) (accountRequest [65])) := rfl
    have hask : (Sample.unbanned (autobanRequest 7) (accountRequest [65])).step
        Proxyd.Sample.zeroSha Proxyd.Sample.zeroHmac (.execute 0 (answer 0 [])) = some _ := rfl
    obtain ⟨res, hanswers, hiff, -⟩ := autoban_refuses_iff htask hban (by decide) (by decide) hrun
      rfl hask (List.mem_singleton_self Sample.accountRow) (by decide) rfl
    have hnone : (Sample.unbanned (autobanRequest 7) (accountRequest [65])).tables.activeBans
        Sample.accountRow = [] := rfl
    refine ⟨_, res, hanswers, hiff.mpr ⟨⟨3, _, _, _, ⟨rfl, rfl, rfl⟩, ⟨1, _, rfl, rfl⟩, ?_⟩, ?_⟩⟩
    · decide
    · rw [hnone]
      exact nofun

/-- **How long an address is refused for a ban.** After an autoban of an address, and whatever
happens in between as long as the clock does not go back, nothing is found of the address if and
only if the bans of addresses were looked at ten minutes later or more, and there is no other
ban; and where something is found, the client is told of a ban and its account is not asked for. -/
theorem ipAutoban_refuses_iff {n m : ℕ} {k k' : κ} {other other' : ResultSet} {ip ip' : List UInt8}
    (htask : s.tasks[n]? = some (.realmd k (ipAutobanRequest ip)))
    (hban : s.step sha hmac (.execute n other) = some s')
    (hfree : (collate (cStr ip), s.now) ∉
      s.tables.ipBanned.map fun ban => (collate ban.ip, ban.bandate))
    (hforward : Forward sha hmac s' es) (hrun : Runs.run (Estate.step sha hmac) s' es = some t)
    (hquery : t.tasks[m]? = some (.realmd k' (ipRequest ip')))
    (hask : t.step sha hmac (.execute m other') = some t')
    (hsame : collate (cStr ip') = collate (cStr ip)) :
    ∃ res, t'.answers = t.answers ++ [.realmd k' .checkIpBanObsv res] ∧
      (res.rows = [] ↔
        (∃ i u ev u', Estate.StepAt sha hmac s' es i u ev u' ∧ u.ExecutesTimer ev .pruneBans ∧
          s.now + 600 ≤ u.now) ∧
        ∀ ban ∈ t.tables.bansOf (cStr ip'), ban = ipAutoban ip s.now) ∧
      (res.rows ≠ [] → ∀ c env c',
        Realmd.step sha c ⟨env, .answer .checkIpBanObsv res⟩ = some c' →
          c' = toldBanned c .checkIpBanObsv) := by
  refine ⟨_, answers_of_execute hquery rfl hask, ?_,
    fun hrows c env c' hstep => toldBanned_of_address hrows hstep⟩
  have hinserted : ipAutoban ip s.now ∈ s'.tables.ipBanned := by
    rw [tables_of_execute htask rfl hban, execute_ipAutobanRequest]
    exact mem_insertIpBan hfree
  have hlasts : s.now ≤ s.now + 600 := by omega
  have hthere := ipBan_there_iff hforward hinserted hlasts hrun
  have hmem : ipAutoban ip s.now ∈ t.tables.bansOf (cStr ip') ↔
      ipAutoban ip s.now ∈ t.tables.ipBanned := by
    rw [Tables.bansOf, List.mem_filter, decide_eq_true_iff]
    exact and_iff_left hsame.symm
  have hrows : (t.tables.select other' (ipRequest ip')).rows =
      (t.tables.bansOf (cStr ip')).map IpBan.columns := rfl
  rw [hrows, List.map_eq_nil_iff]
  constructor
  · intro hnone
    rw [hnone] at hmem ⊢
    refine ⟨?_, nofun⟩
    by_contra hno
    refine List.not_mem_nil (hmem.mpr (hthere.mpr ?_))
    rintro i u ev u' hat ⟨htimer, hdue⟩
    exact hno ⟨i, u, ev, u', hat, htimer, due_ipAutoban_iff.mp hdue⟩
  · rintro ⟨⟨i, u, ev, u', hat, htimer, htime⟩, honly⟩
    rw [List.eq_nil_iff_forall_not_mem]
    intro ban hban
    rw [honly ban hban] at hban
    exact hthere.mp (hmem.mp hban) i u ev u' hat ⟨htimer, due_ipAutoban_iff.mpr htime⟩

/-- The ban of the address is still found after an hour, and is not when the timer has run. -/
theorem ipAutoban_refuses_iff_sample :
    (∃ (t' : Estate id Unit Unit) (res : ResultSet),
      t'.answers = [.realmd () .checkIpBanObsv res] ∧ res.rows ≠ []) ∧
    ∃ (t' : Estate id Unit Unit) (res : ResultSet),
      t'.answers = [.realmd () .checkIpBanObsv res] ∧ res.rows = [] := by
  have htask : (Sample.banning (ipAutobanRequest [49]) (ipRequest [49])).tasks[0]? =
      some (.realmd () (ipAutobanRequest [49])) := rfl
  have hban : (Sample.banning (ipAutobanRequest [49]) (ipRequest [49])).step
      Proxyd.Sample.zeroSha Proxyd.Sample.zeroHmac (.execute 0 (answer 0 [])) =
        some (Sample.banned 0 (ipAutobanRequest [49]) (ipRequest [49])) := rfl
  constructor
  · have hrun : Runs.run (Estate.step Proxyd.Sample.zeroSha Proxyd.Sample.zeroHmac)
        (Sample.banned 0 (ipAutobanRequest [49]) (ipRequest [49])) [.clock 3600] =
          some (Sample.banned 3600 (ipAutobanRequest [49]) (ipRequest [49])) := rfl
    have hask : (Sample.banned 3600 (ipAutobanRequest [49]) (ipRequest [49])).step
        Proxyd.Sample.zeroSha Proxyd.Sample.zeroHmac (.execute 0 (answer 0 [])) = some _ := rfl
    obtain ⟨res, hanswers, hiff, -⟩ := ipAutoban_refuses_iff htask hban (by decide)
      (Sample.forward_clock (by decide) fun _ => List.not_mem_nil) hrun rfl hask rfl
    refine ⟨_, res, hanswers, fun hnone => ?_⟩
    obtain ⟨⟨i, u, ev, u', hat, htimer, -⟩, -⟩ := hiff.mp hnone
    exact Sample.not_executesTimer hat htimer
  · have hrun : Runs.run (Estate.step Proxyd.Sample.zeroSha Proxyd.Sample.zeroHmac)
        (Sample.banned 0 (ipAutobanRequest [49]) (ipRequest [49])) Sample.lookedAt =
          some (Sample.unbanned (ipAutobanRequest [49]) (ipRequest [49])) := rfl
    have hask : (Sample.unbanned (ipAutobanRequest [49]) (ipRequest [49])).step
        Proxyd.Sample.zeroSha Proxyd.Sample.zeroHmac (.execute 0 (answer 0 [])) = some _ := rfl
    have hforward : Forward Proxyd.Sample.zeroSha Proxyd.Sample.zeroHmac
        (Sample.banned 0 (ipAutobanRequest [49]) (ipRequest [49])) Sample.lookedAt :=
      Sample.forward_clock (by decide) (by simp)
    obtain ⟨res, hanswers, hiff, -⟩ := ipAutoban_refuses_iff htask hban (by decide) hforward hrun
      rfl hask rfl
    have hnone : (Sample.unbanned (ipAutobanRequest [49]) (ipRequest [49])).tables.bansOf
        (cStr [49]) = [] := rfl
    refine ⟨_, res, hanswers, hiff.mpr ⟨⟨2, _, _, _, ⟨rfl, rfl, rfl⟩, ⟨1, _, rfl, rfl⟩, ?_⟩, ?_⟩⟩
    · decide
    · rw [hnone]
      exact nofun

end Morfeusz.Realmdb
