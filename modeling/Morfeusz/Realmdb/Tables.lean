import Morfeusz.Proxyd.Observers
import Morfeusz.Realmd.Observers

/-!
# The realm database

The realm daemon and the game proxy share the tables of `create_realm.sql`. This file has
the rows the two look at, what the server does on each statement of the realm daemon and of
its timer, and what it returns for the queries of both.

The keys of the tables are part of them (`Morfeusz.Realmdb.Tables`): no two accounts have one
id or one name, and no two bans one subject and one date. A statement is executed on such
tables and leaves such tables; an `INSERT` that would repeat a key fails and leaves them as
they are. What names are the same is up to the collation of the server, which is a parameter.

The server is MySQL. It executes the statements of one worker while another waits for it, so
each is one step; a parameter of 32 bits is bound without the flag that would make it unsigned.
-/

namespace Morfeusz.Realmdb

open Realmd (RealmdRequest)
open Proxyd (ProxydRequest)

/-! ### Rows -/

/-- A row of `account`. -/
structure AccountRow where
  id : UInt32
  username : List UInt8
  shaPassHash : List UInt8
  sessionkey : Option (List UInt8)
  v : Option (List UInt8)
  s : Option (List UInt8)
  lastIp : List UInt8
  failedLogins : UInt32
  locked : UInt8
  expansion : UInt8
  gmlevel : UInt8

/-- A row of `account_banned`, active or not. -/
structure AccountBan where
  id : ℤ
  bandate : ℤ
  unbandate : ℤ
  active : Bool

/-- A row of `ip_banned`. -/
structure IpBan where
  ip : List UInt8
  bandate : ℤ
  unbandate : ℤ
  bannedby : List UInt8
  banreason : List UInt8

/-- What a statement assigns to the columns of an account. None of them assigns to a key of
the table or to the password hash. -/
structure Assignment where
  set : AccountRow → AccountRow
  id_set : ∀ row, (set row).id = row.id
  username_set : ∀ row, (set row).username = row.username
  shaPassHash_set : ∀ row, (set row).shaPassHash = row.shaPassHash

/-- `SET v = ?, s = ?`. -/
def Assignment.verifier (s v : List UInt8) : Assignment where
  set row := { row with s := some s, v := some v }
  id_set _ := rfl
  username_set _ := rfl
  shaPassHash_set _ := rfl

/-- `SET sessionkey = ?, last_ip = ?, …, failed_logins = 0`. -/
def Assignment.logon (sessionkey lastIp : List UInt8) : Assignment where
  set row := { row with sessionkey := some sessionkey, lastIp, failedLogins := 0 }
  id_set _ := rfl
  username_set _ := rfl
  shaPassHash_set _ := rfl

/-- `SET failed_logins = failed_logins + 1`. The greatest number stays, whether the server
cuts the sum or refuses it. -/
def Assignment.failure : Assignment where
  set row :=
    { row with
      failedLogins := if row.failedLogins = 0xFFFFFFFF then row.failedLogins
        else row.failedLogins + 1 }
  id_set _ := rfl
  username_set _ := rfl
  shaPassHash_set _ := rfl

/-! ### Tables -/

/-- The tables, with the keys of their schema. -/
structure Tables (collate : List UInt8 → List UInt8) where
  account : List AccountRow
  accountBanned : List AccountBan
  ipBanned : List IpBan
  account_id : (account.map AccountRow.id).Nodup
  account_username : (account.map fun row => collate row.username).Nodup
  accountBanned_key : (accountBanned.map fun ban => (ban.id, ban.bandate)).Nodup
  ipBanned_key : (ipBanned.map fun ban => (collate ban.ip, ban.bandate)).Nodup

variable {collate : List UInt8 → List UInt8}

/-- `username = ?`. -/
def AccountRow.named (collate : List UInt8 → List UInt8) (login : List UInt8) (row : AccountRow) :
    Bool := collate row.username = collate login

/-- `unbandate<=UNIX_TIMESTAMP() AND unbandate<>bandate`. -/
def AccountBan.due (now : ℤ) (ban : AccountBan) : Bool :=
  ban.unbandate ≤ now ∧ ban.unbandate ≠ ban.bandate

def IpBan.due (now : ℤ) (ban : IpBan) : Bool :=
  ban.unbandate ≤ now ∧ ban.unbandate ≠ ban.bandate

/-- A parameter that is bound as a signed integer of 32 bits. -/
def boundInt (v : UInt32) : ℤ := v.toInt32.toInt

/-- The two statements of `Unban_Timer`. -/
inductive BanStatement
  | pruneBans
  | setInactiveBans

theorem map_map_assign {β : Type} (which : AccountRow → Bool) (a : Assignment) {f : AccountRow → β}
    (hf : ∀ row, f (a.set row) = f row) (rows : List AccountRow) :
    (rows.map fun row => if which row then a.set row else row).map f = rows.map f := by
  rw [List.map_map]
  refine List.map_congr_left fun row _ => ?_
  rw [Function.comp_apply]
  split
  · exact hf row
  · rfl

theorem map_map_inactive (now : ℤ) (bans : List AccountBan) :
    (bans.map fun ban => if ban.due now then { ban with active := false } else ban).map
      (fun ban => (ban.id, ban.bandate)) = bans.map fun ban => (ban.id, ban.bandate) := by
  rw [List.map_map]
  refine List.map_congr_left fun ban _ => ?_
  rw [Function.comp_apply]
  split
  · rfl
  · rfl

namespace Tables

/-- `UPDATE account SET … WHERE …`. -/
def update (t : Tables collate) (which : AccountRow → Bool) (a : Assignment) : Tables collate :=
  { t with
    account := t.account.map fun row => if which row then a.set row else row
    account_id := by
      rw [map_map_assign which a a.id_set]
      exact t.account_id
    account_username := by
      rw [map_map_assign (f := fun row => collate row.username) which a
        fun row => congrArg collate (a.username_set row)]
      exact t.account_username }

/-- `INSERT INTO account_banned VALUES …`. -/
def insertAccountBan (t : Tables collate) (ban : AccountBan) : Tables collate :=
  if h : (ban.id, ban.bandate) ∈ t.accountBanned.map fun ban => (ban.id, ban.bandate) then t
  else
    { t with
      accountBanned := ban :: t.accountBanned
      accountBanned_key := List.nodup_cons.mpr ⟨h, t.accountBanned_key⟩ }

/-- `INSERT INTO ip_banned VALUES …`. -/
def insertIpBan (t : Tables collate) (ban : IpBan) : Tables collate :=
  if h : (collate ban.ip, ban.bandate) ∈ t.ipBanned.map fun ban => (collate ban.ip, ban.bandate)
  then t
  else
    { t with
      ipBanned := ban :: t.ipBanned
      ipBanned_key := List.nodup_cons.mpr ⟨h, t.ipBanned_key⟩ }

end Tables

/-- `Morpheus realmd`, and `Failed login autoban`. -/
def autobanBy : List UInt8 :=
  [77, 111, 114, 112, 104, 101, 117, 115, 32, 114, 101, 97, 108, 109, 100]

def autobanReason : List UInt8 :=
  [70, 97, 105, 108, 101, 100, 32, 108, 111, 103, 105, 110, 32, 97, 117, 116, 111, 98, 97, 110]

/-! ### Statements -/

/-- The rows that an `UPDATE` of the realm daemon is about, and what it assigns. -/
def assignment? (collate : List UInt8 → List UInt8) (op : RealmdRequest) :
    Option ((AccountRow → Bool) × Assignment) :=
  match op.statement, op.params with
  | .setSV, [(_, .string v), (_, .string s), (_, .string login)] =>
    some (AccountRow.named collate login, .verifier s v)
  | .fixSV, [(_, .string login)] => some (AccountRow.named collate login, .verifier [] [])
  | .updateAccount, [(_, .string sessionkey), (_, .string lastIp), _, (_, .string login)] =>
    some (AccountRow.named collate login, .logon sessionkey lastIp)
  | .setFailedLogins, [(_, .uint64 id)] => some (fun row => row.id.toUInt64 = id, .failure)
  | _, _ => none

namespace Tables

/-- A statement of the realm daemon that has no result, executed at the time `now`. -/
def execute (now : ℤ) (t : Tables collate) (op : RealmdRequest) : Tables collate :=
  match assignment? collate op with
  | some (which, a) => t.update which a
  | none =>
    match op.statement, op.params with
    | .addAccountAutoban, [(_, .uint32 id), (_, .uint32 seconds)] =>
      t.insertAccountBan
        { id := boundInt id, bandate := now, unbandate := now + boundInt seconds, active := true }
    | .addIpAutoban, [(_, .string ip), (_, .uint32 seconds)] =>
      t.insertIpBan
        { ip, bandate := now, unbandate := now + boundInt seconds
          bannedby := autobanBy, banreason := autobanReason }
    | _, _ => t

/-- A statement of the timer. -/
def lift (now : ℤ) (t : Tables collate) : BanStatement → Tables collate
  | .pruneBans =>
    { t with
      ipBanned := t.ipBanned.filter fun ban => !ban.due now
      ipBanned_key := t.ipBanned_key.sublist (List.filter_sublist.map _) }
  | .setInactiveBans =>
    { t with
      accountBanned :=
        t.accountBanned.map fun ban => if ban.due now then { ban with active := false } else ban
      accountBanned_key := by
        rw [map_map_inactive]
        exact t.accountBanned_key }

/-! ### Queries -/

/-- The accounts of a name. -/
def accountsNamed (t : Tables collate) (login : List UInt8) : List AccountRow :=
  t.account.filter (AccountRow.named collate login)

/-- `ab.id = a.id AND ab.active = 1`. -/
def activeBans (t : Tables collate) (row : AccountRow) : List AccountBan :=
  t.accountBanned.filter fun ban => ban.id = row.id.toNat ∧ ban.active = true

/-- The bans of an address. -/
def bansOf (t : Tables collate) (ip : List UInt8) : List IpBan :=
  t.ipBanned.filter fun ban => collate ban.ip = collate ip

end Tables

/-- A text column that may be null. -/
def textOrNull : Option (List UInt8) → SqlValue
  | none => .null
  | some str => .text str

/-- The columns of `REALMD_DB_CHECK_ACCT_BAN`, the fifth of them given. -/
def AccountRow.checkedColumns (row : AccountRow) (active : SqlValue) : List SqlValue :=
  [.text (row.shaPassHash.map HexText.toUpper), .integer 4 row.id.toNat,
    .integer 1 row.locked.toNat, .text row.lastIp, active, .integer 4 row.failedLogins.toNat]

/-- The rows an account has in the join: one for each ban that is active, and one without a
ban where there is none. -/
def Tables.checkedRows (t : Tables collate) (row : AccountRow) : List (List SqlValue) :=
  if t.activeBans row = [] then [row.checkedColumns .null]
  else (t.activeBans row).map fun _ => row.checkedColumns (.integer 1 1)

/-- The columns of `PROXYD_DB_GET_ACCT`. -/
def AccountRow.acctColumns (row : AccountRow) : List SqlValue :=
  [.integer 4 row.id.toNat, .integer 1 row.gmlevel.toNat, textOrNull row.sessionkey,
    .text row.shaPassHash, textOrNull row.v, textOrNull row.s, .integer 1 row.expansion.toNat]

def IpBan.columns (ban : IpBan) : List SqlValue :=
  [.text ban.ip, .integer 8 ban.bandate, .integer 8 ban.unbandate, .text ban.bannedby,
    .text ban.banreason]

/-- An answer of the server. -/
def answer (numFields : ℕ) (rows : List (List SqlValue)) : ResultSet where
  engine := .mysql
  numFields := numFields
  rows := rows

namespace Tables

/-- What the server returns for a query of the realm daemon; `other` is its answer to a query
of another table. -/
def select (t : Tables collate) (other : ResultSet) (op : RealmdRequest) : ResultSet :=
  match op.statement, op.params with
  | .checkIpBan, [(_, .string ip)] => answer 5 ((t.bansOf ip).map IpBan.columns)
  | .checkAcctBan, [(_, .string login)] => answer 6 ((t.accountsNamed login).flatMap t.checkedRows)
  | .getSessionkey, [(_, .string login)] =>
    answer 1 ((t.accountsNamed login).map fun row => [textOrNull row.sessionkey])
  | _, _ => other

/-- What the server returns for a query of the proxy. -/
def selectProxyd (t : Tables collate) (other : ResultSet) (op : ProxydRequest) : ResultSet :=
  match op.statement, op.params with
  | .getAcct, [(_, .string login)] => answer 7 ((t.accountsNamed login).map AccountRow.acctColumns)
  | _, _ => other

end Tables

/-! ### What a statement leaves -/

section Execute

variable {t : Tables collate} {op : RealmdRequest} {now : ℤ} {row row₀ : AccountRow}

/-- The columns that no statement assigns to are those of another row. -/
structure AccountRow.Same (row₀ row : AccountRow) : Prop where
  id : row.id = row₀.id
  username : row.username = row₀.username
  shaPassHash : row.shaPassHash = row₀.shaPassHash

theorem AccountRow.Same.refl (row : AccountRow) : row.Same row := ⟨rfl, rfl, rfl⟩

theorem AccountRow.Same.trans {row' : AccountRow} (h : row₀.Same row) (h' : row.Same row') :
    row₀.Same row' :=
  ⟨h'.id.trans h.id, h'.username.trans h.username, h'.shaPassHash.trans h.shaPassHash⟩

theorem AccountRow.Same.named_eq (h : row₀.Same row) (login : List UInt8) :
    row.named collate login = row₀.named collate login := by
  rw [AccountRow.named, AccountRow.named, h.username]

/-- **Every row is one that was there, or one that was assigned to.** -/
theorem mem_account_execute (h : row ∈ (t.execute now op).account) :
    ∃ row₀ ∈ t.account, row₀.Same row ∧ (row = row₀ ∨ ∃ which a,
      assignment? collate op = some (which, a) ∧ which row₀ = true ∧ row = a.set row₀) := by
  rw [Tables.execute] at h
  split at h
  · next which a ha =>
    obtain ⟨row₀, hrow₀, rfl⟩ := List.mem_map.mp h
    refine ⟨row₀, hrow₀, ?_⟩
    split
    · next hwhich =>
      exact ⟨⟨a.id_set row₀, a.username_set row₀, a.shaPassHash_set row₀⟩,
        Or.inr ⟨which, a, ha, hwhich, rfl⟩⟩
    · exact ⟨.refl row₀, Or.inl rfl⟩
  · have hsame : row ∈ t.account := by
      split at h
      · rw [Tables.insertAccountBan] at h
        split at h
        · exact h
        · exact h
      · rw [Tables.insertIpBan] at h
        split at h
        · exact h
        · exact h
      · exact h
    exact ⟨row, hsame, .refl row, Or.inl rfl⟩

/-- Every row that was there still is, or was assigned to. -/
theorem exists_mem_execute (h : row₀ ∈ t.account) :
    ∃ row ∈ (t.execute now op).account, row₀.Same row ∧ (row = row₀ ∨ ∃ which a,
      assignment? collate op = some (which, a) ∧ which row₀ = true ∧ row = a.set row₀) := by
  rw [Tables.execute]
  split
  · next which a ha =>
    refine ⟨_, List.mem_map_of_mem h, ?_⟩
    split
    · next hwhich =>
      exact ⟨⟨a.id_set row₀, a.username_set row₀, a.shaPassHash_set row₀⟩,
        Or.inr ⟨which, a, ha, hwhich, rfl⟩⟩
    · exact ⟨.refl row₀, Or.inl rfl⟩
  · refine ⟨row₀, ?_, .refl row₀, Or.inl rfl⟩
    split
    · rw [Tables.insertAccountBan]
      split
      · exact h
      · exact h
    · rw [Tables.insertIpBan]
      split
      · exact h
      · exact h
    · exact h

/-- `update_account` is to write the session key `key` into the row. -/
def WritesKey (collate : List UInt8 → List UInt8) (op : RealmdRequest) (row : AccountRow)
    (key : List UInt8) : Prop :=
  op.statement = .updateAccount ∧ ∃ i j l x ip login,
    op.params = [(i, .string key), (j, .string ip), x, (l, .string login)] ∧
      row.named collate login = true

/-- The session key is assigned by `update_account`. -/
theorem sessionkey_set {which : AccountRow → Bool} {a : Assignment}
    (ha : assignment? collate op = some (which, a)) (hwhich : which row = true) :
    (a.set row).sessionkey = row.sessionkey ∨
      ∃ key, WritesKey collate op row key ∧ (a.set row).sessionkey = some key := by
  rw [assignment?] at ha
  split at ha
  · cases ha
    exact Or.inl rfl
  · cases ha
    exact Or.inl rfl
  · next i key j ip x l login hst hparams =>
    cases ha
    exact Or.inr ⟨key, ⟨hst, i, j, l, x, ip, login, hparams, hwhich⟩, rfl⟩
  · cases ha
    exact Or.inl rfl
  · cases ha

theorem sessionkey_execute (h : row ∈ (t.execute now op).account) :
    ∃ row₀ ∈ t.account, row₀.Same row ∧ (row.sessionkey = row₀.sessionkey ∨
      ∃ key, WritesKey collate op row₀ key ∧ row.sessionkey = some key) := by
  obtain ⟨row₀, hrow₀, hsame, hrow | ⟨which, a, ha, hwhich, rfl⟩⟩ := mem_account_execute h
  · exact ⟨row₀, hrow₀, hsame, Or.inl (by rw [hrow])⟩
  · exact ⟨row₀, hrow₀, hsame, sessionkey_set ha hwhich⟩

/-- The verifier is written by the two requests of `set_vs`. -/
theorem verifier_execute (h : row ∈ (t.execute now op).account) :
    ∃ row₀ ∈ t.account, row₀.Same row ∧ (row.v = row₀.v ∧ row.s = row₀.s ∨ row.v = some [] ∨
      op.statement = .setSV ∧ ∃ i j l v s login,
        op.params = [(i, .string v), (j, .string s), (l, .string login)] ∧
          row₀.named collate login = true ∧ row.v = some v ∧ row.s = some s) := by
  obtain ⟨row₀, hrow₀, hsame, hrow | ⟨which, a, ha, hwhich, rfl⟩⟩ := mem_account_execute h
  · exact ⟨row₀, hrow₀, hsame, Or.inl (by rw [hrow]; exact ⟨rfl, rfl⟩)⟩
  · refine ⟨row₀, hrow₀, hsame, ?_⟩
    rw [assignment?] at ha
    split at ha
    · next i v j s l login hst hparams =>
      cases ha
      exact Or.inr (Or.inr ⟨hst, i, j, l, v, s, login, hparams, hwhich, rfl, rfl⟩)
    · cases ha
      exact Or.inr (Or.inl rfl)
    · cases ha
      exact Or.inl ⟨rfl, rfl⟩
    · cases ha
      exact Or.inl ⟨rfl, rfl⟩
    · cases ha

/-- No two accounts have one name. -/
theorem Tables.eq_of_named {login : List UInt8} (hrow₀ : row₀ ∈ t.account) (hrow : row ∈ t.account)
    (h₀ : row₀.named collate login = true) (h : row.named collate login = true) : row₀ = row :=
  List.inj_on_of_nodup_map t.account_username hrow₀ hrow
    ((of_decide_eq_true h₀).trans (of_decide_eq_true h).symm)

/-- A name has one account. -/
theorem Tables.accountsNamed_eq {login : List UInt8} (hrow : row ∈ t.account)
    (hname : row.named collate login = true) : t.accountsNamed login = [row] := by
  have hall : ∀ row' ∈ t.accountsNamed login, row' = row := by
    intro row' hrow'
    obtain ⟨hmem, hname'⟩ := List.mem_filter.mp hrow'
    exact eq_of_named hmem hrow hname' hname
  have hnodup : (t.accountsNamed login).Nodup :=
    (List.Nodup.of_map _ t.account_id).filter _
  have hmem : row ∈ t.accountsNamed login := List.mem_filter.mpr ⟨hrow, hname⟩
  rw [List.eq_replicate_of_mem hall] at hnodup hmem ⊢
  have hlen := List.nodup_replicate.mp hnodup
  have hpos := Nat.pos_of_ne_zero (List.mem_replicate.mp hmem).1
  rw [Nat.le_antisymm hlen hpos]
  rfl

end Execute

/-! ### What an observer reads of a row -/

section Reads

variable {n i : ℕ} {columns : List SqlValue} {rows : List (List SqlValue)} {v : SqlValue}

/-- The first row of an answer is the one after the first call. -/
theorem rowPosition_answer : (answer n (columns :: rows)).next.2.rowPosition = 0 + 1 := rfl

theorem column_answer (hle : i < n) (hv : columns[i]? = some v) :
    (answer n (columns :: rows)).next.2.column (i + 1) = some v :=
  ResultSet.column_of_mysql rfl rowPosition_answer rfl (Nat.succ_pos i) hle hv

theorem getString_answer (hle : i < n) (hv : columns[i]? = some v) :
    (answer n (columns :: rows)).next.2.getString (i + 1) = some v.buffer := by
  rw [ResultSet.getString, column_answer hle hv]
  rfl

theorem readsAs_answer (hcolumns : columns.length ≤ n) (hfits : ∀ v ∈ columns, v.Fits)
    (hv : columns[i]? = some v) : (answer n (columns :: rows)).next.2.ReadsAs (i + 1) v :=
  ResultSet.readsRow_of_mysql rfl rowPosition_answer rfl hcolumns hfits i v hv

end Reads

/-- The text of a column that may be null. -/
def readText (text : Option (List UInt8)) : List UInt8 := text.getD []

theorem buffer_textOrNull (text : Option (List UInt8)) :
    (textOrNull text).buffer = readText text := by
  cases text with
  | none => rfl
  | some str => rfl

/-- The account the proxy has after the answer. -/
def AccountRow.proxydAccount (row : AccountRow) : Proxyd.Account where
  id := row.id
  gmlevel := row.gmlevel
  sessionkey := readText row.sessionkey
  shaPassHash := row.shaPassHash
  v := readText row.v
  s := readText row.s
  expansion := row.expansion

theorem fits_uint8 (n : UInt8) : (SqlValue.integer 1 n.toNat).Fits := ⟨n.toNat, rfl, n.toNat_lt⟩

theorem fits_uint32 (n : UInt32) : (SqlValue.integer 4 n.toNat).Fits := ⟨n.toNat, rfl, n.toNat_lt⟩

theorem fits_textOrNull (text : Option (List UInt8)) : (textOrNull text).Fits := by
  cases text with
  | none => trivial
  | some str => trivial

theorem fits_acctColumns (row : AccountRow) : ∀ v ∈ row.acctColumns, v.Fits := by
  rw [AccountRow.acctColumns]
  simp only [List.forall_mem_cons]
  exact ⟨fits_uint32 _, fits_uint8 _, fits_textOrNull _, trivial, fits_textOrNull _,
    fits_textOrNull _, fits_uint8 _, nofun⟩

/-- **The proxy reads the row.** -/
theorem readAccount_acctColumns (row : AccountRow) (rows : List (List SqlValue)) :
    Proxyd.Conn.readAccount (answer 7 (row.acctColumns :: rows)).next.2 =
      some row.proxydAccount := by
  have hreads : ∀ i v, row.acctColumns[i]? = some v →
      (answer 7 (row.acctColumns :: rows)).next.2.ReadsAs (i + 1) v :=
    fun i v => readsAs_answer le_rfl (fits_acctColumns row)
  have hid := ResultSet.getUint32_of_readsAs (hreads 0 _ rfl)
  have hgmlevel := ResultSet.getUint8_of_readsAs (hreads 1 _ rfl)
  have hexpansion := ResultSet.getUint8_of_readsAs (hreads 6 _ rfl)
  have htext : ∀ {i v}, i < 7 → row.acctColumns[i]? = some v →
      (answer 7 (row.acctColumns :: rows)).next.2.getString (i + 1) = some v.buffer :=
    getString_answer
  have hkey := htext (i := 2) (by decide) rfl
  have hhash := htext (i := 3) (by decide) rfl
  have hv := htext (i := 4) (by decide) rfl
  have hs := htext (i := 5) (by decide) rfl
  rw [buffer_textOrNull] at hkey hv hs
  simp only [Proxyd.Conn.readAccount, hid, hgmlevel, hkey, hhash, hv, hs, hexpansion,
    Option.bind_eq_bind, Option.bind_some]
  rfl

/-- The realm daemon reads the password hash of the row. -/
theorem shaPass_of_readAccount {row : AccountRow} {active : SqlValue}
    {rows : List (List SqlValue)} {acct : Realmd.Account}
    (h : Realmd.Conn.readAccount (answer 6 (row.checkedColumns active :: rows)).next.2 =
      some acct) : acct.shaPass = row.shaPassHash.map HexText.toUpper := by
  have hhash : (answer 6 (row.checkedColumns active :: rows)).next.2.getString (0 + 1) =
      some (row.shaPassHash.map HexText.toUpper) :=
    getString_answer (v := .text (row.shaPassHash.map HexText.toUpper)) (by decide) rfl
  rw [Realmd.Conn.readAccount] at h
  obtain ⟨shaPass, hpass, h⟩ := Option.bind_eq_some_iff.mp h
  obtain ⟨_, -, h⟩ := Option.bind_eq_some_iff.mp h
  obtain ⟨_, -, h⟩ := Option.bind_eq_some_iff.mp h
  obtain ⟨_, -, h⟩ := Option.bind_eq_some_iff.mp h
  obtain ⟨_, -, h⟩ := Option.bind_eq_some_iff.mp h
  obtain ⟨_, -, h⟩ := Option.bind_eq_some_iff.mp h
  rw [← Option.some.inj h]
  exact Option.some.inj (hpass.symm.trans hhash)

/-- The first row an account has in the join. -/
theorem exists_checkedRows (t : Tables collate) (row : AccountRow) : ∃ active rows,
    t.checkedRows row = row.checkedColumns active :: rows ∧
      (t.activeBans row = [] ∧ active = .null ∨
        t.activeBans row ≠ [] ∧ active = .integer 1 1) := by
  rw [Tables.checkedRows]
  split
  · next hnone => exact ⟨.null, [], rfl, Or.inl ⟨hnone, rfl⟩⟩
  · next hsome =>
    obtain ⟨ban, bans, hbans⟩ := List.exists_cons_of_ne_nil hsome
    rw [hbans]
    exact ⟨_, _, rfl, Or.inr ⟨List.cons_ne_nil _ _, rfl⟩⟩

/-! ### An account -/

namespace Sample

/-- The account `A`, with a session key and with a verifier. -/
def accountRow : AccountRow where
  id := 7
  username := [65]
  shaPassHash := [48]
  sessionkey := some [48]
  v := some [48, 49]
  s := some (bnBn2hex (2 ^ 255))
  lastIp := []
  failedLogins := 0
  locked := 0
  expansion := 1
  gmlevel := 0

/-- The account, and no bans. -/
def tables : Tables id where
  account := [accountRow]
  accountBanned := []
  ipBanned := []
  account_id := by decide
  account_username := by decide
  accountBanned_key := by decide
  ipBanned_key := by decide

end Sample

end Morfeusz.Realmdb
