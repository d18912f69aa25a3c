import Morfeusz.Handover
import Morfeusz.Realmdb.Sessions

/-!
# When the proxy accepts a client

The proxy asks two things of a client: that the verifier in the row of its account is that of the
password hash beside it, and that its digest is that of the session key. The first is asked of
the database, not of the client: the connections of the realm daemon write the salt and the
verifier, many of them and in any order, and the column is empty in between. But what they write
there is always the verifier of the hash of that row (`Morfeusz.Realmdb.AccountRow.Consistent`),
since a connection that has taken a challenge keeps its name, and a name its account. So the
first question is only whether there is a verifier at all, and a client is accepted exactly when
there is and its digest is right (`Morfeusz.Realmdb.client_accepted_iff`).
-/

namespace Morfeusz

/-- The letters of a C string in upper case. -/
theorem cStr_map_toUpper (text : List UInt8) :
    cStr (text.map HexText.toUpper) = (cStr text).map HexText.toUpper := by
  have hall : ∀ n : Fin 256, HexText.toUpper (UInt8.ofNat n) = 0 ↔ UInt8.ofNat n = 0 := by
    decide +kernel
  have hzero : ∀ c : UInt8, HexText.toUpper c = 0 ↔ c = 0 := by
    intro c
    have h := hall ⟨c.toNat, c.toNat_lt⟩
    simpa using h
  rw [cStr, cStr, List.takeWhile_map]
  refine congrArg (List.map _) (congrArg (fun p => List.takeWhile p text) (funext fun c => ?_))
  rw [Function.comp_apply, decide_eq_decide]
  exact not_congr (hzero c)

namespace Realmdb

open Realmd (RealmdRequest Salt verifierV setRequest accountRequest)
open Proxyd (ProxydRequest AcceptsDigest acctRequest)

variable {collate : List UInt8 → List UInt8} {κ π : Type} [DecidableEq κ] [DecidableEq π]
  {sha : Sha1} {hmac : Hmac} {s₀ s s' : Estate collate κ π} {es : List (EstateEvent κ π)}
  {ev : EstateEvent κ π} {i : ℕ} {row row₀ : AccountRow} {j : π} {tables : Tables collate}
  {autoCommit : List Bool}

/-! ### The verifier of a row -/

/-- The number a password hash stands for, as both daemons read it. -/
def AccountRow.hashNumber (row : AccountRow) : Option ℕ := bnHex2bn (cStr row.shaPassHash)

/-- **What a row should hold**: no verifier, or that of its password hash with the salt beside
it. -/
def AccountRow.Consistent (sha : Sha1) (row : AccountRow) : Prop :=
  readText row.v = [] ∨ ∃ (salt : Salt) (I : ℕ), row.hashNumber = some I ∧
    row.s = some (bnBn2hex salt.val) ∧ row.v = some (bnBn2hex (verifierV sha salt I).val)

theorem AccountRow.Same.hashNumber_eq (h : row₀.Same row) : row.hashNumber = row₀.hashNumber := by
  rw [AccountRow.hashNumber, AccountRow.hashNumber, h.shaPassHash]

theorem AccountRow.Same.consistent (h : row₀.Same row) (hv : row.v = row₀.v) (hs : row.s = row₀.s)
    (h₀ : row₀.Consistent sha) : row.Consistent sha := by
  rw [AccountRow.Consistent, hv, hs, h.hashNumber_eq]
  exact h₀

/-- Where the realm daemon has read the hash of a row, it has the number of that row. -/
theorem hashNumber_of_shaPass {shaPass : List UInt8}
    (h : shaPass = row.shaPassHash.map HexText.toUpper) :
    bnHex2bn (cStr shaPass) = row.hashNumber := by
  rw [h, cStr_map_toUpper, bnHex2bn, HexText.read_map_toUpper]
  rfl

/-! ### The parts -/

/-- The row of an account there was. -/
def KnownRow (tables : Tables collate) (row : AccountRow) : Prop :=
  ∃ row₀ ∈ tables.account, row₀.Same row

/-- The password hash of a connection is that of the account of its name, if it has one. -/
def LoadedFrom (tables : Tables collate) (c : Realmd.Conn) : Prop :=
  c.acct.shaPass = [] ∨ c.state ≠ .connected ∧ ∃ row₀ ∈ tables.account,
    row₀.named collate (cStr c.login) = true ∧
      c.acct.shaPass = row₀.shaPassHash.map HexText.toUpper

/-- What a request of `set_sv` stores is the verifier of every account of the name. -/
def StoresVerifier (sha : Sha1) (tables : Tables collate) (op : RealmdRequest) : Prop :=
  op.statement = .setSV → ∃ login salt I, op = setRequest login salt (verifierV sha salt I) ∧
    ∀ row₀ ∈ tables.account, row₀.named collate (cStr login) = true → row₀.hashNumber = some I

/-- The account is asked for under the name the connection has and will keep. -/
def AsksOwn (c : Realmd.Conn) (op : RealmdRequest) : Prop :=
  op.statement = .checkAcctBan → c.state ≠ .connected ∧ op = accountRequest c.login

/-- The answer has what the tables had of the name. -/
def AnswersOwn (tables : Tables collate) (c : Realmd.Conn) (res : ResultSet) : Prop :=
  c.state ≠ .connected ∧ ∃ t : Tables collate, (∀ row ∈ t.account, KnownRow tables row) ∧
    res = answer 6 ((t.accountsNamed (cStr c.login)).flatMap t.checkedRows)

/-- What holds of every part, as to verifiers. -/
def verifierParts (sha : Sha1) (tables : Tables collate) : Parts κ π where
  row row := KnownRow tables row ∧ row.Consistent sha
  conn _ c := Realmd.Inv sha c ∧ LoadedFrom tables c
  request _ c op := StoresVerifier sha tables op ∧ AsksOwn c op
  reply _ c obs res := obs = .checkAcctObsv → AnswersOwn tables c res
  ask _ op := op.statement = .getAcct → ∃ login, op = acctRequest login
  told _ obs res := obs = .getAcctObsv → ∃ rows : List AccountRow,
    res = answer 7 (rows.map AccountRow.acctColumns) ∧ ∀ row ∈ rows, row.Consistent sha

section Conn

variable {c c' : Realmd.Conn} {e : Realmd.Event} {op : RealmdRequest} {res : ResultSet}

/-- A connection that has taken a challenge keeps its name. -/
theorem login_of_step (h : Realmd.step sha c e = some c') (hstate : c.state ≠ .connected) :
    c'.state ≠ .connected ∧ c'.login = c.login :=
  ⟨((Realmd.trans_of_step h).sameClient hstate).1, ((Realmd.trans_of_step h).sameClient hstate).2.1⟩

theorem AsksOwn.of_step (ha : AsksOwn c op) (h : Realmd.step sha c e = some c') :
    AsksOwn c' op := by
  intro hst
  obtain ⟨hstate, rfl⟩ := ha hst
  obtain ⟨hstate', hlogin⟩ := login_of_step h hstate
  exact ⟨hstate', by rw [hlogin]⟩

theorem AnswersOwn.of_step (ha : AnswersOwn tables c res) (h : Realmd.step sha c e = some c') :
    AnswersOwn tables c' res := by
  obtain ⟨hstate, t, ht, rfl⟩ := ha
  obtain ⟨hstate', hlogin⟩ := login_of_step h hstate
  exact ⟨hstate', t, ht, by rw [hlogin]⟩

/-- The account that an answer loads has the hash of a row of the name. -/
theorem exists_row_of_loadsAccount (ha : AnswersOwn tables c res) {acct : Realmd.Account}
    (hload : Realmd.LoadsAccount e acct) (hact : e.action = .answer .checkAcctObsv res) :
    ∃ row₀ ∈ tables.account, row₀.named collate (cStr c.login) = true ∧
      acct.shaPass = row₀.shaPassHash.map HexText.toUpper := by
  obtain ⟨-, t, ht, rfl⟩ := ha
  obtain ⟨res, hact', hrows, -, hacct⟩ := hload
  obtain ⟨-, rfl⟩ := Realmd.Action.answer.inj (hact.symm.trans hact')
  cases hnamed : t.accountsNamed (cStr c.login) with
  | nil =>
    rw [hnamed] at hrows
    exact absurd rfl hrows
  | cons row rest =>
    obtain ⟨hmem, hname⟩ := List.mem_filter.mp
      (show row ∈ t.accountsNamed (cStr c.login) by rw [hnamed]; exact List.mem_cons_self)
    obtain ⟨row₀, hrow₀, hsame⟩ := ht row hmem
    obtain ⟨active, rows, hchecked, -⟩ := exists_checkedRows t row
    rw [hnamed, List.flatMap_cons, hchecked, List.cons_append] at hacct
    refine ⟨row₀, hrow₀, (hsame.named_eq _).symm.trans hname, ?_⟩
    rw [shaPass_of_readAccount hacct, hsame.shaPassHash]

/-- A proof that fails leaves the password hash alone. -/
theorem shaPass_of_fails (h : Realmd.step sha c e = some c')
    (hf : Realmd.FailsLogonProof sha c e) : c'.acct.shaPass = c.acct.shaPass := by
  rw [hf.step_eq h]
  by_cases hban : e.env.wrongPassBan = true
  · rw [Realmd.Conn.countFailedLogin_of_ban hban]
    rfl
  · rw [Realmd.Conn.countFailedLogin, if_neg hban]
    rfl

/-- **The password hash of a connection stays that of its name.** -/
theorem LoadedFrom.of_step (hl : LoadedFrom tables c) (h : Realmd.step sha c e = some c')
    (hreply : ∀ res, e.action = .answer .checkAcctObsv res → AnswersOwn tables c res) :
    LoadedFrom tables c' := by
  have hsame : c'.acct.shaPass = c.acct.shaPass → LoadedFrom tables c' := by
    intro hpass
    rw [LoadedFrom, hpass]
    refine hl.imp_right fun ⟨hstate, hrow⟩ => ?_
    obtain ⟨hstate', hlogin⟩ := login_of_step h hstate
    rw [hlogin]
    exact ⟨hstate', hrow⟩
  by_cases hrow : ∃ res, e.action = .answer .checkAcctObsv res
  · obtain ⟨res, hact⟩ := hrow
    have hown := hreply res hact
    rcases Realmd.step_checkAcctObsv h hact with ⟨acct, hload, hacct, -⟩ | ⟨-, hacct, -⟩
    · obtain ⟨hstate', hlogin⟩ := login_of_step h hown.1
      obtain ⟨row₀, hrow₀, hname, hpass⟩ := exists_row_of_loadsAccount hown hload hact
      refine Or.inr ⟨hstate', row₀, hrow₀, ?_, ?_⟩
      · rw [hlogin]
        exact hname
      · rw [hacct, hpass]
    · exact hsame (by rw [hacct])
  · by_cases hf : Realmd.FailsLogonProof sha c e
    · exact hsame (shaPass_of_fails h hf)
    · exact hsame (by rw [Realmd.acct_of_step h hf (not_exists.mp hrow)])

/-- **What a connection asks to be stored is the verifier of the account of its name.** -/
theorem storesVerifier_of_requested (h : Realmd.Requested sha c e c' op)
    (hl : LoadedFrom tables c') : StoresVerifier sha tables op := by
  intro hst
  cases h with
  | setSV I hI hfits hstate =>
    refine ⟨c'.login, c'.s, I, rfl, fun row hrow hname => ?_⟩
    rcases hl with hnone | ⟨-, row₀, hrow₀, hname₀, hpass⟩
    · rw [hnone] at hI
      cases hI
    · obtain rfl := Tables.eq_of_named hrow₀ hrow hname₀ hname
      rw [← hashNumber_of_shaPass hpass, hI]
  | banFailedLogins hfails =>
    rcases Realmd.isBan_banRequest e.env c with hban | hban
    · cases hban.symm.trans hst
    · cases hban.symm.trans hst
  | checkIpBan | getAccount | getSessionkey | getCharAmount | fixSV | updateAccount
  | incrementFailedLogins => cases hst

theorem asksOwn_of_requested (h : Realmd.Requested sha c e c' op) (hi : Realmd.Inv sha c') :
    AsksOwn c' op := by
  intro hst
  cases h with
  | getAccount hpending => exact ⟨hi.busy_of_pending hpending, rfl⟩
  | banFailedLogins hfails =>
    rcases Realmd.isBan_banRequest e.env c with hban | hban
    · cases hban.symm.trans hst
    · cases hban.symm.trans hst
  | checkIpBan | getSessionkey | getCharAmount | fixSV | setSV | updateAccount
  | incrementFailedLogins => cases hst

end Conn

/-- **Executing a request keeps the rows consistent.** -/
theorem consistent_execute {op : RealmdRequest} {t : Tables collate} {now : ℤ}
    (hop : StoresVerifier sha tables op)
    (ht : ∀ row ∈ t.account, KnownRow tables row ∧ row.Consistent sha)
    (hrow : row ∈ (t.execute now op).account) : KnownRow tables row ∧ row.Consistent sha := by
  obtain ⟨row₁, hrow₁, hsame, hwritten⟩ := verifier_execute hrow
  obtain ⟨⟨row₀, hrow₀, hsame₀⟩, hrow₁'⟩ := ht row₁ hrow₁
  refine ⟨⟨row₀, hrow₀, hsame₀.trans hsame⟩, ?_⟩
  rcases hwritten with ⟨hv, hs⟩ | hv | ⟨hst, i, j, l, v, s, login, hparams, hname, hv, hs⟩
  · exact hsame.consistent hv hs hrow₁'
  · exact Or.inl (by rw [hv]; rfl)
  · obtain ⟨login, salt, I, rfl, hnumber⟩ := hop hst
    rw [setRequest] at hparams
    cases hparams
    refine Or.inr ⟨salt, I, ?_, ?_, ?_⟩
    · rw [hsame.hashNumber_eq, hsame₀.hashNumber_eq]
      exact hnumber row₀ hrow₀ ((hsame₀.named_eq _).symm.trans hname)
    · rw [hs, cStr_bnBn2hex]
    · rw [hv, cStr_bnBn2hex]

theorem verifierParts_kept (hmac : Hmac) (now : ℤ) (autoCommit : List Bool)
    (hstart : ∀ row ∈ tables.account, row.Consistent sha) (es : List (EstateEvent κ π)) :
    (verifierParts sha tables).Kept sha hmac (Estate.init now tables autoCommit) es where
  init row hrow := ⟨⟨row, hrow, .refl row⟩, hstart row hrow⟩
  opened _ f := ⟨Realmd.inv_init f, Or.inl rfl⟩
  react {i s ev s' k c e c'} hat hr := by
    rintro ⟨hi, hl⟩ hreply
    have hi' := hi.of_step hr.step
    have hl' : LoadedFrom tables c' :=
      hl.of_step hr.step fun res hact => hreply _ res hact rfl
    refine ⟨⟨hi', hl'⟩, ?_, ?_, ?_⟩
    · exact fun op hop => ⟨hop.1, hop.2.of_step hr.step⟩
    · exact fun obs res ha hobs => (ha hobs).of_step hr.step
    · obtain ⟨new, hnew, hall⟩ := Realmd.requested_of_step hi hr.step
      rw [hnew, List.drop_left]
      exact fun op hop => ⟨storesVerifier_of_requested (hall op hop) hl',
        asksOwn_of_requested (hall op hop) hi'⟩
  execute _ _ hop ht _ hrow := consistent_execute hop.1 ht hrow
  select {k c op obs} other t hop hobs ht hacct := by
    subst hacct
    have hst : op.statement = .checkAcctBan := by
      cases hst : op.statement with
      | checkAcctBan => rfl
      | setSV | updateAccount | setFailedLogins | addAccountAutoban | addIpAutoban | checkIpBan
      | getSessionkey | getNumchar | fixSV =>
        rw [hst] at hobs
        cases hobs
    obtain ⟨hstate, rfl⟩ := hop.2 hst
    exact ⟨hstate, t, fun row hrow => (ht row hrow).1, rfl⟩
  query hat hr op hop hst := by
    obtain ⟨g, pkt, -, -, -, heq⟩ := Proxyd.getAcct_of_step hr.step hop hst
    exact ⟨_, heq⟩
  selectProxyd {j op obs} other t hop hobs ht hacct := by
    subst hacct
    obtain ⟨login, rfl⟩ := hop (getAcct_of_observer? hobs)
    refine ⟨t.accountsNamed (cStr login), rfl, fun row hrow => ?_⟩
    exact (ht row (List.mem_filter.mp hrow).1).2

/-! ### The check of the verifier -/

/-- **The proxy finds the verifier right wherever there is one.** -/
theorem verifierText_eq_iff {row : AccountRow} (h : row.Consistent sha) {d : Proxyd.Conn}
    (hd : d.acct = row.proxydAccount) :
    d.verifierText sha = cStr d.acct.v ↔ d.acct.v ≠ [] := by
  have hacct : d.acct.v = readText row.v ∧ d.acct.s = readText row.s ∧
      d.acct.shaPassHash = row.shaPassHash := by
    rw [hd]
    exact ⟨rfl, rfl, rfl⟩
  obtain ⟨hv, hs, hhash⟩ := hacct
  rcases h with hnone | ⟨salt, I, hI, hsalt, hverifier⟩
  · rw [hv, hnone]
    refine iff_of_false (fun heq => ?_) (fun hne => hne rfl)
    exact Realmd.Daemon.bnBn2hex_ne_nil _ heq
  · rw [hv, hverifier, readText, Option.getD_some]
    refine iff_of_true ?_ (Realmd.Daemon.bnBn2hex_ne_nil _)
    have hsalt' : Proxyd.numberOfText d.acct.s = salt.val := by
      rw [hs, hsalt, readText, Option.getD_some, ← cStr_bnBn2hex,
        Handover.numberOfText_cStr_bnBn2hex]
    have hnumber : Proxyd.numberOfText d.acct.shaPassHash = I := by
      rw [hhash, Proxyd.numberOfText]
      exact (congrArg (fun n => n.getD 0) hI).trans (Option.getD_some ..)
    rw [Proxyd.Conn.verifierText, hsalt', hnumber, Proxyd.verifierV, Handover.exponentX_eq,
      cStr_bnBn2hex]
    rfl

/-- **When the proxy accepts a client.** In every run from tables whose verifiers are right, a
connection of the proxy that is answered with an account accepts the client if and only if there
is a verifier in the answer and the digest of the client is that of the session key. -/
theorem client_accepted_iff {now : ℤ} (hstart : ∀ row ∈ tables.account, row.Consistent sha)
    (hat : Estate.StepAt sha hmac (Estate.init now tables autoCommit) es i s ev s')
    {d d' : Proxyd.ProxySocket} {e : Proxyd.Event} {acct : Proxyd.Account}
    (hr : s.ReactsProxyd sha hmac ev j d (.event e) d' s') (hbrings : e.Brings acct) :
    AcceptsDigest sha d.conn e acct ↔ acct.v ≠ [] ∧
      d.conn.clientDigest =
        some (({ d.conn with acct } : Proxyd.Conn).checkDigest sha e.env) := by
  obtain ⟨res, hact, hcount, hread⟩ := id hbrings
  have hhold : (verifierParts sha tables).Hold s :=
    Parts.hold_of_run (verifierParts_kept hmac now autoCommit hstart es) hat.1
  obtain ⟨rows, rfl, hrows⟩ := hhold.told j _ res (hr.answer e _ res rfl hact) rfl
  cases rows with
  | nil => exact absurd rfl hcount
  | cons row rows =>
    obtain rfl := Option.some.inj ((readAccount_acctColumns row _).symm.trans hread)
    have hverifier := verifierText_eq_iff (d := { d.conn with acct := row.proxydAccount })
      (hrows row List.mem_cons_self) rfl
    rw [AcceptsDigest, and_iff_right hbrings, Proxyd.Conn.Authentic, hverifier]

/-- The verifier of the sample account is that of its password hash. -/
theorem Sample.accountRow_consistent : Sample.accountRow.Consistent Proxyd.Sample.zeroSha :=
  Or.inr ⟨⟨2 ^ 255, by norm_num, by norm_num⟩, 0, rfl, rfl, by decide +kernel⟩

/-- There is a verifier where the sample client is accepted. -/
theorem client_accepted_iff_sample : ∃ d e acct, AcceptsDigest Proxyd.Sample.zeroSha d e acct ∧
    acct.v ≠ [] := by
  obtain ⟨s, s', d, d', e, acct, hat, hr, hacc⟩ := Sample.exists_accepted
  have hstart : ∀ row ∈ Sample.tables.account, row.Consistent Proxyd.Sample.zeroSha := by
    intro row hrow
    rw [List.mem_singleton.mp hrow]
    exact Sample.accountRow_consistent
  exact ⟨d.conn, e, acct, hacc, ((client_accepted_iff hstart hat hr hacc.1).mp hacc).1⟩

end Realmdb

end Morfeusz
