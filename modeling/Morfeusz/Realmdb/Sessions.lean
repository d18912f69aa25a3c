import Morfeusz.Proxyd.Authentication
import Morfeusz.Proxyd.Schedules
import Morfeusz.Realmd.Requests
import Morfeusz.Realmdb.Estate

/-!
# Where a session key comes from

The proxy checks the digest of a client with the session key in the row of the account, and
takes the key of its header cipher from there. It does not know who wrote it. This file says
so: whatever the connections of the two daemons do and in whatever order the workers execute
their requests, the key in the row of an account is the one that was there at the start, or the
one of a logon proof that a connection of the realm daemon has accepted under the name of that
account (`Morfeusz.Realmdb.accepted_session`).

The proxy may have asked for the account under a name that the client has changed since; so the
name is one that the connection has asked for, not the one it has.
-/

namespace Morfeusz

/-! ### What a connection of the proxy asks -/

namespace Proxyd

variable {sha : Sha1} {hmac : Hmac} {env : Env} {c c' : Conn} {e : Event} {pkt : ClientPkt}
  {op : ProxydRequest}

/-- The request of `get_account`. -/
def acctRequest (login : List UInt8) : ProxydRequest :=
  { statement := .getAcct, params := [addString 1 login] }

theorem not_mem_drop_of_eq {α : Type} {xs ys : List α} (h : ys = xs) {x : α} :
    x ∉ ys.drop xs.length := by
  rw [h, List.drop_length]
  exact List.not_mem_nil

theorem getAcct_of_handleCmsgAuthSession (h : c.handleCmsgAuthSession pkt = some c')
    (hop : .request op ∈ c'.operations.drop c.operations.length) : op = acctRequest c'.login := by
  rcases Conn.handleCmsgAuthSession_some h with rfl | ⟨login, clientSeed, clientDigest, rfl⟩
  · exact absurd hop (not_mem_drop_of_eq rfl)
  · rw [Conn.getAccount, Conn.ask] at hop ⊢
    split at hop
    · next hptr =>
      rw [if_pos hptr]
      rw [Conn.enqueue, List.drop_left, List.mem_singleton] at hop
      exact SqlOperation.request.inj hop
    · exact absurd hop (not_mem_drop_of_eq rfl)

theorem not_getAcct_of_adds {new : List SqlOperation} (h : c.Adds c' new)
    (hop : .request op ∈ c'.operations.drop c.operations.length) : op.statement ≠ .getAcct := by
  rw [h.operations, List.drop_left] at hop
  have hfor : IsFor c.acct.id op := h.isFor _ hop
  intro hst
  rw [IsFor, hst] at hfor
  exact hfor

/-- So a packet about characters does not ask for an account. -/
theorem not_isCharacter_of_getAcct {P : List SqlOperation → Prop}
    (hadds : pkt.IsCharacter → ∃ new, c.Adds c' new ∧ P new)
    (hop : .request op ∈ c'.operations.drop c.operations.length) (hst : op.statement = .getAcct) :
    ¬pkt.IsCharacter := by
  intro hchar
  obtain ⟨new, hnew, -⟩ := hadds hchar
  exact not_getAcct_of_adds hnew hop hst

theorem getAcct_of_processIncoming (h : c.processIncoming env pkt = some c')
    (hop : .request op ∈ c'.operations.drop c.operations.length) (hst : op.statement = .getAcct) :
    pkt.opcode = ClientOpcode.cmsgAuthSession.code ∧ op = acctRequest c'.login := by
  have hno := not_isCharacter_of_getAcct (Conn.processIncoming_adds h).2 hop hst
  have hsame : c'.operations ≠ c.operations := fun heq => not_mem_drop_of_eq heq hop
  rw [Conn.processIncoming] at h
  split at h
  · next hauth =>
    exact ⟨(ClientOpcode.code_of_ofCode? hauth).symm, getAcct_of_handleCmsgAuthSession h hop⟩
  · obtain ⟨_, -, h⟩ := Option.bind_eq_some_iff.mp h
    exact absurd (Conn.frame_of_bind_send h).2 hsame
  · obtain ⟨_, -, h⟩ := Option.bind_eq_some_iff.mp h
    exact absurd (Conn.frame_of_bind_send h).2 hsame
  · next hchar => exact (hno (Or.inl (ClientOpcode.code_of_ofCode? hchar).symm)).elim
  · next hchar => exact (hno (Or.inr (ClientOpcode.code_of_ofCode? hchar).symm)).elim
  · exact absurd (Conn.frame_of_bind_send h).2 hsame
  · exact absurd (congrArg Conn.operations (Option.some.inj h).symm) hsame

theorem getAcct_of_receive {creation : Option Creation}
    (h : c.receive env pkt = some (c', creation))
    (hop : .request op ∈ c'.operations.drop c.operations.length) (hst : op.statement = .getAcct) :
    pkt.opcode = ClientOpcode.cmsgAuthSession.code ∧ op = acctRequest c'.login := by
  have hno := not_isCharacter_of_getAcct (Conn.receive_adds h).2.2 hop hst
  rw [Conn.receive] at h
  split at h
  · split at h
    · next hchar => exact (hno (Or.inr (ClientOpcode.code_of_ofCode? hchar).symm)).elim
    · obtain ⟨c₁, hc₁, h⟩ := Option.map_eq_some_iff.mp h
      obtain ⟨rfl, rfl⟩ := Prod.mk.inj h
      exact getAcct_of_processIncoming hc₁ hop hst
  · cases h

/-- **An account is asked for when `CMSG_AUTH_SESSION` has come, under the name it brought.** -/
theorem getAcct_of_step {s s' : ProxySocket} {e : SocketEvent} (h : s.step sha hmac e = some s')
    (hop : .request op ∈ s'.conn.operations.drop s.conn.operations.length)
    (hst : op.statement = .getAcct) :
    ∃ g pkt, e = .event g ∧ g.action = .input pkt ∧
      pkt.opcode = ClientOpcode.cmsgAuthSession.code ∧ op = acctRequest s'.conn.login := by
  have hquiet {g : Event} {c' : Conn} (hact : ∀ pkt, g.action ≠ .input pkt)
      (h : step sha hmac s.conn g = some c') :
      .request op ∉ c'.operations.drop s.conn.operations.length :=
    not_mem_drop_of_eq (Conn.operations_step hact h)
  cases e with
  | event g =>
    obtain ⟨env, action⟩ := g
    rw [ProxySocket.step] at h
    cases action with
    | input pkt =>
      cases hcreation : s.creation with
      | none =>
        rw [hcreation] at h
        obtain ⟨⟨c', creation⟩, hreceive, rfl⟩ := Option.map_eq_some_iff.mp h
        obtain ⟨hcode, heq⟩ := getAcct_of_receive hreceive hop hst
        exact ⟨_, pkt, rfl, rfl, hcode, heq⟩
      | some h' =>
        rw [hcreation] at h
        cases h
    | hangup =>
      cases hcreation : s.creation with
      | none =>
        rw [hcreation] at h
        obtain ⟨c', hc', rfl⟩ := Option.map_eq_some_iff.mp h
        exact absurd hop (hquiet (fun _ => Action.noConfusion) hc')
      | some h' =>
        rw [hcreation] at h
        cases h
    | answer obs res =>
      obtain ⟨c', hc', rfl⟩ := Option.map_eq_some_iff.mp h
      exact absurd hop (hquiet (fun _ => Action.noConfusion) hc')
  | resume res =>
    obtain ⟨h', -, h⟩ := Option.bind_eq_some_iff.mp h
    obtain ⟨⟨c', creation⟩, hresume, rfl⟩ := Option.map_eq_some_iff.mp h
    obtain ⟨new, hadds, -⟩ := Conn.resume_adds hresume
    exact absurd hst (not_getAcct_of_adds hadds hop)

end Proxyd

namespace Realmdb

open Realmd (RealmdRequest PassesLogonProof sessionkeyText keyRequest)
open Proxyd (ProxydRequest AcceptsDigest acctRequest)

variable {collate : List UInt8 → List UInt8} {κ π : Type} [DecidableEq κ] [DecidableEq π]
  {sha : Sha1} {hmac : Hmac} {s₀ s s' : Estate collate κ π} {es : List (EstateEvent κ π)}
  {ev : EstateEvent κ π} {i : ℕ} {row row₀ : AccountRow} {j : π} {autoCommit : List Bool}

/-! ### Logons, and names that were asked for -/

/-- A logon proof was accepted in the run, under a name and with a session key: both as they
go to the database. -/
def LogonPassed (sha : Sha1) (hmac : Hmac) (s₀ : Estate collate κ π) (es : List (EstateEvent κ π))
    (login key : List UInt8) : Prop :=
  ∃ i s k e s' c raw, Estate.StepAt sha hmac s₀ es i s (.realmd k e) s' ∧ s.realmd k = some c ∧
    e.action = .input raw ∧ PassesLogonProof sha c e ∧ login = cStr c.login ∧
    key = cStr (sessionkeyText (c.sessionKey sha e.env raw.publicA))

/-- A socket of the proxy has asked for the account of a name. -/
def AskedFor (sha : Sha1) (hmac : Hmac) (s₀ : Estate collate κ π) (es : List (EstateEvent κ π))
    (j : π) (login : List UInt8) : Prop :=
  ∃ i s g s' d' pkt, Estate.StepAt sha hmac s₀ es i s (.proxyd j (.event g)) s' ∧
    g.action = .input pkt ∧ pkt.opcode = Proxyd.ClientOpcode.cmsgAuthSession.code ∧
    s'.proxyd j = some d' ∧ login = cStr d'.conn.login

/-- Where what is in the column `sessionkey` of an account can come from: it is what was there,
or a logon under the name of the account has left it. -/
inductive KeyFrom (sha : Sha1) (hmac : Hmac) (s₀ : Estate collate κ π)
    (es : List (EstateEvent κ π)) (row₀ : AccountRow) : Option (List UInt8) → Prop
  | start : KeyFrom sha hmac s₀ es row₀ row₀.sessionkey
  | logon {login key : List UInt8} (hpassed : LogonPassed sha hmac s₀ es login key)
      (hname : row₀.named collate login = true) : KeyFrom sha hmac s₀ es row₀ (some key)

/-- The row is one of the accounts there were, and its session key comes from where it can. -/
def KeyedRow (sha : Sha1) (hmac : Hmac) (s₀ : Estate collate κ π) (es : List (EstateEvent κ π))
    (row : AccountRow) : Prop :=
  ∃ row₀ ∈ s₀.tables.account, row₀.Same row ∧ KeyFrom sha hmac s₀ es row₀ row.sessionkey

/-- A request of `update_account` has the key of a logon. -/
def KeyedRequest (sha : Sha1) (hmac : Hmac) (s₀ : Estate collate κ π)
    (es : List (EstateEvent κ π)) (op : RealmdRequest) : Prop :=
  op.statement = .updateAccount → ∃ c K, op = keyRequest c K ∧
    LogonPassed sha hmac s₀ es (cStr c.login) (cStr (sessionkeyText K))

/-- An answer for the proxy has rows of a name that was asked for. -/
def KeyedAnswer (sha : Sha1) (hmac : Hmac) (s₀ : Estate collate κ π) (es : List (EstateEvent κ π))
    (j : π) (res : ResultSet) : Prop :=
  ∃ (login : List UInt8) (rows : List AccountRow), AskedFor sha hmac s₀ es j login ∧
    res = answer 7 (rows.map AccountRow.acctColumns) ∧
    ∀ row ∈ rows, row.named collate login = true ∧ KeyedRow sha hmac s₀ es row

/-! ### The parts -/

/-- `getAcctObsv` waits for the answer of `get_account`. -/
theorem getAcct_of_observer? {op : ProxydRequest}
    (h : op.statement.observer? = some .getAcctObsv) : op.statement = .getAcct := by
  cases hst : op.statement with
  | getAcct => rfl
  | getChar | getPlrGuidFromName | getCharCount | getNumchar | incrNumchar | insChar =>
    rw [hst] at h
    cases h

/-- What holds of every part, as to session keys. -/
def keyedParts (sha : Sha1) (hmac : Hmac) (s₀ : Estate collate κ π) (es : List (EstateEvent κ π)) :
    Parts κ π where
  row := KeyedRow sha hmac s₀ es
  conn _ c := Realmd.Inv sha c
  request _ _ op := KeyedRequest sha hmac s₀ es op
  reply _ _ _ _ := True
  ask j op := op.statement = .getAcct →
    ∃ login, op = acctRequest login ∧ AskedFor sha hmac s₀ es j (cStr login)
  told j obs res := obs = .getAcctObsv → KeyedAnswer sha hmac s₀ es j res

/-- **A request for a new session key is one of a logon.** -/
theorem keyedRequest_of_reacts {k : κ} {c c' : Realmd.Conn} {e : Realmd.Event}
    (hat : Estate.StepAt sha hmac s₀ es i s ev s') (hr : s.ReactsRealmd sha ev k c e c' s')
    (hi : Realmd.Inv sha c) {op : RealmdRequest}
    (hop : op ∈ c'.requests.drop c.requests.length) : KeyedRequest sha hmac s₀ es op := by
  obtain ⟨new, hnew, hall⟩ := Realmd.requested_of_step hi hr.step
  rw [hnew, List.drop_left] at hop
  intro hst
  cases hall op hop with
  | updateAccount raw hact hpass =>
    obtain rfl := hr.input raw hact
    exact ⟨c, _, rfl, i, s, k, e, s', c, raw, hat, hr.conn, hact, hpass, rfl, rfl⟩
  | banFailedLogins hfails =>
    rcases Realmd.isBan_banRequest e.env c with hban | hban
    · cases hban.symm.trans hst
    · cases hban.symm.trans hst
  | checkIpBan | getAccount | getSessionkey | getCharAmount | fixSV | setSV
  | incrementFailedLogins => cases hst

/-- **Executing a request keeps where the keys come from.** -/
theorem keyedRow_execute {op : RealmdRequest} {t : Tables collate} {now : ℤ}
    (hop : KeyedRequest sha hmac s₀ es op) (ht : ∀ row ∈ t.account, KeyedRow sha hmac s₀ es row)
    (hrow : row ∈ (t.execute now op).account) : KeyedRow sha hmac s₀ es row := by
  obtain ⟨row₁, hrow₁, hsame, hkey⟩ := sessionkey_execute hrow
  obtain ⟨row₀, hrow₀, hsame₀, hfrom⟩ := ht row₁ hrow₁
  refine ⟨row₀, hrow₀, hsame₀.trans hsame, ?_⟩
  rcases hkey with hkey | ⟨key, ⟨hst, i, j, l, x, ip, login, hparams, hname⟩, hkey⟩
  · rw [hkey]
    exact hfrom
  · obtain ⟨c, K, rfl, hpassed⟩ := hop hst
    rw [keyRequest] at hparams
    cases hparams
    rw [hkey]
    exact .logon hpassed ((hsame₀.named_eq _).symm.trans hname)

theorem keyedParts_kept (sha : Sha1) (hmac : Hmac) (now : ℤ) (tables : Tables collate)
    (autoCommit : List Bool) (es : List (EstateEvent κ π)) :
    (keyedParts sha hmac (Estate.init now tables autoCommit) es).Kept sha hmac
      (Estate.init now tables autoCommit) es where
  init row hrow := ⟨row, hrow, .refl row, .start⟩
  opened _ f := Realmd.inv_init f
  react hat hr hi _ :=
    ⟨hi.of_step hr.step, fun _ h => h, fun _ _ h => h,
      fun _ hop => keyedRequest_of_reacts hat hr hi hop⟩
  execute _ _ hop ht _ hrow := keyedRow_execute hop ht hrow
  select _ _ _ _ _ := trivial
  query hat hr op hop hst := by
    obtain ⟨g, pkt, rfl, hact, hcode, rfl⟩ := Proxyd.getAcct_of_step hr.step hop hst
    obtain rfl := hr.input g pkt rfl hact
    exact ⟨_, rfl, _, _, _, _, _, pkt, hat, hact, hcode,
      by rw [hr.proxyd, Function.update_self], rfl⟩
  selectProxyd {j op obs} other t hop hobs ht hacct := by
    subst hacct
    obtain ⟨login, rfl, hasked⟩ := hop (getAcct_of_observer? hobs)
    refine ⟨cStr login, t.accountsNamed (cStr login), hasked, rfl, fun row hrow => ?_⟩
    obtain ⟨hmem, hname⟩ := List.mem_filter.mp hrow
    exact ⟨hname, ht row hmem⟩

/-- **Where the session keys come from**, in every state of a run. -/
theorem keyed_of_run {now : ℤ} {tables : Tables collate}
    (hrun : Runs.run (Estate.step sha hmac) (Estate.init now tables autoCommit) (es.take i) =
      some s) :
    (keyedParts sha hmac (Estate.init now tables autoCommit) es).Hold s :=
  Parts.hold_of_run (keyedParts_kept sha hmac now tables autoCommit es) hrun

/-! ### The account a client is accepted for -/

/-- What the proxy has of an account comes from its row, from what the client has asked, and
from a logon. -/
structure SessionFrom (sha : Sha1) (hmac : Hmac) (s₀ : Estate collate κ π)
    (es : List (EstateEvent κ π)) (j : π) (acct : Proxyd.Account) (row₀ : AccountRow) : Prop where
  id : acct.id = row₀.id
  shaPassHash : acct.shaPassHash = row₀.shaPassHash
  asked : ∃ login, AskedFor sha hmac s₀ es j login ∧ row₀.named collate login = true
  key : ∃ text, KeyFrom sha hmac s₀ es row₀ text ∧ acct.sessionkey = readText text

theorem brings_of_keyedAnswer {res : ResultSet} {e : Proxyd.Event} {acct : Proxyd.Account}
    (h : KeyedAnswer sha hmac s₀ es j res) (hact : e.action = .answer .getAcctObsv res)
    (hbrings : e.Brings acct) :
    ∃ row₀ ∈ s₀.tables.account, SessionFrom sha hmac s₀ es j acct row₀ := by
  obtain ⟨login, rows, hasked, rfl, hrows⟩ := h
  obtain ⟨res, hact', hcount, hread⟩ := hbrings
  obtain ⟨-, rfl⟩ := Proxyd.Action.answer.inj (hact.symm.trans hact')
  cases rows with
  | nil => exact absurd rfl hcount
  | cons row rows =>
    obtain ⟨hname, row₀, hrow₀, hsame, hfrom⟩ := hrows row List.mem_cons_self
    obtain rfl := Option.some.inj ((readAccount_acctColumns row _).symm.trans hread)
    refine ⟨row₀, hrow₀, hsame.id, hsame.shaPassHash, ⟨login, hasked, ?_⟩, row.sessionkey, hfrom,
      rfl⟩
    exact (hsame.named_eq login).symm.trans hname

/-- **The session of a client that the proxy accepts.** Whenever a connection of the proxy accepts
a digest, it is for one of the accounts, whose name the connection has asked for; and the
session key is the one that was in the row at the start, or that of a logon proof which a
connection of the realm daemon has accepted before, under the name of the account. -/
theorem accepted_session {now : ℤ} {tables : Tables collate}
    (hat : Estate.StepAt sha hmac (Estate.init now tables autoCommit) es i s ev s')
    {d d' : Proxyd.ProxySocket} {e : Proxyd.Event} {acct : Proxyd.Account}
    (hr : s.ReactsProxyd sha hmac ev j d (.event e) d' s')
    (hacc : AcceptsDigest sha d.conn e acct) :
    ∃ row₀ ∈ tables.account,
      SessionFrom sha hmac (Estate.init now tables autoCommit) (es.take i) j acct row₀ := by
  obtain ⟨res, hact, -⟩ := id hacc.1
  have hrun : Runs.run (Estate.step sha hmac) (Estate.init now tables autoCommit)
      ((es.take i).take i) = some s := by
    rw [List.take_take, min_self]
    exact hat.1
  have hkeyed := keyed_of_run hrun
  exact brings_of_keyedAnswer (hkeyed.told j _ res (hr.answer e _ res rfl hact) rfl) hact hacc.1

/-! ### A client that is accepted -/

namespace Sample

/-- Its client comes to the proxy. -/
def events : List (EstateEvent Unit Unit) :=
  [.openProxyd () Proxyd.Sample.start,
    .proxyd () (.event ⟨Proxyd.Sample.env, .input Proxyd.Sample.authSession⟩),
    .executeProxyd 0 0 (answer 1 []) true, .answerProxyd 0 Proxyd.Sample.env]

/-- Whether the connection of the proxy has a key. -/
def hasKey (s : Estate id Unit Unit) : Bool :=
  (s.proxyd ()).any fun d => d.conn.crypto.isInitialised

/-- The last of the events gives it one. -/
theorem exists_accepted : ∃ s s' d d' e acct,
    Estate.StepAt Proxyd.Sample.zeroSha Proxyd.Sample.zeroHmac (Estate.init 0 tables [false])
      events 3 s (.answerProxyd 0 Proxyd.Sample.env) s' ∧
    s.ReactsProxyd Proxyd.Sample.zeroSha Proxyd.Sample.zeroHmac (.answerProxyd 0 Proxyd.Sample.env)
      () d (.event e) d' s' ∧ AcceptsDigest Proxyd.Sample.zeroSha d.conn e acct := by
  have hsome : (Runs.run (Estate.step Proxyd.Sample.zeroSha Proxyd.Sample.zeroHmac)
      (Estate.init 0 tables [false]) (events.take 4)).isSome := by
    decide +kernel
  have hbefore : ∀ s ∈ Runs.run (Estate.step Proxyd.Sample.zeroSha Proxyd.Sample.zeroHmac)
      (Estate.init 0 tables [false]) (events.take 3), hasKey s = false := by
    decide +kernel
  have hafter : ∀ s ∈ Runs.run (Estate.step Proxyd.Sample.zeroSha Proxyd.Sample.zeroHmac)
      (Estate.init 0 tables [false]) (events.take 4), hasKey s = true := by
    decide +kernel
  obtain ⟨s, s', hat⟩ := Runs.exists_stepAt_of_isSome hsome rfl
  obtain ⟨⟨⟩, obs, res, d, d', hr⟩ := reactsProxyd_of_answer hat.2.2
  have hd : d.conn.crypto.isInitialised = false := by
    have h := hbefore s hat.1
    rwa [hasKey, hr.conn] at h
  have hd' : d'.conn.crypto.isInitialised = true := by
    have h := hafter s' hat.run_succ
    rwa [hasKey, hr.proxyd, Function.update_self] at h
  rcases (Proxyd.ProxySocket.trans_of_step hr.step).key with
    ⟨acct, ⟨e, he, hacc⟩, -⟩ | ⟨-, hsame, -⟩
  · obtain rfl := Proxyd.SocketEvent.event.inj he
    exact ⟨s, s', d, d', _, acct, hat, hr, hacc⟩
  · rw [hd, hd'] at hsame
    cases hsame

end Sample

/-- The session of the client is that of the account. -/
theorem accepted_session_sample : ∃ acct, ∃ row₀ ∈ Sample.tables.account,
    SessionFrom Proxyd.Sample.zeroSha Proxyd.Sample.zeroHmac
      (Estate.init 0 Sample.tables [false]) (Sample.events.take 3) () acct row₀ := by
  obtain ⟨s, s', d, d', e, acct, hat, hr, hacc⟩ := Sample.exists_accepted
  exact ⟨acct, accepted_session hat hr hacc⟩

end Realmdb

end Morfeusz
