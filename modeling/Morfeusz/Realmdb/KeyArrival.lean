import Morfeusz.Handover
import Morfeusz.Realmdb.Sessions

/-!
# How a session key gets to the proxy

When a logon proof was accepted, the realm daemon has the session key written into the row of the
account, and when the client comes to the proxy, that has the row read. In between lie queues,
workers and any number of other connections. This file follows the key from the one to the
other: it stays in the row until another logon of the account is stored
(`Morfeusz.Realmdb.hasKey_of_run`), so the answer to the query brings it, and the proxy takes
the client for the one it is if its digest is over the forty bytes that the client and the realm
daemon have agreed on (`Morfeusz.Realmdb.logon_key_arrives`).

That is so if the worker of the proxy does not read an older snapshot. Where it has one from
before the logon, and ends no transaction, the answer brings what the row had then
(`Morfeusz.Realmdb.answers_of_snapshot`).
-/

namespace Morfeusz.Realmdb

open Realmd (RealmdRequest sessionkeyText keyRequest)
open Proxyd (ProxydRequest AcceptsDigest acctRequest)

variable {collate : List UInt8 → List UInt8} {κ π : Type} [DecidableEq κ] [DecidableEq π]
  {sha : Sha1} {hmac : Hmac} {s s' t t' : Estate collate κ π} {es : List (EstateEvent κ π)}
  {ev : EstateEvent κ π} {tables : Tables collate} {row : AccountRow} {text : List UInt8}

/-! ### The key in the row -/

/-- The account of a row has a session key. -/
def Tables.HasKey (tables : Tables collate) (row : AccountRow) (text : List UInt8) : Prop :=
  ∃ row' ∈ tables.account, row.Same row' ∧ row'.sessionkey = some text

/-- A worker executes a request that writes the session key of the account. -/
def Estate.RewritesKey (s : Estate collate κ π) (ev : EstateEvent κ π) (row : AccountRow) : Prop :=
  ∃ op key, s.ExecutesRealmd ev op ∧ WritesKey collate op row key

theorem AccountRow.Same.writesKey {row' : AccountRow} {op : RealmdRequest} {key : List UInt8}
    (h : row.Same row') (hwrites : WritesKey collate op row' key) :
    WritesKey collate op row key := by
  obtain ⟨hst, i, j, l, x, ip, login, hparams, hname⟩ := hwrites
  exact ⟨hst, i, j, l, x, ip, login, hparams, (h.named_eq login).symm.trans hname⟩

/-- **`update_account` writes the key.** -/
theorem hasKey_execute {now : ℤ} {c : Realmd.Conn} {K : List UInt8} (hrow : row ∈ tables.account)
    (hname : row.named collate (cStr c.login) = true) :
    (tables.execute now (keyRequest c K)).HasKey row (cStr (sessionkeyText K)) := by
  have hmem : (Assignment.logon (cStr (sessionkeyText K)) (cStr c.ip)).set row ∈
      (tables.execute now (keyRequest c K)).account := by
    have hrows : (tables.execute now (keyRequest c K)).account = tables.account.map fun row =>
        if row.named collate (cStr c.login) then
          (Assignment.logon (cStr (sessionkeyText K)) (cStr c.ip)).set row else row := rfl
    have hmap := List.mem_map_of_mem (f := fun row : AccountRow =>
      if row.named collate (cStr c.login) then
        (Assignment.logon (cStr (sessionkeyText K)) (cStr c.ip)).set row else row) hrow
    rw [if_pos hname] at hmap
    rw [hrows]
    exact hmap
  exact ⟨_, hmem, ⟨rfl, rfl, rfl⟩, rfl⟩

/-- **No other request changes it.** -/
theorem Tables.HasKey.of_step (h : s.tables.HasKey row text)
    (hstep : s.step sha hmac ev = some s') (hno : ¬s.RewritesKey ev row) :
    s'.tables.HasKey row text := by
  rcases tables_of_step hstep with heq | ⟨_ | _, -, heq⟩ | ⟨op, hexec, heq⟩
  · rwa [heq]
  · rw [heq]
    exact h
  · rw [heq]
    exact h
  · obtain ⟨row₁, hrow₁, hsame₁, hkey⟩ := h
    obtain ⟨row₂, hrow₂, hsame₂, hset⟩ := exists_mem_execute hrow₁
    rw [heq]
    refine ⟨row₂, hrow₂, hsame₁.trans hsame₂, ?_⟩
    rcases hset with rfl | ⟨which, a, ha, hwhich, rfl⟩
    · exact hkey
    · rcases sessionkey_set ha hwhich with hsame | ⟨key, hwrites, -⟩
      · rw [hsame, hkey]
      · exact absurd ⟨op, key, hexec, hsame₁.writesKey hwrites⟩ hno

/-- **It stays until another is written.** -/
theorem hasKey_of_run (h : s.tables.HasKey row text)
    (hrun : Runs.run (Estate.step sha hmac) s es = some t)
    (hno : ∀ i u ev u', Estate.StepAt sha hmac s es i u ev u' → ¬u.RewritesKey ev row) :
    t.tables.HasKey row text := by
  refine Runs.run_take_induction (P := fun s => s.tables.HasKey row text) h
    (fun i u ev u' hat hu => hu.of_step hat.2.2 (hno i u ev u' hat)) es.length t ?_
  rw [List.take_length]
  exact hrun

/-! ### What a worker of the proxy sees of it -/

/-- The key is in the tables, and in the snapshot of a worker that has one. -/
def Estate.ShowsKey (s : Estate collate κ π) (w : ℕ) (row : AccountRow) (text : List UInt8) :
    Prop :=
  s.tables.HasKey row text ∧
    ∀ worker, s.workers[w]? = some worker → worker.Sees (·.HasKey row text)

theorem Estate.ShowsKey.of_step {w : ℕ} (h : s.ShowsKey w row text)
    (hstep : s.step sha hmac ev = some s') (hno : ¬s.RewritesKey ev row) :
    s'.ShowsKey w row text :=
  ⟨h.1.of_step hstep hno, sees_of_step hstep h.2 h.1⟩

/-- **A worker sees the key** if it has no snapshot from before it was written, or has ended a
transaction since. -/
theorem showsKey_of_run {w : ℕ} (h : s.tables.HasKey row text)
    (hrun : Runs.run (Estate.step sha hmac) s es = some t)
    (hno : ∀ i u ev u', Estate.StepAt sha hmac s es i u ev u' → ¬u.RewritesKey ev row)
    (hfresh : (∀ worker, s.workers[w]? = some worker → worker.view = none) ∨
      ∃ i u ev u', Estate.StepAt sha hmac s es i u ev u' ∧ u.Transacts ev w) :
    t.ShowsKey w row text := by
  have hstep : ∀ i u ev u', Estate.StepAt sha hmac s es i u ev u' →
      u.ShowsKey w row text → u'.ShowsKey w row text :=
    fun i u ev u' hat hu => hu.of_step hat.2.2 (hno i u ev u' hat)
  rcases hfresh with hnone | ⟨i, u, ev, u', hat, htransacts⟩
  · have hstart : s.ShowsKey w row text :=
      ⟨h, fun worker hworker => WorkerSession.sees_of_view (hnone worker hworker)⟩
    refine Runs.run_take_induction (P := fun s => s.ShowsKey w row text) hstart hstep es.length t ?_
    rwa [List.take_length]
  · have hu : u.tables.HasKey row text :=
      hasKey_of_run h hat.1 fun j v ev' v' hat' => hno j v ev' v' hat'.of_take
    have hu' : u'.ShowsKey w row text :=
      ⟨hu.of_step hat.2.2 (hno i u ev u' hat), sees_of_transacts hat.2.2 htransacts⟩
    refine hat.later_induction (P := fun s => s.ShowsKey w row text) hu' hstep es.length ?_
    rwa [List.take_of_length_le (by omega)]

/-- **Else it goes on to see its snapshot**, and answers what was there when that was opened. -/
theorem answers_of_snapshot {w m : ℕ} {j : π} {op : ProxydRequest} {obs : Proxyd.Observer}
    {other : ResultSet} {ended : Bool} {worker : WorkerSession (Tables collate)}
    (hworker : s.workers[w]? = some worker) (hreads : worker.Reads tables)
    (hrun : Runs.run (Estate.step sha hmac) s es = some t)
    (hno : ∀ i u ev u', Estate.StepAt sha hmac s es i u ev u' → ¬u.Transacts ev w)
    (hquery : t.tasks[m]? = some (.proxyd j (.request op)))
    (hop : op.statement.observer? = some obs)
    (hask : t.step sha hmac (.executeProxyd w m other ended) = some t') :
    t'.answers = t.answers ++ [.proxyd j obs (tables.selectProxyd other op)] := by
  have hkept := Runs.run_take_induction (P := fun s : Estate collate κ π =>
      ∃ worker, s.workers[w]? = some worker ∧ worker.Reads tables) ⟨worker, hworker, hreads⟩
    (fun i u ev u' hat hu => reads_of_step hat.2.2 hu (hno i u ev u' hat)) es.length t
    (by rwa [List.take_length])
  obtain ⟨worker', hworker', hreads'⟩ := hkept
  rw [answers_of_query hworker' hquery hop hask, hreads'.visible]

/-! ### The key in the answer -/

/-- The query of the account brings it. -/
theorem exists_select_of_hasKey {login : List UInt8} (other : ResultSet)
    (h : tables.HasKey row text) (hname : row.named collate (cStr login) = true) :
    ∃ row' ∈ tables.account, row.Same row' ∧ row'.sessionkey = some text ∧
      tables.selectProxyd other (acctRequest login) = answer 7 [row'.acctColumns] := by
  obtain ⟨row', hrow', hsame, hkey⟩ := h
  have hselect : tables.selectProxyd other (acctRequest login) =
      answer 7 ((tables.accountsNamed (cStr login)).map AccountRow.acctColumns) := rfl
  refine ⟨row', hrow', hsame, hkey, ?_⟩
  rw [hselect, Tables.accountsNamed_eq hrow' ((hsame.named_eq _).trans hname)]
  rfl

/-- **What the proxy makes of the key.** -/
theorem accepts_iff_of_sessionkey {K : Bytes 40} {d d' : Proxyd.Conn} {env : Proxyd.Env}
    (hkey : row.sessionkey = some (cStr (sessionkeyText K.val)))
    (hlast : K.val.getLast? ≠ some 0)
    (hstep : Proxyd.step sha hmac d ⟨env, .answer .getAcctObsv (answer 7 [row.acctColumns])⟩ =
      some d') :
    (AcceptsDigest sha d ⟨env, .answer .getAcctObsv (answer 7 [row.acctColumns])⟩
        row.proxydAccount ↔
      ({ d with acct := row.proxydAccount } : Proxyd.Conn).verifierText sha =
          cStr row.proxydAccount.v ∧
        d.clientDigest = some (sha (d.login ++ ByteBuffer.uint32 0 ++
          ByteBuffer.uint32 d.clientSeed ++ ByteBuffer.uint32 d.seed ++ K.val))) ∧
      (AcceptsDigest sha d ⟨env, .answer .getAcctObsv (answer 7 [row.acctColumns])⟩
          row.proxydAccount →
        d'.crypto.key = hmac Proxyd.tbcEncryptionKey K.val) := by
  have hbrings : Proxyd.Event.Brings ⟨env, .answer .getAcctObsv (answer 7 [row.acctColumns])⟩
      row.proxydAccount := ⟨_, rfl, Nat.one_ne_zero, readAccount_acctColumns row []⟩
  have hsessionkey : row.proxydAccount.sessionkey = cStr (sessionkeyText K.val) := by
    rw [AccountRow.proxydAccount, hkey]
    rfl
  obtain ⟨hdigest, hheader⟩ := (Handover.handsOver_iff K env.heapKey).2 hlast sha hmac env
    { d with acct := row.proxydAccount } rfl hsessionkey
  constructor
  · rw [AcceptsDigest, and_iff_right hbrings, Proxyd.Conn.Authentic, hdigest]
  · intro hacc
    rw [Proxyd.crypto_of_accepts hstep hacc]
    exact hheader

/-- **The key of a logon arrives.** A worker has executed the request that stores the session key
`K` of a logon, and whatever happens then, no other logon of the account is stored until worker
`w` of the proxy executes the query for the account that a socket has made, under whatever
spelling of the name. That worker has no snapshot from before, or has ended a transaction
since. Then the answer brings the account, and to any connection that takes it, now or later: it
accepts the client if and only if the verifier of the row is right and the digest is over the
name, both seeds and `K`; and then the headers are encrypted with the key of `K`. -/
theorem logon_key_arrives {n m w : ℕ} {k : κ} {j : π} {other other' : ResultSet} {ended : Bool}
    {c : Realmd.Conn} {K : Bytes 40} {login : List UInt8}
    (htask : s.tasks[n]? = some (.realmd k (keyRequest c K.val)))
    (hlogon : s.step sha hmac (.execute n other) = some s') (hrow : row ∈ s.tables.account)
    (hname : row.named collate (cStr c.login) = true)
    (hrun : Runs.run (Estate.step sha hmac) s' es = some t)
    (hno : ∀ i u ev u', Estate.StepAt sha hmac s' es i u ev u' → ¬u.RewritesKey ev row)
    (hfresh : (∀ worker, s'.workers[w]? = some worker → worker.view = none) ∨
      ∃ i u ev u', Estate.StepAt sha hmac s' es i u ev u' ∧ u.Transacts ev w)
    (hquery : t.tasks[m]? = some (.proxyd j (.request (acctRequest login))))
    (hask : t.step sha hmac (.executeProxyd w m other' ended) = some t')
    (hname' : row.named collate (cStr login) = true) (hlast : K.val.getLast? ≠ some 0) :
    ∃ res acct, t'.answers = t.answers ++ [.proxyd j .getAcctObsv res] ∧ acct.id = row.id ∧
      ∀ d env d', Proxyd.step sha hmac d ⟨env, .answer .getAcctObsv res⟩ = some d' →
        (AcceptsDigest sha d ⟨env, .answer .getAcctObsv res⟩ acct ↔
          ({ d with acct } : Proxyd.Conn).verifierText sha = cStr acct.v ∧
            d.clientDigest = some (sha (d.login ++ ByteBuffer.uint32 0 ++
              ByteBuffer.uint32 d.clientSeed ++ ByteBuffer.uint32 d.seed ++ K.val))) ∧
        (AcceptsDigest sha d ⟨env, .answer .getAcctObsv res⟩ acct →
          d'.crypto.key = hmac Proxyd.tbcEncryptionKey K.val) := by
  have hkeyed : s'.tables.HasKey row (cStr (sessionkeyText K.val)) := by
    rw [tables_of_execute htask rfl hlogon]
    exact hasKey_execute hrow hname
  obtain ⟨worker, hworker⟩ := worker_of_executeProxyd hask
  have hshown := showsKey_of_run hkeyed hrun hno hfresh
  obtain ⟨row', -, hsame, hkey, hselect⟩ :=
    exists_select_of_hasKey other' ((hshown.2 worker hworker).visible hshown.1) hname'
  refine ⟨_, row'.proxydAccount, answers_of_query hworker hquery rfl hask, hsame.id, ?_⟩
  rw [hselect]
  exact fun d env d' hstep => accepts_iff_of_sessionkey hkey hlast hstep

namespace Sample

/-- A session key. -/
def sessionKey : Bytes 40 := ⟨List.replicate 40 1, rfl⟩

/-- The request of a logon of the sample account. -/
def logonRequest : RealmdRequest :=
  keyRequest { Realmd.Conn.init Realmd.Sample.start with login := [65] } sessionKey.val

/-- The key is to be stored, and then the account is asked for. -/
def arriving : Estate id Unit Unit :=
  waiting 0 Sample.tables [.realmd () logonRequest, .proxyd () (.request (acctRequest [65]))]

/-- It is stored. -/
def arrived : Estate id Unit Unit :=
  waiting 0 (Sample.tables.execute 0 logonRequest) [.proxyd () (.request (acctRequest [65]))]

end Sample

/-- The sample account comes with its key, for a connection that has the digest of it. -/
theorem logon_key_arrives_sample : ∃ (t' : Estate id Unit Unit) (res : ResultSet)
    (acct : Proxyd.Account), t'.answers = [.proxyd () .getAcctObsv res] ∧ acct.id = 7 ∧
      ∀ d env d', Proxyd.step Proxyd.Sample.zeroSha Proxyd.Sample.zeroHmac d
          ⟨env, .answer .getAcctObsv res⟩ = some d' →
        ({ d with acct } : Proxyd.Conn).verifierText Proxyd.Sample.zeroSha = cStr acct.v →
          d.clientDigest = some (Bytes.zero 20) →
            AcceptsDigest Proxyd.Sample.zeroSha d ⟨env, .answer .getAcctObsv res⟩ acct := by
  have hlogon : Sample.arriving.step Proxyd.Sample.zeroSha Proxyd.Sample.zeroHmac
      (.execute 0 (answer 0 [])) = some Sample.arrived := rfl
  have hask : Sample.arrived.step Proxyd.Sample.zeroSha Proxyd.Sample.zeroHmac
      (.executeProxyd 0 0 (answer 0 []) true) = some _ := rfl
  have hrun : Runs.run (Estate.step Proxyd.Sample.zeroSha Proxyd.Sample.zeroHmac) Sample.arrived
      [] = some Sample.arrived := rfl
  have hrow : Sample.accountRow ∈ Sample.arriving.tables.account := List.mem_cons_self
  have hname : Sample.accountRow.named id (cStr [65]) = true := by decide
  have hview : ∀ worker, Sample.arrived.workers[0]? = some worker → worker.view = none := by
    rintro _ ⟨⟩
    rfl
  obtain ⟨res, acct, hanswers, hid, hall⟩ := logon_key_arrives rfl hlogon hrow hname hrun
    (fun i u ev u' hat => nomatch hat.2.1) (Or.inl hview) rfl hask hname (by decide)
  exact ⟨_, res, acct, hanswers, hid, fun d env d' hstep hverifier hdigest =>
    (hall d env d' hstep).1.mpr ⟨hverifier, hdigest⟩⟩

end Morfeusz.Realmdb
