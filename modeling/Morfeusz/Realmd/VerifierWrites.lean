import Morfeusz.Lib.PriorityQueue
import Morfeusz.Realmd.Reconnect
import Morfeusz.Realmd.Verifiers

/-!
# The order in which a verifier is written

The two requests of `set_vs` go into the activation queue of the database: the one that
empties the row of the account with a high priority, the one that stores the new values with
the default one. The queue hands them out in that order. What the workers that take them out
do then is another matter: each executes what it has on a connection of its own, and nothing
makes the second wait for the first.

With one worker the last of the requests that are outstanding is always the last that was
queued, whatever order the others are in (`Morfeusz.Realmd.Daemon.Ordered`). With two, the row
may be emptied last. And SQLite executes neither request: its `execute` does not step the
statement.
-/

namespace Morfeusz

/-- The number of a priority. -/
def DatabaseTaskPriority.toNat : DatabaseTaskPriority → ℕ
  | low => 0
  | medium => 1
  | high => 2

namespace Realmd

/-! ### The account table -/

/-- The row of an account, with the columns of its verifier. -/
structure AccountRow where
  username : List UInt8
  s : List UInt8
  v : List UInt8

/-- The database server: its engine, and the comparison of names that the collation of the
column makes. -/
structure AccountServer where
  engine : Engine
  sameName : List UInt8 → List UInt8 → Bool
  sameName_refl : ∀ name, sameName name name = true

namespace AccountServer

variable (db : AccountServer)

/-- `UPDATE account SET … WHERE username = ?`. -/
def update (login : List UInt8) (set : AccountRow → AccountRow) (accounts : List AccountRow) :
    List AccountRow :=
  accounts.map fun row => if db.sameName row.username login then set row else row

/-- `execute` of a request without a result. -/
def execute (accounts : List AccountRow) (op : RealmdRequest) : List AccountRow :=
  match db.engine, op.statement, op.params with
  -- the statement is not stepped
  | .sqlite, _, _ => accounts
  | .mysql, .fixSV, [(_, .string login)] =>
    db.update login (fun row => { row with s := [], v := [] }) accounts
  | .mysql, .setSV, [(_, .string v), (_, .string s), (_, .string login)] =>
    db.update login (fun row => { row with s, v }) accounts
  | .mysql, _, _ => accounts

end AccountServer

/-! ### The system -/

/-- The number of connections, and of workers, of a `DatabaseHolder`. -/
def databaseConnections (num : ℤ) : ℕ := if num < 1 ∨ num > 32 then 1 else num.toNat

/-- The observer of a statement that has a result. -/
def RealmdDatabaseStatements.observer? : RealmdDatabaseStatements → Option Observer
  | checkIpBan => some .checkIpBanObsv
  | checkAcctBan => some .checkAcctObsv
  | getSessionkey => some .getSessionKeyObsv
  | getNumchar => some .getCharAmntObsv
  | _ => none

/-- A connection, and the database layer behind it. -/
structure Daemon where
  conn : Conn
  queue : List RealmdRequest
  /-- What each worker has taken out of the queue. -/
  workers : List (Option RealmdRequest)
  accounts : List AccountRow

/-- What can happen. -/
inductive DaemonEvent
  /-- A packet has arrived, the peer has hung up or is ready for output. -/
  | socket (e : Event)
  | dequeue (w : ℕ)
  /-- A worker executes what it has taken out of the queue; a query gives `res`. -/
  | execute (w : ℕ) (env : Env) (res : ResultSet)

namespace Daemon

variable (sha : Sha1) (db : AccountServer)

/-- Before anything has arrived. -/
def init (f : Start) (workers : ℕ) (accounts : List AccountRow) : Daemon :=
  { conn := .init f, queue := [], workers := List.replicate workers none, accounts }

/-- The connection takes a step, and its requests are enqueued. -/
def react (s : Daemon) (e : Event) : Option Daemon :=
  (Realmd.step sha s.conn e).map fun c =>
    { s with
      conn := c
      queue := PriorityQueue.enqueueAll (fun op => op.priority.toNat) s.queue
        (c.requests.drop s.conn.requests.length) }

/-- A worker has executed its request: a query is answered, and anything else changes the
table. -/
def call (s : Daemon) (env : Env) (res : ResultSet) (op : RealmdRequest) : Option Daemon :=
  match op.statement.observer? with
  | some obs => s.react sha ⟨env, .answer obs res⟩
  | none => some { s with accounts := db.execute s.accounts op }

/-- **One step of a connection and its database.** -/
def step (s : Daemon) : DaemonEvent → Option Daemon
  | .socket e =>
    match e.action with
    | .answer _ _ => none
    | _ => s.react sha e
  | .dequeue w =>
    match s.workers[w]?, s.queue with
    | some none, op :: queue => some { s with queue, workers := s.workers.set w (some op) }
    | _, _ => none
  | .execute w env res =>
    match s.workers[w]? with
    | some (some op) => { s with workers := s.workers.set w none }.call sha db env res op
    | _ => none

/-- The requests that have not been executed. -/
def outstanding (s : Daemon) : List RealmdRequest := s.workers.reduceOption ++ s.queue

/-- Those of them that write a verifier. -/
def writes (s : Daemon) : List RealmdRequest :=
  s.outstanding.filter fun op => op.statement.writesVerifier

/-- The last `set_sv` of a connection. -/
def lastStored (s : Daemon) : Option RealmdRequest :=
  (s.conn.requests.filter fun op => op.statement = .setSV).getLast?

/-- The row of the name holds what the last `set_sv` was called with. -/
def Held (s : Daemon) : Prop :=
  ∀ login salt v, s.lastStored = some (setRequest login salt v) →
    ∀ row ∈ s.accounts, db.sameName row.username (cStr login) = true →
      row.s = bnBn2hex salt.val ∧ row.v = bnBn2hex v.val

/-- **What should hold of a state**: once nothing is outstanding that writes a verifier, the
last one is there. -/
def HoldsLast (s : Daemon) : Prop := s.writes = [] → s.Held db

/-! ### One worker -/

variable {sha db} {s s' : Daemon} {e : Event} {op : RealmdRequest}

/-- The last request that is outstanding and writes a verifier is the last that was queued;
where there is none, its values are there. -/
structure Ordered (db : AccountServer) (s : Daemon) : Prop where
  one : ∃ hand, s.workers = [hand]
  last : s.writes = [] ∧ s.Held db ∨ s.writes ≠ [] ∧ s.writes.getLast? = s.lastStored

theorem eq_of_getElem?_singleton {α : Type} {a b : α} {w : ℕ} (h : [a][w]? = some b) :
    w = 0 ∧ a = b := by
  cases w with
  | zero => exact ⟨rfl, Option.some.inj h⟩
  | succ w => cases h

theorem getLast?_append_of_some {α : Type} {xs ys : List α} {x : α} (h : ys.getLast? = some x) :
    (xs ++ ys).getLast? = some x := by
  rw [List.getLast?_append, h, Option.some_or]

theorem getLast?_filter {α : Type} {p : α → Bool} {xs : List α} {x : α} (h : xs.getLast? = some x)
    (hx : p x = true) : (xs.filter p).getLast? = some x := by
  obtain ⟨ys, rfl⟩ := List.getLast?_eq_some_iff.mp h
  rw [List.filter_append, List.filter_cons_of_pos hx, List.filter_nil, List.getLast?_concat]

/-- What `set_vs` queues ends with a request to store. -/
theorem getLast?_repeatedRequests {n : ℕ} (c : Conn) (hn : n ≠ 0) :
    (repeatedRequests n c).getLast? = some (setRequest c.login c.s c.v) := by
  obtain ⟨m, rfl⟩ := Nat.exists_eq_succ_of_ne_zero hn
  rw [repeatedRequests, List.replicate_succ', List.flatten_append]
  exact getLast?_append_of_some rfl

/-- **A step of the connection** leaves what is outstanding, or puts the last of it behind
everything else. -/
theorem react_cases (h : s.react sha e = some s') : s'.workers = s.workers ∧
    s'.accounts = s.accounts ∧ (s'.writes = s.writes ∧ s'.lastStored = s.lastStored ∨
      ∃ op, s'.writes.getLast? = some op ∧ s'.lastStored = some op) := by
  obtain ⟨c, hc, rfl⟩ := Option.map_eq_some_iff.mp h
  refine ⟨rfl, rfl, ?_⟩
  obtain ⟨n, ⟨new, hnew, hwrites⟩, -⟩ := writes_of_step hc
  have hdrop : c.requests.drop s.conn.requests.length = new := by rw [hnew, List.drop_left]
  -- what stores is among what writes
  have hstored : new.filter (fun op => op.statement = .setSV) =
      (repeatedRequests n c).filter fun op => op.statement = .setSV := by
    rw [← hwrites, List.filter_filter]
    refine List.filter_congr fun op _ => ?_
    cases op.statement <;> rfl
  rw [writes, writes, outstanding, outstanding, lastStored, lastStored]
  dsimp only
  rw [hdrop, hnew, List.filter_append, List.filter_append, List.filter_append, hstored]
  by_cases hn : n = 0
  · subst hn
    refine Or.inl ⟨?_, by rw [repeatedRequests]; simp⟩
    rw [PriorityQueue.filter_enqueueAll_of_nil hwrites]
  · refine Or.inr ⟨setRequest c.login c.s c.v, ?_, ?_⟩
    · refine getLast?_append_of_some (PriorityQueue.getLast?_filter_enqueueAll ?_ ?_)
      · rw [hwrites]
        exact getLast?_repeatedRequests c hn
      · exact fun _ => Nat.zero_le _
    · exact getLast?_append_of_some (getLast?_filter (getLast?_repeatedRequests c hn) rfl)

theorem Ordered.react (hs : s.Ordered db) (h : s.react sha e = some s') : s'.Ordered db := by
  obtain ⟨hworkers, haccounts, hsame | ⟨op, hlast, hstored⟩⟩ := react_cases h
  · obtain ⟨hwrites, hstored⟩ := hsame
    refine ⟨hworkers ▸ hs.one, ?_⟩
    rw [hwrites, Held, hstored, haccounts]
    exact hs.last
  · refine ⟨hworkers ▸ hs.one, Or.inr ⟨?_, hlast.trans hstored.symm⟩⟩
    rintro hnil
    rw [hnil] at hlast
    cases hlast

theorem execute_of_not_writes (db : AccountServer) (accounts : List AccountRow)
    (h : op.statement.writesVerifier = false) : db.execute accounts op = accounts := by
  rw [AccountServer.execute]
  split
  · rfl
  · next hset _ => rw [hset] at h; cases h
  · next hset _ => rw [hset] at h; cases h
  · rfl

/-- An update leaves what it sets in every row of the name. -/
theorem mem_update {login : List UInt8} {set : AccountRow → AccountRow} {accounts : List AccountRow}
    {row : AccountRow} (hrow : row ∈ db.update login set accounts)
    (hname : db.sameName row.username login = true) :
    ∃ row', row = set row' := by
  obtain ⟨row', -, rfl⟩ := List.mem_map.mp hrow
  split at hname
  · next hsame =>
    rw [if_pos hsame]
    exact ⟨row', rfl⟩
  · next hother => exact absurd hname hother

/-- **A request that stores leaves its values in every row of its name.** -/
theorem execute_setRequest (hengine : db.engine = .mysql) (accounts : List AccountRow)
    (login : List UInt8) (salt : Salt) (v : Residue) :
    ∀ row ∈ db.execute accounts (setRequest login salt v),
      db.sameName row.username (cStr login) = true →
        row.s = bnBn2hex salt.val ∧ row.v = bnBn2hex v.val := by
  have hexecute : db.execute accounts (setRequest login salt v) = db.update (cStr login)
      (fun row => { row with s := cStr (bnBn2hex salt.val), v := cStr (bnBn2hex v.val) })
      accounts := by
    rw [AccountServer.execute, hengine]
    rfl
  rw [hexecute, cStr_bnBn2hex, cStr_bnBn2hex]
  intro row hrow hname
  obtain ⟨row', rfl⟩ := mem_update hrow hname
  exact ⟨rfl, rfl⟩

/-- One that empties leaves nothing there. -/
theorem execute_fixRequest (hengine : db.engine = .mysql) (accounts : List AccountRow)
    (login : List UInt8) : ∀ row ∈ db.execute accounts (fixRequest login),
      db.sameName row.username (cStr login) = true → row.s = [] := by
  have hexecute : db.execute accounts (fixRequest login) =
      db.update (cStr login) (fun row => { row with s := [], v := [] }) accounts := by
    rw [AccountServer.execute, hengine]
    rfl
  rw [hexecute]
  intro row hrow hname
  obtain ⟨row', rfl⟩ := mem_update hrow hname
  rfl

/-- No request takes a row away. -/
theorem exists_mem_execute {accounts : List AccountRow} {row : AccountRow} (h : row ∈ accounts)
    (op : RealmdRequest) : ∃ row' ∈ db.execute accounts op, row'.username = row.username := by
  have hupdate : ∀ login (set : AccountRow → AccountRow),
      (∀ row, (set row).username = row.username) →
      ∃ row' ∈ db.update login set accounts, row'.username = row.username := by
    intro login set hset
    refine ⟨_, List.mem_map_of_mem h, ?_⟩
    split
    · exact hset row
    · rfl
  rw [AccountServer.execute]
  split
  · exact ⟨row, h, rfl⟩
  · exact hupdate _ _ fun _ => rfl
  · exact hupdate _ _ fun _ => rfl
  · exact ⟨row, h, rfl⟩

/-- What the worker has in its hands is the first that is outstanding. -/
theorem writes_of_hand (hhand : s.workers = [some op]) : s.writes =
    if op.statement.writesVerifier then op :: { s with workers := [none] }.writes
    else { s with workers := [none] }.writes := by
  rw [writes, writes, outstanding, outstanding, hhand]
  exact List.filter_cons

/-- **The one worker executes what it has.** -/
theorem Ordered.call (hengine : db.engine = .mysql) (hs : s.Ordered db)
    (hhand : s.workers = [some op]) {env : Env} {res : ResultSet}
    (h : { s with workers := [none] }.call sha db env res op = some s') : s'.Ordered db := by
  have hwrites := writes_of_hand hhand
  have hlast := hs.last
  rw [Daemon.call] at h
  cases hop : op.statement.writesVerifier with
  | false =>
    rw [hop, if_neg Bool.false_ne_true] at hwrites
    rw [hwrites] at hlast
    have hs₁ : Ordered db { s with workers := [none] } := ⟨⟨none, rfl⟩, hlast⟩
    split at h
    · exact hs₁.react h
    · rw [execute_of_not_writes db _ hop] at h
      rw [← Option.some.inj h]
      exact hs₁
  | true =>
    rw [hop, if_pos rfl] at hwrites
    rw [hwrites] at hlast
    obtain ⟨-, hlast⟩ := hlast.resolve_left fun hnil => List.cons_ne_nil _ _ hnil.1
    have hno : op.statement.observer? = none := by
      cases hst : op.statement <;> rw [hst] at hop <;> first | rfl | cases hop
    rw [hno] at h
    have hs' := Option.some.inj h
    have hafter : s'.writes = { s with workers := [none] }.writes := by
      rw [← hs']
      rfl
    have hstored : s'.lastStored = s.lastStored := by
      rw [← hs']
      rfl
    refine ⟨⟨none, by rw [← hs']⟩, ?_⟩
    rw [hafter, hstored]
    generalize { s with workers := [none] }.writes = ops at hlast
    cases ops using List.reverseRecOn with
    -- the request was the last, and what it stores stays
    | nil =>
      refine Or.inl ⟨rfl, ?_⟩
      intro login salt v hlogin
      obtain rfl := Option.some.inj (hlast.trans (hstored.symm.trans hlogin))
      rw [← hs']
      exact execute_setRequest hengine s.accounts login salt v
    -- there is one behind it
    | append_singleton ops last =>
      rw [← List.cons_append, List.getLast?_concat] at hlast
      exact Or.inr ⟨List.concat_ne_nil last ops, List.getLast?_concat.trans hlast⟩

/-- **With one worker, every step keeps the order.** -/
theorem Ordered.step (hengine : db.engine = .mysql) (hs : s.Ordered db) {e : DaemonEvent}
    (h : s.step sha db e = some s') : s'.Ordered db := by
  obtain ⟨hand, hhand⟩ := hs.one
  cases e with
  | socket e =>
    rw [Daemon.step] at h
    split at h
    · cases h
    · exact hs.react h
  | dequeue w =>
    rw [Daemon.step] at h
    split at h
    · next op queue hw hqueue =>
      obtain ⟨rfl, rfl⟩ := eq_of_getElem?_singleton (hhand ▸ hw)
      -- the first of the queue is in the hands of the worker, and still the first
      have hwrites : s'.writes = s.writes := by
        rw [← Option.some.inj h, writes, writes, outstanding, outstanding, hqueue, hhand]
        rfl
      rw [← Option.some.inj h] at hwrites ⊢
      refine ⟨⟨some op, by rw [hhand]; rfl⟩, ?_⟩
      rw [hwrites]
      exact hs.last
    · cases h
  | execute w env res =>
    rw [Daemon.step] at h
    split at h
    · next op hw =>
      obtain ⟨rfl, rfl⟩ := eq_of_getElem?_singleton (hhand ▸ hw)
      have hset : s.workers.set 0 none = [none] := by rw [hhand]; rfl
      rw [hset] at h
      exact hs.call hengine hhand h
    · cases h

theorem ordered_init (f : Start) (accounts : List AccountRow) : (init f 1 accounts).Ordered db :=
  ⟨⟨none, rfl⟩, Or.inl ⟨rfl, nofun⟩⟩

/-- **One worker of MySQL leaves the last verifier there**, in every state of every run. -/
theorem holdsLast_of_one (hengine : db.engine = .mysql) {f : Start} {accounts : List AccountRow}
    {es : List DaemonEvent} (h : Runs.run (Daemon.step sha db) (init f 1 accounts) es = some s) :
    s.HoldsLast db := by
  have hs : s.Ordered db := Runs.run_invariant (fun _ _ _ hd hstep => hd.step hengine hstep)
    (ordered_init f accounts) h
  intro hnil
  exact (hs.last.resolve_right fun hne => hne.1 hnil).2

/-! ### Two workers, and SQLite -/

/-- A packet of a connection that survives it. -/
theorem step_packet {env : Env} {raw : Received} {c : Conn}
    (h : Realmd.step sha s.conn ⟨env, .input raw⟩ = some c) :
    s.step sha db (.socket ⟨env, .input raw⟩) = some { s with
      conn := c
      queue := PriorityQueue.enqueueAll (fun op => op.priority.toNat) s.queue
        (c.requests.drop s.conn.requests.length) } := by
  rw [Daemon.step]
  dsimp only
  rw [Daemon.react, h, Option.map_some]

/-- The answer of a query, likewise. -/
theorem step_query {w : ℕ} {env : Env} {res : ResultSet} {obs : Observer} {c : Conn}
    (hhand : s.workers[w]? = some (some op)) (hobs : op.statement.observer? = some obs)
    (h : Realmd.step sha s.conn ⟨env, .answer obs res⟩ = some c) :
    s.step sha db (.execute w env res) = some { s with
      conn := c
      workers := s.workers.set w none
      queue := PriorityQueue.enqueueAll (fun op => op.priority.toNat) s.queue
        (c.requests.drop s.conn.requests.length) } := by
  rw [Daemon.step, hhand]
  dsimp only
  rw [Daemon.call, hobs]
  dsimp only
  rw [Daemon.react, h, Option.map_some]

/-- The account of the sample client. -/
def sampleAccount : Account :=
  { shaPass := List.replicate 40 49, id := 7, locked := false, lastIp := Sample.ip, gmlevel := 0
    failedLogins := 0 }

/-- Its row, without a verifier. -/
def sampleRow : AccountRow := { username := [65], s := [], v := [] }

/-- The connection before the account is answered. -/
def sampleConn : Conn :=
  let c := { ({ Conn.init Sample.start with
      login := [65], clientBuild := Sample.build }).checkIpBan with
    state := .needProof }
  (c.answered .checkIpBanObsv).getAccount

/-- The challenge of the sample logon is sent, and its two requests are queued. -/
theorem exists_challenge_sampleConn (sha : Sha1) : ∃ c salt v,
    Realmd.step sha sampleConn ⟨Sample.env, .answer .checkAcctObsv Sample.account⟩ = some c ∧
      c.requests = sampleConn.requests ++ verifierRequests [65] salt v := by
  have hrows : Sample.account.rows ≠ [] := List.cons_ne_nil _ _
  have hactive : Sample.account.next.2.getUint8 5 = some 0 := by decide +kernel
  have hacct : Conn.readAccount Sample.account.next.2 = some sampleAccount := by decide +kernel
  have hfree : ¬(sampleAccount.locked = true ∧ sampleConn.ip ≠ sampleAccount.lastIp) := by decide
  have hI : bnHex2bn (cStr sampleAccount.shaPass) =
      some 0x1111111111111111111111111111111111111111 := by decide +kernel
  have hfits : Fits 0x1111111111111111111111111111111111111111 20 := by decide +kernel
  have hstep : Realmd.step sha sampleConn ⟨Sample.env, .answer .checkAcctObsv Sample.account⟩ =
      ({ sampleConn.answered .checkAcctObsv with acct := sampleAccount }).startLogon sha
        Sample.env.randB.val Sample.env.randNonce.val :=
    step_account List.mem_cons_self rfl hrows hactive hacct hfree
  obtain ⟨reqs, hsome⟩ := Conn.startLogon_eq
    (c := { sampleConn.answered .checkAcctObsv with acct := sampleAccount }) hI hfits
    Sample.env.randNonce.numBytes_val
  obtain ⟨v, hreqs⟩ := Conn.requests_of_startLogon hsome
  exact ⟨_, _, v, hstep.trans hsome, hreqs⟩

/-- A logon up to its challenge, with a worker that answers every query at once. -/
def logonSchedule : List DaemonEvent :=
  [.socket ⟨Sample.env, .input (Client.challenge .authLogonChallenge Sample.build Sample.login)⟩,
    .dequeue 0, .execute 0 Sample.env noRows, .dequeue 0, .execute 0 Sample.env Sample.account]

/-- The query of its account. -/
def accountQuery : RealmdRequest := { statement := .checkAcctBan, params := [addString 1 [65]] }

/-- The daemon of the sample, with its first worker idle. -/
def sampleDaemon (c : Conn) (queue : List RealmdRequest) (workers : List (Option RealmdRequest)) :
    Daemon :=
  { conn := c, queue, workers := none :: workers, accounts := [sampleRow] }

/-- **After the logon the two requests are what is left in the queue.** -/
theorem run_logonSchedule (sha : Sha1) (db : AccountServer)
    (workers : List (Option RealmdRequest)) : ∃ c salt v,
    Runs.run (Daemon.step sha db) (sampleDaemon (.init Sample.start) [] workers) logonSchedule =
      some (sampleDaemon c (verifierRequests [65] salt v) workers) ∧
    (c.requests.filter fun op => op.statement = .setSV).getLast? =
      some (setRequest [65] salt v) := by
  obtain ⟨c, salt, v, hc, hreqs⟩ := exists_challenge_sampleConn sha
  let c₁ : Conn := { ({ Conn.init Sample.start with
    login := [65], clientBuild := Sample.build }).checkIpBan with state := .needProof }
  have hchallenge : Realmd.step sha (.init Sample.start) ⟨Sample.env, .input
      (Client.challenge .authLogonChallenge Sample.build Sample.login)⟩ = some c₁ :=
    step_challenge rfl rfl (by decide) Sample.login
  have hip : Realmd.step sha c₁ ⟨Sample.env, .answer .checkIpBanObsv noRows⟩ = some sampleConn :=
    step_ipFree List.mem_cons_self noRows_fresh noRows_rows
  refine ⟨c, salt, v, ?_, ?_⟩
  · -- the two queries are answered one after the other
    have h₁ : Daemon.step sha db (sampleDaemon (.init Sample.start) [] workers) (.socket
        ⟨Sample.env, .input (Client.challenge .authLogonChallenge Sample.build Sample.login)⟩) =
          some (sampleDaemon c₁ c₁.requests workers) := step_packet hchallenge
    have h₂ : Daemon.step sha db { sampleDaemon c₁ [] workers with
        workers := some { statement := .checkIpBan, params := [addString 1 Sample.ip] } :: workers }
          (.execute 0 Sample.env noRows) =
          some (sampleDaemon sampleConn [accountQuery] workers) := step_query rfl rfl hip
    have h₃ : Daemon.step sha db { sampleDaemon sampleConn [] workers with
        workers := some accountQuery :: workers } (.execute 0 Sample.env Sample.account) =
          some (sampleDaemon c (verifierRequests [65] salt v) workers) := by
      have hdrop : c.requests.drop sampleConn.requests.length = verifierRequests [65] salt v := by
        rw [hreqs, List.drop_left]
      refine (step_query rfl rfl hc).trans ?_
      exact congrArg (fun ops => some (sampleDaemon c (PriorityQueue.enqueueAll
        (fun op : RealmdRequest => op.priority.toNat) [] ops) workers)) hdrop
    exact (Runs.run_cons_of_step h₁).trans ((Runs.run_cons_of_step rfl).trans
      ((Runs.run_cons_of_step h₂).trans ((Runs.run_cons_of_step rfl).trans
        (Runs.run_singleton.trans h₃))))
  · rw [hreqs]
    rfl

theorem bnBn2hex_ne_nil (n : ℕ) : bnBn2hex n ≠ [] := by
  intro hnil
  have hread := bnHex2bn_bnBn2hex n
  rw [hnil] at hread
  cases hread

/-- A row that was left empty is not what was stored. -/
theorem not_holdsLast {salt : Salt} {v : Residue} {row : AccountRow} (hwrites : s.writes = [])
    (hstored : s.lastStored = some (setRequest [65] salt v)) (hrow : row ∈ s.accounts)
    (hname : row.username = [65]) (hempty : row.s = []) : ¬s.HoldsLast db := by
  intro hholds
  have hsame : db.sameName row.username (cStr [65]) = true := by
    rw [hname]
    exact db.sameName_refl _
  exact bnBn2hex_ne_nil _ ((hholds hwrites [65] salt v hstored row hrow hsame).1.symm.trans hempty)

theorem reduceOption_replicate_none {α : Type} (n : ℕ) :
    (List.replicate n (none : Option α)).reduceOption = [] := by
  induction n with
  | zero => rfl
  | succ n ih => exact ih

/-- Where every worker is idle and the queue is empty, nothing is outstanding. -/
theorem writes_of_idle {n : ℕ} (hworkers : s.workers = List.replicate n none)
    (hqueue : s.queue = []) : s.writes = [] := by
  rw [writes, outstanding, hworkers, reduceOption_replicate_none, hqueue]
  rfl

/-- The second worker stores, and then the first empties the row. -/
def overtaking : List DaemonEvent :=
  [.dequeue 0, .dequeue 1, .execute 1 Sample.env noRows, .execute 0 Sample.env noRows]

/-- **With two workers the row may be emptied last.** -/
theorem not_holdsLast_of_two (sha : Sha1) (hengine : db.engine = .mysql) (n : ℕ) :
    ∃ es s, Runs.run (Daemon.step sha db) (init Sample.start (n + 2) [sampleRow]) es = some s ∧
      ¬s.HoldsLast db := by
  obtain ⟨c, salt, v, hrun, hstored⟩ := run_logonSchedule sha db (none :: List.replicate n none)
  obtain ⟨row, hrow, hname⟩ := @exists_mem_execute db _ _ (List.mem_singleton_self sampleRow)
    (setRequest [65] salt v)
  obtain ⟨row', hrow', hname'⟩ := @exists_mem_execute db _ _ hrow (fixRequest [65])
  have hname' : row'.username = [65] := hname'.trans hname
  have hsame : db.sameName row'.username (cStr [65]) = true := by
    rw [hname']
    exact db.sameName_refl _
  refine ⟨logonSchedule ++ overtaking, _, (Runs.run_append_of_run hrun).trans rfl, ?_⟩
  refine not_holdsLast (writes_of_idle (n := n + 2) rfl rfl) hstored hrow' hname' ?_
  exact execute_fixRequest hengine _ _ row' hrow' hsame

/-- The two requests are executed as they come. -/
def oneByOne : List DaemonEvent :=
  [.dequeue 0, .execute 0 Sample.env noRows, .dequeue 0, .execute 0 Sample.env noRows]

/-- **SQLite leaves the row as it was.** -/
theorem not_holdsLast_of_sqlite (sha : Sha1) (hengine : db.engine = .sqlite) (n : ℕ) :
    ∃ es s, Runs.run (Daemon.step sha db) (init Sample.start (n + 1) [sampleRow]) es = some s ∧
      ¬s.HoldsLast db := by
  obtain ⟨c, salt, v, hrun, hstored⟩ := run_logonSchedule sha db (List.replicate n none)
  have hsame : ∀ accounts op, db.execute accounts op = accounts := fun accounts op => by
    rw [AccountServer.execute, hengine]
  refine ⟨logonSchedule ++ oneByOne, _, (Runs.run_append_of_run hrun).trans rfl, ?_⟩
  have hrow : sampleRow ∈
      db.execute (db.execute [sampleRow] (fixRequest [65])) (setRequest [65] salt v) := by
    rw [hsame, hsame]
    exact List.mem_singleton_self _
  exact not_holdsLast (writes_of_idle (n := n + 1) rfl rfl) hstored hrow rfl rfl

end Daemon

theorem databaseConnections_pos (num : ℤ) : 0 < databaseConnections num := by
  rw [databaseConnections]
  split
  · exact Nat.one_pos
  · omega

/-- **When the last verifier is the one in the database.** For every hash function, every
connection, every account table and every run, once no request of `set_vs` is outstanding the
row of the name holds what the last `set_sv` was called with, if and only if the engine is
MySQL and there is only one worker. -/
theorem last_verifier_held_iff (db : AccountServer) (num : ℤ) :
    (∀ sha f accounts es s,
      Runs.run (Daemon.step sha db) (Daemon.init f (databaseConnections num) accounts) es = some s →
        s.HoldsLast db) ↔
      db.engine = .mysql ∧ databaseConnections num = 1 := by
  constructor
  · intro hall
    obtain ⟨n, hn⟩ := Nat.exists_eq_succ_of_ne_zero (databaseConnections_pos num).ne'
    rw [hn] at hall ⊢
    cases hengine : db.engine with
    | sqlite =>
      obtain ⟨es, s, hrun, hnot⟩ := Daemon.not_holdsLast_of_sqlite Sample.zeroSha hengine n
      exact absurd (hall _ _ _ es s hrun) hnot
    | mysql =>
      cases n with
      | zero => exact ⟨rfl, rfl⟩
      | succ n =>
        obtain ⟨es, s, hrun, hnot⟩ := Daemon.not_holdsLast_of_two Sample.zeroSha hengine n
        exact absurd (hall _ _ _ es s hrun) hnot
  · rintro ⟨hengine, hone⟩ sha f accounts es s hrun
    rw [hone] at hrun
    exact Daemon.holdsLast_of_one hengine hrun

theorem Sample.decide_eq_self (name : List UInt8) : decide (name = name) = true :=
  decide_eq_true rfl

/-- A MySQL server that tells all names apart. -/
def Sample.accountServer : AccountServer where
  engine := .mysql
  sameName := fun name name' => name = name'
  sameName_refl := Sample.decide_eq_self

/-- **Two workers of MySQL may leave the row of the sample client empty.** -/
theorem sample_verifier_lost :
    ¬∀ sha f accounts es s, Runs.run (Daemon.step sha Sample.accountServer)
      (Daemon.init f (databaseConnections 2) accounts) es = some s →
        s.HoldsLast Sample.accountServer := by
  intro hall
  obtain ⟨es, s, hrun, hnot⟩ :=
    @Daemon.not_holdsLast_of_two Sample.accountServer Sample.zeroSha rfl 0
  exact hnot (hall _ _ _ es s hrun)

end Realmd

end Morfeusz
