import Mathlib.Logic.Function.Basic
import Morfeusz.Database.Snapshots
import Morfeusz.Proxyd.Waiting
import Morfeusz.Realmd.VerifierWrites
import Morfeusz.Realmdb.Tables

/-!
# Both daemons around their database

Any number of connections of the realm daemon and of sockets of the proxy, with their handlers
that wait, the tables they share, and what is between them: the requests that wait in a queue or
in the hands of a worker, and the answers that have not reached their observers. A request may be
executed at any time and in any order, or be lost with the connection to the server, and an
answer comes when it comes.

An answer for the realm daemon holds what was in the tables when its query was executed. One for
the proxy holds what the worker that executed it saw of them: the workers of the proxy execute
transactions too, and that leaves them with a snapshot (`Morfeusz.WorkerSession`).

What is proved of such a system goes through it part by part. `Morfeusz.Realmdb.Parts` says
what holds of each row, each connection, each request and each answer, and
`Morfeusz.Realmdb.Parts.Kept` how the one makes the other; then all of it holds in every state
of a run (`Morfeusz.Realmdb.Parts.hold_of_run`).
-/

namespace Morfeusz

/-- The observer of a statement of the proxy that is not waited for. -/
def Proxyd.ProxyDatabaseStatements.observer? :
    Proxyd.ProxyDatabaseStatements → Option Proxyd.Observer
  | getAcct => some .getAcctObsv
  | getChar => some .getCharsObsv
  | _ => none

namespace Realmdb

open Realmd (RealmdRequest)
open Proxyd (ProxydRequest SqlOperation)

/-! ### The system -/

/-- What the workers have to do. -/
inductive Task (κ π : Type)
  | realmd (k : κ) (op : RealmdRequest)
  | proxyd (j : π) (op : SqlOperation)
  | timer (stmt : BanStatement)

/-- A result set, on its way to an observer. -/
inductive Answer (κ π : Type)
  | realmd (k : κ) (obs : Realmd.Observer) (res : ResultSet)
  | proxyd (j : π) (obs : Proxyd.Observer) (res : ResultSet)

/-- The connections of both daemons, and their database. -/
structure Estate (collate : List UInt8 → List UInt8) (κ π : Type) where
  /-- `UNIX_TIMESTAMP()`. -/
  now : ℤ
  tables : Tables collate
  realmd : κ → Option Realmd.Conn
  proxyd : π → Option Proxyd.ProxySocket
  /-- The workers of the proxy. -/
  workers : List (WorkerSession (Tables collate))
  tasks : List (Task κ π)
  answers : List (Answer κ π)

/-- What can happen. -/
inductive EstateEvent (κ π : Type)
  | openRealmd (k : κ) (f : Realmd.Start)
  | openProxyd (j : π) (f : Proxyd.Start)
  /-- A packet has arrived, the peer has hung up or is ready for output. -/
  | realmd (k : κ) (e : Realmd.Event)
  /-- The same, or a handler gets its answer, which is about other tables. -/
  | proxyd (j : π) (e : Proxyd.SocketEvent)
  | clock (now : ℤ)
  /-- `Unban_Timer::handle_timeout`. -/
  | timeout
  /-- A worker of the realm daemon executes a task; `other` is what a query of another table
  returns. -/
  | execute (i : ℕ) (other : ResultSet)
  /-- Worker `w` of the proxy does; `ended` is whether the server ends a transaction as it is
  told, which nobody looks at. -/
  | executeProxyd (w i : ℕ) (other : ResultSet) (ended : Bool)
  /-- It cannot. -/
  | fail (i : ℕ)
  | answerRealmd (i : ℕ) (env : Realmd.Env)
  | answerProxyd (i : ℕ) (env : Proxyd.Env)

namespace Estate

variable {collate : List UInt8 → List UInt8} {κ π : Type} [DecidableEq κ] [DecidableEq π]

/-- Before a client has come. -/
def init (now : ℤ) (tables : Tables collate) (autoCommit : List Bool) : Estate collate κ π where
  now := now
  tables := tables
  realmd := fun _ => none
  proxyd := fun _ => none
  workers := autoCommit.map .init
  tasks := []
  answers := []

variable (sha : Sha1) (hmac : Hmac)

/-- A connection of the realm daemon takes a step, and its requests are enqueued. -/
def reactRealmd (s : Estate collate κ π) (k : κ) (e : Realmd.Event) : Option (Estate collate κ π) :=
  (s.realmd k).bind fun c => (Realmd.step sha c e).map fun c' =>
    { s with
      realmd := Function.update s.realmd k (some c')
      tasks := s.tasks ++ (c'.requests.drop c.requests.length).map (Task.realmd k) }

/-- A socket of the proxy, likewise. -/
def reactProxyd (s : Estate collate κ π) (j : π) (e : Proxyd.SocketEvent) :
    Option (Estate collate κ π) :=
  (s.proxyd j).bind fun d => (d.step sha hmac e).map fun d' =>
    { s with
      proxyd := Function.update s.proxyd j (some d')
      tasks := s.tasks ++ (d'.conn.operations.drop d.conn.operations.length).map (Task.proxyd j) }

/-- A worker executes a request of the realm daemon. -/
def performRealmd (s : Estate collate κ π) (other : ResultSet) (k : κ) (op : RealmdRequest) :
    Estate collate κ π :=
  match op.statement.observer? with
  | some obs => { s with answers := s.answers ++ [.realmd k obs (s.tables.select other op)] }
  | none => { s with tables := s.tables.execute s.now op }

/-- Worker `w` of the proxy executes an operation. The transactions, committed or not, and the
queries that a handler waits for, are not about these tables. -/
def performProxyd (s : Estate collate κ π) (other : ResultSet) (ended : Bool) (w : ℕ)
    (worker : WorkerSession (Tables collate)) (j : π) : SqlOperation → Estate collate κ π
  | .request op =>
    let answered := match op.statement.observer? with
      | some obs => [.proxyd j obs ((worker.visible s.tables).selectProxyd other op)]
      | none => []
    { s with
      workers := s.workers.set w (worker.queried s.tables)
      answers := s.answers ++ answered }
  | .transaction _ => { s with workers := s.workers.set w (worker.transacted ended) }

/-- **One step of both daemons and their database.** -/
def step (s : Estate collate κ π) : EstateEvent κ π → Option (Estate collate κ π)
  | .openRealmd k f =>
    match s.realmd k with
    | none => some { s with realmd := Function.update s.realmd k (some (.init f)) }
    | some _ => none
  | .openProxyd j f =>
    match s.proxyd j with
    | none => some { s with proxyd := Function.update s.proxyd j (some (.init f)) }
    | some _ => none
  | .realmd k e =>
    match e.action with
    | .answer _ _ => none
    | _ => s.reactRealmd sha k e
  | .proxyd j e =>
    match e with
    | .event ⟨_, .answer _ _⟩ => none
    | _ => s.reactProxyd sha hmac j e
  | .clock now => some { s with now }
  | .timeout => some { s with tasks := s.tasks ++ [.timer .pruneBans, .timer .setInactiveBans] }
  | .execute i other =>
    match s.tasks[i]? with
    | some (.realmd k op) =>
      some ({ s with tasks := s.tasks.eraseIdx i }.performRealmd other k op)
    | some (.timer stmt) =>
      some { s with tasks := s.tasks.eraseIdx i, tables := s.tables.lift s.now stmt }
    | _ => none
  | .executeProxyd w i other ended =>
    match s.workers[w]?, s.tasks[i]? with
    | some worker, some (.proxyd j op) =>
      some ({ s with tasks := s.tasks.eraseIdx i }.performProxyd other ended w worker j op)
    | _, _ => none
  | .fail i => if i < s.tasks.length then some { s with tasks := s.tasks.eraseIdx i } else none
  | .answerRealmd i env =>
    match s.answers[i]? with
    | some (.realmd k obs res) =>
      { s with answers := s.answers.eraseIdx i }.reactRealmd sha k ⟨env, .answer obs res⟩
    | _ => none
  | .answerProxyd i env =>
    match s.answers[i]? with
    | some (.proxyd j obs res) =>
      { s with answers := s.answers.eraseIdx i }.reactProxyd sha hmac j
        (.event ⟨env, .answer obs res⟩)
    | _ => none

/-- Step `i` of a run. -/
abbrev StepAt (s₀ : Estate collate κ π) (es : List (EstateEvent κ π)) (i : ℕ)
    (s : Estate collate κ π) (ev : EstateEvent κ π) (s' : Estate collate κ π) : Prop :=
  Runs.StepAt (step sha hmac) s₀ es i s ev s'

end Estate

/-! ### What a step says -/

section Steps

variable {collate : List UInt8 → List UInt8} {κ π : Type} [DecidableEq κ] [DecidableEq π]
  {sha : Sha1} {hmac : Hmac} {s s' : Estate collate κ π} {ev : EstateEvent κ π}

/-- A connection of the realm daemon has taken the event `e`. -/
structure Estate.ReactsRealmd (sha : Sha1) (s : Estate collate κ π) (ev : EstateEvent κ π) (k : κ)
    (c : Realmd.Conn) (e : Realmd.Event) (c' : Realmd.Conn) (s' : Estate collate κ π) : Prop where
  conn : s.realmd k = some c
  step : Realmd.step sha c e = some c'
  realmd : s'.realmd = Function.update s.realmd k (some c')
  proxyd : s'.proxyd = s.proxyd
  tables : s'.tables = s.tables
  now : s'.now = s.now
  workers : s'.workers = s.workers
  tasks : s'.tasks = s.tasks ++ (c'.requests.drop c.requests.length).map (Task.realmd k)
  answers : ∀ a ∈ s'.answers, a ∈ s.answers
  input : ∀ raw, e.action = .input raw → ev = .realmd k e
  answer : ∀ obs res, e.action = .answer obs res → .realmd k obs res ∈ s.answers

/-- A socket of the proxy has. -/
structure Estate.ReactsProxyd (sha : Sha1) (hmac : Hmac) (s : Estate collate κ π)
    (ev : EstateEvent κ π) (j : π) (d : Proxyd.ProxySocket) (e : Proxyd.SocketEvent)
    (d' : Proxyd.ProxySocket) (s' : Estate collate κ π) : Prop where
  conn : s.proxyd j = some d
  step : d.step sha hmac e = some d'
  realmd : s'.realmd = s.realmd
  proxyd : s'.proxyd = Function.update s.proxyd j (some d')
  tables : s'.tables = s.tables
  now : s'.now = s.now
  workers : s'.workers = s.workers
  tasks : s'.tasks =
    s.tasks ++ (d'.conn.operations.drop d.conn.operations.length).map (Task.proxyd j)
  answers : ∀ a ∈ s'.answers, a ∈ s.answers
  input : ∀ g pkt, e = .event g → g.action = .input pkt → ev = .proxyd j e
  answer : ∀ g obs res, e = .event g → g.action = .answer obs res → .proxyd j obs res ∈ s.answers

/-- **What one step can do.** -/
inductive EstateTrans (sha : Sha1) (hmac : Hmac) (s : Estate collate κ π) (ev : EstateEvent κ π)
    (s' : Estate collate κ π) : Prop
  | openRealmd (k : κ) (f : Realmd.Start) (hfree : s.realmd k = none)
      (h : s' = { s with realmd := Function.update s.realmd k (some (.init f)) })
  | openProxyd (j : π) (f : Proxyd.Start) (hfree : s.proxyd j = none)
      (h : s' = { s with proxyd := Function.update s.proxyd j (some (.init f)) })
  | realmd (k : κ) (c : Realmd.Conn) (e : Realmd.Event) (c' : Realmd.Conn)
      (h : s.ReactsRealmd sha ev k c e c' s')
  | proxyd (j : π) (d : Proxyd.ProxySocket) (e : Proxyd.SocketEvent) (d' : Proxyd.ProxySocket)
      (h : s.ReactsProxyd sha hmac ev j d e d' s')
  | clock (now : ℤ) (hev : ev = .clock now) (h : s' = { s with now })
  | timeout (h : s' = { s with
      tasks := s.tasks ++ [.timer .pruneBans, .timer .setInactiveBans] })
  | executed (i : ℕ) (other : ResultSet) (k : κ) (op : RealmdRequest) (hev : ev = .execute i other)
      (htask : s.tasks[i]? = some (.realmd k op))
      (h : s' = { s with tasks := s.tasks.eraseIdx i }.performRealmd other k op)
  | lifted (i : ℕ) (other : ResultSet) (stmt : BanStatement) (hev : ev = .execute i other)
      (htask : s.tasks[i]? = some (.timer stmt))
      (h : s' = { s with tasks := s.tasks.eraseIdx i, tables := s.tables.lift s.now stmt })
  | executedProxyd (w i : ℕ) (other : ResultSet) (ended : Bool)
      (worker : WorkerSession (Tables collate)) (j : π) (op : SqlOperation)
      (hev : ev = .executeProxyd w i other ended)
      (hworker : s.workers[w]? = some worker) (htask : s.tasks[i]? = some (.proxyd j op))
      (h : s' = { s with tasks := s.tasks.eraseIdx i }.performProxyd other ended w worker j op)
  | failed (i : ℕ) (h : s' = { s with tasks := s.tasks.eraseIdx i })

omit [DecidableEq π] in
theorem reactsRealmd_of_react (ev : EstateEvent κ π) {s₁ : Estate collate κ π} {k : κ}
    {e : Realmd.Event}
    (h : s₁.reactRealmd sha k e = some s')
    (hs₁ : ∃ answers, s₁ = { s with answers } ∧ ∀ a ∈ answers, a ∈ s.answers)
    (hinput : ∀ raw, e.action = .input raw → ev = .realmd k e)
    (hanswer : ∀ obs res, e.action = .answer obs res → .realmd k obs res ∈ s.answers) :
    ∃ c c', s.ReactsRealmd sha ev k c e c' s' := by
  obtain ⟨answers, rfl, hanswers⟩ := hs₁
  obtain ⟨c, hc, h⟩ := Option.bind_eq_some_iff.mp h
  obtain ⟨c', hc', rfl⟩ := Option.map_eq_some_iff.mp h
  exact ⟨c, c', hc, hc', rfl, rfl, rfl, rfl, rfl, rfl, hanswers, hinput, hanswer⟩

omit [DecidableEq κ] in
theorem reactsProxyd_of_react (ev : EstateEvent κ π) {s₁ : Estate collate κ π} {j : π}
    {e : Proxyd.SocketEvent}
    (h : s₁.reactProxyd sha hmac j e = some s')
    (hs₁ : ∃ answers, s₁ = { s with answers } ∧ ∀ a ∈ answers, a ∈ s.answers)
    (hinput : ∀ g pkt, e = .event g → g.action = .input pkt → ev = .proxyd j e)
    (hanswer : ∀ g obs res, e = .event g → g.action = .answer obs res →
      .proxyd j obs res ∈ s.answers) :
    ∃ d d', s.ReactsProxyd sha hmac ev j d e d' s' := by
  obtain ⟨answers, rfl, hanswers⟩ := hs₁
  obtain ⟨d, hd, h⟩ := Option.bind_eq_some_iff.mp h
  obtain ⟨d', hd', rfl⟩ := Option.map_eq_some_iff.mp h
  exact ⟨d, d', hd, hd', rfl, rfl, rfl, rfl, rfl, rfl, hanswers, hinput, hanswer⟩

/-- A socket of the proxy gets an answer. -/
theorem reactsProxyd_of_answer {n : ℕ} {env : Proxyd.Env}
    (h : s.step sha hmac (.answerProxyd n env) = some s') : ∃ j obs res d d',
      s.ReactsProxyd sha hmac (.answerProxyd n env) j d (.event ⟨env, .answer obs res⟩) d' s' := by
  rw [Estate.step] at h
  split at h
  · next j obs res ha =>
    obtain ⟨d, d', hr⟩ := reactsProxyd_of_react (s := s) (.answerProxyd n env) h
      ⟨_, rfl, fun _ ha => List.mem_of_mem_eraseIdx ha⟩
      (fun g pkt hg hact => by
        obtain rfl := Proxyd.SocketEvent.event.inj hg
        cases hact)
      (fun g obs' res' hg hact => by
        obtain rfl := Proxyd.SocketEvent.event.inj hg
        obtain ⟨rfl, rfl⟩ := Proxyd.Action.answer.inj hact
        exact List.mem_of_getElem? ha)
    exact ⟨j, obs, res, d, d', hr⟩
  · cases h

/-- **The list is complete.** -/
theorem estateTrans_of_step (h : s.step sha hmac ev = some s') : EstateTrans sha hmac s ev s' := by
  cases ev with
  | openRealmd k f =>
    rw [Estate.step] at h
    split at h
    · next hfree => exact .openRealmd k f hfree (Option.some.inj h).symm
    · cases h
  | openProxyd j f =>
    rw [Estate.step] at h
    split at h
    · next hfree => exact .openProxyd j f hfree (Option.some.inj h).symm
    · cases h
  | realmd k e =>
    rw [Estate.step] at h
    split at h
    · cases h
    · next hno =>
      obtain ⟨c, c', hr⟩ := reactsRealmd_of_react (s := s) (.realmd k e) h
        ⟨_, rfl, fun _ ha => ha⟩ (fun _ _ => rfl) fun obs res hact => absurd hact (hno obs res)
      exact .realmd k c e c' hr
  | proxyd j e =>
    rw [Estate.step.eq_def] at h
    dsimp only at h
    split at h
    · cases h
    · next hno =>
      obtain ⟨d, d', hr⟩ := reactsProxyd_of_react (s := s) (.proxyd j e) h
        ⟨_, rfl, fun _ ha => ha⟩ (fun _ _ _ _ => rfl) fun g obs res hg hact =>
          (hno g.env obs res (by rw [hg, ← hact])).elim
      exact .proxyd j d e d' hr
  | clock now => exact .clock now rfl (Option.some.inj h).symm
  | timeout => exact .timeout (Option.some.inj h).symm
  | execute i other =>
    rw [Estate.step] at h
    split at h
    · next k op htask => exact .executed i other k op rfl htask (Option.some.inj h).symm
    · next stmt htask => exact .lifted i other stmt rfl htask (Option.some.inj h).symm
    · cases h
  | executeProxyd w i other ended =>
    rw [Estate.step] at h
    split at h
    · next worker j op hworker htask =>
      exact .executedProxyd w i other ended worker j op rfl hworker htask (Option.some.inj h).symm
    · cases h
  | fail i =>
    rw [Estate.step] at h
    split at h
    · exact .failed i (Option.some.inj h).symm
    · cases h
  | answerRealmd i env =>
    rw [Estate.step] at h
    split at h
    · next k obs res ha =>
      obtain ⟨c, c', hr⟩ := reactsRealmd_of_react (s := s) (.answerRealmd i env) h
        ⟨_, rfl, fun _ ha => List.mem_of_mem_eraseIdx ha⟩ nofun fun obs' res' hact => by
          obtain ⟨rfl, rfl⟩ := Realmd.Action.answer.inj hact
          exact List.mem_of_getElem? ha
      exact .realmd k c _ c' hr
    · cases h
  | answerProxyd i env =>
    obtain ⟨j, obs, res, d, d', hr⟩ := reactsProxyd_of_answer h
    exact .proxyd j d _ d' hr

/-! ### What is executed -/

/-- A worker executes a statement of the timer. -/
def Estate.ExecutesTimer (s : Estate collate κ π) (ev : EstateEvent κ π) (stmt : BanStatement) :
    Prop := ∃ n other, ev = .execute n other ∧ s.tasks[n]? = some (.timer stmt)

/-- A worker executes a request of a connection of the realm daemon. -/
def Estate.ExecutesRealmd (s : Estate collate κ π) (ev : EstateEvent κ π) (op : RealmdRequest) :
    Prop := ∃ n other k, ev = .execute n other ∧ s.tasks[n]? = some (.realmd k op)

/-- Worker `w` of the proxy executes a transaction, and the server ends it. -/
def Estate.Transacts (s : Estate collate κ π) (ev : EstateEvent κ π) (w : ℕ) : Prop :=
  ∃ n other j ops, ev = .executeProxyd w n other true ∧
    s.tasks[n]? = some (.proxyd j (.transaction ops))

omit [DecidableEq κ] [DecidableEq π] in
/-- A request of the realm daemon is about the tables, and about an answer. -/
theorem performRealmd_eq (s : Estate collate κ π) (other : ResultSet) (k : κ) (op : RealmdRequest) :
    ∃ tables answers, s.performRealmd other k op = { s with tables, answers } := by
  rw [Estate.performRealmd]
  split
  · exact ⟨_, _, rfl⟩
  · exact ⟨_, _, rfl⟩

omit [DecidableEq κ] [DecidableEq π] in
/-- An operation of the proxy is about its worker, and about an answer. -/
theorem performProxyd_eq (s : Estate collate κ π) (other : ResultSet) (ended : Bool) (w : ℕ)
    (worker : WorkerSession (Tables collate)) (j : π) (op : SqlOperation) :
    ∃ workers answers, s.performProxyd other ended w worker j op = { s with workers, answers } := by
  cases op with
  | request op => exact ⟨_, _, rfl⟩
  | transaction ops => exact ⟨_, _, rfl⟩

/-- **What a step does to the tables.** -/
theorem tables_of_step (h : s.step sha hmac ev = some s') :
    s'.tables = s.tables ∨
      (∃ stmt, s.ExecutesTimer ev stmt ∧ s'.tables = s.tables.lift s.now stmt) ∨
      ∃ op, s.ExecutesRealmd ev op ∧ s'.tables = s.tables.execute s.now op := by
  cases estateTrans_of_step h with
  | openRealmd k f hfree heq | openProxyd j f hfree heq => exact Or.inl (by rw [heq])
  | realmd k c e c' hr => exact Or.inl hr.tables
  | proxyd j d e d' hr => exact Or.inl hr.tables
  | clock now hev heq | timeout heq | failed i heq => exact Or.inl (by rw [heq])
  | executed n other k op hev htask heq =>
    subst heq
    rw [Estate.performRealmd]
    split
    · exact Or.inl rfl
    · exact Or.inr (Or.inr ⟨op, ⟨n, other, k, hev, htask⟩, rfl⟩)
  | lifted n other stmt hev htask heq =>
    subst heq
    exact Or.inr (Or.inl ⟨stmt, ⟨n, other, hev, htask⟩, rfl⟩)
  | executedProxyd w n other ended worker j op hev hworker htask heq =>
    obtain ⟨workers, answers, hperform⟩ :=
      performProxyd_eq { s with tasks := s.tasks.eraseIdx n } other ended w worker j op
    exact Or.inl (by rw [heq, hperform])

theorem tables_of_timer {stmt : BanStatement} (h : s.step sha hmac ev = some s')
    (htimer : s.ExecutesTimer ev stmt) : s'.tables = s.tables.lift s.now stmt := by
  obtain ⟨n, other, rfl, htask⟩ := htimer
  rw [Estate.step, htask] at h
  rw [← Option.some.inj h]

/-- A request without a result. -/
theorem tables_of_execute {n : ℕ} {k : κ} {op : RealmdRequest} {other : ResultSet}
    (htask : s.tasks[n]? = some (.realmd k op)) (hop : op.statement.observer? = none)
    (h : s.step sha hmac (.execute n other) = some s') :
    s'.tables = s.tables.execute s.now op := by
  rw [Estate.step, htask] at h
  rw [← Option.some.inj h, Estate.performRealmd, hop]

/-- One with a result. -/
theorem answers_of_execute {n : ℕ} {k : κ} {op : RealmdRequest} {other : ResultSet}
    {obs : Realmd.Observer} (htask : s.tasks[n]? = some (.realmd k op))
    (hop : op.statement.observer? = some obs) (h : s.step sha hmac (.execute n other) = some s') :
    s'.answers = s.answers ++ [.realmd k obs (s.tables.select other op)] := by
  rw [Estate.step, htask] at h
  rw [← Option.some.inj h, Estate.performRealmd, hop]

/-- One of the proxy. -/
theorem answers_of_query {w n : ℕ} {worker : WorkerSession (Tables collate)} {j : π}
    {op : ProxydRequest} {other : ResultSet} {ended : Bool} {obs : Proxyd.Observer}
    (hworker : s.workers[w]? = some worker)
    (htask : s.tasks[n]? = some (.proxyd j (.request op)))
    (hop : op.statement.observer? = some obs)
    (h : s.step sha hmac (.executeProxyd w n other ended) = some s') :
    s'.answers =
      s.answers ++ [.proxyd j obs ((worker.visible s.tables).selectProxyd other op)] := by
  rw [Estate.step, hworker, htask] at h
  rw [← Option.some.inj h, Estate.performProxyd]
  dsimp only
  rw [hop]

/-- It is executed by a worker. -/
theorem worker_of_executeProxyd {w n : ℕ} {other : ResultSet} {ended : Bool}
    (h : s.step sha hmac (.executeProxyd w n other ended) = some s') :
    ∃ worker, s.workers[w]? = some worker := by
  rw [Estate.step] at h
  split at h
  · next worker j op hworker htask => exact ⟨worker, hworker⟩
  · cases h

/-! ### What the workers of the proxy see -/

/-- **What a step does to the workers of the proxy.** -/
theorem workers_of_step (h : s.step sha hmac ev = some s') :
    s'.workers = s.workers ∨ ∃ w worker worker', s.workers[w]? = some worker ∧
      s'.workers = s.workers.set w worker' ∧ (worker' = worker.queried s.tables ∨
        ∃ ended, worker' = worker.transacted ended ∧ (ended = true → s.Transacts ev w)) := by
  cases estateTrans_of_step h with
  | openRealmd k f hfree heq | openProxyd j f hfree heq => exact Or.inl (by rw [heq])
  | realmd k c e c' hr => exact Or.inl hr.workers
  | proxyd j d e d' hr => exact Or.inl hr.workers
  | clock now hev heq | timeout heq | failed i heq | lifted i other stmt hev htask heq =>
    exact Or.inl (by rw [heq])
  | executed n other k op hev htask heq =>
    obtain ⟨tables, answers, hperform⟩ :=
      performRealmd_eq { s with tasks := s.tasks.eraseIdx n } other k op
    exact Or.inl (by rw [heq, hperform])
  | executedProxyd w n other ended worker j op hev hworker htask heq =>
    subst heq
    refine Or.inr ⟨w, worker, ?_⟩
    cases op with
    | request op => exact ⟨_, hworker, rfl, Or.inl rfl⟩
    | transaction ops =>
      refine ⟨_, hworker, rfl, Or.inr ⟨ended, rfl, ?_⟩⟩
      rintro rfl
      exact ⟨n, other, j, ops, hev, htask⟩

/-- What is so of the tables stays so of what a worker of the proxy sees. -/
theorem sees_of_step {P : Tables collate → Prop} {w : ℕ} (h : s.step sha hmac ev = some s')
    (hsees : ∀ worker, s.workers[w]? = some worker → worker.Sees P) (htables : P s.tables) :
    ∀ worker, s'.workers[w]? = some worker → worker.Sees P := by
  rcases workers_of_step h with heq | ⟨v, worker, worker', hworker, heq, hworker'⟩
  · rwa [heq]
  intro worker₁ hworker₁
  rw [heq, List.getElem?_set] at hworker₁
  split at hworker₁
  · next hvw =>
    subst hvw
    split at hworker₁
    · obtain rfl := Option.some.inj hworker₁
      rcases hworker' with rfl | ⟨ended, rfl, -⟩
      · exact (hsees worker hworker).queried htables
      · exact (hsees worker hworker).transacted ended
    · cases hworker₁
  · exact hsees worker₁ hworker₁

/-- A worker with a snapshot keeps it until a transaction has ended. -/
theorem reads_of_step {w : ℕ} {v : Tables collate} (h : s.step sha hmac ev = some s')
    (hreads : ∃ worker, s.workers[w]? = some worker ∧ worker.Reads v)
    (hno : ¬s.Transacts ev w) : ∃ worker, s'.workers[w]? = some worker ∧ worker.Reads v := by
  obtain ⟨worker, hworker, hv⟩ := hreads
  rcases workers_of_step h with heq | ⟨x, worker₁, worker', hworker₁, heq, hworker'⟩
  · exact ⟨worker, by rwa [heq], hv⟩
  rw [heq]
  by_cases hxw : x = w
  · subst hxw
    obtain rfl := Option.some.inj (hworker.symm.trans hworker₁)
    have hset := fun worker' => List.getElem?_set_self (a := worker')
      (List.getElem?_eq_some_iff.mp hworker).1
    rcases hworker' with rfl | ⟨ended, rfl, htransacts⟩
    · exact ⟨_, hset _, hv.queried⟩
    · obtain rfl : ended = false := Bool.eq_false_of_not_eq_true fun h => hno (htransacts h)
      exact ⟨_, hset _, hv.transacted⟩
  · exact ⟨worker, (List.getElem?_set_ne hxw).trans hworker, hv⟩

/-- That leaves the worker without a snapshot. -/
theorem sees_of_transacts {P : Tables collate → Prop} {w : ℕ} (h : s.step sha hmac ev = some s')
    (htransacts : s.Transacts ev w) :
    ∀ worker, s'.workers[w]? = some worker → worker.Sees P := by
  obtain ⟨n, other, j, ops, rfl, htask⟩ := htransacts
  rw [Estate.step] at h
  split at h
  · next worker j' op hworker htask' =>
    obtain ⟨rfl, rfl⟩ := Task.proxyd.inj (Option.some.inj (htask.symm.trans htask'))
    rw [← Option.some.inj h]
    intro worker₁ hworker₁
    have hlt := (List.getElem?_eq_some_iff.mp hworker).1
    obtain rfl := Option.some.inj ((List.getElem?_set_self hlt).symm.trans hworker₁)
    exact WorkerSession.sees_transacted
  · cases h

end Steps

/-! ### What holds of every part -/

/-- What is claimed of a row, of a connection of the realm daemon, of a request of it and of an
answer to it, and of a request of the proxy and of an answer to that. -/
structure Parts (κ π : Type) where
  row : AccountRow → Prop
  conn : κ → Realmd.Conn → Prop
  request : κ → Realmd.Conn → RealmdRequest → Prop
  reply : κ → Realmd.Conn → Realmd.Observer → ResultSet → Prop
  ask : π → ProxydRequest → Prop
  told : π → Proxyd.Observer → ResultSet → Prop

namespace Parts

variable {collate : List UInt8 → List UInt8} {κ π : Type} [DecidableEq κ] [DecidableEq π]

/-- It holds of all of them. -/
structure Hold (p : Parts κ π) (s : Estate collate κ π) : Prop where
  row : ∀ row ∈ s.tables.account, p.row row
  view : ∀ (w : ℕ) (worker : WorkerSession (Tables collate)), s.workers[w]? = some worker →
    worker.Sees fun t => ∀ row ∈ t.account, p.row row
  conn : ∀ k c, s.realmd k = some c → p.conn k c
  request : ∀ k op, .realmd k op ∈ s.tasks → ∃ c, s.realmd k = some c ∧ p.request k c op
  reply : ∀ k obs res, .realmd k obs res ∈ s.answers →
    ∃ c, s.realmd k = some c ∧ p.reply k c obs res
  ask : ∀ j op, .proxyd j (.request op) ∈ s.tasks → p.ask j op
  told : ∀ j obs res, .proxyd j obs res ∈ s.answers → p.told j obs res

/-- What a step of a connection of the realm daemon keeps. -/
structure Reaction (p : Parts κ π) (k : κ) (c c' : Realmd.Conn) : Prop where
  conn : p.conn k c'
  request : ∀ op, p.request k c op → p.request k c' op
  reply : ∀ obs res, p.reply k c obs res → p.reply k c' obs res
  new : ∀ op ∈ c'.requests.drop c.requests.length, p.request k c' op

/-- How one part makes the other, in the steps of one run. -/
structure Kept (p : Parts κ π) (sha : Sha1) (hmac : Hmac) (s₀ : Estate collate κ π)
    (es : List (EstateEvent κ π)) : Prop where
  init : ∀ row ∈ s₀.tables.account, p.row row
  opened : ∀ k f, p.conn k (.init f)
  react : ∀ {i s ev s' k c e c'}, Estate.StepAt sha hmac s₀ es i s ev s' →
    s.ReactsRealmd sha ev k c e c' s' → p.conn k c →
    (∀ obs res, e.action = .answer obs res → p.reply k c obs res) → p.Reaction k c c'
  execute : ∀ {k c op} (now : ℤ) {t : Tables collate}, p.request k c op →
    (∀ row ∈ t.account, p.row row) → ∀ row ∈ (t.execute now op).account, p.row row
  select : ∀ {k c op obs} (other : ResultSet) {t : Tables collate}, p.request k c op →
    op.statement.observer? = some obs → (∀ row ∈ t.account, p.row row) →
    p.reply k c obs (t.select other op)
  query : ∀ {i s ev s' j d e d'}, Estate.StepAt sha hmac s₀ es i s ev s' →
    s.ReactsProxyd sha hmac ev j d e d' s' →
    ∀ op, .request op ∈ d'.conn.operations.drop d.conn.operations.length → p.ask j op
  selectProxyd : ∀ {j op obs} (other : ResultSet) {t : Tables collate}, p.ask j op →
    op.statement.observer? = some obs → (∀ row ∈ t.account, p.row row) →
    p.told j obs (t.selectProxyd other op)

variable {p : Parts κ π} {sha : Sha1} {hmac : Hmac} {s₀ s s' : Estate collate κ π}
  {es : List (EstateEvent κ π)} {ev : EstateEvent κ π} {i : ℕ}

omit [DecidableEq κ] [DecidableEq π] in
/-- A step that leaves the rows and the connections, and adds neither a request nor an answer. -/
theorem Hold.of_fewer (h : p.Hold s) (htables : s'.tables = s.tables)
    (hworkers : s'.workers = s.workers)
    (hrealmd : ∀ k c, s.realmd k = some c → s'.realmd k = some c)
    (hconn : ∀ k c, s'.realmd k = some c → p.conn k c)
    (htasks : ∀ task ∈ s'.tasks, task ∈ s.tasks ∨ ∃ stmt, task = .timer stmt)
    (hanswers : ∀ a ∈ s'.answers, a ∈ s.answers) : p.Hold s' where
  row := by
    rw [htables]
    exact h.row
  view := by
    rw [hworkers]
    exact h.view
  conn := hconn
  request k op hop := by
    obtain hop | ⟨stmt, hstmt⟩ := htasks _ hop
    · obtain ⟨c, hc, hreq⟩ := h.request k op hop
      exact ⟨c, hrealmd k c hc, hreq⟩
    · cases hstmt
  reply k obs res ha := by
    obtain ⟨c, hc, hreply⟩ := h.reply k obs res (hanswers _ ha)
    exact ⟨c, hrealmd k c hc, hreply⟩
  ask j op hop := by
    obtain hop | ⟨stmt, hstmt⟩ := htasks _ hop
    · exact h.ask j op hop
    · cases hstmt
  told j obs res ha := h.told j obs res (hanswers _ ha)

/-- A connection of the realm daemon takes a step. -/
theorem Hold.of_realmd (h : p.Hold s) (hk : p.Kept sha hmac s₀ es)
    (hat : Estate.StepAt sha hmac s₀ es i s ev s') {k : κ} {c c' : Realmd.Conn} {e : Realmd.Event}
    (hr : s.ReactsRealmd sha ev k c e c' s') : p.Hold s' := by
  have hreply : ∀ obs res, e.action = .answer obs res → p.reply k c obs res := by
    intro obs res hact
    obtain ⟨c₁, hc₁, hreply⟩ := h.reply k obs res (hr.answer obs res hact)
    obtain rfl := Option.some.inj (hr.conn.symm.trans hc₁)
    exact hreply
  have hreact := hk.react hat hr (h.conn k c hr.conn) hreply
  have hself : s'.realmd k = some c' := by rw [hr.realmd, Function.update_self]
  have hother : ∀ {k'}, k' ≠ k → s'.realmd k' = s.realmd k' := fun hne => by
    rw [hr.realmd, Function.update_of_ne hne]
  refine ⟨by rw [hr.tables]; exact h.row, by rw [hr.workers]; exact h.view, ?_, ?_, ?_, ?_, ?_⟩
  · intro k' c₁ hc₁
    by_cases hkk : k' = k
    · subst hkk
      obtain rfl := Option.some.inj (hself.symm.trans hc₁)
      exact hreact.conn
    · exact h.conn k' c₁ ((hother hkk).symm.trans hc₁)
  · intro k' op hop
    rw [hr.tasks] at hop
    rcases List.mem_append.mp hop with hop | hop
    · obtain ⟨c₁, hc₁, hreq⟩ := h.request k' op hop
      by_cases hkk : k' = k
      · subst hkk
        obtain rfl := Option.some.inj (hr.conn.symm.trans hc₁)
        exact ⟨c', hself, hreact.request op hreq⟩
      · exact ⟨c₁, (hother hkk).trans hc₁, hreq⟩
    · obtain ⟨op', hop', heq⟩ := List.mem_map.mp hop
      obtain ⟨rfl, rfl⟩ := Task.realmd.inj heq
      exact ⟨c', hself, hreact.new op' hop'⟩
  · intro k' obs res ha
    obtain ⟨c₁, hc₁, hreply'⟩ := h.reply k' obs res (hr.answers _ ha)
    by_cases hkk : k' = k
    · subst hkk
      obtain rfl := Option.some.inj (hr.conn.symm.trans hc₁)
      exact ⟨c', hself, hreact.reply obs res hreply'⟩
    · exact ⟨c₁, (hother hkk).trans hc₁, hreply'⟩
  · intro j op hop
    rw [hr.tasks] at hop
    rcases List.mem_append.mp hop with hop | hop
    · exact h.ask j op hop
    · obtain ⟨op', -, heq⟩ := List.mem_map.mp hop
      cases heq
  · exact fun j obs res ha => h.told j obs res (hr.answers _ ha)

/-- A connection of the proxy does. -/
theorem Hold.of_proxyd (h : p.Hold s) (hk : p.Kept sha hmac s₀ es)
    (hat : Estate.StepAt sha hmac s₀ es i s ev s') {j : π} {d d' : Proxyd.ProxySocket}
    {e : Proxyd.SocketEvent}
    (hr : s.ReactsProxyd sha hmac ev j d e d' s') : p.Hold s' where
  row := by
    rw [hr.tables]
    exact h.row
  view := by
    rw [hr.workers]
    exact h.view
  conn := by
    rw [hr.realmd]
    exact h.conn
  request k op hop := by
    rw [hr.realmd]
    rw [hr.tasks] at hop
    rcases List.mem_append.mp hop with hop | hop
    · exact h.request k op hop
    · obtain ⟨op', -, heq⟩ := List.mem_map.mp hop
      cases heq
  reply k obs res ha := by
    rw [hr.realmd]
    exact h.reply k obs res (hr.answers _ ha)
  ask j' op hop := by
    rw [hr.tasks] at hop
    rcases List.mem_append.mp hop with hop | hop
    · exact h.ask j' op hop
    · obtain ⟨op', hop', heq⟩ := List.mem_map.mp hop
      obtain ⟨rfl, rfl⟩ := Task.proxyd.inj heq
      exact hk.query hat hr op hop'
  told j' obs res ha := h.told j' obs res (hr.answers _ ha)

omit [DecidableEq κ] [DecidableEq π] in
/-- An answer that is put behind the others. -/
theorem Hold.answered (h : p.Hold s) {a : Answer κ π}
    (hrealmd : ∀ k obs res, a = .realmd k obs res → ∃ c, s.realmd k = some c ∧ p.reply k c obs res)
    (hproxyd : ∀ j obs res, a = .proxyd j obs res → p.told j obs res) :
    p.Hold { s with answers := s.answers ++ [a] } where
  row := h.row
  view := h.view
  conn := h.conn
  request := h.request
  reply k obs res ha := by
    rcases List.mem_append.mp ha with ha | ha
    · exact h.reply k obs res ha
    · exact hrealmd k obs res (List.mem_singleton.mp ha).symm
  ask := h.ask
  told j obs res ha := by
    rcases List.mem_append.mp ha with ha | ha
    · exact h.told j obs res ha
    · exact hproxyd j obs res (List.mem_singleton.mp ha).symm

omit [DecidableEq κ] [DecidableEq π] in
/-- Rows that are written. -/
theorem Hold.written (h : p.Hold s) {t : Tables collate} (hrow : ∀ row ∈ t.account, p.row row) :
    p.Hold { s with tables := t } :=
  ⟨hrow, h.view, h.conn, h.request, h.reply, h.ask, h.told⟩

/-- A worker of the realm daemon executes one of the tasks. -/
theorem Hold.performedRealmd (h : p.Hold s) (hk : p.Kept sha hmac s₀ es) {k : κ}
    {op : RealmdRequest} (hreq : ∃ c, s.realmd k = some c ∧ p.request k c op) (other : ResultSet) :
    p.Hold (s.performRealmd other k op) := by
  obtain ⟨c, hc, hreq⟩ := hreq
  rw [Estate.performRealmd]
  split
  · next obs hobs =>
    refine h.answered ?_ nofun
    intro k' obs' res' ha
    obtain ⟨rfl, rfl, rfl⟩ := Answer.realmd.inj ha
    exact ⟨c, hc, hk.select other hreq hobs h.row⟩
  · exact h.written (hk.execute s.now hreq h.row)

/-- A worker of the proxy does. -/
theorem Hold.performedProxyd (h : p.Hold s) (hk : p.Kept sha hmac s₀ es) {w : ℕ}
    {worker : WorkerSession (Tables collate)} (hworker : s.workers[w]? = some worker) {j : π}
    {op : SqlOperation} (hask : ∀ r, op = .request r → p.ask j r) (other : ResultSet)
    (ended : Bool)
    (hview : ∀ (v : ℕ) (worker' : WorkerSession (Tables collate)),
      (s.performProxyd other ended w worker j op).workers[v]? = some worker' →
        worker'.Sees fun t => ∀ row ∈ t.account, p.row row) :
    p.Hold (s.performProxyd other ended w worker j op) := by
  cases op with
  | transaction ops => exact ⟨h.row, hview, h.conn, h.request, h.reply, h.ask, h.told⟩
  | request op =>
    refine ⟨h.row, hview, h.conn, h.request, ?_, h.ask, ?_⟩
    · intro k obs res ha
      rcases List.mem_append.mp ha with ha | ha
      · exact h.reply k obs res ha
      · split at ha
        · cases List.mem_singleton.mp ha
        · cases ha
    · intro j' obs res ha
      rcases List.mem_append.mp ha with ha | ha
      · exact h.told j' obs res ha
      · split at ha
        · next obs' hobs =>
          obtain ⟨rfl, rfl, rfl⟩ := Answer.proxyd.inj (List.mem_singleton.mp ha)
          exact hk.selectProxyd other (hask op rfl) hobs ((h.view w worker hworker).visible h.row)
        · cases ha

/-- **Every step keeps what holds of the parts.** -/
theorem Hold.of_stepAt (h : p.Hold s) (hk : p.Kept sha hmac s₀ es)
    (hat : Estate.StepAt sha hmac s₀ es i s ev s') : p.Hold s' := by
  have herase : ∀ i, p.Hold { s with tasks := s.tasks.eraseIdx i } := fun i =>
    h.of_fewer rfl rfl (fun _ _ hc => hc) h.conn
      (fun _ htask => Or.inl (List.mem_of_mem_eraseIdx htask)) fun _ ha => ha
  cases estateTrans_of_step hat.2.2 with
  | openRealmd k f hfree heq =>
    subst heq
    refine h.of_fewer rfl rfl ?_ ?_ (fun _ htask => Or.inl htask) fun _ ha => ha
    · intro k' c hc
      have hne : k' ≠ k := by
        rintro rfl
        cases hfree.symm.trans hc
      exact (Function.update_of_ne hne _ _).trans hc
    · intro k' c hc
      by_cases hkk : k' = k
      · subst hkk
        obtain rfl := Option.some.inj ((Function.update_self k' _ _).symm.trans hc)
        exact hk.opened k' f
      · exact h.conn k' c ((Function.update_of_ne hkk _ _).symm.trans hc)
  | openProxyd j f hfree heq =>
    subst heq
    exact h.of_fewer rfl rfl (fun _ _ hc => hc) h.conn (fun _ htask => Or.inl htask) fun _ ha => ha
  | realmd k c e c' hr => exact h.of_realmd hk hat hr
  | proxyd j d e d' hr => exact h.of_proxyd hk hat hr
  | clock now hev heq =>
    subst heq
    exact h.of_fewer rfl rfl (fun _ _ hc => hc) h.conn (fun _ htask => Or.inl htask) fun _ ha => ha
  | timeout heq =>
    subst heq
    refine h.of_fewer rfl rfl (fun _ _ hc => hc) h.conn ?_ fun _ ha => ha
    intro task htask
    rcases List.mem_append.mp htask with htask | htask
    · exact Or.inl htask
    · rcases List.mem_pair.mp htask with rfl | rfl
      · exact Or.inr ⟨_, rfl⟩
      · exact Or.inr ⟨_, rfl⟩
  | executed i other k op hev htask heq =>
    subst heq
    exact (herase i).performedRealmd hk (h.request k op (List.mem_of_getElem? htask)) other
  | lifted i other stmt hev htask heq =>
    subst heq
    cases stmt <;> exact (herase i).written h.row
  | executedProxyd w i other ended worker j op hev hworker htask heq =>
    have hview := fun v => sees_of_step hat.2.2 (h.view v) h.row
    subst heq
    refine (herase i).performedProxyd hk hworker ?_ other ended hview
    rintro r rfl
    exact h.ask j r (List.mem_of_getElem? htask)
  | failed i heq =>
    subst heq
    exact herase i

/-- **It holds in every state of the run.** -/
theorem hold_of_run {now : ℤ} {tables : Tables collate} {autoCommit : List Bool}
    (hk : p.Kept sha hmac (Estate.init now tables autoCommit) es)
    (hrun : Runs.run (Estate.step sha hmac) (Estate.init now tables autoCommit) (es.take i) =
      some s) :
    p.Hold s := by
  refine Runs.run_take_induction ?_ (fun _ _ _ _ hat h => h.of_stepAt hk hat) i s hrun
  refine ⟨hk.init, ?_, nofun, nofun, nofun, nofun, nofun⟩
  intro w worker hworker
  obtain ⟨b, -, rfl⟩ := List.mem_map.mp (List.mem_of_getElem? hworker)
  exact WorkerSession.sees_init b

end Parts

namespace Sample

/-- No client is there, and the workers have something to do. -/
def waiting (now : ℤ) (tables : Tables id) (tasks : List (Task Unit Unit)) :
    Estate id Unit Unit where
  now := now
  tables := tables
  realmd := fun _ => none
  proxyd := fun _ => none
  workers := [.init false]
  tasks := tasks
  answers := []

end Sample

end Realmdb

end Morfeusz
