import Morfeusz.Database.Snapshots
import Morfeusz.Proxyd.Tables
import Morfeusz.Proxyd.Transitions

/-!
# The workers of the database

A proxy has one queue for its database and any number of workers, each with a connection
of its own. What the sockets put into the queue the workers take out in the same order,
but nothing keeps the order in which they execute it, and while a handler waits for an
answer other sockets go on (`Morfeusz.Proxyd.Creation`).

A worker executes a request and what waits for its answer at once. An answer is a result
set of the statement that the worker has prepared, and with MySQL its rows are fetched into
the buffers that were bound last. So where the worker comes to the same statement again
before a handler has read its answer, the handler finds buffers that nothing was fetched
into (`Morfeusz.Proxyd.Answer.read`).

A transaction counts as executed when it is committed, and leaves the connection without
autocommit (`Morfeusz.WorkerSession`). The results below hold whatever the member of the
connection is at first.
-/

namespace Morfeusz.Proxyd

open ByteNumbers ByteBuffer

/-! ### A handler and its answer -/

/-- What the queries of a creation saw: history, which no function of the proxy reads. -/
structure Seen where
  /-- The characters there were for the query of the name. -/
  name : List CharacterRow
  /-- The characters there were for the query of the number, and the account counted. -/
  count : List CharacterRow
  account : UInt32
  /-- The last answer was read as it had come. -/
  intact : Bool

/-- Before the queries. -/
def Seen.init : Seen := { name := [], count := [], account := 0, intact := true }

/-- The answer to a query, in the hands of the handler. -/
structure Answer where
  res : ResultSet
  /-- The worker whose statement it is a result set of. -/
  worker : ℕ
  /-- The worker has come to the statement again, and bound other buffers. -/
  replaced : Bool

namespace Answer

/-- The answer is read as it has come: its buffers are still bound, or another `next` had
fetched its row into them before and the marks of its nulls, which are freed, say so. -/
def intact (a : Answer) (own : Bool) : Bool := !a.replaced || own

/-- **What the handler reads.** The number of rows was taken when the result set was made.
Their columns are those of buffers that stay zero where `next` has fetched the row into the
buffers of another result set. With SQLite there are no buffers, and no transaction stores
anything that the checks could be about. -/
def read (a : Answer) (own : Bool) : ResultSet :=
  if a.res.engine = .mysql ∧ a.intact own = false then
    { a.res with rows := a.res.rows.map fun row => row.map fun _ => .null }
  else a.res

/-- Worker `w` has bound other buffers. -/
def replace (w : ℕ) (a : Answer) : Answer := if a.worker = w then { a with replaced := true } else a

theorem read_of_intact {a : Answer} {own : Bool} (h : a.intact own = true) : a.read own = a.res :=
  if_neg fun hread => by cases hread.2.symm.trans h

/-- Whose buffers they are, there are as many rows before the first `next`. -/
theorem rowsCount_read (a : Answer) (own : Bool) : (a.read own).rowsCount = a.res.rowsCount := by
  rw [read]
  split
  · next hread =>
    rw [ResultSet.rowsCount, ResultSet.rowsCount]
    dsimp only
    rw [hread.1]
    exact List.length_map _
  · rfl

end Answer

/-- A handler that waits, with the future it waits for. -/
structure Pending extends Creation where
  answer : Option Answer
  seen : Seen

namespace Pending

/-- A handler that has asked, and has no answer yet. -/
def ofCreation (seen : Seen) (h : Creation) : Pending := { h with answer := none, seen }

/-- The future is set by worker `w`, if it is the one of this request. -/
def set (h : Pending) (w : ℕ) (op : ProxydRequest) (rows : List CharacterRow) (res : ResultSet) :
    Pending :=
  if op = h.request ∧ h.answer = none then
    let answer : Answer := { res, worker := w, replaced := false }
    match h.query with
    | .guidFromName => { h with answer := some answer, seen := { h.seen with name := rows } }
    | .numchar => { h with answer := some answer }
    | .charCount =>
      { h with
        answer := some answer
        seen := { h.seen with count := rows, account := h.account } }
  else h

/-- Worker `w` comes to a statement: what it has answered of it, and was not read yet, is
read from buffers that are bound no more. -/
def replace (w : ℕ) (statement : ProxyDatabaseStatements) (h : Pending) : Pending :=
  if h.request.statement = statement then { h with answer := h.answer.map (.replace w) } else h

end Pending

/-! ### The sockets and the workers -/

/-- A socket, with its handler where it waits. -/
structure Socket where
  conn : Conn
  creation : Option Pending

def Socket.replace (w : ℕ) (statement : ProxyDatabaseStatements) (sock : Socket) : Socket :=
  { sock with creation := sock.creation.map (.replace w statement) }

/-- An operation in the queue. -/
structure Task where
  /-- The socket it is from. -/
  sock : ℕ
  /-- Its place among the operations of the socket. -/
  index : ℕ
  op : SqlOperation
  seen : Seen

/-- A worker, and its connection. -/
structure Worker extends WorkerSession Tables where
  /-- What the worker has taken out of the queue. -/
  task : Option Task

/-- A worker that has just connected. -/
def Worker.init (autoCommit : Bool) : Worker := { WorkerSession.init autoCommit with task := none }

/-- A worker has executed its query. -/
def Worker.queried (worker : Worker) (committed : Tables) : Worker :=
  { worker.toWorkerSession.queried committed with task := none }

/-- It has executed its transaction. -/
def Worker.transacted (worker : Worker) : Worker :=
  { worker.toWorkerSession.transacted true with task := none }

/-- A proxy and its database. -/
structure System where
  committed : Tables
  queue : List Task
  workers : List Worker
  sockets : List Socket

/-- What can happen. -/
inductive SystemEvent
  /-- A client has connected. -/
  | connect (f : Start)
  /-- A packet has arrived completely. -/
  | packet (k : ℕ) (env : Env) (pkt : ClientPkt)
  | hangup (k : ℕ) (env : Env)
  /-- A handler goes on that has its answer; `own` is what it finds in its own buffers where
  others are bound. -/
  | resume (k : ℕ) (own : Bool)
  | dequeue (w : ℕ)
  /-- A worker executes what it has taken out of the queue; the table of the accounts gives
  `acct`, and with `error` there is an SQL error. -/
  | execute (w : ℕ) (env : Env) (acct : ResultSet) (error : Bool)

namespace System

/-- Before there is a client. -/
def init (committed : Tables) (autoCommit : List Bool) : System :=
  { committed, queue := [], workers := autoCommit.map Worker.init, sockets := [] }

/-- Everything that is in the queue, or in the hands of a worker. -/
def tasks (s : System) : List Task := s.queue ++ s.workers.filterMap Worker.task

/-- The operations a socket has added, as they are put into the queue. -/
def added (k : ℕ) (c c' : Conn) (seen : Seen) : List Task :=
  (c'.operations.drop c.operations.length).mapIdx fun i op =>
    { sock := k, index := c.operations.length + i, op, seen }

/-- A socket is in another state, and its operations are in the queue. -/
def put (s : System) (k : ℕ) (c c' : Conn) (creation : Option Pending) (seen : Seen) : System :=
  { s with
    queue := s.queue ++ added k c c' seen
    sockets := s.sockets.set k { conn := c', creation } }

/-- Worker `w` comes to a statement, of which there may be answers that were not read. -/
def replace (s : System) (w : ℕ) (statement : ProxyDatabaseStatements) : System :=
  { s with sockets := s.sockets.map (.replace w statement) }

variable (db : Database) (sha : Sha1) (hmac : Hmac)

/-- The answer of worker `w` to a request, which is delivered to what waits for it. -/
def deliver (s : System) (env : Env) (acct res : ResultSet) (rows : List CharacterRow) (w k : ℕ)
    (op : ProxydRequest) : Option System := do
  let sock ← s.sockets[k]?
  match op.statement with
  | .getAcct =>
    (Proxyd.step sha hmac sock.conn ⟨env, .answer .getAcctObsv acct⟩).map fun c =>
      s.put k sock.conn c sock.creation .init
  | .getChar =>
    (Proxyd.step sha hmac sock.conn ⟨env, .answer .getCharsObsv res⟩).map fun c =>
      s.put k sock.conn c sock.creation .init
  | _ =>
    some (s.put k sock.conn sock.conn (sock.creation.map fun h => h.set w op rows res) .init)

/-- What a worker does with a task: `call`. -/
def call (s : System) (env : Env) (acct : ResultSet) (error : Bool) (w : ℕ) (worker : Worker)
    (t : Task) : Option System :=
  match t.op with
  | .transaction ops =>
    let committed := if error then s.committed else (db.call s.committed ops).getD s.committed
    some { s with committed, workers := s.workers.set w worker.transacted }
  | .request op =>
    let s := s.replace w op.statement
    if error then some { s with workers := s.workers.set w { worker with task := none } }
    else
      let tables := worker.visible s.committed
      { s with workers := s.workers.set w (worker.queried s.committed) }.deliver sha hmac env acct
        (db.select tables op) tables.characters w t.sock op

/-- **One step of a proxy and its database.** -/
def step (s : System) : SystemEvent → Option System
  | .connect f => some { s with sockets := s.sockets ++ [{ conn := .init f, creation := none }] }
  | .packet k env pkt => do
    let sock ← s.sockets[k]?
    match sock.creation with
    | some _ => none
    | none =>
      (sock.conn.receive env pkt).map fun (c, creation) =>
        s.put k sock.conn c (creation.map (.ofCreation .init)) .init
  | .hangup k env => do
    let sock ← s.sockets[k]?
    match sock.creation with
    | some _ => none
    | none =>
      (Proxyd.step sha hmac sock.conn ⟨env, .hangup⟩).map fun c => s.put k sock.conn c none .init
  | .resume k own => do
    let sock ← s.sockets[k]?
    let h ← sock.creation
    let a ← h.answer
    let seen := { h.seen with intact := a.intact own }
    (sock.conn.resume h.toCreation (a.read own)).map fun (c, creation) =>
      s.put k sock.conn c (creation.map (.ofCreation seen)) seen
  | .dequeue w => do
    let worker ← s.workers[w]?
    match worker.task, s.queue with
    | none, t :: queue =>
      some { s with queue, workers := s.workers.set w { worker with task := some t } }
    | _, _ => none
  | .execute w env acct error => do
    let worker ← s.workers[w]?
    let t ← worker.task
    s.call db sha hmac env acct error w worker t

end System

end Morfeusz.Proxyd
