import Morfeusz.Proxyd.Workers

/-!
# What one step of a proxy and its database can do

The handlers put requests into the queue, and only `handle_cmsg_char_create` a
transaction, when it has the last of its answers (`Morfeusz.Proxyd.Conn.resume_some`).
What any step can do is listed by `Morfeusz.Proxyd.systemTrans_of_step`. The characters
that are committed change by one row at a time
(`Morfeusz.Proxyd.SystemTrans.committed`), so whatever a query has seen is what they began
with (`Morfeusz.Proxyd.System.Sound`).
-/

namespace Morfeusz.Proxyd

open ByteNumbers ByteBuffer

/-! ### What the pieces of the handler do -/

/-- The transaction of a character of this name. -/
def CreatesCharacter (name : List UInt8) (ops : List ProxydRequest) : Prop :=
  ∃ (c : Conn) (env : Env) (race pclass gender skin face hairStyle hairColor facialHair : UInt8),
    ops = [c.incrNumchar env.realmid, Conn.playerCreate env env.maxGuid c.acct.id name race pclass
      gender skin face hairStyle hairColor facialHair]

/-- The row a transaction of a character inserts. -/
def Database.rowOf (db : Database) (ops : List ProxydRequest) : Option CharacterRow :=
  match ops with
  | [_, insert] => db.insertedRow insert
  | _ => none

variable {db : Database}

theorem CreatesCharacter.rowOf {name : List UInt8} {ops : List ProxydRequest} {row : CharacterRow}
    (h : CreatesCharacter name ops) (hrow : db.rowOf ops = some row) :
    row.name = cStr name ∧ row.account.toNat < 2 ^ 31 := by
  obtain ⟨c, env, race, pclass, gender, skin, face, hairStyle, hairColor, facialHair, rfl⟩ := h
  obtain ⟨hname, -, haccount⟩ := Database.insertedRow_playerCreate hrow
  refine ⟨hname, ?_⟩
  rw [Database.storeUint32] at haccount
  split at haccount
  · next hlt => rwa [← Option.some.inj haccount]
  · split at haccount
    · cases haccount
    · rw [← Option.some.inj haccount]
      decide

/-- **What the transaction of a character commits.** -/
theorem CreatesCharacter.call_some {name : List UInt8} {ops : List ProxydRequest} {t t' : Tables}
    (h : CreatesCharacter name ops) (hcall : db.call t ops = some t') :
    (db.engine = .sqlite ∧ t' = t) ∨
    (db.engine = .mysql ∧ ∃ row, db.rowOf ops = some row ∧
      t'.characters = t.characters ++ [row]) := by
  obtain ⟨c, env, race, pclass, gender, skin, face, hairStyle, hairColor, facialHair, rfl⟩ := h
  rcases Database.call_some rfl hcall with hsqlite | ⟨hmysql, row, hrow, -, happend⟩
  · exact Or.inl hsqlite
  · exact Or.inr ⟨hmysql, row, hrow, happend⟩

namespace Conn

variable {env : Env} {c c' : Conn} {pkt : ClientPkt}

/-- What is added to the queue is requests only. -/
def Requests (c c' : Conn) : Prop :=
  ∃ new, c'.operations = c.operations ++ new ∧ ∀ op ∈ new, ∃ r, op = .request r

theorem Requests.of_eq (h : c'.operations = c.operations) : c.Requests c' :=
  ⟨[], h.trans (List.append_nil _).symm, fun _ hop => absurd hop List.not_mem_nil⟩

theorem Requests.of_enqueue {r : ProxydRequest}
    (h : c'.operations = c.operations ++ [.request r]) : c.Requests c' :=
  ⟨_, h, fun _ hop => ⟨r, List.mem_singleton.mp hop⟩⟩

theorem requests_ask (c : Conn) (obs : Observer) (r : ProxydRequest) :
    c.Requests (c.ask obs r) := by
  rw [ask]
  split
  · exact .of_enqueue rfl
  · exact .of_eq rfl

theorem operations_sendCharCreate {response : ResponseCodes}
    (h : c.sendCharCreate response = some c') : c'.operations = c.operations :=
  (frame_of_bind_send h).2

/-- A handler that answers has added nothing. -/
theorem map_sendCharCreate_some {response : ResponseCodes} {creation : Option Creation}
    (h : (c.sendCharCreate response).map (fun c => (c, (none : Option Creation))) =
      some (c', creation)) : creation = none ∧ c'.operations = c.operations := by
  obtain ⟨c₁, hc₁, h⟩ := Option.map_eq_some_iff.mp h
  obtain ⟨rfl, rfl⟩ := Prod.mk.inj h
  exact ⟨rfl, operations_sendCharCreate hc₁⟩

theorem requests_handleCmsgAuthSession (h : c.handleCmsgAuthSession pkt = some c') :
    c.Requests c' := by
  rcases handleCmsgAuthSession_some h with rfl | ⟨login, clientSeed, clientDigest, rfl⟩
  · exact .of_eq rfl
  · exact requests_ask _ _ _

/-- No other packet makes a transaction. -/
theorem requests_processIncoming (h : c.processIncoming env pkt = some c')
    (hop : ClientOpcode.ofCode? pkt.opcode ≠ some .cmsgCharCreate) : c.Requests c' := by
  rw [processIncoming.eq_def] at h
  split at h
  · exact requests_handleCmsgAuthSession h
  · obtain ⟨_, -, h⟩ := Option.bind_eq_some_iff.mp h
    exact .of_eq (frame_of_bind_send h).2
  · obtain ⟨_, -, h⟩ := Option.bind_eq_some_iff.mp h
    exact .of_eq (frame_of_bind_send h).2
  · rw [← Option.some.inj h]
    exact requests_ask _ _ _
  · next hcreate => exact absurd hcreate hop
  · exact .of_eq (frame_of_bind_send h).2
  · rw [← Option.some.inj h]
    exact .of_eq rfl

/-- **What a packet does to the queue.** -/
theorem receive_some {creation : Option Creation} (h : c.receive env pkt = some (c', creation)) :
    c.Requests c' ∧ ∀ h' ∈ creation, h'.query = .guidFromName := by
  rw [receive] at h
  split at h
  · split at h
    · rw [beginCharCreate] at h
      split at h
      · obtain ⟨rfl, rfl⟩ := Prod.mk.inj (Option.some.inj h)
        exact ⟨.of_eq rfl, fun h' hmem => by cases hmem⟩
      dsimp only at h
      split at h
      · obtain ⟨rfl, rfl⟩ := Prod.mk.inj (Option.some.inj h)
        exact ⟨.of_eq rfl, fun h' hmem => by cases hmem⟩
      obtain ⟨_, -, h⟩ := Option.bind_eq_some_iff.mp h
      obtain ⟨_, -, h⟩ := Option.bind_eq_some_iff.mp h
      split at h
      · obtain ⟨rfl, hops⟩ := map_sendCharCreate_some h
        exact ⟨.of_eq hops, fun h' hmem => by cases hmem⟩
      · obtain ⟨rfl, rfl⟩ := Prod.mk.inj (Option.some.inj h)
        refine ⟨.of_enqueue rfl, fun h' hmem => ?_⟩
        obtain rfl := Option.some.inj hmem
        rfl
    · next hop =>
      obtain ⟨c₁, hc₁, h⟩ := Option.map_eq_some_iff.mp h
      obtain ⟨rfl, rfl⟩ := Prod.mk.inj h
      exact ⟨requests_processIncoming hc₁ hop, fun h' hmem => by cases hmem⟩
  · cases h

theorem insertCharacter_some {race pclass : UInt8} {name : List UInt8} {buf : ByteBuffer}
    (h : c.insertCharacter env race pclass name buf = some c') :
    ∃ ops, CreatesCharacter name ops ∧ c'.operations = c.operations ++ [.transaction ops] := by
  obtain ⟨gender, skin, face, hairStyle, hairColor, facialHair, hsend⟩ :=
    sendCharCreate_of_insertCharacter h
  exact ⟨_, ⟨c, env, race, pclass, gender, skin, face, hairStyle, hairColor, facialHair, rfl⟩,
    operations_sendCharCreate hsend⟩

/-- How a handler goes on: it has ended, or it waits for the next of its queries. -/
structure Goes (h : Creation) (res : ResultSet) (h' : Creation) : Prop where
  name : h'.name = h.name
  free : h.query = .guidFromName → res.rowsCount = 0
  query : h'.query ≠ .guidFromName

/-- **What an answer does to the queue**: a transaction comes last, after the last check. -/
theorem resume_some {h : Creation} {res : ResultSet} {creation : Option Creation}
    (hres : c.resume h res = some (c', creation)) :
    (c.Requests c' ∧ ∀ h' ∈ creation, Goes h res h') ∨
    (creation = none ∧ h.query = .charCount ∧ atLimit res 10 = some false ∧
      ∃ ops, CreatesCharacter h.name ops ∧
        c'.operations = c.operations ++ [.transaction ops]) := by
  have hended : ∀ {response},
      (c.sendCharCreate response).map (fun c => (c, (none : Option Creation)))
      = some (c', creation) → c.Requests c' ∧ ∀ h' ∈ creation, Goes h res h' := by
    intro response hsend
    obtain ⟨rfl, hops⟩ := map_sendCharCreate_some hsend
    exact ⟨.of_eq hops, fun h' hmem => by cases hmem⟩
  rw [resume] at hres
  split at hres
  · next hquery =>
    split at hres
    · exact Or.inl (hended hres)
    · next hrows =>
      obtain ⟨rfl, rfl⟩ := Prod.mk.inj (Option.some.inj hres)
      refine Or.inl ⟨.of_enqueue rfl, fun h' hmem => ?_⟩
      obtain rfl := Option.some.inj hmem
      exact ⟨rfl, fun _ => not_not.mp hrows, Query.noConfusion⟩
  · next hquery =>
    obtain ⟨full, -, hres⟩ := Option.bind_eq_some_iff.mp hres
    split at hres
    · exact Or.inl (hended hres)
    · obtain ⟨rfl, rfl⟩ := Prod.mk.inj (Option.some.inj hres)
      refine Or.inl ⟨.of_enqueue rfl, fun h' hmem => ?_⟩
      obtain rfl := Option.some.inj hmem
      refine ⟨rfl, fun hname => ?_, Query.noConfusion⟩
      cases hname.symm.trans hquery
  · next hquery =>
    obtain ⟨full, hfull, hres⟩ := Option.bind_eq_some_iff.mp hres
    split at hres
    · exact Or.inl (hended hres)
    · next hroom =>
      obtain ⟨c₁, hc₁, hres⟩ := Option.map_eq_some_iff.mp hres
      obtain ⟨rfl, rfl⟩ := Prod.mk.inj hres
      obtain rfl : full = false := by simpa using hroom
      exact Or.inr ⟨rfl, hquery, hfull, insertCharacter_some hc₁⟩

/-- An account that is answered for, or not, adds nothing. -/
theorem operations_accountRetrieved {sha : Sha1} {hmac : Hmac} {state : Bool}
    (h : c.accountRetrieved sha hmac env state = some c') : c'.operations = c.operations := by
  cases state with
  | false =>
    obtain ⟨pkt, rfl⟩ := accountRetrieved_none h
    rfl
  | true => rcases accountRetrieved_some h with ⟨-, pkt, rfl⟩ | ⟨-, rfl⟩ <;> rfl

theorem operations_update {sha : Sha1} {hmac : Hmac} {obs : Observer} {res : ResultSet}
    (h : c.update sha hmac env res obs = some c') : c'.operations = c.operations := by
  cases obs with
  | getAcctObsv =>
    rw [update, getAcctObsv] at h
    split at h
    · exact operations_accountRetrieved h
    · obtain ⟨acct, -, h⟩ := Option.bind_eq_some_iff.mp h
      have hops := operations_accountRetrieved h
      exact hops
  | getCharsObsv => exact (getCharsObsv_some h).2

/-- **Neither an answer nor a hang-up adds anything.** -/
theorem operations_step {sha : Sha1} {hmac : Hmac} {action : Action}
    (hact : ∀ pkt, action ≠ .input pkt) (h : step sha hmac c ⟨env, action⟩ = some c') :
    c'.operations = c.operations := by
  rw [step] at h
  split at h
  · cases action with
    | input pkt => exact absurd rfl (hact pkt)
    | hangup =>
      dsimp only at h
      split at h
      · rw [← Option.some.inj h]
        rfl
      · cases h
    | answer obs res =>
      dsimp only at h
      split at h
      · have hops := operations_update h
        exact hops
      · cases h
  · cases h

end Conn

/-! ### The tasks -/

namespace System

variable {s s' : System} {k : ℕ} {c c' : Conn} {creation : Option Pending} {seen : Seen} {t : Task}

/-- What is put into the queue is what was added, with its place. -/
theorem mem_added {new : List SqlOperation} (h : c'.operations = c.operations ++ new)
    (ht : t ∈ added k c c' seen) :
    t.sock = k ∧ t.seen = seen ∧ t.op ∈ new ∧ c.operations.length ≤ t.index ∧
      c'.operations[t.index]? = some t.op := by
  rw [added, h, List.drop_left, List.mem_mapIdx] at ht
  obtain ⟨i, hi, rfl⟩ := ht
  refine ⟨rfl, rfl, List.getElem_mem hi, Nat.le_add_right _ _, ?_⟩
  rw [h, List.getElem?_append_right (Nat.le_add_right _ _), Nat.add_sub_cancel_left,
    List.getElem?_eq_getElem hi]

/-- Everything that was added is put into the queue. -/
theorem exists_added {new : List SqlOperation} (h : c'.operations = c.operations ++ new) {i : ℕ}
    {op : SqlOperation} (hi : c.operations.length ≤ i) (hop : c'.operations[i]? = some op) :
    ∃ t ∈ added k c c' seen, t.sock = k ∧ t.index = i ∧ t.op = op := by
  obtain ⟨j, rfl⟩ := Nat.exists_eq_add_of_le hi
  rw [h, List.getElem?_append_right (Nat.le_add_right _ _), Nat.add_sub_cancel_left] at hop
  obtain ⟨hj, rfl⟩ := List.getElem?_eq_some_iff.mp hop
  refine ⟨{ sock := k, index := c.operations.length + j, op := new[j], seen }, ?_, rfl, rfl, rfl⟩
  rw [added, h, List.drop_left, List.mem_mapIdx]
  exact ⟨j, hj, rfl⟩

theorem mem_tasks : t ∈ s.tasks ↔ t ∈ s.queue ∨ ∃ worker ∈ s.workers, worker.task = some t := by
  rw [tasks, List.mem_append, List.mem_filterMap]

theorem mem_tasks_put :
    t ∈ (s.put k c c' creation seen).tasks ↔ t ∈ s.tasks ∨ t ∈ added k c c' seen := by
  rw [mem_tasks, mem_tasks, put]
  dsimp only
  rw [List.mem_append, or_right_comm]

/-- A worker that has done its task has none. -/
theorem mem_tasks_of_set {w : ℕ} {worker : Worker} (hidle : worker.task = none)
    (ht : t ∈ { s with workers := s.workers.set w worker }.tasks) : t ∈ s.tasks := by
  rcases mem_tasks.mp ht with hqueue | ⟨worker', hmem, htask⟩
  · exact mem_tasks.mpr (Or.inl hqueue)
  · rcases List.mem_or_eq_of_mem_set hmem with hmem | rfl
    · exact mem_tasks.mpr (Or.inr ⟨worker', hmem, htask⟩)
    · cases hidle.symm.trans htask

/-- The task of a worker is done, and no other. -/
theorem mem_tasks_set_of_ne {w : ℕ} {worker worker' : Worker}
    (hworker : s.workers[w]? = some worker)
    (ht : t ∈ s.tasks) (hne : worker.task ≠ some t) :
    t ∈ { s with workers := s.workers.set w worker' }.tasks := by
  rcases mem_tasks.mp ht with hqueue | ⟨worker₁, hmem, htask⟩
  · exact mem_tasks.mpr (Or.inl hqueue)
  · obtain ⟨v, hv⟩ := List.mem_iff_getElem?.mp hmem
    refine mem_tasks.mpr (Or.inr ⟨worker₁, List.mem_iff_getElem?.mpr ⟨v, ?_⟩, htask⟩)
    dsimp only
    rw [List.getElem?_set_ne, hv]
    rintro rfl
    obtain rfl := Option.some.inj (hv.symm.trans hworker)
    exact hne htask

/-- Tasks only go from the queue to a worker. -/
theorem mem_tasks_dequeue {w : ℕ} {worker : Worker} {t₀ : Task} {queue : List Task}
    (hworker : s.workers[w]? = some worker) (hidle : worker.task = none)
    (hqueue : s.queue = t₀ :: queue) :
    t ∈ System.tasks
        { s with queue, workers := s.workers.set w { worker with task := some t₀ } } ↔
      t ∈ s.tasks := by
  have hlt := (List.getElem?_eq_some_iff.mp hworker).1
  rw [mem_tasks, mem_tasks, hqueue, List.mem_cons]
  dsimp only
  constructor
  · rintro (hmem | ⟨worker', hmem, htask⟩)
    · exact Or.inl (Or.inr hmem)
    · rcases List.mem_or_eq_of_mem_set hmem with hmem | rfl
      · exact Or.inr ⟨worker', hmem, htask⟩
      · exact Or.inl (Or.inl (Option.some.inj htask).symm)
  · rintro ((rfl | hmem) | ⟨worker', hmem, htask⟩)
    · exact Or.inr ⟨_, List.mem_set hlt _, rfl⟩
    · exact Or.inl hmem
    · obtain ⟨v, hv⟩ := List.mem_iff_getElem?.mp hmem
      refine Or.inr ⟨worker', List.mem_iff_getElem?.mpr ⟨v, ?_⟩, htask⟩
      rw [List.getElem?_set_ne, hv]
      rintro rfl
      obtain rfl := Option.some.inj (hv.symm.trans hworker)
      cases hidle.symm.trans htask

end System

/-! ### What one step can do -/

/-- How a handler goes on that has an answer, and what is recorded of the answer. -/
structure Pending.Goes (h : Pending) (a : Answer) (own : Bool) (h' : Pending) : Prop where
  next : Conn.Goes h.toCreation (a.read own) h'.toCreation
  answer : h'.answer = none
  seen : h'.seen = { h.seen with intact := a.intact own }

/-- What a socket does by itself: what it adds to the queue, and where its handler is. -/
inductive Socket.Moves (sock : Socket) (c' : Conn) (creation : Option Pending) (seen : Seen) : Prop
  /-- A packet or a hang-up was handled, up to the first query. -/
  | received (hops : sock.conn.Requests c')
      (hcreation : ∀ h ∈ creation, h.query = .guidFromName ∧ h.answer = none ∧ h.seen = .init)
      (hseen : seen = .init)
  /-- A handler has gone on, up to its next query or to its end. -/
  | resumed (h : Pending) (a : Answer) (own : Bool) (hh : sock.creation = some h)
      (hanswer : h.answer = some a) (hops : sock.conn.Requests c')
      (hcreation : ∀ h' ∈ creation, h.Goes a own h')
      (hseen : seen = { h.seen with intact := a.intact own })
  /-- A handler has made its transaction. -/
  | created (h : Pending) (a : Answer) (own : Bool) (ops : List ProxydRequest)
      (hh : sock.creation = some h) (hanswer : h.answer = some a) (hquery : h.query = .charCount)
      (hroom : Conn.atLimit (a.read own) 10 = some false) (hcreates : CreatesCharacter h.name ops)
      (hops : c'.operations = sock.conn.operations ++ [.transaction ops])
      (hcreation : creation = none) (hseen : seen = { h.seen with intact := a.intact own })

/-- A worker executes a task. -/
structure System.Executes (s : System) (e : SystemEvent) (w : ℕ) (worker : Worker) (t : Task)
    (error : Bool) : Prop where
  hevent : ∃ env acct, e = .execute w env acct error
  hworker : s.workers[w]? = some worker
  htask : worker.task = some t

/-- **What one step of a proxy and its database can do.** -/
inductive SystemTrans (db : Database) (s : System) (e : SystemEvent) (s' : System) : Prop
  | connected (f : Start)
      (hs : s' = { s with sockets := s.sockets ++ [{ conn := .init f, creation := none }] })
  | moved (k : ℕ) (sock : Socket) (c' : Conn) (creation : Option Pending) (seen : Seen)
      (hsock : s.sockets[k]? = some sock) (hmoves : sock.Moves c' creation seen)
      (hs : s' = s.put k sock.conn c' creation seen)
  | dequeued (w : ℕ) (worker : Worker) (t : Task) (queue : List Task)
      (hworker : s.workers[w]? = some worker) (hidle : worker.task = none)
      (hqueue : s.queue = t :: queue)
      (hs : s' = { s with queue, workers := s.workers.set w { worker with task := some t } })
  /-- A transaction was committed or rolled back. -/
  | transacted (w : ℕ) (worker : Worker) (t : Task) (error : Bool) (ops : List ProxydRequest)
      (hexec : s.Executes e w worker t error) (hop : t.op = .transaction ops)
      (hs : s' = { s with
        committed := if error then s.committed else (db.call s.committed ops).getD s.committed
        workers := s.workers.set w worker.transacted })
  /-- A request has ended in an error, of which nobody is told. -/
  | failed (w : ℕ) (worker : Worker) (t : Task) (op : ProxydRequest)
      (hexec : s.Executes e w worker t true) (hop : t.op = .request op)
      (hs : s' = { s.replace w op.statement with
        workers := s.workers.set w { worker with task := none } })
  /-- A request was answered. -/
  | answered (w : ℕ) (worker : Worker) (t : Task) (op : ProxydRequest) (sock : Socket) (c' : Conn)
      (creation : Option Pending)
      (hexec : s.Executes e w worker t false) (hop : t.op = .request op)
      (hsock : s.sockets[t.sock]? = some sock) (hops : c'.operations = sock.conn.operations)
      (hcreation : creation = (sock.replace w op.statement).creation ∨
        creation = (sock.replace w op.statement).creation.map fun h =>
          h.set w op (worker.visible s.committed).characters
            (db.select (worker.visible s.committed) op))
      (hs : s' = { s.replace w op.statement with
        workers := s.workers.set w (worker.queried s.committed) }.put t.sock sock.conn c' creation
          .init)

variable {db : Database} {sha : Sha1} {hmac : Hmac} {s s' : System} {e : SystemEvent}

/-- The sockets after a worker has come to a statement. -/
theorem System.getElem?_replace (w k : ℕ) (statement : ProxyDatabaseStatements) :
    (s.replace w statement).sockets[k]? = s.sockets[k]?.map (.replace w statement) :=
  List.getElem?_map

/-- An answer goes to the socket that has asked. -/
theorem System.deliver_some {env : Env} {acct res : ResultSet} {rows : List CharacterRow} {w k : ℕ}
    {op : ProxydRequest} (h : s.deliver sha hmac env acct res rows w k op = some s') :
    ∃ sock c' creation, s.sockets[k]? = some sock ∧ c'.operations = sock.conn.operations ∧
      (creation = sock.creation ∨ creation = sock.creation.map fun h => h.set w op rows res) ∧
      s' = s.put k sock.conn c' creation .init := by
  obtain ⟨sock, hsock, h⟩ := Option.bind_eq_some_iff.mp h
  have hobserver : ∀ {obs res'}, (Proxyd.step sha hmac sock.conn ⟨env, .answer obs res'⟩).map
      (fun c => s.put k sock.conn c sock.creation .init) = some s' →
      ∃ sock c' creation, s.sockets[k]? = some sock ∧ c'.operations = sock.conn.operations ∧
        (creation = sock.creation ∨ creation = sock.creation.map fun h => h.set w op rows res) ∧
        s' = s.put k sock.conn c' creation .init := by
    intro obs res' h
    obtain ⟨c', hc', rfl⟩ := Option.map_eq_some_iff.mp h
    exact ⟨sock, c', sock.creation, hsock, Conn.operations_step (fun _ => Action.noConfusion) hc',
      Or.inl rfl, rfl⟩
  split at h
  · exact hobserver h
  · exact hobserver h
  · exact ⟨sock, sock.conn, _, hsock, rfl, Or.inr rfl, (Option.some.inj h).symm⟩

/-- **The list is complete.** -/
theorem systemTrans_of_step (h : s.step db sha hmac e = some s') : SystemTrans db s e s' := by
  cases e with
  | connect f => exact .connected f (Option.some.inj h).symm
  | packet k env pkt =>
    obtain ⟨sock, hsock, h⟩ := Option.bind_eq_some_iff.mp h
    cases hcreation : sock.creation with
    | some creation =>
      rw [hcreation] at h
      cases h
    | none =>
      rw [hcreation] at h
      obtain ⟨⟨c', creation⟩, hreceive, rfl⟩ := Option.map_eq_some_iff.mp h
      obtain ⟨hops, hbegun⟩ := Conn.receive_some hreceive
      refine .moved k sock c' _ .init hsock (.received hops ?_ rfl) rfl
      intro h hmem
      obtain ⟨h, hh, rfl⟩ := Option.map_eq_some_iff.mp hmem
      exact ⟨hbegun h hh, rfl, rfl⟩
  | hangup k env =>
    obtain ⟨sock, hsock, h⟩ := Option.bind_eq_some_iff.mp h
    cases hcreation : sock.creation with
    | some creation =>
      rw [hcreation] at h
      cases h
    | none =>
      rw [hcreation] at h
      obtain ⟨c', hc', rfl⟩ := Option.map_eq_some_iff.mp h
      refine .moved k sock c' none .init hsock (.received ?_ ?_ rfl) rfl
      · exact .of_eq (Conn.operations_step (fun _ => Action.noConfusion) hc')
      · intro h hmem
        cases hmem
  | resume k own =>
    obtain ⟨sock, hsock, h⟩ := Option.bind_eq_some_iff.mp h
    obtain ⟨creation, hcreation, h⟩ := Option.bind_eq_some_iff.mp h
    obtain ⟨a, ha, h⟩ := Option.bind_eq_some_iff.mp h
    obtain ⟨⟨c', creation'⟩, hresume, rfl⟩ := Option.map_eq_some_iff.mp h
    refine .moved k sock c' _ _ hsock ?_ rfl
    rcases Conn.resume_some hresume with ⟨hops, hgoes⟩ | ⟨rfl, hquery, hroom, ops, hcreates, hops⟩
    · refine .resumed creation a own hcreation ha hops ?_ rfl
      intro h hmem
      obtain ⟨h, hh, rfl⟩ := Option.map_eq_some_iff.mp hmem
      exact ⟨hgoes h hh, rfl, rfl⟩
    · exact .created creation a own ops hcreation ha hquery hroom hcreates hops rfl rfl
  | dequeue w =>
    obtain ⟨worker, hworker, h⟩ := Option.bind_eq_some_iff.mp h
    split at h
    · next t queue hidle hqueue =>
      exact .dequeued w worker t queue hworker hidle hqueue (Option.some.inj h).symm
    · cases h
  | execute w env acct error =>
    obtain ⟨worker, hworker, h⟩ := Option.bind_eq_some_iff.mp h
    obtain ⟨t, htask, h⟩ := Option.bind_eq_some_iff.mp h
    have hexec : s.Executes (.execute w env acct error) w worker t error :=
      ⟨⟨env, acct, rfl⟩, hworker, htask⟩
    rw [System.call] at h
    split at h
    · next ops hop =>
      exact .transacted w worker t error ops hexec hop (Option.some.inj h).symm
    · next op hop =>
      cases error with
      | true => exact .failed w worker t op hexec hop (Option.some.inj h).symm
      | false =>
        obtain ⟨sock₁, c', creation, hsock₁, hops, hcreation, rfl⟩ := System.deliver_some h
        obtain ⟨sock, hsock, rfl⟩ := Option.map_eq_some_iff.mp
          ((s.getElem?_replace w t.sock op.statement).symm.trans hsock₁)
        exact .answered w worker t op sock c' creation hexec hop hsock hops hcreation rfl

/-! ### What is committed -/

/-- Every snapshot is of an earlier time, and every transaction creates a character. -/
structure System.Sound (s : System) : Prop where
  views : ∀ worker ∈ s.workers, worker.Sees fun v => v.characters <+: s.committed.characters
  creates : ∀ t ∈ s.tasks, ∀ ops, t.op = .transaction ops → ∃ name, CreatesCharacter name ops

/-- A worker commits a transaction which inserts a row. -/
def System.Commits (db : Database) (s : System) (e : SystemEvent) (t : Task) (row : CharacterRow) :
    Prop :=
  ∃ w worker ops tables, s.Executes e w worker t false ∧ t.op = .transaction ops ∧
    db.call s.committed ops = some tables ∧ tables.characters = s.committed.characters ++ [row]

theorem System.Executes.mem_tasks {w : ℕ} {worker : Worker} {t : Task} {error : Bool}
    (h : s.Executes e w worker t error) : t ∈ s.tasks :=
  System.mem_tasks.mpr (Or.inr ⟨worker, List.mem_of_getElem? h.hworker, h.htask⟩)

/-- An event is the execution of one task. -/
theorem System.Executes.unique {w w' : ℕ} {worker worker' : Worker} {t t' : Task}
    {error error' : Bool} (h : s.Executes e w worker t error)
    (h' : s.Executes e w' worker' t' error') :
    w = w' ∧ worker = worker' ∧ t = t' ∧ error = error' := by
  obtain ⟨⟨env, acct, rfl⟩, hworker, htask⟩ := h
  obtain ⟨⟨env', acct', he⟩, hworker', htask'⟩ := h'
  obtain ⟨rfl, rfl, rfl, rfl⟩ := SystemEvent.execute.inj he
  obtain rfl := Option.some.inj (hworker.symm.trans hworker')
  obtain rfl := Option.some.inj (htask.symm.trans htask')
  exact ⟨rfl, rfl, rfl, rfl⟩

/-- A transaction that inserts a row is one of MySQL, and the row is its own. -/
theorem System.Commits.rowOf {t : Task} {row : CharacterRow} (hsound : s.Sound)
    (h : s.Commits db e t row) :
    db.engine = .mysql ∧ t ∈ s.tasks ∧ ∃ name ops, t.op = .transaction ops ∧
      CreatesCharacter name ops ∧ db.rowOf ops = some row := by
  obtain ⟨w, worker, ops, tables, hexec, hop, hcall, happend⟩ := h
  have ht := hexec.mem_tasks
  obtain ⟨name, hcreates⟩ := hsound.creates t ht ops hop
  rcases hcreates.call_some hcall with ⟨-, rfl⟩ | ⟨hmysql, row', hrow, happend'⟩
  · exact absurd (List.append_right_eq_self.mp happend.symm) (List.cons_ne_nil _ _)
  · obtain rfl : row' = row := by
      have heq := List.append_cancel_left (happend'.symm.trans happend)
      exact List.head_eq_of_cons_eq heq
    exact ⟨hmysql, ht, name, ops, hop, hcreates, hrow⟩

theorem System.step_of_executes {w : ℕ} {worker : Worker} {t : Task} {error : Bool}
    (hexec : s.Executes e w worker t error) (hstep : s.step db sha hmac e = some s') :
    ∃ env acct, s.call db sha hmac env acct error w worker t = some s' := by
  obtain ⟨⟨env, acct, rfl⟩, hworker, htask⟩ := hexec
  refine ⟨env, acct, ?_⟩
  rw [System.step, hworker, Option.bind_eq_bind, Option.bind_some, htask] at hstep
  exact hstep

/-- What a commit does. -/
theorem System.Commits.committed {t : Task} {row : CharacterRow} (h : s.Commits db e t row)
    (hstep : s.step db sha hmac e = some s') :
    s'.committed.characters = s.committed.characters ++ [row] := by
  obtain ⟨w, worker, ops, tables, hexec, hop, hcall, happend⟩ := h
  obtain ⟨env, acct, hstep⟩ := System.step_of_executes hexec hstep
  rw [System.call, hop] at hstep
  dsimp only at hstep
  rw [hcall, if_neg Bool.false_ne_true] at hstep
  rw [← Option.some.inj hstep]
  exact happend

/-- **The characters change by one row at a time**, which a transaction commits. -/
theorem SystemTrans.committed (h : SystemTrans db s e s') (hsound : s.Sound) :
    s'.committed.characters = s.committed.characters ∨
    ∃ t row, s.Commits db e t row ∧
      s'.committed.characters = s.committed.characters ++ [row] := by
  cases h with
  | connected f hs => exact Or.inl (by rw [hs])
  | moved k sock c' creation seen hsock hmoves hs => exact Or.inl (by rw [hs]; rfl)
  | dequeued w worker t queue hworker hidle hqueue hs => exact Or.inl (by rw [hs])
  | failed w worker t op hexec hop hs => exact Or.inl (by rw [hs]; rfl)
  | answered w worker t op sock c' creation hexec hop hsock hops hcreation hs =>
    exact Or.inl (by rw [hs]; rfl)
  | transacted w worker t error ops hexec hop hs =>
    cases error with
    | true => exact Or.inl (by rw [hs]; rfl)
    | false =>
      rw [hs]
      dsimp only
      rw [if_neg Bool.false_ne_true]
      cases hcall : db.call s.committed ops with
      | none => exact Or.inl rfl
      | some tables =>
        obtain ⟨name, hcreates⟩ := hsound.creates t hexec.mem_tasks ops hop
        rcases hcreates.call_some hcall with ⟨-, rfl⟩ | ⟨-, row, -, happend⟩
        · exact Or.inl rfl
        · exact Or.inr ⟨t, row, ⟨w, worker, ops, tables, hexec, hop, hcall, happend⟩, happend⟩

theorem SystemTrans.committed_prefix (h : SystemTrans db s e s') (hsound : s.Sound) :
    s.committed.characters <+: s'.committed.characters := by
  rcases h.committed hsound with heq | ⟨t, row, -, heq⟩
  · exact heq ▸ List.prefix_rfl
  · exact heq ▸ List.prefix_append _ _

/-- What a worker reads was committed before. -/
theorem System.Sound.visible (h : s.Sound) {worker : Worker} (hworker : worker ∈ s.workers) :
    (worker.visible s.committed).characters <+: s.committed.characters :=
  (h.views worker hworker).visible List.prefix_rfl

/-- Every task there is after a step was there before it, or is new. -/
theorem SystemTrans.tasks (h : SystemTrans db s e s') {t : Task} (ht : t ∈ s'.tasks) :
    t ∈ s.tasks ∨ ∃ k sock c' creation seen, s.sockets[k]? = some sock ∧
      (sock.Moves c' creation seen ∨ c'.operations = sock.conn.operations) ∧
      t ∈ System.added k sock.conn c' seen := by
  cases h with
  | connected f hs =>
    rw [hs] at ht
    exact Or.inl ht
  | moved k sock c' creation seen hsock hmoves hs =>
    rw [hs] at ht
    rcases System.mem_tasks_put.mp ht with hmem | hmem
    · exact Or.inl hmem
    · exact Or.inr ⟨k, sock, c', creation, seen, hsock, Or.inl hmoves, hmem⟩
  | dequeued w worker t queue hworker hidle hqueue hs =>
    rw [hs] at ht
    exact Or.inl ((System.mem_tasks_dequeue hworker hidle hqueue).mp ht)
  | transacted w worker t error ops hexec hop hs =>
    rw [hs] at ht
    exact Or.inl (System.mem_tasks_of_set (s := s) rfl ht)
  | failed w worker t op hexec hop hs =>
    rw [hs] at ht
    exact Or.inl (System.mem_tasks_of_set rfl ht)
  | answered w worker t op sock c' creation hexec hop hsock hops hcreation hs =>
    rw [hs] at ht
    rcases System.mem_tasks_put.mp ht with hmem | hmem
    · exact Or.inl (System.mem_tasks_of_set rfl hmem)
    · exact Or.inr ⟨_, sock, c', creation, .init, hsock, Or.inr hops, hmem⟩

/-- A transaction that is new is one of the handler. -/
theorem Socket.Moves.transaction {sock : Socket} {c' : Conn} {creation : Option Pending}
    {seen : Seen} {k : ℕ} {t : Task} {ops : List ProxydRequest}
    (h : sock.Moves c' creation seen ∨ c'.operations = sock.conn.operations)
    (ht : t ∈ System.added k sock.conn c' seen) (hop : t.op = .transaction ops) :
    ∃ h a own, sock.creation = some h ∧ h.answer = some a ∧ h.query = .charCount ∧
      Conn.atLimit (a.read own) 10 = some false ∧ CreatesCharacter h.name ops ∧
        t.seen = { h.seen with intact := a.intact own } := by
  have hrequests : sock.conn.Requests c' → False := by
    rintro ⟨new, hnew, hreq⟩
    obtain ⟨-, -, hmem, -⟩ := System.mem_added hnew ht
    obtain ⟨r, hr⟩ := hreq _ hmem
    cases hr.symm.trans hop
  rcases h with h | h
  · cases h with
    | received hops hcreation hseen => exact (hrequests hops).elim
    | resumed h a own hh hanswer hops hcreation hseen => exact (hrequests hops).elim
    | created h a own ops' hh hanswer hquery hroom hcreates hops hcreation hseen =>
      obtain ⟨-, hseen', hmem, -⟩ := System.mem_added hops ht
      obtain rfl : ops' = ops := by
        rw [List.mem_singleton.mp hmem] at hop
        exact SqlOperation.transaction.inj hop
      exact ⟨h, a, own, hh, hanswer, hquery, hroom, hcreates, hseen'.trans hseen⟩
  · exact (hrequests (.of_eq h)).elim

/-- **The invariant is kept.** -/
theorem SystemTrans.sound (h : SystemTrans db s e s') (hsound : s.Sound) : s'.Sound := by
  have hprefix := h.committed_prefix hsound
  have hold : ∀ worker ∈ s.workers, worker.Sees fun v => v.characters <+: s'.committed.characters :=
    fun worker hworker => (hsound.views worker hworker).imp fun v hv => hv.trans hprefix
  have hset : ∀ {w : ℕ} {new : Worker}, s'.workers = s.workers.set w new →
      (new.Sees fun v => v.characters <+: s'.committed.characters) →
      ∀ worker ∈ s'.workers, worker.Sees fun v => v.characters <+: s'.committed.characters := by
    intro w new hworkers hnew worker hworker
    rw [hworkers] at hworker
    rcases List.mem_or_eq_of_mem_set hworker with hmem | rfl
    · exact hold worker hmem
    · exact hnew
  constructor
  · -- a worker has the view it had before, none, or that of the query
    cases h with
    | connected f hs =>
      have hworkers := congrArg System.workers hs
      exact fun worker hworker => hold worker (hworkers ▸ hworker)
    | moved k sock c' creation seen hsock hmoves hs =>
      have hworkers := congrArg System.workers hs
      exact fun worker hworker => hold worker (hworkers ▸ hworker)
    | dequeued w worker t queue hworker hidle hqueue hs =>
      exact hset (congrArg System.workers hs) (hold worker (List.mem_of_getElem? hworker))
    | transacted w worker t error ops hexec hop hs =>
      exact hset (congrArg System.workers hs) WorkerSession.sees_transacted
    | failed w worker t op hexec hop hs =>
      exact hset (congrArg System.workers hs) (hold worker (List.mem_of_getElem? hexec.hworker))
    | answered w worker t op sock c' creation hexec hop hsock hops hcreation hs =>
      exact hset (congrArg System.workers hs)
        ((hold worker (List.mem_of_getElem? hexec.hworker)).queried hprefix)
  · intro t ht ops hop
    rcases h.tasks ht with hmem | ⟨k, sock, c', creation, seen, -, hmoves, hmem⟩
    · exact hsound.creates t hmem ops hop
    · obtain ⟨h, a, own, -, -, -, -, hcreates, -⟩ := Socket.Moves.transaction hmoves hmem hop
      exact ⟨h.name, hcreates⟩

theorem System.sound_init (committed : Tables) (autoCommit : List Bool) :
    (System.init committed autoCommit).Sound := by
  constructor
  · intro worker hworker
    obtain ⟨b, -, rfl⟩ := List.mem_map.mp hworker
    exact WorkerSession.sees_init b
  · intro t ht
    rcases System.mem_tasks.mp ht with hmem | ⟨worker, hworker, htask⟩
    · cases hmem
    · obtain ⟨b, -, rfl⟩ := List.mem_map.mp hworker
      cases htask

end Morfeusz.Proxyd
