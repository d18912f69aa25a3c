import Mathlib.Algebra.Order.Ring.Nat
import Morfeusz.Lib.Runs
import Morfeusz.Lib.TransactionalSession

/-!
# Transactions of a connection

A worker executes single requests and transactions on a connection of its own. A
transaction switches autocommit off, executes its requests one by one, commits or rolls
back, and when it is deleted puts back what the connection said about autocommit before.
The connection keeps that in a member beside the server's own mode. The member is false
when the constructor has switched autocommit on
(`Morfeusz.DatabaseAccess.MySQLConnection.connect`), so the first transaction puts back what
never was.

What the server makes of the calls that switch autocommit, commit and roll back, nobody
looks at. A transaction whose commit has failed returns 0 all the same
(`Morfeusz.DatabaseAccess.SqlOperationTransaction.atomic_iff`).
-/

namespace Morfeusz.DatabaseAccess

variable {σ : Type} {server : TransactionalSession σ}

/-! ### The connection -/

/-- `MySQLConnection`. -/
structure MySQLConnection (server : TransactionalSession σ) where
  /-- `mysql`: the session on the server. -/
  session : server.State
  /-- `Connection::autoCommit`. -/
  autoCommit : Bool
  closed : Bool
  /-- Every request that was executed, oldest first. -/
  executed : List (Change σ)
  /-- What the member and the server have said about autocommit, oldest first. -/
  modes : List (Bool × Bool)

namespace MySQLConnection

variable (conn : MySQLConnection server)

/-- What the server says about autocommit. -/
def mode : Bool := server.autocommit conn.session

/-- The data of the database. -/
def data : σ := server.committed conn.session

/-- The member and the server are asked. -/
def noted : MySQLConnection server :=
  { conn with modes := conn.modes ++ [(conn.autoCommit, conn.mode)] }

/-- `MySQLConnection::MySQLConnection`. It switches autocommit on, and its initialiser
`Connection()` has left zero in the member. -/
def connect (session : server.State) : MySQLConnection server :=
  noted
    { session := server.setAutocommit session true
      autoCommit := false
      closed := false
      executed := []
      modes := [] }

/-- `getAutoCommit`. -/
def getAutoCommit : Bool := conn.autoCommit

/-- `setAutoCommit`: the server does as it is told, or `mysql_autocommit` fails. The
exception of `checkClosed` ends the worker. -/
def setAutoCommit (autoCommit done : Bool) : Option (MySQLConnection server) :=
  if conn.closed then none
  else some
    { conn with
      session := if done then server.setAutocommit conn.session autoCommit else conn.session
      autoCommit }.noted

/-- `commit`, likewise. -/
def commit (done : Bool) : Option (MySQLConnection server) :=
  if conn.closed then none else some { conn with session := server.commit conn.session done }.noted

/-- `rollback`. -/
def rollback : Option (MySQLConnection server) :=
  if conn.closed then none else some { conn with session := server.rollback conn.session }.noted

/-- `SqlOperationRequest::call`: whether `execute` returned without an exception. -/
def call (req : Change σ) : ℤ × MySQLConnection server :=
  let (ok, session) := server.execute conn.session req
  (if ok then 0 else -1, { conn with session, executed := conn.executed ++ [req] }.noted)

end MySQLConnection

/-! ### The transaction -/

/-- `SqlOperationTransaction`. The constructor does not write the state of autocommit. -/
structure SqlOperationTransaction (σ : Type) where
  autocommitState : Bool
  requests : List (Change σ)

namespace SqlOperationTransaction

/-- `append`. -/
def append (t : SqlOperationTransaction σ) (req : Change σ) : SqlOperationTransaction σ :=
  { t with requests := t.requests ++ [req] }

/-- The loop of `call`, with the rounds that are left: whether there was an error, and the
requests that are still in the queue. -/
def callLoop : ℕ → List (Change σ) → MySQLConnection server →
    Bool × List (Change σ) × MySQLConnection server
  | 0, queue, conn => (false, queue, conn)
  -- there is a request for every round
  | _ + 1, [], conn => (false, [], conn)
  | left + 1, req :: queue, conn =>
    let (ret, conn) := conn.call req
    if ret = -1 then (true, req :: queue, conn) else callLoop left queue conn

/-- The size of the queue in a `uint32`. -/
def size (t : SqlOperationTransaction σ) : ℕ := t.requests.length % 2 ^ 32

/-- The rounds of `call`: the counter is an `int`, and the last it counts is the one in which
it is incremented past its largest value. -/
def rounds (t : SqlOperationTransaction σ) : ℕ := min t.size (2 ^ 31)

end SqlOperationTransaction

/-- What the server makes of the calls of a transaction: whether it switches autocommit off,
commits, and sets autocommit again. -/
structure Outcomes where
  off : Bool
  commit : Bool
  restore : Bool

namespace SqlOperationTransaction

/-- `call`. -/
def call (t : SqlOperationTransaction σ) (o : Outcomes) (conn : MySQLConnection server) :
    Option (ℤ × SqlOperationTransaction σ × MySQLConnection server) := do
  let state := conn.getAutoCommit
  let conn ← conn.setAutoCommit false o.off
  let (error, requests, conn) := callLoop t.rounds t.requests conn
  if error then
    let conn ← conn.rollback
    some (-1, { autocommitState := state, requests }, conn)
  -- the counter has overflowed
  else if 2 ^ 31 ≤ t.size then none
  else
    let conn ← conn.commit o.commit
    some (0, { autocommitState := state, requests }, conn)

/-- `~SqlOperationTransaction`. -/
def delete (t : SqlOperationTransaction σ) (o : Outcomes) (conn : MySQLConnection server) :
    Option (MySQLConnection server) := conn.setAutoCommit t.autocommitState o.restore

end SqlOperationTransaction

/-! ### The worker -/

/-- What a worker takes out of the queue. -/
inductive SqlOperation (σ : Type)
  | request (req : Change σ)
  | transaction (t : SqlOperationTransaction σ) (o : Outcomes)

/-- A round of `DatabaseWorker::svc`. What `call` returns is not looked at. -/
def svcStep (conn : MySQLConnection server) : SqlOperation σ → Option (MySQLConnection server)
  | .request req => some (conn.call req).2
  | .transaction t o => do
    let (_, t, conn) ← t.call o conn
    t.delete o conn

/-- `DatabaseWorker::svc`. -/
def svc (conn : MySQLConnection server) (ops : List (SqlOperation σ)) :
    Option (MySQLConnection server) := Runs.run svcStep conn ops

/-! ### What a request does -/

namespace MySQLConnection

variable {conn conn' : MySQLConnection server} {req : Change σ}

/-- The connection is open, and it says about autocommit what it said before. -/
structure SameMode (conn conn' : MySQLConnection server) : Prop where
  closed : conn'.closed = conn.closed
  autoCommit : conn'.autoCommit = conn.autoCommit
  mode : conn'.mode = conn.mode

theorem SameMode.trans {conn'' : MySQLConnection server} (h : conn.SameMode conn')
    (h' : conn'.SameMode conn'') : conn.SameMode conn'' :=
  ⟨h'.closed.trans h.closed, h'.autoCommit.trans h.autoCommit, h'.mode.trans h.mode⟩

theorem sameMode_call : conn.SameMode (conn.call req).2 :=
  ⟨rfl, rfl, TransactionalSession.autocommit_execute⟩

theorem executed_call : (conn.call req).2.executed = conn.executed ++ [req] := rfl

/-- A request that has succeeded. -/
theorem call_of_ok {d : σ} (h : req (server.visible conn.session) = .ok d) :
    (conn.call req).1 = 0 ∧ server.visible (conn.call req).2.session = d := by
  obtain ⟨hok, hvisible⟩ := TransactionalSession.execute_of_ok h
  exact ⟨if_pos hok, hvisible⟩

theorem call_of_error {d : σ} (h : req (server.visible conn.session) = .error d) :
    (conn.call req).1 = -1 ∧ server.visible (conn.call req).2.session = d := by
  obtain ⟨hfail, hvisible⟩ := TransactionalSession.execute_of_error h
  exact ⟨if_neg (ne_true_of_eq_false hfail), hvisible⟩

/-- The data of a connection in autocommit mode is what its statements see. -/
theorem visible_of_mode (h : conn.mode = true) : server.visible conn.session = conn.data :=
  server.visible_of_autocommit _ h

end MySQLConnection

namespace SqlOperationTransaction

open MySQLConnection

variable {conn : MySQLConnection server}

/-! ### What the loop does -/

theorem sameMode_callLoop (left : ℕ) (queue : List (Change σ)) (conn : MySQLConnection server) :
    conn.SameMode (callLoop left queue conn).2.2 := by
  induction left generalizing queue conn with
  | zero => exact ⟨rfl, rfl, rfl⟩
  | succ left ih =>
    cases queue with
    | nil => exact ⟨rfl, rfl, rfl⟩
    | cons req queue =>
      rw [callLoop]
      dsimp only
      split
      · exact sameMode_call
      · exact sameMode_call.trans (ih queue _)

/-- **The loop commits nothing.** -/
theorem data_callLoop (left : ℕ) (queue : List (Change σ)) {conn : MySQLConnection server}
    (h : conn.mode = false) : (callLoop left queue conn).2.2.data = conn.data := by
  induction left generalizing queue conn with
  | zero => rfl
  | succ left ih =>
    have hcall : ∀ req, (conn.call req).2.data = conn.data := fun req =>
      TransactionalSession.committed_execute h
    cases queue with
    | nil => rfl
    | cons req queue =>
      rw [callLoop]
      dsimp only
      split
      · exact hcall req
      · exact (ih queue (sameMode_call.mode.trans h)).trans (hcall req)

/-- **The loop executes its requests, up to the first that fails.** -/
theorem callLoop_eq (left : ℕ) (queue : List (Change σ)) (conn : MySQLConnection server)
    (hleft : left ≤ queue.length) :
    (∃ d, applyAll (queue.take left) (server.visible conn.session) = some d ∧
      (callLoop left queue conn).1 = false ∧
      server.visible (callLoop left queue conn).2.2.session = d ∧
      (callLoop left queue conn).2.2.executed = conn.executed ++ queue.take left) ∨
    (applyAll (queue.take left) (server.visible conn.session) = none ∧
      (callLoop left queue conn).1 = true ∧
      ∃ m, (applyAll (queue.take m) (server.visible conn.session)).isSome = true ∧
        (callLoop left queue conn).2.2.executed = conn.executed ++ queue.take (m + 1)) := by
  induction left generalizing queue conn with
  | zero => exact Or.inl ⟨_, rfl, rfl, rfl, (List.append_nil _).symm⟩
  | succ left ih =>
    cases queue with
    | nil => cases hleft
    | cons req queue =>
      have hcons : ∀ {d} n, req (server.visible conn.session) = .ok d →
          applyAll ((req :: queue).take (n + 1)) (server.visible conn.session) =
            applyAll (queue.take n) d := by
        intro d n hok
        rw [List.take_succ_cons, applyAll, List.foldlM_cons, hok]
        rfl
      rw [callLoop]
      dsimp only
      cases hreq : req (server.visible conn.session) with
      | ok d =>
        obtain ⟨hret, hvisible⟩ := call_of_ok hreq
        rw [if_neg (by rw [hret]; decide), hcons left hreq, ← hvisible]
        -- the request, and then those behind it
        rcases ih queue (conn.call req).2 (Nat.le_of_succ_le_succ hleft) with
          ⟨d', happly, herror, hd', hexec⟩ | ⟨happly, herror, m, hsome, hexec⟩
        · refine Or.inl ⟨d', happly, herror, hd', ?_⟩
          rw [hexec, executed_call, List.append_assoc, List.take_succ_cons]
          rfl
        · refine Or.inr ⟨happly, herror, m + 1, ?_, ?_⟩
          · rwa [hcons m hreq, ← hvisible]
          · rw [hexec, executed_call, List.append_assoc, List.take_succ_cons]
            rfl
      | error d =>
        rw [if_pos (call_of_error hreq).1]
        refine Or.inr ⟨?_, rfl, 0, rfl, ?_⟩
        · rw [List.take_succ_cons, applyAll, List.foldlM_cons, hreq]
          rfl
        · exact executed_call

/-- What the loop leaves for the statements behind it. -/
theorem visible_callLoop (left : ℕ) (queue : List (Change σ)) (conn : MySQLConnection server) :
    server.visible (callLoop left queue conn).2.2.session =
      executeAll (queue.take left) (server.visible conn.session) := by
  induction left generalizing queue conn with
  | zero => rfl
  | succ left ih =>
    cases queue with
    | nil => rfl
    | cons req queue =>
      rw [callLoop, List.take_succ_cons, executeAll]
      dsimp only
      cases hreq : req (server.visible conn.session) with
      | ok d =>
        obtain ⟨hret, hvisible⟩ := call_of_ok hreq
        rw [if_neg (by rw [hret]; decide), ih, hvisible]
      | error d =>
        obtain ⟨hret, hvisible⟩ := call_of_error hreq
        rw [if_pos hret]
        exact hvisible

/-! ### What a transaction does -/

variable {t : SqlOperationTransaction σ}

/-- The connection once its mode is set, or the server has failed to. -/
def modeSet (conn : MySQLConnection server) (b done : Bool) : MySQLConnection server :=
  { conn with
    session := if done then server.setAutocommit conn.session b else conn.session
    autoCommit := b }.noted

theorem mode_modeSet (b done : Bool) :
    (modeSet conn b done).mode = if done then b else conn.mode := by
  cases done with
  | true => exact server.autocommit_setAutocommit _ _
  | false => rfl

theorem data_modeSet_false (done : Bool) : (modeSet conn false done).data = conn.data := by
  cases done with
  | true => exact server.committed_setAutocommit_false _
  | false => rfl

theorem visible_modeSet (b done : Bool) :
    server.visible (modeSet conn b done).session = server.visible conn.session := by
  cases done with
  | true => exact server.visible_setAutocommit _ _
  | false => rfl

/-- The connection once the transaction is rolled back, or the server was told to commit
it. -/
def ended (error done : Bool) (conn : MySQLConnection server) : MySQLConnection server :=
  { conn with
    session :=
      if error then server.rollback conn.session else server.commit conn.session done }.noted

theorem mode_ended (error done : Bool) : (ended error done conn).mode = conn.mode := by
  cases error with
  | true => exact server.autocommit_rollback _
  | false => exact server.autocommit_commit _ _

theorem data_ended_true (done : Bool) : (ended true done conn).data = conn.data :=
  server.committed_rollback _

/-- What is committed behind a transaction none of whose requests has failed. -/
theorem data_ended_false (done : Bool) : (ended false done conn).data =
    if done then server.visible conn.session else conn.data := by
  cases done with
  | true => exact server.committed_commit _
  | false => exact server.committed_commit_false _

theorem rounds_le (t : SqlOperationTransaction σ) : t.rounds ≤ t.requests.length :=
  (min_le_left _ _).trans (Nat.mod_le _ _)

theorem rollback_eq (hopen : conn.closed = false) (done : Bool) :
    conn.rollback = some (ended true done conn) :=
  if_neg (ne_true_of_eq_false hopen)

theorem commit_eq (hopen : conn.closed = false) (done : Bool) :
    conn.commit done = some (ended false done conn) :=
  if_neg (ne_true_of_eq_false hopen)

theorem setAutoCommit_eq (hopen : conn.closed = false) (b done : Bool) :
    conn.setAutoCommit b done = some (modeSet conn b done) :=
  if_neg (ne_true_of_eq_false hopen)

/-- **`call`, piece by piece.** -/
theorem call_eq (t : SqlOperationTransaction σ) (o : Outcomes) (hopen : conn.closed = false) :
    let r := callLoop t.rounds t.requests (modeSet conn false o.off)
    t.call o conn =
      if r.1 = false ∧ 2 ^ 31 ≤ t.size then none
      else some (if r.1 then -1 else 0,
        { autocommitState := conn.autoCommit, requests := r.2.1 }, ended r.1 o.commit r.2.2) := by
  have hloop : (callLoop t.rounds t.requests (modeSet conn false o.off)).2.2.closed = false :=
    (sameMode_callLoop _ _ _).closed.trans hopen
  dsimp only
  rw [call, setAutoCommit_eq hopen]
  change (match callLoop t.rounds t.requests (modeSet conn false o.off) with
    | (error, requests, conn') =>
      let t' : SqlOperationTransaction σ := { autocommitState := conn.autoCommit, requests }
      if error = true then conn'.rollback.bind fun conn' => some (-1, t', conn')
      else if 2 ^ 31 ≤ t.size then none
      else (conn'.commit o.commit).bind fun conn' => some (0, t', conn')) = _
  generalize callLoop t.rounds t.requests (modeSet conn false o.off) = r at hloop ⊢
  obtain ⟨error, requests, conn'⟩ := r
  dsimp only
  cases error with
  | true =>
    rw [if_pos rfl, if_neg fun h => Bool.noConfusion h.1, rollback_eq hloop o.commit]
    rfl
  | false =>
    rw [if_neg (by decide)]
    by_cases hsize : 2 ^ 31 ≤ t.size
    · rw [if_pos hsize, if_pos ⟨rfl, hsize⟩]
    · rw [if_neg hsize, if_neg fun h => hsize h.2, commit_eq hloop]
      rfl

/-- **A transaction that a worker executes and deletes**, where it comes to its end. -/
theorem svcStep_transaction (t : SqlOperationTransaction σ) (o : Outcomes)
    (hopen : conn.closed = false) {conn' : MySQLConnection server}
    (h : svcStep conn (.transaction t o) = some conn') :
    let r := callLoop t.rounds t.requests (modeSet conn false o.off)
    conn' = modeSet (ended r.1 o.commit r.2.2) conn.autoCommit o.restore := by
  have hclosed : ∀ error, (ended error o.commit
      (callLoop t.rounds t.requests (modeSet conn false o.off)).2.2).closed = false :=
    fun _ => (sameMode_callLoop t.rounds t.requests (modeSet conn false o.off)).closed.trans hopen
  dsimp only
  rw [svcStep, call_eq t o hopen] at h
  dsimp only at h
  split at h
  · cases h
  · exact (Option.some.inj ((setAutoCommit_eq (hclosed _) _ _).symm.trans h)).symm

/-- All or nothing: the requests have their effects and 0 is returned, or there are none
and -1 is; and nothing is executed behind a request that has failed. -/
def Atomic (t : SqlOperationTransaction σ) (o : Outcomes) (conn : MySQLConnection server) : Prop :=
  ∃ ret t' conn', t.call o conn = some (ret, t', conn') ∧
    (ret = 0 ∧ applyAll t.requests conn.data = some conn'.data ∨
        ret = -1 ∧ conn'.data = conn.data) ∧
    ∃ m, conn'.executed = conn.executed ++ t.requests.take m ∧
      (applyAll (t.requests.take (m - 1)) conn.data).isSome = true

/-- The requests the counter comes to: all of them, where there are fewer than `2 ^ 31`. -/
def counted (t : SqlOperationTransaction σ) : List (Change σ) := t.requests.take t.rounds

/-- **A transaction is atomic** in two cases. One of its requests fails, and the server has
switched autocommit off (or what was executed has changed nothing). Or none fails, there are
not too many for the counter, and what is committed then is what all of them do: where the
server fails to commit, nothing. -/
theorem atomic_iff (t : SqlOperationTransaction σ) (o : Outcomes) (conn : MySQLConnection server)
    (hopen : conn.closed = false) (hmode : conn.mode = true) :
    t.Atomic o conn ↔
      (applyAll t.counted conn.data = none ∧
        (o.off = true ∨ executeAll t.counted conn.data = conn.data)) ∨
      ∃ d, applyAll t.counted conn.data = some d ∧ t.size < 2 ^ 31 ∧
        applyAll t.requests conn.data =
          some (if o.off = true ∧ o.commit = false then conn.data else d) := by
  have hvisible : server.visible (modeSet conn false o.off).session = conn.data :=
    (visible_modeSet false o.off).trans (visible_of_mode hmode)
  have hleft := visible_callLoop t.rounds t.requests (modeSet conn false o.off)
  have hloop := callLoop_eq t.rounds t.requests (modeSet conn false o.off) t.rounds_le
  rw [hvisible] at hloop hleft
  -- with autocommit off the data stays, and without it is what the statements see
  have hdata : (callLoop t.rounds t.requests (modeSet conn false o.off)).2.2.data =
      if o.off then conn.data else executeAll t.counted conn.data := by
    cases hoff : o.off with
    | true =>
      refine (data_callLoop _ _ ?_).trans (data_modeSet_false true)
      exact mode_modeSet false true
    | false =>
      rw [hoff] at hleft
      rw [if_neg Bool.false_ne_true, counted, ← hleft]
      refine (visible_of_mode ?_).symm
      exact (sameMode_callLoop _ _ _).mode.trans ((mode_modeSet false false).trans hmode)
  have hcall := call_eq t o hopen
  change (∃ d, applyAll t.counted conn.data = some d ∧ _) ∨
    (applyAll t.counted conn.data = none ∧ _) at hloop
  change _ = executeAll t.counted conn.data at hleft
  generalize callLoop t.rounds t.requests (modeSet conn false o.off) = r at hloop hdata hcall hleft
  obtain ⟨error, requests, conn'⟩ := r
  dsimp only at hcall hloop hdata hleft
  have hexecuted : (ended error o.commit conn').executed = conn'.executed := rfl
  rcases hloop with ⟨d, happly, rfl, rfl, hexec⟩ | ⟨happly, rfl, m, hm, hexec⟩
  · -- everything that is counted has succeeded, and the server is told to commit
    have hends : (ended false o.commit conn').data =
        if o.off = true ∧ o.commit = false then conn.data else server.visible conn'.session := by
      rw [data_ended_false, hdata, ← hleft]
      cases o.off <;> cases o.commit <;> rfl
    constructor
    · rintro ⟨ret, t', conn'', hret, hdata', -⟩
      rw [hcall] at hret
      split at hret
      · cases hret
      · next hsize =>
        obtain ⟨hzero, hrest⟩ := Prod.mk.inj (Option.some.inj hret)
        obtain ⟨-, rfl⟩ := Prod.mk.inj hrest
        rcases hdata' with ⟨-, hall⟩ | ⟨hminus, -⟩
        · refine Or.inr ⟨_, happly, Nat.lt_of_not_le fun hle => hsize ⟨rfl, hle⟩, ?_⟩
          rw [hall, hends]
        · exact absurd (hzero.trans hminus) (show (0 : ℤ) ≠ -1 by decide)
    · rintro (⟨hnone, -⟩ | ⟨d', happly', hsize, hall⟩)
      · cases hnone.symm.trans happly
      · obtain rfl := Option.some.inj (happly.symm.trans happly')
        rw [if_neg fun h => Nat.not_le_of_lt hsize h.2] at hcall
        refine ⟨_, _, _, hcall, Or.inl ⟨rfl, by rw [hall, hends]⟩, t.rounds, hexec, ?_⟩
        have hsome := isSome_applyAll_take (Option.isSome_iff_exists.mpr ⟨_, happly⟩) (t.rounds - 1)
        rwa [counted, List.take_take, min_eq_left (Nat.sub_le _ _)] at hsome
  · -- a request has failed, and the rest is rolled back
    rw [if_neg fun h => Bool.noConfusion h.1] at hcall
    have hends : (ended true o.commit conn').data =
        if o.off then conn.data else executeAll t.counted conn.data :=
      (data_ended_true o.commit).trans hdata
    constructor
    · rintro ⟨ret, t', conn'', hret, hdata', -⟩
      obtain ⟨hminus, hrest⟩ := Prod.mk.inj (Option.some.inj (hcall.symm.trans hret))
      obtain ⟨-, rfl⟩ := Prod.mk.inj hrest
      rcases hdata' with ⟨hzero, -⟩ | ⟨-, hsame⟩
      · exact absurd (hminus.trans hzero) (show (-1 : ℤ) ≠ 0 by decide)
      · refine Or.inl ⟨happly, ?_⟩
        rw [hends] at hsame
        cases hoff : o.off with
        | true => exact Or.inl rfl
        | false =>
          rw [hoff] at hsame
          exact Or.inr hsame
    · rintro (⟨-, hkept⟩ | ⟨d, happly', -⟩)
      · refine ⟨_, _, _, hcall, Or.inr ⟨rfl, hends.trans ?_⟩, m + 1, hexec, hm⟩
        rcases hkept with hoff | hsame
        · rw [if_pos hoff]
        · rw [hsame, ite_self]
      · cases happly.symm.trans happly'

/-- A session on a store of a number. -/
def sampleSession (n : ℕ) : (TransactionalSession.ofData ℕ).State :=
  { committed := n, work := none, autocommit := true }

/-- A request that adds one. -/
def increment : Change ℕ := fun n => .ok (n + 1)

/-- Two requests, the second of which fails. -/
theorem atomic_iff_failing :
    let t : SqlOperationTransaction ℕ :=
      { autocommitState := false, requests := [increment, .error] }
    t.Atomic { off := true, commit := true, restore := true } (connect (sampleSession 5)) :=
  (atomic_iff { autocommitState := false, requests := [increment, .error] }
    { off := true, commit := true, restore := true } (connect (sampleSession 5)) rfl rfl).mpr
    (Or.inl ⟨rfl, Or.inl rfl⟩)

/-- A transaction of one request. -/
def oneIncrement : SqlOperationTransaction ℕ :=
  { autocommitState := false, requests := [increment] }

/-- **A transaction whose commit fails returns 0**, and the number is what it was. -/
theorem failed_commit_not_atomic :
    ¬oneIncrement.Atomic { off := true, commit := false, restore := true }
      (connect (sampleSession 5)) := by
  rintro ⟨ret, t', conn', hcall, hatomic, -⟩
  obtain ⟨hret, hrest⟩ := Prod.mk.inj (Option.some.inj hcall)
  obtain ⟨-, rfl⟩ := Prod.mk.inj hrest
  rcases hatomic with ⟨-, happly⟩ | ⟨hminus, -⟩
  · exact absurd (Option.some.inj happly) (show (6 : ℕ) ≠ 5 by decide)
  · exact absurd (hret.trans hminus) (show (0 : ℤ) ≠ -1 by decide)

end SqlOperationTransaction

/-! ### Autocommit along a run -/

namespace MySQLConnection

open SqlOperationTransaction

variable {conn conn' : MySQLConnection server}

/-- The member says what the server says, and has said so after every call. -/
def Agrees (conn : MySQLConnection server) : Prop :=
  conn.autoCommit = conn.mode ∧ ∀ p ∈ conn.modes, p.1 = p.2

/-- What a round of the worker is to do: a request that succeeds is committed, and a
transaction leaves the mode of the server as it was. -/
def Restores (conn conn' : MySQLConnection server) : SqlOperation σ → Prop
  | .request req => ∀ d, req conn.data = .ok d → conn'.data = d
  | .transaction _ _ => conn'.mode = conn.mode

/-- **Autocommit is restored** along a run of a worker, from the connection on: every
round does what it is to do, and the member always says what the server says. -/
def AutocommitRestored (session : server.State) (ops : List (SqlOperation σ)) : Prop :=
  (∃ conn, svc (connect session) ops = some conn) ∧
  (∀ i conn op conn', Runs.StepAt DatabaseAccess.svcStep (connect session) ops i conn op conn' →
    conn.Restores conn' op) ∧
  ∀ i conn, Runs.run DatabaseAccess.svcStep (connect session) (ops.take i) = some conn →
    conn.Agrees

/-- An operation that leaves the connection without autocommit: a transaction, if the server
does either of the two things it is told. -/
def switchesOff : SqlOperation σ → Bool
  | .request _ => false
  | .transaction _ o => o.off || o.restore

/-- What holds between two rounds of a worker, behind the operations `ops`. -/
structure Behind (ops : List (SqlOperation σ)) (conn : MySQLConnection server) : Prop where
  closed : conn.closed = false
  autoCommit : conn.autoCommit = false
  mode : conn.mode = !ops.any switchesOff

/-- **A round of the worker** keeps the member false, and no round switches autocommit on. -/
theorem Behind.of_svcStep {ops : List (SqlOperation σ)} {op : SqlOperation σ}
    (h : conn.Behind ops) (hstep : svcStep conn op = some conn') :
    conn'.Behind (ops ++ [op]) := by
  have hany : (ops ++ [op]).any switchesOff = (ops.any switchesOff || switchesOff op) := by
    rw [List.any_append, List.any_cons, List.any_nil, Bool.or_false]
  cases op with
  | request req =>
    obtain rfl := Option.some.inj hstep
    refine ⟨h.closed, h.autoCommit, ?_⟩
    rw [hany, switchesOff, Bool.or_false]
    exact sameMode_call.mode.trans h.mode
  | transaction t o =>
    have hconn := svcStep_transaction t o h.closed hstep
    have hsame := sameMode_callLoop t.rounds t.requests (modeSet conn false o.off)
    dsimp only at hconn
    rw [hconn]
    refine ⟨hsame.closed.trans h.closed, h.autoCommit, ?_⟩
    rw [mode_modeSet, mode_ended, hsame.mode, mode_modeSet, h.autoCommit, h.mode, hany, switchesOff]
    cases o.off <;> cases o.restore <;> cases ops.any switchesOff <;> rfl

theorem behind_connect (session : server.State) : (connect session).Behind [] :=
  ⟨rfl, rfl, server.autocommit_setAutocommit session true⟩

/-- **Autocommit is never restored.** The member says off when the server has just been told
on; and every later state is without autocommit from the first transaction on that the server
has heard of. From there no single update is committed. -/
theorem autocommit_never_restored (session : server.State) (ops : List (SqlOperation σ)) :
    ¬AutocommitRestored session ops ∧
      ∀ i conn op conn', Runs.StepAt DatabaseAccess.svcStep (connect session) ops i conn op conn' →
        conn.autoCommit = false ∧ conn.mode = !(ops.take i).any switchesOff ∧
          ∀ req, op = .request req → conn.mode = false → conn'.data = conn.data := by
  have hbehind : ∀ i conn,
      Runs.run DatabaseAccess.svcStep (connect session) (ops.take i) = some conn →
        conn.Behind (ops.take i) := by
    intro i
    induction i with
    | zero =>
      rintro conn hrun
      obtain rfl := Option.some.inj hrun
      exact behind_connect session
    | succ i ih =>
      intro conn hrun
      rw [List.take_add_one] at hrun ⊢
      cases hop : ops[i]? with
      | none =>
        rw [hop, Option.toList_none, List.append_nil] at hrun
        rw [Option.toList_none, List.append_nil]
        exact ih conn hrun
      | some op =>
        rw [hop, Option.toList_some] at hrun
        obtain ⟨conn₁, hrun₁, hstep⟩ := Runs.run_concat_iff.mp hrun
        exact (ih conn₁ hrun₁).of_svcStep hstep
  constructor
  · rintro ⟨-, -, hagrees⟩
    have hmode : false = true :=
      (hagrees 0 _ rfl).1.trans (server.autocommit_setAutocommit session true)
    cases hmode
  · rintro i conn op conn' ⟨hrun, -, hstep⟩
    obtain ⟨-, hmember, hmode⟩ := hbehind i conn hrun
    refine ⟨hmember, hmode, ?_⟩
    rintro req rfl hoff
    obtain rfl := Option.some.inj hstep
    exact TransactionalSession.committed_execute hoff

/-- **The first transaction switches autocommit off for good**, and the update behind it is
not committed. -/
theorem first_transaction_not_restored :
    let ops : List (SqlOperation ℕ) :=
      [.transaction oneIncrement { off := true, commit := true, restore := true },
        .request increment]
    ¬AutocommitRestored (sampleSession 0) ops ∧
      ∃ conn, svc (connect (sampleSession 0)) ops = some conn ∧ conn.mode = false ∧
        conn.data = 1 ∧ (TransactionalSession.ofData ℕ).visible conn.session = 2 := by
  intro ops
  refine ⟨?_, _, rfl, rfl, rfl, rfl⟩
  rintro ⟨-, hsteps, -⟩
  have hmode : false = true := hsteps 0 _ _ _ ⟨rfl, rfl, rfl⟩
  cases hmode

end MySQLConnection

end Morfeusz.DatabaseAccess
