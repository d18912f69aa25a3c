import Mathlib.Data.Nat.Notation

/-!
# Sessions with transactions

A session on a store that has transactions: what is committed, what the session sees of
it, and whether each change is committed at once. A structure of operations and of the
laws they obey, so that what is proved with them holds of every store there is;
`TransactionalSession.ofData` is one of them.

With autocommit off, nothing that is executed is committed
(`TransactionalSession.committed_execute`), and it is the next `commit` or `rollback`
that decides about all of it. A server may fail to commit what it is told to; then nothing
is committed.
-/

/-- A change of the data that may fail; then it leaves data too. -/
abbrev Change (σ : Type) := σ → Except σ σ

/-- The data a list of changes makes, if none of them fails. -/
def applyAll {σ : Type} (ops : List (Change σ)) (d : σ) : Option σ :=
  ops.foldlM (fun d op => (op d).toOption) d

theorem applyAll_append {σ : Type} (ops ops' : List (Change σ)) (d : σ) :
    applyAll (ops ++ ops') d = (applyAll ops d).bind (applyAll ops') :=
  List.foldlM_append

/-- What succeeds as a whole succeeds as far as it goes. -/
theorem isSome_applyAll_take {σ : Type} {ops : List (Change σ)} {d : σ}
    (h : (applyAll ops d).isSome = true) (k : ℕ) : (applyAll (ops.take k) d).isSome = true := by
  rw [← List.take_append_drop k ops, applyAll_append] at h
  cases htake : applyAll (ops.take k) d with
  | some d' => rfl
  | none =>
    rw [htake] at h
    cases h

/-- The data a list of changes leaves, up to the first that fails and with what that one
leaves. -/
def executeAll {σ : Type} : List (Change σ) → σ → σ
  | [], d => d
  | op :: ops, d =>
    match op d with
    | .ok d => executeAll ops d
    | .error d => d

/-- A session on a store with data of type `σ`. -/
structure TransactionalSession (σ : Type) where
  State : Type
  committed : State → σ
  /-- What a statement of the session reads. -/
  visible : State → σ
  autocommit : State → Bool
  setAutocommit : State → Bool → State
  /-- A statement has changed the data. -/
  store : State → σ → State
  /-- The session is told to commit, and the server does or does not. -/
  commit : State → Bool → State
  rollback : State → State
  visible_of_autocommit : ∀ s, autocommit s = true → visible s = committed s
  autocommit_setAutocommit : ∀ s b, autocommit (setAutocommit s b) = b
  visible_setAutocommit : ∀ s b, visible (setAutocommit s b) = visible s
  committed_setAutocommit_false : ∀ s, committed (setAutocommit s false) = committed s
  autocommit_store : ∀ s d, autocommit (store s d) = autocommit s
  visible_store : ∀ s d, visible (store s d) = d
  committed_store : ∀ s d, autocommit s = false → committed (store s d) = committed s
  autocommit_commit : ∀ s done, autocommit (commit s done) = autocommit s
  committed_commit : ∀ s, committed (commit s true) = visible s
  committed_commit_false : ∀ s, committed (commit s false) = committed s
  autocommit_rollback : ∀ s, autocommit (rollback s) = autocommit s
  committed_rollback : ∀ s, committed (rollback s) = committed s

namespace TransactionalSession

variable {σ : Type} (server : TransactionalSession σ)

/-- A statement is executed: whether it succeeded, and the session behind it. -/
def execute (s : server.State) (op : Change σ) : Bool × server.State :=
  match op (server.visible s) with
  | .ok d => (true, server.store s d)
  | .error d => (false, server.store s d)

variable {server} {s : server.State} {op : Change σ}

theorem autocommit_execute : server.autocommit (server.execute s op).2 = server.autocommit s := by
  rw [execute]
  split
  · exact server.autocommit_store _ _
  · exact server.autocommit_store _ _

/-- **Without autocommit nothing is committed.** -/
theorem committed_execute (h : server.autocommit s = false) :
    server.committed (server.execute s op).2 = server.committed s := by
  rw [execute]
  split
  · exact server.committed_store _ _ h
  · exact server.committed_store _ _ h

/-- What the session sees behind a statement that has succeeded. -/
theorem execute_of_ok {d : σ} (h : op (server.visible s) = .ok d) :
    (server.execute s op).1 = true ∧ server.visible (server.execute s op).2 = d := by
  rw [execute, h]
  exact ⟨rfl, server.visible_store s d⟩

theorem execute_of_error {d : σ} (h : op (server.visible s) = .error d) :
    (server.execute s op).1 = false ∧ server.visible (server.execute s op).2 = d := by
  rw [execute, h]
  exact ⟨rfl, server.visible_store s d⟩

/-! ### A store -/

/-- A store of data of one type: what is committed, and what a transaction has made of
it. -/
structure Data (σ : Type) where
  committed : σ
  work : Option σ
  autocommit : Bool

/-- What the session sees. -/
def Data.visible {σ : Type} (s : Data σ) : σ :=
  if s.autocommit then s.committed else s.work.getD s.committed

/-- The sessions on a store of data. -/
def ofData (σ : Type) : TransactionalSession σ where
  State := Data σ
  committed := Data.committed
  visible := Data.visible
  autocommit := Data.autocommit
  setAutocommit s b :=
    if b then { committed := s.visible, work := none, autocommit := true }
    else { s with work := some s.visible, autocommit := false }
  store s d := if s.autocommit then { s with committed := d } else { s with work := some d }
  commit s done := if done then { s with committed := s.visible, work := none } else s
  rollback s := { s with work := none }
  visible_of_autocommit s h := if_pos h
  autocommit_setAutocommit s b := by cases b <;> rfl
  visible_setAutocommit s b := by cases b <;> rfl
  committed_setAutocommit_false _ := rfl
  autocommit_store s d := by split <;> rfl
  visible_store s d := by
    split
    · next h => exact if_pos h
    · next h => exact if_neg h
  committed_store s d h := by rw [if_neg (by simp [h])]
  autocommit_commit s done := by cases done <;> rfl
  committed_commit _ := rfl
  committed_commit_false _ := rfl
  autocommit_rollback _ := rfl
  committed_rollback _ := rfl

end TransactionalSession
