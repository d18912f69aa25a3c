import Mathlib.Data.Nat.Notation

/-!
# What the connection of a worker reads

A worker has one connection to the database, and executes on it whatever it takes out of the
queue. As long as the session has autocommit, a query reads what is committed. The destructor of
`SqlOperationTransaction` gives it what the member `autoCommit` said before, and that the
constructor of the connection makes false: so from the first transaction on the session has no
autocommit, its next query opens a snapshot of all the tables, and every query after it reads
the same snapshot until a transaction of the worker has ended.

What is true of the tables whenever a query may open a snapshot is true of what every query reads
(`Morfeusz.WorkerSession.Sees`).
-/

namespace Morfeusz

/-- The connection of a worker, to a database with tables of type `τ`. -/
structure WorkerSession (τ : Type) where
  /-- The member of the connection. -/
  autoCommit : Bool
  /-- What the database server was told. -/
  session : Bool
  /-- The snapshot of a session without autocommit. -/
  view : Option τ

namespace WorkerSession

variable {τ : Type}

/-- A connection that was just made. -/
def init (autoCommit : Bool) : WorkerSession τ := { autoCommit, session := true, view := none }

/-- The tables a query reads. -/
def visible (worker : WorkerSession τ) (committed : τ) : τ := worker.view.getD committed

/-- A query was executed. -/
def queried (worker : WorkerSession τ) (committed : τ) : WorkerSession τ :=
  { worker with view := if worker.session then none else some (worker.visible committed) }

/-- A transaction was executed, and the autocommit restored. With the transaction the snapshot
ends, if the server has committed it or rolled it back, or is told to commit automatically. -/
def transacted (worker : WorkerSession τ) (ended : Bool) : WorkerSession τ :=
  { worker with
    session := worker.autoCommit
    view := if ended || worker.autoCommit then none else worker.view }

/-- It reads a snapshot, until a transaction has ended. -/
structure Reads (worker : WorkerSession τ) (v : τ) : Prop where
  autoCommit : worker.autoCommit = false
  session : worker.session = false
  view : worker.view = some v

/-- What the snapshot has, if there is one, is so. -/
def Sees (worker : WorkerSession τ) (P : τ → Prop) : Prop := ∀ v ∈ worker.view, P v

variable {worker : WorkerSession τ} {committed v : τ} {P Q : τ → Prop}

theorem Reads.visible (h : worker.Reads v) : worker.visible committed = v := by
  rw [WorkerSession.visible, h.view, Option.getD_some]

theorem Reads.queried (h : worker.Reads v) : (worker.queried committed).Reads v := by
  rw [WorkerSession.queried, h.session, h.visible]
  exact ⟨h.autoCommit, rfl, rfl⟩

theorem Reads.transacted (h : worker.Reads v) : (worker.transacted false).Reads v := by
  rw [WorkerSession.transacted, h.autoCommit]
  exact ⟨rfl, rfl, h.view⟩

theorem sees_of_view (h : worker.view = none) : worker.Sees P := by
  intro v hv
  rw [h] at hv
  cases hv


theorem sees_init (autoCommit : Bool) : (init autoCommit : WorkerSession τ).Sees P :=
  sees_of_view rfl

theorem Sees.imp (h : worker.Sees P) (himp : ∀ v, P v → Q v) : worker.Sees Q :=
  fun v hv => himp v (h v hv)

/-- **What is so of the snapshot and of the tables is so of what a query reads.** -/
theorem Sees.visible (h : worker.Sees P) (hcommitted : P committed) :
    P (worker.visible committed) := by
  rw [WorkerSession.visible]
  cases hview : worker.view with
  | none => exact hcommitted
  | some v => exact h v hview

/-- A transaction that has ended leaves no snapshot. -/
theorem sees_transacted : (worker.transacted true).Sees P := sees_of_view rfl

/-- One that has not leaves the one there was. -/
theorem Sees.transacted (h : worker.Sees P) (ended : Bool) : (worker.transacted ended).Sees P := by
  intro v hv
  rw [WorkerSession.transacted] at hv
  split at hv
  · cases hv
  · exact h v hv

/-- It stays so of the snapshot. -/
theorem Sees.queried (h : worker.Sees P) (hcommitted : P committed) :
    (worker.queried committed).Sees P := by
  intro v hv
  rw [WorkerSession.queried] at hv
  split at hv
  · cases hv
  · rw [← Option.some.inj hv]
    exact h.visible hcommitted

end WorkerSession

end Morfeusz
