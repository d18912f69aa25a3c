import Mathlib.Data.List.Induction
import Mathlib.Data.List.TakeWhile

/-!
# Queues with priorities

A queue that hands out its elements by priority, and those of one priority in the order they
came in: an element is put behind all that are at least as urgent as it is. What is least
urgent of all therefore goes to the end, and stays behind everything that is put in with it.
-/

namespace PriorityQueue

variable {α : Type*} {prio : α → ℕ} {p : α → Bool} {queue xs : List α} {x : α}

/-- An element is put behind those that are at least as urgent. -/
def enqueue (prio : α → ℕ) (queue : List α) (x : α) : List α :=
  queue.takeWhile (fun y => prio x ≤ prio y) ++ x :: queue.dropWhile (fun y => prio x ≤ prio y)

/-- Elements are put in one after the other. -/
def enqueueAll (prio : α → ℕ) (queue xs : List α) : List α := xs.foldl (enqueue prio) queue

/-- The least urgent element goes to the end. -/
theorem enqueue_of_least (h : ∀ y, prio x ≤ prio y) : enqueue prio queue x = queue ++ [x] := by
  have hall : ∀ y ∈ queue, decide (prio x ≤ prio y) = true := fun y _ => decide_eq_true (h y)
  rw [enqueue, List.takeWhile_eq_self_iff.mpr hall, List.dropWhile_eq_nil_iff.mpr hall]

/-- What is put in does not disturb the others. -/
theorem filter_enqueue_of_neg (h : p x = false) :
    (enqueue prio queue x).filter p = queue.filter p := by
  rw [enqueue, List.filter_append, List.filter_cons_of_neg (by simp [h]), ← List.filter_append,
    List.takeWhile_append_dropWhile]

theorem filter_enqueueAll_of_nil (h : xs.filter p = []) :
    (enqueueAll prio queue xs).filter p = queue.filter p := by
  induction xs generalizing queue with
  | nil => rfl
  | cons x xs ih =>
    have hall := List.filter_eq_nil_iff.mp h
    have hx : p x = false := by simpa using hall x List.mem_cons_self
    have hxs : xs.filter p = [] :=
      List.filter_eq_nil_iff.mpr fun y hy => hall y (List.mem_cons_of_mem x hy)
    exact (ih hxs).trans (filter_enqueue_of_neg hx)

/-- **What is put in last, and is least urgent, is last.** -/
theorem getLast?_filter_enqueueAll (h : (xs.filter p).getLast? = some x)
    (hleast : ∀ y, prio x ≤ prio y) : ((enqueueAll prio queue xs).filter p).getLast? = some x := by
  induction xs using List.reverseRecOn with
  | nil => cases h
  | append_singleton xs y ih =>
    have hconcat : enqueueAll prio queue (xs ++ [y]) = enqueue prio (enqueueAll prio queue xs) y :=
      List.foldl_append
    rw [hconcat]
    rw [List.filter_append] at h
    cases hy : p y with
    | false =>
      rw [List.filter_cons_of_neg (by simp [hy]), List.filter_nil, List.append_nil] at h
      rw [filter_enqueue_of_neg hy]
      exact ih h
    | true =>
      rw [List.filter_cons_of_pos hy, List.filter_nil, List.getLast?_concat] at h
      obtain rfl := Option.some.inj h
      rw [enqueue_of_least hleast, List.filter_append, List.filter_cons_of_pos hy, List.filter_nil,
        List.getLast?_concat]

end PriorityQueue
