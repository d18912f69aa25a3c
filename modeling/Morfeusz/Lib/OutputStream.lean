import Mathlib.Data.List.Basic
import Mathlib.Data.List.Chain
import Mathlib.Data.List.TakeDrop
import Mathlib.Order.Basic

/-!
# Output that is taken piece by piece

A sender owes its peer a stream of symbols, which the peer takes in pieces of its own
choosing. `OutputStream.Conserved` is what it means that nothing is lost, duplicated or
altered: what was taken is a prefix of what was pushed, and what is pending is the rest.

A sender that keeps the rest of a piece in the same buffer has to move it to the front.
`OutputStream.staleTail` is that move done from one symbol too early, which is right for
no rest but a constant one (`OutputStream.staleTail_eq_drop_iff`).
-/

namespace OutputStream

variable {α : Type*} {pushed taken pending : List α}

/-! ### The stream -/

/-- What was taken and what is pending make up what was pushed. -/
structure Conserved (pushed taken pending : List α) : Prop where
  taken_prefix : taken <+: pushed
  pending_eq : pending = pushed.drop taken.length

theorem conserved_iff : Conserved pushed taken pending ↔ taken ++ pending = pushed := by
  constructor
  · rintro ⟨⟨rest, rfl⟩, rfl⟩
    rw [List.drop_left]
  · rintro rfl
    exact ⟨List.prefix_append _ _, by rw [List.drop_left]⟩

theorem conserved_nil : Conserved ([] : List α) [] [] := ⟨List.prefix_rfl, rfl⟩

/-- Pushing more makes more pending. -/
theorem Conserved.push (h : Conserved pushed taken pending) (more : List α) :
    Conserved (pushed ++ more) taken (pending ++ more) := by
  rw [conserved_iff] at h ⊢
  rw [← List.append_assoc, h]

/-- **Whatever is taken next, the stream is conserved if and only if it is the pending
symbols that are taken and left.** -/
theorem Conserved.take_iff (h : Conserved pushed taken pending) {piece rest : List α} :
    Conserved pushed (taken ++ piece) rest ↔ piece ++ rest = pending := by
  rw [conserved_iff] at h ⊢
  rw [List.append_assoc, ← h, List.append_cancel_left_eq]

/-! ### A rest that is moved from one symbol too early -/

/-- What is in front after `n` symbols were taken, when the move reads from the last of
them. -/
def staleTail (n : ℕ) (l : List α) : List α := (l.drop (n - 1)).take (l.length - n)

theorem length_staleTail {n : ℕ} {l : List α} (hn : 0 < n) :
    (staleTail n l).length = l.length - n := by
  rw [staleTail, List.length_take, List.length_drop]
  omega

/-- A list is its own shift if and only if it is constant. -/
theorem dropLast_eq_tail_iff {l : List α} : l.dropLast = l.tail ↔ l.IsChain (· = ·) := by
  induction l with
  | nil => simp
  | cons a l ih =>
    rcases l with _ | ⟨b, l⟩
    · simp
    · rw [List.dropLast_cons_cons, List.tail_cons, List.isChain_cons_cons, List.cons.injEq, ← ih,
        List.tail_cons]

/-- **The move is right if and only if all that is left is a repetition of the last
symbol that was taken.** -/
theorem staleTail_eq_drop_iff {n : ℕ} {l : List α} (hn : 0 < n) (hlt : n < l.length) :
    staleTail n l = l.drop n ↔ (l.drop (n - 1)).IsChain (· = ·) := by
  have hshift : staleTail n l = (l.drop (n - 1)).dropLast := by
    rw [staleTail, List.dropLast_eq_take, List.length_drop]
    congr 1
    omega
  have hdrop : l.drop n = (l.drop (n - 1)).tail := by
    rw [List.tail_drop]
    congr 1
    omega
  rw [hshift, hdrop, dropLast_eq_tail_iff]

/-- The same for what was taken and what is offered next, in front of the rest. -/
theorem take_append_staleTail_iff {n : ℕ} {l : List α} (hn : 0 < n) (hlt : n < l.length)
    (rest : List α) :
    l.take n ++ (staleTail n l ++ rest) = l ++ rest ↔ (l.drop (n - 1)).IsChain (· = ·) := by
  have hsplit : l ++ rest = l.take n ++ (l.drop n ++ rest) := by
    rw [← List.append_assoc, List.take_append_drop]
  rw [hsplit, List.append_cancel_left_eq, List.append_cancel_right_eq,
    staleTail_eq_drop_iff hn hlt]

end OutputStream
