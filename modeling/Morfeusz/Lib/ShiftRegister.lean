import Mathlib.Logic.Function.Iterate
import Mathlib.Data.List.FinRange

/-!
# Recurrences of fixed depth, and their computation in place

A shift register of depth `n` holds a window of `n` elements. One shift drops the first
element and puts behind the last one a new element made of the first two and of the `m`-th:
`ShiftRegister.shift`. The elements that come to stand first are its stream, and the stream
satisfies the recurrence (`ShiftRegister.stream_add`).

Programs do not shift. They hold the window in an array and overwrite its elements one after
another, from the first to the last: `ShiftRegister.advance`. Halfway through, the array holds
elements of two windows, and what it holds is all there is to know of it
(`ShiftRegister.Holds`): when the last element is overwritten, the array holds the window `n`
shifts later (`ShiftRegister.Holds.wrap`).
-/

namespace ShiftRegister

variable {α : Type*}

/-! ### The stream of a window -/

section Stream

variable (f : α → α → α → α) (n m : ℕ) (w : ℕ → α)

/-- The window one element later. -/
def shift : ℕ → α := fun i => if i + 1 = n then f (w 0) (w 1) (w m) else w (i + 1)

/-- The elements that come to stand first. -/
def stream (k : ℕ) : α := (shift f n m)^[k] w 0

variable {f n m w}

/-- The window after `k` shifts is a part of the stream. -/
theorem iterate_shift_apply (k : ℕ) {i : ℕ} (hi : i < n) :
    (shift f n m)^[k] w i = stream f n m w (k + i) := by
  induction i generalizing k with
  | zero => rfl
  | succ i ih =>
    have hshift : (shift f n m)^[k + 1] w i = (shift f n m)^[k] w (i + 1) := by
      rw [Function.iterate_succ_apply', shift, if_neg (Nat.ne_of_lt hi)]
    rw [← hshift, ih (k + 1) (by omega), Nat.add_right_comm, Nat.add_assoc]

/-- The stream begins with the window. -/
theorem stream_of_lt {i : ℕ} (hi : i < n) : stream f n m w i = w i := by
  rw [← Nat.zero_add i, ← iterate_shift_apply 0 hi, Nat.zero_add]
  rfl

/-- **The recurrence.** -/
theorem stream_add (hn : 1 < n) (hm : m < n) (k : ℕ) :
    stream f n m w (k + n) =
      f (stream f n m w k) (stream f n m w (k + 1)) (stream f n m w (k + m)) := by
  have hlast : (shift f n m)^[k + 1] w (n - 1) = stream f n m w (k + n) := by
    rw [iterate_shift_apply (k + 1) (by omega)]
    exact congrArg _ (by omega)
  rw [← hlast, Function.iterate_succ_apply', shift, if_pos (by omega),
    iterate_shift_apply k (by omega), iterate_shift_apply k hn, iterate_shift_apply k hm]
  rfl

/-- What the window has and the recurrence keeps, the stream has. -/
theorem stream_mem {P : α → Prop} (hn : 1 < n) (hm : m < n) (hw : ∀ i < n, P (w i))
    (hf : ∀ a b c, P a → P b → P c → P (f a b c)) (k : ℕ) : P (stream f n m w k) := by
  induction k using Nat.strongRecOn with
  | _ k ih =>
    rcases Nat.lt_or_ge k n with hlt | hge
    · rw [stream_of_lt hlt]
      exact hw k hlt
    · obtain ⟨j, rfl⟩ := Nat.exists_eq_add_of_le' hge
      rw [stream_add hn hm]
      exact hf _ _ _ (ih _ (by omega)) (ih _ (by omega)) (ih _ (by omega))

end Stream

/-! ### Overwriting the window -/

section InPlace

variable {f : α → α → α → α} {n m : ℕ} {x : ℕ → α} {v : Vector α n} {base k : ℕ}

/-- The element `k` of the array, overwritten. Past its end the array goes on at its
beginning. -/
def advance (f : α → α → α → α) (m : ℕ) (v : Vector α n) (k : Fin n) : Vector α n :=
  v.set k (f v[k] (v.get ⟨(k + 1) % n, Nat.mod_lt _ k.pos⟩)
    (v.get ⟨(k + m) % n, Nat.mod_lt _ k.pos⟩))

/-- The array holds the window that begins at `base`, with the first `k` elements those of
the window after it. -/
def Holds (x : ℕ → α) (base k : ℕ) (v : Vector α n) : Prop :=
  ∀ (i : ℕ) (hi : i < n), v[i] = x (base + i + if i < k then n else 0)

/-- **One element is overwritten.** -/
theorem Holds.advance (hx : ∀ k, x (k + n) = f (x k) (x (k + 1)) (x (k + m))) (hn : 1 < n)
    (hm : m < n) (h : Holds x base k v) (hk : k < n) :
    Holds x base (k + 1) (ShiftRegister.advance f m v ⟨k, hk⟩) := by
  have hhere : v[k] = x (base + k) := by
    rw [h k hk, if_neg (Nat.lt_irrefl k), Nat.add_zero]
  -- the last element has the first of the next window behind it
  have hnext : v.get ⟨(k + 1) % n, Nat.mod_lt _ (by omega)⟩ = x (base + k + 1) := by
    refine (h _ (Nat.mod_lt _ (by omega))).trans ?_
    rcases Nat.lt_or_ge (k + 1) n with hlt | hge
    · rw [Nat.mod_eq_of_lt hlt, if_neg (by omega)]
      rfl
    · obtain rfl : n = k + 1 := by omega
      rw [Nat.mod_self, if_pos (by omega)]
      exact congrArg x (by omega)
  have htap : v.get ⟨(k + m) % n, Nat.mod_lt _ (by omega)⟩ = x (base + k + m) := by
    refine (h _ (Nat.mod_lt _ (by omega))).trans ?_
    rcases Nat.lt_or_ge (k + m) n with hlt | hge
    · rw [Nat.mod_eq_of_lt hlt]
      rcases Nat.eq_zero_or_pos m with rfl | hpos
      · rw [if_neg (by omega)]
        rfl
      · rw [if_neg (by omega)]
        exact congrArg x (by omega)
    · rw [Nat.mod_eq_sub_mod hge, Nat.mod_eq_of_lt (by omega), if_pos (by omega)]
      exact congrArg x (by omega)
  intro i hi
  rw [ShiftRegister.advance, Vector.getElem_set]
  split
  · next heq =>
    obtain rfl : k = i := heq
    rw [if_pos (Nat.lt_succ_self k), hx]
    simp only [Fin.getElem_fin]
    rw [hhere, hnext, htap]
  · next hne =>
    have hiff : i < k ↔ i < k + 1 := by
      have : i ≠ k := fun heq => hne heq.symm
      omega
    rw [h i hi]
    simp only [hiff]

/-- Where all elements are overwritten, the array holds the next window. -/
theorem Holds.wrap (h : Holds x base n v) : Holds x (base + n) 0 v := by
  intro i hi
  rw [h i hi, if_pos hi, if_neg (Nat.not_lt_zero i)]
  exact congrArg x (by omega)

/-- What holds after each round of a loop holds after the loop. -/
theorem foldl_finRange {β : Type*} {P : ℕ → β → Prop} {count : ℕ} {body : β → Fin count → β}
    (hstep : ∀ b (i : Fin count), P i b → P (i + 1) (body b i)) {b : β} (h : P 0 b) :
    P count ((List.finRange count).foldl body b) := by
  have hall : ∀ c, c ≤ count → P c (((List.finRange count).take c).foldl body b) := by
    intro c hc
    induction c with
    | zero => exact h
    | succ c ih =>
      rw [List.take_succ_eq_append_getElem (by simpa using Nat.lt_of_succ_le hc), List.foldl_append,
        List.foldl_cons, List.foldl_nil, List.getElem_finRange]
      exact hstep _ ⟨c, hc⟩ (ih (by omega))
  have hlast := hall count (Nat.le_refl count)
  rwa [List.take_of_length_le (by rw [List.length_finRange])] at hlast

/-- A loop that overwrites the elements from `a` on. -/
theorem Holds.foldl (hx : ∀ k, x (k + n) = f (x k) (x (k + 1)) (x (k + m))) (hn : 1 < n)
    (hm : m < n) {a count : ℕ} (hcount : a + count ≤ n)
    {body : Vector α n → Fin count → Vector α n}
    (hbody : ∀ v i, body v i = ShiftRegister.advance f m v ⟨a + i, by omega⟩)
    (h : Holds x base a v) : Holds x base (a + count) ((List.finRange count).foldl body v) := by
  refine foldl_finRange (P := fun c v => Holds x base (a + c) v) ?_ h
  intro v i hv
  rw [hbody]
  exact hv.advance hx hn hm (by omega)

end InPlace

end ShiftRegister
