import Mathlib.Algebra.Order.Ring.Nat
import Mathlib.Data.UInt

/-!
# The values of a counter that wraps around

A counter of thirty-two bits that has started at some value and was increased some number
of times has given out a range of values, which may wrap around at zero. Two such ranges
have a value in common or they have not, and which it is can be told from where they start
and how long they are: neither may reach the start of the other
(`CounterRange.apart_iff`).
-/

/-- The values `first`, `first + 1`, … of which there are `count`. -/
structure CounterRange where
  first : UInt32
  count : ℕ
  deriving DecidableEq

namespace CounterRange

/-- A value of the range. -/
def Mem (r : CounterRange) (v : UInt32) : Prop := (v - r.first).toNat < r.count

instance (r : CounterRange) (v : UInt32) : Decidable (r.Mem v) :=
  inferInstanceAs (Decidable (_ < _))

/-- The value behind the range, where the counter stands. -/
def next (r : CounterRange) : UInt32 := r.first + UInt32.ofNat r.count

/-- The range with one value more. -/
def succ (r : CounterRange) : CounterRange := { r with count := r.count + 1 }

/-- No value has been given out twice. -/
def Bounded (r : CounterRange) : Prop := r.count ≤ 2 ^ 32

instance (r : CounterRange) : Decidable r.Bounded := inferInstanceAs (Decidable (_ ≤ _))

/-- Neither range reaches the start of the other. -/
def Apart (r t : CounterRange) : Prop :=
  r.count = 0 ∨ t.count = 0 ∨
    r.count ≤ (t.first - r.first).toNat ∧ t.count ≤ (r.first - t.first).toNat

instance (r t : CounterRange) : Decidable (r.Apart t) := inferInstanceAs (Decidable (_ ∨ _ ∨ _))

variable {r t : CounterRange} {v : UInt32}

theorem not_mem_of_count (h : r.count = 0) : ¬r.Mem v := by
  rw [Mem, h]
  exact Nat.not_lt_zero _

theorem mem_first (h : 0 < r.count) : r.Mem r.first := by
  rw [Mem, UInt32.sub_self]
  exact h

theorem toNat_next (r : CounterRange) : r.next.toNat = (r.first.toNat + r.count) % 2 ^ 32 := by
  rw [next, UInt32.toNat_add, UInt32.toNat_ofNat']
  omega

/-- What the next value adds. -/
theorem mem_succ : r.succ.Mem v ↔ r.Mem v ∨ v = r.next := by
  have hv := v.toNat_lt
  have hfirst := r.first.toNat_lt
  rw [← UInt32.toNat_inj, toNat_next, Mem, Mem, succ, UInt32.toNat_sub]
  dsimp only
  omega

/-- The next value is new as long as the counter has not come round. -/
theorem mem_next_iff (h : r.Bounded) : ¬r.Mem r.next ↔ r.succ.Bounded := by
  have hfirst := r.first.toNat_lt
  have hcount : r.count ≤ 2 ^ 32 := h
  rw [Mem, UInt32.toNat_sub, toNat_next, Bounded, succ]
  dsimp only
  omega

theorem Apart.symm (h : r.Apart t) : t.Apart r := by
  rcases h with h | h | ⟨h, h'⟩
  · exact Or.inr (Or.inl h)
  · exact Or.inl h
  · exact Or.inr (Or.inr ⟨h', h⟩)

/-- **Two ranges have no value in common** exactly where neither reaches the start of the
other. -/
theorem apart_iff (hr : r.Bounded) (ht : t.Bounded) :
    r.Apart t ↔ ∀ v, r.Mem v → ¬t.Mem v := by
  have hr' : r.count ≤ 2 ^ 32 := hr
  have ht' : t.count ≤ 2 ^ 32 := ht
  have hrf := r.first.toNat_lt
  have htf := t.first.toNat_lt
  constructor
  · rintro (h | h | ⟨h, h'⟩) v hv hv'
    · exact not_mem_of_count h hv
    · exact not_mem_of_count h hv'
    · have := v.toNat_lt
      rw [Mem, UInt32.toNat_sub] at hv hv'
      rw [UInt32.toNat_sub] at h h'
      omega
  · intro hdisjoint
    rcases Nat.eq_zero_or_pos r.count with h | hpos
    · exact Or.inl h
    · rcases Nat.eq_zero_or_pos t.count with h' | hpos'
      · exact Or.inr (Or.inl h')
      · -- the first value of either is not one of the other
        exact Or.inr (Or.inr ⟨not_lt.mp fun h => hdisjoint _ h (mem_first hpos'),
          not_lt.mp (hdisjoint _ (mem_first hpos))⟩)

end CounterRange
