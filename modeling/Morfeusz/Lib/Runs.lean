import Mathlib.Algebra.Group.Basic
import Mathlib.Data.List.Induction
import Mathlib.Data.Nat.Find
import Mathlib.Order.Basic

/-!
# Runs of a partial step function

A system is a function that takes a state and an event to the next state, or to
`none` where the event cannot happen or the program does not survive it. A run is
a list of events; `Runs.run` executes it and `Runs.StepAt` names its `i`-th step
with the states before and after.

Two rules carry the proofs about runs. `Runs.run_invariant` is induction: what
holds at the start and is kept by every step holds at the end.
`Runs.exists_stepAt_of_run` is its converse, for safety properties about history:
a property that does not hold at the start and holds at the end is brought about
by one of the steps.
-/

namespace Runs

variable {σ ε : Type*} (step : σ → ε → Option σ)

/-- The state a list of events leads to. -/
def run : σ → List ε → Option σ
  | s, [] => some s
  | s, e :: es => (step s e).bind fun s' => run s' es

/-- Step `i` of the run of `es` from `s₀` takes `s` to `s'` on the event `e`. -/
def StepAt (s₀ : σ) (es : List ε) (i : ℕ) (s : σ) (e : ε) (s' : σ) : Prop :=
  run step s₀ (es.take i) = some s ∧ es[i]? = some e ∧ step s e = some s'

variable {step} {s₀ s s' t : σ} {e : ε} {es es' : List ε} {i j : ℕ}

@[simp] theorem run_nil : run step s₀ [] = some s₀ := rfl

theorem run_cons : run step s₀ (e :: es) = (step s₀ e).bind fun s' => run step s' es := rfl

/-- The first step of a run. -/
theorem run_cons_of_step (h : step s₀ e = some s) : run step s₀ (e :: es) = run step s es := by
  rw [run_cons, h, Option.bind_some]

theorem run_singleton : run step s₀ [e] = step s₀ e := by
  rw [run_cons]
  exact Option.bind_fun_some _

theorem run_append : run step s₀ (es ++ es') = (run step s₀ es).bind fun s => run step s es' := by
  induction es generalizing s₀ with
  | nil => rfl
  | cons e es ih =>
    rw [List.cons_append, run_cons, run_cons]
    cases h : step s₀ e with
    | none => rfl
    | some s₁ => simpa using ih

theorem run_append_of_run (h : run step s₀ es = some s) :
    run step s₀ (es ++ es') = run step s es' := by
  rw [run_append, h, Option.bind_some]

/-- The last step of a run. -/
theorem run_concat (h : run step s₀ es = some s) (hs : step s e = some s') :
    run step s₀ (es ++ [e]) = some s' := by
  rw [run_append_of_run h, run_cons, hs, Option.bind_some, run_nil]

/-- Every run of one more event is a run followed by a step. -/
theorem run_concat_iff :
    run step s₀ (es ++ [e]) = some s' ↔ ∃ s, run step s₀ es = some s ∧ step s e = some s' := by
  rw [run_append, Option.bind_eq_some_iff]
  refine exists_congr fun s => and_congr_right fun _ => ?_
  rw [run_cons, Option.bind_eq_some_iff]
  simp

/-- A prefix of a run is a run. -/
theorem exists_run_take (h : run step s₀ es = some s) (i : ℕ) :
    ∃ t, run step s₀ (es.take i) = some t ∧ run step t (es.drop i) = some s := by
  rw [← List.take_append_drop i es, run_append, Option.bind_eq_some_iff] at h
  simpa using h

/-! ### Induction along a run -/

/-- **The invariant rule.** -/
theorem run_invariant {P : σ → Prop} (hstep : ∀ s e s', P s → step s e = some s' → P s')
    (h₀ : P s₀) (h : run step s₀ es = some s) : P s := by
  induction es generalizing s₀ with
  | nil =>
    obtain rfl : s₀ = s := by simpa using h
    exact h₀
  | cons e es ih =>
    rw [run_cons] at h
    obtain ⟨s₁, h₁, hrun⟩ := Option.bind_eq_some_iff.mp h
    exact ih (hstep _ _ _ h₀ h₁) hrun

/-- **The monotonicity rule**: a relation between states that is reflexive and
transitive and contains every step relates the two ends of a run. -/
theorem run_relation {R : σ → σ → Prop} (hrefl : ∀ s, R s s)
    (htrans : ∀ s t u, R s t → R t u → R s u) (hstep : ∀ s e s', step s e = some s' → R s s')
    (h : run step s₀ es = some s) : R s₀ s := by
  refine run_invariant (P := R s₀) ?_ (hrefl s₀) h
  intro t e t' ht hs
  exact htrans _ _ _ ht (hstep _ _ _ hs)

/-- **The rule of what does not come back**: a property no step brings about held at
the start of a run if it holds at its end. -/
theorem run_backward {P : σ → Prop} (hstep : ∀ s e s', step s e = some s' → P s' → P s)
    (h : run step s₀ es = some s) (hP : P s) : P s₀ := by
  by_contra h₀
  refine run_invariant (P := fun s => ¬P s) ?_ h₀ h hP
  intro t e t' ht hs ht'
  exact ht (hstep _ _ _ hs ht')

/-! ### Steps of a run -/

/-- A step of a run is a step of every run it is a prefix of. -/
theorem StepAt.lt_length (h : StepAt step s₀ es i s e s') : i < es.length :=
  (List.getElem?_eq_some_iff.mp h.2.1).1

/-- The run up to and including a step. -/
theorem StepAt.run_succ (h : StepAt step s₀ es i s e s') :
    run step s₀ (es.take (i + 1)) = some s' := by
  obtain ⟨hlt, hget⟩ := List.getElem?_eq_some_iff.mp h.2.1
  rw [List.take_succ_eq_append_getElem hlt, hget]
  exact run_concat h.1 h.2.2

/-- A step of a prefix is a step of the run. -/
theorem StepAt.of_take (h : StepAt step s₀ (es.take j) i s e s') : StepAt step s₀ es i s e s' := by
  have hi := h.lt_length
  rw [List.length_take] at hi
  refine ⟨?_, ?_, h.2.2⟩
  · have := h.1
    rwa [List.take_take, min_eq_left (by omega)] at this
  · have := h.2.1
    rwa [List.getElem?_take_of_lt (by omega)] at this

/-- A step of a run is a step of the prefixes that contain it. -/
theorem StepAt.take (h : StepAt step s₀ es i s e s') (hij : i < j) :
    StepAt step s₀ (es.take j) i s e s' := by
  refine ⟨?_, ?_, h.2.2⟩
  · rw [List.take_take, min_eq_left (by omega)]
    exact h.1
  · rw [List.getElem?_take_of_lt hij]
    exact h.2.1

/-- The last event of a prefix of a run is a step of it. -/
theorem exists_stepAt (h : run step s₀ (es.take (i + 1)) = some s') (he : es[i]? = some e) :
    ∃ s, StepAt step s₀ es i s e s' := by
  obtain ⟨hlt, rfl⟩ := List.getElem?_eq_some_iff.mp he
  rw [List.take_succ_eq_append_getElem hlt, run_concat_iff] at h
  obtain ⟨s, hs, hstep⟩ := h
  exact ⟨s, hs, he, hstep⟩

theorem exists_stepAt_of_isSome (h : (run step s₀ (es.take (i + 1))).isSome)
    (he : es[i]? = some e) :
    ∃ s s', StepAt step s₀ es i s e s' := by
  obtain ⟨s', hs'⟩ := Option.isSome_iff_exists.mp h
  obtain ⟨s, hat⟩ := exists_stepAt hs' he
  exact ⟨s, s', hat⟩

/-- The run between a step and a later state. -/
theorem StepAt.run_drop (h : StepAt step s₀ es i s e s') (hrun : run step s₀ es = some t) :
    run step s' (es.drop (i + 1)) = some t := by
  obtain ⟨u, hu, hdrop⟩ := exists_run_take hrun (i + 1)
  rw [h.run_succ] at hu
  obtain rfl := Option.some.inj hu
  exact hdrop

/-- The last step of a run of one more event. -/
theorem stepAt_concat (h : run step s₀ es = some s) (hs : step s e = some s') :
    StepAt step s₀ (es ++ [e]) es.length s e s' :=
  ⟨by rw [List.take_left' rfl, h], by simp, hs⟩

/-- A step of a run is a step of every longer one. -/
theorem StepAt.concat (h : StepAt step s₀ es i s e s') (f : ε) :
    StepAt step s₀ (es ++ [f]) i s e s' := by
  refine StepAt.of_take (j := es.length) ?_
  rwa [List.take_left' rfl]

/-- A step of a run of one more event is a step of the run, or the last. -/
theorem StepAt.of_concat {f : ε} (h : StepAt step s₀ (es ++ [f]) i s e s') :
    StepAt step s₀ es i s e s' ∨ i = es.length ∧ e = f ∧ run step s₀ es = some s := by
  have hlt := h.lt_length
  rw [List.length_append, List.length_singleton] at hlt
  rcases Nat.lt_or_ge i es.length with hi | hi
  · have hat := h.take hi
    rw [List.take_left' rfl] at hat
    exact Or.inl hat
  · obtain rfl : i = es.length := by omega
    obtain ⟨hrun, hget, -⟩ := h
    rw [List.take_left' rfl] at hrun
    refine Or.inr ⟨rfl, ?_, hrun⟩
    simpa using hget.symm

/-- **The history rule**: what does not hold at the start of a run and holds at
its end was brought about by one of its steps. -/
theorem exists_stepAt_of_run {H : σ → Prop} (h₀ : ¬H s₀) (hrun : run step s₀ es = some s)
    (hs : H s) : ∃ i t e t', StepAt step s₀ es i t e t' ∧ ¬H t ∧ H t' := by
  induction es using List.reverseRecOn generalizing s with
  | nil =>
    obtain rfl : s₀ = s := by simpa using hrun
    exact absurd hs h₀
  | append_singleton es e ih =>
    obtain ⟨t, ht, hstep⟩ := run_concat_iff.mp hrun
    by_cases hH : H t
    · obtain ⟨i, u, f, u', hat, hu, hu'⟩ := ih ht hH
      exact ⟨i, u, f, u', hat.concat e, hu, hu'⟩
    · exact ⟨es.length, t, e, s, stepAt_concat ht hstep, hH, hs⟩

/-- The history rule for a front of a run. -/
theorem exists_earlier_of_run {H : σ → Prop} (hrun : run step s₀ (es.take i) = some s) (h₀ : ¬H s₀)
    (hs : H s) : ∃ j t f t', j < i ∧ StepAt step s₀ es j t f t' ∧ ¬H t ∧ H t' := by
  obtain ⟨j, t, f, t', hat, ht, ht'⟩ := exists_stepAt_of_run h₀ hrun hs
  have hj := hat.lt_length
  rw [List.length_take] at hj
  exact ⟨j, t, f, t', by omega, hat.of_take, ht, ht'⟩

/-- The history rule for the run up to a step. -/
theorem StepAt.exists_earlier {H : σ → Prop} (h : StepAt step s₀ es i s e s') (h₀ : ¬H s₀)
    (hs : H s) : ∃ j t f t', j < i ∧ StepAt step s₀ es j t f t' ∧ ¬H t ∧ H t' :=
  exists_earlier_of_run h.1 h₀ hs

/-- An event of a front of a run is a step of it. -/
theorem exists_stepAt_of_lt (hrun : run step s₀ (es.take i) = some s) (hji : j < i)
    (he : es[j]? = some e) : ∃ t t', StepAt step s₀ es j t e t' := by
  obtain ⟨t', ht', -⟩ := exists_run_take hrun (j + 1)
  rw [List.take_take, min_eq_left (by omega)] at ht'
  obtain ⟨t, hat⟩ := exists_stepAt ht' he
  exact ⟨t, t', hat⟩

/-- The run between a step and the end of a front. -/
theorem StepAt.run_to (h : StepAt step s₀ es j s e s') (hji : j < i)
    (hrun : run step s₀ (es.take i) = some t) : ∃ es', run step s' es' = some t :=
  ⟨_, (h.take hji).run_drop hrun⟩

/-- Two steps of one run: the later one starts in a state reached from the end of
the earlier one. -/
theorem StepAt.run_between (h : StepAt step s₀ es i s e s') {u u' : σ} {f : ε}
    (h' : StepAt step s₀ es j u f u') (hij : i < j) : ∃ es', run step s' es' = some u :=
  ⟨_, (h.take hij).run_drop h'.1⟩

/-! ### The exact condition of a safety property -/

/-- Induction along the states of one run. -/
theorem run_take_induction {P : σ → Prop} (h₀ : P s₀)
    (hstep : ∀ i s e s', StepAt step s₀ es i s e s' → P s → P s') :
    ∀ i t, run step s₀ (es.take i) = some t → P t := by
  intro i
  induction i with
  | zero =>
    intro t ht
    obtain rfl : s₀ = t := by simpa using ht
    exact h₀
  | succ i ih =>
    intro t ht
    rcases Nat.lt_or_ge i es.length with hi | hi
    · obtain ⟨s, hat⟩ := exists_stepAt ht (List.getElem?_eq_getElem hi)
      exact hstep _ _ _ _ hat (ih _ hat.1)
    · rw [List.take_of_length_le (by omega)] at ht
      exact ih t (by rwa [List.take_of_length_le hi])

/-- **The rule of the guards**: a run survives if and only if each of its events meets
the guard of its step in the state it finds. -/
theorem exists_run_iff {Guard : σ → ε → Prop}
    (hguard : ∀ s e, (∃ s', step s e = some s') ↔ Guard s e) :
    (∃ s, run step s₀ es = some s) ↔
      ∀ i s e, run step s₀ (es.take i) = some s → es[i]? = some e → Guard s e := by
  constructor
  · rintro ⟨t, ht⟩ i s e hs he
    obtain ⟨u, hu, -⟩ := exists_run_take ht (i + 1)
    obtain ⟨v, hat⟩ := exists_stepAt hu he
    obtain rfl := Option.some.inj (hat.1.symm.trans hs)
    exact (hguard _ _).mp ⟨u, hat.2.2⟩
  · intro h
    induction es generalizing s₀ with
    | nil => exact ⟨s₀, rfl⟩
    | cons e es ih =>
      obtain ⟨s₁, h₁⟩ := (hguard _ _).mpr (h 0 s₀ e rfl rfl)
      rw [run_cons_of_step h₁]
      refine ih ?_
      intro i s f hs hf
      exact h (i + 1) s f (by rw [List.take_succ_cons, run_cons_of_step h₁, hs]) hf

/-- **The rule of the first bad step**: where an invariant `P` that implies `Q` is kept
by every good step, and a step from a state of `P` that is not good breaks `Q`, the
states of a run all have `Q` if and only if its steps are all good. -/
theorem forall_run_take_iff {P Q : σ → Prop} {Good : σ → ε → Prop} (hPQ : ∀ s, P s → Q s)
    (hgood : ∀ s e s', P s → step s e = some s' → Good s e → P s')
    (hbad : ∀ s e s', P s → step s e = some s' → Q s' → Good s e) (h₀ : P s₀) :
    (∀ i t, run step s₀ (es.take i) = some t → Q t) ↔
      ∀ i s e s', StepAt step s₀ es i s e s' → Good s e := by
  constructor
  · intro hQ
    -- every state is one of `P`, as long as `Q` has not been broken
    have hP : ∀ i t, run step s₀ (es.take i) = some t → P t := by
      refine run_take_induction h₀ ?_
      intro i s e s' hat hs
      exact hgood _ _ _ hs hat.2.2 (hbad _ _ _ hs hat.2.2 (hQ _ _ hat.run_succ))
    intro i s e s' hat
    exact hbad _ _ _ (hP _ _ hat.1) hat.2.2 (hQ _ _ hat.run_succ)
  · intro hG i t ht
    refine hPQ t (run_take_induction h₀ ?_ i t ht)
    intro j s e s' hat hs
    exact hgood _ _ _ hs hat.2.2 (hG _ _ _ _ hat)

/-- **The rule of the steps**: where, in the states of an invariant that every step with `A`
keeps, a step has `A` exactly when it has `B`, all steps of a run have the one if and only
if they all have the other. -/
theorem forall_stepAt_iff {P : σ → Prop} {A : σ → ε → σ → Prop} {B : σ → ε → Prop} (h₀ : P s₀)
    (hiff : ∀ s e s', P s → step s e = some s' → (A s e s' ↔ B s e))
    (hkeep : ∀ s e s', P s → step s e = some s' → A s e s' → P s') :
    (∀ i s e s', StepAt step s₀ es i s e s' → A s e s') ↔
      ∀ i s e s', StepAt step s₀ es i s e s' → B s e := by
  constructor
  · intro hA i s e s' hat
    have hP : P s := by
      refine run_take_induction h₀ ?_ i s hat.1
      intro j t f t' hat' ht
      exact hkeep _ _ _ ht hat'.2.2 (hA _ _ _ _ hat')
    exact (hiff _ _ _ hP hat.2.2).mp (hA _ _ _ _ hat)
  · intro hB i s e s' hat
    have hP : P s := by
      refine run_take_induction h₀ ?_ i s hat.1
      intro j t f t' hat' ht
      exact hkeep _ _ _ ht hat'.2.2 ((hiff _ _ _ ht hat'.2.2).mpr (hB _ _ _ _ hat'))
    exact (hiff _ _ _ hP hat.2.2).mpr (hB _ _ _ _ hat)

/-- Induction along the states behind a step of a run. -/
theorem StepAt.later_induction {P : σ → Prop} (hat : StepAt step s₀ es i s e s') (h : P s')
    (hstep : ∀ j t f t', StepAt step s₀ es j t f t' → P t → P t') (n : ℕ) {t : σ}
    (ht : run step s₀ (es.take (i + 1 + n)) = some t) : P t := by
  induction n generalizing t with
  | zero =>
    obtain rfl := Option.some.inj (hat.run_succ.symm.trans ht)
    exact h
  | succ n ih =>
    rcases Nat.lt_or_ge (i + 1 + n) es.length with hlt | hge
    · obtain ⟨u, hu⟩ := exists_stepAt ht (List.getElem?_eq_getElem hlt)
      exact hstep _ _ _ _ hu (ih hu.1)
    · rw [List.take_of_length_le (by omega)] at ht
      exact ih (by rwa [List.take_of_length_le hge])

/-- **The rule of what ends**: where, in the steps of a run, one from `H` leads to `P` if it ends
it and else stays in `H`, and `P` is for good, a run from `H` is still there if and only if none
of its steps has ended it. -/
theorem run_holds_iff {H P : σ → Prop} {Ends : σ → ε → Prop}
    (hstays : ∀ i s e s', StepAt step s₀ es i s e s' → H s → ¬Ends s e → H s')
    (hends : ∀ i s e s', StepAt step s₀ es i s e s' → H s → Ends s e → P s')
    (hgone : ∀ i s e s', StepAt step s₀ es i s e s' → P s → P s') (hdisjoint : ∀ s, P s → ¬H s)
    (h₀ : H s₀) (hrun : run step s₀ es = some s) :
    H s ↔ ∀ i t e t', StepAt step s₀ es i t e t' → ¬Ends t e := by
  have hor : ∀ i t, run step s₀ (es.take i) = some t → H t ∨ P t := by
    refine run_take_induction (Or.inl h₀) ?_
    rintro i u f u' hat (hH | hP)
    · by_cases hend : Ends u f
      · exact Or.inr (hends i u f u' hat hH hend)
      · exact Or.inl (hstays i u f u' hat hH hend)
    · exact Or.inr (hgone i u f u' hat hP)
  constructor
  · intro hH i t e t' hat hend
    -- what has ended has not come back
    have hP : P t' := by
      rcases hor i t hat.1 with hHt | hPt
      · exact hends i t e t' hat hHt hend
      · exact hgone i t e t' hat hPt
    refine hdisjoint s (hat.later_induction hP hgone es.length ?_) hH
    rwa [List.take_of_length_le (by omega)]
  · intro hnone
    have hH := run_take_induction (P := H) h₀ fun i t e t' hat hHt =>
      hstays i t e t' hat hHt (hnone i t e t' hat)
    exact hH es.length s (by rwa [List.take_length])

/-! ### The steps of a run one after the other -/

/-- Whether every step of a run is good. -/
def allSteps (step : σ → ε → Option σ) (good : σ → ε → Bool) : σ → List ε → Bool
  | _, [] => true
  | s, e :: es => match step s e with
    | none => true
    | some s' => good s e && allSteps step good s' es

theorem StepAt.of_allSteps {good : σ → ε → Bool} (hat : StepAt step s₀ es i s e s')
    (h : allSteps step good s₀ es = true) : good s e = true := by
  induction es generalizing s₀ i with
  | nil => exact absurd hat.lt_length (Nat.not_lt_zero i)
  | cons f es ih =>
    rw [allSteps] at h
    obtain ⟨hrun, hget, hstep⟩ := hat
    cases i with
    | zero =>
      obtain rfl : s₀ = s := by simpa using hrun
      obtain rfl : f = e := by simpa using hget
      rw [hstep] at h
      exact (Bool.and_eq_true_iff.mp h).1
    | succ i =>
      rw [List.take_succ_cons, run_cons] at hrun
      obtain ⟨s₁, hs₁, hrun⟩ := Option.bind_eq_some_iff.mp hrun
      rw [hs₁] at h
      exact ih ⟨hrun, hget, hstep⟩ (Bool.and_eq_true_iff.mp h).2

/-! ### What the steps of a run add up to -/

section Tally

variable {M : Type*} [AddCommMonoid M]

/-- The sum of what each step of a run is counted for. -/
def tally (step : σ → ε → Option σ) (f : σ → ε → M) : σ → List ε → M
  | _, [] => 0
  | s, e :: es => match step s e with
    | none => 0
    | some s' => f s e + tally step f s' es

variable {f a b : σ → ε → M}

theorem tally_cons_of_step (h : step s₀ e = some s) :
    tally step f s₀ (e :: es) = f s₀ e + tally step f s es := by
  rw [tally, h]

/-- The last step of a run. -/
theorem tally_concat (hrun : run step s₀ es = some s) (h : step s e = some s') :
    tally step f s₀ (es ++ [e]) = tally step f s₀ es + f s e := by
  induction es generalizing s₀ with
  | nil =>
    obtain rfl : s₀ = s := by simpa using hrun
    rw [List.nil_append, tally_cons_of_step h, tally, tally, add_zero, zero_add]
  | cons e₀ es ih =>
    obtain ⟨s₁, h₁, hrun⟩ := Option.bind_eq_some_iff.mp hrun
    rw [List.cons_append, tally_cons_of_step h₁, tally_cons_of_step h₁, ih hrun, add_assoc]

/-- Induction along a run and what it has added up to. -/
theorem tally_induction {P : M → σ → Prop} (h₀ : P 0 s₀)
    (hstep : ∀ i n s e s', StepAt step s₀ es i s e s' → P n s → P (n + f s e) s')
    (hrun : run step s₀ es = some s) : P (tally step f s₀ es) s := by
  induction es using List.reverseRecOn generalizing s with
  | nil =>
    obtain rfl : s₀ = s := by simpa using hrun
    exact h₀
  | append_singleton es e ih =>
    obtain ⟨t, ht, hlast⟩ := run_concat_iff.mp hrun
    rw [tally_concat ht hlast]
    refine hstep _ _ _ _ _ (stepAt_concat ht hlast) (ih ?_ ht)
    exact fun i n u d u' hat => hstep i n u d u' (hat.concat e)

/-- **The rule of balance**: where every step takes `a` from a number for the `b` it brings, so
does the run. -/
theorem tally_balance {g : σ → M}
    (hstep : ∀ i s e s', StepAt step s₀ es i s e s' → g s' + a s e = g s + b s e)
    (hrun : run step s₀ es = some s) :
    g s + tally step a s₀ es = g s₀ + tally step b s₀ es := by
  induction es using List.reverseRecOn generalizing s with
  | nil =>
    obtain rfl : s₀ = s := by simpa using hrun
    rfl
  | append_singleton es e ih =>
    obtain ⟨t, ht, hlast⟩ := run_concat_iff.mp hrun
    have hrest := ih (fun i u d u' hat => hstep i u d u' (hat.concat e)) ht
    have hone := hstep _ _ _ _ (stepAt_concat ht hlast)
    calc g s + tally step a s₀ (es ++ [e])
        = g s + a t e + tally step a s₀ es := by
          rw [tally_concat ht hlast, ← add_assoc, add_right_comm]
      _ = g t + tally step a s₀ es + b t e := by rw [hone, add_right_comm]
      _ = g s₀ + tally step b s₀ (es ++ [e]) := by
          rw [hrest, tally_concat ht hlast, add_assoc]

theorem tally_add : tally step (fun s e => a s e + b s e) s₀ es =
    tally step a s₀ es + tally step b s₀ es := by
  induction es generalizing s₀ with
  | nil => exact (add_zero 0).symm
  | cons e es ih =>
    rw [tally, tally, tally]
    cases step s₀ e with
    | none => exact (add_zero 0).symm
    | some s => exact (congrArg _ ih).trans (add_add_add_comm _ _ _ _)

end Tally

end Runs
