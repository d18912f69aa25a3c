import Morfeusz.Lib.Runs

/-!
# Flags that stand for a registration

A writer with a queue is woken by a dispatcher as long as it is registered with it. It
does not ask the dispatcher whether it is, but keeps a flag of its own: it registers when
it queues something with the flag down, and takes the registration back when the queue has
run empty. The dispatcher drops the registration by itself where a call of the writer is
refused.

The flag is right as long as nothing is refused. A refusal leaves it up, and then nobody
registers any more: what is queued is stranded. So nothing is ever stranded if and only if
nothing is refused (`Wakeup.never_stranded_iff`).
-/

namespace Wakeup

/-- What there is to know of a writer and its dispatcher. -/
structure Writer where
  /-- Something is queued. -/
  waiting : Bool
  /-- The flag of the writer. -/
  active : Bool
  registered : Bool
  isOpen : Bool

namespace Writer

/-- Something is queued: the writer registers if its flag is down, and the dispatcher has
it if it is open. -/
def push (w : Writer) : Writer :=
  { w with
    waiting := true
    active := true
    registered := w.registered || (!w.active && w.isOpen) }

/-- The queue has run empty. -/
def drained (w : Writer) : Writer :=
  { w with waiting := false, active := false, registered := false }

/-- Something is queued on an open writer that nobody will wake. -/
def Stranded (w : Writer) : Prop :=
  w.isOpen = true ∧ w.waiting = true ∧ w.registered = false

/-- The flag of an open writer says what the dispatcher knows, and is up as long as
something is queued. -/
def InStep (w : Writer) : Prop :=
  w.isOpen = true → w.active = w.registered ∧ (w.waiting = true → w.active = true)

/-- What a writer does where nothing is refused. What becomes of it once it is closed is
nobody's concern. -/
inductive Moves : Writer → Writer → Prop
  | push (w : Writer) : Moves w w.push
  | keep (w : Writer) : Moves w w
  | drained (w : Writer) : Moves w w.drained
  | closed {w w' : Writer} (h : w'.isOpen = false) : Moves w w'

variable {w w' : Writer}

theorem InStep.not_stranded (h : w.InStep) : ¬w.Stranded := by
  rintro ⟨hopen, hwaiting, hregistered⟩
  obtain ⟨heq, hactive⟩ := h hopen
  rw [hactive hwaiting, hregistered] at heq
  cases heq

theorem InStep.push (h : w.InStep) : w.push.InStep := by
  intro hopen
  have hisOpen : w.isOpen = true := hopen
  have heq := (h hisOpen).1
  refine ⟨?_, fun _ => rfl⟩
  rw [Writer.push, hisOpen, Bool.and_true, ← heq, Bool.or_not_self]

/-- **One move** keeps the flag in step with the dispatcher. -/
theorem InStep.moves (h : w.InStep) (hmoves : Moves w w') : w'.InStep := by
  cases hmoves with
  | push => exact h.push
  | keep => exact h
  | drained => exact fun _ => ⟨rfl, fun hwaiting => nomatch hwaiting⟩
  | closed hclosed =>
    intro hopen
    rw [hclosed] at hopen
    cases hopen

end Writer

open Writer

variable {σ ε : Type*} {step : σ → ε → Option σ} {s₀ : σ} {es : List ε}

/-- **The rule of the flag**: where every step that is no refusal is a move of the writer,
and every refusal strands what is queued, nothing is stranded in a run if and only if
nothing is refused in it. -/
theorem never_stranded_iff {view : σ → Writer} {Refusal : σ → ε → Prop}
    (hmoves : ∀ s e s', step s e = some s' → ¬Refusal s e → Moves (view s) (view s'))
    (hrefusal : ∀ s e s', (view s).InStep → step s e = some s' → Refusal s e →
      (view s').Stranded) (h₀ : (view s₀).InStep) :
    (∀ i t, Runs.run step s₀ (es.take i) = some t → ¬(view t).Stranded) ↔
      ∀ i s e s', Runs.StepAt step s₀ es i s e s' → ¬Refusal s e := by
  refine Runs.forall_run_take_iff (P := fun s => (view s).InStep)
    (fun s h => h.not_stranded) ?_ ?_ h₀
  · intro s e s' h hstep hgood
    exact h.moves (hmoves s e s' hstep hgood)
  · intro s e s' h hstep hkept hrefused
    exact hkept (hrefusal s e s' h hstep hrefused)

end Wakeup
