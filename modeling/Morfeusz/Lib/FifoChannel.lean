import Morfeusz.Lib.Runs

/-!
# A channel that keeps the order

A sender and a receiver, each a partial step function, and between them a channel that
delivers the messages one by one and in the order in which they were sent. The sender
keeps the list of what it has sent, so the channel is no more than the number of messages
that were delivered.

The sender does not see the receiver, and what it does in a run of both is a run of its
own (`FifoChannel.run_sender`). What the receiver makes of a message lasts until the next
one is delivered, where nothing else touches it (`FifoChannel.last_delivered`). And
whatever was sent can be delivered (`FifoChannel.run_deliver`).
-/

namespace FifoChannel

variable {σ ρ α β γ μ : Type*}

/-- The two sides, and how many messages have been delivered. -/
structure State (σ ρ : Type*) where
  sender : σ
  delivered : ℕ
  receiver : ρ

/-- A step of the sender, one of the receiver, or a delivery. -/
inductive Event (α β γ : Type*)
  | send (e : α)
  | other (e : β)
  /-- With what the receiver may find by chance. -/
  | deliver (g : γ)

/-- The step of the sender in an event. -/
def Event.send? : Event α β γ → Option α
  | .send e => some e
  | .other _ => none
  | .deliver _ => none

variable (stepSender : σ → α → Option σ) (sent : σ → List μ)
  (other : ρ → β → Option ρ) (receive : γ → ρ → μ → Option ρ)

/-- One step of the two and the channel. -/
def step (s : State σ ρ) : Event α β γ → Option (State σ ρ)
  | .send e => (stepSender s.sender e).map fun sender => { s with sender }
  | .other e => (other s.receiver e).map fun receiver => { s with receiver }
  | .deliver g =>
    match (sent s.sender)[s.delivered]? with
    | none => none
    | some m =>
      (receive g s.receiver m).map fun receiver =>
        { s with delivered := s.delivered + 1, receiver }

variable {stepSender sent other receive} {s₀ s s' : State σ ρ} {es : List (Event α β γ)}

/-- **What the sender does** in a run of both. -/
theorem run_sender (h : Runs.run (step stepSender sent other receive) s₀ es = some s) :
    Runs.run stepSender s₀.sender (es.filterMap Event.send?) = some s.sender := by
  induction es generalizing s₀ with
  | nil =>
    obtain rfl : s₀ = s := by simpa using h
    rfl
  | cons e es ih =>
    rw [Runs.run_cons] at h
    obtain ⟨s₁, hstep, hrun⟩ := Option.bind_eq_some_iff.mp h
    rcases e with e | e | g
    · obtain ⟨sender, hsender, rfl⟩ := Option.map_eq_some_iff.mp hstep
      have hhead : (Event.send e :: es : List (Event α β γ)).filterMap Event.send? =
          e :: es.filterMap Event.send? := List.filterMap_cons_some rfl
      rw [hhead, Runs.run_cons_of_step hsender]
      exact ih hrun
    · obtain ⟨receiver, -, rfl⟩ := Option.map_eq_some_iff.mp hstep
      rw [List.filterMap_cons_none rfl]
      have hsender := ih hrun
      exact hsender
    · rw [step] at hstep
      split at hstep
      · cases hstep
      · obtain ⟨receiver, -, rfl⟩ := Option.map_eq_some_iff.mp hstep
        rw [List.filterMap_cons_none rfl]
        have hsender := ih hrun
        exact hsender

/-- **What the last delivery has brought about**: where a message of the kind `C` leaves
the receiver with `Q`, and the receiver's own steps keep it, the receiver has `Q` for as
long as the last message delivered is of that kind. -/
theorem last_delivered {C : μ → Prop} {Q : ρ → Prop}
    (hsent : ∀ t e t', stepSender t e = some t' → ∃ added, sent t' = sent t ++ added)
    (hreceive : ∀ g r m r', C m → receive g r m = some r' → Q r')
    (hother : ∀ r e r', Q r → other r e = some r' → Q r')
    (h₀ : s₀.delivered = 0)
    (h : Runs.run (step stepSender sent other receive) s₀ es = some s) :
    s.delivered ≤ (sent s.sender).length ∧
      ∀ m, ((sent s.sender).take s.delivered).getLast? = some m → C m → Q s.receiver := by
  refine Runs.run_invariant (P := fun s => s.delivered ≤ (sent s.sender).length ∧
    ∀ m, ((sent s.sender).take s.delivered).getLast? = some m → C m → Q s.receiver) ?_ ?_ h
  · rintro s e s' ⟨hle, hlast⟩ hstep
    rcases e with e | e | g
    · obtain ⟨sender, hsender, rfl⟩ := Option.map_eq_some_iff.mp hstep
      obtain ⟨added, hadded⟩ := hsent _ _ _ hsender
      dsimp only
      rw [hadded, List.take_append_of_le_length hle, List.length_append]
      exact ⟨hle.trans (Nat.le_add_right _ _), hlast⟩
    · obtain ⟨receiver, hreceiver, rfl⟩ := Option.map_eq_some_iff.mp hstep
      exact ⟨hle, fun m hm hC => hother _ _ _ (hlast m hm hC) hreceiver⟩
    · rw [step] at hstep
      split at hstep
      · cases hstep
      · next m hm =>
        obtain ⟨receiver, hreceiver, rfl⟩ := Option.map_eq_some_iff.mp hstep
        obtain ⟨hlt, hget⟩ := List.getElem?_eq_some_iff.mp hm
        refine ⟨hlt, fun m' hm' hC => hreceive g s.receiver m' _ hC ?_⟩
        dsimp only at hm'
        rw [List.take_succ_eq_append_getElem hlt, List.getLast?_append, hget] at hm'
        obtain rfl : m = m' := by simpa using hm'
        exact hreceiver
  · refine ⟨h₀ ▸ Nat.zero_le _, fun m hm => ?_⟩
    rw [h₀, List.take_zero] at hm
    cases hm

/-- **Everything that was sent can be delivered**, to a receiver that survives it. -/
theorem run_deliver (g : γ) {r : ρ}
    (h : Runs.run (receive g) s.receiver ((sent s.sender).drop s.delivered) = some r) :
    Runs.run (step stepSender sent other receive) s
        (List.replicate ((sent s.sender).length - s.delivered) (Event.deliver g)) =
      some { s with delivered := max s.delivered (sent s.sender).length, receiver := r } := by
  obtain ⟨left, hleft⟩ : ∃ left, (sent s.sender).length - s.delivered = left := ⟨_, rfl⟩
  rw [hleft]
  induction left generalizing s with
  | zero =>
    have hle : (sent s.sender).length ≤ s.delivered := by omega
    rw [List.drop_of_length_le hle] at h
    obtain rfl : s.receiver = r := by simpa using h
    rw [max_eq_left hle]
    rfl
  | succ left ih =>
    have hlt : s.delivered < (sent s.sender).length := by omega
    rw [List.drop_eq_getElem_cons hlt, Runs.run_cons] at h
    obtain ⟨r₁, hr₁, hrun⟩ := Option.bind_eq_some_iff.mp h
    have hstep : step stepSender sent other receive s (Event.deliver g) =
        some { s with delivered := s.delivered + 1, receiver := r₁ } := by
      rw [step, List.getElem?_eq_getElem hlt]
      dsimp only
      rw [hr₁]
      rfl
    rw [List.replicate_succ, Runs.run_cons_of_step hstep,
      ih (s := { s with delivered := s.delivered + 1, receiver := r₁ }) hrun (by dsimp only; omega)]
    dsimp only
    rw [max_eq_right hlt, max_eq_right hlt.le]

/-- What the sender does can come first. -/
theorem run_send {as : List α} {t : σ} (h : Runs.run stepSender s.sender as = some t) :
    Runs.run (step stepSender sent other receive) s (as.map Event.send) =
      some { s with sender := t } := by
  induction as generalizing s with
  | nil =>
    obtain rfl : s.sender = t := by simpa using h
    rfl
  | cons a as ih =>
    rw [Runs.run_cons] at h
    obtain ⟨t₁, ht₁, hrun⟩ := Option.bind_eq_some_iff.mp h
    have hstep : step stepSender sent other receive s (Event.send a) =
        some { s with sender := t₁ } := by
      rw [step, ht₁]
      rfl
    rw [List.map_cons, Runs.run_cons_of_step hstep]
    exact ih (s := { s with sender := t₁ }) hrun

/-- The sender's part of a run in which it comes first and is followed by the rest. -/
theorem filterMap_send?_map_send (as : List α) {es : List (Event α β γ)}
    (hes : ∀ e ∈ es, e.send? = none) :
    (as.map Event.send ++ es).filterMap Event.send? = as := by
  have hsend : (as.map (Event.send : α → Event α β γ)).filterMap Event.send? = as := by
    rw [List.filterMap_map]
    exact List.filterMap_some
  rw [List.filterMap_append, hsend, List.filterMap_eq_nil_iff.mpr hes, List.append_nil]

end FifoChannel
