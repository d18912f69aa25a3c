import Mathlib.Data.List.Basic
import Mathlib.Data.List.Forall2
import Mathlib.Data.List.GetD
import Mathlib.Data.List.TakeDrop
import Mathlib.Order.Basic

/-!
# Messages read out of filled-up buffers

A receiver that takes a stream piece by piece, puts every piece at the front of a buffer
filled up with one symbol, and reads a message there (`ZeroFilled.ReadIn`). It knows
nothing of the lengths of the messages; a piece may be shorter than the message that is
read out of it, if what is missing is the filling, and it may be longer.

Still, where every message was read from a piece of its own the pieces are the messages
(`ZeroFilled.eq_of_readIn`), as long as no message consists of the filling alone. Once the
pieces are ahead of the messages they stay ahead (`ZeroFilled.not_ahead`), since a message
that catches up is its own shift; and once they are behind, the next message is filling
(`ZeroFilled.not_behind`).
-/

namespace ZeroFilled

variable {α : Type*} {z : α}

/-- A message is read at the front of a buffer that holds a piece and is filled up. -/
def ReadIn (z : α) (piece message : List α) : Prop :=
  ∀ i (h : i < message.length), message[i] = piece.getD i z

/-- A message that is a prefix of the buffer is read in it. -/
theorem readIn_of_prefix {piece message : List α} {n : ℕ}
    (h : message <+: piece ++ List.replicate n z) : ReadIn z piece message := by
  intro i hi
  obtain ⟨rest, hrest⟩ := h
  have hget : (piece ++ List.replicate n z)[i]? = some message[i] := by
    rw [← hrest, List.getElem?_append_left hi, List.getElem?_eq_getElem hi]
  rw [List.getD_eq_getElem?_getD]
  rcases Nat.lt_or_ge i piece.length with hlt | hge
  · rw [List.getElem?_append_left hlt] at hget
    rw [hget, Option.getD_some]
  · rw [List.getElem?_append_right hge] at hget
    obtain ⟨hlt, heq⟩ := List.getElem?_eq_some_iff.mp hget
    rw [List.getElem_replicate] at heq
    rw [List.getElem?_eq_none hge, Option.getD_none, heq]

/-- A message with something in it besides the filling. -/
def NotFilling (z : α) (message : List α) : Prop := ∃ i, ∃ h : i < message.length, message[i] ≠ z

theorem notFilling_of_mem {message : List α} {a : α} (h : a ∈ message) (hne : a ≠ z) :
    NotFilling z message := by
  obtain ⟨i, hi, rfl⟩ := List.getElem_of_mem h
  exact ⟨i, hi, hne⟩

/-! ### A piece and its message -/

variable {piece message : List α}

/-- A message whose first symbols were taken by the piece before, and that goes on to the
end of its own piece, is filling. -/
theorem not_caughtUp {front back : List α} (hfront : front ≠ [])
    (hread : ReadIn z piece message) (hmessage : front ++ piece ++ back = message) :
    ¬NotFilling z message := by
  rintro ⟨i, hi, hne⟩
  have hpos : 0 < front.length := List.length_pos_iff.mpr hfront
  -- from the end of the message to its front, every symbol is the one that far behind it
  have hall : ∀ n i (h : i < message.length), message.length - i ≤ n → message[i] = z := by
    intro n
    induction n with
    | zero =>
      intro i h hn
      omega
    | succ n ih =>
      intro i h hn
      rw [hread i h]
      rcases Nat.lt_or_ge i piece.length with hlt | hge
      · have hlen : front.length + i < message.length := by
          rw [← hmessage, List.length_append, List.length_append]
          omega
        have hshift : message[front.length + i] = piece[i] := by
          subst hmessage
          rw [List.getElem_append_left (by rw [List.length_append]; omega),
            List.getElem_append_right (by omega)]
          simp
        rw [List.getD_eq_getElem _ _ hlt, ← hshift]
        exact ih _ hlen (by omega)
      · rw [List.getD_eq_default _ _ hge]
  exact hne (hall message.length i hi (by omega))

/-- A message whose piece begins with filling that was left over is filling. -/
theorem not_leftBehind {left rest : List α} (hleft : left ≠ []) (hz : ∀ a ∈ left, a = z)
    (hread : ReadIn z piece message) (hpiece : piece <+: left ++ message ++ rest) :
    ¬NotFilling z message := by
  rintro ⟨i, hi, hne⟩
  have hpos : 0 < left.length := List.length_pos_iff.mpr hleft
  obtain ⟨tail, htail⟩ := hpiece
  -- every symbol is filling, or the one that far in front of it
  have hall : ∀ n i (h : i < message.length), i ≤ n → message[i] = z := by
    intro n
    induction n using Nat.strongRecOn with
    | ind n ih =>
      intro i h hn
      rw [hread i h]
      rcases Nat.lt_or_ge i piece.length with hlt | hge
      · have hget : (left ++ message ++ rest)[i]? = some piece[i] := by
          rw [← htail, List.getElem?_append_left hlt, List.getElem?_eq_getElem hlt]
        rw [List.append_assoc] at hget
        rw [List.getD_eq_getElem _ _ hlt]
        rcases Nat.lt_or_ge i left.length with hin | hout
        · rw [List.getElem?_append_left hin, List.getElem?_eq_getElem hin] at hget
          rw [← Option.some.inj hget]
          exact hz _ (List.getElem_mem hin)
        · have hback : i - left.length < message.length := by omega
          rw [List.getElem?_append_right hout, List.getElem?_append_left hback,
            List.getElem?_eq_getElem hback] at hget
          rw [← Option.some.inj hget]
          exact ih (i - left.length) (by omega) _ hback (Nat.le_refl _)
      · rw [List.getD_eq_default _ _ hge]
  exact hne (hall i i hi (Nat.le_refl _))

/-! ### The pieces and the messages -/

variable {pieces messages : List (List α)} {rest : List α}

/-- The pieces do not stay ahead of the messages to the end of the stream. -/
theorem not_ahead {front : List α} (hfront : front ≠ [])
    (hread : List.Forall₂ (ReadIn z) pieces messages) (hz : ∀ m ∈ messages, NotFilling z m) :
    front ++ pieces.flatten ++ rest ≠ messages.flatten := by
  induction hread generalizing front with
  | nil =>
    intro h
    simp only [List.flatten_nil, List.append_nil, List.append_eq_nil_iff] at h
    exact hfront h.1
  | @cons piece message pieces messages hone hread ih =>
    intro h
    rw [List.flatten_cons, List.flatten_cons, ← List.append_assoc, List.append_assoc _ _ rest] at h
    rcases Nat.lt_or_ge message.length (front ++ piece).length with hlt | hge
    · -- what is ahead of the next message
      rw [← List.take_append_drop message.length (front ++ piece), List.append_assoc] at h
      obtain ⟨-, hrest⟩ := List.append_inj h (by rw [List.length_take]; omega)
      rw [← List.append_assoc] at hrest
      refine ih ?_ (fun m hm => hz m (List.mem_cons_of_mem _ hm)) hrest
      intro hnil
      have hlen := congrArg List.length hnil
      rw [List.length_drop, List.length_nil] at hlen
      omega
    · obtain ⟨back, hback⟩ : front ++ piece <+: message :=
        List.prefix_of_prefix_length_le ⟨_, h⟩ (List.prefix_append _ _) hge
      exact not_caughtUp hfront hone hback (hz _ List.mem_cons_self)

/-- **The pieces are the messages**, if every message is read in a piece of its own and
what is left of the stream does not begin with filling. -/
theorem eq_of_readIn (hread : List.Forall₂ (ReadIn z) pieces messages)
    (hz : ∀ m ∈ messages, NotFilling z m) (hrest : ∀ a ∈ rest.head?, a ≠ z)
    (hstream : pieces.flatten ++ rest = messages.flatten) : pieces = messages ∧ rest = [] := by
  induction hread with
  | nil => exact ⟨rfl, by simpa using hstream⟩
  | @cons piece message pieces messages hone hread ih =>
    have hz' : ∀ m ∈ messages, NotFilling z m := fun m hm => hz m (List.mem_cons_of_mem _ hm)
    rw [List.flatten_cons, List.flatten_cons, List.append_assoc] at hstream
    rcases Nat.lt_trichotomy piece.length message.length with hlt | heq | hgt
    · -- the rest of the message is filling, and stands in front of the next piece
      obtain ⟨left, rfl⟩ : piece <+: message :=
        List.prefix_of_prefix_length_le ⟨_, hstream⟩ (List.prefix_append _ _) (Nat.le_of_lt hlt)
      have hleft : left ≠ [] := by
        rintro rfl
        simp at hlt
      have hfill : ∀ a ∈ left, a = z := by
        intro a ha
        obtain ⟨i, hi, rfl⟩ := List.getElem_of_mem ha
        have hi' : piece.length + i < (piece ++ left).length := by
          rw [List.length_append]
          omega
        have hget := hone _ hi'
        rw [List.getD_eq_default _ _ (by omega), List.getElem_append_right (by omega)] at hget
        simpa using hget
      rw [List.append_assoc, List.append_cancel_left_eq] at hstream
      cases hread with
      | nil =>
        obtain ⟨a, left, rfl⟩ := List.exists_cons_of_ne_nil hleft
        rw [List.flatten_nil, List.nil_append, List.append_nil] at hstream
        rw [hstream] at hrest
        exact absurd (hfill a List.mem_cons_self) (hrest a rfl)
      | @cons next message' pieces messages hnext hread =>
        have hnext' : next <+: left ++ message' ++ messages.flatten := by
          refine ⟨pieces.flatten ++ rest, ?_⟩
          rw [List.flatten_cons, List.flatten_cons, List.append_assoc, ← List.append_assoc left]
            at hstream
          exact hstream
        exact absurd (hz' message' List.mem_cons_self) (not_leftBehind hleft hfill hnext hnext')
    · obtain ⟨hpiece, hpieces⟩ := List.append_inj hstream heq
      obtain ⟨hall, hnil⟩ := ih hz' hpieces
      exact ⟨by rw [hpiece, hall], hnil⟩
    · -- the piece goes on behind its message
      rw [← List.take_append_drop message.length piece, List.append_assoc] at hstream
      obtain ⟨-, hahead⟩ := List.append_inj hstream (by rw [List.length_take]; omega)
      rw [← List.append_assoc] at hahead
      refine absurd hahead (not_ahead ?_ hread hz')
      intro hnil
      have hlen := congrArg List.length hnil
      rw [List.length_drop, List.length_nil] at hlen
      omega

end ZeroFilled
