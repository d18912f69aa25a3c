import Mathlib.Tactic.TypeStar

/-!
# The pieces between separators

A list falls into *pieces* where some of its elements are separators: each piece has an
element, has no separator, and has a separator or an end of the list on either side, and
between the pieces there is nothing else (`Pieces`). A list has its pieces in one way
(`pieces_iff`), and they are what is left of `List.splitOnP` without the empty lists
(`piecesOf`); so of fields joined by a separator the empty ones are lost
(`piecesOf_intercalate`).
-/

/-- **The pieces of a list, in order**: behind some separators there is nothing, or a piece
that goes on as long as it can, and then the others. -/
inductive Pieces {α : Type*} (p : α → Bool) : List α → List (List α) → Prop
  | done {gap : List α} (hgap : ∀ a ∈ gap, p a = true) : Pieces p gap []
  | piece {gap piece rest : List α} {pieces : List (List α)} (hgap : ∀ a ∈ gap, p a = true)
      (hne : piece ≠ []) (hfree : ∀ a ∈ piece, p a = false)
      (hend : ∀ a ∈ rest.head?, p a = true) (hrest : Pieces p rest pieces) :
      Pieces p (gap ++ (piece ++ rest)) (piece :: pieces)

section Pieces

variable {α : Type*} {p : α → Bool} {a : α} {piece xs : List α} {ps : List (List α)}

/-- The lists between separators that are not empty. -/
def piecesOf (p : α → Bool) (xs : List α) : List (List α) :=
  (xs.splitOnP p).filter fun piece => !piece.isEmpty

/-- A separator parts the pieces before it from those behind it. -/
theorem piecesOf_append_cons (ha : p a = true) (xs ys : List α) :
    piecesOf p (xs ++ a :: ys) = piecesOf p xs ++ piecesOf p ys := by
  rw [piecesOf, List.splitOnP_append_cons xs ys ha, List.filter_append, piecesOf, piecesOf]

theorem piecesOf_gap_append {gap : List α} (h : ∀ a ∈ gap, p a = true) (xs : List α) :
    piecesOf p (gap ++ xs) = piecesOf p xs := by
  induction gap with
  | nil => rfl
  | cons a gap ih =>
    rw [List.forall_mem_cons] at h
    exact (piecesOf_append_cons h.1 [] (gap ++ xs)).trans (ih h.2)

/-- What has no separator is a piece, if it is anything. -/
theorem piecesOf_free (hfree : ∀ a ∈ piece, p a = false) :
    piecesOf p piece = if piece ≠ [] then [piece] else [] := by
  rw [piecesOf, List.splitOnP_eq_singleton hfree]
  cases piece <;> rfl

/-- **There is one way to take a list to pieces.** -/
theorem Pieces.eq_piecesOf (h : Pieces p xs ps) : ps = piecesOf p xs := by
  induction h with
  | @done gap hgap =>
    have hgap' := piecesOf_gap_append hgap []
    rw [List.append_nil] at hgap'
    exact hgap'.symm
  | @piece gap piece rest pieces hgap hne hfree hend _ ih =>
    have hpiece := (piecesOf_free hfree).trans (if_pos hne)
    rw [piecesOf_gap_append hgap, ih]
    cases rest with
    | nil => rw [List.append_nil, hpiece]; rfl
    | cons a rest =>
      have ha := hend a rfl
      have hskip := piecesOf_append_cons ha [] rest
      rw [piecesOf_append_cons ha, hpiece]
      exact congrArg (piece :: ·) hskip

/-- A separator in front of a list changes none of its pieces. -/
theorem Pieces.cons (ha : p a = true) (h : Pieces p xs ps) : Pieces p (a :: xs) ps := by
  cases h with
  | done hgap => exact .done (List.forall_mem_cons.mpr ⟨ha, hgap⟩)
  | piece hgap hne hfree hend hrest =>
    exact .piece (List.forall_mem_cons.mpr ⟨ha, hgap⟩) hne hfree hend hrest

/-- A part that has no separator, in front of what is taken to pieces without it. -/
theorem Pieces.free_append (hfree : ∀ a ∈ piece, p a = false) (hend : ∀ a ∈ xs.head?, p a = true)
    (h : Pieces p xs ps) : Pieces p (piece ++ xs) ((if piece ≠ [] then [piece] else []) ++ ps) := by
  by_cases hnil : piece = []
  · rw [if_neg (not_not_intro hnil), hnil]
    exact h
  · rw [if_pos hnil]
    exact @Pieces.piece _ p [] _ _ _ (fun a ha => by cases ha) hnil hfree hend h

/-- The pieces there are behind a part that has no separator. -/
theorem pieces_free_append (hfree : ∀ a ∈ piece, p a = false) (xs : List α) :
    Pieces p (piece ++ xs) (piecesOf p (piece ++ xs)) := by
  induction xs generalizing piece with
  | nil =>
    have hnil : Pieces p [] [] := .done fun a ha => by cases ha
    have hpiece := hnil.free_append hfree fun a ha => by cases ha
    rw [List.append_nil, ← piecesOf_free hfree] at hpiece
    rwa [List.append_nil] at hpiece ⊢
  | cons a xs ih =>
    cases ha : p a with
    | true =>
      have hrest := (@ih [] fun a ha => by cases ha).cons ha
      rw [piecesOf_append_cons ha, piecesOf_free hfree]
      refine hrest.free_append hfree fun b hb => ?_
      obtain rfl := Option.some.inj hb
      exact ha
    | false =>
      -- the part is longer by one element
      have hlonger := @ih (piece ++ [a]) fun b hb => by
        rcases List.mem_append.mp hb with hb | hb
        · exact hfree b hb
        · rw [List.mem_singleton.mp hb, ha]
      rwa [List.append_assoc, List.singleton_append] at hlonger

/-- **The pieces of a list, one way and computed.** -/
theorem pieces_iff : Pieces p xs ps ↔ ps = piecesOf p xs := by
  refine ⟨Pieces.eq_piecesOf, fun h => ?_⟩
  rw [h]
  exact @pieces_free_append _ p [] (fun a ha => by cases ha) xs

/-- **Of fields that are joined by a separator the empty ones are lost.** -/
theorem piecesOf_intercalate [BEq α] [LawfulBEq α] (a : α) {fields : List (List α)}
    (h : ∀ field ∈ fields, a ∉ field) :
    piecesOf (· == a) ([a].intercalate fields) = fields.filter fun field => !field.isEmpty := by
  cases fields with
  | nil => rfl
  | cons field fields =>
    rw [piecesOf, ← List.splitOn_eq_splitOnP, List.splitOn_intercalate a h (List.cons_ne_nil _ _)]

end Pieces
