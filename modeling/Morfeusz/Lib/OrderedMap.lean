import Mathlib.Data.List.Lex
import Mathlib.Data.Prod.Lex

/-!
# Maps with ordered keys

A map that keeps its keys in ascending order, with what a program does to one that it
fills: entries are inserted, and one whose key is there is not replaced. A map is its
entries in their order, so that to walk through it and insert what is met into another
yields the same map (`OrderedMap.insertAll_entries`).
-/

/-- A map: its entries, in the order of their keys. -/
structure OrderedMap (K V : Type) [LinearOrder K] where
  entries : List (K × V)
  sorted : entries.Pairwise fun a b => a.1 < b.1

namespace OrderedMap

variable {K V : Type} [LinearOrder K]

theorem ext_entries {m m' : OrderedMap K V} (h : m.entries = m'.entries) : m = m' := by
  obtain ⟨es, hs⟩ := m
  obtain ⟨es', hs'⟩ := m'
  obtain rfl : es = es' := h
  rfl

/-- Maps are compared entry by entry, by the key and then by the value. -/
instance [LinearOrder V] : LinearOrder (OrderedMap K V) :=
  LinearOrder.lift' (fun m => (m.entries.map toLex : List (K ×ₗ V))) fun _ _ h =>
    ext_entries (List.map_injective_iff.mpr toLex.injective h)

/-- The map without an entry. -/
def empty : OrderedMap K V := ⟨[], List.Pairwise.nil⟩

/-! ### Inserting -/

/-- An entry put in its place, unless there is one with its key. -/
def insertEntry (k : K) (v : V) : List (K × V) → List (K × V)
  | [] => [(k, v)]
  | e :: es =>
    if k < e.1 then (k, v) :: e :: es
    else if e.1 < k then e :: insertEntry k v es
    else e :: es

theorem mem_insertEntry {k : K} {v : V} {es : List (K × V)} {e : K × V}
    (h : e ∈ insertEntry k v es) : e = (k, v) ∨ e ∈ es := by
  induction es with
  | nil => exact Or.inl (List.mem_singleton.mp h)
  | cons e' es ih =>
    rw [insertEntry] at h
    split_ifs at h
    · exact List.mem_cons.mp h
    · rcases List.mem_cons.mp h with rfl | h
      · exact Or.inr List.mem_cons_self
      · exact (ih h).imp_right (List.mem_cons_of_mem e')
    · exact Or.inr h

theorem sorted_insertEntry {es : List (K × V)} (k : K) (v : V)
    (h : es.Pairwise fun a b => a.1 < b.1) :
    (insertEntry k v es).Pairwise fun a b => a.1 < b.1 := by
  induction es with
  | nil => exact List.pairwise_singleton _ _
  | cons e es ih =>
    obtain ⟨he, hes⟩ := List.pairwise_cons.mp h
    rw [insertEntry]
    split_ifs with hlt hgt
    · refine List.pairwise_cons.mpr ⟨?_, h⟩
      intro e' he'
      rcases List.mem_cons.mp he' with rfl | he'
      · exact hlt
      · exact lt_trans hlt (he e' he')
    · refine List.pairwise_cons.mpr ⟨?_, ih hes⟩
      intro e' he'
      rcases mem_insertEntry he' with rfl | he'
      · exact hgt
      · exact he e' he'
    · exact h

/-- A key above all others comes last. -/
theorem insertEntry_of_forall_lt {k : K} {es : List (K × V)} (v : V) (h : ∀ e ∈ es, e.1 < k) :
    insertEntry k v es = es ++ [(k, v)] := by
  induction es with
  | nil => rfl
  | cons e es ih =>
    obtain ⟨he, hes⟩ := List.forall_mem_cons.mp h
    rw [insertEntry, if_neg (lt_asymm he), if_pos he, ih hes, List.cons_append]

/-- An entry is inserted. -/
def insert (m : OrderedMap K V) (k : K) (v : V) : OrderedMap K V :=
  ⟨insertEntry k v m.entries, sorted_insertEntry k v m.sorted⟩

/-- Entries are inserted one after the other. -/
def insertAll (m : OrderedMap K V) (es : List (K × V)) : OrderedMap K V :=
  es.foldl (fun m e => m.insert e.1 e.2) m

theorem entries_insertAll {m : OrderedMap K V} {es : List (K × V)}
    (h : (m.entries ++ es).Pairwise fun a b => a.1 < b.1) :
    (m.insertAll es).entries = m.entries ++ es := by
  induction es generalizing m with
  | nil => exact (List.append_nil _).symm
  | cons e es ih =>
    have hlt : ∀ e' ∈ m.entries, e'.1 < e.1 := fun e' he' =>
      (List.pairwise_append.mp h).2.2 e' he' e List.mem_cons_self
    have hinsert : (m.insert e.1 e.2).entries = m.entries ++ [e] :=
      insertEntry_of_forall_lt e.2 hlt
    rw [List.append_cons, ← hinsert] at h ⊢
    exact ih h

/-- **A map is what its entries, inserted in their order, make of the empty one.** -/
theorem insertAll_entries (m : OrderedMap K V) : empty.insertAll m.entries = m :=
  ext_entries (entries_insertAll m.sorted)

end OrderedMap
