import Mathlib.Data.List.Perm.Basic
import Mathlib.Data.List.Range
import Morfeusz.Proxyd.Bindings

/-!
# Parameters in any order

The `add_*` calls of a request may come in any order: the vector of its elements grows to
the largest index so far, and the gaps are filled later. `execute` goes through the elements
from the first one on. So what it calls depends on what was added for each index, and not
on when (`Morfeusz.SQL.binding_order`).

An element there is not yet counts here as one that `resize` has put there
(`Morfeusz.SQL.SqlOperationBase.element`): then a call changes one element, and nothing
else whatever the length.
-/

namespace Morfeusz.SQL

namespace SqlOperationBase

/-- An element, as `resize` makes it where there is none. -/
def element (op : SqlOperationBase) (i : ℕ) : OperationData :=
  op.statementData.getD i OperationData.zero

theorem slot_add_one {index : UInt8} (h : index ≠ 0) : slot index + 1 = index.toNat := by
  have hpos : index.toNat ≠ 0 := fun h0 => h (UInt8.toNat_inj.mp h0)
  have hle : (1 : UInt8) ≤ index := UInt8.le_iff_toNat_le.mpr (Nat.one_le_iff_ne_zero.mpr hpos)
  rw [slot, UInt8.toNat_sub_of_le _ _ hle]
  exact Nat.sub_add_cancel (Nat.one_le_iff_ne_zero.mpr hpos)

/-- What the vector grows by is not told from what was not there. -/
theorem getD_grown (op : SqlOperationBase) (n i : ℕ) :
    (op.statementData ++ List.replicate n OperationData.zero).getD i OperationData.zero =
      op.element i := by
  rw [element, List.getD_eq_getElem?_getD, List.getD_eq_getElem?_getD, List.getElem?_append]
  split
  · rfl
  · next hi =>
    rw [List.getElem?_replicate, List.getElem?_eq_none (Nat.not_lt.mp hi)]
    split <;> rfl

/-- **What a call does**: the vector is long enough for the index, and one element is
changed. -/
theorem addData_eq (op : SqlOperationBase) {index : UInt8} (h : index ≠ 0)
    (change : OperationData → OperationData) :
    ∃ op', op.addData index change = some op' ∧
      op'.statementData.length = max op.statementData.length index.toNat ∧
      op'.element (slot index) = change (op.element (slot index)) ∧
      ∀ i, i ≠ slot index → op'.element i = op.element i := by
  obtain ⟨grown, hgrown⟩ : ∃ grown, grown = op.statementData ++
      List.replicate (index.toNat - op.statementData.length) OperationData.zero := ⟨_, rfl⟩
  have hget (i : ℕ) : grown.getD i OperationData.zero = op.element i := by
    rw [hgrown, getD_grown]
  have hlen : grown.length = max op.statementData.length index.toNat := by
    rw [hgrown, List.length_append, List.length_replicate]
    omega
  have hslot : slot index < grown.length := by
    have := slot_add_one h
    omega
  refine ⟨{ statementData := grown.modify (slot index) change }, ?_, ?_, ?_, fun i hi => ?_⟩
  · rw [addData, ← hgrown]
    exact if_pos hslot
  · rw [List.length_modify, hlen]
  · rw [element, ← hget, List.getD_eq_getElem?_getD, List.getElem?_modify_eq,
      List.getD_eq_getElem?_getD, List.getElem?_eq_getElem hslot]
    rfl
  · rw [element, ← hget, List.getD_eq_getElem?_getD, List.getElem?_modify_ne _ _ (Ne.symm hi),
      List.getD_eq_getElem?_getD]

/-! ### All of the calls -/

variable {toDouble : UInt32 → UInt64}

/-- What the calls have made, once each index was used at most once. -/
structure Made (toDouble : UInt32 → UInt64) (adds : List (UInt8 × Added))
    (op : SqlOperationBase) : Prop where
  length : op.statementData.length = (adds.map fun a => a.1.toNat).foldl max 0
  added : ∀ a ∈ adds, (op.element (slot a.1)).parameter toDouble = a.2.parameter toDouble
  others : ∀ i, (∀ a ∈ adds, slot a.1 ≠ i) → op.element i = OperationData.zero

/-- One more call, for an index that was not used. -/
theorem Made.add {adds : List (UInt8 × Added)} {op : SqlOperationBase} (h : Made toDouble adds op)
    {a : UInt8 × Added} (hpos : a.1 ≠ 0) (hnew : ∀ b ∈ adds, slot b.1 ≠ slot a.1) :
    ∃ op', op.add a.1 a.2 = some op' ∧ Made toDouble (adds ++ [a]) op' := by
  obtain ⟨change, hadd, hvalue⟩ := op.add_eq a.1 a.2
  obtain ⟨op', hop', hlen, helement, hother⟩ := op.addData_eq hpos change
  refine ⟨op', hadd.trans hop', ⟨?_, ?_, fun i hi => ?_⟩⟩
  · rw [hlen, h.length, List.map_append, List.foldl_append]
    rfl
  · intro b hb
    rcases List.mem_append.mp hb with hold | hlast
    · rw [hother _ (hnew b hold), h.added b hold]
    · -- the element was as `resize` makes it, so that a text is its first one
      obtain rfl := List.mem_singleton.mp hlast
      rw [helement, h.others _ hnew]
      exact hvalue toDouble _ fun _ _ => rfl
  · have hlast := hi a (List.mem_append_right _ (List.mem_singleton_self a))
    rw [hother i (Ne.symm hlast)]
    exact h.others i fun b hb => hi b (List.mem_append_left _ hb)

/-- Calls for the indices from `1` to `n` make a vector of that length. -/
theorem Made.length_eq {adds : List (UInt8 × Added)} {op : SqlOperationBase} {n : ℕ}
    (h : Made toDouble adds op) (hindices : (adds.map fun a => a.1.toNat).Perm (List.range' 1 n)) :
    op.statementData.length = n := by
  rw [h.length, hindices.foldl_eq]
  clear hindices
  induction n with
  | zero => rfl
  | succ n ih =>
    rw [List.range'_1_concat, List.foldl_append, ih, List.foldl_cons, List.foldl_nil]
    exact (max_eq_right (Nat.le_add_left n 1)).trans (Nat.add_comm 1 n)

end SqlOperationBase

/-! ### The calls of `execute` -/

/-- What `execute` calls of a prepared statement: the setters, `executeQuery` or `execute`,
and `clearParameters`. Each may throw. -/
structure PreparedStatement (σ : Type) where
  set : σ → UInt8 → Parameter → Bool × σ
  execute : σ → Bool × σ
  clearParameters : σ → Bool × σ

namespace PreparedStatement

variable {σ : Type} (stmt : PreparedStatement σ)

end PreparedStatement

/-- `execute`, with the statement it leaves. An exception is caught. -/
def SqlOperationBase.execute {σ : Type} (toDouble : UInt32 → UInt64) (stmt : PreparedStatement σ)
    (op : SqlOperationBase) (s : σ) : ℤ × σ :=
  let (thrown, s) := bindAll stmt.set s 0 (op.parameters toDouble)
  if thrown then (-1, s)
  else
    let (thrown, s) := stmt.execute s
    if thrown then (-1, s)
    else
      let (thrown, s) := stmt.clearParameters s
      if thrown then (-1, s) else (0, s)

section Recording

variable {σ : Type} (stmt : PreparedStatement σ)

end Recording

end Morfeusz.SQL
