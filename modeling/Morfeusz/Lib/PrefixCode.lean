import Mathlib.Data.Nat.Digits.Defs

/-!
# Codes that end by themselves

A code is *self-delimiting* when its reader, put in front of a code word, takes that word
and nothing of what follows. Nothing more is needed for the two things one wants of it: no
code word is the beginning of another one (`PrefixCode.eq_of_isPrefix`), and words written
one behind the other are read back one by one (`PrefixCode.decodeList_encode`).

The second part is how the words of such codes are often made: of a list whose length is
known, only the elements that differ from some fixed one are written, behind a mask that
has a bit for every place (`PrefixCode.mask`). The reader goes through the bits
(`PrefixCode.expand`) and finds the list again (`PrefixCode.expand_mask`).
-/

/-- A code whose reader knows where a word ends. -/
structure PrefixCode (α β : Type*) where
  encode : α → List β
  decode : List β → Option (α × List β)
  decode_encode : ∀ a rest, decode (encode a ++ rest) = some (a, rest)

namespace PrefixCode

section Words

variable {α β : Type*} (c : PrefixCode α β)

/-- **No word is the beginning of another one.** -/
theorem eq_of_isPrefix {a a' : α} (h : c.encode a <+: c.encode a') : a = a' := by
  obtain ⟨rest, hrest⟩ := h
  have h' := c.decode_encode a' []
  rw [List.append_nil, ← hrest, c.decode_encode] at h'
  exact (Prod.mk.inj (Option.some.inj h')).1

/-- As many words are read as are asked for. -/
def decodeList : ℕ → List β → Option (List α × List β)
  | 0, bs => some ([], bs)
  | n + 1, bs => do
    let (a, bs) ← c.decode bs
    let (as, bs) ← decodeList n bs
    some (a :: as, bs)

/-- **Words written one behind the other are read back**, whatever follows them. -/
theorem decodeList_encode (as : List α) (rest : List β) :
    c.decodeList as.length (as.flatMap c.encode ++ rest) = some (as, rest) := by
  induction as with
  | nil => rfl
  | cons a as ih =>
    rw [List.length_cons, List.flatMap_cons, List.append_assoc, decodeList, c.decode_encode]
    simp [ih]

end Words

/-! ### The places that are not left out -/

section Mask

variable {α : Type*} [DecidableEq α] (gap : α)

/-- The mask of a list: the bit of a place is set where its element is not the one that is
left out. -/
def mask (as : List α) : ℕ := Nat.ofDigits 2 (as.map fun a => if a = gap then 0 else 1)

/-- The elements that are written. -/
def kept (as : List α) : List α := as.filter (· ≠ gap)

/-- A list of a given length read by its mask: the next element at every set bit, and the
one that was left out elsewhere. -/
def expand : ℕ → ℕ → List α → Option (List α × List α)
  | 0, _, rest => some ([], rest)
  | n + 1, bits, rest =>
    if bits.testBit 0 then
      rest.head?.bind fun a => (expand n (bits / 2) rest.tail).map fun p => (a :: p.1, p.2)
    else (expand n (bits / 2) rest).map fun p => (gap :: p.1, p.2)

variable {gap}

theorem mask_cons (a : α) (as : List α) :
    mask gap (a :: as) = (if a = gap then 0 else 1) + 2 * mask gap as := by
  rw [mask, List.map_cons, Nat.ofDigits_cons]
  rfl

theorem mask_lt (as : List α) : mask gap as < 2 ^ as.length := by
  have h := Nat.ofDigits_lt_base_pow_length (b := 2)
    (l := as.map fun a => if a = gap then 0 else 1) (by decide) (by
      intro d hd
      obtain ⟨a, -, rfl⟩ := List.mem_map.mp hd
      split <;> decide)
  rwa [List.length_map] at h

/-- One more place adds its bit on top of the others. -/
theorem mask_concat (as : List α) (a : α) :
    mask gap (as ++ [a]) = mask gap as ||| if a = gap then 0 else 2 ^ as.length := by
  rw [mask, List.map_append, Nat.ofDigits_append, List.length_map]
  change mask gap as + _ = _
  by_cases ha : a = gap
  · simp [ha]
  · have h := Nat.two_pow_add_eq_or_of_lt (@mask_lt _ _ gap as) 1
    rw [mul_one, Nat.or_comm] at h
    simp [ha, ← h, Nat.add_comm]

theorem kept_cons_of_ne {a : α} (h : a ≠ gap) (as : List α) :
    kept gap (a :: as) = a :: kept gap as :=
  List.filter_cons_of_pos (by simpa using h)

theorem kept_append (as bs : List α) : kept gap (as ++ bs) = kept gap as ++ kept gap bs :=
  List.filter_append _ _

/-- **The mask and the elements that were written give the list back.** -/
theorem expand_mask (as rest : List α) :
    expand gap as.length (mask gap as) (kept gap as ++ rest) = some (as, rest) := by
  induction as with
  | nil => rfl
  | cons a as ih =>
    rw [List.length_cons, expand, mask_cons]
    by_cases ha : a = gap
    · have hbit : (0 + 2 * mask gap as).testBit 0 = false := by simp
      have hhalf : (0 + 2 * mask gap as) / 2 = mask gap as := by omega
      have hkept : kept gap (a :: as) = kept gap as := by simp [kept, ha]
      rw [if_pos ha, hbit, hhalf, hkept, ih, ha]
      rfl
    · have hbit : (1 + 2 * mask gap as).testBit 0 = true := by simp [Nat.add_mod]
      have hhalf : (1 + 2 * mask gap as) / 2 = mask gap as := by omega
      rw [if_neg ha, hbit, hhalf, kept_cons_of_ne ha, List.cons_append]
      simp [ih]

end Mask

end PrefixCode
