import Mathlib.Data.List.GetD
import Mathlib.Data.List.Basic

/-!
# Chained stream ciphers

A stream cipher that mixes every symbol with a symbol of its key stream and then with
the cipher symbol before it. `ChainCipher` is one, with the two laws that let it be
undone; `ChainCipher.enc` and `ChainCipher.dec` run it over a list of symbols from any
position and any preceding cipher symbol.

The receiver needs no state of its own but the position and the last cipher symbol it
has seen, so both directions may be cut anywhere (`ChainCipher.enc_append`,
`ChainCipher.dec_append`), and decrypting what was encrypted gives the plain symbols
however either was cut (`ChainCipher.dec_enc`).
-/

/-- A chained stream cipher: `mix` is the key stream, `add` the chaining. -/
structure ChainCipher (α : Type*) where
  mix : ℕ → α → α
  unmix : ℕ → α → α
  add : α → α → α
  sub : α → α → α
  unmix_mix : ∀ i a, unmix i (mix i a) = a
  sub_add : ∀ a b, sub (add a b) b = a

namespace ChainCipher

variable {α : Type*} (E : ChainCipher α)

/-- The cipher symbols of a list of symbols, from a position and the cipher symbol
before it. -/
def enc : ℕ → α → List α → List α
  | _, _, [] => []
  | i, prev, p :: ps => E.add (E.mix i p) prev :: enc (i + 1) (E.add (E.mix i p) prev) ps

/-- The symbols of a list of cipher symbols. -/
def dec : ℕ → α → List α → List α
  | _, _, [] => []
  | i, prev, c :: cs => E.unmix i (E.sub c prev) :: dec (i + 1) c cs

variable (i : ℕ) (prev : α)

@[simp] theorem length_enc (ps : List α) : (E.enc i prev ps).length = ps.length := by
  induction ps generalizing i prev with
  | nil => rfl
  | cons p ps ih => rw [enc, List.length_cons, List.length_cons, ih]

@[simp] theorem length_dec (cs : List α) : (E.dec i prev cs).length = cs.length := by
  induction cs generalizing i prev with
  | nil => rfl
  | cons c cs ih => rw [dec, List.length_cons, List.length_cons, ih]

/-! ### Cutting -/

/-- **Encryption may be cut anywhere**: the second part goes on from the last cipher
symbol of the first. -/
theorem enc_append (ps qs : List α) :
    E.enc i prev (ps ++ qs) = E.enc i prev ps ++
      E.enc (i + ps.length) ((E.enc i prev ps).getLastD prev) qs := by
  induction ps generalizing i prev with
  | nil => rfl
  | cons p ps ih =>
    rw [List.cons_append, enc, enc, ih, List.cons_append, List.getLastD_cons, List.length_cons,
      Nat.add_right_comm, Nat.add_assoc]

/-- Decryption may be cut anywhere. -/
theorem dec_append (cs ds : List α) :
    E.dec i prev (cs ++ ds) = E.dec i prev cs ++ E.dec (i + cs.length) (cs.getLastD prev) ds := by
  induction cs generalizing i prev with
  | nil => rfl
  | cons c cs ih =>
    rw [List.cons_append, dec, dec, ih, List.cons_append, List.getLastD_cons, List.length_cons,
      Nat.add_right_comm, Nat.add_assoc]

theorem take_enc (k : ℕ) (ps : List α) :
    (E.enc i prev ps).take k = E.enc i prev (ps.take k) := by
  induction ps generalizing i prev k with
  | nil => simp [enc]
  | cons p ps ih =>
    rcases k with _ | k
    · rfl
    · rw [enc, List.take_succ_cons, List.take_succ_cons, enc, ih]

/-! ### The inverse -/

/-- **Decryption undoes encryption.** -/
theorem dec_enc (ps : List α) : E.dec i prev (E.enc i prev ps) = ps := by
  induction ps generalizing i prev with
  | nil => rfl
  | cons p ps ih => rw [enc, dec, E.sub_add, E.unmix_mix, ih]

/-! ### Symbol by symbol -/

/-- The symbol before position `k` of a list that follows on `prev`. -/
def before (prev : α) (cs : List α) (k : ℕ) : α := (prev :: cs).getD k prev

@[simp] theorem before_zero (cs : List α) : before prev cs 0 = prev := rfl

theorem before_cons_succ {c : α} {cs : List α} {k : ℕ} (h : k ≤ cs.length) :
    before prev (c :: cs) (k + 1) = before c cs k := by
  have hlt : k < (c :: cs).length := Nat.lt_succ_of_le h
  rw [before, List.getD_cons_succ, before, List.getD_eq_getElem _ _ hlt,
    List.getD_eq_getElem _ _ hlt]

/-- The cipher symbol at a position. -/
theorem getElem?_enc {ps : List α} {k : ℕ} {p : α} (h : ps[k]? = some p) :
    (E.enc i prev ps)[k]? = some (E.add (E.mix (i + k) p) (before prev (E.enc i prev ps) k)) := by
  induction ps generalizing i prev k with
  | nil => cases h
  | cons q ps ih =>
    rcases k with _ | k
    · obtain rfl := Option.some.inj h
      rfl
    · rw [List.getElem?_cons_succ] at h
      have hk : k < ps.length := (List.getElem?_eq_some_iff.mp h).1
      rw [enc, List.getElem?_cons_succ, ih _ _ h,
        before_cons_succ _ (by rw [length_enc]; exact Nat.le_of_lt hk), Nat.add_right_comm,
        Nat.add_assoc]

/-- The symbol at a position. -/
theorem getElem?_dec {cs : List α} {k : ℕ} {c : α} (h : cs[k]? = some c) :
    (E.dec i prev cs)[k]? = some (E.unmix (i + k) (E.sub c (before prev cs k))) := by
  induction cs generalizing i prev k with
  | nil => cases h
  | cons b cs ih =>
    rcases k with _ | k
    · obtain rfl := Option.some.inj h
      rfl
    · rw [List.getElem?_cons_succ] at h
      have hk : k < cs.length := (List.getElem?_eq_some_iff.mp h).1
      rw [dec, List.getElem?_cons_succ, ih _ _ h, before_cons_succ _ (Nat.le_of_lt hk),
        Nat.add_right_comm, Nat.add_assoc]

end ChainCipher
