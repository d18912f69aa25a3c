import Mathlib.Data.Nat.Bitwise

/-!
# Functions that respect exclusive or

Shifts, masks and their exclusive ors respect exclusive or (`XorLinear.Additive`). Two
functions that do are equal on the numbers of `w` digits as soon as they are equal on the
`w` powers of two (`XorLinear.eq_of_basis`) – which is a computation.
-/

namespace XorLinear

variable {n m l : ℕ}

/-- The function takes an exclusive or to the exclusive or of its values. -/
def Additive (F : BitVec n → BitVec m) : Prop := ∀ a b, F (a ^^^ b) = F a ^^^ F b

theorem Additive.id : Additive fun a : BitVec n => a := fun _ _ => rfl

theorem Additive.xor {F G : BitVec n → BitVec m} (hF : Additive F) (hG : Additive G) :
    Additive fun a => F a ^^^ G a := by
  intro a b
  dsimp only
  rw [hF, hG]
  ac_rfl

theorem Additive.shiftLeft {F : BitVec n → BitVec m} (hF : Additive F) (k : ℕ) :
    Additive fun a => F a <<< k := by
  intro a b
  dsimp only
  rw [hF, BitVec.shiftLeft_xor_distrib]

theorem Additive.shiftRight {F : BitVec n → BitVec m} (hF : Additive F) (k : ℕ) :
    Additive fun a => F a >>> k := by
  intro a b
  dsimp only
  rw [hF, BitVec.ushiftRight_xor_distrib]

theorem Additive.and {F : BitVec n → BitVec m} (hF : Additive F) (mask : BitVec m) :
    Additive fun a => F a &&& mask := by
  intro a b
  dsimp only
  rw [hF]
  ext i hi
  simp only [BitVec.getElem_and, BitVec.getElem_xor]
  exact Bool.and_xor_distrib_right _ _ _

theorem Additive.comp {F : BitVec n → BitVec m} {G : BitVec m → BitVec l} (hG : Additive G)
    (hF : Additive F) : Additive fun a => G (F a) := by
  intro a b
  dsimp only
  rw [hF, hG]

theorem Additive.zero {F : BitVec n → BitVec m} (hF : Additive F) : F 0 = 0 := by
  have h := hF 0 0
  rwa [BitVec.xor_self, BitVec.xor_self] at h

/-- A number of `w + 1` digits is one of `w` digits, or one with the digit `w` set. -/
theorem lt_or_exists_xor {w : ℕ} {y : BitVec n} (hw : w < n) (hy : y.toNat < 2 ^ (w + 1)) :
    y.toNat < 2 ^ w ∨ ∃ z : BitVec n, z.toNat < 2 ^ w ∧ y = z ^^^ BitVec.twoPow n w := by
  rcases Nat.lt_or_ge y.toNat (2 ^ w) with hlt | hge
  · exact Or.inl hlt
  · refine Or.inr ⟨y ^^^ BitVec.twoPow n w, ?_, ?_⟩
    · rw [BitVec.toNat_xor, BitVec.toNat_twoPow_of_lt hw]
      refine Nat.lt_pow_two_of_testBit _ fun i hi => ?_
      rw [Nat.testBit_xor, Nat.testBit_two_pow]
      rcases Nat.eq_or_lt_of_le hi with rfl | hlt
      · have hset : y.toNat.testBit w = true := by
          rw [Nat.testBit_eq_decide_div_mod_eq]
          have hdiv : y.toNat / 2 ^ w = 1 := by
            rw [Nat.div_eq_iff (Nat.two_pow_pos w)]
            omega
          rw [hdiv]
          rfl
        simp [hset]
      · have hclear : y.toNat.testBit i = false :=
          Nat.testBit_lt_two_pow (Nat.lt_of_lt_of_le hy (Nat.pow_le_pow_right (by omega) hlt))
        simp [hclear, Nat.ne_of_lt hlt]
    · rw [BitVec.xor_assoc, BitVec.xor_self, BitVec.xor_zero]

/-- **Powers of two are enough.** -/
theorem eq_of_basis {F G : BitVec n → BitVec m} (hF : Additive F) (hG : Additive G) {w : ℕ}
    (hw : w ≤ n) (hbasis : ∀ i < w, F (BitVec.twoPow n i) = G (BitVec.twoPow n i))
    {y : BitVec n} (hy : y.toNat < 2 ^ w) : F y = G y := by
  induction w generalizing y with
  | zero =>
    obtain rfl : y = 0 := BitVec.eq_of_toNat_eq (by simpa using hy)
    rw [hF.zero, hG.zero]
  | succ w ih =>
    have hbasis' := fun i hi => hbasis i (Nat.lt_succ_of_lt hi)
    rcases lt_or_exists_xor hw hy with hlt | ⟨z, hz, rfl⟩
    · exact ih (by omega) hbasis' hlt
    · rw [hF, hG, ih (by omega) hbasis' hz, hbasis w (Nat.lt_succ_self w)]

end XorLinear
