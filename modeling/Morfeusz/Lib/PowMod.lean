import Mathlib.Algebra.Order.Ring.Nat
import Mathlib.Data.Nat.ModEq
import Mathlib.Tactic.Ring

/-!
# Modular exponentiation that computes

`a ^ e % n` with an exponent of a few hundred bits cannot be evaluated as it is
written: the power has too many digits. `PowMod.powMod` squares and multiplies,
reducing at every step, so that it can be run on numbers of cryptographic size;
`PowMod.powMod_eq` says that it is the remainder of the power.
-/

namespace PowMod

/-- Square-and-multiply from the low bit of the exponent up. The fuel bounds the
number of bits, and `acc` collects the factors already passed. -/
def powModFrom (n : ℕ) : ℕ → ℕ → ℕ → ℕ → ℕ
  | 0, _, _, acc => acc
  | fuel + 1, a, e, acc =>
    if e = 0 then acc
    else powModFrom n fuel (a * a % n) (e / 2) (if e % 2 = 1 then acc * a % n else acc)

/-- `a ^ e` modulo `n`. -/
def powMod (a e n : ℕ) : ℕ := powModFrom n (Nat.log2 e + 1) (a % n) e (1 % n)

theorem powModFrom_modEq (n : ℕ) :
    ∀ (fuel a e acc : ℕ), e < 2 ^ fuel → powModFrom n fuel a e acc ≡ acc * a ^ e [MOD n] := by
  intro fuel
  induction fuel with
  | zero =>
    intro a e acc he
    obtain rfl : e = 0 := by simpa using he
    simpa [powModFrom] using Nat.ModEq.refl acc
  | succ fuel ih =>
    intro a e acc he
    rw [powModFrom]
    split
    · next h0 =>
      rw [h0, pow_zero, mul_one]
    -- the square of the base takes half of the exponent, the odd bit goes to the accumulator
    · have hhalf : e / 2 < 2 ^ fuel := by
        rw [pow_succ] at he
        omega
      refine (ih _ _ _ hhalf).trans ?_
      have hsq : (a * a % n) ^ (e / 2) ≡ a ^ (2 * (e / 2)) [MOD n] := by
        rw [pow_mul, pow_two]
        exact (Nat.mod_modEq _ _).pow _
      split
      · next hodd =>
        have he2 : e = 2 * (e / 2) + 1 := by omega
        calc acc * a % n * (a * a % n) ^ (e / 2)
            ≡ acc * a * a ^ (2 * (e / 2)) [MOD n] := (Nat.mod_modEq _ _).mul hsq
          _ = acc * a ^ (2 * (e / 2) + 1) := by ring
          _ = acc * a ^ e := by rw [← he2]
      · next heven =>
        have he2 : e = 2 * (e / 2) := by omega
        calc acc * (a * a % n) ^ (e / 2)
            ≡ acc * a ^ (2 * (e / 2)) [MOD n] := (Nat.ModEq.refl acc).mul hsq
          _ = acc * a ^ e := by rw [← he2]

theorem powModFrom_lt {n : ℕ} (hn : 0 < n) :
    ∀ (fuel a e acc : ℕ), acc < n → powModFrom n fuel a e acc < n := by
  intro fuel
  induction fuel with
  | zero => exact fun _ _ _ h => h
  | succ fuel ih =>
    intro a e acc h
    rw [powModFrom]
    split
    · exact h
    · refine ih _ _ _ ?_
      split
      · exact Nat.mod_lt _ hn
      · exact h

/-- **Square-and-multiply computes the remainder of the power.** -/
theorem powMod_eq {n : ℕ} (hn : 0 < n) (a e : ℕ) : powMod a e n = a ^ e % n := by
  have hmod : powMod a e n ≡ a ^ e [MOD n] := by
    calc powMod a e n ≡ 1 % n * (a % n) ^ e [MOD n] := powModFrom_modEq n _ _ _ _ Nat.lt_log2_self
      _ ≡ 1 * a ^ e [MOD n] := (Nat.mod_modEq _ _).mul ((Nat.mod_modEq _ _).pow e)
      _ = a ^ e := one_mul _
  have hlt : powMod a e n < n := powModFrom_lt hn _ _ _ _ (Nat.mod_lt _ hn)
  rw [← Nat.mod_eq_of_lt hlt]
  exact hmod

theorem powMod_lt {n : ℕ} (hn : 0 < n) (a e : ℕ) : powMod a e n < n := by
  rw [powMod_eq hn]
  exact Nat.mod_lt _ hn

end PowMod
