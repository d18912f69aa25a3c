import Mathlib.Algebra.Ring.Commute
import Mathlib.Tactic.Ring

/-!
# The key agreement of a remote password protocol

Over any commutative ring, a *host* that holds a verifier `v = g ^ x` and a *user*
that knows `x` agree on a secret by exchanging two public values: the user sends
`A = g ^ a`, the host sends `B = k * v + g ^ b`, and a scrambler `u` is derived
from both. The host raises `A * v ^ u` to `b`, the user raises `B - k * g ^ x` to
`a + u * x`, and both get `g ^ (b * (a + u * x))`
(`RemotePassword.hostSecret_eq_userSecret`).

The agreement says nothing about a user that does not play by the rules. Where
the public value is zero in the ring the secret of the host is zero whatever the
verifier is (`RemotePassword.hostSecret_of_public_zero`): that is why the
protocol asks the host to refuse such a value.
-/

namespace RemotePassword

variable {R : Type*} [CommRing R]

/-- The verifier of the password exponent `x`. -/
def verifier (g : R) (x : ℕ) : R := g ^ x

/-- The public value of the host. -/
def hostPublic (g k v : R) (b : ℕ) : R := k * v + g ^ b

/-- The secret the host computes. -/
def hostSecret (A v : R) (u b : ℕ) : R := (A * v ^ u) ^ b

/-- The secret the user computes. -/
def userSecret (g k B : R) (x u a : ℕ) : R := (B - k * g ^ x) ^ (a + u * x)

/-- **The two ends agree.** -/
theorem hostSecret_eq_userSecret (g k : R) (x u a b : ℕ) :
    hostSecret (g ^ a) (verifier g x) u b =
      userSecret g k (hostPublic g k (verifier g x) b) x u a := by
  have hB : hostPublic g k (verifier g x) b - k * g ^ x = g ^ b := by
    rw [hostPublic, verifier]
    ring
  rw [userSecret, hB, hostSecret, verifier, ← pow_mul, ← pow_add, ← pow_mul, ← pow_mul]
  congr 1
  ring

/-- **A zero public value takes the password out of the secret.** -/
theorem hostSecret_of_public_zero (v : R) (u : ℕ) {b : ℕ} (hb : b ≠ 0) :
    hostSecret 0 v u b = 0 := by
  rw [hostSecret, zero_mul, zero_pow hb]

/-- An exponent the host has not drawn yet takes everything out of it. -/
theorem hostSecret_of_exponent_zero (A v : R) (u : ℕ) : hostSecret A v u 0 = 1 := by
  rw [hostSecret, pow_zero]

end RemotePassword
