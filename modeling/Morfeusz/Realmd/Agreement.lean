import Morfeusz.Realmd.LogonOrder

/-!
# The two ends of a logon agree

The secret of the daemon and the secret of the client are one number
(`Morfeusz.Realmd.secretS_eq`), provided the daemon still has the verifier, the
exponent and the public value of the challenge when the proof arrives. It has:
between the two, packets are refused, proofs fail, counts are asked for and the
verifier is computed once more, and none of it replaces a value by another.
-/

namespace Morfeusz.Realmd

variable {sha : Sha1} {c c' : Conn} {e : Event}

/-! ### The numbers -/

theorem val_publicB (v : Residue) (b : ℕ) :
    (publicB v multiplierK b).val = (3 * v.val + 7 ^ b % primeN) % primeN := by
  rw [publicB, val_residue, val_residueExp, mul_comm]
  rfl

/-- The secret of the daemon is the secret of the client, as an integer. -/
theorem intCast_secretS (x a b u : ℕ) :
    ((secretS (Client.publicA a) (residueExp generatorG x) u b).val : ℤ) =
      ((publicB (residueExp generatorG x) multiplierK b).val - 3 * 7 ^ x : ℤ) ^ (a + u * x) %
        primeN := by
  have hpos : (primeN : ℤ) ≠ 0 := Int.natCast_ne_zero.mpr primeN_pos.ne'
  rw [secretS_eq, Client.secretS, Int.toNat_of_nonneg (Int.emod_nonneg _ hpos)]

/-! ### The values of the challenge -/

/-- The values a challenge was sent with, computed from the exponent `x`. -/
structure Conn.Holds (x b : ℕ) (c : Conn) : Prop where
  k_eq : c.k = 3
  b_eq : c.b = b
  v_eq : c.v.val = 7 ^ x % primeN
  B_eq : c.B.val = (3 * c.v.val + 7 ^ b % primeN) % primeN

/-- A connection with an exponent has no lookup outstanding, and its values are
those of its account. -/
theorem Inv.challenged (hi : Inv sha c) (hb : c.b ≠ 0) : c.lookups = 0 ∧ c.Challenged sha := by
  rcases hi.phase with hu | ⟨-, hl, -, hc⟩
  · exact absurd hu.1 hb
  · exact ⟨hl, hc⟩

theorem Inv.holds (hi : Inv sha c) {I : ℕ} (hI : bnHex2bn (cStr c.acct.shaPass) = some I)
    (hb : c.b ≠ 0) : c.Holds (exponentX sha c.s I) c.b := by
  obtain ⟨-, I', hI', hv, hB⟩ := hi.challenged hb
  obtain rfl := Option.some.inj (hI.symm.trans hI')
  have hk := hi.k_eq
  refine ⟨hk, rfl, ?_, ?_⟩
  · rw [hv, verifierV, val_residueExp]
    rfl
  · rw [hB, hk, val_publicB]

theorem Conn.SameChallenge.refl (c : Conn) : c.SameChallenge c := ⟨rfl, rfl, rfl, rfl⟩

theorem Conn.SameChallenge.trans {c'' : Conn} (h : c.SameChallenge c') (h' : c'.SameChallenge c'') :
    c.SameChallenge c'' := by
  obtain ⟨hb, hv, hB, hp⟩ := h
  obtain ⟨hb', hv', hB', hp'⟩ := h'
  exact ⟨hb'.trans hb, hv'.trans hv, hB'.trans hB, hp'.trans hp⟩

/-- What a run keeps of the state it sets out from. -/
structure Conn.Keeps (sha : Sha1) (c c' : Conn) : Prop where
  challenge : c.SameChallenge c'
  setup : c.SameSetup c'
  inv : Inv sha c'

theorem Conn.Keeps.step {d d' : Conn} {g : Event} (h : c.Keeps sha d) (hb : c.b ≠ 0)
    (hstep : step sha d g = some d') : c.Keeps sha d' := by
  obtain ⟨hl, hc⟩ := h.inv.challenged (h.challenge.1 ▸ hb)
  have htrans := trans_of_step hstep
  obtain ⟨hk, hs, hip⟩ := htrans.sameSetup
  exact ⟨h.challenge.trans (htrans.sameChallenge hc hl),
    ⟨hk.trans h.setup.1, hs.trans h.setup.2.1, hip.trans h.setup.2.2⟩, h.inv.of_step hstep⟩

/-- **A run keeps the values of its challenge**, once there are any. -/
theorem keeps_of_run {es : List Event} (hi : Inv sha c) (hb : c.b ≠ 0)
    (h : Runs.run (step sha) c es = some c') : c.Keeps sha c' := by
  have h₀ : c.Keeps sha c := ⟨.refl c, ⟨rfl, rfl, rfl⟩, hi⟩
  exact Runs.run_invariant (fun _ _ _ hd hstep => hd.step hb hstep) h₀ h

/-- **The secrets agree, and the values they are computed from stay.** The first part
is about integers: whatever the exponents and the scrambler are, the secret of the
daemon is that of the client. The second is about runs: from a challenge on, the
multiplier, the verifier, the exponent and the public value are those the challenge
was sent with. -/
theorem secrets_agree (sha : Sha1) :
    (∀ x a b u : ℕ,
      let v := residueExp generatorG x
      let B := publicB v multiplierK b
      v.val = 7 ^ x % primeN ∧ B.val = (3 * v.val + 7 ^ b % primeN) % primeN ∧
        ((secretS (7 ^ a % primeN) v u b).val : ℤ) =
          ((B.val : ℤ) - 3 * 7 ^ x) ^ (a + u * x) % primeN) ∧
    ∀ f es i c e c', StepAt sha f es i c e c' → SendsSuccess c e c' →
      c.k = 3 ∧ ∃ I, bnHex2bn (cStr c'.acct.shaPass) = some I ∧
        ∀ n t, i < n → run sha f (es.take n) = some t →
          t.Holds (exponentX sha c'.s I) c'.b := by
  refine ⟨fun x a b u => ⟨val_residueExp _ _, val_publicB _ b, intCast_secretS x a b u⟩, ?_⟩
  intro f es i c e c' h hs
  -- the step after the challenge has its values, and the run from there keeps them
  have hi := inv_of_stepAt h
  have hi' := hi.of_step h.2.2
  have hb := (trans_of_stepAt h).exponent_of_sendsSuccess hs
  obtain ⟨-, I, hI, -⟩ := hi'.challenged hb
  refine ⟨hi.k_eq, I, hI, fun n t hn hrun => ?_⟩
  obtain ⟨⟨hbt, -, -, hpass⟩, ⟨-, hst, -⟩, hit⟩ := keeps_of_run hi' hb ((h.take hn).run_drop hrun)
  have hIt : bnHex2bn (cStr t.acct.shaPass) = some I := by rw [hpass, hI]
  have hholds := hit.holds hIt (hbt ▸ hb)
  rwa [hst, hbt] at hholds

/-- The sample, when its challenge was sent. -/
theorem secrets_agree_sample :
    ∃ c', run Sample.zeroSha Sample.start (Sample.events.take 3) = some c' ∧
      c'.Holds (exponentX Sample.zeroSha c'.s Sample.passwordHash) c'.b := by
  obtain ⟨c', hrun, -, hb'⟩ := Sample.exists_challenged Sample.zeroSha
  obtain ⟨c, hat⟩ := Runs.exists_stepAt hrun rfl
  have hb : ∀ d ∈ run Sample.zeroSha Sample.start (Sample.events.take 2), d.b = 0 := by
    decide +kernel
  have hpass : ∀ d ∈ run Sample.zeroSha Sample.start (Sample.events.take 3),
      bnHex2bn (cStr d.acct.shaPass) = some Sample.passwordHash := by decide +kernel
  have hs := ((trans_of_stepAt hat).sendsSuccess_of_exponent (inv_of_stepAt hat)
    (hb c hat.1) hb').1
  obtain ⟨-, I, hI, hholds⟩ := (secrets_agree Sample.zeroSha).2 _ _ _ _ _ _ hat hs
  obtain rfl := Option.some.inj (hI.symm.trans (hpass c' hrun))
  exact ⟨c', hrun, hholds 3 c' (by decide) hrun⟩

end Morfeusz.Realmd
