import Morfeusz.Realmd.Admission
import Morfeusz.Realmd.Challenge

/-!
# What a logon proof proves

A proof is accepted when its hash is the one the daemon computes, and the daemon
computes it from the secret `S`. The password enters through `S` alone
(`Morfeusz.Realmd.Conn.expectedM_eq`), so a client that knows `S` need not know
the password – and there are two ways to know it. A public value that is zero
modulo `N` makes the secret zero, because nothing refuses it; and a proof that
comes before the challenge was sent finds the exponent `b` still zero, which makes
the secret one, because the state that lets a proof through is set before the
account was looked up.

Neither is written to a full buffer: the bytes the key is hashed out of are then
those the stack held.
-/

namespace Morfeusz.Realmd

open ByteNumbers

variable {sha : Sha1} {env : Env} {c c' : Conn} {e : Event}

/-! ### The proof as a function of the secret -/

/-- The proof of a client that has the secret `S`: everything else in it was sent in
the clear, or is the name of the account. -/
def proofForSecret (sha : Sha1) (env : Env) (c : Conn) (A : List UInt8) (S : Residue) : Bytes 20 :=
  proofM sha c.login (reversedBuffer 32 c.s.val) A (reversedBuffer 32 c.B.val)
    (interleavedKey sha (secretBuffer env.stackS S))

/-- The secret the daemon computes for a public value. -/
def Conn.secret (sha : Sha1) (c : Conn) (A : List UInt8) : Residue :=
  secretS (leVal A) c.v (scramblerU sha A c.B) c.b

theorem Conn.expectedM_eq (A : List UInt8) :
    c.expectedM sha env A = proofForSecret sha env c A (c.secret sha A) := by
  rw [expectedM, sessionKey, proofForSecret, secret, bnBin2bn, beVal_reverse]

/-- **A public value divisible by `N` makes the secret zero**, whatever the verifier
is. -/
theorem secretS_of_dvd {A u b : ℕ} {v : Residue} (hA : primeN ∣ A) (hb : b ≠ 0) :
    secretS A v u b = residue 0 := by
  have hzero : (A : ℤ) ≡ 0 [ZMOD primeN] :=
    Int.modEq_zero_iff_dvd.mpr (Int.natCast_dvd_natCast.mpr hA)
  have hhost : RemotePassword.hostSecret (A : ℤ) v.val u b ≡ 0 [ZMOD primeN] := by
    rw [← RemotePassword.hostSecret_of_public_zero (v.val : ℤ) u hb]
    exact (hzero.mul_right _).pow b
  exact Residue.eq_of_modEq (((secretS_modEq A u b v).trans hhost).trans (residue_modEq 0).symm)

/-- **Without an exponent the secret is one**, whatever the client sent. -/
theorem secretS_of_exponent_zero {A u : ℕ} {v : Residue} : secretS A v u 0 = residue 1 := by
  have hhost := secretS_modEq A u 0 v
  rw [RemotePassword.hostSecret_of_exponent_zero] at hhost
  exact Residue.eq_of_modEq (hhost.trans (residue_modEq 1).symm)

/-! ### Acceptance -/

/-- A proof that passes is accepted, for a client of a supported build. -/
theorem Conn.handleAuthLogonProof_of_proof {raw : Received} (hstate : c.state = .needProof)
    (hbuild : isSupportedClientBuild c.clientBuild = true)
    (hproof : raw.proofM1 = (c.expectedM sha env raw.publicA).val) :
    ∃ c', c.handleAuthLogonProof sha env raw = some c' ∧ c'.state = .authed := by
  obtain ⟨build, hbuild⟩ := Option.isSome_iff_exists.mp hbuild
  obtain ⟨data, hdata⟩ := exists_logonProofPacket build (Bytes.length (proofHamk sha raw.publicA
    (c.expectedM sha env raw.publicA).val (c.sessionKey sha env raw.publicA)))
  have hsame : (c.updateAccount (c.sessionKey sha env raw.publicA)).clientBuild =
      c.clientBuild := rfl
  refine ⟨{ (c.updateAccount (c.sessionKey sha env raw.publicA)).send data with
    state := .authed }, ?_, rfl⟩
  rw [handleAuthLogonProof, if_neg (not_not.mpr hstate)]
  dsimp only
  rw [if_pos hproof, hsame, hbuild]
  dsimp only
  rw [hdata]
  rfl

/-- An accepted proof passed: the state asked for it, and its hash is the one
computed. -/
theorem Conn.proof_of_handleAuthLogonProof {raw : Received}
    (h : c.handleAuthLogonProof sha env raw = some c') (hauthed : c'.state = .authed) :
    c.state = .needProof ∧ raw.proofM1 = (c.expectedM sha env raw.publicA).val := by
  rw [handleAuthLogonProof] at h
  split at h
  · rw [← Option.some.inj h] at hauthed
    cases hauthed
  · next hstate =>
    have hstate := not_not.mp hstate
    dsimp only at h
    split at h
    · next hproof => exact ⟨hstate, hproof⟩
    -- a failed login keeps the state, and that one is not `authed`
    · obtain ⟨failed, reqs, rfl⟩ := handleFailedLogin_some h
      cases hstate.symm.trans hauthed

/-- **Acceptance is the comparison.** -/
theorem Reachable.accepts_iff (hc : Reachable sha c) {raw : Received} :
    (∃ c', c.handleAuthLogonProof sha env raw = some c' ∧ c'.state = .authed) ↔
      c.state = .needProof ∧ raw.proofM1 = (c.expectedM sha env raw.publicA).val := by
  constructor
  · rintro ⟨c', h, hauthed⟩
    exact Conn.proof_of_handleAuthLogonProof h hauthed
  · rintro ⟨hstate, hproof⟩
    exact Conn.handleAuthLogonProof_of_proof hstate (hc.inv.build hstate) hproof

/-! ### A public value that is zero -/

/-- The secret of a connection that is sent a zero public value: zero once there is
an exponent, and one before. -/
def Conn.zeroSecret (c : Conn) : Residue := if c.b = 0 then residue 1 else residue 0

theorem Conn.secret_of_dvd {A : List UInt8} (hA : primeN ∣ leVal A) :
    c.secret sha A = c.zeroSecret := by
  rw [secret, zeroSecret]
  split
  · next hb => rw [hb, secretS_of_exponent_zero]
  · next hb => exact secretS_of_dvd hA hb

/-- **When an accepted public value is not zero.** In a reachable state, a logon
proof whose public value is zero modulo `N` is refused exactly when its hash is not
the one for the secret everybody knows. -/
theorem accepted_publicA_ne_zero_iff (hc : Reachable sha c) (env : Env) (raw : Received) :
    (∀ c', c.handleAuthLogonProof sha env raw = some c' → c'.state = .authed →
      ¬primeN ∣ leVal raw.publicA) ↔
    (c.state = .needProof → primeN ∣ leVal raw.publicA →
      raw.proofM1 ≠ (proofForSecret sha env c raw.publicA c.zeroSecret).val) := by
  constructor
  -- the client that sends this hash is let in with its zero
  · intro hclaim hstate hA hproof
    rw [← Conn.secret_of_dvd hA, ← Conn.expectedM_eq] at hproof
    obtain ⟨c', h, hauthed⟩ := hc.accepts_iff.mpr ⟨hstate, hproof⟩
    exact hclaim c' h hauthed hA
  · intro hcond c' h hauthed hA
    obtain ⟨hstate, hproof⟩ := Conn.proof_of_handleAuthLogonProof h hauthed
    rw [Conn.expectedM_eq, Conn.secret_of_dvd hA] at hproof
    exact hcond hstate hA hproof

namespace Sample

/-- The account of the sample, as it is read out of its row. -/
def acct : Account where
  shaPass := List.replicate 40 49
  id := 7
  locked := false
  lastIp := ip
  gmlevel := 0
  failedLogins := 0

/-- The password hash of the sample. -/
def passwordHash : ℕ := beVal (List.replicate 20 0x11)

/-- The sample gets its challenge, whatever the hash function is. -/
theorem exists_challenged (sha : Sha1) :
    ∃ c, run sha start (events.take 3) = some c ∧ c.state = .needProof ∧ c.b ≠ 0 := by
  have hrun : run sha start (events.take 3) = (logonConn start build login acct).startLogon sha
      env.randB.val env.randNonce.val :=
    run_logonEvents (by decide) rfl (by decide) (by decide) (by decide +kernel) nofun
  have hhash : bnHex2bn (cStr acct.shaPass) = some passwordHash := by decide +kernel
  obtain ⟨reqs, hstart⟩ := @Conn.startLogon_eq sha (logonConn start build login acct) passwordHash
    env.randB.val env.randNonce.val hhash (by decide +kernel)
    (@BnRand.numBytes_val 15 env.randNonce)
  exact ⟨_, hrun.trans hstart, rfl, env.randB.pos.ne'⟩

end Sample

/-- The sample, and a proof for the public value zero. -/
theorem accepted_publicA_ne_zero_iff_sample :
    ∃ c, run Sample.zeroSha Sample.start (Sample.events.take 3) = some c ∧
      ((∀ c', c.handleAuthLogonProof Sample.zeroSha Sample.env
          (Client.logonProof (Bytes.zero 32) (Bytes.zero 20)) = some c' → c'.state = .authed →
            ¬primeN ∣ leVal (Client.logonProof (Bytes.zero 32) (Bytes.zero 20)).publicA) ↔
        (c.state = .needProof →
          primeN ∣ leVal (Client.logonProof (Bytes.zero 32) (Bytes.zero 20)).publicA →
          (Client.logonProof (Bytes.zero 32) (Bytes.zero 20)).proofM1 ≠
            (proofForSecret Sample.zeroSha Sample.env c
              (Client.logonProof (Bytes.zero 32) (Bytes.zero 20)).publicA c.zeroSecret).val)) := by
  obtain ⟨c, hrun, -, -⟩ := Sample.exists_challenged Sample.zeroSha
  exact ⟨c, hrun, accepted_publicA_ne_zero_iff ⟨_, _, hrun⟩ _ _⟩

/-- **The daemon accepts the public value zero**, whatever the hash function is: the
client answers the challenge of the sample with the proof for the secret zero. -/
theorem accepts_publicA_zero :
    ¬∃ sha, ∀ c env raw c', Reachable sha c →
      c.handleAuthLogonProof sha env raw = some c' → c'.state = .authed →
        ¬primeN ∣ leVal raw.publicA := by
  rintro ⟨sha, hclaim⟩
  obtain ⟨c, hrun, hstate, hb⟩ := Sample.exists_challenged sha
  have hc : Reachable sha c := ⟨_, _, hrun⟩
  let raw := Client.logonProof (Bytes.zero 32)
    (proofForSecret sha Sample.env c (Bytes.zero 32).val c.zeroSecret)
  have hA : primeN ∣ leVal raw.publicA := by
    rw [Client.publicA_logonProof, Bytes.zero, leVal_replicate_zero]
    exact dvd_zero _
  have hproof : raw.proofM1 = (c.expectedM sha Sample.env raw.publicA).val := by
    rw [Conn.expectedM_eq, Conn.secret_of_dvd hA, Client.publicA_logonProof,
      Client.proofM1_logonProof]
  obtain ⟨c', h, hauthed⟩ := hc.accepts_iff.mpr ⟨hstate, hproof⟩
  exact hclaim c Sample.env raw c' hc h hauthed hA

end Morfeusz.Realmd
