import Mathlib.Data.Int.ModEq
import Morfeusz.Lib.RemotePassword
import Morfeusz.Realmd.Handlers

/-!
# The client of the realm daemon

What an honest client does: the packets it sends, and the numbers it computes from
its password hash and from what the daemon told it. Every number of the client is
written in little-endian order into a buffer of fixed length, padded with zeros,
which is what the protocol means by it; where the daemon does something else the
two ends part.
-/

namespace Morfeusz.Realmd

open ByteNumbers

namespace Client

/-! ### Packets -/

/-- A packet of the client that arrives in one piece. -/
def packet (cmd : EAuthCmd) (body : List UInt8) (h : body.length ≤ 4095) : Received where
  bytes := cmd.code :: body
  ne_nil := List.cons_ne_nil _ _
  length_le := Nat.succ_le_succ h

@[simp] theorem cmd_packet (cmd : EAuthCmd) {body : List UInt8} (h : body.length ≤ 4095) :
    (packet cmd body h).cmd = cmd.code := rfl

/-- A name a challenge can carry. -/
abbrev Name := {name : List UInt8 // name.length ≤ 255}

/-- `AUTH_LOGON_CHALLENGE_C` and the reconnect challenge, which share their layout:
ten bytes the daemon does not look at, the build, twenty more, and the name. -/
def challenge (cmd : EAuthCmd) (build : UInt16) (name : Name) : Received :=
  packet cmd (List.replicate 10 0 ++ leBytes 2 build.toNat ++ List.replicate 20 0 ++
    [UInt8.ofNat name.val.length] ++ name.val) (by
      have := name.property
      simp
      omega)

/-- `AUTH_LOGON_PROOF_C`, with the fields the daemon does not look at left zero. -/
def logonProof (A : Bytes 32) (M1 : Bytes 20) : Received :=
  packet .authLogonProof (A.val ++ M1.val ++ List.replicate 22 0) (by simp)

/-- `AUTH_RECONNECT_PROOF_C`, likewise. -/
def reconnectProof (R1 : Bytes 16) (R2 : Bytes 20) : Received :=
  packet .authReconnectProof (R1.val ++ R2.val ++ List.replicate 21 0) (by simp)

/-- The request for the realm list. -/
def realmList : Received := packet .realmList (List.replicate 4 0) (by simp)

/-- What the daemon reads out of a proof packet is what the client put there. -/
theorem publicA_logonProof (A : Bytes 32) (M1 : Bytes 20) : (logonProof A M1).publicA = A.val := by
  have hbytes : (logonProof A M1).bytes =
      [EAuthCmd.authLogonProof.code] ++ A.val ++ (M1.val ++ List.replicate 22 0) := by
    simp [logonProof, packet]
  have := Received.field_of_append hbytes
  rwa [A.length] at this

theorem proofM1_logonProof (A : Bytes 32) (M1 : Bytes 20) :
    (logonProof A M1).proofM1 = M1.val := by
  have hbytes : (logonProof A M1).bytes =
      (EAuthCmd.authLogonProof.code :: A.val) ++ M1.val ++ List.replicate 22 0 := by
    simp [logonProof, packet]
  have := Received.field_of_append hbytes
  rwa [M1.length, List.length_cons, A.length] at this

theorem proofR1_reconnectProof (R1 : Bytes 16) (R2 : Bytes 20) :
    (reconnectProof R1 R2).proofR1 = R1.val := by
  have hbytes : (reconnectProof R1 R2).bytes =
      [EAuthCmd.authReconnectProof.code] ++ R1.val ++ (R2.val ++ List.replicate 21 0) := by
    simp [reconnectProof, packet]
  have := Received.field_of_append hbytes
  rwa [R1.length] at this

theorem proofR2_reconnectProof (R1 : Bytes 16) (R2 : Bytes 20) :
    (reconnectProof R1 R2).proofR2 = R2.val := by
  have hbytes : (reconnectProof R1 R2).bytes =
      (EAuthCmd.authReconnectProof.code :: R1.val) ++ R2.val ++ List.replicate 21 0 := by
    simp [reconnectProof, packet]
  have := Received.field_of_append hbytes
  rwa [R2.length, List.length_cons, R1.length] at this

/-- The same for a challenge: the build, and the name with its length. -/
theorem build_challenge (cmd : EAuthCmd) (build : UInt16) (name : Name) :
    (challenge cmd build name).build = build := by
  have hbytes : (challenge cmd build name).bytes =
      (cmd.code :: List.replicate 10 0) ++ leBytes 2 build.toNat ++
        (List.replicate 20 0 ++ [UInt8.ofNat name.val.length] ++ name.val) := by
    simp [challenge, packet]
  have hfield := Received.field_of_append hbytes
  have hlen : (cmd.code :: List.replicate 10 (0 : UInt8)).length = 11 := by simp
  rw [hlen, length_leBytes] at hfield
  rw [Received.build, hfield, leVal_leBytes_of_lt build.toNat_lt, UInt16.ofNat_toNat]

theorem i_challenge (cmd : EAuthCmd) (build : UInt16) (name : Name) :
    ∃ rest, (challenge cmd build name).i = name.val ++ 0 :: rest := by
  have hname := name.property
  refine ⟨List.replicate (4061 - name.val.length) 0, ?_⟩
  have hlen : (cmd.code :: (List.replicate 10 0 ++ leBytes 2 build.toNat ++ List.replicate 20 0 ++
      [UInt8.ofNat name.val.length])).length = 34 := by simp
  have hbytes : (challenge cmd build name).bytes =
      (cmd.code :: (List.replicate 10 0 ++ leBytes 2 build.toNat ++ List.replicate 20 0 ++
        [UInt8.ofNat name.val.length])) ++ name.val := by
    simp [challenge, packet]
  have hpad : 4096 - (challenge cmd build name).bytes.length = 4061 - name.val.length + 1 := by
    rw [hbytes, List.length_append, hlen]
    omega
  rw [Received.i, Received.rawBuf, hpad, List.replicate_succ, hbytes, List.append_assoc,
    List.drop_left' hlen]

theorem take_i_challenge (cmd : EAuthCmd) (build : UInt16) (name : Name) :
    (challenge cmd build name).i.take (challenge cmd build name).iLen.toNat = name.val := by
  have hname := name.property
  have hbytes : (challenge cmd build name).bytes =
      (cmd.code :: (List.replicate 10 0 ++ leBytes 2 build.toNat ++ List.replicate 20 0)) ++
        [UInt8.ofNat name.val.length] ++ name.val := by
    simp [challenge, packet]
  have hfield := Received.field_of_append hbytes
  have hlen : (cmd.code :: (List.replicate 10 0 ++ leBytes 2 build.toNat ++
      List.replicate 20 (0 : UInt8))).length = 33 := by simp
  rw [hlen, List.length_singleton] at hfield
  obtain ⟨rest, hi⟩ := i_challenge cmd build name
  have hiLen : (challenge cmd build name).iLen.toNat = name.val.length := by
    rw [Received.iLen, hfield, List.headD_cons, UInt8.toNat_ofNat']
    omega
  rw [hi, hiLen, List.take_left' rfl]

/-- The C string that starts at a name is the name up to its first NUL. -/
theorem cStr_i_challenge (cmd : EAuthCmd) (build : UInt16) (name : Name) :
    cStr (challenge cmd build name).i = cStr name.val := by
  obtain ⟨rest, hi⟩ := i_challenge cmd build name
  rw [hi, cStr, List.takeWhile_append]
  split
  · next hall =>
    rw [List.takeWhile_cons_of_neg (by simp), List.append_nil, cStr]
    exact ((List.takeWhile_prefix _).eq_of_length hall).symm
  · rfl

/-! ### Numbers -/

variable (sha : Sha1)

/-- The public value of the client. -/
def publicA (a : ℕ) : ℕ := 7 ^ a % primeN

/-- `x`, from the salt and the password hash. -/
def exponentX (s : ℕ) (P : Bytes 20) : ℕ := leVal (sha (leBytes 32 s ++ P.val)).val

/-- `u`, from the two public values. -/
def scramblerU (A B : ℕ) : ℕ := leVal (sha (leBytes 32 A ++ leBytes 32 B)).val

/-- The secret of the client. -/
def secretS (a B x u : ℕ) : ℕ := (((B : ℤ) - 3 * 7 ^ x) ^ (a + u * x) % primeN).toNat

/-- The proof of the client, from the two values of the challenge packet. -/
def proofM1 (login : List UInt8) (P : Bytes 20) (a B s : ℕ) : Bytes 20 :=
  let x := exponentX sha s P
  let u := scramblerU sha (publicA a) B
  let K := interleavedKey sha (leBytes 32 (secretS a B x u))
  sha (List.zipWith (· ^^^ ·) (sha (leBytes 32 primeN)).val (sha [7]).val ++ (sha login).val ++
    leBytes 32 s ++ leBytes 32 (publicA a) ++ leBytes 32 B ++ K)

/-- The public value of the daemon and the salt, as the client reads them in the
challenge packet. -/
def readB (pkt : ByteBuffer) : ℕ := leVal ((pkt.storage.drop 3).take 32)

def readSalt (pkt : ByteBuffer) : ℕ := leVal ((pkt.storage.drop 70).take 32)

/-- The answer of the client to a challenge packet. -/
def answer (login : List UInt8) (P : Bytes 20) (a : ℕ) (pkt : ByteBuffer) : Received :=
  logonProof ⟨leBytes 32 (publicA a), by simp⟩
    (proofM1 sha login P a (readB pkt) (readSalt pkt))

end Client

/-! ### The agreement -/

theorem residueExp_modEq (a e : ℕ) : ((residueExp a e).val : ℤ) ≡ (a : ℤ) ^ e [ZMOD primeN] := by
  rw [val_residueExp]
  push_cast
  exact Int.mod_modEq _ _

/-- Residues that are congruent are one. -/
theorem Residue.eq_of_modEq {m n : Residue} (h : (m.val : ℤ) ≡ n.val [ZMOD primeN]) : m = n := by
  have hmod : m.val ≡ n.val [MOD primeN] := Int.natCast_modEq_iff.mp h
  exact Subtype.ext (hmod.eq_of_lt_of_lt m.property n.property)

theorem residue_modEq (n : ℕ) : ((residue n).val : ℤ) ≡ n [ZMOD primeN] := by
  rw [val_residue]
  push_cast
  exact Int.mod_modEq _ _

/-- Where the daemon's values are those of the exponent `x`, its public value is
that of the protocol. -/
theorem publicB_modEq (x b : ℕ) :
    ((publicB (residueExp generatorG x) multiplierK b).val : ℤ) ≡
      RemotePassword.hostPublic 7 3 (RemotePassword.verifier 7 x) b [ZMOD primeN] := by
  refine (residue_modEq _).trans ?_
  push_cast [multiplierK]
  have hv := (residueExp_modEq generatorG x).mul_right 3
  have hb := residueExp_modEq generatorG b
  rw [RemotePassword.hostPublic, RemotePassword.verifier, mul_comm 3]
  exact hv.add hb

/-- The secret of the daemon is the one a host computes. -/
theorem secretS_modEq (A u b : ℕ) (v : Residue) :
    ((secretS A v u b).val : ℤ) ≡ RemotePassword.hostSecret (A : ℤ) v.val u b [ZMOD primeN] := by
  have hbase : ((A * (residueExp v.val u).val : ℕ) : ℤ) ≡ A * (v.val : ℤ) ^ u [ZMOD primeN] := by
    push_cast
    exact (residueExp_modEq v.val u).mul_left A
  exact (residueExp_modEq _ b).trans (hbase.pow b)

/-- **The daemon and the client agree on the secret**, for every exponent and every
scrambler. -/
theorem secretS_eq (x a b u : ℕ) :
    (secretS (Client.publicA a) (residueExp generatorG x) u b).val =
      Client.secretS a (publicB (residueExp generatorG x) multiplierK b).val x u := by
  have hA : ((Client.publicA a : ℕ) : ℤ) ≡ 7 ^ a [ZMOD primeN] := by
    rw [Client.publicA]
    push_cast
    exact Int.mod_modEq _ _
  have hhost : ((secretS (Client.publicA a) (residueExp generatorG x) u b).val : ℤ) ≡
      RemotePassword.hostSecret (7 ^ a) (RemotePassword.verifier 7 x) u b [ZMOD primeN] := by
    have hvu := (residueExp_modEq generatorG x).pow u
    exact (secretS_modEq _ u b _).trans ((hA.mul hvu).pow b)
  have huser :
      ((publicB (residueExp generatorG x) multiplierK b).val - 3 * 7 ^ x : ℤ) ^ (a + u * x) ≡
      RemotePassword.userSecret 7 3
        (RemotePassword.hostPublic 7 3 (RemotePassword.verifier 7 x) b) x u a [ZMOD primeN] :=
    ((publicB_modEq x b).sub_right _).pow _
  rw [RemotePassword.hostSecret_eq_userSecret] at hhost
  have hmod := hhost.trans huser.symm
  have hlt := Int.ofNat_lt.mpr (secretS (Client.publicA a) (residueExp generatorG x) u b).property
  have hnonneg := Int.natCast_nonneg (secretS (Client.publicA a) (residueExp generatorG x) u b).val
  rw [Client.secretS, ← hmod.eq, Int.emod_eq_of_lt hnonneg hlt, Int.toNat_natCast]

end Morfeusz.Realmd
