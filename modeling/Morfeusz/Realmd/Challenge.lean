import Morfeusz.Realmd.Client
import Morfeusz.Realmd.Transitions

/-!
# The challenge of a logon

Where an account has a password hash of at most twenty bytes, `account_checked`
always gets to its challenge packet (`Morfeusz.Realmd.Conn.startLogon_eq`), and
this file says what the packet is: the public value, the generator, the prime, the
salt and sixteen random bytes. The prime and the salt fill the buffer they are
written to, so they are in the packet in little-endian order; the public value is
in whatever order the reversal left it.
-/

namespace Morfeusz.Realmd

open ByteNumbers ByteBuffer

variable {sha : Sha1} {c : Conn}

/-- The bytes of a challenge packet. -/
def challengeBytes (c : Conn) (nonce : ℕ) : List UInt8 :=
  [0x00, 0x00, 0x00] ++ reversedBuffer 32 c.B.val ++ [1, 7, 32] ++ leBytes 32 primeN ++
    leBytes 32 c.s.val ++ beBytes 16 nonce ++ [0]

theorem length_reversedBuffer_residue (n : Residue) : (reversedBuffer 32 n.val).length = 32 :=
  length_reversedBuffer n.lt

/-- A full number written to a buffer and reversed. -/
theorem reverse_bnBn2bin_of_full {n w : ℕ} {buf : List UInt8} (hn : numBytes n = w)
    (hbuf : buf.length = w) : (bnBn2bin n buf).reverse = leBytes w n := by
  rw [bnBn2bin, reverse_overwrite_of_full (hn.trans hbuf.symm), hbuf]

/-- **The challenge packet**, value by value. -/
theorem Conn.challengePacket_eq (c : Conn) {nonce : ℕ} (hnonce : numBytes nonce = 16) :
    c.challengePacket nonce = some (ofBytes (challengeBytes c nonce)) := by
  have hB := length_reversedBuffer_residue c.B
  have htmp : (bnBn2bin c.B.val (List.replicate 32 0)).reverse = reversedBuffer 32 c.B.val := rfl
  have hN := reverse_bnBn2bin_of_full numBytes_primeN hB
  have hs := reverse_bnBn2bin_of_full c.s.numBytes (length_leBytes 32 primeN)
  have hR : (bnBn2bin nonce (leBytes 32 c.s.val)).take 16 = beBytes 16 nonce := by
    rw [bnBn2bin, overwrite, hnonce]
    exact List.take_left' (length_beBytes 16 nonce)
  rw [challengePacket, htmp, hN, hs, hR, build_eq (by simp [hB, uint8, sizeLimit])]
  simp [challengeBytes, uint8, EAuthCmd.code, EAuthResults.code]

/-- `set_vs` succeeds for every hash that fits. -/
theorem Conn.setVs_eq {I : ℕ} (hI : bnHex2bn (cStr c.acct.shaPass) = some I) (hfits : Fits I 20) :
    c.setVs sha = some ({ c.fixSV with v := verifierV sha c.s I }.setSV (bnBn2hex c.s.val)
      (bnBn2hex (verifierV sha c.s I).val)) := by
  have hI' : bnHex2bn (cStr c.fixSV.acct.shaPass) = some I := hI
  rw [setVs, hI', Option.bind_eq_bind, Option.bind_some, if_pos hfits]
  rfl

/-- **`account_checked` gets to its challenge for every hash that fits.** -/
theorem Conn.startLogon_eq {I b nonce : ℕ} (hI : bnHex2bn (cStr c.acct.shaPass) = some I)
    (hfits : Fits I 20) (hnonce : numBytes nonce = 16) :
    ∃ reqs,
      let v := verifierV sha c.s I
      let c₁ := { c with v, b, B := publicB v c.k b, requests := reqs }
      c.startLogon sha b nonce = some (c₁.send (ofBytes (challengeBytes c₁ nonce))) := by
  have hset := @Conn.setVs_eq sha c I hI hfits
  refine ⟨({ c.fixSV with v := verifierV sha c.s I }.setSV (bnBn2hex c.s.val)
    (bnBn2hex (verifierV sha c.s I).val)).requests, ?_⟩
  rw [startLogon, hset, Option.bind_eq_bind, Option.bind_some]
  dsimp only
  rw [Conn.challengePacket_eq _ hnonce]
  rfl

/-! ### What the client reads in it -/

/-- The client reads the salt. -/
theorem Client.readSalt_challenge (c : Conn) (nonce : ℕ) :
    Client.readSalt (ofBytes (challengeBytes c nonce)) = c.s.val := by
  have hB := length_reversedBuffer_residue c.B
  have hs : c.s.val < 256 ^ 32 := lt_of_lt_of_le c.s.property.2 (by norm_num)
  have hfront : ([0x00, 0x00, 0x00] ++ reversedBuffer 32 c.B.val ++ [1, 7, 32] ++
      leBytes 32 primeN).length = 70 := by simp [hB]
  rw [Client.readSalt, storage_ofBytes, challengeBytes, List.append_assoc, List.append_assoc,
    List.drop_left' hfront, List.take_left' (length_leBytes 32 _), leVal_leBytes_of_lt hs]

/-- The client reads the number the buffer of the public value spells. -/
theorem Client.readB_challenge (c : Conn) (nonce : ℕ) :
    Client.readB (ofBytes (challengeBytes c nonce)) = leVal (reversedBuffer 32 c.B.val) := by
  have hB := length_reversedBuffer_residue c.B
  rw [Client.readB, storage_ofBytes, challengeBytes]
  simp only [List.append_assoc]
  rw [List.drop_left' (by rfl), List.take_left' hB]

/-! ### From the first packet to the challenge -/

section Steps

variable {env : Env} {res : ResultSet}

theorem ofByte?_code (cmd : EAuthCmd) : EAuthCmd.ofByte? cmd.code = some cmd := by
  cases cmd <;> rfl

/-- A packet of an open connection goes to the handler of its command. -/
theorem step_input (hread : c.readRegistered = true) (raw : Received) :
    step sha c ⟨env, .input raw⟩ = c.handleInput sha env raw := by
  rw [step]
  exact if_pos hread

/-- **A challenge of a supported build is taken.** -/
theorem step_challenge (hread : c.readRegistered = true) (hstate : c.state = .connected)
    {build : UInt16} (hbuild : isSupportedClientBuild build = true) (name : Client.Name) :
    step sha c ⟨env, .input (Client.challenge .authLogonChallenge build name)⟩ =
      some { ({ c with login := c.login ++ name.val, clientBuild := build }).checkIpBan with
        state := .needProof } := by
  have hopen : c.state ≠ .closing := by simp [hstate]
  rw [step_input hread, Conn.handleInput, if_neg hopen, Client.challenge, Client.cmd_packet,
    ofByte?_code, ← Client.challenge]
  dsimp only
  rw [Conn.handleAuthLogonChallenge, if_neg (not_not.mpr hstate), Client.build_challenge,
    Client.take_i_challenge]
  dsimp only
  rw [if_pos hbuild]

/-- **A reconnect challenge is taken.** -/
theorem step_reconnectChallenge (hread : c.readRegistered = true) (hstate : c.state = .connected)
    (build : UInt16) (name : Client.Name) :
    step sha c ⟨env, .input (Client.challenge .authReconnectChallenge build name)⟩ =
      some { ({ c with clientBuild := build, login := cStr name.val }).getSessionkey with
        state := .needRproof } := by
  have hopen : c.state ≠ .closing := by simp [hstate]
  rw [step_input hread, Conn.handleInput, if_neg hopen, Client.challenge, Client.cmd_packet,
    ofByte?_code, ← Client.challenge]
  dsimp only
  rw [Conn.handleAuthReconnectChallenge, if_neg (not_not.mpr hstate), Client.build_challenge,
    Client.cStr_i_challenge]

/-- A logon proof goes to its handler. -/
theorem step_logonProof (hread : c.readRegistered = true) (hopen : c.state ≠ .closing)
    (A : Bytes 32) (M1 : Bytes 20) :
    step sha c ⟨env, .input (Client.logonProof A M1)⟩ =
      c.handleAuthLogonProof sha env (Client.logonProof A M1) := by
  rw [step_input hread, Conn.handleInput, if_neg hopen, Client.logonProof, Client.cmd_packet,
    ofByte?_code]

/-- A reconnect proof goes to its handler. -/
theorem step_reconnectProof (hread : c.readRegistered = true) (hopen : c.state ≠ .closing)
    (R1 : Bytes 16) (R2 : Bytes 20) :
    step sha c ⟨env, .input (Client.reconnectProof R1 R2)⟩ =
      c.handleAuthReconnectProof sha env (Client.reconnectProof R1 R2) := by
  rw [step_input hread, Conn.handleInput, if_neg hopen, Client.reconnectProof, Client.cmd_packet,
    ofByte?_code]

/-- An outstanding query can be answered. -/
theorem step_answer {obs : Observer} (hpending : obs ∈ c.pending) (hfresh : res.Fresh) :
    step sha c ⟨env, .answer obs res⟩ = (c.answered obs).update sha env res obs := by
  rw [step]
  exact if_pos ⟨hpending, hfresh⟩

/-- **An address that is not banned leads to the account.** -/
theorem step_ipFree (hpending : .checkIpBanObsv ∈ c.pending) (hfresh : res.Fresh)
    (hrows : res.rows = []) :
    step sha c ⟨env, .answer .checkIpBanObsv res⟩ =
      some (c.answered .checkIpBanObsv).getAccount := by
  have hcount := (ResultSet.rowsCount_next_eq_zero_iff hfresh).mpr hrows
  rw [step_answer hpending hfresh, Conn.update, Conn.checkIpBanObsv, hcount]
  rfl

/-- **An account that is neither banned nor locked leads to the challenge.** -/
theorem step_account {acct : Account} (hpending : .checkAcctObsv ∈ c.pending) (hfresh : res.Fresh)
    (hrows : res.rows ≠ []) (hactive : res.next.2.getUint8 5 = some 0)
    (hacct : Conn.readAccount res.next.2 = some acct)
    (hfree : ¬(acct.locked = true ∧ c.ip ≠ acct.lastIp)) :
    step sha c ⟨env, .answer .checkAcctObsv res⟩ =
      ({ c.answered .checkAcctObsv with acct }).startLogon sha env.randB.val
        env.randNonce.val := by
  have hcount := mt (ResultSet.rowsCount_next_eq_zero_iff hfresh).mp hrows
  rw [step_answer hpending hfresh, Conn.update, Conn.checkAcctObsv, if_neg hcount, hactive,
    Option.bind_eq_bind, Option.bind_some, if_neg (by decide), hacct, Option.bind_eq_bind,
    Option.bind_some, Conn.accountChecked]
  exact if_neg hfree

/-- An answer without rows. -/
def noRows : ResultSet := { engine := .mysql, numFields := 1, rows := [] }

theorem noRows_fresh : noRows.Fresh := rfl

theorem noRows_rows : noRows.rows = [] := rfl

/-- A logon up to the challenge: the address is not banned, and the account is
answered with a row. -/
def logonEvents (env : Env) (build : UInt16) (name : Client.Name) (res : ResultSet) : List Event :=
  [⟨env, .input (Client.challenge .authLogonChallenge build name)⟩,
    ⟨env, .answer .checkIpBanObsv noRows⟩, ⟨env, .answer .checkAcctObsv res⟩]

/-- The connection when it is about to send its challenge. -/
def logonConn (f : Start) (build : UInt16) (name : Client.Name) (acct : Account) : Conn :=
  { Conn.init f with
    login := name.val
    clientBuild := build
    state := .needProof
    acct
    requests := [{ statement := .checkIpBan, params := [addString 1 f.ip] },
      { statement := .checkAcctBan, params := [addString 1 name.val] }] }

/-- **A logon gets to its challenge**, for every salt, build, name and account. -/
theorem run_logonEvents {f : Start} {build : UInt16} {name : Client.Name} {acct : Account}
    (hbuild : isSupportedClientBuild build = true) (hfresh : res.Fresh) (hrows : res.rows ≠ [])
    (hactive : res.next.2.getUint8 5 = some 0)
    (hacct : Conn.readAccount res.next.2 = some acct)
    (hfree : ¬(acct.locked = true ∧ f.ip ≠ acct.lastIp)) :
    run sha f (logonEvents env build name res) =
      (logonConn f build name acct).startLogon sha env.randB.val env.randNonce.val := by
  let c₁ : Conn := { ({ Conn.init f with login := name.val, clientBuild := build }).checkIpBan with
    state := .needProof }
  let c₂ : Conn := (c₁.answered .checkIpBanObsv).getAccount
  have hchallenge : step sha (Conn.init f)
      ⟨env, .input (Client.challenge .authLogonChallenge build name)⟩ = some c₁ :=
    step_challenge rfl rfl hbuild name
  have hip : step sha c₁ ⟨env, .answer .checkIpBanObsv noRows⟩ = some c₂ :=
    step_ipFree List.mem_cons_self noRows_fresh noRows_rows
  have haccount : step sha c₂ ⟨env, .answer .checkAcctObsv res⟩ =
      (logonConn f build name acct).startLogon sha env.randB.val env.randNonce.val :=
    step_account List.mem_cons_self hfresh hrows hactive hacct hfree
  exact (Runs.run_cons_of_step hchallenge).trans
    ((Runs.run_cons_of_step hip).trans (Runs.run_singleton.trans haccount))

end Steps

end Morfeusz.Realmd
