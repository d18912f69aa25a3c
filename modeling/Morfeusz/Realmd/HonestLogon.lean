import Morfeusz.Realmd.Agreement

/-!
# The logon of an honest client

An honest client and the daemon compute the same numbers from the same secrets –
`Morfeusz.Realmd.secretS_eq` – but they hash them from buffers. The client pads a
short number with zeros where the significant bytes would be; the daemon puts it at
the front of its buffer and reverses the whole, which pads it at the other end. So
the two agree when no number is short (`Morfeusz.Realmd.FullNumbers`): the secret fills
its buffer, and the password hash and the public value of the daemon fill theirs or are
zero. The salt always fills its own, since its top bit is set.
-/

namespace Morfeusz.Realmd

open ByteNumbers

variable {sha : Sha1} {env : Env} {c c' : Conn} {e : Event}

/-! ### The password hash -/

/-- The text of a password hash, as the query for the account returns it. -/
def passwordText (P : Bytes 20) : List UInt8 := P.val.flatMap HexText.byteDigits

/-- A text that spells a password hash, in either letter case. -/
def IsPasswordText (P : Bytes 20) (text : List UInt8) : Prop :=
  text.map HexText.toUpper = passwordText P

/-- **The text is read as the number of the hash.** -/
theorem IsPasswordText.bnHex2bn_eq {P : Bytes 20} {text : List UInt8} (h : IsPasswordText P text) :
    bnHex2bn (cStr text) = some (beVal P.val) := by
  obtain ⟨byte, rest, hP⟩ : ∃ byte rest, P.val = byte :: rest :=
    List.exists_cons_of_length_eq_add_one P.length
  have hhex : HexText.IsHex text := by
    rw [← HexText.isHex_map_toUpper, h]
    exact HexText.isHex_flatMap_byteDigits P.val
  have hbyte : byte.toNat < 256 := byte.toNat_lt
  have hread : HexText.read ((byte :: rest).flatMap HexText.byteDigits) =
      some (HexText.readFrom 0 ((byte :: rest).flatMap HexText.byteDigits)) :=
    HexText.read_eq_readFrom (HexText.digit?_digit (show byte.toNat / 16 < 16 by omega))
  rw [cStr_of_isHex hhex, bnHex2bn, ← HexText.read_map_toUpper, h, passwordText, hP, hread,
    HexText.readFrom_flatMap_byteDigits, Nat.zero_mul, Nat.zero_add]

theorem fits_beVal (P : Bytes 20) : Fits (beVal P.val) 20 := by
  have hlt := beVal_lt P.val
  rw [P.length] at hlt
  exact fits_iff.mpr hlt

/-- A password hash that `set_vs` copies as it is: it is zero, or its first byte is
not. -/
def FullHash (P : Bytes 20) : Prop := beVal P.val = 0 ∨ 256 ^ 19 ≤ beVal P.val

/-- **The buffer of the password hash is the hash exactly when the hash is full.** -/
theorem passwordBuffer_eq_iff (P : Bytes 20) :
    passwordBuffer (beVal P.val) = P.val ↔ FullHash P := by
  have hlen : (List.replicate 20 (0 : UInt8)).length = 20 := List.length_replicate
  have hfits : numBytes (beVal P.val) ≤ (List.replicate 20 (0 : UInt8)).length := fits_beVal P
  have hP : leBytes 20 (beVal P.val) = P.val.reverse := by
    have := beBytes_beVal P.val
    rw [P.length, beBytes] at this
    rw [← this, List.reverse_reverse, this]
  have hiff := reverse_overwrite_eq_leBytes_iff hfits
  rw [hlen, hP, List.reverse_inj] at hiff
  have hfull : numBytes (beVal P.val) = 20 ↔ 256 ^ 19 ≤ beVal P.val := by
    refine numBytes_eq_succ_iff.trans (and_iff_left ?_)
    exact fits_iff.mp (fits_beVal P)
  rw [passwordBuffer, bnBn2bin, hiff, hfull, FullHash]
  simp [or_comm]

/-! ### The logon -/

/-- A connection that is about to send its challenge for the password hash `P`. -/
structure Conn.ReadyFor (P : Bytes 20) (c : Conn) : Prop where
  state : c.state = .needProof
  k_eq : c.k = multiplierK
  build : isSupportedClientBuild c.clientBuild = true
  shaPass : IsPasswordText P c.acct.shaPass

/-- From the lookup of the account to the proof of an honest client: the challenge is
sent with the exponent `b`, the client answers the packet with the exponent `a`, and
the answer is handled. -/
def honestLogon (sha : Sha1) (env : Env) (c : Conn) (P : Bytes 20) (a b : ℕ)
    (nonce : BnRand 128) : Option ConnectionState := do
  let c ← c.startLogon sha b nonce.val
  let pkt ← c.queued.getLast?
  let c ← c.handleAuthLogonProof sha env (Client.answer sha c.login P a pkt)
  some c.state

section Numbers

variable (sha : Sha1) (s : Salt) (P : Bytes 20) (a b : ℕ)

/-- The public value of the daemon. -/
def sentB : Residue := publicB (verifierV sha s (beVal P.val)) multiplierK b

/-- The number a client reads in the challenge packet. -/
def readB : ℕ := leVal (reversedBuffer 32 (sentB sha s P b).val)

/-- The scrambler, which both ends hash out of the same bytes. -/
def sharedU : ℕ := Client.scramblerU sha (Client.publicA a) (readB sha s P b)

/-- The secret of the daemon, in its buffer. -/
def daemonSecret (stack : Bytes 32) : List UInt8 :=
  secretBuffer stack
    (secretS (Client.publicA a) (verifierV sha s (beVal P.val)) (sharedU sha s P a b) b)

/-- The secret of the client, in its buffer. -/
def clientSecret : List UInt8 :=
  leBytes 32 (Client.secretS a (readB sha s P b) (Client.exponentX sha s.val P)
    (sharedU sha s P a b))

/-- What both ends hash in front of the session key. -/
def proofFront (login : List UInt8) : List UInt8 :=
  hashNxorHashG sha ++ (sha login).val ++ leBytes 32 s.val ++ leBytes 32 (Client.publicA a) ++
    reversedBuffer 32 (sentB sha s P b).val

end Numbers

section Accepted

variable {P : Bytes 20} {a b : ℕ} {nonce : BnRand 128}

theorem leBytes_readB (s : Salt) :
    leBytes 32 (readB sha s P b) = reversedBuffer 32 (sentB sha s P b).val := by
  have hlen := length_reversedBuffer_residue (sentB sha s P b)
  have h := leBytes_leVal (reversedBuffer 32 (sentB sha s P b).val)
  rwa [hlen] at h

/-- The proof of the client is a hash of the same bytes but for the key. -/
theorem proofM1_readB (s : Salt) (login : List UInt8) :
    Client.proofM1 sha login P a (readB sha s P b) s.val =
      sha (proofFront sha s P a b login ++ interleavedKey sha (clientSecret sha s P a b)) := by
  have hN : leBytes 32 primeN = reversedBuffer 32 primeN :=
    (reversedBuffer_of_full numBytes_primeN).symm
  rw [Client.proofM1, hN, leBytes_readB]
  rfl

/-- The scrambler of the daemon is the one of the client. -/
theorem scramblerU_sentB (s : Salt) :
    scramblerU sha (leBytes 32 (Client.publicA a)) (sentB sha s P b) = sharedU sha s P a b := by
  rw [scramblerU, sharedU, Client.scramblerU, leBytes_readB, bnBin2bn, beVal_reverse]

/-- The connection that has sent its challenge, and the packet it has sent. -/
structure Conn.Challenge (sha : Sha1) (c : Conn) (P : Bytes 20) (b : ℕ) (c' : Conn)
    (pkt : ByteBuffer) : Prop where
  state : c'.state = .needProof
  build : isSupportedClientBuild c'.clientBuild = true
  login : c'.login = c.login
  s_eq : c'.s = c.s
  v_eq : c'.v = verifierV sha c.s (beVal P.val)
  b_eq : c'.b = b
  B_eq : c'.B = sentB sha c.s P b
  last : c'.queued.getLast? = some pkt
  read : c'.readRegistered = c.readRegistered
  readSalt : Client.readSalt pkt = c.s.val
  readB : Client.readB pkt = readB sha c.s P b

theorem Conn.ReadyFor.startLogon_eq (hc : c.ReadyFor P) (b : ℕ) (nonce : BnRand 128) :
    ∃ c' pkt, c.startLogon sha b nonce.val = some c' ∧ c.Challenge sha P b c' pkt := by
  have hI := hc.shaPass.bnHex2bn_eq
  obtain ⟨reqs, hstart⟩ := @Conn.startLogon_eq sha c (beVal P.val) b nonce.val hI (fits_beVal P)
    (@BnRand.numBytes_val 15 nonce)
  have hB : publicB (verifierV sha c.s (beVal P.val)) c.k b = sentB sha c.s P b := by
    rw [sentB, hc.k_eq]
  refine ⟨_, _, hstart, hc.state, hc.build, rfl, rfl, rfl, rfl, hB, List.getLast?_concat,
    rfl, Client.readSalt_challenge _ _, ?_⟩
  rw [Client.readB_challenge, hB, readB]

variable {pkt : ByteBuffer}

/-- The client answers with the hash of its secret. -/
theorem Conn.Challenge.proofM1_answer (h : c.Challenge sha P b c' pkt) (a : ℕ) :
    (Client.answer sha c'.login P a pkt).proofM1 =
      (sha (proofFront sha c.s P a b c.login ++
        interleavedKey sha (clientSecret sha c.s P a b))).val := by
  rw [Client.answer, Client.proofM1_logonProof, h.readB, h.readSalt, h.login, proofM1_readB]

/-- The daemon expects the hash of its own. -/
theorem Conn.Challenge.expectedM_answer (h : c.Challenge sha P b c' pkt) (env : Env) (a : ℕ) :
    c'.expectedM sha env (Client.answer sha c'.login P a pkt).publicA =
      sha (proofFront sha c.s P a b c.login ++
        interleavedKey sha (daemonSecret sha c.s P a b env.stackS)) := by
  have hA : leVal (leBytes 32 (Client.publicA a)) = Client.publicA a :=
    leVal_leBytes_of_lt ((Nat.mod_lt _ primeN_pos).trans primeN_lt)
  rw [Client.answer, Client.publicA_logonProof, Conn.expectedM_eq, Conn.secret, hA, h.v_eq, h.b_eq,
    h.B_eq, scramblerU_sentB, proofForSecret, proofM, h.s_eq, h.login, h.B_eq,
    reversedBuffer_of_full c.s.numBytes]
  rfl

/-- **An honest client is accepted when the two hashes are one.** -/
theorem honestLogon_eq_authed_iff (hc : c.ReadyFor P) :
    honestLogon sha env c P a b nonce = some .authed ↔
      sha (proofFront sha c.s P a b c.login ++ interleavedKey sha (clientSecret sha c.s P a b)) =
        sha (proofFront sha c.s P a b c.login ++
          interleavedKey sha (daemonSecret sha c.s P a b env.stackS)) := by
  obtain ⟨c₁, pkt, hstart, h⟩ := @Conn.ReadyFor.startLogon_eq sha c P hc b nonce
  have hclient := h.proofM1_answer a
  have hdaemon := h.expectedM_answer env a
  rw [honestLogon, hstart, Option.bind_eq_bind, Option.bind_some, h.last, Option.bind_eq_bind,
    Option.bind_some]
  constructor
  · intro hrun
    obtain ⟨c', hproof, hauthed⟩ := Option.bind_eq_some_iff.mp hrun
    have hsame := (Conn.proof_of_handleAuthLogonProof hproof (Option.some.inj hauthed)).2
    rw [hclient, hdaemon] at hsame
    exact Subtype.ext hsame
  · intro hsame
    have hproof : (Client.answer sha c₁.login P a pkt).proofM1 =
        (c₁.expectedM sha env (Client.answer sha c₁.login P a pkt).publicA).val := by
      rw [hclient, hdaemon, hsame]
    obtain ⟨c', hhandled, hauthed⟩ := Conn.handleAuthLogonProof_of_proof h.state h.build hproof
    exact Option.bind_eq_some_iff.mpr ⟨c', hhandled, congrArg some hauthed⟩

/-! ### Full numbers -/

/-- The public value of the daemon, as the protocol has it. -/
def Client.hostB (x b : ℕ) : ℕ := (3 * 7 ^ x + 7 ^ b) % primeN

/-- The number leaves no byte of its buffer of 32 bytes unwritten. -/
def Full (n : ℕ) : Prop := 256 ^ 31 ≤ n

/-- No number of the logon is short: not the password hash, not the public value of
the daemon – the two may be zero – and not the secret. -/
structure FullNumbers (sha : Sha1) (s : ℕ) (P : Bytes 20) (a b : ℕ) : Prop where
  hash : FullHash P
  hostB : Client.hostB (Client.exponentX sha s P) b = 0 ∨
    Full (Client.hostB (Client.exponentX sha s P) b)
  secret :
    let x := Client.exponentX sha s P
    let B := Client.hostB x b
    Full (Client.secretS a B x (Client.scramblerU sha (Client.publicA a) B))

theorem full_iff {n : ℕ} (h : n < primeN) : Full n ↔ numBytes n = 32 := by
  rw [Full, numBytes_eq_succ_iff]
  exact (and_iff_left (h.trans primeN_lt)).symm

theorem exponentX_eq (s : Salt) (h : FullHash P) :
    exponentX sha s (beVal P.val) = Client.exponentX sha s.val P := by
  rw [exponentX, (passwordBuffer_eq_iff P).mpr h, reversedBuffer_of_full s.numBytes, bnBin2bn,
    beVal_reverse, Client.exponentX]

theorem val_sentB (s : Salt) (h : FullHash P) :
    (sentB sha s P b).val = Client.hostB (Client.exponentX sha s.val P) b := by
  rw [sentB, val_publicB, verifierV, val_residueExp, exponentX_eq s h, Client.hostB, Nat.add_mod,
    Nat.mul_mod]
  simp [Nat.add_mod, Nat.mul_mod, generatorG]

/-- A full public value is read as it is. -/
theorem readB_eq_sentB (s : Salt) (h : (sentB sha s P b).val = 0 ∨ Full (sentB sha s P b).val) :
    readB sha s P b = (sentB sha s P b).val := by
  have hbuf : reversedBuffer 32 (sentB sha s P b).val = leBytes 32 (sentB sha s P b).val := by
    rcases h with hzero | hfull
    · rw [hzero, reversedBuffer_zero]
    · exact reversedBuffer_of_full ((full_iff (sentB sha s P b).property).mp hfull)
  rw [readB, hbuf, leVal_leBytes_of_lt (sentB sha s P b).lt]

/-- Seven is prime to the prime, so no secret is zero. -/
theorem coprime_primeN : Nat.Coprime 7 primeN := by decide +kernel

theorem coprime_mod {n : ℕ} (h : Nat.Coprime n primeN) : Nat.Coprime (n % primeN) primeN := by
  rw [Nat.Coprime, (Nat.mod_modEq n primeN).gcd_eq]
  exact h

theorem secretS_ne_zero (a x u b : ℕ) :
    (secretS (Client.publicA a) (residueExp generatorG x) u b).val ≠ 0 := by
  -- every factor of the secret is a power of seven, so the secret is prime to `N`
  have hA : Nat.Coprime (Client.publicA a) primeN := coprime_mod (coprime_primeN.pow_left a)
  have hv : Nat.Coprime (residueExp generatorG x).val primeN := by
    rw [val_residueExp]
    exact coprime_mod (coprime_primeN.pow_left x)
  have hvu : Nat.Coprime (residueExp (residueExp generatorG x).val u).val primeN := by
    rw [val_residueExp]
    exact coprime_mod (hv.pow_left u)
  have hS : Nat.Coprime (secretS (Client.publicA a) (residueExp generatorG x) u b).val primeN := by
    rw [secretS, val_residueExp]
    exact coprime_mod ((hA.mul_left hvu).pow_left b)
  intro hzero
  rw [hzero, Nat.coprime_zero_left] at hS
  norm_num [primeN] at hS

/-- The buffer of a secret of the daemon is right exactly when the secret is full. -/
theorem secretBuffer_eq_iff {stack : Bytes 32} {S : Residue} (hS : S.val ≠ 0) :
    secretBuffer stack S = leBytes 32 S.val ↔ Full S.val := by
  have hfits : numBytes S.val ≤ stack.val.length := by
    rw [stack.length]
    exact numBytes_le_iff.mpr S.lt
  have hiff := reverse_overwrite_eq_leBytes_iff hfits
  rw [stack.length] at hiff
  rw [secretBuffer, bnBn2bin, hiff, full_iff S.property]
  exact or_iff_left fun h => hS h.1

/-- Where the password hash and the public value are full, the two ends have one
secret. -/
theorem secrets_eq (s : Salt) (h : FullHash P)
    (hB : (sentB sha s P b).val = 0 ∨ Full (sentB sha s P b).val) :
    (secretS (Client.publicA a) (verifierV sha s (beVal P.val)) (sharedU sha s P a b) b).val =
      Client.secretS a (readB sha s P b) (Client.exponentX sha s.val P) (sharedU sha s P a b) := by
  rw [verifierV, secretS_eq, exponentX_eq s h, readB_eq_sentB s hB, sentB, verifierV,
    exponentX_eq s h]

/-- **The two buffers are one exactly when the secret is full.** -/
theorem clientSecret_eq_iff (s : Salt) (stack : Bytes 32) (h : FullHash P)
    (hB : (sentB sha s P b).val = 0 ∨ Full (sentB sha s P b).val) :
    clientSecret sha s P a b = daemonSecret sha s P a b stack ↔
      Full (Client.secretS a (readB sha s P b) (Client.exponentX sha s.val P)
        (sharedU sha s P a b)) := by
  have hsecret := @secrets_eq sha P a b s h hB
  rw [clientSecret, daemonSecret, ← hsecret, eq_comm]
  exact secretBuffer_eq_iff (secretS_ne_zero a _ _ b)

/-- The condition, as the daemon finds it. -/
theorem fullNumbers_iff (s : Salt) (h : FullHash P)
    (hB : (sentB sha s P b).val = 0 ∨ Full (sentB sha s P b).val) :
    FullNumbers sha s.val P a b ↔ Full (Client.secretS a (readB sha s P b)
      (Client.exponentX sha s.val P) (sharedU sha s P a b)) := by
  have hval := @val_sentB sha P b s h
  have hread := (@readB_eq_sentB sha P b s hB).trans hval
  rw [sharedU, hread]
  exact ⟨fun hfull => hfull.secret, fun hfull => ⟨h, hval ▸ hB, hfull⟩⟩

/-- The hash function tells the two ends of a logon apart: neither the halves of their
secrets nor their proofs collide. -/
structure Separates (sha : Sha1) (front S S' : List UInt8) : Prop where
  evens : sha (evens S) = sha (evens S') → Realmd.evens S = Realmd.evens S'
  odds : sha (odds S) = sha (odds S') → Realmd.odds S = Realmd.odds S'
  proof : sha (front ++ interleavedKey sha S) = sha (front ++ interleavedKey sha S') →
    interleavedKey sha S = interleavedKey sha S'

theorem Separates.eq {front S S' : List UInt8} (hsep : Separates sha front S S')
    (h : sha (front ++ interleavedKey sha S) = sha (front ++ interleavedKey sha S')) : S = S' := by
  -- first the keys, then the two halves that are hashed into a key
  have hkey := hsep.proof h
  rw [interleavedKey, interleavedKey] at hkey
  obtain ⟨hevens, hodds⟩ := interleave_inj (by simp) (by simp) hkey
  exact evens_odds_inj (hsep.evens (Subtype.ext hevens)) (hsep.odds (Subtype.ext hodds))

/-- **A logon without short numbers succeeds.** -/
theorem honestLogon_of_full (hc : c.ReadyFor P) (hfull : FullNumbers sha c.s.val P a b) :
    honestLogon sha env c P a b nonce = some .authed := by
  have hB : (sentB sha c.s P b).val = 0 ∨ Full (sentB sha c.s P b).val := by
    rw [val_sentB c.s hfull.hash]
    exact hfull.hostB
  have hsecret := (clientSecret_eq_iff c.s env.stackS hfull.hash hB).mpr
    ((fullNumbers_iff c.s hfull.hash hB).mp hfull)
  rw [honestLogon_eq_authed_iff hc, hsecret]

/-- The same along a run: from the first packet of the client to the end of its
logon. -/
theorem run_honestLogon {f : Start} {build : UInt16} {name : Client.Name} {acct : Account}
    {res : ResultSet} (hbuild : isSupportedClientBuild build = true) (hfresh : res.Fresh)
    (hrows : res.rows ≠ []) (hactive : res.next.2.getUint8 5 = some 0)
    (hacct : Conn.readAccount res.next.2 = some acct)
    (hfree : ¬(acct.locked = true ∧ f.ip ≠ acct.lastIp)) (hpass : IsPasswordText P acct.shaPass)
    (hfull : FullNumbers sha (Salt.ofRand f.salt).val P a env.randB.val) :
    ∃ c pkt c', run sha f (logonEvents env build name res) = some c ∧
      c.queued.getLast? = some pkt ∧
      run sha f (logonEvents env build name res ++
        [⟨env, .input (Client.answer sha name.val P a pkt)⟩]) = some c' ∧ c'.state = .authed := by
  have hc : (logonConn f build name acct).ReadyFor P := ⟨rfl, rfl, hbuild, hpass⟩
  obtain ⟨c, pkt, hstart, h⟩ := @Conn.ReadyFor.startLogon_eq sha _ P hc env.randB.val env.randNonce
  have hlogon := @honestLogon_of_full sha env _ P a env.randB.val env.randNonce hc hfull
  rw [honestLogon, hstart, Option.bind_eq_bind, Option.bind_some, h.last, Option.bind_eq_bind,
    Option.bind_some] at hlogon
  obtain ⟨c', hproof, hauthed⟩ := Option.bind_eq_some_iff.mp hlogon
  have hrun : run sha f (logonEvents env build name res) = some c :=
    (run_logonEvents hbuild hfresh hrows hactive hacct hfree).trans hstart
  have hopen : c.state ≠ .closing := by simp [h.state]
  have hstep := (step_logonProof h.read hopen _ _).trans hproof
  rw [h.login] at hstep
  exact ⟨c, pkt, c', hrun, h.last, Runs.run_concat hrun hstep, Option.some.inj hauthed⟩

/-- **When an honest client is accepted.** It is, whenever no number of its logon is
short; and where the password hash and the public value are full, a short secret keeps
it out, unless the hash function collides on what the two ends hash. -/
theorem honestLogon_authed (hc : c.ReadyFor P) (env : Env) (a b : ℕ) (nonce : BnRand 128) :
    (FullNumbers sha c.s.val P a b → honestLogon sha env c P a b nonce = some .authed) ∧
    (FullHash P →
      (Client.hostB (Client.exponentX sha c.s.val P) b = 0 ∨
        Full (Client.hostB (Client.exponentX sha c.s.val P) b)) →
      Separates sha (proofFront sha c.s P a b c.login) (clientSecret sha c.s P a b)
        (daemonSecret sha c.s P a b env.stackS) →
      honestLogon sha env c P a b nonce = some .authed → FullNumbers sha c.s.val P a b) := by
  refine ⟨honestLogon_of_full hc, fun hhash hhostB hsep hauthed => ?_⟩
  have hB : (sentB sha c.s P b).val = 0 ∨ Full (sentB sha c.s P b).val := by
    rw [val_sentB c.s hhash]
    exact hhostB
  have hsecret := hsep.eq ((honestLogon_eq_authed_iff hc).mp hauthed)
  exact (fullNumbers_iff c.s hhash hB).mpr
    ((clientSecret_eq_iff c.s env.stackS hhash hB).mp hsecret)

end Accepted

/-! ### A short secret -/

namespace Sample

/-- A hash that keeps the end of what it is given. -/
def tailSha : Sha1 := fun m =>
  ⟨(List.replicate 20 0 ++ m).drop m.length, by
    rw [List.length_drop, List.length_append, List.length_replicate, Nat.add_sub_cancel]⟩

/-- The connection of an account whose password hash is zero. -/
def zeroHashConn : Conn :=
  logonConn start build login { acct with shaPass := passwordText (Bytes.zero 20) }

theorem zeroHashConn_readyFor : zeroHashConn.ReadyFor (Bytes.zero 20) :=
  ⟨rfl, rfl, by decide, show List.map _ _ = _ by decide⟩

end Sample

/-- The sample account, with an exponent of the daemon that leaves nothing short. -/
theorem honestLogon_authed_sample :
    honestLogon Sample.tailSha Sample.env Sample.zeroHashConn (Bytes.zero 20) 2 90
      Sample.env.randNonce = some .authed :=
  (honestLogon_authed Sample.zeroHashConn_readyFor Sample.env 2 90 Sample.env.randNonce).1
    { hash := Or.inl (by decide)
      hostB := Or.inr (show 256 ^ 31 ≤ _ by decide +kernel)
      secret := show 256 ^ 31 ≤ _ by decide +kernel }

/-- **An honest client is refused where its secret is short**: the password hash and
the public value of the daemon are full, and the secret begins with a zero byte. -/
theorem refuses_short_secret :
    ¬∀ sha env c P a b nonce, Conn.ReadyFor P c →
      honestLogon sha env c P a b nonce = some .authed := by
  intro hclaim
  have hrefused : honestLogon Sample.tailSha Sample.env Sample.zeroHashConn (Bytes.zero 20) 2
      (2 ^ 151 + 487) Sample.env.randNonce ≠ some .authed := by decide +kernel
  exact hrefused (hclaim _ _ _ _ _ _ _ Sample.zeroHashConn_readyFor)

end Morfeusz.Realmd
