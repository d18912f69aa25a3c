import Morfeusz.Realmd.Observers

/-!
# What one step of a connection can do

The handlers of the socket call one another through callbacks, but what comes out
of a step is one of a small number of changes. `Morfeusz.Realmd.Trans` lists them,
each with the condition it happens under, and `Morfeusz.Realmd.trans_of_step` says
that the list is complete. Every invariant of a connection is proved by going
through it.
-/

namespace Morfeusz.Realmd

open ByteNumbers ByteBuffer

variable {sha : Sha1} {env : Env}

/-! ### What the parts of a handler do -/

namespace Conn

variable {c c' : Conn}

/-- `set_vs` changes the verifier, to that of the account's password hash, and
queues requests. -/
theorem setVs_some (h : c.setVs sha = some c') : ∃ I reqs,
    bnHex2bn (cStr c.acct.shaPass) = some I ∧ Fits I 20 ∧
      c' = { c with v := verifierV sha c.s I, requests := reqs } := by
  rw [setVs] at h
  obtain ⟨I, hI, h⟩ := Option.bind_eq_some_iff.mp h
  split at h
  · next hfits => exact ⟨I, _, hI, hfits, (Option.some.inj h).symm⟩
  · cases h

/-- A started logon: the verifier, the two values of the host, and the packet that
carries them. -/
theorem startLogon_some {b nonce : ℕ} (h : c.startLogon sha b nonce = some c') :
    ∃ I reqs pkt, bnHex2bn (cStr c.acct.shaPass) = some I ∧ Fits I 20 ∧
      let v := verifierV sha c.s I
      let c₁ := { c with v, b, B := publicB v c.k b, requests := reqs }
      c₁.challengePacket nonce = some pkt ∧ c' = c₁.send pkt := by
  rw [startLogon] at h
  obtain ⟨c₀, h₀, h⟩ := Option.bind_eq_some_iff.mp h
  obtain ⟨pkt, hpkt, h⟩ := Option.bind_eq_some_iff.mp h
  obtain ⟨I, reqs, hI, hfits, rfl⟩ := setVs_some h₀
  exact ⟨I, reqs, pkt, hI, hfits, hpkt, (Option.some.inj h).symm⟩

/-- Counting a failed login changes the counter and queues requests. -/
theorem countFailedLogin_eq (env : Env) (c : Conn) : ∃ failed reqs, c.countFailedLogin env =
    { c with acct := { c.acct with failedLogins := failed }, requests := reqs } := by
  rw [countFailedLogin]
  dsimp only
  split_ifs
  · exact ⟨_, _, rfl⟩
  · exact ⟨_, _, rfl⟩
  · exact ⟨_, _, rfl⟩
  · exact ⟨c.acct.failedLogins, c.requests, rfl⟩

/-- `handle_output` changes the queue, what has left it, and the registration. -/
theorem handleOutput_some {results : List ℤ} (h : c.handleOutput results = some c') :
    ∃ queue delivered write active, c' = { c with
      packetQueue := queue, delivered, writeRegistered := write, outActive := active } := by
  rw [handleOutput] at h
  split at h
  · obtain ⟨r, -, h⟩ := Option.bind_eq_some_iff.mp h
    dsimp only at h
    split at h
    · exact ⟨_, _, _, _, (Option.some.inj h).symm⟩
    · split at h
      · exact ⟨_, _, _, _, (Option.some.inj h).symm⟩
      · exact ⟨_, _, _, _, (Option.some.inj h).symm⟩
  · exact ⟨c.packetQueue, c.delivered, c.writeRegistered, c.outActive, (Option.some.inj h).symm⟩

/-- The packet of a started logon says so. -/
theorem isAuthSuccess_challengePacket {nonce : ℕ} {pkt : ByteBuffer}
    (h : c.challengePacket nonce = some pkt) : IsAuthSuccess pkt := by
  rw [eq_ofBytes_of_build h]
  rfl

/-- A failed login is always answered with the reply for an unknown account. -/
theorem handleFailedLogin_some (h : c.handleFailedLogin sha env = some c') :
    ∃ failed reqs, c' = ({ c with
      acct := { c.acct with failedLogins := failed }, requests := reqs }).send
        (authReply .realmAuthNoMatch) := by
  obtain ⟨failed, reqs, hcount⟩ := countFailedLogin_eq env c
  rw [handleFailedLogin, hcount, accountChecked] at h
  exact ⟨failed, reqs, (Option.some.inj h).symm⟩

/-- What a realm list packet is. -/
theorem realmListPacket_some {body pkt : ByteBuffer} (h : realmListPacket body = some pkt) :
    IsRealmList pkt := by
  rw [eq_ofBytes_of_build h]
  rfl

/-- Sending a realm list queues one, and may enter counts into the map; without a
list for the client's build the connection ends. -/
theorem sendRealmList_some {sent : Bool} (h : c.sendRealmList env = some (c', sent)) :
    (sent = true ∧ ∃ amnt pkt, IsRealmList pkt ∧
      c' = ({ c with realmCharAmount := amnt }).send pkt) ∨
    (sent = false ∧ c' = c.die) := by
  rw [sendRealmList] at h
  split at h
  · next build _ =>
    obtain ⟨⟨c₁, data⟩, h₁, h⟩ := Option.bind_eq_some_iff.mp h
    obtain ⟨rfl, rfl⟩ := Prod.mk.inj (Option.some.inj h)
    refine Or.inl ⟨rfl, ?_⟩
    cases build with
    | build112 =>
      obtain ⟨pkt, hpkt, heq⟩ := Option.map_eq_some_iff.mp h₁
      obtain ⟨rfl, rfl⟩ := Prod.mk.inj heq
      obtain ⟨body, -, hbody⟩ := Option.bind_eq_some_iff.mp hpkt
      exact ⟨c.realmCharAmount, _, realmListPacket_some hbody, rfl⟩
    | build243 | build313 | build320 =>
      obtain ⟨body, -, h₁⟩ := Option.bind_eq_some_iff.mp h₁
      obtain ⟨pkt, hpkt, h₁⟩ := Option.bind_eq_some_iff.mp h₁
      obtain ⟨rfl, rfl⟩ := Prod.mk.inj (Option.some.inj h₁)
      exact ⟨_, _, realmListPacket_some hpkt, rfl⟩
  · obtain ⟨rfl, rfl⟩ := Prod.mk.inj (Option.some.inj h)
    exact Or.inr ⟨rfl, rfl⟩

/-- What one call of the callback `get_char_amount` does. -/
inductive Counted (sha : Sha1) (c : Conn) : Conn → Prop
  /-- The list was queued, and the verifier computed again. -/
  | sent (amnt : List (UInt8 × UInt8)) (pkt : ByteBuffer) (I : ℕ) (reqs : List RealmdRequest)
      (hpkt : IsRealmList pkt) (hI : bnHex2bn (cStr c.acct.shaPass) = some I) :
      Counted sha c ({ c with
        realmCharAmount := amnt, v := verifierV sha c.s I, requests := reqs }.send pkt)
  /-- There is no list for the client's build. -/
  | dropped (amnt : List (UInt8 × UInt8)) : Counted sha c { c with realmCharAmount := amnt }.die

theorem counted_of_getCharAmountAnswered {amnt : List (UInt8 × UInt8)}
    (h : c.getCharAmountAnswered sha env amnt = some c') : Counted sha c c' := by
  rw [getCharAmountAnswered] at h
  obtain ⟨⟨c₁, sent⟩, h₁, h⟩ := Option.bind_eq_some_iff.mp h
  rcases sendRealmList_some h₁ with ⟨rfl, amnt', pkt, hpkt, rfl⟩ | ⟨rfl, rfl⟩
  · obtain ⟨I, reqs, hI, -, rfl⟩ := setVs_some h
    exact .sent amnt' pkt I reqs hpkt hI
  · rw [← Option.some.inj h]
    exact .dropped amnt

end Conn

/-! ### The transitions -/

/-- The transitions of a connection: packets, then output, then answers. -/
inductive Trans (sha : Sha1) (c : Conn) (e : Event) : Conn → Prop
  /-- The client hung up, or a packet came that the state does not allow, or that
  proves nothing. -/
  | died (hread : c.readRegistered = true) : Trans sha c e c.die
  /-- A challenge of an unknown build is turned down, and another may follow. -/
  | challengeRefused (raw : Received) (hact : e.action = .input raw)
      (hstate : c.state = .connected) (hbuild : isSupportedClientBuild raw.build = false) :
      Trans sha c e ({ c with
        login := c.login ++ raw.i.take raw.iLen.toNat, clientBuild := raw.build }.send
          (authReply .realmAuthWrongBuildNumber))
  /-- A challenge is taken: the address is looked up. -/
  | challengeTaken (raw : Received) (hact : e.action = .input raw)
      (hstate : c.state = .connected) (hbuild : isSupportedClientBuild raw.build = true) :
      Trans sha c e { ({ c with
        login := c.login ++ raw.i.take raw.iLen.toNat, clientBuild := raw.build }).checkIpBan with
          state := .needProof }
  /-- A logon proof passed the comparison. -/
  | proofPassed (raw : Received) (data : ByteBuffer) (hact : e.action = .input raw)
      (hcmd : EAuthCmd.ofByte? raw.cmd = some .authLogonProof) (hread : c.readRegistered = true)
      (hstate : c.state = .needProof)
      (hproof : raw.proofM1 = (c.expectedM sha e.env raw.publicA).val)
      (hdata : data.storage.head? = some EAuthCmd.authLogonProof.code) :
      Trans sha c e { (c.updateAccount (c.sessionKey sha e.env raw.publicA)).send data with
        state := .authed }
  /-- A logon proof passed, of a client of an unknown build. -/
  | proofUnsupported (raw : Received) (hact : e.action = .input raw)
      (hstate : c.state = .needProof) (hbuild : isSupportedClientBuild c.clientBuild = false) :
      Trans sha c e (c.updateAccount (c.sessionKey sha e.env raw.publicA)).die
  /-- A logon proof failed. -/
  | proofFailed (raw : Received) (failed : UInt8) (reqs : List RealmdRequest)
      (hact : e.action = .input raw) (hstate : c.state = .needProof) :
      Trans sha c e (({ c with
        acct := { c.acct with failedLogins := failed }, requests := reqs }).send
          (authReply .realmAuthNoMatch))
  /-- A reconnect challenge is taken: the session key is looked up. -/
  | reconnectTaken (raw : Received) (hact : e.action = .input raw)
      (hstate : c.state = .connected) :
      Trans sha c e { ({ c with clientBuild := raw.build, login := cStr raw.i }).getSessionkey with
        state := .needRproof }
  /-- A reconnect proof passed the comparison. -/
  | reconnectPassed (raw : Received) (hash : Bytes 20) (hact : e.action = .input raw)
      (hcmd : EAuthCmd.ofByte? raw.cmd = some .authReconnectProof) (hread : c.readRegistered = true)
      (hstate : c.state = .needRproof)
      (hhash : c.reconnectHash sha e.env raw.proofR1 = some hash)
      (hproof : raw.proofR2 = hash.val) :
      Trans sha c e { c.send reconnectProofPacket with state := .authed }
  /-- A realm list was asked for, and the character counts are known. -/
  | realmListSent (raw : Received) (amnt : List (UInt8 × UInt8)) (pkt : ByteBuffer)
      (hact : e.action = .input raw) (hcmd : EAuthCmd.ofByte? raw.cmd = some .realmList)
      (hstate : c.state = .authed) (hpkt : IsRealmList pkt) :
      Trans sha c e (({ c with realmCharAmount := amnt }).send pkt)
  /-- A realm list was asked for: the character counts are looked up. -/
  | realmListAsked (raw : Received) (hact : e.action = .input raw)
      (hcmd : EAuthCmd.ofByte? raw.cmd = some .realmList) (hstate : c.state = .authed) :
      Trans sha c e c.getCharAmount
  /-- Output changes nothing but the queue. -/
  | output (results : List ℤ) (queue : List ByteBuffer) (delivered : List UInt8)
      (write active : Bool) (hact : e.action = .output results)
      (hwrite : c.writeRegistered = true) :
      Trans sha c e { c with
        packetQueue := queue, delivered, writeRegistered := write, outActive := active }
  /-- The address is not banned: the account is looked up. -/
  | ipFree (res : ResultSet) (hact : e.action = .answer .checkIpBanObsv res)
      (hpending : .checkIpBanObsv ∈ c.pending) (hrows : res.rows = []) :
      Trans sha c e (c.answered .checkIpBanObsv).getAccount
  /-- The address is banned. -/
  | ipBanned (res : ResultSet) (hact : e.action = .answer .checkIpBanObsv res)
      (hpending : .checkIpBanObsv ∈ c.pending) (hrows : res.rows ≠ []) :
      Trans sha c e ((c.answered .checkIpBanObsv).send (authReply .realmAuthAccountBanned))
  /-- The account is missing or banned. -/
  | accountRefused (res : ResultSet) (reply : EAuthResults)
      (hact : e.action = .answer .checkAcctObsv res) (hpending : .checkAcctObsv ∈ c.pending)
      (hreply : reply = .realmAuthNoMatch ∧ res.rows = [] ∨
        reply = .realmAuthAccountBanned ∧ res.rows ≠ []) :
      Trans sha c e ((c.answered .checkAcctObsv).send (authReply reply))
  /-- The account is locked to another address. -/
  | accountLocked (res : ResultSet) (acct : Account)
      (hact : e.action = .answer .checkAcctObsv res) (hpending : .checkAcctObsv ∈ c.pending)
      (hacct : Conn.readAccount res.next.2 = some acct)
      (hlocked : acct.locked = true ∧ c.ip ≠ acct.lastIp) :
      Trans sha c e ({ c.answered .checkAcctObsv with acct }.send
        (authReply .realmAuthAccountLocked))
  /-- The account exists: the challenge is sent. -/
  | challengeSent (res : ResultSet) (acct : Account) (I : ℕ) (reqs : List RealmdRequest)
      (pkt : ByteBuffer) (hact : e.action = .answer .checkAcctObsv res)
      (hpending : .checkAcctObsv ∈ c.pending) (hrows : res.rows ≠ [])
      (hacct : Conn.readAccount res.next.2 = some acct)
      (hfree : ¬(acct.locked = true ∧ c.ip ≠ acct.lastIp))
      (hI : bnHex2bn (cStr acct.shaPass) = some I) (hpkt : IsAuthSuccess pkt) :
      Trans sha c e ({ c.answered .checkAcctObsv with
        acct, v := verifierV sha c.s I, b := e.env.randB.val
        B := publicB (verifierV sha c.s I) c.k e.env.randB.val, requests := reqs }.send pkt)
  /-- There is a row for the session key: the connection ends. -/
  | sessionkeyFound (res : ResultSet) (hact : e.action = .answer .getSessionKeyObsv res)
      (hpending : .getSessionKeyObsv ∈ c.pending) (hrows : res.rows ≠ []) :
      Trans sha c e (c.answered .getSessionKeyObsv).die
  /-- There is no row for the session key: the reconnect challenge is sent. -/
  | sessionkeyMissing (res : ResultSet) (pkt : ByteBuffer)
      (hact : e.action = .answer .getSessionKeyObsv res)
      (hpending : .getSessionKeyObsv ∈ c.pending) (hrows : res.rows = [])
      (hpkt : pkt.storage.head? = some EAuthCmd.authReconnectChallenge.code) :
      Trans sha c e { { c.answered .getSessionKeyObsv with
        reconnectProof := e.env.randProof.val }.send pkt with state := .needRproof }
  /-- There is no row for the session key, and reading it throws: no callback runs. -/
  | sessionkeyThrown (res : ResultSet) (hact : e.action = .answer .getSessionKeyObsv res)
      (hpending : .getSessionKeyObsv ∈ c.pending) (hrows : res.rows = []) :
      Trans sha c e (c.answered .getSessionKeyObsv)
  /-- The character counts arrived; without a row their callback runs twice. -/
  | charsCounted (res : ResultSet) (mid c' : Conn) (hact : e.action = .answer .getCharAmntObsv res)
      (hpending : .getCharAmntObsv ∈ c.pending)
      (hmid : mid = c.answered .getCharAmntObsv ∨
        Conn.Counted sha (c.answered .getCharAmntObsv) mid)
      (hlast : Conn.Counted sha mid c') : Trans sha c e c'

/-! ### Packets -/

section Input

variable {c c' : Conn} {e : Event} {raw : Received}

theorem trans_of_handleAuthLogonChallenge (hread : c.readRegistered = true)
    (hact : e.action = .input raw) : Trans sha c e (c.handleAuthLogonChallenge raw) := by
  rw [Conn.handleAuthLogonChallenge]
  split
  · exact .died hread
  · next hstate =>
    dsimp only
    split
    · next hbuild => exact .challengeTaken raw hact (not_not.mp hstate) hbuild
    · next hbuild => exact .challengeRefused raw hact (not_not.mp hstate) (by simpa using hbuild)

theorem trans_of_handleAuthLogonProof (hread : c.readRegistered = true)
    (hact : e.action = .input raw) (hcmd : EAuthCmd.ofByte? raw.cmd = some .authLogonProof)
    (h : c.handleAuthLogonProof sha e.env raw = some c') : Trans sha c e c' := by
  rw [Conn.handleAuthLogonProof] at h
  dsimp only at h
  split at h
  · rw [← Option.some.inj h]
    exact .died hread
  · next hstate =>
    have hstate := not_not.mp hstate
    split at h
    · next hproof =>
      split at h
      · next build _ =>
        obtain ⟨data, hdata, h⟩ := Option.bind_eq_some_iff.mp h
        rw [← Option.some.inj h]
        exact .proofPassed raw data hact hcmd hread hstate hproof (head_logonProofPacket hdata)
      · next hbuild =>
        rw [← Option.some.inj h]
        exact .proofUnsupported raw hact hstate (Option.isSome_eq_false_iff.mpr
          (Option.isNone_iff_eq_none.mpr hbuild))
    · obtain ⟨failed, reqs, rfl⟩ := Conn.handleFailedLogin_some h
      exact .proofFailed raw failed reqs hact hstate

theorem trans_of_handleAuthReconnectChallenge (hread : c.readRegistered = true)
    (hact : e.action = .input raw) : Trans sha c e (c.handleAuthReconnectChallenge raw) := by
  rw [Conn.handleAuthReconnectChallenge]
  split
  · exact .died hread
  · next hstate => exact .reconnectTaken raw hact (not_not.mp hstate)

theorem trans_of_handleAuthReconnectProof (hread : c.readRegistered = true)
    (hact : e.action = .input raw) (hcmd : EAuthCmd.ofByte? raw.cmd = some .authReconnectProof)
    (h : c.handleAuthReconnectProof sha e.env raw = some c') : Trans sha c e c' := by
  rw [Conn.handleAuthReconnectProof] at h
  split at h
  · rw [← Option.some.inj h]
    exact .died hread
  · next hstate =>
    obtain ⟨hash, hhash, h⟩ := Option.bind_eq_some_iff.mp h
    split at h
    · next hproof =>
      rw [← Option.some.inj h]
      exact .reconnectPassed raw hash hact hcmd hread (not_not.mp hstate) hhash hproof.symm
    · rw [← Option.some.inj h]
      exact .died hread

theorem trans_of_handleRealmList (hread : c.readRegistered = true) (hact : e.action = .input raw)
    (hcmd : EAuthCmd.ofByte? raw.cmd = some .realmList) (h : c.handleRealmList e.env = some c') :
    Trans sha c e c' := by
  rw [Conn.handleRealmList] at h
  split at h
  · rw [← Option.some.inj h]
    exact .died hread
  · next hstate =>
    have hstate := not_not.mp hstate
    split at h
    · obtain ⟨⟨c₁, sent⟩, h₁, rfl⟩ := Option.map_eq_some_iff.mp h
      rcases Conn.sendRealmList_some h₁ with ⟨-, amnt, pkt, hpkt, rfl⟩ | ⟨-, rfl⟩
      · exact .realmListSent raw amnt pkt hact hcmd hstate hpkt
      · exact .died hread
    · rw [← Option.some.inj h]
      exact .realmListAsked raw hact hcmd hstate

theorem trans_of_handleInput (hread : c.readRegistered = true) (hact : e.action = .input raw)
    (h : c.handleInput sha e.env raw = some c') : Trans sha c e c' := by
  rw [Conn.handleInput] at h
  split at h
  · rw [← Option.some.inj h]
    exact .died hread
  · split at h
    · rw [← Option.some.inj h]
      exact trans_of_handleAuthLogonChallenge hread hact
    · next hcmd => exact trans_of_handleAuthLogonProof hread hact hcmd h
    · rw [← Option.some.inj h]
      exact trans_of_handleAuthReconnectChallenge hread hact
    · next hcmd => exact trans_of_handleAuthReconnectProof hread hact hcmd h
    · next hcmd => exact trans_of_handleRealmList hread hact hcmd h
    · rw [← Option.some.inj h]
      exact .died hread

end Input

/-! ### Answers -/

section Answer

variable {c c' : Conn} {e : Event} {res : ResultSet}

theorem trans_of_checkIpBanObsv (hact : e.action = .answer .checkIpBanObsv res)
    (hpending : .checkIpBanObsv ∈ c.pending) (hfresh : res.Fresh)
    (h : (c.answered .checkIpBanObsv).checkIpBanObsv sha e.env res = some c') :
    Trans sha c e c' := by
  rw [Conn.checkIpBanObsv, Conn.ipBanChecked] at h
  have hrows := ResultSet.rowsCount_next_eq_zero_iff hfresh
  split at h
  · next hbanned =>
    rw [← Option.some.inj h]
    exact .ipBanned res hact hpending (mt hrows.mpr (by simpa using hbanned))
  · next hfree =>
    rw [← Option.some.inj h]
    exact .ipFree res hact hpending (hrows.mp (by simpa using hfree))

/-- **What the answer of `get_account` comes to**: there is no row, the account is banned, or
it is read. -/
theorem Conn.checkAcctObsv_some (h : c.checkAcctObsv sha env res = some c') :
    (res.next.2.rowsCount = 0 ∧ c.accountChecked sha env .accountNotfound = some c') ∨
      res.next.2.rowsCount ≠ 0 ∧
        ((∃ active, res.next.2.getUint8 5 = some active ∧ active ≠ 0 ∧
            c.accountChecked sha env .accountBanned = some c') ∨
          ∃ acct, res.next.2.getUint8 5 = some 0 ∧ Conn.readAccount res.next.2 = some acct ∧
            { c with acct }.accountChecked sha env .accountExists = some c') := by
  rw [Conn.checkAcctObsv] at h
  split at h
  · next hnone => exact Or.inl ⟨hnone, h⟩
  · next hsome =>
    refine Or.inr ⟨hsome, ?_⟩
    obtain ⟨active, hactive, h⟩ := Option.bind_eq_some_iff.mp h
    split at h
    · next hbanned => exact Or.inl ⟨active, hactive, hbanned, h⟩
    · next hfree =>
      obtain ⟨acct, hacct, h⟩ := Option.bind_eq_some_iff.mp h
      rw [not_not.mp hfree] at hactive
      exact Or.inr ⟨acct, hactive, hacct, h⟩

theorem trans_of_checkAcctObsv (hact : e.action = .answer .checkAcctObsv res)
    (hpending : .checkAcctObsv ∈ c.pending) (hfresh : res.Fresh)
    (h : (c.answered .checkAcctObsv).checkAcctObsv sha e.env res = some c') :
    Trans sha c e c' := by
  have hrows := ResultSet.rowsCount_next_eq_zero_iff hfresh
  rcases Conn.checkAcctObsv_some h with ⟨hnone, h⟩ | ⟨hsome, ⟨_, -, -, h⟩ | ⟨acct, -, hacct, h⟩⟩
  · rw [← Option.some.inj h]
    exact .accountRefused res .realmAuthNoMatch hact hpending (Or.inl ⟨rfl, hrows.mp hnone⟩)
  · rw [← Option.some.inj h]
    exact .accountRefused res .realmAuthAccountBanned hact hpending
      (Or.inr ⟨rfl, mt hrows.mpr hsome⟩)
  · rw [Conn.accountChecked] at h
    split at h
    · next hlocked =>
      rw [← Option.some.inj h]
      exact .accountLocked res acct hact hpending hacct hlocked
    · next hfree =>
      obtain ⟨I, reqs, pkt, hI, -, hpkt, rfl⟩ := Conn.startLogon_some h
      exact .challengeSent res acct I reqs pkt hact hpending (mt hrows.mpr hsome) hacct hfree hI
        (Conn.isAuthSuccess_challengePacket hpkt)

/-- **What the answer of `get_sessionkey` comes to**: there is a row and the connection ends,
reading the key throws, or the reconnect challenge is sent. -/
theorem Conn.getSessionKeyObsv_some (h : c.getSessionKeyObsv env res = some c') :
    (res.next.2.rowsCount ≠ 0 ∧ c' = c.die) ∨
      res.next.2.rowsCount = 0 ∧
        (res.next.2.getString 1 = none ∧ c' = c ∨
          ∃ text pkt, res.next.2.getString 1 = some text ∧
            reconnectChallengePacket (bnBn2bin env.randProof.val env.heapProof.val) = some pkt ∧
            c' = { { c with
              k := Conn.keyOfText c.k text
              reconnectProof := env.randProof.val }.send pkt with state := .needRproof }) := by
  rw [Conn.getSessionKeyObsv] at h
  split at h
  · next hsome => exact Or.inl ⟨hsome, (Option.some.inj h).symm⟩
  · next hnone =>
    refine Or.inr ⟨not_not.mp hnone, ?_⟩
    split at h
    · next hthrown => exact Or.inl ⟨hthrown, (Option.some.inj h).symm⟩
    · next text htext =>
      obtain ⟨pkt, hpkt, h⟩ := Option.bind_eq_some_iff.mp h
      exact Or.inr ⟨text, pkt, htext, hpkt, (Option.some.inj h).symm⟩

theorem trans_of_getSessionKeyObsv (hact : e.action = .answer .getSessionKeyObsv res)
    (hpending : .getSessionKeyObsv ∈ c.pending) (hfresh : res.Fresh)
    (h : (c.answered .getSessionKeyObsv).getSessionKeyObsv e.env res = some c') :
    Trans sha c e c' := by
  have hrows := ResultSet.rowsCount_next_eq_zero_iff hfresh
  rcases Conn.getSessionKeyObsv_some h with
    ⟨hsome, rfl⟩ | ⟨hnone, ⟨-, rfl⟩ | ⟨text, pkt, htext, hpkt, rfl⟩⟩
  · exact .sessionkeyFound res hact hpending (mt hrows.mpr hsome)
  · exact .sessionkeyThrown res hact hpending (hrows.mp hnone)
  · -- the text is empty, so the number it is read into keeps its value
    obtain rfl := ResultSet.getString_next_of_rows_nil hfresh (hrows.mp hnone) htext
    exact .sessionkeyMissing res pkt hact hpending (hrows.mp hnone)
      (head_reconnectChallengePacket hpkt)

theorem trans_of_getCharAmntObsv (hact : e.action = .answer .getCharAmntObsv res)
    (hpending : .getCharAmntObsv ∈ c.pending)
    (h : (c.answered .getCharAmntObsv).getCharAmntObsv sha e.env res = some c') :
    Trans sha c e c' := by
  rw [Conn.getCharAmntObsv] at h
  obtain ⟨mid, hmid, h⟩ := Option.bind_eq_some_iff.mp h
  obtain ⟨amnt, -, h⟩ := Option.bind_eq_some_iff.mp h
  refine .charsCounted res mid c' hact hpending ?_ (Conn.counted_of_getCharAmountAnswered h)
  split at hmid
  · exact Or.inr (Conn.counted_of_getCharAmountAnswered hmid)
  · exact Or.inl (Option.some.inj hmid).symm

end Answer

/-! ### The function of a step -/

/-- A packet that is let in goes to its handler. -/
theorem handleInput_of_step {c c' : Conn} {e : Event} {raw : Received} (h : step sha c e = some c')
    (hact : e.action = .input raw) : c.handleInput sha e.env raw = some c' := by
  rw [step, hact] at h
  dsimp only at h
  split at h
  · exact h
  · cases h

/-- An answer that was waited for goes to its observer. -/
theorem update_of_step {c c' : Conn} {e : Event} {obs : Observer} {res : ResultSet}
    (h : step sha c e = some c') (hact : e.action = .answer obs res) :
    (obs ∈ c.pending ∧ res.Fresh) ∧ (c.answered obs).update sha e.env res obs = some c' := by
  rw [step, hact] at h
  dsimp only at h
  split at h
  · next hobs => exact ⟨hobs, h⟩
  · cases h

/-- **Every step is one of the transitions.** -/
theorem trans_of_step {c c' : Conn} {e : Event} (h : step sha c e = some c') :
    Trans sha c e c' := by
  rw [step] at h
  split at h
  · next raw hact =>
    split at h
    · next hread => exact trans_of_handleInput hread hact h
    · cases h
  · split at h
    · next hread =>
      rw [← Option.some.inj h]
      exact .died hread
    · cases h
  · next results hact =>
    split at h
    · next hwrite =>
      obtain ⟨queue, delivered, write, active, rfl⟩ := Conn.handleOutput_some h
      exact .output results queue delivered write active hact hwrite
    · cases h
  · next obs res hact =>
    split at h
    · next hobs =>
      obtain ⟨hpending, hfresh⟩ := hobs
      cases obs with
      | checkIpBanObsv => exact trans_of_checkIpBanObsv hact hpending hfresh h
      | checkAcctObsv => exact trans_of_checkAcctObsv hact hpending hfresh h
      | getSessionKeyObsv => exact trans_of_getSessionKeyObsv hact hpending hfresh h
      | getCharAmntObsv => exact trans_of_getCharAmntObsv hact hpending h
    · cases h

end Morfeusz.Realmd
