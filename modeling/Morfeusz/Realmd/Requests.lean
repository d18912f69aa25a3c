import Morfeusz.Realmd.Lockout

/-!
# What a connection asks of the database

Every request that a step of a connection queues, with the reason for it: the lookups of an
address, an account, a session key and of the character counts, the two requests of a verifier,
the session key of a proof that passed, and what a proof that failed leads to. There are no
others (`Morfeusz.Realmd.requested_of_step`).
-/

namespace Morfeusz.Realmd

variable {sha : Sha1} {c c' : Conn} {e : Event} {res : ResultSet} {op : RealmdRequest}

/-- The request of `update_account`. -/
def keyRequest (c : Conn) (K : List UInt8) : RealmdRequest :=
  { statement := .updateAccount
    params := [addString 1 (sessionkeyText K), addString 2 c.ip, addUint8 3 0,
      addString 4 c.login] }

/-- A request that a step queues, and why. -/
inductive Requested (sha : Sha1) (c : Conn) (e : Event) (c' : Conn) : RealmdRequest → Prop
  | checkIpBan (hpending : .checkIpBanObsv ∈ c'.pending) :
      Requested sha c e c' { statement := .checkIpBan, params := [addString 1 c'.ip] }
  | getAccount (hpending : .checkAcctObsv ∈ c'.pending) :
      Requested sha c e c' (accountRequest c'.login)
  | getSessionkey (hpending : .getSessionKeyObsv ∈ c'.pending) :
      Requested sha c e c' { statement := .getSessionkey, params := [addString 1 c'.login] }
  | getCharAmount (hpending : .getCharAmntObsv ∈ c'.pending) :
      Requested sha c e c'
        { statement := .getNumchar, params := [addUint32 1 c'.acct.id.toUInt32] }
  | fixSV (hstate : c.state ≠ .connected) : Requested sha c e c' (fixRequest c'.login)
  | setSV (I : ℕ) (hI : bnHex2bn (cStr c'.acct.shaPass) = some I) (hfits : Fits I 20)
      (hstate : c.state ≠ .connected) :
      Requested sha c e c' (setRequest c'.login c'.s (verifierV sha c'.s I))
  | updateAccount (raw : Received) (hact : e.action = .input raw)
      (hpass : PassesLogonProof sha c e) :
      Requested sha c e c' (keyRequest c (c.sessionKey sha e.env raw.publicA))
  | incrementFailedLogins (hfails : FailsLogonProof sha c e) :
      Requested sha c e c' { statement := .setFailedLogins, params := [addUint64 1 c.acct.id] }
  | banFailedLogins (hfails : FailsLogonProof sha c e) :
      Requested sha c e c' (c.banRequest e.env)

/-- The step queues nothing but that. -/
def QueuesRequested (sha : Sha1) (c : Conn) (e : Event) (c' : Conn) : Prop :=
  ∃ new, c'.requests = c.requests ++ new ∧ ∀ op ∈ new, Requested sha c e c' op

theorem queuesRequested_of_same (h : c'.requests = c.requests) : QueuesRequested sha c e c' :=
  ⟨[], by rw [h, List.append_nil], nofun⟩

theorem queuesRequested_of_some {d : Conn} (h : some d = some c') (hreq : d.requests = c.requests) :
    QueuesRequested sha c e c' := by
  rw [← Option.some.inj h]
  exact queuesRequested_of_same hreq

theorem queuesRequested_of_one (h : c'.requests = c.requests ++ [op])
    (hop : Requested sha c e c' op) : QueuesRequested sha c e c' := by
  refine ⟨[op], h, fun op' hop' => ?_⟩
  rw [List.mem_singleton.mp hop']
  exact hop

/-- A query that is made is one that is waited for. -/
theorem queuesRequested_ask {d : Conn} {obs : Observer} (hreq : d.requests = c.requests)
    (h₁ : c'.requests = (d.ask obs op).requests) (h₂ : c'.pending = (d.ask obs op).pending)
    (hop : obs ∈ c'.pending → Requested sha c e c' op) : QueuesRequested sha c e c' := by
  rw [Conn.ask] at h₁ h₂
  dsimp only at h₁ h₂
  split at h₁
  · next hptr =>
    rw [if_pos hptr] at h₂
    refine queuesRequested_of_one (h₁.trans (by rw [hreq])) (hop ?_)
    rw [h₂]
    exact List.mem_append_right _ (List.mem_singleton_self _)
  · exact queuesRequested_of_same (h₁.trans hreq)

/-! ### Packets -/

theorem queuesRequested_handleFailedLogin (hfails : FailsLogonProof sha c e)
    (h : c.handleFailedLogin sha e.env = some c') : QueuesRequested sha c e c' := by
  rw [Conn.handleFailedLogin, Conn.accountChecked] at h
  rw [← Option.some.inj h]
  by_cases hban : e.env.wrongPassBan = true
  · rw [Conn.countFailedLogin_of_ban hban]
    refine ⟨_, rfl, ?_⟩
    intro op hop
    rcases List.mem_cons.mp hop with rfl | hop
    · exact .incrementFailedLogins hfails
    · split at hop
      · rw [List.mem_singleton.mp hop]
        exact .banFailedLogins hfails
      · cases hop
  · rw [Conn.countFailedLogin, if_neg hban]
    exact queuesRequested_of_same rfl

theorem queuesRequested_handleAuthLogonProof {raw : Received} (hact : e.action = .input raw)
    (hcmd : EAuthCmd.ofByte? raw.cmd = some .authLogonProof)
    (h : c.handleAuthLogonProof sha e.env raw = some c') : QueuesRequested sha c e c' := by
  have hcmd := EAuthCmd.code_of_ofByte? hcmd
  rw [Conn.handleAuthLogonProof] at h
  dsimp only at h
  split at h
  · exact queuesRequested_of_some h rfl
  · next hstate =>
    have hstate := not_not.mp hstate
    split at h
    · next hproof =>
      have hop : ∀ c', Requested sha c e c' (keyRequest c (c.sessionKey sha e.env raw.publicA)) :=
        fun c' => .updateAccount raw hact ⟨raw, hact, hcmd, hstate, hproof⟩
      split at h
      · obtain ⟨data, -, h⟩ := Option.bind_eq_some_iff.mp h
        rw [← Option.some.inj h]
        exact queuesRequested_of_one rfl (hop _)
      · rw [← Option.some.inj h]
        exact queuesRequested_of_one rfl (hop _)
    · next hproof =>
      exact queuesRequested_handleFailedLogin ⟨raw, hact, hcmd, hstate, hproof⟩ h

theorem queuesRequested_handleInput {raw : Received} (hact : e.action = .input raw)
    (h : c.handleInput sha e.env raw = some c') : QueuesRequested sha c e c' := by
  rw [Conn.handleInput] at h
  split at h
  · exact queuesRequested_of_some h rfl
  · split at h
    · rw [← Option.some.inj h, Conn.handleAuthLogonChallenge]
      dsimp only
      split_ifs
      · exact queuesRequested_of_same rfl
      · exact queuesRequested_ask (d := { c with
          login := c.login ++ raw.i.take raw.iLen.toNat, clientBuild := raw.build }) rfl rfl rfl
          .checkIpBan
      · exact queuesRequested_of_same rfl
    · next hcmd => exact queuesRequested_handleAuthLogonProof hact hcmd h
    · rw [← Option.some.inj h, Conn.handleAuthReconnectChallenge]
      split
      · exact queuesRequested_of_same rfl
      · exact queuesRequested_ask (d := { c with
          clientBuild := raw.build, login := cStr raw.i }) rfl rfl rfl .getSessionkey
    · rw [Conn.handleAuthReconnectProof] at h
      split at h
      · exact queuesRequested_of_some h rfl
      · obtain ⟨hash, -, h⟩ := Option.bind_eq_some_iff.mp h
        split at h
        · exact queuesRequested_of_some h rfl
        · exact queuesRequested_of_some h rfl
    · rw [Conn.handleRealmList] at h
      split at h
      · exact queuesRequested_of_some h rfl
      · split at h
        · obtain ⟨⟨c₁, sent⟩, h₁, rfl⟩ := Option.map_eq_some_iff.mp h
          rcases Conn.sendRealmList_some h₁ with ⟨-, amnt, pkt, -, rfl⟩ | ⟨-, rfl⟩
          · exact queuesRequested_of_same rfl
          · exact queuesRequested_of_same rfl
        · rw [← Option.some.inj h]
          exact queuesRequested_ask (d := c) rfl rfl rfl .getCharAmount
    · exact queuesRequested_of_some h rfl

/-! ### Answers -/

/-- A request of `set_vs`. -/
def Conn.SetsVerifier (sha : Sha1) (c : Conn) (op : RealmdRequest) : Prop :=
  op = fixRequest c.login ∨ ∃ I, bnHex2bn (cStr c.acct.shaPass) = some I ∧ Fits I 20 ∧
    op = setRequest c.login c.s (verifierV sha c.s I)

/-- What stays of a connection for its verifier, and that nothing else is queued. -/
structure Conn.Verifies (sha : Sha1) (c c' : Conn) : Prop where
  login : c'.login = c.login
  s : c'.s = c.s
  shaPass : c'.acct.shaPass = c.acct.shaPass
  requests : ∃ new, c'.requests = c.requests ++ new ∧ ∀ op ∈ new, c.SetsVerifier sha op

theorem Conn.SetsVerifier.congr (h : c'.SetsVerifier sha op) (hlogin : c'.login = c.login)
    (hs : c'.s = c.s) (hpass : c'.acct.shaPass = c.acct.shaPass) : c.SetsVerifier sha op := by
  rw [SetsVerifier, hlogin, hs, hpass] at h
  exact h

theorem Conn.Verifies.trans {c'' : Conn} (h : c.Verifies sha c') (h' : c'.Verifies sha c'') :
    c.Verifies sha c'' := by
  obtain ⟨new, hnew, hall⟩ := h.requests
  obtain ⟨new', hnew', hall'⟩ := h'.requests
  refine ⟨h'.login.trans h.login, h'.s.trans h.s, h'.shaPass.trans h.shaPass, new ++ new', ?_, ?_⟩
  · rw [hnew', hnew, List.append_assoc]
  · intro op hop
    rcases List.mem_append.mp hop with hop | hop
    · exact hall op hop
    · exact (hall' op hop).congr h.login h.s h.shaPass

theorem Conn.verifies_of_setVs (h : c.setVs sha = some c') : c.Verifies sha c' := by
  obtain ⟨I, -, hI, hfits, -⟩ := setVs_some h
  obtain ⟨I', hI', rfl⟩ := setVs_eq_of_some h
  obtain rfl := Option.some.inj (hI.symm.trans hI')
  refine ⟨rfl, rfl, rfl, _, rfl, fun op hop => ?_⟩
  rw [verifierRequests, List.mem_pair] at hop
  exact hop.imp_right fun hop => ⟨I, hI, hfits, hop⟩

/-- What one call of the callback `get_char_amount` queues. -/
theorem Conn.verifies_getCharAmountAnswered {env : Env} {amnt : List (UInt8 × UInt8)}
    (h : c.getCharAmountAnswered sha env amnt = some c') : c.Verifies sha c' := by
  rw [getCharAmountAnswered] at h
  obtain ⟨⟨c₁, sent⟩, h₁, h⟩ := Option.bind_eq_some_iff.mp h
  have hnone : ∀ d : Conn, d.requests = c.requests →
      ∃ new, d.requests = c.requests ++ new ∧ ∀ op ∈ new, c.SetsVerifier sha op :=
    fun d hd => ⟨[], by rw [hd, List.append_nil], fun op hop => absurd hop List.not_mem_nil⟩
  rcases sendRealmList_some h₁ with ⟨rfl, amnt', pkt, -, rfl⟩ | ⟨rfl, rfl⟩
  · have hset := verifies_of_setVs h
    refine Verifies.trans ?_ hset
    exact ⟨rfl, rfl, rfl, hnone _ rfl⟩
  · rw [← Option.some.inj h]
    exact ⟨rfl, rfl, rfl, hnone _ rfl⟩

/-- Without a row the callback runs twice. -/
theorem Conn.verifies_getCharAmntObsv {env : Env} (h : c.getCharAmntObsv sha env res = some c') :
    c.Verifies sha c' := by
  rw [getCharAmntObsv] at h
  obtain ⟨mid, hmid, h⟩ := Option.bind_eq_some_iff.mp h
  obtain ⟨amnt, -, h⟩ := Option.bind_eq_some_iff.mp h
  have hlast := verifies_getCharAmountAnswered h
  split at hmid
  · exact (verifies_getCharAmountAnswered hmid).trans hlast
  · rwa [← Option.some.inj hmid] at hlast

theorem queuesRequested_of_verifies {d : Conn} (hstate : c.state ≠ .connected)
    (hreq : d.requests = c.requests) (h : d.Verifies sha c') : QueuesRequested sha c e c' := by
  obtain ⟨new, hnew, hall⟩ := h.requests
  refine ⟨new, hnew.trans (by rw [hreq]), fun op hop => ?_⟩
  rcases (hall op hop).congr h.login.symm h.s.symm h.shaPass.symm with rfl | ⟨I, hI, hfits, rfl⟩
  · exact .fixSV hstate
  · exact .setSV I hI hfits hstate

theorem queuesRequested_accountChecked {d : Conn} {state : AccountState}
    (hstate : c.state ≠ .connected) (hreq : d.requests = c.requests)
    (h : d.accountChecked sha e.env state = some c') : QueuesRequested sha c e c' := by
  cases state with
  | accountBanned | accountNotfound => exact queuesRequested_of_some h hreq
  | accountExists =>
    rw [Conn.accountChecked] at h
    split at h
    · exact queuesRequested_of_some h hreq
    · rw [Conn.startLogon] at h
      obtain ⟨d', hd', h⟩ := Option.bind_eq_some_iff.mp h
      obtain ⟨pkt, -, h⟩ := Option.bind_eq_some_iff.mp h
      obtain ⟨hlogin, hs, hpass, hnew⟩ := Conn.verifies_of_setVs hd'
      rw [← Option.some.inj h]
      exact queuesRequested_of_verifies hstate hreq ⟨hlogin, hs, hpass, hnew⟩

theorem queuesRequested_update {obs : Observer} (hstate : c.state ≠ .connected)
    (h : (c.answered obs).update sha e.env res obs = some c') : QueuesRequested sha c e c' := by
  cases obs with
  | checkIpBanObsv =>
    rw [Conn.update, Conn.checkIpBanObsv, Conn.ipBanChecked] at h
    split at h
    · exact queuesRequested_of_some h rfl
    · rw [← Option.some.inj h]
      exact queuesRequested_ask (d := c.answered .checkIpBanObsv) rfl rfl rfl .getAccount
  | checkAcctObsv =>
    rcases Conn.checkAcctObsv_some h with ⟨-, h⟩ | ⟨-, ⟨_, -, -, h⟩ | ⟨acct, -, -, h⟩⟩
    · exact queuesRequested_accountChecked (d := c.answered .checkAcctObsv) hstate rfl h
    · exact queuesRequested_accountChecked (d := c.answered .checkAcctObsv) hstate rfl h
    · exact queuesRequested_accountChecked (d := { c.answered .checkAcctObsv with acct }) hstate
        rfl h
  | getSessionKeyObsv =>
    rcases Conn.getSessionKeyObsv_some h with ⟨-, rfl⟩ | ⟨-, ⟨-, rfl⟩ | ⟨text, pkt, -, -, rfl⟩⟩
    · exact queuesRequested_of_same rfl
    · exact queuesRequested_of_same rfl
    · exact queuesRequested_of_same rfl
  | getCharAmntObsv =>
    exact queuesRequested_of_verifies (d := c.answered .getCharAmntObsv) hstate rfl
      (Conn.verifies_getCharAmntObsv h)

/-- **Every request of a connection has its reason.** -/
theorem requested_of_step (hi : Inv sha c) (h : step sha c e = some c') :
    QueuesRequested sha c e c' := by
  cases hact : e.action with
  | hangup =>
    rw [step, hact] at h
    dsimp only at h
    split at h
    · exact queuesRequested_of_some h rfl
    · cases h
  | output results =>
    rw [step, hact] at h
    dsimp only at h
    split at h
    · obtain ⟨queue, delivered, write, active, rfl⟩ := Conn.handleOutput_some h
      exact queuesRequested_of_same rfl
    · cases h
  | input raw => exact queuesRequested_handleInput hact (handleInput_of_step h hact)
  | answer obs res =>
    obtain ⟨⟨hpending, -⟩, h⟩ := update_of_step h hact
    exact queuesRequested_update (hi.busy_of_pending hpending) h

end Morfeusz.Realmd
