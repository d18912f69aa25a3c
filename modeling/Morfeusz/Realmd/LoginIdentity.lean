import Morfeusz.Realmd.LogonOrder

/-!
# The name a connection looks up

A challenge carries a name as its length and that many bytes. `handle_auth_logon_challenge`
appends those bytes to the name of the connection, which is not empty any more if an
earlier challenge was turned down for its build. `handle_auth_reconnect_challenge` does
not look at the length at all, and takes the bytes up to the first NUL.

What a lookup asks for goes back to one challenge, that of its own step or, for the
account, the one whose address was looked up before. The name of the connection is that of
this challenge exactly where neither of the two handlers does more than it should
(`Morfeusz.Realmd.NameArrives`).
-/

namespace Morfeusz.Realmd

variable {sha : Sha1} {c c' : Conn} {e : Event} {obs : Observer}

/-- The name a challenge carries. -/
def Received.name (raw : Received) : List UInt8 := raw.i.take raw.iLen.toNat

/-- The step makes the query of an observer. -/
def Asks (obs : Observer) (c c' : Conn) : Prop := c.pending.count obs < c'.pending.count obs

/-- The queries that are made for a name or before it is looked up: `check_ip_ban`,
`get_account` and `get_sessionkey`. -/
def Observer.isChallenged : Observer → Bool
  | checkIpBanObsv | checkAcctObsv | getSessionKeyObsv => true
  | getCharAmntObsv => false

/-- The challenge that caused a query of step `i`: the packet of the step, or the one for
which the address was looked up whose answer the step is. -/
def Causes (sha : Sha1) (f : Start) (es : List Event) (i : ℕ) (e : Event) (raw : Received) : Prop :=
  e.action = .input raw ∨ (∃ res, e.action = .answer .checkIpBanObsv res) ∧
    ∃ j t g t', j < i ∧ StepAt sha f es j t g t' ∧ Asks .checkIpBanObsv t t' ∧ g.action = .input raw

/-- **What should hold of a run**: every query has a challenge that caused it, and is made
for the name that challenge carries. -/
def LooksUpItsName (sha : Sha1) (f : Start) (es : List Event) : Prop :=
  ∀ i c e c' obs, StepAt sha f es i c e c' → obs.isChallenged = true → Asks obs c c' →
    (∃ raw, Causes sha f es i e raw) ∧ ∀ raw, Causes sha f es i e raw → c'.login = raw.name

/-- A challenge that is taken finds the connection without a name, if it is to log on; and if
it is to reconnect there is no NUL in its name, and one behind it. -/
def NameArrives (c : Conn) (e : Event) : Prop :=
  ∀ raw, e.action = .input raw → c.state = .connected →
    (raw.cmd = EAuthCmd.authLogonChallenge.code → isSupportedClientBuild raw.build = true →
      c.login = []) ∧
    (raw.cmd = EAuthCmd.authReconnectChallenge.code →
      0 ∉ raw.name ∧ raw.i[raw.iLen.toNat]? = some 0)

/-! ### The C string and the name -/

/-- The C string is the first `n` bytes exactly when the first NUL stands behind them. -/
theorem cStr_eq_take_iff {bs : List UInt8} {n : ℕ} (hn : n < bs.length) :
    cStr bs = bs.take n ↔ 0 ∉ bs.take n ∧ bs[n]? = some 0 := by
  induction bs generalizing n with
  | nil => exact absurd hn (Nat.not_lt_zero n)
  | cons b bs ih =>
    by_cases hb : b = 0
    · subst hb
      cases n with
      | zero => simp [cStr]
      | succ n => simp [cStr]
    · have hcons : cStr (b :: bs) = b :: cStr bs := List.takeWhile_cons_of_pos (by simpa using hb)
      cases n with
      | zero => simp [hcons, hb]
      | succ n =>
        rw [List.length_cons] at hn
        rw [hcons, List.take_succ_cons, List.cons.injEq, List.getElem?_cons_succ,
          ih (Nat.lt_of_succ_lt_succ hn), List.mem_cons, not_or]
        simp [Ne.symm hb]

theorem cStr_i_eq_iff (raw : Received) :
    cStr raw.i = raw.name ↔ 0 ∉ raw.name ∧ raw.i[raw.iLen.toNat]? = some 0 := by
  refine cStr_eq_take_iff ?_
  have := raw.iLen.toNat_lt
  rw [Received.i, List.length_drop, raw.length_rawBuf]
  omega

/-! ### The steps that ask -/

theorem count_answered_le (c : Conn) (obs obs' : Observer) :
    (c.answered obs').pending.count obs ≤ c.pending.count obs :=
  List.Sublist.count_le obs List.erase_sublist

theorem Conn.count_ask_of_ne {obs' : Observer} {op : RealmdRequest} (h : obs' ≠ obs) :
    (c.ask obs' op).pending.count obs = c.pending.count obs := by
  rw [ask]
  dsimp only
  split
  · rw [List.count_append, List.count_singleton, beq_false_of_ne h]
    rfl
  · rfl

theorem Conn.asks_ask (op : RealmdRequest) (hptr : c.ptr = true) : Asks obs c (c.ask obs op) := by
  rw [Asks, ask]
  simp [hptr]

theorem not_asks_of_count_le (h : c'.pending.count obs ≤ c.pending.count obs) : ¬Asks obs c c' :=
  Nat.not_lt.mpr h

/-- What a query is made on: a challenge, or the answer of `check_ip_ban`. -/
theorem Trans.source_of_asks (h : Trans sha c e c') (hobs : obs.isChallenged = true)
    (hasks : Asks obs c c') : (∃ raw, e.action = .input raw ∧ c.state = .connected) ∨
      (∃ res, e.action = .answer .checkIpBanObsv res) ∧ .checkIpBanObsv ∈ c.pending ∧
        c'.login = c.login ∧ obs = .checkAcctObsv := by
  cases h with
  | challengeTaken raw hact hstate | reconnectTaken raw hact hstate =>
    exact Or.inl ⟨raw, hact, hstate⟩
  | ipFree res hact hpending =>
    refine Or.inr ⟨⟨res, hact⟩, hpending, rfl, ?_⟩
    by_contra hne
    refine not_asks_of_count_le ?_ hasks
    exact (Conn.count_ask_of_ne (Ne.symm hne)).trans_le (count_answered_le c obs .checkIpBanObsv)
  | realmListAsked =>
    refine absurd hasks (not_asks_of_count_le (Conn.count_ask_of_ne ?_).le)
    rintro rfl
    cases hobs
  | charsCounted res mid _ _ _ hmid hlast =>
    refine absurd hasks (not_asks_of_count_le ?_)
    refine Conn.counted_induction (P := fun d => d.pending.count obs ≤ c.pending.count obs) hmid
      hlast (count_answered_le c obs .getCharAmntObsv) ?_
    intro d d' hd hle
    rwa [hd.pending_eq]
  | ipBanned | accountRefused | accountLocked | challengeSent | sessionkeyFound
  | sessionkeyMissing | sessionkeyThrown =>
    exact absurd hasks (not_asks_of_count_le (count_answered_le c obs _))
  | died | challengeRefused | proofPassed | proofUnsupported | proofFailed | reconnectPassed
  | realmListSent | output => exact absurd hasks (not_asks_of_count_le le_rfl)

/-- A packet in `STATUS_CONNECTED` that is no challenge ends the connection. -/
theorem step_of_connected {raw : Received} (h : step sha c e = some c')
    (hact : e.action = .input raw) (hstate : c.state = .connected) :
    raw.cmd = EAuthCmd.authLogonChallenge.code ∧ c' = c.handleAuthLogonChallenge raw ∨
      raw.cmd = EAuthCmd.authReconnectChallenge.code ∧ c' = c.handleAuthReconnectChallenge raw ∨
      c' = c.die := by
  have h := handleInput_of_step h hact
  rw [Conn.handleInput, if_neg (by simp [hstate])] at h
  split at h
  · next hcmd => exact Or.inl ⟨EAuthCmd.code_of_ofByte? hcmd, (Option.some.inj h).symm⟩
  · rw [Conn.handleAuthLogonProof, if_pos (by simp [hstate])] at h
    exact Or.inr (Or.inr (Option.some.inj h).symm)
  · next hcmd =>
    exact Or.inr (Or.inl ⟨EAuthCmd.code_of_ofByte? hcmd, (Option.some.inj h).symm⟩)
  · rw [Conn.handleAuthReconnectProof, if_pos (by simp [hstate])] at h
    exact Or.inr (Or.inr (Option.some.inj h).symm)
  · rw [Conn.handleRealmList, if_pos (by simp [hstate])] at h
    exact Or.inr (Or.inr (Option.some.inj h).symm)
  · exact Or.inr (Or.inr (Option.some.inj h).symm)

/-- The name of a connection that takes a challenge to log on. -/
theorem Conn.handleAuthLogonChallenge_of_supported {raw : Received} (hstate : c.state = .connected)
    (hbuild : isSupportedClientBuild raw.build = true) :
    c.handleAuthLogonChallenge raw = { ({ c with
      login := c.login ++ raw.name, clientBuild := raw.build }).checkIpBan with
        state := .needProof } := by
  rw [handleAuthLogonChallenge, if_neg (not_not.mpr hstate)]
  dsimp only
  rw [if_pos hbuild]
  rfl

theorem Conn.handleAuthReconnectChallenge_of_connected {raw : Received}
    (hstate : c.state = .connected) : c.handleAuthReconnectChallenge raw = { ({ c with
      clientBuild := raw.build, login := cStr raw.i }).getSessionkey with
        state := .needRproof } := by
  rw [handleAuthReconnectChallenge, if_neg (not_not.mpr hstate)]

/-- **A challenge that makes a query is one of the two, and the name is as its handler has
it.** -/
theorem name_of_asks {raw : Received} (h : step sha c e = some c') (hact : e.action = .input raw)
    (hstate : c.state = .connected) (hasks : Asks obs c c') :
    raw.cmd = EAuthCmd.authLogonChallenge.code ∧ isSupportedClientBuild raw.build = true ∧
        c'.login = c.login ++ raw.name ∨
      raw.cmd = EAuthCmd.authReconnectChallenge.code ∧ c'.login = cStr raw.i := by
  rcases step_of_connected h hact hstate with ⟨hcmd, rfl⟩ | ⟨hcmd, rfl⟩ | rfl
  · refine Or.inl ⟨hcmd, ?_⟩
    by_cases hbuild : isSupportedClientBuild raw.build = true
    · rw [Conn.handleAuthLogonChallenge_of_supported hstate hbuild]
      exact ⟨hbuild, rfl⟩
    · rw [Conn.handleAuthLogonChallenge, if_neg (not_not.mpr hstate)] at hasks
      dsimp only at hasks
      rw [if_neg hbuild] at hasks
      exact absurd hasks (not_asks_of_count_le le_rfl)
  · rw [Conn.handleAuthReconnectChallenge_of_connected hstate]
    exact Or.inr ⟨hcmd, rfl⟩
  · exact absurd hasks (not_asks_of_count_le le_rfl)

/-- **Where the condition holds, the name is that of the challenge.** -/
theorem NameArrives.login_eq {raw : Received} (hname : NameArrives c e)
    (h : step sha c e = some c') (hact : e.action = .input raw) (hstate : c.state = .connected)
    (hasks : Asks obs c c') : c'.login = raw.name := by
  obtain ⟨hlogon, hreconnect⟩ := hname raw hact hstate
  rcases name_of_asks h hact hstate hasks with ⟨hcmd, hbuild, hlogin⟩ | ⟨hcmd, hlogin⟩
  · rw [hlogin, hlogon hcmd hbuild, List.nil_append]
  · rw [hlogin, cStr_i_eq_iff]
    exact hreconnect hcmd

/-- A challenge to log on that is taken makes its query. -/
theorem asks_of_logonChallenge {raw : Received} (h : step sha c e = some c')
    (hact : e.action = .input raw) (hstate : c.state = .connected) (hptr : c.ptr = true)
    (hcmd : raw.cmd = EAuthCmd.authLogonChallenge.code)
    (hbuild : isSupportedClientBuild raw.build = true) :
    Asks .checkIpBanObsv c c' ∧ c'.login = c.login ++ raw.name := by
  have h := handleInput_of_step h hact
  rw [Conn.handleInput, if_neg (by simp [hstate]), hcmd, ofByte?_code] at h
  dsimp only at h
  rw [Conn.handleAuthLogonChallenge_of_supported hstate hbuild] at h
  rw [← Option.some.inj h]
  exact ⟨Conn.asks_ask { statement := .checkIpBan, params := [addString 1 c.ip] } hptr, rfl⟩

/-- So does one to reconnect. -/
theorem asks_of_reconnectChallenge {raw : Received} (h : step sha c e = some c')
    (hact : e.action = .input raw) (hstate : c.state = .connected) (hptr : c.ptr = true)
    (hcmd : raw.cmd = EAuthCmd.authReconnectChallenge.code) :
    Asks .getSessionKeyObsv c c' ∧ c'.login = cStr raw.i := by
  have h := handleInput_of_step h hact
  rw [Conn.handleInput, if_neg (by simp [hstate]), hcmd, ofByte?_code] at h
  dsimp only at h
  rw [Conn.handleAuthReconnectChallenge_of_connected hstate] at h
  rw [← Option.some.inj h]
  exact ⟨Conn.asks_ask { statement := .getSessionkey, params := [addString 1 (cStr raw.i)] } hptr,
    rfl⟩

/-- **And only there.** -/
theorem nameArrives_of_login (h : step sha c e = some c')
    (hptr : c.state = .connected → c.ptr = true)
    (hlogin : ∀ raw obs, e.action = .input raw → obs.isChallenged = true → Asks obs c c' →
      c'.login = raw.name) : NameArrives c e := by
  intro raw hact hstate
  refine ⟨fun hcmd hbuild => ?_, fun hcmd => ?_⟩
  · obtain ⟨hasks, happ⟩ := asks_of_logonChallenge h hact hstate (hptr hstate) hcmd hbuild
    exact List.append_left_eq_self.mp (happ.symm.trans (hlogin raw _ hact rfl hasks))
  · obtain ⟨hasks, hcut⟩ := asks_of_reconnectChallenge h hact hstate (hptr hstate) hcmd
    exact (cStr_i_eq_iff raw).mp (hcut.symm.trans (hlogin raw _ hact rfl hasks))

/-! ### Runs -/

section Runs

variable {f : Start} {es : List Event} {i : ℕ}

/-- Only a challenge looks an address up, and it is taken then. -/
theorem takes_of_asks (h : StepAt sha f es i c e c') (hasks : Asks .checkIpBanObsv c c') :
    c.state = .connected ∧ ∃ raw, e.action = .input raw ∧ c'.state ≠ .connected := by
  rcases (trans_of_stepAt h).source_of_asks rfl hasks with ⟨raw, hact, hstate⟩ | ⟨-, -, -, hobs⟩
  · refine ⟨hstate, raw, hact, fun hc' => ?_⟩
    have hidle := ((inv_of_stepAt h).of_step h.2.2).idle hc'
    rw [Asks, hidle.1] at hasks
    exact Nat.not_lt_zero _ hasks
  · cases hobs

/-- **An address that is looked up goes back to a challenge.** -/
theorem exists_challenge (h : StepAt sha f es i c e c') (hpending : .checkIpBanObsv ∈ c.pending) :
    ∃ j t g t' raw, j < i ∧ StepAt sha f es j t g t' ∧ Asks .checkIpBanObsv t t' ∧
      g.action = .input raw := by
  obtain ⟨j, t, g, t', hji, hat, ht, ht'⟩ :=
    h.exists_earlier (H := fun c => .checkIpBanObsv ∈ c.pending) List.not_mem_nil hpending
  have hasks : Asks .checkIpBanObsv t t' := by
    rw [Asks, List.count_eq_zero_of_not_mem ht]
    exact List.count_pos_iff.mpr ht'
  obtain ⟨-, raw, hact, -⟩ := takes_of_asks hat hasks
  exact ⟨j, t, g, t', raw, hji, hat, hasks, hact⟩

end Runs

/-- **The name that is looked up.** In every run the queries are all made for the name of the
challenge that caused them if and only if every challenge that is taken finds no name there
before its own, and is cut by the C string where the name ends. -/
theorem looks_up_its_name_iff (sha : Sha1) (f : Start) (es : List Event) :
    LooksUpItsName sha f es ↔
      ∀ i c e c', StepAt sha f es i c e c' → NameArrives c e := by
  constructor
  · intro hall i c e c' hat
    refine nameArrives_of_login hat.2.2 ?_ ?_
    · intro hstate
      exact (inv_of_stepAt hat).alive.open_of_state (by simp [hstate]) (by simp [hstate])
    · intro raw obs hact hobs hasks
      exact (hall i c e c' obs hat hobs hasks).2 raw (Or.inl hact)
  · intro hall i c e c' obs hat hobs hasks
    rcases (trans_of_stepAt hat).source_of_asks hobs hasks with
      ⟨raw, hact, hstate⟩ | ⟨⟨res, hact⟩, hpending, hlogin, -⟩
    -- the packet of the step
    · refine ⟨⟨raw, Or.inl hact⟩, ?_⟩
      rintro raw' (hact' | ⟨⟨res, hact'⟩, -⟩)
      · exact (hall i c e c' hat).login_eq hat.2.2 hact' hstate hasks
      · exact absurd (hact.symm.trans hact') nofun
    -- the packet that had the address looked up; the name has not changed since
    · obtain ⟨j, t, g, t', raw, hji, hat', hasks', hact'⟩ := exists_challenge hat hpending
      refine ⟨⟨raw, Or.inr ⟨⟨res, hact⟩, j, t, g, t', hji, hat', hasks', hact'⟩⟩, ?_⟩
      rintro raw (hraw | ⟨-, k, u, d, u', hki, hatk, hasksk, hraw⟩)
      · exact absurd (hact.symm.trans hraw) nofun
      · obtain ⟨hstate, -, -, htaken⟩ := takes_of_asks hatk hasksk
        obtain ⟨es', hrun⟩ := hatk.run_between hat hki
        rw [hlogin, (sameClient_of_run hrun htaken).2.1]
        exact (hall k u d u' hatk).login_eq hatk.2.2 hraw hstate hasksk

/-! ### A name that is two -/

namespace Sample

def otherLogin : Client.Name := ⟨[66], by decide⟩

/-- A challenge of an unknown build, and one of a known build after it. -/
def twoChallenges : List Event :=
  [⟨env, .input (Client.challenge .authLogonChallenge 1 login)⟩,
    ⟨env, .input (Client.challenge .authLogonChallenge build otherLogin)⟩]

end Sample

/-- **The second name is appended to the first.** -/
theorem looks_up_two_names :
    ¬LooksUpItsName Sample.zeroSha Sample.start Sample.twoChallenges := by
  intro hall
  have hsome : (run Sample.zeroSha Sample.start (Sample.twoChallenges.take 2)).isSome := by
    decide +kernel
  have hlast : ∀ d ∈ run Sample.zeroSha Sample.start (Sample.twoChallenges.take 2),
      d.pending = [.checkIpBanObsv] ∧ d.login = [65, 66] := by
    decide +kernel
  have hfirst : ∀ d ∈ run Sample.zeroSha Sample.start (Sample.twoChallenges.take 1),
      d.pending = [] := by
    decide +kernel
  obtain ⟨c, c', hat⟩ := Runs.exists_stepAt_of_isSome hsome rfl
  obtain ⟨hpending, hlogin⟩ := hlast c' hat.run_succ
  have hasks : Asks .checkIpBanObsv c c' := by
    rw [Asks, hpending, hfirst c hat.1]
    decide
  have hname := (hall 1 c _ c' _ hat rfl hasks).2 _ (Or.inl rfl)
  rw [Received.name, Client.take_i_challenge, hlogin] at hname
  exact absurd hname (by decide)

end Morfeusz.Realmd
