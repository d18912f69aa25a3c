import Morfeusz.Realmd.Reconnect

/-!
# A connection that moves forward

The states of a connection are meant to be passed through in one direction, and
`STATUS_CLOSING` to be the end. The packet handlers look at the state before they do
anything; the callbacks of the database do not. So the answers that come too late are what
takes a connection back, or lets a closed one send: all but a few of them where the
connection is closing, and the missing session key where it is authenticated already
(`Morfeusz.Realmd.InTime`).
-/

namespace Morfeusz.Realmd

variable {sha : Sha1} {c c' : Conn} {e : Event} {obs : Observer} {res : ResultSet}

/-- The states that may come after a state. -/
def ConnectionState.next : ConnectionState → List ConnectionState
  | connected => [needProof, needRproof, closing]
  | needProof | needRproof => [authed, closing]
  | authed => [closing]
  | closing => []

/-- A step keeps the state or takes it to one of the next, and a closing connection queues
nothing. -/
def StepsForward (c c' : Conn) : Prop :=
  (c'.state = c.state ∨ c'.state ∈ c.state.next) ∧ (c.state = .closing → c'.queued = c.queued)

/-- **What should hold of a run**: every step is one forward. -/
def MovesForward (sha : Sha1) (f : Start) (es : List Event) : Prop :=
  ∀ i c e c', StepAt sha f es i c e c' → StepsForward c c'

/-- There is no row for the session key, and reading it does not throw. -/
def KeyMissing (res : ResultSet) : Prop := res.rows = [] ∧ (res.next.2.getString 1).isSome

/-- An answer that a closing connection does not send anything for. -/
def Conn.Silent (c : Conn) (res : ResultSet) : Observer → Prop
  | .checkIpBanObsv => res.rows = []
  | .checkAcctObsv => False
  | .getSessionKeyObsv => ¬KeyMissing res
  | .getCharAmntObsv => isSupportedClientBuild c.clientBuild = false

/-- No answer comes too late. -/
def InTime (c : Conn) (e : Event) : Prop :=
  ∀ obs res, e.action = .answer obs res → (c.state = .closing → c.Silent res obs) ∧
    (c.state = .authed → obs = .getSessionKeyObsv → ¬KeyMissing res)

/-! ### What an answer does to the state and the queue -/

/-- Neither the state nor the queue has changed. -/
def Quiet (c c' : Conn) : Prop := c'.state = c.state ∧ c'.queued = c.queued

/-- Something was queued, and the state has not changed. -/
def Sends (c c' : Conn) : Prop :=
  c'.state = c.state ∧ ∃ pkt pkts, c'.queued = c.queued ++ pkt :: pkts

theorem Quiet.stepsForward (h : Quiet c c') : StepsForward c c' := ⟨Or.inl h.1, fun _ => h.2⟩

/-- Every state may be followed by the end. -/
theorem stepsForward_of_closing (hstate : c'.state = .closing) (hqueued : c'.queued = c.queued) :
    StepsForward c c' := by
  refine ⟨?_, fun _ => hqueued⟩
  rw [hstate]
  cases c.state <;> decide

theorem stepsForward_die (c : Conn) : StepsForward c c.die := stepsForward_of_closing rfl rfl

theorem stepsForward_of_next {st st' : ConnectionState} (hc : c.state = st) (hc' : c'.state = st')
    (hopen : st ≠ .closing) (h : st' ∈ st.next) : StepsForward c c' := by
  subst hc hc'
  exact ⟨Or.inr h, fun hclosing => absurd hclosing hopen⟩

theorem Sends.stepsForward_iff (h : Sends c c') : StepsForward c c' ↔ c.state ≠ .closing := by
  obtain ⟨hstate, pkt, pkts, hqueued⟩ := h
  constructor
  · rintro ⟨-, hclosing⟩ hc
    have hsame := hclosing hc
    rw [hqueued, List.append_right_eq_self] at hsame
    cases hsame
  · exact fun hc => ⟨Or.inl hstate, fun hclosing => absurd hclosing hc⟩

/-- The answer of `check_ip_ban`: no row leads to a further query, and a row to a reply. -/
theorem step_checkIpBan (h : step sha c e = some c')
    (hact : e.action = .answer .checkIpBanObsv res) :
    res.rows = [] ∧ Quiet c c' ∨ res.rows ≠ [] ∧ Sends c c' := by
  obtain ⟨⟨-, hfresh⟩, h⟩ := update_of_step h hact
  rw [Conn.update, Conn.checkIpBanObsv, Conn.ipBanChecked] at h
  have hrows := ResultSet.rowsCount_next_eq_zero_iff hfresh
  split at h
  · next hbanned =>
    rw [← Option.some.inj h]
    exact Or.inr ⟨mt hrows.mpr (by simpa using hbanned), rfl, _, [], rfl⟩
  · next hfree =>
    rw [← Option.some.inj h]
    exact Or.inl ⟨hrows.mp (by simpa using hfree), rfl, rfl⟩

/-- An account that was checked is always replied to. -/
theorem Conn.accountChecked_some {env : Env} {state : AccountState}
    (h : c.accountChecked sha env state = some c') : Sends c c' := by
  cases state with
  | accountBanned | accountNotfound =>
    rw [accountChecked] at h
    rw [← Option.some.inj h]
    exact ⟨rfl, _, [], rfl⟩
  | accountExists =>
    rw [accountChecked] at h
    split at h
    · rw [← Option.some.inj h]
      exact ⟨rfl, _, [], rfl⟩
    · obtain ⟨I, reqs, pkt, -, -, -, rfl⟩ := startLogon_some h
      exact ⟨rfl, pkt, [], rfl⟩

/-- So is the answer of `get_account`. -/
theorem step_checkAcct (h : step sha c e = some c')
    (hact : e.action = .answer .checkAcctObsv res) : Sends c c' := by
  obtain ⟨-, h⟩ := update_of_step h hact
  rcases Conn.checkAcctObsv_some h with ⟨-, h⟩ | ⟨-, ⟨_, -, -, h⟩ | ⟨acct, -, -, h⟩⟩
  · exact Conn.accountChecked_some (c := c.answered .checkAcctObsv) h
  · exact Conn.accountChecked_some (c := c.answered .checkAcctObsv) h
  · exact Conn.accountChecked_some (c := { c.answered .checkAcctObsv with acct }) h

/-- The answer of `get_sessionkey`: a missing key takes the connection to
`STATUS_NEED_RPROOF`, from wherever it is. -/
theorem step_getSessionKey (h : step sha c e = some c')
    (hact : e.action = .answer .getSessionKeyObsv res) :
    KeyMissing res ∧ c'.state = .needRproof ∧ (∃ pkt, c'.queued = c.queued ++ [pkt]) ∨
      ¬KeyMissing res ∧ (Quiet c c' ∨ c' = (c.answered .getSessionKeyObsv).die) := by
  obtain ⟨⟨-, hfresh⟩, h⟩ := update_of_step h hact
  have hrows := ResultSet.rowsCount_next_eq_zero_iff hfresh
  rcases Conn.getSessionKeyObsv_some h with
    ⟨hsome, rfl⟩ | ⟨hnone, ⟨hthrown, rfl⟩ | ⟨text, pkt, htext, -, rfl⟩⟩
  · exact Or.inr ⟨fun hmissing => hsome (hrows.mpr hmissing.1), Or.inr rfl⟩
  · refine Or.inr ⟨fun hmissing => ?_, Or.inl ⟨rfl, rfl⟩⟩
    rw [KeyMissing, hthrown] at hmissing
    cases hmissing.2
  · exact Or.inl ⟨⟨hrows.mp hnone, by rw [htext]; rfl⟩, rfl, pkt, rfl⟩

/-- One call of the callback of the character counts: there is a list for a supported build,
and the connection ends without one. -/
theorem Conn.getCharAmountAnswered_cases {env : Env} {amnt : List (UInt8 × UInt8)}
    (h : c.getCharAmountAnswered sha env amnt = some c') : c'.clientBuild = c.clientBuild ∧
      (isSupportedClientBuild c.clientBuild = true ∧ Sends c c' ∨
        isSupportedClientBuild c.clientBuild = false ∧ c'.state = .closing ∧
          c'.queued = c.queued) := by
  rw [getCharAmountAnswered] at h
  obtain ⟨⟨c₁, sent⟩, h₁, h⟩ := Option.bind_eq_some_iff.mp h
  have hbuild : sent = isSupportedClientBuild c.clientBuild := by
    rw [sendRealmList] at h₁
    rw [isSupportedClientBuild]
    split at h₁
    · next build heq =>
      obtain ⟨⟨c₂, data⟩, -, h₂⟩ := Option.bind_eq_some_iff.mp h₁
      obtain ⟨-, rfl⟩ := Prod.mk.inj (Option.some.inj h₂)
      exact (congrArg Option.isSome heq).symm
    · next heq =>
      obtain ⟨-, rfl⟩ := Prod.mk.inj (Option.some.inj h₁)
      exact (congrArg Option.isSome heq).symm
  rcases sendRealmList_some h₁ with ⟨rfl, amnt', pkt, -, rfl⟩ | ⟨rfl, rfl⟩
  · obtain ⟨I, reqs, -, -, rfl⟩ := setVs_some h
    exact ⟨rfl, Or.inl ⟨hbuild.symm, rfl, pkt, [], rfl⟩⟩
  · rw [← Option.some.inj h]
    exact ⟨rfl, Or.inr ⟨hbuild.symm, rfl, rfl⟩⟩

theorem Sends.trans {c'' : Conn} (h : Sends c c') (h' : Sends c' c'') : Sends c c'' := by
  obtain ⟨hstate, pkt, pkts, hqueued⟩ := h
  obtain ⟨hstate', pkt', pkts', hqueued'⟩ := h'
  refine ⟨hstate'.trans hstate, pkt, pkts ++ pkt' :: pkts', ?_⟩
  rw [hqueued', hqueued, List.append_assoc, List.cons_append]

/-- The answer of `get_char_amount`. -/
theorem step_getCharAmnt (h : step sha c e = some c')
    (hact : e.action = .answer .getCharAmntObsv res) :
    isSupportedClientBuild c.clientBuild = true ∧ Sends c c' ∨
      isSupportedClientBuild c.clientBuild = false ∧ c'.state = .closing ∧
        c'.queued = c.queued := by
  obtain ⟨-, h⟩ := update_of_step h hact
  rw [Conn.update, Conn.getCharAmntObsv] at h
  obtain ⟨mid, hmid, h⟩ := Option.bind_eq_some_iff.mp h
  obtain ⟨amnt, -, h⟩ := Option.bind_eq_some_iff.mp h
  obtain ⟨-, hlast⟩ := Conn.getCharAmountAnswered_cases h
  split at hmid
  -- the callback runs twice
  · obtain ⟨hbuild, hfirst⟩ := Conn.getCharAmountAnswered_cases hmid
    rw [hbuild] at hlast
    rcases hfirst with ⟨hsup, hsends⟩ | ⟨hsup, hstate, hqueued⟩
    · rcases hlast with ⟨-, hsends'⟩ | ⟨hnot, -⟩
      · exact Or.inl ⟨hsup, hsends.trans hsends'⟩
      · exact absurd (hsup.symm.trans hnot) (by decide)
    · rcases hlast with ⟨hnot, -⟩ | ⟨-, hstate', hqueued'⟩
      · exact absurd (hsup.symm.trans hnot) (by decide)
      · exact Or.inr ⟨hsup, hstate', hqueued'.trans hqueued⟩
  · rw [← Option.some.inj hmid] at hlast
    exact hlast

/-! ### The steps -/

/-- The session key is not looked up for a connection that needs a logon proof. -/
def Conn.KeyApart (c : Conn) : Prop := .getSessionKeyObsv ∈ c.pending → c.state ≠ .needProof

theorem Trans.keyApart (h : Trans sha c e c') (hi : c.Idle) (hk : c.KeyApart) : c'.KeyApart := by
  intro hmem hstate
  cases h with
  | challengeTaken raw _ hst =>
    have hbefore : .getSessionKeyObsv ∈ c.pending := Conn.mem_of_checkIpBan (by decide) hmem
    rw [(hi hst).1] at hbefore
    cases hbefore
  | ipFree => exact hk (List.mem_of_mem_erase (Conn.mem_of_getAccount (by decide) hmem)) hstate
  | realmListAsked _ _ _ hst => cases hst.symm.trans hstate
  | challengeRefused _ _ hst => cases hst.symm.trans hstate
  | ipBanned | accountRefused | accountLocked | challengeSent | sessionkeyThrown =>
    exact hk (List.mem_of_mem_erase hmem) hstate
  | charsCounted res mid _ _ _ hmid hlast =>
    have hanswered : (c.answered .getCharAmntObsv).KeyApart :=
      fun hmem => hk (List.mem_of_mem_erase hmem)
    refine Conn.counted_induction (P := Conn.KeyApart) hmid hlast hanswered ?_ hmem hstate
    intro d d' hd hkd
    cases hd with
    | sent => exact hkd
    | dropped => exact fun _ => nofun
  | proofFailed | realmListSent | output => exact hk hmem hstate
  | died | proofPassed | proofUnsupported | reconnectTaken | reconnectPassed | sessionkeyFound
  | sessionkeyMissing => cases hstate

/-- A packet, a hang-up and output keep to the order of the states. -/
theorem Trans.stepsForward (h : Trans sha c e c') (hact : ∀ obs res, e.action ≠ .answer obs res) :
    StepsForward c c' := by
  cases h with
  | died => exact stepsForward_die c
  | proofUnsupported => exact stepsForward_die (c.updateAccount _)
  | challengeRefused _ _ hst | proofFailed _ _ _ _ hst | realmListSent _ _ _ _ _ hst
  | realmListAsked _ _ _ hst =>
    exact ⟨Or.inl rfl, fun hc => absurd (hst.symm.trans hc) (by decide)⟩
  | challengeTaken _ _ hst =>
    have hnext : .needProof ∈ ConnectionState.connected.next := by decide
    exact stepsForward_of_next hst rfl (by decide) hnext
  | reconnectTaken _ _ hst =>
    have hnext : .needRproof ∈ ConnectionState.connected.next := by decide
    exact stepsForward_of_next hst rfl (by decide) hnext
  | proofPassed _ _ _ _ _ hst =>
    have hnext : .authed ∈ ConnectionState.needProof.next := by decide
    exact stepsForward_of_next hst rfl (by decide) hnext
  | reconnectPassed _ _ _ _ _ hst =>
    have hnext : .authed ∈ ConnectionState.needRproof.next := by decide
    exact stepsForward_of_next hst rfl (by decide) hnext
  | output => exact ⟨Or.inl rfl, fun _ => rfl⟩
  | ipFree _ hans | ipBanned _ hans | accountRefused _ _ hans | accountLocked _ _ hans
  | challengeSent _ _ _ _ _ hans | sessionkeyFound _ hans | sessionkeyMissing _ _ hans
  | sessionkeyThrown _ hans | charsCounted _ _ _ hans => exact absurd hans (hact _ _)

theorem inTime_iff (hact : e.action = .answer obs res) : InTime c e ↔
    (c.state = .closing → c.Silent res obs) ∧
      (c.state = .authed → obs = .getSessionKeyObsv → ¬KeyMissing res) := by
  constructor
  · exact fun hin => hin obs res hact
  · intro hin obs' res' hact'
    obtain ⟨rfl, rfl⟩ := Action.answer.inj (hact.symm.trans hact')
    exact hin

/-- The missing session key comes in time where it is waited for, and nowhere else. -/
theorem stepsForward_iff_of_needRproof (hbusy : c.state ≠ .connected)
    (hproof : c.state ≠ .needProof)
    (hmissing : KeyMissing res) (hstate' : c'.state = .needRproof) : StepsForward c c' ↔
      (c.state = .closing → c.Silent res .getSessionKeyObsv) ∧
        (c.state = .authed →
          Observer.getSessionKeyObsv = .getSessionKeyObsv → ¬KeyMissing res) := by
  rw [StepsForward, hstate']
  cases hstate : c.state with
  | connected => exact absurd hstate hbusy
  | needProof => exact absurd hstate hproof
  | needRproof => exact iff_of_true ⟨Or.inl rfl, nofun⟩ ⟨nofun, nofun⟩
  | authed => exact iff_of_false (fun h => absurd h.1 (by decide)) fun h => h.2 rfl rfl hmissing
  | closing => exact iff_of_false (fun h => absurd h.1 (by decide)) fun h => h.1 rfl hmissing

/-- **A step is one forward exactly when it is no answer that comes too late.** -/
theorem stepsForward_iff_inTime (hi : Inv sha c) (hk : c.KeyApart) (h : step sha c e = some c') :
    StepsForward c c' ↔ InTime c e := by
  by_cases hact : ∃ obs res, e.action = .answer obs res
  · obtain ⟨obs, res, hact⟩ := hact
    rw [inTime_iff hact]
    cases obs with
    | checkIpBanObsv =>
      rcases step_checkIpBan h hact with ⟨hrows, hquiet⟩ | ⟨hrows, hsends⟩
      · exact iff_of_true hquiet.stepsForward ⟨fun _ => hrows, fun _ => nofun⟩
      · refine hsends.stepsForward_iff.trans
          ⟨fun hc => ⟨fun hc' => absurd hc' hc, fun _ => nofun⟩, ?_⟩
        exact fun hin hc => hrows (hin.1 hc)
    | checkAcctObsv =>
      refine (step_checkAcct h hact).stepsForward_iff.trans
        ⟨fun hc => ⟨fun hc' => absurd hc' hc, fun _ => nofun⟩, fun hin hc => hin.1 hc⟩
    | getSessionKeyObsv =>
      obtain ⟨⟨hpending, -⟩, -⟩ := update_of_step h hact
      rcases step_getSessionKey h hact with ⟨hmissing, hstate', -⟩ | ⟨hthere, hquiet | rfl⟩
      · exact stepsForward_iff_of_needRproof (hi.busy_of_pending hpending) (hk hpending) hmissing
          hstate'
      · exact iff_of_true hquiet.stepsForward ⟨fun _ => hthere, fun _ _ => hthere⟩
      · exact iff_of_true (stepsForward_die (c.answered .getSessionKeyObsv))
          ⟨fun _ => hthere, fun _ _ => hthere⟩
    | getCharAmntObsv =>
      rcases step_getCharAmnt h hact with ⟨hbuild, hsends⟩ | ⟨hbuild, hstate', hqueued'⟩
      · refine hsends.stepsForward_iff.trans
          ⟨fun hc => ⟨fun hc' => absurd hc' hc, fun _ => nofun⟩, ?_⟩
        exact fun hin hc => absurd (hbuild.symm.trans (hin.1 hc)) (by decide)
      · exact iff_of_true (stepsForward_of_closing hstate' hqueued')
          ⟨fun _ => hbuild, fun _ => nofun⟩
  · have hno : ∀ obs res, e.action ≠ .answer obs res := fun obs res hact' => hact ⟨obs, res, hact'⟩
    exact iff_of_true ((trans_of_step h).stepsForward hno)
      fun obs res hact' => absurd hact' (hno obs res)

/-! ### Runs -/

/-- What carries the proofs about the order of the states. -/
structure ForwardInv (sha : Sha1) (c : Conn) : Prop where
  inv : Inv sha c
  keyApart : c.KeyApart

/-- **The states of a run.** A run moves forward if and only if none of its answers comes too
late. -/
theorem moves_forward_iff (sha : Sha1) (f : Start) (es : List Event) :
    MovesForward sha f es ↔ ∀ i c e c', StepAt sha f es i c e c' → InTime c e := by
  have h₀ : ForwardInv sha (Conn.init f) := ⟨inv_init f, nofun⟩
  refine Runs.forall_stepAt_iff (A := fun c _ c' => StepsForward c c') h₀ ?_ ?_
  · exact fun c e c' hc h => stepsForward_iff_inTime hc.inv hc.keyApart h
  · exact fun c e c' hc h _ =>
      ⟨hc.inv.of_step h, (trans_of_step h).keyApart hc.inv.idle hc.keyApart⟩

/-! ### An answer that comes too late -/

/-- A reconnect challenge, a hang-up, and the answer that there is no session key. -/
def Sample.lateEvents : List Event :=
  [⟨Sample.env, .input (Client.challenge .authReconnectChallenge build login)⟩,
    ⟨Sample.env, .hangup⟩, ⟨Sample.env, .answer .getSessionKeyObsv noRows⟩]

/-- **A connection that was closed is taken back.** -/
theorem not_movesForward_late :
    ¬MovesForward Sample.zeroSha Sample.start Sample.lateEvents := by
  intro hall
  have hsome : (run Sample.zeroSha Sample.start (Sample.lateEvents.take 3)).isSome := by
    decide +kernel
  have hlast : ∀ d ∈ run Sample.zeroSha Sample.start (Sample.lateEvents.take 3),
      d.state = .needRproof := by
    decide +kernel
  have hclosed : ∀ d ∈ run Sample.zeroSha Sample.start (Sample.lateEvents.take 2),
      d.state = .closing := by
    decide +kernel
  obtain ⟨c, c', hat⟩ := Runs.exists_stepAt_of_isSome hsome rfl
  obtain ⟨hstate, -⟩ := hall 2 c _ c' hat
  rw [hlast c' hat.run_succ, hclosed c hat.1] at hstate
  exact absurd hstate (by decide)

end Morfeusz.Realmd
