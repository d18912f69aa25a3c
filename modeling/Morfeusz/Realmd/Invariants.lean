import Morfeusz.Realmd.Transitions

/-!
# Invariants of a connection

What holds in every state a run can reach. The multiplier `k` is never anything
but three, because the only branch that could load a session key into it has no
row to load it from. A connection that `die` has closed never gets its pointer
back, and only such a connection can be moved out of `STATUS_CLOSING` again, by an
answer that comes late. One of the two account lookups is outstanding at most, and
none once the challenge was sent – so the values of the challenge, once there, are
those of its account for good (`Morfeusz.Realmd.Inv.sent`).
-/

namespace Morfeusz.Realmd

open ByteNumbers

variable {sha : Sha1} {c c' : Conn} {e : Event}

/-! ### The callback of the character counts, once or twice -/

theorem Conn.counted_induction {P : Conn → Prop} {mid : Conn}
    (hmid : mid = c ∨ Conn.Counted sha c mid) (hlast : Conn.Counted sha mid c') (h₀ : P c)
    (hstep : ∀ d d', Conn.Counted sha d d' → P d → P d') : P c' := by
  rcases hmid with rfl | hmid
  · exact hstep _ _ hlast h₀
  · exact hstep _ _ hlast (hstep _ _ hmid h₀)

/-! ### What never changes -/

/-- The members no transition writes. -/
def Conn.SameSetup (c c' : Conn) : Prop := c'.k = c.k ∧ c'.s = c.s ∧ c'.ip = c.ip

theorem Conn.Counted.sameSetup (h : Conn.Counted sha c c') : c.SameSetup c' := by
  cases h with
  | sent => exact ⟨rfl, rfl, rfl⟩
  | dropped => exact ⟨rfl, rfl, rfl⟩

/-- **The multiplier, the salt and the address of the peer are never written.** -/
theorem Trans.sameSetup (h : Trans sha c e c') : c.SameSetup c' := by
  cases h with
  | charsCounted res mid _ _ _ hmid hlast =>
    refine Conn.counted_induction (P := c.SameSetup) hmid hlast ⟨rfl, rfl, rfl⟩ ?_
    intro d d' hd hsame
    obtain ⟨hk, hs, hip⟩ := hd.sameSetup
    exact ⟨hk.trans hsame.1, hs.trans hsame.2.1, hip.trans hsame.2.2⟩
  | _ => exact ⟨rfl, rfl, rfl⟩

/-! ### Open and closed connections -/

/-- The pointer of a connection is null exactly when the reactor has forgotten it,
and where the state would let a packet through it is not. -/
structure Conn.Alive (c : Conn) : Prop where
  ptr_eq : c.ptr = c.readRegistered
  open_of_state : c.state ≠ .closing → c.state ≠ .needRproof → c.ptr = true

theorem Conn.Counted.alive (h : Conn.Counted sha c c') (ha : c.Alive) : c'.Alive := by
  cases h with
  | sent => exact ⟨ha.ptr_eq, ha.open_of_state⟩
  | dropped => exact ⟨rfl, fun h => absurd rfl h⟩

theorem Trans.alive (h : Trans sha c e c') (ha : c.Alive) : c'.Alive := by
  have hopen : c.state = .needProof ∨ c.state = .authed ∨ c.state = .connected → c.ptr = true := by
    rintro (h | h | h) <;> exact ha.open_of_state (by simp [h]) (by simp [h])
  cases h with
  | died | proofUnsupported | sessionkeyFound => exact ⟨rfl, fun h => absurd rfl h⟩
  | challengeTaken raw hact hstate | proofPassed raw data hact hcmd hread hstate =>
    exact ⟨ha.ptr_eq, fun _ _ => hopen (by simp [hstate])⟩
  -- the state alone would not do here: `STATUS_NEED_RPROOF` may come after `die`
  | reconnectPassed raw hash hact hcmd hread =>
    exact ⟨ha.ptr_eq, fun _ _ => ha.ptr_eq.trans hread⟩
  | reconnectTaken | sessionkeyMissing => exact ⟨ha.ptr_eq, fun _ h => absurd rfl h⟩
  | charsCounted res mid _ _ _ hmid hlast =>
    exact Conn.counted_induction hmid hlast ⟨ha.ptr_eq, ha.open_of_state⟩ fun _ _ hd => hd.alive
  | _ => exact ⟨ha.ptr_eq, ha.open_of_state⟩

/-! ### The name and the build -/

/-- A challenge has been taken, and the name and the build are those it brought. -/
def Conn.SameClient (c c' : Conn) : Prop :=
  c.state ≠ .connected → c'.state ≠ .connected ∧ c'.login = c.login ∧ c'.clientBuild = c.clientBuild

theorem Conn.SameClient.refl (c : Conn) : c.SameClient c := fun h => ⟨h, rfl, rfl⟩

theorem Conn.SameClient.trans {c'' : Conn} (h : c.SameClient c') (h' : c'.SameClient c'') :
    c.SameClient c'' := by
  intro hc
  obtain ⟨hc', hlogin, hbuild⟩ := h hc
  obtain ⟨hc'', hlogin', hbuild'⟩ := h' hc'
  exact ⟨hc'', hlogin'.trans hlogin, hbuild'.trans hbuild⟩

theorem Conn.Counted.sameClient (h : Conn.Counted sha c c') : c.SameClient c' := by
  cases h with
  | sent => exact .refl c
  | dropped => exact fun _ => ⟨nofun, rfl, rfl⟩

/-- **A step from any state but `STATUS_CONNECTED` keeps the name and the build, and
does not lead back.** -/
theorem Trans.sameClient (h : Trans sha c e c') : c.SameClient c' := by
  intro hc
  cases h with
  | died | proofUnsupported | proofPassed | reconnectPassed | sessionkeyFound | sessionkeyMissing =>
    exact ⟨nofun, rfl, rfl⟩
  | challengeRefused raw hact hstate | challengeTaken raw hact hstate
  | reconnectTaken raw hact hstate => exact absurd hstate hc
  | charsCounted res mid _ _ _ hmid hlast =>
    exact Conn.counted_induction (P := c.SameClient) hmid hlast (fun h => ⟨h, rfl, rfl⟩)
      (fun _ _ hd h => h.trans hd.sameClient) hc
  | _ => exact ⟨hc, rfl, rfl⟩

/-- The proof is only asked of a client whose build is supported. -/
theorem Trans.build (h : Trans sha c e c')
    (hb : c.state = .needProof → isSupportedClientBuild c.clientBuild = true) :
    c'.state = .needProof → isSupportedClientBuild c'.clientBuild = true := by
  intro hc'
  cases h with
  | challengeTaken raw _ _ hbuild => exact hbuild
  | challengeRefused raw _ hstate => exact absurd (hstate.symm.trans hc') nofun
  | died | proofUnsupported | proofPassed | reconnectTaken | reconnectPassed | sessionkeyFound
  | sessionkeyMissing => cases hc'
  | charsCounted res mid _ _ _ hmid hlast =>
    refine Conn.counted_induction (P := fun d => d.state = .needProof →
      isSupportedClientBuild d.clientBuild = true) hmid hlast hb ?_ hc'
    intro d d' hd hb'
    cases hd with
    | sent => exact hb'
    | dropped => nofun
  | _ => exact hb hc'

/-! ### Outstanding lookups -/

/-- The two queries a logon challenge leads to. -/
def Observer.isLookup : Observer → Bool
  | checkIpBanObsv | checkAcctObsv => true
  | getSessionKeyObsv | getCharAmntObsv => false

/-- The number of lookups that have not answered. -/
def Conn.lookups (c : Conn) : ℕ := c.pending.countP Observer.isLookup

theorem Conn.lookups_answered {obs : Observer} (h : obs ∈ c.pending) :
    (c.answered obs).lookups + (if obs.isLookup then 1 else 0) = c.lookups := by
  have hpos : obs.isLookup = true → 0 < c.lookups := fun hl => List.countP_pos_iff.mpr ⟨obs, h, hl⟩
  rw [lookups, answered, List.countP_erase]
  cases hl : obs.isLookup with
  | true =>
    have := hpos hl
    rw [lookups] at this ⊢
    simp [h]
    omega
  | false => simp [lookups]

theorem Conn.lookups_pos {obs : Observer} (h : obs ∈ c.pending) (hl : obs.isLookup = true) :
    0 < c.lookups :=
  List.countP_pos_iff.mpr ⟨obs, h, hl⟩

theorem Conn.lookups_ask_le (c : Conn) (obs : Observer) (op : RealmdRequest) :
    (c.ask obs op).lookups ≤ c.lookups + (if obs.isLookup then 1 else 0) := by
  rw [lookups, lookups, ask]
  dsimp only
  split
  · simp [List.countP_append, List.countP_singleton]
  · exact Nat.le_add_right _ _

theorem Conn.lookups_checkIpBan_le (c : Conn) : c.checkIpBan.lookups ≤ c.lookups + 1 :=
  lookups_ask_le _ _ _

theorem Conn.lookups_getAccount_le (c : Conn) : c.getAccount.lookups ≤ c.lookups + 1 :=
  lookups_ask_le _ _ _

theorem Conn.lookups_getSessionkey_le (c : Conn) : c.getSessionkey.lookups ≤ c.lookups :=
  lookups_ask_le _ _ _

theorem Conn.lookups_getCharAmount_le (c : Conn) : c.getCharAmount.lookups ≤ c.lookups :=
  lookups_ask_le _ _ _

theorem Conn.Counted.pending_eq (h : Conn.Counted sha c c') : c'.pending = c.pending := by
  cases h with
  | sent => rfl
  | dropped => rfl

/-- **No lookup is started after the challenge.** -/
theorem Trans.lookups_le (h : Trans sha c e c') (hc : c.state ≠ .connected) :
    c'.lookups ≤ c.lookups := by
  have hanswered : ∀ {obs : Observer}, obs ∈ c.pending → (c.answered obs).lookups ≤ c.lookups :=
    fun hobs => by
      have := Conn.lookups_answered hobs
      omega
  cases h with
  | challengeTaken raw hact hstate | reconnectTaken raw hact hstate => exact absurd hstate hc
  | realmListAsked => exact c.lookups_getCharAmount_le
  -- the second lookup takes the place of the first
  | ipFree res _ hpending =>
    exact (Conn.lookups_getAccount_le _).trans (Conn.lookups_answered hpending).le
  | ipBanned res _ hpending | accountRefused res _ _ hpending | accountLocked res _ _ hpending
  | challengeSent res _ _ _ _ _ hpending | sessionkeyFound res _ hpending
  | sessionkeyMissing res _ _ hpending | sessionkeyThrown res _ hpending =>
    exact hanswered hpending
  | charsCounted res mid _ _ hpending hmid hlast =>
    refine le_of_eq_of_le ?_ (hanswered hpending)
    refine Conn.counted_induction (P := fun d => d.lookups = _) hmid hlast rfl ?_
    intro d d' hd heq
    rw [Conn.lookups, hd.pending_eq]
    exact heq
  | _ => exact le_rfl

/-- Before the challenge nothing is outstanding, and nothing was sent. -/
def Conn.Idle (c : Conn) : Prop := c.state = .connected → c.pending = [] ∧ c.b = 0

/-- **A connection is idle until it takes a challenge.** -/
theorem Trans.idle (h : Trans sha c e c') (hi : c.Idle) : c'.Idle := by
  -- an idle connection has nothing an answer could be for
  have hbusy : ∀ {obs : Observer}, obs ∈ c.pending → c.state ≠ .connected := fun hobs hc => by
    rw [(hi hc).1] at hobs
    cases hobs
  intro hc'
  cases h with
  | challengeRefused raw _ hstate => exact hi hstate
  | output => exact hi hc'
  | proofFailed raw _ _ _ hstate | realmListSent raw _ _ _ _ hstate
  | realmListAsked raw _ _ hstate =>
    exact absurd (hstate.symm.trans hc') nofun
  | ipFree res _ hpending | ipBanned res _ hpending | accountRefused res _ _ hpending
  | accountLocked res _ _ hpending | challengeSent res _ _ _ _ _ hpending
  | sessionkeyThrown res _ hpending =>
    exact absurd hc' (hbusy hpending)
  | charsCounted res mid _ _ hpending hmid hlast =>
    have hsame : (c.answered .getCharAmntObsv).SameClient c' :=
      Conn.counted_induction (P := (c.answered .getCharAmntObsv).SameClient) hmid hlast (.refl _)
        fun _ _ hd h => h.trans hd.sameClient
    exact absurd hc' (hsame (hbusy hpending)).1
  | _ => cases hc'

/-- At most one lookup is outstanding. -/
theorem Trans.oneLookup (h : Trans sha c e c') (hi : c.Idle) (ho : c.lookups ≤ 1) :
    c'.lookups ≤ 1 := by
  by_cases hc : c.state = .connected
  -- the first lookup of a connection that had none
  · have hpending := (hi hc).1
    have h0 : c.lookups = 0 := by rw [Conn.lookups, hpending]; rfl
    cases h with
    | challengeTaken => exact (Conn.lookups_checkIpBan_le _).trans (Nat.add_le_add_right h0.le 1)
    | reconnectTaken => exact (Conn.lookups_getSessionkey_le _).trans ho
    | died | challengeRefused | output => exact ho
    | proofPassed raw _ _ _ _ hstate | proofUnsupported raw _ hstate
    | proofFailed raw _ _ _ hstate | reconnectPassed raw _ _ _ _ hstate
    | realmListSent raw _ _ _ _ hstate | realmListAsked raw _ _ hstate =>
      exact absurd (hstate.symm.trans hc) nofun
    | ipFree res _ hp | ipBanned res _ hp | accountRefused res _ _ hp | accountLocked res _ _ hp
    | challengeSent res _ _ _ _ _ hp | sessionkeyFound res _ hp | sessionkeyMissing res _ _ hp
    | sessionkeyThrown res _ hp | charsCounted res _ _ _ hp =>
      rw [hpending] at hp
      cases hp
  · exact (h.lookups_le hc).trans ho

/-! ### The values of the challenge -/

/-- The verifier and the public value of a connection are those of its account, its
salt and its secret exponent. -/
def Conn.Challenged (sha : Sha1) (c : Conn) : Prop :=
  ∃ I, bnHex2bn (cStr c.acct.shaPass) = some I ∧ c.v = verifierV sha c.s I ∧
    c.B = publicB c.v c.k c.b

/-- The numbers of the challenge, and the hash they were computed from, are the
same. -/
def Conn.SameChallenge (c c' : Conn) : Prop :=
  c'.b = c.b ∧ c'.v = c.v ∧ c'.B = c.B ∧ c'.acct.shaPass = c.acct.shaPass

theorem Conn.Counted.sameChallenge (h : Conn.Counted sha c c') (hc : c.Challenged sha) :
    c.SameChallenge c' := by
  cases h with
  | sent amnt pkt I reqs hpkt hI =>
    obtain ⟨I', hI', hv, -⟩ := hc
    obtain rfl := Option.some.inj (hI.symm.trans hI')
    exact ⟨rfl, hv.symm, rfl, rfl⟩
  | dropped => exact ⟨rfl, rfl, rfl, rfl⟩

/-- The values stay those of the account as long as neither they nor the account
change. -/
theorem Conn.Challenged.of_same (hc : c.Challenged sha) (hsetup : c.SameSetup c')
    (hsame : c.SameChallenge c') : c'.Challenged sha := by
  obtain ⟨I, hI, hv, hB⟩ := hc
  obtain ⟨hk, hs, -⟩ := hsetup
  obtain ⟨hb', hv', hB', hpass⟩ := hsame
  exact ⟨I, by rw [hpass, hI], by rw [hv', hv, hs], by rw [hB', hB, hv', hk, hb']⟩

/-- **Once sent, the values of the challenge are never replaced**: the only
transition that draws new ones needs an outstanding lookup. -/
theorem Trans.sameChallenge (h : Trans sha c e c') (hc : c.Challenged sha)
    (hl : c.lookups = 0) : c.SameChallenge c' := by
  have hno : ∀ {obs : Observer}, obs ∈ c.pending → obs.isLookup = true → False := fun hobs ho =>
    absurd (Conn.lookups_pos hobs ho) (by omega)
  cases h with
  | accountLocked res _ _ hpending | challengeSent res _ _ _ _ _ hpending =>
    exact (hno hpending rfl).elim
  | charsCounted res mid _ _ _ hmid hlast =>
    -- the callback stores a verifier again, and it is the same one
    have hboth : c.SameChallenge c' ∧ c'.Challenged sha := by
      refine Conn.counted_induction (P := fun d => c.SameChallenge d ∧ d.Challenged sha)
        hmid hlast ⟨⟨rfl, rfl, rfl, rfl⟩, hc⟩ ?_
      rintro d d' hd ⟨⟨hb, hv, hB, hp⟩, hdc⟩
      have hsame := hd.sameChallenge hdc
      refine ⟨?_, hdc.of_same hd.sameSetup hsame⟩
      obtain ⟨hb', hv', hB', hp'⟩ := hsame
      exact ⟨hb'.trans hb, hv'.trans hv, hB'.trans hB, hp'.trans hp⟩
    exact hboth.1
  | _ => exact ⟨rfl, rfl, rfl, rfl⟩

/-- Where no challenge was sent there is no exponent, and the public value is
zero. -/
def Conn.Unchallenged (c : Conn) : Prop := c.b = 0 ∧ c.B.val = 0

/-- What the exponent says about a connection: without one nothing was sent, and
with one no lookup is outstanding and the values are those of the account. -/
def Conn.Phase (sha : Sha1) (c : Conn) : Prop :=
  c.Unchallenged ∨ c.b ≠ 0 ∧ c.lookups = 0 ∧ c.state ≠ .connected ∧ c.Challenged sha

theorem Conn.Counted.unchallenged (h : Conn.Counted sha c c') (hu : c.Unchallenged) :
    c'.Unchallenged := by
  cases h with
  | sent => exact hu
  | dropped => exact hu

theorem Trans.phase (h : Trans sha c e c') (hi : c.Idle) (ho : c.lookups ≤ 1)
    (hp : c.Phase sha) : c'.Phase sha := by
  rcases hp with hu | ⟨hb, hl, hstate, hc⟩
  · cases h with
    | challengeSent res acct I reqs pkt hact hpending hrows hacct hfree hI hpkt =>
      have hbusy : c.state ≠ .connected := fun hc => by
        rw [(hi hc).1] at hpending
        cases hpending
      -- this answer was the one lookup that could be outstanding
      have hl := Conn.lookups_answered hpending
      refine Or.inr ⟨e.env.randB.pos.ne', ?_, hbusy, I, hI, rfl, rfl⟩
      simp only [Observer.isLookup, if_true] at hl
      have hzero : (c.answered .checkAcctObsv).lookups = 0 := by omega
      exact hzero
    | charsCounted res mid _ _ _ hmid hlast =>
      exact Or.inl (Conn.counted_induction hmid hlast hu fun _ _ hd => hd.unchallenged)
    | _ => exact Or.inl hu
  · have hsame := h.sameChallenge hc hl
    refine Or.inr ⟨hsame.1 ▸ hb, ?_, (h.sameClient hstate).1, hc.of_same h.sameSetup hsame⟩
    have := h.lookups_le hstate
    omega

/-! ### The invariant -/

/-- **The invariant of a connection.** -/
structure Inv (sha : Sha1) (c : Conn) : Prop where
  k_eq : c.k = multiplierK
  alive : c.Alive
  idle : c.Idle
  oneLookup : c.lookups ≤ 1
  phase : c.Phase sha
  build : c.state = .needProof → isSupportedClientBuild c.clientBuild = true
  proofFits : c.reconnectProof < 256 ^ 16

theorem inv_init (f : Start) : Inv sha (Conn.init f) where
  k_eq := rfl
  alive := ⟨rfl, fun _ _ => rfl⟩
  idle := fun _ => ⟨rfl, rfl⟩
  oneLookup := Nat.zero_le 1
  phase := Or.inl ⟨rfl, rfl⟩
  build := nofun
  proofFits := Nat.pow_pos (by norm_num)

theorem Conn.Counted.reconnectProof_eq (h : Conn.Counted sha c c') :
    c'.reconnectProof = c.reconnectProof := by
  cases h with
  | sent => rfl
  | dropped => rfl

theorem Trans.proofFits (h : Trans sha c e c') (hf : c.reconnectProof < 256 ^ 16) :
    c'.reconnectProof < 256 ^ 16 := by
  cases h with
  | sessionkeyMissing => exact e.env.randProof.lt
  | charsCounted res mid _ _ _ hmid hlast =>
    exact Conn.counted_induction (P := fun d => d.reconnectProof < 256 ^ 16) hmid hlast hf
      fun _ _ hd h => hd.reconnectProof_eq ▸ h
  | _ => exact hf

theorem Inv.of_trans (hi : Inv sha c) (h : Trans sha c e c') : Inv sha c' where
  k_eq := h.sameSetup.1.trans hi.k_eq
  alive := h.alive hi.alive
  idle := h.idle hi.idle
  oneLookup := h.oneLookup hi.idle hi.oneLookup
  phase := h.phase hi.idle hi.oneLookup hi.phase
  build := h.build hi.build
  proofFits := h.proofFits hi.proofFits

theorem Inv.of_step (hi : Inv sha c) (h : step sha c e = some c') : Inv sha c' :=
  hi.of_trans (trans_of_step h)

/-- **Every state of a run satisfies the invariant.** -/
theorem inv_of_run {f : Start} {es : List Event} (h : run sha f es = some c) : Inv sha c :=
  Runs.run_invariant (fun _ _ _ hi hs => hi.of_step hs) (inv_init f) h

theorem inv_of_stepAt {f : Start} {es : List Event} {i : ℕ} (h : StepAt sha f es i c e c') :
    Inv sha c :=
  inv_of_run h.1

theorem trans_of_stepAt {f : Start} {es : List Event} {i : ℕ} (h : StepAt sha f es i c e c') :
    Trans sha c e c' :=
  trans_of_step h.2.2

theorem Reachable.inv (h : Reachable sha c) : Inv sha c := by
  obtain ⟨f, es, hrun⟩ := h
  exact inv_of_run hrun

end Morfeusz.Realmd
