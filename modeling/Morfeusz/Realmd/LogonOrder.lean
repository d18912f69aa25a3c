import Morfeusz.Realmd.LogonProof

/-!
# The lookups before a logon proof

The state that lets a proof through is set before the address and the account were
looked up, and no answer takes it back. What keeps a client out is the secret of the
challenge, and the exponent that makes it secret is drawn with the challenge. So a
run divides at the one transition that draws it
(`Morfeusz.Realmd.Trans.sendsSuccess_of_exponent`): before it the proof of a client
is the one for the secret one, which everybody can compute, and a connection whose
lookups were refused stays there for good (`Morfeusz.Realmd.Conn.Refused`).
-/

namespace Morfeusz.Realmd

open ByteNumbers

variable {sha : Sha1} {c c' : Conn} {e : Event}

/-! ### What is observed of a step -/

/-- `account_checked(ACCOUNT_EXISTS)` sends `REALM_AUTH_SUCCESS`. -/
def SendsSuccess (c : Conn) (e : Event) (c' : Conn) : Prop :=
  ∃ res pkt, e.action = .answer .checkAcctObsv res ∧ Queues c c' pkt ∧ IsAuthSuccess pkt

/-- A lookup answers that the address is banned, or that the account is missing,
banned, or locked to another address. -/
def RefusesLogon (c : Conn) (e : Event) (c' : Conn) : Prop :=
  ∃ obs res result, e.action = .answer obs res ∧ obs.isLookup = true ∧
    result ≠ .realmAuthSuccess ∧ Queues c c' (authReply result)

/-! ### The exponent -/

theorem not_isAuthSuccess_authReply {result : EAuthResults} (h : result ≠ .realmAuthSuccess) :
    ¬IsAuthSuccess (authReply result) := by
  cases result with
  | realmAuthSuccess => exact absurd rfl h
  | _ => exact nofun

/-- What a step sends that sends one packet. -/
theorem eq_of_queues_singleton {pkt pkt' : ByteBuffer} (h : c'.queued = c.queued ++ [pkt])
    (hq : Queues c c' pkt') : pkt' = pkt :=
  List.mem_singleton.mp ((queues_iff h).mp hq)

theorem not_queues_of_same {pkt : ByteBuffer} (h : c'.queued = c.queued) : ¬Queues c c' pkt :=
  fun hq => List.not_mem_nil ((queues_iff (by rw [h, List.append_nil])).mp hq)

theorem Conn.Counted.b_eq (h : Conn.Counted sha c c') : c'.b = c.b := by
  cases h with
  | sent => rfl
  | dropped => rfl

/-- Nothing is outstanding before a challenge was taken. -/
theorem Inv.busy_of_pending {obs : Observer} (hi : Inv sha c) (h : obs ∈ c.pending) :
    c.state ≠ .connected := fun hc => by
  rw [(hi.idle hc).1] at h
  cases h

/-- **The exponent is drawn with the challenge**, and with nothing else. -/
theorem Trans.sendsSuccess_of_exponent (h : Trans sha c e c') (hi : Inv sha c) (hb : c.b = 0)
    (hb' : c'.b ≠ 0) : SendsSuccess c e c' ∧ c.state ≠ .connected := by
  cases h with
  | challengeSent res _ _ _ pkt hact hpending _ _ _ _ hpkt =>
    exact ⟨⟨res, pkt, hact, ⟨[pkt], rfl, List.mem_singleton_self pkt⟩, hpkt⟩,
      hi.busy_of_pending hpending⟩
  | charsCounted res mid _ _ _ hmid hlast =>
    exact absurd (Conn.counted_induction (P := fun d => d.b = 0) hmid hlast hb
      fun _ _ hd hdb => hd.b_eq.trans hdb) hb'
  | _ => exact absurd hb hb'

/-- The challenge leaves an exponent behind. -/
theorem Trans.exponent_of_sendsSuccess (h : Trans sha c e c') (hs : SendsSuccess c e c') :
    c'.b ≠ 0 := by
  obtain ⟨res, pkt, hact, hq, hpkt⟩ := hs
  cases h with
  | challengeSent => exact e.env.randB.pos.ne'
  | accountRefused res' reply _ _ hreply =>
    rw [eq_of_queues_singleton rfl hq] at hpkt
    refine absurd hpkt (not_isAuthSuccess_authReply ?_)
    rcases hreply with ⟨rfl, -⟩ | ⟨rfl, -⟩ <;> exact nofun
  | accountLocked =>
    rw [eq_of_queues_singleton rfl hq] at hpkt
    exact absurd hpkt (not_isAuthSuccess_authReply nofun)
  | died => exact absurd hq (not_queues_of_same rfl)
  | ipFree _ hact' | ipBanned _ hact' | sessionkeyFound _ hact' | sessionkeyMissing _ _ hact'
  | sessionkeyThrown _ hact' | charsCounted _ _ _ hact' | output _ _ _ _ _ hact'
  | challengeRefused _ hact' | challengeTaken _ hact' | proofPassed _ _ hact'
  | proofUnsupported _ hact'
  | proofFailed _ _ _ hact' | reconnectTaken _ hact' | reconnectPassed _ _ hact'
  | realmListSent _ _ _ hact' | realmListAsked _ hact' => exact absurd (hact.symm.trans hact') nofun

/-! ### A refusal -/

/-- No challenge was sent, and none can be. -/
structure Conn.Refused (c : Conn) : Prop where
  exponent : c.b = 0
  noLookup : c.lookups = 0
  busy : c.state ≠ .connected

theorem Trans.refused (h : Trans sha c e c') (hr : c.Refused) : c'.Refused := by
  refine ⟨?_, ?_, (h.sameClient hr.busy).1⟩
  · by_contra hb'
    cases h with
    | challengeSent res _ _ _ _ _ hpending =>
      exact absurd (Conn.lookups_pos hpending rfl) (by rw [hr.noLookup]; exact lt_irrefl 0)
    | charsCounted res mid _ _ _ hmid hlast =>
      exact hb' (Conn.counted_induction (P := fun d => d.b = 0) hmid hlast hr.exponent
        fun _ _ hd hdb => hd.b_eq.trans hdb)
    | _ => exact hb' hr.exponent
  · have := h.lookups_le hr.busy
    have := hr.noLookup
    omega

/-- While a lookup is outstanding no challenge was sent. -/
theorem Inv.exponent_of_pending {obs : Observer} (hi : Inv sha c) (h : obs ∈ c.pending)
    (hl : obs.isLookup = true) : c.b = 0 := by
  rcases hi.phase with hu | ⟨-, hzero, -⟩
  · exact hu.1
  · exact absurd (Conn.lookups_pos h hl) (by omega)

/-- Answering the one outstanding lookup leaves none. -/
theorem Inv.lookups_answered_eq_zero {obs : Observer} (hi : Inv sha c) (h : obs ∈ c.pending)
    (hl : obs.isLookup = true) : (c.answered obs).lookups = 0 := by
  have hsum := Conn.lookups_answered h
  have hone := hi.oneLookup
  rw [hl, if_pos rfl] at hsum
  omega

/-- **A refusal is for good.** -/
theorem Trans.refused_of_refusesLogon (h : Trans sha c e c') (hi : Inv sha c)
    (hr : RefusesLogon c e c') : c'.Refused := by
  obtain ⟨obs, res, result, hact, hl, hresult, hq⟩ := hr
  cases h with
  | ipBanned _ _ hpending | accountRefused _ _ _ hpending | accountLocked _ _ _ hpending =>
    exact ⟨hi.exponent_of_pending hpending rfl, hi.lookups_answered_eq_zero hpending rfl,
      hi.busy_of_pending hpending⟩
  | challengeSent _ _ _ _ pkt _ _ _ _ _ _ hpkt =>
    rw [← eq_of_queues_singleton rfl hq] at hpkt
    exact absurd hpkt (not_isAuthSuccess_authReply hresult)
  | ipFree | died => exact absurd hq (not_queues_of_same rfl)
  | sessionkeyFound _ hact' | sessionkeyMissing _ _ hact' | sessionkeyThrown _ hact'
  | charsCounted _ _ _ hact' =>
    obtain ⟨rfl, -⟩ := Action.answer.inj (hact.symm.trans hact')
    cases hl
  | output _ _ _ _ _ hact' | challengeRefused _ hact' | challengeTaken _ hact'
  | proofPassed _ _ hact' | proofUnsupported _ hact' | proofFailed _ _ _ hact'
  | reconnectTaken _ hact' | reconnectPassed _ _ hact' | realmListSent _ _ _ hact'
  | realmListAsked _ hact' => exact absurd (hact.symm.trans hact') nofun

/-! ### Runs -/

section Runs

variable {f : Start} {es : List Event} {i : ℕ}

/-- **An exponent goes back to a challenge** that was sent for the same name. -/
theorem exists_sendsSuccess (h : StepAt sha f es i c e c') (hb : c.b ≠ 0) :
    ∃ j t g t', j < i ∧ StepAt sha f es j t g t' ∧ SendsSuccess t g t' ∧ t.login = c.login := by
  obtain ⟨j, t, g, t', hji, hat, ht, ht'⟩ := h.exists_earlier (H := fun c => c.b ≠ 0) nofun hb
  have htrans := trans_of_stepAt hat
  obtain ⟨hs, hbusy⟩ := htrans.sendsSuccess_of_exponent (inv_of_stepAt hat) (not_not.mp ht) ht'
  obtain ⟨es', hrun⟩ := hat.run_between h hji
  obtain ⟨hbusy', hlogin, -⟩ := htrans.sameClient hbusy
  exact ⟨j, t, g, t', hji, hat, hs, ((sameClient_of_run hrun hbusy').2.1.trans hlogin).symm⟩

/-- A challenge is never forgotten. -/
theorem exponent_of_sendsSuccess {j : ℕ} {t t' : Conn} {g : Event}
    (hat : StepAt sha f es j t g t') (hs : SendsSuccess t g t') (h : StepAt sha f es i c e c')
    (hji : j < i) : c.b ≠ 0 := by
  -- the invariant is carried along: it is what rules out a second challenge
  have hkeep : ∀ d g d', Inv sha d ∧ d.b ≠ 0 → step sha d g = some d' → Inv sha d' ∧ d'.b ≠ 0 := by
    rintro d g d' ⟨hd, hb⟩ hstep
    refine ⟨hd.of_step hstep, ?_⟩
    rcases hd.phase with hu | ⟨-, hl, -, hc⟩
    · exact absurd hu.1 hb
    · exact ((trans_of_step hstep).sameChallenge hc hl).1 ▸ hb
  obtain ⟨es', hrun⟩ := hat.run_between h hji
  exact (Runs.run_invariant hkeep ⟨(inv_of_stepAt hat).of_step hat.2.2,
    (trans_of_stepAt hat).exponent_of_sendsSuccess hs⟩ hrun).2

/-- After a refusal there is never an exponent. -/
theorem exponent_of_refusesLogon {j : ℕ} {t t' : Conn} {g : Event}
    (hat : StepAt sha f es j t g t') (hr : RefusesLogon t g t') (h : StepAt sha f es i c e c')
    (hji : j < i) : c.b = 0 := by
  obtain ⟨es', hrun⟩ := hat.run_between h hji
  have hrefused := (trans_of_stepAt hat).refused_of_refusesLogon (inv_of_stepAt hat) hr
  exact (Runs.run_invariant (fun _ _ _ hd hstep => (trans_of_step hstep).refused hd) hrefused
    hrun).exponent

/-- A proof that passes is accepted by the step that handles it. -/
theorem entersAuthed_of_proof (h : StepAt sha f es i c e c') (hp : PassesLogonProof sha c e) :
    EntersAuthed .authLogonProof e c' := by
  obtain ⟨raw, hact, hcmd, hstate, hproof⟩ := hp
  have hi := inv_of_stepAt h
  refine ⟨raw, hact, hcmd, ?_⟩
  obtain ⟨d, hd, hauthed⟩ := Conn.handleAuthLogonProof_of_proof hstate (hi.build hstate) hproof
  have hopen : c.state ≠ .closing := by simp [hstate]
  have hread : c.readRegistered = true :=
    hi.alive.ptr_eq.symm.trans (hi.alive.open_of_state hopen (by simp [hstate]))
  have hstep := h.2.2
  rw [step, hact] at hstep
  dsimp only at hstep
  rw [if_pos hread, Conn.handleInput, if_neg hopen, hcmd, ofByte?_code] at hstep
  rw [Option.some.inj (hstep.symm.trans hd)]
  exact hauthed

/-- **When a logon proof is accepted only after its lookups.** A step of a run that
authenticates by a logon proof comes after the challenge for its name was sent, and
after no refusal, exactly when it does not meet a connection without an exponent and
carry the proof for the secret one. -/
theorem logon_after_lookups_iff (h : StepAt sha f es i c e c') :
    (EntersAuthed .authLogonProof e c' →
      (∃ j t g t', j < i ∧ StepAt sha f es j t g t' ∧ SendsSuccess t g t' ∧
        t.login = c.login) ∧
      ∀ j t g t', j < i → StepAt sha f es j t g t' → ¬RefusesLogon t g t') ↔
    (∀ raw, e.action = .input raw → raw.cmd = EAuthCmd.authLogonProof.code →
      c.state = .needProof → c.b = 0 →
        raw.proofM1 ≠ (proofForSecret sha e.env c raw.publicA (residue 1)).val) := by
  have hone : ∀ A, c.b = 0 →
      c.expectedM sha e.env A = proofForSecret sha e.env c A (residue 1) := by
    intro A hb
    rw [Conn.expectedM_eq, Conn.secret, hb, secretS_of_exponent_zero]
  constructor
  -- with the exponent still zero no challenge was sent, and the proof for one is accepted
  · intro hclaim raw hact hcmd hstate hb hproof
    rw [← hone _ hb] at hproof
    have henters := entersAuthed_of_proof h ⟨raw, hact, hcmd, hstate, hproof⟩
    obtain ⟨⟨j, t, g, t', hji, hat, hs, -⟩, -⟩ := hclaim henters
    exact exponent_of_sendsSuccess hat hs h hji hb
  -- an exponent goes back to a challenge, and a refusal would have kept it away
  · intro hcond henters
    obtain ⟨raw, hact, hcmd, hstate, hproof⟩ := (trans_of_stepAt h).passesLogonProof henters
    have hb : c.b ≠ 0 := by
      intro hb
      rw [hone _ hb] at hproof
      exact hcond raw hact hcmd hstate hb hproof
    exact ⟨exists_sendsSuccess h hb, fun j t g t' hji hat hr =>
      hb (exponent_of_refusesLogon hat hr h hji)⟩

end Runs

/-! ### A proof that does not wait -/

namespace Sample

/-- The connection of the sample after it took the challenge. -/
def taken : Conn :=
  { ({ Conn.init start with login := login.val, clientBuild := build }).checkIpBan with
    state := .needProof }

/-- The proof of a client that waits for nothing: its public value is zero, and its
secret is one. -/
def earlyProof (sha : Sha1) : Received :=
  Client.logonProof (Bytes.zero 32) (proofForSecret sha env taken (Bytes.zero 32).val (residue 1))

/-- The challenge of a client, and its proof right after it. -/
def earlyEvents (sha : Sha1) : List Event :=
  [⟨env, .input (Client.challenge .authLogonChallenge build login)⟩,
    ⟨env, .input (earlyProof sha)⟩]

/-- The proof is accepted while the address is still being looked up. -/
theorem exists_stepAt_early (sha : Sha1) : ∃ c',
    StepAt sha start (earlyEvents sha) 1 taken ⟨env, .input (earlyProof sha)⟩ c' ∧
      EntersAuthed .authLogonProof ⟨env, .input (earlyProof sha)⟩ c' := by
  have htaken : step sha (Conn.init start)
      ⟨env, .input (Client.challenge .authLogonChallenge build login)⟩ = some taken :=
    step_challenge rfl rfl (by decide) login
  have hproof : (earlyProof sha).proofM1 =
      (taken.expectedM sha env (earlyProof sha).publicA).val := by
    rw [Conn.expectedM_eq, Conn.secret, show taken.b = 0 from rfl, secretS_of_exponent_zero,
      earlyProof, Client.proofM1_logonProof, Client.publicA_logonProof]
  obtain ⟨c', h, hauthed⟩ := Conn.handleAuthLogonProof_of_proof rfl (by decide) hproof
  have hstep : step sha taken ⟨env, .input (earlyProof sha)⟩ = some c' :=
    (step_logonProof rfl (by decide) _ _).trans h
  exact ⟨c', ⟨Runs.run_singleton.trans htaken, rfl, hstep⟩, earlyProof sha, rfl, rfl, hauthed⟩

end Sample

/-- The sample proof that does not wait, and one that comes after the challenge. -/
theorem logon_after_lookups_iff_sample :
    (∃ c', EntersAuthed .authLogonProof ⟨Sample.env, .input (Sample.earlyProof Sample.zeroSha)⟩ c' ∧
      ¬∀ raw, Action.input (Sample.earlyProof Sample.zeroSha) = .input raw →
        raw.cmd = EAuthCmd.authLogonProof.code → Sample.taken.state = .needProof →
          Sample.taken.b = 0 → raw.proofM1 ≠
            (proofForSecret Sample.zeroSha Sample.env Sample.taken raw.publicA
              (residue 1)).val) ∧
    ∃ c e c' j t g t', StepAt Sample.zeroSha Sample.start Sample.events 3 c e c' ∧
      EntersAuthed .authLogonProof e c' ∧ j < 3 ∧
        StepAt Sample.zeroSha Sample.start Sample.events j t g t' ∧ SendsSuccess t g t' ∧
          t.login = c.login := by
  constructor
  · obtain ⟨c', hat, henters⟩ := Sample.exists_stepAt_early Sample.zeroSha
    refine ⟨c', henters, fun hcond => ?_⟩
    obtain ⟨⟨j, t, g, t', hj, hat', ⟨res, -, hact, -⟩, -⟩, -⟩ :=
      (logon_after_lookups_iff hat).mpr hcond henters
    obtain rfl : j = 0 := by omega
    obtain rfl := Option.some.inj hat'.2.1
    cases hact
  · have hsome : (run Sample.zeroSha Sample.start (Sample.events.take 4)).isSome := by
      decide +kernel
    have hauthed : ∀ d ∈ run Sample.zeroSha Sample.start (Sample.events.take 4),
        d.state = .authed := by decide +kernel
    have hb : ∀ d ∈ run Sample.zeroSha Sample.start (Sample.events.take 3), d.b ≠ 0 := by
      decide +kernel
    obtain ⟨c, c', hat⟩ := Runs.exists_stepAt_of_isSome hsome rfl
    have henters : EntersAuthed .authLogonProof ⟨Sample.env, .input Sample.zeroProof⟩ c' :=
      ⟨Sample.zeroProof, rfl, rfl, hauthed c' hat.run_succ⟩
    -- the challenge has left an exponent
    obtain ⟨⟨j, t, g, t', hj, hat', hs, hlogin⟩, -⟩ :=
      (logon_after_lookups_iff hat).mpr (fun _ _ _ _ hzero => absurd hzero (hb c hat.1)) henters
    exact ⟨c, _, c', j, t, g, t', hat, henters, hj, hat', hs, hlogin⟩

/-- **The daemon accepts a logon proof before the account was looked up**, whatever
the hash function is. -/
theorem accepts_before_lookups :
    ¬∃ sha, ∀ f es i c e c', StepAt sha f es i c e c' → EntersAuthed .authLogonProof e c' →
      (∃ j t g t', j < i ∧ StepAt sha f es j t g t' ∧ SendsSuccess t g t' ∧
        t.login = c.login) ∧
      ∀ j t g t', j < i → StepAt sha f es j t g t' → ¬RefusesLogon t g t' := by
  rintro ⟨sha, hclaim⟩
  obtain ⟨c', hat, henters⟩ := Sample.exists_stepAt_early sha
  obtain ⟨⟨j, t, g, t', hj, hat', ⟨res, -, hact, -⟩, -⟩, -⟩ := hclaim _ _ _ _ _ _ hat henters
  obtain rfl : j = 0 := by omega
  obtain rfl := Option.some.inj hat'.2.1
  cases hact

end Morfeusz.Realmd
