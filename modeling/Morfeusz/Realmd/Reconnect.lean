import Morfeusz.Realmd.LogonOrder

/-!
# Reconnecting

A client that reconnects should prove that it has the session key of its last
logon. The key is looked up, and the observer that gets the answer takes it for
missing exactly when it is there: a row ends the connection, and no row leaves the
number `k` as it is. So a connection that lets a reconnect proof through always
compares it with a hash in which the key is the number three followed by whatever
the heap held (`Morfeusz.Realmd.Inv.reconnectHash_eq`), and a client that has the
key never gets that far.
-/

namespace Morfeusz.Realmd

open ByteNumbers

variable {sha : Sha1} {env : Env} {c c' : Conn} {e : Event}

/-! ### The hash without a key -/

/-- The hash of a reconnect proof in which no key takes part. -/
def keylessHash (sha : Sha1) (env : Env) (c : Conn) (R1 : List UInt8) : Bytes 20 :=
  sha (c.login ++ R1 ++ bnBn2bin c.reconnectProof env.heapProof.val ++
    ((3 : UInt8) :: env.heapKey.val.drop 1))

theorem bnBn2bin_multiplierK (buf : List UInt8) :
    bnBn2bin multiplierK buf = (3 : UInt8) :: buf.drop 1 := rfl

/-- **The hash a reconnect proof is compared with never has a key in it.** -/
theorem Inv.reconnectHash_eq (hi : Inv sha c) (env : Env) (R1 : List UInt8) :
    c.reconnectHash sha env R1 = some (keylessHash sha env c R1) := by
  have hproof : Fits c.reconnectProof 16 := fits_iff.mpr hi.proofFits
  have hk : Fits c.k 40 := by
    rw [hi.k_eq]
    decide
  rw [Conn.reconnectHash, if_pos ⟨hproof, hk⟩, hi.k_eq, bnBn2bin_multiplierK, keylessHash]

/-- A proof with that hash is accepted. -/
theorem Inv.handleAuthReconnectProof_of_proof (hi : Inv sha c) {raw : Received}
    (hstate : c.state = .needRproof)
    (hproof : raw.proofR2 = (keylessHash sha env c raw.proofR1).val) :
    ∃ c', c.handleAuthReconnectProof sha env raw = some c' ∧ c'.state = .authed := by
  refine ⟨{ c.send reconnectProofPacket with state := .authed }, ?_, rfl⟩
  rw [Conn.handleAuthReconnectProof, if_neg (not_not.mpr hstate), hi.reconnectHash_eq,
    Option.bind_eq_bind, Option.bind_some, if_pos hproof.symm]

/-! ### A closed connection -/

/-- The reactor and the peer are done with the connection. -/
structure Conn.Closed (c : Conn) : Prop where
  read : c.readRegistered = false
  write : c.writeRegistered = false
  peer : c.peerOpen = false

theorem Conn.closed_die (c : Conn) : c.die.Closed := ⟨rfl, rfl, rfl⟩

theorem Conn.Closed.send (h : c.Closed) (pkt : ByteBuffer) : (c.send pkt).Closed := by
  refine ⟨h.read, ?_, h.peer⟩
  rw [Conn.send]
  simp [h.write, h.peer]

theorem Conn.Counted.closed (h : Conn.Counted sha c c') (hc : c.Closed) : c'.Closed := by
  cases h with
  | sent amnt pkt =>
    refine Conn.Closed.send ?_ pkt
    exact ⟨hc.read, hc.write, hc.peer⟩
  | dropped => exact Conn.closed_die _

/-- A closed connection that is not authenticated, and what its peer had taken by
then. -/
structure Conn.Gone (delivered : List UInt8) (c : Conn) : Prop where
  closed : c.Closed
  state : c.state = .closing ∨ c.state = .needRproof
  delivered : c.delivered = delivered

theorem Conn.Counted.gone {delivered : List UInt8} (h : Conn.Counted sha c c')
    (hc : c.Gone delivered) : c'.Gone delivered := by
  refine ⟨h.closed hc.closed, ?_, ?_⟩
  · cases h with
    | sent => exact hc.state
    | dropped => exact Or.inl rfl
  · cases h with
    | sent => exact hc.delivered
    | dropped => exact hc.delivered

/-- **A closed connection is not heard of again**: no packet gets in, and the
answers that still come neither authenticate it nor reach its peer. -/
theorem Trans.gone {delivered : List UInt8} (h : Trans sha c e c') (hc : c.Gone delivered) :
    c'.Gone delivered := by
  -- the states a packet or a proof would be handled in are gone
  have hstate : ∀ {st : ConnectionState}, c.state = st → st ≠ .closing → st ≠ .needRproof → False :=
    fun hst h₁ h₂ => hc.state.elim (fun h => h₁ (hst.symm.trans h)) fun h => h₂ (hst.symm.trans h)
  have hread : c.readRegistered = true → False := fun h => by
    rw [hc.closed.read] at h
    cases h
  cases h with
  | died | sessionkeyFound => exact ⟨Conn.closed_die _, Or.inl rfl, hc.delivered⟩
  | challengeRefused _ _ hst | challengeTaken _ _ hst | proofPassed _ _ _ _ _ hst
  | proofUnsupported _ _ hst | proofFailed _ _ _ _ hst | reconnectTaken _ _ hst
  | realmListSent _ _ _ _ _ hst | realmListAsked _ _ _ hst => exact (hstate hst nofun nofun).elim
  | reconnectPassed _ _ _ _ hr => exact (hread hr).elim
  | output _ _ _ _ _ _ hwrite =>
    rw [hc.closed.write] at hwrite
    cases hwrite
  | ipFree | sessionkeyThrown =>
    exact ⟨⟨hc.closed.read, hc.closed.write, hc.closed.peer⟩, hc.state, hc.delivered⟩
  | ipBanned | accountRefused | accountLocked | challengeSent =>
    refine ⟨Conn.Closed.send ?_ _, hc.state, hc.delivered⟩
    exact ⟨hc.closed.read, hc.closed.write, hc.closed.peer⟩
  | sessionkeyMissing res pkt =>
    have hsent : ({ c.answered .getSessionKeyObsv with
        reconnectProof := e.env.randProof.val }.send pkt).Closed := by
      refine Conn.Closed.send ?_ pkt
      exact ⟨hc.closed.read, hc.closed.write, hc.closed.peer⟩
    exact ⟨⟨hsent.read, hsent.write, hsent.peer⟩, Or.inr rfl, hc.delivered⟩
  | charsCounted res mid _ _ _ hmid hlast =>
    have hanswered : (c.answered .getCharAmntObsv).Gone delivered :=
      ⟨⟨hc.closed.read, hc.closed.write, hc.closed.peer⟩, hc.state, hc.delivered⟩
    exact Conn.counted_induction hmid hlast hanswered fun _ _ hd => hd.gone

theorem gone_of_run {delivered : List UInt8} {es : List Event} (hc : c.Gone delivered)
    (h : Runs.run (step sha) c es = some c') : c'.Gone delivered :=
  Runs.run_invariant (fun _ _ _ hd hstep => (trans_of_step hstep).gone hd) hc h

/-! ### The session key -/

/-- The session key is read out of an existing row into `k`. -/
def FetchesKey (e : Event) (c' : Conn) : Prop :=
  ∃ res text, e.action = .answer .getSessionKeyObsv res ∧ res.rows ≠ [] ∧
    res.next.2.getString 1 = some text ∧ bnHex2bn (cStr text) = some c'.k

/-- The reconnect challenge is sent, with these sixteen bytes. -/
def SendsReconnectChallenge (c c' : Conn) (rpr : List UInt8) : Prop :=
  ∃ pkt, reconnectChallengePacket rpr = some pkt ∧ Queues c c' pkt

/-- The proof of step `i` is one of the session key: the key was fetched before, for
the name of the connection, a challenge was sent before, and the proof is the hash
of both. -/
def ProvesSessionKey (sha : Sha1) (f : Start) (es : List Event) (i : ℕ) (c : Conn) (e : Event) :
    Prop :=
  ∃ raw j t g t' l u w u' rpr, e.action = .input raw ∧
    j < i ∧ StepAt sha f es j t g t' ∧ FetchesKey g t' ∧ t.login = c.login ∧
    l < i ∧ StepAt sha f es l u w u' ∧ SendsReconnectChallenge u u' rpr ∧
    raw.proofR2 =
      (sha (c.login ++ raw.proofR1 ++ rpr ++ bnBn2bin t'.k e.env.heapKey.val)).val

/-- **A row for the session key closes the connection.** -/
theorem Trans.gone_of_sessionkey {res : ResultSet} (h : Trans sha c e c')
    (hact : e.action = .answer .getSessionKeyObsv res) (hrows : res.rows ≠ []) :
    c'.Gone c.delivered := by
  cases h with
  | died | sessionkeyFound => exact ⟨Conn.closed_die _, Or.inl rfl, rfl⟩
  | sessionkeyMissing res' _ hact' _ hrows' | sessionkeyThrown res' hact' _ hrows' =>
    obtain ⟨-, rfl⟩ := Action.answer.inj (hact.symm.trans hact')
    exact absurd hrows' hrows
  | output _ _ _ _ _ hact' | challengeRefused _ hact' | challengeTaken _ hact'
  | proofPassed _ _ hact' | proofUnsupported _ hact' | proofFailed _ _ _ hact'
  | reconnectTaken _ hact' | reconnectPassed _ _ hact' | realmListSent _ _ _ hact'
  | realmListAsked _ hact' | ipFree _ hact' | ipBanned _ hact' | accountRefused _ _ hact'
  | accountLocked _ _ hact' | challengeSent _ _ _ _ _ hact' | charsCounted _ _ _ hact' =>
    exact absurd (hact.symm.trans hact') nofun

section Runs

variable {f : Start} {es : List Event} {i : ℕ}

/-- A proof with the hash without a key is accepted by the step that handles it. -/
theorem entersAuthed_of_keylessHash (h : StepAt sha f es i c e c') {raw : Received}
    (hact : e.action = .input raw) (hcmd : raw.cmd = EAuthCmd.authReconnectProof.code)
    (hstate : c.state = .needRproof)
    (hproof : raw.proofR2 = (keylessHash sha e.env c raw.proofR1).val) :
    c.readRegistered = true ∧ EntersAuthed .authReconnectProof e c' := by
  obtain ⟨d, hd, hauthed⟩ := (inv_of_stepAt h).handleAuthReconnectProof_of_proof hstate hproof
  have hopen : c.state ≠ .closing := by simp [hstate]
  have hstep := h.2.2
  rw [step, hact] at hstep
  dsimp only at hstep
  split at hstep
  · next hread =>
    rw [Conn.handleInput, if_neg hopen, hcmd, ofByte?_code] at hstep
    rw [← Option.some.inj (hstep.symm.trans hd)] at hauthed
    exact ⟨hread, raw, hact, hcmd, hauthed⟩
  · cases hstep

/-- **When a reconnect proof is accepted only for the session key.** A step of a run
that authenticates by a reconnect proof proves the session key exactly when it does
not carry the hash without a key – which is to say that no proof is ever accepted
for a session key. -/
theorem reconnect_proves_key_iff (h : StepAt sha f es i c e c') :
    (EntersAuthed .authReconnectProof e c' → ProvesSessionKey sha f es i c e) ↔
    (∀ raw, e.action = .input raw → raw.cmd = EAuthCmd.authReconnectProof.code →
      c.state = .needRproof → raw.proofR2 ≠ (keylessHash sha e.env c raw.proofR1).val) := by
  constructor
  · intro hclaim raw hact hcmd hstate hproof
    obtain ⟨hread, henters⟩ := entersAuthed_of_keylessHash h hact hcmd hstate hproof
    obtain ⟨-, j, t, g, t', -, -, -, -, -, -, hji, hat, ⟨res, -, hanswer, hrows, -⟩, -⟩ :=
      hclaim henters
    -- the row that brought the key has closed the connection
    have hgone := (trans_of_stepAt hat).gone_of_sessionkey hanswer hrows
    obtain ⟨es', hrun⟩ := hat.run_between h hji
    rw [(gone_of_run hgone hrun).closed.read] at hread
    cases hread
  -- the multiplier was never replaced, so what is compared is the hash without a key
  · intro hcond henters
    obtain ⟨raw, hash, hact, hcmd, hstate, hhash, hproof⟩ :=
      (trans_of_stepAt h).passesReconnectProof henters
    rw [(inv_of_stepAt h).reconnectHash_eq] at hhash
    obtain rfl := Option.some.inj hhash
    exact absurd hproof (hcond raw hact hcmd hstate)

end Runs

/-! ### A proof that does not wait for the key -/

/-- The connection of a client that has sent its reconnect challenge. -/
def reconnecting (f : Start) (build : UInt16) (name : Client.Name) : Conn :=
  { ({ Conn.init f with clientBuild := build, login := cStr name.val }).getSessionkey with
    state := .needRproof }

namespace Sample

/-- The proof of a client that has no key: the hash of its name, its own challenge, a
buffer that was not written to, and the number three. -/
def keylessProof (sha : Sha1) : Received :=
  Client.reconnectProof (Bytes.zero 16)
    (keylessHash sha Sample.env (reconnecting start build login) (Bytes.zero 16).val)

/-- The reconnect challenge of a client, and its proof right after it. -/
def keylessEvents (sha : Sha1) : List Event :=
  [⟨Sample.env, .input (Client.challenge .authReconnectChallenge build login)⟩,
    ⟨Sample.env, .input (keylessProof sha)⟩]

/-- A proof that is another number, and the challenge before it. -/
def otherProof : Received := Client.reconnectProof (Bytes.zero 16) ⟨List.replicate 20 1, rfl⟩

def otherEvents : List Event :=
  [⟨Sample.env, .input (Client.challenge .authReconnectChallenge build login)⟩,
    ⟨Sample.env, .input otherProof⟩]

/-- The proof is accepted while the key is still being looked up. -/
theorem exists_stepAt_keyless (sha : Sha1) : ∃ c',
    StepAt sha start (keylessEvents sha) 1 (reconnecting start build login)
      ⟨Sample.env, .input (keylessProof sha)⟩ c' ∧
      EntersAuthed .authReconnectProof ⟨Sample.env, .input (keylessProof sha)⟩ c' := by
  have htaken : step sha (Conn.init start)
      ⟨Sample.env, .input (Client.challenge .authReconnectChallenge build login)⟩ =
        some (reconnecting start build login) :=
    step_reconnectChallenge rfl rfl build login
  have hinv : Inv sha (reconnecting start build login) := (inv_init start).of_step htaken
  have hproof : (keylessProof sha).proofR2 = (keylessHash sha Sample.env
      (reconnecting start build login) (keylessProof sha).proofR1).val := by
    rw [keylessProof, Client.proofR2_reconnectProof, Client.proofR1_reconnectProof]
  obtain ⟨c', h, hauthed⟩ := hinv.handleAuthReconnectProof_of_proof rfl hproof
  have hstep : step sha (reconnecting start build login) ⟨Sample.env, .input (keylessProof sha)⟩ =
      some c' :=
    (step_reconnectProof rfl (by decide) _ _).trans h
  exact ⟨c', ⟨Runs.run_singleton.trans htaken, rfl, hstep⟩, keylessProof sha, rfl, rfl, hauthed⟩

end Sample

/-- The sample proof without a key is accepted, and another is not. -/
theorem reconnect_proves_key_iff_sample :
    (∃ c', EntersAuthed .authReconnectProof
        ⟨Sample.env, .input (Sample.keylessProof Sample.zeroSha)⟩ c' ∧
      ¬∀ raw, Action.input (Sample.keylessProof Sample.zeroSha) = .input raw →
        raw.cmd = EAuthCmd.authReconnectProof.code →
          (reconnecting Sample.start Sample.build Sample.login).state = .needRproof →
            raw.proofR2 ≠ (keylessHash Sample.zeroSha Sample.env
              (reconnecting Sample.start Sample.build Sample.login) raw.proofR1).val) ∧
    ∃ c c', StepAt Sample.zeroSha Sample.start Sample.otherEvents 1 c
        ⟨Sample.env, .input Sample.otherProof⟩ c' ∧
      ¬EntersAuthed .authReconnectProof ⟨Sample.env, .input Sample.otherProof⟩ c' := by
  constructor
  · obtain ⟨c', hat, henters⟩ := Sample.exists_stepAt_keyless Sample.zeroSha
    refine ⟨c', henters, fun hcond => ?_⟩
    obtain ⟨-, j, t, g, t', -, -, -, -, -, -, hj, hat', ⟨res, -, hact, -⟩, -⟩ :=
      (reconnect_proves_key_iff hat).mpr hcond henters
    obtain rfl : j = 0 := by omega
    obtain rfl := Option.some.inj hat'.2.1
    cases hact
  · have hsome : (run Sample.zeroSha Sample.start (Sample.otherEvents.take 2)).isSome := by
      decide +kernel
    obtain ⟨c, c', hat⟩ := Runs.exists_stepAt_of_isSome hsome rfl
    refine ⟨c, c', hat, fun henters => ?_⟩
    have hcond : ∀ raw, Action.input Sample.otherProof = .input raw →
        raw.cmd = EAuthCmd.authReconnectProof.code → c.state = .needRproof →
          raw.proofR2 ≠ (keylessHash Sample.zeroSha Sample.env c raw.proofR1).val := by
      rintro raw hraw - -
      rw [← Action.input.inj hraw, Sample.otherProof, Client.proofR2_reconnectProof]
      have hne : (List.replicate 20 1 : List UInt8) ≠ (Bytes.zero 20).val := by decide
      exact hne
    obtain ⟨-, j, t, g, t', -, -, -, -, -, -, hj, hat', ⟨res, -, hact, -⟩, -⟩ :=
      (reconnect_proves_key_iff hat).mpr hcond henters
    obtain rfl : j = 0 := by omega
    obtain rfl := Option.some.inj hat'.2.1
    cases hact

/-- **The daemon accepts a reconnect proof without a session key**, whatever the hash
function is. -/
theorem accepts_without_key :
    ¬∃ sha, ∀ f es i c e c', StepAt sha f es i c e c' →
      EntersAuthed .authReconnectProof e c' → ProvesSessionKey sha f es i c e := by
  rintro ⟨sha, hclaim⟩
  obtain ⟨c', hat, henters⟩ := Sample.exists_stepAt_keyless sha
  obtain ⟨-, j, t, g, t', -, -, -, -, -, -, hj, hat', ⟨res, -, hact, -⟩, -⟩ :=
    hclaim _ _ _ _ _ _ hat henters
  obtain rfl : j = 0 := by omega
  obtain rfl := Option.some.inj hat'.2.1
  cases hact

/-! ### A client that waits for the key -/

/-- The row of a session key, as `update_account` has written it. -/
def sessionkeyRow (engine : Engine) (K : Bytes 40) : ResultSet :=
  { engine, numFields := 1, rows := [[.text (sessionkeyText K.val)]] }

/-- The reconnect challenge of a client, and the answer of the query for its key. -/
def reconnectEvents (env env' : Env) (build : UInt16) (name : Client.Name) (engine : Engine)
    (K : Bytes 40) : List Event :=
  [⟨env, .input (Client.challenge .authReconnectChallenge build name)⟩,
    ⟨env', .answer .getSessionKeyObsv (sessionkeyRow engine K)⟩]

/-- The row closes the connection, and the client is told nothing. -/
theorem run_reconnectEvents (f : Start) (env env' : Env) (build : UInt16) (name : Client.Name)
    (engine : Engine) (K : Bytes 40) : ∃ c,
      run sha f (reconnectEvents env env' build name engine K) = some c ∧ c.Gone [] ∧
        c.queued = [] := by
  have htaken : step sha (Conn.init f)
      ⟨env, .input (Client.challenge .authReconnectChallenge build name)⟩ =
        some (reconnecting f build name) :=
    step_reconnectChallenge rfl rfl build name
  have hfresh : (sessionkeyRow engine K).Fresh := rfl
  have hcount : (sessionkeyRow engine K).next.2.rowsCount ≠ 0 :=
    mt (ResultSet.rowsCount_next_eq_zero_iff hfresh).mp (List.cons_ne_nil _ _)
  have hpending : .getSessionKeyObsv ∈ (reconnecting f build name).pending := List.mem_cons_self
  have hanswered : step sha (reconnecting f build name)
      ⟨env', .answer .getSessionKeyObsv (sessionkeyRow engine K)⟩ =
        some ((reconnecting f build name).answered .getSessionKeyObsv).die := by
    rw [step_answer hpending hfresh, Conn.update, Conn.getSessionKeyObsv, if_pos hcount]
    rfl
  exact ⟨_, (Runs.run_cons_of_step htaken).trans (Runs.run_singleton.trans hanswered),
    ⟨Conn.closed_die _, Or.inl rfl, rfl⟩, rfl⟩

/-- **A client whose row holds its session key can never reconnect.** It sends its
challenge and waits; the row is found, and whatever happens from then on, the
connection is not authenticated and nothing ever reaches the client. -/
theorem reconnect_never_completes (sha : Sha1) (f : Start) (env env' : Env) (build : UInt16)
    (name : Client.Name) (engine : Engine) (K : Bytes 40) :
    (∃ c, run sha f (reconnectEvents env env' build name engine K) = some c ∧ c.queued = []) ∧
    ∀ es c', run sha f (reconnectEvents env env' build name engine K ++ es) = some c' →
      c'.state ≠ .authed ∧ c'.delivered = [] := by
  obtain ⟨c, hrun, hgone, hqueued⟩ := run_reconnectEvents f env env' build name engine K
  refine ⟨⟨c, hrun, hqueued⟩, fun es c' hrun' => ?_⟩
  rw [run, Runs.run_append_of_run hrun] at hrun'
  have hgone' := gone_of_run hgone hrun'
  refine ⟨fun hauthed => ?_, hgone'.delivered⟩
  rcases hgone'.state with h | h
  · cases hauthed.symm.trans h
  · cases hauthed.symm.trans h

/-- The sample client, right after the row was found. -/
theorem reconnect_never_completes_sample :
    ∃ c, run Sample.zeroSha Sample.start (reconnectEvents Sample.env Sample.env Sample.build
      Sample.login .mysql ⟨List.replicate 40 1, rfl⟩) = some c ∧ c.state ≠ .authed := by
  have h := reconnect_never_completes Sample.zeroSha Sample.start Sample.env Sample.env
    Sample.build Sample.login .mysql ⟨List.replicate 40 1, rfl⟩
  obtain ⟨c, hrun, -⟩ := h.1
  refine ⟨c, hrun, (h.2 [] c ?_).1⟩
  rw [List.append_nil, hrun]

/-- **The sample client does not reconnect**, whatever the hash function and whatever
proof it sends. -/
theorem sample_does_not_reconnect :
    ¬∃ sha es c, run sha Sample.start (reconnectEvents Sample.env Sample.env Sample.build
      Sample.login .mysql ⟨List.replicate 40 1, rfl⟩ ++ es) = some c ∧ c.state = .authed := by
  rintro ⟨sha, es, c', hrun', hauthed⟩
  obtain ⟨c, hrun, hgone, -⟩ := run_reconnectEvents Sample.start Sample.env Sample.env
    Sample.build Sample.login .mysql ⟨List.replicate 40 1, rfl⟩
  rw [run, Runs.run_append_of_run hrun] at hrun'
  rcases (gone_of_run hgone hrun').state with h | h
  · cases hauthed.symm.trans h
  · cases hauthed.symm.trans h

end Morfeusz.Realmd
