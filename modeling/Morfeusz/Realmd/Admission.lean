import Morfeusz.Realmd.Challenge
import Morfeusz.Realmd.Invariants

/-!
# Who is shown the realm list

A connection is *admitted* by a proof that passes its comparison of twenty bytes.
The realm list goes to nobody else, although the callback that builds it does not
look at the state: the query it answers can only have been made by a connection
that was admitted, and that stays true of the outstanding query after the state
has moved on (`Morfeusz.Realmd.Conn.Admitted`).
-/

namespace Morfeusz.Realmd

open ByteNumbers

variable {sha : Sha1} {c c' : Conn} {e : Event}

/-! ### What is observed of a step -/

/-- The step queues a packet for the client. -/
def Queues (c c' : Conn) (pkt : ByteBuffer) : Prop :=
  ∃ new, c'.queued = c.queued ++ new ∧ pkt ∈ new

/-- A logon proof is handled and passes its comparison. -/
def PassesLogonProof (sha : Sha1) (c : Conn) (e : Event) : Prop :=
  ∃ raw, e.action = .input raw ∧ raw.cmd = EAuthCmd.authLogonProof.code ∧
    c.state = .needProof ∧ raw.proofM1 = (c.expectedM sha e.env raw.publicA).val

/-- A reconnect proof is handled and passes its comparison. -/
def PassesReconnectProof (sha : Sha1) (c : Conn) (e : Event) : Prop :=
  ∃ raw hash, e.action = .input raw ∧ raw.cmd = EAuthCmd.authReconnectProof.code ∧
    c.state = .needRproof ∧ c.reconnectHash sha e.env raw.proofR1 = some hash ∧
      raw.proofR2 = hash.val

/-- The connection is authenticated by a packet of the given command. -/
def EntersAuthed (cmd : EAuthCmd) (e : Event) (c' : Conn) : Prop :=
  ∃ raw, e.action = .input raw ∧ raw.cmd = cmd.code ∧ c'.state = .authed

/-- A challenge is accepted: the state leaves `STATUS_CONNECTED`, and not because
the connection ends. -/
def TakesChallenge (c c' : Conn) : Prop :=
  c.state = .connected ∧ c'.state ≠ .connected ∧ c'.state ≠ .closing

theorem EAuthCmd.code_of_ofByte? {b : UInt8} {cmd : EAuthCmd} (h : EAuthCmd.ofByte? b = some cmd) :
    b = cmd.code := by
  rw [ofByte?] at h
  have hcode : cmd.code = b := by simpa using List.find?_some h
  exact hcode.symm

/-! ### Admission -/

/-- A connection that is authenticated, or was when it asked for the character
counts. -/
def Conn.Admitted (c : Conn) : Prop := c.state = .authed ∨ .getCharAmntObsv ∈ c.pending

theorem Conn.admitted_of_answered {obs : Observer} (h : (c.answered obs).Admitted) : c.Admitted :=
  h.imp_right List.mem_of_mem_erase

theorem Conn.mem_of_ask {obs obs' : Observer} {op : RealmdRequest} (hobs : obs ≠ obs')
    (h : obs' ∈ (c.ask obs op).pending) : obs' ∈ c.pending := by
  rw [ask] at h
  dsimp only at h
  split at h
  · rcases List.mem_append.mp h with h | h
    · exact h
    · exact absurd (List.mem_singleton.mp h).symm hobs
  · exact h

theorem Conn.mem_of_checkIpBan {obs : Observer} (hobs : .checkIpBanObsv ≠ obs)
    (h : obs ∈ c.checkIpBan.pending) : obs ∈ c.pending :=
  mem_of_ask hobs h

theorem Conn.mem_of_getAccount {obs : Observer} (hobs : .checkAcctObsv ≠ obs)
    (h : obs ∈ c.getAccount.pending) : obs ∈ c.pending :=
  mem_of_ask hobs h

theorem Conn.mem_of_getSessionkey {obs : Observer} (hobs : .getSessionKeyObsv ≠ obs)
    (h : obs ∈ c.getSessionkey.pending) : obs ∈ c.pending :=
  mem_of_ask hobs h

/-- **Only a proof admits.** -/
theorem Trans.passes_of_admitted (h : Trans sha c e c') (hc : ¬c.Admitted) (hc' : c'.Admitted) :
    PassesLogonProof sha c e ∨ PassesReconnectProof sha c e := by
  cases h with
  | proofPassed raw data hact hcmd hread hstate hproof =>
    exact Or.inl ⟨raw, hact, EAuthCmd.code_of_ofByte? hcmd, hstate, hproof⟩
  | reconnectPassed raw hash hact hcmd hread hstate hhash hproof =>
    exact Or.inr ⟨raw, hash, hact, EAuthCmd.code_of_ofByte? hcmd, hstate, hhash, hproof⟩
  -- the list is for a connection that is admitted already
  | realmListSent raw _ _ _ _ hstate | realmListAsked raw _ _ hstate =>
    exact absurd (Or.inl hstate) hc
  -- everything else asks for something other than the counts
  | challengeTaken =>
    have hbefore : .getCharAmntObsv ∈ c.pending :=
      Conn.mem_of_checkIpBan (by decide) (hc'.resolve_left nofun)
    exact absurd (Or.inr hbefore) hc
  | reconnectTaken =>
    have hbefore : .getCharAmntObsv ∈ c.pending :=
      Conn.mem_of_getSessionkey (by decide) (hc'.resolve_left nofun)
    exact absurd (Or.inr hbefore) hc
  | ipFree =>
    have hbefore : (c.answered .checkIpBanObsv).Admitted :=
      hc'.imp id (Conn.mem_of_getAccount (by decide))
    exact absurd (Conn.admitted_of_answered hbefore) hc
  | ipBanned | accountRefused | accountLocked | challengeSent | sessionkeyThrown =>
    exact absurd (hc'.imp_right List.mem_of_mem_erase) hc
  | sessionkeyFound | sessionkeyMissing =>
    exact absurd (Or.inr (List.mem_of_mem_erase (hc'.resolve_left nofun))) hc
  | charsCounted res mid _ _ hpending => exact absurd (Or.inr hpending) hc
  | died | proofUnsupported => exact absurd (Or.inr (hc'.resolve_left nofun)) hc
  | challengeRefused | proofFailed | output => exact absurd hc' hc

/-- **A packet that leaves the state at `STATUS_AUTHED` is a proof that passed**, or
the request for the list. -/
theorem Trans.passes_of_entersAuthed {cmd : EAuthCmd} (h : Trans sha c e c')
    (he : EntersAuthed cmd e c') : cmd = .realmList ∨
      cmd = .authLogonProof ∧ PassesLogonProof sha c e ∨
      cmd = .authReconnectProof ∧ PassesReconnectProof sha c e := by
  obtain ⟨raw, hact, hcmd, hauthed⟩ := he
  have hcode : ∀ {raw' cmd'}, e.action = .input raw' → EAuthCmd.ofByte? raw'.cmd = some cmd' →
      cmd = cmd' := by
    intro raw' cmd' hact' hcmd'
    obtain rfl := Action.input.inj (hact.symm.trans hact')
    rw [hcmd, ofByte?_code] at hcmd'
    exact Option.some.inj hcmd'
  cases h with
  | proofPassed raw' _ hact' hcmd' _ hstate hproof =>
    exact Or.inr (Or.inl ⟨hcode hact' hcmd', raw', hact', EAuthCmd.code_of_ofByte? hcmd', hstate,
      hproof⟩)
  | reconnectPassed raw' hash hact' hcmd' _ hstate hhash hproof =>
    exact Or.inr (Or.inr ⟨hcode hact' hcmd', raw', hash, hact', EAuthCmd.code_of_ofByte? hcmd',
      hstate, hhash, hproof⟩)
  | realmListSent _ _ _ hact' hcmd' | realmListAsked _ hact' hcmd' =>
    exact Or.inl (hcode hact' hcmd')
  -- a refusal keeps the state it found
  | challengeRefused _ _ hstate | proofFailed _ _ _ _ hstate =>
    exact absurd (hstate.symm.trans hauthed) nofun
  | died | challengeTaken | proofUnsupported | reconnectTaken | sessionkeyFound
  | sessionkeyMissing => cases hauthed
  | output _ _ _ _ _ hact' | ipFree _ hact' | ipBanned _ hact' | accountRefused _ _ hact'
  | accountLocked _ _ hact' | challengeSent _ _ _ _ _ hact' | sessionkeyThrown _ hact'
  | charsCounted _ _ _ hact' =>
    exact absurd (hact.symm.trans hact') nofun

theorem Trans.passesLogonProof (h : Trans sha c e c') (he : EntersAuthed .authLogonProof e c') :
    PassesLogonProof sha c e := by
  rcases h.passes_of_entersAuthed he with hcmd | ⟨-, hp⟩ | ⟨hcmd, -⟩
  · cases hcmd
  · exact hp
  · cases hcmd

theorem Trans.passesReconnectProof (h : Trans sha c e c')
    (he : EntersAuthed .authReconnectProof e c') : PassesReconnectProof sha c e := by
  rcases h.passes_of_entersAuthed he with hcmd | ⟨hcmd, -⟩ | ⟨-, hp⟩
  · cases hcmd
  · cases hcmd
  · exact hp

/-! ### The packets of a step -/

theorem queues_iff {new : List ByteBuffer} {pkt : ByteBuffer} (h : c'.queued = c.queued ++ new) :
    Queues c c' pkt ↔ pkt ∈ new := by
  constructor
  · rintro ⟨new', h', hpkt⟩
    rwa [List.append_cancel_left (h.symm.trans h')]
  · exact fun hpkt => ⟨new, h, hpkt⟩

theorem Conn.Counted.queued_eq (h : Conn.Counted sha c c') :
    ∃ new, c'.queued = c.queued ++ new := by
  cases h with
  | sent amnt pkt => exact ⟨[pkt], rfl⟩
  | dropped => exact ⟨[], (List.append_nil _).symm⟩

theorem not_isRealmList_authReply (result : EAuthResults) : ¬IsRealmList (authReply result) := nofun

/-- The packets a step queues, and the only ones among them that may be a realm
list. -/
theorem Trans.queued_eq (h : Trans sha c e c') :
    ∃ new, c'.queued = c.queued ++ new ∧ ∀ pkt ∈ new, IsRealmList pkt → c.Admitted := by
  have hnone : c'.queued = c.queued →
      ∃ new, c'.queued = c.queued ++ new ∧ ∀ pkt ∈ new, IsRealmList pkt → c.Admitted :=
    fun h => ⟨[], by rw [h, List.append_nil], nofun⟩
  have hone : ∀ pkt, c'.queued = c.queued ++ [pkt] → (IsRealmList pkt → c.Admitted) →
      ∃ new, c'.queued = c.queued ++ new ∧ ∀ pkt ∈ new, IsRealmList pkt → c.Admitted :=
    fun pkt h hp => ⟨[pkt], h, fun pkt' hmem => List.mem_singleton.mp hmem ▸ hp⟩
  cases h with
  | challengeRefused | proofFailed | ipBanned | accountRefused | accountLocked =>
    exact hone _ rfl fun hp => absurd hp (not_isRealmList_authReply _)
  | proofPassed raw data _ _ _ _ _ hdata =>
    exact hone data rfl fun hp => absurd (hdata.symm.trans hp) (by decide)
  | reconnectPassed => exact hone _ rfl fun hp => absurd hp (by decide)
  | realmListSent raw amnt pkt _ _ hstate => exact hone pkt rfl fun _ => Or.inl hstate
  | challengeSent res _ _ _ pkt _ _ _ _ _ _ hpkt =>
    refine hone pkt rfl fun hp => absurd hp fun hp => ?_
    have hhead : pkt.storage.head? = some EAuthCmd.authLogonChallenge.code := by
      rw [← List.take_append_drop 3 pkt.storage, hpkt]
      rfl
    exact absurd (hhead.symm.trans hp) (by decide)
  | sessionkeyMissing res pkt _ _ _ hpkt =>
    exact hone pkt rfl fun hp => absurd (hpkt.symm.trans hp) (by decide)
  | charsCounted res mid _ _ hpending hmid hlast =>
    -- the callback was outstanding, so whatever it sends is for an admitted connection
    obtain ⟨new, hnew⟩ : ∃ new, c'.queued = c.queued ++ new := by
      refine Conn.counted_induction (P := fun d => ∃ new, d.queued = c.queued ++ new) hmid hlast
        ⟨[], (List.append_nil _).symm⟩ ?_
      rintro d d' hd ⟨new, hnew⟩
      obtain ⟨new', hnew'⟩ := hd.queued_eq
      exact ⟨new ++ new', by rw [hnew', hnew, List.append_assoc]⟩
    exact ⟨new, hnew, fun _ _ _ => Or.inr hpending⟩
  | died | challengeTaken | proofUnsupported | reconnectTaken | realmListAsked | output | ipFree
  | sessionkeyFound | sessionkeyThrown => exact hnone rfl

/-- **A realm list is queued only for an admitted connection.** -/
theorem Trans.admitted_of_queues {pkt : ByteBuffer} (h : Trans sha c e c') (hq : Queues c c' pkt)
    (hpkt : IsRealmList pkt) : c.Admitted := by
  obtain ⟨new, hnew, hadm⟩ := h.queued_eq
  exact hadm pkt ((queues_iff hnew).mp hq) hpkt

/-! ### Runs -/

/-- **The name and the build never change after a challenge was taken.** -/
theorem sameClient_of_run {es : List Event} (h : Runs.run (step sha) c es = some c') :
    c.SameClient c' :=
  Runs.run_relation Conn.SameClient.refl (fun _ _ _ => Conn.SameClient.trans)
    (fun _ _ _ hs => (trans_of_step hs).sameClient) h

/-- **An admitted connection passed a proof earlier.** -/
theorem exists_passes_of_admitted {f : Start} {es : List Event} {i : ℕ}
    (h : StepAt sha f es i c e c') (hc : c.Admitted) :
    ∃ j t g t', j < i ∧ StepAt sha f es j t g t' ∧
      (PassesLogonProof sha t g ∨ PassesReconnectProof sha t g) := by
  have hinit : ¬(Conn.init f).Admitted := by
    rintro (h | h) <;> cases h
  obtain ⟨j, t, g, t', hij, hat, ht, ht'⟩ := h.exists_earlier hinit hc
  exact ⟨j, t, g, t', hij, hat, (trans_of_stepAt hat).passes_of_admitted ht ht'⟩

/-- A taken challenge is not followed by another. -/
theorem not_takesChallenge_of_lt {f : Start} {es : List Event} {i j : ℕ} {d d' : Conn} {g : Event}
    (h : StepAt sha f es i c e c') (ht : TakesChallenge c c') (h' : StepAt sha f es j d g d')
    (hij : i < j) : ¬TakesChallenge d d' := by
  obtain ⟨es', hrun⟩ := h.run_between h' hij
  exact fun ht' => (sameClient_of_run hrun ht.2.1).1 ht'.1

/-- **The realm list, and the one challenge of a connection.** In every run a realm
list is queued only after a logon or reconnect proof that passed its comparison;
at most one challenge is taken, and the name and the build it brought are those of
every later state. -/
theorem realmList_after_proof (sha : Sha1) (f : Start) (es : List Event) :
    (∀ i c e c' pkt, StepAt sha f es i c e c' → Queues c c' pkt → IsRealmList pkt →
      ∃ j t g t', j < i ∧ StepAt sha f es j t g t' ∧
        (PassesLogonProof sha t g ∨ PassesReconnectProof sha t g)) ∧
    (∀ i j c e c' d g d', StepAt sha f es i c e c' → TakesChallenge c c' →
      StepAt sha f es j d g d' → TakesChallenge d d' → i = j) ∧
    (∀ i c e c' n t, StepAt sha f es i c e c' → TakesChallenge c c' → i < n →
      run sha f (es.take n) = some t →
        t.login = c'.login ∧ t.clientBuild = c'.clientBuild) := by
  refine ⟨?_, ?_, ?_⟩
  · intro i c e c' pkt hat hq hpkt
    exact exists_passes_of_admitted hat ((trans_of_stepAt hat).admitted_of_queues hq hpkt)
  · intro i j c e c' d g d' hat ht hat' ht'
    rcases lt_trichotomy i j with hij | hij | hij
    · exact absurd ht' (not_takesChallenge_of_lt hat ht hat' hij)
    · exact hij
    · exact absurd ht (not_takesChallenge_of_lt hat' ht' hat hij)
  · intro i c e c' n t hat ht hin hrun
    exact (sameClient_of_run ((hat.take hin).run_drop hrun) ht.2.1).2

/-! ### A run that gets the list -/

namespace Sample

/-- A hash that tells nothing apart. -/
def zeroSha : Sha1 := fun _ => Bytes.zero 20

/-- The address every sample connection comes from. -/
def ip : List UInt8 := [49]

def start : Start where
  salt := ⟨2 ^ 255 + 1, by decide, by decide, by decide⟩
  ip := ip
  clientBuild := 0
  id := 0
  locked := false
  gmlevel := 0
  failedLogins := 0

/-- A realm for the oldest of the supported clients. -/
def realm : Realm where
  name := [82]
  icon := 0
  color := 0
  timezone := 1
  allowedSecurityLevel := 0
  population := 0
  build := SupportedClientBuilds.build112.number

def env : Env where
  wrongPassBan := false
  wrongPassAmnt := 3
  wrongPassBanType := []
  realmlist := [(1, realm)]
  proxyForRealm := fun _ => [80]
  randB := ⟨2 ^ 151 + 1, by decide, by decide, by decide⟩
  randProof := ⟨2 ^ 127 + 1, by decide, by decide, by decide⟩
  randNonce := ⟨2 ^ 127 + 1, by decide, by decide, by decide⟩
  stackS := Bytes.zero 32
  heapProof := Bytes.zero 16
  heapKey := Bytes.zero 40

def login : Client.Name := ⟨[65], by decide⟩

def build : UInt16 := SupportedClientBuilds.build112.number

/-- The rows the database answers with. -/
def rows (rows : List (List SqlValue)) (numFields : ℕ) : ResultSet :=
  { engine := .mysql, numFields, rows }

/-- The row of an account that is neither banned nor locked. -/
def account : ResultSet :=
  rows [[.text (List.replicate 40 49), .integer 4 7, .integer 1 0, .text ip, .null,
    .integer 4 0]] 6

/-- The logon proof of a client, all of whose numbers are zero. -/
def zeroProof : Received := Client.logonProof (Bytes.zero 32) (Bytes.zero 20)

/-- A logon and a request for the realm list, every query answered in time. -/
def events : List Event :=
  logonEvents env build login account ++
    [⟨env, .input zeroProof⟩,
    ⟨env, .input Client.realmList⟩,
    ⟨env, .answer .getCharAmntObsv (rows [[.integer 1 1, .integer 1 3]] 2)⟩]

end Sample

/-- The last event of the sample queues the list; what admitted the connection is the
proof before it. -/
theorem realmList_after_proof_sample :
    ∃ j t g t', j < 5 ∧ StepAt Sample.zeroSha Sample.start Sample.events j t g t' ∧
      (PassesLogonProof Sample.zeroSha t g ∨ PassesReconnectProof Sample.zeroSha t g) := by
  have hsome : (run Sample.zeroSha Sample.start (Sample.events.take 6)).isSome := by
    decide +kernel
  have hlast : ∀ d ∈ run Sample.zeroSha Sample.start (Sample.events.take 6),
      d.queued.drop 2 = [d.queued.getLastD .empty] ∧ IsRealmList (d.queued.getLastD .empty) := by
    decide +kernel
  have hlen : ∀ d ∈ run Sample.zeroSha Sample.start (Sample.events.take 5),
      d.queued.length = 2 := by
    decide +kernel
  obtain ⟨c, c', hat⟩ := Runs.exists_stepAt_of_isSome hsome rfl
  obtain ⟨hdrop, hpkt⟩ := hlast c' hat.run_succ
  obtain ⟨new, hnew, -⟩ := (trans_of_stepAt hat).queued_eq
  have hone : new = [c'.queued.getLastD .empty] := by
    rw [← hdrop, hnew, ← hlen c hat.1, List.drop_left]
  have hq : Queues c c' (c'.queued.getLastD .empty) :=
    ⟨new, hnew, hone ▸ List.mem_singleton_self _⟩
  exact (realmList_after_proof Sample.zeroSha Sample.start Sample.events).1 5 c _ c' _ hat hq hpkt

end Morfeusz.Realmd
