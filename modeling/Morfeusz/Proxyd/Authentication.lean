import Morfeusz.Proxyd.Transitions

/-!
# Whose characters a connection works on

The two packets about characters are handled like all the others: nothing asks whether
the client is known. So whether a connection works on the characters of the account it
was accepted for is up to the client and to the order of the answers, and this file says
when it does. What carries the argument is that a connection with a key and a pointer
has been accepted and never rejected, and still has the account of the last acceptance
(`Morfeusz.Proxyd.acceptedLast_of_run`).

`handle_cmsg_char_create` looks at neither, and takes the account anew for each of its
queries and for its transaction. An answer that rejects the client while it waits does not
stop it.
-/

namespace Morfeusz.Proxyd

open ByteNumbers

variable {sha : Sha1} {hmac : Hmac} {c c' : Conn} {e : Event}

/-! ### What is observed of a step -/

/-- `account_retrieved` accepts the digest of the client for this account. -/
def AcceptsDigest (sha : Sha1) (c : Conn) (e : Event) (acct : Account) : Prop :=
  e.Brings acct ∧ ({ c with acct } : Conn).Authentic sha e.env

/-- `account_retrieved` rejects the client: its digest or the stored verifier is wrong,
or there is no account. -/
def RejectsDigest (sha : Sha1) (c : Conn) (e : Event) : Prop :=
  e.BringsNone ∨ ∃ acct, e.Brings acct ∧ ¬({ c with acct } : Conn).Authentic sha e.env

namespace ProxySocket

/-- The same, of the connection of a socket. -/
def Accepts (sha : Sha1) (s : ProxySocket) (e : SocketEvent) (acct : Account) : Prop :=
  ∃ d, e = .event d ∧ AcceptsDigest sha s.conn d acct

def Rejects (sha : Sha1) (s : ProxySocket) (e : SocketEvent) : Prop :=
  ∃ d, e = .event d ∧ RejectsDigest sha s.conn d

/-- A packet about characters is handled, or the handler of one goes on. -/
def HandlesCharacters : SocketEvent → Prop
  | .event d => ∃ pkt, d.action = .input pkt ∧ pkt.IsCharacter
  | .resume _ => True

/-- A handler of a packet about characters has something done in the database. -/
def ActsOnCharacters (s : ProxySocket) (e : SocketEvent) (s' : ProxySocket) : Prop :=
  HandlesCharacters e ∧ s'.conn.operations ≠ s.conn.operations

/-- A packet about characters reaches the database, or the answer lets the handler go on. -/
def ReachesDatabase (s : ProxySocket) : SocketEvent → Prop
  | .event d => ∃ pkt, d.action = .input pkt ∧ s.conn.ReachesDatabase d.env pkt
  | .resume res => ∃ h, s.creation = some h ∧ h.GoesOn res

end ProxySocket

/-- All that the step adds to the queue of the database is for the account `id`. -/
def ActsFor (id : UInt32) (c c' : Conn) : Prop :=
  ∃ new, c'.operations = c.operations ++ new ∧ ∀ op ∈ new, op.IsFor id

/-- The account a run has accepted last, nothing having been rejected. -/
structure AcceptedLast (sha : Sha1) (hmac : Hmac) (f : Start) (es : List SocketEvent)
    (acct : Account) : Prop where
  accepted : ∃ j t g t', ProxySocket.StepAt sha hmac f es j t g t' ∧ t.Accepts sha g acct ∧
    ∀ k u d u' other, j < k → ProxySocket.StepAt sha hmac f es k u d u' → ¬u.Accepts sha d other
  never : ∀ k u d u', ProxySocket.StepAt sha hmac f es k u d u' → ¬u.Rejects sha d

/-! ### One step -/

theorem Event.Brings.unique {acct acct' : Account} (h : e.Brings acct) (h' : e.Brings acct') :
    acct = acct' := by
  obtain ⟨res, hact, -, hacct⟩ := h
  obtain ⟨res', hact', -, hacct'⟩ := h'
  obtain ⟨-, rfl⟩ := Action.answer.inj (hact.symm.trans hact')
  exact Option.some.inj (hacct.symm.trans hacct')

theorem Event.Brings.not_bringsNone {acct : Account} (h : e.Brings acct) : ¬e.BringsNone := by
  rintro ⟨res', hact', hrows'⟩
  obtain ⟨res, hact, hrows, -⟩ := h
  obtain ⟨-, rfl⟩ := Action.answer.inj (hact.symm.trans hact')
  exact hrows hrows'

/-- A row is accepted or rejected, not both. -/
theorem AcceptsDigest.not_rejects {acct : Account} (h : AcceptsDigest sha c e acct) :
    ¬RejectsDigest sha c e := by
  rintro (hnone | ⟨acct', hbrings, hauth⟩)
  · exact h.1.not_bringsNone hnone
  · rw [h.1.unique hbrings] at h
    exact hauth h.2

/-- **A rejection takes the pointer.** -/
theorem Trans.ptr_of_rejects (h : Trans sha c e c') (hr : RejectsDigest sha c e) :
    c'.ptr = false := by
  cases h with
  | accepted acct hbrings hauth => exact absurd hr (AcceptsDigest.not_rejects ⟨hbrings, hauth⟩)
  | rejected acct hbrings hauth hacct hcrypto hptr => exact hptr
  | unknown hbrings hacct hcrypto hptr => exact hptr
  | hangup hact hacct hcrypto hptr => exact hptr
  | input pkt hact =>
    rcases hr with ⟨res, hact', -⟩ | ⟨acct, ⟨res, hact', -⟩, -⟩
    · cases hact.symm.trans hact'
    · cases hact.symm.trans hact'
  | listed res hact =>
    rcases hr with ⟨res, hact', -⟩ | ⟨acct, ⟨res, hact', -⟩, -⟩
    · cases hact.symm.trans hact'
    · cases hact.symm.trans hact'

/-- The pointer does not come back. -/
theorem Trans.ptr_le (h : Trans sha c e c') (hptr' : c'.ptr = true) : c.ptr = true := by
  cases h with
  | input pkt hact hread hframe => exact hframe.ptr ▸ hptr'
  | listed res hact hframe => exact hframe.ptr ▸ hptr'
  | accepted acct hbrings hauth hacct hkey hptr => exact hptr ▸ hptr'
  | hangup hact hacct hcrypto hptr => cases hptr.symm.trans hptr'
  | rejected acct hbrings hauth hacct hcrypto hptr => cases hptr.symm.trans hptr'
  | unknown hbrings hacct hcrypto hptr => cases hptr.symm.trans hptr'

/-- What takes it, other than a rejection, takes the registration too. -/
theorem Trans.rejects_of_ptr (h : Trans sha c e c') (hptr : c.ptr = true) (hptr' : c'.ptr = false) :
    RejectsDigest sha c e ∨ c'.readRegistered = false := by
  cases h with
  | input pkt hact hread hframe => cases hptr'.symm.trans (hframe.ptr.trans hptr)
  | listed res hact hframe => cases hptr'.symm.trans (hframe.ptr.trans hptr)
  | accepted acct hbrings hauth hacct hkey hsame => cases hptr'.symm.trans (hsame.trans hptr)
  | hangup hact hacct hcrypto hnull hread => exact Or.inr hread
  | rejected acct hbrings hauth => exact Or.inl (Or.inr ⟨acct, hbrings, hauth⟩)
  | unknown hbrings => exact Or.inl (Or.inl hbrings)

theorem Trans.read_le (h : Trans sha c e c') (hread' : c'.readRegistered = true) :
    c.readRegistered = true := by
  cases h with
  | input pkt hact hread => exact hread
  | listed res hact hframe => exact hframe.read ▸ hread'
  | accepted acct hbrings hauth hacct hkey hptr hread => exact hread ▸ hread'
  | hangup hact hacct hcrypto hptr hread => cases hread.symm.trans hread'
  | rejected acct hbrings hauth hacct hcrypto hptr hread => exact hread ▸ hread'
  | unknown hbrings hacct hcrypto hptr hread => exact hread ▸ hread'

/-- **The key comes with an acceptance, and stays.** -/
theorem Trans.key (h : Trans sha c e c') :
    (∃ acct, AcceptsDigest sha c e acct ∧ c'.acct = acct ∧ c'.crypto.isInitialised = true) ∨
    (∀ acct, ¬AcceptsDigest sha c e acct) ∧
      c'.crypto.isInitialised = c.crypto.isInitialised ∧ (c'.ptr = true → c'.acct = c.acct) := by
  have hno : ∀ {a}, e.action = a → (∀ res, a ≠ .answer .getAcctObsv res) →
      ∀ acct, ¬AcceptsDigest sha c e acct := by
    rintro a rfl hne acct ⟨⟨res, hact, -⟩, -⟩
    exact hne res hact
  cases h with
  | input pkt hact hread hframe =>
    exact Or.inr ⟨hno hact nofun, by rw [hframe.crypto], fun _ => hframe.acct⟩
  | listed res hact hframe =>
    exact Or.inr ⟨hno hact nofun, by rw [hframe.crypto], fun _ => hframe.acct⟩
  | hangup hact hacct hcrypto hptr =>
    exact Or.inr ⟨hno hact nofun, by rw [hcrypto], fun _ => hacct⟩
  | accepted acct hbrings hauth hacct hkey =>
    exact Or.inl ⟨acct, ⟨hbrings, hauth⟩, hacct, hkey⟩
  -- a rejected row is stored, but the pointer that would make it matter is gone
  | rejected acct hbrings hauth hacct hcrypto hptr =>
    refine Or.inr ⟨fun acct' hacc => ?_, by rw [hcrypto], fun hptr' => ?_⟩
    · exact hacc.not_rejects (Or.inr ⟨acct, hbrings, hauth⟩)
    · cases hptr.symm.trans hptr'
  | unknown hbrings hacct hcrypto hptr =>
    exact Or.inr ⟨fun acct' hacc => hacc.1.not_bringsNone hbrings, by rw [hcrypto], fun _ => hacct⟩

/-- The cipher changes where a session is accepted, and nowhere else. -/
theorem Trans.crypto_eq (h : Trans sha c e c') (hno : ∀ acct, ¬AcceptsDigest sha c e acct) :
    c'.crypto = c.crypto := by
  cases h with
  | input pkt hact hread hframe => exact hframe.crypto
  | listed res hact hframe => exact hframe.crypto
  | accepted acct hbrings hauth => exact absurd ⟨hbrings, hauth⟩ (hno acct)
  | hangup hact hacct hcrypto => exact hcrypto
  | rejected acct hbrings hauth hacct hcrypto => exact hcrypto
  | unknown hbrings hacct hcrypto => exact hcrypto

/-- A session that is accepted sets its key. -/
theorem crypto_of_accepts {acct : Account} (h : step sha hmac c e = some c')
    (hacc : AcceptsDigest sha c e acct) :
    c'.crypto = c.crypto.setKey hmac (numberOfText acct.sessionkey) := by
  obtain ⟨⟨res, hact, hrows, hread⟩, hauth⟩ := hacc
  obtain ⟨env, action⟩ := e
  obtain rfl : action = .answer .getAcctObsv res := hact
  rw [step] at h
  split at h
  · dsimp only at h
    split at h
    · rw [Conn.update, Conn.getAcctObsv, if_neg hrows, hread, Option.bind_eq_bind,
        Option.bind_some] at h
      rcases Conn.accountRetrieved_some h with ⟨-, pkt, rfl⟩ | ⟨hno, -⟩
      · rfl
      · exact absurd hauth hno
    · cases h
  · cases h

/-- A rejected row is stored all the same. -/
theorem Trans.acct_of_rejected (h : Trans sha c e c') {acct : Account} (hbrings : e.Brings acct)
    (hauth : ¬({ c with acct } : Conn).Authentic sha e.env) : c'.acct = acct := by
  cases h with
  | rejected acct' hbrings' hauth' hacct => rw [hacct, hbrings.unique hbrings']
  | accepted acct' hbrings' hauth' =>
    rw [hbrings.unique hbrings'] at hauth
    exact absurd hauth' hauth
  | unknown hbrings' => exact absurd hbrings' hbrings.not_bringsNone
  | input pkt hact =>
    obtain ⟨res, hact', -⟩ := hbrings
    cases hact.symm.trans hact'
  | hangup hact | listed res hact =>
    obtain ⟨res, hact', -⟩ := hbrings
    cases hact.symm.trans hact'

/-- A rejection keeps the account where its row is the one that is stored. -/
theorem Trans.acct_of_rejects (h : Trans sha c e c') (hr : RejectsDigest sha c e)
    (hsame : ∀ acct, e.Brings acct → ¬({ c with acct } : Conn).Authentic sha e.env →
      acct = c.acct) : c'.acct = c.acct := by
  cases h with
  | input pkt hact hread hframe => exact hframe.acct
  | listed res hact hframe => exact hframe.acct
  | hangup hact hacct => exact hacct
  | accepted acct hbrings hauth => exact absurd hr (AcceptsDigest.not_rejects ⟨hbrings, hauth⟩)
  | rejected acct hbrings hauth hacct => exact hacct.trans (hsame acct hbrings hauth)
  | unknown hbrings hacct => exact hacct

/-! ### One step of a socket -/

namespace ProxySocket

variable {s s' : ProxySocket} {e : SocketEvent}

theorem Trans.ptr_of_rejects (h : s.Trans sha e s') (hr : s.Rejects sha e) :
    s'.conn.ptr = false := by
  obtain ⟨d, rfl, hr⟩ := hr
  cases h with
  | event _ _ h => exact h.ptr_of_rejects hr

theorem Trans.ptr_le (h : s.Trans sha e s') (hptr : s'.conn.ptr = true) : s.conn.ptr = true := by
  cases h with
  | event d _ h => exact h.ptr_le hptr
  | resume res _ h' hwaits new hadds hnew => exact hadds.frame.ptr ▸ hptr

theorem Trans.rejects_of_ptr (h : s.Trans sha e s') (hptr : s.conn.ptr = true)
    (hptr' : s'.conn.ptr = false) : s.Rejects sha e ∨ s'.conn.readRegistered = false := by
  cases h with
  | event d _ h => exact (h.rejects_of_ptr hptr hptr').imp_left fun hr => ⟨d, rfl, hr⟩
  | resume res _ h' hwaits new hadds hnew =>
    cases hptr'.symm.trans (hadds.frame.ptr.trans hptr)

theorem Trans.read_le (h : s.Trans sha e s') (hread : s'.conn.readRegistered = true) :
    s.conn.readRegistered = true := by
  cases h with
  | event d _ h => exact h.read_le hread
  | resume res _ h' hwaits new hadds hnew => exact hadds.frame.read ▸ hread

/-- **The key comes with an acceptance, and stays**, whatever handler waits. -/
theorem Trans.key (h : s.Trans sha e s') :
    (∃ acct, s.Accepts sha e acct ∧ s'.conn.acct = acct ∧
      s'.conn.crypto.isInitialised = true) ∨
    (∀ acct, ¬s.Accepts sha e acct) ∧
      s'.conn.crypto.isInitialised = s.conn.crypto.isInitialised ∧
      (s'.conn.ptr = true → s'.conn.acct = s.conn.acct) := by
  cases h with
  | event d _ h =>
    refine h.key.imp ?_ ?_
    · rintro ⟨acct, hacc, hacct, hkey⟩
      exact ⟨acct, ⟨d, rfl, hacc⟩, hacct, hkey⟩
    · rintro ⟨hno, hrest⟩
      refine ⟨?_, hrest⟩
      rintro acct ⟨d', hd', hacc⟩
      obtain rfl := SocketEvent.event.inj hd'
      exact hno acct hacc
  | resume res _ h' hwaits new hadds hnew =>
    refine Or.inr ⟨?_, by rw [hadds.frame.crypto], fun _ => hadds.frame.acct⟩
    rintro acct ⟨d, hd, -⟩
    cases hd

/-- Without an acceptance the cipher stays as it is. -/
theorem Trans.crypto_eq (h : s.Trans sha e s') (hno : ∀ acct, ¬s.Accepts sha e acct) :
    s'.conn.crypto = s.conn.crypto := by
  cases h with
  | event d _ h => exact h.crypto_eq fun acct hacc => hno acct ⟨d, rfl, hacc⟩
  | resume res _ h' hwaits new hadds hnew => exact hadds.frame.crypto

/-- An acceptance sets the key. -/
theorem crypto_of_accepts {acct : Account} (h : s.step sha hmac e = some s')
    (hacc : s.Accepts sha e acct) :
    s'.conn.crypto = s.conn.crypto.setKey hmac (numberOfText acct.sessionkey) := by
  obtain ⟨⟨env, action⟩, rfl, hacc⟩ := hacc
  obtain ⟨res, hact, -⟩ := id hacc.1
  obtain rfl : action = .answer .getAcctObsv res := hact
  obtain ⟨c', hc', rfl⟩ := Option.map_eq_some_iff.mp h
  exact Proxyd.crypto_of_accepts hc' hacc

/-- A handler is under way only where the reactor still has the socket. -/
theorem Trans.waits (h : s.Trans sha e s')
    (hwaits : s.creation ≠ none → s.conn.readRegistered = true) :
    s'.creation ≠ none → s'.conn.readRegistered = true := by
  intro hcreation
  cases h with
  | event d _ h hopen =>
    obtain ⟨hbefore, hread⟩ := hopen hcreation
    rw [hread]
    exact hbefore.elim hwaits id
  | resume res _ h' hh' new hadds hnew =>
    rw [hadds.frame.read]
    exact hwaits (hh' ▸ Option.some_ne_none h')

/-- **What a step adds to the queue is for the account the connection has**, and it adds
something exactly where the database is reached. -/
theorem Trans.adds (h : s.Trans sha e s') (hhandles : HandlesCharacters e) :
    ∃ new, s.conn.Adds s'.conn new ∧ (new ≠ [] ↔ s.ReachesDatabase e) := by
  cases h with
  | event d _ h =>
    obtain ⟨pkt, hact, hchar⟩ := hhandles
    obtain ⟨new, hadds, hnew⟩ := (h.of_input hact).2 hchar
    refine ⟨new, hadds, hnew.trans ⟨fun hreach => ⟨pkt, hact, hreach⟩, ?_⟩⟩
    rintro ⟨pkt', hact', hreach⟩
    obtain rfl := Action.input.inj (hact.symm.trans hact')
    exact hreach
  | resume res _ h' hwaits new hadds hnew =>
    refine ⟨new, hadds, hnew.trans ⟨fun hgoes => ⟨h', hwaits, hgoes⟩, ?_⟩⟩
    rintro ⟨h'', hh'', hgoes⟩
    obtain rfl := Option.some.inj (hwaits.symm.trans hh'')
    exact hgoes

/-- What reaches the database is about characters. -/
theorem handles_of_reaches (h : s.ReachesDatabase e) : HandlesCharacters e := by
  cases e with
  | event d =>
    obtain ⟨pkt, hact, hreach⟩ := h
    exact ⟨pkt, hact, hreach.imp And.left And.left⟩
  | resume res => exact trivial

/-- **What a handler has done, and when.** -/
theorem Trans.acts_iff (h : s.Trans sha e s') :
    s.ActsOnCharacters e s' ↔ s.ReachesDatabase e := by
  constructor
  · rintro ⟨hhandles, hops⟩
    obtain ⟨new, hadds, hnew⟩ := h.adds hhandles
    refine hnew.mp fun hnil => hops ?_
    rw [hadds.operations, hnil, List.append_nil]
  · intro hreach
    have hhandles := handles_of_reaches hreach
    obtain ⟨new, hadds, hnew⟩ := h.adds hhandles
    refine ⟨hhandles, fun hops => hnew.mpr hreach ?_⟩
    rw [hadds.operations] at hops
    exact List.append_right_eq_self.mp hops

end ProxySocket

/-! ### Runs -/

section Runs

variable {f : Start} {es : List SocketEvent} {i : ℕ} {s s' : ProxySocket} {e : SocketEvent}

theorem trans_of_stepAt (h : ProxySocket.StepAt sha hmac f es i s e s') : s.Trans sha e s' :=
  ProxySocket.trans_of_step h.2.2

/-- **A connection that has its pointer was never rejected.** -/
theorem not_rejects_of_run (h : ProxySocket.run sha hmac f es = some s)
    (hptr : s.conn.ptr = true) {k : ℕ} {u u' : ProxySocket} {d : SocketEvent}
    (hat : ProxySocket.StepAt sha hmac f es k u d u') : ¬u.Rejects sha d := by
  intro hr
  have hnull := (trans_of_stepAt hat).ptr_of_rejects hr
  have hptr' : u'.conn.ptr = true :=
    Runs.run_backward (P := fun s => s.conn.ptr = true)
      (fun _ _ _ hstep => (ProxySocket.trans_of_step hstep).ptr_le) (hat.run_drop h) hptr
  cases hnull.symm.trans hptr'

/-- **A connection that has its key and its pointer still has the account of the last
acceptance.** -/
theorem acceptedLast_of_run (h : ProxySocket.run sha hmac f es = some s)
    (hptr : s.conn.ptr = true) (hkey : s.conn.crypto.isInitialised = true) :
    AcceptedLast sha hmac f es s.conn.acct := by
  refine ⟨?_, fun k u d u' hat => not_rejects_of_run h hptr hat⟩
  -- from the end of the run: the last acceptance is its last step, or one before it
  induction es using List.reverseRecOn generalizing s with
  | nil =>
    obtain rfl : ProxySocket.init f = s := by simpa [ProxySocket.run] using h
    cases hkey
  | append_singleton es e ih =>
    obtain ⟨t, ht, hstep⟩ := Runs.run_concat_iff.mp h
    have htrans := ProxySocket.trans_of_step hstep
    rcases htrans.key with ⟨acct, hacc, rfl, -⟩ | ⟨hno, hsame, hacct⟩
    · -- the last step is the acceptance
      refine ⟨es.length, t, e, s, Runs.stepAt_concat ht hstep, hacc, ?_⟩
      intro k u d u' other hk hat
      have := hat.lt_length
      rw [List.length_append, List.length_singleton] at this
      omega
    · obtain ⟨j, r, g, r', hat, hacc, hlast⟩ := ih ht (htrans.ptr_le hptr) (hsame ▸ hkey)
      rw [hacct hptr]
      refine ⟨j, r, g, r', hat.concat e, hacc, fun k u d u' other hk hat' => ?_⟩
      rcases hat'.of_concat with hat' | ⟨-, rfl, hu⟩
      · exact hlast k u d u' other hk hat'
      · obtain rfl := Option.some.inj (ht.symm.trans hu)
        exact hno other

/-- A connection that the reactor still has and that was never rejected has its pointer. -/
theorem ptr_of_run (h : ProxySocket.run sha hmac f es = some s)
    (hread : s.conn.readRegistered = true)
    (hnever : ∀ k u d u', ProxySocket.StepAt sha hmac f es k u d u' → ¬u.Rejects sha d) :
    s.conn.ptr = true := by
  by_contra hptr
  have hnull := Bool.eq_false_of_not_eq_true hptr
  obtain ⟨k, u, d, u', hat, hu, hu'⟩ :=
    Runs.exists_stepAt_of_run (H := fun s => s.conn.ptr = false) Bool.noConfusion h hnull
  rcases (trans_of_stepAt hat).rejects_of_ptr (Bool.eq_true_of_not_eq_false hu) hu' with hr | hgone
  · exact hnever k u d u' hat hr
  · have hopen : u'.conn.readRegistered = true :=
      Runs.run_backward (P := fun s => s.conn.readRegistered = true)
        (fun _ _ _ hstep => (ProxySocket.trans_of_step hstep).read_le) (hat.run_drop h) hread
    cases hgone.symm.trans hopen

/-- A connection that was accepted has a key. -/
theorem key_of_run (h : ProxySocket.run sha hmac f es = some s) {k : ℕ} {u u' : ProxySocket}
    {d : SocketEvent} {acct : Account} (hat : ProxySocket.StepAt sha hmac f es k u d u')
    (hacc : u.Accepts sha d acct) : s.conn.crypto.isInitialised = true := by
  have hkey : u'.conn.crypto.isInitialised = true := by
    rcases (trans_of_stepAt hat).key with ⟨-, -, -, hkey⟩ | ⟨hno, -⟩
    · exact hkey
    · exact absurd hacc (hno acct)
  have hkeep : ∀ r g r', r.conn.crypto.isInitialised = true →
      ProxySocket.step sha hmac r g = some r' → r'.conn.crypto.isInitialised = true := by
    intro r g r' hr hstep
    rcases (ProxySocket.trans_of_step hstep).key with ⟨-, -, -, hkey⟩ | ⟨-, hsame, -⟩
    · exact hkey
    · exact hsame.trans hr
  exact Runs.run_invariant (P := fun s => s.conn.crypto.isInitialised = true) hkeep hkey
    (hat.run_drop h)

/-- Where the database is reached, the reactor still has the socket. -/
theorem read_of_reaches (h : ProxySocket.StepAt sha hmac f es i s e s')
    (hreach : s.ReachesDatabase e) : s.conn.readRegistered = true := by
  cases trans_of_stepAt h with
  | event d _ htrans =>
    obtain ⟨pkt, hact, -⟩ := hreach
    exact (htrans.of_input hact).1
  | resume res _ h' hwaits =>
    have hinv : s.creation ≠ none → s.conn.readRegistered = true :=
      Runs.run_invariant (P := fun s => s.creation ≠ none → s.conn.readRegistered = true)
        (fun _ _ _ hr hstep => (ProxySocket.trans_of_step hstep).waits hr)
        (fun hwaits => absurd rfl hwaits) h.1
    exact hinv (hwaits ▸ Option.some_ne_none h')

/-- **When a connection works on the characters of the account it was accepted for.** A
step of a run works on characters only after an acceptance, for the account accepted
last and after no rejection, and no rejection changes the account, exactly when nothing
that reaches the database finds a connection without a key or without its pointer, be it
a packet or a handler that goes on, and no rejected row differs from the one that is
stored. -/
theorem characters_after_accept_iff (h : ProxySocket.StepAt sha hmac f es i s e s') :
    ((s.ActsOnCharacters e s' → ∃ acct, AcceptedLast sha hmac f (es.take i) acct ∧
        ActsFor acct.id s.conn s'.conn) ∧
      (s.Rejects sha e → s'.conn.acct = s.conn.acct)) ↔
    (s.ReachesDatabase e → s.conn.crypto.isInitialised = true ∧ s.conn.ptr = true) ∧
      (∀ d acct, e = .event d → d.Brings acct →
        ¬({ s.conn with acct } : Conn).Authentic sha d.env → acct = s.conn.acct) := by
  have htrans := trans_of_stepAt h
  constructor
  -- what acts was accepted, and that leaves a key and the pointer
  · rintro ⟨hacts, hrejects⟩
    refine ⟨fun hreach => ?_, ?_⟩
    · obtain ⟨acct, hlast, -⟩ := hacts (htrans.acts_iff.mpr hreach)
      obtain ⟨j, t, g, t', hat, hacc, -⟩ := hlast.accepted
      exact ⟨key_of_run h.1 hat hacc, ptr_of_run h.1 (read_of_reaches h hreach) hlast.never⟩
    · rintro d acct rfl hbrings hauth
      rw [← hrejects ⟨d, rfl, Or.inr ⟨acct, hbrings, hauth⟩⟩]
      cases htrans with
      | event _ _ hconn => exact (hconn.acct_of_rejected hbrings hauth).symm
  -- and with both the account is the accepted one
  · rintro ⟨hreach, hsame⟩
    refine ⟨fun hacts => ?_, ?_⟩
    · obtain ⟨hkey, hptr⟩ := hreach (htrans.acts_iff.mp hacts)
      obtain ⟨new, hadds, -⟩ := htrans.adds hacts.1
      exact ⟨s.conn.acct, acceptedLast_of_run h.1 hptr hkey, new, hadds.operations, hadds.isFor⟩
    · rintro ⟨d, rfl, hr⟩
      cases htrans with
      | event _ _ hconn => exact hconn.acct_of_rejects hr fun acct => hsame d acct rfl

end Runs

/-! ### A client that is known, and one that is not -/

namespace Sample

/-- Hashes that tell nothing apart. -/
def zeroSha : Sha1 := fun _ => Bytes.zero 20

def zeroHmac : Hmac := fun _ _ => Bytes.zero 20

def start : Start where
  seed := 0
  id := 0
  gmlevel := 0
  expansion := 0
  clientSeed := 0

/-- Surroundings without races, and a database without rows. -/
def env : Env where
  locale := { toupper := id, tolower := id, mbstowcs := fun _ => none }
  stackName := fun _ => 0
  chrRaces := fun _ => none
  chrClasses := fun _ => false
  objectMgr := .init
  stray := fun _ _ => { mapId := 0, zoneId := 0, positionX := 0, positionY := 0, positionZ := 0 }
  maxGuid := 1
  realmid := 1
  answer := fun _ => { engine := .mysql, numFields := 1, rows := [] }
  answer_fresh := fun _ => rfl
  heapKey := Bytes.zero 40

/-- `CMSG_AUTH_SESSION` of the account `A`, with a digest of zeros. -/
def authSession : ClientPkt where
  siz := 38
  opcode := ClientOpcode.cmsgAuthSession.code
  payload := List.replicate 8 0 ++ [65, 0] ++ List.replicate 24 0
  complete := rfl

/-- `CMSG_CHAR_ENUM`. -/
def charEnum : ClientPkt where
  siz := 4
  opcode := ClientOpcode.cmsgCharEnum.code
  payload := []
  complete := rfl

/-- The row of the account: its verifier is one, its salt and its password hash are
zero. -/
def account : ResultSet where
  engine := .mysql
  numFields := 7
  rows := [[.integer 4 7, .integer 1 0, .text [48], .text [48], .text [48, 49], .text [48],
    .integer 1 1]]

/-- A client that waits until it is accepted. -/
def events : List SocketEvent :=
  [.event ⟨env, .input authSession⟩, .event ⟨env, .answer .getAcctObsv account⟩,
    .event ⟨env, .input charEnum⟩]

/-- A client that does not. -/
theorem stepAt_charEnum (sha : Sha1) (hmac : Hmac) :
    ProxySocket.StepAt sha hmac start [.event ⟨env, .input charEnum⟩] 0 (.init start)
      (.event ⟨env, .input charEnum⟩) { conn := (Conn.init start).getChars, creation := none } :=
  ⟨rfl, rfl, rfl⟩

end Sample

/-- The client that waits is answered for its account. -/
theorem characters_after_accept_iff_sample : ∃ s s' acct,
    ProxySocket.StepAt Sample.zeroSha Sample.zeroHmac Sample.start Sample.events 2 s
      (.event ⟨Sample.env, .input Sample.charEnum⟩) s' ∧
    AcceptedLast Sample.zeroSha Sample.zeroHmac Sample.start (Sample.events.take 2) acct ∧
    ActsFor acct.id s.conn s'.conn := by
  have hsome : (ProxySocket.run Sample.zeroSha Sample.zeroHmac Sample.start
      (Sample.events.take 3)).isSome := by
    decide +kernel
  have hkey : ∀ d ∈ ProxySocket.run Sample.zeroSha Sample.zeroHmac Sample.start
      (Sample.events.take 2), d.conn.crypto.isInitialised = true ∧ d.conn.ptr = true := by
    decide +kernel
  obtain ⟨s, s', hat⟩ := Runs.exists_stepAt_of_isSome hsome rfl
  have hacts := (trans_of_stepAt hat).acts_iff.mpr
    ⟨Sample.charEnum, rfl, Or.inl ⟨rfl, (hkey s hat.1).2⟩⟩
  have hno : ∀ d acct, SocketEvent.event ⟨Sample.env, .input Sample.charEnum⟩ = .event d →
      ¬d.Brings acct := by
    rintro d acct hd ⟨res, hact, -⟩
    obtain rfl := SocketEvent.event.inj hd
    cases hact
  have hclaim := (characters_after_accept_iff hat).mpr
    ⟨fun _ => hkey s hat.1, fun d acct hd hbrings => absurd hbrings (hno d acct hd)⟩
  obtain ⟨acct, hlast, hfor⟩ := hclaim.1 hacts
  exact ⟨s, s', acct, hat, hlast, hfor⟩

/-- **The proxy works on characters for a client that has sent nothing else**, whatever
the hash functions are. -/
theorem acts_before_accept :
    ¬∃ sha hmac, ∀ f es i s e s', ProxySocket.StepAt sha hmac f es i s e s' →
      (s.ActsOnCharacters e s' → ∃ acct, AcceptedLast sha hmac f (es.take i) acct ∧
        ActsFor acct.id s.conn s'.conn) ∧
      (s.Rejects sha e → s'.conn.acct = s.conn.acct) := by
  rintro ⟨sha, hmac, hclaim⟩
  have hat := Sample.stepAt_charEnum sha hmac
  have hacts := (trans_of_stepAt hat).acts_iff.mpr ⟨Sample.charEnum, rfl, Or.inl ⟨rfl, rfl⟩⟩
  obtain ⟨acct, hlast, -⟩ := (hclaim _ _ _ _ _ _ hat).1 hacts
  obtain ⟨j, t, g, t', hat', -⟩ := hlast.accepted
  cases hat'.lt_length

end Morfeusz.Proxyd
