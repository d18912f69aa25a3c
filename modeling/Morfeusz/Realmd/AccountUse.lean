import Morfeusz.Realmd.Reconnect
import Morfeusz.Realmd.Verifiers

/-!
# The account is loaded before it is used

The account of a connection is filled in by `checkAcctObsv`, on the way to the logon
challenge. It is used in three places: the query for the character counts has its id,
`set_vs` its password hash, and the realm list of an expansion its level. None of them looks
whether it was ever filled in, and neither does the way a client that reconnects takes.

The first of the uses decides for all of them: the counts have to be queried before they are
there, and without them there is neither a list to build nor a second call of `set_vs`
(`Morfeusz.Realmd.account_in_time_iff`).
-/

namespace Morfeusz.Realmd

variable {sha : Sha1} {c c' : Conn} {e : Event} {res : ResultSet} {acct : Account}

/-! ### Loading an account -/

/-- The event brings `checkAcctObsv` a row of an account that is not banned. -/
def LoadsAccount (e : Event) (acct : Account) : Prop :=
  ∃ res, e.action = .answer .checkAcctObsv res ∧ res.rows ≠ [] ∧
    res.next.2.getUint8 5 = some 0 ∧ Conn.readAccount res.next.2 = some acct

/-- The request of `get_account`. -/
def accountRequest (login : List UInt8) : RealmdRequest :=
  { statement := .checkAcctBan, params := [addString 1 login] }

theorem LoadsAccount.unique {acct' : Account} (h : LoadsAccount e acct)
    (h' : LoadsAccount e acct') :
    acct = acct' := by
  obtain ⟨res, hact, -, -, hacct⟩ := h
  obtain ⟨res', hact', -, -, hacct'⟩ := h'
  obtain ⟨-, rfl⟩ := Action.answer.inj (hact.symm.trans hact')
  exact Option.some.inj (hacct.symm.trans hacct')

/-- **What the answer of `get_account` does to the account**: it is loaded, or stays and no
verifier is written. -/
theorem step_checkAcctObsv (h : step sha c e = some c')
    (hact : e.action = .answer .checkAcctObsv res) :
    (∃ acct, LoadsAccount e acct ∧ c'.acct = acct ∧
        c'.pending = (c.answered .checkAcctObsv).pending) ∨
      (∀ acct, ¬LoadsAccount e acct) ∧ c'.acct = c.acct ∧ c.Writes c' [] := by
  obtain ⟨⟨-, hfresh⟩, h⟩ := update_of_step h hact
  have hrows := ResultSet.rowsCount_next_eq_zero_iff hfresh
  rcases Conn.checkAcctObsv_some h with
    ⟨hnone, h⟩ | ⟨hsome, ⟨active, hactive, hbanned, h⟩ | ⟨acct, hactive, hacct, h⟩⟩
  · rw [← Option.some.inj h]
    refine Or.inr ⟨?_, rfl, Conn.writes_of_same rfl⟩
    rintro acct ⟨res', hact', hrows', -⟩
    obtain ⟨-, rfl⟩ := Action.answer.inj (hact.symm.trans hact')
    exact hrows' (hrows.mp hnone)
  · rw [← Option.some.inj h]
    refine Or.inr ⟨?_, rfl, Conn.writes_of_same rfl⟩
    rintro acct ⟨res', hact', -, hactive', -⟩
    obtain ⟨-, rfl⟩ := Action.answer.inj (hact.symm.trans hact')
    exact hbanned (Option.some.inj (hactive.symm.trans hactive'))
  · refine Or.inl ⟨acct, ⟨res, hact, mt hrows.mpr hsome, hactive, hacct⟩, ?_⟩
    rw [Conn.accountChecked] at h
    split at h
    · rw [← Option.some.inj h]
      exact ⟨rfl, rfl⟩
    · obtain ⟨I, reqs, pkt, -, -, -, rfl⟩ := Conn.startLogon_some h
      exact ⟨rfl, rfl⟩

theorem Conn.Counted.acct_eq (h : Conn.Counted sha c c') : c'.acct = c.acct := by
  cases h with
  | sent => rfl
  | dropped => rfl

/-- The answer of the counts leaves the account alone. -/
theorem acct_of_getCharAmntObsv (h : step sha c e = some c')
    (hact : e.action = .answer .getCharAmntObsv res) : c'.acct = c.acct := by
  obtain ⟨-, h⟩ := update_of_step h hact
  rw [Conn.update, Conn.getCharAmntObsv] at h
  obtain ⟨mid, hmid, h⟩ := Option.bind_eq_some_iff.mp h
  obtain ⟨amnt, -, h⟩ := Option.bind_eq_some_iff.mp h
  have hlast := (Conn.counted_of_getCharAmountAnswered h).acct_eq
  split at hmid
  · exact hlast.trans (Conn.counted_of_getCharAmountAnswered hmid).acct_eq
  · rw [← Option.some.inj hmid] at hlast
    exact hlast

/-! ### Where it stays -/

/-- The account of the row is there for good: nothing but the failed logins is counted on
it. -/
structure Conn.KeepsAccount (acct : Account) (c : Conn) : Prop where
  noLookup : c.lookups = 0
  busy : c.state ≠ .connected
  acct_eq : ∃ failed, c.acct = { acct with failedLogins := failed }

theorem Trans.keeps (h : Trans sha c e c') (hk : c.KeepsAccount acct) : c'.KeepsAccount acct := by
  refine ⟨?_, (h.sameClient hk.busy).1, ?_⟩
  · have := h.lookups_le hk.busy
    have := hk.noLookup
    omega
  · cases h with
    | accountLocked res _ _ hpending | challengeSent res _ _ _ _ _ hpending =>
      exact absurd (Conn.lookups_pos hpending rfl) (by rw [hk.noLookup]; exact lt_irrefl 0)
    | proofFailed raw failed =>
      obtain ⟨failed', hacct⟩ := hk.acct_eq
      exact ⟨failed, congrArg (fun a : Account => { a with failedLogins := failed }) hacct⟩
    | charsCounted res mid _ _ _ hmid hlast =>
      exact Conn.counted_induction (P := fun d => ∃ failed, d.acct =
        { acct with failedLogins := failed }) hmid hlast hk.acct_eq fun _ _ hd h => hd.acct_eq ▸ h
    | _ => exact hk.acct_eq

/-- **Loading the account leaves it there.** -/
theorem keeps_of_loadsAccount (hi : Inv sha c) (h : step sha c e = some c')
    (hload : LoadsAccount e acct) : c'.KeepsAccount acct := by
  obtain ⟨res, hact, -⟩ := id hload
  obtain ⟨⟨hpending, -⟩, -⟩ := update_of_step h hact
  rcases step_checkAcctObsv h hact with ⟨acct', hload', hacct, hafter⟩ | ⟨hno, -⟩
  · obtain rfl := hload.unique hload'
    refine ⟨?_, ((trans_of_step h).sameClient (hi.busy_of_pending hpending)).1,
      acct.failedLogins, hacct⟩
    rw [Conn.lookups, hafter]
    exact hi.lookups_answered_eq_zero hpending rfl
  · exact absurd hload (hno acct)

/-! ### The query of the account -/

/-- The outstanding query is for the name of the connection. -/
def Conn.AsksItsAccount (c : Conn) : Prop :=
  .checkAcctObsv ∈ c.pending → accountRequest c.login ∈ c.requests

theorem mem_requests_of_step {op : RealmdRequest} (h : step sha c e = some c')
    (hop : op ∈ c.requests) : op ∈ c'.requests := by
  obtain ⟨n, ⟨new, hnew, -⟩, -⟩ := writes_of_step h
  rw [hnew]
  exact List.mem_append_left new hop

theorem asksItsAccount_of_step (hi : Inv sha c) (ha : c.AsksItsAccount)
    (h : step sha c e = some c') : c'.AsksItsAccount := by
  intro hmem
  by_cases hbefore : .checkAcctObsv ∈ c.pending
  -- the query was there already, and the name is still the same
  · have hlogin := ((trans_of_step h).sameClient (hi.busy_of_pending hbefore)).2.1
    rw [hlogin]
    exact mem_requests_of_step h (ha hbefore)
  · cases trans_of_step h with
    | ipFree =>
      -- it is made along with the request
      rw [Conn.getAccount, Conn.ask] at hmem ⊢
      dsimp only at hmem ⊢
      split at hmem
      · next hptr =>
        rw [if_pos hptr]
        exact List.mem_append_right _ (List.mem_singleton_self _)
      · exact absurd (List.mem_of_mem_erase hmem) hbefore
    | challengeTaken => exact absurd (Conn.mem_of_checkIpBan (by decide) hmem) hbefore
    | reconnectTaken => exact absurd (Conn.mem_of_getSessionkey (by decide) hmem) hbefore
    | realmListAsked => exact absurd (Conn.mem_of_ask (by decide) hmem) hbefore
    | ipBanned | accountRefused | accountLocked | challengeSent | sessionkeyFound
    | sessionkeyMissing | sessionkeyThrown =>
      exact absurd (List.mem_of_mem_erase hmem) hbefore
    | charsCounted res mid _ _ _ hmid hlast =>
      refine absurd (Conn.counted_induction (P := fun d => .checkAcctObsv ∈ d.pending →
        .checkAcctObsv ∈ c.pending) hmid hlast List.mem_of_mem_erase ?_ hmem) hbefore
      intro d d' hd hP
      rwa [hd.pending_eq]
    | died | challengeRefused | proofPassed | proofUnsupported | proofFailed | reconnectPassed
    | realmListSent | output => exact absurd hmem hbefore

/-! ### The query of the character counts -/

/-- The packet that has the counts queried: a request for the realm list, let through with
none there. -/
def QueriesCharAmount (c : Conn) (e : Event) : Prop :=
  ∃ raw, e.action = .input raw ∧ raw.cmd = EAuthCmd.realmList.code ∧ c.state = .authed ∧
    c.realmCharAmount = []

/-- A request for the realm list keeps the counts and asks for none, unless it is that
packet. -/
theorem handleRealmList_cases {raw : Received} (h : step sha c e = some c')
    (hact : e.action = .input raw) (hcmd : EAuthCmd.ofByte? raw.cmd = some .realmList)
    (hstate : c.state = .authed) : QueriesCharAmount c e ∧ c' = c.getCharAmount ∨
      c.realmCharAmount ≠ [] ∧ c'.pending = c.pending := by
  have h := handleInput_of_step h hact
  rw [Conn.handleInput, if_neg (by simp [hstate]), hcmd] at h
  dsimp only at h
  rw [Conn.handleRealmList, if_neg (not_not.mpr hstate)] at h
  split at h
  · next hamnt =>
    obtain ⟨⟨c₁, sent⟩, h₁, rfl⟩ := Option.map_eq_some_iff.mp h
    rcases Conn.sendRealmList_some h₁ with ⟨-, amnt, pkt, -, rfl⟩ | ⟨-, rfl⟩
    · exact Or.inr ⟨hamnt, rfl⟩
    · exact Or.inr ⟨hamnt, rfl⟩
  · next hamnt =>
    exact Or.inl ⟨⟨raw, hact, EAuthCmd.code_of_ofByte? hcmd, hstate, not_not.mp hamnt⟩,
      (Option.some.inj h).symm⟩

/-- The counts are queried by that packet alone. -/
theorem queriesCharAmount_of_step (h : step sha c e = some c') (hc : .getCharAmntObsv ∉ c.pending)
    (hc' : .getCharAmntObsv ∈ c'.pending) : QueriesCharAmount c e := by
  have hsame : c'.pending = c.pending → QueriesCharAmount c e := fun heq =>
    absurd (heq ▸ hc') hc
  cases trans_of_step h with
  | realmListSent raw _ _ hact hcmd hstate | realmListAsked raw hact hcmd hstate =>
    rcases handleRealmList_cases h hact hcmd hstate with ⟨hquery, -⟩ | ⟨-, heq⟩
    · exact hquery
    · exact hsame heq
  | challengeTaken => exact absurd (Conn.mem_of_checkIpBan (by decide) hc') hc
  | reconnectTaken => exact absurd (Conn.mem_of_getSessionkey (by decide) hc') hc
  | ipFree => exact absurd (List.mem_of_mem_erase (Conn.mem_of_getAccount (by decide) hc')) hc
  | ipBanned | accountRefused | accountLocked | challengeSent | sessionkeyFound
  | sessionkeyMissing | sessionkeyThrown => exact absurd (List.mem_of_mem_erase hc') hc
  | charsCounted res mid _ _ hpending => exact absurd hpending hc
  | died | challengeRefused | proofPassed | proofUnsupported | proofFailed | reconnectPassed
  | output => exact hsame rfl

/-- The counts come with the answer of that query. -/
theorem pending_of_charAmount (h : step sha c e = some c') (hc : c.realmCharAmount = [])
    (hc' : c'.realmCharAmount ≠ []) : .getCharAmntObsv ∈ c.pending := by
  cases trans_of_step h with
  | charsCounted res mid _ _ hpending => exact hpending
  | realmListSent raw _ _ hact hcmd hstate =>
    rcases handleRealmList_cases h hact hcmd hstate with ⟨-, heq⟩ | ⟨hne, -⟩
    · have hamnt : ({ c with realmCharAmount := _ }.send _).realmCharAmount = _ :=
        congrArg Conn.realmCharAmount heq
      exact absurd (hamnt.trans hc) hc'
    · exact absurd hc hne
  | _ => exact absurd hc hc'

/-! ### Runs -/

/-- Step `i` of the run of `es` finds the connection `c` and the event `e`, whether the
daemon survives it or not. -/
def At (sha : Sha1) (f : Start) (es : List Event) (i : ℕ) (c : Conn) (e : Event) : Prop :=
  run sha f (es.take i) = some c ∧ es[i]? = some e

/-- What uses the account of a connection. -/
inductive UsesAccount (c : Conn) (e : Event) : Prop
  /-- `get_char_amount` queries the counts for its id. -/
  | queried (hquery : QueriesCharAmount c e)
  /-- `build_expansion_realm_packet` reads its level, for a list that is asked for again. -/
  | listed (raw : Received) (build : SupportedClientBuilds) (hact : e.action = .input raw)
      (hcmd : raw.cmd = EAuthCmd.realmList.code) (hstate : c.state = .authed)
      (hamnt : c.realmCharAmount ≠ [])
      (hbuild : SupportedClientBuilds.ofNumber? c.clientBuild = some build)
      (hexpansion : build ≠ .build112)
  /-- The counts have arrived: the list is built, and `set_vs` reads the hash. -/
  | counted (res : ResultSet) (hact : e.action = .answer .getCharAmntObsv res)
      (hpending : .getCharAmntObsv ∈ c.pending)
      (hbuild : isSupportedClientBuild c.clientBuild = true)
  /-- The account has arrived, and is not locked: `set_vs` reads its hash. -/
  | challenged (acct : Account) (hload : LoadsAccount e acct)
    (hpending : .checkAcctObsv ∈ c.pending)
      (hfree : ¬(acct.locked = true ∧ c.ip ≠ acct.lastIp))

/-- The account `checkAcctObsv` has filled in, on this connection and for its name, by the
time the event of step `i` is handled: by that event, or by an earlier one whose account is
still there. -/
def AccountFor (sha : Sha1) (f : Start) (es : List Event) (i : ℕ) (c : Conn) (e : Event)
    (acct : Account) : Prop :=
  accountRequest c.login ∈ c.requests ∧ (LoadsAccount e acct ∨
    (∃ failed, c.acct = { acct with failedLogins := failed }) ∧
      ∃ j t g t', j < i ∧ StepAt sha f es j t g t' ∧ LoadsAccount g acct ∧ t.login = c.login)

/-- **What should hold of a run**: whatever uses the account finds it filled in, and what is
stored of a verifier is the verifier of its password hash. -/
structure AccountInTime (sha : Sha1) (f : Start) (es : List Event) : Prop where
  used : ∀ i c e, At sha f es i c e → UsesAccount c e → ∃ acct, AccountFor sha f es i c e acct
  stored : ∀ i c e c' new op, StepAt sha f es i c e c' → c'.requests = c.requests ++ new →
    op ∈ new → op.statement = .setSV → ∃ acct I v, AccountFor sha f es i c e acct ∧
      bnHex2bn (cStr acct.shaPass) = some I ∧ v.val = 7 ^ exponentX sha c.s I % primeN ∧
      op = setRequest c.login c.s v

/-- The counts are queried after the account was loaded. -/
def QueriedInTime (sha : Sha1) (f : Start) (es : List Event) : Prop :=
  ∀ i c e, At sha f es i c e → QueriesCharAmount c e →
    ∃ j g acct, j < i ∧ es[j]? = some g ∧ LoadsAccount g acct

section Runs

variable {f : Start} {es : List Event} {i j : ℕ} {t t' : Conn} {g : Event}

theorem asksItsAccount_of_run (h : run sha f es = some c) : c.AsksItsAccount := by
  have hboth : Inv sha c ∧ c.AsksItsAccount := by
    refine Runs.run_invariant (P := fun c => Inv sha c ∧ c.AsksItsAccount) ?_ ⟨inv_init f, nofun⟩ h
    exact fun d g d' hd hs => ⟨hd.1.of_step hs, asksItsAccount_of_step hd.1 hd.2 hs⟩
  exact hboth.2

/-- **A loaded account is there from then on.** -/
theorem accountFor_of_loadsAccount (h : At sha f es i c e) (hji : j < i) (hg : es[j]? = some g)
    (hload : LoadsAccount g acct) : AccountFor sha f es i c e acct := by
  obtain ⟨t, t', hat⟩ := Runs.exists_stepAt_of_lt h.1 hji hg
  obtain ⟨es', hrun⟩ := hat.run_to hji h.1
  have hkeeps := keeps_of_loadsAccount (inv_of_stepAt hat) hat.2.2 hload
  obtain ⟨res, hact, -⟩ := id hload
  obtain ⟨⟨hpending, -⟩, -⟩ := update_of_step hat.2.2 hact
  -- the name is that of the query
  have hbusy := (inv_of_stepAt hat).busy_of_pending hpending
  have hlogin : t.login = c.login := by
    rw [(sameClient_of_run hrun hkeeps.busy).2.1, ((trans_of_stepAt hat).sameClient hbusy).2.1]
  have hrequest : accountRequest t.login ∈ c.requests :=
    Runs.run_invariant (P := fun d : Conn => accountRequest t.login ∈ d.requests)
      (fun _ _ _ hd hs => mem_requests_of_step hs hd)
      (mem_requests_of_step hat.2.2 (asksItsAccount_of_run hat.1 hpending)) hrun
  have hkept : c.KeepsAccount acct :=
    Runs.run_invariant (fun _ _ _ hd hs => (trans_of_step hs).keeps hd) hkeeps hrun
  refine ⟨hlogin ▸ hrequest, Or.inr ⟨hkept.acct_eq, j, t, g, t', hji, hat, hload, hlogin⟩⟩

/-- An outstanding query for the counts has the account loaded before it. -/
theorem accountFor_of_pending (hin : QueriedInTime sha f es) (h : At sha f es i c e)
    (hpending : .getCharAmntObsv ∈ c.pending) : ∃ acct, AccountFor sha f es i c e acct := by
  obtain ⟨j, t, d, t', hji, hat, ht, ht'⟩ := Runs.exists_earlier_of_run
    (H := fun c : Conn => .getCharAmntObsv ∈ c.pending) h.1 List.not_mem_nil hpending
  obtain ⟨k, g, acct, hkj, hg, hload⟩ :=
    hin j t d ⟨hat.1, hat.2.1⟩ (queriesCharAmount_of_step hat.2.2 ht ht')
  exact ⟨acct, accountFor_of_loadsAccount h (hkj.trans hji) hg hload⟩

/-- So do the counts. -/
theorem accountFor_of_charAmount (hin : QueriedInTime sha f es) (h : At sha f es i c e)
    (hamnt : c.realmCharAmount ≠ []) : ∃ acct, AccountFor sha f es i c e acct := by
  obtain ⟨j, t, d, t', hji, hat, ht, ht'⟩ := Runs.exists_earlier_of_run
    (H := fun c : Conn => c.realmCharAmount ≠ []) h.1 (not_not.mpr rfl) hamnt
  have hpending := pending_of_charAmount hat.2.2 (not_not.mp ht) ht'
  obtain ⟨acct, -, hload | ⟨-, k, u, g, u', hkj, hatk, hload, -⟩⟩ :=
    accountFor_of_pending hin ⟨hat.1, hat.2.1⟩ hpending
  · exact ⟨acct, accountFor_of_loadsAccount h hji hat.2.1 hload⟩
  · exact ⟨acct, accountFor_of_loadsAccount h (hkj.trans hji) hatk.2.1 hload⟩

theorem used_of_queriedInTime (hin : QueriedInTime sha f es) (h : At sha f es i c e)
    (huse : UsesAccount c e) : ∃ acct, AccountFor sha f es i c e acct := by
  cases huse with
  | queried hquery =>
    obtain ⟨j, g, acct, hji, hg, hload⟩ := hin i c e h hquery
    exact ⟨acct, accountFor_of_loadsAccount h hji hg hload⟩
  | listed raw build hact hcmd hstate hamnt => exact accountFor_of_charAmount hin h hamnt
  | counted res hact hpending => exact accountFor_of_pending hin h hpending
  | challenged acct hload hpending =>
    exact ⟨acct, asksItsAccount_of_run h.1 hpending, Or.inl hload⟩

/-- What is stored has the verifier the step leaves behind. -/
theorem stored_of_step {new : List RealmdRequest} {op : RealmdRequest} (h : step sha c e = some c')
    (hnew : c'.requests = c.requests ++ new) (hop : op ∈ new) (hset : op.statement = .setSV) :
    c'.Verified sha ∧ op = setRequest c'.login c'.s c'.v := by
  obtain ⟨n, hwrites, hverified⟩ := writes_of_step h
  have hmem := hwrites.mem hnew hop (by rw [hset]; rfl)
  obtain ⟨hn, heq⟩ := mem_repeatedRequests hmem hset
  exact ⟨hverified hn, heq⟩

/-- **Every verifier that is stored is that of a loaded account.** -/
theorem stored_of_queriedInTime (hin : QueriedInTime sha f es) {new : List RealmdRequest}
    {op : RealmdRequest} (h : StepAt sha f es i c e c') (hnew : c'.requests = c.requests ++ new)
    (hop : op ∈ new) (hset : op.statement = .setSV) :
    ∃ acct I v, AccountFor sha f es i c e acct ∧ bnHex2bn (cStr acct.shaPass) = some I ∧
      v.val = 7 ^ exponentX sha c.s I % primeN ∧ op = setRequest c.login c.s v := by
  obtain ⟨⟨I, hI, hv⟩, heq⟩ := stored_of_step h.2.2 hnew hop hset
  have htrans := trans_of_stepAt h
  have hs := htrans.sameSetup.2.1
  -- only two answers store anything, and both are for a connection that was waiting
  have hdone : ∀ acct, AccountFor sha f es i c e acct → c'.acct.shaPass = acct.shaPass →
      c.state ≠ .connected → ∃ acct I v, AccountFor sha f es i c e acct ∧
        bnHex2bn (cStr acct.shaPass) = some I ∧ v.val = 7 ^ exponentX sha c.s I % primeN ∧
        op = setRequest c.login c.s v := by
    intro acct hacct hpass hbusy
    rw [(htrans.sameClient hbusy).2.1, hs] at heq
    refine ⟨acct, I, c'.v, hacct, hpass ▸ hI, ?_, heq⟩
    rw [hv, hs]
    exact val_residueExp _ _
  by_cases hcheck : ∃ res, e.action = .answer .checkAcctObsv res
  · obtain ⟨res, hact⟩ := hcheck
    obtain ⟨⟨hpending, -⟩, -⟩ := update_of_step h.2.2 hact
    rcases step_checkAcctObsv h.2.2 hact with ⟨acct, hload, hacct, -⟩ | ⟨-, -, hwrites⟩
    · exact hdone acct ⟨asksItsAccount_of_run h.1 hpending, Or.inl hload⟩ (by rw [hacct])
        ((inv_of_stepAt h).busy_of_pending hpending)
    · exact absurd (hwrites.mem hnew hop (by rw [hset]; rfl)) List.not_mem_nil
  by_cases hchars : ∃ res, e.action = .answer .getCharAmntObsv res
  · obtain ⟨res, hact⟩ := hchars
    obtain ⟨⟨hpending, -⟩, -⟩ := update_of_step h.2.2 hact
    obtain ⟨acct, hacct⟩ := accountFor_of_pending hin ⟨h.1, h.2.1⟩ hpending
    refine hdone acct hacct ?_ ((inv_of_stepAt h).busy_of_pending hpending)
    rw [acct_of_getCharAmntObsv h.2.2 hact]
    obtain ⟨-, ⟨res', hact', -⟩ | ⟨⟨failed, heq'⟩, -⟩⟩ := hacct
    · exact absurd (hact.symm.trans hact') (by simp)
    · rw [heq']
  · have hwrites := writes_nil_of_step h.2.2 (not_exists.mp hcheck) (not_exists.mp hchars)
    exact absurd (hwrites.mem hnew hop (by rw [hset]; rfl)) List.not_mem_nil

end Runs

/-- **When the account is loaded before it is used.** In every run the account is filled in
wherever it is used, and every verifier that is stored is its own, if and only if every
request for the realm list that has the character counts queried comes after the row of the
account. -/
theorem account_in_time_iff (sha : Sha1) (f : Start) (es : List Event) :
    AccountInTime sha f es ↔ QueriedInTime sha f es := by
  constructor
  · intro hin i c e h hquery
    obtain ⟨acct, -, hload | ⟨-, j, t, g, t', hji, hat, hload, -⟩⟩ :=
      hin.used i c e h (.queried hquery)
    · obtain ⟨raw, hact, -⟩ := hquery
      obtain ⟨res, hact', -⟩ := hload
      exact absurd (hact.symm.trans hact') nofun
    · exact ⟨j, g, acct, hji, hat.2.1, hload⟩
  · intro hin
    refine ⟨fun i c e h huse => used_of_queriedInTime hin h huse, ?_⟩
    intro i c e c' new op h hnew hop hset
    exact stored_of_queriedInTime hin h hnew hop hset

/-! ### A connection without an account -/

/-- A client that proves that it has no key, and asks for the realm list. -/
def Sample.unloadedEvents : List Event :=
  keylessEvents zeroSha ++ [⟨Sample.env, .input Client.realmList⟩]

/-- **A client that reconnects has its characters counted for an account that was never
loaded.** -/
theorem not_accountInTime_unloaded :
    ¬AccountInTime Sample.zeroSha Sample.start Sample.unloadedEvents := by
  intro hin
  obtain ⟨c, hat, raw, -, -, hauthed⟩ := Sample.exists_stepAt_keyless Sample.zeroSha
  have hcounts : ∀ d ∈ run Sample.zeroSha Sample.start (Sample.keylessEvents Sample.zeroSha),
      d.realmCharAmount = [] := by
    decide +kernel
  have h : At Sample.zeroSha Sample.start Sample.unloadedEvents 2 c
      ⟨Sample.env, .input Client.realmList⟩ := ⟨hat.run_succ, rfl⟩
  have huse : UsesAccount c ⟨Sample.env, .input Client.realmList⟩ :=
    .queried ⟨Client.realmList, rfl, rfl, hauthed, hcounts c hat.run_succ⟩
  obtain ⟨acct, -, ⟨res, hact, -⟩ | ⟨-, j, t, g, t', hj, hat', ⟨res, hact, -⟩, -⟩⟩ :=
    hin.used 2 c _ h huse
  · cases hact
  -- the two events before are packets
  · obtain rfl | rfl : j = 0 ∨ j = 1 := by omega
    · obtain rfl := Option.some.inj hat'.2.1
      cases hact
    · obtain rfl := Option.some.inj hat'.2.1
      cases hact

end Morfeusz.Realmd
