import Morfeusz.Realmd.Admission

/-!
# The requests of a verifier

`set_vs` queues two requests for the name of the connection: `fix_sv`, which empties the
salt and the verifier of the account, and `set_sv`, which stores new ones. No other handler
queues either. So what a step queues of this kind are the pairs of its calls of `set_vs`, all
with the verifier the step leaves behind (`Morfeusz.Realmd.writes_of_step`).
-/

namespace Morfeusz.Realmd

variable {sha : Sha1} {c c' : Conn} {e : Event} {res : ResultSet} {writes : List RealmdRequest}

/-- The statements that write the salt and the verifier of an account. -/
def RealmdDatabaseStatements.writesVerifier : RealmdDatabaseStatements → Bool
  | setSV | fixSV => true
  | _ => false

/-- The request of `fix_sv`. -/
def fixRequest (login : List UInt8) : RealmdRequest :=
  { statement := .fixSV, params := [addString 1 login], priority := .high }

/-- The request of `set_sv`, with the salt and the verifier as `set_vs` hands them over. -/
def setRequest (login : List UInt8) (s : Salt) (v : Residue) : RealmdRequest :=
  { statement := .setSV
    params := [addString 1 (bnBn2hex v.val), addString 2 (bnBn2hex s.val), addString 3 login] }

/-- The two requests of a call of `set_vs`. -/
def verifierRequests (login : List UInt8) (s : Salt) (v : Residue) : List RealmdRequest :=
  [fixRequest login, setRequest login s v]

/-- The requests of a number of such calls. -/
def repeatedRequests (n : ℕ) (c : Conn) : List RealmdRequest :=
  (List.replicate n (verifierRequests c.login c.s c.v)).flatten

/-- What is stored among them has the salt and the verifier of the connection. -/
theorem mem_repeatedRequests {n : ℕ} {op : RealmdRequest} (h : op ∈ repeatedRequests n c)
    (hset : op.statement = .setSV) : n ≠ 0 ∧ op = setRequest c.login c.s c.v := by
  obtain ⟨pair, hpair, hop⟩ := List.mem_flatten.mp h
  obtain ⟨hn, rfl⟩ := List.mem_replicate.mp hpair
  rw [verifierRequests, List.mem_pair] at hop
  rcases hop with rfl | rfl
  · cases hset
  · exact ⟨hn, rfl⟩

namespace Conn

/-- Requests were queued, and these are the ones among them that write a verifier. -/
def Writes (c c' : Conn) (writes : List RealmdRequest) : Prop :=
  ∃ new, c'.requests = c.requests ++ new ∧
    new.filter (fun op => op.statement.writesVerifier) = writes

/-- The verifier is that of the account. -/
def Verified (sha : Sha1) (c : Conn) : Prop :=
  ∃ I, bnHex2bn (cStr c.acct.shaPass) = some I ∧ c.v = verifierV sha c.s I

/-! ### The parts of the handlers -/

theorem writes_of_same (h : c'.requests = c.requests) : c.Writes c' [] :=
  ⟨[], by rw [h, List.append_nil], rfl⟩

/-- A handler that is done, and has queued nothing. -/
theorem writes_of_some {d : Conn} (h : some d = some c') (hreq : d.requests = c.requests) :
    c.Writes c' [] := by
  rw [← Option.some.inj h]
  exact writes_of_same hreq

theorem writes_of_one {op : RealmdRequest} (h : c'.requests = c.requests ++ [op])
    (hop : op.statement.writesVerifier = false) : c.Writes c' [] :=
  ⟨[op], h, by simp [hop]⟩

theorem Writes.trans {c'' : Conn} {writes' : List RealmdRequest} (h : c.Writes c' writes)
    (h' : c'.Writes c'' writes') : c.Writes c'' (writes ++ writes') := by
  obtain ⟨new, hnew, rfl⟩ := h
  obtain ⟨new', hnew', rfl⟩ := h'
  exact ⟨new ++ new', by rw [hnew', hnew, List.append_assoc], List.filter_append _ _⟩

theorem Writes.mem {new : List RealmdRequest} {op : RealmdRequest} (h : c.Writes c' writes)
    (hnew : c'.requests = c.requests ++ new) (hop : op ∈ new)
    (hwrites : op.statement.writesVerifier = true) : op ∈ writes := by
  obtain ⟨new', hnew', rfl⟩ := h
  obtain rfl := List.append_cancel_left (hnew.symm.trans hnew')
  exact List.mem_filter.mpr ⟨hop, hwrites⟩

/-- A query is no such request, whether it is made or not. -/
theorem writes_ask {obs : Observer} {op : RealmdRequest}
    (hop : op.statement.writesVerifier = false) : c.Writes (c.ask obs op) [] := by
  cases hptr : c.ptr with
  | true => exact writes_of_one (by simp [ask, hptr]) hop
  | false => exact writes_of_same (by simp [ask, hptr])

theorem writes_checkIpBan (c : Conn) : c.Writes c.checkIpBan [] := writes_ask rfl

theorem writes_getAccount (c : Conn) : c.Writes c.getAccount [] := writes_ask rfl

theorem writes_getSessionkey (c : Conn) : c.Writes c.getSessionkey [] := writes_ask rfl

/-- `set_vs` queues its two requests, and nothing else changes but the verifier. -/
theorem setVs_eq_of_some (h : c.setVs sha = some c') :
    ∃ I, bnHex2bn (cStr c.acct.shaPass) = some I ∧
    c' = { c with
      v := verifierV sha c.s I
      requests := c.requests ++ verifierRequests c.login c.s (verifierV sha c.s I) } := by
  rw [setVs] at h
  obtain ⟨I, hI, h⟩ := Option.bind_eq_some_iff.mp h
  refine ⟨I, hI, ?_⟩
  split at h
  · rw [← Option.some.inj h]
    simp [fixSV, setSV, enqueue, verifierRequests, fixRequest, setRequest]
  · cases h

/-- A logon that gets to its challenge has queued them. -/
theorem requests_of_startLogon {b nonce : ℕ} (h : c.startLogon sha b nonce = some c') :
    ∃ v, c'.requests = c.requests ++ verifierRequests c.login c.s v := by
  rw [startLogon] at h
  obtain ⟨d, hd, h⟩ := Option.bind_eq_some_iff.mp h
  obtain ⟨pkt, -, h⟩ := Option.bind_eq_some_iff.mp h
  obtain ⟨I, -, rfl⟩ := setVs_eq_of_some hd
  rw [← Option.some.inj h]
  exact ⟨_, rfl⟩

theorem filter_verifierRequests (login : List UInt8) (s : Salt) (v : Residue) :
    (verifierRequests login s v).filter (fun op => op.statement.writesVerifier) =
      verifierRequests login s v := rfl

theorem writes_countFailedLogin (env : Env) (c : Conn) : c.Writes (c.countFailedLogin env) [] := by
  rw [countFailedLogin]
  dsimp only
  split
  · have hfailed : c.Writes ({ c with
        acct := { c.acct with
          failedLogins := c.acct.failedLogins + 1 } }).incrementFailedLogins [] :=
      writes_of_one rfl rfl
    split
    · split
      · exact hfailed.trans (writes_of_one rfl rfl)
      · exact hfailed.trans (writes_of_one rfl rfl)
    · exact hfailed
  · exact writes_of_same rfl

/-- A logon proof writes no verifier. -/
theorem writes_handleAuthLogonProof {env : Env} {raw : Received}
    (h : c.handleAuthLogonProof sha env raw = some c') : c.Writes c' [] := by
  rw [handleAuthLogonProof] at h
  dsimp only at h
  split at h
  · exact writes_of_some h rfl
  · split at h
    · split at h
      · obtain ⟨data, -, h⟩ := Option.bind_eq_some_iff.mp h
        rw [← Option.some.inj h]
        exact writes_of_one rfl rfl
      · rw [← Option.some.inj h]
        exact writes_of_one rfl rfl
    · rw [handleFailedLogin, accountChecked] at h
      rw [← Option.some.inj h]
      exact (writes_countFailedLogin env c).trans (writes_of_same rfl)

/-- No packet writes one. -/
theorem writes_handleInput {env : Env} {raw : Received}
    (h : c.handleInput sha env raw = some c') : c.Writes c' [] := by
  rw [handleInput] at h
  split at h
  · exact writes_of_some h rfl
  · split at h
    · rw [← Option.some.inj h, handleAuthLogonChallenge]
      dsimp only
      split_ifs
      · exact writes_of_same rfl
      · exact writes_checkIpBan { c with
          login := c.login ++ raw.i.take raw.iLen.toNat, clientBuild := raw.build }
      · exact writes_of_same rfl
    · exact writes_handleAuthLogonProof h
    · rw [← Option.some.inj h, handleAuthReconnectChallenge]
      split
      · exact writes_of_same rfl
      · exact writes_getSessionkey { c with clientBuild := raw.build, login := cStr raw.i }
    · rw [handleAuthReconnectProof] at h
      split at h
      · exact writes_of_some h rfl
      · obtain ⟨hash, -, h⟩ := Option.bind_eq_some_iff.mp h
        split at h
        · exact writes_of_some h rfl
        · exact writes_of_some h rfl
    · rw [handleRealmList] at h
      split at h
      · exact writes_of_some h rfl
      · split at h
        · obtain ⟨⟨c₁, sent⟩, h₁, rfl⟩ := Option.map_eq_some_iff.mp h
          rcases sendRealmList_some h₁ with ⟨-, amnt, pkt, -, rfl⟩ | ⟨-, rfl⟩
          · exact writes_of_same rfl
          · exact writes_of_same rfl
        · rw [← Option.some.inj h]
          exact writes_ask rfl
    · exact writes_of_some h rfl

/-- What one call of `set_vs` at most leaves behind. -/
structure Stores (sha : Sha1) (n : ℕ) (c c' : Conn) : Prop where
  writes : c.Writes c' (repeatedRequests n c')
  verified : n ≠ 0 → c'.Verified sha

theorem Stores.of_requests {d : Conn} {n : ℕ} (h : d.Stores sha n c')
    (hreq : d.requests = c.requests) : c.Stores sha n c' := by
  obtain ⟨⟨new, hnew, hwrites⟩, hverified⟩ := h
  exact ⟨⟨new, by rw [hnew, hreq], hwrites⟩, hverified⟩

theorem stores_of_writes (h : c.Writes c' []) : c.Stores sha 0 c' := ⟨h, fun h => absurd rfl h⟩

theorem stores_accountChecked {env : Env} {state : AccountState}
    (h : c.accountChecked sha env state = some c') : ∃ n, c.Stores sha n c' := by
  cases state with
  | accountBanned | accountNotfound =>
    rw [accountChecked] at h
    exact ⟨0, stores_of_writes (writes_of_some h rfl)⟩
  | accountExists =>
    rw [accountChecked] at h
    split at h
    · exact ⟨0, stores_of_writes (writes_of_some h rfl)⟩
    · rw [startLogon] at h
      obtain ⟨d, hd, h⟩ := Option.bind_eq_some_iff.mp h
      obtain ⟨pkt, -, h⟩ := Option.bind_eq_some_iff.mp h
      obtain ⟨I, hI, rfl⟩ := setVs_eq_of_some hd
      rw [← Option.some.inj h]
      refine ⟨1, ⟨⟨_, rfl, ?_⟩, fun _ => ⟨I, hI, rfl⟩⟩⟩
      rw [filter_verifierRequests, repeatedRequests, List.replicate_one, List.flatten_singleton]
      rfl

theorem stores_getCharAmountAnswered {env : Env} {amnt : List (UInt8 × UInt8)}
    (h : c.getCharAmountAnswered sha env amnt = some c') : ∃ n, c.Stores sha n c' ∧
      c'.login = c.login ∧ c'.s = c.s ∧ c'.acct = c.acct ∧ (c.Verified sha → c'.v = c.v) := by
  rw [getCharAmountAnswered] at h
  obtain ⟨⟨c₁, sent⟩, h₁, h⟩ := Option.bind_eq_some_iff.mp h
  rcases sendRealmList_some h₁ with ⟨rfl, amnt', pkt, -, rfl⟩ | ⟨rfl, rfl⟩
  · obtain ⟨I, hI, rfl⟩ := setVs_eq_of_some h
    refine ⟨1, ⟨⟨_, rfl, ?_⟩, fun _ => ⟨I, hI, rfl⟩⟩, rfl, rfl, rfl, ?_⟩
    · rw [filter_verifierRequests, repeatedRequests, List.replicate_one, List.flatten_singleton]
    · rintro ⟨I', hI', hv'⟩
      obtain rfl := Option.some.inj (hI.symm.trans hI')
      exact hv'.symm
  · rw [← Option.some.inj h]
    exact ⟨0, stores_of_writes (writes_of_same rfl), rfl, rfl, rfl, fun _ => rfl⟩

theorem repeatedRequests_add (m n : ℕ) (c : Conn) :
    repeatedRequests m c ++ repeatedRequests n c = repeatedRequests (m + n) c := by
  rw [repeatedRequests, repeatedRequests, repeatedRequests, ← List.flatten_append,
    List.replicate_append_replicate]

theorem stores_getCharAmntObsv {env : Env} (h : c.getCharAmntObsv sha env res = some c') :
    ∃ n, c.Stores sha n c' := by
  rw [getCharAmntObsv] at h
  obtain ⟨mid, hmid, h⟩ := Option.bind_eq_some_iff.mp h
  obtain ⟨amnt, -, h⟩ := Option.bind_eq_some_iff.mp h
  obtain ⟨n, hlast, hlogin, hs, hacct, hv⟩ := stores_getCharAmountAnswered h
  split at hmid
  -- the callback runs twice, and what it stores is the same
  · obtain ⟨m, hfirst, -⟩ := stores_getCharAmountAnswered hmid
    refine ⟨m + n, ⟨?_, ?_⟩⟩
    · have hsame : repeatedRequests m mid = repeatedRequests m c' := by
        rcases Nat.eq_zero_or_pos m with rfl | hm
        · rfl
        · rw [repeatedRequests, repeatedRequests, hlogin, hs, hv (hfirst.verified hm.ne')]
      have hfirst := hfirst.writes
      rw [hsame] at hfirst
      rw [← repeatedRequests_add]
      exact hfirst.trans hlast.writes
    · intro hne
      rcases Nat.eq_zero_or_pos n with rfl | hn
      · have hfirst := hfirst.verified hne
        obtain ⟨I, hI, hvI⟩ := hfirst
        refine ⟨I, by rw [hacct, hI], ?_⟩
        rw [hv ⟨I, hI, hvI⟩, hs]
        exact hvI
      · exact hlast.verified hn.ne'
  · rw [← Option.some.inj hmid] at hlast
    exact ⟨n, hlast⟩

end Conn

/-! ### The steps -/

/-- **Only two answers write a verifier.** -/
theorem writes_nil_of_step (h : step sha c e = some c')
    (hacct : ∀ res, e.action ≠ .answer .checkAcctObsv res)
    (hchars : ∀ res, e.action ≠ .answer .getCharAmntObsv res) : c.Writes c' [] := by
  cases hact : e.action with
  | hangup =>
    rw [step, hact] at h
    dsimp only at h
    split at h
    · exact Conn.writes_of_some h rfl
    · cases h
  | output results =>
    rw [step, hact] at h
    dsimp only at h
    split at h
    · obtain ⟨queue, delivered, write, active, rfl⟩ := Conn.handleOutput_some h
      exact Conn.writes_of_same rfl
    · cases h
  | input raw => exact Conn.writes_handleInput (handleInput_of_step h hact)
  | answer obs res =>
    obtain ⟨-, h⟩ := update_of_step h hact
    cases obs with
    | checkIpBanObsv =>
      rw [Conn.update, Conn.checkIpBanObsv, Conn.ipBanChecked] at h
      split at h
      · exact Conn.writes_of_some h rfl
      · rw [← Option.some.inj h]
        exact Conn.writes_getAccount (c.answered .checkIpBanObsv)
    | checkAcctObsv => exact absurd hact (hacct res)
    | getSessionKeyObsv =>
      rcases Conn.getSessionKeyObsv_some h with ⟨-, rfl⟩ | ⟨-, ⟨-, rfl⟩ | ⟨text, pkt, -, -, rfl⟩⟩
      · exact Conn.writes_of_same rfl
      · exact Conn.writes_of_same rfl
      · exact Conn.writes_of_same rfl
    | getCharAmntObsv => exact absurd hact (hchars res)

/-- **What a step writes of a verifier** are the pairs of its calls of `set_vs`, with the
verifier of the account. -/
theorem writes_of_step (h : step sha c e = some c') : ∃ n, c.Stores sha n c' := by
  by_cases hacct : ∃ res, e.action = .answer .checkAcctObsv res
  · obtain ⟨res, hact⟩ := hacct
    obtain ⟨-, h⟩ := update_of_step h hact
    rcases Conn.checkAcctObsv_some h with ⟨-, h⟩ | ⟨-, ⟨_, -, -, h⟩ | ⟨acct, -, -, h⟩⟩
    · obtain ⟨n, hstores⟩ := Conn.stores_accountChecked h
      exact ⟨n, hstores.of_requests rfl⟩
    · obtain ⟨n, hstores⟩ := Conn.stores_accountChecked h
      exact ⟨n, hstores.of_requests rfl⟩
    · obtain ⟨n, hstores⟩ := Conn.stores_accountChecked h
      exact ⟨n, hstores.of_requests rfl⟩
  by_cases hchars : ∃ res, e.action = .answer .getCharAmntObsv res
  · obtain ⟨res, hact⟩ := hchars
    obtain ⟨-, h⟩ := update_of_step h hact
    obtain ⟨n, hstores⟩ := Conn.stores_getCharAmntObsv h
    exact ⟨n, hstores.of_requests rfl⟩
  · exact ⟨0, Conn.stores_of_writes (writes_nil_of_step h (not_exists.mp hacct)
      (not_exists.mp hchars))⟩

end Morfeusz.Realmd
