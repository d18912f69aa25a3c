import Morfeusz.Realmd.AccountUse

/-!
# A client that guesses

`handle_failed_login` counts the failed proofs of an account, and from `WrongPassAmnt` on
every further one queues a ban. What it counts in is a byte, into which the column of the
account is cut when it is read; and the ban is for the next connection to find – this one
stays in `STATUS_NEED_PROOF`, and is asked again.

To say how many failures there were the run of a connection is watched
(`Morfeusz.Realmd.Watched`): beside its state goes the number of consecutive failures of
the account, those its row tells of and those since. The lock holds for as long as that
number and its last byte are on the same side of `WrongPassAmnt`, and nobody who was banned
has guessed right in the end (`Morfeusz.Realmd.locks_out_iff`).
-/

namespace Morfeusz.Realmd

variable {sha : Sha1} {env : Env} {c c' : Conn} {e : Event}

/-! ### A proof that fails -/

/-- A logon proof is handled and does not pass its comparison. -/
def FailsLogonProof (sha : Sha1) (c : Conn) (e : Event) : Prop :=
  ∃ raw, e.action = .input raw ∧ raw.cmd = EAuthCmd.authLogonProof.code ∧
    c.state = .needProof ∧ raw.proofM1 ≠ (c.expectedM sha e.env raw.publicA).val

/-- A ban of an account, or of an address. -/
def IsBan (op : RealmdRequest) : Prop :=
  op.statement = .addAccountAutoban ∨ op.statement = .addIpAutoban

/-- A ban was queued. -/
def Conn.Banned (c : Conn) : Prop := ∃ op ∈ c.requests, IsBan op

/-- The step queues a ban. -/
def Bans (c c' : Conn) : Prop := ∃ new, c'.requests = c.requests ++ new ∧ ∃ op ∈ new, IsBan op

/-- The request of a ban: the type that is configured is for the account unless it is
`ip`. -/
def Conn.banRequest (env : Env) (c : Conn) : RealmdRequest :=
  if env.wrongPassBanType ≠ [105, 112] then
    { statement := .addAccountAutoban
      params := [addUint32 1 c.acct.id.toUInt32, addUint32 2 600] }
  else { statement := .addIpAutoban, params := [addString 1 c.ip, addUint32 2 600] }

theorem isBan_banRequest (env : Env) (c : Conn) : IsBan (c.banRequest env) := by
  rw [Conn.banRequest]
  split
  · exact Or.inl rfl
  · exact Or.inr rfl

/-- **What a failure does**: it is counted in a byte, and that byte decides about the
ban. -/
theorem Conn.countFailedLogin_of_ban (hban : env.wrongPassBan = true) (c : Conn) :
    c.countFailedLogin env = { c with
      acct := { c.acct with failedLogins := c.acct.failedLogins + 1 }
      requests := c.requests ++
        ({ statement := .setFailedLogins, params := [addUint64 1 c.acct.id] } ::
          if env.wrongPassAmnt < (c.acct.failedLogins + 1).toNat then [c.banRequest env]
          else []) } := by
  rw [countFailedLogin, if_pos hban]
  dsimp only [incrementFailedLogins, enqueue]
  split
  · rw [banRequest]
    split
    · simp [banFailedLoginsId, enqueue]
    · simp [banFailedLoginsIp, enqueue]
  · rfl

/-- A proof that fails is counted, and answered. -/
theorem FailsLogonProof.step_eq (hf : FailsLogonProof sha c e) (h : step sha c e = some c') :
    c' = (c.countFailedLogin e.env).send (authReply .realmAuthNoMatch) := by
  obtain ⟨raw, hact, hcmd, hstate, hproof⟩ := hf
  have h := handleInput_of_step h hact
  rw [Conn.handleInput, if_neg (by rw [hstate]; decide), hcmd, ofByte?_code] at h
  dsimp only at h
  rw [Conn.handleAuthLogonProof, if_neg (not_not.mpr hstate)] at h
  dsimp only at h
  rw [if_neg hproof, Conn.handleFailedLogin, Conn.accountChecked] at h
  exact (Option.some.inj h).symm

/-- **A ban is queued if the byte is above the limit.** -/
theorem FailsLogonProof.bans_iff (hf : FailsLogonProof sha c e) (h : step sha c e = some c')
    (hban : e.env.wrongPassBan = true) :
    Bans c c' ↔ e.env.wrongPassAmnt < (c.acct.failedLogins + 1).toNat := by
  obtain rfl := hf.step_eq h
  rw [Conn.countFailedLogin_of_ban hban]
  constructor
  · rintro ⟨new, hnew, op, hop, hisBan⟩
    obtain rfl := List.append_cancel_left hnew
    by_contra hfew
    rw [if_neg hfew, List.mem_singleton] at hop
    subst hop
    rcases hisBan with hid | hip
    · cases hid
    · cases hip
  · intro hmany
    refine ⟨_, rfl, c.banRequest e.env, ?_, isBan_banRequest e.env c⟩
    rw [if_pos hmany]
    exact List.mem_cons_of_mem _ (List.mem_singleton_self _)

/-! ### The member `failed_logins` -/

/-- The account `checkAcctObsv` fills in from an answer, if it does. -/
def loadedAccount (res : ResultSet) : Option Account :=
  if res.rows ≠ [] ∧ res.next.2.getUint8 5 = some 0 then Conn.readAccount res.next.2 else none

theorem loadsAccount_iff {acct : Account} :
    LoadsAccount e acct ↔
      ∃ res, e.action = .answer .checkAcctObsv res ∧ loadedAccount res = some acct := by
  refine exists_congr fun res => and_congr_right fun _ => ?_
  rw [loadedAccount, Option.ite_none_right_eq_some, and_assoc]

namespace Conn

/-- A challenge leaves the account alone. -/
theorem acct_handleAuthLogonChallenge (c : Conn) (raw : Received) :
    (c.handleAuthLogonChallenge raw).acct = c.acct := by
  rw [handleAuthLogonChallenge]
  split
  · rfl
  · dsimp only
    split
    · rfl
    · rfl

/-- So does a proof that passes, or that does not come to its comparison. -/
theorem acct_handleAuthLogonProof {raw : Received}
    (h : c.handleAuthLogonProof sha env raw = some c')
    (hpass : c.state = .needProof → raw.proofM1 = (c.expectedM sha env raw.publicA).val) :
    c'.acct = c.acct := by
  rw [handleAuthLogonProof] at h
  dsimp only at h
  split at h
  · rw [← Option.some.inj h]
    rfl
  · next hstate =>
    rw [if_pos (hpass (not_not.mp hstate))] at h
    split at h
    · obtain ⟨data, -, h⟩ := Option.bind_eq_some_iff.mp h
      rw [← Option.some.inj h]
      rfl
    · rw [← Option.some.inj h]
      rfl

theorem acct_handleAuthReconnectChallenge (c : Conn) (raw : Received) :
    (c.handleAuthReconnectChallenge raw).acct = c.acct := by
  rw [handleAuthReconnectChallenge]
  split
  · rfl
  · rfl

theorem acct_handleAuthReconnectProof {raw : Received}
    (h : c.handleAuthReconnectProof sha env raw = some c') : c'.acct = c.acct := by
  rw [handleAuthReconnectProof] at h
  split at h
  · rw [← Option.some.inj h]
    rfl
  · obtain ⟨hash, -, h⟩ := Option.bind_eq_some_iff.mp h
    split at h
    · rw [← Option.some.inj h]
      rfl
    · rw [← Option.some.inj h]
      rfl

theorem acct_handleRealmList (h : c.handleRealmList env = some c') : c'.acct = c.acct := by
  rw [handleRealmList] at h
  split at h
  · rw [← Option.some.inj h]
    rfl
  · split at h
    · obtain ⟨⟨c₁, sent⟩, h₁, rfl⟩ := Option.map_eq_some_iff.mp h
      rcases sendRealmList_some h₁ with ⟨-, amnt, pkt, -, rfl⟩ | ⟨-, rfl⟩
      · rfl
      · rfl
    · rw [← Option.some.inj h]
      rfl

end Conn

/-- **A packet that is no failed proof** leaves the account alone. -/
theorem acct_of_input {raw : Received} (h : step sha c e = some c') (hact : e.action = .input raw)
    (hf : ¬FailsLogonProof sha c e) : c'.acct = c.acct := by
  have h := handleInput_of_step h hact
  rw [Conn.handleInput] at h
  split at h
  · rw [← Option.some.inj h]
    rfl
  · split at h
    · rw [← Option.some.inj h]
      exact c.acct_handleAuthLogonChallenge raw
    · next hcmd =>
      refine Conn.acct_handleAuthLogonProof h fun hstate => ?_
      by_contra hproof
      exact hf ⟨raw, hact, EAuthCmd.code_of_ofByte? hcmd, hstate, hproof⟩
    · rw [← Option.some.inj h]
      exact c.acct_handleAuthReconnectChallenge raw
    · exact Conn.acct_handleAuthReconnectProof h
    · exact Conn.acct_handleRealmList h
    · rw [← Option.some.inj h]
      rfl

/-- **The account changes with a failed proof and with its row.** -/
theorem acct_of_step (h : step sha c e = some c') (hf : ¬FailsLogonProof sha c e)
    (hrow : ∀ res, e.action ≠ .answer .checkAcctObsv res) : c'.acct = c.acct := by
  cases hact : e.action with
  | input raw => exact acct_of_input h hact hf
  | hangup | output results | answer obs res =>
    cases trans_of_step h with
    | charsCounted res' mid _ hact' => exact acct_of_getCharAmntObsv h hact'
    | proofFailed raw failed reqs hact' => cases hact.symm.trans hact'
    | accountLocked res' acct hact' | challengeSent res' acct I reqs pkt hact' =>
      exact absurd hact' (hrow res')
    | _ => rfl

/-! ### The failures of the account -/

/-- The column `failed_logins` of a row, the sixth of the query for an account. -/
def failedLoginsColumn (row : List SqlValue) : ℕ :=
  match row[5]? with
  | some (SqlValue.integer _ v) => v.toNat
  | _ => 0

/-- A connection, and beside it how often in a row a proof for its account has failed: what
the row of the account told, as soon as there was one, and the failures since. The second
number starts from what the socket starts from: the member before the account is filled in,
and what is read of the column then. -/
structure Watched where
  conn : Conn
  failures : ℕ
  counted : ℕ

namespace Watched

def init (f : Start) : Watched :=
  { conn := Conn.init f, failures := 0, counted := f.failedLogins.toNat }

/-- One step of the connection. A proof that passes ends the failures. -/
def step (sha : Sha1) (w : Watched) (e : Event) : Option Watched :=
  (Realmd.step sha w.conn e).map fun conn =>
    match e.action with
    | .input raw =>
      if raw.cmd = EAuthCmd.authLogonProof.code ∧ w.conn.state = .needProof then
        if raw.proofM1 = (w.conn.expectedM sha e.env raw.publicA).val then
          { w with conn, failures := 0 }
        else { conn, failures := w.failures + 1, counted := w.counted + 1 }
      else { w with conn }
    | .answer .checkAcctObsv res =>
      { conn
        failures := (res.rows.head?.map failedLoginsColumn).getD w.failures
        counted := ((loadedAccount res).map fun acct => acct.failedLogins.toNat).getD w.counted }
    | _ => { w with conn }

/-- The last byte of the number is what the socket has. -/
def Counts (w : Watched) : Prop := w.conn.acct.failedLogins.toNat = w.counted % 256

/-- The failure that would follow is on the same side of the limit as its last byte, or
within the limit. -/
def InByte (w : Watched) (e : Event) : Prop :=
  ((w.failures + 1 : ℕ) : ℤ) ≤ e.env.wrongPassAmnt ∨
    e.env.wrongPassAmnt < ((w.counted + 1) % 256 : ℕ)

variable {w w' : Watched}

theorem conn_of_step (h : w.step sha e = some w') : Realmd.step sha w.conn e = some w'.conn := by
  rw [step] at h
  obtain ⟨conn, hconn, rfl⟩ := Option.map_eq_some_iff.mp h
  rw [hconn]
  split
  · split
    · split
      · rfl
      · rfl
    · rfl
  · rfl
  · rfl

/-- A failure is counted. -/
theorem counted_of_fails (h : w.step sha e = some w') (hf : FailsLogonProof sha w.conn e) :
    w'.counted = w.counted + 1 := by
  obtain ⟨raw, hact, hcmd, hstate, hproof⟩ := hf
  obtain ⟨conn, -, rfl⟩ := Option.map_eq_some_iff.mp h
  rw [hact]
  dsimp only
  rw [if_pos ⟨hcmd, hstate⟩, if_neg hproof]

/-- So is what is read of the row. -/
theorem counted_of_row {res : ResultSet} (h : w.step sha e = some w')
    (hact : e.action = .answer .checkAcctObsv res) :
    w'.counted =
      ((loadedAccount res).map fun acct => acct.failedLogins.toNat).getD w.counted := by
  obtain ⟨conn, -, rfl⟩ := Option.map_eq_some_iff.mp h
  rw [hact]

/-- **MySQL reads the last byte of the column**, whatever number is in it. -/
theorem counted_of_mysql {res : ResultSet} {acct : Account} {row : List SqlValue} {width n : ℕ}
    (h : w.step sha e = some w') (hact : e.action = .answer .checkAcctObsv res)
    (hload : loadedAccount res = some acct) (hengine : res.engine = .mysql) (hfresh : res.Fresh)
    (hrow : res.rows[0]? = some row) (hcol : row[5]? = some (.integer (width + 1) n))
    (hfields : 6 ≤ res.numFields) : w'.failures = n ∧ w'.counted = n % 256 := by
  have hget : res.next.2.getUint 1 6 = some (n % 256) := by
    rw [ResultSet.next_of_mysql hengine,
      @ResultSet.getUint_of_mysql { res with rowPosition := res.rowPosition + 1 } row 0 1 6 _
        hengine (congrArg (· + 1) hfresh) hrow (by decide) hfields hcol,
      ResultSet.leVal_take_buffer (Nat.succ_pos width), pow_one]
  have hread := (Option.ite_none_right_eq_some.mp hload).2
  have hbyte : acct.failedLogins = UInt8.ofNat (n % 256) := by
    simp only [Conn.readAccount, ResultSet.getUint8, hget, Option.map_some, Option.bind_eq_bind,
      Option.bind_some, Option.bind_eq_some_iff, Option.some.injEq] at hread
    obtain ⟨_, -, _, -, _, -, _, -, _, -, rfl⟩ := hread
    rfl
  constructor
  · obtain ⟨conn, -, rfl⟩ := Option.map_eq_some_iff.mp h
    rw [hact]
    dsimp only
    rw [List.head?_eq_getElem?, hrow, Option.map_some, Option.getD_some, failedLoginsColumn, hcol]
    exact Int.toNat_natCast n
  · rw [counted_of_row h hact, hload, Option.map_some, Option.getD_some, hbyte]
    exact UInt8.toNat_ofNat_of_lt (Nat.mod_lt n (by decide))

/-- Nothing else is. -/
theorem counted_of_other (h : w.step sha e = some w') (hf : ¬FailsLogonProof sha w.conn e)
    (hrow : ∀ res, e.action ≠ .answer .checkAcctObsv res) : w'.counted = w.counted := by
  obtain ⟨conn, -, rfl⟩ := Option.map_eq_some_iff.mp h
  split
  · next raw hact =>
    split
    · next hproof =>
      split
      · rfl
      · next hne => exact absurd ⟨raw, hact, hproof.1, hproof.2, hne⟩ hf
    · rfl
  · next res hact => exact absurd hact (hrow res)
  · rfl

/-- **The byte of the socket is the last byte of the number**, as long as failures are
counted. -/
theorem Counts.step (hw : w.Counts) (h : w.step sha e = some w')
    (hban : e.env.wrongPassBan = true) : w'.Counts := by
  have hconn := conn_of_step h
  rw [Counts] at hw ⊢
  by_cases hf : FailsLogonProof sha w.conn e
  · rw [counted_of_fails h hf, hf.step_eq hconn, Conn.countFailedLogin_of_ban hban]
    change (w.conn.acct.failedLogins + 1).toNat = _
    rw [UInt8.toNat_add, hw, UInt8.toNat_one, Nat.mod_add_mod]
  · by_cases hrow : ∃ res, e.action = .answer .checkAcctObsv res
    · obtain ⟨res, hact⟩ := hrow
      rw [counted_of_row h hact]
      rcases step_checkAcctObsv hconn hact with ⟨acct, hload, hacct, -⟩ | ⟨hno, hacct, -⟩
      · obtain ⟨res', hact', hloaded⟩ := loadsAccount_iff.mp hload
        obtain ⟨-, rfl⟩ := Action.answer.inj (hact.symm.trans hact')
        rw [hloaded, hacct]
        exact (Nat.mod_eq_of_lt acct.failedLogins.toNat_lt).symm
      · have hnone : loadedAccount res = none := by
          by_contra hne
          obtain ⟨acct, hacct⟩ := Option.ne_none_iff_exists'.mp hne
          exact hno acct (loadsAccount_iff.mpr ⟨res, hact, hacct⟩)
        rw [hnone, hacct]
        exact hw
    · have hrow : ∀ res, e.action ≠ .answer .checkAcctObsv res := fun res hact => hrow ⟨res, hact⟩
      rw [counted_of_other h hf hrow, acct_of_step hconn hf hrow]
      exact hw

/-- A ban stays among the requests. -/
theorem banned_of_step (h : w.step sha e = some w') (hw : w.conn.Banned) : w'.conn.Banned := by
  obtain ⟨op, hop, hisBan⟩ := hw
  exact ⟨op, mem_requests_of_step (conn_of_step h) hop, hisBan⟩

theorem banned_of_bans (h : Bans w.conn w'.conn) : w'.conn.Banned := by
  obtain ⟨new, hnew, op, hop, hisBan⟩ := h
  exact ⟨op, hnew ▸ List.mem_append_right _ hop, hisBan⟩

theorem bans_of_banned (h : w.step sha e = some w') (hw : ¬w.conn.Banned) (hw' : w'.conn.Banned) :
    Bans w.conn w'.conn := by
  obtain ⟨n, ⟨new, hnew, -⟩, -⟩ := writes_of_step (conn_of_step h)
  obtain ⟨op, hop, hisBan⟩ := hw'
  rw [hnew, List.mem_append] at hop
  refine ⟨new, hnew, op, ?_, hisBan⟩
  exact hop.resolve_left fun hold => hw ⟨op, hold, hisBan⟩

/-- **The ban of a failure is decided by the last byte of the number.** -/
theorem Counts.bans_iff (hw : w.Counts) (h : w.step sha e = some w')
    (hban : e.env.wrongPassBan = true) (hf : FailsLogonProof sha w.conn e) :
    Bans w.conn w'.conn ↔ e.env.wrongPassAmnt < ((w.counted + 1) % 256 : ℕ) := by
  rw [hf.bans_iff (conn_of_step h) hban, UInt8.toNat_add, hw, UInt8.toNat_one, Nat.mod_add_mod]

end Watched

/-! ### Every run -/

/-- Step `i` of the watched run of `es`. -/
abbrev WatchedAt (sha : Sha1) (f : Start) (es : List Event) (i : ℕ) (w : Watched) (e : Event)
    (w' : Watched) : Prop :=
  Runs.StepAt (Watched.step sha) (Watched.init f) es i w e w'

/-- **What should hold of a run**: a ban keeps every later proof from being accepted, and is
queued at every failure beyond the first `WrongPassAmnt` in a row. -/
structure LocksOut (sha : Sha1) (f : Start) (es : List Event) : Prop where
  refused : ∀ i j w e w' u g u', i < j → WatchedAt sha f es i w e w' → Bans w.conn w'.conn →
    WatchedAt sha f es j u g u' → ¬EntersAuthed .authLogonProof g u'.conn
  banned : ∀ i w e w', WatchedAt sha f es i w e w' → FailsLogonProof sha w.conn e →
    e.env.wrongPassAmnt < ((w.failures + 1 : ℕ) : ℤ) → Bans w.conn w'.conn

section Runs

variable {f : Start} {es : List Event} {i : ℕ} {w w' : Watched}

/-- The connection of a watched run is that of the run. -/
theorem run_of_watched (h : Runs.run (Watched.step sha) (Watched.init f) es = some w) :
    run sha f es = some w.conn := by
  induction es using List.reverseRecOn generalizing w with
  | nil =>
    obtain rfl := Option.some.inj h
    rfl
  | append_singleton es e ih =>
    obtain ⟨u, hu, hstep⟩ := Runs.run_concat_iff.mp h
    exact Runs.run_concat (ih hu) (Watched.conn_of_step hstep)

theorem counts_of_watchedAt (hban : ∀ e ∈ es, e.env.wrongPassBan = true)
    (h : WatchedAt sha f es i w e w') : w.Counts := by
  have hinit : (Watched.init f).Counts := (Nat.mod_eq_of_lt f.failedLogins.toNat_lt).symm
  refine Runs.run_take_induction hinit ?_ i w h.1
  intro j u g u' hat hu
  exact hu.step hat.2.2 (hban g (List.mem_of_getElem? hat.2.1))

/-- Every run can be watched. -/
theorem exists_watched (h : run sha f es = some c) :
    ∃ w, Runs.run (Watched.step sha) (Watched.init f) es = some w ∧ w.conn = c := by
  induction es using List.reverseRecOn generalizing c with
  | nil => exact ⟨Watched.init f, rfl, Option.some.inj h⟩
  | append_singleton es e ih =>
    obtain ⟨d, hd, hstep⟩ := Runs.run_concat_iff.mp h
    obtain ⟨u, hu, rfl⟩ := ih hd
    obtain ⟨w, hw⟩ : ∃ w, u.step sha e = some w := by
      rw [Watched.step, hstep]
      exact ⟨_, rfl⟩
    refine ⟨w, Runs.run_concat hu hw, ?_⟩
    exact Option.some.inj ((Watched.conn_of_step hw).symm.trans hstep)

/-- A proof that passes is accepted. -/
theorem entersAuthed_of_passes (h : WatchedAt sha f es i w e w')
    (hp : PassesLogonProof sha w.conn e) : EntersAuthed .authLogonProof e w'.conn := by
  obtain ⟨raw, hact, hcmd, hstate, hproof⟩ := hp
  have hreach : Reachable sha w.conn := ⟨f, _, run_of_watched h.1⟩
  obtain ⟨c', hc', hauthed⟩ := hreach.accepts_iff.mpr ⟨hstate, hproof⟩
  have hinput := handleInput_of_step (Watched.conn_of_step h.2.2) hact
  rw [Conn.handleInput, if_neg (by rw [hstate]; decide), hcmd, ofByte?_code] at hinput
  obtain rfl := Option.some.inj (hc'.symm.trans hinput)
  exact ⟨raw, hact, hcmd, hauthed⟩

/-- **The lock holds in the runs in which no correct proof follows a ban and the byte has
not run over.** A run with `WrongPassBan` locks the client out as it should if and only if
no logon proof that is handled after a ban is the right one, and at every failed proof the
number of failures is within `WrongPassAmnt` or the last byte of what was counted is beyond
it. -/
theorem locks_out_iff (hban : ∀ e ∈ es, e.env.wrongPassBan = true) :
    LocksOut sha f es ↔ ∀ i w e w', WatchedAt sha f es i w e w' →
      (w.conn.Banned → ¬PassesLogonProof sha w.conn e) ∧
        (FailsLogonProof sha w.conn e → w.InByte e) := by
  have hinit : ¬(Watched.init f).conn.Banned := fun ⟨op, hop, _⟩ => List.not_mem_nil hop
  constructor
  · intro hlock i w e w' hat
    have hbans := (counts_of_watchedAt hban hat).bans_iff hat.2.2
      (hban e (List.mem_of_getElem? hat.2.1))
    constructor
    · intro hbanned hp
      obtain ⟨j, u, g, u', hji, hatj, hu, hu'⟩ :=
        hat.exists_earlier (H := fun w => w.conn.Banned) hinit hbanned
      exact hlock.refused j i u g u' w e w' hji hatj (Watched.bans_of_banned hatj.2.2 hu hu') hat
        (entersAuthed_of_passes hat hp)
    · intro hf
      rcases le_or_gt ((w.failures + 1 : ℕ) : ℤ) e.env.wrongPassAmnt with hle | hlt
      · exact Or.inl hle
      · exact Or.inr ((hbans hf).mp (hlock.banned i w e w' hat hf hlt))
  · intro hcond
    constructor
    · intro i j w e w' u g u' hij hat hbans hatj hauthed
      obtain ⟨es', hrun⟩ := hat.run_between hatj hij
      have hbanned : u.conn.Banned :=
        Runs.run_invariant (P := fun w : Watched => w.conn.Banned)
          (fun _ _ _ hw hs => Watched.banned_of_step hs hw) (Watched.banned_of_bans hbans) hrun
      exact (hcond j u g u' hatj).1 hbanned
        ((trans_of_step (Watched.conn_of_step hatj.2.2)).passesLogonProof hauthed)
    · intro i w e w' hat hf hmany
      have hbans := (counts_of_watchedAt hban hat).bans_iff hat.2.2
        (hban e (List.mem_of_getElem? hat.2.1))
      rcases (hcond i w e w' hat).2 hf with hle | hbyte
      · exact absurd hmany (not_lt.mpr hle)
      · exact (hbans hf).mpr hbyte

end Runs

namespace Sample

/-- The surroundings of the sample, with failures counted. -/
def banEnv : Env := { Sample.env with wrongPassBan := true }

/-- The row of an account with 255 failures. -/
def failedAccount : ResultSet :=
  rows [[.text (List.replicate 40 49), .integer 4 7, .integer 1 0, .text ip, .null,
    .integer 4 255]] 6

/-- A proof that is not the one for a hash that tells nothing apart. -/
def guess : Received := Client.logonProof (Bytes.zero 32) ⟨List.replicate 20 1, by decide⟩

/-- A logon to that account, and a proof that fails. -/
def guessEvents : List Event :=
  logonEvents banEnv build login failedAccount ++ [⟨banEnv, .input guess⟩]

theorem guessEvents_ban : ∀ e ∈ guessEvents, e.env.wrongPassBan = true := by decide

end Sample

/-- What the two sides say of the sample. -/
theorem locks_out_iff_sample :
    LocksOut Sample.zeroSha Sample.start Sample.guessEvents ↔
      ∀ i w e w', WatchedAt Sample.zeroSha Sample.start Sample.guessEvents i w e w' →
        (w.conn.Banned → ¬PassesLogonProof Sample.zeroSha w.conn e) ∧
          (FailsLogonProof Sample.zeroSha w.conn e → w.InByte e) :=
  locks_out_iff Sample.guessEvents_ban

/-- **The failure after the two hundred and fifty-fifth is the first again**: where three
are allowed it is not banned for. -/
theorem not_locksOut_wrapped :
    ¬LocksOut Sample.zeroSha Sample.start Sample.guessEvents := by
  intro hlock
  have hsome : (Runs.run (Watched.step Sample.zeroSha) (Watched.init Sample.start)
      (Sample.guessEvents.take 4)).isSome := by
    decide +kernel
  have hbefore : ∀ u ∈ Runs.run (Watched.step Sample.zeroSha) (Watched.init Sample.start)
      (Sample.guessEvents.take 3), u.failures = 255 ∧ u.conn.acct.failedLogins = 255 ∧
        u.conn.state = .needProof ∧
          Sample.guess.proofM1 ≠ (u.conn.expectedM Sample.zeroSha Sample.banEnv
            Sample.guess.publicA).val := by
    decide +kernel
  obtain ⟨w, w', hat⟩ := Runs.exists_stepAt_of_isSome hsome rfl
  obtain ⟨hfailures, hbyte, hstate, hproof⟩ := hbefore w hat.1
  have hf : FailsLogonProof Sample.zeroSha w.conn ⟨Sample.banEnv, .input Sample.guess⟩ :=
    ⟨Sample.guess, rfl, by decide, hstate, hproof⟩
  have hbans := hlock.banned 3 w _ w' hat hf (by rw [hfailures]; decide)
  rw [hf.bans_iff (Watched.conn_of_step hat.2.2) rfl, hbyte] at hbans
  exact absurd hbans (by decide)

end Morfeusz.Realmd
