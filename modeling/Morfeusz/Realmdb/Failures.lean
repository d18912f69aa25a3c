import Morfeusz.Realmdb.Bans
import Morfeusz.Realmdb.KeyArrival

/-!
# Guesses of many connections

Whoever guesses a password may do so on many connections at once. Each of them counts its own
failures in a byte, from the number it has read in the row of the account, and has the row
counted up by a request. This file says what comes of the two: until a logon of the account is
stored, every failure on whatever connection is in the column, under way to it, or lost with a
request that failed (`Morfeusz.Realmdb.guesses_counted`); so a connection that asks for the
account bans at its first failure if and only if the last byte of the number that is in the
column then is above the limit.

What is under way the connection does not see, so guesses that are made at once have a limit
each.
-/

namespace Morfeusz

/-! ### What a connection has counted -/

namespace Realmd

variable {sha : Sha1} {c c' : Conn} {e : Event} {id : UInt64}

/-- Whether a proof fails can be computed. -/
instance (sha : Sha1) (c : Conn) (e : Event) : Decidable (FailsLogonProof sha c e) :=
  match hact : e.action with
  | .input raw =>
    decidable_of_iff (raw.cmd = EAuthCmd.authLogonProof.code ∧ c.state = .needProof ∧
      raw.proofM1 ≠ (c.expectedM sha e.env raw.publicA).val) (by
        rw [FailsLogonProof, hact]
        exact ⟨fun h => ⟨raw, rfl, h⟩, fun ⟨raw', heq, h⟩ => Action.input.inj heq ▸ h⟩)
  | .answer _ _ | .output _ | .hangup => isFalse (by
      rintro ⟨raw, hraw, -⟩
      rw [hact] at hraw
      cases hraw)

/-- The account whose failures a request counts. -/
def countedFor? (op : RealmdRequest) : Option UInt64 :=
  match op.statement, op.params with
  | .setFailedLogins, [(_, .uint64 id)] => some id
  | _, _ => none

theorem statement_of_countedFor? {op : RealmdRequest} (h : countedFor? op = some id) :
    op.statement = .setFailedLogins := by
  rw [countedFor?] at h
  split at h
  · assumption
  · cases h

/-- **A failure is counted once, and nothing else is counted.** -/
theorem countP_countedFor? (hi : Inv sha c) (h : step sha c e = some c') (id : UInt64) :
    (c'.requests.drop c.requests.length).countP (fun op => countedFor? op = some id) =
      if FailsLogonProof sha c e ∧ e.env.wrongPassBan = true ∧ c.acct.id = id then 1 else 0 := by
  by_cases hf : FailsLogonProof sha c e
  · obtain rfl := hf.step_eq h
    by_cases hban : e.env.wrongPassBan = true
    · rw [Conn.countFailedLogin_of_ban hban]
      show ((c.requests ++ _).drop c.requests.length).countP _ = _
      have hbans : (if e.env.wrongPassAmnt < (c.acct.failedLogins + 1).toNat then
          [c.banRequest e.env] else []).countP (fun op => countedFor? op = some id) = 0 := by
        rw [List.countP_eq_zero]
        intro op hop hcounted
        have hst := statement_of_countedFor? (of_decide_eq_true hcounted)
        split at hop
        · rw [List.mem_singleton.mp hop] at hst
          rcases isBan_banRequest e.env c with hban | hban
          · cases hban.symm.trans hst
          · cases hban.symm.trans hst
        · cases hop
      rw [List.drop_left, List.countP_cons, hbans, Nat.zero_add]
      refine if_congr ?_ rfl rfl
      rw [decide_eq_true_iff]
      exact ⟨fun h => ⟨hf, hban, Option.some.inj h⟩, fun h => congrArg some h.2.2⟩
    · rw [if_neg fun h => hban h.2.1, Conn.countFailedLogin, if_neg hban]
      exact congrArg (List.countP _) (List.drop_length (l := c.requests))
  · rw [if_neg fun h => hf h.1, List.countP_eq_zero]
    obtain ⟨new, hnew, hall⟩ := requested_of_step hi h
    rw [hnew, List.drop_left]
    intro op hop hcounted
    have hst := statement_of_countedFor? (of_decide_eq_true hcounted)
    cases hall op hop with
    | incrementFailedLogins hfails => exact hf hfails
    | banFailedLogins hfails => exact hf hfails
    | checkIpBan | getAccount | getSessionkey | getCharAmount | fixSV | setSV
    | updateAccount => cases hst

end Realmd

namespace Realmdb

open Realmd (RealmdRequest FailsLogonProof Bans accountRequest countedFor?)

variable {collate : List UInt8 → List UInt8} {κ π : Type} [DecidableEq κ] [DecidableEq π]
  {sha : Sha1} {hmac : Hmac} {s s' t : Estate collate κ π} {es es₀ : List (EstateEvent κ π)}
  {ev : EstateEvent κ π} {row : AccountRow} {now : ℤ} {tables : Tables collate}
  {autoCommit : List Bool}

/-! ### Failures, and the requests that store them -/

/-- The task counts up the column of the account. -/
def Task.counts (id : UInt32) : Task κ π → Bool
  | .realmd _ op => countedFor? op = some id.toUInt64
  | _ => false

namespace Estate

/-- How many failures of the account are under way to its row. -/
def waiting (s : Estate collate κ π) (id : UInt32) : ℕ := s.tasks.countP (Task.counts id)

/-- A proof for the account fails where `WrongPassBan` is enabled. -/
def guessed (sha : Sha1) (id : UInt32) (s : Estate collate κ π) : EstateEvent κ π → ℕ
  | .realmd k e =>
    match s.realmd k with
    | some c =>
      if FailsLogonProof sha c e ∧ e.env.wrongPassBan = true ∧ c.acct.id = id.toUInt64 then 1
      else 0
    | none => 0
  | _ => 0

/-- The task at an index, if it is one that counts. -/
def countsAt (s : Estate collate κ π) (id : UInt32) (i : ℕ) : ℕ :=
  if (s.tasks[i]?).any (Task.counts id) then 1 else 0

/-- A failure gets to the row. -/
def stored (id : UInt32) (s : Estate collate κ π) : EstateEvent κ π → ℕ
  | .execute i _ => s.countsAt id i
  | _ => 0

/-- A failure is lost. -/
def lost (id : UInt32) (s : Estate collate κ π) : EstateEvent κ π → ℕ
  | .fail i => s.countsAt id i
  | _ => 0

end Estate

/-! ### The requests -/

omit [DecidableEq κ] [DecidableEq π] in
/-- A task that is taken away. -/
theorem waiting_eraseIdx (s : Estate collate κ π) (id : UInt32) (i : ℕ) :
    (s.tasks.eraseIdx i).countP (Task.counts id) + s.countsAt id i = s.waiting id := by
  rw [Estate.waiting, Estate.countsAt]
  rcases Nat.lt_or_ge i s.tasks.length with hi | hi
  · rw [← (List.getElem_cons_eraseIdx_perm hi).countP_eq, List.countP_cons,
      List.getElem?_eq_getElem hi]
    rfl
  · rw [List.eraseIdx_of_length_le hi, List.getElem?_eq_none hi]
    rfl

omit [DecidableEq π] in
/-- A connection of the realm daemon takes a step. -/
theorem waiting_of_reactRealmd {k : κ} {e : Realmd.Event} (id : UInt32)
    (hi : ∀ c, s.realmd k = some c → Realmd.Inv sha c) (h : s.reactRealmd sha k e = some s') :
    ∃ c, s.realmd k = some c ∧ s'.waiting id = s.waiting id +
      if FailsLogonProof sha c e ∧ e.env.wrongPassBan = true ∧ c.acct.id = id.toUInt64 then 1
      else 0 := by
  obtain ⟨c, hc, h⟩ := Option.bind_eq_some_iff.mp h
  obtain ⟨c', hc', rfl⟩ := Option.map_eq_some_iff.mp h
  refine ⟨c, hc, ?_⟩
  show (s.tasks ++ _).countP _ = _
  rw [List.countP_append, List.countP_map, ← Realmd.countP_countedFor? (hi c hc) hc']
  rfl

omit [DecidableEq κ] in
/-- A socket of the proxy does. -/
theorem waiting_of_reactProxyd {j : π} {e : Proxyd.SocketEvent} (id : UInt32)
    (h : s.reactProxyd sha hmac j e = some s') : s'.waiting id = s.waiting id := by
  obtain ⟨d, hd, h⟩ := Option.bind_eq_some_iff.mp h
  obtain ⟨d', hd', rfl⟩ := Option.map_eq_some_iff.mp h
  have hnone : ((d'.conn.operations.drop d.conn.operations.length).map
      (Task.proxyd (κ := κ) j)).countP (Task.counts id) = 0 := by
    rw [List.countP_map, List.countP_eq_zero]
    exact fun op hop => Bool.false_ne_true
  show (s.tasks ++ _).countP _ = _
  rw [List.countP_append, hnone]
  rfl

/-- **A failure is under way until it is stored or lost.** -/
theorem waiting_of_step (hi : ∀ k c, s.realmd k = some c → Realmd.Inv sha c)
    (h : s.step sha hmac ev = some s') (id : UInt32) :
    s'.waiting id + (s.stored id ev + s.lost id ev) = s.waiting id + s.guessed sha id ev := by
  cases ev with
  | openRealmd k f =>
    rw [Estate.step] at h
    split at h
    · rw [← Option.some.inj h]
      rfl
    · cases h
  | openProxyd j f =>
    rw [Estate.step] at h
    split at h
    · rw [← Option.some.inj h]
      rfl
    · cases h
  | realmd k e =>
    rw [Estate.step] at h
    split at h
    · cases h
    · obtain ⟨c, hc, hwaiting⟩ := waiting_of_reactRealmd id (hi k) h
      show _ = _ + (match s.realmd k with | some c => _ | none => _)
      rw [hc, hwaiting]
      rfl
  | proxyd j e =>
    rw [Estate.step.eq_def] at h
    dsimp only at h
    split at h
    · cases h
    · rw [waiting_of_reactProxyd id h]
      rfl
  | clock now =>
    rw [← Option.some.inj h]
    rfl
  | timeout =>
    rw [← Option.some.inj h]
    show (s.tasks ++ _).countP _ + 0 = _
    rw [List.countP_append]
    rfl
  | execute i other =>
    rw [Estate.step] at h
    split at h
    · next k op htask =>
      obtain ⟨tables, answers, hperform⟩ :=
        performRealmd_eq { s with tasks := s.tasks.eraseIdx i } other k op
      rw [← Option.some.inj h, ← waiting_eraseIdx s id i, Estate.waiting, hperform]
      rfl
    · rw [← Option.some.inj h, ← waiting_eraseIdx s id i]
      rfl
    · cases h
  | executeProxyd w i other ended =>
    rw [Estate.step] at h
    split at h
    · next worker j op hworker htask =>
      obtain ⟨workers, answers, hperform⟩ :=
        performProxyd_eq { s with tasks := s.tasks.eraseIdx i } other ended w worker j op
      have hcounts : s.countsAt id i = 0 := by
        rw [Estate.countsAt, htask]
        rfl
      rw [← Option.some.inj h, ← waiting_eraseIdx s id i, hcounts, Estate.waiting, hperform]
      rfl
    · cases h
  | fail i =>
    rw [Estate.step] at h
    split at h
    · rw [← Option.some.inj h, ← waiting_eraseIdx s id i]
      exact congrArg (_ + ·) (Nat.zero_add _)
    · cases h
  | answerRealmd i env =>
    rw [Estate.step] at h
    split at h
    · obtain ⟨c, hc, hwaiting⟩ := waiting_of_reactRealmd
        (s := { s with answers := s.answers.eraseIdx i }) id (hi _) h
      rw [hwaiting, if_neg]
      · rfl
      · rintro ⟨⟨raw, hraw, -⟩, -⟩
        cases hraw
    · cases h
  | answerProxyd i env =>
    rw [Estate.step] at h
    split at h
    · rw [waiting_of_reactProxyd id h]
      rfl
    · cases h

/-! ### The column -/

section Column

variable {op : RealmdRequest} {which : AccountRow → Bool} {a : Assignment}

theorem mem_execute_of_assignment (ha : assignment? collate op = some (which, a))
    (hrow : row ∈ tables.account) (hwhich : which row = true) :
    a.set row ∈ (tables.execute now op).account := by
  have hmem := List.mem_map_of_mem (f := fun row => if which row then a.set row else row) hrow
  rw [if_pos hwhich] at hmem
  rw [Tables.execute, ha]
  exact hmem

/-- The column is counted up by `increment_failed_logins` and reset by `update_account`. -/
theorem failedLogins_set (ha : assignment? collate op = some (which, a))
    (hwhich : which row = true) :
    (a.set row).failedLogins = row.failedLogins ∨ countedFor? op = some row.id.toUInt64 ∨
      ∃ key, WritesKey collate op row key := by
  rw [assignment?] at ha
  split at ha
  · cases ha
    exact Or.inl rfl
  · cases ha
    exact Or.inl rfl
  · next i key j ip x l login hst hparams =>
    cases ha
    exact Or.inr (Or.inr ⟨key, hst, i, j, l, x, ip, login, hparams, hwhich⟩)
  · next j id hst hparams =>
    cases ha
    rw [countedFor?, hst, hparams]
    exact Or.inr (Or.inl (congrArg some (of_decide_eq_true hwhich).symm))
  · cases ha

/-- In the row of an account a number of failures has been stored. -/
def Tables.Counted (tables : Tables collate) (row : AccountRow) (n : ℕ) : Prop :=
  ∃ row' ∈ tables.account, row.Same row' ∧
    row'.failedLogins.toNat = min (row.failedLogins.toNat + n) (2 ^ 32 - 1)

/-- A failure counts the column up, as far as it goes. -/
theorem toNat_failure_set (row : AccountRow) : (Assignment.failure.set row).failedLogins.toNat =
    min (row.failedLogins.toNat + 1) (2 ^ 32 - 1) := by
  show (if row.failedLogins = 0xFFFFFFFF then row.failedLogins else row.failedLogins + 1).toNat = _
  split
  · next hfull =>
    rw [hfull]
    rfl
  · next hroom =>
    have hlt : row.failedLogins.toNat ≠ 2 ^ 32 - 1 := fun h => hroom (UInt32.toNat_inj.mp h)
    have hle := row.failedLogins.toNat_lt
    rw [UInt32.toNat_add, UInt32.toNat_one]
    omega

/-- **One more failure.** -/
theorem Tables.Counted.execute {n : ℕ} (h : tables.Counted row n)
    (hop : countedFor? op = some row.id.toUInt64) :
    (tables.execute now op).Counted row (n + 1) := by
  obtain ⟨row', hrow', hsame, hcolumn⟩ := h
  obtain ⟨which, hassigns, hwhich⟩ : ∃ which,
      assignment? collate op = some (which, .failure) ∧ which row' = true := by
    rw [countedFor?] at hop
    split at hop
    · next j id hst hparams =>
      refine ⟨_, by rw [assignment?, hst, hparams], decide_eq_true ?_⟩
      rw [hsame.id, Option.some.inj hop]
    · cases hop
  refine ⟨_, mem_execute_of_assignment hassigns hrow' hwhich, hsame.trans ⟨rfl, rfl, rfl⟩, ?_⟩
  rw [toNat_failure_set, hcolumn]
  omega

/-- **Nothing else does anything to it**, but a logon. -/
theorem Tables.Counted.execute_other {n : ℕ} (h : tables.Counted row n)
    (hop : countedFor? op ≠ some row.id.toUInt64) (hno : ∀ key, ¬WritesKey collate op row key) :
    (tables.execute now op).Counted row n := by
  obtain ⟨row₁, hrow₁, hsame₁, hcolumn⟩ := h
  obtain ⟨row₂, hrow₂, hsame₂, heq | ⟨which, a, ha, hwhich, heq⟩⟩ := exists_mem_execute hrow₁
  · exact ⟨row₂, hrow₂, hsame₁.trans hsame₂, by rw [heq, hcolumn]⟩
  · refine ⟨row₂, hrow₂, hsame₁.trans hsame₂, ?_⟩
    rcases failedLogins_set ha hwhich with hsame | hcounted | ⟨key, hwrites⟩
    · rw [heq, hsame, hcolumn]
    · rw [hsame₁.id] at hcounted
      exact absurd hcounted hop
    · exact absurd (hsame₁.writesKey hwrites) (hno key)

/-- **The column is counted up exactly by what is stored**, until a logon is. -/
theorem Tables.Counted.of_step {n : ℕ} (h : s.tables.Counted row n)
    (hstep : s.step sha hmac ev = some s') (hno : ¬s.RewritesKey ev row) :
    s'.tables.Counted row (n + s.stored row.id ev) := by
  by_cases hstored : ∃ op, s.ExecutesRealmd ev op ∧ countedFor? op = some row.id.toUInt64
  · obtain ⟨op, ⟨i, other, k, rfl, htask⟩, hop⟩ := hstored
    have hone : s.stored row.id (.execute i other) = 1 := by
      show s.countsAt row.id i = 1
      rw [Estate.countsAt, htask]
      exact if_pos (decide_eq_true hop)
    have hnone : op.statement.observer? = none := by
      rw [Realmd.statement_of_countedFor? hop]
      rfl
    rw [hone, tables_of_execute htask hnone hstep]
    exact h.execute hop
  · have hzero : s.stored row.id ev = 0 := by
      cases ev with
      | execute i other =>
        show s.countsAt row.id i = 0
        rw [Estate.countsAt, if_neg]
        intro hany
        obtain ⟨task, htask, hcounts⟩ := (Option.any_eq_true _ _).mp hany
        cases task with
        | realmd k op => exact hstored ⟨op, ⟨i, other, k, rfl, htask⟩, of_decide_eq_true hcounts⟩
        | proxyd j op => cases hcounts
        | timer stmt => cases hcounts
      | openRealmd | openProxyd | realmd | proxyd | clock | timeout | executeProxyd | fail
      | answerRealmd | answerProxyd => rfl
    rw [hzero]
    rcases tables_of_step hstep with heq | ⟨_ | _, -, heq⟩ | ⟨op, hexec, heq⟩
    · rwa [heq]
    · rw [heq]
      exact h
    · rw [heq]
      exact h
    · rw [heq]
      exact h.execute_other (fun hop => hstored ⟨op, hexec, hop⟩)
        fun key hwrites => hno ⟨op, key, hexec, hwrites⟩

end Column

/-! ### What a connection reads of it -/

theorem fits_checkedColumns {active : SqlValue} (hactive : active.Fits) (row : AccountRow) :
    ∀ v ∈ row.checkedColumns active, v.Fits := by
  rw [AccountRow.checkedColumns]
  simp only [List.forall_mem_cons]
  exact ⟨trivial, fits_uint32 _, fits_uint8 _, trivial, hactive, fits_uint32 _, nofun⟩

/-- The id and the number of failures, as they are read of the row of an account. -/
theorem counted_of_readAccount {active : SqlValue} {rows : List (List SqlValue)}
    {acct : Realmd.Account} (hactive : active.Fits)
    (h : Realmd.Conn.readAccount (answer 6 (row.checkedColumns active :: rows)).next.2 =
      some acct) :
    acct.id = row.id.toUInt64 ∧ acct.failedLogins = row.failedLogins.toUInt8 := by
  have hreads : ∀ i v, (row.checkedColumns active)[i]? = some v →
      (answer 6 (row.checkedColumns active :: rows)).next.2.ReadsAs (i + 1) v :=
    fun i v => readsAs_answer le_rfl (fits_checkedColumns hactive row)
  have hid := ResultSet.getUint32_of_readsAs (hreads 1 _ rfl)
  have hfailed := ResultSet.getUint8_of_readsAs_uint32 (hreads 5 _ rfl)
  rw [Realmd.Conn.readAccount] at h
  obtain ⟨_, -, h⟩ := Option.bind_eq_some_iff.mp h
  obtain ⟨id, hid', h⟩ := Option.bind_eq_some_iff.mp h
  obtain ⟨_, -, h⟩ := Option.bind_eq_some_iff.mp h
  obtain ⟨_, -, h⟩ := Option.bind_eq_some_iff.mp h
  obtain ⟨_, -, h⟩ := Option.bind_eq_some_iff.mp h
  obtain ⟨failedLogins, hfailed', h⟩ := Option.bind_eq_some_iff.mp h
  obtain rfl := Option.some.inj (hid.symm.trans hid')
  obtain rfl := Option.some.inj (hfailed.symm.trans hfailed')
  obtain rfl := Option.some.inj h
  exact ⟨rfl, rfl⟩

/-- **What a connection has of the account it asked for.** -/
theorem counted_of_loadedAccount {acct : Realmd.Account}
    (h : Realmd.loadedAccount (answer 6 (tables.checkedRows row)) = some acct) :
    acct.id = row.id.toUInt64 ∧ acct.failedLogins = row.failedLogins.toUInt8 := by
  obtain ⟨active, rows, hchecked, hactive⟩ := exists_checkedRows tables row
  have hfits : active.Fits := by
    rcases hactive with ⟨-, rfl⟩ | ⟨-, rfl⟩
    · trivial
    · exact fits_uint8 1
  rw [hchecked] at h
  exact counted_of_readAccount hfits (Option.ite_none_right_eq_some.mp h).2

/-! ### All connections -/

/-- In a run of the whole, the connections of the realm daemon are as they should be. -/
theorem inv_of_run
    (hrun : Runs.run (Estate.step sha hmac) (Estate.init now tables autoCommit) es = some s)
    {k : κ} {c : Realmd.Conn} (hc : s.realmd k = some c) : Realmd.Inv sha c := by
  rw [← List.take_length (l := es)] at hrun
  exact (keyed_of_run hrun).conn k c hc

/-- **What the guesses at a password come to.** In every run, and from any state of it until a
logon of the account is stored, the failures of all connections together are those that are
stored in the column of the row, those that are under way to it and those that are lost; and the
column is counted up by the first of them. A connection that asks for the account then starts
from the last byte of the column: its first failure leads to a ban if and only if the next number
is, in a byte, above the limit. -/
theorem guesses_counted
    (hreach : Runs.run (Estate.step sha hmac) (Estate.init now tables autoCommit) es₀ = some s)
    (hrow : row ∈ s.tables.account) (hrun : Runs.run (Estate.step sha hmac) s es = some t)
    (hno : ∀ i u ev u', Estate.StepAt sha hmac s es i u ev u' → ¬u.RewritesKey ev row) :
    ∃ row' ∈ t.tables.account, row.Same row' ∧
      row'.failedLogins.toNat = min (row.failedLogins.toNat +
        Runs.tally (Estate.step sha hmac) (Estate.stored row.id) s es) (2 ^ 32 - 1) ∧
      t.waiting row.id + (Runs.tally (Estate.step sha hmac) (Estate.stored row.id) s es +
          Runs.tally (Estate.step sha hmac) (Estate.lost row.id) s es) =
        s.waiting row.id + Runs.tally (Estate.step sha hmac) (Estate.guessed sha row.id) s es ∧
      ∀ m k other login t', t.tasks[m]? = some (.realmd k (accountRequest login)) →
        row.named collate (cStr login) = true →
        t.step sha hmac (.execute m other) = some t' →
        ∃ res, t'.answers = t.answers ++ [.realmd k .checkAcctObsv res] ∧
          ∀ acct, Realmd.loadedAccount res = some acct → acct.id = row.id.toUInt64 ∧
            ∀ c e c', c.acct = acct → FailsLogonProof sha c e → e.env.wrongPassBan = true →
              Realmd.step sha c e = some c' →
              (Bans c c' ↔
                e.env.wrongPassAmnt < ((row'.failedLogins.toNat + 1) % 256 : ℕ)) := by
  obtain ⟨row', hrow', hsame, hcolumn⟩ := Runs.tally_induction
    (P := fun n u => u.tables.Counted row n) (f := Estate.stored row.id)
    ⟨row, hrow, .refl row, (min_eq_left (Nat.le_pred_of_lt row.failedLogins.toNat_lt)).symm⟩
    (fun i n u ev u' hat h => h.of_step hat.2.2 (hno i u ev u' hat)) hrun
  have hbalance := Runs.tally_balance (g := fun u => u.waiting row.id)
    (a := fun u ev => u.stored row.id ev + u.lost row.id ev) (b := Estate.guessed sha row.id)
    (fun i u ev u' hat => waiting_of_step
      (fun k c hc => inv_of_run ((Runs.run_append_of_run hreach).trans hat.1) hc) hat.2.2 row.id)
    hrun
  rw [Runs.tally_add] at hbalance
  refine ⟨row', hrow', hsame, hcolumn, hbalance, ?_⟩
  intro m k other login t' htask hname hask
  refine ⟨_, answers_of_execute htask rfl hask, ?_⟩
  rw [select_accountRequest hrow' ((hsame.named_eq _).trans hname)]
  intro acct hacct
  obtain ⟨hid, hbyte⟩ := counted_of_loadedAccount hacct
  refine ⟨hid.trans (congrArg UInt32.toUInt64 hsame.id), ?_⟩
  rintro c e c' rfl hf hban hstep
  rw [hf.bans_iff hstep hban, hbyte, UInt8.toNat_add, UInt32.toNat_toUInt8, Nat.mod_add_mod,
    UInt8.toNat_one]

/-! ### A client that guesses -/

namespace Sample

/-- It asks to log on to the sample account, and is challenged. -/
def asking : List (EstateEvent Unit Unit) :=
  [.openRealmd () Realmd.Sample.start,
    .realmd () ⟨Realmd.Sample.banEnv, .input (Realmd.Client.challenge .authLogonChallenge
      Realmd.Sample.build Realmd.Sample.login)⟩,
    .execute 0 (answer 0 []), .answerRealmd 0 Realmd.Sample.banEnv,
    .execute 0 (answer 0 []), .answerRealmd 0 Realmd.Sample.banEnv]

/-- Its proof fails, and that is stored. -/
def guessing : List (EstateEvent Unit Unit) :=
  [.realmd () ⟨Realmd.Sample.banEnv, .input Realmd.Sample.guess⟩, .execute 2 (answer 0 [])]

/-- Whether a step is not that a logon is stored. -/
def storesNoLogon (s : Estate id Unit Unit) : EstateEvent Unit Unit → Bool
  | .execute i _ => (s.tasks[i]?).all fun
    | .realmd _ op => op.statement ≠ .updateAccount
    | _ => true
  | _ => true

theorem run_asking : (Runs.run (Estate.step Proxyd.Sample.zeroSha Proxyd.Sample.zeroHmac)
    (Estate.init 0 Sample.tables [false]) asking).isSome := by
  decide +kernel

/-- It starts with nothing under way, and the failure that comes is stored. -/
theorem counted_guessing : ∀ s ∈ Runs.run (Estate.step Proxyd.Sample.zeroSha
    Proxyd.Sample.zeroHmac) (Estate.init 0 Sample.tables [false]) asking,
    (Runs.run (Estate.step Proxyd.Sample.zeroSha Proxyd.Sample.zeroHmac) s guessing).isSome ∧
      Runs.allSteps (Estate.step Proxyd.Sample.zeroSha Proxyd.Sample.zeroHmac) storesNoLogon s
        guessing = true ∧
      Runs.tally (Estate.step Proxyd.Sample.zeroSha Proxyd.Sample.zeroHmac) (Estate.stored 7) s
        guessing = 1 ∧
      ∃ row ∈ s.tables.account, row.id = 7 ∧ row.failedLogins = 0 := by
  decide +kernel

end Sample

/-- The failure of the sample client is in the column. -/
theorem guesses_counted_sample : ∃ t : Estate id Unit Unit, ∃ row ∈ t.tables.account,
    row.id = 7 ∧ row.failedLogins.toNat = 1 := by
  obtain ⟨s, hreach⟩ := Option.isSome_iff_exists.mp Sample.run_asking
  obtain ⟨hsome, hsteps, hstored, row, hrow, hid, hzero⟩ := Sample.counted_guessing s hreach
  obtain ⟨t, hrun⟩ := Option.isSome_iff_exists.mp hsome
  obtain ⟨row', hrow', hsame, hcolumn, -⟩ := guesses_counted hreach hrow hrun (by
    rintro i u ev u' hat ⟨op, key, ⟨n, other, k, rfl, htask⟩, hst, -⟩
    have hgood := hat.of_allSteps hsteps
    rw [Sample.storesNoLogon, htask] at hgood
    exact absurd hst (of_decide_eq_true hgood))
  refine ⟨t, row', hrow', hsame.id.trans hid, ?_⟩
  rw [hid, hstored, hzero] at hcolumn
  exact hcolumn

end Realmdb

end Morfeusz
