import Morfeusz.Proxyd.Observers
import Morfeusz.Realmd.Transitions

/-!
# The completion of a request

A request with a future is executed by a worker, which binds its values, executes the
statement and sets the future; that calls the observer, and the observer calls back the
socket or the service. Any of these can throw. `execute` catches the exception, but it
does not set the future, so nobody is called and a thread that waits for the answer waits
for ever; and where it is the observer that throws, the callback is left out.

An observer is here what it calls back, in order (`Morfeusz.Update`), and the observers of
the two sockets are these calls made one after another. With SQLite the statement is executed by
`next`, so that it is there that it can fail. Where nothing fails all call back once but
for two: `getCharAmntObsv` calls back twice where `rowsCount` is zero before the first row,
which with SQLite it always is, and `getSessionKeyObsv` not at all where SQLite has no row
(`Morfeusz.completed_once_iff`).
-/

namespace Morfeusz

open Realmd (AccountState)

/-! ### What an observer calls -/

/-- The calls an observer makes, with their arguments, and whether a getter then throws. -/
structure Update (α : Type) where
  calls : List α
  thrown : Bool

namespace Update

variable {α σ : Type}

/-- One call. -/
def once (a : α) : Update α := { calls := [a], thrown := false }

/-- A call with what getters have read, or none where one throws. -/
def read (values : Option α) : Update α :=
  match values with
  | none => { calls := [], thrown := true }
  | some a => once a

/-- The observer behind some calls of its own. -/
def after (calls : List α) (u : Update α) : Update α := { u with calls := calls ++ u.calls }

/-- The calls made on a socket, where no getter throws. -/
def deliver (callback : σ → α → Option σ) (u : Update α) (c : σ) : Option σ :=
  if u.thrown then none else u.calls.foldlM callback c

variable {callback : σ → α → Option σ} {c : σ}

@[simp] theorem thrown_once (a : α) : (once a).thrown = false := rfl

@[simp] theorem calls_once (a : α) : (once a).calls = [a] := rfl

@[simp] theorem calls_after (calls : List α) (u : Update α) :
    (u.after calls).calls = calls ++ u.calls :=
  rfl

@[simp] theorem read_some (a : α) : read (some a) = once a := rfl

@[simp] theorem deliver_once (a : α) : (once a).deliver callback c = callback c a := by
  simp [deliver, once]

@[simp] theorem deliver_read (values : Option α) :
    (read values).deliver callback c = values.bind (callback c) := by
  cases values with
  | none => rfl
  | some a => exact deliver_once a

@[simp] theorem deliver_after (calls : List α) (u : Update α) : (u.after calls).deliver callback c =
    if u.thrown then none else (calls.foldlM callback c).bind fun c => u.deliver callback c := by
  cases h : u.thrown
  · simp [deliver, after, h, List.foldlM_append]
  · simp [deliver, after, h]

end Update

/-- The observers that wait for the result of a request. -/
inductive ResultObserver
  | checkIpBanObsv
  | checkAcctObsv
  | getSessionKeyObsv
  | getCharAmntObsv
  | getRealmListObsv
  | getAcctObsv
  | getCharsObsv
  deriving DecidableEq

namespace ResultObserver

/-- An observer that calls `next` first: with `failed` the rows end in an error, and `next`
throws there. -/
def afterNext {α : Type} (res : ResultSet) (failed : Bool) (u : Update α) : Update α :=
  if failed ∧ res.rows = [] then .read none else u

/-- `checkIpBanObsv::update`. -/
def checkIpBan (res : ResultSet) (failed : Bool) : Update Bool :=
  afterNext res failed (.once (decide (res.next.2.rowsCount ≠ 0)))

/-- `checkAcctObsv::update`. -/
def checkAcct (res : ResultSet) (failed : Bool) : Update (AccountState × Option Realmd.Account) :=
  let res' := res.next.2
  afterNext res failed
    (if res'.rowsCount = 0 then .once (.accountNotfound, none)
    else
      match res'.getUint8 5 with
      | none => .read none
      | some active =>
        if active ≠ 0 then .once (.accountBanned, none)
        else .read ((Realmd.Conn.readAccount res').map fun acc => (.accountExists, some acc)))

/-- `getSessionKeyObsv::update`: there is a text where the callback is told of a key. -/
def getSessionKey (res : ResultSet) (failed : Bool) : Update (Option (List UInt8)) :=
  let res' := res.next.2
  afterNext res failed
    (if res'.rowsCount ≠ 0 then .once none else .read ((res'.getString 1).map some))

/-- `getCharAmntObsv::update`. The loop calls `next` until it returns false, or throws. -/
def getCharAmnt (res : ResultSet) (failed : Bool) : Update (List (UInt8 × UInt8)) :=
  (Update.read (if failed then none else Realmd.Conn.charAmntLoop res.rows.length res [])).after
    (if res.rowsCount = 0 then [[]] else [])

/-- `getRealmListObsv::update`. It is the callback that calls `next`. -/
def getRealmList (res : ResultSet) : Update ResultSet := .once res

/-- `getAcctObsv::update`. -/
def getAcct (res : ResultSet) (failed : Bool) : Update (Option Proxyd.Account) :=
  if res.rowsCount = 0 then .once none
  else afterNext res failed (.read ((Proxyd.Conn.readAccount res.next.2).map some))

/-- `getCharsObsv::update`. -/
def getChars (res : ResultSet) (failed : Bool) : Update (Option (List Proxyd.Character)) :=
  if res.rowsCount = 0 then .once none
  else .read (if failed then none else (Proxyd.Conn.charsLoop res.rows.length res).map some)

/-- The calls an observer makes. -/
def callbacks (o : ResultObserver) (res : ResultSet) (failed : Bool) : ℕ :=
  match o with
  | checkIpBanObsv => (checkIpBan res failed).calls.length
  | checkAcctObsv => (checkAcct res failed).calls.length
  | getSessionKeyObsv => (getSessionKey res failed).calls.length
  | getCharAmntObsv => (getCharAmnt res failed).calls.length
  | getRealmListObsv => (getRealmList res).calls.length
  | getAcctObsv => (getAcct res failed).calls.length
  | getCharsObsv => (getChars res failed).calls.length

/-- The columns of the statement an observer is attached for. -/
def columns : ResultObserver → ℕ
  | checkIpBanObsv => 5
  | checkAcctObsv => 6
  | getSessionKeyObsv => 1
  | getCharAmntObsv => 2
  | getRealmListObsv => 8
  | getAcctObsv => 7
  | getCharsObsv => 13

/-! ### The observers of the sockets -/

@[simp] theorem afterNext_false {α : Type} (res : ResultSet) (u : Update α) :
    afterNext res false u = u := by
  simp [afterNext]

section Sockets

variable (sha : Sha1) (hmac : Hmac) (env : Realmd.Env) (env' : Proxyd.Env) (c : Realmd.Conn)
  (c' : Proxyd.Conn) (res : ResultSet)

theorem checkIpBanObsv_eq : c.checkIpBanObsv sha env res =
    (checkIpBan res false).deliver (fun c state => c.ipBanChecked sha env state) c := by
  rw [checkIpBan, afterNext_false, Update.deliver_once, Realmd.Conn.checkIpBanObsv]

theorem checkAcctObsv_eq : c.checkAcctObsv sha env res =
    (checkAcct res false).deliver
      (fun c answer =>
        { c with acct := answer.2.getD c.acct }.accountChecked sha env answer.1) c := by
  rw [checkAcct, afterNext_false, Realmd.Conn.checkAcctObsv]
  split
  · simp
  · cases res.next.2.getUint8 5 with
    | none => simp
    | some active =>
      by_cases hactive : active = 0
      · cases Realmd.Conn.readAccount res.next.2 <;> simp [hactive]
      · simp [hactive]

theorem getSessionKeyObsv_eq : c.getSessionKeyObsv env res =
    if (getSessionKey res false).thrown then some c
    else
      (getSessionKey res false).deliver
        (fun c text =>
          { c with k := (text.map (Realmd.Conn.keyOfText c.k)).getD c.k }.getSessionkeyAnswered
          env text.isSome) c := by
  rw [getSessionKey, afterNext_false, Realmd.Conn.getSessionKeyObsv]
  split
  · simp [Update.once, Update.deliver]
  · cases res.next.2.getString 1 with
    | none => rfl
    | some text => simp [Update.once, Update.read, Update.deliver]

theorem getCharAmntObsv_eq : c.getCharAmntObsv sha env res =
    (getCharAmnt res false).deliver (fun c amnt => c.getCharAmountAnswered sha env amnt) c := by
  rw [getCharAmnt, if_neg Bool.false_ne_true, Update.deliver_after, Realmd.Conn.getCharAmntObsv]
  cases hloop : Realmd.Conn.charAmntLoop res.rows.length res [] with
  | none => simp [Update.read]
  | some amnt => by_cases hcount : res.rowsCount = 0 <;> simp [hcount]

theorem getAcctObsv_eq : c'.getAcctObsv sha hmac env' res =
    (getAcct res false).deliver
      (fun c answer =>
        { c with acct := answer.getD c.acct }.accountRetrieved sha hmac env' answer.isSome)
      c' := by
  rw [getAcct, afterNext_false, Proxyd.Conn.getAcctObsv]
  split
  · simp
  · cases Proxyd.Conn.readAccount res.next.2 <;> simp

theorem getCharsObsv_eq : c'.getCharsObsv res =
    (getChars res false).deliver
      (fun c answer =>
        { c with characters := answer.getD c.characters }.charactersRetrieved answer.isSome)
      c' := by
  rw [getChars, if_neg Bool.false_ne_true, Proxyd.Conn.getCharsObsv]
  split
  · simp
  · cases Proxyd.Conn.charsLoop res.rows.length res <;> simp

end Sockets

/-! ### How often an observer calls back -/

variable {res : ResultSet}

/-- The columns of a row can be read. -/
theorem exists_getters (hrow : res.rowPosition ≠ 0) :
    ∃ v : ℕ → SqlValue, ∀ i, 1 ≤ i → i ≤ res.numFields → res.column i = some (v i) := by
  have hcol (i : ℕ) : ∃ v, 1 ≤ i → i ≤ res.numFields → res.column i = some v := by
    by_cases hi : 1 ≤ i ∧ i ≤ res.numFields
    · obtain ⟨v, hv⟩ := res.exists_column hrow hi.1 hi.2
      exact ⟨v, fun _ _ => hv⟩
    · exact ⟨.null, fun h1 hle => absurd ⟨h1, hle⟩ hi⟩
  choose v hv using hcol
  exact ⟨v, hv⟩

theorem exists_charAmntLoop (left : ℕ) (amnt : List (UInt8 × UInt8)) (hcols : res.numFields = 2) :
    ∃ amnt', Realmd.Conn.charAmntLoop left res amnt = some amnt' := by
  induction left generalizing res amnt with
  | zero => exact ⟨amnt, rfl⟩
  | succ left ih =>
    rw [Realmd.Conn.charAmntLoop]
    rcases hnext : res.next with ⟨_ | _, res'⟩
    · exact ⟨amnt, rfl⟩
    · have hpos := res.rowPosition_next_ne_zero (by rw [hnext])
      have hcols' := res.numFields_next
      rw [hnext] at hpos hcols'
      obtain ⟨v, hv⟩ := exists_getters hpos
      have h1 := hv 1 (by omega) (by omega)
      have h2 := hv 2 (by omega) (by omega)
      obtain ⟨amnt', hloop⟩ := ih _ (hcols'.trans hcols)
      exact ⟨amnt', by simpa [ResultSet.getUint8, ResultSet.getUint, h1, h2] using hloop⟩

theorem exists_charsLoop (left : ℕ) (hcols : res.numFields = 13) :
    ∃ chars, Proxyd.Conn.charsLoop left res = some chars := by
  induction left generalizing res with
  | zero => exact ⟨[], rfl⟩
  | succ left ih =>
    rw [Proxyd.Conn.charsLoop]
    rcases hnext : res.next with ⟨_ | _, res'⟩
    · exact ⟨[], rfl⟩
    · have hpos := res.rowPosition_next_ne_zero (by rw [hnext])
      have hcols' := res.numFields_next
      rw [hnext] at hpos hcols'
      obtain ⟨v, hv⟩ := exists_getters hpos
      obtain ⟨ch, hch⟩ : ∃ ch, Proxyd.Conn.readCharacter res' = some ch := by
        have hcol (i : ℕ) (h1 : 1 ≤ i) (hle : i ≤ 13) : res'.column i = some (v i) :=
          hv i h1 (by omega)
        simp [Proxyd.Conn.readCharacter, ResultSet.getString, ResultSet.getUint8,
          ResultSet.getUint32, ResultSet.getUint64, ResultSet.getFloat, ResultSet.getUint, hcol]
      obtain ⟨chars, hloop⟩ := ih (hcols'.trans hcols)
      exact ⟨ch :: chars, by simp [hch, hloop]⟩

section Callbacks

variable {failed : Bool}

theorem callbacks_afterNext {α : Type} (u : Update α) :
    (afterNext res failed u).calls.length =
      if failed ∧ res.rows = [] then 0 else u.calls.length := by
  rw [afterNext]
  split <;> rfl

theorem callbacks_checkAcct (hfresh : res.Fresh) (hcols : res.numFields = 6) :
    (checkAcct res failed).calls.length = if failed ∧ res.rows = [] then 0 else 1 := by
  rw [checkAcct, callbacks_afterNext]
  congr 1
  split
  · rfl
  · next hcount =>
    have hrow := ResultSet.rowPosition_next_of_rowsCount hfresh (Nat.pos_of_ne_zero hcount)
    obtain ⟨v, hv⟩ := exists_getters hrow
    rw [res.numFields_next, hcols] at hv
    have hcol (i : ℕ) (h1 : 1 ≤ i) (hle : i ≤ 6) : res.next.2.column i = some (v i) := hv i h1 hle
    obtain ⟨active, hactive⟩ : ∃ active, res.next.2.getUint8 5 = some active := by
      simp [ResultSet.getUint8, ResultSet.getUint, hcol]
    obtain ⟨acc, hacc⟩ : ∃ acc, Realmd.Conn.readAccount res.next.2 = some acc := by
      cases hengine : res.next.2.engine <;>
        simp [Realmd.Conn.readAccount, ResultSet.getString, ResultSet.getUint8, ResultSet.getUint32,
          ResultSet.getBool, ResultSet.getUint, hcol, hengine]
    rw [hactive, hacc]
    by_cases hzero : active = 0 <;> simp [hzero]

theorem callbacks_getSessionKey (hfresh : res.Fresh) (hcols : res.numFields = 1)
    (hfailed : failed = true → res.engine = .sqlite) :
    (getSessionKey res failed).calls.length =
      if res.engine = .sqlite ∧ res.rows = [] then 0 else 1 := by
  have hzero := ResultSet.rowsCount_next_eq_zero_iff hfresh
  rw [getSessionKey, callbacks_afterNext]
  by_cases hrows : res.rows = []
  · rw [if_neg (not_not.mpr (hzero.mpr hrows))]
    obtain ⟨engine, numFields, rows, pos⟩ := res
    obtain rfl : pos = 0 := hfresh
    obtain rfl : rows = [] := hrows
    obtain rfl : numFields = 1 := hcols
    cases engine with
    | mysql =>
      obtain rfl : failed = false := Bool.eq_false_iff.mpr fun h => by cases hfailed h
      rfl
    | sqlite => cases failed <;> rfl
  · rw [if_pos (mt hzero.mp hrows), if_neg fun h => hrows h.2, if_neg fun h => hrows h.2]
    rfl

theorem callbacks_getCharAmnt (hfresh : res.Fresh) (hcols : res.numFields = 2)
    (hfailed : failed = true → res.engine = .sqlite) :
    (getCharAmnt res failed).calls.length =
      if failed = true ∨ res.engine = .mysql ∧ res.rows ≠ [] then 1 else 2 := by
  obtain ⟨amnt, hloop⟩ := exists_charAmntLoop res.rows.length [] hcols
  rw [getCharAmnt, hloop, Update.calls_after]
  obtain ⟨engine, numFields, rows, pos⟩ := res
  obtain rfl : pos = 0 := hfresh
  cases hf : failed with
  | true =>
    obtain rfl : engine = .sqlite := hfailed hf
    rfl
  | false => cases engine <;> cases rows <;> rfl

theorem callbacks_getAcct (hfresh : res.Fresh) (hcols : res.numFields = 7)
    (hfailed : failed = true → res.engine = .sqlite) : (getAcct res failed).calls.length = 1 := by
  rw [getAcct]
  split
  · rfl
  · next hcount =>
    obtain rfl : failed = false := by
      refine Bool.eq_false_iff.mpr fun h => hcount ?_
      rw [ResultSet.rowsCount, hfailed h]
      exact hfresh
    have hrow : res.next.2.rowPosition ≠ 0 := by
      refine ResultSet.rowPosition_next_of_rowsCount hfresh (Nat.pos_of_ne_zero fun h => hcount ?_)
      rw [ResultSet.rowsCount_next_eq_zero_iff hfresh] at h
      obtain ⟨engine, numFields, rows, pos⟩ := res
      obtain rfl : pos = 0 := hfresh
      obtain rfl : rows = [] := h
      cases engine <;> rfl
    obtain ⟨v, hv⟩ := exists_getters hrow
    rw [res.numFields_next, hcols] at hv
    have hcol (i : ℕ) (h1 : 1 ≤ i) (hle : i ≤ 7) : res.next.2.column i = some (v i) := hv i h1 hle
    obtain ⟨acct, hacct⟩ : ∃ acct, Proxyd.Conn.readAccount res.next.2 = some acct := by
      simp [Proxyd.Conn.readAccount, ResultSet.getString, ResultSet.getUint8, ResultSet.getUint32,
        ResultSet.getUint, hcol]
    rw [afterNext_false, hacct]
    rfl

theorem callbacks_getChars (hfresh : res.Fresh) (hcols : res.numFields = 13)
    (hfailed : failed = true → res.engine = .sqlite) : (getChars res failed).calls.length = 1 := by
  rw [getChars]
  split
  · rfl
  · next hcount =>
    obtain rfl : failed = false := by
      refine Bool.eq_false_iff.mpr fun h => hcount ?_
      rw [ResultSet.rowsCount, hfailed h]
      exact hfresh
    obtain ⟨chars, hloop⟩ := exists_charsLoop res.rows.length hcols
    rw [hloop]
    rfl

/-- **When an observer calls back once**, with a result of its statement. -/
theorem callbacks_eq_one_iff (o : ResultObserver) (hfresh : res.Fresh)
    (hcols : res.numFields = o.columns) (hfailed : failed = true → res.engine = .sqlite) :
    o.callbacks res failed = 1 ↔
      (o = checkIpBanObsv ∨ o = checkAcctObsv → failed = true → res.rows ≠ []) ∧
        (o = getCharAmntObsv → failed = true ∨ res.engine = .mysql ∧ res.rows ≠ []) ∧
        (o = getSessionKeyObsv → res.engine = .mysql ∨ res.rows ≠ []) := by
  cases o with
  | checkIpBanObsv =>
    rw [callbacks, checkIpBan, callbacks_afterNext]
    simp
  | checkAcctObsv =>
    rw [callbacks, callbacks_checkAcct hfresh hcols]
    simp
  | getSessionKeyObsv =>
    rw [callbacks, callbacks_getSessionKey hfresh hcols hfailed]
    cases res.engine <;> simp
  | getCharAmntObsv =>
    rw [callbacks, callbacks_getCharAmnt hfresh hcols hfailed]
    cases failed <;> simp
  | getRealmListObsv => simp [callbacks, getRealmList]
  | getAcctObsv => simp [callbacks, callbacks_getAcct hfresh hcols hfailed]
  | getCharsObsv => simp [callbacks, callbacks_getChars hfresh hcols hfailed]

end Callbacks

end ResultObserver

/-! ### The execution of a request -/

/-- A request with a future, and how its execution goes. A request without an observer is
one whose answer a thread waits for in `enqueue_synch_query`. -/
structure FutureRequest where
  observer : Option ResultObserver
  /-- The values are bound one after another; `false` is a call that throws. -/
  binds : List Bool
  /-- What `executeQuery` returns; `none` where it throws. -/
  result : Option ResultSet
  /-- The rows end in an error, which is an exception of `next`. -/
  failed : Bool
  fresh : ∀ res, result = some res → res.Fresh
  columns : ∀ o res, observer = some o → result = some res → res.numFields = o.columns
  /-- MySQL executes the statement in `executeQuery`. -/
  engine : ∀ res, result = some res → failed = true → res.engine = .sqlite

/-- What the execution of a request has done when the worker deletes it. -/
structure Completion where
  /-- How often the future was set. -/
  sets : ℕ
  /-- How often the observer has called back. -/
  callbacks : ℕ

namespace FutureRequest

/-- `SqlOperationBase::execute`, of a request with a future. -/
def execute (r : FutureRequest) : Completion :=
  if false ∈ r.binds then { sets := 0, callbacks := 0 }
  else
    match r.result with
    | none => { sets := 0, callbacks := 0 }
    | some res =>
      -- the observer is called where the future is set
      { sets := 1, callbacks := (r.observer.map fun o => o.callbacks res r.failed).getD 0 }

/-- `get` of `enqueue_synch_query` waits until the future is set. -/
def returns (r : FutureRequest) : Prop := r.execute.sets ≠ 0

/-- What `getCharAmntObsv` does at the socket that has asked for the list of realms. -/
def answerRealmList (r : FutureRequest) (sha : Sha1) (env : Realmd.Env) (c : Realmd.Conn) :
    Option Realmd.Conn :=
  if false ∈ r.binds then some c
  else
    match r.result with
    | none => some c
    | some res =>
      (ResultObserver.getCharAmnt res r.failed).calls.foldlM
        (fun c amnt => c.getCharAmountAnswered sha env amnt) c

/-- **A request is completed once**: its future is set once, its observer calls back once,
the thread that waits for it goes on, and a client of a supported build that has asked for
the list of realms is sent one packet. -/
structure CompletedOnce (r : FutureRequest) : Prop where
  future : r.execute.sets = 1
  observer : ∀ o, r.observer = some o → r.execute.callbacks = 1
  returns : r.observer = none → r.returns
  realmlist : r.observer = some .getCharAmntObsv → ∀ sha env c c',
    r.answerRealmList sha env c = some c' →
      (Realmd.SupportedClientBuilds.ofNumber? c.clientBuild).isSome →
      c'.packetQueue.length = c.packetQueue.length + 1

end FutureRequest

/-- One callback queues one realm list. -/
theorem Realmd.Conn.packets_getCharAmountAnswered {sha : Sha1} {env : Realmd.Env}
    {c c' : Realmd.Conn} {amnt : List (UInt8 × UInt8)}
    (h : c.getCharAmountAnswered sha env amnt = some c')
    (hbuild : (SupportedClientBuilds.ofNumber? c.clientBuild).isSome) :
    c'.packetQueue.length = c.packetQueue.length + 1 := by
  rw [getCharAmountAnswered] at h
  obtain ⟨⟨c₁, sent⟩, h₁, h⟩ := Option.bind_eq_some_iff.mp h
  rcases sendRealmList_some h₁ with ⟨rfl, amnt', pkt, -, rfl⟩ | ⟨rfl, -⟩
  · obtain ⟨I, reqs, -, -, rfl⟩ := setVs_some h
    exact List.length_append
  · obtain ⟨build, hbuild⟩ := Option.isSome_iff_exists.mp hbuild
    rw [sendRealmList] at h₁
    dsimp only at h₁
    rw [hbuild] at h₁
    obtain ⟨x, -, hx⟩ := Option.bind_eq_some_iff.mp h₁
    cases hx

namespace FutureRequest

variable {r : FutureRequest} {res : ResultSet}

/-- A statement that is executed sets the future. -/
theorem execute_of_result (hbinds : false ∉ r.binds) (hres : r.result = some res) :
    r.execute =
      { sets := 1, callbacks := (r.observer.map fun o => o.callbacks res r.failed).getD 0 } := by
  rw [execute, if_neg hbinds, hres]

/-- Without one the future is not set. -/
theorem exists_result_of_sets (h : r.execute.sets = 1) :
    false ∉ r.binds ∧ ∃ res, r.result = some res := by
  rw [execute] at h
  split at h
  · cases h
  · next hbinds =>
    refine ⟨hbinds, ?_⟩
    cases hres : r.result with
    | none =>
      rw [hres] at h
      cases h
    | some res => exact ⟨res, rfl⟩

/-- One callback is one packet at the socket. -/
theorem packets_answerRealmList (hbinds : false ∉ r.binds) (hres : r.result = some res)
    (hone : ResultObserver.getCharAmntObsv.callbacks res r.failed = 1) {sha : Sha1}
    {env : Realmd.Env} {c c' : Realmd.Conn} (hanswer : r.answerRealmList sha env c = some c')
    (hbuild : (Realmd.SupportedClientBuilds.ofNumber? c.clientBuild).isSome) :
    c'.packetQueue.length = c.packetQueue.length + 1 := by
  obtain ⟨amnt, hcalls⟩ := List.length_eq_one_iff.mp hone
  rw [answerRealmList, if_neg hbinds, hres] at hanswer
  dsimp only at hanswer
  rw [hcalls, List.foldlM_cons] at hanswer
  have honce : c.getCharAmountAnswered sha env amnt = some c' := by simpa using hanswer
  exact Realmd.Conn.packets_getCharAmountAnswered honce hbuild

end FutureRequest

/-- **A request is completed once** if and only if all its values are bound, the statement
is executed, and the rows are such that its observer calls back once: those of `next` first
need a row where the rows end in an error, `getCharAmntObsv` needs an error or a row of
MySQL, and `getSessionKeyObsv` MySQL or a row. -/
theorem completed_once_iff (r : FutureRequest) :
    r.CompletedOnce ↔ false ∉ r.binds ∧ ∃ res, r.result = some res ∧
      (r.observer = some .checkIpBanObsv ∨ r.observer = some .checkAcctObsv →
        r.failed = true → res.rows ≠ []) ∧
      (r.observer = some .getCharAmntObsv →
        r.failed = true ∨ res.engine = .mysql ∧ res.rows ≠ []) ∧
      (r.observer = some .getSessionKeyObsv → res.engine = .mysql ∨ res.rows ≠ []) := by
  constructor
  · rintro ⟨hfuture, hobserver, -, -⟩
    obtain ⟨hbinds, res, hres⟩ := FutureRequest.exists_result_of_sets hfuture
    refine ⟨hbinds, res, hres, ?_⟩
    rcases ho : r.observer with _ | o
    · simp
    · have hone := hobserver o ho
      rw [FutureRequest.execute_of_result hbinds hres, ho] at hone
      have hiff := (o.callbacks_eq_one_iff (r.fresh res hres) (r.columns o res ho hres)
        (r.engine res hres)).mp hone
      simpa using hiff
  · rintro ⟨hbinds, res, hres, hnext, hamnt, hkey⟩
    have hexecute := FutureRequest.execute_of_result hbinds hres
    have hone (o : ResultObserver) (ho : r.observer = some o) : o.callbacks res r.failed = 1 := by
      rw [ho] at hnext hamnt hkey
      refine (o.callbacks_eq_one_iff (r.fresh res hres) (r.columns o res ho hres)
        (r.engine res hres)).mpr ?_
      simpa using And.intro hnext (And.intro hamnt hkey)
    refine ⟨by rw [hexecute], ?_, ?_, ?_⟩
    · intro o ho
      rw [hexecute, ho]
      exact hone o ho
    · intro _
      rw [FutureRequest.returns, hexecute]
      exact one_ne_zero
    · intro ho sha env c c' hanswer hbuild
      exact FutureRequest.packets_answerRealmList hbinds hres (hone _ ho) hanswer hbuild

/-- The request for the numbers of characters of an account that has none. -/
def CompletionSample.noCharacters : FutureRequest where
  observer := some .getCharAmntObsv
  binds := [true]
  result := some { engine := .mysql, numFields := 2, rows := [] }
  failed := false
  fresh := by
    rintro res ⟨⟩
    rfl
  columns := by
    rintro o res ⟨⟩ ⟨⟩
    rfl
  engine := by
    rintro res - ⟨⟩

/-- An account without characters is called back twice. -/
theorem getCharAmnt_called_back_twice :
    CompletionSample.noCharacters.execute = { sets := 1, callbacks := 2 } ∧
      ¬CompletionSample.noCharacters.CompletedOnce := by
  refine ⟨rfl, fun h => ?_⟩
  have hone := h.observer .getCharAmntObsv rfl
  exact absurd hone (by decide)

end Morfeusz
