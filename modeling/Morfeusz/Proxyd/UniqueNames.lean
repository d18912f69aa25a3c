import Morfeusz.Proxyd.Numchars
import Morfeusz.Proxyd.Schedules

/-!
# Characters with one name, and the limit of an account

`handle_cmsg_char_create` asks whether the name is free and whether the account has room,
and later puts a transaction into the queue. The transaction asks nothing, and the table
has no key that would. So what the queries have seen may be out of date when the
transaction is committed, and the number of characters may be read from buffers that hold
none. Names and limits hold for as long as neither comes to anything
(`Morfeusz.Proxyd.unique_characters_iff`).
-/

namespace Morfeusz.Proxyd

open ByteNumbers

/-- No two characters have the same name, and no account has more than ten. -/
structure Unique (db : Database) (rows : List CharacterRow) : Prop where
  names : rows.Pairwise fun row row' => db.sameName row.name row'.name = false
  limit : ∀ account, (rows.countP fun row => row.account = account) ≤ 10

/-- What is committed is not out of date: no character of the same name was committed
since the query of the name; and none of the same account since its number was queried, a
number the handler has read as it had come, or there is still room for one. -/
def RaceFree (db : Database) (s : System) (e : SystemEvent) : Prop :=
  ∀ t row, s.Commits db e t row →
    (∀ row' ∈ s.committed.characters.drop t.seen.name.length,
      db.sameName row'.name row.name = false) ∧
    ((t.seen.intact = true ∧ row.account = t.seen.account ∧
        ∀ row' ∈ s.committed.characters.drop t.seen.count.length, row'.account ≠ row.account) ∨
      (s.committed.characters.countP fun row' => row'.account = row.account) < 10)

/-! ### What the queries say -/

/-- No character there is has the name. -/
def Free (db : Database) (rows : List CharacterRow) (name : List UInt8) : Prop :=
  db.engine = .mysql → ∀ row ∈ rows, db.sameName row.name name = false

/-- The account has room for one more character. -/
def Room (db : Database) (rows : List CharacterRow) (account : UInt32) : Prop :=
  db.engine = .mysql → (rows.countP fun row => Database.eqUint32 row.account account) < 10

variable {db : Database} {rows rows' : List CharacterRow}

theorem Unique.mono (h : Unique db rows) (hle : rows' <+: rows) : Unique db rows' :=
  ⟨h.names.sublist hle.sublist, fun account => (hle.sublist.countP_le).trans (h.limit account)⟩

theorem free_of_select {tables : Tables} {name : List UInt8}
    (h : (db.select tables (Conn.guidFromName name)).rowsCount = 0) :
    Free db tables.characters (cStr name) := by
  intro hmysql row hrow
  rw [ResultSet.rowsCount] at h
  have hengine : (db.select tables (Conn.guidFromName name)).engine = .mysql := hmysql
  rw [hengine] at h
  have hnil := List.filter_eq_nil_iff.mp (List.map_eq_nil_iff.mp (List.length_eq_zero_iff.mp h))
  simpa using hnil row hrow

/-- The byte of the number of characters. -/
theorem atLimit_charCount {tables : Tables} {account : UInt32} (hmysql : db.engine = .mysql)
    (limit : UInt8) :
    Conn.atLimit (db.select tables
        { statement := .getCharCount, params := [addUint32 1 account] }) limit =
      some (decide (limit ≤ UInt8.ofNat
        (tables.characters.countP fun row => Database.eqUint32 row.account account))) := by
  have hselect : db.select tables { statement := .getCharCount, params := [addUint32 1 account] } =
      { engine := .mysql
        numFields := 1
        rows := [[.integer 8 (tables.characters.countP fun row =>
          Database.eqUint32 row.account account)]] } := by
    rw [← hmysql]
    rfl
  rw [hselect, Conn.atLimit, ResultSet.next_of_mysql rfl]
  dsimp only
  rw [ResultSet.rowsCount, if_pos (by exact Nat.zero_lt_one), ResultSet.getUint8,
    ResultSet.getUint_of_mysql rfl rfl rfl le_rfl le_rfl rfl,
    ResultSet.leVal_take_buffer (by decide), Option.map_some, Option.map_some, pow_one]
  congr 3
  exact UInt8.ofNat_mod_size

theorem room_of_select {tables : Tables} {account : UInt32}
    (hlimit : Unique db tables.characters)
    (h : Conn.atLimit (db.select tables
      { statement := .getCharCount, params := [addUint32 1 account] }) 10 = some false) :
    Room db tables.characters account := by
  intro hmysql
  rw [atLimit_charCount hmysql] at h
  have hcount :
      (tables.characters.countP fun row => Database.eqUint32 row.account account) ≤ 10 := by
    refine (List.countP_mono_left ?_).trans (hlimit.limit account)
    intro row _ hrow
    rw [Database.eqUint32] at hrow
    exact decide_eq_true (of_decide_eq_true hrow).2
  have hlt := UInt8.lt_iff_toNat_lt.mp (UInt8.not_le.mp (of_decide_eq_false (Option.some.inj h)))
  rw [UInt8.toNat_ofNat', Nat.mod_eq_of_lt (hcount.trans_lt (by decide))] at hlt
  exact hlt

/-! ### The invariant -/

/-- The name of a handler was free when it was queried. -/
def Pending.Passed (h : Pending) : Prop :=
  h.query = .guidFromName → ∃ a, h.answer = some a ∧ a.res.rowsCount = 0

/-- What a handler that waits knows. -/
structure Pending.Checked (db : Database) (rows : List CharacterRow) (h : Pending) : Prop where
  name : h.seen.name <+: rows
  count : h.seen.count <+: rows
  free : h.Passed → Free db h.seen.name (cStr h.name)
  room : h.query = .charCount → ∀ a, h.answer = some a →
    Conn.atLimit a.res 10 = some false → Room db h.seen.count h.seen.account

/-- What is known of a transaction in the queue. -/
structure Task.Checked (db : Database) (rows : List CharacterRow) (t : Task) : Prop where
  name : t.seen.name <+: rows
  count : t.seen.count <+: rows
  free : ∀ ops, t.op = .transaction ops →
    ∃ name, CreatesCharacter name ops ∧ Free db t.seen.name (cStr name)
  room : ∀ ops, t.op = .transaction ops → t.seen.intact = true →
    Room db t.seen.count t.seen.account

/-- What holds while nothing that is committed is out of date. -/
structure UniqueInv (db : Database) (s : System) : Prop where
  sound : s.Sound
  unique : Unique db s.committed.characters
  creations : ∀ sock ∈ s.sockets, ∀ h ∈ sock.creation, h.Checked db s.committed.characters
  tasks : ∀ t ∈ s.tasks, ∀ ops, t.op = .transaction ops → t.Checked db s.committed.characters

theorem Pending.Checked.mono {h : Pending} (hchecked : h.Checked db rows)
    (hle : rows <+: rows') : h.Checked db rows' :=
  ⟨hchecked.name.trans hle, hchecked.count.trans hle, hchecked.free, hchecked.room⟩

theorem Task.Checked.mono {t : Task} (hchecked : t.Checked db rows) (hle : rows <+: rows') :
    t.Checked db rows' :=
  ⟨hchecked.name.trans hle, hchecked.count.trans hle, hchecked.free, hchecked.room⟩

/-- A handler at its first query knows nothing. -/
theorem Pending.checked_of_init {h : Pending} (hquery : h.query = .guidFromName)
    (hanswer : h.answer = none) (hseen : h.seen = .init) : h.Checked db rows := by
  refine ⟨?_, ?_, fun hpassed => ?_, fun hcount => ?_⟩
  · rw [hseen]
    exact List.nil_prefix
  · rw [hseen]
    exact List.nil_prefix
  · obtain ⟨a, ha, -⟩ := hpassed hquery
    cases hanswer.symm.trans ha
  · cases hquery.symm.trans hcount

/-- A handler that goes on knows that the name was free. -/
theorem Pending.Checked.goes {h h' : Pending} {a : Answer} {own : Bool}
    (hchecked : h.Checked db rows) (hanswer : h.answer = some a) (hgoes : h.Goes a own h') :
    h'.Checked db rows := by
  have hpassed : h.Passed := fun hquery =>
    ⟨a, hanswer, (a.rowsCount_read own).symm.trans (hgoes.next.free hquery)⟩
  refine ⟨?_, ?_, fun _ => ?_, fun _ a' ha' => ?_⟩
  · rw [hgoes.seen]
    exact hchecked.name
  · rw [hgoes.seen]
    exact hchecked.count
  · rw [hgoes.seen, hgoes.next.name]
    exact hchecked.free hpassed
  · cases hgoes.answer.symm.trans ha'

/-- **What an answer lets a handler know** is what the query saw. -/
theorem Pending.Checked.set {h : Pending} {w : ℕ} {op : ProxydRequest} {tables : Tables}
    (hchecked : h.Checked db rows) (hunique : Unique db rows)
    (hle : tables.characters <+: rows) :
    (h.set w op tables.characters (db.select tables op)).Checked db rows := by
  rw [Pending.set]
  split
  · next heq =>
    obtain ⟨rfl, hanswer⟩ := heq
    dsimp only
    split
    · next hquery =>
      refine ⟨hle, hchecked.count, fun hpassed => ?_, fun hcount => ?_⟩
      · obtain ⟨a, ha, hnone⟩ := hpassed hquery
        rw [← Option.some.inj ha, Creation.request, hquery] at hnone
        exact free_of_select hnone
      · cases hquery.symm.trans hcount
    · next hquery =>
      refine ⟨hchecked.name, hchecked.count, fun _ => ?_, fun hcount => ?_⟩
      · exact hchecked.free fun hname => by cases hquery.symm.trans hname
      · cases hquery.symm.trans hcount
    · next hquery =>
      refine ⟨hchecked.name, hle, fun _ => ?_, fun _ a ha hroom => ?_⟩
      · exact hchecked.free fun hname => by cases hquery.symm.trans hname
      · rw [← Option.some.inj ha, Creation.request, hquery] at hroom
        exact room_of_select (hunique.mono hle) hroom
  · exact hchecked

/-- An answer whose buffers are bound no more is still the answer to what was asked. -/
theorem Pending.Checked.replace {h : Pending} {w : ℕ} {statement : ProxyDatabaseStatements}
    (hchecked : h.Checked db rows) : (h.replace w statement).Checked db rows := by
  have hres : ∀ a, (h.answer.map (Answer.replace w)) = some a →
      ∃ a₀, h.answer = some a₀ ∧ a.res = a₀.res := by
    intro a ha
    obtain ⟨a₀, ha₀, rfl⟩ := Option.map_eq_some_iff.mp ha
    refine ⟨a₀, ha₀, ?_⟩
    rw [Answer.replace]
    split <;> rfl
  rw [Pending.replace]
  split
  · refine ⟨hchecked.name, hchecked.count, fun hpassed => hchecked.free fun hquery => ?_, ?_⟩
    · obtain ⟨a, ha, hnone⟩ := hpassed hquery
      obtain ⟨a₀, ha₀, hsame⟩ := hres a ha
      exact ⟨a₀, ha₀, hsame ▸ hnone⟩
    · intro hquery a ha hroom
      obtain ⟨a₀, ha₀, hsame⟩ := hres a ha
      exact hchecked.room hquery a₀ ha₀ (hsame ▸ hroom)
  · exact hchecked

/-- The transaction a handler makes carries what the handler knows. -/
theorem Task.checked_of_creation {h : Pending} {a : Answer} {own : Bool} {t : Task}
    {ops : List ProxydRequest} (hchecked : h.Checked db rows) (hanswer : h.answer = some a)
    (hquery : h.query = .charCount) (hroom : Conn.atLimit (a.read own) 10 = some false)
    (hcreates : CreatesCharacter h.name ops) (hop : t.op = .transaction ops)
    (hseen : t.seen = { h.seen with intact := a.intact own }) : t.Checked db rows := by
  refine ⟨?_, ?_, ?_, ?_⟩
  · rw [hseen]
    exact hchecked.name
  · rw [hseen]
    exact hchecked.count
  · intro ops' hop'
    obtain rfl := SqlOperation.transaction.inj (hop.symm.trans hop')
    refine ⟨h.name, hcreates, ?_⟩
    rw [hseen]
    exact hchecked.free fun hname => by cases hquery.symm.trans hname
  · intro _ _ hintact
    rw [hseen] at hintact ⊢
    rw [Answer.read_of_intact hintact] at hroom
    exact hchecked.room hquery a hanswer hroom

/-! ### One step -/

variable {s s' : System} {e : SystemEvent}

/-- Everything that was known before a step is known after it, and of what is new. -/
theorem UniqueInv.creations_of_trans (hinv : UniqueInv db s) (htrans : SystemTrans db s e s') :
    ∀ sock ∈ s'.sockets, ∀ h ∈ sock.creation, h.Checked db s'.committed.characters := by
  have hprefix := htrans.committed_prefix hinv.sound
  have hold : ∀ sock ∈ s.sockets, ∀ h ∈ sock.creation, h.Checked db s'.committed.characters :=
    fun sock hsock h hh => (hinv.creations sock hsock h hh).mono hprefix
  have hreplaced : ∀ w statement, ∀ sock ∈ s.sockets, ∀ h ∈ (sock.replace w statement).creation,
      h.Checked db s.committed.characters := by
    intro w statement sock hsock h hh
    obtain ⟨h₀, hh₀, rfl⟩ := Option.map_eq_some_iff.mp hh
    exact (hinv.creations sock hsock h₀ hh₀).replace
  intro sock' hsock' h' hh'
  cases htrans with
  | connected f hs =>
    rw [hs] at hsock'
    rcases List.mem_append.mp hsock' with hmem | hmem
    · exact hold sock' hmem h' hh'
    · rw [List.mem_singleton.mp hmem] at hh'
      cases hh'
  | moved k sock c' creation seen hsock hmoves hs =>
    rw [hs] at hsock'
    rcases List.mem_or_eq_of_mem_set hsock' with hmem | rfl
    · exact hold sock' hmem h' hh'
    · have hchecked := hold sock (List.mem_of_getElem? hsock)
      cases hmoves with
      | received hops hcreation hseen =>
        obtain ⟨hquery, hanswer, hinit⟩ := hcreation h' hh'
        exact Pending.checked_of_init hquery hanswer hinit
      | resumed h a own hh hanswer hops hcreation hseen =>
        exact (hchecked h hh).goes hanswer (hcreation h' hh')
      | created h a own ops hh hanswer hquery hroom hcreates hops hcreation hseen =>
        rw [hcreation] at hh'
        cases hh'
  | dequeued w worker t queue hworker hidle hqueue hs =>
    rw [hs] at hsock'
    exact hold sock' hsock' h' hh'
  | transacted w worker t error ops hexec hop hs =>
    have hsame : s'.sockets = s.sockets := by rw [hs]
    exact hold sock' (hsame ▸ hsock') h' hh'
  | failed w worker t op hexec hop hs =>
    have hsame : s'.committed = s.committed := by rw [hs]; rfl
    rw [hs] at hsock'
    obtain ⟨sock, hsock, rfl⟩ := List.mem_map.mp hsock'
    rw [hsame]
    exact hreplaced w _ sock hsock h' hh'
  | answered w worker t op sock c' creation hexec hop hsock hops hcreation hs =>
    have hsame : s'.committed = s.committed := by rw [hs]; rfl
    rw [hs] at hsock'
    rw [hsame]
    rcases List.mem_or_eq_of_mem_set hsock' with hmem | rfl
    · obtain ⟨sock₁, hsock₁, rfl⟩ := List.mem_map.mp hmem
      exact hreplaced w _ sock₁ hsock₁ h' hh'
    · have hchecked := hreplaced w op.statement sock (List.mem_of_getElem? hsock)
      rcases hcreation with rfl | rfl
      · exact hchecked h' hh'
      · obtain ⟨h, hh, rfl⟩ := Option.map_eq_some_iff.mp hh'
        exact (hchecked h hh).set hinv.unique
          (hinv.sound.visible (List.mem_of_getElem? hexec.hworker))

theorem UniqueInv.tasks_of_trans (hinv : UniqueInv db s) (htrans : SystemTrans db s e s') :
    ∀ t ∈ s'.tasks, ∀ ops, t.op = .transaction ops → t.Checked db s'.committed.characters := by
  have hprefix := htrans.committed_prefix hinv.sound
  intro t ht ops hop
  rcases htrans.tasks ht with hmem | ⟨k, sock, c', creation, seen, hsock, hmoves, hmem⟩
  · exact (hinv.tasks t hmem ops hop).mono hprefix
  · obtain ⟨h, a, own, hh, hanswer, hquery, hroom, hcreates, hseen⟩ :=
      Socket.Moves.transaction hmoves hmem hop
    have hchecked := hinv.creations sock (List.mem_of_getElem? hsock) h hh
    exact Task.checked_of_creation (hchecked.mono hprefix) hanswer hquery hroom hcreates hop
      hseen

/-- One more row keeps the names apart and the limit, exactly where it has its own name
and its account has room. -/
theorem unique_concat {row : CharacterRow} (h : Unique db rows) :
    Unique db (rows ++ [row]) ↔
      (∀ row' ∈ rows, db.sameName row'.name row.name = false) ∧
        (rows.countP fun row' => row'.account = row.account) < 10 := by
  constructor
  · rintro ⟨hnames, hlimit⟩
    have hcross := (List.pairwise_append.mp hnames).2.2
    refine ⟨fun row' hmem => hcross row' hmem row (List.mem_singleton_self row), ?_⟩
    have hcount := hlimit row.account
    rw [List.countP_append, List.countP_singleton, if_pos (decide_eq_true rfl)] at hcount
    omega
  · rintro ⟨hnames, hroom⟩
    constructor
    · refine List.pairwise_append.mpr ⟨h.names, List.pairwise_singleton _ _, ?_⟩
      intro row' hmem row'' hmem'
      rw [List.mem_singleton.mp hmem']
      exact hnames row' hmem
    · intro account
      rw [List.countP_append, List.countP_singleton]
      by_cases heq : row.account = account
      · rw [heq] at hroom
        rw [if_pos (decide_eq_true heq)]
        exact hroom
      · rw [if_neg (by simpa using heq)]
        exact h.limit account

/-- **A transaction that is not out of date finds the name free, and room for one more.** -/
theorem UniqueInv.unique_concat_of_raceFree (hinv : UniqueInv db s) {t : Task} {row : CharacterRow}
    (hcommits : s.Commits db e t row) (hfree : RaceFree db s e) :
    Unique db (s.committed.characters ++ [row]) := by
  obtain ⟨hmysql, ht, name, ops, hop, hcreates, hrow⟩ := hcommits.rowOf hinv.sound
  obtain ⟨hnames, hroom⟩ := hfree t row hcommits
  have hchecked := hinv.tasks t ht ops hop
  refine (unique_concat hinv.unique).mpr ⟨?_, ?_⟩
  · -- what the query saw, and what was committed since
    obtain ⟨name', hcreates', hfreeName⟩ := hchecked.free ops hop
    rw [← List.prefix_iff_eq_append.mp hchecked.name]
    intro row' hmem
    rcases List.mem_append.mp hmem with hseen | hsince
    · rw [(hcreates'.rowOf hrow).1]
      exact hfreeName hmysql row' hseen
    · exact hnames row' hsince
  · rcases hroom with ⟨hintact, haccount, hsince⟩ | hroom
    · have hseen := hchecked.room ops hop hintact hmysql
      have hnone : ((s.committed.characters.drop t.seen.count.length).countP fun row' =>
          row'.account = row.account) = 0 :=
        List.countP_eq_zero.mpr fun row' hmem => by simpa using hsince row' hmem
      rw [← List.prefix_iff_eq_append.mp hchecked.count, List.countP_append, hnone, Nat.add_zero]
      refine lt_of_eq_of_lt (List.countP_congr fun row' _ => ?_) hseen
      rw [← haccount, Database.eqUint32_of_lt (hcreates.rowOf hrow).2]
    · exact hroom

/-- **A step that is not out of date keeps the invariant.** -/
theorem UniqueInv.of_raceFree (hinv : UniqueInv db s) (htrans : SystemTrans db s e s')
    (hfree : RaceFree db s e) : UniqueInv db s' := by
  refine ⟨htrans.sound hinv.sound, ?_, hinv.creations_of_trans htrans, hinv.tasks_of_trans htrans⟩
  rcases htrans.committed hinv.sound with heq | ⟨t, row, hcommits, heq⟩
  · rw [heq]
    exact hinv.unique
  · rw [heq]
    exact hinv.unique_concat_of_raceFree hcommits hfree

/-- **A step that keeps the names apart and the limit is not out of date.** -/
theorem UniqueInv.raceFree {sha : Sha1} {hmac : Hmac} (hinv : UniqueInv db s)
    (hstep : s.step db sha hmac e = some s') (hunique : Unique db s'.committed.characters) :
    RaceFree db s e := by
  intro t row hcommits
  have hconcat : Unique db (s.committed.characters ++ [row]) := by
    rwa [← hcommits.committed hstep]
  obtain ⟨hnames, hroom⟩ := (unique_concat hinv.unique).mp hconcat
  exact ⟨fun row' hmem => hnames row' (List.mem_of_mem_drop hmem), Or.inr hroom⟩

/-! ### Runs -/

theorem uniqueInv_init {committed : Tables} (autoCommit : List Bool)
    (h : Unique db committed.characters) : UniqueInv db (.init committed autoCommit) := by
  refine ⟨System.sound_init committed autoCommit, h, ?_, ?_⟩
  · intro sock hsock
    cases hsock
  · intro t ht
    obtain ⟨worker, hworker, htask⟩ := (System.mem_tasks.mp ht).resolve_left List.not_mem_nil
    obtain ⟨b, -, rfl⟩ := List.mem_map.mp hworker
    cases htask

/-- **Names stay apart, and the limit is kept, for as long as nothing that is committed is
out of date.** From a table in which they do, whatever the workers and the sockets are and
in whatever order they take their steps: every state of a run has no two characters of one
name and no more than ten of one account, if and only if every transaction that the run
commits has found what its queries have seen. -/
theorem unique_characters_iff (db : Database) (sha : Sha1) (hmac : Hmac) (committed : Tables)
    (autoCommit : List Bool) (es : List SystemEvent) (h : Unique db committed.characters) :
    (∀ i s, Runs.run (System.step db sha hmac) (.init committed autoCommit) (es.take i) = some s →
        Unique db s.committed.characters) ↔
      ∀ i s e s', Runs.StepAt (System.step db sha hmac) (.init committed autoCommit) es i s e s' →
        RaceFree db s e := by
  refine Runs.forall_run_take_iff (P := UniqueInv db) ?_ ?_ ?_ (uniqueInv_init autoCommit h)
  · intro s hinv
    exact hinv.unique
  · intro s e s' hinv hstep hfree
    exact hinv.of_raceFree (systemTrans_of_step hstep) hfree
  · intro s e s' hinv hstep hunique
    exact hinv.raceFree hstep hunique

/-! ### Two clients and one name -/

namespace RaceSample

theorem fresh_nil (_ : ProxydRequest) :
    ({ engine := .mysql, numFields := 1, rows := [] } : ResultSet).Fresh := rfl

/-- Surroundings in which every letter, race and class is valid. -/
def env (maxGuid : UInt32) : Env where
  locale := { toupper := id, tolower := id, mbstowcs := fun s => s.head?.map UInt8.toUInt32 }
  stackName := fun _ => 0
  chrRaces := fun _ => some { addon := 0 }
  chrClasses := fun _ => true
  objectMgr := .init
  stray := fun _ _ => { mapId := 0, zoneId := 0, positionX := 0, positionY := 0, positionZ := 0 }
  maxGuid := maxGuid
  realmid := 1
  answer := fun _ => { engine := .mysql, numFields := 1, rows := [] }
  answer_fresh := fresh_nil
  heapKey := Bytes.zero 40

/-- `CMSG_CHAR_CREATE` for the name `A`. -/
def charCreate : ClientPkt where
  siz := 15
  opcode := ClientOpcode.cmsgCharCreate.code
  payload := [65, 0, 1, 1, 0, 0, 0, 0, 0, 0, 0]
  complete := rfl

def noAccount : ResultSet := { engine := .mysql, numFields := 7, rows := [] }

/-- A worker takes a task out of the queue and executes it. -/
def work (w : ℕ) : List SystemEvent := [.dequeue w, .execute w (env 0) noAccount false]

/-- Two clients create a character of one name, and every query of the second comes before
the transaction of the first. -/
def events : List SystemEvent :=
  [.connect Sample.start, .connect Sample.start, .packet 0 (env 1) charCreate,
    .packet 1 (env 2) charCreate] ++
  work 0 ++ [.resume 0 true] ++ work 0 ++ [.resume 1 true] ++
  work 0 ++ [.resume 0 true] ++ work 0 ++ [.resume 1 true] ++
  work 0 ++ [.resume 0 true] ++ work 0 ++ [.resume 1 true] ++ work 0 ++ work 0

/-- Tables without a row. -/
def empty : Tables := { characters := [], realmcharacters := [] }

theorem unique_empty : Unique Sample.database empty.characters :=
  ⟨List.Pairwise.nil, fun _ => Nat.zero_le _⟩

/-- With a single worker both characters are committed. -/
theorem exists_run_events : ∃ s,
    Runs.run (System.step Sample.database Sample.zeroSha Sample.zeroHmac) (.init empty [false])
      events = some s ∧ ¬Unique Sample.database s.committed.characters := by
  have hrun : (Runs.run (System.step Sample.database Sample.zeroSha Sample.zeroHmac)
      (.init empty [false]) events).map (fun s => s.committed.characters.map CharacterRow.name) =
        some [[65], [65]] := by
    decide +kernel
  obtain ⟨s, hs, hnames⟩ := Option.map_eq_some_iff.mp hrun
  refine ⟨s, hs, fun hunique => ?_⟩
  have hpairwise : (s.committed.characters.map CharacterRow.name).Pairwise
      fun name name' => Sample.database.sameName name name' = false :=
    List.pairwise_map.mpr hunique.names
  rw [hnames] at hpairwise
  exact absurd hpairwise (by decide)

end RaceSample

open RaceSample

/-- In that run something is out of date. -/
theorem unique_characters_iff_sample : ∃ i s e s',
    Runs.StepAt (System.step Sample.database Sample.zeroSha Sample.zeroHmac) (.init empty [false])
      events i s e s' ∧ ¬RaceFree Sample.database s e := by
  obtain ⟨s, hs, hnot⟩ := exists_run_events
  by_contra! hfree
  have hunique := (unique_characters_iff Sample.database Sample.zeroSha Sample.zeroHmac empty
    [false] events unique_empty).mpr hfree
  exact hnot (hunique events.length s (by rwa [List.take_length]))

/-- **Two characters get one name**, though a single worker executes every task. -/
theorem name_created_twice :
    ¬∀ (db : Database) (sha : Sha1) (hmac : Hmac) (committed : Tables) (autoCommit : List Bool)
      (es : List SystemEvent) (s : System), 1 ≤ autoCommit.length → autoCommit.length ≤ 32 →
      Unique db committed.characters →
      Runs.run (System.step db sha hmac) (.init committed autoCommit) es = some s →
        Unique db s.committed.characters := by
  intro hclaim
  obtain ⟨s, hs, hnot⟩ := exists_run_events
  exact hnot (hclaim _ _ _ _ _ _ _ (by decide) (by decide) unique_empty hs)

end Morfeusz.Proxyd
