import Morfeusz.Proxyd.CharCreate

/-!
# The table of start positions

`ObjectMgr` has an array of twelve by twelve start positions. `loadPlayerCreateInfoObsv`
writes into it what the table `player_createinfo` holds, when the query for it is answered,
and `Player::create` reads what a new character starts with. Both take one from a race and
from a class for their index, and neither looks at what comes of it.

Which races and classes a client may choose is up to the files of the game, and nothing but
the rows there are says for which of them there is a start position. So a run goes well if
and only if every row is inside of the array and every character that is created has its row
in what was loaded before (`Morfeusz.Proxyd.startPositions_iff`). With SQLite, where
`rowsCount` is zero before the first `next`, nothing is ever loaded.
-/

namespace Morfeusz.Proxyd

open ByteNumbers

/-! ### Loading -/

namespace ObjectMgr

/-- The `while` loop of `loadPlayerCreateInfoObsv::update`; the rows that are left bound it. -/
def loadLoop : ℕ → ResultSet → ObjectMgr → Option ObjectMgr
  | 0, _, m => some m
  | left + 1, res, m =>
    match res.next with
    | (true, res) => do
      let race ← res.getUint8 1
      let pclass ← res.getUint8 2
      let mapId ← res.getUint32 3
      let zoneId ← res.getUint32 4
      let positionX ← res.getFloat 5
      let positionY ← res.getFloat 6
      let positionZ ← res.getFloat 7
      let m ← m.setPlayerCreateInfo race pclass { mapId, zoneId, positionX, positionY, positionZ }
      loadLoop left res m
    | (false, _) => some m

/-- `loadPlayerCreateInfoObsv::update`. -/
def loadPlayerCreateInfoObsv (m : ObjectMgr) (res : ResultSet) : Option ObjectMgr :=
  if res.rowsCount = 0 then some m else loadLoop res.rows.length res m

end ObjectMgr

/-! ### Writing and reading -/

theorem index_isSome_iff {size : ℕ} {i : UInt8} :
    (index size i).isSome ↔ 1 ≤ i.toNat ∧ i.toNat ≤ size := by
  rw [index]
  split
  · next h => exact iff_of_true rfl (by omega)
  · next h => exact iff_of_false Bool.false_ne_true (by omega)

/-- An index comes of one number. -/
theorem index_inj {size : ℕ} {i j : UInt8} {k : Fin size} (hi : index size i = some k)
    (hj : index size j = some k) : i = j := by
  rw [index] at hi hj
  split at hi
  · next hi' =>
    split at hj
    · next hj' =>
      have heq := congrArg Fin.val ((Option.some.inj hi).trans (Option.some.inj hj).symm)
      dsimp only at heq
      exact UInt8.toNat_inj.mp (by omega)
    · cases hj
  · cases hi

/-- Race and class are inside of the array. -/
def InBounds (race pclass : UInt8) : Prop :=
  (1 ≤ race.toNat ∧ race.toNat ≤ raceMax) ∧ 1 ≤ pclass.toNat ∧ pclass.toNat ≤ classMax

instance (race pclass : UInt8) : Decidable (InBounds race pclass) :=
  inferInstanceAs (Decidable (_ ∧ _))

namespace ObjectMgr

variable {m m' : ObjectMgr} {race pclass : UInt8} {info : PlayerCreateInfo}

theorem exists_index (h : InBounds race pclass) :
    ∃ r p, index raceMax race = some r ∧ index classMax pclass = some p := by
  obtain ⟨r, hr⟩ := Option.isSome_iff_exists.mp (index_isSome_iff.mpr h.1)
  obtain ⟨p, hp⟩ := Option.isSome_iff_exists.mp (index_isSome_iff.mpr h.2)
  exact ⟨r, p, hr, hp⟩

/-- **A start position is written exactly inside of the array.** -/
theorem exists_setPlayerCreateInfo_iff :
    (∃ m', m.setPlayerCreateInfo race pclass info = some m') ↔ InBounds race pclass := by
  constructor
  · rintro ⟨m', h⟩
    rw [setPlayerCreateInfo] at h
    obtain ⟨r, hr, h⟩ := Option.bind_eq_some_iff.mp h
    obtain ⟨p, hp, -⟩ := Option.bind_eq_some_iff.mp h
    exact ⟨index_isSome_iff.mp (hr ▸ rfl), index_isSome_iff.mp (hp ▸ rfl)⟩
  · intro h
    obtain ⟨r, p, hr, hp⟩ := exists_index h
    rw [setPlayerCreateInfo, hr, hp]
    exact ⟨_, rfl⟩

/-- Nothing is there before it is written. -/
theorem getPlayerCreateInfo_init (race pclass : UInt8) :
    init.getPlayerCreateInfo race pclass = none := by
  rw [getPlayerCreateInfo]
  cases index raceMax race with
  | none => rfl
  | some r =>
    cases index classMax pclass with
    | none => rfl
    | some p => rfl

/-- One start position is written, and the others stay. -/
theorem getPlayerCreateInfo_set (h : m.setPlayerCreateInfo race pclass info = some m')
    (race' pclass' : UInt8) :
    m'.getPlayerCreateInfo race' pclass' =
      if race' = race ∧ pclass' = pclass then some info
      else m.getPlayerCreateInfo race' pclass' := by
  rw [setPlayerCreateInfo] at h
  obtain ⟨r, hr, h⟩ := Option.bind_eq_some_iff.mp h
  obtain ⟨p, hp, h⟩ := Option.bind_eq_some_iff.mp h
  obtain rfl := Option.some.inj h
  by_cases hsame : race' = race ∧ pclass' = pclass
  · obtain ⟨rfl, rfl⟩ := hsame
    rw [if_pos ⟨rfl, rfl⟩, getPlayerCreateInfo, hr, hp]
    exact if_pos ⟨rfl, rfl⟩
  · rw [if_neg hsame, getPlayerCreateInfo, getPlayerCreateInfo]
    cases hr' : index raceMax race' with
    | none => rfl
    | some r' =>
      cases hp' : index classMax pclass' with
      | none => rfl
      | some p' =>
        refine if_neg ?_
        rintro ⟨rfl, rfl⟩
        exact hsame ⟨index_inj hr' hr, index_inj hp' hp⟩

end ObjectMgr

/-! ### The rows -/

/-- The number in a column of a row, as a getter of a width reads it with MySQL. -/
def rowUint (row : List SqlValue) (width idx : ℕ) : ℕ :=
  leVal ((row[idx - 1]?.getD .null).buffer.take width)

/-- A row of `player_createinfo`. -/
structure StartRow where
  race : UInt8
  pclass : UInt8
  info : PlayerCreateInfo

/-- A row as it is read. -/
def startRow (row : List SqlValue) : StartRow where
  race := UInt8.ofNat (rowUint row 1 1)
  pclass := UInt8.ofNat (rowUint row 1 2)
  info :=
    { mapId := UInt32.ofNat (rowUint row 4 3)
      zoneId := UInt32.ofNat (rowUint row 4 4)
      positionX := UInt32.ofNat (rowUint row 4 5)
      positionY := UInt32.ofNat (rowUint row 4 6)
      positionZ := UInt32.ofNat (rowUint row 4 7) }

/-- The entry of a race and a class, of which the table has no more than one. -/
def startEntry (rows : List StartRow) (race pclass : UInt8) : Option PlayerCreateInfo :=
  (rows.reverse.find? fun row => row.race = race ∧ row.pclass = pclass).map StartRow.info

theorem isSome_startEntry_iff {rows : List StartRow} {race pclass : UInt8} :
    (startEntry rows race pclass).isSome ↔
      ∃ row ∈ rows, row.race = race ∧ row.pclass = pclass := by
  rw [startEntry, Option.isSome_map, List.find?_isSome]
  simp only [List.mem_reverse, decide_eq_true_eq]

/-- The answer of the query for the table. -/
structure StartAnswer where
  res : ResultSet
  fresh : res.Fresh
  columns : res.numFields = 7

/-- The table. -/
def StartAnswer.table (answer : StartAnswer) : List StartRow := answer.res.rows.map startRow

/-- The rows the observer goes through. -/
def StartAnswer.rows (answer : StartAnswer) : List StartRow :=
  match answer.res.engine with
  | .mysql => answer.table
  | .sqlite => []

theorem getUint_eq_rowUint {res : ResultSet} {row : List SqlValue} {pos width idx : ℕ}
    (hengine : res.engine = .mysql) (hpos : res.rowPosition = pos + 1)
    (hrow : res.rows[pos]? = some row) (h1 : 1 ≤ idx) (hle : idx ≤ res.numFields) :
    res.getUint width idx = some (rowUint row width idx) := by
  obtain ⟨hlt, hget⟩ := List.getElem?_eq_some_iff.mp hrow
  have hlast : (res.rows.take (pos + 1)).getLastD [] = row := by
    rw [List.take_succ_eq_append_getElem hlt, hget, List.getLastD_concat]
  rw [ResultSet.getUint, ResultSet.column, if_neg (by omega), if_neg (by omega), hpos, hlast,
    hengine]
  rfl

namespace ObjectMgr

/-- A row is written. -/
def setRow (m : ObjectMgr) (row : StartRow) : Option ObjectMgr :=
  m.setPlayerCreateInfo row.race row.pclass row.info

/-- **The loop writes row by row.** -/
theorem loadLoop_eq {res : ResultSet} {k : ℕ} {rows : List (List SqlValue)}
    (hengine : res.engine = .mysql) (hcolumns : res.numFields = 7)
    (hrows : res.rows.drop k = rows) (m : ObjectMgr) :
    loadLoop rows.length { res with rowPosition := k } m =
      (rows.map startRow).foldlM setRow m := by
  induction rows generalizing k m with
  | nil => rfl
  | cons row rows ih =>
    have hrow : res.rows[k]? = some row := by
      rw [← Nat.add_zero k, ← List.getElem?_drop, hrows]
      rfl
    have hlt : k < res.rows.length := (List.getElem?_eq_some_iff.mp hrow).1
    have hdrop : res.rows.drop (k + 1) = rows := by
      rw [← List.drop_drop, hrows]
      rfl
    have hnext : ({ res with rowPosition := k } : ResultSet).next =
        (true, { res with rowPosition := k + 1 }) := by
      rw [ResultSet.next_of_mysql (by exact hengine)]
      exact congrArg (·, _) (decide_eq_true hlt)
    have hget (width idx : ℕ) (h1 : 1 ≤ idx) (h7 : idx ≤ 7) :
        ({ res with rowPosition := k + 1 } : ResultSet).getUint width idx =
          some (rowUint row width idx) :=
      getUint_eq_rowUint (by exact hengine) rfl hrow h1 (by
        change idx ≤ res.numFields
        rw [hcolumns]
        exact h7)
    rw [List.length_cons, loadLoop, hnext]
    dsimp only
    simp only [ResultSet.getFloat, ResultSet.getUint8, ResultSet.getUint32,
      hget 1 1 (by decide) (by decide), hget 1 2 (by decide) (by decide),
      hget 4 3 (by decide) (by decide), hget 4 4 (by decide) (by decide),
      hget 4 5 (by decide) (by decide), hget 4 6 (by decide) (by decide),
      hget 4 7 (by decide) (by decide), Option.map_some, Option.bind_eq_bind, Option.bind_some]
    rw [List.map_cons, List.foldlM_cons]
    refine congrArg (Option.bind _) ?_
    funext m'
    exact ih hdrop m'

/-- **The observer writes the rows**, which are none with SQLite. -/
theorem loadPlayerCreateInfoObsv_eq (m : ObjectMgr) (answer : StartAnswer) :
    m.loadPlayerCreateInfoObsv answer.res = answer.rows.foldlM setRow m := by
  obtain ⟨res, hfresh, hcolumns⟩ := answer
  rw [loadPlayerCreateInfoObsv, StartAnswer.rows, StartAnswer.table, ResultSet.rowsCount]
  cases hengine : res.engine with
  | sqlite => exact if_pos hfresh
  | mysql =>
    dsimp only
    have hloop := loadLoop_eq hengine hcolumns (List.drop_zero (l := res.rows)) m
    have hsame : ({ res with rowPosition := 0 } : ResultSet) = res := by
      rw [← (show res.rowPosition = 0 from hfresh)]
    rw [hsame] at hloop
    rw [← hloop]
    split
    · next hnone =>
      rw [hnone]
      rfl
    · rfl

end ObjectMgr

namespace ObjectMgr

variable {m m' : ObjectMgr} {rows : List StartRow} {race pclass : UInt8}

/-- **Rows are written exactly if all of them are inside of the array.** -/
theorem exists_foldlM_setRow_iff :
    (∃ m', rows.foldlM setRow m = some m') ↔ ∀ row ∈ rows, InBounds row.race row.pclass := by
  induction rows generalizing m with
  | nil => exact iff_of_true ⟨m, rfl⟩ nofun
  | cons row rows ih =>
    rw [List.forall_mem_cons, List.foldlM_cons]
    constructor
    · rintro ⟨m', h⟩
      obtain ⟨m₁, h₁, h⟩ := Option.bind_eq_some_iff.mp h
      exact ⟨exists_setPlayerCreateInfo_iff.mp ⟨m₁, h₁⟩, ih.mp ⟨m', h⟩⟩
    · rintro ⟨hrow, hrows⟩
      have hset : ∃ m₁, m.setRow row = some m₁ := exists_setPlayerCreateInfo_iff.mpr hrow
      obtain ⟨m₁, h₁⟩ := hset
      have hrest : ∃ m', rows.foldlM setRow m₁ = some m' := ih.mpr hrows
      obtain ⟨m', h⟩ := hrest
      exact ⟨m', Option.bind_eq_some_iff.mpr ⟨m₁, h₁, h⟩⟩

/-- **A start position is the entry of the rows**, or what it was where they have none. -/
theorem getPlayerCreateInfo_of_foldlM_setRow (h : rows.foldlM setRow m = some m') :
    m'.getPlayerCreateInfo race pclass =
      (startEntry rows race pclass).or (m.getPlayerCreateInfo race pclass) := by
  induction rows using List.reverseRecOn generalizing m' with
  | nil =>
    obtain rfl := Option.some.inj h
    rfl
  | append_singleton rows row ih =>
    rw [List.foldlM_append] at h
    obtain ⟨m₁, h₁, h⟩ := Option.bind_eq_some_iff.mp h
    rw [List.foldlM_cons] at h
    obtain ⟨m₂, h₂, h⟩ := Option.bind_eq_some_iff.mp h
    obtain rfl := Option.some.inj h
    rw [getPlayerCreateInfo_set h₂, ih h₁]
    simp only [startEntry, List.reverse_append, List.reverse_singleton, List.singleton_append]
    by_cases hsame : race = row.race ∧ pclass = row.pclass
    · have hrow : decide (row.race = race ∧ row.pclass = pclass) = true :=
        decide_eq_true ⟨hsame.1.symm, hsame.2.symm⟩
      rw [if_pos hsame, List.find?_cons, hrow]
      rfl
    · have hrow : decide (row.race = race ∧ row.pclass = pclass) = false :=
        decide_eq_false fun heq => hsame ⟨heq.1.symm, heq.2.symm⟩
      rw [if_neg hsame, List.find?_cons, hrow]

/-- There is a start position where there was one, and where a row is. -/
theorem isSome_of_foldlM_setRow (h : rows.foldlM setRow m = some m') :
    (m'.getPlayerCreateInfo race pclass).isSome ↔
      (m.getPlayerCreateInfo race pclass).isSome ∨
        ∃ row ∈ rows, row.race = race ∧ row.pclass = pclass := by
  rw [getPlayerCreateInfo_of_foldlM_setRow h, Option.isSome_or, Bool.or_eq_true,
    isSome_startEntry_iff, or_comm]

theorem inBounds_of_getPlayerCreateInfo {info : PlayerCreateInfo}
    (h : m.getPlayerCreateInfo race pclass = some info) : InBounds race pclass := by
  rw [getPlayerCreateInfo] at h
  obtain ⟨r, hr, h⟩ := Option.bind_eq_some_iff.mp h
  obtain ⟨p, hp, -⟩ := Option.bind_eq_some_iff.mp h
  exact ⟨index_isSome_iff.mp (hr ▸ rfl), index_isSome_iff.mp (hp ▸ rfl)⟩

end ObjectMgr

/-! ### The characters -/

namespace Conn

variable {env : Env} {c c' : Conn} {pkt : ClientPkt} {race pclass : UInt8}

/-- `Player::create` is called with a race and a class: a packet with them has passed all
checks of `handle_cmsg_char_create`. -/
def CallsCreate (env : Env) (c : Conn) (pkt : ClientPkt) (race pclass : UInt8) : Prop :=
  ∃ f stored, pkt.Holds f ∧ f.race = race ∧ f.pclass = pclass ∧
    c.checkCharacter env f.race f.pclass f.name = .ok stored ∧ c.AnswersAllow env stored

/-- **It is called exactly where a character is created.** -/
theorem callsCreate_iff (h : c.handleCmsgCharCreate env pkt = some c') :
    c.CallsCreate env pkt race pclass ↔
      ∃ f stored, pkt.Holds f ∧ f.race = race ∧ f.pclass = pclass ∧
        c.Creates env f stored c' := by
  constructor
  · rintro ⟨f, stored, hf, hrace, hclass, hcheck, hallow⟩
    rcases handleCmsgCharCreate_some hf h with ⟨stored', -, -, hcreates⟩ | ⟨hnot, -⟩
    · exact ⟨f, stored', hf, hrace, hclass, hcreates⟩
    · exact absurd hallow (hnot stored hcheck)
  · rintro ⟨f, stored, hf, hrace, hclass, new, hanswered, -⟩
    rcases handleCmsgCharCreate_some hf h with ⟨stored', hcheck, hallow, -⟩ | ⟨-, hrefuses⟩
    · exact ⟨f, stored', hf, hrace, hclass, hcheck, hallow⟩
    · obtain ⟨response, new', hresponse, hanswered', -⟩ := hrefuses
      exact absurd (hanswered'.response_eq hanswered) hresponse

end Conn

/-! ### Every run -/

/-- What happens to the array. -/
inductive StartEvent
  /-- The query for the table is answered. -/
  | load (answer : StartAnswer)
  /-- A client wants to have a character created. -/
  | create (env : Env) (c : Conn) (pkt : ClientPkt)

namespace StartEvent

/-- The rows that are loaded. -/
def rows : StartEvent → List StartRow
  | load answer => answer.rows
  | create _ _ _ => []

/-- The accesses to the array are inside of it, and what is read was loaded. -/
def AccessesRight (m : ObjectMgr) : StartEvent → Prop
  | load answer => ∃ m', m.loadPlayerCreateInfoObsv answer.res = some m'
  | create env c pkt => ∀ race pclass, c.CallsCreate env pkt race pclass →
      InBounds race pclass ∧ ∃ info, m.getPlayerCreateInfo race pclass = some info

/-- The rows are inside of the array, and a character that is created has its row in what
was loaded earlier. -/
def Foreseen (earlier : List StartEvent) : StartEvent → Prop
  | load answer => ∀ row ∈ answer.rows, InBounds row.race row.pclass
  | create env c pkt => ∀ race pclass, c.CallsCreate env pkt race pclass →
      ∃ row ∈ earlier.flatMap rows, row.race = race ∧ row.pclass = pclass

end StartEvent

namespace ObjectMgr

/-- One event. -/
def step (m : ObjectMgr) : StartEvent → Option ObjectMgr
  | .load answer => m.loadPlayerCreateInfoObsv answer.res
  | .create _ _ _ => some m

variable {m m' : ObjectMgr} {es : List StartEvent}

/-- **What is in the array was loaded.** -/
theorem isSome_of_run (h : Runs.run step init es = some m) (race pclass : UInt8) :
    (m.getPlayerCreateInfo race pclass).isSome ↔
      ∃ row ∈ es.flatMap StartEvent.rows, row.race = race ∧ row.pclass = pclass := by
  induction es using List.reverseRecOn generalizing m with
  | nil =>
    obtain rfl := Option.some.inj h
    refine iff_of_false ?_ nofun
    rw [getPlayerCreateInfo_init]
    exact Bool.false_ne_true
  | append_singleton es e ih =>
    obtain ⟨m₁, h₁, hstep⟩ := Runs.run_concat_iff.mp h
    rw [List.flatMap_append, List.flatMap_singleton]
    simp only [List.mem_append, or_and_right, exists_or, ← ih h₁]
    cases e with
    | load answer =>
      rw [step, loadPlayerCreateInfoObsv_eq] at hstep
      exact isSome_of_foldlM_setRow hstep
    | create env c pkt =>
      obtain rfl := Option.some.inj hstep
      exact ⟨Or.inl, fun h => h.resolve_right (by rintro ⟨row, hrow, -⟩; cases hrow)⟩

end ObjectMgr

/-- The events of a list, from an array nothing was loaded into. -/
def startRun (es : List StartEvent) : Option ObjectMgr := Runs.run ObjectMgr.step .init es

/-- **The accesses to the array go well exactly as far as the data foresee them.** In any run
every access is inside of the array, and every start position that is read was loaded, if and
only if all rows are inside of it and each character that is created has its race and its
class in a row that was loaded earlier. -/
theorem startPositions_iff (es : List StartEvent) :
    (∀ i m (e : StartEvent), startRun (es.take i) = some m → es[i]? = some e →
        e.AccessesRight m) ↔
      ∀ i (e : StartEvent), es[i]? = some e → e.Foreseen (es.take i) := by
  -- both say the same of one event, where the run has come to it
  have hevent {i : ℕ} {m : ObjectMgr} (hm : startRun (es.take i) = some m) (e : StartEvent) :
      e.AccessesRight m ↔ e.Foreseen (es.take i) := by
    cases e with
    | load answer =>
      rw [StartEvent.AccessesRight, ObjectMgr.loadPlayerCreateInfoObsv_eq]
      exact ObjectMgr.exists_foldlM_setRow_iff
    | create env c pkt =>
      refine forall₂_congr fun race pclass => forall_congr' fun _ => ?_
      rw [← ObjectMgr.isSome_of_run hm, Option.isSome_iff_exists]
      refine and_iff_right_of_imp ?_
      rintro ⟨info, hinfo⟩
      exact ObjectMgr.inBounds_of_getPlayerCreateInfo hinfo
  -- an event that goes well is survived, so that the run comes to the next
  have hnext {i : ℕ} {m : ObjectMgr} {e : StartEvent} (hm : startRun (es.take i) = some m)
      (he : es[i]? = some e) (hright : e.AccessesRight m) :
      ∃ m', startRun (es.take (i + 1)) = some m' := by
    have hstep : ∃ m', m.step e = some m' := by
      cases e with
      | load answer => exact hright
      | create env c pkt => exact ⟨m, rfl⟩
    obtain ⟨m', hm'⟩ := hstep
    refine ⟨m', ?_⟩
    rw [List.take_add_one, he]
    exact Runs.run_concat_iff.mpr ⟨m, hm, hm'⟩
  constructor
  · intro hall
    have hrun : ∀ i, i ≤ es.length → ∃ m, startRun (es.take i) = some m := by
      intro i
      induction i with
      | zero => exact fun _ => ⟨.init, rfl⟩
      | succ i ih =>
        intro hi
        obtain ⟨m, hm⟩ := ih (Nat.le_of_succ_le hi)
        have he : es[i]? = some es[i] := List.getElem?_eq_getElem hi
        exact hnext hm he (hall i m _ hm he)
    intro i e he
    obtain ⟨m, hm⟩ := hrun i (List.getElem?_eq_some_iff.mp he).1.le
    exact (hevent hm e).mp (hall i m e hm he)
  · intro hall i m e hm he
    exact (hevent hm e).mpr (hall i e he)

/-! ### A race without a start position -/

namespace StartSample

/-- The first row of the table, which is for human warriors. -/
def answer : StartAnswer where
  res :=
    { engine := .mysql
      numFields := 7
      rows := [[.integer 1 1, .integer 1 1, .integer 2 0, .integer 4 12, .integer 4 0,
        .integer 4 0, .integer 4 0]] }
  fresh := rfl
  columns := rfl

/-- `CMSG_CHAR_CREATE` for the name `A` and the race 13, which the game has a row for and
no player has. -/
def naga : ClientPkt where
  siz := 15
  opcode := ClientOpcode.cmsgCharCreate.code
  payload := [65, 0, 13, 1, 0, 0, 0, 0, 0, 0, 0]
  complete := rfl

theorem callsCreate_naga :
    (Conn.init Sample.start).CallsCreate (RaceSample.env 1) naga 13 1 := by
  refine ⟨{ CreateSample.fields with race := 13 }, [65], ⟨by decide, [], rfl⟩, rfl, rfl, rfl, ?_⟩
  exact ⟨rfl, by decide, by decide⟩

end StartSample

/-- A race that is in the file of the races is outside of the array. -/
theorem not_accessesRight_naga :
    ¬∀ (es : List StartEvent) i m (e : StartEvent),
      startRun (es.take i) = some m → es[i]? = some e →
      e.AccessesRight m := by
  intro hclaim
  have hload : ∃ m, startRun [.load StartSample.answer] = some m := ⟨_, rfl⟩
  obtain ⟨m, hm⟩ := hload
  have hright := hclaim
    [.load StartSample.answer, .create (RaceSample.env 1) (Conn.init Sample.start) StartSample.naga]
    1 m _ hm rfl
  obtain ⟨⟨⟨-, hle⟩, -⟩, -⟩ := hright 13 1 StartSample.callsCreate_naga
  exact absurd hle (by decide)

end Morfeusz.Proxyd
