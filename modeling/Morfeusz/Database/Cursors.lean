import Morfeusz.Lib.Runs
import Morfeusz.Lib.ByteNumbers

/-!
# The result sets of the two drivers

`SQLiteResultSet` and `MySQLPreparedResultSet`, each over the library it calls. What the
libraries do is a parameter, with what they document as its laws: SQLite steps a statement
from row to row and counts its columns from zero; MySQL has stored the result, and writes
the values of a row into the buffers it was given.

Both implement one interface, and `Morfeusz.SQL.answers_agree_iff` says in which sequences of
calls they give the same answers.
-/

namespace Morfeusz.SQL

open ByteNumbers

/-! ### A query result -/

/-- The types of columns both engines have; an integer has a width in bytes. -/
inductive ColumnType
  | integer (width : ℕ)
  | double
  | text
  deriving DecidableEq

/-- A value of a column. A double is its bits. -/
inductive ColumnValue
  | integer (width : ℕ) (v : ℤ)
  | double (bits : UInt64)
  | text (str : List UInt8)
  deriving DecidableEq

namespace ColumnValue

def type : ColumnValue → ColumnType
  | integer width _ => .integer width
  | double _ => .double
  | text _ => .text

/-- The bytes of a value, as MySQL writes them. -/
def bytes : ColumnValue → List UInt8
  | integer width v => leBytes width (v % 256 ^ width).toNat
  | double bits => leBytes 8 bits.toNat
  | text str => str

end ColumnValue

/-- `typeToSize`: the length of the values of a type, or 0 where they have no fixed one. It
throws for an integer of three bytes. -/
def typeToSize : ColumnType → Option ℕ
  | .integer width => if width ∈ [1, 2, 4, 8] then some width else none
  | .double => some 8
  | .text => some 0

/-- The rows of a query, none of whose values is null. MySQL makes no result set of a type it
does not support. -/
structure QueryResult where
  types : List ColumnType
  rows : List (List ColumnValue)
  supported : ∀ t ∈ types, (typeToSize t).isSome
  types_row : ∀ row ∈ rows, row.map ColumnValue.type = types

/-- The number of columns. -/
def QueryResult.numFields (result : QueryResult) : ℕ := result.types.length

/-- The value in a row and a column, which are counted from zero. -/
def QueryResult.value (result : QueryResult) (i j : ℕ) : Option ColumnValue :=
  result.rows[i]?.bind fun row => row[j]?

theorem QueryResult.exists_type (result : QueryResult) {i j : ℕ} {v : ColumnValue}
    (h : result.value i j = some v) : ∃ t, result.types[j]? = some t := by
  obtain ⟨row, hrow, hv⟩ := Option.bind_eq_some_iff.mp h
  refine ⟨v.type, ?_⟩
  rw [← result.types_row row (List.mem_of_getElem? hrow), List.getElem?_map, hv]
  rfl

/-- Every row has the columns that one has. -/
theorem QueryResult.exists_value_of_lt (result : QueryResult) {i i' j : ℕ} {v : ColumnValue}
    (h : result.value i j = some v) (hlt : i' < result.rows.length) :
    ∃ w, result.rows[i'][j]? = some w := by
  obtain ⟨t, ht⟩ := result.exists_type h
  rw [← result.types_row _ (List.getElem_mem hlt), List.getElem?_map] at ht
  obtain ⟨w, hw, -⟩ := Option.map_eq_some_iff.mp ht
  exact ⟨w, hw⟩

/-! ### The libraries -/

/-- What `sqlite3_step` returns. -/
inductive SQLiteCode
  | row
  | done
  | misuse
  deriving DecidableEq

/-- Where a statement of SQLite is. -/
inductive SQLitePosition
  | ready
  | row (i : ℕ)
  | done
  deriving DecidableEq

/-- The row the next step goes to. A statement that is done is reset by the library itself
from some version on, and may not be stepped before that. -/
def SQLitePosition.next (autoReset : Bool) : SQLitePosition → Option ℕ
  | ready => some 0
  | row i => some (i + 1)
  | done => if autoReset then some 0 else none

/-- What `sqlite3_column_int`, `sqlite3_column_int64`, `sqlite3_column_double` and
`sqlite3_column_text`, with the length of `sqlite3_column_bytes`, return for a column. A
double is its bits. -/
structure SQLiteColumn where
  int : UInt32
  int64 : UInt64
  double : UInt64
  text : List UInt8

/-- The functions of SQLite that a result set calls. A column there is not, or without a
row, is undefined. -/
structure SQLiteQuery (result : QueryResult) where
  Stmt : Type
  prepared : Stmt
  /-- `sqlite3_step`. -/
  step : Stmt → SQLiteCode × Stmt
  /-- A column of the current row, which is counted from zero. -/
  column : Stmt → ℕ → SQLiteColumn
  /-- What the library converts a value to. -/
  convert : ColumnValue → SQLiteColumn
  autoReset : Bool
  position : Stmt → SQLitePosition
  position_prepared : position prepared = .ready
  step_row : ∀ stmt i, (position stmt).next autoReset = some i → i < result.rows.length →
    (step stmt).1 = .row ∧ position (step stmt).2 = .row i
  step_done : ∀ stmt i, (position stmt).next autoReset = some i → result.rows.length ≤ i →
    (step stmt).1 = .done ∧ position (step stmt).2 = .done
  step_misuse : ∀ stmt, (position stmt).next autoReset = none →
    (step stmt).1 = .misuse ∧ position (step stmt).2 = position stmt
  column_eq : ∀ stmt i j v, position stmt = .row i → result.value i j = some v →
    column stmt j = convert v
  /-- An integer is converted by its low bits. -/
  convert_int : ∀ width v, (convert (.integer width v)).int = UInt32.ofNat (v % 2 ^ 32).toNat
  convert_int64 : ∀ width v, (convert (.integer width v)).int64 = UInt64.ofNat (v % 2 ^ 64).toNat
  convert_double : ∀ bits, (convert (.double bits)).double = bits
  convert_text : ∀ str, (convert (.text str)).text = str

/-- The functions of MySQL that a result set calls. A value is written to the front of its
buffer. -/
structure MySQLQuery (result : QueryResult) where
  Stmt : Type
  stored : Stmt
  /-- `mysql_stmt_fetch`: the row that is fetched, if there is one. -/
  fetch : Stmt → Option (List ColumnValue) × Stmt
  /-- How a value is written to a buffer. -/
  write : List UInt8 → ColumnValue → List UInt8
  /-- `max_length` of a column. -/
  maxLength : ℕ → ℕ
  /-- The number of rows that were fetched. -/
  fetched : Stmt → ℕ
  fetched_stored : fetched stored = 0
  fetch_row : ∀ stmt row, result.rows[fetched stmt]? = some row →
    (fetch stmt).1 = some row ∧ fetched (fetch stmt).2 = fetched stmt + 1
  fetch_none : ∀ stmt, result.rows.length ≤ fetched stmt →
    (fetch stmt).1 = none ∧ fetched (fetch stmt).2 = fetched stmt
  length_write : ∀ buffer v, (write buffer v).length = buffer.length
  take_write : ∀ buffer v, v.bytes.length ≤ buffer.length →
    (write buffer v).take v.bytes.length = v.bytes
  le_maxLength : ∀ i j v, result.value i j = some v → v.bytes.length ≤ maxLength j

/-! ### The interface -/

/-- The getters of `ResultSet`. -/
inductive Getter
  | bool
  | uint8
  | uint16
  | uint32
  | int8
  | int16
  | int32
  | double
  | float
  | uint64
  | int64
  | string
  deriving DecidableEq

/-- What a call of a result set answers. A number is its bits. -/
inductive Answer
  | thrown
  | bool (b : Bool)
  | bits (width : ℕ) (n : ℕ)
  | string (str : List UInt8)
  deriving DecidableEq

/-- The width of the numbers a getter of integers returns. -/
def Getter.width : Getter → Option ℕ
  | uint8 | int8 => some 1
  | uint16 | int16 => some 2
  | uint32 | int32 => some 4
  | uint64 | int64 => some 8
  | _ => none

/-- What a getter that fits a value is to return. -/
def ColumnValue.as : ColumnValue → Getter → Option Answer
  | integer width v, g =>
    g.width.bind fun n => if n ≤ width then some (.bits n (v % 256 ^ n).toNat) else none
  | double bits, .double => some (.bits 8 bits.toNat)
  | text str, .string => some (.string str)
  | _, _ => none

/-- A signed number is above zero: its bits are not zero, and the highest is not set. -/
def positive (width n : ℕ) : Bool := 0 < n ∧ n < 2 ^ (8 * width - 1)

/-! ### SQLite -/

/-- What a getter makes of a column. -/
def SQLiteColumn.read (truncate : UInt64 → UInt64) (column : SQLiteColumn) : Getter → Answer
  | .bool => .bool (positive 4 column.int.toNat)
  | .uint8 => .bits 1 (column.int.toNat % 2 ^ 8)
  | .uint16 => .bits 2 (column.int.toNat % 2 ^ 16)
  | .uint32 => .bits 4 column.int.toNat
  | .int8 => .bits 1 (column.int.toNat % 2 ^ 8)
  | .int16 => .bits 2 (column.int.toNat % 2 ^ 16)
  | .int32 => .bits 4 column.int.toNat
  | .double => .bits 8 (truncate column.double).toNat
  | .float => .bits 4 column.int.toNat
  | .uint64 => .bits 8 column.int64.toNat
  | .int64 => .bits 8 column.int64.toNat
  | .string => .string column.text

section SQLite

variable {result : QueryResult} (lib : SQLiteQuery result)

/-- The low bytes of an integer. -/
theorem SQLiteQuery.read_convert_integer {g : Getter} {n : ℕ} (h : g.width = some n)
    (truncate : UInt64 → UInt64) (width : ℕ) (v : ℤ) :
    (lib.convert (.integer width v)).read truncate g = .bits n (v % 256 ^ n).toNat := by
  have h32 := lib.convert_int width v
  have h64 := lib.convert_int64 width v
  have e32 : (lib.convert (.integer width v)).int.toNat = (v % 2 ^ 32).toNat := by
    rw [h32, UInt32.toNat_ofNat']
    omega
  have e64 : (lib.convert (.integer width v)).int64.toNat = (v % 2 ^ 64).toNat := by
    rw [h64, UInt64.toNat_ofNat']
    omega
  cases g <;> cases h <;> rw [SQLiteColumn.read] <;> refine congrArg _ ?_ <;> omega

/-- `SQLiteResultSet`. -/
structure SQLiteResultSet where
  stmt : lib.Stmt
  rowPosition : UInt32
  numRows : UInt32

/-- `SQLiteResultSet::SQLiteResultSet`. -/
def SQLiteResultSet.init : SQLiteResultSet lib :=
  { stmt := lib.prepared, rowPosition := 0, numRows := 0 }

namespace SQLiteResultSet

variable {lib}

/-- `next`. -/
def next (res : SQLiteResultSet lib) : Answer × SQLiteResultSet lib :=
  let stmt := (lib.step res.stmt).2
  match (lib.step res.stmt).1 with
  | .row =>
    (.bool true, { stmt, rowPosition := res.rowPosition + 1, numRows := res.numRows + 1 })
  | .done => (.bool false, { res with stmt })
  | .misuse => (.thrown, { res with stmt })

/-- `rowsCount`. -/
def rowsCount (res : SQLiteResultSet lib) : Answer := .bits 4 res.numRows.toNat

/-- The getters, for an index of a column, with which the library is asked. `truncate` is the
conversion of a double to `int32` and back. -/
def get (truncate : UInt64 → UInt64) (res : SQLiteResultSet lib) (g : Getter) (idx : UInt8) :
    Answer :=
  if idx = 0 ∨ result.numFields < idx.toNat then .thrown
  else if res.rowPosition = 0 then .thrown
  else (lib.column res.stmt idx.toNat).read truncate g

theorem next_of_row {res : SQLiteResultSet lib} (h : (lib.step res.stmt).1 = .row) :
    res.next = (.bool true,
      ⟨(lib.step res.stmt).2, res.rowPosition + 1, res.numRows + 1⟩) := by
  rw [next, h]

theorem next_of_done {res : SQLiteResultSet lib} (h : (lib.step res.stmt).1 = .done) :
    res.next = (.bool false, ⟨(lib.step res.stmt).2, res.rowPosition, res.numRows⟩) := by
  rw [next, h]

theorem next_of_misuse {res : SQLiteResultSet lib} (h : (lib.step res.stmt).1 = .misuse) :
    res.next = (.thrown, ⟨(lib.step res.stmt).2, res.rowPosition, res.numRows⟩) := by
  rw [next, h]

end SQLiteResultSet

end SQLite

/-! ### MySQL -/

/-- What a getter makes of a buffer, as many bytes of which as it takes are read; a string
takes the length of the value. -/
def readBytes (bytes : ℕ → List UInt8) (length : ℕ) : Getter → Answer
  | .bool => .bool (positive 1 (leVal (bytes 1)))
  | .uint8 => .bits 1 (leVal (bytes 1))
  | .uint16 => .bits 2 (leVal (bytes 2))
  | .uint32 => .bits 4 (leVal (bytes 4))
  | .int8 => .bits 1 (leVal (bytes 1))
  | .int16 => .bits 2 (leVal (bytes 2))
  | .int32 => .bits 4 (leVal (bytes 4))
  | .double => .bits 8 (leVal (bytes 8))
  | .float => .bits 4 (leVal (bytes 4))
  | .uint64 => .bits 8 (leVal (bytes 8))
  | .int64 => .bits 8 (leVal (bytes 8))
  | .string => .string (bytes length)

theorem readBytes_of_width {g : Getter} {n : ℕ} (h : g.width = some n) (bytes : ℕ → List UInt8)
    (length : ℕ) : readBytes bytes length g = .bits n (leVal (bytes n)) := by
  cases g <;> cases h <;> rfl

/-- The low bytes of an integer. -/
theorem leVal_take_bytes {n width : ℕ} (h : n ≤ width) (v : ℤ) :
    leVal ((ColumnValue.integer width v).bytes.take n) = (v % 256 ^ n).toNat := by
  have hpow : (256 : ℤ) ^ width ≠ 0 := pow_ne_zero _ (by decide)
  have hdvd : (256 : ℤ) ^ n ∣ 256 ^ width := pow_dvd_pow 256 h
  rw [ColumnValue.bytes, take_leBytes h, leVal_leBytes, ← Int.toNat_natCast (_ % 256 ^ n),
    Int.natCast_mod, Int.toNat_of_nonneg (Int.emod_nonneg v hpow), Nat.cast_pow, Nat.cast_ofNat,
    Int.emod_emod_of_dvd v hdvd]

section MySQL

variable {result : QueryResult} (lib : MySQLQuery result)

/-- `MySQLPreparedResultSet`, with the buffers of its columns and the lengths of their
values. -/
structure MySQLPreparedResultSet where
  stmt : lib.Stmt
  rowPosition : UInt32
  numRows : UInt32
  buffers : List (List UInt8)
  length : List ℕ

/-- The length of a buffer in `fillBindResult`. -/
def bufferLength (t : ColumnType) (maxLength : ℕ) : ℕ :=
  if typeToSize t = some 0 then maxLength + 1 else maxLength

/-- `MySQLPreparedResultSet::MySQLPreparedResultSet`, which has the result stored and zeroes
the buffers. -/
def MySQLPreparedResultSet.init : MySQLPreparedResultSet lib where
  stmt := lib.stored
  rowPosition := 0
  numRows := UInt32.ofNat result.rows.length
  buffers := result.types.mapIdx fun j t => List.replicate (bufferLength t (lib.maxLength j)) 0
  length := result.types.map fun _ => 0

namespace MySQLPreparedResultSet

variable {lib}

/-- `next`. -/
def next (res : MySQLPreparedResultSet lib) : Answer × MySQLPreparedResultSet lib :=
  let stmt := (lib.fetch res.stmt).2
  match (lib.fetch res.stmt).1 with
  | some row =>
    (.bool true,
      { res with
        stmt
        rowPosition := res.rowPosition + 1
        buffers := res.buffers.zipWith lib.write row
        length := row.map fun v => v.bytes.length })
  | none => (.bool false, { res with stmt, rowPosition := res.rowPosition + 1 })

/-- `rowsCount`. -/
def rowsCount (res : MySQLPreparedResultSet lib) : Answer := .bits 4 res.numRows.toNat

/-- The bytes at the buffer of a column; behind the buffer there is something else on the
heap. -/
def bytes (heap : ℕ → ℕ → UInt8) (res : MySQLPreparedResultSet lib) (column width : ℕ) :
    List UInt8 :=
  (List.range width).map fun k => ((res.buffers.getD column [])[k]?).getD (heap column k)

/-- The getters, for an index of a column. -/
def get (heap : ℕ → ℕ → UInt8) (res : MySQLPreparedResultSet lib) (g : Getter) (idx : UInt8) :
    Answer :=
  if idx = 0 ∨ result.numFields < idx.toNat then .thrown
  else if res.rowPosition = 0 then .thrown
  else readBytes (res.bytes heap (idx.toNat - 1)) (res.length.getD (idx.toNat - 1) 0) g

theorem next_fst (res : MySQLPreparedResultSet lib) :
    res.next.1 = .bool (lib.fetch res.stmt).1.isSome := by
  rw [next]
  cases (lib.fetch res.stmt).1 <;> rfl

/-- Whether or not there is a row, the position goes on. -/
theorem next_snd (res : MySQLPreparedResultSet lib) :
    res.next.2.stmt = (lib.fetch res.stmt).2 ∧ res.next.2.rowPosition = res.rowPosition + 1 ∧
      res.next.2.numRows = res.numRows := by
  rw [next]
  cases (lib.fetch res.stmt).1 <;> exact ⟨rfl, rfl, rfl⟩

/-! ### What is in the buffers -/

/-- The buffers are long enough, and hold the row that was fetched last. -/
structure Filled (res : MySQLPreparedResultSet lib) : Prop where
  le_length : ∀ i j v, result.value i j = some v → v.bytes.length ≤ (res.buffers.getD j []).length
  take : ∀ i j v, lib.fetched res.stmt = i + 1 → result.value i j = some v →
    (res.buffers.getD j []).take v.bytes.length = v.bytes
  length : ∀ i j v, lib.fetched res.stmt = i + 1 → result.value i j = some v →
    res.length.getD j 0 = v.bytes.length

theorem filled_init : (init lib).Filled := by
  constructor
  · intro i j v hv
    obtain ⟨t, ht⟩ := result.exists_type hv
    have hbuffer : (init lib).buffers.getD j [] =
        List.replicate (bufferLength t (lib.maxLength j)) 0 := by
      rw [init, List.getD_eq_getElem?_getD, List.getElem?_mapIdx, ht]
      rfl
    rw [hbuffer, List.length_replicate]
    refine (lib.le_maxLength i j v hv).trans ?_
    rw [bufferLength]
    split
    · exact Nat.le_succ _
    · exact le_rfl
  · intro i j v hfetched
    cases lib.fetched_stored.symm.trans hfetched
  · intro i j v hfetched
    cases lib.fetched_stored.symm.trans hfetched

/-- A buffer keeps its length, and has the value that is written to it. -/
theorem written_spec (buffers : List (List UInt8)) (j : ℕ) (w : ColumnValue) :
    (((buffers[j]?).map fun buffer => lib.write buffer w).getD []).length =
        (buffers.getD j []).length ∧
      (w.bytes.length ≤ (buffers.getD j []).length →
        (((buffers[j]?).map fun buffer => lib.write buffer w).getD []).take w.bytes.length =
          w.bytes) := by
  rw [List.getD_eq_getElem?_getD]
  cases buffers[j]? with
  | none =>
    refine ⟨rfl, fun hle => ?_⟩
    rw [List.length_eq_zero_iff.mp (Nat.le_zero.mp hle)]
    rfl
  | some buffer => exact ⟨lib.length_write buffer w, lib.take_write buffer w⟩

/-- A buffer after a row was fetched. -/
theorem buffers_next {res : MySQLPreparedResultSet lib} {row : List ColumnValue}
    (hrow : (lib.fetch res.stmt).1 = some row) {j : ℕ} {w : ColumnValue} (hw : row[j]? = some w) :
    res.next.2.buffers.getD j [] =
      ((res.buffers[j]?).map fun buffer => lib.write buffer w).getD [] := by
  rw [next, hrow]
  dsimp only
  rw [List.getD_eq_getElem?_getD, List.getElem?_zipWith, hw]
  cases res.buffers[j]? <;> rfl

theorem Filled.next {res : MySQLPreparedResultSet lib} (h : res.Filled) : res.next.2.Filled := by
  rcases Nat.lt_or_ge (lib.fetched res.stmt) result.rows.length with hlt | hge
  · obtain ⟨hrow, hcount⟩ := lib.fetch_row res.stmt _ (List.getElem?_eq_getElem hlt)
    have hfetched : lib.fetched res.next.2.stmt = lib.fetched res.stmt + 1 := by
      rw [res.next_snd.1, hcount]
    -- the row that was fetched is the one the invariant is about
    have hcurrent : ∀ i j v, lib.fetched res.next.2.stmt = i + 1 → result.value i j = some v →
        result.rows[lib.fetched res.stmt][j]? = some v := by
      intro i j v hi hv
      obtain rfl : lib.fetched res.stmt = i := Nat.succ_inj.mp (hfetched.symm.trans hi)
      rwa [QueryResult.value, List.getElem?_eq_getElem hlt, Option.bind_some] at hv
    constructor
    · intro i j v hv
      obtain ⟨w, hw⟩ := result.exists_value_of_lt hv hlt
      rw [buffers_next hrow hw, (written_spec res.buffers j w).1]
      exact h.le_length i j v hv
    · intro i j v hi hv
      rw [buffers_next hrow (hcurrent i j v hi hv)]
      exact (written_spec res.buffers j v).2 (h.le_length i j v hv)
    · intro i j v hi hv
      rw [MySQLPreparedResultSet.next, hrow, List.getD_eq_getElem?_getD, List.getElem?_map,
        hcurrent i j v hi hv]
      rfl
  · obtain ⟨hnone, hcount⟩ := lib.fetch_none res.stmt hge
    rw [MySQLPreparedResultSet.next, hnone]
    exact ⟨h.le_length, fun i j v hfetched hv => h.take i j v (hcount.symm.trans hfetched) hv,
      fun i j v hfetched hv => h.length i j v (hcount.symm.trans hfetched) hv⟩

/-- As many bytes as the value has are the value. -/
theorem Filled.bytes_of_le {res : MySQLPreparedResultSet lib} (h : res.Filled)
    (heap : ℕ → ℕ → UInt8) {i j n : ℕ} {v : ColumnValue} (hfetched : lib.fetched res.stmt = i + 1)
    (hv : result.value i j = some v) (hn : n ≤ v.bytes.length) :
    res.bytes heap j n = v.bytes.take n := by
  have hle := h.le_length i j v hv
  have htake := h.take i j v hfetched hv
  refine List.ext_getElem
    (by rw [bytes, List.length_map, List.length_range, List.length_take, min_eq_left hn]) ?_
  intro k hk hk'
  rw [bytes, List.length_map, List.length_range] at hk
  have hkv : k < v.bytes.length := hk.trans_le hn
  have hget : v.bytes[k]? = (res.buffers.getD j [])[k]? := by
    rw [← htake, List.getElem?_take_of_lt hkv]
  simp only [bytes, List.getElem_map, List.getElem_range, List.getElem_take]
  rw [← hget, List.getElem?_eq_getElem hkv, Option.getD_some]

/-- **A getter that fits reads the value of its column.** -/
theorem Filled.readBytes_eq {res : MySQLPreparedResultSet lib} (h : res.Filled)
    (heap : ℕ → ℕ → UInt8) {i j : ℕ} {v : ColumnValue} {g : Getter} {a : Answer}
    (hfetched : lib.fetched res.stmt = i + 1) (hv : result.value i j = some v)
    (ha : v.as g = some a) :
    readBytes (res.bytes heap j) (res.length.getD j 0) g = a := by
  have hbytes := fun n (hn : n ≤ v.bytes.length) => h.bytes_of_le heap hfetched hv hn
  cases v with
  | integer width v =>
    obtain ⟨n, hwidth, hn⟩ := Option.bind_eq_some_iff.mp ha
    obtain ⟨hle, ha⟩ := Option.ite_none_right_eq_some.mp hn
    obtain rfl := Option.some.inj ha
    rw [readBytes_of_width hwidth, hbytes n (hle.trans_eq (length_leBytes _ _).symm),
      leVal_take_bytes hle]
  | double bits =>
    cases g <;> cases ha
    rw [readBytes, hbytes 8 (length_leBytes _ _).ge, ColumnValue.bytes,
      List.take_of_length_le (length_leBytes _ _).le, leVal_leBytes_of_lt bits.toNat_lt]
  | text str =>
    cases g <;> cases ha
    rw [readBytes, h.length i j _ hfetched hv, hbytes _ le_rfl, List.take_length]
    rfl

end MySQLPreparedResultSet

end MySQL

/-! ### The two side by side -/

section Both

variable {result : QueryResult} (sqlite : SQLiteQuery result) (mysql : MySQLQuery result)
  (truncate : UInt64 → UInt64) (heap : ℕ → ℕ → UInt8)

/-- A call of a result set. -/
inductive Call
  | next
  | rowsCount
  | get (g : Getter) (idx : UInt8)

/-- The two result sets, and how often `next` was called. -/
structure Both where
  sqlite : SQLiteResultSet sqlite
  mysql : MySQLPreparedResultSet mysql
  nexts : ℕ

namespace Both

/-- The result sets of a query that was just executed. -/
def init : Both sqlite mysql := { sqlite := .init sqlite, mysql := .init mysql, nexts := 0 }

variable {sqlite mysql}

/-- What the two answer. -/
def answers (s : Both sqlite mysql) : Call → Answer × Answer
  | .next => (s.sqlite.next.1, s.mysql.next.1)
  | .rowsCount => (s.sqlite.rowsCount, s.mysql.rowsCount)
  | .get g idx => (s.sqlite.get truncate g idx, s.mysql.get heap g idx)

/-- A call; an index is one of a column. -/
def step (s : Both sqlite mysql) : Call → Option (Both sqlite mysql)
  | .next => some { sqlite := s.sqlite.next.2, mysql := s.mysql.next.2, nexts := s.nexts + 1 }
  | .rowsCount => some s
  | .get _ idx => if 1 ≤ idx.toNat ∧ idx.toNat ≤ result.numFields then some s else none

/-- What a call is to answer: whether there is a further row, the number of rows, and the
value of a column of the current row. -/
def meant (s : Both sqlite mysql) : Call → Option Answer
  | .next => some (.bool (s.nexts < result.rows.length))
  | .rowsCount => some (.bits 4 result.rows.length)
  | .get g idx =>
    if s.nexts = 0 then none
    else (result.value (s.nexts - 1) (idx.toNat - 1)).bind fun v => v.as g

/-- The two answer the same, and what is meant. -/
def Agree (s : Both sqlite mysql) (call : Call) : Prop :=
  (s.answers truncate heap call).1 = (s.answers truncate heap call).2 ∧
    ∀ a, s.meant call = some a → (s.answers truncate heap call).2 = a

/-- The column that is `idx`-th if one counts from zero, of the current row. -/
def behind (s : Both sqlite mysql) (idx : UInt8) : SQLiteColumn :=
  match result.value (s.nexts - 1) idx.toNat with
  | some v => sqlite.convert v
  | none => sqlite.column s.sqlite.stmt idx.toNat

/-- When they do. `next` must not have come to the end before, unless the library steps on
and there is no row; `rowsCount` must wait until every row was fetched. Before the first row
every getter throws; after it the column behind must be converted to what the bytes are in
the buffer of MySQL. Positions are counted modulo `2 ^ 32`. -/
def InStep (s : Both sqlite mysql) : Call → Prop
  | .next => s.nexts ≤ result.rows.length ∨ result.rows = [] ∧ sqlite.autoReset = true
  | .rowsCount => result.rows.length ≤ s.nexts ∧ result.rows.length < 2 ^ 32
  | .get g idx =>
    (min s.nexts result.rows.length % 2 ^ 32 = 0 ↔ s.nexts % 2 ^ 32 = 0) ∧
    (s.nexts % 2 ^ 32 = 0 → s.meant (.get g idx) = none) ∧
    (s.nexts % 2 ^ 32 ≠ 0 →
      (s.behind idx).read truncate g =
        readBytes (s.mysql.bytes heap (idx.toNat - 1)) (s.mysql.length.getD (idx.toNat - 1) 0) g)

/-! ### The rows they are on -/

/-- Where the two are once `next` was called so often. -/
structure Synced (s : Both sqlite mysql) : Prop where
  nexts : s.nexts ≤ result.rows.length + 1 ∨ result.rows = []
  position : sqlite.position s.sqlite.stmt =
    if s.nexts = 0 then .ready
    else if s.nexts ≤ result.rows.length then .row (s.nexts - 1) else .done
  rowPosition : s.sqlite.rowPosition = UInt32.ofNat (min s.nexts result.rows.length)
  numRows : s.sqlite.numRows = UInt32.ofNat (min s.nexts result.rows.length)
  fetched : mysql.fetched s.mysql.stmt = min s.nexts result.rows.length
  mysqlPosition : s.mysql.rowPosition = UInt32.ofNat s.nexts
  mysqlRows : s.mysql.numRows = UInt32.ofNat result.rows.length
  filled : s.mysql.Filled

theorem synced_init : (init sqlite mysql).Synced where
  nexts := Or.inl (Nat.zero_le _)
  position := sqlite.position_prepared
  rowPosition := by rw [init, Nat.zero_min]; rfl
  numRows := by rw [init, Nat.zero_min]; rfl
  fetched := by rw [init, Nat.zero_min]; exact mysql.fetched_stored
  mysqlPosition := rfl
  mysqlRows := rfl
  filled := MySQLPreparedResultSet.filled_init

variable {s s' : Both sqlite mysql}

/-- The row the next step of SQLite goes to. -/
theorem Synced.next (h : s.Synced) (hle : s.nexts ≤ result.rows.length) :
    (sqlite.position s.sqlite.stmt).next sqlite.autoReset = some s.nexts := by
  rw [h.position]
  by_cases hzero : s.nexts = 0
  · rw [if_pos hzero, hzero]
    rfl
  · rw [if_neg hzero, if_pos hle]
    exact congrArg some (Nat.succ_pred hzero)

theorem ofNat_succ (n : ℕ) : UInt32.ofNat n + 1 = UInt32.ofNat (n + 1) :=
  (UInt32.ofNat_add n 1).symm

/-- Both go to the next row. -/
theorem Synced.next_row (h : s.Synced) (hlt : s.nexts < result.rows.length)
    (hstep : s.step .next = some s') :
    s.sqlite.next.1 = .bool true ∧ s.mysql.next.1 = .bool true ∧ s'.Synced := by
  obtain rfl := Option.some.inj hstep
  obtain ⟨hcode, hposition⟩ := sqlite.step_row s.sqlite.stmt s.nexts (h.next hlt.le) hlt
  have hmin : min s.nexts result.rows.length = s.nexts := min_eq_left hlt.le
  have hmin' : min (s.nexts + 1) result.rows.length = s.nexts + 1 := min_eq_left hlt
  have hfetched := h.fetched.trans hmin
  obtain ⟨hrow, hcount⟩ := mysql.fetch_row s.mysql.stmt result.rows[s.nexts]
    (by rw [hfetched, List.getElem?_eq_getElem hlt])
  have hnext := SQLiteResultSet.next_of_row hcode
  obtain ⟨hstmt, hmysqlPosition, hmysqlRows⟩ := s.mysql.next_snd
  refine ⟨by rw [hnext], by rw [s.mysql.next_fst, hrow]; rfl, ?_⟩
  constructor <;> dsimp only
  · exact Or.inl (Nat.succ_le_succ hlt.le)
  · rw [hnext, if_neg (Nat.succ_ne_zero _), if_pos (by exact hlt)]
    exact hposition
  · rw [hnext, hmin', h.rowPosition, hmin]
    exact ofNat_succ _
  · rw [hnext, hmin', h.numRows, hmin]
    exact ofNat_succ _
  · rw [hstmt, hcount, hfetched, hmin']
  · rw [hmysqlPosition, h.mysqlPosition]
    exact ofNat_succ _
  · rw [hmysqlRows, h.mysqlRows]
  · exact h.filled.next

/-- MySQL has no further row once all were fetched. -/
theorem Synced.mysql_none (h : s.Synced) (hle : result.rows.length ≤ s.nexts) :
    s.mysql.next.1 = .bool false ∧
      mysql.fetched s.mysql.next.2.stmt = result.rows.length := by
  have hfetched := h.fetched.trans (min_eq_right hle)
  obtain ⟨hnone, hcount⟩ := mysql.fetch_none s.mysql.stmt hfetched.ge
  obtain ⟨hstmt, -, -⟩ := s.mysql.next_snd
  exact ⟨by rw [s.mysql.next_fst, hnone]; rfl, by rw [hstmt, hcount, hfetched]⟩

/-- SQLite is done, and MySQL has no further row: both are at the end. -/
theorem Synced.of_done (h : s.Synced) (hle : result.rows.length ≤ s.nexts)
    (hnexts : s.nexts ≤ result.rows.length ∨ result.rows = [])
    (hcode : (sqlite.step s.sqlite.stmt).1 = .done)
    (hposition : sqlite.position (sqlite.step s.sqlite.stmt).2 = .done)
    (hstep : s.step .next = some s') : s'.Synced := by
  obtain rfl := Option.some.inj hstep
  have hmin : min s.nexts result.rows.length = result.rows.length := min_eq_right hle
  have hmin' : min (s.nexts + 1) result.rows.length = result.rows.length :=
    min_eq_right (hle.trans (Nat.le_succ _))
  have hnext := SQLiteResultSet.next_of_done hcode
  obtain ⟨-, hmysqlPosition, hmysqlRows⟩ := s.mysql.next_snd
  constructor <;> dsimp only
  · exact hnexts.imp_left Nat.succ_le_succ
  · rw [hnext, if_neg (Nat.succ_ne_zero _), if_neg (by omega)]
    exact hposition
  · rw [hnext, hmin', h.rowPosition, hmin]
  · rw [hnext, hmin', h.numRows, hmin]
  · rw [(h.mysql_none hle).2, hmin']
  · rw [hmysqlPosition, h.mysqlPosition]
    exact ofNat_succ _
  · rw [hmysqlRows, h.mysqlRows]
  · exact h.filled.next

/-- Both come to the end. -/
theorem Synced.next_end (h : s.Synced) (heq : s.nexts = result.rows.length)
    (hstep : s.step .next = some s') :
    s.sqlite.next.1 = .bool false ∧ s.mysql.next.1 = .bool false ∧ s'.Synced := by
  obtain ⟨hcode, hposition⟩ := sqlite.step_done s.sqlite.stmt s.nexts (h.next heq.le) heq.ge
  refine ⟨by rw [SQLiteResultSet.next_of_done hcode], (h.mysql_none heq.ge).1, ?_⟩
  exact h.of_done heq.ge (Or.inl heq.le) hcode hposition hstep

/-- Behind the end SQLite throws or begins again. -/
theorem Synced.next_behind (h : s.Synced) (hlt : result.rows.length < s.nexts)
    (hstep : s.step .next = some s') :
    (s.sqlite.next.1 = s.mysql.next.1 ↔ result.rows = [] ∧ sqlite.autoReset = true) ∧
      (s.sqlite.next.1 = s.mysql.next.1 → s'.Synced) := by
  have hdone : sqlite.position s.sqlite.stmt = .done := by
    rw [h.position, if_neg (by omega), if_neg (by omega)]
  obtain ⟨hmysql, -⟩ := h.mysql_none hlt.le
  rw [hmysql]
  cases hreset : sqlite.autoReset with
  | false =>
    obtain ⟨hcode, -⟩ := sqlite.step_misuse s.sqlite.stmt (by rw [hdone, hreset]; rfl)
    rw [SQLiteResultSet.next_of_misuse hcode]
    exact ⟨⟨Answer.noConfusion, fun h => by cases h.2⟩, Answer.noConfusion⟩
  | true =>
    have hnext : (sqlite.position s.sqlite.stmt).next sqlite.autoReset = some 0 := by
      rw [hdone, hreset]
      rfl
    cases hrows : result.rows with
    | nil =>
      obtain ⟨hcode, hposition⟩ := sqlite.step_done s.sqlite.stmt 0 hnext (by simp [hrows])
      rw [SQLiteResultSet.next_of_done hcode]
      refine ⟨iff_of_true rfl ⟨rfl, rfl⟩, fun _ => ?_⟩
      exact h.of_done hlt.le (Or.inr hrows) hcode hposition hstep
    | cons row rows =>
      obtain ⟨hcode, -⟩ := sqlite.step_row s.sqlite.stmt 0 hnext (by simp [hrows])
      rw [SQLiteResultSet.next_of_row hcode]
      exact ⟨⟨fun h => (by cases h), fun h => (by cases h.1)⟩, fun h => (by cases h)⟩

/-! ### When they agree -/

theorem ofNat_eq_zero_iff (n : ℕ) : UInt32.ofNat n = 0 ↔ n % 2 ^ 32 = 0 := by
  rw [← UInt32.toNat_inj, UInt32.toNat_ofNat']
  rfl

theorem read_ne_thrown (column : SQLiteColumn) (g : Getter) :
    column.read truncate g ≠ .thrown := by
  cases g <;> exact Answer.noConfusion

theorem readBytes_ne_thrown (bytes : ℕ → List UInt8) (length : ℕ) (g : Getter) :
    readBytes bytes length g ≠ .thrown := by
  cases g <;> exact Answer.noConfusion

/-- Two getters agree if both throw, or neither and they read the same. -/
theorem ite_thrown_eq_iff {p q : Prop} [Decidable p] [Decidable q] {x y : Answer}
    (hx : x ≠ .thrown) (hy : y ≠ .thrown) :
    ((if p then .thrown else x) = if q then .thrown else y) ↔ (p ↔ q) ∧ (¬q → x = y) := by
  by_cases hp : p <;> by_cases hq : q
  · simp [hp, hq]
  · simp [hp, hq, hy.symm]
  · simp [hp, hq, hx]
  · simp [hp, hq]

theorem Synced.agree_rowsCount_iff (h : s.Synced) :
    s.Agree truncate heap .rowsCount ↔ s.InStep truncate heap .rowsCount := by
  rw [Agree, InStep, answers, meant]
  dsimp only
  rw [SQLiteResultSet.rowsCount, MySQLPreparedResultSet.rowsCount, h.numRows, h.mysqlRows,
    UInt32.toNat_ofNat', UInt32.toNat_ofNat']
  constructor
  · rintro ⟨hsame, hrows⟩
    have hlen := (Answer.bits.inj (hrows _ rfl)).2
    have hmin := (Answer.bits.inj hsame).2
    have hlt : result.rows.length < 2 ^ 32 := hlen ▸ Nat.mod_lt _ (by decide)
    rw [hlen, Nat.mod_eq_of_lt ((min_le_right _ _).trans_lt hlt)] at hmin
    exact ⟨min_eq_right_iff.mp hmin, hlt⟩
  · rintro ⟨hle, hlt⟩
    rw [min_eq_right hle, Nat.mod_eq_of_lt hlt]
    exact ⟨rfl, fun _ ha => Option.some.inj ha⟩

/-- SQLite is asked for the column behind. -/
theorem Synced.column_eq (h : s.Synced) (idx : UInt8) (hzero : s.nexts ≠ 0) :
    sqlite.column s.sqlite.stmt idx.toNat = s.behind idx := by
  rw [behind]
  cases hv : result.value (s.nexts - 1) idx.toNat with
  | none => rfl
  | some v =>
    obtain ⟨row, hrow, -⟩ := Option.bind_eq_some_iff.mp hv
    have hlt := (List.getElem?_eq_some_iff.mp hrow).1
    refine sqlite.column_eq s.sqlite.stmt (s.nexts - 1) idx.toNat v ?_ hv
    rw [h.position, if_neg hzero, if_pos (by omega)]

/-- MySQL reads what is meant. -/
theorem Synced.readBytes_of_meant (h : s.Synced) {g : Getter} {idx : UInt8} {a : Answer}
    (ha : s.meant (.get g idx) = some a) :
    readBytes (s.mysql.bytes heap (idx.toNat - 1)) (s.mysql.length.getD (idx.toNat - 1) 0) g =
      a := by
  rw [meant, Option.ite_none_left_eq_some] at ha
  obtain ⟨hzero, hbind⟩ := ha
  obtain ⟨v, hv, has⟩ := Option.bind_eq_some_iff.mp hbind
  obtain ⟨row, hrow, -⟩ := Option.bind_eq_some_iff.mp hv
  have hlt := (List.getElem?_eq_some_iff.mp hrow).1
  refine h.filled.readBytes_eq heap ?_ hv has
  rw [h.fetched, min_eq_left (by omega)]
  omega

theorem Synced.agree_get_iff (h : s.Synced) {g : Getter} {idx : UInt8} (h1 : 1 ≤ idx.toNat)
    (hle : idx.toNat ≤ result.numFields) :
    s.Agree truncate heap (.get g idx) ↔ s.InStep truncate heap (.get g idx) := by
  have hne : idx ≠ 0 := by
    rintro rfl
    exact absurd h1 (by decide)
  have hvalid : ¬(idx = 0 ∨ result.numFields < idx.toNat) := not_or.mpr ⟨hne, not_lt.mpr hle⟩
  have hsqlite := read_ne_thrown truncate (sqlite.column s.sqlite.stmt idx.toNat) g
  have hmysql := readBytes_ne_thrown (s.mysql.bytes heap (idx.toNat - 1))
    (s.mysql.length.getD (idx.toNat - 1) 0) g
  rw [Agree, InStep, answers]
  dsimp only
  rw [SQLiteResultSet.get, MySQLPreparedResultSet.get, if_neg hvalid, if_neg hvalid, h.rowPosition,
    h.mysqlPosition, ite_thrown_eq_iff hsqlite hmysql]
  simp only [ofNat_eq_zero_iff, and_assoc]
  refine and_congr_right fun _ => ?_
  by_cases hzero : s.nexts % 2 ^ 32 = 0
  · -- both throw, and nothing may be meant
    rw [if_pos hzero]
    constructor
    · rintro ⟨-, hmeant⟩
      refine ⟨fun _ => ?_, fun hne => absurd hzero hne⟩
      cases ha : s.meant (.get g idx) with
      | none => rfl
      | some a =>
        obtain rfl := hmeant a ha
        exact absurd (h.readBytes_of_meant heap ha) hmysql
    · rintro ⟨hmeant, -⟩
      refine ⟨fun hne => absurd hzero hne, fun a ha => ?_⟩
      rw [hmeant hzero] at ha
      cases ha
  · have hnexts : s.nexts ≠ 0 := fun h0 => hzero (by rw [h0]; rfl)
    rw [if_neg hzero, h.column_eq idx hnexts]
    constructor
    · rintro ⟨hsame, -⟩
      exact ⟨fun h0 => absurd h0 hzero, hsame⟩
    · rintro ⟨-, hsame⟩
      exact ⟨hsame, fun a ha => h.readBytes_of_meant heap ha⟩

/-- **When two result sets agree on a call.** -/
theorem Synced.agree_iff {call : Call} (h : s.Synced) (hstep : s.step call = some s') :
    s.Agree truncate heap call ↔ s.InStep truncate heap call := by
  cases call with
  | rowsCount => exact h.agree_rowsCount_iff truncate heap
  | get g idx =>
    rw [step, Option.ite_none_right_eq_some] at hstep
    exact h.agree_get_iff truncate heap hstep.1.1 hstep.1.2
  | next =>
    have hmysql : s.mysql.next.1 = .bool (s.nexts < result.rows.length) := by
      rcases Nat.lt_or_ge s.nexts result.rows.length with hlt | hge
      · rw [(h.next_row hlt hstep).2.1, decide_eq_true hlt]
      · rw [(h.mysql_none hge).1, decide_eq_false (not_lt.mpr hge)]
    have hagree : s.Agree truncate heap .next ↔ s.sqlite.next.1 = s.mysql.next.1 :=
      and_iff_left fun a ha => hmysql.trans (Option.some.inj ha)
    rw [hagree, InStep]
    rcases lt_trichotomy s.nexts result.rows.length with hlt | heq | hgt
    · obtain ⟨hsqlite, hmysql, -⟩ := h.next_row hlt hstep
      exact iff_of_true (hsqlite.trans hmysql.symm) (Or.inl hlt.le)
    · obtain ⟨hsqlite, hmysql, -⟩ := h.next_end heq hstep
      exact iff_of_true (hsqlite.trans hmysql.symm) (Or.inl heq.le)
    · rw [or_iff_right (not_le.mpr hgt)]
      exact (h.next_behind hgt hstep).1

/-- A getter that fits its column must be given the same value by the column behind. -/
theorem Synced.inStep_get_iff_of_meant (h : s.Synced) {g : Getter} {idx : UInt8} {a : Answer}
    (hmeant : s.meant (.get g idx) = some a) (hlt : s.nexts < 2 ^ 32) :
    s.InStep truncate heap (.get g idx) ↔ (s.behind idx).read truncate g = a := by
  have hmeant' := hmeant
  rw [meant, Option.ite_none_left_eq_some] at hmeant'
  obtain ⟨hzero, hbind⟩ := hmeant'
  obtain ⟨v, hv, -⟩ := Option.bind_eq_some_iff.mp hbind
  obtain ⟨row, hrow, -⟩ := Option.bind_eq_some_iff.mp hv
  have hrows := (List.getElem?_eq_some_iff.mp hrow).1
  have hmin : min s.nexts result.rows.length = s.nexts := min_eq_left (by omega)
  have hmod : s.nexts % 2 ^ 32 ≠ 0 := by rwa [Nat.mod_eq_of_lt hlt]
  rw [InStep, hmin, h.readBytes_of_meant heap hmeant]
  constructor
  · rintro ⟨-, -, hsame⟩
    exact hsame hmod
  · intro hsame
    exact ⟨Iff.rfl, fun h0 => absurd h0 hmod, fun _ => hsame⟩

/-- Where both columns are integers, they must have the same low bytes. -/
theorem Synced.inStep_get_integer_iff (h : s.Synced) {g : Getter} {idx : UInt8}
    {n width width' : ℕ} {v v' : ℤ} (hg : g.width = some n) (hzero : s.nexts ≠ 0)
    (hlt : s.nexts < 2 ^ 32)
    (hbehind : result.value (s.nexts - 1) idx.toNat = some (.integer width v))
    (hvalue : result.value (s.nexts - 1) (idx.toNat - 1) = some (.integer width' v'))
    (hn : n ≤ width') : s.InStep truncate heap (.get g idx) ↔ v % 256 ^ n = v' % 256 ^ n := by
  have hmeant : s.meant (.get g idx) = some (.bits n (v' % 256 ^ n).toNat) := by
    rw [meant, if_neg hzero, hvalue, Option.bind_some, ColumnValue.as, hg, Option.bind_some,
      if_pos hn]
  have hpow : (256 : ℤ) ^ n ≠ 0 := pow_ne_zero n (by decide)
  have hnonneg := Int.emod_nonneg v hpow
  have hnonneg' := Int.emod_nonneg v' hpow
  rw [h.inStep_get_iff_of_meant truncate heap hmeant hlt, behind, hbehind]
  dsimp only
  rw [sqlite.read_convert_integer hg, Answer.bits.injEq, and_iff_right rfl]
  omega

/-- Where both are texts, they must be the same. -/
theorem Synced.inStep_get_text_iff (h : s.Synced) {idx : UInt8} {str str' : List UInt8}
    (hzero : s.nexts ≠ 0) (hlt : s.nexts < 2 ^ 32)
    (hbehind : result.value (s.nexts - 1) idx.toNat = some (.text str))
    (hvalue : result.value (s.nexts - 1) (idx.toNat - 1) = some (.text str')) :
    s.InStep truncate heap (.get .string idx) ↔ str = str' := by
  have hmeant : s.meant (.get .string idx) = some (.string str') := by
    rw [meant, if_neg hzero, hvalue]
    rfl
  rw [h.inStep_get_iff_of_meant truncate heap hmeant hlt, behind, hbehind]
  dsimp only
  rw [SQLiteColumn.read, sqlite.convert_text, Answer.string.injEq]

/-- Where both are doubles, the one cut to an integer must be the other. -/
theorem Synced.inStep_get_double_iff (h : s.Synced) {idx : UInt8} {bits bits' : UInt64}
    (hzero : s.nexts ≠ 0) (hlt : s.nexts < 2 ^ 32)
    (hbehind : result.value (s.nexts - 1) idx.toNat = some (.double bits))
    (hvalue : result.value (s.nexts - 1) (idx.toNat - 1) = some (.double bits')) :
    s.InStep truncate heap (.get .double idx) ↔ truncate bits = bits' := by
  have hmeant : s.meant (.get .double idx) = some (.bits 8 bits'.toNat) := by
    rw [meant, if_neg hzero, hvalue]
    rfl
  rw [h.inStep_get_iff_of_meant truncate heap hmeant hlt, behind, hbehind]
  dsimp only
  rw [SQLiteColumn.read, sqlite.convert_double, Answer.bits.injEq, and_iff_right rfl,
    UInt64.toNat_inj]

/-- **Result sets that agree stay on the same row.** -/
theorem Synced.of_agree {call : Call} (h : s.Synced) (hstep : s.step call = some s')
    (hagree : s.Agree truncate heap call) : s'.Synced := by
  cases call with
  | rowsCount =>
    obtain rfl := Option.some.inj hstep
    exact h
  | get g idx =>
    rw [step, Option.ite_none_right_eq_some] at hstep
    obtain rfl := Option.some.inj hstep.2
    exact h
  | next =>
    rcases lt_trichotomy s.nexts result.rows.length with hlt | heq | hgt
    · exact (h.next_row hlt hstep).2.2
    · exact (h.next_end heq hstep).2.2
    · exact (h.next_behind hgt hstep).2 hagree.1

end Both

/-- **The result sets of the two drivers agree exactly where they are used in step.** For
every result without null values and every sequence of calls: all answers are the same, and
`rowsCount` always the number of rows, if and only if every call is in step. -/
theorem answers_agree_iff (result : QueryResult) (sqlite : SQLiteQuery result)
    (mysql : MySQLQuery result) (truncate : UInt64 → UInt64) (heap : ℕ → ℕ → UInt8)
    (calls : List Call) :
    (∀ i s call s', Runs.StepAt Both.step (Both.init sqlite mysql) calls i s call s' →
        s.Agree truncate heap call) ↔
      ∀ i s call s', Runs.StepAt Both.step (Both.init sqlite mysql) calls i s call s' →
        s.InStep truncate heap call := by
  refine Runs.forall_stepAt_iff (P := Both.Synced)
    (A := fun s call _ => s.Agree truncate heap call) Both.synced_init ?_ ?_
  · intro s call s' h hstep
    exact h.agree_iff truncate heap hstep
  · intro s call s' h hstep hagree
    exact h.of_agree truncate heap hstep hagree

end Both

/-! ### A row of two integers -/

/-- A row of two integers. -/
def oneRow : QueryResult where
  types := [.integer 4, .integer 4]
  rows := [[.integer 4 1, .integer 4 2]]
  supported := by decide
  types_row := by decide

/-- A column of a null. -/
def SQLiteColumn.null : SQLiteColumn := { int := 0, int64 := 0, double := 0, text := [] }

/-- An integer by its low bits; a value of another type is null to the functions of
integers. -/
def SQLiteColumn.ofValue : ColumnValue → SQLiteColumn
  | .integer _ v =>
    { null with int := UInt32.ofNat (v % 2 ^ 32).toNat, int64 := UInt64.ofNat (v % 2 ^ 64).toNat }
  | .double bits => { null with double := bits }
  | .text str => { null with text := str }

/-- The statement is where it is; a column there is not is null. -/
def directSQLite (result : QueryResult) : SQLiteQuery result where
  Stmt := SQLitePosition
  prepared := .ready
  step stmt := (stmt.next true).elim (.misuse, stmt) fun i =>
    if i < result.rows.length then (.row, .row i) else (.done, .done)
  column
    | .row i, j => ((result.value i j).map SQLiteColumn.ofValue).getD .null
    | _, _ => .null
  convert := SQLiteColumn.ofValue
  autoReset := true
  position := id
  position_prepared := rfl
  step_row stmt i hnext hlt := by
    rw [id_eq] at hnext
    rw [hnext, Option.elim_some, if_pos hlt]
    exact ⟨rfl, rfl⟩
  step_done stmt i hnext hge := by
    rw [id_eq] at hnext
    rw [hnext, Option.elim_some, if_neg (not_lt.mpr hge)]
    exact ⟨rfl, rfl⟩
  step_misuse stmt hnext := by
    cases stmt <;> cases hnext
  column_eq stmt i j v hposition hv := by
    obtain rfl : stmt = .row i := hposition
    dsimp only
    rw [hv, Option.map_some, Option.getD_some]
  convert_int _ _ := rfl
  convert_int64 _ _ := rfl
  convert_double _ := rfl
  convert_text _ := rfl

/-- The number of rows that were fetched, with columns of `int(11)`. -/
def oneRowMySQL : MySQLQuery oneRow where
  Stmt := ℕ
  stored := 0
  fetch fetched :=
    (oneRow.rows[fetched]?, if fetched < oneRow.rows.length then fetched + 1 else fetched)
  write buffer v := v.bytes.take buffer.length ++ buffer.drop v.bytes.length
  maxLength _ := 11
  fetched := id
  fetched_stored := rfl
  fetch_row fetched row hrow := by
    rw [id_eq] at hrow
    exact ⟨hrow, if_pos (List.getElem?_eq_some_iff.mp hrow).1⟩
  fetch_none fetched hle :=
    ⟨List.getElem?_eq_none hle, if_neg (not_lt.mpr hle)⟩
  length_write buffer v := by
    rw [List.length_append, List.length_take, List.length_drop]
    omega
  take_write buffer v hle := by
    rw [List.take_of_length_le hle, List.take_left]
  le_maxLength i j v hv := by
    obtain ⟨row, hrow, hcolumn⟩ := Option.bind_eq_some_iff.mp hv
    obtain rfl := List.mem_singleton.mp (List.mem_of_getElem? hrow)
    have hbytes : ∀ w ∈ [ColumnValue.integer 4 1, .integer 4 2], w.bytes.length ≤ 11 := by decide
    exact hbytes v (List.mem_of_getElem? hcolumn)

/-- **The second column is read for the first.** After `next`, `getUint32(1)` is 2 on SQLite
and 1 on MySQL. -/
theorem second_column_read :
    ¬∀ (result : QueryResult) (sqlite : SQLiteQuery result) (mysql : MySQLQuery result)
      (truncate : UInt64 → UInt64) (heap : ℕ → ℕ → UInt8) (calls : List Call) (i : ℕ)
      (s : Both sqlite mysql) (call : Call) (s' : Both sqlite mysql),
      Runs.StepAt Both.step (Both.init sqlite mysql) calls i s call s' →
        s.Agree truncate heap call := by
  intro h
  have hget := h oneRow (directSQLite oneRow) oneRowMySQL id (fun _ _ => 0)
    [.next, .get .uint32 1] 1 _ _ _ ⟨rfl, rfl, rfl⟩
  exact absurd hget.1 (by decide)

end Morfeusz.SQL
