import Morfeusz.Common.OpenSSL

/-!
# Result sets of the two drivers

The daemons read the answer of a query through one interface with two
implementations. They differ in more than the storage: MySQL knows all the rows
before the first `next` and keeps empty buffers where there is none, SQLite counts
the rows it has stepped through and hands the column index on to a library that
counts from zero. The observers run on either, so both are kept, behaviour by
behaviour.

A getter that throws an `SQLException` is `none`. Out of an observer the exception
reaches the worker that has set the future, which catches it, so that the callback does
not run; out of a handler nothing catches it, and the process is terminated. The
statements have the columns that are read of them: what is left is a getter without a
row.
-/

namespace Morfeusz

open ByteNumbers

/-- The database engine behind a connection. -/
inductive Engine
  | mysql
  | sqlite
  deriving DecidableEq

/-- A value of a column: an integer column has a width in bytes. -/
inductive SqlValue
  | null
  | integer (width : ℕ) (v : ℤ)
  | text (str : List UInt8)
  deriving DecidableEq

namespace SqlValue

/-- The buffer MySQL binds the value to. -/
def buffer : SqlValue → List UInt8
  | null => []
  | integer width v => leBytes width (v % 256 ^ width).toNat
  | text str => str

/-- The integer a text starts with, as SQLite reads one. -/
def textInteger (str : List UInt8) : ℤ :=
  let digits := fun s : List UInt8 => (s.takeWhile fun c => 48 ≤ c ∧ c ≤ 57).foldl
    (fun acc c => 10 * acc + (c.toNat - 48)) 0
  match str.dropWhile (fun c => c = 32 ∨ 9 ≤ c ∧ c ≤ 13) with
  | 45 :: s => -(digits s : ℕ)
  | 43 :: s => (digits s : ℕ)
  | s => (digits s : ℕ)

/-- `sqlite3_column_int64`. -/
def columnInt : SqlValue → ℤ
  | null => 0
  | integer _ v => v
  | text str => textInteger str

/-- `sqlite3_column_text`, with the length of `sqlite3_column_bytes`. -/
def columnText : SqlValue → List UInt8
  | null => []
  | integer _ v => (toString v).toList.map fun c => UInt8.ofNat c.toNat
  | text str => str

/-- A number is one of those its column can hold. -/
def Fits : SqlValue → Prop
  | integer width v => ∃ n : ℕ, v = n ∧ n < 256 ^ width
  | null | text _ => True

end SqlValue

/-- A result set, with the number of rows `next` has advanced over. -/
structure ResultSet where
  engine : Engine
  numFields : ℕ
  rows : List (List SqlValue)
  rowPosition : ℕ := 0
  deriving DecidableEq

namespace ResultSet

/-- `next`. -/
def next (res : ResultSet) : Bool × ResultSet :=
  let found := decide (res.rowPosition < res.rows.length)
  match res.engine with
  | .mysql => (found, { res with rowPosition := res.rowPosition + 1 })
  | .sqlite => (found, if found then { res with rowPosition := res.rowPosition + 1 } else res)

/-- `rowsCount`: the number of rows there are, or the number of rows seen. -/
def rowsCount (res : ResultSet) : ℕ :=
  match res.engine with
  | .mysql => res.rows.length
  | .sqlite => res.rowPosition

/-- The value a getter reads, for an index that passes `checkValidity`. The row is
the last one fetched; where none ever was, MySQL has zeroed buffers. -/
def column (res : ResultSet) (idx : ℕ) : Option SqlValue :=
  if idx = 0 ∨ res.numFields < idx then none
  else if res.rowPosition = 0 then none
  else
    let row := (res.rows.take res.rowPosition).getLastD []
    some ((match res.engine with
      | .mysql => row[idx - 1]?
      | .sqlite => row[idx]?).getD .null)

/-- The unsigned integer getters, `width` bytes wide. -/
def getUint (res : ResultSet) (width idx : ℕ) : Option ℕ :=
  (res.column idx).map fun v => match res.engine with
    | .mysql => leVal (v.buffer.take width)
    | .sqlite => (v.columnInt % 256 ^ width).toNat

def getUint8 (res : ResultSet) (idx : ℕ) : Option UInt8 :=
  (res.getUint 1 idx).map UInt8.ofNat

def getUint16 (res : ResultSet) (idx : ℕ) : Option UInt16 :=
  (res.getUint 2 idx).map UInt16.ofNat

def getUint32 (res : ResultSet) (idx : ℕ) : Option UInt32 :=
  (res.getUint 4 idx).map UInt32.ofNat

def getUint64 (res : ResultSet) (idx : ℕ) : Option UInt64 :=
  (res.getUint 8 idx).map UInt64.ofNat

/-- `getFloat`, which copies the bits of an unsigned integer. -/
def getFloat (res : ResultSet) (idx : ℕ) : Option UInt32 := res.getUint32 idx

/-- `getBool`: a signed integer above zero, of one byte or of four. -/
def getBool (res : ResultSet) (idx : ℕ) : Option Bool :=
  match res.engine with
  | .mysql => (res.getUint 1 idx).map fun n => decide (0 < n ∧ n < 128)
  | .sqlite => (res.getUint 4 idx).map fun n => decide (0 < n ∧ n < 2 ^ 31)

def getString (res : ResultSet) (idx : ℕ) : Option (List UInt8) :=
  (res.column idx).map fun v => match res.engine with
    | .mysql => v.buffer
    | .sqlite => v.columnText

/-! ### The integers of MySQL -/

/-- A getter as wide as the column or narrower reads the low bytes. -/
theorem leVal_take_buffer {width k : ℕ} (h : k ≤ width) (n : ℕ) :
    leVal ((SqlValue.integer width n).buffer.take k) = n % 256 ^ k := by
  have hnat : ((n : ℤ) % 256 ^ width).toNat = n % 256 ^ width := by
    rw [← Int.toNat_natCast (n % 256 ^ width)]
    push_cast
    rfl
  rw [SqlValue.buffer, take_leBytes h, leVal_leBytes, hnat,
    Nat.mod_mod_of_dvd _ (Nat.pow_dvd_pow 256 h)]

/-- A wider getter reads the number. -/
theorem leVal_take_buffer_of_le {width k : ℕ} (h : width ≤ k) {n : ℕ} (hn : n < 256 ^ width) :
    leVal ((SqlValue.integer width n).buffer.take k) = n := by
  have hlen : (SqlValue.integer width n).buffer.length = width := length_leBytes _ _
  rw [List.take_of_length_le (hlen.trans_le h), ← List.take_of_length_le hlen.le,
    leVal_take_buffer le_rfl, Nat.mod_eq_of_lt hn]

theorem next_of_mysql {res : ResultSet} (hengine : res.engine = .mysql) :
    res.next = (decide (res.rowPosition < res.rows.length),
      { res with rowPosition := res.rowPosition + 1 }) := by
  rw [next, hengine]

/-- A column of the row MySQL is on. -/
theorem column_of_mysql {res : ResultSet} {row : List SqlValue} {pos idx : ℕ} {v : SqlValue}
    (hengine : res.engine = .mysql) (hpos : res.rowPosition = pos + 1)
    (hrow : res.rows[pos]? = some row) (h1 : 1 ≤ idx) (hle : idx ≤ res.numFields)
    (hv : row[idx - 1]? = some v) : res.column idx = some v := by
  obtain ⟨hlt, hget⟩ := List.getElem?_eq_some_iff.mp hrow
  have hlast : (res.rows.take (pos + 1)).getLastD [] = row := by
    rw [List.take_succ_eq_append_getElem hlt, hget, List.getLastD_concat]
  rw [column, if_neg (by omega), if_neg (by omega), hpos]
  dsimp only
  rw [hengine, hlast, hv]
  rfl

theorem getUint_of_mysql {res : ResultSet} {row : List SqlValue} {pos width idx : ℕ} {v : SqlValue}
    (hengine : res.engine = .mysql) (hpos : res.rowPosition = pos + 1)
    (hrow : res.rows[pos]? = some row) (h1 : 1 ≤ idx) (hle : idx ≤ res.numFields)
    (hv : row[idx - 1]? = some v) :
    res.getUint width idx = some (leVal (v.buffer.take width)) := by
  rw [getUint, column_of_mysql hengine hpos hrow h1 hle hv, hengine]
  rfl

/-! ### What a result set returns -/

/-- The getters of a column read a value, in whatever width they are asked for it. -/
def ReadsAs (res : ResultSet) (idx : ℕ) : SqlValue → Prop
  | .null => True
  | .integer _ n => ∀ width, res.getUint width idx = some (n % 256 ^ width).toNat
  | .text str => res.getString idx = some str

/-- The getters read a row; they count its columns from one. -/
def ReadsRow (res : ResultSet) (row : List SqlValue) : Prop :=
  ∀ i v, row[i]? = some v → res.ReadsAs (i + 1) v

/-- `next` goes through some rows, and the getters read each of them. -/
def Yields : ResultSet → List (List SqlValue) → Prop
  | res, [] => res.next.1 = false
  | res, row :: rows => res.next.1 = true ∧ res.next.2.ReadsRow row ∧ Yields res.next.2 rows

/-- **A result set returns some rows**: it knows how many there are, and goes through
them. -/
structure Returns (res : ResultSet) (rows : List (List SqlValue)) : Prop where
  count : res.rowsCount = rows.length
  yields : res.Yields rows

section Columns

variable {res : ResultSet} {width idx : ℕ}

theorem toNat_emod_natCast (n k : ℕ) : ((n : ℤ) % 256 ^ k).toNat = n % 256 ^ k := by
  rw [← Int.toNat_natCast (n % 256 ^ k)]
  push_cast
  rfl

theorem getUint8_of_readsAs {v : UInt8} (h : res.ReadsAs idx (.integer width v.toNat)) :
    res.getUint8 idx = some v := by
  rw [getUint8, h, toNat_emod_natCast, pow_one, Nat.mod_eq_of_lt v.toNat_lt, Option.map_some,
    UInt8.ofNat_toNat]

/-- The low byte of a wider number. -/
theorem getUint8_of_readsAs_uint32 {v : UInt32} (h : res.ReadsAs idx (.integer width v.toNat)) :
    res.getUint8 idx = some v.toUInt8 := by
  rw [getUint8, h, toNat_emod_natCast, Option.map_some]
  refine congrArg some (UInt8.toNat_inj.mp ?_)
  rw [UInt8.toNat_ofNat', UInt32.toNat_toUInt8, pow_one]
  exact Nat.mod_mod _ _

theorem getUint32_of_readsAs {v : UInt32} (h : res.ReadsAs idx (.integer width v.toNat)) :
    res.getUint32 idx = some v := by
  have hlt : v.toNat < 256 ^ 4 := v.toNat_lt
  rw [getUint32, h, toNat_emod_natCast, Nat.mod_eq_of_lt hlt, Option.map_some,
    UInt32.ofNat_toNat]

theorem getUint64_of_readsAs {v : UInt32} (h : res.ReadsAs idx (.integer width v.toNat)) :
    res.getUint64 idx = some v.toUInt64 := by
  rw [getUint64, h, toNat_emod_natCast, Nat.mod_eq_of_lt (v.toNat_lt.trans (by decide)),
    Option.map_some]
  refine congrArg some (UInt64.toNat_inj.mp ?_)
  rw [UInt64.toNat_ofNat', UInt32.toNat_toUInt64]
  exact Nat.mod_eq_of_lt (v.toNat_lt.trans (by decide))

end Columns

/-- Where `next` finds a row it goes on to it. -/
theorem next_of_found {res : ResultSet} (h : res.next.1 = true) :
    res.rowPosition < res.rows.length ∧
      res.next.2 = { res with rowPosition := res.rowPosition + 1 } := by
  obtain ⟨engine, numFields, rows, pos⟩ := res
  cases engine with
  | mysql => exact ⟨of_decide_eq_true h, rfl⟩
  | sqlite =>
    have hfound : pos < rows.length := of_decide_eq_true h
    refine ⟨hfound, ?_⟩
    simp only [next, hfound, decide_true, if_true]

/-- There is a row for each that `next` goes through. -/
theorem length_le_of_yields {res : ResultSet} {rows : List (List SqlValue)} (h : res.Yields rows) :
    rows.length ≤ res.rows.length - res.rowPosition := by
  induction rows generalizing res with
  | nil => exact Nat.zero_le _
  | cons row rows ih =>
    obtain ⟨hfound, -, hrest⟩ := h
    obtain ⟨hlt, hnext⟩ := next_of_found hfound
    have hle := ih hrest
    rw [hnext] at hle
    dsimp only at hle
    rw [List.length_cons]
    omega

/-! ### What MySQL returns -/

section MySQL

variable {res : ResultSet} {row : List SqlValue} {pos : ℕ}

/-- **The getters of MySQL read the row it is on.** -/
theorem readsRow_of_mysql (hengine : res.engine = .mysql) (hpos : res.rowPosition = pos + 1)
    (hrow : res.rows[pos]? = some row) (hfields : row.length ≤ res.numFields)
    (hfits : ∀ v ∈ row, v.Fits) : res.ReadsRow row := by
  intro i v hv
  obtain ⟨hlt, -⟩ := List.getElem?_eq_some_iff.mp hv
  have hcolumn := column_of_mysql hengine hpos hrow (Nat.succ_pos i) (by omega) hv
  have hfits := hfits v (List.mem_of_getElem? hv)
  cases v with
  | null => trivial
  | text str =>
    rw [ReadsAs, getString, hcolumn, hengine]
    rfl
  | integer width n =>
    obtain ⟨m, rfl, hm⟩ := hfits
    intro k
    rw [getUint, hcolumn, hengine, toNat_emod_natCast]
    refine congrArg some ?_
    rcases Nat.le_total k width with hle | hle
    · exact leVal_take_buffer hle m
    · dsimp only
      rw [leVal_take_buffer_of_le hle hm, Nat.mod_eq_of_lt]
      exact hm.trans_le (Nat.pow_le_pow_right (by decide) hle)

/-- **MySQL returns the rows of its answer.** -/
theorem yields_of_mysql (hengine : res.engine = .mysql)
    (hrows : ∀ row ∈ res.rows, row.length ≤ res.numFields ∧ ∀ v ∈ row, v.Fits) :
    res.Yields (res.rows.drop res.rowPosition) := by
  obtain ⟨engine, numFields, rows, pos⟩ := res
  obtain rfl : engine = .mysql := hengine
  dsimp only at hrows ⊢
  induction hleft : rows.drop pos generalizing pos with
  | nil => exact decide_eq_false (Nat.not_lt.mpr (List.drop_eq_nil_iff.mp hleft))
  | cons row left ih =>
    have hlt : pos < rows.length := by
      by_contra hge
      rw [List.drop_of_length_le (Nat.not_lt.mp hge)] at hleft
      cases hleft
    rw [List.drop_eq_getElem_cons hlt] at hleft
    obtain ⟨hrow, hnext⟩ := List.cons.inj hleft
    obtain ⟨hfields, hfits⟩ := hrows row (hrow ▸ List.getElem_mem hlt)
    refine ⟨decide_eq_true hlt, ?_, ih (pos + 1) hnext⟩
    exact readsRow_of_mysql rfl rfl (List.getElem?_eq_some_iff.mpr ⟨hlt, hrow⟩) hfields hfits

theorem returns_of_mysql (hengine : res.engine = .mysql) (hfresh : res.rowPosition = 0)
    (hrows : ∀ row ∈ res.rows, row.length ≤ res.numFields ∧ ∀ v ∈ row, v.Fits) :
    res.Returns res.rows := by
  have hyields := yields_of_mysql hengine hrows
  rw [hfresh, List.drop_zero] at hyields
  refine ⟨?_, hyields⟩
  rw [rowsCount, hengine]

/-- A result set of SQLite that has rows does not know of them before it has gone through
them. -/
theorem not_returns_of_sqlite {rows : List (List SqlValue)} (hengine : res.engine = .sqlite)
    (hfresh : res.rowPosition = 0) (hrows : rows ≠ []) : ¬res.Returns rows := by
  rintro ⟨hcount, -⟩
  rw [rowsCount, hengine] at hcount
  exact hrows (List.length_eq_zero_iff.mp (hcount.symm.trans hfresh))

end MySQL

/-! ### When a getter answers -/

theorem numFields_next (res : ResultSet) : res.next.2.numFields = res.numFields := by
  obtain ⟨engine, numFields, rows, pos⟩ := res
  cases engine with
  | mysql => rfl
  | sqlite =>
    simp only [next]
    split <;> rfl

/-- `next` is on a row if it says so. -/
theorem rowPosition_next_ne_zero (res : ResultSet) (h : res.next.1 = true) :
    res.next.2.rowPosition ≠ 0 := by
  obtain ⟨engine, numFields, rows, pos⟩ := res
  cases engine with
  | mysql => exact Nat.succ_ne_zero pos
  | sqlite =>
    have hfound : pos < rows.length := by simpa [next] using h
    simp [next, hfound]

/-- A column there is can be read once there is a row. -/
theorem exists_column (res : ResultSet) (hrow : res.rowPosition ≠ 0) {idx : ℕ} (h1 : 1 ≤ idx)
    (hle : idx ≤ res.numFields) : ∃ v, res.column idx = some v := by
  rw [column, if_neg (by omega), if_neg hrow]
  exact ⟨_, rfl⟩

/-! ### The observers' first two calls

Every observer that reads one row calls `next` once and asks for `rowsCount`:
after that call the two drivers agree on whether there is a row. -/

/-- A result set as the driver hands it over. -/
def Fresh (res : ResultSet) : Prop := res.rowPosition = 0

instance (res : ResultSet) : Decidable res.Fresh := inferInstanceAs (Decidable (_ = _))

theorem rowsCount_next_eq_zero_iff {res : ResultSet} (h : res.Fresh) :
    res.next.2.rowsCount = 0 ↔ res.rows = [] := by
  obtain ⟨engine, numFields, rows, pos⟩ := res
  obtain rfl : pos = 0 := h
  cases engine with
  | mysql => simp [next, rowsCount]
  | sqlite => cases rows <;> simp [next, rowsCount]

/-- Where there is a row, the first call of `next` is on it. -/
theorem rowPosition_next_of_rowsCount {res : ResultSet} (h : res.Fresh)
    (hcount : 0 < res.next.2.rowsCount) : res.next.2.rowPosition ≠ 0 := by
  refine res.rowPosition_next_ne_zero ?_
  have hrows : res.rows ≠ [] := by
    intro hnil
    rw [(rowsCount_next_eq_zero_iff h).mpr hnil] at hcount
    exact Nat.lt_irrefl 0 hcount
  obtain ⟨engine, numFields, rows, pos⟩ := res
  obtain rfl : pos = 0 := h
  have hlt : 0 < rows.length := List.length_pos_iff.mpr hrows
  cases engine <;> simpa [next] using hlt

/-- **Without a row a getter of SQLite throws, and one of MySQL reads an empty
value.** -/
theorem column_next_of_rows_nil {res : ResultSet} (h : res.Fresh) (hrows : res.rows = [])
    {idx : ℕ} {v : SqlValue} (hv : res.next.2.column idx = some v) :
    res.engine = .mysql ∧ v = .null := by
  obtain ⟨engine, numFields, rows, pos⟩ := res
  obtain rfl : pos = 0 := h
  obtain rfl : rows = [] := hrows
  cases engine with
  | mysql =>
    by_cases hidx : idx = 0 ∨ numFields < idx
    · simp [next, column, hidx] at hv
    · simpa [next, column, hidx] using hv.symm
  | sqlite => simp [next, column] at hv

theorem getString_next_of_rows_nil {res : ResultSet} (h : res.Fresh) (hrows : res.rows = [])
    {idx : ℕ} {text : List UInt8} (ht : res.next.2.getString idx = some text) : text = [] := by
  obtain ⟨v, hv, rfl⟩ := Option.map_eq_some_iff.mp ht
  obtain ⟨-, rfl⟩ := column_next_of_rows_nil h hrows hv
  split <;> rfl

end ResultSet

end Morfeusz
