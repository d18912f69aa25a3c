import Morfeusz.Lib.Runs
import Morfeusz.Lib.ByteNumbers

/-!
# The prepared statements of the two drivers

`SQLitePreparedStatement` and `MySQLPreparedStatement`, for a statement that changes data,
each over the library it calls, a parameter with its documented behaviour as laws. SQLite
keeps the bound values itself, and refuses new ones once the statement was stepped and not
reset; MySQL is given buffers with every execution.

The contract of the interface is that an execution runs the statement once, with the values
set last, or throws where one is not set. `Morfeusz.SQL.contract_met_iff` says in which
sequences of calls both drivers keep it.
-/

namespace Morfeusz.SQL

open ByteNumbers

/-! ### Values -/

/-- A value as an engine has it. A double is its bits. -/
inductive EngineValue
  | null
  | integer (v : ℤ)
  | double (bits : UInt64)
  | text (str : List UInt8)
  deriving DecidableEq

/-- The setters of `PreparedStatement`, with their values. -/
inductive Parameter
  | bool (b : Bool)
  | uint8 (v : UInt8)
  | uint16 (v : UInt16)
  | uint32 (v : UInt32)
  | uint64 (v : UInt64)
  | int16 (v : Int16)
  | int32 (v : Int32)
  | int64 (v : Int64)
  | double (bits : UInt64)
  | string (str : List UInt8)
  deriving DecidableEq

namespace Parameter

/-- The value that was set. -/
def value : Parameter → EngineValue
  | bool b => .integer b.toNat
  | uint8 v => .integer v.toNat
  | uint16 v => .integer v.toNat
  | uint32 v => .integer v.toNat
  | uint64 v => .integer v.toNat
  | int16 v => .integer v.toInt
  | int32 v => .integer v.toInt
  | int64 v => .integer v.toInt
  | double bits => .double bits
  | string str => .text str

/-- The value as the drivers hand it over: both make a signed integer of an unsigned one. -/
def signed : Parameter → EngineValue
  | uint32 v => .integer v.toInt32.toInt
  | uint64 v => .integer v.toInt64.toInt
  | p => p.value

/-- A value both engines can be given: an integer that has its sign bit free, and a text not
longer than SQLite takes. -/
def Fits (limit : ℕ) : Parameter → Prop
  | uint32 v => v.toNat < 2 ^ 31
  | uint64 v => v.toNat < 2 ^ 63
  | string str => str.length ≤ limit
  | _ => True

end Parameter

theorem toInt32_toInt_eq_iff (v : UInt32) : v.toInt32.toInt = v.toNat ↔ v.toNat < 2 ^ 31 := by
  have hcond : v.toInt32.toInt = v.toBitVec.toInt := rfl
  have hnat : v.toBitVec.toNat = v.toNat := rfl
  rw [hcond, BitVec.toInt_eq_toNat_cond, hnat]
  split <;> omega

theorem toInt64_toInt_eq_iff (v : UInt64) : v.toInt64.toInt = v.toNat ↔ v.toNat < 2 ^ 63 := by
  have hcond : v.toInt64.toInt = v.toBitVec.toInt := rfl
  have hnat : v.toBitVec.toNat = v.toNat := rfl
  rw [hcond, BitVec.toInt_eq_toNat_cond, hnat]
  split <;> omega

/-- An integer of one byte that was made one of four. -/
theorem toInt32_toInt_of_uint8 (v : UInt8) : v.toUInt32.toInt32.toInt = v.toNat := by
  have hlt : v.toUInt32.toNat < 2 ^ 31 := by
    rw [UInt8.toNat_toUInt32]
    exact v.toNat_lt.trans (by decide)
  rw [(toInt32_toInt_eq_iff _).mpr hlt, UInt8.toNat_toUInt32]

theorem toInt32_toInt_of_uint16 (v : UInt16) : v.toUInt32.toInt32.toInt = v.toNat := by
  have hlt : v.toUInt32.toNat < 2 ^ 31 := by
    rw [UInt16.toNat_toUInt32]
    exact v.toNat_lt.trans (by decide)
  rw [(toInt32_toInt_eq_iff _).mpr hlt, UInt16.toNat_toUInt32]

/-- A value fits if it keeps its sign and is no text that is too long. -/
theorem Parameter.fits_iff (p : Parameter) (limit : ℕ) :
    p.Fits limit ↔ p.signed = p.value ∧ ∀ str, p.value = .text str → str.length ≤ limit := by
  cases p with
  | uint32 v =>
    rw [Fits, signed, value, EngineValue.integer.injEq, toInt32_toInt_eq_iff]
    exact (and_iff_left fun str h => by cases h).symm
  | uint64 v =>
    rw [Fits, signed, value, EngineValue.integer.injEq, toInt64_toInt_eq_iff]
    exact (and_iff_left fun str h => by cases h).symm
  | string str =>
    constructor
    · intro h
      refine ⟨rfl, fun str' hstr => ?_⟩
      obtain rfl := EngineValue.text.inj hstr
      exact h
    · rintro ⟨-, h⟩
      exact h str rfl
  | _ => exact iff_of_true trivial ⟨rfl, fun str h => by cases h⟩

/-- Of parameters that are all unset, none is set. -/
theorem getElem?_replicate_none_ne {n : ℕ} (j : ℕ) (p : Parameter) :
    (List.replicate n (none : Option Parameter))[j]? ≠ some (some p) := by
  intro hp
  cases List.eq_of_mem_replicate (List.mem_of_getElem? hp)

/-! ### The libraries -/

/-- What `sqlite3_bind_int`, `sqlite3_bind_int64`, `sqlite3_bind_double` and
`sqlite3_bind_text` are called with. -/
inductive SQLiteArgument
  | int (v : Int32)
  | int64 (v : Int64)
  | double (bits : UInt64)
  | text (str : List UInt8) (length : Int32)

/-- The value that is bound. A text with a negative length goes on to its first zero byte; one
that is too long is refused. -/
def SQLiteArgument.value (limit : ℕ) : SQLiteArgument → Option EngineValue
  | int v => some (.integer v.toInt)
  | int64 v => some (.integer v.toInt)
  | double bits => some (.double bits)
  | text str length =>
    let bound := if length < 0 then str.takeWhile (· ≠ 0) else str.take length.toInt.toNat
    if bound.length ≤ limit then some (.text bound) else none

/-- No text that is too long is bound. -/
theorem SQLiteArgument.length_le {limit : ℕ} {arg : SQLiteArgument} {str : List UInt8}
    (h : arg.value limit = some (.text str)) : str.length ≤ limit := by
  cases arg with
  | text bytes length =>
    obtain ⟨hle, hbound⟩ := Option.ite_none_right_eq_some.mp h
    obtain rfl := EngineValue.text.inj (Option.some.inj hbound)
    exact hle
  | int v => cases h
  | int64 v => cases h
  | double bits => cases h

/-- A text that is not is bound as it is. -/
theorem SQLiteArgument.value_text_of_le {limit : ℕ} {str : List UInt8} (hle : str.length ≤ limit)
    (hlimit : limit < 2 ^ 31) :
    (text str (Int32.ofNat str.length)).value limit = some (.text str) := by
  have hint : (Int32.ofNat str.length).toInt = str.length :=
    Int32.toInt_ofNat_of_lt (hle.trans_lt hlimit)
  have hnonneg : ¬Int32.ofNat str.length < 0 := by
    rw [Int32.lt_iff_toInt_lt, hint]
    exact not_lt.mpr (Int.natCast_nonneg _)
  rw [value, if_neg hnonneg, hint, Int.toNat_natCast, List.take_length]
  exact if_pos hle

/-- The functions of SQLite that a prepared statement with `n` parameters calls. -/
structure SQLiteStatement (n : ℕ) where
  Stmt : Type
  prepared : Stmt
  /-- `sqlite3_bind_*`, and whether it succeeds. -/
  bind : Stmt → ℕ → SQLiteArgument → Bool × Stmt
  /-- `sqlite3_clear_bindings`. -/
  clearBindings : Stmt → Stmt
  /-- `sqlite3_step`: the values it runs the statement with, unless it is a misuse. -/
  step : Stmt → Option (List EngineValue) × Stmt
  /-- `sqlite3_column_count`. -/
  columnCount : ℕ
  /-- The longest text. -/
  limit : ℕ
  /-- Whether a statement that is done is reset by the next step. -/
  autoReset : Bool
  bindings : Stmt → List EngineValue
  /-- The statement was stepped, and not reset since. -/
  stepped : Stmt → Bool
  bindings_prepared : bindings prepared = List.replicate n .null
  stepped_prepared : stepped prepared = false
  bind_bound : ∀ stmt idx arg v, stepped stmt = false → 1 ≤ idx → idx ≤ n →
    arg.value limit = some v → (bind stmt idx arg).1 = true ∧
      bindings (bind stmt idx arg).2 = (bindings stmt).set (idx - 1) v ∧
      stepped (bind stmt idx arg).2 = false
  bind_refused : ∀ stmt idx arg, stepped stmt = true ∨ arg.value limit = none →
    (bind stmt idx arg).1 = false ∧ bindings (bind stmt idx arg).2 = bindings stmt ∧
      stepped (bind stmt idx arg).2 = stepped stmt
  clearBindings_cleared : ∀ stmt, bindings (clearBindings stmt) = List.replicate n .null ∧
    stepped (clearBindings stmt) = stepped stmt
  step_run : ∀ stmt, stepped stmt = false ∨ autoReset = true →
    (step stmt).1 = some (bindings stmt) ∧ bindings (step stmt).2 = bindings stmt ∧
      stepped (step stmt).2 = true
  step_misuse : ∀ stmt, stepped stmt = true → autoReset = false →
    (step stmt).1 = none ∧ bindings (step stmt).2 = bindings stmt ∧ stepped (step stmt).2 = true
  /-- A statement that changes data returns nothing. -/
  columnCount_eq : columnCount = 0
  limit_lt : limit < 2 ^ 31

/-- A value is bound, or the bindings stay. -/
theorem SQLiteStatement.bind_cases {n : ℕ} (lib : SQLiteStatement n) (stmt : lib.Stmt) {idx : ℕ}
    (h1 : 1 ≤ idx) (hle : idx ≤ n) (arg : SQLiteArgument) :
    (lib.stepped stmt = false ∧ ∃ v, arg.value lib.limit = some v ∧
        lib.bindings (lib.bind stmt idx arg).2 = (lib.bindings stmt).set (idx - 1) v) ∨
      ((lib.stepped stmt = true ∨ arg.value lib.limit = none) ∧
        lib.bindings (lib.bind stmt idx arg).2 = lib.bindings stmt) := by
  cases hstepped : lib.stepped stmt with
  | true => exact Or.inr ⟨Or.inl rfl, (lib.bind_refused stmt idx arg (Or.inl hstepped)).2.1⟩
  | false =>
    cases hv : arg.value lib.limit with
    | none => exact Or.inr ⟨Or.inr rfl, (lib.bind_refused stmt idx arg (Or.inr hv)).2.1⟩
    | some v => exact Or.inl ⟨rfl, v, rfl, (lib.bind_bound stmt idx arg v hstepped h1 hle hv).2.1⟩

/-- Binding is no step. -/
theorem SQLiteStatement.stepped_bind {n : ℕ} (lib : SQLiteStatement n) (stmt : lib.Stmt) {idx : ℕ}
    (h1 : 1 ≤ idx) (hle : idx ≤ n) (arg : SQLiteArgument) :
    lib.stepped (lib.bind stmt idx arg).2 = lib.stepped stmt := by
  cases hstepped : lib.stepped stmt with
  | true => exact (lib.bind_refused stmt idx arg (Or.inl hstepped)).2.2.trans hstepped
  | false =>
    cases hv : arg.value lib.limit with
    | none => exact (lib.bind_refused stmt idx arg (Or.inr hv)).2.2.trans hstepped
    | some v => exact (lib.bind_bound stmt idx arg v hstepped h1 hle hv).2.2

/-- `enum_field_types`, as far as the setters use it. The first is zero. -/
inductive MySQLType
  | decimal
  | long
  | longlong
  | double
  | varString
  deriving DecidableEq

/-- `MYSQL_BIND`. -/
structure MySQLBind where
  bufferType : MySQLType
  buffer : Option (List UInt8)
  bufferLength : ℕ
  length : Option ℕ
  isUnsigned : Bool
  deriving DecidableEq

/-- A binding that is all zero. -/
def MySQLBind.zero : MySQLBind :=
  { bufferType := .decimal, buffer := none, bufferLength := 0, length := none,
    isUnsigned := false }

/-- The value of a binding that has a buffer: an integer by its bytes and its flag. -/
def MySQLBind.value (bind : MySQLBind) : Option EngineValue :=
  match bind.bufferType, bind.buffer, bind.length with
  | .long, some buffer, _ =>
    let v := UInt32.ofNat (leVal buffer)
    some (.integer (if bind.isUnsigned then v.toNat else v.toInt32.toInt))
  | .longlong, some buffer, _ =>
    let v := UInt64.ofNat (leVal buffer)
    some (.integer (if bind.isUnsigned then v.toNat else v.toInt64.toInt))
  | .double, some buffer, _ => some (.double (UInt64.ofNat (leVal buffer)))
  | .varString, some buffer, some length =>
    some (.text (buffer.take (min length bind.bufferLength)))
  | _, _, _ => none

/-- The functions of MySQL that a prepared statement calls. Of bindings without a buffer
nothing is known. -/
structure MySQLStatement where
  /-- `mysql_stmt_bind_param` and `mysql_stmt_execute`: the values the statement is run with,
  unless one of the two fails before that. -/
  send : List MySQLBind → Option (List EngineValue)
  /-- The values are not too long for a packet. -/
  packetFits : List EngineValue → Bool
  send_of_values : ∀ binds values, binds.map MySQLBind.value = values.map some →
    send binds = if packetFits values = true then some values else none

/-- What an execution does: whether it throws, the values the statement is run with each time
it is, and the statement after it. The number of changed rows is left out. -/
structure Execution (σ : Type) where
  thrown : Bool
  ran : List (List EngineValue)
  stmt : σ

/-! ### SQLite -/

section SQLite

variable {n : ℕ} (lib : SQLiteStatement n)

/-- `SQLitePreparedStatement`. -/
structure SQLitePreparedStatement where
  closed : Bool
  stmt : lib.Stmt
  paramsSet : List Bool

/-- `SQLitePreparedStatement::SQLitePreparedStatement`. -/
def SQLitePreparedStatement.init : SQLitePreparedStatement lib :=
  { closed := false, stmt := lib.prepared, paramsSet := List.replicate n false }

namespace SQLitePreparedStatement

variable {lib} (s : SQLitePreparedStatement lib)

/-- `clearParameters`. -/
def clearParameters : SQLitePreparedStatement lib :=
  { s with stmt := lib.clearBindings s.stmt, paramsSet := List.replicate n false }

/-- `isAllSet`. -/
def isAllSet : Bool := s.paramsSet.all id

/-- `doQuery`, and whether it throws. -/
def doQuery : Bool := s.closed || !s.isAllSet

/-- `execute`, which does not step. -/
def execute : Execution (SQLitePreparedStatement lib) :=
  { thrown := s.doQuery, ran := [], stmt := s }

/-- `executeUpdate`; `rejects` says which values the database does not take. -/
def executeUpdate (rejects : List EngineValue → Bool) : Execution (SQLitePreparedStatement lib) :=
  if s.doQuery then { thrown := true, ran := [], stmt := s }
  else if 0 < lib.columnCount then { thrown := true, ran := [], stmt := s }
  else
    let stmt := { s with stmt := (lib.step s.stmt).2 }
    match (lib.step s.stmt).1 with
    | none => { thrown := true, ran := [], stmt }
    | some values => { thrown := rejects values, ran := [values], stmt }

/-- `checkValidity`, and whether the index is valid. -/
def checkValidity (_ : SQLitePreparedStatement lib) (idx : UInt8) : Bool :=
  !(idx = 0 ∨ n < idx.toNat)

/-- The setters: whether they throw, and the statement after them. -/
def setArgument (index : UInt8) (arg : SQLiteArgument) : Bool × SQLitePreparedStatement lib :=
  if s.checkValidity index then
    (!(lib.bind s.stmt index.toNat arg).1,
      { s with
        stmt := (lib.bind s.stmt index.toNat arg).2
        paramsSet := s.paramsSet.set (index.toNat - 1) true })
  else (true, s)

def setInt32 (index : UInt8) (value : Int32) := s.setArgument index (.int value)

def setInt64 (index : UInt8) (value : Int64) := s.setArgument index (.int64 value)

def setDouble (index : UInt8) (bits : UInt64) := s.setArgument index (.double bits)

def setString (index : UInt8) (value : List UInt8) :=
  s.setArgument index (.text value (Int32.ofNat value.length))

def setInt16 (index : UInt8) (value : Int16) := s.setInt32 index value.toInt32

def setUint32 (index : UInt8) (value : UInt32) := s.setInt32 index value.toInt32

def setUint64 (index : UInt8) (value : UInt64) := s.setInt64 index value.toInt64

def setUint16 (index : UInt8) (value : UInt16) := s.setUint32 index value.toUInt32

def setUint8 (index : UInt8) (value : UInt8) := s.setUint32 index value.toUInt32

def setBool (index : UInt8) (value : Bool) := s.setUint32 index value.toUInt32

/-- A setter. -/
def set (index : UInt8) : Parameter → Bool × SQLitePreparedStatement lib
  | .bool b => s.setBool index b
  | .uint8 v => s.setUint8 index v
  | .uint16 v => s.setUint16 index v
  | .uint32 v => s.setUint32 index v
  | .uint64 v => s.setUint64 index v
  | .int16 v => s.setInt16 index v
  | .int32 v => s.setInt32 index v
  | .int64 v => s.setInt64 index v
  | .double bits => s.setDouble index bits
  | .string str => s.setString index str

/-- Numbers are bound as signed ones. -/
theorem set_eq_of_signed {index : UInt8} {p : Parameter} {arg : SQLiteArgument}
    (hset : s.set index p = s.setArgument index arg) (hvalue : arg.value lib.limit = some p.signed)
    (hnumber : ∀ str, p.signed ≠ .text str) :
    ∃ arg, s.set index p = s.setArgument index arg ∧
      (p.Fits lib.limit → arg.value lib.limit = some p.value) ∧
      ∀ str, arg.value lib.limit = some (.text str) → str.length ≤ lib.limit := by
  refine ⟨arg, hset, fun hfits => ?_, fun str hstr => ?_⟩
  · rw [hvalue, ((p.fits_iff _).mp hfits).1]
  · exact absurd (Option.some.inj (hvalue.symm.trans hstr)) (hnumber str)

/-- Every setter binds an argument; a value that fits is bound as it is, and no text that is
too long is bound. -/
theorem set_eq (index : UInt8) (p : Parameter) :
    ∃ arg, s.set index p = s.setArgument index arg ∧
      (p.Fits lib.limit → arg.value lib.limit = some p.value) ∧
      ∀ str, arg.value lib.limit = some (.text str) → str.length ≤ lib.limit := by
  cases p with
  | bool b =>
    refine s.set_eq_of_signed rfl ?_ fun _ => EngineValue.noConfusion
    cases b <;> rfl
  | uint8 v =>
    refine s.set_eq_of_signed rfl ?_ fun _ => EngineValue.noConfusion
    exact congrArg (fun z => some (EngineValue.integer z)) (toInt32_toInt_of_uint8 v)
  | uint16 v =>
    refine s.set_eq_of_signed rfl ?_ fun _ => EngineValue.noConfusion
    exact congrArg (fun z => some (EngineValue.integer z)) (toInt32_toInt_of_uint16 v)
  | int16 v =>
    refine s.set_eq_of_signed rfl ?_ fun _ => EngineValue.noConfusion
    exact congrArg (fun z => some (EngineValue.integer z)) (Int16.toInt_toInt32 v)
  | uint32 v => exact s.set_eq_of_signed rfl rfl fun _ => EngineValue.noConfusion
  | uint64 v => exact s.set_eq_of_signed rfl rfl fun _ => EngineValue.noConfusion
  | int32 v => exact s.set_eq_of_signed rfl rfl fun _ => EngineValue.noConfusion
  | int64 v => exact s.set_eq_of_signed rfl rfl fun _ => EngineValue.noConfusion
  | double bits => exact s.set_eq_of_signed rfl rfl fun _ => EngineValue.noConfusion
  | string str =>
    refine ⟨_, rfl, fun hle => ?_, fun str' hstr => SQLiteArgument.length_le hstr⟩
    exact SQLiteArgument.value_text_of_le hle lib.limit_lt

/-! ### What SQLite holds -/

/-- SQLite has the values of the parameters until the statement is stepped, and from then on
it keeps the values it has. -/
structure Holds (params : List (Option Parameter)) (kept : Option (List EngineValue)) : Prop where
  closed : s.closed = false
  paramsSet : s.paramsSet = params.map Option.isSome
  length : params.length = n
  bindings_length : (lib.bindings s.stmt).length = n
  text_le : ∀ str, .text str ∈ lib.bindings s.stmt → str.length ≤ lib.limit
  bound : kept = none → lib.stepped s.stmt = false ∧
    ∀ (j : ℕ) (p : Parameter), params[j]? = some (some p) → p.Fits lib.limit →
      (lib.bindings s.stmt)[j]? = some p.value
  kept : ∀ values, kept = some values →
    lib.stepped s.stmt = true ∧ lib.bindings s.stmt = values

variable {s} {params : List (Option Parameter)} {kept : Option (List EngineValue)}

theorem holds_init : (init lib).Holds (List.replicate n none) none where
  closed := rfl
  paramsSet := by rw [List.map_replicate]; rfl
  length := List.length_replicate
  bindings_length := by rw [init, lib.bindings_prepared, List.length_replicate]
  text_le str hstr := by
    rw [init, lib.bindings_prepared] at hstr
    cases List.eq_of_mem_replicate hstr
  bound _ := ⟨lib.stepped_prepared, fun j p hp => absurd hp (getElem?_replicate_none_ne j p)⟩
  kept _ h := by cases h

/-- Values that are bound are held, and others leave what is. -/
theorem Holds.setArgument (h : s.Holds params kept) {index : UInt8} {p : Parameter}
    {arg : SQLiteArgument} (h1 : 1 ≤ index.toNat) (hle : index.toNat ≤ n)
    (hfits : p.Fits lib.limit → arg.value lib.limit = some p.value)
    (htext : ∀ str, arg.value lib.limit = some (.text str) → str.length ≤ lib.limit) :
    (s.setArgument index arg).2.Holds (params.set (index.toNat - 1) (some p)) kept := by
  have hindex : ¬(index = 0 ∨ n < index.toNat) := by
    rw [← UInt8.toNat_inj, UInt8.toNat_zero]
    omega
  have hstepped := lib.stepped_bind s.stmt h1 hle arg
  have hbind := lib.bind_cases s.stmt h1 hle arg
  rw [SQLitePreparedStatement.setArgument, checkValidity, decide_eq_false hindex, Bool.not_false,
    if_pos rfl]
  have hlt : index.toNat - 1 < params.length := by
    rw [h.length]
    omega
  have hlt' : index.toNat - 1 < (lib.bindings s.stmt).length := by
    rw [h.bindings_length, ← h.length]
    exact hlt
  constructor <;> try dsimp only
  · exact h.closed
  · rw [h.paramsSet, List.map_set]
    rfl
  · rw [List.length_set, h.length]
  · rcases hbind with ⟨-, v, -, hbound⟩ | ⟨-, hsame⟩
    · rw [hbound, List.length_set, h.bindings_length]
    · rw [hsame, h.bindings_length]
  · intro str hstr
    rcases hbind with ⟨-, v, hv, hbound⟩ | ⟨-, hsame⟩
    · rw [hbound] at hstr
      rcases List.mem_or_eq_of_mem_set hstr with hmem | rfl
      · exact h.text_le str hmem
      · exact htext str hv
    · exact h.text_le str (hsame ▸ hstr)
  · intro hkept
    obtain ⟨hnot, hbound⟩ := h.bound hkept
    refine ⟨hstepped.trans hnot, fun j q hq hqfits => ?_⟩
    by_cases hj : index.toNat - 1 = j
    · -- the parameter that was set: not stepped, so a value that fits is bound
      rw [← hj, List.getElem?_set_self hlt] at hq
      obtain rfl := Option.some.inj (Option.some.inj hq)
      have hvalue := hfits hqfits
      rcases hbind with ⟨-, v, hv, hset⟩ | ⟨hrefused, -⟩
      · obtain rfl := Option.some.inj (hv.symm.trans hvalue)
        rw [hset, ← hj, List.getElem?_set_self hlt']
      · rcases hrefused with hstep | hnone
        · cases hnot.symm.trans hstep
        · cases hnone.symm.trans hvalue
    · rw [List.getElem?_set_ne hj] at hq
      have hold := hbound j q hq hqfits
      rcases hbind with ⟨-, v, -, hset⟩ | ⟨-, hsame⟩
      · rw [hset, List.getElem?_set_ne hj, hold]
      · rw [hsame, hold]
  · intro values hkept
    obtain ⟨hyes, hvalues⟩ := h.kept values hkept
    refine ⟨hstepped.trans hyes, ?_⟩
    rcases hbind with ⟨hnot, -⟩ | ⟨-, hsame⟩
    · cases hyes.symm.trans hnot
    · rw [hsame, hvalues]

/-- An index there is not sets nothing. -/
theorem setArgument_of_invalid {index : UInt8} {arg : SQLiteArgument}
    (hindex : index = 0 ∨ n < index.toNat) : s.setArgument index arg = (true, s) := by
  rw [setArgument, checkValidity, decide_eq_true hindex]
  rfl

theorem Holds.clearParameters (h : s.Holds params kept) :
    s.clearParameters.Holds (List.replicate n none) (kept.map fun _ => List.replicate n .null) := by
  obtain ⟨hbindings, hstepped⟩ := lib.clearBindings_cleared s.stmt
  constructor <;> try dsimp only [SQLitePreparedStatement.clearParameters]
  · exact h.closed
  · rw [List.map_replicate]
    rfl
  · exact List.length_replicate
  · rw [hbindings, List.length_replicate]
  · intro str hstr
    rw [hbindings] at hstr
    cases List.eq_of_mem_replicate hstr
  · intro hkept
    refine ⟨hstepped.trans (h.bound (Option.map_eq_none_iff.mp hkept)).1, fun j p hp => ?_⟩
    exact absurd hp (getElem?_replicate_none_ne j p)
  · intro values hkept
    obtain ⟨old, hold, rfl⟩ := Option.map_eq_some_iff.mp hkept
    exact ⟨hstepped.trans (h.kept old hold).1, hbindings⟩

/-- What was held when the statement is run is kept. -/
theorem Holds.step (h : s.Holds params kept) (hstep : kept = none ∨ lib.autoReset = true) :
    { s with stmt := (lib.step s.stmt).2 }.Holds params (some (lib.bindings s.stmt)) := by
  obtain ⟨-, hsame, hstepped⟩ :=
    lib.step_run s.stmt (hstep.imp_left fun hnone => (h.bound hnone).1)
  refine { h with bindings_length := ?_, text_le := ?_, bound := ?_, kept := ?_ }
  · rw [hsame, h.bindings_length]
  · intro str hstr
    exact h.text_le str (hsame ▸ hstr)
  · intro hnone
    cases hnone
  · intro values hvalues
    obtain rfl := Option.some.inj hvalues
    exact ⟨hstepped, hsame⟩

/-- The check of SQLite. -/
theorem Holds.doQuery_iff (h : s.Holds params kept) : s.doQuery = true ↔ none ∈ params := by
  rw [doQuery, h.closed, Bool.false_or, isAllSet, h.paramsSet, List.all_map, Bool.not_eq_true',
    List.all_eq_false]
  constructor
  · rintro ⟨p, hp, hnot⟩
    cases p with
    | none => exact hp
    | some p => exact absurd rfl hnot
  · intro hnone
    exact ⟨none, hnone, Bool.false_ne_true⟩

/-- Nothing is run with a parameter that is not set. -/
theorem Holds.executeUpdate_of_none (h : s.Holds params kept) (hnone : none ∈ params)
    (f : List EngineValue → Bool) :
    s.executeUpdate f = { thrown := true, ran := [], stmt := s } := by
  rw [executeUpdate, if_pos (h.doQuery_iff.mpr hnone)]

/-- The statement is run with the values SQLite has, if it may step. -/
theorem Holds.executeUpdate_of_step (h : s.Holds params kept) (hset : none ∉ params)
    (f : List EngineValue → Bool) (hstep : kept = none ∨ lib.autoReset = true) :
    s.executeUpdate f =
      { thrown := f (lib.bindings s.stmt)
        ran := [lib.bindings s.stmt]
        stmt := { s with stmt := (lib.step s.stmt).2 } } := by
  have hquery : ¬s.doQuery = true := mt h.doQuery_iff.mp hset
  have hcolumns : ¬0 < lib.columnCount := by rw [lib.columnCount_eq]; exact Nat.lt_irrefl 0
  have hrun := (lib.step_run s.stmt (hstep.imp_left fun hnone => (h.bound hnone).1)).1
  rw [executeUpdate, if_neg hquery, if_neg hcolumns]
  dsimp only
  rw [hrun]

/-- A statement that is done and not reset is not run. -/
theorem Holds.executeUpdate_of_kept {values : List EngineValue}
    (h : s.Holds params (some values)) (hreset : lib.autoReset = false)
    (f : List EngineValue → Bool) : (s.executeUpdate f).ran = [] := by
  have hmisuse := (lib.step_misuse s.stmt (h.kept values rfl).1 hreset).1
  rw [executeUpdate]
  dsimp only
  rw [hmisuse]
  split
  · rfl
  · split <;> rfl

end SQLitePreparedStatement

end SQLite

/-! ### MySQL -/

/-- `MySQLPreparedStatement`. -/
structure MySQLPreparedStatement where
  closed : Bool
  bind : List MySQLBind
  paramsSet : List Bool

namespace MySQLPreparedStatement

/-- `MySQLPreparedStatement::MySQLPreparedStatement`, for a statement with `n` parameters. -/
def init (n : ℕ) : MySQLPreparedStatement :=
  { closed := false, bind := List.replicate n .zero, paramsSet := List.replicate n false }

variable (s : MySQLPreparedStatement)

/-- `clearParameters`, which leaves the type of a buffer. -/
def clearParameters : MySQLPreparedStatement :=
  { s with
    bind := s.bind.map fun b => { b with length := none, buffer := none }
    paramsSet := s.paramsSet.map fun _ => false }

/-- `isAllSet`, which is not called. -/
def isAllSet : Bool := s.paramsSet.all id

/-- `doQuery`. -/
def doQuery (lib : MySQLStatement) (rejects : List EngineValue → Bool) :
    Execution MySQLPreparedStatement :=
  if s.closed then { thrown := true, ran := [], stmt := s }
  else
    match lib.send s.bind with
    | none => { thrown := true, ran := [], stmt := s }
    | some values => { thrown := rejects values, ran := [values], stmt := s }

/-- `execute`. -/
def execute (lib : MySQLStatement) (rejects : List EngineValue → Bool) := s.doQuery lib rejects

/-- `executeUpdate`. -/
def executeUpdate (lib : MySQLStatement) (rejects : List EngineValue → Bool) :=
  s.doQuery lib rejects

/-- `checkValidity`, and whether the index is valid. -/
def checkValidity (idx : UInt8) : Bool := !(idx = 0 ∨ s.bind.length < idx.toNat)

/-- `setValue`. -/
def setValue (param : MySQLBind) (value : List UInt8) : MySQLBind :=
  { param with buffer := some value, bufferLength := 0, length := none }

/-- The setters: whether they throw, and the statement after them. -/
def setBind (index : UInt8) (f : MySQLBind → MySQLBind) : Bool × MySQLPreparedStatement :=
  if s.checkValidity index then
    (false,
      { s with
        bind := s.bind.modify (index.toNat - 1) f
        paramsSet := s.paramsSet.set (index.toNat - 1) true })
  else (true, s)

def setUint32 (index : UInt8) (value : UInt32) :=
  s.setBind index fun param => setValue { param with bufferType := .long } (leBytes 4 value.toNat)

def setUint64 (index : UInt8) (value : UInt64) :=
  s.setBind index fun param =>
    setValue { param with bufferType := .longlong } (leBytes 8 value.toNat)

def setInt32 (index : UInt8) (value : Int32) :=
  s.setBind index fun param =>
    setValue { param with bufferType := .long } (leBytes 4 value.toUInt32.toNat)

def setInt64 (index : UInt8) (value : Int64) :=
  s.setBind index fun param =>
    setValue { param with bufferType := .longlong } (leBytes 8 value.toUInt64.toNat)

def setDouble (index : UInt8) (bits : UInt64) :=
  s.setBind index fun param => setValue { param with bufferType := .double } (leBytes 8 bits.toNat)

def setString (index : UInt8) (value : List UInt8) :=
  s.setBind index fun param =>
    { param with
      bufferType := .varString
      buffer := some (value ++ [0])
      bufferLength := value.length + 1
      length := some value.length }

def setInt16 (index : UInt8) (value : Int16) := s.setInt32 index value.toInt32

def setUint16 (index : UInt8) (value : UInt16) := s.setUint32 index value.toUInt32

def setUint8 (index : UInt8) (value : UInt8) := s.setUint32 index value.toUInt32

def setBool (index : UInt8) (value : Bool) := s.setUint32 index value.toUInt32

/-- A setter. -/
def set (index : UInt8) : Parameter → Bool × MySQLPreparedStatement
  | .bool b => s.setBool index b
  | .uint8 v => s.setUint8 index v
  | .uint16 v => s.setUint16 index v
  | .uint32 v => s.setUint32 index v
  | .uint64 v => s.setUint64 index v
  | .int16 v => s.setInt16 index v
  | .int32 v => s.setInt32 index v
  | .int64 v => s.setInt64 index v
  | .double bits => s.setDouble index bits
  | .string str => s.setString index str

variable {s}

/-- The flag `is_unsigned` is that of the constructor in every binding. -/
def Signed (s : MySQLPreparedStatement) : Prop := ∀ b ∈ s.bind, b.isUnsigned = false

theorem signed_init (n : ℕ) : (init n).Signed := by
  intro b hb
  obtain rfl := List.eq_of_mem_replicate hb
  rfl

/-- Nothing sets the flag: where it is clear, it stays so. -/
theorem Signed.setBind (h : s.Signed) {index : UInt8} {f : MySQLBind → MySQLBind}
    (hf : ∀ param, (f param).isUnsigned = param.isUnsigned) : (s.setBind index f).2.Signed := by
  rw [MySQLPreparedStatement.setBind]
  split
  · intro b hb
    obtain ⟨j, hj⟩ := List.mem_iff_getElem?.mp hb
    rw [List.getElem?_modify] at hj
    obtain ⟨param, hparam, rfl⟩ := Option.map_eq_some_iff.mp hj
    have hclear : param.isUnsigned = false := h param (List.mem_of_getElem? hparam)
    split
    · rw [hf, hclear]
    · exact hclear
  · exact h

theorem Signed.clearParameters (h : s.Signed) : s.clearParameters.Signed := by
  intro b hb
  obtain ⟨b', hb', rfl⟩ := List.mem_map.mp hb
  exact h b' hb'

theorem value_long {param : MySQLBind} (h : param.isUnsigned = false) (v : UInt32) :
    (setValue { param with bufferType := .long } (leBytes 4 v.toNat)).value =
      some (.integer v.toInt32.toInt) := by
  change some (EngineValue.integer (if param.isUnsigned then _ else
    (UInt32.ofNat (leVal (leBytes 4 v.toNat))).toInt32.toInt)) = _
  rw [h, leVal_leBytes_of_lt v.toNat_lt, UInt32.ofNat_toNat]
  rfl

theorem value_longlong {param : MySQLBind} (h : param.isUnsigned = false) (v : UInt64) :
    (setValue { param with bufferType := .longlong } (leBytes 8 v.toNat)).value =
      some (.integer v.toInt64.toInt) := by
  change some (EngineValue.integer (if param.isUnsigned then _ else
    (UInt64.ofNat (leVal (leBytes 8 v.toNat))).toInt64.toInt)) = _
  rw [h, leVal_leBytes_of_lt v.toNat_lt, UInt64.ofNat_toNat]
  rfl

/-- Every setter makes a binding whose value is the signed one, as the flag is clear. -/
theorem set_eq (s : MySQLPreparedStatement) (index : UInt8) (p : Parameter) :
    ∃ f, s.set index p = s.setBind index f ∧ ∀ param,
      (f param).isUnsigned = param.isUnsigned ∧
        (param.isUnsigned = false → (f param).value = some p.signed) := by
  cases p with
  | bool b =>
    refine ⟨_, rfl, fun param => ⟨rfl, fun h => ?_⟩⟩
    cases b <;> exact value_long h _
  | uint8 v =>
    refine ⟨_, rfl, fun param => ⟨rfl, fun h => ?_⟩⟩
    rw [value_long h, toInt32_toInt_of_uint8]
    rfl
  | uint16 v =>
    refine ⟨_, rfl, fun param => ⟨rfl, fun h => ?_⟩⟩
    rw [value_long h, toInt32_toInt_of_uint16]
    rfl
  | uint32 v => exact ⟨_, rfl, fun param => ⟨rfl, fun h => value_long h v⟩⟩
  | uint64 v => exact ⟨_, rfl, fun param => ⟨rfl, fun h => value_longlong h v⟩⟩
  | int16 v =>
    refine ⟨_, rfl, fun param => ⟨rfl, fun h => ?_⟩⟩
    rw [value_long h, Int32.toInt32_toUInt32, Int16.toInt_toInt32]
    rfl
  | int32 v => exact ⟨_, rfl, fun param => ⟨rfl, fun h => value_long h v.toUInt32⟩⟩
  | int64 v => exact ⟨_, rfl, fun param => ⟨rfl, fun h => value_longlong h v.toUInt64⟩⟩
  | double bits =>
    refine ⟨_, rfl, fun param => ⟨rfl, fun _ => ?_⟩⟩
    change some (EngineValue.double (UInt64.ofNat (leVal (leBytes 8 bits.toNat)))) = _
    rw [leVal_leBytes_of_lt bits.toNat_lt, UInt64.ofNat_toNat]
    rfl
  | string str =>
    refine ⟨_, rfl, fun param => ⟨rfl, fun _ => ?_⟩⟩
    change some (EngineValue.text
      ((str ++ [0]).take (min str.length (str.length + 1)))) = some (.text str)
    rw [min_eq_left (Nat.le_succ _), List.take_left]

theorem Signed.set (h : s.Signed) (index : UInt8) (p : Parameter) : (s.set index p).2.Signed := by
  obtain ⟨f, hf, hparam⟩ := s.set_eq index p
  rw [hf]
  exact h.setBind fun param => (hparam param).1

/-! ### What MySQL holds -/

/-- There is a binding for each parameter. -/
structure Holds (s : MySQLPreparedStatement) (n : ℕ) (params : List (Option Parameter)) :
    Prop where
  closed : s.closed = false
  signed : s.Signed
  paramsSet : s.paramsSet = params.map Option.isSome
  length : params.length = n
  bind_length : s.bind.length = n
  bind_value : ∀ (j : ℕ) (p : Parameter) (b : MySQLBind), params[j]? = some (some p) →
    s.bind[j]? = some b → b.value = some p.signed

variable {n : ℕ} {params : List (Option Parameter)}

theorem holds_init : (init n).Holds n (List.replicate n none) where
  closed := rfl
  signed := signed_init n
  paramsSet := by rw [List.map_replicate]; rfl
  length := List.length_replicate
  bind_length := List.length_replicate
  bind_value j p _ hp := absurd hp (getElem?_replicate_none_ne j p)

theorem Holds.setBind (h : s.Holds n params) {index : UInt8} {p : Parameter}
    {f : MySQLBind → MySQLBind} (h1 : 1 ≤ index.toNat) (hle : index.toNat ≤ n)
    (hf : ∀ param, (f param).isUnsigned = param.isUnsigned ∧
      (param.isUnsigned = false → (f param).value = some p.signed)) :
    (s.setBind index f).2.Holds n (params.set (index.toNat - 1) (some p)) := by
  have hsigned : (s.setBind index f).2.Signed := h.signed.setBind fun param => (hf param).1
  have hindex : ¬(index = 0 ∨ n < index.toNat) := by
    rw [← UInt8.toNat_inj, UInt8.toNat_zero]
    omega
  have hlt : index.toNat - 1 < params.length := by
    rw [h.length]
    omega
  rw [MySQLPreparedStatement.setBind, checkValidity, h.bind_length, decide_eq_false hindex,
    Bool.not_false, if_pos rfl] at hsigned ⊢
  constructor <;> try dsimp only
  · exact h.closed
  · exact hsigned
  · rw [h.paramsSet, List.map_set]
    rfl
  · rw [List.length_set, h.length]
  · rw [List.length_modify, h.bind_length]
  · intro j q b hq hb
    rw [List.getElem?_modify] at hb
    obtain ⟨param, hparam, rfl⟩ := Option.map_eq_some_iff.mp hb
    by_cases hj : index.toNat - 1 = j
    · rw [← hj, List.getElem?_set_self hlt] at hq
      obtain rfl := Option.some.inj (Option.some.inj hq)
      rw [if_pos hj]
      exact (hf param).2 (h.signed param (List.mem_of_getElem? hparam))
    · rw [List.getElem?_set_ne hj] at hq
      rw [if_neg hj]
      exact h.bind_value j q param hq hparam

/-- An index there is not sets nothing. -/
theorem Holds.setBind_of_invalid (h : s.Holds n params) {index : UInt8} {f : MySQLBind → MySQLBind}
    (hindex : index = 0 ∨ n < index.toNat) : s.setBind index f = (true, s) := by
  rw [MySQLPreparedStatement.setBind, checkValidity, h.bind_length, decide_eq_true hindex]
  rfl

theorem Holds.clearParameters (h : s.Holds n params) :
    s.clearParameters.Holds n (List.replicate n none) := by
  have hsigned : s.clearParameters.Signed := h.signed.clearParameters
  constructor <;> try dsimp only [MySQLPreparedStatement.clearParameters]
  · exact h.closed
  · exact hsigned
  · rw [List.map_replicate, List.map_const', h.paramsSet, List.length_map, h.length]
    rfl
  · exact List.length_replicate
  · rw [List.length_map, h.bind_length]
  · intro j p b hp
    exact absurd hp (getElem?_replicate_none_ne j p)

/-- MySQL knows as well which parameters are set, and does not look. -/
theorem Holds.isAllSet_iff (h : s.Holds n params) : s.isAllSet = true ↔ none ∉ params := by
  rw [isAllSet, h.paramsSet, List.all_map, List.all_eq_true]
  constructor
  · intro hsome hnone
    cases hsome none hnone
  · intro hnone p hp
    cases p with
    | none => exact absurd hp hnone
    | some p => rfl

/-- The signed values are sent, if they are not too long. -/
theorem Holds.doQuery_of_set (h : s.Holds n params) (hset : none ∉ params) (lib : MySQLStatement)
    (f : List EngineValue → Bool) :
    s.doQuery lib f =
      if lib.packetFits (params.map fun p => p.elim .null Parameter.signed) = true then
        { thrown := f (params.map fun p => p.elim .null Parameter.signed)
          ran := [params.map fun p => p.elim .null Parameter.signed]
          stmt := s }
      else { thrown := true, ran := [], stmt := s } := by
  have hvalues : s.bind.map MySQLBind.value =
      (params.map fun p => p.elim .null Parameter.signed).map some := by
    refine List.ext_getElem? fun j => ?_
    simp only [List.getElem?_map]
    cases hb : s.bind[j]? with
    | none =>
      have hge := List.getElem?_eq_none_iff.mp hb
      rw [h.bind_length, ← h.length] at hge
      rw [List.getElem?_eq_none hge]
      rfl
    | some b =>
      have hlt := (List.getElem?_eq_some_iff.mp hb).1
      rw [h.bind_length, ← h.length] at hlt
      rw [List.getElem?_eq_getElem hlt]
      cases hp : params[j] with
      | none => exact absurd (hp ▸ List.getElem_mem hlt) hset
      | some p =>
        rw [Option.map_some, h.bind_value j p b (by rw [List.getElem?_eq_getElem hlt, hp]) hb]
        rfl
  rw [doQuery, h.closed, lib.send_of_values _ _ hvalues]
  by_cases hpacket : lib.packetFits (params.map fun p => p.elim .null Parameter.signed) = true
  · rw [if_pos hpacket, if_pos hpacket]
    rfl
  · rw [if_neg hpacket, if_neg hpacket]
    rfl

/-- Nothing is run where the library refuses the bindings. -/
theorem Holds.doQuery_nothing_iff (h : s.Holds n params) (lib : MySQLStatement)
    (f : List EngineValue → Bool) :
    ((s.doQuery lib f).ran = [] ∧ (s.doQuery lib f).thrown = true) ↔ lib.send s.bind = none := by
  rw [doQuery, h.closed]
  cases hsend : lib.send s.bind with
  | none => exact iff_of_true ⟨rfl, rfl⟩ rfl
  | some values =>
    exact iff_of_false (fun hran => List.cons_ne_nil _ _ hran.1) (Option.some_ne_none values)

@[simp] theorem doQuery_stmt (lib : MySQLStatement) (f : List EngineValue → Bool) :
    (s.doQuery lib f).stmt = s := by
  rw [doQuery]
  split
  · rfl
  · split <;> rfl

end MySQLPreparedStatement

/-! ### The two side by side -/

/-- A call of a prepared statement. -/
inductive StatementCall
  | set (index : UInt8) (p : Parameter)
  | clearParameters
  | execute
  | executeUpdate

section Contract

variable {n : ℕ} (sqlite : SQLiteStatement n) (mysql : MySQLStatement)
  (rejects : List (List EngineValue) → List EngineValue → Bool)

/-- One statement, prepared on both engines, with the values each of them has run it with.
`params` are the parameters set since the last `clearParameters`; `kept` are the values the
statement was first executed with, all null once the parameters were cleared after that. -/
structure Twins where
  sqlite : SQLitePreparedStatement sqlite
  mysql : MySQLPreparedStatement
  sqliteLog : List (List EngineValue)
  mysqlLog : List (List EngineValue)
  params : List (Option Parameter)
  kept : Option (List EngineValue)

namespace Twins

/-- A statement that was just prepared. -/
def init : Twins sqlite where
  sqlite := .init sqlite
  mysql := .init n
  sqliteLog := []
  mysqlLog := []
  params := List.replicate n none
  kept := none

variable {sqlite} (s : Twins sqlite)

/-- Every parameter has been set. -/
def AllSet : Prop := none ∉ s.params

instance : Decidable s.AllSet := inferInstanceAs (Decidable (_ ∉ _))

/-- The values set last. -/
def meant : List EngineValue := s.params.map fun p => p.elim .null Parameter.value

/-- What the two drivers do in an execution. What was run before decides whether the database
takes the values. -/
def executions :
    StatementCall →
      Option (Execution (SQLitePreparedStatement sqlite) × Execution MySQLPreparedStatement)
  | .execute => some (s.sqlite.execute, s.mysql.execute mysql (rejects s.mysqlLog))
  | .executeUpdate => some (s.sqlite.executeUpdate (rejects s.sqliteLog),
      s.mysql.executeUpdate mysql (rejects s.mysqlLog))
  | _ => none

/-- The statements after an execution. -/
def after (e : Execution (SQLitePreparedStatement sqlite) × Execution MySQLPreparedStatement) :
    Twins sqlite :=
  { s with
    sqlite := e.1.stmt
    mysql := e.2.stmt
    sqliteLog := s.sqliteLog ++ e.1.ran
    mysqlLog := s.mysqlLog ++ e.2.ran }

/-- A call. A setter with an index there is not sets nothing. -/
def step (s : Twins sqlite) : StatementCall → Option (Twins sqlite)
  | .set index p => some
      { s with
        sqlite := (s.sqlite.set index p).2
        mysql := (s.mysql.set index p).2
        params := if index = 0 then s.params else s.params.set (index.toNat - 1) (some p) }
  | .clearParameters => some
      { s with
        sqlite := s.sqlite.clearParameters
        mysql := s.mysql.clearParameters
        params := List.replicate n none
        kept := s.kept.map fun _ => List.replicate n .null }
  | .execute => (s.executions mysql rejects .execute).map s.after
  | .executeUpdate => (s.executions mysql rejects .executeUpdate).map fun e =>
      { s.after e with kept := if s.AllSet then some (s.kept.getD s.meant) else s.kept }

/-- What an execution is to do: to run the statement once, with the values set last, and to
throw if the database does not take them; or only to throw, where one is not set. -/
def Contract (e : Execution (SQLitePreparedStatement sqlite) × Execution MySQLPreparedStatement) :
    Prop :=
  if s.AllSet then
    (e.1.ran = [s.meant] ∧ e.1.thrown = rejects s.sqliteLog s.meant) ∧
      e.2.ran = [s.meant] ∧ e.2.thrown = rejects s.mysqlLog s.meant
  else (e.1.ran = [] ∧ e.1.thrown = true) ∧ e.2.ran = [] ∧ e.2.thrown = true

/-- A call meets the contract, and the effect on both engines is the same after it. -/
def Meets (call : StatementCall) (s' : Twins sqlite) : Prop :=
  (∀ e, s.executions mysql rejects call = some e → s.Contract rejects e) ∧
    s'.sqliteLog = s'.mysqlLog

/-- When it does. With a parameter that is not set, the library of MySQL must refuse the
bindings as they are. Otherwise the call must be `executeUpdate`; the values must fit; and
SQLite must run the statement for the first time, or reset it and run it with the same values
as then, not cleared since. -/
def Within : StatementCall → Prop
  | .set _ _ => True
  | .clearParameters => True
  | .execute => ¬s.AllSet ∧ mysql.send s.mysql.bind = none
  | .executeUpdate =>
    if s.AllSet then
      ((∀ p, some p ∈ s.params → p.Fits sqlite.limit) ∧ mysql.packetFits s.meant = true) ∧
        (s.kept = none ∨ sqlite.autoReset = true ∧ s.kept = some s.meant)
    else mysql.send s.mysql.bind = none

/-- What the two hold of the parameters, and that they have run the same. -/
structure Sound (s : Twins sqlite) : Prop where
  sqlite : s.sqlite.Holds s.params s.kept
  mysql : s.mysql.Holds n s.params
  logs : s.sqliteLog = s.mysqlLog

theorem sound_init : (init sqlite).Sound where
  sqlite := SQLitePreparedStatement.holds_init
  mysql := MySQLPreparedStatement.holds_init
  logs := rfl

variable {s} {s' : Twins sqlite}

/-- Where all parameters are set, there is a value at each place. -/
theorem AllSet.map_elim (h : s.AllSet) (f : Parameter → EngineValue) (l : List EngineValue)
    (hlength : l.length = s.params.length)
    (hl : ∀ (j : ℕ) (p : Parameter), s.params[j]? = some (some p) → l[j]? = some (f p)) :
    l = s.params.map fun p => p.elim .null f := by
  refine List.ext_getElem? fun j => ?_
  rw [List.getElem?_map]
  cases hp : s.params[j]? with
  | none => exact List.getElem?_eq_none (hlength.trans_le (List.getElem?_eq_none_iff.mp hp))
  | some p =>
    cases p with
    | none => exact absurd (List.mem_of_getElem? hp) h
    | some p => exact hl j p hp

/-! ### When the contract is met -/

/-- The values the engines have are those that were set, where these fit; and only then. -/
theorem Sound.values_iff (h : s.Sound) (hset : s.AllSet) :
    (sqlite.bindings s.sqlite.stmt = s.meant ∧
        (s.params.map fun p => p.elim .null Parameter.signed) = s.meant) ↔
      (∀ p, some p ∈ s.params → p.Fits sqlite.limit) ∧
        (s.kept = none ∨ s.kept = some s.meant) := by
  constructor
  · rintro ⟨hbindings, hsigned⟩
    refine ⟨fun p hp => (p.fits_iff _).mpr ⟨?_, fun str hstr => ?_⟩, ?_⟩
    · exact List.map_inj_left.mp hsigned (some p) hp
    · refine h.sqlite.text_le str ?_
      rw [hbindings, ← hstr]
      exact List.mem_map.mpr ⟨some p, hp, rfl⟩
    · cases hkept : s.kept with
      | none => exact Or.inl rfl
      | some values => exact Or.inr (by rw [← (h.sqlite.kept values hkept).2, hbindings])
  · rintro ⟨hfits, hkept⟩
    have hsigned : (s.params.map fun p => p.elim .null Parameter.signed) = s.meant := by
      refine List.map_inj_left.mpr fun p hp => ?_
      cases p with
      | none => rfl
      | some p => exact ((p.fits_iff _).mp (hfits p hp)).1
    refine ⟨?_, hsigned⟩
    rcases hkept with hnone | hmeant
    · refine AllSet.map_elim hset _ _ (h.sqlite.bindings_length.trans h.sqlite.length.symm) ?_
      intro j p hp
      exact (h.sqlite.bound hnone).2 j p hp (hfits p (List.mem_of_getElem? hp))
    · exact (h.sqlite.kept _ hmeant).2

theorem Sound.contract_execute_iff (h : s.Sound) :
    s.Contract rejects (s.sqlite.execute, s.mysql.execute mysql (rejects s.mysqlLog)) ↔
      s.Within mysql .execute := by
  rw [Contract, Within]
  split_ifs with hset
  · exact iff_of_false (fun hcontract => List.cons_ne_nil _ _ hcontract.1.1.symm)
      fun hwithin => hwithin.1 hset
  · refine Iff.trans ?_ (and_iff_right hset).symm
    refine Iff.trans (and_iff_right ⟨rfl, h.sqlite.doQuery_iff.mpr (not_not.mp hset)⟩) ?_
    exact h.mysql.doQuery_nothing_iff mysql _

theorem Sound.contract_executeUpdate_iff (h : s.Sound) :
    s.Contract rejects (s.sqlite.executeUpdate (rejects s.sqliteLog),
        s.mysql.executeUpdate mysql (rejects s.mysqlLog)) ↔ s.Within mysql .executeUpdate := by
  rw [Contract, Within]
  dsimp only
  rw [MySQLPreparedStatement.executeUpdate]
  split_ifs with hset
  · have hvalues := h.values_iff hset
    rw [h.mysql.doQuery_of_set hset]
    constructor
    · rintro ⟨⟨hran, -⟩, hran', -⟩
      -- what was run tells that SQLite could step, and with it all values
      have hstep : s.kept = none ∨ sqlite.autoReset = true := by
        by_contra hnot
        obtain ⟨hkept, hreset⟩ := not_or.mp hnot
        obtain ⟨values, hvalues⟩ := Option.ne_none_iff_exists'.mp hkept
        have hnothing := (hvalues ▸ h.sqlite).executeUpdate_of_kept (Bool.eq_false_iff.mpr hreset)
          (rejects s.sqliteLog)
        exact List.cons_ne_nil _ _ (hran.symm.trans hnothing)
      rw [h.sqlite.executeUpdate_of_step hset _ hstep] at hran
      split_ifs at hran' with hpacket
      have hsigned := List.singleton_inj.mp hran'
      obtain ⟨hfits, hkept⟩ := hvalues.mp ⟨List.singleton_inj.mp hran, hsigned⟩
      rw [hsigned] at hpacket
      refine ⟨⟨hfits, hpacket⟩, hkept.imp_right fun hmeant => ⟨?_, hmeant⟩⟩
      exact hstep.resolve_left (hmeant ▸ Option.some_ne_none _)
    · rintro ⟨⟨hfits, hpacket⟩, hkept⟩
      obtain ⟨hbindings, hsigned⟩ := hvalues.mpr ⟨hfits, hkept.imp_right And.right⟩
      rw [h.sqlite.executeUpdate_of_step hset _ (hkept.imp_right And.left), hsigned, if_pos hpacket,
        hbindings]
      exact ⟨⟨rfl, rfl⟩, rfl, rfl⟩
  · rw [h.sqlite.executeUpdate_of_none (not_not.mp hset)]
    refine Iff.trans (and_iff_right ⟨rfl, rfl⟩) ?_
    exact h.mysql.doQuery_nothing_iff mysql _

/-! ### The calls keep it -/

theorem Sound.set (h : s.Sound) {index : UInt8} {p : Parameter}
    (hstep : s.step mysql rejects (.set index p) = some s') : s'.Sound := by
  obtain rfl := Option.some.inj hstep
  obtain ⟨arg, hsqlite, hfits, htext⟩ := s.sqlite.set_eq index p
  obtain ⟨f, hmysql, hf⟩ := s.mysql.set_eq index p
  rw [hsqlite, hmysql]
  by_cases hindex : index = 0 ∨ n < index.toNat
  · have hparams : (if index = 0 then s.params else s.params.set (index.toNat - 1) (some p)) =
        s.params := by
      refine ite_eq_left_iff.mpr fun hzero => List.set_eq_of_length_le ?_
      have hlength := h.sqlite.length
      have hlt := hindex.resolve_left hzero
      omega
    rw [hparams, SQLitePreparedStatement.setArgument_of_invalid hindex,
      h.mysql.setBind_of_invalid hindex]
    exact h
  · obtain ⟨hzero, hle⟩ := not_or.mp hindex
    rw [← UInt8.toNat_inj, UInt8.toNat_zero] at hzero
    rw [if_neg (not_or.mp hindex).1]
    exact ⟨h.sqlite.setArgument (by omega) (by omega) hfits htext,
      h.mysql.setBind (by omega) (by omega) hf, h.logs⟩

theorem Sound.execute (h : s.Sound) (hstep : s.step mysql rejects .execute = some s')
    (hlogs : s'.sqliteLog = s'.mysqlLog) : s'.Sound := by
  obtain rfl := Option.some.inj hstep
  refine ⟨h.sqlite, ?_, hlogs⟩
  rw [after, MySQLPreparedStatement.execute, MySQLPreparedStatement.doQuery_stmt]
  exact h.mysql

/-- The first execution with all parameters set fixes the values of SQLite. -/
theorem Sound.executeUpdate (h : s.Sound) (hwithin : s.Within mysql .executeUpdate)
    (hstep : s.step mysql rejects .executeUpdate = some s')
    (hlogs : s'.sqliteLog = s'.mysqlLog) : s'.Sound := by
  obtain rfl := Option.some.inj hstep
  rw [Within] at hwithin
  refine ⟨?_, ?_, hlogs⟩
  · dsimp only [after]
    by_cases hset : s.AllSet
    · rw [if_pos hset] at hwithin ⊢
      obtain ⟨⟨hfits, -⟩, hkept⟩ := hwithin
      have hbindings := ((h.values_iff hset).mpr ⟨hfits, hkept.imp_right And.right⟩).1
      have hmeant : s.kept.getD s.meant = sqlite.bindings s.sqlite.stmt := by
        rcases hkept with hnone | ⟨-, hmeant⟩
        · rw [hnone, hbindings, Option.getD_none]
        · rw [hmeant, hbindings, Option.getD_some]
      rw [h.sqlite.executeUpdate_of_step hset _ (hkept.imp_right And.left), hmeant]
      exact h.sqlite.step (hkept.imp_right And.left)
    · rw [if_neg hset, h.sqlite.executeUpdate_of_none (not_not.mp hset)]
      exact h.sqlite
  · dsimp only [after]
    rw [MySQLPreparedStatement.executeUpdate, MySQLPreparedStatement.doQuery_stmt]
    exact h.mysql

/-- Executions that meet the contract have the same effect. -/
theorem Sound.logs_after (h : s.Sound)
    {e : Execution (SQLitePreparedStatement sqlite) × Execution MySQLPreparedStatement}
    (hcontract : s.Contract rejects e) : (s.after e).sqliteLog = (s.after e).mysqlLog := by
  rw [Contract] at hcontract
  dsimp only [after]
  split_ifs at hcontract with hset
  · rw [hcontract.1.1, hcontract.2.1, h.logs]
  · rw [hcontract.1.1, hcontract.2.1, h.logs]

/-- **When a call meets the contract.** -/
theorem Sound.meets_iff {call : StatementCall} (h : s.Sound)
    (hstep : s.step mysql rejects call = some s') :
    s.Meets mysql rejects call s' ↔ s.Within mysql call := by
  cases call with
  | set index p =>
    obtain rfl := Option.some.inj hstep
    exact iff_of_true ⟨fun e he => (by cases he), h.logs⟩ trivial
  | clearParameters =>
    obtain rfl := Option.some.inj hstep
    exact iff_of_true ⟨fun e he => (by cases he), h.logs⟩ trivial
  | execute =>
    obtain rfl := Option.some.inj hstep
    rw [← h.contract_execute_iff mysql rejects]
    constructor
    · rintro ⟨hcontract, -⟩
      exact hcontract _ rfl
    · intro hcontract
      refine ⟨fun e he => ?_, h.logs_after rejects hcontract⟩
      obtain rfl := Option.some.inj he
      exact hcontract
  | executeUpdate =>
    obtain rfl := Option.some.inj hstep
    rw [← h.contract_executeUpdate_iff mysql rejects]
    constructor
    · rintro ⟨hcontract, -⟩
      exact hcontract _ rfl
    · intro hcontract
      refine ⟨fun e he => ?_, h.logs_after rejects hcontract⟩
      obtain rfl := Option.some.inj he
      exact hcontract

/-- **A call that meets the contract keeps what the drivers know.** -/
theorem Sound.of_meets {call : StatementCall} (h : s.Sound)
    (hstep : s.step mysql rejects call = some s') (hmeets : s.Meets mysql rejects call s') :
    s'.Sound := by
  cases call with
  | set index p => exact h.set mysql rejects hstep
  | clearParameters =>
    obtain rfl := Option.some.inj hstep
    exact ⟨h.sqlite.clearParameters, h.mysql.clearParameters, h.logs⟩
  | execute => exact h.execute mysql rejects hstep hmeets.2
  | executeUpdate =>
    exact h.executeUpdate mysql rejects ((h.meets_iff mysql rejects hstep).mp hmeets) hstep hmeets.2

end Twins

/-- **The two drivers keep the contract of a prepared statement exactly where they are used
within it.** For every statement that changes data and every sequence of calls: each
execution is as the contract says on both engines, and has the same effect, if and only if
every call is within. -/
theorem contract_met_iff {n : ℕ} (sqlite : SQLiteStatement n) (mysql : MySQLStatement)
    (rejects : List (List EngineValue) → List EngineValue → Bool) (calls : List StatementCall) :
    (∀ i s call s', Runs.StepAt (Twins.step mysql rejects) (Twins.init sqlite) calls i s call s' →
        s.Meets mysql rejects call s') ↔
      ∀ i s call s', Runs.StepAt (Twins.step mysql rejects) (Twins.init sqlite) calls i s call s' →
        s.Within mysql call := by
  refine Runs.forall_stepAt_iff (P := Twins.Sound)
    (A := fun s call s' => s.Meets mysql rejects call s') Twins.sound_init ?_ ?_
  · intro s call s' h hstep
    exact h.meets_iff mysql rejects hstep
  · intro s call s' h hstep hmeets
    exact h.of_meets mysql rejects hstep hmeets

/-- **`execute` changes nothing on SQLite.** It is what `SqlOperationBase::execute` calls for a
request without result. -/
theorem sqliteLog_eq_nil {n : ℕ} {sqlite : SQLiteStatement n} {mysql : MySQLStatement}
    {rejects : List (List EngineValue) → List EngineValue → Bool} {calls : List StatementCall}
    {s : Twins sqlite} (hcalls : .executeUpdate ∉ calls)
    (hrun : Runs.run (Twins.step mysql rejects) (Twins.init sqlite) calls = some s) :
    s.sqliteLog = [] := by
  induction calls using List.reverseRecOn generalizing s with
  | nil =>
    obtain rfl := Option.some.inj hrun
    rfl
  | append_singleton calls call ih =>
    obtain ⟨s', hrun', hstep⟩ := Runs.run_concat_iff.mp hrun
    have hnil := ih (fun hmem => hcalls (List.mem_append_left _ hmem)) hrun'
    cases call with
    | set index p =>
      obtain rfl := Option.some.inj hstep
      exact hnil
    | clearParameters =>
      obtain rfl := Option.some.inj hstep
      exact hnil
    | execute =>
      obtain rfl := Option.some.inj hstep
      exact (List.append_nil _).trans hnil
    | executeUpdate => exact absurd (List.mem_append_right calls List.mem_cons_self) hcalls

end Contract

/-! ### A statement with one parameter -/

/-- The values that are bound, and whether the statement was stepped. -/
def directSQLiteStatement (n : ℕ) : SQLiteStatement n where
  Stmt := List EngineValue × Bool
  prepared := (List.replicate n .null, false)
  bind stmt idx arg :=
    if stmt.2 = true then (false, stmt)
    else (arg.value 1000000000).elim (false, stmt) fun v => (true, (stmt.1.set (idx - 1) v, false))
  clearBindings stmt := (List.replicate n .null, stmt.2)
  step stmt := (some stmt.1, (stmt.1, true))
  columnCount := 0
  limit := 1000000000
  autoReset := true
  bindings stmt := stmt.1
  stepped stmt := stmt.2
  bindings_prepared := rfl
  stepped_prepared := rfl
  bind_bound stmt idx arg v hstepped _ _ hv := by
    rw [hstepped, if_neg Bool.false_ne_true, hv]
    exact ⟨rfl, rfl, rfl⟩
  bind_refused stmt idx arg hrefused := by
    split
    · exact ⟨rfl, rfl, rfl⟩
    · rw [hrefused.resolve_left ‹_›]
      exact ⟨rfl, rfl, rfl⟩
  clearBindings_cleared _ := ⟨rfl, rfl⟩
  step_run _ _ := ⟨rfl, rfl, rfl⟩
  step_misuse _ _ hreset := by cases hreset
  columnCount_eq := rfl
  limit_lt := by decide

/-- A binding without a buffer is sent as an empty text. -/
def directMySQLStatement : MySQLStatement where
  send binds := some (binds.map fun bind => bind.value.getD (.text []))
  packetFits _ := true
  send_of_values binds values h := by
    have hmap : binds.map (fun bind => bind.value.getD (.text [])) =
        (binds.map MySQLBind.value).map fun v => v.getD (.text []) := by
      rw [List.map_map]
      rfl
    rw [if_pos rfl, hmap, h, List.map_map]
    exact congrArg some (List.map_id values)

/-- **An executed statement is not run.** `setUint32(1, 5)` and `execute()` run nothing on
SQLite. -/
theorem execute_not_run :
    ¬∀ (n : ℕ) (sqlite : SQLiteStatement n) (mysql : MySQLStatement)
      (rejects : List (List EngineValue) → List EngineValue → Bool) (calls : List StatementCall)
      (i : ℕ) (s : Twins sqlite) (call : StatementCall) (s' : Twins sqlite),
      Runs.StepAt (Twins.step mysql rejects) (Twins.init sqlite) calls i s call s' →
        s.Meets mysql rejects call s' := by
  intro h
  have hmeets := h 1 (directSQLiteStatement 1) directMySQLStatement (fun _ _ => false)
    [.set 1 (.uint32 5), .execute] 1 _ _ _ ⟨rfl, rfl, rfl⟩
  exact absurd hmeets.2 (by decide)

end Morfeusz.SQL
