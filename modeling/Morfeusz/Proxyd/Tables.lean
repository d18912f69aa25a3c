import Morfeusz.Proxyd.Observers

/-!
# The tables of the proxy

The two tables the proxy writes, and what its statements mean on them. A statement is
given by the request that names it, with the values in the order in which they are bound.

Values are bound as signed numbers of their width, so that an unsigned number of the upper
half is negative for the database: it equals no value of a column, and to insert it is an
error in the strict mode and inserts zero otherwise
(`Morfeusz.Proxyd.Database.storeUint32`).
-/

namespace Morfeusz.Proxyd

/-- A row of `characters`. The coordinates are the bits of their numbers. -/
structure CharacterRow where
  guid : UInt32
  account : UInt32
  name : List UInt8
  race : UInt8
  pclass : UInt8
  gender : UInt8
  level : UInt8
  playerBytes : UInt32
  playerBytes2 : UInt32
  zone : UInt32
  map : UInt32
  positionX : UInt32
  positionY : UInt32
  positionZ : UInt32
  deriving DecidableEq

/-- A row of `realmcharacters`. -/
structure RealmcharactersRow where
  realmid : UInt32
  acctid : UInt32
  numchars : UInt8
  deriving DecidableEq

/-- The tables; the characters stand in the order in which they were inserted. -/
structure Tables where
  characters : List CharacterRow
  realmcharacters : List RealmcharactersRow
  deriving DecidableEq

/-- A row is inserted; the guid is the primary key. -/
def Tables.insert (t : Tables) (row : CharacterRow) : Option Tables :=
  if row.guid ∈ t.characters.map CharacterRow.guid then none
  else some { t with characters := t.characters ++ [row] }

/-- The database server: the engine, the comparison of names that the collation of the
column makes, and whether the SQL mode is strict. -/
structure Database where
  engine : Engine
  sameName : List UInt8 → List UInt8 → Bool
  sameName_refl : ∀ name, sameName name name = true
  sameName_symm : ∀ name name', sameName name name' = sameName name' name
  strict : Bool

namespace Database

variable (db : Database)

/-! ### Values -/

/-- A column of unsigned numbers equals a bound value. -/
def eqUint32 (column value : UInt32) : Bool := decide (value.toNat < 2 ^ 31 ∧ column = value)

theorem eqUint32_of_lt {column value : UInt32} (h : value.toNat < 2 ^ 31) :
    eqUint32 column value = decide (column = value) :=
  decide_eq_decide.mpr (and_iff_right h)

/-- What a column of unsigned numbers holds when a bound value is inserted. -/
def storeUint32 (value : UInt32) : Option UInt32 :=
  if value.toNat < 2 ^ 31 then some value else if db.strict then none else some 0

/-! ### Queries -/

/-- The columns of `PROXYD_DB_GET_CHAR`. -/
def charColumns (row : CharacterRow) : List SqlValue :=
  [.integer 4 row.guid.toNat, .text row.name, .integer 1 row.race.toNat,
    .integer 1 row.pclass.toNat, .integer 1 row.gender.toNat, .integer 1 row.level.toNat,
    .integer 4 row.playerBytes.toNat, .integer 4 row.playerBytes2.toNat,
    .integer 4 row.positionX.toNat, .integer 4 row.positionY.toNat,
    .integer 4 row.positionZ.toNat, .integer 4 row.map.toNat, .integer 4 row.zone.toNat]

/-- The sum of `PROXYD_DB_GET_NUMCHAR`, which is null where there is no row. -/
def sumNumchars (rows : List RealmcharactersRow) : SqlValue :=
  if rows = [] then .null else .integer 8 (rows.map fun row => row.numchars.toNat).sum

/-- The answer to a query of the proxy, on the tables it sees. -/
def select (t : Tables) (op : ProxydRequest) : ResultSet :=
  match op.statement, op.params with
  | .getPlrGuidFromName, [(1, .string name)] =>
    { engine := db.engine
      numFields := 1
      rows := (t.characters.filter fun row => db.sameName row.name name).map fun row =>
        [.integer 4 row.guid.toNat] }
  | .getNumchar, [(1, .uint32 account)] =>
    { engine := db.engine
      numFields := 1
      rows := [[sumNumchars (t.realmcharacters.filter fun row => eqUint32 row.acctid account)]] }
  | .getCharCount, [(1, .uint32 account)] =>
    { engine := db.engine
      numFields := 1
      rows := [[.integer 8 (t.characters.countP fun row => eqUint32 row.account account)]] }
  | .getChar, [(1, .uint64 account)] =>
    { engine := db.engine
      numFields := 13
      rows := (t.characters.filter fun row => row.account.toNat = account.toNat).map charColumns }
  | _, _ => { engine := db.engine, numFields := 0, rows := [] }

/-! ### Changes -/

/-- One row of `PROXYD_DB_INCR_NUMCHAR`. -/
def incrNumchars (row : RealmcharactersRow) : Option RealmcharactersRow :=
  if row.numchars.toNat < 255 then some { row with numchars := row.numchars + 1 }
  else if db.strict then none else some row

/-- The row of `PROXYD_DB_INS_CHAR`. -/
def insertedRow (op : ProxydRequest) : Option CharacterRow :=
  match op.statement, op.params with
  | .insChar, [(1, .uint32 guid), (2, .uint32 account), (3, .string name), (4, .uint8 race),
      (5, .uint8 pclass), (6, .uint8 gender), (7, .uint32 level), (8, .uint32 playerBytes),
      (9, .uint32 playerBytes2), (10, .uint32 zone), (11, .uint32 map), (12, .float positionX),
      (13, .float positionY), (14, .float positionZ)] => do
    let guid ← db.storeUint32 guid
    let account ← db.storeUint32 account
    let playerBytes ← db.storeUint32 playerBytes
    let playerBytes2 ← db.storeUint32 playerBytes2
    let zone ← db.storeUint32 zone
    let map ← db.storeUint32 map
    some
      { guid, account, name, race, pclass, gender, level := level.toUInt8, playerBytes,
        playerBytes2, zone, map, positionX, positionY, positionZ }
  | _, _ => none

/-- A statement that changes a table, or the error it ends in. -/
def exec (t : Tables) (op : ProxydRequest) : Option Tables :=
  match op.statement, op.params with
  | .incrNumchar, [(1, .uint32 realmid), (2, .uint32 acctid)] =>
    (t.realmcharacters.mapM fun row =>
      if eqUint32 row.realmid realmid ∧ eqUint32 row.acctid acctid then db.incrNumchars row
      else some row).map fun realmcharacters => { t with realmcharacters }
  | .insChar, _ => (db.insertedRow op).bind t.insert
  | _, _ => some t

/-- `SqlOperationTransaction::call`: the tables when it is committed, or `none` where an
error rolls it back. The statements of SQLite are prepared, but none is stepped. -/
def call (t : Tables) (ops : List ProxydRequest) : Option Tables :=
  match db.engine with
  | .mysql => ops.foldlM db.exec t
  | .sqlite => some t

/-! ### The transaction of a character -/

variable {db}

theorem characters_incrNumchar {t t' : Tables} {c : Conn} {realmid : UInt8}
    (h : db.exec t (c.incrNumchar realmid) = some t') : t'.characters = t.characters := by
  obtain ⟨rows, -, rfl⟩ := Option.map_eq_some_iff.mp h
  rfl

theorem insChar_some {t t' : Tables} {op : ProxydRequest} (hop : op.statement = .insChar)
    (h : db.exec t op = some t') : ∃ row, db.insertedRow op = some row ∧
      row.guid ∉ t.characters.map CharacterRow.guid ∧
      t' = { t with characters := t.characters ++ [row] } := by
  obtain ⟨statement, params⟩ := op
  obtain rfl : statement = .insChar := hop
  obtain ⟨row, hrow, hinsert⟩ := Option.bind_eq_some_iff.mp h
  rw [Tables.insert, Option.ite_none_left_eq_some] at hinsert
  exact ⟨row, hrow, hinsert.1, (Option.some.inj hinsert.2).symm⟩

/-- **What a committed transaction of a character has done**: nothing with SQLite, and with
MySQL it has inserted its row. -/
theorem call_some {t t' : Tables} {c : Conn} {realmid : UInt8} {insert : ProxydRequest}
    (hop : insert.statement = .insChar) (h : db.call t [c.incrNumchar realmid, insert] = some t') :
    (db.engine = .sqlite ∧ t' = t) ∨
    (db.engine = .mysql ∧ ∃ row, db.insertedRow insert = some row ∧
      row.guid ∉ t.characters.map CharacterRow.guid ∧ t'.characters = t.characters ++ [row]) := by
  rw [call] at h
  cases hengine : db.engine with
  | sqlite =>
    rw [hengine] at h
    exact Or.inl ⟨rfl, (Option.some.inj h).symm⟩
  | mysql =>
    rw [hengine] at h
    obtain ⟨t₁, h₁, h⟩ := Option.bind_eq_some_iff.mp h
    obtain ⟨t₂, h₂, h⟩ := Option.bind_eq_some_iff.mp h
    obtain rfl := Option.some.inj h
    obtain ⟨row, hrow, hguid, rfl⟩ := insChar_some hop h₂
    rw [characters_incrNumchar h₁] at hguid
    refine Or.inr ⟨rfl, row, hrow, hguid, ?_⟩
    dsimp only
    rw [characters_incrNumchar h₁]

/-- The name of the row is the one that was bound, and its account too, unless it is zero. -/
theorem insertedRow_playerCreate {env : Env} {guid account : UInt32} {name : List UInt8}
    {race pclass gender skin face hairStyle hairColor facialHair : UInt8} {row : CharacterRow}
    (h : db.insertedRow (Conn.playerCreate env guid account name race pclass gender skin face
      hairStyle hairColor facialHair) = some row) :
    row.name = cStr name ∧ db.storeUint32 guid = some row.guid ∧
      db.storeUint32 account = some row.account := by
  obtain ⟨guid', hguid, h⟩ := Option.bind_eq_some_iff.mp h
  obtain ⟨account', haccount, h⟩ := Option.bind_eq_some_iff.mp h
  obtain ⟨playerBytes, -, h⟩ := Option.bind_eq_some_iff.mp h
  obtain ⟨playerBytes2, -, h⟩ := Option.bind_eq_some_iff.mp h
  obtain ⟨zone, -, h⟩ := Option.bind_eq_some_iff.mp h
  obtain ⟨map, -, h⟩ := Option.bind_eq_some_iff.mp h
  obtain rfl := Option.some.inj h
  exact ⟨rfl, hguid, haccount⟩

end Database

end Morfeusz.Proxyd
