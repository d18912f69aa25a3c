import Morfeusz.Proxyd.StartPositions

/-!
# A character from its creation to the list

The look of a character goes a long way: out of `CMSG_CHAR_CREATE` into two packed numbers,
from fourteen parameters into the columns of an `INSERT`, out of the columns of a `SELECT`
into a `Character`, and from there into `SMSG_CHAR_ENUM`. Every one of these has an order of
its own. Here they are followed one after another, with a database that keeps what it is
given, and at the end stands what a client reads: what another has sent.

Where a character begins is not sent but read out of the array of start positions, at the
index that comes of its race and its class. A client that is faster than the query for the
table, or chooses a race and a class the table has no row for, gets what lies there. So the
list shows every character as it should if and only if the rows were delivered before it was
created and one of them is its own (`Morfeusz.Proxyd.appearance_listed_iff`).

| from | to | theorem |
|---|---|---|
| the packet | the parameters | `Morfeusz.Proxyd.Conn.Accepted.insert_eq` |
| the parameters | the columns that are read | `Morfeusz.Proxyd.listedColumns_playerCreate` |
| the columns | the character | `Morfeusz.Proxyd.Conn.readCharacter_charColumns` |
| the character | the packet | `Morfeusz.Proxyd.reads_readCharacterRecord` |
-/

namespace Morfeusz.Proxyd

open ByteNumbers ByteBuffer

/-! ### Four bytes in one number -/

theorem or_shiftLeft {x i : ℕ} (h : x < 2 ^ i) (y : ℕ) : x ||| y <<< i = x + 2 ^ i * y := by
  rw [Nat.or_comm, ← Nat.shiftLeft_add_eq_or_of_lt h, Nat.shiftLeft_eq, Nat.mul_comm, Nat.add_comm]

/-- Four bytes in one number, the first the lowest. -/
def packed (a b c d : UInt8) : UInt32 :=
  a.toUInt32 ||| (b.toUInt32 <<< 8) ||| (c.toUInt32 <<< 16) ||| (d.toUInt32 <<< 24)

theorem toNat_packed (a b c d : UInt8) :
    (packed a b c d).toNat = a.toNat + 2 ^ 8 * b.toNat + 2 ^ 16 * c.toNat + 2 ^ 24 * d.toNat := by
  have ha := a.toNat_lt
  have hb := b.toNat_lt
  have hc := c.toNat_lt
  have hd := d.toNat_lt
  have h8 : b.toNat <<< 8 % 2 ^ 32 = b.toNat <<< 8 := by
    rw [Nat.shiftLeft_eq]
    omega
  have h16 : c.toNat <<< 16 % 2 ^ 32 = c.toNat <<< 16 := by
    rw [Nat.shiftLeft_eq]
    omega
  have h24 : d.toNat <<< 24 % 2 ^ 32 = d.toNat <<< 24 := by
    rw [Nat.shiftLeft_eq]
    omega
  change a.toNat ||| b.toNat <<< 8 % 2 ^ 32 ||| c.toNat <<< 16 % 2 ^ 32 |||
    d.toNat <<< 24 % 2 ^ 32 = _
  rw [h8, h16, h24, @or_shiftLeft _ 8 (by omega), @or_shiftLeft _ 16 (by omega),
    @or_shiftLeft _ 24 (by omega)]

/-- A byte comes out where it went in. -/
theorem toUInt8_packed (a b c d : UInt8) :
    (packed a b c d).toUInt8 = a ∧ (packed a b c d >>> 8).toUInt8 = b ∧
      (packed a b c d >>> 16).toUInt8 = c ∧ (packed a b c d >>> 24).toUInt8 = d := by
  have ha := a.toNat_lt
  have hb := b.toNat_lt
  have hc := c.toNat_lt
  have hd := d.toNat_lt
  have hp := toNat_packed a b c d
  refine ⟨UInt8.toNat_inj.mp ?_, UInt8.toNat_inj.mp ?_, UInt8.toNat_inj.mp ?_,
    UInt8.toNat_inj.mp ?_⟩
  · rw [UInt32.toNat_toUInt8]
    omega
  · change (packed a b c d).toNat >>> 8 % 2 ^ 8 = _
    rw [Nat.shiftRight_eq_div_pow]
    omega
  · change (packed a b c d).toNat >>> 16 % 2 ^ 8 = _
    rw [Nat.shiftRight_eq_div_pow]
    omega
  · change (packed a b c d).toNat >>> 24 % 2 ^ 8 = _
    rw [Nat.shiftRight_eq_div_pow]
    omega

/-- The second number has the hair of the face, and one more byte. -/
theorem packed_two (a : UInt8) : packed a 0 0 2 = a.toUInt32 ||| ((0x02 : UInt32) <<< 24) := by
  simp [packed]

/-! ### The columns -/

/-- The columns of `characters`. -/
inductive CharactersColumn
  | guid
  | account
  | name
  | race
  | pclass
  | gender
  | level
  | playerBytes
  | playerBytes2
  | zone
  | map
  | positionX
  | positionY
  | positionZ
  deriving DecidableEq

namespace CharactersColumn

/-- The columns of `PROXYD_DB_INS_CHAR`, whose parameters are bound in this order. -/
def inserted : List CharactersColumn :=
  [guid, account, name, race, pclass, gender, level, playerBytes, playerBytes2, zone, map,
    positionX, positionY, positionZ]

/-- The columns of `PROXYD_DB_GET_CHAR`. -/
def selected : List CharactersColumn :=
  [guid, name, race, pclass, gender, level, playerBytes, playerBytes2, positionX, positionY,
    positionZ, map, zone]

/-- The bytes of a column of numbers. -/
def width : CharactersColumn → ℕ
  | race | pclass | gender | level => 1
  | guid | account | playerBytes | playerBytes2 | zone | map | positionX | positionY
  | positionZ => 4
  | name => 0

/-- A column that keeps what is bound. -/
def store (column : CharactersColumn) : PreparedStatementData → SqlValue
  | .uint8 v => .integer column.width v.toNat
  | .uint32 v => .integer column.width v.toNat
  | .uint64 v => .integer column.width v.toNat
  | .float bits => .integer column.width bits.toNat
  | .string str => .text str

/-- What a column holds after an `INSERT`: the parameter in its place, counted from one. -/
def stored (op : ProxydRequest) (column : CharactersColumn) : SqlValue :=
  ((op.params.lookup (inserted.idxOf column + 1)).map column.store).getD .null

end CharactersColumn

/-- The row a `SELECT` finds after an `INSERT`. -/
def listedColumns (op : ProxydRequest) : List SqlValue :=
  CharactersColumn.selected.map (CharactersColumn.stored op)

/-- The row of a new character. -/
def createdRow (env : Env) (guid account : UInt32) (name : List UInt8)
    (race pclass gender skin face hairStyle hairColor facialHair : UInt8) : CharacterRow where
  guid := guid
  account := account
  name := cStr name
  race := race
  pclass := pclass
  gender := gender
  level := 1
  playerBytes := packed skin face hairStyle hairColor
  playerBytes2 := facialHair.toUInt32 ||| ((0x02 : UInt32) <<< 24)
  zone := (env.playerCreateInfo race pclass).zoneId
  map := (env.playerCreateInfo race pclass).mapId
  positionX := (env.playerCreateInfo race pclass).positionX
  positionY := (env.playerCreateInfo race pclass).positionY
  positionZ := (env.playerCreateInfo race pclass).positionZ

/-- **The parameters come out of the columns they were bound to**: the two lists of columns
and the order of the parameters agree. -/
theorem listedColumns_playerCreate (env : Env) (guid account : UInt32) (name : List UInt8)
    (race pclass gender skin face hairStyle hairColor facialHair : UInt8) :
    listedColumns (Conn.playerCreate env guid account name race pclass gender skin face hairStyle
        hairColor facialHair) =
      Database.charColumns (createdRow env guid account name race pclass gender skin face
        hairStyle hairColor facialHair) := rfl

/-! ### The tables of MySQL -/

/-- No number of a new character is of the upper half, which is bound as a negative one. -/
structure LowerHalf (env : Env) (c : Conn) (f : CharCreate) : Prop where
  guid : env.maxGuid.toNat < 2 ^ 31
  account : c.acct.id.toNat < 2 ^ 31
  hairColor : f.hairColor.toNat < 2 ^ 7
  zone : (env.playerCreateInfo f.race f.pclass).zoneId.toNat < 2 ^ 31
  map : (env.playerCreateInfo f.race f.pclass).mapId.toNat < 2 ^ 31

section Tables

variable {db : Database} {env : Env} {c : Conn} {f : CharCreate}

/-- A row of such numbers is kept as it is. -/
theorem insertedRow_insertOf (hlow : LowerHalf env c f) (name : List UInt8) :
    db.insertedRow (c.insertOf env f name) =
      some (createdRow env env.maxGuid c.acct.id name f.race f.pclass f.gender f.skin f.face
        f.hairStyle f.hairColor f.facialHair) := by
  have hstore {value : UInt32} (h : value.toNat < 2 ^ 31) : db.storeUint32 value = some value := by
    rw [Database.storeUint32, if_pos h]
  have hbytes : (packed f.skin f.face f.hairStyle f.hairColor).toNat < 2 ^ 31 := by
    have hskin := f.skin.toNat_lt
    have hface := f.face.toNat_lt
    have hhairStyle := f.hairStyle.toNat_lt
    have hhairColor := hlow.hairColor
    rw [toNat_packed]
    omega
  have hbytes2 : (f.facialHair.toUInt32 ||| ((0x02 : UInt32) <<< 24)).toNat < 2 ^ 31 := by
    have hfacialHair := f.facialHair.toNat_lt
    rw [← packed_two, toNat_packed]
    change f.facialHair.toNat + 2 ^ 8 * 0 + 2 ^ 16 * 0 + 2 ^ 24 * 2 < 2 ^ 31
    omega
  refine (congrArg (Option.bind · _) (hstore hlow.guid)).trans ?_
  refine (congrArg (Option.bind · _) (hstore hlow.account)).trans ?_
  refine (congrArg (Option.bind · _) (hstore hbytes)).trans ?_
  refine (congrArg (Option.bind · _) (hstore hbytes2)).trans ?_
  refine (congrArg (Option.bind · _) (hstore hlow.zone)).trans ?_
  exact congrArg (Option.bind · _) (hstore hlow.map)

/-- **The tables of MySQL keep what is bound and return it**: behind the transaction of such
a character the list of its account returns a row with the parameters of the insert. -/
theorem listedColumns_mem_of_call {t t' : Tables} {name : List UInt8} {op : ProxydRequest}
    (hmysql : db.engine = .mysql) (hlow : LowerHalf env c f)
    (h : db.call t [c.incrNumchar env.realmid, c.insertOf env f name] = some t')
    (hstatement : op.statement = .getChar)
    (hparams : op.params = [addUint64 1 c.acct.id.toUInt64]) :
    ∃ rows, (db.select t' op).Returns rows ∧ listedColumns (c.insertOf env f name) ∈ rows := by
  rw [Database.select_getChar hmysql hstatement hparams]
  refine ⟨_, Conn.returns_charColumns _, ?_⟩
  rcases Database.call_some rfl h with ⟨hsqlite, -⟩ | ⟨-, row, hrow, -, hcharacters⟩
  · cases hmysql.symm.trans hsqlite
  · rw [insertedRow_insertOf hlow] at hrow
    rw [Conn.insertOf, listedColumns_playerCreate, Option.some.inj hrow, hcharacters]
    refine List.mem_map_of_mem (List.mem_filter.mpr ⟨?_, ?_⟩)
    · exact List.mem_append_right _ (List.mem_singleton_self row)
    · rw [← Option.some.inj hrow]
      exact decide_eq_true c.acct.id.toNat_toUInt64.symm

end Tables

/-! ### The layout of the list -/

/-- An item a character wears, as the list shows it. -/
structure ItemRecord where
  displayId : UInt32
  inventoryType : UInt8
  enchantment : UInt32
  deriving DecidableEq

/-- The pet of a character. -/
structure PetRecord where
  displayId : UInt32
  level : UInt32
  family : UInt32
  deriving DecidableEq

/-- A character in `SMSG_CHAR_ENUM`. -/
structure CharacterRecord where
  guid : UInt64
  name : List UInt8
  race : UInt8
  pclass : UInt8
  gender : UInt8
  skin : UInt8
  face : UInt8
  hairStyle : UInt8
  hairColor : UInt8
  facialHair : UInt8
  level : UInt8
  zone : UInt32
  map : UInt32
  x : UInt32
  y : UInt32
  z : UInt32
  guild : UInt32
  flags : UInt32
  /-- The byte behind the flags. -/
  unknown : UInt8
  pet : PetRecord
  items : List ItemRecord
  deriving DecidableEq

/-- The places items are shown in. -/
def itemSlots : ℕ := 20

def readItemRecord (buf : ByteBuffer) : Option (ItemRecord × ByteBuffer) := do
  let (displayId, buf) ← buf.readUint32
  let (inventoryType, buf) ← buf.readUint8
  let (enchantment, buf) ← buf.readUint32
  some ({ displayId, inventoryType, enchantment }, buf)

def readPetRecord (buf : ByteBuffer) : Option (PetRecord × ByteBuffer) := do
  let (displayId, buf) ← buf.readUint32
  let (level, buf) ← buf.readUint32
  let (family, buf) ← buf.readUint32
  some ({ displayId, level, family }, buf)

/-- One character. -/
def readCharacterRecord (buf : ByteBuffer) : Option (CharacterRecord × ByteBuffer) := do
  let (guid, buf) ← buf.readUint64
  let (name, buf) ← some buf.readString
  let (race, buf) ← buf.readUint8
  let (pclass, buf) ← buf.readUint8
  let (gender, buf) ← buf.readUint8
  let (skin, buf) ← buf.readUint8
  let (face, buf) ← buf.readUint8
  let (hairStyle, buf) ← buf.readUint8
  let (hairColor, buf) ← buf.readUint8
  let (facialHair, buf) ← buf.readUint8
  let (level, buf) ← buf.readUint8
  let (zone, buf) ← buf.readUint32
  let (map, buf) ← buf.readUint32
  let (x, buf) ← buf.readUint32
  let (y, buf) ← buf.readUint32
  let (z, buf) ← buf.readUint32
  let (guild, buf) ← buf.readUint32
  let (flags, buf) ← buf.readUint32
  let (unknown, buf) ← buf.readUint8
  let (pet, buf) ← readPetRecord buf
  let (items, buf) ← readElements readItemRecord itemSlots buf
  some
    ({ guid, name, race, pclass, gender, skin, face, hairStyle, hairColor, facialHair, level, zone,
       map, x, y, z, guild, flags, unknown, pet, items }, buf)

/-- `SMSG_CHAR_ENUM`: the header with its size and its opcode, the number of characters
and the characters. -/
def readCharEnum (buf : ByteBuffer) : Option ((UInt16 × List CharacterRecord) × ByteBuffer) := do
  let (_, buf) ← buf.readUint16
  let (op, buf) ← buf.readUint16
  let (count, buf) ← buf.readUint8
  let (records, buf) ← readElements readCharacterRecord count.toNat buf
  some ((op, records), buf)

/-! ### Reading what was built -/

/-- What the list says of a character. -/
def Character.record (ch : Character) : CharacterRecord where
  guid := ch.guid
  name := ch.name
  race := ch.race
  pclass := ch.pclass
  gender := ch.gender
  skin := ch.bytes.toUInt8
  face := (ch.bytes >>> 8).toUInt8
  hairStyle := (ch.bytes >>> 16).toUInt8
  hairColor := (ch.bytes >>> 24).toUInt8
  facialHair := ch.bytes2 &&& 0xFF
  level := ch.level
  zone := ch.zone
  map := ch.map
  x := ch.x
  y := ch.y
  z := ch.z
  guild := 0
  flags := 0
  unknown := 1
  pet := ⟨0, 0, 0⟩
  items := List.replicate itemSlots ⟨0, 0, 0⟩

theorem reads_readItemRecord (item : ItemRecord) :
    Reads readItemRecord
      [uint32 item.displayId, uint8 item.inventoryType, uint32 item.enchantment].flatten item :=
  (reads_readUint32 item.displayId).bind <| (reads_readUint8 item.inventoryType).bind <|
    (reads_readUint32 item.enchantment).bind <| reads_some item

theorem reads_readPetRecord (pet : PetRecord) :
    Reads readPetRecord [uint32 pet.displayId, uint32 pet.level, uint32 pet.family].flatten pet :=
  (reads_readUint32 pet.displayId).bind <| (reads_readUint32 pet.level).bind <|
    (reads_readUint32 pet.family).bind <| reads_some pet

/-- The places are all empty. -/
theorem reads_noItems :
    Reads (readElements readItemRecord itemSlots)
      (List.replicate itemSlots [uint32 0, uint8 0, uint32 0].flatten).flatten
      (List.replicate itemSlots ⟨0, 0, 0⟩) := by
  have hitems : ∀ item ∈ List.replicate itemSlots (⟨0, 0, 0⟩ : ItemRecord), Reads readItemRecord
      [uint32 item.displayId, uint8 item.inventoryType, uint32 item.enchantment].flatten item :=
    fun item _ => reads_readItemRecord item
  exact reads_readElements hitems

/-- **What is written of a character is read in its place.** -/
theorem reads_readCharacterRecord {ch : Character} (hnul : 0 ∉ ch.name) :
    Reads readCharacterRecord (Conn.characterValues ch).flatten ch.record := by
  have h : Reads readCharacterRecord _ ch.record :=
    (reads_readUint64 ch.guid).bind <| (reads_readString hnul).bind <|
    (reads_readUint8 ch.race).bind <| (reads_readUint8 ch.pclass).bind <|
    (reads_readUint8 ch.gender).bind <| (reads_readUint8 ch.bytes.toUInt8).bind <|
    (reads_readUint8 (ch.bytes >>> 8).toUInt8).bind <|
    (reads_readUint8 (ch.bytes >>> 16).toUInt8).bind <|
    (reads_readUint8 (ch.bytes >>> 24).toUInt8).bind <|
    (reads_readUint8 (ch.bytes2 &&& 0xFF)).bind <| (reads_readUint8 ch.level).bind <|
    (reads_readUint32 ch.zone).bind <| (reads_readUint32 ch.map).bind <|
    (reads_readUint32 ch.x).bind <| (reads_readUint32 ch.y).bind <| (reads_readUint32 ch.z).bind <|
    (reads_readUint32 0).bind <| (reads_readUint32 0).bind <| (reads_readUint8 1).bind <|
    (reads_readPetRecord ⟨0, 0, 0⟩).bind <| reads_noItems.bind <| reads_some ch.record
  refine (congrArg (Reads readCharacterRecord · ch.record) ?_).mp h
  simp only [Conn.characterValues, List.flatten_append, List.flatten_cons, List.flatten_nil,
    List.flatten_flatten, List.map_replicate, List.append_assoc, List.append_nil, itemSlots]

/-- What the list says of a new character. -/
theorem record_createdRow (env : Env) (guid account : UInt32) (name : List UInt8)
    (race pclass gender skin face hairStyle hairColor facialHair : UInt8) :
    (createdRow env guid account name race pclass gender skin face hairStyle hairColor
        facialHair).character.record =
      { guid := guid.toUInt64, name := cStr name, race, pclass, gender, skin, face, hairStyle,
        hairColor, facialHair, level := 1
        zone := (env.playerCreateInfo race pclass).zoneId
        map := (env.playerCreateInfo race pclass).mapId
        x := (env.playerCreateInfo race pclass).positionX
        y := (env.playerCreateInfo race pclass).positionY
        z := (env.playerCreateInfo race pclass).positionZ
        guild := 0, flags := 0, unknown := 1, pet := ⟨0, 0, 0⟩
        items := List.replicate itemSlots ⟨0, 0, 0⟩ } := by
  obtain ⟨hskin, hface, hhairStyle, hhairColor⟩ := toUInt8_packed skin face hairStyle hairColor
  have hfacialHair : (facialHair.toUInt32 ||| ((0x02 : UInt32) <<< 24)).toUInt8 &&& 0xFF =
      facialHair := by
    rw [← packed_two, (toUInt8_packed facialHair 0 0 2).1]
    refine UInt8.toNat_inj.mp ?_
    rw [UInt8.toNat_and]
    exact (Nat.and_two_pow_sub_one_eq_mod _ 8).trans (Nat.mod_eq_of_lt facialHair.toNat_lt)
  rw [Character.record]
  simp only [createdRow, CharacterRow.character, hskin, hface, hhairStyle, hhairColor, hfacialHair]

/-! ### The packet of the list -/

theorem length_characterValues (ch : Character) :
    (Conn.characterValues ch).flatten.length = 239 + ch.name.length := by
  simp [Conn.characterValues, uint8, uint64, string, length_leBytes]
  omega

/-- A character with a name that was accepted takes no more than 251 bytes. -/
theorem length_charEnum_le {characters : List Character}
    (hnames : ∀ ch ∈ characters, ch.name.length ≤ 12) :
    (characters.flatMap fun ch => (Conn.characterValues ch).flatten).length ≤
      251 * characters.length := by
  induction characters with
  | nil => exact Nat.zero_le _
  | cons ch characters ih =>
    obtain ⟨hname, hnames⟩ := List.forall_mem_cons.mp hnames
    have hle := ih hnames
    rw [List.flatMap_cons, List.length_append, length_characterValues, List.length_cons]
    omega

/-- **A client reads the characters the list was built from.** -/
theorem readCharEnum_serverPkt {characters : List Character} (hlen : characters.length ≤ 255)
    (hnul : ∀ ch ∈ characters, 0 ∉ ch.name) (hnames : ∀ ch ∈ characters, ch.name.length ≤ 12) :
    ∃ pkt buf, serverPkt .smsgCharEnum 100 (uint8 (UInt8.ofNat characters.length) ::
        characters.flatMap Conn.characterValues) = some pkt ∧
      readCharEnum pkt =
        some ((ServerOpcode.smsgCharEnum.code, characters.map Character.record), buf) ∧
      buf.rpos = pkt.size := by
  have hflatten : (characters.flatMap Conn.characterValues).flatten =
      characters.flatMap fun ch => (Conn.characterValues ch).flatten := by
    simp [List.flatMap, List.flatten_flatten, Function.comp_def]
  have hlimit : (serverHeader .smsgCharEnum 100).length +
      (uint8 (UInt8.ofNat characters.length) ::
        characters.flatMap Conn.characterValues).flatten.length < sizeLimit := by
    have hle := length_charEnum_le hnames
    rw [List.flatten_cons, hflatten, List.length_append, length_serverHeader, sizeLimit, uint8,
      List.length_singleton]
    omega
  have hrecords : Reads
      (fun buf => readElements readCharacterRecord (UInt8.ofNat characters.length).toNat buf)
      (characters.flatMap fun ch => (Conn.characterValues ch).flatten)
      (characters.map Character.record) := by
    rw [UInt8.toNat_ofNat', Nat.mod_eq_of_lt (Nat.lt_succ_of_le hlen)]
    exact reads_readElements_map fun ch hch => reads_readCharacterRecord (hnul ch hch)
  have hread : Reads readCharEnum _
      (ServerOpcode.smsgCharEnum.code, characters.map Character.record) :=
    (reads_readUint16 26112).bind <| (reads_readUint16 ServerOpcode.smsgCharEnum.code).bind <|
    (reads_readUint8 (UInt8.ofNat characters.length)).bind <|
    hrecords.bind_some fun records => (ServerOpcode.smsgCharEnum.code, records)
  have hbytes : serverHeader .smsgCharEnum 100 ++ (uint8 (UInt8.ofNat characters.length) ::
      characters.flatMap Conn.characterValues).flatten =
        uint16 26112 ++ (uint16 ServerOpcode.smsgCharEnum.code ++
          (uint8 (UInt8.ofNat characters.length) ++
            characters.flatMap fun ch => (Conn.characterValues ch).flatten)) := by
    rw [List.flatten_cons, hflatten]
    rfl
  refine ⟨_, _, foldlM_append_eq _ hlimit, hread _ [] ?_, ?_⟩
  · rw [List.append_nil, ← hbytes]
    rfl
  · rw [← hbytes]
    exact Nat.zero_add _

/-- **The observer sends the rows that are returned.** -/
theorem Conn.getCharsObsv_of_returns {res : ResultSet} {rows : List CharacterRow}
    (h : res.Returns (rows.map Database.charColumns)) (hlen : rows.length ≤ 255)
    (hnul : ∀ row ∈ rows, 0 ∉ row.name) (hnames : ∀ row ∈ rows, row.name.length ≤ 12) (c : Conn) :
    ∃ c' pkt buf, c.getCharsObsv res = some c' ∧ c'.packetQueue = c.packetQueue ++ [pkt] ∧
      readCharEnum pkt = some ((ServerOpcode.smsgCharEnum.code,
        rows.map fun row => row.character.record), buf) ∧ buf.rpos = pkt.size := by
  obtain ⟨pkt, buf, hpkt, hread, hsize⟩ :=
    @readCharEnum_serverPkt (rows.map CharacterRow.character) ((List.length_map _).trans_le hlen)
      (List.forall_mem_map.mpr hnul) (List.forall_mem_map.mpr hnames)
  rw [List.map_map] at hread
  have hcount := h.count
  rw [List.length_map] at hcount
  rw [Conn.getCharsObsv, hcount]
  by_cases hnil : rows.length = 0
  · -- the list without a character is sent without a loop
    obtain rfl := List.length_eq_zero_iff.mp hnil
    rw [if_pos hnil, Conn.charactersRetrieved]
    exact ⟨c.send pkt, pkt, buf, congrArg (· >>= fun pkt => some (c.send pkt)) hpkt, rfl, hread,
      hsize⟩
  · have hle := ResultSet.length_le_of_yields h.yields
    rw [List.length_map] at hle
    rw [if_neg hnil, Conn.charsLoop_charColumns h.yields (hle.trans (Nat.sub_le _ _))]
    let listed := { c with characters := rows.map CharacterRow.character }
    exact ⟨listed.send pkt, pkt, buf, congrArg (· >>= fun pkt => some (listed.send pkt)) hpkt, rfl,
      hread, hsize⟩

/-! ### Whatever the memory holds -/

/-- The surroundings with other contents of the memory. -/
def Env.withMemory (env : Env) (m : ObjectMgr) (stray : UInt8 → UInt8 → PlayerCreateInfo) : Env :=
  { env with objectMgr := m, stray }

namespace Conn

variable {env : Env} {c : Conn} {f : CharCreate} {m : ObjectMgr}
  {stray : UInt8 → UInt8 → PlayerCreateInfo}

/-- The rest of a packet that is long enough is read. -/
theorem isSome_insertCharacter {buf : ByteBuffer} {rest : List UInt8}
    (hbuf : buf.ahead = f.look ++ rest) (c : Conn) (stored : List UInt8) :
    (c.insertCharacter env f.race f.pclass stored buf).isSome = true := by
  rw [insertCharacter_eq hbuf]
  exact Option.isSome_iff_exists.mpr (exists_sendCharCreate _ _)

/-- The queries end the same way, whatever the memory holds. -/
theorem isSome_createCharacter_withMemory {buf buf' : ByteBuffer} {rest rest' : List UInt8}
    (hbuf : buf.ahead = f.look ++ rest) (hbuf' : buf'.ahead = f.look ++ rest')
    (c : Conn) (stored : List UInt8) :
    (c.createCharacter (env.withMemory m stray) f.race f.pclass stored buf').isSome =
      (c.createCharacter env f.race f.pclass stored buf).isSome := by
  have hanswer : (env.withMemory m stray).answer = env.answer := rfl
  rw [createCharacter, createCharacter, hanswer]
  dsimp only
  split
  · rfl
  simp only [Option.bind_eq_bind]
  cases atLimit (env.answer (numchar _)) 50 with
  | none => rfl
  | some account =>
    cases account with
    | true => rfl
    | false =>
      dsimp only [Option.bind_some]
      rw [if_neg Bool.false_ne_true, if_neg Bool.false_ne_true]
      cases atLimit (env.answer (charCount _)) 10 with
      | none => rfl
      | some server =>
        cases server with
        | true => rfl
        | false =>
          exact (isSome_insertCharacter hbuf' _ stored).trans
            (isSome_insertCharacter hbuf _ stored).symm

theorem isSome_handleCmsgCharCreate_withMemory {pkt : ClientPkt} (hf : pkt.Holds f) (c : Conn) :
    (c.handleCmsgCharCreate (env.withMemory m stray) pkt).isSome =
      (c.handleCmsgCharCreate env pkt).isSome := by
  obtain ⟨hanswers, hasks⟩ := @handleCmsgCharCreate_of_holds env f pkt hf c
  obtain ⟨hanswers', hasks'⟩ :=
    @handleCmsgCharCreate_of_holds (env.withMemory m stray) f pkt hf c
  cases hcheck : c.checkCharacter env f.race f.pclass f.name with
  | error response => rw [hanswers response hcheck, hanswers' response hcheck]
  | ok stored =>
    obtain ⟨buf, rest, hbuf, heq⟩ := hasks stored hcheck
    obtain ⟨buf', rest', hbuf', heq'⟩ := hasks' stored hcheck
    rw [heq, heq']
    exact isSome_createCharacter_withMemory hbuf hbuf' c stored

end Conn

/-! ### Characters that were created -/

/-- A `CMSG_CHAR_CREATE` that was accepted: the client was told of a success, a guid was
drawn, and a transaction with an insert was enqueued. -/
def Conn.Accepted (env : Env) (c : Conn) (f : CharCreate) (guid : UInt32)
    (insert : ProxydRequest) : Prop :=
  ∃ pkt c' new incr, pkt.Holds f ∧ c.handleCmsgCharCreate env pkt = some c' ∧ c.ToldSuccess c' ∧
    c'.guids = c.guids ++ [guid] ∧ c'.operations = c.operations ++ new ∧
    Conn.transactions new = [[incr, insert]]

/-- **The insert of an accepted packet** is that of its values and of the guid. -/
theorem Conn.Accepted.insert_eq {env : Env} {c : Conn} {f : CharCreate} {guid : UInt32}
    {insert : ProxydRequest} (h : c.Accepted env f guid insert) :
    ∃ stored, normalizePlayerName env.locale f.name = some stored ∧ stored.length ≤ 12 ∧
      0 ∉ f.name ∧ insert = playerCreate env guid c.acct.id stored f.race f.pclass f.gender f.skin
        f.face f.hairStyle f.hairColor f.facialHair := by
  obtain ⟨pkt, c', new, incr, hf, hc', ⟨reply, hreply, hqueue⟩, hguids, hops, hnew⟩ := h
  rcases handleCmsgCharCreate_some hf hc' with
    ⟨stored, hcheck, -, new', hanswered, hnew'⟩ | ⟨-, response, new', hne, hanswered, -⟩
  · obtain ⟨-, -, hname, hvalid⟩ := checkCharacter_ok_iff.mp hcheck
    obtain rfl := List.append_cancel_left (hops.symm.trans hanswered.operations)
    obtain rfl := List.head_eq_of_cons_eq
      (List.append_cancel_left (hguids.symm.trans hanswered.guids))
    refine ⟨stored, hname, ?_, hf.1, ?_⟩
    · rw [isValidName, decide_eq_true_eq] at hvalid
      exact hvalid.1
    · have hops := List.head_eq_of_cons_eq (hnew.symm.trans hnew')
      exact List.head_eq_of_cons_eq (List.tail_eq_of_cons_eq hops)
  · have hsuccess : c.Answered .charCreateSuccess new [guid] c' :=
      ⟨⟨reply, hreply, hqueue⟩, hops, hguids⟩
    exact absurd (hanswered.response_eq hsuccess) hne

/-- **Whether a packet is accepted does not depend on the start positions.** -/
theorem Conn.Accepted.withMemory {env : Env} {c : Conn} {f : CharCreate} {guid : UInt32}
    {insert : ProxydRequest} (h : c.Accepted env f guid insert) (m : ObjectMgr)
    (stray : UInt8 → UInt8 → PlayerCreateInfo) :
    ∃ insert', c.Accepted (env.withMemory m stray) f guid insert' := by
  obtain ⟨pkt, c', new, incr, hf, hc', ⟨reply, hreply, hqueue⟩, hguids, hops, hnew⟩ := h
  rcases handleCmsgCharCreate_some hf hc' with
    ⟨stored, hcheck, hallow, new', hanswered, -⟩ | ⟨-, response, new', hne, hanswered, -⟩
  · obtain rfl := List.head_eq_of_cons_eq
      (List.append_cancel_left (hguids.symm.trans hanswered.guids))
    have hsome : (c.handleCmsgCharCreate (env.withMemory m stray) pkt).isSome := by
      rw [isSome_handleCmsgCharCreate_withMemory hf, hc']
      rfl
    obtain ⟨c'', hc''⟩ := Option.isSome_iff_exists.mp hsome
    rcases handleCmsgCharCreate_some hf hc'' with
      ⟨stored', -, -, ops, hcreated, hops'⟩ | ⟨hnot, -⟩
    · exact ⟨_, pkt, c'', ops, _, hf, hc'', hcreated.reply, hcreated.guids, hcreated.operations,
        hops'⟩
    · exact absurd hallow (hnot stored hcheck)
  · have hsuccess : c.Answered .charCreateSuccess new [guid] c' :=
      ⟨⟨reply, hreply, hqueue⟩, hops, hguids⟩
    exact absurd (hanswered.response_eq hsuccess) hne

/-- What the array of start positions may be, before the answer of the query for the table is
delivered and after. A row outside of the array leaves anything behind. -/
def MayHold (answer : StartAnswer) (delivered : Bool) (m : ObjectMgr) : Prop :=
  if delivered then
    ∀ m', ObjectMgr.init.loadPlayerCreateInfoObsv answer.res = some m' → m = m'
  else m = .init

/-- A character that was created, early or late. -/
structure Created (answer : StartAnswer) where
  env : Env
  delivered : Bool
  holds : MayHold answer delivered env.objectMgr
  c : Conn
  f : CharCreate
  guid : UInt32
  insert : ProxydRequest
  accepted : c.Accepted env f guid insert

namespace Created

variable {answer : StartAnswer}

/-- What a list has to say of a character that was created: its guid, the stored form of
its name, what its packet said of it, the first level, and where the table lets characters of
its race and class begin. -/
structure ShownAs (cr : Created answer) (r : CharacterRecord) : Prop where
  guid : r.guid = cr.guid.toUInt64
  name : normalizePlayerName cr.env.locale cr.f.name = some r.name
  race : r.race = cr.f.race
  pclass : r.pclass = cr.f.pclass
  gender : r.gender = cr.f.gender
  skin : r.skin = cr.f.skin
  face : r.face = cr.f.face
  hairStyle : r.hairStyle = cr.f.hairStyle
  hairColor : r.hairColor = cr.f.hairColor
  facialHair : r.facialHair = cr.f.facialHair
  level : r.level = 1
  start : startEntry answer.table cr.f.race cr.f.pclass =
    some { mapId := r.map, zoneId := r.zone, positionX := r.x, positionY := r.y, positionZ := r.z }

/-- The same packet in the same place, with other contents of the memory. -/
structure SameAs (cr cr' : Created answer) : Prop where
  env : cr'.env = cr.env.withMemory cr'.env.objectMgr cr'.env.stray
  delivered : cr'.delivered = cr.delivered
  c : cr'.c = cr.c
  f : cr'.f = cr.f
  guid : cr'.guid = cr.guid

theorem SameAs.refl (cr : Created answer) : cr.SameAs cr := ⟨rfl, rfl, rfl, rfl, rfl⟩

/-- The rows are there when the character is created, all of them inside of the array, and
one is for its race and class. -/
def StartLoaded (cr : Created answer) : Prop :=
  cr.delivered = true ∧ (∀ row ∈ answer.rows, InBounds row.race row.pclass) ∧
    ∃ row ∈ answer.rows, row.race = cr.f.race ∧ row.pclass = cr.f.pclass

theorem SameAs.startLoaded {cr cr' : Created answer} (h : cr.SameAs cr') (hcr : cr.StartLoaded) :
    cr'.StartLoaded := by
  rw [StartLoaded, h.delivered, h.f]
  exact hcr

/-- The row of a character that was created. -/
def row (cr : Created answer) : CharacterRow :=
  createdRow cr.env cr.guid cr.c.acct.id
    ((normalizePlayerName cr.env.locale cr.f.name).getD []) cr.f.race cr.f.pclass cr.f.gender
    cr.f.skin cr.f.face cr.f.hairStyle cr.f.hairColor cr.f.facialHair

/-- What is known of the row: it shows all but the start position, which is what was read. -/
theorem spec_row (cr : Created answer) (hlocale : cr.env.locale.KeepsNul) :
    listedColumns cr.insert = Database.charColumns cr.row ∧ 0 ∉ cr.row.name ∧
      cr.row.name.length ≤ 12 ∧ (cr.ShownAs cr.row.character.record ↔
        startEntry answer.table cr.f.race cr.f.pclass =
          some (cr.env.playerCreateInfo cr.f.race cr.f.pclass)) := by
  obtain ⟨stored, hname, hlen, hnul, hinsert⟩ := cr.accepted.insert_eq
  have hstored := hlocale.normalizePlayerName hnul hname
  have htext : cStr stored = stored := cStr_of_not_mem hstored
  have hrow : cr.row = createdRow cr.env cr.guid cr.c.acct.id stored cr.f.race cr.f.pclass
      cr.f.gender cr.f.skin cr.f.face cr.f.hairStyle cr.f.hairColor cr.f.facialHair := by
    rw [row, hname]
    rfl
  rw [hrow, hinsert, record_createdRow]
  refine ⟨listedColumns_playerCreate _ _ _ _ _ _ _ _ _ _ _ _, ?_, ?_, ShownAs.start, fun h => ?_⟩
  · rwa [createdRow, htext]
  · rwa [createdRow, htext]
  · exact ⟨rfl, hname.trans (congrArg some htext.symm), rfl, rfl, rfl, rfl, rfl, rfl, rfl, rfl, rfl,
      h⟩

/-- **Where the rows are there, what is read is the entry of the table.** -/
theorem startEntry_of_startLoaded {cr : Created answer} (h : cr.StartLoaded) :
    startEntry answer.table cr.f.race cr.f.pclass =
      some (cr.env.playerCreateInfo cr.f.race cr.f.pclass) := by
  obtain ⟨hdelivered, hbounds, hrow⟩ := h
  have hrows : answer.rows = answer.table := by
    rw [StartAnswer.rows] at hrow ⊢
    split at hrow
    · rfl
    · obtain ⟨row, hmem, -⟩ := hrow
      cases hmem
  have hload : ∃ m, answer.rows.foldlM ObjectMgr.setRow .init = some m :=
    ObjectMgr.exists_foldlM_setRow_iff.mpr hbounds
  obtain ⟨m, hm⟩ := hload
  have hholds := cr.holds
  rw [MayHold, if_pos hdelivered] at hholds
  have hmgr := hholds m ((ObjectMgr.loadPlayerCreateInfoObsv_eq _ answer).trans hm)
  obtain ⟨info, hinfo⟩ := Option.isSome_iff_exists.mp (isSome_startEntry_iff.mpr hrow)
  rw [Env.playerCreateInfo, hmgr, ObjectMgr.getPlayerCreateInfo_of_foldlM_setRow hm, hinfo,
    ← hrows, hinfo]
  rfl

/-- **Where they are not, anything may be read**, and so something else. -/
theorem exists_sameAs_of_not_startLoaded {cr : Created answer} (h : ¬cr.StartLoaded) :
    ∃ cr' : Created answer, cr.SameAs cr' ∧ startEntry answer.table cr'.f.race cr'.f.pclass ≠
      some (cr'.env.playerCreateInfo cr'.f.race cr'.f.pclass) := by
  -- an array that has nothing for the race and the class
  obtain ⟨m, hholds, hnone⟩ : ∃ m, MayHold answer cr.delivered m ∧
      m.getPlayerCreateInfo cr.f.race cr.f.pclass = none := by
    have hinit : ObjectMgr.init.getPlayerCreateInfo cr.f.race cr.f.pclass = none :=
      ObjectMgr.getPlayerCreateInfo_init _ _
    unfold MayHold
    split
    · next hdelivered =>
      cases hload : ObjectMgr.init.loadPlayerCreateInfoObsv answer.res with
      | none => exact ⟨.init, fun m' hm' => (by cases hm'), hinit⟩
      | some m =>
        refine ⟨m, fun m' hm' => Option.some.inj hm', ?_⟩
        rw [ObjectMgr.loadPlayerCreateInfoObsv_eq] at hload
        rw [ObjectMgr.getPlayerCreateInfo_of_foldlM_setRow hload, hinit, Option.or_none]
        rw [← Option.not_isSome_iff_eq_none, isSome_startEntry_iff]
        exact fun hrow => h ⟨hdelivered, ObjectMgr.exists_foldlM_setRow_iff.mp ⟨m, hload⟩, hrow⟩
    · exact ⟨.init, rfl, hinit⟩
  -- and memory that differs from the entry
  obtain ⟨info, hinfo⟩ : ∃ info, startEntry answer.table cr.f.race cr.f.pclass ≠ some info := by
    cases startEntry answer.table cr.f.race cr.f.pclass with
    | none => exact ⟨⟨0, 0, 0, 0, 0⟩, (Option.some_ne_none _).symm⟩
    | some entry =>
      refine ⟨{ entry with mapId := entry.mapId + 1 }, fun heq => ?_⟩
      have hmap := congrArg PlayerCreateInfo.mapId (Option.some.inj heq)
      have hne : (1 : UInt32) = 0 := left_eq_add.mp hmap
      exact absurd hne (by decide)
  obtain ⟨insert, haccepted⟩ := cr.accepted.withMemory m fun _ _ => info
  refine ⟨⟨cr.env.withMemory m fun _ _ => info, cr.delivered, hholds, cr.c, cr.f, cr.guid, insert,
    haccepted⟩, ⟨rfl, rfl, rfl, rfl, rfl⟩, ?_⟩
  have hread : (cr.env.withMemory m fun _ _ => info).playerCreateInfo cr.f.race cr.f.pclass =
      info := by
    rw [Env.playerCreateInfo]
    exact congrArg (Option.getD · info) hnone
  exact fun heq => hinfo (heq.trans (congrArg some hread))

end Created

/-! ### Every list -/

section Listed

variable {answer : StartAnswer} {created : List (Created answer)}

/-- **The appearance of these characters survives the list**: if the columns keep what is bound
to them and are returned, a client reads of each what was sent for it. -/
def Listed (created : List (Created answer)) : Prop :=
  ∀ res : ResultSet, res.Returns (created.map fun cr => listedColumns cr.insert) → ∀ c : Conn,
    ∃ c' pkt records buf, c.getCharsObsv res = some c' ∧
      c'.packetQueue = c.packetQueue ++ [pkt] ∧
      readCharEnum pkt = some ((ServerOpcode.smsgCharEnum.code, records), buf) ∧
      buf.rpos = pkt.size ∧ List.Forall₂ Created.ShownAs created records

/-- It is listed what was inserted. -/
theorem listed_iff (hlen : created.length ≤ 255)
    (hlocale : ∀ cr ∈ created, cr.env.locale.KeepsNul) :
    Listed created ↔ ∀ cr ∈ created, startEntry answer.table cr.f.race cr.f.pclass =
      some (cr.env.playerCreateInfo cr.f.race cr.f.pclass) := by
  have hspec (cr) (hcr : cr ∈ created) := cr.spec_row (hlocale cr hcr)
  have hcolumns : created.map (fun cr => listedColumns cr.insert) =
      (created.map Created.row).map Database.charColumns := by
    rw [List.map_map]
    exact List.map_congr_left fun cr hcr => (hspec cr hcr).1
  have hshown : List.Forall₂ Created.ShownAs created
      (created.map fun cr => cr.row.character.record) ↔
        ∀ cr ∈ created, startEntry answer.table cr.f.race cr.f.pclass =
          some (cr.env.playerCreateInfo cr.f.race cr.f.pclass) := by
    rw [List.forall₂_map_right_iff, List.forall₂_same]
    exact forall₂_congr fun cr hcr => (hspec cr hcr).2.2.2
  -- the observer sends the rows, and the client has no other reading of them
  have hsends (res : ResultSet)
      (hres : res.Returns (created.map fun cr => listedColumns cr.insert)) (c : Conn) :
      ∃ c' pkt buf, c.getCharsObsv res = some c' ∧ c'.packetQueue = c.packetQueue ++ [pkt] ∧
        readCharEnum pkt = some ((ServerOpcode.smsgCharEnum.code,
          created.map fun cr => cr.row.character.record), buf) ∧ buf.rpos = pkt.size := by
    rw [hcolumns] at hres
    obtain ⟨c', pkt, buf, hc', hqueue, hread, hsize⟩ :=
      Conn.getCharsObsv_of_returns hres ((List.length_map _).trans_le hlen)
        (List.forall_mem_map.mpr fun cr hcr => (hspec cr hcr).2.1)
        (List.forall_mem_map.mpr fun cr hcr => (hspec cr hcr).2.2.1) c
    rw [List.map_map] at hread
    exact ⟨c', pkt, buf, hc', hqueue, hread, hsize⟩
  rw [← hshown]
  constructor
  · intro hlisted
    have hreturns := Conn.returns_charColumns (created.map Created.row)
    rw [← hcolumns] at hreturns
    obtain ⟨c₁, pkt₁, buf₁, hc₁, hqueue₁, hread₁, -⟩ := hsends _ hreturns (Conn.init Sample.start)
    obtain ⟨c₂, pkt₂, records, buf₂, hc₂, hqueue₂, hread₂, -, hrecords⟩ :=
      hlisted _ hreturns (Conn.init Sample.start)
    obtain rfl := Option.some.inj (hc₁.symm.trans hc₂)
    obtain rfl := List.head_eq_of_cons_eq (List.append_cancel_left (hqueue₁.symm.trans hqueue₂))
    rw [hread₁] at hread₂
    rwa [(Prod.mk.inj (Prod.mk.inj (Option.some.inj hread₂)).1).2]
  · intro hrecords res hres c
    obtain ⟨c', pkt, buf, hc', hqueue, hread, hsize⟩ := hsends res hres c
    exact ⟨c', pkt, _, buf, hc', hqueue, hread, hsize, hrecords⟩

/-- **The appearance of characters survives their creation and the list exactly where their
start positions were loaded**: of up to 255 characters that were created a client reads what was
sent for each and where the table lets it begin, whatever else the memory held, if and only if
the rows of the table were delivered before, lie inside of the array and have one for each. -/
theorem appearance_listed_iff (created : List (Created answer)) (hlen : created.length ≤ 255)
    (hlocale : ∀ cr ∈ created, cr.env.locale.KeepsNul) :
    (∀ created', List.Forall₂ Created.SameAs created created' → Listed created') ↔
      ∀ cr ∈ created, cr.StartLoaded := by
  constructor
  · intro hlisted cr hcr
    by_contra hnot
    obtain ⟨cr', hsame, hne⟩ := Created.exists_sameAs_of_not_startLoaded hnot
    -- the others stay as they are
    obtain ⟨before, after, rfl⟩ := List.append_of_mem hcr
    have hsames : List.Forall₂ Created.SameAs (before ++ cr :: after) (before ++ cr' :: after) :=
      List.rel_append (List.forall₂_same.mpr fun cr _ => .refl cr)
        (.cons hsame (List.forall₂_same.mpr fun cr _ => .refl cr))
    have hlocale' : ∀ x ∈ before ++ cr' :: after, x.env.locale.KeepsNul := by
      intro x hx
      rcases List.mem_append.mp hx with hx | hx
      · exact hlocale x (List.mem_append_left _ hx)
      rcases List.mem_cons.mp hx with rfl | hx
      · rw [hsame.env]
        exact hlocale cr hcr
      · exact hlocale x (List.mem_append_right _ (List.mem_cons_of_mem _ hx))
    have hlen' : (before ++ cr' :: after).length ≤ 255 := hsames.length_eq ▸ hlen
    exact hne ((listed_iff hlen' hlocale').mp (hlisted _ hsames) cr'
      (List.mem_append_right _ List.mem_cons_self))
  · intro hloaded created' hsames
    have hcreated' : ∀ cr' ∈ created', cr'.env.locale.KeepsNul ∧ cr'.StartLoaded := by
      clear hlen
      induction hsames with
      | nil => exact List.forall_mem_nil _
      | cons hsame _ ih =>
        obtain ⟨hl, hlocale⟩ := List.forall_mem_cons.mp hlocale
        obtain ⟨hs, hloaded⟩ := List.forall_mem_cons.mp hloaded
        refine List.forall_mem_cons.mpr ⟨⟨?_, hsame.startLoaded hs⟩, ih hlocale hloaded⟩
        rw [hsame.env]
        exact hl
    exact (listed_iff (hsames.length_eq ▸ hlen) fun cr' hcr' => (hcreated' cr' hcr').1).mpr
      fun cr' hcr' => Created.startEntry_of_startLoaded (hcreated' cr' hcr').2

end Listed

/-! ### A character with no two bytes alike -/

namespace AppearanceSample

/-- The table has one row, which is for the race and the class of the character. -/
def answer : StartAnswer where
  res :=
    { engine := .mysql
      numFields := 7
      rows := [[.integer 1 2, .integer 1 3, .integer 4 530, .integer 4 3430, .integer 4 11,
        .integer 4 12, .integer 4 13]] }
  fresh := rfl
  columns := rfl

/-- The array once the row is in it. -/
def objectMgr : ObjectMgr := (ObjectMgr.init.loadPlayerCreateInfoObsv answer.res).getD .init

theorem mayHold_objectMgr : MayHold answer true objectMgr := by
  intro m' hm'
  rw [objectMgr, hm']
  rfl

def env : Env := { RaceSample.env 9 with objectMgr := objectMgr }

def fields : CharCreate where
  name := [65, 98]
  race := 2
  pclass := 3
  gender := 1
  skin := 200
  face := 5
  hairStyle := 6
  hairColor := 150
  facialHair := 7
  outfitId := 8

/-- Its packet. -/
def charCreate : ClientPkt where
  siz := 16
  opcode := ClientOpcode.cmsgCharCreate.code
  payload := [65, 98, 0, 2, 3, 1, 200, 5, 6, 150, 7, 8]
  complete := rfl

theorem accepted :
    (Conn.init Sample.start).Accepted env fields 9
      ((Conn.init Sample.start).insertOf env fields [65, 98]) :=
  ⟨charCreate, _, _, _, ⟨by decide, [], rfl⟩, rfl, ⟨_, rfl, rfl⟩, rfl, rfl, rfl⟩

def created : Created answer where
  env := env
  delivered := true
  holds := mayHold_objectMgr
  c := Conn.init Sample.start
  f := fields
  guid := 9
  insert := _
  accepted := accepted

theorem startLoaded_created : created.StartLoaded :=
  ⟨rfl, List.forall_mem_singleton.mpr (by decide), _, List.mem_singleton_self _, rfl, rfl⟩

/-- The same, of a client that was faster than the query. -/
theorem accepted_early :
    (Conn.init Sample.start).Accepted (RaceSample.env 9) fields 9
      ((Conn.init Sample.start).insertOf (RaceSample.env 9) fields [65, 98]) :=
  ⟨charCreate, _, _, _, ⟨by decide, [], rfl⟩, rfl, ⟨_, rfl, rfl⟩, rfl, rfl, rfl⟩

def early : Created answer where
  env := RaceSample.env 9
  delivered := false
  holds := rfl
  c := Conn.init Sample.start
  f := fields
  guid := 9
  insert := _
  accepted := accepted_early

end AppearanceSample

open AppearanceSample in
/-- It is listed as it was sent. -/
theorem appearance_listed_iff_sample : Listed [created] := by
  have hlocale : ∀ cr ∈ [created], cr.env.locale.KeepsNul :=
    List.forall_mem_singleton.mpr fun _ => ⟨id, id⟩
  exact (appearance_listed_iff [created] (by decide) hlocale).mpr
    (List.forall_mem_singleton.mpr startLoaded_created) [created]
    (List.forall₂_same.mpr fun cr _ => .refl cr)

open AppearanceSample in
/-- A character that is created before the table is loaded begins where the memory says. -/
theorem not_listed_early :
    ¬∀ (answer : StartAnswer) (created : List (Created answer)), created.length ≤ 255 →
      (∀ cr ∈ created, cr.env.locale.KeepsNul) → Listed created := by
  intro hclaim
  have hlocale : ∀ cr ∈ [early], cr.env.locale.KeepsNul :=
    List.forall_mem_singleton.mpr fun _ => ⟨id, id⟩
  have hstart := (listed_iff (by decide) hlocale).mp (hclaim answer [early] (by decide) hlocale)
    early List.mem_cons_self
  have hmap := congrArg PlayerCreateInfo.mapId (Option.some.inj hstart)
  exact absurd hmap (by decide)

end Morfeusz.Proxyd
