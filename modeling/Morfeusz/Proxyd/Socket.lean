import Morfeusz.Common.Util
import Morfeusz.Database.Request
import Morfeusz.Database.ResultSet
import Morfeusz.Proxyd.Packets

/-!
# The socket of the game proxy

`Morfeusz.Proxyd.Conn` is the state of one `Proxy_Socket`, with what the database
layer holds of it. There is no state of authentication among its members: the account
is whatever an observer has stored last, and all that remembers an accepted digest is
the header cipher, which has a key from then on.

Unlike the socket of the realm daemon this one stays registered when it dies. What
ends it is its own pointer, and then only once no observer holds another
(`Morfeusz.Proxyd.Conn.Held`).
-/

namespace Morfeusz.Proxyd

open ByteNumbers

/-! ### The data of a connection -/

/-- `Account`. -/
structure Account where
  id : UInt32
  gmlevel : UInt8
  sessionkey : List UInt8
  shaPassHash : List UInt8
  v : List UInt8
  s : List UInt8
  expansion : UInt8
  deriving DecidableEq

/-- `Character`. The coordinates are the bits of their numbers. -/
structure Character where
  guid : UInt64
  race : UInt8
  pclass : UInt8
  gender : UInt8
  bytes : UInt32
  bytes2 : UInt8
  level : UInt8
  name : List UInt8
  x : UInt32
  y : UInt32
  z : UInt32
  map : UInt32
  zone : UInt32
  deriving DecidableEq

/-- The members of `ProxyDatabaseStatements` a socket uses. -/
inductive ProxyDatabaseStatements
  | getAcct
  | getChar
  | getPlrGuidFromName
  | getCharCount
  | getNumchar
  | incrNumchar
  | insChar
  deriving DecidableEq

/-- A request of the proxy. -/
abbrev ProxydRequest := SqlOperationRequest ProxyDatabaseStatements

/-- What is put into the queue of the database: a request, alone or as one of a
transaction. -/
inductive SqlOperation
  | request (op : ProxydRequest)
  | transaction (ops : List ProxydRequest)
  deriving DecidableEq

/-- The observers that wait for an answer and call a socket back. -/
inductive Observer
  | getAcctObsv
  | getCharsObsv
  deriving DecidableEq

/-- `PlayerCreateInfo`, with the bits of the coordinates. -/
structure PlayerCreateInfo where
  mapId : UInt32
  zoneId : UInt32
  positionX : UInt32
  positionY : UInt32
  positionZ : UInt32

/-! ### Where characters begin -/

/-- `RACE_MAX`. -/
abbrev raceMax : ℕ := 12

/-- `CLASS_MAX`. -/
abbrev classMax : ℕ := 12

/-- The array of `ObjectMgr`, with nothing where nothing was written. -/
structure ObjectMgr where
  playerCreateInfo : Fin raceMax → Fin classMax → Option PlayerCreateInfo

/-- The index one below a number, if it is inside of an array. -/
def index (size : ℕ) (i : UInt8) : Option (Fin size) :=
  if h : 1 ≤ i.toNat ∧ i.toNat - 1 < size then some ⟨i.toNat - 1, h.2⟩ else none

namespace ObjectMgr

/-- The array before anything is loaded. -/
def init : ObjectMgr := ⟨fun _ _ => none⟩

/-- `set_player_create_info`. -/
def setPlayerCreateInfo (m : ObjectMgr) (race pclass : UInt8) (info : PlayerCreateInfo) :
    Option ObjectMgr := do
  let r ← index raceMax race
  let p ← index classMax pclass
  some ⟨fun r' p' => if r' = r ∧ p' = p then some info else m.playerCreateInfo r' p'⟩

/-- `get_player_create_info`, which reads what was loaded. -/
def getPlayerCreateInfo (m : ObjectMgr) (race pclass : UInt8) : Option PlayerCreateInfo := do
  let r ← index raceMax race
  let p ← index classMax pclass
  m.playerCreateInfo r p

end ObjectMgr

/-! ### The surroundings -/

/-- The field of `ChrRacesEntry` that is looked at. -/
structure ChrRacesEntry where
  addon : UInt32

/-- What a handler finds outside the socket: the locale, the stores and managers of the
service, the answers of the queries it waits for, and the contents of the memory that
is used before it is written. -/
structure Env where
  locale : Locale
  stackName : ℕ → UInt32
  chrRaces : UInt32 → Option ChrRacesEntry
  chrClasses : UInt32 → Bool
  objectMgr : ObjectMgr
  /-- What lies at a start position that was not written, or where the array has ended. -/
  stray : UInt8 → UInt8 → PlayerCreateInfo
  maxGuid : UInt32
  realmid : UInt8
  answer : ProxydRequest → ResultSet
  answer_fresh : ∀ op, (answer op).Fresh
  heapKey : Bytes 40

/-- The start position `Player::create` reads: neither the race nor the class is looked at,
and whether anything was loaded for them. -/
def Env.playerCreateInfo (env : Env) (race pclass : UInt8) : PlayerCreateInfo :=
  (env.objectMgr.getPlayerCreateInfo race pclass).getD (env.stray race pclass)

/-- `Proxy_Crypto`: the key of the header cipher, and how far either direction has
come. -/
structure ProxyCrypto where
  isInitialised : Bool
  key : Bytes 20
  sendI : UInt8
  sendJ : UInt8
  recvI : UInt8
  recvJ : UInt8

/-- `Proxy_Crypto::Proxy_Crypto`. -/
def ProxyCrypto.init : ProxyCrypto where
  isInitialised := false
  key := Bytes.zero 20
  sendI := 0
  sendJ := 0
  recvI := 0
  recvJ := 0

/-- `tbc_encryption_key`. -/
def tbcEncryptionKey : List UInt8 :=
  [0x38, 0xA7, 0x83, 0x15, 0xF8, 0x92, 0x25, 0x30, 0x71, 0x98, 0x67, 0xB1, 0x8C, 0x04, 0xE2, 0xAA]

/-- The bytes `set_key` hands to `HMAC_Update`: those the number needs, reversed. -/
def hmacInput (key : ℕ) : List UInt8 :=
  (bnBn2bin key (List.replicate (bnNumBytes key) 0)).reverse

/-- `set_key`. -/
def ProxyCrypto.setKey (hmac : Hmac) (crypto : ProxyCrypto) (key : ℕ) : ProxyCrypto :=
  { crypto with key := hmac tbcEncryptionKey (hmacInput key), isInitialised := true }

/-- The state of a connection. -/
structure Conn where
  /-- The internal counted pointer still refers to the socket. -/
  ptr : Bool
  seed : UInt32
  acct : Account
  login : List UInt8
  /-- A pointer no constructor initialises. -/
  clientDigest : Option (Bytes 20)
  clientSeed : UInt32
  characters : List Character
  packetQueue : List ByteBuffer
  outActive : Bool
  crypto : ProxyCrypto
  readRegistered : Bool
  /-- The observers whose answer is outstanding. -/
  pending : List Observer
  /-- Everything this socket has put into the queue of the database, oldest first. -/
  operations : List SqlOperation
  /-- Every guid this socket has drawn, oldest first. -/
  guids : List UInt32

/-- What the constructor leaves to chance: the seed, and the members no constructor
initialises. -/
structure Start where
  seed : UInt32
  id : UInt32
  gmlevel : UInt8
  expansion : UInt8
  clientSeed : UInt32

namespace Conn

/-! ### Closing and sending -/

/-- `die`: the pointer is released, and nothing else. -/
def die (c : Conn) : Conn := { c with ptr := false }

/-- Something still refers to the socket; without it the socket is deleted. -/
def Held (c : Conn) : Prop := c.ptr = true ∨ c.pending ≠ []

instance (c : Conn) : Decidable c.Held := inferInstanceAs (Decidable (_ ∨ _))

/-- `send`. -/
def send (c : Conn) (pkt : ByteBuffer) : Conn :=
  { c with packetQueue := c.packetQueue ++ [pkt], outActive := true }

/-- The socket after its constructor and `open`, which sends the seed. -/
def init (f : Start) : Conn where
  ptr := true
  seed := f.seed
  acct :=
    { id := f.id, gmlevel := f.gmlevel, sessionkey := [], shaPassHash := [], v := [], s := []
      expansion := f.expansion }
  login := []
  clientDigest := none
  clientSeed := f.clientSeed
  characters := []
  packetQueue := [authChallenge f.seed]
  outActive := true
  crypto := .init
  readRegistered := true
  pending := []
  operations := []
  guids := []

/-! ### Requests -/

/-- `enqueue`, and `enqueue_synch_query`, whose answer is waited for at once. -/
def enqueue (c : Conn) (op : SqlOperation) : Conn := { c with operations := c.operations ++ [op] }

/-- A request with a future and an observer attached to it. The request is made only
where the pointer of the socket is not null. -/
def ask (c : Conn) (obs : Observer) (op : ProxydRequest) : Conn :=
  if c.ptr then { c.enqueue (.request op) with pending := c.pending ++ [obs] } else c

/-- `get_account`. -/
def getAccount (c : Conn) : Conn :=
  c.ask .getAcctObsv { statement := .getAcct, params := [addString 1 c.login] }

/-- `get_chars`. -/
def getChars (c : Conn) : Conn :=
  c.ask .getCharsObsv { statement := .getChar, params := [addUint64 1 c.acct.id.toUInt64] }

/-- The first request of `handle_cmsg_char_create`. -/
def guidFromName (name : List UInt8) : ProxydRequest :=
  { statement := .getPlrGuidFromName, params := [addString 1 name] }

/-- Its second, the characters of the account on all realms. -/
def numchar (c : Conn) : ProxydRequest :=
  { statement := .getNumchar, params := [addUint32 1 c.acct.id] }

/-- Its third, the characters of the account on this realm. -/
def charCount (c : Conn) : ProxydRequest :=
  { statement := .getCharCount, params := [addUint32 1 c.acct.id] }

/-- The first request of its transaction. -/
def incrNumchar (c : Conn) (realmid : UInt8) : ProxydRequest :=
  { statement := .incrNumchar, params := [addUint32 1 realmid.toUInt32, addUint32 2 c.acct.id] }

end Conn

end Morfeusz.Proxyd
