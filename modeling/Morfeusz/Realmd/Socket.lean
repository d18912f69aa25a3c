import Morfeusz.Database.Request
import Morfeusz.Database.ResultSet
import Morfeusz.Realmd.Srp6

/-!
# The socket of the realm daemon

`Morfeusz.Realmd.Conn` is the state of one `Realm_Socket`: the fields of the class,
what the reactor has registered for it, and what the database layer holds of it –
the requests it has queued and the observers that wait for an answer.

Everything the handlers do to this state goes through the operations of this
file: `Morfeusz.Realmd.Conn.die`, `Morfeusz.Realmd.Conn.send`,
`Morfeusz.Realmd.Conn.enqueue` and the requests of `RealmDB`.
-/

namespace Morfeusz.Realmd

open ByteNumbers

/-! ### The data of a connection -/

/-- `ConnectionState`. -/
inductive ConnectionState
  | connected
  | needProof
  | authed
  | needRproof
  | closing
  deriving DecidableEq

/-- `AccountState`. -/
inductive AccountState
  | accountExists
  | accountNotfound
  | accountBanned
  deriving DecidableEq

/-- `Account`. -/
structure Account where
  shaPass : List UInt8
  id : UInt64
  locked : Bool
  lastIp : List UInt8
  gmlevel : UInt8
  failedLogins : UInt8
  deriving DecidableEq

/-- `Realm`, with the bits of the population number. -/
structure Realm where
  name : List UInt8
  icon : UInt8
  color : UInt8
  timezone : UInt8
  allowedSecurityLevel : UInt8
  population : UInt32
  build : UInt16
  deriving DecidableEq

/-- The members of `RealmdDatabaseStatements` a socket uses. -/
inductive RealmdDatabaseStatements
  | setSV
  | updateAccount
  | setFailedLogins
  | addAccountAutoban
  | addIpAutoban
  | checkIpBan
  | checkAcctBan
  | getSessionkey
  | getNumchar
  | fixSV
  deriving DecidableEq

/-- A request of the realm daemon. -/
abbrev RealmdRequest := SqlOperationRequest RealmdDatabaseStatements

/-- The observers that wait for an answer and call a socket back. -/
inductive Observer
  | checkIpBanObsv
  | checkAcctObsv
  | getSessionKeyObsv
  | getCharAmntObsv
  deriving DecidableEq

/-- What a handler finds outside the socket: the configuration, the realm list and
the proxies of the service, the numbers `BN_rand` returns, and the contents of the
memory that is used before it is written. -/
structure Env where
  wrongPassBan : Bool
  wrongPassAmnt : ℤ
  wrongPassBanType : List UInt8
  realmlist : List (UInt8 × Realm)
  proxyForRealm : UInt8 → List UInt8
  randB : BnRand 152
  randProof : BnRand 128
  randNonce : BnRand 128
  stackS : Bytes 32
  heapProof : Bytes 16
  heapKey : Bytes 40

/-- The state of a connection. -/
structure Conn where
  k : ℕ
  s : Salt
  v : Residue
  b : ℕ
  B : Residue
  reconnectProof : ℕ
  acct : Account
  realmCharAmount : List (UInt8 × UInt8)
  state : ConnectionState
  clientBuild : UInt16
  login : List UInt8
  ip : List UInt8
  /-- The internal counted pointer still refers to the socket. -/
  ptr : Bool
  outActive : Bool
  packetQueue : List ByteBuffer
  /-- Every packet ever given to `send`, oldest first. -/
  queued : List ByteBuffer
  /-- The bytes the peer has accepted. -/
  delivered : List UInt8
  readRegistered : Bool
  writeRegistered : Bool
  peerOpen : Bool
  /-- Every request this socket has queued, oldest first. -/
  requests : List RealmdRequest
  /-- The observers whose answer is outstanding. -/
  pending : List Observer

/-- What the constructor leaves to chance: the drawn salt, the address of the
peer, and the members no constructor initialises. -/
structure Start where
  salt : BnRand 256
  ip : List UInt8
  clientBuild : UInt16
  id : UInt64
  locked : Bool
  gmlevel : UInt8
  failedLogins : UInt8

namespace Conn

/-- The socket after its constructor and `open`. -/
def init (f : Start) : Conn where
  k := multiplierK
  s := .ofRand f.salt
  v := residue 0
  b := 0
  B := residue 0
  reconnectProof := 0
  acct :=
    { shaPass := [], id := f.id, locked := f.locked, lastIp := [], gmlevel := f.gmlevel
      failedLogins := f.failedLogins }
  realmCharAmount := []
  state := .connected
  clientBuild := f.clientBuild
  login := []
  ip := f.ip
  ptr := true
  outActive := false
  packetQueue := []
  queued := []
  delivered := []
  readRegistered := true
  writeRegistered := false
  peerOpen := true
  requests := []
  pending := []

/-! ### Closing and sending -/

/-- `die`: no event reaches the socket any more, and what refers to it only
through its own pointer does not find it. -/
def die (c : Conn) : Conn :=
  { c with
    state := .closing
    readRegistered := false
    writeRegistered := false
    peerOpen := false
    ptr := false }

/-- `send`: registering a handler for a closed handle fails, and nobody looks. -/
def send (c : Conn) (pkt : ByteBuffer) : Conn :=
  { c with
    packetQueue := c.packetQueue ++ [pkt]
    queued := c.queued ++ [pkt]
    writeRegistered := c.writeRegistered || (!c.outActive && c.peerOpen)
    outActive := true }

/-! ### Requests -/

/-- `enqueue`, and `enqueue_with_priority`. -/
def enqueue (c : Conn) (op : RealmdRequest) : Conn := { c with requests := c.requests ++ [op] }

/-- A request with a future and an observer attached to it. The request is made
only where the pointer of the socket is not null. -/
def ask (c : Conn) (obs : Observer) (op : RealmdRequest) : Conn :=
  { c with
    requests := if c.ptr then c.requests ++ [op] else c.requests
    pending := if c.ptr then c.pending ++ [obs] else c.pending }

def checkIpBan (c : Conn) : Conn :=
  c.ask .checkIpBanObsv { statement := .checkIpBan, params := [addString 1 c.ip] }

def getAccount (c : Conn) : Conn :=
  c.ask .checkAcctObsv { statement := .checkAcctBan, params := [addString 1 c.login] }

def getSessionkey (c : Conn) : Conn :=
  c.ask .getSessionKeyObsv { statement := .getSessionkey, params := [addString 1 c.login] }

def getCharAmount (c : Conn) : Conn :=
  c.ask .getCharAmntObsv { statement := .getNumchar, params := [addUint32 1 c.acct.id.toUInt32] }

def fixSV (c : Conn) : Conn :=
  c.enqueue { statement := .fixSV, params := [addString 1 c.login], priority := .high }

def setSV (c : Conn) (sStr vStr : List UInt8) : Conn :=
  c.enqueue
    { statement := .setSV, params := [addString 1 vStr, addString 2 sStr, addString 3 c.login] }

/-- `update_account`. -/
def updateAccount (c : Conn) (K : List UInt8) : Conn :=
  c.enqueue
    { statement := .updateAccount
      params := [addString 1 (sessionkeyText K), addString 2 c.ip, addUint8 3 0,
        addString 4 c.login] }

def incrementFailedLogins (c : Conn) : Conn :=
  c.enqueue { statement := .setFailedLogins, params := [addUint64 1 c.acct.id] }

/-- `ban_failed_logins` of an account. -/
def banFailedLoginsId (c : Conn) : Conn :=
  c.enqueue
    { statement := .addAccountAutoban
      params := [addUint32 1 c.acct.id.toUInt32, addUint32 2 600] }

/-- `ban_failed_logins` of an address. -/
def banFailedLoginsIp (c : Conn) : Conn :=
  c.enqueue { statement := .addIpAutoban, params := [addString 1 c.ip, addUint32 2 600] }

end Conn

end Morfeusz.Realmd
