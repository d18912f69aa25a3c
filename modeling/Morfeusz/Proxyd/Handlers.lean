import Morfeusz.Proxyd.Socket

/-!
# The handlers of the proxy socket

The packet handlers and the two callbacks of the database, each as a function of the
state of the connection. A handler the process does not survive is `none`.

The callback of the account is the authentication: it recomputes the verifier from the
stored salt and password hash, and then compares the digest of the client with its own,
into which the session key goes. The bytes of that key come out of a buffer of just the
size of the number, of which forty bytes are reversed
(`Morfeusz.Proxyd.keyBytes`).
-/

namespace Morfeusz.Proxyd

open ByteNumbers ByteBuffer

/-! ### The check of a client -/

/-- `N` of `account_retrieved`. -/
def primeN : ℕ := 0x894B645E89E1535BBDAD5B8B290650530801B18EBFBF5E8FAB3C82872A3E9BB7

/-- `g`. -/
def generatorG : ℕ := 7

/-- A text read into a number that was just created, which a text without a digit
leaves zero. -/
def numberOfText (text : List UInt8) : ℕ := (bnHex2bn (cStr text)).getD 0

/-- `s_bin`: the bytes the salt needs, reversed. -/
def saltBytes (s : ℕ) : List UInt8 := (bnBn2bin s (List.replicate (bnNumBytes s) 0)).reverse

/-- `x` of `account_retrieved`. -/
def exponentX (sha : Sha1) (s I : ℕ) : ℕ :=
  bnBin2bn (sha (saltBytes s ++ bnBn2bin I (List.replicate 20 0))).val.reverse

/-- `v` of `account_retrieved`. -/
def verifierV (sha : Sha1) (s I : ℕ) : ℕ := bnModExp generatorG (exponentX sha s I) primeN

/-- The bytes of `k_char` that are hashed: forty bytes are reversed, whether or not
they are the bytes of the number, and as many are hashed as the number has. -/
def keyBytes (heap : Bytes 40) (K : ℕ) : List UInt8 :=
  -- the block is as long as the number, and the heap goes on behind it
  let kChar := bnBn2bin K heap.val
  ((kChar.take 40).reverse ++ kChar.drop 40).take (bnNumBytes K)

namespace Conn

variable (sha : Sha1) (hmac : Hmac) (env : Env)

/-- The text the stored verifier is compared with. -/
def verifierText (c : Conn) : List UInt8 :=
  bnBn2hex (verifierV sha (numberOfText c.acct.s) (numberOfText c.acct.shaPassHash))

/-- `check_digest`. -/
def checkDigest (c : Conn) : Bytes 20 :=
  sha (c.login ++ uint32 0 ++ uint32 c.clientSeed ++ uint32 c.seed ++
    keyBytes env.heapKey (numberOfText c.acct.sessionkey))

/-- `account_retrieved`. -/
def accountRetrieved (c : Conn) (state : Bool) : Option Conn :=
  if state = false then do
    let pkt ← serverPkt .smsgAuthResponse 1 [uint8 ResponseCodes.authUnknownAccount.code]
    some (c.send pkt).die
  -- `pass_hash` has twenty bytes
  else if ¬Fits (numberOfText c.acct.shaPassHash) 20 then none
  else if c.verifierText sha ≠ cStr c.acct.v then some c.die
  else do
    let clientDigest ← c.clientDigest
    if c.checkDigest sha env ≠ clientDigest then some c.die
    else
      let c := { c with crypto := c.crypto.setKey hmac (numberOfText c.acct.sessionkey) }
      let pkt ← serverPkt .smsgAuthResponse (1 + 4 + 1 + 4 + 1)
        [uint8 ResponseCodes.authOk.code, uint32 0, uint8 0, uint32 0, uint8 c.acct.expansion]
      some (c.send pkt)

/-! ### Packets without a character -/

/-- `handle_cmsg_auth_session`. -/
def handleCmsgAuthSession (c : Conn) (pkt : ClientPkt) : Option Conn :=
  if pkt.checkSize (4 + 4 + 1 + 4 + 20) = false then some c
  else do
    let (_, buf) ← pkt.buffer.readUint32
    let (_, buf) ← buf.readUint32
    let (login, buf) := buf.readString
    let (clientSeed, buf) ← buf.readUint32
    let (clientDigest, _) ← buf.readBytes 20
    some { c with login, clientSeed, clientDigest := some clientDigest }.getAccount

/-- `handle_cmsg_ping`. -/
def handleCmsgPing (c : Conn) (pkt : ClientPkt) : Option Conn := do
  let (seq, _) ← pkt.buffer.readUint32
  let pkt ← serverPkt .smsgPong 4 [uint32 seq]
  some (c.send pkt)

/-- The date of a realm split, `01/01/01`. -/
def splitDate : List UInt8 := [48, 49, 47, 48, 49, 47, 48, 49]

/-- `handle_cmsg_realm_split`. -/
def handleCmsgRealmSplit (c : Conn) (pkt : ClientPkt) : Option Conn := do
  let (unk, _) ← pkt.buffer.readUint32
  let pkt ← serverPkt .smsgRealmSplit (4 + 4 + UInt16.ofNat splitDate.length + 1)
    [uint32 unk, uint32 0, string splitDate]
  some (c.send pkt)

/-- `handle_cmsg_played_time`. -/
def handleCmsgPlayedTime (c : Conn) : Option Conn := do
  let pkt ← serverPkt .smsgPlayedTime 8 [uint32 0, uint32 0]
  some (c.send pkt)

/-! ### The list of characters -/

/-- `handle_cmsg_char_enum`. -/
def handleCmsgCharEnum (c : Conn) : Conn := c.getChars

/-- The values of one character in the list. -/
def characterValues (ch : Character) : List (List UInt8) :=
  [uint64 ch.guid, string ch.name, uint8 ch.race, uint8 ch.pclass, uint8 ch.gender,
    uint8 ch.bytes.toUInt8, uint8 (ch.bytes >>> 8).toUInt8, uint8 (ch.bytes >>> 16).toUInt8,
    uint8 (ch.bytes >>> 24).toUInt8, uint8 (ch.bytes2 &&& 0xFF), uint8 ch.level, uint32 ch.zone,
    uint32 ch.map, uint32 ch.x, uint32 ch.y, uint32 ch.z, uint32 0, uint32 0, uint8 1, uint32 0,
    uint32 0, uint32 0] ++ (List.replicate (19 + 1) [uint32 0, uint8 0, uint32 0]).flatten

/-- `characters_retrieved`. -/
def charactersRetrieved (c : Conn) (state : Bool) : Option Conn := do
  let values := if state = false then [uint8 0]
    else uint8 (UInt8.ofNat c.characters.length) :: c.characters.flatMap characterValues
  let pkt ← serverPkt .smsgCharEnum 100 values
  some (c.send pkt)

/-! ### A new character -/

/-- The answer to `CMSG_CHAR_CREATE`. -/
def sendCharCreate (c : Conn) (response : ResponseCodes) : Option Conn := do
  let pkt ← serverPkt .smsgCharCreate 1 [uint8 response.code]
  some (c.send pkt)

/-- The checks of `handle_cmsg_char_create` that need no query: the name in its stored
form, or what the client is told. -/
def checkCharacter (c : Conn) (race pclass : UInt8) (name : List UInt8) :
    Except ResponseCodes (List UInt8) :=
  match env.chrRaces race.toUInt32 with
  | none => .error .charCreateFailed
  | some raceEntry =>
    if env.chrClasses pclass.toUInt32 = false then .error .charCreateFailed
    else if raceEntry.addon > c.acct.expansion.toUInt32 then .error .charCreateExpansion
    else
      match normalizePlayerName env.locale name with
      | none => .error .charNameInvalidCharacter
      | some name =>
        if isValidName env.locale env.stackName name then .ok name
        else .error .charNameInvalidCharacter

/-- A count has reached its limit, where there is a row for it. -/
def atLimit (res : ResultSet) (limit : UInt8) : Option Bool :=
  let res := res.next.2
  if res.rowsCount > 0 then (res.getUint8 1).map fun count => limit ≤ count else some false

/-- `Player::create`: the request it appends to the transaction. -/
def playerCreate (env : Env) (lowGuid account : UInt32) (name : List UInt8)
    (race pclass gender skin face hairStyle hairColor facialHair : UInt8) : ProxydRequest :=
  let playerBytes := skin.toUInt32 ||| (face.toUInt32 <<< 8) ||| (hairStyle.toUInt32 <<< 16) |||
    (hairColor.toUInt32 <<< 24)
  let playerBytes2 := facialHair.toUInt32 ||| ((0x02 : UInt32) <<< 24)
  let pci := env.playerCreateInfo race pclass
  { statement := .insChar
    params := [addUint32 1 lowGuid, addUint32 2 account, addString 3 name, addUint8 4 race,
      addUint8 5 pclass, addUint8 6 gender, addUint32 7 1, addUint32 8 playerBytes,
      addUint32 9 playerBytes2, addUint32 10 pci.zoneId, addUint32 11 pci.mapId,
      addFloat 12 pci.positionX, addFloat 13 pci.positionY, addFloat 14 pci.positionZ] }

/-- The end of `handle_cmsg_char_create`: the rest of the packet is read, and the
transaction is queued. -/
def insertCharacter (c : Conn) (race pclass : UInt8) (name : List UInt8) (buf : ByteBuffer) :
    Option Conn := do
  let (gender, buf) ← buf.readUint8
  let (skin, buf) ← buf.readUint8
  let (face, buf) ← buf.readUint8
  let (hairStyle, buf) ← buf.readUint8
  let (hairColor, buf) ← buf.readUint8
  let (facialHair, buf) ← buf.readUint8
  let (_, _) ← buf.readUint8
  let insert := playerCreate env env.maxGuid c.acct.id name race pclass gender skin face hairStyle
    hairColor facialHair
  let c := { c with guids := c.guids ++ [env.maxGuid] }
  let c := c.enqueue (.transaction [c.incrNumchar env.realmid, insert])
  c.sendCharCreate .charCreateSuccess

/-- The queries of `handle_cmsg_char_create`, each answered before the next is made and before
anything else comes to the socket, and what follows from the answers. -/
def createCharacter (c : Conn) (race pclass : UInt8) (name : List UInt8) (buf : ByteBuffer) :
    Option Conn :=
  let c := c.enqueue (.request (guidFromName name))
  if (env.answer (guidFromName name)).rowsCount ≠ 0 then c.sendCharCreate .charCreateNameInUse
  else do
    let c := c.enqueue (.request c.numchar)
    if ← atLimit (env.answer c.numchar) 50 then c.sendCharCreate .charCreateAccountLimit
    else
      let c := c.enqueue (.request c.charCount)
      if ← atLimit (env.answer c.charCount) 10 then c.sendCharCreate .charCreateServerLimit
      else c.insertCharacter env race pclass name buf

/-- `handle_cmsg_char_create`. -/
def handleCmsgCharCreate (c : Conn) (pkt : ClientPkt) : Option Conn :=
  if pkt.checkSize (1 + 1 + 1 + 1 + 1 + 1 + 1 + 1 + 1 + 1) = false then some c
  else
    let (name, buf) := pkt.buffer.readString
    if pkt.checkSize ((name.length + 1) + 1 + 1 + 1 + 1 + 1 + 1 + 1 + 1 + 1) = false then some c
    else do
      let (race, buf) ← buf.readUint8
      let (pclass, buf) ← buf.readUint8
      match c.checkCharacter env race pclass name with
      | .error response => c.sendCharCreate response
      | .ok name => c.createCharacter env race pclass name buf

/-- `process_incoming`. -/
def processIncoming (c : Conn) (pkt : ClientPkt) : Option Conn :=
  match ClientOpcode.ofCode? pkt.opcode with
  | some .cmsgAuthSession => c.handleCmsgAuthSession pkt
  | some .cmsgPing => c.handleCmsgPing pkt
  | some .cmsgRealmSplit => c.handleCmsgRealmSplit pkt
  | some .cmsgCharEnum => some c.handleCmsgCharEnum
  | some .cmsgCharCreate => c.handleCmsgCharCreate env pkt
  | some .cmsgPlayedTime => c.handleCmsgPlayedTime
  | none => some c

end Conn

end Morfeusz.Proxyd
