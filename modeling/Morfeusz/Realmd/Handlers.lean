import Morfeusz.Realmd.Socket

/-!
# The handlers of the realm socket

The packet handlers, the database callbacks and the observers that call them, and
`handle_output`, each as a function of the state of the connection. A handler that
the process does not survive – a failed assertion, an exception nobody catches, a
write outside a buffer – is `none`.
-/

namespace Morfeusz.Realmd

open ByteNumbers ByteBuffer

namespace Conn

variable (sha : Sha1) (env : Env)

/-! ### The verifier -/

/-- `set_vs`. The hash of the account is read into a number that stays a null
pointer where there is no digit, and is then written to twenty bytes. -/
def setVs (c : Conn) : Option Conn := do
  let c := c.fixSV
  -- `BN_bn2bin` of the null pointer, or past the end of the buffer
  let I ← bnHex2bn (cStr c.acct.shaPass)
  if Fits I 20 then
    let c := { c with v := verifierV sha c.s I }
    some (c.setSV (bnBn2hex c.s.val) (bnBn2hex c.v.val))
  else none

/-! ### Logging on -/

/-- The packet of `REALM_AUTH_SUCCESS`. One buffer of 32 bytes takes all the
numbers in turn. -/
def challengePacket (c : Conn) (nonce : ℕ) : Option ByteBuffer :=
  let tmp := (bnBn2bin c.B.val (List.replicate 32 0)).reverse
  let tmpN := (bnBn2bin primeN tmp).reverse
  let tmpS := (bnBn2bin c.s.val tmpN).reverse
  let tmpR := bnBn2bin nonce tmpS
  build [uint8 EAuthCmd.authLogonChallenge.code, uint8 0,
    uint8 EAuthResults.realmAuthSuccess.code, tmp, uint8 1, uint8 7, uint8 32, tmpN, tmpS,
    tmpR.take 16, uint8 0]

/-- The case `ACCOUNT_EXISTS` of `account_checked`, once the lock of the account
has been passed, with the two numbers it draws. -/
def startLogon (c : Conn) (b nonce : ℕ) : Option Conn := do
  let c ← c.setVs sha
  let c := { c with b := b, B := publicB c.v c.k b }
  let pkt ← c.challengePacket nonce
  some (c.send pkt)

/-- `account_checked`. -/
def accountChecked (c : Conn) : AccountState → Option Conn
  | .accountBanned => some (c.send (authReply .realmAuthAccountBanned))
  | .accountNotfound => some (c.send (authReply .realmAuthNoMatch))
  | .accountExists =>
    if c.acct.locked ∧ c.ip ≠ c.acct.lastIp then
      some (c.send (authReply .realmAuthAccountLocked))
    else c.startLogon sha env.randB.val env.randNonce.val

/-- `ip_ban_checked`. -/
def ipBanChecked (c : Conn) (result : Bool) : Option Conn :=
  if result then c.accountChecked sha env .accountBanned else some c.getAccount

/-- `handle_auth_logon_challenge`. -/
def handleAuthLogonChallenge (c : Conn) (raw : Received) : Conn :=
  if c.state ≠ .connected then c.die
  else
    let c := { c with login := c.login ++ raw.i.take raw.iLen.toNat, clientBuild := raw.build }
    -- the proof is let through before the first of the two lookups has answered
    if isSupportedClientBuild c.clientBuild then { c.checkIpBan with state := .needProof }
    else c.send (authReply .realmAuthWrongBuildNumber)

/-- The session key of a logon proof: `K_buff`. -/
def sessionKey (c : Conn) (A : List UInt8) : List UInt8 :=
  let u := scramblerU sha A c.B
  let S := secretS (bnBin2bn A.reverse) c.v u c.b
  interleavedKey sha (secretBuffer env.stackS S)

/-- The proof the client has to send: `M_buff`. -/
def expectedM (c : Conn) (A : List UInt8) : Bytes 20 :=
  proofM sha c.login (reversedBuffer 32 c.s.val) A (reversedBuffer 32 c.B.val)
    (c.sessionKey sha env A)

/-- The part of `handle_failed_login` that counts the failure and may ban for it. -/
def countFailedLogin (c : Conn) : Conn :=
  if env.wrongPassBan then
    let c := { c with acct := { c.acct with failedLogins := c.acct.failedLogins + 1 } }
    let c := c.incrementFailedLogins
    if (c.acct.failedLogins.toNat : ℤ) > env.wrongPassAmnt then
      if env.wrongPassBanType ≠ [105, 112] then c.banFailedLoginsId else c.banFailedLoginsIp
    else c
  else c

/-- `handle_failed_login`. -/
def handleFailedLogin (c : Conn) : Option Conn :=
  (c.countFailedLogin env).accountChecked sha env .accountNotfound

/-- `handle_auth_logon_proof`. -/
def handleAuthLogonProof (c : Conn) (raw : Received) : Option Conn :=
  if c.state ≠ .needProof then some c.die
  else
    let A := raw.publicA
    let M := c.expectedM sha env A
    if raw.proofM1 = M.val then
      let K := c.sessionKey sha env A
      let hamk := proofHamk sha A M.val K
      -- the key is stored whatever the build is
      let c := c.updateAccount K
      match SupportedClientBuilds.ofNumber? c.clientBuild with
      | some build => do
        let data ← logonProofPacket build hamk.val
        some { c.send data with state := .authed }
      | none => some c.die
    else c.handleFailedLogin sha env

/-! ### Reconnecting -/

/-- `handle_auth_reconnect_challenge`. -/
def handleAuthReconnectChallenge (c : Conn) (raw : Received) : Conn :=
  if c.state ≠ .connected then c.die
  else
    -- neither the build nor the length of the name is looked at
    let c := { c with clientBuild := raw.build, login := cStr raw.i }
    { c.getSessionkey with state := .needRproof }

/-- The hash a reconnect proof is compared with. Both numbers go into buffers that
were just allocated; the second may be too short for its number. -/
def reconnectHash (c : Conn) (R1 : List UInt8) : Option (Bytes 20) :=
  if Fits c.reconnectProof 16 ∧ Fits c.k 40 then
    some (sha (c.login ++ R1 ++ bnBn2bin c.reconnectProof env.heapProof.val ++
      bnBn2bin c.k env.heapKey.val))
  else none

/-- `handle_auth_reconnect_proof`. -/
def handleAuthReconnectProof (c : Conn) (raw : Received) : Option Conn :=
  if c.state ≠ .needRproof then some c.die
  else do
    let hash ← c.reconnectHash sha env raw.proofR1
    if hash.val = raw.proofR2 then some { c.send reconnectProofPacket with state := .authed }
    else some c.die

/-- `get_sessionkey`, the callback. -/
def getSessionkeyAnswered (c : Conn) (result : Bool) : Option Conn :=
  if result then do
    let c := { c with reconnectProof := env.randProof.val }
    let pkt ← reconnectChallengePacket (bnBn2bin c.reconnectProof env.heapProof.val)
    some { c.send pkt with state := .needRproof }
  else some c.die

/-! ### The realm list -/

/-- `operator[]` of the map of character counts, which inserts a zero. -/
def charAmountAt (amnt : List (UInt8 × UInt8)) (id : UInt8) : UInt8 × List (UInt8 × UInt8) :=
  match amnt.lookup id with
  | some n => (n, amnt)
  | none => (0, amnt ++ [(id, 0)])

/-- The realms of the client's build. -/
def realmsOfBuild (c : Conn) : List (UInt8 × Realm) :=
  env.realmlist.filter fun r => r.2.build = c.clientBuild

/-- The colour of a realm: one without a proxy is marked offline. -/
def realmColor (id : UInt8) (realm : Realm) : UInt8 :=
  if env.proxyForRealm id = [] then 0x02 else realm.color

/-- The packet around the body of a realm list. -/
def realmListPacket (body : ByteBuffer) : Option ByteBuffer :=
  build [uint8 EAuthCmd.realmList.code, uint16 (UInt16.ofNat body.size), body.storage]

/-- `build_realm_packet`. -/
def buildRealmPacket (c : Conn) : Option ByteBuffer := do
  let entries := (c.realmsOfBuild env).flatMap fun (id, realm) =>
    [uint8 realm.icon, uint8 (realmColor env id realm), string realm.name,
      string (env.proxyForRealm id), uint32 realm.population,
      uint8 ((c.realmCharAmount.lookup id).getD 0), uint8 realm.timezone, uint8 0]
  let listSize := UInt16.ofNat (c.realmsOfBuild env).length
  let pkt ← build ([uint32 0, uint8 listSize.toUInt8] ++ entries ++ [uint8 0x00, uint8 0x02])
  realmListPacket pkt

/-- The entries of an expansion realm list. The character counts are read with
`operator[]`, so the map grows on the way. -/
def expansionEntries (gmlevel : UInt8) :
    List (UInt8 × Realm) → List (UInt8 × UInt8) → List (List UInt8) × List (UInt8 × UInt8)
  | [], amnt => ([], amnt)
  | (id, realm) :: realms, amnt =>
    let (chars, amnt) := charAmountAt amnt id
    let (entries, amnt) := expansionEntries gmlevel realms amnt
    ([uint8 realm.icon, uint8 (if realm.allowedSecurityLevel > gmlevel then 1 else 0),
      uint8 (realmColor env id realm), string realm.name, string (env.proxyForRealm id),
      uint32 realm.population, uint8 chars, uint8 realm.timezone, uint8 0x00] ++ entries, amnt)

/-- `build_expansion_realm_packet`. -/
def buildExpansionRealmPacket (c : Conn) : Option (Conn × ByteBuffer) := do
  let (entries, amnt) := expansionEntries env c.acct.gmlevel (c.realmsOfBuild env) c.realmCharAmount
  let listSize := UInt16.ofNat (c.realmsOfBuild env).length
  let pkt ← build ([uint32 0, uint16 listSize] ++ entries ++ [uint8 0x10, uint8 0x00])
  let data ← realmListPacket pkt
  some ({ c with realmCharAmount := amnt }, data)

/-- The `switch` over the client's build that picks the realm list packet. -/
def buildRealmList (c : Conn) (build : SupportedClientBuilds) : Option (Conn × ByteBuffer) :=
  match build with
  | .build112 => (c.buildRealmPacket env).map fun data => (c, data)
  | .build243 | .build313 | .build320 => c.buildExpansionRealmPacket env

/-- The list for the client's build, queued; a build no list is made for ends the
connection. The flag tells the two apart. -/
def sendRealmList (c : Conn) : Option (Conn × Bool) :=
  match SupportedClientBuilds.ofNumber? c.clientBuild with
  | some build => do
    let (c, data) ← c.buildRealmList env build
    some (c.send data, true)
  | none => some (c.die, false)

/-- `handle_realm_list`. -/
def handleRealmList (c : Conn) : Option Conn :=
  if c.state ≠ .authed then some c.die
  else if c.realmCharAmount ≠ [] then (c.sendRealmList env).map Prod.fst
  else some c.getCharAmount

/-- `get_char_amount`, the callback. -/
def getCharAmountAnswered (c : Conn) (amnt : List (UInt8 × UInt8)) : Option Conn := do
  let (c, sent) ← { c with realmCharAmount := amnt }.sendRealmList env
  if sent then c.setVs sha else some c

end Conn

/-! ### Input -/

/-- `handle_input`. A result of `-1` makes the reactor call `handle_close`, which
is `die`. -/
def Conn.handleInput (sha : Sha1) (env : Env) (c : Conn) (raw : Received) : Option Conn :=
  if c.state = .closing then some c.die
  else
    match EAuthCmd.ofByte? raw.cmd with
    | some .authLogonChallenge => some (c.handleAuthLogonChallenge raw)
    | some .authLogonProof => c.handleAuthLogonProof sha env raw
    | some .authReconnectChallenge => some (c.handleAuthReconnectChallenge raw)
    | some .authReconnectProof => c.handleAuthReconnectProof sha env raw
    | some .realmList => c.handleRealmList env
    | none => some c.die

end Morfeusz.Realmd
