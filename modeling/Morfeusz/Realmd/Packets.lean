import Morfeusz.Common.ByteBuffer

/-!
# The packets of the realm daemon

What a client sends arrives in `raw_buf`, a buffer of 4096 bytes that is zeroed
before every `recv` and then read through packed structures: every field of a
client packet is a slice of that buffer, whatever the client really sent. What
the daemon sends is built value by value in a `ByteBuffer`; the replies of a
fixed shape are collected here, the two realm lists with the state they read.
-/

namespace Morfeusz.Realmd

open ByteNumbers ByteBuffer

/-! ### Commands and result codes -/

/-- `eAuthCmd`, as far as `handle_input` knows it. -/
inductive EAuthCmd
  | authLogonChallenge
  | authLogonProof
  | authReconnectChallenge
  | authReconnectProof
  | realmList
  deriving DecidableEq

/-- The byte of a command. -/
def EAuthCmd.code : EAuthCmd → UInt8
  | authLogonChallenge => 0x00
  | authLogonProof => 0x01
  | authReconnectChallenge => 0x02
  | authReconnectProof => 0x03
  | realmList => 0x10

/-- The command of a byte. -/
def EAuthCmd.ofByte? (b : UInt8) : Option EAuthCmd :=
  [authLogonChallenge, authLogonProof, authReconnectChallenge, authReconnectProof,
    realmList].find? fun cmd => cmd.code = b

/-- The members of `eAuthResults` the daemon sends. -/
inductive EAuthResults
  | realmAuthSuccess
  | realmAuthAccountBanned
  | realmAuthNoMatch
  | realmAuthWrongBuildNumber
  | realmAuthAccountLocked
  deriving DecidableEq

def EAuthResults.code : EAuthResults → UInt8
  | realmAuthSuccess => 0x00
  | realmAuthAccountBanned => 0x03
  | realmAuthNoMatch => 0x04
  | realmAuthWrongBuildNumber => 0x09
  | realmAuthAccountLocked => 0x10

/-- `LOGIN_OK`. -/
def loginOk : UInt8 := 0x00

/-! ### Supported client builds -/

/-- `SupportedClientBuilds`. -/
inductive SupportedClientBuilds
  | build112
  | build243
  | build313
  | build320
  deriving DecidableEq

def SupportedClientBuilds.number : SupportedClientBuilds → UInt16
  | build112 => 5875
  | build243 => 8606
  | build313 => 9947
  | build320 => 10505

/-- The case a `switch` over a client's build runs into. -/
def SupportedClientBuilds.ofNumber? (number : UInt16) : Option SupportedClientBuilds :=
  [build112, build243, build313, build320].find? fun b => b.number = number

def isSupportedClientBuild (build : UInt16) : Bool :=
  (SupportedClientBuilds.ofNumber? build).isSome

/-! ### What a client sends -/

/-- What one `recv` returned: at least one byte and no more than were asked for. -/
structure Received where
  bytes : List UInt8
  ne_nil : bytes ≠ []
  length_le : bytes.length ≤ 4096

/-- `raw_buf` after the `recv`. -/
def Received.rawBuf (r : Received) : List UInt8 :=
  r.bytes ++ List.replicate (4096 - r.bytes.length) 0

/-- A field of a packed structure laid over `raw_buf`. -/
def Received.field (r : Received) (offset length : ℕ) : List UInt8 :=
  (r.rawBuf.drop offset).take length

theorem Received.length_rawBuf (r : Received) : r.rawBuf.length = 4096 := by
  have := r.length_le
  simp [rawBuf]
  omega

theorem Received.length_field (r : Received) {offset length : ℕ} (h : offset + length ≤ 4096) :
    (r.field offset length).length = length := by
  rw [field, List.length_take, List.length_drop, r.length_rawBuf]
  omega

/-- `raw_buf[0]`. -/
def Received.cmd (r : Received) : UInt8 := r.bytes.headD 0

/-- `AUTH_LOGON_CHALLENGE_C`: the build, and the name with its length. The name is
an array at the end of the structure, so as a pointer it reaches to the end of the
buffer. -/
def Received.build (r : Received) : UInt16 := UInt16.ofNat (leVal (r.field 11 2))

def Received.iLen (r : Received) : UInt8 := (r.field 33 1).headD 0

def Received.i (r : Received) : List UInt8 := r.rawBuf.drop 34

/-- `AUTH_LOGON_PROOF_C`: the public value of the client and its proof. -/
def Received.publicA (r : Received) : List UInt8 := r.field 1 32

def Received.proofM1 (r : Received) : List UInt8 := r.field 33 20

/-- `AUTH_RECONNECT_PROOF_C`: the client's challenge and its proof. -/
def Received.proofR1 (r : Received) : List UInt8 := r.field 1 16

def Received.proofR2 (r : Received) : List UInt8 := r.field 17 20

theorem Received.length_publicA (r : Received) : r.publicA.length = 32 :=
  r.length_field (by norm_num)

theorem Received.length_proofM1 (r : Received) : r.proofM1.length = 20 :=
  r.length_field (by norm_num)

/-- A field that lies inside what was received is read from there. -/
theorem Received.field_of_append {r : Received} {front mid back : List UInt8}
    (h : r.bytes = front ++ mid ++ back) : r.field front.length mid.length = mid := by
  rw [field, rawBuf, h]
  simp [List.append_assoc]

/-! ### What the daemon sends -/

/-- The three-byte answer to a logon challenge that is turned down. -/
def authReply (result : EAuthResults) : ByteBuffer :=
  ofBytes [EAuthCmd.authLogonChallenge.code, 0x00, result.code]

/-- `build_logon_proof_packet`. -/
def buildLogonProofPacket (hamk : List UInt8) : Option ByteBuffer :=
  build [uint8 EAuthCmd.authLogonProof.code, uint8 0, hamk, uint32 0]

/-- `build_expansion_logon_proof_packet`. -/
def buildExpansionLogonProofPacket (hamk : List UInt8) : Option ByteBuffer :=
  build [uint8 EAuthCmd.authLogonProof.code, uint8 loginOk, hamk, uint32 0x00800000, uint32 0,
    uint16 0]

/-- The proof packet of a client's build. -/
def logonProofPacket (build : SupportedClientBuilds) (hamk : List UInt8) : Option ByteBuffer :=
  match build with
  | .build112 => buildLogonProofPacket hamk
  | .build243 | .build313 | .build320 => buildExpansionLogonProofPacket hamk

/-- The packet of `get_sessionkey`, with the sixteen bytes of the challenge. -/
def reconnectChallengePacket (rpr : List UInt8) : Option ByteBuffer :=
  build [uint8 EAuthCmd.authReconnectChallenge.code, uint8 0, rpr, uint64 0, uint64 0]

/-- The packet an accepted reconnect proof is answered with. -/
def reconnectProofPacket : ByteBuffer :=
  ofBytes [EAuthCmd.authReconnectProof.code, 0x00, 0x00, 0x00]

/-- A realm list packet. -/
def IsRealmList (pkt : ByteBuffer) : Prop := pkt.storage.head? = some EAuthCmd.realmList.code

/-- A logon challenge the daemon has accepted: `REALM_AUTH_SUCCESS`. -/
def IsAuthSuccess (pkt : ByteBuffer) : Prop :=
  pkt.storage.take 3 =
    [EAuthCmd.authLogonChallenge.code, 0x00, EAuthResults.realmAuthSuccess.code]

instance (pkt : ByteBuffer) : Decidable (IsRealmList pkt) := inferInstanceAs (Decidable (_ = _))

instance (pkt : ByteBuffer) : Decidable (IsAuthSuccess pkt) := inferInstanceAs (Decidable (_ = _))

/-- The three values `authReply` collects, appended one by one. -/
theorem build_authReply (result : EAuthResults) :
    build [uint8 EAuthCmd.authLogonChallenge.code, uint8 0x00, uint8 result.code] =
      some (authReply result) :=
  build_eq (by simp [uint8, sizeLimit])

theorem build_reconnectProofPacket :
    build [uint8 EAuthCmd.authReconnectProof.code, uint8 0x00, uint16 0x00] =
      some reconnectProofPacket :=
  build_eq (by simp [uint8, uint16, sizeLimit])

/-- The proof packet of every build can be built. -/
theorem exists_logonProofPacket (build : SupportedClientBuilds) {hamk : List UInt8}
    (h : hamk.length = 20) : ∃ pkt, logonProofPacket build hamk = some pkt := by
  cases build <;> exact ⟨_, build_eq
    (by simp [h, uint8, uint16, uint32, sizeLimit])⟩

/-- The proof packet of every build starts with its command. -/
theorem head_logonProofPacket {build : SupportedClientBuilds} {hamk : List UInt8}
    {pkt : ByteBuffer} (h : logonProofPacket build hamk = some pkt) :
    pkt.storage.head? = some EAuthCmd.authLogonProof.code := by
  cases build with
  | build112 => rw [eq_ofBytes_of_build h]; rfl
  | build243 | build313 | build320 => rw [eq_ofBytes_of_build h]; rfl

theorem head_reconnectChallengePacket {rpr : List UInt8} {pkt : ByteBuffer}
    (h : reconnectChallengePacket rpr = some pkt) :
    pkt.storage.head? = some EAuthCmd.authReconnectChallenge.code := by
  rw [eq_ofBytes_of_build h]
  rfl

theorem reconnectChallengePacket_eq {rpr : List UInt8} (h : rpr.length = 16) :
    reconnectChallengePacket rpr = some (ofBytes (0x02 :: 0x00 :: rpr ++ List.replicate 16 0)) := by
  rw [reconnectChallengePacket, build_eq
    (by simp [h, uint8, uint64, sizeLimit])]
  simp [uint8, uint64, EAuthCmd.code, List.replicate_succ]

end Morfeusz.Realmd
