import Morfeusz.Common.ByteBuffer

/-!
# The packets of the game proxy

A packet of a game client is a header – the size of everything behind the size
field, and the opcode – and a payload; `Morfeusz.Proxyd.ClientPkt` is one that has
arrived completely. A packet to the client is built behind a header of the same
kind, the opcode first and the size last.
-/

namespace Morfeusz.Proxyd

open ByteNumbers ByteBuffer

/-! ### Opcodes -/

/-- The opcodes `process_incoming` has a handler for. -/
inductive ClientOpcode
  | cmsgAuthSession
  | cmsgPing
  | cmsgRealmSplit
  | cmsgCharEnum
  | cmsgCharCreate
  | cmsgPlayedTime
  deriving DecidableEq

def ClientOpcode.code : ClientOpcode → UInt32
  | cmsgCharCreate => 0x036
  | cmsgCharEnum => 0x037
  | cmsgPlayedTime => 0x1CC
  | cmsgPing => 0x1DC
  | cmsgAuthSession => 0x1ED
  | cmsgRealmSplit => 0x38C

/-- The case the `switch` of `process_incoming` runs into. -/
def ClientOpcode.ofCode? (code : UInt32) : Option ClientOpcode :=
  [cmsgAuthSession, cmsgPing, cmsgRealmSplit, cmsgCharEnum, cmsgCharCreate, cmsgPlayedTime].find?
    fun op => op.code = code

theorem ClientOpcode.ofCode?_code (op : ClientOpcode) : ofCode? op.code = some op := by
  cases op <;> rfl

theorem ClientOpcode.code_of_ofCode? {code : UInt32} {op : ClientOpcode}
    (h : ofCode? code = some op) : op.code = code := by
  rw [ofCode?] at h
  simpa using List.find?_some h

/-- The opcodes the proxy sends. -/
inductive ServerOpcode
  | smsgCharCreate
  | smsgCharEnum
  | smsgPlayedTime
  | smsgPong
  | smsgAuthChallenge
  | smsgAuthResponse
  | smsgRealmSplit
  deriving DecidableEq

def ServerOpcode.code : ServerOpcode → UInt16
  | smsgCharCreate => 0x03A
  | smsgCharEnum => 0x03B
  | smsgPlayedTime => 0x1CD
  | smsgPong => 0x1DD
  | smsgAuthChallenge => 0x1EC
  | smsgAuthResponse => 0x1EE
  | smsgRealmSplit => 0x38B

/-- The members of `ResponseCodes` the proxy sends. -/
inductive ResponseCodes
  | authOk
  | authUnknownAccount
  | charCreateSuccess
  | charCreateFailed
  | charCreateNameInUse
  | charCreateServerLimit
  | charCreateAccountLimit
  | charCreateExpansion
  | charNameInvalidCharacter
  deriving DecidableEq

def ResponseCodes.code : ResponseCodes → UInt8
  | authOk => 0x0C
  | authUnknownAccount => 0x15
  | charCreateSuccess => 0x2F
  | charCreateFailed => 0x31
  | charCreateNameInUse => 0x32
  | charCreateServerLimit => 0x35
  | charCreateAccountLimit => 0x36
  | charCreateExpansion => 0x39
  | charNameInvalidCharacter => 0x4F

/-! ### What a client sends -/

/-- A packet that has arrived completely, its header in host order. -/
structure ClientPkt where
  siz : UInt16
  opcode : UInt32
  payload : List UInt8
  complete : payload.length + 4 = siz.toNat

/-- The buffer of a packet, its read position behind the header. -/
def ClientPkt.buffer (pkt : ClientPkt) : ByteBuffer where
  rpos := 6
  wpos := 6 + pkt.payload.length
  storage := uint16 pkt.siz ++ uint32 pkt.opcode ++ pkt.payload

@[simp] theorem rpos_buffer (pkt : ClientPkt) : pkt.buffer.rpos = 6 := rfl

@[simp] theorem size_buffer (pkt : ClientPkt) : pkt.buffer.size = 6 + pkt.payload.length := by
  simp only [ClientPkt.buffer, size, List.length_append, length_uint16, length_uint32]

/-- What is left of a packet once a part of its payload is read. -/
@[simp] theorem drop_buffer (pkt : ClientPkt) (n : ℕ) :
    pkt.buffer.storage.drop (6 + n) = pkt.payload.drop n := by
  have hheader : (uint16 pkt.siz ++ uint32 pkt.opcode).length = 6 := by simp
  rw [ClientPkt.buffer, ← List.drop_drop, List.drop_left' hheader]

/-- `CheckSize`. The size counts the opcode. -/
def ClientPkt.checkSize (pkt : ClientPkt) (siz : ℕ) : Bool := siz ≤ pkt.siz.toNat

/-! ### What the proxy sends -/

/-- The header `ServerPkt(op, siz)` leaves in its buffer: the size with the opcode in
it, most significant byte first, and the opcode. -/
def serverHeader (op : ServerOpcode) (siz : UInt16) : List UInt8 :=
  (uint16 (siz + 2)).reverse ++ uint16 op.code

@[simp] theorem length_serverHeader (op : ServerOpcode) (siz : UInt16) :
    (serverHeader op siz).length = 4 := by
  simp [serverHeader]

/-- `ServerPkt(op, siz)` with a list of values appended. -/
def serverPkt (op : ServerOpcode) (siz : UInt16) (values : List (List UInt8)) :
    Option ByteBuffer :=
  values.foldlM append (ofBytes (serverHeader op siz))

/-- The packet `open` sends. -/
def authChallenge (seed : UInt32) : ByteBuffer :=
  ofBytes (serverHeader .smsgAuthChallenge 4 ++ uint32 seed)

theorem serverPkt_authChallenge (seed : UInt32) :
    serverPkt .smsgAuthChallenge 4 [uint32 seed] = some (authChallenge seed) := by
  have hlimit : (serverHeader .smsgAuthChallenge 4).length + [uint32 seed].flatten.length <
      sizeLimit := by
    simp [sizeLimit]
  rw [serverPkt, foldlM_append_eq _ hlimit, authChallenge, List.flatten_singleton]

end Morfeusz.Proxyd
