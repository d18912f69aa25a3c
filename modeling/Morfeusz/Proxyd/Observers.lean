import Morfeusz.Lib.Runs
import Morfeusz.Proxyd.Handlers

/-!
# Observers and the run of a proxy connection

The two observers turn the answer of a query into a callback of the socket; the one of
the account stores it first. `Morfeusz.Proxyd.step` takes a connection through one
event – a packet, a hang-up, the answer of an outstanding query – and a run is any
sequence of events the program survives. A handler that waits for an answer of its own has
it at once here; what can come in between is the subject of `Morfeusz.Proxyd.ProxySocket`.
-/

namespace Morfeusz.Proxyd

open ByteNumbers

/-! ### Observers -/

namespace Conn

variable (sha : Sha1) (hmac : Hmac) (env : Env)

/-- The account `getAcctObsv` reads out of a row. -/
def readAccount (res : ResultSet) : Option Account := do
  let id ← res.getUint32 1
  let gmlevel ← res.getUint8 2
  let sessionkey ← res.getString 3
  let shaPassHash ← res.getString 4
  let v ← res.getString 5
  let s ← res.getString 6
  let expansion ← res.getUint8 7
  some { id, gmlevel, sessionkey, shaPassHash, v, s, expansion }

/-- `getAcctObsv::update`. -/
def getAcctObsv (c : Conn) (res : ResultSet) : Option Conn :=
  if res.rowsCount = 0 then c.accountRetrieved sha hmac env false
  else do
    let acct ← readAccount res.next.2
    -- the row is in the socket before anything of it is checked
    { c with acct }.accountRetrieved sha hmac env true

/-- The character `getCharsObsv` reads out of a row. -/
def readCharacter (res : ResultSet) : Option Character := do
  let guid ← res.getUint64 1
  let name ← res.getString 2
  let race ← res.getUint8 3
  let pclass ← res.getUint8 4
  let gender ← res.getUint8 5
  let level ← res.getUint8 6
  let bytes ← res.getUint32 7
  let bytes2 ← res.getUint8 8
  let x ← res.getFloat 9
  let y ← res.getFloat 10
  let z ← res.getFloat 11
  let map ← res.getUint32 12
  let zone ← res.getUint32 13
  some { guid, race, pclass, gender, bytes, bytes2, level, name, x, y, z, map, zone }

/-- The `while` loop of `getCharsObsv::update`; the rows that are left bound it. -/
def charsLoop : ℕ → ResultSet → Option (List Character)
  | 0, _ => some []
  | left + 1, res =>
    match res.next with
    | (true, res) => do
      let ch ← readCharacter res
      let chars ← charsLoop left res
      some (ch :: chars)
    | (false, _) => some []

/-- `getCharsObsv::update`. -/
def getCharsObsv (c : Conn) (res : ResultSet) : Option Conn :=
  if res.rowsCount = 0 then c.charactersRetrieved false
  else do
    let characters ← charsLoop res.rows.length res
    { c with characters }.charactersRetrieved true

/-- The observer is called once. -/
def answered (c : Conn) (obs : Observer) : Conn := { c with pending := c.pending.erase obs }

/-- The answer of a query, delivered to its observer. -/
def update (c : Conn) (res : ResultSet) : Observer → Option Conn
  | .getAcctObsv => c.getAcctObsv sha hmac env res
  | .getCharsObsv => c.getCharsObsv res

end Conn

/-! ### The system -/

/-- What can happen to a connection. -/
inductive Action
  /-- A packet has arrived completely. -/
  | input (pkt : ClientPkt)
  /-- `recv` returned nothing, or an error. -/
  | hangup
  /-- The query of an observer was answered. -/
  | answer (obs : Observer) (res : ResultSet)

/-- An action together with the surroundings it finds. -/
structure Event where
  env : Env
  action : Action

variable (sha : Sha1) (hmac : Hmac)

/-- **One step of a connection**, in which a handler goes through. A socket nothing refers to
is gone; the reactor delivers packets until it is told to stop, and an observer is answered
once. -/
def step (c : Conn) (e : Event) : Option Conn :=
  if c.Held then
    match e.action with
    | .input pkt => if c.readRegistered then c.processIncoming e.env pkt else none
    | .hangup => if c.readRegistered then some { c.die with readRegistered := false } else none
    | .answer obs res =>
      if obs ∈ c.pending ∧ res.Fresh then (c.answered obs).update sha hmac e.env res obs else none
  else none

/-- The state a sequence of events takes a connection to. -/
def run (f : Start) (es : List Event) : Option Conn := Runs.run (step sha hmac) (Conn.init f) es

/-- Step `i` of the run of `es` takes `c` to `c'` on `e`. -/
abbrev StepAt (f : Start) (es : List Event) (i : ℕ) (c : Conn) (e : Event) (c' : Conn) : Prop :=
  Runs.StepAt (step sha hmac) (Conn.init f) es i c e c'

/-- A state some run leads to. -/
def Reachable (c : Conn) : Prop := ∃ f es, run sha hmac f es = some c

end Morfeusz.Proxyd
