import Morfeusz.Lib.Runs
import Morfeusz.Realmd.Handlers

/-!
# Observers, output and the run of a connection

An observer turns the result set of its query into a callback of the socket. With
`handle_output` these are the last pieces of a connection, and the file ends with
the system itself: `Morfeusz.Realmd.step` takes a connection through one event –
a packet, a hang-up, the peer becoming ready for output, the answer of an
outstanding query – and a run is any sequence of events the program survives.

Answers come in any order and with any result set, packets with any content, and
every event with its own surroundings.
-/

namespace Morfeusz.Realmd

open ByteNumbers

variable (sha : Sha1) (env : Env)

/-! ### Observers -/

namespace Conn

/-- `checkIpBanObsv::update`. -/
def checkIpBanObsv (c : Conn) (res : ResultSet) : Option Conn :=
  let res := res.next.2
  c.ipBanChecked sha env (decide (res.rowsCount ≠ 0))

/-- The account `checkAcctObsv` reads out of a row. -/
def readAccount (res : ResultSet) : Option Account := do
  let shaPass ← res.getString 1
  let id ← res.getUint32 2
  let locked ← res.getBool 3
  let lastIp ← res.getString 4
  let gmlevel ← res.getUint8 5
  let failedLogins ← res.getUint8 6
  some { shaPass, id := id.toUInt64, locked, lastIp, gmlevel, failedLogins }

/-- `checkAcctObsv::update`. -/
def checkAcctObsv (c : Conn) (res : ResultSet) : Option Conn :=
  let res := res.next.2
  if res.rowsCount = 0 then c.accountChecked sha env .accountNotfound
  else do
    let active ← res.getUint8 5
    if active ≠ 0 then c.accountChecked sha env .accountBanned
    else
      let acc ← readAccount res
      { c with acct := acc }.accountChecked sha env .accountExists

/-- The session key a text column is read into: a text without a digit leaves the
number alone. -/
def keyOfText (k : ℕ) (text : List UInt8) : ℕ := (bnHex2bn (cStr text)).getD k

/-- `getSessionKeyObsv::update`. -/
def getSessionKeyObsv (c : Conn) (res : ResultSet) : Option Conn :=
  let res := res.next.2
  -- with a row the callback is told there is none, and without one the key is read
  if res.rowsCount ≠ 0 then c.getSessionkeyAnswered env false
  else
    match res.getString 1 with
    -- the exception is caught where the worker has set the future
    | none => some c
    | some text => { c with k := keyOfText c.k text }.getSessionkeyAnswered env true

/-- The `while` loop of `getCharAmntObsv::update`; the rows that are left bound
it. -/
def charAmntLoop : ℕ → ResultSet → List (UInt8 × UInt8) → Option (List (UInt8 × UInt8))
  | 0, _, amnt => some amnt
  | left + 1, res, amnt =>
    match res.next with
    | (true, res) => do
      let id ← res.getUint8 1
      let chars ← res.getUint8 2
      charAmntLoop left res ((id, chars) :: amnt.filter fun entry => entry.1 ≠ id)
    | (false, _) => some amnt

/-- `getCharAmntObsv::update`. Without a row the callback runs twice. -/
def getCharAmntObsv (c : Conn) (res : ResultSet) : Option Conn := do
  let c ← (if res.rowsCount = 0 then c.getCharAmountAnswered sha env [] else some c)
  let amnt ← charAmntLoop res.rows.length res []
  c.getCharAmountAnswered sha env amnt

/-- The observer is called once. -/
def answered (c : Conn) (obs : Observer) : Conn := { c with pending := c.pending.erase obs }

/-- The answer of a query, delivered to its observer. -/
def update (c : Conn) (res : ResultSet) : Observer → Option Conn
  | .checkIpBanObsv => c.checkIpBanObsv sha env res
  | .checkAcctObsv => c.checkAcctObsv sha env res
  | .getSessionKeyObsv => c.getSessionKeyObsv env res
  | .getCharAmntObsv => c.getCharAmntObsv sha env res

/-! ### Output -/

/-- How the loop of `handle_output` ended: the peer refused with an error, or the
loop was left with a queue and the bytes the peer took. -/
structure OutputResult where
  failed : Bool
  queue : List ByteBuffer
  taken : List UInt8

/-- The loop of `handle_output` over the results of the successive `send` calls of
the peer. A short count moves the rest of the buffer to its front, reading from
one byte before the first byte that was not taken. -/
def outputLoop : List ByteBuffer → List ℤ → List UInt8 → Option OutputResult
  | [], _, taken => some { failed := false, queue := [], taken }
  | _ :: _, [], _ => none
  | buffer :: queue, sent :: results, taken =>
    -- a part of the buffer was taken: the rest waits for the next time
    if 0 < sent ∧ sent < buffer.size then
      let n := sent.toNat
      let moved := (buffer.storage.drop (n - 1)).take (buffer.size - n)
      let buffer' := { buffer with storage := moved ++ buffer.storage.drop moved.length }
      some
        { failed := false
          queue := buffer'.resize (buffer.size - n) :: queue
          taken := taken ++ buffer.storage.take n }
    else if sent = -1 then some { failed := true, queue := buffer :: queue, taken }
    else if 0 ≤ sent ∧ sent ≤ buffer.size then
      outputLoop queue results (taken ++ buffer.storage.take sent.toNat)
    else none

/-- `handle_output`. An error makes the reactor drop the registration and call
`handle_close` for it, which does nothing. -/
def handleOutput (c : Conn) (results : List ℤ) : Option Conn :=
  if c.outActive then do
    let r ← outputLoop c.packetQueue results []
    let c := { c with packetQueue := r.queue, delivered := c.delivered ++ r.taken }
    if r.failed then some { c with writeRegistered := false }
    else if r.queue = [] then some { c with writeRegistered := false, outActive := false }
    else some c
  else some c

end Conn

/-! ### The system -/

/-- What can happen to a connection. -/
inductive Action
  /-- `recv` returned bytes. -/
  | input (raw : Received)
  /-- `recv` returned nothing, or an error. -/
  | hangup
  /-- The peer is ready for output; its `send` calls return these results. -/
  | output (results : List ℤ)
  /-- The query of an observer was answered. -/
  | answer (obs : Observer) (res : ResultSet)

/-- An action together with the surroundings it finds. -/
structure Event where
  env : Env
  action : Action

/-- **One step of a connection.** The reactor delivers only what it has registered
the socket for, and an observer is answered once. -/
def step (c : Conn) (e : Event) : Option Conn :=
  match e.action with
  | .input raw => if c.readRegistered then c.handleInput sha e.env raw else none
  | .hangup => if c.readRegistered then some c.die else none
  | .output results => if c.writeRegistered then c.handleOutput results else none
  | .answer obs res =>
    if obs ∈ c.pending ∧ res.Fresh then (c.answered obs).update sha e.env res obs else none

/-- The state a sequence of events takes a connection to. -/
def run (f : Start) (es : List Event) : Option Conn := Runs.run (step sha) (Conn.init f) es

/-- Step `i` of the run of `es` takes `c` to `c'` on `e`. -/
abbrev StepAt (f : Start) (es : List Event) (i : ℕ) (c : Conn) (e : Event) (c' : Conn) : Prop :=
  Runs.StepAt (step sha) (Conn.init f) es i c e c'

/-- A state some run leads to. -/
def Reachable (c : Conn) : Prop := ∃ f es, run sha f es = some c

end Morfeusz.Realmd
