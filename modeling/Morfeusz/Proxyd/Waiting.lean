import Morfeusz.Proxyd.Observers

/-!
# The handler that waits

`handle_cmsg_char_create` makes three queries and waits for the answer of each. While it
waits it keeps its own thread and no other: the reactor has no more packets for its socket,
but the workers of the database go on, and what they call back is carried out on the socket
in between. So the handler is here what it is, four pieces with a query between one and the
next, and `Morfeusz.Proxyd.ProxySocket.step` takes a socket through one event.

Where each answer comes at once the pieces are the handler
(`Morfeusz.Proxyd.Conn.handleCmsgCharCreate_eq`), and what happens to the socket is a step of
its connection (`Morfeusz.Proxyd.Conn.receive_settle`).
-/

namespace Morfeusz.Proxyd

open ByteNumbers ByteBuffer

/-! ### The pieces -/

/-- The queries of `handle_cmsg_char_create`. -/
inductive Query
  | guidFromName
  | numchar
  | charCount
  deriving DecidableEq

/-- `handle_cmsg_char_create` while it waits for the answer to a query. -/
structure Creation where
  env : Env
  race : UInt8
  pclass : UInt8
  name : List UInt8
  /-- What is left of the packet. -/
  buf : ByteBuffer
  query : Query
  /-- The account of the socket when the query was made. -/
  account : UInt32

namespace Creation

/-- The request whose answer is waited for. -/
def request (h : Creation) : ProxydRequest :=
  match h.query with
  | .guidFromName => Conn.guidFromName h.name
  | .numchar => { statement := .getNumchar, params := [addUint32 1 h.account] }
  | .charCount => { statement := .getCharCount, params := [addUint32 1 h.account] }

/-- A query is made. -/
def ask (h : Creation) (c : Conn) (query : Query) : Conn × Option Creation :=
  let h := { h with query, account := c.acct.id }
  (c.enqueue (.request h.request), some h)

/-- The answer lets the handler go on: the name is free, or the limit is not reached. -/
def GoesOn (h : Creation) (res : ResultSet) : Prop :=
  match h.query with
  | .guidFromName => res.rowsCount = 0
  | .numchar => Conn.atLimit res 50 = some false
  | .charCount => Conn.atLimit res 10 = some false

end Creation

namespace Conn

variable (env : Env)

/-- `handle_cmsg_char_create` up to its first query. -/
def beginCharCreate (c : Conn) (pkt : ClientPkt) : Option (Conn × Option Creation) :=
  if pkt.checkSize (1 + 1 + 1 + 1 + 1 + 1 + 1 + 1 + 1 + 1) = false then some (c, none)
  else
    let (name, buf) := pkt.buffer.readString
    if pkt.checkSize ((name.length + 1) + 1 + 1 + 1 + 1 + 1 + 1 + 1 + 1 + 1) = false then
      some (c, none)
    else do
      let (race, buf) ← buf.readUint8
      let (pclass, buf) ← buf.readUint8
      match c.checkCharacter env race pclass name with
      | .error response => (c.sendCharCreate response).map fun c => (c, none)
      | .ok name =>
        let h : Creation :=
          { env, race, pclass, name, buf, query := .guidFromName, account := c.acct.id }
        some (h.ask c .guidFromName)

/-- `handle_cmsg_char_create` from an answer up to its next query. -/
def resume (c : Conn) (h : Creation) (res : ResultSet) : Option (Conn × Option Creation) :=
  match h.query with
  | .guidFromName =>
    if res.rowsCount ≠ 0 then (c.sendCharCreate .charCreateNameInUse).map fun c => (c, none)
    else some (h.ask c .numchar)
  | .numchar => do
    let full ← atLimit res 50
    if full then (c.sendCharCreate .charCreateAccountLimit).map fun c => (c, none)
    else some (h.ask c .charCount)
  | .charCount => do
    let full ← atLimit res 10
    if full then (c.sendCharCreate .charCreateServerLimit).map fun c => (c, none)
    else (c.insertCharacter h.env h.race h.pclass h.name h.buf).map fun c => (c, none)

/-- A handler is answered as the surroundings say, each query at once. -/
def settle : ℕ → Conn × Option Creation → Option Conn
  | _, (c, none) => some c
  | 0, (_, some _) => none
  | n + 1, (c, some h) => (c.resume h (env.answer h.request)).bind (settle n)

variable {env} {c c' : Conn} {pkt : ClientPkt}

theorem settle_none (n : ℕ) (c : Conn) : settle env n (c, none) = some c := by
  cases n with
  | zero => rfl
  | succ n => rfl

/-- A handler that has sent its answer is at its end. -/
theorem bind_settle_map (n : ℕ) (c? : Option Conn) :
    (c?.map fun c => (c, (none : Option Creation))).bind (settle env n) = c? := by
  cases c? with
  | none => rfl
  | some c => exact settle_none n c

/-- A piece either answers, or makes the next query. -/
theorem bind_settle_ite (n : ℕ) (p : Prop) [Decidable p] (c? : Option Conn)
    (next : Conn × Option Creation) :
    (if p then c?.map fun c => (c, (none : Option Creation)) else some next).bind (settle env n) =
      if p then c? else settle env n next := by
  split
  · exact bind_settle_map n c?
  · rfl

/-- The pieces from the first query on are `createCharacter`. -/
theorem createCharacter_eq {h : Creation} (henv : h.env = env) :
    settle env 3 (h.ask c .guidFromName) = c.createCharacter env h.race h.pclass h.name h.buf := by
  rw [createCharacter]
  refine (bind_settle_ite _ _ _ _).trans ?_
  congr 1
  -- the characters of the account, everywhere and then here
  refine (Option.bind_assoc _ _ _).trans (Option.bind_congr fun full _ => ?_)
  refine (bind_settle_ite _ _ _ _).trans ?_
  congr 1
  refine (Option.bind_assoc _ _ _).trans (Option.bind_congr fun full _ => ?_)
  dsimp only
  split
  · exact bind_settle_map _ _
  · rw [bind_settle_map, henv]
    rfl

/-- **The pieces are the handler.** -/
theorem handleCmsgCharCreate_eq :
    (c.beginCharCreate env pkt).bind (settle env 3) = c.handleCmsgCharCreate env pkt := by
  rw [beginCharCreate, handleCmsgCharCreate]
  split
  · rfl
  dsimp only
  split
  · rfl
  refine (Option.bind_assoc _ _ _).trans (Option.bind_congr fun r _ => ?_)
  obtain ⟨race, buf₁⟩ := r
  refine (Option.bind_assoc _ _ _).trans (Option.bind_congr fun p _ => ?_)
  obtain ⟨pclass, buf₂⟩ := p
  dsimp only
  cases c.checkCharacter env race pclass pkt.buffer.readString.1 with
  | error response => exact bind_settle_map _ _
  | ok name => exact createCharacter_eq rfl

/-- A packet, up to the first query where it has one. -/
def receive (env : Env) (c : Conn) (pkt : ClientPkt) : Option (Conn × Option Creation) :=
  if c.Held ∧ c.readRegistered then
    match ClientOpcode.ofCode? pkt.opcode with
    | some .cmsgCharCreate => c.beginCharCreate env pkt
    | _ => (c.processIncoming env pkt).map fun c => (c, none)
  else none

/-- **Where the answers come at once, a packet is a step of the connection.** -/
theorem receive_settle (sha : Sha1) (hmac : Hmac) :
    (c.receive env pkt).bind (settle env 3) = step sha hmac c ⟨env, .input pkt⟩ := by
  rw [receive, step]
  dsimp only
  by_cases hheld : c.Held
  · rw [if_pos hheld]
    by_cases hread : c.readRegistered = true
    · rw [if_pos ⟨hheld, hread⟩, if_pos hread]
      split
      · next hop =>
        rw [processIncoming.eq_def, hop]
        exact handleCmsgCharCreate_eq
      · exact bind_settle_map _ _
    · rw [if_neg fun h => hread h.2, if_neg hread]
      rfl
  · rw [if_neg fun h => hheld h.1, if_neg hheld]
    rfl

end Conn

/-! ### The socket -/

/-- A socket, with its handler where it waits. -/
structure ProxySocket where
  conn : Conn
  creation : Option Creation

/-- What can happen to a socket. -/
inductive SocketEvent
  /-- What can happen to its connection. -/
  | event (e : Event)
  /-- The query of the handler that waits was answered. -/
  | resume (res : ResultSet)

namespace ProxySocket

variable (sha : Sha1) (hmac : Hmac)

/-- The socket after its constructor and `open`. -/
def init (f : Start) : ProxySocket := { conn := .init f, creation := none }

/-- **One step of a socket.** The reactor delivers a packet or a hang-up when no handler is
under way, the workers an answer at any time. -/
def step (s : ProxySocket) : SocketEvent → Option ProxySocket
  | .event e =>
    match e.action, s.creation with
    | .input pkt, none =>
      (s.conn.receive e.env pkt).map fun (conn, creation) => { conn, creation }
    | .hangup, none => (Proxyd.step sha hmac s.conn e).map fun conn => { conn, creation := none }
    | .answer _ _, creation =>
      (Proxyd.step sha hmac s.conn e).map fun conn => { conn, creation }
    | _, some _ => none
  | .resume res => do
    let h ← s.creation
    (s.conn.resume h res).map fun (conn, creation) => { conn, creation }

/-- The state a sequence of events takes a socket to. -/
def run (f : Start) (es : List SocketEvent) : Option ProxySocket :=
  Runs.run (step sha hmac) (init f) es

/-- Step `i` of the run of `es` takes `s` to `s'` on `e`. -/
abbrev StepAt (f : Start) (es : List SocketEvent) (i : ℕ) (s : ProxySocket) (e : SocketEvent)
    (s' : ProxySocket) : Prop :=
  Runs.StepAt (step sha hmac) (init f) es i s e s'

end ProxySocket

end Morfeusz.Proxyd
