import Morfeusz.Proxyd.UniqueNames

/-!
# What a client reads of its own characters

A client is told that its character is created when the transaction is put into the
queue, and what it asks for next is behind it in the queue. But the two are taken out by
any two workers. The list has the character where the transaction has been committed by
the time the list is queried, in the snapshot the query reads, and for the account that is
asked for (`Morfeusz.Proxyd.own_writes_listed`).
-/

namespace Morfeusz.Proxyd

open ByteNumbers ByteBuffer

/-! ### The list -/

/-- The character `getCharsObsv` makes of a row. -/
def CharacterRow.character (row : CharacterRow) : Character where
  guid := row.guid.toUInt64
  race := row.race
  pclass := row.pclass
  gender := row.gender
  bytes := row.playerBytes
  bytes2 := row.playerBytes2.toUInt8
  level := row.level
  name := row.name
  x := row.positionX
  y := row.positionY
  z := row.positionZ
  map := row.map
  zone := row.zone

namespace Conn

variable {res : ResultSet} {row : CharacterRow}

/-- **A row is read as it stands in the table.** -/
theorem readCharacter_charColumns (h : res.ReadsRow (Database.charColumns row)) :
    readCharacter res = some row.character := by
  have hguid : res.getUint64 1 = some row.guid.toUInt64 :=
    ResultSet.getUint64_of_readsAs (h 0 _ rfl)
  have hname : res.getString 2 = some row.name := h 1 _ rfl
  have hrace : res.getUint8 3 = some row.race := ResultSet.getUint8_of_readsAs (h 2 _ rfl)
  have hclass : res.getUint8 4 = some row.pclass := ResultSet.getUint8_of_readsAs (h 3 _ rfl)
  have hgender : res.getUint8 5 = some row.gender := ResultSet.getUint8_of_readsAs (h 4 _ rfl)
  have hlevel : res.getUint8 6 = some row.level := ResultSet.getUint8_of_readsAs (h 5 _ rfl)
  have hbytes : res.getUint32 7 = some row.playerBytes :=
    ResultSet.getUint32_of_readsAs (h 6 _ rfl)
  have hbytes2 : res.getUint8 8 = some row.playerBytes2.toUInt8 :=
    ResultSet.getUint8_of_readsAs_uint32 (h 7 _ rfl)
  have hx : res.getFloat 9 = some row.positionX := ResultSet.getUint32_of_readsAs (h 8 _ rfl)
  have hy : res.getFloat 10 = some row.positionY := ResultSet.getUint32_of_readsAs (h 9 _ rfl)
  have hz : res.getFloat 11 = some row.positionZ := ResultSet.getUint32_of_readsAs (h 10 _ rfl)
  have hmap : res.getUint32 12 = some row.map := ResultSet.getUint32_of_readsAs (h 11 _ rfl)
  have hzone : res.getUint32 13 = some row.zone := ResultSet.getUint32_of_readsAs (h 12 _ rfl)
  rw [readCharacter, hguid, hname, hrace, hclass, hgender, hlevel, hbytes, hbytes2, hx, hy, hz,
    hmap, hzone]
  rfl

/-- **The loop reads every row there is.** -/
theorem charsLoop_charColumns {rows : List CharacterRow} {left : ℕ}
    (h : res.Yields (rows.map Database.charColumns)) (hle : rows.length ≤ left) :
    charsLoop left res = some (rows.map CharacterRow.character) := by
  induction rows generalizing left res with
  | nil =>
    cases left with
    | zero => rfl
    | succ left =>
      obtain ⟨found, next, hnext⟩ : ∃ found next, res.next = (found, next) := ⟨_, _, rfl⟩
      have hfound : res.next.1 = false := h
      rw [hnext] at hfound
      obtain rfl : found = false := hfound
      rw [charsLoop, hnext]
      rfl
  | cons row rows ih =>
    obtain ⟨left, rfl⟩ := Nat.exists_eq_add_of_le' (Nat.one_le_of_lt (Nat.lt_of_succ_le hle))
    obtain ⟨hfound, hrow, hrest⟩ := h
    obtain ⟨found, next, hnext⟩ : ∃ found next, res.next = (found, next) := ⟨_, _, rfl⟩
    rw [hnext] at hfound hrow hrest
    obtain rfl : found = true := hfound
    rw [charsLoop, hnext]
    dsimp only
    rw [readCharacter_charColumns hrow, ih hrest (Nat.le_of_succ_le_succ hle)]
    rfl

/-- The columns of a row are thirteen, and hold what they can hold. -/
theorem fits_charColumns (row : CharacterRow) : ∀ v ∈ Database.charColumns row, v.Fits := by
  have hfits8 (n : UInt8) : (SqlValue.integer 1 n.toNat).Fits := ⟨_, rfl, n.toNat_lt⟩
  have hfits32 (n : UInt32) : (SqlValue.integer 4 n.toNat).Fits := ⟨_, rfl, n.toNat_lt⟩
  rw [Database.charColumns]
  simp only [List.forall_mem_cons, hfits8, hfits32, true_and]
  exact ⟨trivial, List.forall_mem_nil _⟩

/-- The answer of MySQL to the query of the characters. -/
theorem returns_charColumns (rows : List CharacterRow) :
    ({ engine := .mysql, numFields := 13, rows := rows.map Database.charColumns } :
      ResultSet).Returns (rows.map Database.charColumns) := by
  refine ResultSet.returns_of_mysql rfl rfl ?_
  intro columns hcolumns
  obtain ⟨row, -, rfl⟩ := List.mem_map.mp hcolumns
  exact ⟨le_rfl, fits_charColumns row⟩

/-- The list that is sent holds a character: it is among those the client counts. -/
def Lists (c c' : Conn) (row : CharacterRow) : Prop :=
  (∃ pkt, serverPkt .smsgCharEnum 100 (uint8 (UInt8.ofNat c'.characters.length) ::
      c'.characters.flatMap characterValues) = some pkt ∧
    c'.packetQueue = c.packetQueue ++ [pkt]) ∧
  row.character ∈ c'.characters.take (UInt8.ofNat c'.characters.length).toNat

/-- **What the observer sends** is the rows of the answer, where there is one. -/
theorem lists_of_getCharsObsv {c c' : Conn} {rows : List CharacterRow} {row : CharacterRow}
    (h : c.getCharsObsv
      { engine := .mysql, numFields := 13, rows := rows.map Database.charColumns } = some c')
    (hmem : row ∈ rows) (hlt : rows.length < 256) : c.Lists c' row := by
  have hne : (rows.map Database.charColumns).length ≠ 0 := by
    rw [List.length_map]
    exact (List.length_pos_of_mem hmem).ne'
  rw [getCharsObsv, ResultSet.rowsCount] at h
  dsimp only at h
  rw [if_neg hne, charsLoop_charColumns (returns_charColumns rows).yields
    (List.length_map _).ge] at h
  obtain ⟨characters, hcharacters, h⟩ := Option.bind_eq_some_iff.mp h
  obtain rfl := Option.some.inj hcharacters
  rw [charactersRetrieved] at h
  obtain ⟨pkt, hpkt, hc'⟩ := Option.bind_eq_some_iff.mp h
  obtain rfl := Option.some.inj hc'
  refine ⟨⟨pkt, hpkt, rfl⟩, ?_⟩
  have hlen : (rows.map CharacterRow.character).length < 256 := by rwa [List.length_map]
  dsimp only [send]
  rw [UInt8.toNat_ofNat', Nat.mod_eq_of_lt hlen, List.take_length]
  exact List.mem_map_of_mem hmem

/-- An answer is delivered to the observer of the list. -/
theorem getCharsObsv_of_step {sha : Sha1} {hmac : Hmac} {env : Env} {c c' : Conn} {res : ResultSet}
    (h : step sha hmac c ⟨env, .answer .getCharsObsv res⟩ = some c') :
    (c.answered .getCharsObsv).getCharsObsv res = some c' := by
  rw [step] at h
  split at h
  · dsimp only at h
    split at h
    · exact h
    · cases h
  · cases h

/-! ### The success -/

/-- The client is told of an answer to `CMSG_CHAR_CREATE`. -/
def Tells (c c' : Conn) (response : ResponseCodes) : Prop :=
  ∃ pkt, serverPkt .smsgCharCreate 1 [uint8 response.code] = some pkt ∧
    c'.packetQueue = c.packetQueue ++ [pkt]

/-- The client is told that its character was created. -/
def ToldSuccess (c c' : Conn) : Prop :=
  ∃ pkt, serverPkt .smsgCharCreate 1 [uint8 ResponseCodes.charCreateSuccess.code] = some pkt ∧
    c'.packetQueue = c.packetQueue ++ [pkt]

/-- Different answers are told with different codes. -/
theorem code_injective {response response' : ResponseCodes}
    (h : response.code = response'.code) : response = response' := by
  revert h
  cases response <;> cases response' <;> decide

theorem charCreate_injective {response response' : ResponseCodes}
    (h : serverPkt .smsgCharCreate 1 [uint8 response.code] =
      serverPkt .smsgCharCreate 1 [uint8 response'.code]) : response = response' := by
  have hpkt (r : ResponseCodes) : serverPkt .smsgCharCreate 1 [uint8 r.code] =
      some (ofBytes (serverHeader .smsgCharCreate 1 ++ [r.code])) := by
    rw [serverPkt, List.foldlM_cons, append_ofBytes (by rw [length_serverHeader]; decide)]
    rfl
  rw [hpkt, hpkt] at h
  have hbytes := congrArg ByteBuffer.storage (Option.some.inj h)
  exact code_injective (List.head_eq_of_cons_eq (List.append_cancel_left hbytes))

/-- The client is told of one answer. -/
theorem Tells.unique {c c' : Conn} {response response' : ResponseCodes}
    (h : c.Tells c' response) (h' : c.Tells c' response') : response = response' := by
  obtain ⟨pkt, hpkt, hqueue⟩ := h
  obtain ⟨pkt', hpkt', hqueue'⟩ := h'
  have hsame := List.append_cancel_left (hqueue.symm.trans hqueue')
  obtain rfl := List.head_eq_of_cons_eq hsame
  exact charCreate_injective (hpkt.trans hpkt'.symm)

theorem sendCharCreate_some {c c' : Conn} {response : ResponseCodes}
    (h : c.sendCharCreate response = some c') : c.Tells c' response := by
  rw [sendCharCreate] at h
  obtain ⟨pkt, hpkt, h⟩ := Option.bind_eq_some_iff.mp h
  obtain rfl := Option.some.inj h
  exact ⟨pkt, hpkt, rfl⟩

/-- Another answer is no success. -/
theorem not_toldSuccess_of_send {c c' : Conn} {response : ResponseCodes}
    {creation : Option Creation} (hne : response ≠ .charCreateSuccess)
    (h : (c.sendCharCreate response).map (fun c => (c, (none : Option Creation))) =
      some (c', creation)) : ¬c.ToldSuccess c' := by
  obtain ⟨c₁, hc₁, heq⟩ := Option.map_eq_some_iff.mp h
  obtain ⟨rfl, -⟩ := Prod.mk.inj heq
  exact fun htold => hne ((sendCharCreate_some hc₁).unique htold)

/-- A handler that waits again has told nothing. -/
theorem not_toldSuccess_of_eq {c c' : Conn} (h : c'.packetQueue = c.packetQueue) :
    ¬c.ToldSuccess c' := by
  rintro ⟨pkt, -, hqueue⟩
  have hnil := List.append_right_eq_self.mp (hqueue.symm.trans h)
  cases hnil

theorem toldSuccess_of_insertCharacter {c c' : Conn} {env : Env} {race pclass : UInt8}
    {name : List UInt8} {buf : ByteBuffer}
    (h : c.insertCharacter env race pclass name buf = some c') : c.ToldSuccess c' := by
  obtain ⟨_, _, _, _, _, _, hsend⟩ := sendCharCreate_of_insertCharacter h
  obtain ⟨pkt, hpkt, hqueue⟩ := sendCharCreate_some hsend
  exact ⟨pkt, hpkt, hqueue⟩

/-- **A client is told of a success exactly when the transaction is put into the queue.** -/
theorem toldSuccess_iff {c c' : Conn} {h : Creation} {res : ResultSet} {creation : Option Creation}
    (hres : c.resume h res = some (c', creation)) :
    c.ToldSuccess c' ↔
      ∃ ops, CreatesCharacter h.name ops ∧ c'.operations = c.operations ++ [.transaction ops] := by
  have hadds : c.Requests c' →
      ¬∃ ops, CreatesCharacter h.name ops ∧ c'.operations = c.operations ++ [.transaction ops] := by
    rintro ⟨new, hnew, hrequests⟩ ⟨ops, -, hops⟩
    obtain rfl := List.append_cancel_left (hnew.symm.trans hops)
    obtain ⟨r, hr⟩ := hrequests _ (List.mem_singleton_self _)
    cases hr
  have hother : ∀ {response}, response ≠ .charCreateSuccess →
      (c.sendCharCreate response).map (fun c => (c, (none : Option Creation))) =
        some (c', creation) → ¬c.ToldSuccess c' ∧ c.Requests c' := fun hne hsend =>
    ⟨not_toldSuccess_of_send hne hsend, .of_eq (map_sendCharCreate_some hsend).2⟩
  have hasks : ∀ query, h.ask c query = (c', creation) → ¬c.ToldSuccess c' ∧ c.Requests c' := by
    intro query hask
    obtain ⟨rfl, -⟩ := Prod.mk.inj hask
    exact ⟨not_toldSuccess_of_eq rfl, .of_enqueue rfl⟩
  -- only the end of the handler tells of a success
  suffices hcases : ¬c.ToldSuccess c' ∧ c.Requests c' ∨
      c.ToldSuccess c' ∧ ∃ ops, CreatesCharacter h.name ops ∧
        c'.operations = c.operations ++ [.transaction ops] by
    rcases hcases with ⟨hnot, hrequests⟩ | ⟨htold, hops⟩
    · exact iff_of_false hnot (hadds hrequests)
    · exact iff_of_true htold hops
  rw [resume] at hres
  split at hres
  · split at hres
    · exact Or.inl (hother (by decide) hres)
    · exact Or.inl (hasks _ (Option.some.inj hres))
  · obtain ⟨full, -, hres⟩ := Option.bind_eq_some_iff.mp hres
    split at hres
    · exact Or.inl (hother (by decide) hres)
    · exact Or.inl (hasks _ (Option.some.inj hres))
  · obtain ⟨full, -, hres⟩ := Option.bind_eq_some_iff.mp hres
    split at hres
    · exact Or.inl (hother (by decide) hres)
    · obtain ⟨c₁, hc₁, hres⟩ := Option.map_eq_some_iff.mp hres
      obtain ⟨rfl, -⟩ := Prod.mk.inj hres
      exact Or.inr ⟨toldSuccess_of_insertCharacter hc₁, insertCharacter_some hc₁⟩

end Conn

/-! ### Lists and transactions in the queue -/

/-- The requests of a transaction. -/
def SqlOperation.transaction? : SqlOperation → Option (List ProxydRequest)
  | .request _ => none
  | .transaction ops => some ops

namespace System

/-- The query of a list that an event executes: its worker, its task, and the account that
is asked for. -/
def listing (s : System) (e : SystemEvent) : Option (Worker × Task × UInt64) :=
  match e with
  | .execute w _ _ false => do
    let worker ← s.workers[w]?
    let t ← worker.task
    match t.op with
    | .request { statement := .getChar, params := [(1, .uint64 account)], .. } =>
      some (worker, t, account)
    | _ => none
  | _ => none

/-- A worker has executed what it has without an SQL error. -/
def Succeeds (db : Database) (s : System) (w : ℕ) (error : Bool) : Prop :=
  error = false ∧ ∀ worker ∈ s.workers[w]?, ∀ t ∈ worker.task, ∀ ops ∈ t.op.transaction?,
    (db.call s.committed ops).isSome = true

instance (db : Database) (s : System) (w : ℕ) (error : Bool) : Decidable (s.Succeeds db w error) :=
  inferInstanceAs (Decidable (_ ∧ _))

/-- There is no SQL error in an event. -/
def NoError (db : Database) (s : System) : SystemEvent → Prop
  | .execute w _ _ error => s.Succeeds db w error
  | .connect _ | .packet _ _ _ | .hangup _ _ | .resume _ _ | .dequeue _ => True

instance (db : Database) (s : System) : ∀ e, Decidable (s.NoError db e)
  | .execute w _ _ error => inferInstanceAs (Decidable (s.Succeeds db w error))
  | .connect _ | .packet _ _ _ | .hangup _ _ | .resume _ _ | .dequeue _ => .isTrue trivial

/-- A list is queried in order: with MySQL, where no transaction that its client has put
into the queue before is still there or in the hands of a worker; where what such a
transaction has inserted is for the account that is asked for, and was not committed after
the snapshot of the worker, if it has one; and where there are fewer rows than a byte
counts. -/
def InOrderFor (db : Database) (s : System) (worker : Worker) (t : Task) (account : UInt64) :
    Prop :=
  db.engine = .mysql ∧
  (∀ t' ∈ s.tasks, t'.sock = t.sock → t'.index < t.index → t'.op.transaction? = none) ∧
  (∀ sock ∈ s.sockets[t.sock]?, ∀ op ∈ sock.conn.operations.take t.index,
    ∀ ops ∈ op.transaction?, ∀ row ∈ db.rowOf ops, row.account.toNat = account.toNat ∧
      row ∉ s.committed.characters.drop (worker.visible s.committed).characters.length) ∧
  ((worker.visible s.committed).characters.countP
    fun row => row.account.toNat = account.toNat) < 256

instance (db : Database) (s : System) (worker : Worker) (t : Task) (account : UInt64) :
    Decidable (s.InOrderFor db worker t account) :=
  inferInstanceAs (Decidable (_ ∧ _ ∧ _ ∧ _))

/-- Where an event queries a list, it is in order. -/
def InOrder (db : Database) (s : System) (e : SystemEvent) : Prop :=
  ∀ x ∈ s.listing e, s.InOrderFor db x.1 x.2.1 x.2.2

instance (db : Database) (s : System) (e : SystemEvent) : Decidable (s.InOrder db e) :=
  inferInstanceAs (Decidable (∀ x ∈ s.listing e, s.InOrderFor db x.1 x.2.1 x.2.2))

/-- Every transaction that was put into the queue is there, or in the hands of a worker, or
is committed. -/
def Settled (db : Database) (s : System) : Prop :=
  ∀ k sock j ops, s.sockets[k]? = some sock →
    sock.conn.operations[j]? = some (.transaction ops) →
    (∃ t ∈ s.tasks, t.sock = k ∧ t.index = j ∧ t.op = .transaction ops) ∨
      ∃ row ∈ s.committed.characters, db.rowOf ops = some row

variable {db : Database} {sha : Sha1} {hmac : Hmac} {s s' : System} {e : SystemEvent}

/-- What a list that is queried executes. -/
theorem executes_of_listing {worker : Worker} {t : Task} {account : UInt64}
    (h : s.listing e = some (worker, t, account)) :
    ∃ w op, s.Executes e w worker t false ∧ t.op = .request op ∧ op.statement = .getChar ∧
      op.params = [addUint64 1 account] := by
  rw [listing.eq_def] at h
  split at h
  · next w env acct =>
    obtain ⟨worker', hworker, h⟩ := Option.bind_eq_some_iff.mp h
    obtain ⟨t', htask, h⟩ := Option.bind_eq_some_iff.mp h
    split at h
    · next account' prio hop =>
      obtain ⟨rfl, hrest⟩ := Prod.mk.inj (Option.some.inj h)
      obtain ⟨rfl, rfl⟩ := Prod.mk.inj hrest
      exact ⟨w, _, ⟨⟨env, acct, rfl⟩, hworker, htask⟩, hop, rfl, rfl⟩
    · cases h
  · cases h

/-! ### What stays in the queue -/

theorem Succeeds.of_executes {w : ℕ} {worker : Worker} {t : Task} {error : Bool}
    (hexec : s.Executes e w worker t error) (h : s.NoError db e) :
    error = false ∧ ∀ ops, t.op = .transaction ops → (db.call s.committed ops).isSome = true := by
  obtain ⟨⟨env, acct, rfl⟩, hworker, htask⟩ := hexec
  obtain ⟨herror, hcall⟩ := h
  refine ⟨herror, fun ops hop => hcall worker hworker t htask ops ?_⟩
  rw [hop]
  rfl

end System

variable {db : Database} {sha : Sha1} {hmac : Hmac} {s s' : System} {e : SystemEvent}

/-- What a socket does by itself only adds to its operations. -/
theorem Socket.Moves.operations {sock : Socket} {c' : Conn} {creation : Option Pending}
    {seen : Seen}
    (h : sock.Moves c' creation seen) : ∃ new, c'.operations = sock.conn.operations ++ new := by
  cases h with
  | received hops =>
    obtain ⟨new, hnew, -⟩ := hops
    exact ⟨new, hnew⟩
  | resumed h a own hh hanswer hops =>
    obtain ⟨new, hnew, -⟩ := hops
    exact ⟨new, hnew⟩
  | created h a own ops hh hanswer hquery hroom hcreates hops => exact ⟨_, hops⟩

/-- An operation of a socket after `put` is an old one, or in the queue. -/
theorem System.operations_put {k : ℕ} {sock : Socket} {c' : Conn} {creation : Option Pending}
    {seen : Seen} {new : List SqlOperation} (hsock : s.sockets[k]? = some sock)
    (hops : c'.operations = sock.conn.operations ++ new) {k' j : ℕ} {sock' : Socket}
    {op : SqlOperation}
    (hsock' : (s.put k sock.conn c' creation seen).sockets[k']? = some sock')
    (hop : sock'.conn.operations[j]? = some op) :
    (∃ sock, s.sockets[k']? = some sock ∧ sock.conn.operations[j]? = some op) ∨
      ∃ t ∈ (s.put k sock.conn c' creation seen).tasks, t.sock = k' ∧ t.index = j ∧ t.op = op := by
  obtain ⟨hlt, -⟩ := List.getElem?_eq_some_iff.mp hsock
  rw [System.put] at hsock'
  dsimp only at hsock'
  rw [List.getElem?_set] at hsock'
  split at hsock'
  · next heq =>
    subst heq
    obtain rfl := Option.some.inj hsock'
    rcases Nat.lt_or_ge j sock.conn.operations.length with hj | hj
    · refine Or.inl ⟨sock, hsock, ?_⟩
      dsimp only at hop
      rwa [hops, List.getElem?_append_left hj] at hop
    · obtain ⟨t, ht, hk, hindex, htop⟩ := System.exists_added hops hj hop
      exact Or.inr ⟨t, System.mem_tasks_put.mpr (Or.inr ht), hk, hindex, htop⟩
  · exact Or.inl ⟨sock', hsock', hop⟩

/-- **Every operation of a socket was put into the queue**, in this step or before. -/
theorem SystemTrans.operations (h : SystemTrans db s e s') {k j : ℕ} {sock' : Socket}
    {op : SqlOperation} (hsock' : s'.sockets[k]? = some sock')
    (hop : sock'.conn.operations[j]? = some op) :
    (∃ sock, s.sockets[k]? = some sock ∧ sock.conn.operations[j]? = some op) ∨
      ∃ t ∈ s'.tasks, t.sock = k ∧ t.index = j ∧ t.op = op := by
  cases h with
  | connected f hs =>
    rw [hs] at hsock'
    rcases Nat.lt_or_ge k s.sockets.length with hk | hk
    · rw [List.getElem?_append_left hk] at hsock'
      exact Or.inl ⟨sock', hsock', hop⟩
    · rw [List.getElem?_append_right hk, List.getElem?_singleton] at hsock'
      split at hsock'
      · -- a new socket has none
        obtain rfl := Option.some.inj hsock'
        cases hop
      · cases hsock'
  | moved k₀ sock c' creation seen hsock hmoves hs =>
    subst hs
    obtain ⟨new, hnew⟩ := hmoves.operations
    exact System.operations_put hsock hnew hsock' hop
  | dequeued w worker t queue hworker hidle hqueue hs =>
    rw [hs] at hsock'
    exact Or.inl ⟨sock', hsock', hop⟩
  | transacted w worker t error ops hexec hop' hs =>
    rw [hs] at hsock'
    exact Or.inl ⟨sock', hsock', hop⟩
  | failed w worker t op' hexec hop' hs =>
    rw [hs] at hsock'
    obtain ⟨sock, hsock, rfl⟩ := Option.map_eq_some_iff.mp
      ((s.getElem?_replace w k op'.statement).symm.trans hsock')
    exact Or.inl ⟨sock, hsock, hop⟩
  | answered w worker t op' sock c' creation hexec hop' hsock hops hcreation hs =>
    subst hs
    have hreplaced : (s.replace w op'.statement).sockets[t.sock]? =
        some (sock.replace w op'.statement) := by
      rw [System.getElem?_replace, hsock, Option.map_some]
    rcases System.operations_put
      (s := { s.replace w op'.statement with
        workers := s.workers.set w (worker.queried s.committed) }) hreplaced
      (hops.trans (List.append_nil _).symm) hsock' hop with ⟨sock₁, hsock₁, hop₁⟩ | hqueued
    · obtain ⟨sock₂, hsock₂, rfl⟩ := Option.map_eq_some_iff.mp
        ((s.getElem?_replace w k op'.statement).symm.trans hsock₁)
      exact Or.inl ⟨sock₂, hsock₂, hop₁⟩
    · exact Or.inr hqueued

/-- **A task stays until it is executed.** -/
theorem SystemTrans.mem_tasks (h : SystemTrans db s e s') {t : Task} (ht : t ∈ s.tasks) :
    t ∈ s'.tasks ∨ ∃ w worker error, s.Executes e w worker t error := by
  have hset : ∀ {w worker error t₀}, s.Executes e w worker t₀ error → ∀ worker',
      t ∈ System.tasks { s with workers := s.workers.set w worker' } ∨
        ∃ w worker error, s.Executes e w worker t error := by
    intro w worker error t₀ hexec worker'
    by_cases heq : worker.task = some t
    · exact Or.inr ⟨w, worker, error, hexec.hevent, hexec.hworker, heq⟩
    · exact Or.inl (System.mem_tasks_set_of_ne hexec.hworker ht heq)
  cases h with
  | connected f hs =>
    subst hs
    exact Or.inl ht
  | moved k sock c' creation seen hsock hmoves hs =>
    subst hs
    exact Or.inl (System.mem_tasks_put.mpr (Or.inl ht))
  | dequeued w worker t₀ queue hworker hidle hqueue hs =>
    subst hs
    exact Or.inl ((System.mem_tasks_dequeue hworker hidle hqueue).mpr ht)
  | transacted w worker t₀ error ops hexec hop hs =>
    subst hs
    exact hset hexec worker.transacted
  | failed w worker t₀ op hexec hop hs =>
    subst hs
    exact hset hexec _
  | answered w worker t₀ op sock c' creation hexec hop hsock hops hcreation hs =>
    subst hs
    exact (hset hexec _).imp_left fun hmem => System.mem_tasks_put.mpr (Or.inl hmem)

/-- A transaction that is executed without an error is committed. -/
theorem System.row_of_executes {w : ℕ} {worker : Worker} {t : Task} {error : Bool}
    {ops : List ProxydRequest} (hsound : s.Sound) (hmysql : db.engine = .mysql)
    (hexec : s.Executes e w worker t error) (hop : t.op = .transaction ops)
    (herror : s.NoError db e) (hstep : s.step db sha hmac e = some s') :
    ∃ row ∈ s'.committed.characters, db.rowOf ops = some row := by
  obtain ⟨rfl, hcall⟩ := System.Succeeds.of_executes hexec herror
  obtain ⟨tables, hcall⟩ := Option.isSome_iff_exists.mp (hcall ops hop)
  obtain ⟨name, hcreates⟩ := hsound.creates t hexec.mem_tasks ops hop
  rcases hcreates.call_some hcall with ⟨hsqlite, -⟩ | ⟨-, row, hrow, happend⟩
  · cases hmysql.symm.trans hsqlite
  · have hcommits : s.Commits db e t row := ⟨w, worker, ops, tables, hexec, hop, hcall, happend⟩
    refine ⟨row, ?_, hrow⟩
    rw [hcommits.committed hstep]
    exact List.mem_append_right _ (List.mem_singleton_self row)

/-- **Transactions end up committed.** -/
theorem System.Settled.of_step (h : s.Settled db) (hsound : s.Sound) (hmysql : db.engine = .mysql)
    (herror : s.NoError db e) (hstep : s.step db sha hmac e = some s') : s'.Settled db := by
  have htrans := systemTrans_of_step hstep
  intro k sock' j ops hsock' hop
  rcases htrans.operations hsock' hop with ⟨sock, hsock, hop⟩ | hqueued
  · rcases h k sock j ops hsock hop with ⟨t, ht, hk, hj, htop⟩ | ⟨row, hmem, hrow⟩
    · rcases htrans.mem_tasks ht with ht' | ⟨w, worker, error, hexec⟩
      · exact Or.inl ⟨t, ht', hk, hj, htop⟩
      · exact Or.inr (System.row_of_executes hsound hmysql hexec htop herror hstep)
    · exact Or.inr ⟨row, (htrans.committed_prefix hsound).subset hmem, hrow⟩
  · exact Or.inl hqueued

/-! ### The list that is sent -/

/-- The rows of a list. -/
theorem Database.select_getChar {tables : Tables} {op : ProxydRequest} {account : UInt64}
    (hmysql : db.engine = .mysql) (hstatement : op.statement = .getChar)
    (hparams : op.params = [addUint64 1 account]) :
    db.select tables op =
      { engine := .mysql
        numFields := 13
        rows := (tables.characters.filter fun row => row.account.toNat = account.toNat).map
          Database.charColumns } := by
  obtain ⟨statement, params, priority⟩ := op
  obtain rfl : statement = .getChar := hstatement
  obtain rfl : params = [addUint64 1 account] := hparams
  rw [← hmysql]
  rfl

/-- **A list that is queried in order has every character the client was told of before.** -/
theorem System.Settled.lists {worker : Worker} {t : Task} {account : UInt64} {sock : Socket} {j : ℕ}
    {name : List UInt8} {ops : List ProxydRequest} (h : s.Settled db) (hsound : s.Sound)
    (horder : s.InOrder db e) (hlisting : s.listing e = some (worker, t, account))
    (hstep : s.step db sha hmac e = some s') (hsock : s.sockets[t.sock]? = some sock)
    (hj : j < t.index) (hop : sock.conn.operations[j]? = some (.transaction ops))
    (hcreates : CreatesCharacter name ops) :
    ∃ sock' row, s'.sockets[t.sock]? = some sock' ∧ db.rowOf ops = some row ∧
      row.name = cStr name ∧ sock.conn.Lists sock'.conn row := by
  obtain ⟨w, op, hexec, htop, hstatement, hparams⟩ := System.executes_of_listing hlisting
  obtain ⟨hmysql, hnone, hrows, hcount⟩ := horder _ hlisting
  have hmem : (SqlOperation.transaction ops) ∈ sock.conn.operations.take t.index :=
    List.mem_of_getElem? (by rwa [List.getElem?_take_of_lt hj])
  rcases h t.sock sock j ops hsock hop with ⟨t', ht', hk, hindex, htop'⟩ | ⟨row, hrow, hrowOf⟩
  · -- the transaction is still on its way
    have habsent := hnone t' ht' hk (hindex ▸ hj)
    rw [htop'] at habsent
    cases habsent
  obtain ⟨haccount, hnew⟩ := hrows sock hsock _ hmem ops rfl row hrowOf
  -- the snapshot is recent enough
  have hvisible : row ∈ (worker.visible s.committed).characters := by
    have hprefix := hsound.visible (List.mem_of_getElem? hexec.hworker)
    rw [← List.prefix_iff_eq_append.mp hprefix] at hrow
    exact (List.mem_append.mp hrow).resolve_right hnew
  obtain ⟨env, acct, hcall⟩ := System.step_of_executes hexec hstep
  rw [System.call, htop] at hcall
  dsimp only at hcall
  rw [if_neg Bool.false_ne_true, System.deliver] at hcall
  dsimp only at hcall
  rw [System.getElem?_replace, hsock, Option.map_some, Option.bind_eq_bind, Option.bind_some,
    hstatement] at hcall
  obtain ⟨c', hc', rfl⟩ := Option.map_eq_some_iff.mp hcall
  have hlt := (List.getElem?_eq_some_iff.mp hsock).1
  refine ⟨{ sock.replace w .getChar with conn := c' }, row, ?_, hrowOf,
    (hcreates.rowOf hrowOf).1, ?_⟩
  · exact List.getElem?_set_self (hlt.trans_eq (List.length_map _).symm)
  · rw [Database.select_getChar hmysql hstatement hparams] at hc'
    rw [List.countP_eq_length_filter] at hcount
    have hlists := Conn.lists_of_getCharsObsv (Conn.getCharsObsv_of_step hc')
      (List.mem_filter.mpr ⟨hvisible, decide_eq_true haccount⟩) hcount
    exact hlists

/-! ### Runs -/

/-- A handler of the socket tells its client that a character of this name was created, and
`ops` is the transaction it has put into the queue. -/
def System.Creates (s s' : System) (k : ℕ) (name : List UInt8) (ops : List ProxydRequest) : Prop :=
  ∃ sock sock' h, s.sockets[k]? = some sock ∧ s'.sockets[k]? = some sock' ∧
    sock.creation = some h ∧ h.name = name ∧ sock.conn.ToldSuccess sock'.conn ∧
    sock'.conn.operations.getLast? = some (.transaction ops)

/-- The list that is sent to the client of a socket has the character. -/
def System.ListsFor (s s' : System) (k : ℕ) (row : CharacterRow) : Prop :=
  ∃ sock sock', s.sockets[k]? = some sock ∧ s'.sockets[k]? = some sock' ∧
    sock.conn.Lists sock'.conn row

/-- **Read your own writes**: where a client is told that a character of a name was created,
and sends `CMSG_CHAR_ENUM` afterwards, the list that it gets as the answer has the character. -/
def ReadsOwnWrites (db : Database) (sha : Sha1) (hmac : Hmac) (s₀ : System)
    (es : List SystemEvent) : Prop :=
  ∀ i s₁ k own s₁' name ops j s₂ env pkt s₂' sock l s₃ e s₃' worker t account,
    Runs.StepAt (System.step db sha hmac) s₀ es i s₁ (.resume k own) s₁' →
    s₁.Creates s₁' k name ops →
    i < j → Runs.StepAt (System.step db sha hmac) s₀ es j s₂ (.packet k env pkt) s₂' →
    ClientOpcode.ofCode? pkt.opcode = some .cmsgCharEnum →
    -- the query of the list is what this packet has put into the queue
    s₂.sockets[k]? = some sock →
    j < l → Runs.StepAt (System.step db sha hmac) s₀ es l s₃ e s₃' →
    s₃.listing e = some (worker, t, account) → t.sock = k → t.index = sock.conn.operations.length →
    ∃ row, db.rowOf ops = some row ∧ row.name = cStr name ∧ s₃.ListsFor s₃' k row

/-- What is put only adds to the operations of a socket. -/
theorem System.operations_le_put {k₀ : ℕ} {sock₀ : Socket} {c' : Conn}
    (creation : Option Pending) (seen : Seen) {new : List SqlOperation}
    (hsock₀ : s.sockets[k₀]? = some sock₀)
    (hops : c'.operations = sock₀.conn.operations ++ new) {k : ℕ} {sock : Socket}
    (hsock : s.sockets[k]? = some sock) :
    ∃ sock', (s.put k₀ sock₀.conn c' creation seen).sockets[k]? = some sock' ∧
      sock.conn.operations <+: sock'.conn.operations := by
  have hlt := (List.getElem?_eq_some_iff.mp hsock₀).1
  rw [System.put]
  dsimp only
  by_cases heq : k₀ = k
  · subst heq
    obtain rfl := Option.some.inj (hsock₀.symm.trans hsock)
    refine ⟨{ conn := c', creation }, List.getElem?_set_self hlt, ?_⟩
    dsimp only
    rw [hops]
    exact List.prefix_append _ _
  · exact ⟨sock, by rw [List.getElem?_set_ne heq, hsock], List.prefix_rfl⟩

/-- A step only adds to the operations of a socket. -/
theorem SystemTrans.operations_le (h : SystemTrans db s e s') {k : ℕ} {sock : Socket}
    (hsock : s.sockets[k]? = some sock) :
    ∃ sock', s'.sockets[k]? = some sock' ∧ sock.conn.operations <+: sock'.conn.operations := by
  have hreplaced : ∀ {k : ℕ} {sock : Socket} (w : ℕ) (statement : ProxyDatabaseStatements),
      s.sockets[k]? = some sock →
      (s.replace w statement).sockets[k]? = some (sock.replace w statement) := by
    intro k sock w statement hsock
    rw [System.getElem?_replace, hsock, Option.map_some]
  cases h with
  | connected f hs =>
    subst hs
    have hlt := (List.getElem?_eq_some_iff.mp hsock).1
    exact ⟨sock, (List.getElem?_append_left hlt).trans hsock, List.prefix_rfl⟩
  | moved k₀ sock₀ c' creation seen hsock₀ hmoves hs =>
    subst hs
    obtain ⟨new, hnew⟩ := hmoves.operations
    exact System.operations_le_put creation seen hsock₀ hnew hsock
  | dequeued w worker t queue hworker hidle hqueue hs =>
    subst hs
    exact ⟨sock, hsock, List.prefix_rfl⟩
  | transacted w worker t error ops hexec hop hs =>
    subst hs
    exact ⟨sock, hsock, List.prefix_rfl⟩
  | failed w worker t op hexec hop hs =>
    subst hs
    exact ⟨sock.replace w op.statement, hreplaced w op.statement hsock, List.prefix_rfl⟩
  | answered w worker t op sock₀ c' creation hexec hop hsock₀ hops hcreation hs =>
    subst hs
    have hle := System.operations_le_put
      (s := { s.replace w op.statement with
        workers := s.workers.set w (worker.queried s.committed) })
      creation .init (hreplaced w op.statement hsock₀) (hops.trans (List.append_nil _).symm)
      (hreplaced w op.statement hsock)
    exact hle

/-- A run only adds to the operations of a socket. -/
theorem operations_le_of_run {es : List SystemEvent}
    (h : Runs.run (System.step db sha hmac) s es = some s') {k : ℕ} {sock : Socket}
    (hsock : s.sockets[k]? = some sock) :
    ∃ sock', s'.sockets[k]? = some sock' ∧ sock.conn.operations <+: sock'.conn.operations := by
  refine Runs.run_relation (R := fun s s' => ∀ k sock, s.sockets[k]? = some sock →
    ∃ sock', s'.sockets[k]? = some sock' ∧ sock.conn.operations <+: sock'.conn.operations)
    ?_ ?_ ?_ h k sock hsock
  · intro s k sock hsock
    exact ⟨sock, hsock, List.prefix_rfl⟩
  · intro s t u hst htu k sock hsock
    obtain ⟨sock', hsock', hle⟩ := hst k sock hsock
    obtain ⟨sock'', hsock'', hle'⟩ := htu k sock' hsock'
    exact ⟨sock'', hsock'', hle.trans hle'⟩
  · intro s e s' hstep k sock hsock
    exact (systemTrans_of_step hstep).operations_le hsock

/-- The transaction of a character stands behind the operations the socket had before. -/
theorem System.Creates.operations {k : ℕ} {name : List UInt8} {ops : List ProxydRequest}
    {own : Bool} (h : s.Creates s' k name ops)
    (hstep : s.step db sha hmac (.resume k own) = some s') :
    ∃ sock sock', s.sockets[k]? = some sock ∧ s'.sockets[k]? = some sock' ∧
      CreatesCharacter name ops ∧
      sock'.conn.operations = sock.conn.operations ++ [.transaction ops] := by
  obtain ⟨sock, sock', creation, hsock, hsock', hcreation, rfl, htold, hlast⟩ := h
  refine ⟨sock, sock', hsock, hsock', ?_⟩
  have hlt := (List.getElem?_eq_some_iff.mp hsock).1
  rw [System.step, hsock, Option.bind_eq_bind, Option.bind_some, hcreation, Option.bind_eq_bind,
    Option.bind_some] at hstep
  obtain ⟨res, -, hstep⟩ := Option.bind_eq_some_iff.mp hstep
  obtain ⟨⟨c', creation'⟩, hresume, rfl⟩ := Option.map_eq_some_iff.mp hstep
  have hset : ∀ {creation seen}, (s.put k sock.conn c' creation seen).sockets[k]? =
      some { conn := c', creation } := List.getElem?_set_self hlt
  obtain rfl := Option.some.inj (hset.symm.trans hsock')
  obtain ⟨ops', hcreates, hops⟩ := (Conn.toldSuccess_iff hresume).mp htold
  dsimp only at hlast ⊢
  rw [hops, List.getLast?_concat] at hlast
  obtain rfl := SqlOperation.transaction.inj (Option.some.inj hlast)
  exact ⟨hcreates, hops⟩

/-- What holds in a run of MySQL without SQL errors. -/
theorem sound_settled_of_run {committed : Tables} {autoCommit : List Bool} {es : List SystemEvent}
    (hmysql : db.engine = .mysql)
    (herror : ∀ i s e s',
      Runs.StepAt (System.step db sha hmac) (.init committed autoCommit) es i s e
      s' → s.NoError db e) (i : ℕ) (t : System)
    (ht : Runs.run (System.step db sha hmac) (.init committed autoCommit) (es.take i) = some t) :
    t.Sound ∧ t.Settled db := by
  refine Runs.run_take_induction (P := fun s => s.Sound ∧ s.Settled db) ?_ ?_ i t ht
  · refine ⟨System.sound_init committed autoCommit, ?_⟩
    intro k sock j ops hsock
    cases hsock
  · rintro i s e s' hat ⟨hsound, hsettled⟩
    exact ⟨(systemTrans_of_step hat.2.2).sound hsound,
      hsettled.of_step hsound hmysql (herror i s e s' hat) hat.2.2⟩

/-- **A client reads its own characters where its lists are queried in order**, whatever the
workers and the sockets are: in a run without an SQL error in which every list is queried
in order, every list has all the characters its client was told of before it asked. -/
theorem own_writes_listed (db : Database) (sha : Sha1) (hmac : Hmac) (committed : Tables)
    (autoCommit : List Bool) (es : List SystemEvent)
    (herror : ∀ i s e s',
      Runs.StepAt (System.step db sha hmac) (.init committed autoCommit) es i s e
      s' → s.NoError db e)
    (horder : ∀ i s e s',
      Runs.StepAt (System.step db sha hmac) (.init committed autoCommit) es i s e
      s' → s.InOrder db e) :
    ReadsOwnWrites db sha hmac (.init committed autoCommit) es := by
  intro i s₁ k own s₁' name ops j s₂ env pkt s₂' sock l s₃ e s₃' worker t account hcreate hcreates
    hij henum hop hsock hjl hlist hlisting hk hindex
  obtain ⟨hmysql, -⟩ := horder l s₃ e s₃' hlist _ hlisting
  obtain ⟨hsound, hsettled⟩ := sound_settled_of_run hmysql herror l s₃ hlist.1
  obtain ⟨sock₁, sock₁', hsock₁, hsock₁', hcharacter, hops⟩ := hcreates.operations hcreate.2.2
  -- the transaction is among the operations when the list is asked for, and when it is queried
  obtain ⟨es₁, hrun₁⟩ := hcreate.run_between henum hij
  obtain ⟨sock₂, hsock₂, hle₁⟩ := operations_le_of_run hrun₁ hsock₁'
  obtain rfl := Option.some.inj (hsock₂.symm.trans hsock)
  obtain ⟨es₂, hrun₂⟩ := hcreate.run_between hlist (hij.trans hjl)
  obtain ⟨sock₃, hsock₃, hle₂⟩ := operations_le_of_run hrun₂ hsock₁'
  have hmem : sock₃.conn.operations[sock₁.conn.operations.length]? = some (.transaction ops) := by
    rw [List.prefix_iff_eq_append.mp hle₂ |>.symm, hops]
    simp
  have hlt : sock₁.conn.operations.length < t.index := by
    rw [hindex]
    refine lt_of_lt_of_le ?_ hle₁.length_le
    rw [hops, List.length_append]
    exact Nat.lt_succ_self _
  subst hk
  obtain ⟨sock', row, hsock', hrow, hname, hlists⟩ :=
    hsettled.lists hsound (horder l s₃ e s₃' hlist) hlisting hlist.2.2 hsock₃ hlt hmem hcharacter
  exact ⟨row, hrow, hname, sock₃, sock', hsock₃, hsock', hlists⟩

/-! ### One client, and one worker or two -/

namespace RaceSample

/-- A client creates a character, and its transaction is in the queue. -/
def create : List SystemEvent :=
  [.connect Sample.start, .packet 0 (env 1) charCreate] ++ work 0 ++ [.resume 0 true] ++ work 0 ++
    [.resume 0 true] ++ work 0 ++ [.resume 0 true]

/-- It asks for its list, which the only worker comes to when it has done the transaction. -/
def oneWorker : List SystemEvent :=
  create ++ [.packet 0 (env 1) Sample.charEnum] ++ work 0 ++ work 0

/-- It asks for its list, which the second worker has done before the first is ready. -/
def twoWorkers : List SystemEvent :=
  create ++ [.packet 0 (env 1) Sample.charEnum, .dequeue 0] ++ work 1

end RaceSample

open RaceSample

/-- With one worker the list has the character. -/
theorem own_writes_listed_sample :
    ReadsOwnWrites Sample.database Sample.zeroSha Sample.zeroHmac (.init empty [false]) oneWorker ∧
      (Runs.run (System.step Sample.database Sample.zeroSha Sample.zeroHmac) (.init empty [false])
          oneWorker).map (fun s => s.sockets.map fun sock =>
            sock.conn.characters.map Character.name) = some [[[65]]] := by
  have hall : Runs.allSteps (System.step Sample.database Sample.zeroSha Sample.zeroHmac)
      (fun s e => decide (s.NoError Sample.database e ∧ s.InOrder Sample.database e))
      (.init empty [false]) oneWorker = true := by
    decide +kernel
  refine ⟨own_writes_listed _ _ _ _ _ _ ?_ ?_, by decide +kernel⟩
  · intro i s e s' hat
    exact (of_decide_eq_true (hat.of_allSteps hall)).1
  · intro i s e s' hat
    exact (of_decide_eq_true (hat.of_allSteps hall)).2

/-- **With two workers a client may be sent a list without the character it was told of.** -/
theorem own_characters_not_listed :
    ¬∀ (db : Database) (sha : Sha1) (hmac : Hmac) (committed : Tables) (autoCommit : List Bool)
      (es : List SystemEvent), 1 ≤ autoCommit.length → autoCommit.length ≤ 32 →
      (∀ i s e s', Runs.StepAt (System.step db sha hmac) (.init committed autoCommit) es i s e s' →
        s.NoError db e) →
      ReadsOwnWrites db sha hmac (.init committed autoCommit) es := by
  intro hclaim
  have hall : Runs.allSteps (System.step Sample.database Sample.zeroSha Sample.zeroHmac)
      (fun s e => decide (s.NoError Sample.database e)) (.init empty [false, false]) twoWorkers =
        true := by
    decide +kernel
  have hreads := hclaim Sample.database Sample.zeroSha Sample.zeroHmac empty [false, false]
    twoWorkers (by decide) (by decide) fun i s e s' hat => of_decide_eq_true (hat.of_allSteps hall)
  obtain ⟨row, -, -, sock, sock', hsock, hsock', -, hmem⟩ :=
    hreads 10 _ 0 _ _ _ _ 11 _ _ _ _ _ 14 _ _ _ _ _ _ ⟨rfl, rfl, rfl⟩
      ⟨_, _, _, rfl, rfl, rfl, rfl, ⟨_, rfl, rfl⟩, rfl⟩ (by decide) ⟨rfl, rfl, rfl⟩ rfl rfl
        (by decide)
      ⟨rfl, rfl, rfl⟩ rfl rfl rfl
  obtain rfl := Option.some.inj hsock'
  cases hmem

end Morfeusz.Proxyd
