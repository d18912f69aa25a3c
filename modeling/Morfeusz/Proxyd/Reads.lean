import Morfeusz.Proxyd.Authentication

/-!
# Reading a packet to its end

A handler reads a packet field by field, and reading on behind the end of the buffer is a
failed `ASSERT`, which the process does not survive. So a handler asks for the size of
the packet first – if it asks. Two of them do not; and the two that do compare the bytes
they are about to read with a size that counts the opcode as well, and so let packets
pass that are up to four bytes short. A name without its terminator is another byte
less than they reckon with.

`Morfeusz.Proxyd.Conn.ReadsInside` says, packet by packet, which payloads are long enough
for what is read of them, and `Morfeusz.Proxyd.processIncoming_survives_iff` that those
are the packets the proxy survives. The reads are followed one by one
(`Morfeusz.ByteBuffer.exists_readUint8_bind_iff` and its like): each asks for its bytes,
and goes on with the buffer that is left (`Morfeusz.ByteBuffer.skip`).
-/

namespace Morfeusz.Proxyd

open ByteNumbers ByteBuffer

variable {env : Env} {c : Conn} {pkt : ClientPkt}

/-! ### The replies -/

/-- A reply of a few bytes can be built, and is all that is left to do. -/
theorem exists_serverPkt_bind_send {op : ServerOpcode} {siz : UInt16} {values : List (List UInt8)}
    (h : values.flatten.length ≤ 65533) (c : Conn) :
    ∃ c', (do let pkt ← serverPkt op siz values; some (c.send pkt)) = some c' := by
  have hlimit : (serverHeader op siz).length + values.flatten.length < sizeLimit := by
    rw [length_serverHeader, sizeLimit]
    omega
  rw [serverPkt, foldlM_append_eq _ hlimit]
  exact ⟨_, rfl⟩

theorem exists_sendCharCreate (c : Conn) (response : ResponseCodes) :
    ∃ c', c.sendCharCreate response = some c' :=
  exists_serverPkt_bind_send (by simp [uint8]) c

/-! ### The packets -/

namespace Conn

/-- A byte of the payload. -/
def payloadByte (pkt : ClientPkt) (n : ℕ) : UInt8 :=
  UInt8.ofNat (leVal ((pkt.payload.drop n).take 1))

/-- A character that passes every check is inserted: the race and the class are in their
stores, the name may be one and is free, and neither limit is reached. -/
def Inserts (env : Env) (c : Conn) (race pclass : UInt8) (name : List UInt8) : Prop :=
  ∃ stored, c.checkCharacter env race pclass name = .ok stored ∧
    (env.answer (guidFromName stored)).rowsCount = 0 ∧
    atLimit (env.answer c.numchar) 50 = some false ∧
    atLimit (env.answer c.charCount) 10 = some false

/-- **The payload is long enough for what its handler reads of it.** -/
def ReadsInside (env : Env) (c : Conn) (pkt : ClientPkt) : Prop :=
  match ClientOpcode.ofCode? pkt.opcode with
  | some .cmsgAuthSession =>
    -- two numbers, the name, the seed and the digest, if the size allows
    33 ≤ pkt.siz.toNat →
      8 + stringBytes (pkt.payload.drop 8) + (4 + 20) ≤ pkt.payload.length
  | some .cmsgPing | some .cmsgRealmSplit => 4 ≤ pkt.payload.length
  | some .cmsgCharCreate =>
    let name := pkt.buffer.readString.1
    let n := stringBytes pkt.payload
    -- race and class behind the name, and seven bytes more for a character
    10 ≤ pkt.siz.toNat → name.length + 10 ≤ pkt.siz.toNat →
      n + 2 ≤ pkt.payload.length ∧
        (c.Inserts env (payloadByte pkt n) (payloadByte pkt (n + 1)) name →
          n + 2 + 7 ≤ pkt.payload.length)
  | some .cmsgCharEnum | some .cmsgPlayedTime | none => True

/-! ### The handlers -/

theorem checkSize_eq_false_iff {siz : ℕ} : pkt.checkSize siz = false ↔ ¬siz ≤ pkt.siz.toNat := by
  rw [ClientPkt.checkSize, decide_eq_false_iff_not]

theorem exists_handleCmsgAuthSession_iff :
    (∃ c', c.handleCmsgAuthSession pkt = some c') ↔
      (33 ≤ pkt.siz.toNat →
        8 + stringBytes (pkt.payload.drop 8) + (4 + 20) ≤ pkt.payload.length) := by
  rw [handleCmsgAuthSession]
  by_cases hsize : 33 ≤ pkt.siz.toNat
  · rw [if_neg (by rw [checkSize_eq_false_iff]; exact not_not.mpr hsize)]
    have hlen := pkt.complete
    simp only [hsize, true_imp_iff]
    have hname : pkt.buffer.storage.drop 14 = pkt.payload.drop 8 := drop_buffer pkt 8
    rw [exists_readUint32_bind_iff, exists_readUint32_bind_iff]
    dsimp only
    rw [readString_snd, exists_readUint32_bind_iff, exists_readBytes_bind_iff]
    simp only [skip_skip, rpos_skip, size_skip, storage_skip, rpos_buffer, size_buffer,
      Nat.reduceAdd, hname]
    constructor
    · rintro ⟨-, -, -, hdigest, -⟩
      omega
    · intro hfits
      exact ⟨by omega, by omega, by omega, by omega, _, rfl⟩
  · rw [if_pos (checkSize_eq_false_iff.mpr hsize)]
    exact iff_of_true ⟨_, rfl⟩ fun h => absurd h hsize

/-- The two handlers that read one number and do not ask for the size. -/
theorem exists_readUint32_reply_iff {op : ServerOpcode} {siz : UInt16}
    (values : UInt32 → List (List UInt8)) (h : ∀ v, (values v).flatten.length ≤ 65533) :
    (∃ c', (do
      let (v, _) ← pkt.buffer.readUint32
      let pkt ← serverPkt op siz (values v)
      some (c.send pkt)) = some c') ↔ 4 ≤ pkt.payload.length := by
  rw [exists_readUint32_bind_iff, rpos_buffer, size_buffer]
  constructor
  · rintro ⟨hlen, -⟩
    omega
  · intro hlen
    exact ⟨by omega, exists_serverPkt_bind_send (h _) c⟩

theorem exists_handleCmsgPing_iff :
    (∃ c', c.handleCmsgPing pkt = some c') ↔ 4 ≤ pkt.payload.length :=
  exists_readUint32_reply_iff (fun seq => [uint32 seq]) (by simp [uint32])

theorem exists_handleCmsgRealmSplit_iff :
    (∃ c', c.handleCmsgRealmSplit pkt = some c') ↔ 4 ≤ pkt.payload.length :=
  exists_readUint32_reply_iff (fun unk => [uint32 unk, uint32 0, string splitDate])
    (by simp [uint32, string, splitDate])

theorem exists_insertCharacter_iff {race pclass : UInt8} {name : List UInt8} {buf : ByteBuffer} :
    (∃ c', c.insertCharacter env race pclass name buf = some c') ↔ buf.rpos + 7 ≤ buf.size := by
  rw [insertCharacter]
  simp only [exists_readUint8_bind_iff, skip_skip, rpos_skip, size_skip]
  constructor
  · rintro ⟨-, -, -, -, -, -, hlast, -⟩
    omega
  · intro hfits
    exact ⟨by omega, by omega, by omega, by omega, by omega, by omega, by omega,
      exists_sendCharCreate _ _⟩

/-- A limit can be looked up where the answer has a column. -/
theorem exists_atLimit {res : ResultSet} (hfresh : res.Fresh) (hcols : 1 ≤ res.numFields)
    (limit : UInt8) : ∃ full, atLimit res limit = some full := by
  rw [atLimit]
  by_cases hcount : 0 < res.next.2.rowsCount
  · have hrow := ResultSet.rowPosition_next_of_rowsCount hfresh hcount
    obtain ⟨v, hv⟩ := res.next.2.exists_column hrow le_rfl (by rwa [res.numFields_next])
    simp only [gt_iff_lt, hcount, if_true, ResultSet.getUint8, ResultSet.getUint, hv,
      Option.map_some]
    exact ⟨_, rfl⟩
  · simp only [gt_iff_lt, hcount, if_false]
    exact ⟨_, rfl⟩

/-- The answers to the queries have the column that is read, as their statements say. -/
def AnswersHaveColumn (env : Env) : Prop := ∀ op, 1 ≤ (env.answer op).numFields

theorem numchar_enqueue (c : Conn) (op : SqlOperation) : (c.enqueue op).numchar = c.numchar := rfl

theorem charCount_enqueue (c : Conn) (op : SqlOperation) :
    (c.enqueue op).charCount = c.charCount := rfl

/-- The queries are answered, and the rest of the packet is read if the character is
inserted. -/
theorem exists_createCharacter_iff (hcols : AnswersHaveColumn env) {race pclass : UInt8}
    {name : List UInt8} {buf : ByteBuffer} :
    (∃ c', c.createCharacter env race pclass name buf = some c') ↔
      ((env.answer (guidFromName name)).rowsCount = 0 →
        atLimit (env.answer c.numchar) 50 = some false →
          atLimit (env.answer c.charCount) 10 = some false → buf.rpos + 7 ≤ buf.size) := by
  rw [createCharacter]
  by_cases hfree : (env.answer (guidFromName name)).rowsCount = 0
  · simp only [hfree, ne_eq, not_true_eq_false, if_false, true_imp_iff]
    obtain ⟨account, haccount⟩ := exists_atLimit (env.answer_fresh c.numchar) (hcols _) 50
    obtain ⟨server, hserver⟩ := exists_atLimit (env.answer_fresh c.charCount) (hcols _) 10
    simp only [numchar_enqueue, charCount_enqueue, haccount, hserver, Option.bind_eq_bind,
      Option.bind_some]
    rcases account with _ | _
    · rcases server with _ | _
      · simp only [Bool.false_eq_true, if_false, true_imp_iff]
        exact exists_insertCharacter_iff
      · refine iff_of_true (exists_sendCharCreate _ _) ?_
        rintro - ⟨⟩
    · refine iff_of_true (exists_sendCharCreate _ _) ?_
      rintro ⟨⟩
  · simp only [hfree, ne_eq, not_false_eq_true, if_true, false_imp_iff, iff_true]
    exact exists_sendCharCreate _ _

/-- What is done with a race, a class and a name, and the rest of the packet. -/
theorem exists_checkedCreate_iff (hcols : AnswersHaveColumn env) {race pclass : UInt8}
    {name : List UInt8} {buf : ByteBuffer} :
    (∃ c', (match c.checkCharacter env race pclass name with
      | .error response => c.sendCharCreate response
      | .ok name => c.createCharacter env race pclass name buf) = some c') ↔
      (c.Inserts env race pclass name → buf.rpos + 7 ≤ buf.size) := by
  rcases hcheck : c.checkCharacter env race pclass name with response | stored
  · -- the client is told what is wrong, and nothing more is read
    refine iff_of_true (exists_sendCharCreate _ _) ?_
    rintro ⟨stored, hok, -⟩
    cases hcheck.symm.trans hok
  · dsimp only
    rw [exists_createCharacter_iff hcols]
    constructor
    · rintro hinsert ⟨stored', hok, hfree, haccount, hserver⟩
      obtain rfl := Except.ok.inj (hcheck.symm.trans hok)
      exact hinsert hfree haccount hserver
    · intro hinsert hfree haccount hserver
      exact hinsert ⟨stored, hcheck, hfree, haccount, hserver⟩

theorem exists_handleCmsgCharCreate_iff (hcols : AnswersHaveColumn env) :
    (∃ c', c.handleCmsgCharCreate env pkt = some c') ↔
      (10 ≤ pkt.siz.toNat → pkt.buffer.readString.1.length + 10 ≤ pkt.siz.toNat →
        stringBytes pkt.payload + 2 ≤ pkt.payload.length ∧
          (c.Inserts env (payloadByte pkt (stringBytes pkt.payload))
              (payloadByte pkt (stringBytes pkt.payload + 1)) pkt.buffer.readString.1 →
            stringBytes pkt.payload + 2 + 7 ≤ pkt.payload.length)) := by
  rw [handleCmsgCharCreate]
  by_cases hsize : 10 ≤ pkt.siz.toNat
  · rw [if_neg (by rw [checkSize_eq_false_iff]; exact not_not.mpr hsize)]
    simp only [hsize, true_imp_iff]
    by_cases hname : pkt.buffer.readString.1.length + 10 ≤ pkt.siz.toNat
    · rw [if_neg (by rw [checkSize_eq_false_iff]; exact not_not.mpr hname)]
      simp only [hname, true_imp_iff]
      have hstring : pkt.buffer.storage.drop 6 = pkt.payload := drop_buffer pkt 0
      have hpeek (n : ℕ) :
          UInt8.ofNat (leVal ((pkt.buffer.skip n).peek 1)) = payloadByte pkt n := by
        rw [peek, storage_skip, rpos_skip, rpos_buffer, drop_buffer]
        rfl
      rw [readString_snd, exists_readUint8_bind_iff, exists_readUint8_bind_iff]
      refine (and_congr_right fun _ => and_congr_right fun _ =>
        exists_checkedCreate_iff hcols).trans ?_
      simp only [skip_skip, rpos_skip, size_skip, rpos_buffer, size_buffer, hstring, hpeek]
      constructor
      · rintro ⟨-, hclass, hinsert⟩
        refine ⟨by omega, fun h => ?_⟩
        have := hinsert h
        omega
      · rintro ⟨hclass, hinsert⟩
        refine ⟨by omega, by omega, fun h => ?_⟩
        have := hinsert h
        omega
    · rw [if_pos (checkSize_eq_false_iff.mpr hname)]
      exact iff_of_true ⟨_, rfl⟩ fun h => absurd h hname
  · rw [if_pos (checkSize_eq_false_iff.mpr hsize)]
    exact iff_of_true ⟨_, rfl⟩ fun h => absurd h hsize

end Conn

/-- **The packets the proxy survives** are those whose payload is long enough for what is
read of it, for every packet, every state of the connection and all answers to its
queries. -/
theorem processIncoming_survives_iff (hcols : Conn.AnswersHaveColumn env) (c : Conn)
    (pkt : ClientPkt) :
    (∃ c', c.processIncoming env pkt = some c') ↔ c.ReadsInside env pkt := by
  rw [Conn.processIncoming, Conn.ReadsInside]
  rcases ClientOpcode.ofCode? pkt.opcode with _ | op
  · exact iff_of_true ⟨c, rfl⟩ trivial
  · cases op with
    | cmsgAuthSession => exact Conn.exists_handleCmsgAuthSession_iff
    | cmsgPing => exact Conn.exists_handleCmsgPing_iff
    | cmsgRealmSplit => exact Conn.exists_handleCmsgRealmSplit_iff
    | cmsgCharEnum => exact iff_of_true ⟨_, rfl⟩ trivial
    | cmsgCharCreate => exact Conn.exists_handleCmsgCharCreate_iff hcols
    | cmsgPlayedTime =>
      exact iff_of_true (exists_serverPkt_bind_send (by simp [uint32]) c) trivial

/-- The packet of a client that authenticates is read to its end. -/
theorem processIncoming_survives_iff_sample :
    ∃ c', (Conn.init Sample.start).processIncoming Sample.env Sample.authSession = some c' :=
  (processIncoming_survives_iff (fun _ => le_rfl) (Conn.init Sample.start)
    Sample.authSession).mpr fun _ => by decide

/-- `CMSG_PING` without its number. -/
def Sample.emptyPing : ClientPkt := { Sample.charEnum with opcode := ClientOpcode.cmsgPing.code }

/-- `CMSG_AUTH_SESSION` of the account `A` with four bytes less than there have to be, and
a size that is checked and found to be enough. -/
def Sample.shortAuthSession : ClientPkt where
  siz := 34
  opcode := ClientOpcode.cmsgAuthSession.code
  payload := List.replicate 8 0 ++ [65, 0] ++ List.replicate 20 0
  complete := rfl

/-- Two packets the proxy does not survive. -/
theorem processIncoming_short_eq_none :
    (Conn.init Sample.start).processIncoming Sample.env Sample.emptyPing = none ∧
      (Conn.init Sample.start).processIncoming Sample.env Sample.shortAuthSession = none :=
  ⟨rfl, rfl⟩

end Morfeusz.Proxyd
