import Morfeusz.Common.Values
import Morfeusz.Proxyd.OwnWrites
import Morfeusz.Proxyd.Reads

/-!
# A character is created, or nothing is

`handle_cmsg_char_create` has eight ways out, and asks three queries on the way to the
last of them. Every one of them tells the client something, once, and only the last draws
a guid and puts a transaction into the queue. What takes it there is what the client was
promised – with one exception: the handler takes a name for free where `rowsCount` is
zero, and does not call `next` before, which SQLite needs to have seen a row
(`Morfeusz.Proxyd.all_or_nothing_iff`).

| what the handler does | theorem |
|---|---|
| it refuses | `Morfeusz.Proxyd.Conn.refuses_of_send` |
| it creates | `Morfeusz.Proxyd.Conn.creates_insertCharacter` |
| one or the other | `Morfeusz.Proxyd.Conn.handleCmsgCharCreate_some` |
-/

namespace Morfeusz.Proxyd

open ByteNumbers ByteBuffer

/-! ### The packet -/

/-- The fields of `CMSG_CHAR_CREATE`. -/
structure CharCreate where
  name : List UInt8
  race : UInt8
  pclass : UInt8
  gender : UInt8
  skin : UInt8
  face : UInt8
  hairStyle : UInt8
  hairColor : UInt8
  facialHair : UInt8
  outfitId : UInt8

/-- What is read only if a character is inserted. -/
def CharCreate.look (f : CharCreate) : List UInt8 :=
  [f.gender, f.skin, f.face, f.hairStyle, f.hairColor, f.facialHair, f.outfitId]

/-- A packet that is long enough for all of the fields, and what they are. -/
def ClientPkt.Holds (pkt : ClientPkt) (f : CharCreate) : Prop :=
  0 ∉ f.name ∧ ∃ rest, pkt.payload = string f.name ++ ([f.race, f.pclass] ++ (f.look ++ rest))

/-- A packet long enough is one with nine bytes behind a terminator. -/
theorem ClientPkt.exists_holds {pkt : ClientPkt} {name rest : List UInt8} (hnul : 0 ∉ name)
    (h : pkt.payload = string name ++ rest) (hlen : 9 ≤ rest.length) : ∃ f, pkt.Holds f := by
  match rest, hlen with
  | race :: pclass :: gender :: skin :: face :: hairStyle :: hairColor :: facialHair ::
      outfitId :: rest, _ =>
    exact ⟨⟨name, race, pclass, gender, skin, face, hairStyle, hairColor, facialHair, outfitId⟩,
      hnul, rest, h⟩

/-- A byte that is there is read, and what is left is behind it. -/
theorem readUint8_bind {β : Type} {buf : ByteBuffer} {v : UInt8} {rest : List UInt8}
    (h : buf.ahead = v :: rest) (next : UInt8 × ByteBuffer → Option β) :
    buf.readUint8 >>= next = next (v, buf.skip 1) := by
  rw [reads_readUint8 v buf rest h]
  rfl

theorem ahead_skip_one {buf : ByteBuffer} {v : UInt8} {rest : List UInt8}
    (h : buf.ahead = v :: rest) : (buf.skip 1).ahead = rest :=
  @ahead_skip buf [v] rest h

namespace Conn

variable {env : Env} {c c' : Conn} {f : CharCreate} {stored : List UInt8}

/-! ### All or nothing -/

/-- The transactions among some operations. -/
def transactions (ops : List SqlOperation) : List (List ProxydRequest) :=
  ops.filterMap SqlOperation.transaction?

/-- The insert with the values of the packet, and the name in its stored form. -/
def insertOf (env : Env) (c : Conn) (f : CharCreate) (stored : List UInt8) : ProxydRequest :=
  playerCreate env env.maxGuid c.acct.id stored f.race f.pclass f.gender f.skin f.face f.hairStyle
    f.hairColor f.facialHair

/-- The number a query of a count is read as, which is zero without a row. -/
def countRead (res : ResultSet) : UInt8 :=
  if res.rows = [] then 0 else (res.next.2.getUint8 1).getD 0

/-- All that a new character needs but a free name: race and class are known, the account
has the expansion, the name may be one, and there is room for another character. -/
structure Admitted (env : Env) (c : Conn) (f : CharCreate) (stored : List UInt8) : Prop where
  race : ∃ raceEntry, env.chrRaces f.race.toUInt32 = some raceEntry ∧
    raceEntry.addon ≤ c.acct.expansion.toUInt32
  pclass : env.chrClasses f.pclass.toUInt32 = true
  name : normalizePlayerName env.locale f.name = some stored
  valid : isValidName env.locale env.stackName stored = true
  account : countRead (env.answer c.numchar) < 50
  server : countRead (env.answer c.charCount) < 10

/-- The query of the name has no row. -/
def IsFree (env : Env) (stored : List UInt8) : Prop := (env.answer (guidFromName stored)).rows = []

/-- What a handler has done: one answer, some operations and some guids. -/
structure Answered (c : Conn) (response : ResponseCodes) (new : List SqlOperation)
    (drawn : List UInt32) (c' : Conn) : Prop where
  reply : ∃ pkt, serverPkt .smsgCharCreate 1 [uint8 response.code] = some pkt ∧
    c'.packetQueue = c.packetQueue ++ [pkt]
  operations : c'.operations = c.operations ++ new
  guids : c'.guids = c.guids ++ drawn

/-- **All or nothing.** -/
structure AllOrNothing (env : Env) (c : Conn) (f : CharCreate) (response : ResponseCodes)
    (new : List SqlOperation) (drawn : List UInt32) : Prop where
  enqueues : transactions new ≠ [] ↔ response = .charCreateSuccess
  draws : drawn ≠ [] ↔ response = .charCreateSuccess
  success : response = .charCreateSuccess ↔ ∃ stored, c.Admitted env f stored ∧ IsFree env stored
  created : ∀ stored, c.Admitted env f stored → IsFree env stored →
    transactions new = [[c.incrNumchar env.realmid, c.insertOf env f stored]] ∧
      drawn = [env.maxGuid]

/-! ### What the handler is told -/

/-- A limit is compared with the number that is read. -/
theorem eq_of_atLimit {res : ResultSet} (hfresh : res.Fresh) {limit : UInt8} (hlimit : 0 < limit)
    {full : Bool} (h : atLimit res limit = some full) : full = decide (limit ≤ countRead res) := by
  rw [atLimit] at h
  rw [countRead]
  by_cases hrows : res.rows = []
  · have hcount := (ResultSet.rowsCount_next_eq_zero_iff hfresh).mpr hrows
    rw [if_neg (by omega)] at h
    rw [if_pos hrows, ← Option.some.inj h]
    exact (decide_eq_false (UInt8.not_le.mpr hlimit)).symm
  · have hcount := mt (ResultSet.rowsCount_next_eq_zero_iff hfresh).mp hrows
    rw [if_pos (by omega)] at h
    obtain ⟨count, hget, rfl⟩ := Option.map_eq_some_iff.mp h
    rw [if_neg hrows, hget]
    rfl

/-- **MySQL knows whether there is a row, and SQLite has not looked.** -/
theorem rowsCount_eq_zero_iff {res : ResultSet} (hfresh : res.Fresh) :
    res.rowsCount = 0 ↔ res.engine = .sqlite ∨ res.rows = [] := by
  rw [ResultSet.rowsCount]
  cases hengine : res.engine with
  | mysql => simp
  | sqlite => exact iff_of_true hfresh (Or.inl rfl)

/-- The checks that need no query. -/
theorem checkCharacter_ok_iff {race pclass : UInt8} {name : List UInt8} :
    c.checkCharacter env race pclass name = .ok stored ↔
      (∃ raceEntry, env.chrRaces race.toUInt32 = some raceEntry ∧
        raceEntry.addon ≤ c.acct.expansion.toUInt32) ∧
      env.chrClasses pclass.toUInt32 = true ∧
      normalizePlayerName env.locale name = some stored ∧
      isValidName env.locale env.stackName stored = true := by
  rw [checkCharacter]
  cases hrace : env.chrRaces race.toUInt32 with
  | none =>
    dsimp only
    refine iff_of_false nofun ?_
    rintro ⟨⟨raceEntry, hentry, -⟩, -⟩
    cases hentry
  | some raceEntry =>
    dsimp only
    constructor
    · intro h
      split at h
      · cases h
      next hclass =>
      split at h
      · cases h
      next haddon =>
      split at h
      · cases h
      next name' hname =>
      split at h
      · next hvalid =>
        obtain rfl := Except.ok.inj h
        exact ⟨⟨raceEntry, rfl, UInt32.not_lt.mp haddon⟩, Bool.eq_true_of_not_eq_false hclass,
          hname, hvalid⟩
      · cases h
    · rintro ⟨⟨raceEntry', hentry, haddon⟩, hclass, hname, hvalid⟩
      obtain rfl := Option.some.inj hentry
      rw [if_neg (by rw [hclass]; exact Bool.noConfusion), if_neg (UInt32.not_lt.mpr haddon), hname]
      dsimp only
      rw [if_pos hvalid]

/-- None of them tells of a success. -/
theorem ne_success_of_checkCharacter {race pclass : UInt8} {name : List UInt8}
    {response : ResponseCodes} (h : c.checkCharacter env race pclass name = .error response) :
    response ≠ .charCreateSuccess := by
  rw [checkCharacter] at h
  split at h
  · exact Except.error.inj h ▸ by decide
  split at h
  · exact Except.error.inj h ▸ by decide
  split at h
  · exact Except.error.inj h ▸ by decide
  split at h
  · exact Except.error.inj h ▸ by decide
  split at h
  · cases h
  · exact Except.error.inj h ▸ by decide

/-! ### The two ways out -/

/-- Nothing is done, and the client is told so. -/
def Refuses (c c' : Conn) : Prop :=
  ∃ response new, response ≠ .charCreateSuccess ∧ c.Answered response new [] c' ∧
    transactions new = []

/-- All is done. -/
def Creates (env : Env) (c : Conn) (f : CharCreate) (stored : List UInt8) (c' : Conn) : Prop :=
  ∃ new, c.Answered .charCreateSuccess new [env.maxGuid] c' ∧
    transactions new = [[c.incrNumchar env.realmid, c.insertOf env f stored]]

/-- What has become of the connection while the handler does nothing but ask. -/
structure Asked (c c₁ : Conn) : Prop where
  acct : c₁.acct = c.acct
  queue : c₁.packetQueue = c.packetQueue
  guids : c₁.guids = c.guids
  operations : ∃ new, c₁.operations = c.operations ++ new ∧ transactions new = []

theorem Asked.refl (c : Conn) : c.Asked c := ⟨rfl, rfl, rfl, [], (List.append_nil _).symm, rfl⟩

theorem Asked.request {c₁ : Conn} (h : c.Asked c₁) (op : ProxydRequest) :
    c.Asked (c₁.enqueue (.request op)) := by
  obtain ⟨hacct, hqueue, hguids, new, hops, hnew⟩ := h
  refine ⟨hacct, hqueue, hguids, new ++ [.request op], ?_, ?_⟩
  · rw [enqueue, hops, List.append_assoc]
  · rw [transactions, List.filterMap_append, ← transactions, hnew]
    rfl

/-- An answer behind some queries refuses. -/
theorem refuses_of_send {c₁ : Conn} {response : ResponseCodes} (h : c.Asked c₁)
    (hresponse : response ≠ .charCreateSuccess) (hsend : c₁.sendCharCreate response = some c') :
    c.Refuses c' := by
  obtain ⟨-, hqueue, hguids, new, hops, hnew⟩ := h
  rw [sendCharCreate] at hsend
  obtain ⟨pkt, hpkt, hsend⟩ := Option.bind_eq_some_iff.mp hsend
  obtain rfl := Option.some.inj hsend
  refine ⟨response, new, hresponse, ⟨⟨pkt, hpkt, ?_⟩, hops, ?_⟩, hnew⟩
  · exact congrArg (· ++ [pkt]) hqueue
  · exact hguids.trans (List.append_nil _).symm

/-- The last way out reads the rest of the packet, draws a guid and enqueues the
transaction. -/
theorem insertCharacter_eq {buf : ByteBuffer} {rest : List UInt8}
    (hbuf : buf.ahead = f.look ++ rest) (c : Conn) :
    c.insertCharacter env f.race f.pclass stored buf =
      ({ c with guids := c.guids ++ [env.maxGuid] }.enqueue (.transaction
        [c.incrNumchar env.realmid, c.insertOf env f stored])).sendCharCreate
          .charCreateSuccess := by
  have hskin := ahead_skip_one hbuf
  have hface := ahead_skip_one hskin
  have hhairStyle := ahead_skip_one hface
  have hhairColor := ahead_skip_one hhairStyle
  have hfacialHair := ahead_skip_one hhairColor
  have houtfitId := ahead_skip_one hfacialHair
  refine (readUint8_bind hbuf _).trans ?_
  refine (readUint8_bind hskin _).trans ?_
  refine (readUint8_bind hface _).trans ?_
  refine (readUint8_bind hhairStyle _).trans ?_
  refine (readUint8_bind hhairColor _).trans ?_
  refine (readUint8_bind hfacialHair _).trans ?_
  exact readUint8_bind houtfitId _

theorem creates_insertCharacter {c₁ : Conn} {buf : ByteBuffer} {rest : List UInt8}
    (h : c.Asked c₁) (hbuf : buf.ahead = f.look ++ rest)
    (hinsert : c₁.insertCharacter env f.race f.pclass stored buf = some c') :
    c.Creates env f stored c' := by
  obtain ⟨hacct, hqueue, hguids, new, hops, hnew⟩ := h
  rw [insertCharacter_eq hbuf, sendCharCreate] at hinsert
  obtain ⟨pkt, hpkt, hsend⟩ := Option.bind_eq_some_iff.mp hinsert
  obtain rfl := Option.some.inj hsend
  refine ⟨new ++ [.transaction [c.incrNumchar env.realmid, c.insertOf env f stored]],
    ⟨⟨pkt, hpkt, congrArg (· ++ [pkt]) hqueue⟩, ?_, congrArg (· ++ [env.maxGuid]) hguids⟩, ?_⟩
  · rw [← List.append_assoc, ← hops, insertOf, insertOf, incrNumchar, incrNumchar, hacct]
    rfl
  · rw [transactions, List.filterMap_append, ← transactions, hnew]
    rfl

/-- The answers let the character be created. -/
def AnswersAllow (env : Env) (c : Conn) (stored : List UInt8) : Prop :=
  (env.answer (guidFromName stored)).rowsCount = 0 ∧ countRead (env.answer c.numchar) < 50 ∧
    countRead (env.answer c.charCount) < 10

/-- **The queries lead to one of two ends.** -/
theorem createCharacter_some {buf : ByteBuffer} {rest : List UInt8}
    (hbuf : buf.ahead = f.look ++ rest)
    (h : c.createCharacter env f.race f.pclass stored buf = some c') :
    c.AnswersAllow env stored ∧ c.Creates env f stored c' ∨
      ¬c.AnswersAllow env stored ∧ c.Refuses c' := by
  rw [createCharacter] at h
  -- the name is looked up first, then the characters of the account, everywhere and here
  have hname := (Asked.refl c).request (guidFromName stored)
  split at h
  · next htaken => exact Or.inr ⟨fun hallow => htaken hallow.1, refuses_of_send hname (by decide) h⟩
  next hfree =>
  obtain ⟨full, hfull, h⟩ := Option.bind_eq_some_iff.mp h
  have haccount := eq_of_atLimit (env.answer_fresh _) (by decide) hfull
  rw [numchar_enqueue] at haccount
  have hnumchar := hname.request c.numchar
  split at h
  · next hlimit =>
    have hle := of_decide_eq_true (haccount.symm.trans hlimit)
    exact Or.inr ⟨fun hallow => UInt8.not_lt.mpr hle hallow.2.1,
      refuses_of_send hnumchar (by decide) h⟩
  next hroom =>
  obtain ⟨full', hfull', h⟩ := Option.bind_eq_some_iff.mp h
  have hserver := eq_of_atLimit (env.answer_fresh _) (by decide) hfull'
  rw [charCount_enqueue, charCount_enqueue] at hserver
  have hcount := hnumchar.request c.charCount
  split at h
  · next hlimit =>
    have hle := of_decide_eq_true (hserver.symm.trans hlimit)
    exact Or.inr ⟨fun hallow => UInt8.not_lt.mpr hle hallow.2.2,
      refuses_of_send hcount (by decide) h⟩
  next hroom' =>
  rw [haccount, decide_eq_true_eq] at hroom
  rw [hserver, decide_eq_true_eq] at hroom'
  exact Or.inl ⟨⟨not_not.mp hfree, UInt8.not_le.mp hroom, UInt8.not_le.mp hroom'⟩,
    creates_insertCharacter hcount hbuf h⟩

/-- The name with its terminator, and the nine bytes behind it. -/
theorem stringBytes_of_holds {pkt : ClientPkt} (hf : pkt.Holds f) :
    stringBytes pkt.payload = f.name.length + 1 ∧ f.name.length + 10 ≤ pkt.payload.length := by
  obtain ⟨hnul, rest, hpayload⟩ := hf
  rw [hpayload]
  refine ⟨?_, ?_⟩
  · rw [stringBytes, readStringLoop_string _ hnul, string, List.length_append]
    rfl
  · simp [string, CharCreate.look]

/-- **Of a packet that is long enough the fields are read**: it is answered at once, or the
name is looked up. -/
theorem handleCmsgCharCreate_of_holds {pkt : ClientPkt} (hf : pkt.Holds f) (c : Conn) :
    (∀ response, c.checkCharacter env f.race f.pclass f.name = .error response →
      c.handleCmsgCharCreate env pkt = c.sendCharCreate response) ∧
    ∀ stored, c.checkCharacter env f.race f.pclass f.name = .ok stored →
      ∃ buf rest, buf.ahead = f.look ++ rest ∧
        c.handleCmsgCharCreate env pkt = c.createCharacter env f.race f.pclass stored buf := by
  have hlen := (stringBytes_of_holds hf).2
  obtain ⟨hnul, rest, hpayload⟩ := hf
  have hsiz := pkt.complete
  have hahead : pkt.buffer.ahead = pkt.payload := drop_buffer pkt 0
  have hname := Option.some.inj (reads_readString hnul pkt.buffer _ (hahead.trans hpayload))
  have hrace := ahead_skip (hahead.trans hpayload)
  have hclass := ahead_skip_one hrace
  rw [handleCmsgCharCreate, if_neg (by rw [checkSize_eq_false_iff]; omega), hname]
  dsimp only
  rw [if_neg (by rw [checkSize_eq_false_iff]; omega), readUint8_bind hrace]
  dsimp only
  rw [readUint8_bind hclass]
  dsimp only
  refine ⟨fun response hcheck => ?_, fun stored hcheck => ⟨_, rest, ahead_skip_one hclass, ?_⟩⟩
  · rw [hcheck]
  · rw [hcheck]

/-- **A packet that is long enough has its character created or is refused it.** -/
theorem handleCmsgCharCreate_some {pkt : ClientPkt} (hf : pkt.Holds f)
    (h : c.handleCmsgCharCreate env pkt = some c') :
    (∃ stored, c.checkCharacter env f.race f.pclass f.name = .ok stored ∧
        c.AnswersAllow env stored ∧ c.Creates env f stored c') ∨
      ((∀ stored, c.checkCharacter env f.race f.pclass f.name = .ok stored →
          ¬c.AnswersAllow env stored) ∧ c.Refuses c') := by
  obtain ⟨hanswers, hasks⟩ := @handleCmsgCharCreate_of_holds env f pkt hf c
  cases hcheck : c.checkCharacter env f.race f.pclass f.name with
  | error response =>
    rw [hanswers response hcheck] at h
    refine Or.inr ⟨fun stored heq => ?_, ?_⟩
    · cases heq
    · exact refuses_of_send (Asked.refl c) (ne_success_of_checkCharacter hcheck) h
  | ok stored =>
    obtain ⟨buf, rest, hbuf, heq⟩ := hasks stored hcheck
    rw [heq] at h
    rcases createCharacter_some hbuf h with ⟨hallow, hcreates⟩ | ⟨hnot, hrefuses⟩
    · exact Or.inl ⟨stored, rfl, hallow, hcreates⟩
    · refine Or.inr ⟨fun stored' heq => ?_, hrefuses⟩
      obtain rfl := Except.ok.inj heq
      exact hnot

/-- Such a packet is survived. -/
theorem exists_handleCmsgCharCreate (hcols : AnswersHaveColumn env) {pkt : ClientPkt}
    (hf : pkt.Holds f) (c : Conn) : ∃ c', c.handleCmsgCharCreate env pkt = some c' := by
  obtain ⟨hbytes, hlen⟩ := stringBytes_of_holds hf
  refine (exists_handleCmsgCharCreate_iff hcols).mpr fun _ _ => ?_
  rw [hbytes]
  exact ⟨by omega, fun _ => by omega⟩

/-! ### All or nothing, where the row of a name is seen -/

/-- The row of a taken name is seen: wherever a name is all that is missing, MySQL has
looked it up or there is no row. -/
def NameSeen (env : Env) (c : Conn) (f : CharCreate) : Prop :=
  ∀ stored, c.Admitted env f stored →
    (env.answer (guidFromName stored)).engine = .mysql ∨ IsFree env stored

/-- Passing the checks and the queries is being admitted, with a count of no rows. -/
theorem passes_iff : (c.checkCharacter env f.race f.pclass f.name = .ok stored ∧
    c.AnswersAllow env stored) ↔
      c.Admitted env f stored ∧ (env.answer (guidFromName stored)).rowsCount = 0 := by
  rw [checkCharacter_ok_iff]
  constructor
  · rintro ⟨⟨hrace, hclass, hname, hvalid⟩, hcount, haccount, hserver⟩
    exact ⟨⟨hrace, hclass, hname, hvalid, haccount, hserver⟩, hcount⟩
  · rintro ⟨⟨hrace, hclass, hname, hvalid, haccount, hserver⟩, hcount⟩
    exact ⟨⟨hrace, hclass, hname, hvalid⟩, hcount, haccount, hserver⟩

/-- The answer of a handler is one. -/
theorem Answered.response_eq {response response' : ResponseCodes} {new new' : List SqlOperation}
    {drawn drawn' : List UInt32} (h : c.Answered response new drawn c')
    (h' : c.Answered response' new' drawn' c') : response = response' :=
  Tells.unique h.reply h'.reply

/-- A name has one stored form. -/
theorem Admitted.unique {stored' : List UInt8} (h : c.Admitted env f stored)
    (h' : c.Admitted env f stored') : stored = stored' :=
  Option.some.inj (h.name.symm.trans h'.name)

/-- A free name is found free, with either engine. -/
theorem rowsCount_eq_zero_of_isFree (h : IsFree env stored) :
    (env.answer (guidFromName stored)).rowsCount = 0 :=
  (rowsCount_eq_zero_iff (env.answer_fresh _)).mpr (Or.inr h)

/-- What is created is created as it has to be, if the name was free. -/
theorem Creates.allOrNothing (h : c.Creates env f stored c') (hadmitted : c.Admitted env f stored)
    (hfree : IsFree env stored) :
    ∃ response new drawn, c.Answered response new drawn c' ∧
      c.AllOrNothing env f response new drawn := by
  obtain ⟨new, hanswered, hnew⟩ := h
  refine ⟨_, new, _, hanswered, ⟨?_, ?_, ?_, fun stored' hadmitted' _ => ?_⟩⟩
  · refine iff_of_true ?_ rfl
    rw [hnew]
    exact List.cons_ne_nil _ _
  · exact iff_of_true (List.cons_ne_nil _ _) rfl
  · exact iff_of_true rfl ⟨stored, hadmitted, hfree⟩
  · obtain rfl := hadmitted.unique hadmitted'
    exact ⟨hnew, rfl⟩

/-- Where nothing is created, nothing had to be. -/
theorem Refuses.allOrNothing (h : c.Refuses c')
    (hnot : ∀ stored, c.Admitted env f stored → ¬IsFree env stored) :
    ∃ response new drawn, c.Answered response new drawn c' ∧
      c.AllOrNothing env f response new drawn := by
  obtain ⟨response, new, hresponse, hanswered, hnew⟩ := h
  refine ⟨response, new, [], hanswered, ⟨?_, ?_, ?_, fun stored hadmitted hfree => ?_⟩⟩
  · exact iff_of_false (not_not.mpr hnew) hresponse
  · exact iff_of_false (not_not.mpr rfl) hresponse
  · refine iff_of_false hresponse ?_
    rintro ⟨stored, hadmitted, hfree⟩
    exact hnot stored hadmitted hfree
  · exact absurd hfree (hnot stored hadmitted)

end Conn

open Conn

section Handled

variable {env : Env} {f : CharCreate}

/-- Everything a handler promises and does for one packet. -/
def HandledWhole (env : Env) (c : Conn) (pkt : ClientPkt) (f : CharCreate) : Prop :=
  ∃ c' response new drawn, c.handleCmsgCharCreate env pkt = some c' ∧
    c.Answered response new drawn c' ∧ c.AllOrNothing env f response new drawn

/-- A packet handled like this has not found a name free that is taken. -/
theorem HandledWhole.nameSeen {c : Conn} {pkt : ClientPkt} (hf : pkt.Holds f)
    (h : HandledWhole env c pkt f) : c.NameSeen env f := by
  obtain ⟨c', response, new, drawn, hc', hanswered, hall⟩ := h
  rcases handleCmsgCharCreate_some hf hc' with
    ⟨stored, hcheck, hallow, hcreates⟩ | ⟨hnot, hrefuses⟩
  · -- a success that is promised has found the name free
    obtain ⟨new', hanswered', -⟩ := hcreates
    obtain ⟨stored', hadmitted, hfree⟩ := hall.success.mp (hanswered.response_eq hanswered')
    exact fun stored'' hadmitted' => Or.inr (hadmitted.unique hadmitted' ▸ hfree)
  · intro stored hadmitted
    by_contra! hunseen
    have hsqlite : (env.answer (guidFromName stored)).engine = .sqlite := by
      cases hengine : (env.answer (guidFromName stored)).engine with
      | mysql => exact absurd hengine hunseen.1
      | sqlite => rfl
    obtain ⟨hcheck, hallow⟩ := passes_iff.mpr
      ⟨hadmitted, (rowsCount_eq_zero_iff (env.answer_fresh _)).mpr (Or.inl hsqlite)⟩
    exact hnot stored hcheck hallow

/-- **A character is created, or nothing is**: for all tables of races and classes, all
answers and every packet that is long enough, there is exactly one answer, it tells of a
success exactly where a guid is drawn and the transaction is enqueued, and it does so
exactly where all is as it has to be, if and only if the row of a taken name is seen. -/
theorem all_or_nothing_iff (hcols : AnswersHaveColumn env) (c : Conn) {pkt : ClientPkt}
    (hf : pkt.Holds f) : HandledWhole env c pkt f ↔ c.NameSeen env f := by
  refine ⟨fun h => h.nameSeen hf, fun hseen => ?_⟩
  obtain ⟨c', hc'⟩ := exists_handleCmsgCharCreate hcols hf c
  rcases handleCmsgCharCreate_some hf hc' with
    ⟨stored, hcheck, hallow, hcreates⟩ | ⟨hnot, hrefuses⟩
  · obtain ⟨hadmitted, hcount⟩ := passes_iff.mp ⟨hcheck, hallow⟩
    have hfree : IsFree env stored := by
      rcases (rowsCount_eq_zero_iff (env.answer_fresh _)).mp hcount with hsqlite | hfree
      · rcases hseen stored hadmitted with hmysql | hfree
        · cases hsqlite.symm.trans hmysql
        · exact hfree
      · exact hfree
    obtain ⟨response, new, drawn, hall⟩ := hcreates.allOrNothing hadmitted hfree
    exact ⟨c', response, new, drawn, hc', hall⟩
  · obtain ⟨response, new, drawn, hall⟩ := hrefuses.allOrNothing fun stored hadmitted hfree => by
      obtain ⟨hcheck, hallow⟩ := passes_iff.mpr ⟨hadmitted, rowsCount_eq_zero_of_isFree hfree⟩
      exact hnot stored hcheck hallow
    exact ⟨c', response, new, drawn, hc', hall⟩

end Handled

/-! ### A name that is taken -/

namespace CreateSample

/-- The fields of `Morfeusz.Proxyd.RaceSample.charCreate`. -/
def fields : CharCreate where
  name := [65]
  race := 1
  pclass := 1
  gender := 0
  skin := 0
  face := 0
  hairStyle := 0
  hairColor := 0
  facialHair := 0
  outfitId := 0

theorem holds_fields : RaceSample.charCreate.Holds fields := ⟨by decide, [], rfl⟩

/-- The answers of SQLite where a character of the account has the name. -/
def taken (op : ProxydRequest) : ResultSet :=
  { engine := .sqlite
    numFields := 1
    rows := if op.statement = .getPlrGuidFromName then [[.integer 4 7]] else [[.integer 8 1]] }

def env : Env := { RaceSample.env 1 with answer := taken, answer_fresh := fun _ => rfl }

theorem admitted_taken : (Conn.init Sample.start).Admitted env fields [65] where
  race := ⟨{ addon := 0 }, rfl, by decide⟩
  pclass := rfl
  name := rfl
  valid := by decide
  account := by decide
  server := by decide

end CreateSample

/-- The character is created where the name is free. -/
theorem all_or_nothing_iff_sample :
    HandledWhole (RaceSample.env 1) (Conn.init Sample.start) RaceSample.charCreate
      CreateSample.fields :=
  (all_or_nothing_iff (fun _ => le_rfl) (Conn.init Sample.start) CreateSample.holds_fields).mpr
    fun _ _ => Or.inl rfl

/-- **SQLite creates a second character of one name.** -/
theorem not_handledWhole_taken :
    ¬∀ (env : Env) (c : Conn) (pkt : ClientPkt) (f : CharCreate), AnswersHaveColumn env →
      pkt.Holds f → HandledWhole env c pkt f := by
  intro hclaim
  have hcols : AnswersHaveColumn CreateSample.env := fun _ => le_rfl
  have hwhole := hclaim _ (Conn.init Sample.start) _ _ hcols CreateSample.holds_fields
  have hseen := hwhole.nameSeen CreateSample.holds_fields [65] CreateSample.admitted_taken
  rcases hseen with hmysql | hfree
  · cases hmysql
  · cases hfree

end Morfeusz.Proxyd
