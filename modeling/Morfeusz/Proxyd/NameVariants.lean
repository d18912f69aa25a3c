import Morfeusz.Common.Names
import Morfeusz.Proxyd.CharCreate

/-!
# A taken name in another case

Whatever case a client writes a name in, `handle_cmsg_char_create` asks for the one stored
form of it (`Morfeusz.CanonicalForms`), so that the query has a row whenever the name is
taken in any case. With MySQL the handler sees that row. With SQLite it takes the name for
free: it looks at `rowsCount` before the first `next`, where SQLite has stepped over no row
(`Morfeusz.Proxyd.canonical_names_iff`).
-/

namespace Morfeusz.Proxyd

open ByteNumbers ByteBuffer

namespace Conn

variable {env : Env} {c c₁ c' : Conn} {f : CharCreate} {pkt : ClientPkt} {stored : List UInt8}
variable {response : ResponseCodes}

/-- A packet is handled, and the client is told that the name is in use. -/
def TellsInUse (env : Env) (c : Conn) (pkt : ClientPkt) : Prop :=
  ∃ c', c.handleCmsgCharCreate env pkt = some c' ∧ c.Tells c' .charCreateNameInUse

/-- An answer behind some queries. -/
theorem tells_of_send (hasked : c.Asked c₁) (h : c₁.sendCharCreate response = some c') :
    c.Tells c' response := by
  obtain ⟨pkt, hpkt, hsent⟩ := sendCharCreate_some h
  exact ⟨pkt, hpkt, hsent.trans (congrArg (· ++ [pkt]) hasked.queue)⟩

/-- Where the query counts no row, something else is told. -/
theorem tells_of_createCharacter {race pclass : UInt8} {buf : ByteBuffer}
    (hcount : (env.answer (guidFromName stored)).rowsCount = 0)
    (h : c.createCharacter env race pclass stored buf = some c') :
    ∃ response, response ≠ .charCreateNameInUse ∧ c.Tells c' response := by
  have hname := (Asked.refl c).request (guidFromName stored)
  have hnumchar := hname.request c.numchar
  rw [createCharacter] at h
  dsimp only at h
  rw [if_neg (not_not.mpr hcount)] at h
  obtain ⟨full, -, h⟩ := Option.bind_eq_some_iff.mp h
  split at h
  · exact ⟨.charCreateAccountLimit, by decide, tells_of_send hnumchar h⟩
  obtain ⟨full', -, h⟩ := Option.bind_eq_some_iff.mp h
  have hcharCount := hnumchar.request c.charCount
  split at h
  · exact ⟨.charCreateServerLimit, by decide, tells_of_send hcharCount h⟩
  · obtain ⟨pkt, hpkt, hsent⟩ := toldSuccess_of_insertCharacter h
    exact ⟨.charCreateSuccess, by decide, pkt, hpkt,
      hsent.trans (congrArg (· ++ [pkt]) hcharCount.queue)⟩

/-- **The client is told so exactly where the query counts a row.** -/
theorem tellsInUse_iff (hf : pkt.Holds f)
    (hcheck : c.checkCharacter env f.race f.pclass f.name = .ok stored) :
    c.TellsInUse env pkt ↔ (env.answer (guidFromName stored)).rowsCount ≠ 0 := by
  obtain ⟨buf, rest, -, heq⟩ := (handleCmsgCharCreate_of_holds hf c).2 stored hcheck
  rw [TellsInUse, heq]
  constructor
  · rintro ⟨c', hc', htells⟩ hcount
    obtain ⟨response, hne, htells'⟩ := tells_of_createCharacter hcount hc'
    exact hne (htells'.unique htells)
  · intro hcount
    obtain ⟨c', hc'⟩ := exists_sendCharCreate (c.enqueue (.request (guidFromName stored)))
      .charCreateNameInUse
    refine ⟨c', ?_, tells_of_send ((Asked.refl c).request _) hc'⟩
    rw [createCharacter]
    exact (if_pos hcount).trans hc'

end Conn

open Conn

/-- A character has the name, but for the case of its letters. -/
def Tables.IsTaken (tables : Tables) (stack : ℕ → UInt32) (name : List UInt8) : Prop :=
  ∃ row ∈ tables.characters, ∃ taken, IsAscii taken ∧
    acceptedName cLocale stack taken = some row.name ∧ EqIgnoringCase taken name

/-- The query asks for the very row. -/
theorem exists_row_of_isTaken (db : Database) {tables : Tables} {stack : ℕ → UInt32}
    {name stored : List UInt8} (hascii : IsAscii name) (h : tables.IsTaken stack name)
    (hstored : acceptedName cLocale stack name = some stored) :
    (db.select tables (guidFromName stored)).rows ≠ [] := by
  obtain ⟨row, hrow, taken, htaken, haccepted, hsame⟩ := h
  have hname := Option.filter_eq_some_iff.mp hstored
  have heq : row.name = stored :=
    (stored_eq_iff (Option.filter_eq_some_iff.mp haccepted).1 hname.1).mpr hsame
  have hletters := ((isValidName_stored_iff hascii hname.1).mp hname.2).2
  have hnul : 0 ∉ stored := by
    intro hmem
    have hletter := (eqIgnoringCase_of_normalize hname.1).letters_iff.mpr hletters 0 hmem
    cases hletter
  have hfound : row ∈ tables.characters.filter fun row => db.sameName row.name (cStr stored) := by
    rw [cStr_of_not_mem hnul, List.mem_filter, heq]
    exact ⟨hrow, db.sameName_refl stored⟩
  exact List.ne_nil_of_mem (List.mem_map_of_mem hfound)

/-- A name taken in another case may be stored. -/
theorem Tables.IsTaken.exists_stored {tables : Tables} {stack : ℕ → UInt32} {name : List UInt8}
    (hascii : IsAscii name) (h : tables.IsTaken stack name) :
    ∃ stored, acceptedName cLocale stack name = some stored := by
  obtain ⟨row, -, taken, htaken, haccepted, hsame⟩ := h
  obtain ⟨hpos, hlen, hletters⟩ := (exists_acceptedName_iff htaken).mp ⟨_, haccepted⟩
  rw [exists_acceptedName_iff hascii, ← hsame.length_eq, ← hsame.letters_iff]
  exact ⟨hpos, hlen, hletters⟩

/-- **Names in one stored form.** In the C locale the stored forms are what they are for,
whatever the engine. That the handler tells a client that its name is in use, if it is taken
in any case, holds with MySQL, and with SQLite for no name that is. -/
theorem canonical_names_iff {env : Env} (hlocale : env.locale = cLocale) (db : Database)
    (tables : Tables)
    (hanswer : ∀ stored, env.answer (guidFromName stored) =
      db.select tables (guidFromName stored))
    (c : Conn) {pkt : ClientPkt} {f : CharCreate} (hf : pkt.Holds f) (hascii : IsAscii f.name)
    (hrace : ∃ raceEntry, env.chrRaces f.race.toUInt32 = some raceEntry ∧
      raceEntry.addon ≤ c.acct.expansion.toUInt32)
    (hclass : env.chrClasses f.pclass.toUInt32 = true) :
    CanonicalForms env.locale env.stackName ∧
        (tables.IsTaken env.stackName f.name → c.TellsInUse env pkt) ↔
      db.engine = .mysql ∨ ¬tables.IsTaken env.stackName f.name := by
  rw [hlocale, and_iff_right (canonicalForms_cLocale env.stackName)]
  by_cases htaken : tables.IsTaken env.stackName f.name
  · obtain ⟨stored, hstored⟩ := htaken.exists_stored hascii
    have hrows := exists_row_of_isTaken db hascii htaken hstored
    obtain ⟨hname, hvalid⟩ := Option.filter_eq_some_iff.mp hstored
    have hcheck : c.checkCharacter env f.race f.pclass f.name = .ok stored := by
      rw [checkCharacter_ok_iff, hlocale]
      exact ⟨hrace, hclass, hname, hvalid⟩
    have hcount := rowsCount_eq_zero_iff (env.answer_fresh (guidFromName stored))
    rw [hanswer] at hcount
    have hengine : (db.select tables (guidFromName stored)).engine = db.engine := rfl
    rw [tellsInUse_iff hf hcheck, hanswer, Ne, hcount, hengine]
    cases db.engine <;> simp [htaken, hrows]
  · exact iff_of_true (fun h => absurd h htaken) (Or.inr htaken)

/-! ### The name `a` where there is a character `A` -/

namespace VariantSample

def tables : Tables where
  characters := [{
    guid := 7
    account := 2
    name := [65]
    race := 1
    pclass := 1
    gender := 0
    level := 1
    playerBytes := 0
    playerBytes2 := 0
    zone := 0
    map := 0
    positionX := 0
    positionY := 0
    positionZ := 0 }]
  realmcharacters := []

def fields : CharCreate := { CreateSample.fields with name := [97] }

/-- `CMSG_CHAR_CREATE` for the name `a`. -/
def charCreate : ClientPkt where
  siz := 15
  opcode := ClientOpcode.cmsgCharCreate.code
  payload := [97, 0, 1, 1, 0, 0, 0, 0, 0, 0, 0]
  complete := rfl

theorem holds_fields : charCreate.Holds fields := ⟨by decide, [], rfl⟩

theorem isAscii_fields : IsAscii fields.name := by decide

theorem fresh_select (db : Database) (op : ProxydRequest) : (db.select tables op).Fresh := by
  rw [Database.select]
  split <;> rfl

/-- The C locale and a database server with the table. -/
def env (db : Database) : Env :=
  { RaceSample.env 1 with
    locale := cLocale
    answer := db.select tables
    answer_fresh := fresh_select db }

theorem isTaken_fields : tables.IsTaken (fun _ => 0) fields.name :=
  ⟨_, List.mem_singleton_self _, [65], by decide, rfl, .cons (Or.inr (Or.inl ⟨rfl, rfl⟩)) .nil⟩

def sqlite : Database := { Sample.database with engine := .sqlite }

end VariantSample

open VariantSample

/-- MySQL finds it. -/
theorem canonical_names_sample :
    (Conn.init Sample.start).TellsInUse (VariantSample.env Sample.database)
      VariantSample.charCreate :=
  ((canonical_names_iff rfl Sample.database tables (fun _ => rfl) (Conn.init Sample.start)
    VariantSample.holds_fields isAscii_fields ⟨{ addon := 0 }, rfl, by decide⟩ rfl).mpr
      (Or.inl rfl)).2 isTaken_fields

/-- **SQLite does not.** -/
theorem not_canonical_names_sqlite :
    ¬∀ (env : Env) (db : Database) (tables : Tables) (c : Conn) (pkt : ClientPkt)
      (f : CharCreate), env.locale = cLocale →
      (∀ stored, env.answer (guidFromName stored) = db.select tables (guidFromName stored)) →
      pkt.Holds f → IsAscii f.name →
      (∃ raceEntry, env.chrRaces f.race.toUInt32 = some raceEntry ∧
        raceEntry.addon ≤ c.acct.expansion.toUInt32) →
      env.chrClasses f.pclass.toUInt32 = true →
      CanonicalForms env.locale env.stackName ∧
        (tables.IsTaken env.stackName f.name → c.TellsInUse env pkt) := by
  intro hclaim
  have htells := (hclaim (VariantSample.env sqlite) sqlite tables (Conn.init Sample.start) _ _ rfl
    (fun _ => rfl) VariantSample.holds_fields isAscii_fields ⟨{ addon := 0 }, rfl, by decide⟩
    rfl).2 isTaken_fields
  have hcheck : (Conn.init Sample.start).checkCharacter (VariantSample.env sqlite) 1 1 [97] =
      .ok [65] := rfl
  exact (tellsInUse_iff VariantSample.holds_fields hcheck).mp htells rfl

end Morfeusz.Proxyd
