import Morfeusz.Proxyd.Authentication
import Morfeusz.Proxyd.Tables

/-!
# The counters of the characters

Every realm has its own table of characters, and all share the table that counts them. The
transaction of a character counts first and inserts then, but to count it updates a row
that nothing ever inserts: where there is none the update changes nothing, and is no error.
So from empty tables on the counters stay at zero, and they are right for as long as no
character has been committed (`Morfeusz.Proxyd.numchars_consistent_iff`).
-/

namespace Morfeusz.Proxyd

/-- The characters of the realms, and the table they share. -/
structure Realms where
  characters : UInt8 → List CharacterRow
  realmcharacters : List RealmcharactersRow

/-- The transaction of `handle_cmsg_char_create` for a character, which is completed; with
`error` something else rolls it back. -/
structure CompletedCreation where
  env : Env
  conn : Conn
  name : List UInt8
  race : UInt8
  pclass : UInt8
  gender : UInt8
  skin : UInt8
  face : UInt8
  hairStyle : UInt8
  hairColor : UInt8
  facialHair : UInt8
  error : Bool

/-- The request that inserts the character. -/
def CompletedCreation.insert (e : CompletedCreation) : ProxydRequest :=
  Conn.playerCreate e.env e.env.maxGuid e.conn.acct.id e.name e.race e.pclass e.gender e.skin e.face
    e.hairStyle e.hairColor e.facialHair

/-- The requests of the transaction. -/
def CompletedCreation.ops (e : CompletedCreation) : List ProxydRequest :=
  [e.conn.incrNumchar e.env.realmid, e.insert]

namespace Realms

/-- Empty tables. -/
def init : Realms := { characters := fun _ => [], realmcharacters := [] }

/-- The tables a proxy of the realm works on. -/
def tables (s : Realms) (realmid : UInt8) : Tables :=
  { characters := s.characters realmid, realmcharacters := s.realmcharacters }

/-- What a completed transaction leaves. -/
def step (db : Database) (s : Realms) (e : CompletedCreation) : Option Realms :=
  match db.call (s.tables e.env.realmid) e.ops with
  | none => some s
  | some t =>
    if e.error then some s
    else
      some
        { characters := Function.update s.characters e.env.realmid t.characters
          realmcharacters := t.realmcharacters }

/-- The counter of an account on a realm, zero where there is no row. -/
def numchars (s : Realms) (realmid : UInt8) (account : UInt32) : ℕ :=
  match s.realmcharacters.find? fun row =>
      row.realmid = realmid.toUInt32 ∧ row.acctid = account with
  | none => 0
  | some row => row.numchars.toNat

/-- The counters are the numbers of characters. -/
def Consistent (s : Realms) : Prop :=
  ∀ realmid account, s.numchars realmid account =
    (s.characters realmid).countP fun row => row.account = account

end Realms

/-- A completed transaction that has inserted nothing: the engine is SQLite, or it was
rolled back. -/
def CompletedCreation.WritesNothing (db : Database) (s : Realms) (e : CompletedCreation) : Prop :=
  db.engine = .sqlite ∨ e.error = true ∨ db.call (s.tables e.env.realmid) e.ops = none

variable {db : Database} {s s' : Realms} {e : CompletedCreation}

/-- The counting changes nothing in an empty table. -/
theorem realmcharacters_call {t t' : Tables} {insert : ProxydRequest} {c : Conn} {realmid : UInt8}
    (hop : insert.statement = .insChar) (hempty : t.realmcharacters = [])
    (h : db.call t [c.incrNumchar realmid, insert] = some t') : t'.realmcharacters = [] := by
  rw [Database.call] at h
  cases hengine : db.engine with
  | sqlite =>
    rw [hengine] at h
    obtain rfl := Option.some.inj h
    exact hempty
  | mysql =>
    rw [hengine] at h
    obtain ⟨t₁, h₁, h⟩ := Option.bind_eq_some_iff.mp h
    obtain ⟨t₂, h₂, h⟩ := Option.bind_eq_some_iff.mp h
    obtain rfl := Option.some.inj h
    obtain ⟨rows, hrows, rfl⟩ := Option.map_eq_some_iff.mp h₁
    obtain ⟨row, -, -, rfl⟩ := Database.insChar_some hop h₂
    rw [hempty] at hrows
    exact (Option.some.inj hrows).symm

/-- A completed transaction on empty tables leaves them as they are, and the counters
right, exactly where it has inserted nothing. -/
theorem step_init (h : Realms.init.step db e = some s') :
    (e.WritesNothing db .init → s' = .init) ∧ (s'.Consistent → e.WritesNothing db .init) := by
  rw [Realms.step] at h
  split at h
  · next hcall =>
    obtain rfl := Option.some.inj h
    exact ⟨fun _ => rfl, fun _ => Or.inr (Or.inr hcall)⟩
  · next t hcall =>
    split at h
    · next herror =>
      obtain rfl := Option.some.inj h
      exact ⟨fun _ => rfl, fun _ => Or.inr (Or.inl herror)⟩
    · next herror =>
      obtain rfl := Option.some.inj h
      rcases Database.call_some rfl hcall with ⟨hengine, rfl⟩ | ⟨hengine, row, -, -, hrow⟩
      · refine ⟨fun _ => ?_, fun _ => Or.inl hengine⟩
        rw [Realms.tables, Function.update_eq_self]
      · constructor
        · rintro (hsqlite | herror' | hnone)
          · rw [hengine] at hsqlite
            cases hsqlite
          · exact absurd herror' herror
          · rw [hnone] at hcall
            cases hcall
        · -- the account of the row has one character, and no counter
          intro hconsistent
          have hempty := realmcharacters_call rfl rfl hcall
          have hcount := hconsistent e.env.realmid row.account
          rw [Realms.numchars, hempty] at hcount
          simp [Realms.tables, Realms.init, hrow] at hcount

/-- **The counters are right for as long as nothing is inserted.** From empty tables, after
every sequence of completed transactions of any accounts on any realms, the counters are the
numbers of characters at every time, if and only if no transaction has inserted its
character. -/
theorem numchars_consistent_iff (db : Database) (es : List CompletedCreation) :
    (∀ i s, Runs.run (Realms.step db) .init (es.take i) = some s → s.Consistent) ↔
      ∀ i s e s', Runs.StepAt (Realms.step db) .init es i s e s' → e.WritesNothing db s := by
  refine Runs.forall_run_take_iff (P := fun s => s = .init) ?_ ?_ ?_ rfl
  · rintro s rfl realmid account
    rfl
  · rintro s e s' rfl hstep hnothing
    exact (step_init hstep).1 hnothing
  · rintro s e s' rfl hstep hconsistent
    exact (step_init hstep).2 hconsistent

/-- MySQL, which compares the bytes of names. -/
def Sample.database : Database where
  engine := .mysql
  sameName name name' := decide (name = name')
  sameName_refl _ := decide_eq_true rfl
  sameName_symm _ _ := decide_eq_decide.mpr eq_comm
  strict := true

/-- The first character of an account, with the name `A`. -/
def Sample.creation : CompletedCreation where
  env := Sample.env
  conn := Conn.init Sample.start
  name := [65]
  race := 1
  pclass := 1
  gender := 0
  skin := 0
  face := 0
  hairStyle := 0
  hairColor := 0
  facialHair := 0
  error := false

/-- The first character is inserted, and not counted. -/
theorem first_character_not_counted :
    ∃ s, Runs.run (Realms.step Sample.database) .init [Sample.creation] = some s ∧
      s.numchars 1 0 = 0 ∧ (s.characters 1).length = 1 ∧ ¬s.Consistent := by
  refine ⟨_, rfl, rfl, rfl, ?_⟩
  intro hconsistent
  exact absurd (hconsistent 1 0) (by decide)

end Morfeusz.Proxyd
