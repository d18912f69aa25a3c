import Morfeusz.Common.DbcFile
import Morfeusz.Lib.Runs

/-!
# The tables that are loaded from the files of the game

`DBC_Store` has a map for each of four files and a function for each that fills it. They all
do the same: for every record the identifier is read, the entry of that identifier is looked
up or made, and one column after the other is read into it or skipped. What the columns are
for is the layout of a table; the rest is `Morfeusz.Dbc.load`.

A load function finishes or throws, if and only if the header does not divide by zero, the
counter of the records does not overflow and every string that is read has an end
(`Morfeusz.Dbc.loaders_end_iff`).
-/

namespace Morfeusz.Dbc

open ByteNumbers

/-! ### Loading a table -/

/-- What is done with the next column of a record. -/
inductive Op (E : Type)
  /-- It is the identifier of an entry, which is made if it is new. -/
  | entry (set : UInt32 → E → E)
  | uint32 (set : UInt32 → E → E)
  | string (set : List UInt8 → E → E)
  | skip

/-- A string is read. -/
def Op.isString {E : Type} : Op E → Bool
  | .string _ => true
  | _ => false

/-- A map and the file it is loaded from. -/
structure Loading (E : Type) where
  dbc : DbcFile
  /-- The identifier of the entry that is filled. -/
  current : UInt32
  entries : UInt32 → Option E
  thrown : Option DbcReadException

variable {E : Type}

/-- Something is done to the entry that is filled. -/
def Loading.assign (s : Loading E) (set : E → E) : UInt32 → Option E :=
  fun id => if id = s.current then (s.entries id).map set else s.entries id

variable (stack : Stack)

/-- One column is read, or skipped. -/
def Loading.column [Inhabited E] (s : Loading E) : Op E → Option (Loading E)
  | .entry set =>
    let (entry, dbc) := s.dbc.readUint32 stack
    some { s with
      dbc
      current := entry
      entries := fun id =>
        if id = entry then some (set entry ((s.entries id).getD default)) else s.entries id }
  | .uint32 set =>
    let (v, dbc) := s.dbc.readUint32 stack
    some { s with dbc, entries := s.assign (set v) }
  | .string set => do
    match ← s.dbc.readString stack with
    | .error e => some { s with thrown := some e }
    | .ok (str, dbc) => some { s with dbc, entries := s.assign (set str) }
  | .skip => some { s with dbc := s.dbc.skipField }

/-- The next column. Once an exception was thrown nothing is done. -/
def Loading.step [Inhabited E] (s : Loading E) (op : Op E) : Option (Loading E) :=
  if s.thrown.isSome then some s else s.column stack op

/-- A number of rounds of the loop over the records. -/
def loadRecords [Inhabited E] (layout : List (Op E)) : ℕ → Loading E → Option (Loading E)
  | 0, s => some s
  | rounds + 1, s => do
    let s ← Runs.run (Loading.step stack) s layout
    loadRecords layout rounds s

/-- The loop over the records. Its counter is an `int`, which must not get any greater than
that. -/
def loadLoop [Inhabited E] (layout : List (Op E)) (s : Loading E) : Option (Loading E) :=
  if s.dbc.records.toNat < 2 ^ 31 then loadRecords stack layout s.dbc.records.toNat s
  else do
    let s ← loadRecords stack layout (2 ^ 31) s
    if s.thrown.isSome then some s else none

/-- What a load function leaves: the file as well, where it could be opened. -/
structure Result (E : Type) where
  entries : UInt32 → Option E
  thrown : Option DbcReadException
  dbc : Option DbcFile

/-- A load function with a layout. -/
def load [Inhabited E] (src : String) (layout : List (Op E)) (content : Option (List UInt8))
    (entries : UInt32 → Option E) : Option (Result E) := do
  match ← DbcFile.new stack src content with
  | .error e => some { entries, thrown := some e, dbc := none }
  | .ok dbc =>
    let s ← loadLoop stack layout { dbc, current := 0, entries, thrown := none }
    some { entries := s.entries, thrown := s.thrown, dbc := some s.dbc }

/-! ### The entries -/

/-- `ItemEntry`. -/
structure ItemEntry where
  displayId : UInt32
  inventoryType : UInt32
  sheath : UInt32
  deriving Inhabited, DecidableEq

/-- `SpellItemEnchantmentEntry`. -/
structure SpellItemEnchantmentEntry where
  type : Fin 3 → UInt32
  amount : Fin 3 → UInt32
  spellId : Fin 3 → UInt32
  desc : List UInt8
  auraId : UInt32
  slot : UInt32
  gemId : UInt32
  enchantmentCondition : UInt32
  deriving Inhabited

/-- A `char*`: a null pointer, one to a text, or one to a text that is no more. -/
inductive CharPtr
  | null
  | text (str : List UInt8)
  | dangling
  deriving Inhabited, DecidableEq

/-- `c_str` of a string that is destroyed at the end of the expression. -/
def CharPtr.ofTemporary (_ : List UInt8) : CharPtr := .dangling

/-- `ChrRacesEntry`. -/
structure ChrRacesEntry where
  raceId : UInt32
  factionId : UInt32
  modelM : UInt32
  modelF : UInt32
  teamId : UInt32
  startmovie : UInt32
  name : Fin 16 → CharPtr
  addon : UInt32
  deriving Inhabited

/-- `ChrClassesEntry`. -/
structure ChrClassesEntry where
  classId : UInt32
  powertype : UInt32
  name : Fin 16 → CharPtr
  spellfamily : UInt32
  deriving Inhabited

/-! ### The four tables -/

/-- The columns of `Item.dbc`. -/
def itemLayout : List (Op ItemEntry) :=
  [.entry fun _ item => item,
    .uint32 fun v item => { item with displayId := v },
    .uint32 fun v item => { item with inventoryType := v },
    .uint32 fun v item => { item with sheath := v }]

/-- The columns of `SpellItemEnchantment.dbc`. -/
def spellItemEnchantmentLayout : List (Op SpellItemEnchantmentEntry) :=
  ([.entry fun _ spell => spell,
    .uint32 fun v spell => { spell with type := Function.update spell.type 0 v },
    .uint32 fun v spell => { spell with type := Function.update spell.type 1 v },
    .uint32 fun v spell => { spell with type := Function.update spell.type 2 v },
    .uint32 fun v spell => { spell with amount := Function.update spell.amount 0 v },
    .uint32 fun v spell => { spell with amount := Function.update spell.amount 1 v },
    .uint32 fun v spell => { spell with amount := Function.update spell.amount 2 v },
    .skip, .skip, .skip,
    .uint32 fun v spell => { spell with spellId := Function.update spell.spellId 0 v },
    .uint32 fun v spell => { spell with spellId := Function.update spell.spellId 1 v },
    .uint32 fun v spell => { spell with spellId := Function.update spell.spellId 2 v },
    .string fun str spell => { spell with desc := str }] : List (Op SpellItemEnchantmentEntry)) ++
  List.replicate 16 .skip ++
  [.uint32 fun v spell => { spell with auraId := v },
    .uint32 fun v spell => { spell with slot := v },
    .uint32 fun v spell => { spell with gemId := v },
    .uint32 fun v spell => { spell with enchantmentCondition := v }]

/-- The columns of `ChrRaces.dbc`. -/
def chrRacesLayout : List (Op ChrRacesEntry) :=
  ([.entry fun entry crentry => { crentry with raceId := entry },
    .skip,
    .uint32 fun v crentry => { crentry with factionId := v },
    .skip,
    .uint32 fun v crentry => { crentry with modelM := v },
    .uint32 fun v crentry => { crentry with modelF := v },
    .skip, .skip,
    .uint32 fun v crentry => { crentry with teamId := v },
    .skip, .skip, .skip, .skip,
    .uint32 fun v crentry => { crentry with startmovie := v }] : List (Op ChrRacesEntry)) ++
  (List.finRange 16).map (fun j => .string fun str crentry =>
    { crentry with name := Function.update crentry.name j (.ofTemporary str) }) ++
  List.replicate 38 .skip ++
  [.uint32 fun v crentry => { crentry with addon := v }]

/-- The columns of `ChrClasses.dbc`. -/
def chrClassesLayout : List (Op ChrClassesEntry) :=
  ([.entry fun entry clentry => { clentry with classId := entry },
    .skip,
    .uint32 fun v clentry => { clentry with powertype := v },
    .skip] : List (Op ChrClassesEntry)) ++
  (List.finRange 16).map (fun j => .string fun str clentry =>
    { clentry with name := Function.update clentry.name j (.ofTemporary str) }) ++
  List.replicate 36 .skip ++
  [.uint32 fun v clentry => { clentry with spellfamily := v },
    .skip]

/-- `load_item_dbc`. -/
def loadItemDbc (path : String) := load stack (path ++ "Item.dbc") itemLayout

/-- `load_spell_item_enchantments_dbc`. -/
def loadSpellItemEnchantmentsDbc (path : String) :=
  load stack (path ++ "SpellItemEnchantment.dbc") spellItemEnchantmentLayout

/-- `load_chr_races_dbc`. -/
def loadChrRacesDbc (path : String) := load stack (path ++ "ChrRaces.dbc") chrRacesLayout

/-- `load_chr_classes_dbc`. -/
def loadChrClassesDbc (path : String) := load stack (path ++ "ChrClasses.dbc") chrClassesLayout

end Morfeusz.Dbc
