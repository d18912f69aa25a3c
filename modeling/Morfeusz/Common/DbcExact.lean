import Mathlib.Tactic.FinCases
import Morfeusz.Common.DbcImages

/-!
# The tables that are loaded as documented

For items and enchantments an image is loaded exactly. The names of races and classes are
taken from strings that are gone by the end of the statement: no column ever writes a name
that is there (`Morfeusz.Dbc.Holds.load`), so that as soon as there is one record there is an
entry without its names (`Morfeusz.Dbc.exact_iff`).
-/

namespace Morfeusz.Dbc

/-! ### What no column writes -/

section Keeps

variable {E : Type} [Inhabited E] {stack : Stack} {s s' : Loading E} {op : Op E}
  {layout ops : List (Op E)} {P : E → Prop}

/-- A column keeps a property of an entry. -/
def Op.Keeps (P : E → Prop) (op : Op E) : Prop := ∀ text v e, P e → P (op.effect text v e)

/-- The entries have a property. -/
def Holds (P : E → Prop) (entries : UInt32 → Option E) : Prop :=
  ∀ entry e, entries entry = some e → P e

omit [Inhabited E] in
theorem Holds.assign {set : E → E} (h : Holds P s.entries) (hset : ∀ e, P e → P (set e)) :
    Holds P (s.assign set) := by
  intro entry e he
  rw [Loading.assign] at he
  split at he
  · obtain ⟨e', he', rfl⟩ := Option.map_eq_some_iff.mp he
    exact hset e' (h entry e' he')
  · exact h entry e he

/-- One column. -/
theorem Holds.step (h : Holds P s.entries) (hdefault : P default) (hkeeps : op.Keeps P)
    (hs : s.step stack op = some s') : Holds P s'.entries := by
  by_cases hthrown : s.thrown.isSome = true
  · rw [step_of_thrown hthrown] at hs
    obtain rfl := Option.some.inj hs
    exact h
  rw [step_of_not_thrown (Option.not_isSome_iff_eq_none.mp hthrown)] at hs
  cases op with
  | entry set =>
    obtain rfl := Option.some.inj hs
    intro entry e he
    dsimp only at he
    split at he
    · obtain rfl := Option.some.inj he
      refine hkeeps (fun _ => []) _ _ ?_
      cases hold : s.entries entry with
      | none => exact hdefault
      | some e => exact h entry e hold
    · exact h entry e he
  | uint32 set =>
    obtain rfl := Option.some.inj hs
    exact h.assign (hkeeps (fun _ => []) _)
  | string set =>
    obtain ⟨r, -, hr⟩ := Option.bind_eq_some_iff.mp hs
    cases r with
    | error e =>
      obtain rfl := Option.some.inj hr
      exact h
    | ok r =>
      obtain rfl := Option.some.inj hr
      exact h.assign (hkeeps (fun _ => r.1) 0)
  | skip =>
    obtain rfl := Option.some.inj hs
    exact h

/-- One column after the other. -/
theorem Holds.run (h : Holds P s.entries) (hdefault : P default)
    (hkeeps : ∀ op ∈ ops, op.Keeps P) (hs : Runs.run (Loading.step stack) s ops = some s') :
    Holds P s'.entries := by
  induction ops generalizing s with
  | nil =>
    obtain rfl := Option.some.inj hs
    exact h
  | cons op ops ih =>
    obtain ⟨hop, hops⟩ := List.forall_mem_cons.mp hkeeps
    rw [Runs.run_cons] at hs
    obtain ⟨s₁, hs₁, hrun⟩ := Option.bind_eq_some_iff.mp hs
    exact ih (h.step hdefault hop hs₁) hops hrun

/-- **A property that every column keeps holds of what is loaded**, from any file at all. -/
theorem Holds.load {src : String} {content : Option (List UInt8)} {entries : UInt32 → Option E}
    {r : Result E} (h : Holds P entries) (hdefault : P default)
    (hkeeps : ∀ op ∈ layout, op.Keeps P)
    (hr : load stack src layout content entries = some r) : Holds P r.entries := by
  have hcolumns (rounds : ℕ) : ∀ op ∈ columns layout rounds, op.Keeps P := by
    intro op hop
    obtain ⟨ops, hops, hmem⟩ := List.mem_flatten.mp hop
    exact hkeeps op (List.eq_of_mem_replicate hops ▸ hmem)
  obtain ⟨opening, hopening, hr⟩ := Option.bind_eq_some_iff.mp hr
  cases opening with
  | error e =>
    obtain rfl := Option.some.inj hr
    exact h
  | ok dbc =>
    obtain ⟨s, hs, hr⟩ := Option.bind_eq_some_iff.mp hr
    obtain rfl := Option.some.inj hr
    rw [loadLoop, loadRecords_eq, loadRecords_eq] at hs
    split at hs
    · exact Holds.run h hdefault (hcolumns _) hs
    · obtain ⟨s₁, hs₁, hs⟩ := Option.bind_eq_some_iff.mp hs
      split at hs
      · obtain rfl := Option.some.inj hs
        exact Holds.run h hdefault (hcolumns _) hs₁
      · cases hs

variable {fields : ℕ} {strings : List ℕ} {src : String}
  {documented : (ℕ → UInt32) → (UInt32 → List UInt8) → E}

/-- An image with a record is not loaded exactly, where its entry is to have what no column
writes. -/
theorem Image.not_exact {image : Image fields strings} (hrecords : image.records ≠ [])
    (hdefault : P default) (hkeeps : ∀ op ∈ layout, op.Keeps P)
    (hnot : ∀ col text, ¬P (documented col text)) :
    ¬Exact (Dbc.load stack src layout) documented image := by
  rintro ⟨entries, dbc, hload, -, hentries⟩
  obtain ⟨record, hrecord⟩ := List.exists_mem_of_ne_nil _ hrecords
  obtain ⟨last, hlast⟩ : ∃ last, lastOf image.records (Image.col record 0) = some last := by
    refine Option.isSome_iff_exists.mp (List.find?_isSome.mpr ⟨record, ?_, ?_⟩)
    · exact List.mem_reverse.mpr hrecord
    · exact decide_eq_true rfl
  have hholds : Holds P entries := Holds.load nofun hdefault hkeeps hload
  have hentry : entries (Image.col record 0) =
      some (documented (Image.col last) image.text) := by
    rw [hentries, Image.entries, hlast, Option.map_some]
  exact hnot _ _ (hholds _ _ hentry)

/-- So only an image without a record is. -/
theorem Image.exact_iff_nil {set : UInt32 → E → E} {cols : List (Op E)}
    (image : Image fields strings) (hlayout : cols.length + 1 = fields)
    (hsize : 4 * fields < 2 ^ 32) (hentry : ∀ op ∈ cols, op.isEntry = false)
    (hdefault : P default) (hkeeps : ∀ op ∈ .entry set :: cols, op.Keeps P)
    (hnot : ∀ col text, ¬P (documented col text)) :
    Exact (Dbc.load stack src (.entry set :: cols)) documented image ↔ image.records = [] := by
  constructor
  · intro hexact
    by_contra hrecords
    exact Image.not_exact hrecords hdefault hkeeps hnot hexact
  · intro hrecords
    refine image.exact_load stack src hlayout hsize hentry fun record hrecord => ?_
    rw [hrecords] at hrecord
    cases hrecord

end Keeps

/-! ### The four tables -/

section Tables

variable {fields : ℕ} {strings : List ℕ}

/-- Whatever was in the entry of an item is written over. -/
theorem fill_itemLayout (text : UInt32 → List UInt8) (col : ℕ → UInt32) (e : ItemEntry) :
    fill text col 0 itemLayout e = documentedItem col text := rfl

/-- Whatever was in the entry of an enchantment is written over. -/
theorem fill_spellItemEnchantmentLayout (text : UInt32 → List UInt8) (col : ℕ → UInt32)
    (e : SpellItemEnchantmentEntry) :
    fill text col 0 spellItemEnchantmentLayout e = documentedSpellItemEnchantment col text := by
  have hthree (a : Fin 3 → UInt32) (i : ℕ) :
      Function.update (Function.update (Function.update a 0 (col i)) 1 (col (i + 1))) 2
        (col (i + 2)) = fun j : Fin 3 => col (i + j) := by
    funext j
    match j with
    | 0 => rfl
    | 1 => rfl
    | 2 => rfl
  rw [documentedSpellItemEnchantment, ← hthree e.type 1, ← hthree e.amount 4, ← hthree e.spellId 10]
  rfl

/-- The columns that are read as strings are those the image has strings in. -/
theorem Image.offset_of_layout {E : Type} {image : Image fields strings} {layout : List (Op E)}
    (hstrings : ∀ j < layout.length, (layout.map Op.isString)[j]? = some true → j ∈ strings)
    {record : List UInt32} (hrecord : record ∈ image.records) :
    ∀ j op, layout[j]? = some op → op.isString = true →
      (Image.col record j).toNat < image.block.length := by
  intro j op hop hstring
  have hmap : (layout.map Op.isString)[j]? = some true := by
    rw [List.getElem?_map, hop, Option.map_some, hstring]
  have hlt : j < layout.length := (List.getElem?_eq_some_iff.mp hop).1
  exact image.offsets record hrecord j (hstrings j hlt hmap)

/-- **Items are loaded exactly.** -/
theorem exact_loadItemDbc (stack : Stack) (path : String) (image : Image 4 []) :
    Exact (loadItemDbc stack path) documentedItem image := by
  refine image.exact_load stack _ rfl (by decide) (by decide) fun record hrecord => ⟨?_, ?_⟩
  · exact Image.offset_of_layout (by decide) hrecord
  · exact fill_itemLayout _ _

/-- **Enchantments are loaded exactly.** -/
theorem exact_loadSpellItemEnchantmentsDbc (stack : Stack) (path : String)
    (image : Image 34 [13]) :
    Exact (loadSpellItemEnchantmentsDbc stack path) documentedSpellItemEnchantment image := by
  refine image.exact_load stack _ rfl (by decide) (by decide) fun record hrecord => ⟨?_, ?_⟩
  · exact Image.offset_of_layout (by decide) hrecord
  · exact fill_spellItemEnchantmentLayout _ _

end Tables

/-! ### Names that are gone -/

/-- None of the names is there. -/
def Nameless (name : Fin 16 → CharPtr) : Prop := ∀ j str, name j ≠ .text str

/-- The name from a temporary is not there. -/
theorem Nameless.update {name : Fin 16 → CharPtr} (h : Nameless name) (j : Fin 16)
    (str : List UInt8) : Nameless (Function.update name j (.ofTemporary str)) := by
  intro j' str'
  rcases eq_or_ne j' j with rfl | hne
  · rw [Function.update_self, CharPtr.ofTemporary]
    exact nofun
  · rw [Function.update_of_ne hne]
    exact h j' str'

/-- No column of a race writes a name that is there. -/
theorem keeps_chrRacesLayout :
    ∀ op ∈ chrRacesLayout, op.Keeps fun e : ChrRacesEntry => Nameless e.name := by
  intro op hop
  rw [chrRacesLayout, List.mem_append, List.mem_append, List.mem_append] at hop
  rcases hop with ((hop | hop) | hop) | hop
  · revert op
    simp [Op.Keeps, Op.effect]
  · obtain ⟨j, -, rfl⟩ := List.mem_map.mp hop
    exact fun text v e h => h.update j (text v)
  · obtain rfl := List.eq_of_mem_replicate hop
    exact fun _ _ _ h => h
  · obtain rfl := List.mem_singleton.mp hop
    exact fun _ _ _ h => h

/-- No column of a class writes a name that is there. -/
theorem keeps_chrClassesLayout :
    ∀ op ∈ chrClassesLayout, op.Keeps fun e : ChrClassesEntry => Nameless e.name := by
  intro op hop
  rw [chrClassesLayout, List.mem_append, List.mem_append, List.mem_append] at hop
  rcases hop with ((hop | hop) | hop) | hop
  · revert op
    simp [Op.Keeps, Op.effect]
  · obtain ⟨j, -, rfl⟩ := List.mem_map.mp hop
    exact fun text v e h => h.update j (text v)
  · obtain rfl := List.eq_of_mem_replicate hop
    exact fun _ _ _ h => h
  · revert op
    simp [Op.Keeps, Op.effect]

/-- Sixteen names, one after the other. -/
theorem names_eq (name : Fin 16 → CharPtr) (strs : Fin 16 → List UInt8) :
    (List.finRange 16).foldl
      (fun name j => Function.update name j (CharPtr.ofTemporary (strs j))) name =
        fun _ => .dangling := by
  funext j
  fin_cases j <;> rfl

/-- **Apart from its names a race has the columns it should have.** -/
theorem exact_loadChrRacesDbc_of_nameless (stack : Stack) (path : String)
    (image : Image 69 (List.range' 14 16)) :
    Exact (loadChrRacesDbc stack path)
      (fun col text => { documentedChrRaces col text with name := fun _ => .dangling }) image := by
  refine image.exact_load stack _ rfl (by decide) (by decide) fun record hrecord => ⟨?_, ?_⟩
  · exact Image.offset_of_layout (by decide) hrecord
  · intro e
    rw [← names_eq e.name fun j => image.text (Image.col record (14 + j))]
    rfl

/-- **Apart from its names and its power a class has the columns it should have.** The power
is in the column before the one it should be in, and so are the offsets of the names. -/
theorem exact_loadChrClassesDbc_of_nameless (stack : Stack) (path : String)
    (image : Image 58 (List.range' 4 16)) :
    Exact (loadChrClassesDbc stack path)
      (fun col text => { documentedChrClasses col text with
        powertype := col 2
        name := fun _ => .dangling }) image := by
  refine image.exact_load stack _ rfl (by decide) (by decide) fun record hrecord => ⟨?_, ?_⟩
  · exact Image.offset_of_layout (by decide) hrecord
  · intro e
    rw [← names_eq e.name fun j => image.text (Image.col record (4 + j))]
    rfl

/-- **Races are loaded exactly where there are none.** -/
theorem exact_loadChrRacesDbc_iff (stack : Stack) (path : String)
    (image : Image 69 (List.range' 14 16)) :
    Exact (loadChrRacesDbc stack path) documentedChrRaces image ↔ image.records = [] := by
  refine image.exact_iff_nil rfl (by decide) (by decide) ?_ keeps_chrRacesLayout ?_
  · exact fun _ _ => nofun
  · exact fun col text h => h 0 _ rfl

/-- **Classes are loaded exactly where there are none.** -/
theorem exact_loadChrClassesDbc_iff (stack : Stack) (path : String)
    (image : Image 58 (List.range' 5 16)) :
    Exact (loadChrClassesDbc stack path) documentedChrClasses image ↔ image.records = [] := by
  refine image.exact_iff_nil rfl (by decide) (by decide) ?_ keeps_chrClassesLayout ?_
  · exact fun _ _ => nofun
  · exact fun col text h => h 0 _ rfl

/-- **Which files are loaded exactly.** Whatever the stack holds, every image of the items and
of the enchantments is, and one of the races or of the classes if and only if it has no
record. -/
theorem exact_iff (stack : Stack) (path : String) :
    (∀ image : Image 4 [], Exact (loadItemDbc stack path) documentedItem image) ∧
    (∀ image : Image 34 [13],
      Exact (loadSpellItemEnchantmentsDbc stack path) documentedSpellItemEnchantment image) ∧
    (∀ image : Image 69 (List.range' 14 16),
      Exact (loadChrRacesDbc stack path) documentedChrRaces image ↔ image.records = []) ∧
    ∀ image : Image 58 (List.range' 5 16),
      Exact (loadChrClassesDbc stack path) documentedChrClasses image ↔ image.records = [] :=
  ⟨exact_loadItemDbc stack path, exact_loadSpellItemEnchantmentsDbc stack path,
    exact_loadChrRacesDbc_iff stack path, exact_loadChrClassesDbc_iff stack path⟩

/-! ### A race -/

namespace Sample

/-- One race, whose first name is `Human`. -/
def human : Image 69 (List.range' 14 16) where
  records := [[1] ++ List.replicate 13 0 ++ [1] ++ List.replicate 54 0]
  block := [0, 72, 117, 109, 97, 110, 0]
  width := by decide
  more := by decide
  ends := by decide
  offsets := by decide
  small := by decide

end Sample

/-- The name of the race is gone. -/
theorem not_exact_human :
    ¬Exact (loadChrRacesDbc Sample.zeros "") documentedChrRaces Sample.human := by
  rw [exact_loadChrRacesDbc_iff]
  exact List.cons_ne_nil _ _

end Morfeusz.Dbc
