import Morfeusz.Common.DbcTermination

/-!
# What is loaded from a file that is as it should be

An image of a DBC file (`Morfeusz.Dbc.Image`) is its header, its records and its block of
strings. The functions that load one go through the records column by column, whether they
read it or skip it, so that a layout with as many columns as the file has fields comes to
the end of the records (`Morfeusz.Dbc.Image.exact_load`), with an entry for each identifier
that holds the columns of its last record.

What the columns should be is what `DBC_Store.h` says of each table
(`Morfeusz.Dbc.Exact`).
-/

namespace Morfeusz.Dbc

open ByteNumbers ByteBuffer

/-! ### Images -/

/-- A file of records of some number of fields, of which some are offsets of strings. -/
structure Image (fields : ℕ) (strings : List ℕ) where
  records : List (List UInt32)
  block : List UInt8
  width : ∀ record ∈ records, record.length = fields
  more : 1 < block.length
  ends : block.getLast? = some 0
  offsets : ∀ record ∈ records, ∀ j ∈ strings, (record.getD j 0).toNat < block.length
  small : 4 * (5 + records.length * fields) + block.length < 2 ^ 31

namespace Image

variable {fields : ℕ} {strings : List ℕ} (image : Image fields strings)

/-- The header: the signature, the number of the records, that of their fields, their size,
and the size of the block of strings. -/
def header : List UInt32 :=
  [0x43424457, UInt32.ofNat image.records.length, UInt32.ofNat fields,
    UInt32.ofNat (4 * fields), UInt32.ofNat image.block.length]

/-- The words of the file in front of the strings. -/
def words : List UInt32 := image.header ++ image.records.flatten

/-- The content of the file. -/
def bytes : List UInt8 := image.words.flatMap uint32 ++ image.block

/-- The string at an offset. -/
def text (offset : UInt32) : List UInt8 := (image.block.drop offset.toNat).takeWhile (· ≠ 0)

/-- The column of a record. -/
def col (record : List UInt32) (i : ℕ) : UInt32 := record.getD i 0

end Image

/-! ### What the tables are for -/

/-- The columns of an item. -/
def documentedItem (col : ℕ → UInt32) (_ : UInt32 → List UInt8) : ItemEntry where
  displayId := col 1
  inventoryType := col 2
  sheath := col 3

/-- The columns of an enchantment. -/
def documentedSpellItemEnchantment (col : ℕ → UInt32) (text : UInt32 → List UInt8) :
    SpellItemEnchantmentEntry where
  type := fun j => col (1 + j)
  amount := fun j => col (4 + j)
  spellId := fun j => col (10 + j)
  desc := text (col 13)
  auraId := col 30
  slot := col 31
  gemId := col 32
  enchantmentCondition := col 33

/-- The columns of a race. -/
def documentedChrRaces (col : ℕ → UInt32) (text : UInt32 → List UInt8) : ChrRacesEntry where
  raceId := col 0
  factionId := col 2
  modelM := col 4
  modelF := col 5
  teamId := col 8
  startmovie := col 13
  name := fun j => .text (text (col (14 + j)))
  addon := col 68

/-- The columns of a class. -/
def documentedChrClasses (col : ℕ → UInt32) (text : UInt32 → List UInt8) : ChrClassesEntry where
  classId := col 0
  powertype := col 3
  name := fun j => .text (text (col (5 + j)))
  spellfamily := col 56

section Exact

variable {E : Type} {fields : ℕ} {strings : List ℕ}

/-- The last record with an identifier. -/
def lastOf (records : List (List UInt32)) (entry : UInt32) : Option (List UInt32) :=
  records.reverse.find? fun record => Image.col record 0 = entry

/-- The entries there should be: for each identifier the columns of the last record with
it. -/
def Image.entries (image : Image fields strings) (documented : (ℕ → UInt32) →
    (UInt32 → List UInt8) → E) (entry : UInt32) : Option E :=
  (lastOf image.records entry).map fun record => documented (Image.col record) image.text

/-- **A file is loaded exactly**: nothing is thrown, the position is at the end of the
records, and the map is what it should be. -/
def Exact (loader : Option (List UInt8) → (UInt32 → Option E) → Option (Result E))
    (documented : (ℕ → UInt32) → (UInt32 → List UInt8) → E) (image : Image fields strings) :
    Prop :=
  ∃ entries dbc, loader (some image.bytes) (fun _ => none) =
      some { entries, thrown := none, dbc := some dbc } ∧
    dbc.file.pos = 20 + 4 * fields * image.records.length ∧
    entries = image.entries documented

end Exact

/-! ### The words of a file -/

theorem drop_flatMap_uint32 {ws : List UInt32} {k : ℕ} (h : k ≤ ws.length) (tail : List UInt8) :
    (ws.flatMap uint32 ++ tail).drop (4 * k) = (ws.drop k).flatMap uint32 ++ tail := by
  induction k generalizing ws with
  | zero => rfl
  | succ k ih =>
    rcases ws with _ | ⟨w, ws⟩
    · cases h
    · rw [List.flatMap_cons, List.append_assoc, Nat.mul_succ, Nat.add_comm, ← List.drop_drop,
        List.drop_left' (length_uint32 w), ih (Nat.le_of_succ_le_succ h), List.drop_succ_cons]

theorem length_flatMap_uint32 (ws : List UInt32) : (ws.flatMap uint32).length = 4 * ws.length := by
  induction ws with
  | nil => rfl
  | cons w ws ih =>
    rw [List.flatMap_cons, List.length_append, length_uint32, ih, List.length_cons]
    omega

/-- A word is at four times its place. -/
theorem drop_of_word {ws : List UInt32} {k : ℕ} {v : UInt32} (h : ws[k]? = some v)
    (tail : List UInt8) :
    (ws.flatMap uint32 ++ tail).drop (4 * k) =
      uint32 v ++ ((ws.drop (k + 1)).flatMap uint32 ++ tail) := by
  obtain ⟨hlt, hget⟩ := List.getElem?_eq_some_iff.mp h
  rw [drop_flatMap_uint32 hlt.le, List.drop_eq_getElem_cons hlt, hget, List.flatMap_cons,
    List.append_assoc]

/-- A word that is there is read. -/
theorem Reader.readUint32_of_rest {r : Reader} {v : UInt32} {more : List UInt8} (stack : Stack)
    (hfailed : r.file.failed = false) (hrest : r.file.rest = uint32 v ++ more) :
    r.readUint32 stack =
      (v, { file := { r.file with pos := r.file.pos + 4 }, calls := r.calls + 1 }) := by
  have hread := @InputStream.read_of_le UInt8 r.file 4 hfailed (by
    rw [hrest, List.length_append, length_uint32]
    exact Nat.le_add_right _ _)
  have htake : r.file.rest.take 4 = uint32 v := by
    rw [hrest]
    exact List.take_left' (length_uint32 v)
  have hjunk : (stack r.calls).val.drop 4 = [] :=
    List.drop_eq_nil_of_le (stack r.calls).property.le
  have hval : leVal (uint32 v) = v.toNat := leVal_leBytes_of_lt v.toNat_lt
  rw [Reader.readUint32, hread]
  dsimp only
  rw [htake, length_uint32, hjunk, List.append_nil, hval, UInt32.ofNat_toNat]

namespace Image

variable {fields : ℕ} {strings : List ℕ} {image : Image fields strings}

theorem length_flatten (image : Image fields strings) :
    image.records.flatten.length = image.records.length * fields := by
  have hall {records : List (List UInt32)} (h : ∀ record ∈ records, record.length = fields) :
      records.flatten.length = records.length * fields := by
    induction records with
    | nil => simp
    | cons record records ih =>
      obtain ⟨hrecord, hrecords⟩ := List.forall_mem_cons.mp h
      rw [List.flatten_cons, List.length_append, hrecord, ih hrecords, List.length_cons,
        Nat.succ_mul, Nat.add_comm]
  exact hall image.width

theorem length_words (image : Image fields strings) :
    image.words.length = 5 + image.records.length * fields := by
  rw [words, List.length_append, length_flatten]
  rfl

theorem length_bytes (image : Image fields strings) :
    image.bytes.length = 4 * image.words.length + image.block.length := by
  rw [bytes, List.length_append, length_flatMap_uint32]

/-- The words of the header are read as they are. -/
theorem headerWord_eq (image : Image fields strings) (stack : Stack) {i : ℕ} {v : UInt32}
    (h : image.header[i]? = some v) : headerWord stack image.bytes i = v := by
  have hword : image.words[i]? = some v := by
    rw [words, List.getElem?_append_left (List.getElem?_eq_some_iff.mp h).1]
    exact h
  have htake : (image.bytes.drop (4 * i)).take 4 = uint32 v := by
    rw [bytes, drop_of_word hword]
    exact List.take_left' (length_uint32 v)
  have hjunk : (stack i).val.drop 4 = [] := List.drop_eq_nil_of_le (stack i).property.le
  have hval : leVal (uint32 v) = v.toNat := leVal_leBytes_of_lt v.toNat_lt
  rw [headerWord, htake, length_uint32, hjunk, List.append_nil, hval, UInt32.ofNat_toNat]

/-- The file stands at a word. -/
structure At (image : Image fields strings) (k : ℕ) (dbc : DbcFile) : Prop where
  content : dbc.file.content = image.bytes
  failed : dbc.file.failed = false
  pos : dbc.file.pos = 4 * k
  block : ¬dbc.stringBlockSize ≤ 1
  fieldSize : dbc.fieldSize = 4
  dataSize : dbc.dataSize.toNat = 4 * image.words.length

variable {stack : Stack} {dbc : DbcFile} {k : ℕ} {v : UInt32}

/-- A column that is read. -/
theorem At.readUint32 (h : image.At k dbc) (stack : Stack) (hv : image.words[k]? = some v) :
    ∃ dbc', dbc.readUint32 stack = (v, dbc') ∧ image.At (k + 1) dbc' := by
  have hrest : dbc.reader.file.rest =
      uint32 v ++ ((image.words.drop (k + 1)).flatMap uint32 ++ image.block) := by
    have hcontent := h.content
    have hpos := h.pos
    rw [DbcFile.file] at hcontent hpos
    rw [InputStream.rest, hcontent, hpos, bytes, drop_of_word hv]
  rw [DbcFile.readUint32, Reader.readUint32_of_rest stack h.failed hrest]
  refine ⟨_, rfl, h.content, h.failed, ?_, h.block, h.fieldSize, h.dataSize⟩
  change dbc.file.pos + 4 = _
  rw [h.pos]
  rfl

/-- A column that is skipped. -/
theorem At.skipField (h : image.At k dbc) : image.At (k + 1) dbc.skipField := by
  have hfile : dbc.skipField.file = { dbc.file with pos := dbc.file.pos + 4 } := by
    rw [DbcFile.skipField, DbcFile.file, InputStream.seekCur, h.fieldSize,
      InputStream.seek_of_not_failed h.failed]
    rfl
  refine ⟨?_, ?_, ?_, h.block, h.fieldSize, h.dataSize⟩
  · rw [hfile]
    exact h.content
  · rw [hfile]
    exact h.failed
  · rw [hfile, h.pos]
    rfl

/-- The string at an offset has an end. -/
theorem mem_drop_block (image : Image fields strings) {n : ℕ} (h : n < image.block.length) :
    0 ∈ image.block.drop n := by
  have hlast : (image.block.drop n).getLast? = some 0 := by
    rw [List.getLast?_drop, if_neg (by omega)]
    exact image.ends
  exact List.mem_of_getLast? hlast

/-- A column with the offset of a string: the position is behind it again. -/
theorem At.readString (h : image.At k dbc) (stack : Stack)
    (hv : image.words[k]? = some v) (hoffset : v.toNat < image.block.length) :
    ∃ dbc', dbc.readString stack = some (.ok (image.text v, dbc')) ∧ image.At (k + 1) dbc' := by
  obtain ⟨dbc₁, hread, hat⟩ := h.readUint32 stack hv
  have hsmall : 4 * image.words.length + image.block.length < 2 ^ 31 := by
    rw [length_words]
    exact image.small
  have hlt : k < image.words.length := (List.getElem?_eq_some_iff.mp hv).1
  have hstart : (dbc₁.dataSize + v).toNat = 4 * image.words.length + v.toNat := by
    rw [UInt32.toNat_add, hat.dataSize, Nat.mod_eq_of_lt (by omega)]
  have htell : (tellg dbc₁.file).toNat = 4 * (k + 1) := by
    rw [tellg, InputStream.tell, if_neg (by rw [hat.failed]; exact Bool.false_ne_true), hat.pos]
    exact UInt32.toNat_ofNat_of_lt' (by rw [UInt32.size]; omega)
  -- the stream at the first character of the string
  obtain ⟨file, hfile⟩ : ∃ file, dbc₁.file.seek (dbc₁.dataSize + v).toNat = file := ⟨_, rfl⟩
  have heq : file = { dbc₁.file with pos := 4 * image.words.length + v.toNat } := by
    rw [← hfile, InputStream.seek_of_not_failed hat.failed, hstart]
  have hfailed : file.failed = false := by
    rw [heq]
    exact hat.failed
  have hrest : file.rest = image.block.drop v.toNat := by
    rw [heq, InputStream.rest, hat.content, bytes, ← List.drop_drop, ← length_flatMap_uint32,
      List.drop_left]
  have hlen : file.rest.length ≤ file.content.length + 1 := by
    rw [InputStream.rest, List.length_drop]
    omega
  obtain ⟨pos, hloop⟩ := @charLoop_of_mem (dbc₁.char stack) file [] _ hfailed
    (by rw [hrest]; exact image.mem_drop_block hoffset) hlen
  rw [hrest, List.nil_append] at hloop
  rw [DbcFile.readString, if_neg h.block, hread]
  dsimp only
  rw [hfile, hloop, Option.map_some, InputStream.seek_of_not_failed (by exact hfailed), htell]
  refine ⟨_, rfl, ?_, ?_, rfl, hat.block, hat.fieldSize, hat.dataSize⟩
  · change file.content = _
    rw [heq]
    exact hat.content
  · exact hfailed

/-- The numbers of the header are small. -/
theorem toNat_headerWord (image : Image fields strings) (stack : Stack) {i n : ℕ}
    (h : image.header[i]? = some (UInt32.ofNat n)) (hn : n < 2 ^ 32) :
    (headerWord stack image.bytes i).toNat = n := by
  rw [image.headerWord_eq stack h]
  exact UInt32.toNat_ofNat_of_lt' hn

/-- The size of the data in front of the strings. -/
theorem toNat_dataSize {records recordSize : UInt32} {n : ℕ} (hrecords : records.toNat = n)
    (hsize : recordSize.toNat = 4 * fields) (hsmall : 4 * (5 + n * fields) < 2 ^ 32) :
    (records * recordSize + 20).toNat = 4 * (5 + n * fields) := by
  have hmul : n * (4 * fields) = 4 * (n * fields) := by ring
  rw [UInt32.toNat_add, UInt32.toNat_mul, hrecords, hsize, hmul]
  change (4 * (n * fields) % 2 ^ 32 + 20) % 2 ^ 32 = _
  rw [Nat.mod_eq_of_lt (by omega), Nat.mod_eq_of_lt (by omega)]
  omega

/-- **The constructor opens an image**, and stands at its first record. -/
theorem at_opened (image : Image fields strings) (stack : Stack) (src : String)
    (hfields : 0 < fields) (hsize : 4 * fields < 2 ^ 32) :
    DbcFile.new stack src (some image.bytes) = some (.ok (opened stack src image.bytes)) ∧
      image.At 5 (opened stack src image.bytes) ∧
      (opened stack src image.bytes).records.toNat = image.records.length := by
  have hsmall := image.small
  have hmore := image.more
  have hlen := image.length_bytes
  have hwords := image.length_words
  have hle : image.records.length ≤ image.records.length * fields :=
    Nat.le_mul_of_pos_right _ hfields
  have hn := @toNat_headerWord _ _ image stack 1 image.records.length rfl (by omega)
  have hf := @toNat_headerWord _ _ image stack 2 fields rfl (by omega)
  have hs := @toNat_headerWord _ _ image stack 3 (4 * fields) rfl hsize
  have hb := @toNat_headerWord _ _ image stack 4 image.block.length rfl (by omega)
  have hsignature : headerWord stack image.bytes 0 = 0x43424457 := image.headerWord_eq stack rfl
  have hne : headerWord stack image.bytes 2 ≠ 0 := by
    intro hzero
    rw [hzero] at hf
    exact hfields.ne hf
  refine ⟨?_, ⟨rfl, ?_, ?_, ?_, ?_, ?_⟩, hn⟩
  · rw [new_eq, if_neg (not_not.mpr hsignature), if_neg hne]
  · exact decide_eq_false (show ¬image.bytes.length < 4 * 5 by omega)
  · exact min_eq_left (show 4 * 5 ≤ image.bytes.length by omega)
  · change ¬headerWord stack image.bytes 4 ≤ 1
    rw [UInt32.le_iff_toNat_le, hb]
    exact not_le.mpr hmore
  · change headerWord stack image.bytes 3 / headerWord stack image.bytes 2 = 4
    refine UInt32.toNat_inj.mp ?_
    rw [UInt32.toNat_div, hs, hf, Nat.mul_div_cancel _ hfields]
    rfl
  · rw [hwords]
    exact toNat_dataSize hn hs (by omega)

end Image

/-! ### The columns of a record -/

section Columns

variable {E : Type} [Inhabited E] {fields : ℕ} {strings : List ℕ} {image : Image fields strings}
  {stack : Stack} {s s' : Loading E} {k : ℕ} {v : UInt32} {op : Op E} {cols : List (Op E)}

/-- What a column does to an entry. -/
def Op.effect (text : UInt32 → List UInt8) (v : UInt32) : Op E → E → E
  | .entry set => set v
  | .uint32 set => set v
  | .string set => set (text v)
  | .skip => id

/-- An entry that is filled with some columns of a record, from one on. -/
def fill (text : UInt32 → List UInt8) (col : ℕ → UInt32) : ℕ → List (Op E) → E → E
  | _, [], e => e
  | i, op :: ops, e => fill text col (i + 1) ops (op.effect text (col i) e)

/-- An identifier is read. -/
def Op.isEntry : Op E → Bool
  | .entry _ => true
  | _ => false

omit [Inhabited E] in
/-- Where nothing is done to the entry. -/
theorem Loading.assign_id (s : Loading E) : s.assign id = s.entries := by
  funext entry
  rw [Loading.assign, Option.map_id]
  exact ite_self _

/-- The loading of an image, at a word and without an exception. -/
structure LoadingAt (image : Image fields strings) (k : ℕ) (s : Loading E) : Prop where
  dbc : image.At k s.dbc
  thrown : s.thrown = none

/-- **A column of an entry.** -/
theorem LoadingAt.step (h : LoadingAt image k s) (stack : Stack) (hv : image.words[k]? = some v)
    (hentry : op.isEntry = false)
    (hoffset : op.isString = true → v.toNat < image.block.length) :
    ∃ s', s.step stack op = some s' ∧ LoadingAt image (k + 1) s' ∧ s'.current = s.current ∧
      s'.entries = s.assign (op.effect image.text v) := by
  rw [step_of_not_thrown h.thrown]
  cases op with
  | entry set => cases hentry
  | uint32 set =>
    obtain ⟨dbc, hread, hat⟩ := h.dbc.readUint32 stack hv
    rw [Loading.column, hread]
    exact ⟨_, rfl, ⟨hat, h.thrown⟩, rfl, rfl⟩
  | string set =>
    obtain ⟨dbc, hread, hat⟩ := h.dbc.readString stack hv (hoffset rfl)
    rw [Loading.column, hread]
    exact ⟨_, rfl, ⟨hat, h.thrown⟩, rfl, rfl⟩
  | skip =>
    exact ⟨_, rfl, ⟨h.dbc.skipField, h.thrown⟩, rfl, (s.assign_id).symm⟩

/-- The columns of an entry, one after the other. -/
theorem LoadingAt.run {col : ℕ → UInt32} {i : ℕ} (h : LoadingAt image k s)
    (hcol : ∀ j < cols.length, image.words[k + j]? = some (col (i + j)))
    (hentry : ∀ op ∈ cols, op.isEntry = false)
    (hoffset : ∀ j op, cols[j]? = some op → op.isString = true →
      (col (i + j)).toNat < image.block.length) :
    ∃ s', Runs.run (Loading.step stack) s cols = some s' ∧ LoadingAt image (k + cols.length) s' ∧
      s'.entries = s.assign (fill image.text col i cols) := by
  induction cols generalizing s k i with
  | nil =>
    exact ⟨s, rfl, h, (s.assign_id).symm⟩
  | cons op cols ih =>
    obtain ⟨hop, hcols⟩ := List.forall_mem_cons.mp hentry
    obtain ⟨s₁, hstep, h₁, hcurrent, hentries⟩ :=
      h.step stack (hcol 0 (Nat.succ_pos _)) hop (hoffset 0 op rfl)
    have hshift (j : ℕ) : i + (j + 1) = i + 1 + j := by omega
    obtain ⟨s', hrun, h', hentries'⟩ := @ih s₁ (k + 1) (i + 1) h₁
      (fun j hj => by
        rw [← hshift, Nat.add_assoc, Nat.add_comm 1 j]
        exact hcol (j + 1) (Nat.succ_lt_succ hj))
      hcols (fun j op' hop' hstring => by
        rw [← hshift]
        exact hoffset (j + 1) op' hop' hstring)
    refine ⟨s', ?_, ?_, ?_⟩
    · rw [Runs.run_cons_of_step hstep, hrun]
    · rw [List.length_cons, Nat.add_comm cols.length 1, ← Nat.add_assoc]
      exact h'
    · rw [hentries']
      funext entry
      rw [Loading.assign, hcurrent, hentries, Loading.assign, Loading.assign]
      by_cases hid : entry = s.current
      · rw [if_pos hid, if_pos hid, if_pos hid, Option.map_map]
        rfl
      · rw [if_neg hid, if_neg hid, if_neg hid]

/-- **A record**: its entry is filled with the columns, and the other entries stay. -/
theorem LoadingAt.record {set : UInt32 → E → E} {record : List UInt32} (h : LoadingAt image k s)
    (hwidth : record.length = cols.length + 1)
    (hrecord : ∀ j < record.length, image.words[k + j]? = some (Image.col record j))
    (hentry : ∀ op ∈ cols, op.isEntry = false)
    (hoffset : ∀ j op, cols[j]? = some op → op.isString = true →
      (Image.col record (j + 1)).toNat < image.block.length) :
    ∃ s', Runs.run (Loading.step stack) s (.entry set :: cols) = some s' ∧
      LoadingAt image (k + record.length) s' ∧
      s'.entries = fun entry => if entry = Image.col record 0 then
        some (fill image.text (Image.col record) 0 (.entry set :: cols)
          ((s.entries entry).getD default))
      else s.entries entry := by
  obtain ⟨dbc, hread, hat⟩ := h.dbc.readUint32 stack (hrecord 0 (by omega))
  obtain ⟨s₁, hs₁⟩ : ∃ s₁, s.column stack (.entry set) = some s₁ := ⟨_, rfl⟩
  have heq : s₁ = { s with
      dbc
      current := Image.col record 0
      entries := fun entry => if entry = Image.col record 0 then
        some (set (Image.col record 0) ((s.entries entry).getD default))
      else s.entries entry } := by
    rw [Loading.column, hread] at hs₁
    exact (Option.some.inj hs₁).symm
  have hstep : s.step stack (.entry set) = some s₁ := by rw [step_of_not_thrown h.thrown, hs₁]
  have h₁ : LoadingAt image (k + 1) s₁ := by
    rw [heq]
    exact ⟨hat, h.thrown⟩
  obtain ⟨s', hrun, h', hentries⟩ := @LoadingAt.run E _ _ _ image stack s₁ (k + 1) cols
    (Image.col record) 1 h₁ (fun j hj => by
      rw [Nat.add_assoc]
      exact hrecord (1 + j) (by omega))
    hentry (fun j op hop hstring => by
      rw [Nat.add_comm]
      exact hoffset j op hop hstring)
  refine ⟨s', ?_, ?_, ?_⟩
  · rw [Runs.run_cons_of_step hstep, hrun]
  · rw [hwidth, Nat.add_comm cols.length, ← Nat.add_assoc]
    exact h'
  · rw [hentries]
    funext entry
    rw [Loading.assign, heq]
    dsimp only
    by_cases hid : entry = Image.col record 0
    · rw [if_pos hid, if_pos hid, if_pos hid]
      rfl
    · rw [if_neg hid, if_neg hid, if_neg hid]

end Columns

/-! ### All the records -/

section Records

variable {E : Type} [Inhabited E] {fields : ℕ} {strings : List ℕ} {image : Image fields strings}
  {stack : Stack} {s : Loading E} {k : ℕ} {set : UInt32 → E → E} {cols : List (Op E)}
  {documented : (ℕ → UInt32) → (UInt32 → List UInt8) → E}

/-- A layout takes a record to the entry there should be. -/
structure Fits (image : Image fields strings) (layout : List (Op E))
    (documented : (ℕ → UInt32) → (UInt32 → List UInt8) → E) (record : List UInt32) : Prop where
  offset : ∀ j op, layout[j]? = some op → op.isString = true →
    (Image.col record j).toNat < image.block.length
  fill : ∀ e, fill image.text (Image.col record) 0 layout e =
    documented (Image.col record) image.text

theorem lastOf_cons (record : List UInt32) (records : List (List UInt32)) (entry : UInt32) :
    lastOf (record :: records) entry =
      (lastOf records entry).or (if Image.col record 0 = entry then some record else none) := by
  rw [lastOf, List.reverse_cons, List.find?_append, lastOf, List.find?_singleton]
  simp only [decide_eq_true_eq]

/-- **The records from one on**, whatever there was before. -/
theorem LoadingAt.loadRecords {records : List (List UInt32)} (h : LoadingAt image k s)
    (hlayout : cols.length + 1 = fields) (hentry : ∀ op ∈ cols, op.isEntry = false)
    (hwords : image.words.drop k = records.flatten)
    (hwidth : ∀ record ∈ records, record.length = fields)
    (hfits : ∀ record ∈ records, Fits image (.entry set :: cols) documented record) :
    ∃ s', loadRecords stack (.entry set :: cols) records.length s = some s' ∧
      LoadingAt image (k + records.length * fields) s' ∧
      s'.entries = fun entry => ((lastOf records entry).map fun record =>
        documented (Image.col record) image.text).or (s.entries entry) := by
  induction records generalizing s k with
  | nil =>
    refine ⟨s, rfl, ?_, rfl⟩
    rw [List.length_nil, Nat.zero_mul]
    exact h
  | cons record records ih =>
    obtain ⟨hrecord, hrecords⟩ := List.forall_mem_cons.mp hwidth
    obtain ⟨hfit, hfits⟩ := List.forall_mem_cons.mp hfits
    rw [List.flatten_cons] at hwords
    have hword (j : ℕ) (hj : j < record.length) :
        image.words[k + j]? = some (Image.col record j) := by
      rw [← List.getElem?_drop, hwords, List.getElem?_append_left hj, Image.col,
        List.getD_eq_getElem?_getD, List.getElem?_eq_getElem hj, Option.getD_some]
    obtain ⟨s₁, hrun, h₁, hentries₁⟩ := @LoadingAt.record E _ _ _ image stack s k cols set record h
      (hrecord.trans hlayout.symm) hword hentry fun j op hop => hfit.offset (j + 1) op hop
    have hwords₁ : image.words.drop (k + record.length) = records.flatten := by
      rw [← List.drop_drop, hwords, List.drop_left]
    obtain ⟨s', hload, h', hentries⟩ := ih h₁ hwords₁ hrecords hfits
    refine ⟨s', ?_, ?_, ?_⟩
    · rw [List.length_cons, Dbc.loadRecords, hrun]
      exact hload
    · have hend : k + record.length + records.length * fields =
          k + (record :: records).length * fields := by
        rw [hrecord, List.length_cons]
        ring
      rw [← hend]
      exact h'
    · rw [hentries, hentries₁]
      funext entry
      rw [lastOf_cons]
      cases hlast : lastOf records entry with
      | some last => rfl
      | none =>
        rw [Option.none_or]
        dsimp only
        by_cases hid : entry = Image.col record 0
        · rw [if_pos hid, if_pos hid.symm, hfit.fill]
          rfl
        · rw [if_neg hid, if_neg (Ne.symm hid)]

theorem load_of_new {src : String} {content : Option (List UInt8)} {dbc : DbcFile}
    {layout : List (Op E)} {entries : UInt32 → Option E}
    (h : DbcFile.new stack src content = some (.ok dbc)) :
    load stack src layout content entries =
      (loadLoop stack layout { dbc, current := 0, entries, thrown := none }).bind fun s =>
        some { entries := s.entries, thrown := s.thrown, dbc := some s.dbc } := by
  rw [load, h]
  rfl

/-- **An image is loaded**, into an empty map, as its records say. -/
theorem Image.exact_load (image : Image fields strings) (stack : Stack) (src : String)
    (hlayout : cols.length + 1 = fields) (hsize : 4 * fields < 2 ^ 32)
    (hentry : ∀ op ∈ cols, op.isEntry = false)
    (hfits : ∀ record ∈ image.records, Fits image (.entry set :: cols) documented record) :
    Exact (load stack src (.entry set :: cols)) documented image := by
  obtain ⟨hnew, hat, hcount⟩ := image.at_opened stack src (by omega) hsize
  have hsmall : image.records.length < 2 ^ 31 := by
    have hle : image.records.length ≤ image.records.length * fields :=
      Nat.le_mul_of_pos_right _ (by omega)
    have := image.small
    omega
  have hwords : image.words.drop 5 = image.records.flatten := List.drop_left' rfl
  have hstart : LoadingAt image 5
      { dbc := opened stack src image.bytes, current := 0, entries := fun _ => (none : Option E),
        thrown := none } := ⟨hat, rfl⟩
  obtain ⟨s', hload, h', hentries⟩ := @LoadingAt.loadRecords E _ _ _ image stack _ 5 set cols
    documented image.records hstart hlayout hentry hwords image.width hfits
  refine ⟨s'.entries, s'.dbc, ?_, ?_, ?_⟩
  · rw [load_of_new hnew, loadLoop, if_pos (by rw [hcount]; exact hsmall), hcount, hload,
      Option.bind_some, h'.thrown]
  · rw [h'.dbc.pos]
    ring
  · rw [hentries]
    funext entry
    rw [Option.or_none]
    rfl

end Records

end Morfeusz.Dbc
