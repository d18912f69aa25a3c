import Morfeusz.Common.DbcStore

/-!
# Files that do not come to an end

Which contents of a file keep a load function from finishing or throwing. Nothing but the
content decides it, with what the stack holds by chance where a file is too short: the words
of the header, and where the reads of a record leave the stream
(`Morfeusz.Dbc.walk`).

Three things go wrong. A header may have no fields, and the size of a field is then a
division by zero. There may be more records than an `int` counts. And the characters of a
string may not end (`Morfeusz.Dbc.DbcFile.StringEnds`). The only thing that is ever thrown
for is the size of the block of strings.
-/

namespace Morfeusz.Dbc

open ByteNumbers

variable {E : Type} [Inhabited E] {stack : Stack}

/-! ### The header -/

/-- A word of the header, with what the stack holds where the file is too short. -/
def headerWord (stack : Stack) (content : List UInt8) (i : ℕ) : UInt32 :=
  let got := (content.drop (4 * i)).take 4
  UInt32.ofNat (leVal (got ++ (stack i).val.drop got.length))

/-- The stream behind some words of the header. -/
def headerReader (content : List UInt8) (i : ℕ) : Reader where
  file :=
    { content
      pos := min (4 * i) content.length
      failed := decide (content.length < 4 * i) }
  calls := i

theorem readUint32_headerReader (content : List UInt8) (i : ℕ) :
    (headerReader content i).readUint32 stack =
      (headerWord stack content i, headerReader content (i + 1)) := by
  by_cases hshort : content.length < 4 * i
  · -- the stream has failed, and there is nothing
    have hnil : content.drop (4 * i) = [] := List.drop_eq_nil_of_le hshort.le
    have hread : (headerReader content i).file.read 4 = ([], (headerReader content i).file) :=
      InputStream.read_of_failed (decide_eq_true hshort) 4
    have hnext : (headerReader content i).file = (headerReader content (i + 1)).file := by
      simp only [headerReader, InputStream.mk.injEq, true_and]
      exact ⟨by omega, by rw [decide_eq_true hshort, decide_eq_true (by omega)]⟩
    rw [Reader.readUint32, hread, headerWord, hnil, hnext]
    rfl
  · rw [not_lt] at hshort
    have hpos : min (4 * i) content.length = 4 * i := min_eq_left hshort
    have hread : (headerReader content i).file.read 4 =
        ((content.drop (4 * i)).take 4, (headerReader content (i + 1)).file) := by
      have hlen : ((content.drop (4 * i)).take 4).length = min 4 (content.length - 4 * i) := by
        rw [List.length_take, List.length_drop]
      rw [InputStream.read, headerReader, headerReader]
      dsimp only
      rw [if_neg (by simpa using hshort), hpos, hlen]
      refine Prod.ext rfl ?_
      simp only [InputStream.mk.injEq, true_and]
      refine ⟨by omega, decide_eq_decide.mpr ?_⟩
      omega
    rw [Reader.readUint32, hread, headerWord]
    rfl

/-- The file once the header is read. -/
def opened (stack : Stack) (src : String) (content : List UInt8) : DbcFile where
  reader := headerReader content 5
  fileName := src
  records := headerWord stack content 1
  fields := headerWord stack content 2
  recordSize := headerWord stack content 3
  stringBlockSize := headerWord stack content 4
  fieldSize := headerWord stack content 3 / headerWord stack content 2
  dataSize := headerWord stack content 1 * headerWord stack content 3 + 20

/-- **The constructor reads five words.** -/
theorem new_eq (src : String) (content : List UInt8) :
    DbcFile.new stack src (some content) =
      if headerWord stack content 0 ≠ 0x43424457 then
        some (.error { msg := "File is not a valid DBC store.", file := src })
      else if headerWord stack content 2 = 0 then none
      else some (.ok (opened stack src content)) := by
  have hstart : ({ file := { content, pos := 0, failed := false }, calls := 0 } : Reader) =
      headerReader content 0 := by
    simp only [headerReader, Nat.mul_zero, Nat.zero_min, Nat.not_lt_zero, decide_false]
  rw [DbcFile.new]
  dsimp only
  rw [hstart]
  simp only [readUint32_headerReader]
  rfl

/-! ### The walk through the records -/

/-- The file behind a column, if the string in it has ended. -/
def walk (stack : Stack) (dbc : DbcFile) : Op E → DbcFile
  | .entry _ => (dbc.readUint32 stack).2
  | .uint32 _ => (dbc.readUint32 stack).2
  | .string _ => dbc.afterString stack
  | .skip => dbc.skipField

omit [Inhabited E] in
theorem stringBlockSize_walk (dbc : DbcFile) (op : Op E) :
    (walk stack dbc op).stringBlockSize = dbc.stringBlockSize := by
  cases op <;> rfl

variable {s s' : Loading E} {op : Op E} {ops layout : List (Op E)}

theorem step_of_not_thrown (hthrown : s.thrown = none) : s.step stack op = s.column stack op := by
  rw [Loading.step, hthrown, if_neg (by exact Bool.false_ne_true)]

theorem step_of_thrown (hthrown : s.thrown.isSome = true) : s.step stack op = some s :=
  if_pos hthrown

/-- Where there is a block of strings, a column is read if its string ends, and nothing is
thrown. -/
theorem exists_step_iff (hthrown : s.thrown = none) (hblock : ¬s.dbc.stringBlockSize ≤ 1) :
    (∃ s', s.step stack op = some s') ↔ (op.isString = true → s.dbc.StringEnds stack) := by
  rw [step_of_not_thrown hthrown]
  cases op with
  | entry set => exact iff_of_true ⟨_, rfl⟩ (fun h => absurd h Bool.false_ne_true)
  | uint32 set => exact iff_of_true ⟨_, rfl⟩ (fun h => absurd h Bool.false_ne_true)
  | skip => exact iff_of_true ⟨_, rfl⟩ (fun h => absurd h Bool.false_ne_true)
  | string set =>
    have hread : (∃ r, s.dbc.readString stack = some r) ↔ s.dbc.StringEnds stack :=
      DbcFile.exists_readString_iff.trans (or_iff_right hblock)
    dsimp only [Op.isString]
    rw [imp_iff_right rfl, ← hread]
    constructor
    · rintro ⟨s', hs'⟩
      obtain ⟨r, hr, -⟩ := Option.bind_eq_some_iff.mp hs'
      exact ⟨r, hr⟩
    · rintro ⟨r, hr⟩
      rw [Loading.column, hr]
      cases r with
      | error e => exact ⟨_, rfl⟩
      | ok r => exact ⟨_, rfl⟩

/-- Such a column leaves the file where the walk goes. -/
theorem dbc_of_step (hthrown : s.thrown = none) (hblock : ¬s.dbc.stringBlockSize ≤ 1)
    (h : s.step stack op = some s') : s'.thrown = none ∧ s'.dbc = walk stack s.dbc op := by
  have hends := (exists_step_iff hthrown hblock).mp ⟨s', h⟩
  rw [step_of_not_thrown hthrown] at h
  cases op with
  | entry set =>
    obtain rfl := Option.some.inj h
    exact ⟨hthrown, rfl⟩
  | uint32 set =>
    obtain rfl := Option.some.inj h
    exact ⟨hthrown, rfl⟩
  | skip =>
    obtain rfl := Option.some.inj h
    exact ⟨hthrown, rfl⟩
  | string set =>
    obtain ⟨ret, hret⟩ := DbcFile.readString_of_stringEnds hblock (hends rfl)
    rw [Loading.column, hret] at h
    obtain rfl := Option.some.inj h
    exact ⟨hthrown, rfl⟩

/-- **A run over columns where there is a block of strings** survives if and only if the
strings on the walk end, and then it has followed the walk. -/
theorem exists_run_iff_of_block (hthrown : s.thrown = none)
    (hblock : ¬s.dbc.stringBlockSize ≤ 1) :
    ((∃ s', Runs.run (Loading.step stack) s ops = some s') ↔
      ∀ i op, ops[i]? = some op → op.isString = true →
        ((ops.take i).foldl (walk stack) s.dbc).StringEnds stack) ∧
    ∀ s', Runs.run (Loading.step stack) s ops = some s' →
      s'.thrown = none ∧ s'.dbc = ops.foldl (walk stack) s.dbc := by
  induction ops generalizing s with
  | nil =>
    refine ⟨iff_of_true ⟨s, rfl⟩ nofun, ?_⟩
    intro s' hs'
    obtain rfl := Option.some.inj hs'
    exact ⟨hthrown, rfl⟩
  | cons op ops ih =>
    have hsplit : (∀ i op', (op :: ops)[i]? = some op' → op'.isString = true →
        (((op :: ops).take i).foldl (walk stack) s.dbc).StringEnds stack) ↔
        (op.isString = true → s.dbc.StringEnds stack) ∧
          ∀ i op', ops[i]? = some op' → op'.isString = true →
            ((ops.take i).foldl (walk stack) (walk stack s.dbc op)).StringEnds stack := by
      constructor
      · intro h
        exact ⟨h 0 op rfl, fun i op' hop' => h (i + 1) op' hop'⟩
      · rintro ⟨hhead, htail⟩ i op' hop'
        cases i with
        | zero =>
          obtain rfl := Option.some.inj hop'
          exact hhead
        | succ i => exact htail i op' hop'
    rw [hsplit, ← exists_step_iff hthrown hblock, Runs.run_cons]
    cases hstep : s.step stack op with
    | none => exact ⟨iff_of_false nofun (fun h => nomatch h.1), nofun⟩
    | some s₁ =>
      obtain ⟨hthrown₁, hdbc⟩ := dbc_of_step hthrown hblock hstep
      have hblock₁ : ¬s₁.dbc.stringBlockSize ≤ 1 := by
        rw [hdbc, stringBlockSize_walk]
        exact hblock
      obtain ⟨hiff, hend⟩ := ih hthrown₁ hblock₁
      rw [hdbc] at hiff hend
      rw [Option.bind_some, hiff]
      exact ⟨(and_iff_right ⟨s₁, rfl⟩).symm, hend⟩

/-- **A run over columns where there is no block of strings** survives, and something is
thrown if there is a string among them. -/
theorem exists_run_of_noBlock (stack : Stack) (ops : List (Op E))
    (hblock : s.dbc.stringBlockSize ≤ 1) :
    ∃ s', Runs.run (Loading.step stack) s ops = some s' ∧ s'.dbc.stringBlockSize ≤ 1 ∧
      (s'.thrown.isSome = true ↔ s.thrown.isSome = true ∨ ∃ op ∈ ops, op.isString = true) := by
  induction ops generalizing s with
  | nil => exact ⟨s, rfl, hblock, (or_iff_left nofun).symm⟩
  | cons op ops ih =>
    have hstep : ∃ s₁, s.step stack op = some s₁ ∧ s₁.dbc.stringBlockSize ≤ 1 ∧
        (s₁.thrown.isSome = true ↔ s.thrown.isSome = true ∨ op.isString = true) := by
      by_cases hthrown : s.thrown.isSome = true
      · exact ⟨s, step_of_thrown hthrown, hblock, iff_of_true hthrown (Or.inl hthrown)⟩
      · have hnone : s.thrown = none := Option.not_isSome_iff_eq_none.mp hthrown
        rw [step_of_not_thrown hnone, or_iff_right hthrown]
        cases op with
        | entry set => exact ⟨_, rfl, hblock, iff_of_false hthrown Bool.false_ne_true⟩
        | uint32 set => exact ⟨_, rfl, hblock, iff_of_false hthrown Bool.false_ne_true⟩
        | skip => exact ⟨_, rfl, hblock, iff_of_false hthrown Bool.false_ne_true⟩
        | string set =>
          rw [Loading.column, DbcFile.readString_of_le hblock]
          exact ⟨_, rfl, hblock, iff_of_true rfl rfl⟩
    obtain ⟨s₁, hs₁, hblock₁, hthrown₁⟩ := hstep
    obtain ⟨s', hs', hblock', hthrown'⟩ := ih hblock₁
    refine ⟨s', ?_, hblock', ?_⟩
    · rw [Runs.run_cons_of_step hs₁, hs']
    · rw [hthrown', hthrown₁, List.exists_mem_cons_iff, or_assoc]

/-! ### The loop over the records -/

/-- The columns of a number of records. -/
def columns (layout : List (Op E)) (rounds : ℕ) : List (Op E) :=
  (List.replicate rounds layout).flatten

theorem loadRecords_eq (layout : List (Op E)) (rounds : ℕ) (s : Loading E) :
    loadRecords stack layout rounds s =
      Runs.run (Loading.step stack) s (columns layout rounds) := by
  induction rounds generalizing s with
  | zero => rfl
  | succ rounds ih =>
    rw [loadRecords, columns, List.replicate_succ, List.flatten_cons, Runs.run_append]
    refine congrArg (Option.bind _) ?_
    funext s₁
    exact ih s₁

/-- The loop over the records of a file ends: it throws, or it does not count too far and
every string it reads has an end. -/
def LoopEnds (stack : Stack) (layout : List (Op E)) (dbc : DbcFile) : Prop :=
  dbc.stringBlockSize ≤ 1 ∧ (∃ op ∈ layout, op.isString = true) ∨
    dbc.records.toNat < 2 ^ 31 ∧ (dbc.stringBlockSize ≤ 1 ∨
      ∀ i op, (columns layout dbc.records.toNat)[i]? = some op → op.isString = true →
        (((columns layout dbc.records.toNat).take i).foldl (walk stack) dbc).StringEnds stack)

omit [Inhabited E] in
theorem mem_columns_iff {rounds : ℕ} (h : rounds ≠ 0) :
    op ∈ columns layout rounds ↔ op ∈ layout := by
  rw [columns, List.mem_flatten]
  constructor
  · rintro ⟨ops, hops, hop⟩
    exact List.eq_of_mem_replicate hops ▸ hop
  · intro hop
    exact ⟨layout, List.mem_replicate.mpr ⟨h, rfl⟩, hop⟩

/-- **The loop over the records.** -/
theorem exists_loadLoop_iff (hthrown : s.thrown = none) :
    (∃ s', loadLoop stack layout s = some s') ↔ LoopEnds stack layout s.dbc := by
  rw [LoopEnds, loadLoop, loadRecords_eq, loadRecords_eq]
  by_cases hcount : s.dbc.records.toNat < 2 ^ 31
  · rw [if_pos hcount, and_iff_right hcount]
    by_cases hblock : s.dbc.stringBlockSize ≤ 1
    · obtain ⟨s', hs', -⟩ := exists_run_of_noBlock stack (columns layout s.dbc.records.toNat) hblock
      exact iff_of_true ⟨s', hs'⟩ (Or.inr (Or.inl hblock))
    · rw [or_iff_right (fun h => hblock h.1), or_iff_right hblock]
      exact (exists_run_iff_of_block hthrown hblock).1
  · rw [if_neg hcount, or_iff_left (fun h => hcount h.1)]
    by_cases hblock : s.dbc.stringBlockSize ≤ 1
    · obtain ⟨s', hs', -, hthrows⟩ := exists_run_of_noBlock stack (columns layout (2 ^ 31)) hblock
      have hsome : s'.thrown.isSome = true ↔ ∃ op ∈ layout, op.isString = true := by
        rw [hthrows, hthrown, or_iff_right (by exact Bool.false_ne_true)]
        simp only [mem_columns_iff (Nat.two_pow_pos 31).ne']
      rw [and_iff_right hblock, ← hsome, hs', Option.bind_eq_bind, Option.bind_some]
      by_cases hthrown' : s'.thrown.isSome = true
      · rw [if_pos hthrown']
        exact iff_of_true ⟨s', rfl⟩ hthrown'
      · rw [if_neg hthrown']
        exact iff_of_false nofun hthrown'
    · refine iff_of_false ?_ (fun h => hblock h.1)
      rintro ⟨t, ht⟩
      obtain ⟨s', hs', ht⟩ := Option.bind_eq_some_iff.mp ht
      rw [((exists_run_iff_of_block hthrown hblock).2 s' hs').1] at ht
      cases ht

/-! ### The load functions -/

/-- The content of a file does not keep a load function from coming to an end: it is not one
of such a file, or it has fields and the loop over its records ends. -/
def Ends (stack : Stack) (src : String) (layout : List (Op E)) (content : List UInt8) : Prop :=
  headerWord stack content 0 = 0x43424457 →
    headerWord stack content 2 ≠ 0 ∧ LoopEnds stack layout (opened stack src content)

theorem exists_load_iff (src : String) (layout : List (Op E)) (content : Option (List UInt8))
    (entries : UInt32 → Option E) :
    (∃ r, load stack src layout content entries = some r) ↔
      ∀ bytes, content = some bytes → Ends stack src layout bytes := by
  rcases content with _ | bytes
  · exact iff_of_true ⟨_, rfl⟩ nofun
  · rw [load, new_eq]
    have hone : (∀ bytes', some bytes = some bytes' → Ends stack src layout bytes') ↔
        Ends stack src layout bytes :=
      ⟨fun h => h bytes rfl, fun h bytes' heq => Option.some.inj heq ▸ h⟩
    rw [hone, Ends]
    by_cases hsignature : headerWord stack bytes 0 = 0x43424457
    · rw [if_neg (not_not.mpr hsignature), imp_iff_right hsignature]
      by_cases hfields : headerWord stack bytes 2 = 0
      · rw [if_pos hfields]
        exact iff_of_false nofun (fun h => h.1 hfields)
      · rw [if_neg hfields, and_iff_right hfields, Option.bind_eq_bind, Option.bind_some]
        dsimp only
        have hloop := @exists_loadLoop_iff E _ stack
          { dbc := opened stack src bytes, current := 0, entries, thrown := none } layout rfl
        rw [← hloop]
        constructor
        · rintro ⟨r, hr⟩
          obtain ⟨s, hs, -⟩ := Option.bind_eq_some_iff.mp hr
          exact ⟨s, hs⟩
        · rintro ⟨s, hs⟩
          rw [hs]
          exact ⟨_, rfl⟩
    · rw [if_pos hsignature]
      exact iff_of_true ⟨_, rfl⟩ (fun h => absurd h hsignature)

/-- **A load function comes to an end exactly where its file lets it.** For every content of
the four files, whatever the stack holds and whatever was loaded before, a load function
finishes or throws if and only if the header has fields, the counter of the records does not
overflow, and every string that is read has an end. -/
theorem loaders_end_iff (stack : Stack) (path : String) (content : Option (List UInt8)) :
    (∀ items, (∃ r, loadItemDbc stack path content items = some r) ↔
      ∀ bytes, content = some bytes → Ends stack (path ++ "Item.dbc") itemLayout bytes) ∧
    (∀ spells, (∃ r, loadSpellItemEnchantmentsDbc stack path content spells = some r) ↔
      ∀ bytes, content = some bytes →
        Ends stack (path ++ "SpellItemEnchantment.dbc") spellItemEnchantmentLayout bytes) ∧
    (∀ races, (∃ r, loadChrRacesDbc stack path content races = some r) ↔
      ∀ bytes, content = some bytes → Ends stack (path ++ "ChrRaces.dbc") chrRacesLayout bytes) ∧
    ∀ classes, (∃ r, loadChrClassesDbc stack path content classes = some r) ↔
      ∀ bytes, content = some bytes →
        Ends stack (path ++ "ChrClasses.dbc") chrClassesLayout bytes :=
  ⟨exists_load_iff _ _ _, exists_load_iff _ _ _, exists_load_iff _ _ _, exists_load_iff _ _ _⟩

/-! ### Two files -/

namespace Sample

/-- A stack full of zeros. -/
def zeros : Stack := fun _ => Bytes.zero 4

/-- A header of zeros behind the signature. -/
def noFields : List UInt8 := [0x57, 0x44, 0x42, 0x43] ++ List.replicate 16 0

/-- One enchantment, whose text is `AA` and has no end. -/
def endless : List UInt8 :=
  [0x57, 0x44, 0x42, 0x43, 1, 0, 0, 0, 34, 0, 0, 0, 136, 0, 0, 0, 2, 0, 0, 0] ++
    List.replicate 136 0 ++ [65, 65]

end Sample

/-- A header without fields divides by zero, and a text without an end is read for ever. -/
theorem not_ends_sample :
    (¬∀ content, ∃ r, loadItemDbc Sample.zeros "" content (fun _ => none) = some r) ∧
      ¬∀ content, ∃ r,
        loadSpellItemEnchantmentsDbc Sample.zeros "" content (fun _ => none) = some r := by
  constructor
  · intro hclaim
    obtain ⟨r, hr⟩ := hclaim (some Sample.noFields)
    have hnone : (loadItemDbc Sample.zeros "" (some Sample.noFields) fun _ => none).isNone := by
      decide
    rw [hr] at hnone
    cases hnone
  · intro hclaim
    obtain ⟨r, hr⟩ := hclaim (some Sample.endless)
    have hnone : (loadSpellItemEnchantmentsDbc Sample.zeros "" (some Sample.endless)
        fun _ => none).isNone := by
      decide +kernel
    rw [hr] at hnone
    cases hnone

end Morfeusz.Dbc
