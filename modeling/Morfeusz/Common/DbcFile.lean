import Morfeusz.Common.ByteBuffer
import Morfeusz.Lib.InputStream

/-!
# The files of the game

A DBC file has a header of twenty bytes, a number of records of equal size, and a block of
strings that the records refer to by their offsets. `DBC_File` reads one through an
`ifstream` and never asks it whether a read has succeeded: the variables a read that failed
was to fill keep what they held before, which is what the stack held where they were just
declared.

`read_string` leaves its place for the block of strings, reads up to a NUL and comes back. A
file that ends first leaves the loop with the last character it has read, over and over
(`Morfeusz.Dbc.charLoop_eq_none`).
-/

namespace Morfeusz.Dbc

open ByteNumbers

/-- `DBC_Read_Exception`. -/
structure DbcReadException where
  msg : String
  file : String
  deriving DecidableEq

/-- What the stack holds where the local variable of a call is declared, call by call. -/
abbrev Stack := ℕ → Bytes 4

/-- The stream of a `DBC_File`, with the number of calls that have declared a variable. -/
structure Reader where
  file : InputStream UInt8
  calls : ℕ

/-- `DBC_File`. -/
structure DbcFile where
  reader : Reader
  fileName : String
  records : UInt32
  fields : UInt32
  recordSize : UInt32
  stringBlockSize : UInt32
  fieldSize : UInt32
  dataSize : UInt32

variable (stack : Stack)

/-- `read_uint32`. -/
def Reader.readUint32 (r : Reader) : UInt32 × Reader :=
  let (got, file) := r.file.read 4
  (UInt32.ofNat (leVal (got ++ (stack r.calls).val.drop got.length)),
    { file, calls := r.calls + 1 })

/-- The constructor. The division is by the number of fields. -/
def DbcFile.new (src : String) (content : Option (List UInt8)) :
    Option (Except DbcReadException DbcFile) :=
  match content with
  | none => some (.error { msg := "Could not open file!", file := src })
  | some content =>
    let reader : Reader := { file := { content, pos := 0, failed := false }, calls := 0 }
    let (signature, reader) := reader.readUint32 stack
    if signature ≠ 0x43424457 then
      some (.error { msg := "File is not a valid DBC store.", file := src })
    else
      let (records, reader) := reader.readUint32 stack
      let (fields, reader) := reader.readUint32 stack
      let (recordSize, reader) := reader.readUint32 stack
      let (stringBlockSize, reader) := reader.readUint32 stack
      if fields = 0 then none
      else
        some (.ok
          { reader, fileName := src, records, fields, recordSize, stringBlockSize
            fieldSize := recordSize / fields
            dataSize := records * recordSize + 20 })

/-- The loop of `read_string`, with a bound on its rounds: a read that fails leaves the
character. -/
def charLoop : ℕ → UInt8 → InputStream UInt8 → List UInt8 → Option (List UInt8 × InputStream UInt8)
  | 0, _, _, _ => none
  | rounds + 1, c, file, ret =>
    let (got, file) := file.read 1
    let c := got.headD c
    if c = 0 then some (ret, file) else charLoop rounds c file (ret ++ [c])

/-- `tellg`, as a `uint32`. -/
def tellg (file : InputStream UInt8) : UInt32 :=
  match file.tell with
  | none => 0xFFFFFFFF
  | some pos => UInt32.ofNat pos

namespace DbcFile

/-- `read_uint32`. -/
def readUint32 (dbc : DbcFile) : UInt32 × DbcFile :=
  let (ret, reader) := dbc.reader.readUint32 stack
  (ret, { dbc with reader })

/-- The stream of a `DBC_File`. -/
def file (dbc : DbcFile) : InputStream UInt8 := dbc.reader.file

/-- The character `read_string` declares. -/
def char (dbc : DbcFile) : UInt8 := (stack dbc.reader.calls).val.headD 0

/-- `read_string`. No string is longer than the file. -/
def readString (dbc : DbcFile) : Option (Except DbcReadException (List UInt8 × DbcFile)) :=
  if dbc.stringBlockSize ≤ 1 then
    some (.error { msg := "DBC doesn't have string block.", file := dbc.fileName })
  else
    let (offset, dbc) := dbc.readUint32 stack
    let getPtr := tellg dbc.file
    let file := dbc.file.seek (dbc.dataSize + offset).toNat
    (charLoop (file.content.length + 1) (dbc.char stack) file []).map fun (ret, file) =>
      .ok (ret, { dbc with
        reader := { file := file.seek getPtr.toNat, calls := dbc.reader.calls + 1 } })

/-- `skip_field`. -/
def skipField (dbc : DbcFile) : DbcFile :=
  { dbc with reader := { dbc.reader with file := dbc.file.seekCur dbc.fieldSize.toNat } }

end DbcFile

/-! ### The characters of a string -/

variable {c : UInt8} {file : InputStream UInt8} {ret : List UInt8}

/-- The loop over the characters ends: a NUL comes, or there is nothing more to read and
the character happens to be one. -/
def TextEnds (c : UInt8) (file : InputStream UInt8) : Prop :=
  if file.failed then c = 0 else 0 ∈ file.rest ∨ file.rest = [] ∧ c = 0

instance (c : UInt8) (file : InputStream UInt8) : Decidable (TextEnds c file) :=
  inferInstanceAs (Decidable (ite _ _ _))

/-- A round on a stream that has failed. -/
theorem charLoop_of_failed (hfailed : file.failed = true) (rounds : ℕ) :
    charLoop (rounds + 1) c file ret =
      if c = 0 then some (ret, file) else charLoop rounds c file (ret ++ [c]) := by
  rw [charLoop, InputStream.read_of_failed hfailed]
  rfl

/-- A round at the end of the file. -/
theorem charLoop_of_nil (hfailed : file.failed = false) (hrest : file.rest = []) (rounds : ℕ) :
    charLoop (rounds + 1) c file ret =
      if c = 0 then some (ret, { file with failed := true })
      else charLoop rounds c { file with failed := true } (ret ++ [c]) := by
  rw [charLoop, InputStream.read_one_of_rest_nil hfailed hrest]
  rfl

/-- A round that reads a character. -/
theorem charLoop_of_cons {b : UInt8} {bs : List UInt8} (hfailed : file.failed = false)
    (hrest : file.rest = b :: bs) (rounds : ℕ) :
    charLoop (rounds + 1) c file ret =
      if b = 0 then some (ret, { file with pos := file.pos + 1 })
      else charLoop rounds b { file with pos := file.pos + 1 } (ret ++ [b]) := by
  rw [charLoop, InputStream.read_one_of_rest_cons hfailed hrest]
  rfl

/-- **Otherwise it does not end**, however many rounds it is given. -/
theorem charLoop_eq_none (h : ¬TextEnds c file) (rounds : ℕ) :
    charLoop rounds c file ret = none := by
  induction rounds generalizing c file ret with
  | zero => rfl
  | succ rounds ih =>
    rw [TextEnds] at h
    by_cases hfailed : file.failed = true
    · rw [if_pos hfailed] at h
      rw [charLoop_of_failed hfailed, if_neg h]
      exact ih (by rwa [TextEnds, if_pos hfailed])
    · rw [if_neg hfailed, not_or, not_and] at h
      obtain ⟨hnul, hc⟩ := h
      rw [Bool.not_eq_true] at hfailed
      cases hrest : file.rest with
      | nil =>
        rw [charLoop_of_nil hfailed hrest, if_neg (hc hrest)]
        exact ih (hc hrest)
      | cons b bs =>
        have hb : b ≠ 0 := fun hb => hnul (by rw [hrest, hb]; exact List.mem_cons_self)
        rw [charLoop_of_cons hfailed hrest, if_neg hb]
        refine ih ?_
        rw [TextEnds, if_neg (by rw [hfailed]; exact Bool.false_ne_true),
          InputStream.rest_succ hrest]
        rintro (hmem | ⟨-, hzero⟩)
        · exact hnul (by rw [hrest]; exact List.mem_cons_of_mem _ hmem)
        · exact hb hzero

/-- **Up to a NUL.** -/
theorem charLoop_of_mem {rounds : ℕ} (hfailed : file.failed = false) (hmem : 0 ∈ file.rest)
    (hrounds : file.rest.length ≤ rounds) :
    ∃ pos, charLoop rounds c file ret =
      some (ret ++ file.rest.takeWhile (· ≠ 0), { file with pos }) := by
  generalize hrest : file.rest = rest at hmem hrounds
  induction rest generalizing rounds c file ret with
  | nil => cases hmem
  | cons b bs ih =>
    rcases rounds with _ | rounds
    · cases hrounds
    rw [charLoop_of_cons hfailed hrest]
    by_cases hb : b = 0
    · subst hb
      exact ⟨file.pos + 1, by simp⟩
    · have hmem' : 0 ∈ bs := (List.mem_cons.mp hmem).resolve_left fun h => hb h.symm
      have hfailed' : ({ file with pos := file.pos + 1 } : InputStream UInt8).failed = false :=
        hfailed
      obtain ⟨pos, hpos⟩ := ih hfailed' (InputStream.rest_succ hrest) hmem'
        (Nat.le_of_succ_le_succ hrounds)
      refine ⟨pos, ?_⟩
      rw [if_neg hb, hpos, List.takeWhile_cons_of_pos (by simpa using hb), List.append_assoc]
      rfl

/-- **The stream behind a string**: it goes on, unless it had failed before or there was
nothing to read. -/
theorem charLoop_of_textEnds {rounds : ℕ} (h : TextEnds c file)
    (hrounds : file.rest.length < rounds) :
    ∃ ret' pos, charLoop rounds c file ret = some (ret',
        { file with pos, failed := file.failed || file.rest.isEmpty }) ∧
      ((file.failed || file.rest.isEmpty) = true → pos = file.pos) := by
  obtain ⟨rounds, rfl⟩ := Nat.exists_eq_add_of_lt (Nat.zero_lt_of_lt hrounds)
  rw [Nat.zero_add] at hrounds ⊢
  rw [TextEnds] at h
  by_cases hfailed : file.failed = true
  · rw [if_pos hfailed] at h
    rw [charLoop_of_failed hfailed, if_pos h, hfailed, Bool.true_or, ← hfailed]
    exact ⟨ret, file.pos, rfl, fun _ => rfl⟩
  · rw [if_neg hfailed] at h
    rw [Bool.not_eq_true] at hfailed
    rcases h with hmem | ⟨hrest, hc⟩
    · have hempty : file.rest.isEmpty = false :=
        List.isEmpty_eq_false_iff.mpr (List.ne_nil_of_mem hmem)
      obtain ⟨pos, hpos⟩ := @charLoop_of_mem c file ret _ hfailed hmem hrounds.le
      rw [hfailed, hempty, Bool.or_self]
      refine ⟨ret ++ file.rest.takeWhile (· ≠ 0), pos, ?_, fun h => absurd h Bool.false_ne_true⟩
      rw [hpos, hfailed]
    · rw [charLoop_of_nil hfailed hrest, if_pos hc, hrest, List.isEmpty_nil, Bool.or_true]
      exact ⟨ret, file.pos, rfl, fun _ => rfl⟩

/-! ### Strings -/

namespace DbcFile

variable {dbc : DbcFile}

/-- The stream where the characters of a string are read. -/
def stringFile (dbc : DbcFile) : InputStream UInt8 :=
  let (offset, dbc) := dbc.readUint32 stack
  dbc.file.seek (dbc.dataSize + offset).toNat

/-- The loop over the characters of a string ends. -/
def StringEnds (dbc : DbcFile) : Prop :=
  TextEnds ((dbc.readUint32 stack).2.char stack) (dbc.stringFile stack)

/-- The file behind a string that has ended. -/
def afterString (dbc : DbcFile) : DbcFile :=
  let file := dbc.stringFile stack
  let getPtr := tellg (dbc.readUint32 stack).2.file
  { dbc with
    reader :=
      { file := ({ file with failed := file.failed || file.rest.isEmpty } : InputStream UInt8).seek
          getPtr.toNat
        calls := dbc.reader.calls + 2 } }

variable {stack : Stack}

/-- Without a block of strings there is no string. -/
theorem readString_of_le (h : dbc.stringBlockSize ≤ 1) :
    dbc.readString stack =
      some (.error { msg := "DBC doesn't have string block.", file := dbc.fileName }) := if_pos h

theorem readString_eq (h : ¬dbc.stringBlockSize ≤ 1) :
    dbc.readString stack =
      (charLoop ((dbc.stringFile stack).content.length + 1)
        ((dbc.readUint32 stack).2.char stack) (dbc.stringFile stack) []).map fun (ret, file) =>
          .ok (ret, { dbc with
            reader :=
              { file := file.seek (tellg (dbc.readUint32 stack).2.file).toNat
                calls := dbc.reader.calls + 2 } }) := if_neg h

/-- **A string that ends is read**, and its file goes on as it has to. -/
theorem readString_of_stringEnds (h : ¬dbc.stringBlockSize ≤ 1) (hends : dbc.StringEnds stack) :
    ∃ ret, dbc.readString stack = some (.ok (ret, dbc.afterString stack)) := by
  have hlen : (dbc.stringFile stack).rest.length < (dbc.stringFile stack).content.length + 1 := by
    rw [InputStream.rest, List.length_drop]
    omega
  obtain ⟨ret, pos, hloop, hpos⟩ := charLoop_of_textEnds hends hlen
  refine ⟨ret, ?_⟩
  rw [readString_eq h, hloop, Option.map_some, afterString]
  -- where the stream goes on, its position is set anew
  cases hfailed : (dbc.stringFile stack).failed || (dbc.stringFile stack).rest.isEmpty with
  | false => rfl
  | true =>
    rw [hpos hfailed]

/-- **A string is read to its end if it has one.** -/
theorem exists_readString_iff :
    (∃ r, dbc.readString stack = some r) ↔ dbc.stringBlockSize ≤ 1 ∨ dbc.StringEnds stack := by
  by_cases h : dbc.stringBlockSize ≤ 1
  · exact iff_of_true ⟨_, readString_of_le h⟩ (Or.inl h)
  · constructor
    · rintro ⟨r, hr⟩
      by_contra hnot
      rw [not_or] at hnot
      rw [readString_eq h, charLoop_eq_none hnot.2] at hr
      cases hr
    · intro hends
      obtain ⟨ret, hret⟩ := readString_of_stringEnds h (hends.resolve_left h)
      exact ⟨_, hret⟩

end DbcFile

end Morfeusz.Dbc
