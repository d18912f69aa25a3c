import Mathlib.Data.List.Basic

/-!
# Streams that fail for good

An input stream over a file has a position and a flag. A read that finds less than was
asked for delivers what there is and raises the flag; from then on nothing is read, and to
move the position has no effect. A position may lie behind the end of the file, where
nothing is found.
-/

/-- A stream over the elements of a file. -/
structure InputStream (α : Type*) where
  content : List α
  pos : ℕ
  failed : Bool

namespace InputStream

variable {α : Type*}

/-- Up to a number of elements are read. -/
def read (file : InputStream α) (n : ℕ) : List α × InputStream α :=
  if file.failed then ([], file)
  else
    let got := (file.content.drop file.pos).take n
    (got, { file with pos := file.pos + got.length, failed := decide (got.length < n) })

/-- The position is moved to a place. -/
def seek (file : InputStream α) (pos : ℕ) : InputStream α :=
  if file.failed then file else { file with pos }

/-- The position is moved on. -/
def seekCur (file : InputStream α) (n : ℕ) : InputStream α := file.seek (file.pos + n)

/-- The position, where the stream has not failed. -/
def tell (file : InputStream α) : Option ℕ := if file.failed then none else some file.pos

/-- What is at the position and behind it. -/
def rest (file : InputStream α) : List α := file.content.drop file.pos

variable {file : InputStream α} {n : ℕ}

theorem read_of_failed (h : file.failed = true) (n : ℕ) : file.read n = ([], file) := if_pos h

theorem seek_of_not_failed (h : file.failed = false) (pos : ℕ) :
    file.seek pos = { file with pos } := if_neg (by rw [h]; exact Bool.false_ne_true)

/-- What is there is read. -/
theorem read_of_le (h : file.failed = false) (hle : n ≤ file.rest.length) :
    file.read n = (file.rest.take n, { file with pos := file.pos + n }) := by
  have hlen : ((file.content.drop file.pos).take n).length = n := by
    rw [List.length_take]
    exact Nat.min_eq_left hle
  rw [read, if_neg (by rw [h]; exact Bool.false_ne_true)]
  dsimp only
  rw [hlen, decide_eq_false (Nat.lt_irrefl n), ← h]
  rfl

/-- The next element is read. -/
theorem read_one_of_rest_cons {a : α} {as : List α} (h : file.failed = false)
    (hrest : file.rest = a :: as) :
    file.read 1 = ([a], { file with pos := file.pos + 1 }) := by
  rw [read_of_le h (by rw [hrest]; exact Nat.succ_pos _), hrest]
  rfl

/-- At the end the stream fails. -/
theorem read_one_of_rest_nil (h : file.failed = false) (hrest : file.rest = []) :
    file.read 1 = ([], { file with failed := true }) := by
  rw [rest] at hrest
  rw [read, if_neg (by rw [h]; exact Bool.false_ne_true), hrest]
  rfl

/-- What is behind the next element. -/
theorem rest_succ {a : α} {as : List α} (hrest : file.rest = a :: as) :
    ({ file with pos := file.pos + 1 } : InputStream α).rest = as := by
  rw [rest] at hrest ⊢
  rw [← List.drop_drop, hrest]
  rfl

end InputStream
