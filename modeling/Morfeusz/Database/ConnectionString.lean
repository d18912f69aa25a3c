import Morfeusz.Common.OpenSSL
import Morfeusz.Lib.Pieces

/-!
# The string a connection is opened with

`DBUrl` of the configuration is `hostname;port;username;password;dbname` for MySQL and the
path of a file for SQLite. The constructors of both connections take it to pieces with
`StrSplit`, which leaves out the empty ones (`Morfeusz.pieces_strSplit_iff`), and count what
is left. So the five fields of a string for MySQL are found in their places exactly where
none of them is empty, and with an empty one there are too few
(`Morfeusz.SQL.connection_string`).
-/

namespace Morfeusz

/-- The loop of `StrSplit`, with the pieces there are and the one that is being read. -/
def strSplitLoop (sep : List UInt8) :
    List (List UInt8) → List UInt8 → List UInt8 → List (List UInt8)
  | r, s, [] => if s.length ≠ 0 then r ++ [s] else r
  | r, s, c :: cs =>
    if sep.contains c then strSplitLoop sep (if s.length ≠ 0 then r ++ [s] else r) [] cs
    else strSplitLoop sep r (s ++ [c]) cs

/-- `StrSplit`. -/
def strSplit (src sep : List UInt8) : List (List UInt8) := strSplitLoop sep [] [] src

variable {sep : List UInt8}

theorem push_back_eq (r : List (List UInt8)) (s : List UInt8) :
    (if s.length ≠ 0 then r ++ [s] else r) = r ++ if s ≠ [] then [s] else [] := by
  cases s <;> simp

/-- **What the loop returns**: the pieces it was given, and those of what is still to be
read. -/
theorem strSplitLoop_eq (r : List (List UInt8)) {s : List UInt8}
    (hs : ∀ c ∈ s, sep.contains c = false) (src : List UInt8) :
    strSplitLoop sep r s src = r ++ piecesOf sep.contains (s ++ src) := by
  induction src generalizing r s with
  | nil => rw [strSplitLoop, push_back_eq, List.append_nil, piecesOf_free hs]
  | cons c cs ih =>
    rw [strSplitLoop]
    cases hc : sep.contains c with
    | true =>
      rw [if_pos rfl, push_back_eq, ih _ (by simp), piecesOf_append_cons hc, piecesOf_free hs,
        List.append_assoc]
      rfl
    | false =>
      have hlonger : ∀ c' ∈ s ++ [c], sep.contains c' = false := by
        intro c' hc'
        rcases List.mem_append.mp hc' with hold | hlast
        · exact hs c' hold
        · rw [List.mem_singleton.mp hlast, hc]
      rw [if_neg Bool.false_ne_true, ih r hlonger, List.append_assoc]
      rfl

/-- **`StrSplit` returns the pieces between separators**, in order. -/
theorem pieces_strSplit_iff {src : List UInt8} {pieces : List (List UInt8)} :
    Pieces sep.contains src pieces ↔ pieces = strSplit src sep := by
  rw [pieces_iff, strSplit, strSplitLoop_eq [] (by simp)]
  rfl

/-! ### Numbers -/

def isDigit (c : UInt8) : Bool := 48 ≤ c ∧ c ≤ 57

def isSpace (c : UInt8) : Bool := c = 32 ∨ (9 ≤ c ∧ c ≤ 13)

/-- The number that digits stand for. -/
def digitsVal (digits : List UInt8) : ℕ := digits.foldl (fun n c => 10 * n + (c.toNat - 48)) 0

/-- `atoi`: white space, a sign and digits. What becomes of a number that is no `int` is left
open. -/
def atoi (text : List UInt8) : Option ℤ :=
  let text := text.dropWhile isSpace
  let negative := text.head? = some 45
  let digits := if negative ∨ text.head? = some 43 then text.tail else text
  let n : ℤ := digitsVal (digits.takeWhile isDigit)
  let n := if negative then -n else n
  if -2 ^ 31 ≤ n ∧ n < 2 ^ 31 then some n else none

/-- A number in decimal. -/
def IsDecimal (text : List UInt8) : Prop := text ≠ [] ∧ ∀ c ∈ text, isDigit c = true

instance decidableIsDecimal (text : List UInt8) : Decidable (IsDecimal text) :=
  decidable_of_iff (text ≠ [] ∧ text.all isDigit = true) (by simp [IsDecimal])

theorem isDigit_iff {c : UInt8} : isDigit c = true ↔ 48 ≤ c.toNat ∧ c.toNat ≤ 57 := by
  rw [isDigit, decide_eq_true_eq, UInt8.le_iff_toNat_le, UInt8.le_iff_toNat_le]
  rfl

/-- A digit is none of the characters that are told from it. -/
theorem ne_of_isDigit {c c' : UInt8} (h : isDigit c = true) (h' : isDigit c' = false) : c ≠ c' := by
  rintro rfl
  exact Bool.false_ne_true (h'.symm.trans h)

theorem IsDecimal.not_mem {text : List UInt8} (h : IsDecimal text) {c : UInt8}
    (hc : isDigit c = false) : c ∉ text :=
  fun hmem => ne_of_isDigit (h.2 c hmem) hc rfl

/-- **A number in decimal is read**, where an `int` has room for it. -/
theorem atoi_decimal {text : List UInt8} (h : IsDecimal text) :
    atoi text = if digitsVal text < 2 ^ 31 then some (digitsVal text : ℤ) else none := by
  have hspace : text.dropWhile isSpace = text := by
    cases text with
    | nil => rfl
    | cons c cs =>
      refine List.dropWhile_cons_of_neg fun hspace => ?_
      have hdigit := isDigit_iff.mp (h.2 c List.mem_cons_self)
      rw [isSpace, decide_eq_true_eq, UInt8.le_iff_toNat_le, UInt8.le_iff_toNat_le,
        ← UInt8.toNat_inj] at hspace
      change c.toNat = 32 ∨ 9 ≤ c.toNat ∧ c.toNat ≤ 13 at hspace
      omega
  have hsign {c : UInt8} (hc : isDigit c = false) : text.head? ≠ some c := fun hhead =>
    h.not_mem hc (List.mem_of_mem_head? hhead)
  have hdigits : text.takeWhile isDigit = text := List.takeWhile_eq_self_iff.mpr h.2
  have hfits : (-2 ^ 31 ≤ (digitsVal text : ℤ) ∧ (digitsVal text : ℤ) < 2 ^ 31) ↔
      digitsVal text < 2 ^ 31 := by omega
  rw [atoi, hspace]
  simp only [hsign (c := 45) rfl, hsign (c := 43) rfl, hdigits, hfits, or_self, if_false]

namespace SQL

/-! ### The connections -/

/-- The fields `MySQLConnection::MySQLConnection` reads. -/
structure MySQLConnection where
  host : List UInt8
  port : Option ℤ
  user : List UInt8
  password : List UInt8
  schema : List UInt8

/-- The part of `MySQLConnection::MySQLConnection` that reads the string, or the text of the
exception it throws. -/
def MySQLConnection.ofUrl (url : List UInt8) : Except String MySQLConnection :=
  let tokens := strSplit url [59]
  if tokens.length < 5 then .error "MySQLConnection: Invalid number of param"
  else
    .ok
      { host := tokens.getD 0 []
        port := atoi (cStr (tokens.getD 1 []))
        user := tokens.getD 2 []
        password := tokens.getD 3 []
        schema := tokens.getD 4 [] }

/-- The same of `SQLiteConnection::SQLiteConnection`, which reads the path of the database. -/
def SQLiteConnection.ofUrl (url : List UInt8) : Except String (List UInt8) :=
  let tokens := strSplit url [59]
  if tokens.length < 1 then .error "SQLiteConnection: Invalid number of param"
  else .ok (tokens.getD 0 [])

/-! ### What is read -/

/-- The tokens of fields that are joined with `;`. -/
theorem strSplit_intercalate {fields : List (List UInt8)} (h : ∀ field ∈ fields, 59 ∉ field) :
    strSplit ([59].intercalate fields) [59] = fields.filter fun field => !field.isEmpty := by
  have hsep : [(59 : UInt8)].contains = (· == 59) := by
    funext c
    rw [List.contains_cons, List.contains_nil, Bool.or_false]
  rw [← pieces_strSplit_iff.mp (pieces_iff.mpr rfl), hsep, piecesOf_intercalate 59 h]

/-- **The path of a SQLite database** is read if it is one piece. -/
theorem ofUrl_path_iff {path : List UInt8} :
    SQLiteConnection.ofUrl path = .ok path ↔ path ≠ [] ∧ 59 ∉ path := by
  have hsep {c : UInt8} : [(59 : UInt8)].contains c = false ↔ 59 ≠ c := by simp [eq_comm]
  rw [SQLiteConnection.ofUrl]
  constructor
  · intro h
    have hpieces : Pieces [59].contains path (strSplit path [59]) := pieces_strSplit_iff.mpr rfl
    generalize strSplit path [59] = tokens at h hpieces
    cases hpieces with
    | done => cases h
    | piece hgap hne hfree =>
      have hpath := Except.ok.inj h
      rw [List.getD_cons_zero] at hpath
      rw [← hpath]
      exact ⟨hne, fun hmem => hsep.mp (hfree 59 hmem) rfl⟩
  · rintro ⟨hne, hfree⟩
    have hpieces : Pieces [59].contains path [path] := by
      have hend : Pieces [(59 : UInt8)].contains [] [] := .done fun c hc => by cases hc
      have hpath := @Pieces.free_append _ _ path _ _ (fun c hc => hsep.mpr fun h => hfree (h ▸ hc))
        (fun c hc => by cases hc) hend
      rwa [if_pos hne, List.append_nil, List.append_nil] at hpath
    rw [← pieces_strSplit_iff.mp hpieces]
    rfl

/-- **The string of a MySQL connection.** The five fields are read exactly where none of them
is empty; the number of the port is what an `int` holds of it. With an empty field there
are too few of them. What `StrSplit` returns are the pieces between separators. -/
theorem connection_string (host port user password schema : List UInt8)
    (hfree : ∀ field ∈ [host, user, password, schema], 59 ∉ field) (hport : IsDecimal port) :
    MySQLConnection.ofUrl ([59].intercalate [host, port, user, password, schema]) =
      (if host ≠ [] ∧ user ≠ [] ∧ password ≠ [] ∧ schema ≠ [] then
        .ok
          { host := host
            port := if digitsVal port < 2 ^ 31 then some (digitsVal port : ℤ) else none
            user := user
            password := password
            schema := schema }
      else .error "MySQLConnection: Invalid number of param") ∧
    ∀ src sep pieces, Pieces sep.contains src pieces ↔ pieces = strSplit src sep := by
  refine ⟨?_, fun _ _ _ => pieces_strSplit_iff⟩
  have htokens : strSplit ([59].intercalate [host, port, user, password, schema]) [59] =
      [host, port, user, password, schema].filter fun field => !field.isEmpty := by
    refine strSplit_intercalate fun field hfield => ?_
    simp only [List.mem_cons, List.not_mem_nil, or_false] at hfield hfree
    rcases hfield with rfl | rfl | hfield
    · exact hfree _ (Or.inl rfl)
    · exact hport.not_mem rfl
    · exact hfree _ (Or.inr hfield)
  have hnumber : atoi (cStr port) =
      if digitsVal port < 2 ^ 31 then some (digitsVal port : ℤ) else none := by
    rw [cStr_of_not_mem (hport.not_mem rfl), atoi_decimal hport]
  rw [MySQLConnection.ofUrl, htokens]
  by_cases hall : host ≠ [] ∧ user ≠ [] ∧ password ≠ [] ∧ schema ≠ []
  · have hkept : [host, port, user, password, schema].filter (fun field => !field.isEmpty) =
        [host, port, user, password, schema] := by
      simp [hport.1, hall]
    rw [hkept, if_pos hall, ← hnumber]
    rfl
  · have hfew : ([host, port, user, password, schema].filter fun field => !field.isEmpty).length <
        [host, port, user, password, schema].length := by
      rw [List.length_filter_lt_length_iff_exists]
      by_contra! hnone
      refine hall ⟨?_, ?_, ?_, ?_⟩ <;> rintro rfl <;> exact absurd (hnone [] (by simp)) (by decide)
    rw [if_neg hall]
    exact if_pos hfew

/-- The string of the sample configuration, with shorter fields. -/
theorem connection_string_sample :
    MySQLConnection.ofUrl ([59].intercalate [[104], [51, 51, 48, 54], [109], [112], [114]]) =
      .ok
        { host := [104]
          port := some 3306
          user := [109]
          password := [112]
          schema := [114] } :=
  (connection_string [104] [51, 51, 48, 54] [109] [112] [114] (by simp) (by decide)).1

/-- **With an empty password no field is read.** -/
theorem not_connection_string_empty :
    ¬∀ host port user password schema : List UInt8,
      (∀ field ∈ [host, user, password, schema], 59 ∉ field) → IsDecimal port →
      ∃ number, MySQLConnection.ofUrl ([59].intercalate [host, port, user, password, schema]) =
        .ok ⟨host, number, user, password, schema⟩ := by
  intro hclaim
  obtain ⟨number, h⟩ := hclaim [104] [51, 51, 48, 54] [109] [] [114] (by simp) (by decide)
  have herror :
      MySQLConnection.ofUrl ([59].intercalate [[104], [51, 51, 48, 54], [109], [], [114]]) =
        .error "MySQLConnection: Invalid number of param" := rfl
  cases herror.symm.trans h

end SQL

end Morfeusz
