import Mathlib.Data.List.Forall2
import Mathlib.Data.UInt
import Morfeusz.Common.Util

/-!
# Names in the C locale

What `normalizePlayerName` and `isValidName` make of a name of ASCII characters: one of up
to twelve letters is accepted, and what is stored is the one way to write it with its first
letter in upper case and the others in lower case (`Morfeusz.Capitalised`). So two accepted
names are stored alike exactly where they differ in nothing but the case of letters
(`Morfeusz.stored_eq_iff`).
-/

namespace Morfeusz

/-- The C locale, for the characters of ASCII. -/
def cLocale : Locale where
  toupper c := if 97 ≤ c ∧ c ≤ 122 then c - 32 else c
  tolower c := if 65 ≤ c ∧ c ≤ 90 then c + 32 else c
  mbstowcs
    | [] => some 0
    | c :: _ => if c < 128 then some c.toUInt32 else none

def isUpper (c : UInt8) : Bool := 65 ≤ c ∧ c ≤ 90

def isLower (c : UInt8) : Bool := 97 ≤ c ∧ c ≤ 122

def isLetter (c : UInt8) : Bool := isUpper c || isLower c

/-- The same character, or the same letter in its other case. -/
def SameLetter (a b : UInt8) : Prop :=
  a = b ∨ (isUpper a ∧ b.toNat = a.toNat + 32) ∨ (isUpper b ∧ a.toNat = b.toNat + 32)

/-- Two names are equal but for the case of letters. -/
def EqIgnoringCase : List UInt8 → List UInt8 → Prop := List.Forall₂ SameLetter

/-- A letter in upper case, and letters in lower case. -/
def Capitalised : List UInt8 → Prop
  | [] => False
  | c :: cs => isUpper c ∧ ∀ c' ∈ cs, isLower c'

/-- What `handle_cmsg_char_create` makes of a name, if it accepts it. -/
def acceptedName (locale : Locale) (stack : ℕ → UInt32) (name : List UInt8) :
    Option (List UInt8) :=
  (normalizePlayerName locale name).filter (isValidName locale stack)

/-- The characters of ASCII. -/
def IsAscii (name : List UInt8) : Prop := ∀ c ∈ name, c < 128

instance decidableIsAscii (name : List UInt8) : Decidable (IsAscii name) :=
  decidable_of_iff (name.all (· < 128) = true) (by simp [IsAscii])

/-! ### Letters -/

theorem isUpper_iff {c : UInt8} : isUpper c = true ↔ 65 ≤ c.toNat ∧ c.toNat ≤ 90 := by
  rw [isUpper, decide_eq_true_eq, UInt8.le_iff_toNat_le, UInt8.le_iff_toNat_le]
  rfl

theorem isLower_iff {c : UInt8} : isLower c = true ↔ 97 ≤ c.toNat ∧ c.toNat ≤ 122 := by
  rw [isLower, decide_eq_true_eq, UInt8.le_iff_toNat_le, UInt8.le_iff_toNat_le]
  rfl

theorem isLetter_iff {c : UInt8} :
    isLetter c = true ↔ (65 ≤ c.toNat ∧ c.toNat ≤ 90) ∨ (97 ≤ c.toNat ∧ c.toNat ≤ 122) := by
  rw [isLetter, Bool.or_eq_true, isUpper_iff, isLower_iff]

theorem toNat_toupper (c : UInt8) :
    (cLocale.toupper c).toNat =
      if 97 ≤ c.toNat ∧ c.toNat ≤ 122 then c.toNat - 32 else c.toNat := by
  by_cases h : 97 ≤ c.toNat ∧ c.toNat ≤ 122
  · have hupper : cLocale.toupper c = c - 32 := if_pos h
    have hle : (32 : UInt8).toNat ≤ c.toNat := le_trans (by decide) h.1
    rw [if_pos h, hupper, UInt8.toNat_sub_of_le _ _ hle]
    rfl
  · have hsame : cLocale.toupper c = c := if_neg h
    rw [if_neg h, hsame]

theorem toNat_tolower (c : UInt8) :
    (cLocale.tolower c).toNat =
      if 65 ≤ c.toNat ∧ c.toNat ≤ 90 then c.toNat + 32 else c.toNat := by
  by_cases h : 65 ≤ c.toNat ∧ c.toNat ≤ 90
  · have hlower : cLocale.tolower c = c + 32 := if_pos h
    have hlt : c.toNat + (32 : UInt8).toNat < 2 ^ 8 :=
      Nat.lt_of_le_of_lt (Nat.add_le_add_right h.2 _) (by decide)
    rw [if_pos h, hlower, UInt8.toNat_add, Nat.mod_eq_of_lt hlt]
    rfl
  · have hsame : cLocale.tolower c = c := if_neg h
    rw [if_neg h, hsame]

theorem toupper_eq_iff {a b : UInt8} : cLocale.toupper a = cLocale.toupper b ↔ SameLetter a b := by
  rw [SameLetter, isUpper_iff, isUpper_iff, ← UInt8.toNat_inj, ← UInt8.toNat_inj, toNat_toupper,
    toNat_toupper]
  split <;> split <;> omega

theorem tolower_eq_iff {a b : UInt8} : cLocale.tolower a = cLocale.tolower b ↔ SameLetter a b := by
  rw [SameLetter, isUpper_iff, isUpper_iff, ← UInt8.toNat_inj, ← UInt8.toNat_inj, toNat_tolower,
    toNat_tolower]
  split <;> split <;> omega

theorem sameLetter_toupper (c : UInt8) : SameLetter (cLocale.toupper c) c := by
  rw [SameLetter, isUpper_iff, isUpper_iff, ← UInt8.toNat_inj, toNat_toupper]
  split <;> omega

theorem sameLetter_tolower (c : UInt8) : SameLetter (cLocale.tolower c) c := by
  rw [SameLetter, isUpper_iff, isUpper_iff, ← UInt8.toNat_inj, toNat_tolower]
  split <;> omega

/-- A letter in either case is one. -/
theorem SameLetter.isLetter_iff {a b : UInt8} (h : SameLetter a b) :
    isLetter a = true ↔ isLetter b = true := by
  rw [Morfeusz.isLetter_iff, Morfeusz.isLetter_iff]
  rw [SameLetter, isUpper_iff, isUpper_iff, ← UInt8.toNat_inj] at h
  omega

theorem isUpper_toupper {c : UInt8} (h : isLetter c = true) :
    isUpper (cLocale.toupper c) = true := by
  rw [isLetter_iff] at h
  rw [isUpper_iff, toNat_toupper]
  split <;> omega

theorem isLower_tolower {c : UInt8} (h : isLetter c = true) :
    isLower (cLocale.tolower c) = true := by
  rw [isLetter_iff] at h
  rw [isLower_iff, toNat_tolower]
  split <;> omega

/-! ### Names -/

section Names

variable {stack : ℕ → UInt32} {name name' stored stored' : List UInt8}

/-- What is stored is the name but for the case of its letters. -/
theorem eqIgnoringCase_of_normalize (h : normalizePlayerName cLocale name = some stored) :
    EqIgnoringCase stored name := by
  cases name with
  | nil => cases h
  | cons c cs =>
    obtain rfl := Option.some.inj h
    refine .cons (sameLetter_toupper c) (List.forall₂_map_left_iff.mpr ?_)
    exact List.forall₂_same.mpr fun c' _ => sameLetter_tolower c'

/-- **Names are stored alike exactly where they are equal but for the case of letters.** -/
theorem stored_eq_iff (h : normalizePlayerName cLocale name = some stored)
    (h' : normalizePlayerName cLocale name' = some stored') :
    stored = stored' ↔ EqIgnoringCase name name' := by
  cases name with
  | nil => cases h
  | cons c cs =>
    cases name' with
    | nil => cases h'
    | cons c' cs' =>
      obtain rfl := Option.some.inj h
      obtain rfl := Option.some.inj h'
      rw [EqIgnoringCase, List.forall₂_cons, List.cons.injEq, toupper_eq_iff,
        ← List.forall₂_eq_eq_eq, List.forall₂_map_left_iff, List.forall₂_map_right_iff]
      simp only [tolower_eq_iff]

/-- Bringing a name into its stored form twice is the same as doing it once. -/
theorem normalizePlayerName_idem (h : normalizePlayerName cLocale name = some stored) :
    normalizePlayerName cLocale stored = some stored := by
  cases stored with
  | nil => cases name <;> cases h
  | cons c cs =>
    exact congrArg some ((stored_eq_iff rfl h).mpr (eqIgnoringCase_of_normalize h))

theorem IsAscii.of_eqIgnoringCase (hname : IsAscii name) (h : EqIgnoringCase stored name) :
    IsAscii stored := by
  induction h with
  | nil => exact hname
  | @cons a b as bs hab _ ih =>
    rw [IsAscii, List.forall_mem_cons] at hname ⊢
    refine ⟨?_, ih hname.2⟩
    have hb := UInt8.lt_iff_toNat_lt.mp hname.1
    rw [UInt8.lt_iff_toNat_lt]
    rw [SameLetter, isUpper_iff, isUpper_iff, ← UInt8.toNat_inj] at hab
    change a.toNat < 128
    change b.toNat < 128 at hb
    omega

/-- Names of letters are so in any case. -/
theorem EqIgnoringCase.letters_iff (h : EqIgnoringCase name name') :
    (∀ c ∈ name, isLetter c = true) ↔ ∀ c ∈ name', isLetter c = true := by
  induction h with
  | nil => exact Iff.rfl
  | cons hab _ ih => rw [List.forall_mem_cons, List.forall_mem_cons, hab.isLetter_iff, ih]

/-- A character of ASCII is a Latin one exactly if it is a letter. -/
theorem isExtendedLatinCharacter_ascii {c : UInt8} (h : c < 128) :
    isExtendedLatinCharacter c.toUInt32 = isLetter c := by
  have hlt : c.toNat < 128 := UInt8.lt_iff_toNat_lt.mp h
  rw [Bool.eq_iff_iff, isExtendedLatinCharacter, isBasicLatinCharacter, decide_eq_true_eq,
    decide_eq_true_eq, isLetter_iff]
  simp only [UInt32.le_iff_toNat_le, ← UInt32.toNat_inj, UInt32.reduceToNat,
    UInt8.toNat_toUInt32]
  omega

/-- The characters a name may have. -/
theorem isValidName_iff (h : IsAscii name) :
    isValidName cLocale stack name = true ↔
      name.length ≤ 12 ∧ ∀ c ∈ name, isLetter c = true := by
  have hround : ∀ i, ∀ hi : i < name.length,
      isExtendedLatinCharacter ((cLocale.mbstowcs (name.drop i)).getD (stack i)) =
        isLetter name[i] := by
    intro i hi
    have hascii := h _ (List.getElem_mem hi)
    have hconv : cLocale.mbstowcs (name.drop i) = some name[i].toUInt32 := by
      rw [List.drop_eq_getElem_cons hi]
      exact if_pos hascii
    rw [hconv, Option.getD_some, isExtendedLatinCharacter_ascii hascii]
  rw [isValidName, decide_eq_true_eq]
  refine and_congr_right fun _ => ⟨fun hall c hc => ?_, fun hall i hi => ?_⟩
  · obtain ⟨i, hi, rfl⟩ := List.getElem_of_mem hc
    rw [← hround i hi]
    exact hall i (List.mem_range.mpr hi)
  · rw [List.mem_range] at hi
    rw [hround i hi]
    exact hall _ (List.getElem_mem hi)

/-- A stored form is as long as the name, and as much made of letters. -/
theorem isValidName_stored_iff (hascii : IsAscii name)
    (h : normalizePlayerName cLocale name = some stored) :
    isValidName cLocale stack stored = true ↔
      name.length ≤ 12 ∧ ∀ c ∈ name, isLetter c = true := by
  have heq := eqIgnoringCase_of_normalize h
  rw [isValidName_iff (hascii.of_eqIgnoringCase heq), heq.length_eq, heq.letters_iff]

/-- **What is accepted**: one to twelve letters. -/
theorem exists_acceptedName_iff (hascii : IsAscii name) :
    (∃ stored, acceptedName cLocale stack name = some stored) ↔
      1 ≤ name.length ∧ name.length ≤ 12 ∧ ∀ c ∈ name, isLetter c = true := by
  simp only [acceptedName, Option.filter_eq_some_iff]
  cases hname : normalizePlayerName cLocale name with
  | none =>
    cases name with
    | nil => simp
    | cons c cs => cases hname
  | some stored =>
    have hne : 1 ≤ name.length := by
      rw [← (eqIgnoringCase_of_normalize hname).length_eq]
      cases name <;> cases hname
      exact Nat.le_add_left _ _
    rw [and_iff_right hne, ← @isValidName_stored_iff stack _ _ hascii hname]
    simp

/-- **What is stored of an accepted name** has its first letter in upper case and the others
in lower case. -/
theorem capitalised_of_acceptedName (hascii : IsAscii name)
    (h : acceptedName cLocale stack name = some stored) : Capitalised stored := by
  obtain ⟨hname, hvalid⟩ := Option.filter_eq_some_iff.mp h
  have hletters := ((isValidName_stored_iff hascii hname).mp hvalid).2
  cases name with
  | nil => cases hname
  | cons c cs =>
    obtain rfl := Option.some.inj hname
    rw [List.forall_mem_cons] at hletters
    refine ⟨isUpper_toupper hletters.1, fun c' hc' => ?_⟩
    obtain ⟨c, hc, rfl⟩ := List.mem_map.mp hc'
    exact isLower_tolower (hletters.2 c hc)

end Names

/-- What the stored forms of names are for: exactly names of one to twelve letters have
one, it is the way to write them with one letter in upper case, it is its own stored form,
and names have the same one if they differ in the case of letters only. -/
structure CanonicalForms (locale : Locale) (stack : ℕ → UInt32) : Prop where
  accepted : ∀ name, IsAscii name → ((∃ stored, acceptedName locale stack name = some stored) ↔
    1 ≤ name.length ∧ name.length ≤ 12 ∧ ∀ c ∈ name, isLetter c = true)
  capitalised : ∀ name stored, IsAscii name → acceptedName locale stack name = some stored →
    Capitalised stored ∧ EqIgnoringCase stored name
  twice : ∀ name stored, IsAscii name → normalizePlayerName locale name = some stored →
    normalizePlayerName locale stored = some stored
  alike : ∀ name name' stored stored', IsAscii name → IsAscii name' →
    acceptedName locale stack name = some stored →
    acceptedName locale stack name' = some stored' →
    (stored = stored' ↔ EqIgnoringCase name name')

theorem canonicalForms_cLocale (stack : ℕ → UInt32) : CanonicalForms cLocale stack where
  accepted _ hascii := exists_acceptedName_iff hascii
  capitalised _ _ hascii h :=
    ⟨capitalised_of_acceptedName hascii h,
      eqIgnoringCase_of_normalize (Option.filter_eq_some_iff.mp h).1⟩
  twice _ _ _ h := normalizePlayerName_idem h
  alike _ _ _ _ _ _ h h' :=
    stored_eq_iff (Option.filter_eq_some_iff.mp h).1 (Option.filter_eq_some_iff.mp h').1

end Morfeusz
