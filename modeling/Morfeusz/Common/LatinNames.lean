import Mathlib.Data.List.Basic
import Morfeusz.Common.Names

/-!
# Names in UTF-8

`isValidName` goes through the bytes of a name and converts the character that begins at
each of them, as if every character had one. In UTF-8 those of the extended Latin letters
have two or three, and at the second none begins: the conversion fails, and what is tested
is a wide character that nobody has written.

`Morfeusz.validNameLoop` is the same loop with a record of the conversions whose result it
tests. It stops at the first character that is no Latin letter; so what it meets before a
byte in the middle of a character is known (`Morfeusz.LettersFirst`), and with it when the
function says what it should (`Morfeusz.isValidName_utf8_iff`).
-/

namespace Morfeusz

/-- The locale is one of UTF-8: a character is converted where its encoding begins, and
where none begins nothing is. -/
structure Locale.IsUtf8 (locale : Locale) : Prop where
  converts : ∀ (c : Char) rest, locale.mbstowcs (String.utf8EncodeChar c ++ rest) = some c.val
  refuses : ∀ s, s ≠ [] → (∀ (c : Char) rest, s ≠ String.utf8EncodeChar c ++ rest) →
    locale.mbstowcs s = none

/-- A text in UTF-8. -/
def utf8 (chars : List Char) : List UInt8 := chars.flatMap String.utf8EncodeChar

/-! ### The loop -/

/-- The loop of `isValidName` from a byte on: what it returns, and what became of each
conversion whose wide character was tested. -/
def validNameLoop (locale : Locale) (stack : ℕ → UInt32) :
    ℕ → List UInt8 → Bool × List (Option UInt32)
  | _, [] => (true, [])
  | i, b :: bs =>
    let c := locale.mbstowcs (b :: bs)
    if isExtendedLatinCharacter (c.getD (stack i)) then
      let (valid, tested) := validNameLoop locale stack (i + 1) bs
      (valid, c :: tested)
    else (false, [c])

/-- The conversions of `isValidName` whose wide character it tests. -/
def conversionsTested (locale : Locale) (stack : ℕ → UInt32) (name : List UInt8) :
    List (Option UInt32) :=
  if name.length > 12 then [] else (validNameLoop locale stack 0 name).2

section Loop

variable {locale : Locale} {stack : ℕ → UInt32}

theorem validNameLoop_fst (i : ℕ) (bs : List UInt8) :
    (validNameLoop locale stack i bs).1 = true ↔ ∀ j < bs.length,
      isExtendedLatinCharacter ((locale.mbstowcs (bs.drop j)).getD (stack (i + j))) = true := by
  induction bs generalizing i with
  | nil => exact iff_of_true rfl fun j hj => absurd hj (Nat.not_lt_zero j)
  | cons b bs ih =>
    rw [validNameLoop, List.length_cons, Nat.forall_lt_succ_left, List.drop_zero, Nat.add_zero]
    by_cases hb : isExtendedLatinCharacter ((locale.mbstowcs (b :: bs)).getD (stack i)) = true
    · rw [if_pos hb]
      refine (ih (i + 1)).trans ((forall₂_congr fun j hj => ?_).trans (and_iff_right hb).symm)
      rw [List.drop_succ_cons, Nat.add_right_comm, Nat.add_assoc]
    · rw [if_neg hb]
      exact iff_of_false Bool.false_ne_true fun h => hb h.1

/-- **The loop is the one of `isValidName`.** -/
theorem isValidName_eq (name : List UInt8) :
    isValidName locale stack name =
      if name.length > 12 then false else (validNameLoop locale stack 0 name).1 := by
  rw [Bool.eq_iff_iff, isValidName, decide_eq_true_eq]
  split
  · next hlong => exact iff_of_false (fun h => absurd h.1 (Nat.not_le.mpr hlong)) Bool.false_ne_true
  · next hshort =>
    rw [validNameLoop_fst, and_iff_right (Nat.not_lt.mp hshort)]
    simp only [List.mem_range, Nat.zero_add]

end Loop

/-! ### Characters and their bytes -/

/-- The first bytes of the encodings are no others of them. -/
theorem not_utf8EncodeChar_append {c c' : Char} {b : UInt8} {tail rest rest' : List UInt8}
    (hc : ∃ first, String.utf8EncodeChar c = first :: b :: tail) :
    b :: rest ≠ String.utf8EncodeChar c' ++ rest' := by
  obtain ⟨first, hc⟩ := hc
  intro h
  have hnot : ¬b.IsUTF8FirstByte := by
    have h1 := @UInt8.isUTF8FirstByte_getElem_utf8EncodeChar c 1 (by rw [hc]; simp)
    simpa [hc] using h1
  obtain ⟨b', tail', hc'⟩ : ∃ b' tail', String.utf8EncodeChar c' = b' :: tail' :=
    List.exists_cons_of_ne_nil String.utf8EncodeChar_ne_nil
  have hfirst : b'.IsUTF8FirstByte := by
    have h0 := @UInt8.isUTF8FirstByte_getElem_utf8EncodeChar c' 0 (by rw [hc']; simp)
    simpa [hc'] using h0
  rw [hc', List.cons_append] at h
  exact hnot ((List.cons.inj h).1 ▸ hfirst)

/-- A basic Latin letter is one byte. -/
theorem utf8EncodeChar_basic {c : Char} (h : isBasicLatinCharacter c.val = true) :
    ∃ b, String.utf8EncodeChar c = [b] := by
  rw [← List.length_eq_one_iff, String.length_utf8EncodeChar, Char.utf8Size_eq_one_iff]
  rw [isBasicLatinCharacter, decide_eq_true_eq] at h
  simp only [UInt32.le_iff_toNat_le, UInt32.reduceToNat] at h ⊢
  omega

/-- An extended Latin character that is not a basic one has more bytes than one. -/
theorem utf8EncodeChar_extended {c : Char} (h : isExtendedLatinCharacter c.val = true)
    (hbasic : isBasicLatinCharacter c.val ≠ true) :
    ∃ first b tail, String.utf8EncodeChar c = first :: b :: tail := by
  have hsize : c.utf8Size ≠ 1 := by
    rw [Ne, Char.utf8Size_eq_one_iff]
    rw [isExtendedLatinCharacter, decide_eq_true_eq] at h
    have hrange := h.resolve_left hbasic
    simp only [UInt32.le_iff_toNat_le, ← UInt32.toNat_inj, UInt32.reduceToNat] at hrange ⊢
    omega
  have hlen : 2 ≤ (String.utf8EncodeChar c).length := by
    have := c.utf8Size_pos
    rw [String.length_utf8EncodeChar]
    omega
  obtain ⟨first, rest, hc⟩ := List.exists_cons_of_ne_nil (@String.utf8EncodeChar_ne_nil c)
  have hrest : rest ≠ [] := by
    rintro rfl
    rw [hc] at hlen
    exact absurd hlen (by simp)
  obtain ⟨b, tail, rfl⟩ := List.exists_cons_of_ne_nil hrest
  exact ⟨first, b, tail, hc⟩

/-! ### The loop over characters -/

/-- The first character that is not a basic Latin letter is no extended one either. -/
def LettersFirst (chars : List Char) : Prop :=
  ∀ c, chars.find? (fun c => !isBasicLatinCharacter c.val) = some c →
    isExtendedLatinCharacter c.val = false

instance decidableLettersFirst (chars : List Char) : Decidable (LettersFirst chars) :=
  decidable_of_iff
    ((chars.find? fun c => !isBasicLatinCharacter c.val).all
      (fun c => !isExtendedLatinCharacter c.val) = true) (by
        rw [LettersFirst]
        cases chars.find? fun c => !isBasicLatinCharacter c.val <;> simp)

section Utf8

variable {locale : Locale} {stack : ℕ → UInt32}

/-- The loop stops at a character that is not a Latin one. -/
theorem validNameLoop_stops (hlocale : locale.IsUtf8) {c : Char}
    (hc : isExtendedLatinCharacter c.val = false) (i : ℕ) (rest : List UInt8) :
    validNameLoop locale stack i (String.utf8EncodeChar c ++ rest) = (false, [some c.val]) := by
  obtain ⟨b, tail, hbytes⟩ := List.exists_cons_of_ne_nil (@String.utf8EncodeChar_ne_nil c)
  have hconv := hlocale.converts c rest
  rw [hbytes, List.cons_append] at hconv ⊢
  rw [validNameLoop, hconv]
  simp [hc]

/-- It goes on behind a basic Latin letter. -/
theorem validNameLoop_letter (hlocale : locale.IsUtf8) {c : Char}
    (hc : isBasicLatinCharacter c.val = true) (i : ℕ) (rest : List UInt8) :
    validNameLoop locale stack i (String.utf8EncodeChar c ++ rest) =
      ((validNameLoop locale stack (i + 1) rest).1,
        some c.val :: (validNameLoop locale stack (i + 1) rest).2) := by
  obtain ⟨b, hbytes⟩ := utf8EncodeChar_basic hc
  have hconv := hlocale.converts c rest
  rw [hbytes, List.singleton_append] at hconv ⊢
  rw [validNameLoop, hconv]
  simp [isExtendedLatinCharacter, hc]

/-- In any other Latin character it comes to a byte where nothing is converted. -/
theorem validNameLoop_unwritten (hlocale : locale.IsUtf8) {c : Char}
    (hc : isExtendedLatinCharacter c.val = true) (hbasic : isBasicLatinCharacter c.val ≠ true)
    (i : ℕ) (rest : List UInt8) :
    none ∈ (validNameLoop locale stack i (String.utf8EncodeChar c ++ rest)).2 := by
  obtain ⟨first, b, tail, hbytes⟩ := utf8EncodeChar_extended hc hbasic
  have hconv := hlocale.converts c rest
  have hnone : locale.mbstowcs (b :: (tail ++ rest)) = none :=
    hlocale.refuses _ (List.cons_ne_nil _ _) fun c' rest' =>
      not_utf8EncodeChar_append ⟨first, hbytes⟩
  rw [hbytes, List.cons_append, List.cons_append] at hconv ⊢
  rw [validNameLoop, hconv]
  simp only [Option.getD_some, hc, if_true]
  rw [validNameLoop, hnone]
  split <;> simp

/-- **When the loop tests nothing that was not written**, and then it is right. -/
theorem validNameLoop_utf8 (hlocale : locale.IsUtf8) (chars : List Char) (i : ℕ) :
    (none ∉ (validNameLoop locale stack i (utf8 chars)).2 ↔ LettersFirst chars) ∧
      (LettersFirst chars → ((validNameLoop locale stack i (utf8 chars)).1 = true ↔
        ∀ c ∈ chars, isExtendedLatinCharacter c.val = true)) := by
  induction chars generalizing i with
  | nil =>
    refine ⟨iff_of_true (List.not_mem_nil) fun c hc => ?_, fun _ => iff_of_true rfl fun c hc => ?_⟩
    · cases hc
    · cases hc
  | cons c chars ih =>
    have hbytes : utf8 (c :: chars) = String.utf8EncodeChar c ++ utf8 chars := List.flatMap_cons
    by_cases hbasic : isBasicLatinCharacter c.val = true
    · -- a letter of one byte changes nothing
      have hext : isExtendedLatinCharacter c.val = true := by
        simp [isExtendedLatinCharacter, hbasic]
      have hfirst : LettersFirst (c :: chars) ↔ LettersFirst chars := by
        simp [LettersFirst, hbasic]
      rw [hbytes, validNameLoop_letter hlocale hbasic, hfirst, List.forall_mem_cons]
      simpa [hext] using ih (i + 1)
    · have hfirst : LettersFirst (c :: chars) ↔ isExtendedLatinCharacter c.val = false := by
        simp [LettersFirst, hbasic]
      rw [hfirst, hbytes]
      cases hext : isExtendedLatinCharacter c.val with
      | true =>
        have hunwritten : none ∈ _ :=
          @validNameLoop_unwritten locale stack hlocale c hext hbasic i (utf8 chars)
        exact ⟨iff_of_false (not_not.mpr hunwritten) Bool.noConfusion, fun h => by cases h⟩
      | false =>
        rw [validNameLoop_stops hlocale hext]
        refine ⟨iff_of_true (by simp) rfl, fun _ => iff_of_false Bool.false_ne_true fun h => ?_⟩
        exact Bool.false_ne_true (hext.symm.trans (h c List.mem_cons_self))

end Utf8

/-! ### Names of extended Latin letters -/

/-- What a name should be told of: whether it is all Latin letters, from what was
converted only. -/
def TestsCharacters (locale : Locale) (stack : ℕ → UInt32) (chars : List Char) : Prop :=
  (isValidName locale stack (utf8 chars) = true ↔
      ∀ c ∈ chars, isExtendedLatinCharacter c.val = true) ∧
    none ∉ conversionsTested locale stack (utf8 chars)

/-- **Names in UTF-8.** `isValidName` is right, and tests only what was written, exactly
where a name of at most twelve bytes has nothing but basic letters up to a character that
is no Latin letter, and where a longer one has such a character. -/
theorem isValidName_utf8_iff {locale : Locale} (hlocale : locale.IsUtf8) (stack : ℕ → UInt32)
    (chars : List Char) :
    TestsCharacters locale stack chars ↔
      if (utf8 chars).length ≤ 12 then LettersFirst chars
      else ∃ c ∈ chars, isExtendedLatinCharacter c.val = false := by
  obtain ⟨hwritten, hright⟩ := @validNameLoop_utf8 locale stack hlocale chars 0
  rw [TestsCharacters, isValidName_eq, conversionsTested]
  split
  · next hlong =>
    rw [if_neg (Nat.not_le.mpr hlong), and_iff_left List.not_mem_nil]
    simp
  · next hshort =>
    rw [if_pos (Nat.not_lt.mp hshort), hwritten]
    exact ⟨And.right, fun h => ⟨hright h, h⟩⟩

/-- A locale of UTF-8, in which only letters of one byte have another case. -/
def utf8Locale : Locale where
  toupper := cLocale.toupper
  tolower := cLocale.tolower
  mbstowcs s := (s.toByteArray.utf8DecodeChar? 0).map Char.val

theorem isUtf8_utf8Locale : utf8Locale.IsUtf8 where
  converts c rest := by
    have h := @ByteArray.utf8DecodeChar?_utf8EncodeChar_append rest.toByteArray c
    rw [← List.toByteArray_append] at h
    exact congrArg (Option.map Char.val) h
  refuses s _ hnone := by
    refine Option.map_eq_none_iff.mpr (Option.eq_none_iff_forall_ne_some.mpr fun c hc => ?_)
    obtain ⟨rest, hrest⟩ := ByteArray.exists_of_utf8DecodeChar?_eq_some hc
    have hlist := congrArg (fun bytes => bytes.data.toList) hrest
    exact hnone c rest.data.toList (by simpa [List.data_toByteArray] using hlist)

/-- A name of basic letters. -/
theorem isValidName_utf8_ascii : TestsCharacters utf8Locale (fun _ => 0) ['A', 'd', 'a'] := by
  refine (isValidName_utf8_iff isUtf8_utf8Locale (fun _ => 0) ['A', 'd', 'a']).mpr ?_
  rw [if_pos (by decide)]
  decide

/-- **Of a letter of two bytes the second is tested, and nothing was converted there.** -/
theorem not_testsCharacters_eAcute :
    ¬∀ (locale : Locale) (stack : ℕ → UInt32) (chars : List Char), locale.IsUtf8 →
      1 ≤ chars.length → chars.length ≤ 12 → TestsCharacters locale stack chars := by
  intro hclaim
  have htests := (hclaim utf8Locale (fun _ => 0) ['É'] isUtf8_utf8Locale (by decide) (by decide)).2
  rw [conversionsTested, if_neg (by decide)] at htests
  exact htests (validNameLoop_unwritten isUtf8_utf8Locale (by decide) (by decide) 0 [])

end Morfeusz
