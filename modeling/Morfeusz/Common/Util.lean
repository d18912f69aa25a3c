import Mathlib.Data.Nat.Notation

/-!
# Names of characters

`Utils` brings the name of a new character into its stored form and decides whether
it may be one. Both go through the C library, and what that does depends on the
locale, so the three functions of it that are used are a parameter.
-/

namespace Morfeusz

/-- The functions of the C library that depend on the locale. -/
structure Locale where
  toupper : UInt8 → UInt8
  tolower : UInt8 → UInt8
  /-- `mbstowcs(&c, s, 1)`: the wide character a text starts with, where it starts
  with a valid one. -/
  mbstowcs : List UInt8 → Option UInt32

/-- `normalizePlayerName`. -/
def normalizePlayerName (locale : Locale) : List UInt8 → Option (List UInt8)
  | [] => none
  | c :: cs => some (locale.toupper c :: cs.map locale.tolower)

/-- No letter has the terminator of a text for its other case. -/
def Locale.KeepsNul (locale : Locale) : Prop :=
  ∀ c, (locale.toupper c = 0 → c = 0) ∧ (locale.tolower c = 0 → c = 0)

/-- The stored form of a text is one. -/
theorem Locale.KeepsNul.normalizePlayerName {locale : Locale} (h : locale.KeepsNul)
    {name stored : List UInt8} (hnul : 0 ∉ name)
    (hstored : Morfeusz.normalizePlayerName locale name = some stored) : 0 ∉ stored := by
  cases name with
  | nil => cases hstored
  | cons c cs =>
    obtain rfl := Option.some.inj hstored
    rw [List.mem_cons, not_or] at hnul ⊢
    refine ⟨fun hc => hnul.1 ((h c).1 hc.symm).symm, fun hcs => ?_⟩
    obtain ⟨c', hc', hlower⟩ := List.mem_map.mp hcs
    exact hnul.2 ((h c').2 hlower ▸ hc')

def isBasicLatinCharacter (c : UInt32) : Bool :=
  (97 ≤ c ∧ c ≤ 122) ∨ (65 ≤ c ∧ c ≤ 90)

def isExtendedLatinCharacter (c : UInt32) : Bool :=
  isBasicLatinCharacter c ∨ (0x00C0 ≤ c ∧ c ≤ 0x00D6) ∨ (0x00D8 ≤ c ∧ c ≤ 0x00DF) ∨ c = 0x00DF ∨
    (0x00E0 ≤ c ∧ c ≤ 0x00F6) ∨ (0x00F8 ≤ c ∧ c ≤ 0x00FE) ∨ (0x0100 ≤ c ∧ c ≤ 0x012F) ∨
    c = 0x1E9E

/-- `isValidName`. Where the conversion fails, the wide character of that round is
what the stack held. -/
def isValidName (locale : Locale) (stack : ℕ → UInt32) (name : List UInt8) : Bool :=
  name.length ≤ 12 ∧ ∀ i ∈ List.range name.length,
    isExtendedLatinCharacter ((locale.mbstowcs (name.drop i)).getD (stack i))

end Morfeusz
