import Mathlib.Tactic.IntervalCases
import Morfeusz.Lib.ByteNumbers

/-!
# Numbers as hexadecimal text

Text is a list of character codes. `HexText.write` spells a number with two
upper-case digits a byte and no leading zero byte – zero itself is the single
digit `0` – and `HexText.read` takes the digits a text starts with, in either
letter case, and fails where there is none. Reading undoes writing
(`HexText.read_write`), and the case of the letters does not matter
(`HexText.read_map_toUpper`).
-/

namespace HexText

open ByteNumbers

/-! ### Digits -/

/-- The value of a hexadecimal digit, in either letter case. -/
def digit? (c : UInt8) : Option ℕ :=
  if 48 ≤ c ∧ c ≤ 57 then some (c.toNat - 48)
  else if 65 ≤ c ∧ c ≤ 70 then some (c.toNat - 55)
  else if 97 ≤ c ∧ c ≤ 102 then some (c.toNat - 87)
  else none

/-- The upper-case digit of a value below sixteen. -/
def digit (d : ℕ) : UInt8 := UInt8.ofNat (if d < 10 then 48 + d else 55 + d)

/-- The upper-case form of a letter; every other character stays. -/
def toUpper (c : UInt8) : UInt8 := if 97 ≤ c ∧ c ≤ 122 then c - 32 else c

/-- A text of hexadecimal digits only. -/
def IsHex (t : List UInt8) : Prop := ∀ c ∈ t, (digit? c).isSome

instance (t : List UInt8) : Decidable (IsHex t) :=
  List.decidableBAll (fun c => (digit? c).isSome = true) t

theorem digit?_digit {d : ℕ} (h : d < 16) : digit? (digit d) = some d := by
  interval_cases d <;> rfl

theorem digit?_lt {c : UInt8} {d : ℕ} (h : digit? c = some d) : d < 16 := by
  have h57 : ∀ {x y : UInt8}, x ≤ y → x.toNat ≤ y.toNat := UInt8.le_iff_toNat_le.mp
  unfold digit? at h
  split at h
  · next hc =>
    have := h57 hc.2
    simp_all
    omega
  split at h
  · next hc =>
    have := h57 hc.2
    simp_all
    omega
  split at h
  · next hc =>
    have := h57 hc.2
    simp_all
    omega
  · cases h

/-- **The case of a letter does not change the digit it stands for.** -/
theorem digit?_toUpper (c : UInt8) : digit? (toUpper c) = digit? c := by
  have hall : ∀ n : Fin 256, digit? (toUpper (UInt8.ofNat n)) = digit? (UInt8.ofNat n) := by
    decide +kernel
  have hc : c.toNat < 256 := c.toNat_lt
  have h := hall ⟨c.toNat, hc⟩
  simpa using h

/-- Nor does it decide whether a text is made of digits. -/
theorem isHex_map_toUpper {t : List UInt8} : IsHex (t.map toUpper) ↔ IsHex t := by
  simp only [IsHex, List.forall_mem_map, digit?_toUpper]

/-! ### Reading -/

/-- The number read so far, extended by the digits that follow. -/
def readFrom (acc : ℕ) : List UInt8 → ℕ
  | [] => acc
  | c :: cs => match digit? c with
    | some d => readFrom (16 * acc + d) cs
    | none => acc

/-- The number spelt by the digits a text starts with, if there is one. -/
def read : List UInt8 → Option ℕ
  | [] => none
  | c :: cs => (digit? c).map fun d => readFrom d cs

@[simp] theorem read_nil : read [] = none := rfl

/-- A text of digits is read as a number exactly when it is not empty. -/
theorem isSome_read_iff {t : List UInt8} (h : IsHex t) : (read t).isSome ↔ t ≠ [] := by
  cases t with
  | nil => simp
  | cons c cs => simpa [read] using h c (by simp)

theorem readFrom_lt (acc : ℕ) (t : List UInt8) (w : ℕ) (h : acc < 16 ^ w) :
    readFrom acc t < 16 ^ (w + t.length) := by
  induction t generalizing acc w with
  | nil => simpa [readFrom] using h
  | cons c cs ih =>
    rw [readFrom]
    split
    · next d hd =>
      have hd16 := digit?_lt hd
      have hacc : 16 * acc + d < 16 ^ (w + 1) := by
        rw [pow_succ]
        omega
      have := ih (16 * acc + d) (w + 1) hacc
      rwa [List.length_cons, show w + (cs.length + 1) = w + 1 + cs.length by omega]
    · exact lt_of_lt_of_le h (Nat.pow_le_pow_right (by norm_num) (by omega))

/-- A text of `w` characters spells a number of at most `w` digits. -/
theorem read_lt {t : List UInt8} {n : ℕ} (h : read t = some n) : n < 16 ^ t.length := by
  cases t with
  | nil => cases h
  | cons c cs =>
    rw [read] at h
    obtain ⟨d, hd, rfl⟩ := Option.map_eq_some_iff.mp h
    have := readFrom_lt d cs 1 (by simpa using digit?_lt hd)
    rwa [List.length_cons, Nat.add_comm]

theorem readFrom_map_toUpper (acc : ℕ) (t : List UInt8) :
    readFrom acc (t.map toUpper) = readFrom acc t := by
  induction t generalizing acc with
  | nil => rfl
  | cons c cs ih =>
    rw [List.map_cons, readFrom, readFrom, digit?_toUpper]
    cases digit? c with
    | none => rfl
    | some d => exact ih _

/-- **Reading does not see the letter case.** -/
theorem read_map_toUpper (t : List UInt8) : read (t.map toUpper) = read t := by
  cases t with
  | nil => rfl
  | cons c cs => simp [read, digit?_toUpper, readFrom_map_toUpper]

/-! ### Writing -/

/-- The two digits of a byte. -/
def byteDigits (b : UInt8) : List UInt8 := [digit (b.toNat / 16), digit (b.toNat % 16)]

theorem isHex_flatMap_byteDigits (bs : List UInt8) : IsHex (bs.flatMap byteDigits) := by
  intro c hc
  obtain ⟨b, -, hc⟩ := List.mem_flatMap.mp hc
  have hb : b.toNat < 256 := b.toNat_lt
  rcases List.mem_pair.mp hc with rfl | rfl
  · rw [digit?_digit (by omega)]
    rfl
  · rw [digit?_digit (by omega)]
    rfl

/-- The text of a number: two digits a byte, no leading zero byte, and `0` for
zero. -/
def write (n : ℕ) : List UInt8 :=
  if n = 0 then [digit 0] else (beBytes (numBytes n) n).flatMap byteDigits

theorem isHex_write (n : ℕ) : IsHex (write n) := by
  rw [write]
  split
  · decide
  · exact isHex_flatMap_byteDigits _

theorem readFrom_flatMap_byteDigits (acc : ℕ) (bs : List UInt8) :
    readFrom acc (bs.flatMap byteDigits) = acc * 256 ^ bs.length + beVal bs := by
  induction bs generalizing acc with
  | nil => simp [readFrom, beVal]
  | cons b bs ih =>
    have hb : b.toNat < 256 := b.toNat_lt
    have hval : beVal (b :: bs) = b.toNat * 256 ^ bs.length + beVal bs := by
      rw [beVal, beVal, List.reverse_cons, leVal_append, List.length_reverse]
      simp
      ring
    have hbyte : 16 * (16 * acc + b.toNat / 16) + b.toNat % 16 = 256 * acc + b.toNat := by omega
    rw [List.flatMap_cons, byteDigits, List.cons_append, List.cons_append, List.nil_append,
      readFrom, digit?_digit (by omega)]
    dsimp only
    rw [readFrom, digit?_digit (by omega)]
    dsimp only
    rw [hbyte, ih, hval, List.length_cons, pow_succ]
    ring

/-- Where a text starts with a digit, reading it is reading on from zero. -/
theorem read_eq_readFrom {c : UInt8} {cs : List UInt8} {d : ℕ} (h : digit? c = some d) :
    read (c :: cs) = some (readFrom 0 (c :: cs)) := by
  rw [read, readFrom, h]
  simp

/-- **Reading undoes writing.** -/
theorem read_write (n : ℕ) : read (write n) = some n := by
  rcases eq_or_ne n 0 with rfl | hn
  · rfl
  · have hne : (beBytes (numBytes n) n) ≠ [] := by
      rw [← List.length_pos_iff, length_beBytes, Nat.pos_iff_ne_zero]
      exact mt numBytes_eq_zero_iff.mp hn
    obtain ⟨b, bs, hbs⟩ := List.exists_cons_of_ne_nil hne
    have hread := readFrom_flatMap_byteDigits 0 (beBytes (numBytes n) n)
    rw [beVal_beBytes_of_lt (lt_pow_numBytes n), Nat.zero_mul, Nat.zero_add] at hread
    have hb : b.toNat < 256 := b.toNat_lt
    have hstart : read ((b :: bs).flatMap byteDigits) =
        some (readFrom 0 ((b :: bs).flatMap byteDigits)) :=
      read_eq_readFrom (digit?_digit (show b.toNat / 16 < 16 by omega))
    rw [write, if_neg hn, hbs, hstart, ← hbs, hread]

end HexText
