import Mathlib.Algebra.Order.Ring.Nat
import Mathlib.Data.Nat.Log
import Mathlib.Data.UInt
import Mathlib.Tactic.Ring
import Mathlib.Tactic.NormNum

/-!
# Byte strings as numbers

A byte string denotes a natural number in base `256`, in either byte order, and a
number has one byte string of every width it fits in. This file fixes the two
directions – `ByteNumbers.leVal`, `ByteNumbers.beVal` read a string,
`ByteNumbers.leBytes`, `ByteNumbers.beBytes` write one of a given width – and the
count `ByteNumbers.numBytes` of the bytes a number needs.

The fact the rest of the development leans on is what happens to a number written
with fewer bytes than the buffer that takes it
(`ByteNumbers.reverse_overwrite_eq_leBytes_iff`): put at the *front* of the buffer
in big-endian order and then reversed, it reads back as itself exactly when it
fills the buffer, or when there was nothing to write and the buffer held zeros.
-/

namespace ByteNumbers

/-! ### Reading a string -/

/-- The number a byte string denotes, least significant byte first. -/
def leVal : List UInt8 → ℕ
  | [] => 0
  | b :: bs => b.toNat + 256 * leVal bs

/-- The number a byte string denotes, most significant byte first. -/
def beVal (bs : List UInt8) : ℕ := leVal bs.reverse

@[simp] theorem leVal_nil : leVal [] = 0 := rfl

@[simp] theorem leVal_cons (b : UInt8) (bs : List UInt8) :
    leVal (b :: bs) = b.toNat + 256 * leVal bs := rfl

theorem leVal_append (as bs : List UInt8) :
    leVal (as ++ bs) = leVal as + 256 ^ as.length * leVal bs := by
  induction as with
  | nil => simp
  | cons a as ih =>
    rw [List.cons_append, leVal_cons, leVal_cons, ih, List.length_cons, pow_succ]
    ring

theorem leVal_lt (bs : List UInt8) : leVal bs < 256 ^ bs.length := by
  induction bs with
  | nil => simp
  | cons b bs ih =>
    have hb : b.toNat < 256 := b.toNat_lt
    rw [leVal_cons, List.length_cons, pow_succ]
    omega

theorem beVal_lt (bs : List UInt8) : beVal bs < 256 ^ bs.length := by
  simpa [beVal] using leVal_lt bs.reverse

@[simp] theorem beVal_reverse (bs : List UInt8) : beVal bs.reverse = leVal bs := by
  simp [beVal]

@[simp] theorem leVal_replicate_zero (w : ℕ) : leVal (List.replicate w 0) = 0 := by
  induction w with
  | zero => rfl
  | succ w ih => simp [List.replicate_succ, ih]

/-! ### Writing a string of a given width -/

/-- The `w` low bytes of a number, least significant first. -/
def leBytes : ℕ → ℕ → List UInt8
  | 0, _ => []
  | w + 1, n => UInt8.ofNat n :: leBytes w (n / 256)

/-- The `w` low bytes of a number, most significant first. -/
def beBytes (w n : ℕ) : List UInt8 := (leBytes w n).reverse

@[simp] theorem leBytes_zero_width (n : ℕ) : leBytes 0 n = [] := rfl

theorem leBytes_succ (w n : ℕ) : leBytes (w + 1) n = UInt8.ofNat n :: leBytes w (n / 256) := rfl

@[simp] theorem length_leBytes (w n : ℕ) : (leBytes w n).length = w := by
  induction w generalizing n with
  | zero => rfl
  | succ w ih => rw [leBytes_succ, List.length_cons, ih]

@[simp] theorem length_beBytes (w n : ℕ) : (beBytes w n).length = w := by
  simp [beBytes]

/-- The low bytes of a number are those of a smaller width. -/
theorem take_leBytes {k w : ℕ} (h : k ≤ w) (n : ℕ) : (leBytes w n).take k = leBytes k n := by
  induction k generalizing w n with
  | zero => rfl
  | succ k ih =>
    obtain ⟨w, rfl⟩ := Nat.exists_eq_add_of_le' (Nat.one_le_of_lt h)
    rw [leBytes_succ, leBytes_succ, List.take_succ_cons, ih (Nat.le_of_succ_le_succ h)]

theorem leVal_leBytes (w n : ℕ) : leVal (leBytes w n) = n % 256 ^ w := by
  induction w generalizing n with
  | zero => simp [Nat.mod_one]
  | succ w ih =>
    rw [leBytes_succ, leVal_cons, ih, pow_succ, mul_comm (256 ^ w), Nat.mod_mul]
    simp

theorem leVal_leBytes_of_lt {w n : ℕ} (h : n < 256 ^ w) : leVal (leBytes w n) = n := by
  rw [leVal_leBytes, Nat.mod_eq_of_lt h]

theorem beVal_beBytes_of_lt {w n : ℕ} (h : n < 256 ^ w) : beVal (beBytes w n) = n := by
  rw [beBytes, beVal_reverse, leVal_leBytes_of_lt h]

/-- **A string is determined by its width and its value.** -/
theorem leBytes_leVal (bs : List UInt8) : leBytes bs.length (leVal bs) = bs := by
  induction bs with
  | nil => rfl
  | cons b bs ih =>
    have hb : b.toNat < 256 := b.toNat_lt
    have hdiv : (b.toNat + 256 * leVal bs) / 256 = leVal bs := by omega
    have hhead : UInt8.ofNat (b.toNat + 256 * leVal bs) = b := by
      apply UInt8.toNat_inj.mp
      rw [UInt8.toNat_ofNat']
      omega
    rw [List.length_cons, leBytes_succ, leVal_cons, hdiv, ih, hhead]

theorem leVal_inj {as bs : List UInt8} (hlen : as.length = bs.length)
    (h : leVal as = leVal bs) : as = bs := by
  rw [← leBytes_leVal as, ← leBytes_leVal bs, hlen, h]

theorem beBytes_beVal (bs : List UInt8) : beBytes bs.length (beVal bs) = bs := by
  have h := leBytes_leVal bs.reverse
  rw [List.length_reverse] at h
  rw [beBytes, beVal, h, List.reverse_reverse]

@[simp] theorem leBytes_zero (w : ℕ) : leBytes w 0 = List.replicate w 0 := by
  refine leVal_inj (by simp) ?_
  rw [leVal_leBytes, leVal_replicate_zero, Nat.zero_mod]

/-- A number that fits in `w` bytes is padded with zeros on the significant
side. -/
theorem leBytes_add {w n : ℕ} (h : n < 256 ^ w) (k : ℕ) :
    leBytes (w + k) n = leBytes w n ++ List.replicate k 0 := by
  refine leVal_inj (by simp) ?_
  have hwk : n < 256 ^ (w + k) := lt_of_lt_of_le h (Nat.pow_le_pow_right (by norm_num) (by omega))
  rw [leVal_leBytes_of_lt hwk, leVal_append, leVal_leBytes_of_lt h, leVal_replicate_zero]
  omega

/-! ### The bytes a number needs -/

/-- The number of bits of a number, `0` for zero. -/
def numBits (n : ℕ) : ℕ := if n = 0 then 0 else Nat.log2 n + 1

/-- The number of bytes of a number, `0` for zero. -/
def numBytes (n : ℕ) : ℕ := (numBits n + 7) / 8

theorem numBits_le_iff {n k : ℕ} : numBits n ≤ k ↔ n < 2 ^ k := by
  rw [numBits]
  split
  · next h => simp [h]
  · next h => exact Nat.succ_le_iff.trans (Nat.log2_lt h)

/-- **A number fits in `w` bytes exactly when it is below `256 ^ w`.** -/
theorem numBytes_le_iff {n w : ℕ} : numBytes n ≤ w ↔ n < 256 ^ w := by
  have h256 : (256 : ℕ) ^ w = 2 ^ (8 * w) := by rw [pow_mul]; norm_num
  rw [h256, ← numBits_le_iff, numBytes]
  omega

@[simp] theorem numBytes_zero : numBytes 0 = 0 := rfl

theorem lt_pow_numBytes (n : ℕ) : n < 256 ^ numBytes n := numBytes_le_iff.mp le_rfl

theorem numBytes_eq_zero_iff {n : ℕ} : numBytes n = 0 ↔ n = 0 := by
  rw [← Nat.le_zero, numBytes_le_iff, pow_zero, Nat.lt_one_iff]

/-- A number of exactly `w + 1` bytes is one whose top byte is not zero. -/
theorem numBytes_eq_succ_iff {n w : ℕ} :
    numBytes n = w + 1 ↔ 256 ^ w ≤ n ∧ n < 256 ^ (w + 1) := by
  have hle := @numBytes_le_iff n w
  have hle' := @numBytes_le_iff n (w + 1)
  omega

/-- **The value of a string needs every byte exactly when its last byte is not
zero.** -/
theorem numBytes_leVal_concat (bs : List UInt8) (b : UInt8) :
    numBytes (leVal (bs ++ [b])) = bs.length + 1 ↔ b ≠ 0 := by
  have hbs := leVal_lt bs
  have hpos : 0 < 256 ^ bs.length := Nat.pow_pos (by norm_num)
  rw [numBytes_eq_succ_iff, leVal_append]
  constructor
  · rintro ⟨hle, -⟩ rfl
    simp at hle
    omega
  · intro hb
    have hb0 : b.toNat ≠ 0 := fun h => hb (UInt8.toNat_inj.mp h)
    have hb1 : b.toNat < 256 := b.toNat_lt
    have hval : leVal [b] = b.toNat := by simp
    rw [hval, pow_succ]
    constructor
    · exact le_trans (Nat.le_mul_of_pos_right _ (by omega)) (Nat.le_add_left _ _)
    · calc leVal bs + 256 ^ bs.length * b.toNat
          < 256 ^ bs.length + 256 ^ bs.length * b.toNat := Nat.add_lt_add_right hbs _
        _ = 256 ^ bs.length * (b.toNat + 1) := by ring
        _ ≤ 256 ^ bs.length * 256 := Nat.mul_le_mul_left _ (by omega)

/-! ### A number written over the front of a buffer -/

/-- The bytes of a number, most significant first, written over the front of a
buffer. What the number does not reach of the buffer keeps its old contents. -/
def overwrite (n : ℕ) (buf : List UInt8) : List UInt8 :=
  beBytes (numBytes n) n ++ buf.drop (numBytes n)

theorem length_overwrite {n : ℕ} {buf : List UInt8} (h : numBytes n ≤ buf.length) :
    (overwrite n buf).length = buf.length := by
  simp [overwrite]
  omega

@[simp] theorem overwrite_zero (buf : List UInt8) : overwrite 0 buf = buf := by
  simp [overwrite, beBytes]

/-- A number that fills the buffer leaves nothing of it. -/
theorem reverse_overwrite_of_full {n : ℕ} {buf : List UInt8} (h : numBytes n = buf.length) :
    (overwrite n buf).reverse = leBytes buf.length n := by
  rw [overwrite, h, List.drop_length, List.append_nil, beBytes, List.reverse_reverse]

/-- **Where the reversed buffer reads back as the number**: exactly when the
number fills the buffer, or the number is zero and the buffer was all zeros. A
shorter number keeps its top byte at the front of the buffer, so after the
reversal that byte stands where the padding should be. -/
theorem reverse_overwrite_eq_leBytes_iff {n : ℕ} {buf : List UInt8}
    (h : numBytes n ≤ buf.length) :
    (overwrite n buf).reverse = leBytes buf.length n ↔
      numBytes n = buf.length ∨ (n = 0 ∧ buf = List.replicate buf.length 0) := by
  constructor
  · intro heq
    rcases eq_or_ne n 0 with rfl | hn
    · refine Or.inr ⟨rfl, ?_⟩
      rw [overwrite_zero, leBytes_zero] at heq
      rw [← List.reverse_reverse buf, heq, List.reverse_replicate]
      simp
    · refine Or.inl (by_contra fun hne => ?_)
      obtain ⟨k, hk⟩ : ∃ k, buf.length = numBytes n + (k + 1) :=
        ⟨buf.length - numBytes n - 1, by omega⟩
      obtain ⟨m, hm⟩ : ∃ m, numBytes n = m + 1 :=
        ⟨numBytes n - 1, by have := mt numBytes_eq_zero_iff.mp hn; omega⟩
      -- the last byte of the left side is the top byte of the number, of the right side a zero
      rw [hk, leBytes_add (lt_pow_numBytes n), overwrite, List.reverse_append, beBytes,
        List.reverse_reverse, List.replicate_succ', ← List.append_assoc] at heq
      have hsplit : leBytes (numBytes n) n = (leBytes (numBytes n) n).dropLast ++
          [(leBytes (numBytes n) n).getLast (by simp [← List.length_pos_iff, hm])] :=
        (List.dropLast_append_getLast _).symm
      rw [hsplit, ← List.append_assoc] at heq
      have hlast := (List.append_inj' heq rfl).2
      have htop := (numBytes_leVal_concat (leBytes (numBytes n) n).dropLast
        ((leBytes (numBytes n) n).getLast (by simp [← List.length_pos_iff, hm]))).mp (by
          rw [← hsplit, leVal_leBytes_of_lt (lt_pow_numBytes n)]
          simp [hm])
      exact htop (by simpa using hlast)
  · rintro (hfull | ⟨rfl, hbuf⟩)
    · exact reverse_overwrite_of_full hfull
    · rw [overwrite_zero, leBytes_zero, hbuf, List.reverse_replicate]
      simp

end ByteNumbers
