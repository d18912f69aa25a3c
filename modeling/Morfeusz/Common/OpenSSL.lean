import Mathlib.Data.List.TakeWhile
import Morfeusz.Lib.HexText
import Morfeusz.Lib.PowMod

/-!
# The OpenSSL calls of the two daemons

Both daemons compute on `BIGNUM`s and hash with `SHA1`. A `BIGNUM` is a natural
number here, and every call keeps OpenSSL's name. The hash is a parameter: all
that is known of it is that it returns `SHA_DIGEST_LENGTH` bytes, and so does the
keyed hash of the header cipher.

`Morfeusz.bnBn2bin` is the call to watch. It writes only the bytes the number
needs, at the front of the buffer, and does not know how long the buffer is:
where the number may be too long, the caller of this model asks
`Morfeusz.Fits` first and does not survive a refusal; where it is too short the
rest of the buffer is what it was.
-/

namespace Morfeusz

open ByteNumbers

/-- A buffer of a fixed number of bytes. -/
abbrev Bytes (n : ℕ) := {bs : List UInt8 // bs.length = n}

/-- A buffer the program has set to zero. -/
def Bytes.zero (n : ℕ) : Bytes n := ⟨List.replicate n 0, List.length_replicate⟩

@[simp] theorem Bytes.length {n : ℕ} (bs : Bytes n) : bs.val.length = n := bs.property

/-- `std::reverse` of a whole buffer. -/
def Bytes.reverse {n : ℕ} (bs : Bytes n) : Bytes n := ⟨bs.val.reverse, by simp⟩

@[simp] theorem Bytes.val_reverse {n : ℕ} (bs : Bytes n) : bs.reverse.val = bs.val.reverse := rfl

/-- `SHA1`: any function to twenty bytes. -/
abbrev Sha1 := List UInt8 → Bytes 20

/-- `HMAC` with `EVP_sha1()`: any function of a key and a message to twenty
bytes. -/
abbrev Hmac := List UInt8 → List UInt8 → Bytes 20

/-! ### Big numbers -/

/-- `BN_num_bytes`. -/
def bnNumBytes (n : ℕ) : ℕ := numBytes n

/-- `BN_bin2bn`: the number a byte string spells, most significant byte first. -/
def bnBin2bn (bs : List UInt8) : ℕ := beVal bs

/-- `BN_bn2bin`: the number's own bytes, over the front of a buffer. -/
def bnBn2bin (n : ℕ) (buf : List UInt8) : List UInt8 := overwrite n buf

/-- `BN_bn2bin` stays inside the buffer. -/
def Fits (n w : ℕ) : Prop := bnNumBytes n ≤ w

instance (n w : ℕ) : Decidable (Fits n w) := inferInstanceAs (Decidable (_ ≤ _))

theorem fits_iff {n w : ℕ} : Fits n w ↔ n < 256 ^ w := numBytes_le_iff

/-- `BN_hex2bn`: the number spelt by the hexadecimal digits a text starts with;
`none` where there is no digit, and then the target is not assigned. -/
def bnHex2bn (text : List UInt8) : Option ℕ := HexText.read text

/-- `BN_bn2hex`. -/
def bnBn2hex (n : ℕ) : List UInt8 := HexText.write n

/-- `BN_mod_exp`. -/
def bnModExp (a e n : ℕ) : ℕ := PowMod.powMod a e n

theorem bnModExp_eq {n : ℕ} (hn : 0 < n) (a e : ℕ) : bnModExp a e n = a ^ e % n :=
  PowMod.powMod_eq hn a e

theorem bnHex2bn_bnBn2hex (n : ℕ) : bnHex2bn (bnBn2hex n) = some n := HexText.read_write n

/-- A result of `BN_rand(_, bits, 0, 1)`: the top bit is set, and so is the
bottom one. -/
structure BnRand (bits : ℕ) where
  val : ℕ
  msb : 2 ^ (bits - 1) ≤ val
  lt : val < 2 ^ bits
  odd : val % 2 = 1

theorem BnRand.pos {bits : ℕ} (r : BnRand bits) : 0 < r.val := by
  have := r.odd
  omega

/-- A drawn number of `8 * w` bits fills `w` bytes. -/
theorem BnRand.numBytes_val {w : ℕ} (r : BnRand (8 * (w + 1))) : numBytes r.val = w + 1 := by
  have hlow : (256 : ℕ) ^ w ≤ 2 ^ (8 * (w + 1) - 1) := by
    rw [show (256 : ℕ) = 2 ^ 8 by norm_num, ← pow_mul]
    exact Nat.pow_le_pow_right (by norm_num) (by omega)
  have hhigh : (2 : ℕ) ^ (8 * (w + 1)) = 256 ^ (w + 1) := by
    rw [show (256 : ℕ) = 2 ^ 8 by norm_num, ← pow_mul]
  exact numBytes_eq_succ_iff.mpr ⟨hlow.trans r.msb, hhigh ▸ r.lt⟩

/-! ### C strings -/

/-- The characters of a text up to the first NUL: what is left of a
`std::string` that is passed on as `c_str()`. -/
def cStr (text : List UInt8) : List UInt8 := text.takeWhile (· ≠ 0)

/-- A text without a NUL is passed on whole. -/
theorem cStr_of_not_mem {text : List UInt8} (h : 0 ∉ text) : cStr text = text := by
  refine List.takeWhile_eq_self_iff.mpr fun ch hch => decide_eq_true ?_
  rintro rfl
  exact h hch

/-- A text of digits has no NUL. -/
theorem cStr_of_isHex {text : List UInt8} (h : HexText.IsHex text) : cStr text = text :=
  cStr_of_not_mem fun hzero => absurd (h 0 hzero) (by decide)

/-- A number that is written as a text comes through a column unchanged. -/
theorem cStr_bnBn2hex (n : ℕ) : cStr (bnBn2hex n) = bnBn2hex n :=
  cStr_of_isHex (HexText.isHex_write n)

end Morfeusz
