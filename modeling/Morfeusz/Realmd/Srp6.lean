import Morfeusz.Realmd.Packets

/-!
# The numbers of a logon

A logon is an exchange of big numbers modulo a fixed prime. The socket keeps a
salt `s`, a verifier `v`, a secret exponent `b` and a public value `B`; a proof is
checked by recomputing the shared secret `S`, the session key of forty bytes that
is hashed out of it, and the hash the client should have sent.

Wherever a number is hashed it is first written to a buffer of fixed length and
the buffer is reversed (`Morfeusz.Realmd.reversedBuffer`). The buffer of `S` is
the only one that is not zeroed first, so its old contents are a parameter.
-/

namespace Morfeusz.Realmd

open ByteNumbers

/-! ### The group -/

/-- `N`. -/
def primeN : ℕ := 0x894B645E89E1535BBDAD5B8B290650530801B18EBFBF5E8FAB3C82872A3E9BB7

/-- `g`. -/
def generatorG : ℕ := 7

/-- What the constructor sets `k` to. -/
def multiplierK : ℕ := 3

theorem primeN_pos : 0 < primeN := by norm_num [primeN]

theorem primeN_lt : primeN < 256 ^ 32 := by norm_num [primeN]

/-- A number that was reduced modulo `N`. -/
abbrev Residue := {n : ℕ // n < primeN}

/-- `BN_mod(_, _, N, _)`. -/
def residue (n : ℕ) : Residue := ⟨n % primeN, Nat.mod_lt _ primeN_pos⟩

/-- `BN_mod_exp(_, _, _, N, _)`. -/
def residueExp (a e : ℕ) : Residue := ⟨bnModExp a e primeN, PowMod.powMod_lt primeN_pos a e⟩

@[simp] theorem val_residue (n : ℕ) : (residue n).val = n % primeN := rfl

@[simp] theorem val_residueExp (a e : ℕ) : (residueExp a e).val = a ^ e % primeN :=
  bnModExp_eq primeN_pos a e

theorem numBytes_primeN : numBytes primeN = 32 :=
  numBytes_eq_succ_iff.mpr ⟨by norm_num [primeN], primeN_lt⟩

theorem Residue.lt (n : Residue) : n.val < 256 ^ 32 := n.property.trans primeN_lt

/-- A salt: `BN_rand(s, 32*8, 0, 1)` sets the top bit. -/
abbrev Salt := {n : ℕ // 2 ^ 255 ≤ n ∧ n < 2 ^ 256}

/-- The drawn salt. -/
def Salt.ofRand (r : BnRand 256) : Salt := ⟨r.val, r.msb, r.lt⟩

theorem Salt.numBytes (s : Salt) : numBytes s.val = 32 :=
  numBytes_eq_succ_iff.mpr ⟨le_trans (by norm_num) s.property.1,
    lt_of_lt_of_le s.property.2 (by norm_num)⟩

/-! ### Numbers in buffers -/

/-- A zeroed buffer, `BN_bn2bin` into it, `std::reverse` of the whole. -/
def reversedBuffer (w n : ℕ) : List UInt8 := (bnBn2bin n (List.replicate w 0)).reverse

theorem length_reversedBuffer {w n : ℕ} (h : n < 256 ^ w) : (reversedBuffer w n).length = w := by
  rw [reversedBuffer, List.length_reverse, bnBn2bin, length_overwrite, List.length_replicate]
  rw [List.length_replicate]
  exact fits_iff.mpr h

/-- A number that fills its buffer is there in little-endian order. -/
theorem reversedBuffer_of_full {w n : ℕ} (h : numBytes n = w) :
    reversedBuffer w n = leBytes w n := by
  have hfull : numBytes n = (List.replicate w (0 : UInt8)).length := by simpa using h
  simpa [reversedBuffer, bnBn2bin] using reverse_overwrite_of_full hfull

@[simp] theorem reversedBuffer_zero (w : ℕ) : reversedBuffer w 0 = leBytes w 0 := by
  simp [reversedBuffer, bnBn2bin]

/-! ### The verifier -/

/-- `p_ch` of `set_vs`: the stored password hash, as far as the bytes it needs, at
the front of twenty. -/
def passwordBuffer (I : ℕ) : List UInt8 := bnBn2bin I (List.replicate 20 0)

section Hash

variable (sha : Sha1)

/-- `x` of `set_vs`. -/
def exponentX (s : Salt) (I : ℕ) : ℕ :=
  bnBin2bn (sha (reversedBuffer 32 s.val ++ passwordBuffer I)).val.reverse

/-- `v` of `set_vs`. -/
def verifierV (s : Salt) (I : ℕ) : Residue := residueExp generatorG (exponentX sha s I)

/-- `B` of `account_checked`. -/
def publicB (v : Residue) (k b : ℕ) : Residue :=
  residue (v.val * k + (residueExp generatorG b).val)

/-! ### The session key -/

/-- `u` of `handle_auth_logon_proof`. -/
def scramblerU (A : List UInt8) (B : Residue) : ℕ :=
  bnBin2bn (sha (A ++ reversedBuffer 32 B.val)).val.reverse

/-- `S` of `handle_auth_logon_proof`. -/
def secretS (A : ℕ) (v : Residue) (u b : ℕ) : Residue :=
  residueExp (A * (residueExp v.val u).val) b

/-- The elements at even positions. -/
def evens {α : Type} : List α → List α
  | [] => []
  | [a] => [a]
  | a :: _ :: as => a :: evens as

/-- The elements at odd positions. -/
def odds {α : Type} (as : List α) : List α := evens as.tail

/-- Two lists shuffled into one, element by element. -/
def interleave {α : Type} : List α → List α → List α
  | a :: as, b :: bs => a :: b :: interleave as bs
  | _, _ => []

/-- `K_buff`: the hashes of the two halves of a secret, interleaved. -/
def interleavedKey (S : List UInt8) : List UInt8 :=
  interleave (sha (evens S)).val (sha (odds S)).val

/-- `S_buff`: the buffer on the stack, with what it held before. -/
def secretBuffer (stack : Bytes 32) (S : Residue) : List UInt8 := (bnBn2bin S.val stack.val).reverse

/-! ### The proof -/

/-- `HNxorHg`. -/
def hashNxorHashG : List UInt8 :=
  List.zipWith (· ^^^ ·) (sha (reversedBuffer 32 primeN)).val (sha [7]).val

/-- `M_buff`, from its six parts. -/
def proofM (login salt A B K : List UInt8) : Bytes 20 :=
  sha (hashNxorHashG sha ++ (sha login).val ++ salt ++ A ++ B ++ K)

/-- The text `update_account` stores for a session key: the key as a big-endian
number, in hexadecimal. -/
def sessionkeyText (K : List UInt8) : List UInt8 := bnBn2hex (bnBin2bn K.reverse)

/-- `hamk_fin`. -/
def proofHamk (A M K : List UInt8) : Bytes 20 := sha (A ++ M ++ K)

end Hash

theorem length_interleave {α : Type} {as bs : List α} (h : as.length = bs.length) :
    (interleave as bs).length = as.length + bs.length := by
  induction as generalizing bs with
  | nil =>
    cases bs with
    | nil => rfl
    | cons b bs => cases h
  | cons a as ih =>
    cases bs with
    | nil => cases h
    | cons b bs =>
      have hlen : as.length = bs.length := by simpa using h
      simp only [interleave, List.length_cons, ih hlen]
      omega

theorem interleave_inj {α : Type} {as as' bs bs' : List α} (hlen : as.length = bs.length)
    (hlen' : as'.length = bs'.length) (h : interleave as bs = interleave as' bs') :
    as = as' ∧ bs = bs' := by
  induction as generalizing as' bs bs' with
  | nil =>
    obtain rfl := List.length_eq_zero_iff.mp hlen.symm
    cases as' with
    | nil => exact ⟨rfl, (List.length_eq_zero_iff.mp hlen'.symm).symm⟩
    | cons a' as' =>
      cases bs' with
      | nil => cases hlen'
      | cons b' bs' => cases h
  | cons a as ih =>
    obtain ⟨b, bs, rfl⟩ := List.exists_cons_of_length_eq_add_one hlen.symm
    cases as' with
    | nil => cases h
    | cons a' as' =>
      obtain ⟨b', bs', rfl⟩ := List.exists_cons_of_length_eq_add_one hlen'.symm
      -- two heads are taken off at a time, one of each list
      obtain ⟨ha, htail⟩ := List.cons.inj h
      obtain ⟨hb, hrest⟩ := List.cons.inj htail
      obtain ⟨has, hbs⟩ := ih (Nat.succ.inj hlen) (Nat.succ.inj hlen') hrest
      exact ⟨by rw [ha, has], by rw [hb, hbs]⟩

theorem evens_cons {α : Type} (a : α) (as : List α) : evens (a :: as) = a :: odds as := by
  cases as with
  | nil => rfl
  | cons b as => rfl

/-- A list is determined by its two halves. Without its head the halves change
places. -/
theorem evens_odds_inj {α : Type} {as bs : List α} (he : evens as = evens bs)
    (ho : odds as = odds bs) : as = bs := by
  induction as generalizing bs with
  | nil =>
    cases bs with
    | nil => rfl
    | cons b bs =>
      rw [evens_cons] at he
      cases he
  | cons a as ih =>
    cases bs with
    | nil =>
      rw [evens_cons] at he
      cases he
    | cons b bs =>
      rw [evens_cons, evens_cons] at he
      obtain ⟨hab, htail⟩ := List.cons.inj he
      exact congrArg₂ List.cons hab (ih ho htail)

/-- The session key has forty bytes. -/
theorem length_interleavedKey (sha : Sha1) (S : List UInt8) :
    (interleavedKey sha S).length = 40 := by
  rw [interleavedKey, length_interleave (by simp)]
  simp

/-- **A zero secret is not written at all**: the key is hashed out of what was on
the stack. -/
theorem secretBuffer_zero {stack : Bytes 32} {S : Residue} (h : S.val = 0) :
    secretBuffer stack S = stack.val.reverse := by
  simp [secretBuffer, bnBn2bin, h]

end Morfeusz.Realmd
