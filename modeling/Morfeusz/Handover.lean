import Morfeusz.Proxyd.Handlers
import Morfeusz.Realmd.LogonProof

/-!
# From the realm daemon to the game proxy

What a client negotiates with the realm daemon reaches the proxy through the account
row: the session key, and the salt and verifier of the password hash. Both ends keep
them as numbers in hexadecimal text, and both turn the numbers into bytes again, each in
its own way. This file compares the two: the text is the same number for both
(`Morfeusz.Handover.numberOfText_cStr_bnBn2hex`), so what is left is the bytes.
-/

namespace Morfeusz.Handover

open ByteNumbers

/-! ### Numbers in a column -/

/-- **A number comes through a column unchanged.** -/
theorem numberOfText_cStr_bnBn2hex (n : ℕ) :
    Proxyd.numberOfText (cStr (bnBn2hex n)) = n := by
  rw [Proxyd.numberOfText, cStr_bnBn2hex, cStr_bnBn2hex, bnHex2bn_bnBn2hex, Option.getD_some]

/-- The bytes of a number in a buffer of its own size, reversed. -/
theorem reverse_bnBn2bin_self (n : ℕ) :
    (bnBn2bin n (List.replicate (bnNumBytes n) 0)).reverse = leBytes (bnNumBytes n) n := by
  have hfull : numBytes n = (List.replicate (bnNumBytes n) (0 : UInt8)).length := by
    rw [List.length_replicate, bnNumBytes]
  rw [bnBn2bin, reverse_overwrite_of_full hfull, List.length_replicate]

/-! ### The session key -/

/-- The number `account_retrieved` reads for a key `update_account` has stored. -/
def storedKey (K : Bytes 40) : ℕ := Proxyd.numberOfText (cStr (Realmd.sessionkeyText K.val))

theorem storedKey_eq (K : Bytes 40) : storedKey K = leVal K.val := by
  rw [storedKey, Realmd.sessionkeyText, numberOfText_cStr_bnBn2hex, bnBin2bn, beVal_reverse]

/-- The number has forty bytes exactly when the last byte of the key is not zero. -/
theorem numBytes_storedKey_iff (K : Bytes 40) :
    numBytes (storedKey K) = 40 ↔ K.val.getLast? ≠ some 0 := by
  obtain ⟨K, hK⟩ := K
  obtain ⟨init, last, rfl⟩ : ∃ init last, K = init ++ [last] := by
    have hne : K ≠ [] := by
      rintro rfl
      cases hK
    exact ⟨K.dropLast, K.getLast hne, (List.dropLast_append_getLast hne).symm⟩
  have hinit : init.length + 1 = 40 := by simpa using hK
  have hbytes := numBytes_leVal_concat init last
  rw [hinit] at hbytes
  rw [storedKey_eq, hbytes, List.getLast?_concat]
  exact not_congr Option.some_inj.symm

/-- A key of forty bytes is read back whole, whatever was on the heap. -/
theorem keyBytes_storedKey {K : Bytes 40} (h : numBytes (storedKey K) = 40) (heap : Bytes 40) :
    Proxyd.keyBytes heap (storedKey K) = K.val := by
  have hfull : numBytes (storedKey K) = heap.val.length := by rw [h, heap.length]
  have hlen : (overwrite (storedKey K) heap.val).length = 40 := by
    rw [length_overwrite hfull.le, heap.length]
  have hK := leBytes_leVal K.val
  rw [K.length] at hK
  rw [Proxyd.keyBytes, bnBn2bin, List.take_of_length_le hlen.le, List.drop_of_length_le hlen.le,
    List.append_nil, reverse_overwrite_of_full hfull, heap.length, bnNumBytes, h,
    List.take_of_length_le (length_leBytes _ _).le, storedKey_eq, hK]

theorem hmacInput_storedKey {K : Bytes 40} (h : numBytes (storedKey K) = 40) :
    Proxyd.hmacInput (storedKey K) = K.val := by
  have hK := leBytes_leVal K.val
  rw [K.length] at hK
  rw [Proxyd.hmacInput, reverse_bnBn2bin_self, bnNumBytes, h, storedKey_eq, hK]

/-- As many bytes go into the keyed hash as the number has. -/
theorem length_hmacInput (n : ℕ) : (Proxyd.hmacInput n).length = numBytes n := by
  rw [Proxyd.hmacInput, reverse_bnBn2bin_self, length_leBytes, bnNumBytes]

/-- The proxy feeds the session key of the realm daemon, and nothing else, into its
check digest and into the key of its header cipher. -/
structure HandsOver (K heap : Bytes 40) : Prop where
  digest : Proxyd.keyBytes heap (storedKey K) = K.val
  header : Proxyd.hmacInput (storedKey K) = K.val

/-- **When the session key is handed over.** It is, and then the check digest of the
proxy and its header key are computed from it, exactly when its last byte is not zero. -/
theorem handsOver_iff (K heap : Bytes 40) :
    (HandsOver K heap ↔ K.val.getLast? ≠ some 0) ∧
    (K.val.getLast? ≠ some 0 → ∀ (sha : Sha1) (hmac : Hmac) (env : Proxyd.Env) (d : Proxyd.Conn),
      env.heapKey = heap → d.acct.sessionkey = cStr (Realmd.sessionkeyText K.val) →
        d.checkDigest sha env = sha (d.login ++ ByteBuffer.uint32 0 ++
          ByteBuffer.uint32 d.clientSeed ++ ByteBuffer.uint32 d.seed ++ K.val) ∧
        (d.crypto.setKey hmac (Proxyd.numberOfText d.acct.sessionkey)).key =
          hmac Proxyd.tbcEncryptionKey K.val) := by
  have hiff : HandsOver K heap ↔ K.val.getLast? ≠ some 0 := by
    rw [← numBytes_storedKey_iff]
    constructor
    · intro h
      rw [← length_hmacInput, h.header, K.length]
    · intro h
      exact ⟨keyBytes_storedKey h heap, hmacInput_storedKey h⟩
  refine ⟨hiff, ?_⟩
  intro hlast sha hmac env d hheap hkey
  obtain ⟨hdigest, hheader⟩ := hiff.mpr hlast
  refine ⟨?_, ?_⟩
  · rw [Proxyd.Conn.checkDigest, hkey, hheap, ← storedKey, hdigest]
  · rw [Proxyd.ProxyCrypto.setKey, hkey, ← storedKey, hheader]

/-- **A key with a zero at its end is not handed over**: the proxy hashes a byte that is
not the key's. -/
theorem loses_last_byte : ¬∀ K heap : Bytes 40, HandsOver K heap := by
  intro hclaim
  have h := hclaim ⟨List.replicate 39 1 ++ [0], rfl⟩ (Bytes.zero 40)
  have hlen := congrArg List.length h.header
  rw [length_hmacInput] at hlen
  revert hlen
  decide +kernel

/-! ### The verifier -/

/-- The proxy recomputes the verifier `set_vs` has stored for a password hash: the
connection queues the text of the verifier and of its salt, and for every account row
with the two and with the hash the comparison of the proxy comes out equal. -/
def VerifierAgrees (sha : Sha1) (c : Realmd.Conn) (hash : List UInt8) : Prop :=
  ∃ c' vStr sStr, c.setVs sha = some c' ∧
    c'.requests = c.requests ++
      [{ statement := .fixSV, params := [addString 1 c.login], priority := .high }] ++
      [{ statement := .setSV
         params := [addString 1 vStr, addString 2 sStr, addString 3 c.login] }] ∧
    ∀ d : Proxyd.Conn, d.acct.shaPassHash = hash → d.acct.v = cStr vStr → d.acct.s = cStr sStr →
      d.verifierText sha = cStr d.acct.v

/-- The two ends hash the same bytes: a salt fills its buffer. -/
theorem exponentX_eq (sha : Sha1) (s : Realmd.Salt) (I : ℕ) :
    Proxyd.exponentX sha s.val I = Realmd.exponentX sha s I := by
  have hsalt : Proxyd.saltBytes s.val = Realmd.reversedBuffer 32 s.val := by
    rw [Proxyd.saltBytes, reverse_bnBn2bin_self, bnNumBytes, s.numBytes,
      Realmd.reversedBuffer_of_full s.numBytes]
  rw [Proxyd.exponentX, Realmd.exponentX, hsalt, Realmd.passwordBuffer]

/-- **When the two ends agree on the verifier.** For every salt and every password hash
of up to forty digits they do, in either letter case and with zeros in front, exactly
when there is a digit. -/
theorem verifierAgrees_iff (sha : Sha1) (c : Realmd.Conn) {hash : List UInt8}
    (hhex : HexText.IsHex hash) (hlen : hash.length ≤ 40)
    (hpass : c.acct.shaPass = hash.map HexText.toUpper) :
    VerifierAgrees sha c hash ↔ hash ≠ [] := by
  have hupper : cStr c.acct.shaPass = hash.map HexText.toUpper := by
    rw [hpass, cStr_of_isHex (HexText.isHex_map_toUpper.mpr hhex)]
  have hread : bnHex2bn (cStr c.acct.shaPass) = HexText.read hash := by
    rw [hupper, bnHex2bn, HexText.read_map_toUpper]
  constructor
  -- without a digit there is no number, and `set_vs` does not survive that
  · rintro ⟨c', vStr, sStr, hset, -⟩ rfl
    obtain ⟨I, hI, -⟩ := Option.bind_eq_some_iff.mp hset
    cases hread.symm.trans hI
  · intro hne
    obtain ⟨I, hI⟩ := Option.isSome_iff_exists.mp ((HexText.isSome_read_iff hhex).mpr hne)
    have hfits : Fits I 20 := by
      refine fits_iff.mpr ((HexText.read_lt hI).trans_le ?_)
      rw [show (256 : ℕ) ^ 20 = 16 ^ 40 by norm_num]
      exact Nat.pow_le_pow_right (by norm_num) hlen
    refine ⟨_, bnBn2hex (Realmd.verifierV sha c.s I).val, bnBn2hex c.s.val,
      @Realmd.Conn.setVs_eq sha c I (hread.trans hI) hfits, rfl, fun d hhash hv hs => ?_⟩
    have hsalt : Proxyd.numberOfText d.acct.s = c.s.val := by
      rw [hs, numberOfText_cStr_bnBn2hex]
    have hnumber : Proxyd.numberOfText d.acct.shaPassHash = I := by
      rw [hhash, Proxyd.numberOfText, cStr_of_isHex hhex, bnHex2bn, hI, Option.getD_some]
    rw [Proxyd.Conn.verifierText, hsalt, hnumber, Proxyd.verifierV, exponentX_eq, hv, cStr_bnBn2hex,
      cStr_bnBn2hex]
    rfl

/-- A short password hash, `0ab`, which the realm daemon reads as `0AB`. -/
theorem verifierAgrees_iff_sample :
    VerifierAgrees Realmd.Sample.zeroSha
      { Realmd.Conn.init Realmd.Sample.start with
        acct := { Realmd.Sample.acct with shaPass := [48, 65, 66] } } [48, 97, 98] :=
  (verifierAgrees_iff _ _ (by decide) (by decide) (by decide)).mpr (by decide)

/-- **An account without a password hash takes the realm daemon with it.** -/
theorem crashes_without_hash :
    ¬∀ sha c hash, HexText.IsHex hash → hash.length ≤ 40 →
      c.acct.shaPass = hash.map HexText.toUpper → VerifierAgrees sha c hash := by
  intro hclaim
  obtain ⟨c', -, -, hset, -⟩ := hclaim Realmd.Sample.zeroSha
    (Realmd.Conn.init Realmd.Sample.start) [] nofun (by decide) rfl
  rw [Realmd.Conn.setVs] at hset
  obtain ⟨I, hI, -⟩ := Option.bind_eq_some_iff.mp hset
  cases hI

end Morfeusz.Handover
