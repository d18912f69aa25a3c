import Mathlib.Data.List.Infix
import Morfeusz.Lib.ChainCipher
import Morfeusz.Proxyd.Socket

/-!
# The header cipher of the game proxy

`Proxy_Crypto` encrypts the four bytes of a header to the client and decrypts the six of
a header from it. Either direction has an index into the key and the cipher byte that
went before; the index is reduced only when the next byte is there, and so it is known
modulo the length of the key and no better.

The two directions are one chained cipher (`Morfeusz.Proxyd.ProxyCrypto.cipher`), and
`Morfeusz.Proxyd.ProxyCrypto.At` says how far each of them has come. One call of either
moves its own side on and leaves the other (`Morfeusz.Proxyd.ProxyCrypto.At.encrypt`,
`Morfeusz.Proxyd.ProxyCrypto.At.decrypt`), from which all there is to know of a list of
calls follows by induction, and the round trip from the laws of the cipher
(`Morfeusz.Proxyd.header_cipher`).
-/

namespace Morfeusz.Proxyd

open ChainCipher

namespace ProxyCrypto

/-! ### The two calls -/

/-- `CRYPTED_SEND_LEN`. -/
abbrev cryptedSendLen : ℕ := 4

/-- `CRYPTED_RECV_LEN`. -/
abbrev cryptedRecvLen : ℕ := 6

/-- The byte of a key at a position, counted round and round. -/
def keyByte (key : Bytes 20) (i : ℕ) : UInt8 :=
  key.val.get ⟨i % 20, by rw [key.length]; exact Nat.mod_lt _ (by omega)⟩

/-- One round of the loop of `encrypt`. -/
def encryptByte (crypto : ProxyCrypto) (b : UInt8) : UInt8 × ProxyCrypto :=
  let sendI := crypto.sendI % 20
  let x := (b ^^^ keyByte crypto.key sendI.toNat) + crypto.sendJ
  (x, { crypto with sendI := sendI + 1, sendJ := x })

/-- One round of the loop of `decrypt`. -/
def decryptByte (crypto : ProxyCrypto) (b : UInt8) : UInt8 × ProxyCrypto :=
  let recvI := crypto.recvI % 20
  let x := (b - crypto.recvJ) ^^^ keyByte crypto.key recvI.toNat
  (x, { crypto with recvI := recvI + 1, recvJ := b })

/-- Either loop, over the bytes of a buffer. -/
def loop (round : ProxyCrypto → UInt8 → UInt8 × ProxyCrypto) :
    ProxyCrypto → List UInt8 → List UInt8 × ProxyCrypto
  | crypto, [] => ([], crypto)
  | crypto, b :: bs =>
    let (x, crypto) := round crypto b
    let (xs, crypto) := loop round crypto bs
    (x :: xs, crypto)

theorem length_loop (round : ProxyCrypto → UInt8 → UInt8 × ProxyCrypto) (crypto : ProxyCrypto)
    (bs : List UInt8) : (loop round crypto bs).1.length = bs.length := by
  induction bs generalizing crypto with
  | nil => rfl
  | cons b bs ih => simp only [loop, List.length_cons, ih]

/-- `encrypt`: the buffer as it leaves it. -/
def encrypt (crypto : ProxyCrypto) (data : Bytes cryptedSendLen) :
    Bytes cryptedSendLen × ProxyCrypto :=
  if crypto.isInitialised then
    (⟨(loop encryptByte crypto data.val).1, by rw [length_loop, data.length]⟩,
      (loop encryptByte crypto data.val).2)
  else (data, crypto)

/-- `decrypt`. -/
def decrypt (crypto : ProxyCrypto) (data : Bytes cryptedRecvLen) :
    Bytes cryptedRecvLen × ProxyCrypto :=
  if crypto.isInitialised then
    (⟨(loop decryptByte crypto data.val).1, by rw [length_loop, data.length]⟩,
      (loop decryptByte crypto data.val).2)
  else (data, crypto)

/-! ### One chained cipher -/

/-- The cipher of a key. -/
def cipher (key : Bytes 20) : ChainCipher UInt8 where
  mix i p := p ^^^ keyByte key i
  unmix i p := p ^^^ keyByte key i
  add := (· + ·)
  sub := (· - ·)
  unmix_mix i p := by rw [UInt8.xor_assoc, UInt8.xor_self, UInt8.xor_zero]
  sub_add p c := by simp

/-- An index of the cipher stands at a position of its direction. -/
def IndexAt (index : UInt8) (position : ℕ) : Prop := index.toNat % 20 = position % 20

theorem IndexAt.succ {index : UInt8} {position : ℕ} (h : IndexAt index position) :
    IndexAt (index % 20 + 1) (position + 1) := by
  have hlt : index.toNat % 20 < 20 := Nat.mod_lt _ (by omega)
  rw [IndexAt] at h
  rw [IndexAt, UInt8.toNat_add, UInt8.toNat_mod]
  have h20 : (20 : UInt8).toNat = 20 := rfl
  have h1 : (1 : UInt8).toNat = 1 := rfl
  rw [h20, h1]
  omega

theorem IndexAt.keyByte {index : UInt8} {position : ℕ} (h : IndexAt index position)
    (key : Bytes 20) : keyByte key (index % 20).toNat = keyByte key position := by
  rw [IndexAt] at h
  have h20 : (20 : UInt8).toNat = 20 := rfl
  have hmod : (index % 20).toNat % 20 = position % 20 := by
    rw [UInt8.toNat_mod, h20, Nat.mod_mod, h]
  simp only [ProxyCrypto.keyByte, hmod]

/-- How far the two directions have come: the bytes that went through each of them,
and the last cipher byte of each. -/
structure At (key : Bytes 20) (sent : ℕ) (sendJ : UInt8) (received : ℕ) (recvJ : UInt8)
    (crypto : ProxyCrypto) : Prop where
  initialised : crypto.isInitialised = true
  key_eq : crypto.key = key
  sendI : IndexAt crypto.sendI sent
  sendJ_eq : crypto.sendJ = sendJ
  recvI : IndexAt crypto.recvI received
  recvJ_eq : crypto.recvJ = recvJ

variable {key : Bytes 20} {crypto : ProxyCrypto} {sent received : ℕ} {sendJ recvJ : UInt8}

/-- The object of a key nothing has been sent or received with. -/
def keyed (key : Bytes 20) : ProxyCrypto := { ProxyCrypto.init with key, isInitialised := true }

theorem setKey_init (hmac : Hmac) (K : ℕ) :
    ProxyCrypto.init.setKey hmac K = keyed (hmac tbcEncryptionKey (hmacInput K)) := rfl

theorem at_keyed (key : Bytes 20) : At key 0 0 0 0 (keyed key) := ⟨rfl, rfl, rfl, rfl, rfl, rfl⟩

/-! ### What a call does -/

/-- The loop of `encrypt` is the cipher, and moves the sending side on. -/
theorem At.loop_encryptByte (h : At key sent sendJ received recvJ crypto) (bs : List UInt8) :
    (loop encryptByte crypto bs).1 = (cipher key).enc sent sendJ bs ∧
      At key (sent + bs.length) (((cipher key).enc sent sendJ bs).getLastD sendJ) received recvJ
        (loop encryptByte crypto bs).2 := by
  induction bs generalizing crypto sent sendJ with
  | nil => exact ⟨rfl, h⟩
  | cons b bs ih =>
    have hx : (b ^^^ ProxyCrypto.keyByte crypto.key (crypto.sendI % 20).toNat) + crypto.sendJ =
        (cipher key).add ((cipher key).mix sent b) sendJ := by
      rw [h.key_eq, h.sendI.keyByte, h.sendJ_eq]
      rfl
    have hround : At key (sent + 1) ((cipher key).add ((cipher key).mix sent b) sendJ)
        received recvJ (encryptByte crypto b).2 :=
      ⟨h.initialised, h.key_eq, h.sendI.succ, hx, h.recvI, h.recvJ_eq⟩
    obtain ⟨hout, hat⟩ := ih hround
    rw [ChainCipher.enc, List.getLastD_cons, List.length_cons]
    refine ⟨?_, ?_⟩
    · rw [loop, ← hx]
      simp only [encryptByte] at hout ⊢
      rw [hout, hx]
    · rw [loop, ← Nat.add_assoc, Nat.add_right_comm]
      exact hat

/-- The loop of `decrypt` is its inverse, and moves the receiving side on. -/
theorem At.loop_decryptByte (h : At key sent sendJ received recvJ crypto) (bs : List UInt8) :
    (loop decryptByte crypto bs).1 = (cipher key).dec received recvJ bs ∧
      At key sent sendJ (received + bs.length) (bs.getLastD recvJ)
        (loop decryptByte crypto bs).2 := by
  induction bs generalizing crypto received recvJ with
  | nil => exact ⟨rfl, h⟩
  | cons b bs ih =>
    have hx : (b - crypto.recvJ) ^^^ ProxyCrypto.keyByte crypto.key (crypto.recvI % 20).toNat =
        (cipher key).unmix received ((cipher key).sub b recvJ) := by
      rw [h.key_eq, h.recvI.keyByte, h.recvJ_eq]
      rfl
    have hround : At key sent sendJ (received + 1) b (decryptByte crypto b).2 :=
      ⟨h.initialised, h.key_eq, h.sendI, h.sendJ_eq, h.recvI.succ, rfl⟩
    obtain ⟨hout, hat⟩ := ih hround
    rw [ChainCipher.dec, List.getLastD_cons, List.length_cons]
    refine ⟨?_, ?_⟩
    · rw [loop, ← hx]
      simp only [decryptByte] at hout ⊢
      rw [hout]
    · rw [loop, ← Nat.add_assoc, Nat.add_right_comm]
      exact hat

theorem At.encrypt (h : At key sent sendJ received recvJ crypto) (data : Bytes cryptedSendLen) :
    (crypto.encrypt data).1.val = (cipher key).enc sent sendJ data.val ∧
      At key (sent + data.val.length) (((cipher key).enc sent sendJ data.val).getLastD sendJ)
        received recvJ (crypto.encrypt data).2 := by
  rw [ProxyCrypto.encrypt, if_pos h.initialised]
  exact h.loop_encryptByte data.val

theorem At.decrypt (h : At key sent sendJ received recvJ crypto) (data : Bytes cryptedRecvLen) :
    (crypto.decrypt data).1.val = (cipher key).dec received recvJ data.val ∧
      At key sent sendJ (received + data.val.length) (data.val.getLastD recvJ)
        (crypto.decrypt data).2 := by
  rw [ProxyCrypto.decrypt, if_pos h.initialised]
  exact h.loop_decryptByte data.val

/-! ### Interleaved calls -/

/-- A call of one of the two, with its buffer. -/
inductive Call
  | encrypt (data : Bytes cryptedSendLen)
  | decrypt (data : Bytes cryptedRecvLen)

/-- The buffers of the `encrypt` calls, one after the other. -/
def sentIn : List Call → List UInt8
  | [] => []
  | .encrypt data :: calls => data.val ++ sentIn calls
  | .decrypt _ :: calls => sentIn calls

/-- The buffers of the `decrypt` calls. -/
def receivedIn : List Call → List UInt8
  | [] => []
  | .encrypt _ :: calls => receivedIn calls
  | .decrypt data :: calls => data.val ++ receivedIn calls

/-- What the `encrypt` calls leave in their buffers. -/
def sentOut : ProxyCrypto → List Call → List UInt8
  | _, [] => []
  | crypto, .encrypt data :: calls =>
    (crypto.encrypt data).1.val ++ sentOut (crypto.encrypt data).2 calls
  | crypto, .decrypt data :: calls => sentOut (crypto.decrypt data).2 calls

/-- What the `decrypt` calls leave in their buffers. -/
def receivedOut : ProxyCrypto → List Call → List UInt8
  | _, [] => []
  | crypto, .encrypt data :: calls => receivedOut (crypto.encrypt data).2 calls
  | crypto, .decrypt data :: calls =>
    (crypto.decrypt data).1.val ++ receivedOut (crypto.decrypt data).2 calls

/-- **The sending side of a list of calls is the cipher**, whatever the other side
does in between. -/
theorem At.sentOut (h : At key sent sendJ received recvJ crypto) (calls : List Call) :
    sentOut crypto calls = (cipher key).enc sent sendJ (sentIn calls) := by
  induction calls generalizing crypto sent sendJ received recvJ with
  | nil => rfl
  | cons call calls ih =>
    rcases call with data | data
    · obtain ⟨hout, hat⟩ := h.encrypt data
      rw [ProxyCrypto.sentOut, sentIn, enc_append, hout, ih hat]
    · obtain ⟨-, hat⟩ := h.decrypt data
      rw [ProxyCrypto.sentOut, sentIn, ih hat]

/-- **The receiving side is its inverse.** -/
theorem At.receivedOut (h : At key sent sendJ received recvJ crypto) (calls : List Call) :
    receivedOut crypto calls = (cipher key).dec received recvJ (receivedIn calls) := by
  induction calls generalizing crypto sent sendJ received recvJ with
  | nil => rfl
  | cons call calls ih =>
    rcases call with data | data
    · obtain ⟨-, hat⟩ := h.encrypt data
      rw [ProxyCrypto.receivedOut, receivedIn, ih hat]
    · obtain ⟨hout, hat⟩ := h.decrypt data
      rw [ProxyCrypto.receivedOut, receivedIn, dec_append, hout, ih hat]

/-- The buffers of a list of `decrypt` calls alone. -/
theorem receivedIn_map_decrypt (headers : List (Bytes cryptedRecvLen)) :
    receivedIn (headers.map Call.decrypt) = (headers.map Subtype.val).flatten := by
  induction headers with
  | nil => rfl
  | cons header headers ih => simp only [List.map_cons, receivedIn, List.flatten_cons, ih]

/-- The cipher byte at a position, from the byte it stands for and the one before. -/
theorem getElem?_sentOut_keyed (key : Bytes 20) (calls : List Call) {m : ℕ} {p : UInt8}
    (h : (sentIn calls)[m]? = some p) :
    (sentOut (keyed key) calls)[m]? =
      some ((p ^^^ keyByte key m) + before 0 (sentOut (keyed key) calls) m) := by
  rw [(at_keyed key).sentOut calls, getElem?_enc _ _ _ h, Nat.zero_add]
  rfl

/-- The byte at a position, from the cipher byte there and the one before. -/
theorem getElem?_receivedOut_keyed (key : Bytes 20) (calls : List Call) {m : ℕ} {c : UInt8}
    (h : (receivedIn calls)[m]? = some c) :
    (receivedOut (keyed key) calls)[m]? =
      some ((c - before 0 (receivedIn calls) m) ^^^ keyByte key m) := by
  rw [(at_keyed key).receivedOut calls, getElem?_dec _ _ _ h, Nat.zero_add]
  rfl

/-- **Decryption gives the plain bytes back, however the stream is cut.** -/
theorem receivedOut_sentOut (key : Bytes 20) (calls : List Call)
    (headers : List (Bytes cryptedRecvLen))
    (h : (headers.map Subtype.val).flatten <+: sentOut (keyed key) calls) :
    receivedOut (keyed key) (headers.map Call.decrypt) =
      (sentIn calls).take (headers.map Subtype.val).flatten.length := by
  rw [(at_keyed key).sentOut calls] at h
  have hcut := List.prefix_iff_eq_take.mp h
  rw [(at_keyed key).receivedOut, receivedIn_map_decrypt]
  conv_lhs => rw [hcut]
  rw [take_enc, dec_enc]

end ProxyCrypto

open ProxyCrypto

/-- **The header cipher.** For every key and every interleaving of the two calls either
direction follows its own formula, byte by byte and counted over all of its calls; so
neither has an influence on the other, and decrypting what was encrypted, cut into
headers of the other direction, gives the plain bytes back. -/
theorem header_cipher (key : Bytes 20) (calls : List Call) :
    (∀ m p, (sentIn calls)[m]? = some p →
      (sentOut (keyed key) calls)[m]? =
        some ((p ^^^ keyByte key m) + before 0 (sentOut (keyed key) calls) m)) ∧
    (∀ m c, (receivedIn calls)[m]? = some c →
      (receivedOut (keyed key) calls)[m]? =
        some ((c - before 0 (receivedIn calls) m) ^^^ keyByte key m)) ∧
    (∀ calls', sentIn calls' = sentIn calls →
      sentOut (keyed key) calls' = sentOut (keyed key) calls) ∧
    (∀ calls', receivedIn calls' = receivedIn calls →
      receivedOut (keyed key) calls' = receivedOut (keyed key) calls) ∧
    ∀ headers : List (Bytes cryptedRecvLen),
      (headers.map Subtype.val).flatten <+: sentOut (keyed key) calls →
        receivedOut (keyed key) (headers.map Call.decrypt) =
          (sentIn calls).take (headers.map Subtype.val).flatten.length := by
  refine ⟨fun m p h => getElem?_sentOut_keyed key calls h,
    fun m c h => getElem?_receivedOut_keyed key calls h, ?_, ?_,
    fun headers h => receivedOut_sentOut key calls headers h⟩
  · intro calls' h
    rw [(at_keyed key).sentOut, (at_keyed key).sentOut, h]
  · intro calls' h
    rw [(at_keyed key).receivedOut, (at_keyed key).receivedOut, h]

/-- Three headers to the client, `decrypt` called in between, with the key `01 02 … 14`:
the twelve cipher bytes are two headers of the other direction. -/
theorem header_cipher_two_headers :
    let key : Bytes 20 := ⟨(List.range 20).map fun i => UInt8.ofNat (i + 1), by decide⟩
    receivedOut (keyed key)
        [.decrypt ⟨[1, 1, 240, 245, 250, 250], rfl⟩,
          .decrypt ⟨[212, 221, 230, 230, 172, 185], rfl⟩] =
      [0, 2, 236, 1, 0, 6, 221, 1, 0, 10, 205, 1] := by
  intro key
  have h := (header_cipher key
    [.encrypt ⟨[0, 2, 236, 1], rfl⟩, .decrypt ⟨[9, 9, 9, 9, 9, 9], rfl⟩,
      .encrypt ⟨[0, 6, 221, 1], rfl⟩, .encrypt ⟨[0, 10, 205, 1], rfl⟩]).2.2.2.2
  exact h [⟨[1, 1, 240, 245, 250, 250], rfl⟩, ⟨[212, 221, 230, 230, 172, 185], rfl⟩] (by decide)

end Morfeusz.Proxyd
