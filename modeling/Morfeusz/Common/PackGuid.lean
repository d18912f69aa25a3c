import Morfeusz.Common.ByteBuffer
import Morfeusz.Lib.PrefixCode

/-!
# Packed GUIDs

The client knows every object by a GUID of eight bytes, most of which are zero, and most
packets carry it *packed*: a byte with a bit for each of the eight, and then the bytes
that are not zero. `Morfeusz.ByteBuffer.appendPackGUID` writes it in one pass, in which
the mask, already in the buffer, is patched while the bytes go behind it
(`Morfeusz.ByteBuffer.appendPackGUIDLoop_eq`).

A client that reads a mask and then a byte for every bit of it finds the GUIDs again,
whatever follows them. What has an end is the buffer: `append` asserts that there are less
than ten million bytes in it, and at that point no GUID is appended any more.
-/

namespace Morfeusz

open ByteNumbers PrefixCode

/-- A mask and the bytes that are not zero. -/
def packBytes (bytes : List UInt8) : List UInt8 :=
  UInt8.ofNat (mask 0 bytes) :: kept 0 bytes

/-- The bytes of a packed GUID. -/
def packGuid (guid : UInt64) : List UInt8 := packBytes (leBytes 8 guid.toNat)

/-- What a reader of packed GUIDs does: a mask, and then for each set bit a byte, which goes
to the place of the bit. -/
def unpackGuid : List UInt8 → Option (UInt64 × List UInt8)
  | [] => none
  | bits :: rest =>
    (expand 0 8 bits.toNat rest).map fun p => (UInt64.ofNat (leVal p.1), p.2)

theorem length_packGuid (guid : UInt64) :
    (packGuid guid).length = 1 + (leBytes 8 guid.toNat).countP (· ≠ 0) := by
  rw [packGuid, packBytes, List.length_cons, kept, ← List.countP_eq_length_filter, Nat.add_comm]

theorem unpackGuid_packGuid (guid : UInt64) (rest : List UInt8) :
    unpackGuid (packGuid guid ++ rest) = some (guid, rest) := by
  have hlen : (leBytes 8 guid.toNat).length = 8 := length_leBytes 8 _
  have hmask : (UInt8.ofNat (mask 0 (leBytes 8 guid.toNat))).toNat =
      mask 0 (leBytes 8 guid.toNat) := by
    refine UInt8.toNat_ofNat_of_lt' ?_
    have := @mask_lt UInt8 _ 0 (leBytes 8 guid.toNat)
    rwa [hlen] at this
  have hval : leVal (leBytes 8 guid.toNat) = guid.toNat := leVal_leBytes_of_lt guid.toNat_lt
  have hexpand := @expand_mask UInt8 _ 0 (leBytes 8 guid.toNat) rest
  rw [hlen] at hexpand
  rw [packGuid, packBytes, List.cons_append, unpackGuid, hmask, hexpand]
  simp [hval]

/-- The packed GUIDs as a code. -/
def packGuidCode : PrefixCode UInt64 UInt8 where
  encode := packGuid
  decode := unpackGuid
  decode_encode := unpackGuid_packGuid

namespace ByteBuffer

/-- The loop of `appendPackGUID`, with `n` bytes to go from the byte `i` on. -/
def appendPackGUIDLoop (maskPosition : ℕ) : ℕ → ℕ → UInt64 → ByteBuffer → Option ByteBuffer
  | 0, _, _, buf => some buf
  | n + 1, i, guid, buf => do
    let buf ←
      if guid &&& 0xFF ≠ 0 then
        append
          { buf with storage := buf.storage.modify maskPosition (· ||| UInt8.ofNat (1 <<< i)) }
          (uint8 (guid &&& 0xFF).toUInt8)
      else some buf
    appendPackGUIDLoop maskPosition n (i + 1) (guid >>> 8) buf

/-- `appendPackGUID`. -/
def appendPackGUID (buf : ByteBuffer) (guid : UInt64) : Option ByteBuffer := do
  let maskPosition := buf.wpos
  let buf ← buf.append (uint8 0)
  appendPackGUIDLoop maskPosition 8 0 guid buf

/-- A buffer that is written at its end. -/
def filled (rpos : ℕ) (bs : List UInt8) : ByteBuffer :=
  { rpos := rpos, wpos := bs.length, storage := bs }

theorem eq_filled {buf : ByteBuffer} (h : buf.wpos = buf.size) :
    buf = filled buf.rpos buf.storage := by
  cases buf
  exact congrArg (ByteBuffer.mk _ · _) h

/-- One more byte, where there is room for it. -/
theorem append_filled (rpos : ℕ) (bs : List UInt8) (b : UInt8) :
    (filled rpos bs).append (uint8 b) =
      if bs.length < sizeLimit then some (filled rpos (bs ++ [b])) else none := by
  split
  · next h =>
    rw [append_of_wpos_eq (by rfl) (by exact h)]
    simp [filled, uint8]
  · next h =>
    have hnil : uint8 b ≠ [] := List.cons_ne_nil b []
    rw [append, if_neg hnil, if_neg (by exact h)]

/-! ### The loop -/

theorem toNat_low (guid : UInt64) : (guid &&& 0xFF).toNat = guid.toNat % 2 ^ 8 := by
  rw [UInt64.toNat_and]
  exact Nat.and_two_pow_sub_one_eq_mod _ 8

theorem toUInt8_low (guid : UInt64) : (guid &&& 0xFF).toUInt8 = UInt8.ofNat guid.toNat := by
  rw [← UInt8.toNat_inj, UInt64.toNat_toUInt8, toNat_low, UInt8.toNat_ofNat', Nat.mod_mod]

theorem low_eq_zero_iff (guid : UInt64) :
    guid &&& 0xFF = 0 ↔ UInt8.ofNat guid.toNat = 0 := by
  rw [← UInt64.toNat_inj, ← UInt8.toNat_inj, toNat_low, UInt8.toNat_ofNat']
  rfl

theorem toNat_shift (guid : UInt64) : (guid >>> 8).toNat = guid.toNat / 256 := by
  rw [UInt64.toNat_shiftRight]
  exact Nat.shiftRight_eq_div_pow _ 8

/-- The mask is patched where it is. -/
theorem modify_mask (pre : List UInt8) (m x : UInt8) (ks : List UInt8) :
    (pre ++ m :: ks).modify pre.length (· ||| x) = pre ++ (m ||| x) :: ks := by
  induction pre with
  | nil => rfl
  | cons b pre ih =>
    rw [List.cons_append, List.length_cons, List.modify_succ_cons, ih]
    rfl

/-- A byte that is not zero: its bit is set and it goes behind the others. -/
theorem packBytes_concat {bytes : List UInt8} {b : UInt8} (hb : b ≠ 0) :
    packBytes (bytes ++ [b]) =
      (UInt8.ofNat (mask 0 bytes) ||| UInt8.ofNat (1 <<< bytes.length)) :: kept 0 bytes ++ [b] := by
  rw [packBytes, mask_concat, if_neg hb, kept_append, kept_cons_of_ne hb, UInt8.ofNat_or,
    Nat.one_shiftLeft]
  rfl

theorem packBytes_concat_zero (bytes : List UInt8) :
    packBytes (bytes ++ [0]) = packBytes bytes := by
  simp [packBytes, mask_concat, kept]

theorem length_packBytes_append (as bs : List UInt8) :
    (packBytes (as ++ bs)).length = (packBytes as).length + (kept 0 bs).length := by
  simp only [packBytes, kept_append, List.length_cons, List.length_append]
  omega

/-- The bit of a byte is set, and the byte is appended. -/
theorem append_patched (rpos : ℕ) (pre bytes : List UInt8) {b : UInt8} (hb : b ≠ 0) :
    append
        { filled rpos (pre ++ packBytes bytes) with
          storage := (filled rpos (pre ++ packBytes bytes)).storage.modify pre.length
            (· ||| UInt8.ofNat (1 <<< bytes.length)) } (uint8 b) =
      if (pre ++ packBytes bytes).length < sizeLimit then
        some (filled rpos (pre ++ packBytes (bytes ++ [b])))
      else none := by
  obtain ⟨patched, hpatched⟩ : ∃ patched, patched =
      (UInt8.ofNat (mask 0 bytes) ||| UInt8.ofNat (1 <<< bytes.length)) :: kept 0 bytes := ⟨_, rfl⟩
  have hlen : (pre ++ patched).length = (pre ++ packBytes bytes).length := by
    simp [hpatched, packBytes]
  have hbuf : { filled rpos (pre ++ packBytes bytes) with
      storage := (filled rpos (pre ++ packBytes bytes)).storage.modify pre.length
        (· ||| UInt8.ofNat (1 <<< bytes.length)) } = filled rpos (pre ++ patched) := by
    dsimp only [filled]
    rw [hlen, packBytes, modify_mask, hpatched]
  rw [hbuf, append_filled, hlen, packBytes_concat hb, ← hpatched, List.append_assoc]

/-- **What the loop makes of the bytes that are done and of the ones to come**: the mask and
the bytes of all of them, where there is room for those to come. -/
theorem appendPackGUIDLoop_eq (rpos : ℕ) (pre : List UInt8) (n : ℕ) (bytes : List UInt8)
    (guid : UInt64) (h : bytes.length + n = 8) :
    appendPackGUIDLoop pre.length n bytes.length guid (filled rpos (pre ++ packBytes bytes)) =
      if kept 0 (leBytes n guid.toNat) = [] ∨
          (pre ++ packBytes (bytes ++ leBytes n guid.toNat)).length ≤ sizeLimit then
        some (filled rpos (pre ++ packBytes (bytes ++ leBytes n guid.toNat)))
      else none := by
  induction n generalizing bytes guid with
  | zero => simp [appendPackGUIDLoop, kept]
  | succ n ih =>
    have ih' := ih (bytes ++ [UInt8.ofNat guid.toNat]) (guid >>> 8)
      (by rw [List.length_append, List.length_singleton]; omega)
    rw [List.length_append, List.length_singleton, toNat_shift, List.append_assoc,
      List.singleton_append] at ih'
    rw [appendPackGUIDLoop, leBytes_succ, toUInt8_low]
    by_cases hb : UInt8.ofNat guid.toNat = 0
    · -- nothing is written, and the list of the bytes that are done grows by a zero
      rw [hb, packBytes_concat_zero] at ih'
      rw [if_neg (by rw [not_not, low_eq_zero_iff]; exact hb), Option.bind_eq_bind,
        Option.bind_some]
      dsimp only
      rw [ih', hb]
      rfl
    · rw [if_pos (by rw [Ne, low_eq_zero_iff]; exact hb)]
      dsimp only [Option.bind_eq_bind]
      rw [append_patched rpos pre bytes hb]
      have hlen : (pre ++ packBytes (bytes ++ UInt8.ofNat guid.toNat ::
          leBytes n (guid.toNat / 256))).length =
          (pre ++ packBytes bytes).length + 1 + (kept 0 (leBytes n (guid.toNat / 256))).length := by
        rw [List.length_append, length_packBytes_append, kept_cons_of_ne hb, List.length_append,
          List.length_cons]
        omega
      have hkept : kept 0 (UInt8.ofNat guid.toNat :: leBytes n (guid.toNat / 256)) ≠ [] := by
        rw [kept_cons_of_ne hb]
        exact List.cons_ne_nil _ _
      by_cases hroom : (pre ++ packBytes bytes).length < sizeLimit
      · rw [if_pos hroom, Option.bind_some, ih', hlen]
        refine if_congr ⟨fun hor => Or.inr ?_, fun hor => Or.inr (hor.resolve_left hkept)⟩ rfl rfl
        rcases hor with hnil | hfits
        · rw [hnil, List.length_nil]
          exact hroom
        · exact hfits
      · rw [if_neg hroom, Option.bind_none, if_neg (not_or.mpr ⟨hkept, by omega⟩)]

/-! ### One GUID after another -/

/-- **A GUID is appended exactly where its bytes fit in.** -/
theorem appendPackGUID_filled (rpos : ℕ) (pre : List UInt8) (guid : UInt64) :
    (filled rpos pre).appendPackGUID guid =
      if (pre ++ packGuid guid).length ≤ sizeLimit then some (filled rpos (pre ++ packGuid guid))
      else none := by
  have hloop := appendPackGUIDLoop_eq rpos pre 8 [] guid rfl
  have hlen : (pre ++ packGuid guid).length =
      pre.length + 1 + (kept 0 (leBytes 8 guid.toNat)).length := by
    rw [packGuid, packBytes, List.length_append, List.length_cons]
    omega
  rw [List.nil_append, List.length_nil] at hloop
  rw [appendPackGUID, append_filled]
  by_cases hroom : pre.length < sizeLimit
  · rw [if_pos hroom]
    refine hloop.trans (if_congr ⟨fun hor => ?_, Or.inr⟩ rfl rfl)
    rcases hor with hnil | hfits
    · rw [hlen, hnil, List.length_nil]
      exact hroom
    · exact hfits
  · rw [if_neg hroom, if_neg (by omega)]
    rfl

/-- **GUIDs are appended one behind the other, as long as they fit in.** -/
theorem foldlM_appendPackGUID (rpos : ℕ) (pre : List UInt8) (guids : List UInt64) :
    guids.foldlM appendPackGUID (filled rpos pre) =
      if guids = [] ∨ (pre ++ guids.flatMap packGuid).length ≤ sizeLimit then
        some (filled rpos (pre ++ guids.flatMap packGuid))
      else none := by
  induction guids generalizing pre with
  | nil => simp
  | cons guid guids ih =>
    rw [List.foldlM_cons, appendPackGUID_filled, List.flatMap_cons, ← List.append_assoc]
    by_cases hroom : (pre ++ packGuid guid).length ≤ sizeLimit
    · rw [if_pos hroom, Option.bind_eq_bind, Option.bind_some, ih]
      refine if_congr ⟨fun hor => Or.inr ?_, fun hor => Or.inr ?_⟩ rfl rfl
      · rcases hor with rfl | hfits
        · simpa using hroom
        · exact hfits
      · exact hor.resolve_left (List.cons_ne_nil _ _)
    · rw [if_neg hroom, Option.bind_eq_bind, Option.bind_none, if_neg]
      rw [List.length_append]
      exact not_or.mpr ⟨List.cons_ne_nil _ _, by omega⟩

/-- **Packed GUIDs.** At the end of a buffer they are appended exactly as long as they fit
into what an `append` may leave behind. What was there stays; each has a byte and one for
every byte of it that is not zero; a reader finds them again, whatever follows; and none is
the beginning of another one. -/
theorem packed_guids_decode (buf : ByteBuffer) (guids : List UInt64) (h : buf.wpos = buf.size) :
    (guids.foldlM appendPackGUID buf =
      if guids = [] ∨ buf.size + (guids.flatMap packGuid).length ≤ sizeLimit then
        some { buf with
          wpos := buf.wpos + (guids.flatMap packGuid).length
          storage := buf.storage ++ guids.flatMap packGuid }
      else none) ∧
    (∀ guid, (packGuid guid).length = 1 + (leBytes 8 guid.toNat).countP (· ≠ 0)) ∧
    (∀ rest, packGuidCode.decodeList guids.length (guids.flatMap packGuid ++ rest) =
      some (guids, rest)) ∧
    ∀ guid guid', packGuid guid <+: packGuid guid' → guid = guid' := by
  refine ⟨?_, length_packGuid, packGuidCode.decodeList_encode guids,
    fun _ _ => packGuidCode.eq_of_isPrefix⟩
  have hfold := foldlM_appendPackGUID buf.rpos buf.storage guids
  rw [← eq_filled h, List.length_append] at hfold
  rw [hfold, h]
  refine if_congr Iff.rfl (congrArg some ?_) rfl
  rw [filled, List.length_append]
  rfl

/-- Two GUIDs behind a byte that is there. -/
theorem packed_guids_decode_two :
    [0x0100000000000005, 0].foldlM appendPackGUID (ofBytes [7]) =
      some (ofBytes [7, 0x81, 5, 1, 0]) := by
  refine (packed_guids_decode (ofBytes [7]) [0x0100000000000005, 0] rfl).1.trans ?_
  rw [if_pos (Or.inr (by decide))]
  decide

/-- A buffer of ten million bytes takes no GUID: `append` asserts that it has less. -/
theorem packed_guids_at_limit :
    (ofBytes (List.replicate sizeLimit 0)).wpos = (ofBytes (List.replicate sizeLimit 0)).size ∧
      [1].foldlM appendPackGUID (ofBytes (List.replicate sizeLimit 0)) = none := by
  have hlen : (List.replicate sizeLimit (0 : UInt8)).length = sizeLimit := List.length_replicate
  refine ⟨rfl, ?_⟩
  have hnil : uint8 0 ≠ [] := List.cons_ne_nil 0 []
  rw [List.foldlM_cons, appendPackGUID, append, if_neg hnil, size_ofBytes, hlen,
    if_neg (Nat.lt_irrefl _)]
  rfl

end ByteBuffer

end Morfeusz
