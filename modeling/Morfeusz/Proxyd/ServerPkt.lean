import Mathlib.Data.List.Induction
import Morfeusz.Proxyd.Output

/-!
# The header of a server packet

A `ServerPkt` is a `ByteBuffer` whose first four bytes are a header: the size, most
significant byte first and with the opcode counted, and the opcode, least significant byte
first. `SetOpcode` and `SetSize` move the write position back to put them there, the first
of them into a buffer that is still empty, and `append` fills up what is missing.

The size given to the constructor is what the caller expects and has nothing to do with what
is appended. Memory is reserved for it, which a vector refuses beyond its greatest size and
an allocator when there is too little (`Morfeusz.Proxyd.ServerPkt.Grants`). Apart from that
it is written over before the packet is sent, and however often that is done, the packet is
the same one (`Morfeusz.Proxyd.serverPkt_framed`).
-/

namespace Morfeusz.Proxyd

open ByteNumbers ByteBuffer

/-! ### Byte orders -/

namespace ByteConverter

/-- `convert<T>`: the first of `T` bytes changes places with the last, and those between
them are converted. -/
def convert : ℕ → List UInt8 → List UInt8
  | 0, val => val
  | 1, val => val
  | _ + 2, [] => []
  | T + 2, first :: rest =>
    match rest[T]? with
    | some last => last :: convert T (rest.set T first)
    | none => first :: rest

/-- **Converting is reversing**, and leaves alone what is not converted. -/
theorem convert_append (val tail : List UInt8) :
    convert val.length (val ++ tail) = val.reverse ++ tail := by
  induction val using List.bidirectionalRec generalizing tail with
  | nil => rfl
  | singleton a => rfl
  | cons_append a mid b ih =>
    have hlast : (mid ++ b :: tail)[mid.length]? = some b := by simp
    have hset : (mid ++ b :: tail).set mid.length a = mid ++ a :: tail := by simp
    have hlen : (a :: (mid ++ [b])).length = mid.length + 2 := by simp
    have happ : a :: (mid ++ [b]) ++ tail = a :: (mid ++ b :: tail) := by simp
    rw [hlen, happ, convert, hlast]
    dsimp only
    rw [hset, ih]
    simp

end ByteConverter

/-- `EndianConvertReverse<uint16>`. -/
def endianConvertReverse (val : UInt16) : UInt16 :=
  UInt16.ofNat (leVal (ByteConverter.convert 2 (uint16 val)))

theorem endianConvertReverse_eq (val : UInt16) :
    endianConvertReverse val = UInt16.ofNat (leVal (uint16 val).reverse) := by
  have hconvert := ByteConverter.convert_append (uint16 val) []
  rw [length_uint16, List.append_nil, List.append_nil] at hconvert
  rw [endianConvertReverse, hconvert]

/-- Two bytes are those of the number they denote. -/
theorem uint16_ofNat_leVal {bs : List UInt8} (h : bs.length = 2) :
    uint16 (UInt16.ofNat (leVal bs)) = bs := by
  have hlt : leVal bs < 2 ^ 16 := by
    have := leVal_lt bs
    rwa [h] at this
  rw [uint16, UInt16.toNat_ofNat_of_lt' hlt, ← h, leBytes_leVal]

/-- A number is denoted by its bytes. -/
theorem ofNat_leVal_uint16 (val : UInt16) : UInt16.ofNat (leVal (uint16 val)) = val := by
  rw [uint16, leVal_leBytes_of_lt val.toNat_lt, UInt16.ofNat_toNat]

/-- The bytes of a number are those of its converse the other way round. -/
theorem uint16_endianConvertReverse (val : UInt16) :
    uint16 (endianConvertReverse val) = (uint16 val).reverse := by
  rw [endianConvertReverse_eq, uint16_ofNat_leVal (by simp)]

theorem endianConvertReverse_endianConvertReverse (val : UInt16) :
    endianConvertReverse (endianConvertReverse val) = val := by
  rw [endianConvertReverse_eq, uint16_endianConvertReverse, List.reverse_reverse,
    ofNat_leVal_uint16]

/-! ### The class -/

namespace ServerPkt

/-- `SetOpcode`. -/
def setOpcode (buf : ByteBuffer) (op : UInt16) : Option ByteBuffer :=
  ({ buf with wpos := 2 }.append (uint16 op)).map
    fun (written : ByteBuffer) => { written with wpos := buf.wpos }

/-- `vector::max_size` of a vector of bytes. -/
def maxSize : UInt64 := 0x7FFFFFFFFFFFFFFF

/-- The memory an empty vector is granted: at most `max_size`, and what the allocator has,
which is asked unless nothing is wanted. -/
def Grants (allocates : UInt64 → Bool) (res : UInt64) : Prop :=
  res ≤ maxSize ∧ (res = 0 ∨ allocates res)

instance (allocates : UInt64 → Bool) (res : UInt64) : Decidable (Grants allocates res) :=
  inferInstanceAs (Decidable (_ ∧ _))

/-- `vector::reserve` of an empty vector, which throws `length_error` or `bad_alloc`. -/
def reserve (allocates : UInt64 → Bool) (res : UInt64) : Option Unit :=
  if Grants allocates res then some () else none

/-- The constructor. What it reserves is memory, not a part of the buffer, and the sum is one
of `size_t`. An exception leaves no packet. -/
def new (allocates : UInt64 → Bool) (op : UInt16) (siz : UInt64) : Option ByteBuffer := do
  reserve allocates (siz + 4)
  let buf ← setOpcode { empty with wpos := 4 } op
  setSize buf siz.toUInt16

/-- `Opcode`, with the buffer it leaves. -/
def opcode (buf : ByteBuffer) : Option (UInt16 × ByteBuffer) := do
  let (ret, advanced) ← ByteBuffer.readBytes { buf with rpos := 2 } 2
  some (UInt16.ofNat (leVal ret.val), { advanced with rpos := buf.rpos })

/-- `Size`, with the buffer it leaves. -/
def size (buf : ByteBuffer) : Option (UInt16 × ByteBuffer) := do
  let (ret, advanced) ← ByteBuffer.readBytes { buf with rpos := 0 } 2
  some (endianConvertReverse (UInt16.ofNat (leVal ret.val)), { advanced with rpos := buf.rpos })

/-- The call of `SetSize` in `handle_output`, made a number of times. -/
def setSizes : ℕ → ByteBuffer → Option ByteBuffer
  | 0, buf => some buf
  | n + 1, buf => do
    let buf ← setSize buf (UInt16.ofNat buf.size - 4)
    setSizes n buf

/-- `SetSize` is an `append` of the converted size at the front. -/
theorem setSize_eq_append (buf : ByteBuffer) (siz : UInt16) :
    setSize buf siz = ({ buf with wpos := 0 }.append (uint16 (endianConvertReverse (siz + 2)))).map
      fun (written : ByteBuffer) => { written with wpos := buf.wpos } := by
  rw [uint16_endianConvertReverse, setSize]

end ServerPkt

/-! ### A buffer with a header -/

/-- The buffer of a packet with a given size field, opcode and payload. -/
def framed (siz op : UInt16) (payload : List UInt8) : ByteBuffer :=
  ofBytes ((uint16 siz).reverse ++ uint16 op ++ payload)

variable {siz op : UInt16} {payload : List UInt8} {allocates : UInt64 → Bool}

@[simp] theorem size_framed : (framed siz op payload).size = payload.length + 4 := by
  simp only [framed, size_ofBytes, List.length_append, List.length_reverse, length_uint16]
  omega

/-- `SetSize` changes the size field and nothing else. -/
theorem setSize_framed (h : payload.length + 4 < sizeLimit) (siz' : UInt16) :
    setSize (framed siz op payload) siz' = some (framed (siz' + 2) op payload) := by
  have hdrop : ((uint16 siz).reverse ++ uint16 op ++ payload).drop 2 = uint16 op ++ payload := by
    rw [List.append_assoc]
    exact List.drop_left' (by simp)
  rw [setSize_eq (by rwa [size_framed])]
  simp only [framed, ofBytes, hdrop, List.length_append, List.length_reverse, length_uint16]
  rw [List.append_assoc]

/-- `SetOpcode` on the buffer of the constructor, which has to be filled up. -/
theorem setOpcode_empty (op : UInt16) :
    ServerPkt.setOpcode { empty with wpos := 4 } op = some (framed 0 op []) := by
  have hne : uint16 op ≠ [] := by
    intro hnil
    have hlen := length_uint16 op
    rw [hnil] at hlen
    cases hlen
  have hlimit : ({ empty with wpos := 2 } : ByteBuffer).size < sizeLimit := by decide
  rw [ServerPkt.setOpcode, append, if_neg hne, if_pos hlimit, Option.map_some, length_uint16]
  rfl

/-- **The constructor leaves a header**, with the size it was given. -/
theorem new_eq (op : UInt16) {siz : UInt64} (h : ServerPkt.Grants allocates (siz + 4)) :
    ServerPkt.new allocates op siz = some (framed (siz.toUInt16 + 2) op []) := by
  have hreserve : ServerPkt.reserve allocates (siz + 4) = some () := if_pos h
  rw [ServerPkt.new, hreserve, Option.bind_eq_bind, Option.bind_some, setOpcode_empty,
    Option.bind_eq_bind, Option.bind_some, setSize_framed (by decide)]

/-- Where the memory is refused there is no packet. -/
theorem new_eq_none (op : UInt16) {siz : UInt64} (h : ¬ ServerPkt.Grants allocates (siz + 4)) :
    ServerPkt.new allocates op siz = none := by
  have hreserve : ServerPkt.reserve allocates (siz + 4) = none := if_neg h
  rw [ServerPkt.new, hreserve]
  rfl

/-- What the handlers build is a `ServerPkt` with the values appended. -/
theorem serverPkt_eq_new (op : ServerOpcode) {siz : UInt64}
    (h : ServerPkt.Grants allocates (siz + 4)) (values : List (List UInt8)) :
    serverPkt op siz.toUInt16 values =
      (ServerPkt.new allocates op.code siz).bind fun buf => values.foldlM append buf := by
  rw [new_eq op.code h, Option.bind_some, framed, List.append_nil]
  rfl

/-- **`SetSize` once or more** leaves the size the packet has. -/
theorem setSizes_framed (h : payload.length + 4 < sizeLimit) (n : ℕ) :
    ServerPkt.setSizes (n + 1) (framed siz op payload) =
      some (framed (UInt16.ofNat (payload.length + 2)) op payload) := by
  have hlen : UInt16.ofNat (payload.length + 4) - 4 = UInt16.ofNat payload.length := by
    rw [UInt16.ofNat_add]
    exact add_sub_cancel_right _ _
  have hsiz : UInt16.ofNat (payload.length + 4) - 4 + 2 = UInt16.ofNat (payload.length + 2) := by
    rw [hlen, UInt16.ofNat_add]
    rfl
  induction n generalizing siz with
  | zero =>
    rw [ServerPkt.setSizes, setSize_framed h, size_framed, hsiz]
    rfl
  | succ n ih =>
    rw [ServerPkt.setSizes, setSize_framed h, size_framed, hsiz]
    exact ih

/-- Two bytes of the header, read from where they stand. -/
theorem readBytes_framed {i : ℕ} (h : i ≤ 2) :
    ∃ ret : Bytes 2, ret.val = (((uint16 siz).reverse ++ uint16 op ++ payload).drop i).take 2 ∧
      ByteBuffer.readBytes { framed siz op payload with rpos := i } 2 =
        some (ret, { framed siz op payload with rpos := i + 2 }) := by
  have hle : i + 2 ≤ ({ framed siz op payload with rpos := i } : ByteBuffer).size := by
    change i + 2 ≤ (framed siz op payload).size
    rw [size_framed]
    omega
  exact ⟨_, rfl, dif_pos hle⟩

/-- `Size` reads the size field back. -/
theorem size_eq_of_framed :
    ServerPkt.size (framed siz op payload) = some (siz, framed siz op payload) := by
  obtain ⟨ret, hret, hread⟩ := @readBytes_framed siz op payload 0 (Nat.zero_le 2)
  have hbytes : ret.val = (uint16 siz).reverse := by
    rw [hret, List.append_assoc]
    exact List.take_left' (by simp)
  rw [ServerPkt.size, hread, Option.bind_eq_bind, Option.bind_some]
  dsimp only
  rw [hbytes, ← endianConvertReverse_eq, endianConvertReverse_endianConvertReverse]

/-- `Opcode` reads the opcode back. -/
theorem opcode_eq_of_framed :
    ServerPkt.opcode (framed siz op payload) = some (op, framed siz op payload) := by
  obtain ⟨ret, hret, hread⟩ := @readBytes_framed siz op payload 2 le_rfl
  have hbytes : ret.val = uint16 op := by
    rw [hret, List.append_assoc, List.drop_left' (by simp)]
    exact List.take_left' (by simp)
  rw [ServerPkt.opcode, hread, Option.bind_eq_bind, Option.bind_some]
  dsimp only
  rw [hbytes, ofNat_leVal_uint16]

/-! ### Every packet -/

/-- A packet constructed with a size and filled, and what one or more calls of `SetSize` as
`handle_output` makes them leave of it: the size of what follows it, the opcode and the
values. Both fields read back, and nothing but the header has changed. -/
def FramedBy (allocates : UInt64 → Bool) (op : UInt16) (siz : UInt64) (values : List (List UInt8))
    (n : ℕ) : Prop :=
  ∃ pkt sent,
    ((ServerPkt.new allocates op siz).bind fun buf => values.foldlM append buf) = some pkt ∧
    ServerPkt.setSizes (n + 1) pkt = some sent ∧
    sent.storage = beBytes 2 (values.flatten.length + 2) ++ leBytes 2 op.toNat ++ values.flatten ∧
    (∃ size, ServerPkt.size sent = some (size, sent) ∧
      size.toNat = values.flatten.length + 2) ∧
    ServerPkt.opcode sent = some (op, sent) ∧
    sent.storage.drop 4 = pkt.storage.drop 4 ∧
    sent.wpos = pkt.wpos ∧ sent.rpos = pkt.rpos

/-- **A packet is framed**, whatever values were appended, up to 65533 bytes in all, and
whatever size the constructor was given, if only the memory for it was granted. -/
theorem serverPkt_framed (allocates : UInt64 → Bool) (op : UInt16) (siz : UInt64)
    (values : List (List UInt8)) (n : ℕ) (h : values.flatten.length ≤ 65533) :
    FramedBy allocates op siz values n ↔ ServerPkt.Grants allocates (siz + 4) := by
  constructor
  · rintro ⟨pkt, sent, hpkt, -⟩
    by_contra hrefused
    rw [new_eq_none op hrefused] at hpkt
    cases hpkt
  intro hreserved
  have hsize : (UInt16.ofNat (values.flatten.length + 2)).toNat = values.flatten.length + 2 :=
    UInt16.toNat_ofNat_of_lt' (by rw [UInt16.size]; omega)
  have hlimit : values.flatten.length + 4 < sizeLimit := by
    rw [sizeLimit]
    omega
  have hbuild : ((ServerPkt.new allocates op siz).bind fun buf => values.foldlM append buf) =
      some (framed (siz.toUInt16 + 2) op values.flatten) := by
    rw [new_eq op hreserved, Option.bind_some, framed, List.append_nil, foldlM_append_eq _ ?_]
    · rfl
    · simp only [List.length_append, List.length_reverse, length_uint16]
      omega
  refine ⟨_, _, hbuild, setSizes_framed hlimit n, ?_, ⟨_, size_eq_of_framed, hsize⟩,
    opcode_eq_of_framed, ?_, ?_, rfl⟩
  · rw [framed, storage_ofBytes, uint16, hsize]
    rfl
  · rw [framed, framed, storage_ofBytes, storage_ofBytes, List.drop_left' (by simp),
      List.drop_left' (by simp)]
  · simp only [framed, ofBytes, List.length_append, List.length_reverse, length_uint16]

/-- The list of no characters, whose packet is built for a hundred bytes. -/
theorem serverPkt_framed_charEnum :
    ∃ pkt sent, ((ServerPkt.new (fun _ => true) 0x03B 100).bind fun buf =>
        [[0]].foldlM append buf) = some pkt ∧
      ServerPkt.setSizes 1 pkt = some sent ∧ sent.storage = [0, 3, 0x3B, 0, 0] := by
  obtain ⟨pkt, sent, hpkt, hsent, hstorage, -⟩ :=
    (serverPkt_framed (fun _ => true) 0x03B 100 [[0]] 0 (by decide)).mpr (by decide)
  exact ⟨pkt, sent, hpkt, hsent, hstorage⟩

/-- A size of half the address space is refused, with all the memory there is. -/
theorem serverPkt_not_framed_halfSpace :
    ¬ FramedBy (fun _ => true) 0x03B 0x8000000000000000 [[0]] 0 := by
  have hrefused : ServerPkt.new (fun _ => true) 0x03B 0x8000000000000000 = none :=
    new_eq_none _ (by decide)
  rintro ⟨pkt, sent, hpkt, -⟩
  rw [hrefused] at hpkt
  cases hpkt

end Morfeusz.Proxyd
