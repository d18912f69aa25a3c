import Morfeusz.Common.OpenSSL
import Morfeusz.Lib.OutputStream

/-!
# The packet buffer

`ByteBuffer` is the growable buffer every packet is built in, and every packet of a
game client is read from: a vector of bytes with a read and a write position.
`Morfeusz.ByteBuffer.append` is the one primitive behind every `operator<<`; it
asserts that the buffer is below its size limit, and a failed `ASSERT` aborts the
process, which is `none` here.

Building a packet is appending a list of values to an empty buffer. As long as
the limit is not in sight that is concatenation
(`Morfeusz.ByteBuffer.build_eq`).
-/

namespace Morfeusz

open ByteNumbers

/-- The packet buffer. -/
structure ByteBuffer where
  rpos : ℕ
  wpos : ℕ
  storage : List UInt8
  deriving DecidableEq

namespace ByteBuffer

/-- A buffer just constructed. -/
def empty : ByteBuffer := { rpos := 0, wpos := 0, storage := [] }

/-- A buffer that was filled front to back and not read from. -/
def ofBytes (bs : List UInt8) : ByteBuffer := { rpos := 0, wpos := bs.length, storage := bs }

def size (buf : ByteBuffer) : ℕ := buf.storage.length

/-- The bound of the `ASSERT` in `append`. -/
def sizeLimit : ℕ := 10000000

/-- `append`: the bytes go to the write position, over what is there and beyond
the end, which is filled up with zeros first. -/
def append (buf : ByteBuffer) (src : List UInt8) : Option ByteBuffer :=
  if src = [] then some buf
  else if buf.size < sizeLimit then
    let grown := buf.storage ++ List.replicate (buf.wpos + src.length - buf.size) 0
    some { buf with
      wpos := buf.wpos + src.length
      storage := grown.take buf.wpos ++ src ++ grown.drop (buf.wpos + src.length) }
  else none

/-- `resize`. -/
def resize (buf : ByteBuffer) (newsize : ℕ) : ByteBuffer :=
  { rpos := 0
    wpos := newsize
    storage := buf.storage.take newsize ++ List.replicate (newsize - buf.size) 0 }

/-! ### Reading -/

/-- `read`: it asserts that all of the bytes are there. -/
def readBytes (buf : ByteBuffer) (n : ℕ) : Option (Bytes n × ByteBuffer) :=
  if h : buf.rpos + n ≤ buf.size then
    some (⟨(buf.storage.drop buf.rpos).take n, by
      rw [List.length_take, List.length_drop]
      exact min_eq_left (Nat.le_sub_of_add_le' h)⟩, { buf with rpos := buf.rpos + n })
  else none

def readUint8 (buf : ByteBuffer) : Option (UInt8 × ByteBuffer) :=
  (buf.readBytes 1).map fun (bs, buf) => (UInt8.ofNat (leVal bs.val), buf)

def readUint32 (buf : ByteBuffer) : Option (UInt32 × ByteBuffer) :=
  (buf.readBytes 4).map fun (bs, buf) => (UInt32.ofNat (leVal bs.val), buf)

/-- The loop of `operator>>(std::string&)` over the bytes that are left: the
characters up to a NUL or to the end, and how many bytes were read. -/
def readStringLoop : List UInt8 → List UInt8 × ℕ
  | [] => ([], 0)
  | c :: cs =>
    if c = 0 then ([], 1)
    else
      let (value, count) := readStringLoop cs
      (c :: value, count + 1)

/-- `operator>>(std::string&)`, which never fails. -/
def readString (buf : ByteBuffer) : List UInt8 × ByteBuffer :=
  let (value, count) := readStringLoop (buf.storage.drop buf.rpos)
  (value, { buf with rpos := buf.rpos + count })

/-! ### The values that are appended

On a little-endian host, which is where the daemons run. -/

def uint8 (v : UInt8) : List UInt8 := [v]

def uint16 (v : UInt16) : List UInt8 := leBytes 2 v.toNat

def uint32 (v : UInt32) : List UInt8 := leBytes 4 v.toNat

def uint64 (v : UInt64) : List UInt8 := leBytes 8 v.toNat

@[simp] theorem length_uint16 (v : UInt16) : (uint16 v).length = 2 := length_leBytes 2 _

@[simp] theorem length_uint32 (v : UInt32) : (uint32 v).length = 4 := length_leBytes 4 _

/-- `operator<<(const std::string&)`. -/
def string (text : List UInt8) : List UInt8 := text ++ [0]

/-- A new buffer with a list of values appended. -/
def build (values : List (List UInt8)) : Option ByteBuffer := values.foldlM append empty

@[simp] theorem size_ofBytes (bs : List UInt8) : (ofBytes bs).size = bs.length := rfl

@[simp] theorem storage_ofBytes (bs : List UInt8) : (ofBytes bs).storage = bs := rfl

/-- At the end of a buffer, appending is concatenation. -/
theorem append_of_wpos_eq {buf : ByteBuffer} {src : List UInt8} (h : buf.wpos = buf.size)
    (hlt : buf.size < sizeLimit) :
    buf.append src =
      some { buf with wpos := buf.wpos + src.length, storage := buf.storage ++ src } := by
  by_cases hnil : src = []
  · simp [append, hnil]
  · rw [append, if_neg hnil, if_pos hlt, h]
    simp [size]

theorem append_ofBytes {bs src : List UInt8} (h : bs.length < sizeLimit) :
    (ofBytes bs).append src = some (ofBytes (bs ++ src)) := by
  rw [append_of_wpos_eq (by rfl) (by exact h), ofBytes, ofBytes, List.length_append]

/-- **Below the limit a packet is the concatenation of its values.** -/
theorem foldlM_append_eq (bs : List UInt8) {values : List (List UInt8)}
    (h : bs.length + values.flatten.length < sizeLimit) :
    values.foldlM append (ofBytes bs) = some (ofBytes (bs ++ values.flatten)) := by
  induction values generalizing bs with
  | nil => simp
  | cons value values ih =>
    rw [List.flatten_cons, List.length_append] at h
    rw [List.foldlM_cons, append_ofBytes (by omega), Option.bind_eq_bind, Option.bind_some,
      ih _ (by rw [List.length_append]; omega), List.flatten_cons, List.append_assoc]

theorem build_eq {values : List (List UInt8)} (h : values.flatten.length < sizeLimit) :
    build values = some (ofBytes values.flatten) := by
  have := foldlM_append_eq [] (by simpa using h)
  simpa [build, empty, ofBytes] using this

/-- Whatever is appended, a buffer that was built is filled front to back. -/
theorem eq_ofBytes_of_foldlM (bs : List UInt8) {values : List (List UInt8)} {buf : ByteBuffer}
    (h : values.foldlM append (ofBytes bs) = some buf) : buf = ofBytes (bs ++ values.flatten) := by
  induction values generalizing bs with
  | nil => simpa using h.symm
  | cons value values ih =>
    rw [List.foldlM_cons] at h
    obtain ⟨mid, hmid, hrest⟩ := Option.bind_eq_some_iff.mp h
    obtain rfl : mid = ofBytes (bs ++ value) := by
      by_cases hlt : bs.length < sizeLimit
      · exact (Option.some.inj ((append_ofBytes hlt).symm.trans hmid)).symm
      · have hnil : value = [] := by
          by_contra hne
          rw [append, if_neg hne, size_ofBytes, if_neg hlt] at hmid
          cases hmid
        subst hnil
        simpa [append] using hmid.symm
    rw [ih _ hrest, List.flatten_cons, List.append_assoc]

theorem eq_ofBytes_of_build {values : List (List UInt8)} {buf : ByteBuffer}
    (h : build values = some buf) : buf = ofBytes values.flatten := by
  simpa using eq_ofBytes_of_foldlM [] h

/-! ### Reading on -/

section Reading

variable {β : Type} {buf : ByteBuffer}

/-- The buffer once some bytes of it are read. -/
def skip (buf : ByteBuffer) (n : ℕ) : ByteBuffer := { buf with rpos := buf.rpos + n }

@[simp] theorem size_skip (buf : ByteBuffer) (n : ℕ) : (buf.skip n).size = buf.size := rfl

@[simp] theorem rpos_skip (buf : ByteBuffer) (n : ℕ) : (buf.skip n).rpos = buf.rpos + n := rfl

@[simp] theorem storage_skip (buf : ByteBuffer) (n : ℕ) : (buf.skip n).storage = buf.storage := rfl

@[simp] theorem skip_skip (buf : ByteBuffer) (n k : ℕ) :
    (buf.skip n).skip k = buf.skip (n + k) := by
  simp [skip, Nat.add_assoc]

/-- The bytes at the read position. -/
def peek (buf : ByteBuffer) (n : ℕ) : List UInt8 := (buf.storage.drop buf.rpos).take n

theorem length_peek {n : ℕ} (h : buf.rpos + n ≤ buf.size) : (buf.peek n).length = n := by
  rw [size] at h
  rw [peek, List.length_take, List.length_drop]
  omega

/-- **A read asks for its bytes, and what follows is read behind them.** -/
theorem exists_readBytes_bind_iff {n : ℕ} {f : Bytes n × ByteBuffer → Option β} :
    (∃ b, buf.readBytes n >>= f = some b) ↔
      ∃ h : buf.rpos + n ≤ buf.size, ∃ b, f (⟨buf.peek n, length_peek h⟩, buf.skip n) = some b := by
  rw [readBytes]
  split
  · next hfits => exact ⟨fun h => ⟨hfits, h⟩, fun ⟨_, h⟩ => h⟩
  · next hfits =>
    constructor
    · rintro ⟨b, hb⟩
      cases hb
    · rintro ⟨h, -⟩
      exact absurd h hfits

theorem exists_readUint8_bind_iff {f : UInt8 × ByteBuffer → Option β} :
    (∃ b, buf.readUint8 >>= f = some b) ↔
      buf.rpos + 1 ≤ buf.size ∧ ∃ b, f (UInt8.ofNat (leVal (buf.peek 1)), buf.skip 1) = some b := by
  rw [readUint8, ← exists_prop]
  simp only [Option.bind_eq_bind, Option.bind_map]
  exact exists_readBytes_bind_iff

theorem exists_readUint32_bind_iff {f : UInt32 × ByteBuffer → Option β} :
    (∃ b, buf.readUint32 >>= f = some b) ↔
      buf.rpos + 4 ≤ buf.size ∧
        ∃ b, f (UInt32.ofNat (leVal (buf.peek 4)), buf.skip 4) = some b := by
  rw [readUint32, ← exists_prop]
  simp only [Option.bind_eq_bind, Option.bind_map]
  exact exists_readBytes_bind_iff

/-- The bytes a text takes of what is left: its characters and its terminator, or all. -/
def stringBytes (bs : List UInt8) : ℕ := (readStringLoop bs).2

theorem readString_snd (buf : ByteBuffer) :
    buf.readString.2 = buf.skip (stringBytes (buf.storage.drop buf.rpos)) := rfl

end Reading

/-! ### A buffer of which a part was sent -/

/-- What both daemons do with a buffer of which the peer took `n` bytes: `rpos(n - 1)`,
`read` into the front as many bytes as are left, and `resize`. The assertion of `read`
holds, the last byte read being the last but one. -/
def keepUnsent (buf : ByteBuffer) (n : ℕ) : ByteBuffer :=
  let moved := (buf.storage.drop (n - 1)).take (buf.size - n)
  { buf with storage := moved ++ buf.storage.drop moved.length }.resize (buf.size - n)

theorem storage_resize {buf : ByteBuffer} {newsize : ℕ} (h : newsize ≤ buf.size) :
    (buf.resize newsize).storage = buf.storage.take newsize := by
  rw [resize, Nat.sub_eq_zero_of_le h, List.replicate_zero, List.append_nil]

/-- **The bytes are moved from one too early.** -/
theorem storage_keepUnsent (buf : ByteBuffer) {n : ℕ} (hn : 0 < n) :
    (buf.keepUnsent n).storage = OutputStream.staleTail n buf.storage := by
  have hlen : (OutputStream.staleTail n buf.storage).length = buf.size - n :=
    OutputStream.length_staleTail hn
  rw [keepUnsent, storage_resize]
  · change List.take _ (OutputStream.staleTail n buf.storage ++ _) = _
    rw [← hlen, List.take_left]
  · change _ ≤ (OutputStream.staleTail n buf.storage ++ _).length
    rw [List.length_append, hlen]
    exact Nat.le_add_right _ _

end ByteBuffer

end Morfeusz
