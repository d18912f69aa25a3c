import Morfeusz.Common.ByteBuffer
import Morfeusz.Lib.OrderedMap

/-!
# Values in a buffer

What a packet is made of, and taken apart into: `operator<<` and `operator>>` for the
integers, for texts, and for the three containers of them. A container is its number of
elements and then the elements, which may be containers again, so that the two operators
are defined along the type of the value (`Morfeusz.ValueType`).

The operators of the containers are templates, and those of the maps do not compile for
every type of key and value (`Morfeusz.ValueType.Streams`). Where they do, what is read back
is what was written (`Morfeusz.ByteBuffer.readAll_writeAll`): every reader ends where the
writer has ended.
-/

namespace Morfeusz

open ByteNumbers

/-! ### The types -/

/-- The types a buffer has operators for. -/
inductive ValueType
  | uint8
  | uint16
  | uint32
  | uint64
  | int8
  | int16
  | int32
  | int64
  | string
  | vector (t : ValueType)
  | list (t : ValueType)
  | map (k v : ValueType)

namespace ValueType

/-- The values of a type, with `std::less` of them. -/
def denote : ValueType → (α : Type) × LinearOrder α
  | uint8 => ⟨UInt8, .lift' UInt8.toNat fun _ _ => UInt8.toNat_inj.mp⟩
  | uint16 => ⟨UInt16, .lift' UInt16.toNat fun _ _ => UInt16.toNat_inj.mp⟩
  | uint32 => ⟨UInt32, .lift' UInt32.toNat fun _ _ => UInt32.toNat_inj.mp⟩
  | uint64 => ⟨UInt64, .lift' UInt64.toNat fun _ _ => UInt64.toNat_inj.mp⟩
  | int8 => ⟨Int8, .lift' Int8.toInt fun _ _ => Int8.toInt_inj.mp⟩
  | int16 => ⟨Int16, .lift' Int16.toInt fun _ _ => Int16.toInt_inj.mp⟩
  | int32 => ⟨Int32, .lift' Int32.toInt fun _ _ => Int32.toInt_inj.mp⟩
  | int64 => ⟨Int64, .lift' Int64.toInt fun _ _ => Int64.toInt_inj.mp⟩
  | string =>
    let _ : LinearOrder UInt8 := .lift' UInt8.toNat fun _ _ => UInt8.toNat_inj.mp
    ⟨List UInt8, inferInstance⟩
  | vector t | list t =>
    let _ := t.denote.2
    ⟨List t.denote.1, inferInstance⟩
  | map k v =>
    let _ := k.denote.2
    let _ := v.denote.2
    ⟨OrderedMap k.denote.1 v.denote.1, inferInstance⟩

/-- The values of a type. -/
abbrev Val (t : ValueType) : Type := t.denote.1

instance (t : ValueType) : LinearOrder t.Val := t.denote.2

/-- The types for which an unqualified name is looked up in `std` too. -/
def inStd : ValueType → Bool
  | uint8 | uint16 | uint32 | uint64 | int8 | int16 | int32 | int64 => false
  | string | vector _ | list _ | map _ _ => true

def isMap : ValueType → Bool
  | map _ _ => true
  | _ => false

/-- The types both operators compile for. -/
def Streams : ValueType → Prop
  | uint8 | uint16 | uint32 | uint64 | int8 | int16 | int32 | int64 | string => True
  | vector t | list t => Streams t
  | map k v => k.isMap = false ∧ (k.inStd ∨ v.inStd) ∧ Streams k ∧ Streams v

/-- Whether a type is one of these can be seen from it. -/
instance decidableStreams : (t : ValueType) → Decidable t.Streams
  | uint8 | uint16 | uint32 | uint64 | int8 | int16 | int32 | int64 | string => .isTrue trivial
  | vector t | list t => decidableStreams t
  | map k v =>
    let _ := decidableStreams k
    let _ := decidableStreams v
    inferInstanceAs
      (Decidable (k.isMap = false ∧ (k.inStd ∨ v.inStd) ∧ Streams k ∧ Streams v))

end ValueType

namespace ByteBuffer

/-! ### Writing -/

/-- `operator<<` of a vector and of a list, with the one of the elements. -/
def writeElements {α : Type} (write : α → ByteBuffer → Option ByteBuffer) (vs : List α)
    (buf : ByteBuffer) : Option ByteBuffer := do
  let buf ← buf.append (uint32 (UInt32.ofNat vs.length))
  vs.foldlM (fun buf v => write v buf) buf

/-- `operator<<`, where it compiles: the one of a map takes its map by a reference that is not
`const`, and a key is `const`. -/
def write : (t : ValueType) → Option (t.Val → ByteBuffer → Option ByteBuffer)
  | .uint8 => some fun v buf => buf.append (uint8 v)
  | .uint16 => some fun v buf => buf.append (uint16 v)
  | .uint32 => some fun v buf => buf.append (uint32 v)
  | .uint64 => some fun v buf => buf.append (uint64 v)
  | .int8 => some fun v buf => buf.append (uint8 (Int8.toUInt8 v))
  | .int16 => some fun v buf => buf.append (uint16 (Int16.toUInt16 v))
  | .int32 => some fun v buf => buf.append (uint32 (Int32.toUInt32 v))
  | .int64 => some fun v buf => buf.append (uint64 (Int64.toUInt64 v))
  | .string => some fun v buf => do
    let buf ← buf.append v
    buf.append (uint8 0)
  | .vector t | .list t => do
    let write ← write t
    some fun vs => writeElements write vs
  | .map k v =>
    if k.isMap then none
    else do
      let writeKey ← write k
      let writeVal ← write v
      some fun m => writeElements (fun e buf => do
        let buf ← writeKey e.1 buf
        writeVal e.2 buf) (OrderedMap.entries m)

/-! ### Reading -/

def readUint16 (buf : ByteBuffer) : Option (UInt16 × ByteBuffer) :=
  (buf.readBytes 2).map fun (bs, buf) => (UInt16.ofNat (leVal bs.val), buf)

def readUint64 (buf : ByteBuffer) : Option (UInt64 × ByteBuffer) :=
  (buf.readBytes 8).map fun (bs, buf) => (UInt64.ofNat (leVal bs.val), buf)

/-- The loop of `operator>>` of a container: as many elements as were announced. -/
def readElements {α : Type} (read : ByteBuffer → Option (α × ByteBuffer)) :
    ℕ → ByteBuffer → Option (List α × ByteBuffer)
  | 0, buf => some ([], buf)
  | vsize + 1, buf => do
    let (t, buf) ← read buf
    let (v, buf) ← readElements read vsize buf
    some (t :: v, buf)

/-- The loop of `operator>>` of a map, which inserts what it reads. -/
def readEntries {K V : Type} [LinearOrder K] (readKey : ByteBuffer → Option (K × ByteBuffer))
    (readVal : ByteBuffer → Option (V × ByteBuffer)) :
    ℕ → OrderedMap K V → ByteBuffer → Option (OrderedMap K V × ByteBuffer)
  | 0, m, buf => some (m, buf)
  | msize + 1, m, buf => do
    let (k, buf) ← readKey buf
    let (v, buf) ← readVal buf
    readEntries readKey readVal msize (m.insert k v) buf

/-- `operator>>`, where it compiles: the one of a map calls `make_pair` without its namespace,
which is found if the key or the value is of a type of `std`. -/
def read : (t : ValueType) → Option (ByteBuffer → Option (t.Val × ByteBuffer))
  | .uint8 => some readUint8
  | .uint16 => some readUint16
  | .uint32 => some readUint32
  | .uint64 => some readUint64
  | .int8 => some fun buf => buf.readUint8.map fun (v, buf) => (v.toInt8, buf)
  | .int16 => some fun buf => buf.readUint16.map fun (v, buf) => (v.toInt16, buf)
  | .int32 => some fun buf => buf.readUint32.map fun (v, buf) => (v.toInt32, buf)
  | .int64 => some fun buf => buf.readUint64.map fun (v, buf) => (v.toInt64, buf)
  | .string => some fun buf => some buf.readString
  | .vector t | .list t => do
    let read ← read t
    some fun buf => do
      let (vsize, buf) ← buf.readUint32
      readElements read vsize.toNat buf
  | .map k v =>
    if k.inStd ∨ v.inStd then do
      let readKey ← read k
      let readVal ← read v
      some fun buf => do
        let (msize, buf) ← buf.readUint32
        readEntries readKey readVal msize.toNat .empty buf
    else none

/-! ### A list of values -/

/-- A value of any of the types. -/
abbrev Value := (t : ValueType) × t.Val

/-- A value written, by the operator of its type. -/
def writeValue (v : Value) (buf : ByteBuffer) : Option ByteBuffer := do
  let write ← write v.1
  write v.2 buf

/-- Values written to an empty buffer. What does not compile writes nothing. -/
def writeAll (vs : List Value) : Option ByteBuffer :=
  vs.foldlM (fun buf v => writeValue v buf) empty

/-- Values of a sequence of types read from a buffer. -/
def readAll : List ValueType → ByteBuffer → Option (List Value × ByteBuffer)
  | [], buf => some ([], buf)
  | t :: ts, buf => do
    let read ← read t
    let (v, buf) ← read buf
    let (vs, buf) ← readAll ts buf
    some (⟨t, v⟩ :: vs, buf)

/-! ### The bytes of a value -/

/-- The bytes a value is written as. -/
def encode : (t : ValueType) → t.Val → List UInt8
  | .uint8, v => uint8 v
  | .uint16, v => uint16 v
  | .uint32, v => uint32 v
  | .uint64, v => uint64 v
  | .int8, v => uint8 (Int8.toUInt8 v)
  | .int16, v => uint16 (Int16.toUInt16 v)
  | .int32, v => uint32 (Int32.toUInt32 v)
  | .int64, v => uint64 (Int64.toUInt64 v)
  | .string, v => string v
  | .vector t, vs | .list t, vs => uint32 (UInt32.ofNat (List.length vs)) ++ vs.flatMap (encode t)
  | .map k v, m => uint32 (UInt32.ofNat m.entries.length) ++
      m.entries.flatMap fun e => encode k e.1 ++ encode v e.2

/-- A value without a NUL in a text, whose containers have fewer elements than their
number counts. -/
def Plain : (t : ValueType) → t.Val → Prop
  | .uint8, _ | .uint16, _ | .uint32, _ | .uint64, _ => True
  | .int8, _ | .int16, _ | .int32, _ | .int64, _ => True
  | .string, v => (0 : UInt8) ∉ (show List UInt8 from v)
  | .vector t, vs | .list t, vs =>
    List.length vs < 2 ^ 32 ∧ ∀ v ∈ (show List t.Val from vs), Plain t v
  | .map k v, m => m.entries.length < 2 ^ 32 ∧ ∀ e ∈ m.entries, Plain k e.1 ∧ Plain v e.2

/-- Whether a value is plain can be seen from it. -/
instance decidablePlain : (t : ValueType) → (v : t.Val) → Decidable (Plain t v)
  | .uint8, _ | .uint16, _ | .uint32, _ | .uint64, _ => .isTrue trivial
  | .int8, _ | .int16, _ | .int32, _ | .int64, _ => .isTrue trivial
  | .string, v => inferInstanceAs (Decidable ((0 : UInt8) ∉ (show List UInt8 from v)))
  | .vector t, vs | .list t, vs =>
    let _ := decidablePlain t
    inferInstanceAs
      (Decidable (List.length vs < 2 ^ 32 ∧ ∀ v ∈ (show List t.Val from vs), Plain t v))
  | .map k v, m =>
    let _ := decidablePlain k
    let _ := decidablePlain v
    inferInstanceAs (Decidable (m.entries.length < 2 ^ 32 ∧
      ∀ e ∈ m.entries, Plain k e.1 ∧ Plain v e.2))

/-! ### What is written -/

/-- A writer appends some bytes, as long as the limit is not in sight. -/
def Writes (write : ByteBuffer → Option ByteBuffer) (bs : List UInt8) : Prop :=
  ∀ front : List UInt8, front.length + bs.length < sizeLimit →
    write (ofBytes front) = some (ofBytes (front ++ bs))

theorem writes_append (bs : List UInt8) : Writes (fun buf => buf.append bs) bs := by
  intro front hlt
  exact append_ofBytes (by omega)

/-- One writer after another. -/
theorem Writes.bind {write write' : ByteBuffer → Option ByteBuffer} {bs bs' : List UInt8}
    (h : Writes write bs) (h' : Writes write' bs') :
    Writes (fun buf => write buf >>= write') (bs ++ bs') := by
  intro front hlt
  rw [List.length_append] at hlt
  dsimp only
  rw [h front (by omega), Option.bind_eq_bind, Option.bind_some,
    h' (front ++ bs) (by rw [List.length_append]; omega), List.append_assoc]

theorem writes_foldlM {α : Type} {write : α → ByteBuffer → Option ByteBuffer}
    {encode : α → List UInt8} {vs : List α} (h : ∀ v ∈ vs, Writes (write v) (encode v)) :
    Writes (fun buf => vs.foldlM (fun buf v => write v buf) buf) (vs.flatMap encode) := by
  induction vs with
  | nil =>
    intro front _
    simp
  | cons v vs ih =>
    obtain ⟨hv, hvs⟩ := List.forall_mem_cons.mp h
    exact hv.bind (ih hvs)

theorem writes_writeElements {α : Type} {write : α → ByteBuffer → Option ByteBuffer}
    {encode : α → List UInt8} {vs : List α} (h : ∀ v ∈ vs, Writes (write v) (encode v)) :
    Writes (writeElements write vs)
      (uint32 (UInt32.ofNat vs.length) ++ vs.flatMap encode) :=
  (writes_append _).bind (writes_foldlM h)

/-- **`operator<<` appends the bytes of its value**, for every type it compiles for. -/
theorem exists_write {t : ValueType} (h : t.Streams) :
    ∃ write', write t = some write' ∧ ∀ v, Writes (write' v) (encode t v) := by
  induction t with
  | uint8 | uint16 | uint32 | uint64 | int8 | int16 | int32 | int64 =>
    exact ⟨_, rfl, fun v => writes_append _⟩
  | string => exact ⟨_, rfl, fun v => (writes_append _).bind (writes_append _)⟩
  | vector t ih | list t ih =>
    obtain ⟨write', hwrite, hwrites⟩ := ih h
    refine ⟨_, by rw [write, hwrite]; rfl, fun vs => ?_⟩
    exact writes_writeElements fun v _ => hwrites v
  | map k v ihk ihv =>
    obtain ⟨hkey, -, hk, hv⟩ := h
    obtain ⟨writeKey, hwriteKey, hkeys⟩ := ihk hk
    obtain ⟨writeVal, hwriteVal, hvals⟩ := ihv hv
    refine ⟨_, by rw [write, hkey, hwriteKey, hwriteVal]; rfl, fun m => ?_⟩
    exact writes_writeElements fun e _ => (hkeys e.1).bind (hvals e.2)

/-! ### What is read -/

/-- What is left to be read. -/
def ahead (buf : ByteBuffer) : List UInt8 := buf.storage.drop buf.rpos

theorem ahead_skip {buf : ByteBuffer} {bs rest : List UInt8} (h : buf.ahead = bs ++ rest) :
    (buf.skip bs.length).ahead = rest := by
  rw [ahead, rpos_skip, storage_skip, ← List.drop_drop, ← ahead, h, List.drop_left]

/-- A reader takes a value out of some bytes, whatever comes behind them. -/
def Reads {α : Type} (read : ByteBuffer → Option (α × ByteBuffer)) (bs : List UInt8) (v : α) :
    Prop :=
  ∀ buf rest, buf.ahead = bs ++ rest → read buf = some (v, buf.skip bs.length)

/-- One reader after another. -/
theorem Reads.bind {α β : Type} {read : ByteBuffer → Option (α × ByteBuffer)}
    {next : α × ByteBuffer → Option (β × ByteBuffer)} {bs bs' : List UInt8} {v : α} {w : β}
    (h : Reads read bs v) (h' : Reads (fun buf => next (v, buf)) bs' w) :
    Reads (fun buf => read buf >>= next) (bs ++ bs') w := by
  intro buf rest hahead
  rw [List.append_assoc] at hahead
  dsimp only
  rw [h buf _ hahead, Option.bind_eq_bind, Option.bind_some]
  refine (h' _ rest (ahead_skip hahead)).trans ?_
  rw [skip_skip, List.length_append]

theorem Reads.map {α β : Type} {read : ByteBuffer → Option (α × ByteBuffer)} {bs : List UInt8}
    {v : α} (f : α → β) (h : Reads read bs v) :
    Reads (fun buf => (read buf).map fun (v, buf) => (f v, buf)) bs (f v) := by
  intro buf rest hahead
  dsimp only
  rw [h buf rest hahead]
  rfl

/-- What was read is put together. -/
theorem Reads.bind_some {α β : Type} {read : ByteBuffer → Option (α × ByteBuffer)} {bs : List UInt8}
    {v : α} (f : α → β) (h : Reads read bs v) :
    Reads (fun buf => do
      let (v, buf) ← read buf
      some (f v, buf)) bs (f v) := by
  intro buf rest hahead
  dsimp only
  rw [h buf rest hahead]
  rfl

/-- Nothing is left to be read. -/
theorem reads_some {α : Type} (v : α) : Reads (fun buf => some (v, buf)) [] v := fun _ _ _ => rfl

theorem reads_readBytes {n : ℕ} (hn : 0 < n) (bs : Bytes n) :
    Reads (fun buf => buf.readBytes n) bs.val bs := by
  intro buf rest hahead
  have hlen := congrArg List.length hahead
  rw [ahead, List.length_drop, List.length_append, bs.length] at hlen
  have hfits : buf.rpos + n ≤ buf.size := by
    rw [size]
    omega
  dsimp only
  rw [readBytes, dif_pos hfits, bs.length]
  refine congrArg some (Prod.ext (Subtype.ext ?_) rfl)
  exact (congrArg (List.take n) hahead).trans (List.take_left' bs.length)

/-- The integers, by the number of their bytes. -/
theorem reads_leBytes {α : Type} (ofNat : ℕ → α) {w n : ℕ} (hw : 0 < w) (hn : n < 256 ^ w) :
    Reads (fun buf => (buf.readBytes w).map fun (bs, buf) => (ofNat (leVal bs.val), buf))
      (leBytes w n) (ofNat n) := by
  have h := (reads_readBytes hw ⟨leBytes w n, length_leBytes w n⟩).map fun bs =>
    ofNat (leVal bs.val)
  rwa [leVal_leBytes_of_lt hn] at h

theorem reads_readUint8 (v : UInt8) : Reads readUint8 (uint8 v) v := by
  have h := reads_leBytes UInt8.ofNat Nat.one_pos v.toNat_lt
  rwa [leBytes_succ, UInt8.ofNat_toNat] at h

theorem reads_readUint16 (v : UInt16) : Reads readUint16 (uint16 v) v := by
  have h := reads_leBytes UInt16.ofNat Nat.two_pos v.toNat_lt
  rwa [UInt16.ofNat_toNat] at h

theorem reads_readUint32 (v : UInt32) : Reads readUint32 (uint32 v) v := by
  have h := reads_leBytes (w := 4) UInt32.ofNat (by decide) v.toNat_lt
  rwa [UInt32.ofNat_toNat] at h

theorem reads_readUint64 (v : UInt64) : Reads readUint64 (uint64 v) v := by
  have h := reads_leBytes (w := 8) UInt64.ofNat (by decide) v.toNat_lt
  rwa [UInt64.ofNat_toNat] at h

theorem readStringLoop_string {text : List UInt8} (rest : List UInt8) (hnul : 0 ∉ text) :
    readStringLoop (string text ++ rest) = (text, (string text).length) := by
  induction text with
  | nil => rfl
  | cons c cs ih =>
    rw [List.mem_cons, not_or] at hnul
    change readStringLoop (c :: (string cs ++ rest)) = _
    rw [readStringLoop, if_neg (Ne.symm hnul.1), ih hnul.2]
    rfl

theorem reads_readString {text : List UInt8} (hnul : 0 ∉ text) :
    Reads (fun buf => some buf.readString) (string text) text := by
  intro buf rest hahead
  dsimp only
  rw [readString, ← ahead, hahead, readStringLoop_string rest hnul]
  rfl

/-- Elements, each read as the value that belongs to what was written. -/
theorem reads_readElements_map {α β : Type} {read : ByteBuffer → Option (α × ByteBuffer)}
    {encode : β → List UInt8} {f : β → α} {ws : List β}
    (h : ∀ w ∈ ws, Reads read (encode w) (f w)) :
    Reads (readElements read ws.length) (ws.flatMap encode) (ws.map f) := by
  induction ws with
  | nil => exact fun _ _ _ => rfl
  | cons w ws ih =>
    obtain ⟨hw, hws⟩ := List.forall_mem_cons.mp h
    exact hw.bind ((ih hws).bind_some (f w :: ·))

theorem reads_readElements {α : Type} {read : ByteBuffer → Option (α × ByteBuffer)}
    {encode : α → List UInt8} {vs : List α} (h : ∀ v ∈ vs, Reads read (encode v) v) :
    Reads (readElements read vs.length) (vs.flatMap encode) vs := by
  have hvs := @reads_readElements_map α α read encode id vs h
  rwa [List.map_id] at hvs

theorem reads_readEntries {K V : Type} [LinearOrder K]
    {readKey : ByteBuffer → Option (K × ByteBuffer)}
    {readVal : ByteBuffer → Option (V × ByteBuffer)}
    {encodeKey : K → List UInt8} {encodeVal : V → List UInt8} {es : List (K × V)}
    (h : ∀ e ∈ es, Reads readKey (encodeKey e.1) e.1 ∧ Reads readVal (encodeVal e.2) e.2)
    (m : OrderedMap K V) :
    Reads (readEntries readKey readVal es.length m)
      (es.flatMap fun e => encodeKey e.1 ++ encodeVal e.2) (m.insertAll es) := by
  induction es generalizing m with
  | nil => exact fun _ _ _ => rfl
  | cons e es ih =>
    obtain ⟨⟨hk, hv⟩, hes⟩ := List.forall_mem_cons.mp h
    rw [List.flatMap_cons, List.append_assoc]
    exact hk.bind (hv.bind (ih hes (m.insert e.1 e.2)))

/-- The number of the elements, and then the elements. -/
theorem reads_count {α : Type} (next : ℕ → ByteBuffer → Option (α × ByteBuffer)) {n : ℕ}
    {bs : List UInt8} {v : α} (hn : n < 2 ^ 32) (h : Reads (next n) bs v) :
    Reads (fun buf => do
      let (vsize, buf) ← buf.readUint32
      next vsize.toNat buf) (uint32 (UInt32.ofNat n) ++ bs) v := by
  refine (reads_readUint32 (UInt32.ofNat n)).bind ?_
  dsimp only
  rwa [UInt32.toNat_ofNat', Nat.mod_eq_of_lt hn]

/-- **`operator>>` reads the value that was written**, for every type it compiles for. -/
theorem exists_read {t : ValueType} (h : t.Streams) :
    ∃ read', read t = some read' ∧ ∀ v, Plain t v → Reads read' (encode t v) v := by
  induction t with
  | uint8 => exact ⟨_, rfl, fun v _ => reads_readUint8 v⟩
  | uint16 => exact ⟨_, rfl, fun v _ => reads_readUint16 v⟩
  | uint32 => exact ⟨_, rfl, fun v _ => reads_readUint32 v⟩
  | uint64 => exact ⟨_, rfl, fun v _ => reads_readUint64 v⟩
  | int8 => exact ⟨_, rfl, fun v _ => (reads_readUint8 _).map UInt8.toInt8⟩
  | int16 => exact ⟨_, rfl, fun v _ => (reads_readUint16 _).map UInt16.toInt16⟩
  | int32 => exact ⟨_, rfl, fun v _ => (reads_readUint32 _).map UInt32.toInt32⟩
  | int64 => exact ⟨_, rfl, fun v _ => (reads_readUint64 _).map UInt64.toInt64⟩
  | string => exact ⟨_, rfl, fun v hplain => reads_readString hplain⟩
  | vector t ih | list t ih =>
    obtain ⟨read', hread, hreads⟩ := ih h
    refine ⟨_, by rw [read, hread]; rfl, fun vs hplain => ?_⟩
    obtain ⟨hlen, hvs⟩ := hplain
    exact reads_count (readElements read') hlen
      (reads_readElements fun v hv => hreads v (hvs v hv))
  | map k w ihk ihw =>
    obtain ⟨-, hstd, hk, hw⟩ := h
    obtain ⟨readKey, hreadKey, hkeys⟩ := ihk hk
    obtain ⟨readVal, hreadVal, hvals⟩ := ihw hw
    refine ⟨_, by rw [read, if_pos hstd, hreadKey, hreadVal]; rfl, fun m hplain => ?_⟩
    obtain ⟨hlen, hes⟩ := hplain
    have hentries := reads_readEntries
      (fun e he => ⟨hkeys e.1 (hes e he).1, hvals e.2 (hes e he).2⟩) .empty
    have hmap : OrderedMap.empty.insertAll m.entries = m := OrderedMap.insertAll_entries m
    exact reads_count (fun n => readEntries readKey readVal n .empty) hlen
      ((congrArg (Reads _ _) hmap).mp hentries)

/-- Where both operators compile, the type is one of those. -/
theorem streams_of_write_of_read {t : ValueType} (hwrite : (write t).isSome)
    (hread : (read t).isSome) : t.Streams := by
  induction t with
  | uint8 | uint16 | uint32 | uint64 | int8 | int16 | int32 | int64 | string => exact trivial
  | vector t ih | list t ih =>
    obtain ⟨w, hw⟩ := Option.isSome_iff_exists.mp hwrite
    obtain ⟨write', hwrite', -⟩ := Option.bind_eq_some_iff.mp hw
    obtain ⟨r, hr⟩ := Option.isSome_iff_exists.mp hread
    obtain ⟨read', hread', -⟩ := Option.bind_eq_some_iff.mp hr
    exact ih (Option.isSome_of_eq_some hwrite') (Option.isSome_of_eq_some hread')
  | map k v ihk ihv =>
    rw [write] at hwrite
    rw [read] at hread
    split at hwrite
    · cases hwrite
    next hkey =>
    split at hread
    next hstd =>
      obtain ⟨w, hw⟩ := Option.isSome_iff_exists.mp hwrite
      obtain ⟨writeKey, hwriteKey, hw⟩ := Option.bind_eq_some_iff.mp hw
      obtain ⟨writeVal, hwriteVal, -⟩ := Option.bind_eq_some_iff.mp hw
      obtain ⟨r, hr⟩ := Option.isSome_iff_exists.mp hread
      obtain ⟨readKey, hreadKey, hr⟩ := Option.bind_eq_some_iff.mp hr
      obtain ⟨readVal, hreadVal, -⟩ := Option.bind_eq_some_iff.mp hr
      exact ⟨Bool.eq_false_of_not_eq_true hkey, hstd,
        ihk (Option.isSome_of_eq_some hwriteKey) (Option.isSome_of_eq_some hreadKey),
        ihv (Option.isSome_of_eq_some hwriteVal) (Option.isSome_of_eq_some hreadVal)⟩
    · cases hread

/-! ### The round trip -/

theorem writes_writeValue {v : Value} (h : v.1.Streams) :
    Writes (writeValue v) (encode v.1 v.2) := by
  obtain ⟨write', hwrite, hwrites⟩ := exists_write h
  have hvalue : writeValue v = write' v.2 := by
    funext buf
    rw [writeValue, hwrite]
    rfl
  rw [hvalue]
  exact hwrites v.2

theorem reads_readAll {vs : List Value} (hstreams : ∀ v ∈ vs, v.1.Streams)
    (hplain : ∀ v ∈ vs, Plain v.1 v.2) :
    Reads (readAll (vs.map Sigma.fst)) (vs.flatMap fun v => encode v.1 v.2) vs := by
  induction vs with
  | nil => exact fun _ _ _ => rfl
  | cons v vs ih =>
    obtain ⟨hv, hvs⟩ := List.forall_mem_cons.mp hplain
    obtain ⟨ht, hts⟩ := List.forall_mem_cons.mp hstreams
    obtain ⟨read', hread, hreads⟩ := exists_read ht
    have hall : readAll ((v :: vs).map Sigma.fst) = (fun buf => do
        let (v', buf) ← read' buf
        let (vs', buf) ← readAll (vs.map Sigma.fst) buf
        some (⟨v.1, v'⟩ :: vs', buf)) := by
      funext buf
      rw [List.map_cons, readAll, hread]
      rfl
    rw [hall]
    exact (hreads v.2 hv).bind ((ih hts hvs).bind_some (v :: ·))

/-- What was written compiles. -/
theorem isSome_write_of_foldlM {vs : List Value} {buf buf' : ByteBuffer}
    (h : vs.foldlM (fun buf v => writeValue v buf) buf = some buf') :
    ∀ v ∈ vs, (write v.1).isSome := by
  induction vs generalizing buf with
  | nil => exact List.forall_mem_nil _
  | cons v vs ih =>
    rw [List.foldlM_cons] at h
    obtain ⟨mid, hmid, hrest⟩ := Option.bind_eq_some_iff.mp h
    obtain ⟨write', hwrite, -⟩ := Option.bind_eq_some_iff.mp hmid
    exact List.forall_mem_cons.mpr ⟨Option.isSome_of_eq_some hwrite, ih hrest⟩

/-- What was read compiles. -/
theorem isSome_read_of_readAll {ts : List ValueType} {vs : List Value} {buf buf' : ByteBuffer}
    (h : readAll ts buf = some (vs, buf')) : ∀ t ∈ ts, (read t).isSome := by
  induction ts generalizing buf buf' vs with
  | nil => exact List.forall_mem_nil _
  | cons t ts ih =>
    obtain ⟨read', hread, h⟩ := Option.bind_eq_some_iff.mp h
    obtain ⟨⟨v, mid⟩, -, h⟩ := Option.bind_eq_some_iff.mp h
    obtain ⟨⟨vs', buf''⟩, hrest, -⟩ := Option.bind_eq_some_iff.mp h
    exact List.forall_mem_cons.mpr ⟨Option.isSome_of_eq_some hread, ih hrest⟩

/-- Values are written, and read back to the last byte. -/
def RoundTrips (vs : List Value) : Prop :=
  ∃ buf buf', writeAll vs = some buf ∧ readAll (vs.map Sigma.fst) buf = some (vs, buf') ∧
    buf'.rpos = buf'.size ∧ buf'.storage = buf.storage

/-- **What is read back from a buffer is what was written to it**, to the last byte, whenever
the program that does both compiles. -/
theorem readAll_writeAll (vs : List Value) (hplain : ∀ v ∈ vs, Plain v.1 v.2)
    (hsize : (vs.flatMap fun v => encode v.1 v.2).length < sizeLimit) :
    RoundTrips vs ↔ ∀ v ∈ vs, v.1.Streams := by
  constructor
  · rintro ⟨buf, buf', hwrite, hread, -⟩ v hv
    exact streams_of_write_of_read (isSome_write_of_foldlM hwrite v hv)
      (isSome_read_of_readAll hread v.1 (List.mem_map_of_mem hv))
  intro hstreams
  have hwrites : Writes (fun buf => vs.foldlM (fun buf v => writeValue v buf) buf)
      (vs.flatMap fun v => encode v.1 v.2) :=
    writes_foldlM fun v hv => writes_writeValue (hstreams v hv)
  have hwrite : writeAll vs = some (ofBytes (vs.flatMap fun v => encode v.1 v.2)) :=
    hwrites [] (by rwa [List.length_nil, Nat.zero_add])
  refine ⟨_, _, hwrite, reads_readAll hstreams hplain _ [] ?_, ?_, rfl⟩
  · rw [List.append_nil]
    rfl
  · rw [rpos_skip, size_skip, size_ofBytes]
    exact Nat.zero_add _

/-- Values of several types, one container in the other. -/
def sampleValues : List Value :=
  [⟨.uint16, (513 : UInt16)⟩, ⟨.int8, (-2 : Int8)⟩, ⟨.string, ([97, 98] : List UInt8)⟩,
    ⟨.list .int32, ([7, -7] : List Int32)⟩,
    ⟨.map .uint8 (.vector .string),
      ⟨[((1 : UInt8), ([[97], []] : List (List UInt8))), ((2 : UInt8), [])],
      by decide⟩⟩, ⟨.uint64, (2 ^ 40 : UInt64)⟩]

theorem readAll_writeAll_sampleValues : RoundTrips sampleValues :=
  (readAll_writeAll sampleValues (by decide) (by decide)).mpr (by decide)

/-- A map from one integer to another is written, but what would read it does not compile. -/
theorem not_roundTrips_uint8_map : ¬ RoundTrips
    [⟨.map .uint8 .uint8, ⟨[((1 : UInt8), (2 : UInt8))], List.pairwise_singleton _ _⟩⟩] := by
  rintro ⟨buf, buf', -, hread, -⟩
  have hsome := isSome_read_of_readAll hread (.map .uint8 .uint8) List.mem_cons_self
  cases hsome

end ByteBuffer

end Morfeusz
