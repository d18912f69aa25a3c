import Morfeusz.Database.Statements
import Morfeusz.Proxyd.Appearance

/-!
# From a request to the server

A request keeps its parameters until a worker has a connection for it: every `add_*` puts
its value into a union and a tag beside it, and `execute` reads the union by the tag and
calls a setter of the prepared statement. Of the unsigned numbers two setters are left,
`setUint32` and `setUint64`.

Neither driver tells its library that these are unsigned. `SQLitePreparedStatement` casts
them to signed ones, and `MySQLPreparedStatement` leaves the flag `is_unsigned` of its
bindings at the zero it was cleared with. So a number arrives as it was added exactly where
its highest bit is not set (`Morfeusz.Proxyd.unsigned_arrives_iff`); and the highest byte of
the looks of a character, which is the colour of its hair, is chosen by the client.
-/

namespace Morfeusz.SQL

open ByteNumbers

/-! ### The operation -/

/-- `PreparedStatementValueType`. -/
inductive PreparedStatementValueType
  | bool
  | u8
  | u16
  | u32
  | u64
  | float
  | string
  deriving DecidableEq

/-- `PreparedStatementData`, with the bytes of its union. -/
structure OperationData where
  data : Bytes 8
  type : PreparedStatementValueType
  str : List UInt8

namespace OperationData

/-- What `resize` fills up with. -/
def zero : OperationData := { data := Bytes.zero 8, type := .bool, str := [] }

/-- A member of the union is assigned; the bytes behind it stay. -/
def assign (d : OperationData) (width n : ℕ) : Bytes 8 :=
  ⟨(leBytes width n ++ d.data.val.drop width).take 8, by
    rw [List.length_take, List.length_append, length_leBytes, List.length_drop, d.data.length]
    omega⟩

/-- A member of the union is read. -/
def member (data : Bytes 8) (width : ℕ) : ℕ := leVal (data.val.take width)

theorem member_assign (d : OperationData) {width : ℕ} (h : width ≤ 8) (n : ℕ) :
    member (d.assign width n) width = n % 256 ^ width := by
  rw [member, assign, List.take_take, min_eq_left h, List.take_left' (length_leBytes width n),
    leVal_leBytes]

/-- The setter that `execute` calls, and its value; `toDouble` converts a float. -/
def parameter (toDouble : UInt32 → UInt64) (d : OperationData) : Parameter :=
  match d.type with
  | .bool => .bool (decide (member d.data 1 ≠ 0))
  | .u8 | .u16 | .u32 => .uint32 (UInt32.ofNat (member d.data 4))
  | .u64 => .uint64 (UInt64.ofNat (member d.data 8))
  | .float => .double (toDouble (UInt32.ofNat (member d.data 4)))
  | .string => .string d.str

end OperationData

/-- The `add_*` calls, with their values. -/
inductive Added
  | bool (b : Bool)
  | uint8 (v : UInt8)
  | uint16 (v : UInt16)
  | uint32 (v : UInt32)
  | uint64 (v : UInt64)
  | float (bits : UInt32)
  | string (str : List UInt8)
  deriving DecidableEq

/-- The setter of the type that was added, with the value. -/
def Added.parameter (toDouble : UInt32 → UInt64) : Added → Parameter
  | .bool b => .bool b
  | .uint8 v => .uint32 v.toUInt32
  | .uint16 v => .uint32 v.toUInt32
  | .uint32 v => .uint32 v
  | .uint64 v => .uint64 v
  | .float bits => .double (toDouble bits)
  | .string str => .string (cStr str)

/-- The unsigned numbers among them that the setters tell apart. -/
def Added.unsigned? : Added → Option Parameter
  | .uint32 v => some (.uint32 v)
  | .uint64 v => some (.uint64 v)
  | _ => none

/-- `SqlOperationBase`: the member `statement_data`. -/
structure SqlOperationBase where
  statementData : List OperationData

namespace SqlOperationBase

def init : SqlOperationBase := { statementData := [] }

/-- The element `--index` is. -/
def slot (index : UInt8) : ℕ := (index - 1).toNat

/-- What the `add_*` calls share: the vector grows to the index, and the element before it is
changed. One there is not is written to nowhere. -/
def addData (op : SqlOperationBase) (index : UInt8) (change : OperationData → OperationData) :
    Option SqlOperationBase :=
  let grown := op.statementData ++
    List.replicate (index.toNat - op.statementData.length) OperationData.zero
  if slot index < grown.length then some { statementData := grown.modify (slot index) change }
  else none

def addBool (op : SqlOperationBase) (index : UInt8) (value : Bool) :=
  op.addData index fun d => { d with data := d.assign 1 value.toNat, type := .bool }

def addUint8 (op : SqlOperationBase) (index : UInt8) (value : UInt8) :=
  op.addData index fun d => { d with data := d.assign 4 value.toNat, type := .u8 }

def addUint16 (op : SqlOperationBase) (index : UInt8) (value : UInt16) :=
  op.addData index fun d => { d with data := d.assign 4 value.toNat, type := .u16 }

def addUint32 (op : SqlOperationBase) (index : UInt8) (value : UInt32) :=
  op.addData index fun d => { d with data := d.assign 4 value.toNat, type := .u32 }

def addUint64 (op : SqlOperationBase) (index : UInt8) (value : UInt64) :=
  op.addData index fun d => { d with data := d.assign 8 value.toNat, type := .u64 }

def addFloat (op : SqlOperationBase) (index : UInt8) (bits : UInt32) :=
  op.addData index fun d => { d with data := d.assign 4 bits.toNat, type := .float }

/-- `add_string` appends to the text there is. -/
def addString (op : SqlOperationBase) (index : UInt8) (value : List UInt8) :=
  op.addData index fun d => { d with str := d.str ++ cStr value, type := .string }

/-- An `add_*` call. -/
def add (op : SqlOperationBase) (index : UInt8) : Added → Option SqlOperationBase
  | .bool b => op.addBool index b
  | .uint8 v => op.addUint8 index v
  | .uint16 v => op.addUint16 index v
  | .uint32 v => op.addUint32 index v
  | .uint64 v => op.addUint64 index v
  | .float bits => op.addFloat index bits
  | .string str => op.addString index str

/-- The operation a sequence of calls makes. -/
def ofAdds (adds : List (UInt8 × Added)) : Option SqlOperationBase :=
  adds.foldlM (fun op a => op.add a.1 a.2) init

/-- The value added last for an element. -/
def lastAdded (i : ℕ) (adds : List (UInt8 × Added)) : Option Added :=
  ((adds.filter fun a => slot a.1 = i).getLast?).map Prod.snd

/-- Four bytes that are assigned are read again. -/
theorem ofNat_member_assign (d : OperationData) {n : ℕ} (h : n < 2 ^ 32) :
    (UInt32.ofNat (OperationData.member (d.assign 4 n) 4)).toNat = n := by
  rw [OperationData.member_assign d (by decide), Nat.mod_eq_of_lt (h.trans_le (by decide))]
  exact UInt32.toNat_ofNat_of_lt' h

/-- **Every call changes one element**, and what it leaves there is set by the setter of its
type: a text that is the first one of its element, and any other value. -/
theorem add_eq (op : SqlOperationBase) (index : UInt8) (a : Added) :
    ∃ change, op.add index a = op.addData index change ∧
      ∀ toDouble d, (∀ str, a = .string str → d.str = []) →
        (change d).parameter toDouble = a.parameter toDouble := by
  cases a with
  | bool b =>
    refine ⟨_, rfl, fun toDouble d _ => congrArg Parameter.bool ?_⟩
    rw [OperationData.member_assign d (by decide)]
    cases b <;> rfl
  | uint8 v =>
    refine ⟨_, rfl, fun toDouble d _ => congrArg Parameter.uint32 (UInt32.toNat_inj.mp ?_)⟩
    rw [ofNat_member_assign d (v.toNat_lt.trans (by decide)), UInt8.toNat_toUInt32]
  | uint16 v =>
    refine ⟨_, rfl, fun toDouble d _ => congrArg Parameter.uint32 (UInt32.toNat_inj.mp ?_)⟩
    rw [ofNat_member_assign d (v.toNat_lt.trans (by decide)), UInt16.toNat_toUInt32]
  | uint32 v =>
    refine ⟨_, rfl, fun toDouble d _ => congrArg Parameter.uint32 (UInt32.toNat_inj.mp ?_)⟩
    exact ofNat_member_assign d v.toNat_lt
  | uint64 v =>
    refine ⟨_, rfl, fun toDouble d _ => congrArg Parameter.uint64 ?_⟩
    have hlt : v.toNat < 256 ^ 8 := v.toNat_lt
    rw [OperationData.member_assign d le_rfl, Nat.mod_eq_of_lt hlt, UInt64.ofNat_toNat]
  | float bits =>
    refine ⟨_, rfl, fun toDouble d _ => congrArg (fun x => Parameter.double (toDouble x)) ?_⟩
    exact UInt32.toNat_inj.mp (ofNat_member_assign d bits.toNat_lt)
  | string str =>
    refine ⟨_, rfl, fun toDouble d hempty => congrArg Parameter.string ?_⟩
    rw [hempty str rfl, List.nil_append]

/-- Of an unsigned number that the setters tell apart the setter is the one of its type. -/
theorem parameter_of_unsigned? {a : Added} {p : Parameter} (h : a.unsigned? = some p)
    (toDouble : UInt32 → UInt64) :
    a.parameter toDouble = p ∧ ∀ str, a ≠ .string str := by
  cases a <;> cases h <;> exact ⟨rfl, nofun⟩

variable {op op' : SqlOperationBase} {index : UInt8} {change : OperationData → OperationData}

/-- What a call does to the elements. -/
theorem addData_some (h : op.addData index change = some op')
    (hlen : op.statementData.length ≤ 255) :
    op'.statementData.length ≤ 255 ∧
      (∃ d, op'.statementData[slot index]? = some (change d)) ∧
      ∀ i d, i ≠ slot index → op.statementData[i]? = some d → op'.statementData[i]? = some d := by
  obtain ⟨hlt, heq⟩ := Option.ite_none_right_eq_some.mp h
  obtain rfl := Option.some.inj heq
  refine ⟨?_, ?_, ?_⟩
  · have := index.toNat_lt
    rw [List.length_modify, List.length_append, List.length_replicate]
    omega
  · exact ⟨_, by rw [List.getElem?_modify_eq, List.getElem?_eq_getElem hlt]; rfl⟩
  · intro i d hi hd
    dsimp only
    rw [List.getElem?_modify_ne _ _ (Ne.symm hi),
      List.getElem?_append_left (List.getElem?_eq_some_iff.mp hd).1, hd]

/-- **The union and its tag hold the number that was added last.** -/
theorem parameter_of_lastAdded {adds : List (UInt8 × Added)} (h : ofAdds adds = some op)
    (toDouble : UInt32 → UInt64) :
    op.statementData.length ≤ 255 ∧ ∀ i a p, lastAdded i adds = some a → a.unsigned? = some p →
      ∃ d, op.statementData[i]? = some d ∧ d.parameter toDouble = p := by
  induction adds using List.reverseRecOn generalizing op with
  | nil =>
    obtain rfl := Option.some.inj h
    exact ⟨Nat.zero_le _, fun i a p ha => by cases ha⟩
  | append_singleton adds a ih =>
    rw [ofAdds, List.foldlM_append, Option.bind_eq_bind, Option.bind_eq_some_iff] at h
    obtain ⟨op₀, h₀, hadd⟩ := h
    obtain ⟨hlen₀, hlast₀⟩ := ih h₀
    have hadd : op₀.add a.1 a.2 = some op := by simpa using hadd
    obtain ⟨change, hchange, hvalue⟩ := op₀.add_eq a.1 a.2
    obtain ⟨hlen, ⟨d, hd⟩, hother⟩ := addData_some (hchange.symm.trans hadd) hlen₀
    refine ⟨hlen, fun i b p hb hp => ?_⟩
    rw [lastAdded, List.filter_append] at hb
    by_cases hi : slot a.1 = i
    · -- the element was changed last
      subst hi
      rw [List.filter_cons_of_pos (by simp), List.filter_nil, List.getLast?_concat] at hb
      obtain rfl := Option.some.inj hb
      obtain ⟨hparam, hnot⟩ := parameter_of_unsigned? hp toDouble
      exact ⟨_, hd, (hvalue toDouble d fun str hstr => absurd hstr (hnot str)).trans hparam⟩
    · rw [List.filter_cons_of_neg (by simpa using hi), List.filter_nil, List.append_nil] at hb
      obtain ⟨d', hd', hparam⟩ := hlast₀ i b p hb hp
      exact ⟨d', hother i d' (Ne.symm hi) hd', hparam⟩

end SqlOperationBase

/-! ### The setters that `execute` calls -/

/-- The loop of `execute` over the elements from an index on: whether a setter throws, and the
statement then. -/
def bindAll {σ : Type} (set : σ → UInt8 → Parameter → Bool × σ) : σ → ℕ → List Parameter → Bool × σ
  | s, _, [] => (false, s)
  | s, i, p :: ps =>
    match set s (UInt8.ofNat (i + 1)) p with
    | (true, s) => (true, s)
    | (false, s) => bindAll set s (i + 1) ps

namespace SqlOperationBase

variable (toDouble : UInt32 → UInt64)

/-- The parameters `execute` goes through. -/
def parameters (op : SqlOperationBase) : List Parameter :=
  op.statementData.map (OperationData.parameter toDouble)

/-- The part of `execute` that sets the parameters, with SQLite. -/
def bindSQLite {n : ℕ} {lib : SQLiteStatement n} (op : SqlOperationBase)
    (s : SQLitePreparedStatement lib) : Bool × SQLitePreparedStatement lib :=
  bindAll SQLitePreparedStatement.set s 0 (op.parameters toDouble)

/-- The same with MySQL. -/
def bindMySQL (op : SqlOperationBase) (s : MySQLPreparedStatement) :
    Bool × MySQLPreparedStatement :=
  bindAll MySQLPreparedStatement.set s 0 (op.parameters toDouble)

end SqlOperationBase

theorem bindAll_cons {σ : Type} {set : σ → UInt8 → Parameter → Bool × σ} {s s' : σ} {i : ℕ}
    {p : Parameter} {ps : List Parameter} (h : bindAll set s i (p :: ps) = (false, s')) :
    ∃ t, set s (UInt8.ofNat (i + 1)) p = (false, t) ∧ bindAll set t (i + 1) ps = (false, s') := by
  rw [bindAll] at h
  rcases hset : set s (UInt8.ofNat (i + 1)) p with ⟨_ | _, t⟩ <;> rw [hset] at h
  · exact ⟨t, rfl, h⟩
  · cases h

section SQLite

variable {n : ℕ} {lib : SQLiteStatement n} {s s' : SQLitePreparedStatement lib} {index : UInt8}

/-- A setter that does not throw has bound its argument. -/
theorem bindings_of_setArgument {arg : SQLiteArgument} (h : s.setArgument index arg = (false, s')) :
    1 ≤ index.toNat ∧ index.toNat ≤ n ∧ ∃ v, arg.value lib.limit = some v ∧
      lib.bindings s'.stmt = (lib.bindings s.stmt).set (index.toNat - 1) v := by
  rw [SQLitePreparedStatement.setArgument] at h
  split at h
  · next hvalid =>
    have hvalid : ¬(index = 0 ∨ n < index.toNat) := by
      simpa [SQLitePreparedStatement.checkValidity] using hvalid
    rw [← UInt8.toNat_inj, UInt8.toNat_zero] at hvalid
    have h1 : 1 ≤ index.toNat := by omega
    have hle : index.toNat ≤ n := by omega
    obtain ⟨hbind, hs'⟩ := Prod.mk.inj h
    refine ⟨h1, hle, ?_⟩
    rcases lib.bind_cases s.stmt h1 hle arg with ⟨-, v, hv, hbound⟩ | ⟨hrefused, -⟩
    · exact ⟨v, hv, by rw [← hs']; exact hbound⟩
    · have hfails := (lib.bind_refused s.stmt index.toNat arg hrefused).1
      rw [hfails] at hbind
      cases hbind
  · cases h

/-- **What SQLite has bound after the loop**: the argument of each setter that was called, and
before the index it started from what there was. -/
theorem bindings_of_bindAll {i : ℕ} {ps : List Parameter}
    (h : bindAll SQLitePreparedStatement.set s i ps = (false, s')) (hlen : i + ps.length ≤ 255)
    (hbindings : (lib.bindings s.stmt).length = n) :
    (∀ j < i, (lib.bindings s'.stmt)[j]? = (lib.bindings s.stmt)[j]?) ∧
      ∀ j p arg, ps[j]? = some p →
        (∀ (t : SQLitePreparedStatement lib) index, t.set index p = t.setArgument index arg) →
        ∃ v, arg.value lib.limit = some v ∧ (lib.bindings s'.stmt)[i + j]? = some v := by
  induction ps generalizing s i with
  | nil =>
    obtain ⟨-, rfl⟩ := Prod.mk.inj h
    exact ⟨fun _ _ => rfl, fun j p arg hp => by cases hp⟩
  | cons p ps ih =>
    obtain ⟨t, hset, hrest⟩ := bindAll_cons h
    rw [List.length_cons] at hlen
    obtain ⟨arg, harg, -⟩ := s.set_eq (UInt8.ofNat (i + 1)) p
    obtain ⟨-, hle, v, hv, hbound⟩ := bindings_of_setArgument (harg.symm.trans hset)
    have hindex : (UInt8.ofNat (i + 1)).toNat = i + 1 := UInt8.toNat_ofNat_of_lt' (by
      change i + 1 < 256
      omega)
    rw [hindex, Nat.add_sub_cancel] at hbound
    rw [hindex] at hle
    have hlen' : (lib.bindings t.stmt).length = n := by rw [hbound, List.length_set, hbindings]
    obtain ⟨hkept, hlater⟩ := ih hrest (by omega) hlen'
    refine ⟨fun j hj => ?_, fun j q arg' hq harg' => ?_⟩
    · rw [hkept j (by omega), hbound, List.getElem?_set_ne (by omega)]
    · rcases j with _ | j
      · -- the setter that was just called; the later ones leave what it has bound
        obtain rfl := Option.some.inj hq
        obtain ⟨-, -, v', hv', hbound'⟩ := bindings_of_setArgument ((harg' s _).symm.trans hset)
        rw [hindex, Nat.add_sub_cancel] at hbound'
        refine ⟨v', hv', ?_⟩
        rw [Nat.add_zero, hkept i (Nat.lt_succ_self i), hbound', List.getElem?_set_self (by omega)]
      · obtain ⟨v', hv', hget⟩ := hlater j q arg' hq harg'
        exact ⟨v', hv', by rw [← hget]; congr 1; omega⟩

end SQLite

section MySQL

variable {s s' : MySQLPreparedStatement} {index : UInt8}

/-- A setter that does not throw has made its binding. -/
theorem bind_of_setBind {f : MySQLBind → MySQLBind} (h : s.setBind index f = (false, s')) :
    1 ≤ index.toNat ∧ index.toNat ≤ s.bind.length ∧
      s'.bind = s.bind.modify (index.toNat - 1) f := by
  rw [MySQLPreparedStatement.setBind] at h
  split at h
  · next hvalid =>
    have hvalid : ¬(index = 0 ∨ s.bind.length < index.toNat) := by
      simpa [MySQLPreparedStatement.checkValidity] using hvalid
    rw [← UInt8.toNat_inj, UInt8.toNat_zero] at hvalid
    exact ⟨by omega, by omega, by rw [← (Prod.mk.inj h).2]⟩
  · cases h

theorem setBind_of_valid {f : MySQLBind → MySQLBind} (h1 : 1 ≤ index.toNat)
    (hle : index.toNat ≤ s.bind.length) : ∃ t, s.setBind index f = (false, t) := by
  have hvalid : ¬(index = 0 ∨ s.bind.length < index.toNat) := by
    rw [← UInt8.toNat_inj, UInt8.toNat_zero]
    omega
  rw [MySQLPreparedStatement.setBind, MySQLPreparedStatement.checkValidity, decide_eq_false hvalid]
  exact ⟨_, rfl⟩

/-- **The bindings of MySQL after the loop.** -/
theorem bind_of_bindAll {i : ℕ} {ps : List Parameter}
    (h : bindAll MySQLPreparedStatement.set s i ps = (false, s')) (hlen : i + ps.length ≤ 255)
    (hsigned : s.Signed) :
    (∀ j < i, s'.bind[j]? = s.bind[j]?) ∧
      ∀ j p, ps[j]? = some p → ∃ b, s'.bind[i + j]? = some b ∧ b.value = some p.signed := by
  induction ps generalizing s i with
  | nil =>
    obtain ⟨-, rfl⟩ := Prod.mk.inj h
    exact ⟨fun _ _ => rfl, fun j p hp => by cases hp⟩
  | cons p ps ih =>
    obtain ⟨t, hset, hrest⟩ := bindAll_cons h
    rw [List.length_cons] at hlen
    obtain ⟨f, hf, hparam⟩ := s.set_eq (UInt8.ofNat (i + 1)) p
    obtain ⟨-, hle, hbind⟩ := bind_of_setBind (hf.symm.trans hset)
    have hsigned' : t.Signed := by
      have := hsigned.set (UInt8.ofNat (i + 1)) p
      rwa [hset] at this
    have hindex : (UInt8.ofNat (i + 1)).toNat = i + 1 := UInt8.toNat_ofNat_of_lt' (by
      change i + 1 < 256
      omega)
    rw [hindex, Nat.add_sub_cancel] at hbind
    rw [hindex] at hle
    obtain ⟨hkept, hlater⟩ := ih hrest (by omega) hsigned'
    refine ⟨fun j hj => ?_, fun j q hq => ?_⟩
    · rw [hkept j (by omega), hbind, List.getElem?_modify_ne _ _ (by omega)]
    · rcases j with _ | j
      · obtain rfl := Option.some.inj hq
        refine ⟨f s.bind[i], ?_, (hparam _).2 (hsigned _ (List.getElem_mem hle))⟩
        rw [Nat.add_zero, hkept i (Nat.lt_succ_self i), hbind, List.getElem?_modify_eq,
          List.getElem?_eq_getElem hle]
        rfl
      · obtain ⟨b, hb, hbvalue⟩ := hlater j q hq
        exact ⟨b, by rw [← hb]; congr 1; omega, hbvalue⟩

/-- A statement with enough parameters takes them. -/
theorem exists_bindAll_mysql {i : ℕ} {ps : List Parameter} (hlen : i + ps.length ≤ 255)
    (hle : i + ps.length ≤ s.bind.length) :
    ∃ s', bindAll MySQLPreparedStatement.set s i ps = (false, s') := by
  induction ps generalizing s i with
  | nil => exact ⟨s, rfl⟩
  | cons p ps ih =>
    rw [List.length_cons] at hlen hle
    have hindex : (UInt8.ofNat (i + 1)).toNat = i + 1 := UInt8.toNat_ofNat_of_lt' (by
      change i + 1 < 256
      omega)
    obtain ⟨f, hf, -⟩ := s.set_eq (UInt8.ofNat (i + 1)) p
    obtain ⟨t, ht⟩ := @setBind_of_valid s (UInt8.ofNat (i + 1)) f (by omega) (by omega)
    obtain ⟨-, -, hbind⟩ := bind_of_setBind ht
    obtain ⟨s', hs'⟩ := ih (s := t) (i := i + 1) (by omega) (by
      rw [hbind, List.length_modify]
      omega)
    refine ⟨s', ?_⟩
    rw [bindAll, hf, ht]
    exact hs'

end MySQL

/-! ### Arriving -/

/-- The number of the element `i` arrives: whichever driver the worker has, and whatever state
its statement is in, if the setters of the loop do not throw then that number is the value of
the binding. The flags of a statement of MySQL are as its constructor left them. -/
structure SqlOperationBase.ArrivesAs (op : SqlOperationBase) (toDouble : UInt32 → UInt64) (i : ℕ)
    (n : ℕ) : Prop where
  mysql : ∀ s s' : MySQLPreparedStatement, s.Signed → op.bindMySQL toDouble s = (false, s') →
    ∃ b, s'.bind[i]? = some b ∧ b.value = some (.integer n)
  sqlite : ∀ {k : ℕ} (lib : SQLiteStatement k) (s s' : SQLitePreparedStatement lib),
    (lib.bindings s.stmt).length = k → op.bindSQLite toDouble s = (false, s') →
      (lib.bindings s'.stmt)[i]? = some (.integer n)

variable {op : SqlOperationBase} {toDouble : UInt32 → UInt64} {adds : List (UInt8 × Added)} {i : ℕ}

/-- An unsigned number that was added last arrives if and only if its signed reading is it. -/
theorem arrivesAs_iff {a : Added} {p : Parameter} {arg : SQLiteArgument} {n : ℕ} {z : ℤ}
    (h : SqlOperationBase.ofAdds adds = some op)
    (ha : SqlOperationBase.lastAdded i adds = some a) (hp : a.unsigned? = some p)
    (hsigned : p.signed = .integer z)
    (harg : ∀ {k : ℕ} {lib : SQLiteStatement k} (t : SQLitePreparedStatement lib) index,
      t.set index p = t.setArgument index arg)
    (hvalue : ∀ limit, arg.value limit = some (.integer z)) :
    op.ArrivesAs toDouble i n ↔ z = n := by
  obtain ⟨hlen, hlast⟩ := SqlOperationBase.parameter_of_lastAdded h toDouble
  obtain ⟨d, hd, hparam⟩ := hlast i a p ha hp
  have hget : (op.parameters toDouble)[i]? = some p := by
    rw [SqlOperationBase.parameters, List.getElem?_map, hd, ← hparam]
    rfl
  have hlen' : 0 + (op.parameters toDouble).length ≤ 255 := by
    rw [SqlOperationBase.parameters, List.length_map, Nat.zero_add]
    exact hlen
  have hmysql (s s' : MySQLPreparedStatement) (hflags : s.Signed)
      (hs : op.bindMySQL toDouble s = (false, s')) :
      ∃ b, s'.bind[i]? = some b ∧ b.value = some (.integer z) := by
    obtain ⟨b, hb, hbvalue⟩ := (bind_of_bindAll hs hlen' hflags).2 i p hget
    rw [hsigned] at hbvalue
    exact ⟨b, by rwa [Nat.zero_add] at hb, hbvalue⟩
  constructor
  · intro harrives
    -- a statement with that many parameters takes them all
    obtain ⟨s', hs'⟩ := exists_bindAll_mysql
      (s := MySQLPreparedStatement.init (op.parameters toDouble).length) hlen' (by
        rw [MySQLPreparedStatement.init, List.length_replicate, Nat.zero_add])
    have hflags := MySQLPreparedStatement.signed_init (op.parameters toDouble).length
    obtain ⟨b, hb, hz⟩ := hmysql _ s' hflags hs'
    obtain ⟨b', hb', hn⟩ := harrives.mysql _ s' hflags hs'
    obtain rfl := Option.some.inj (hb.symm.trans hb')
    exact EngineValue.integer.inj (Option.some.inj (hz.symm.trans hn))
  · rintro rfl
    refine ⟨hmysql, fun lib s s' hbindings hs => ?_⟩
    obtain ⟨v, hv, hbound⟩ := (bindings_of_bindAll hs hlen' hbindings).2 i p arg hget harg
    rw [hvalue] at hv
    rw [Nat.zero_add] at hbound
    rw [hbound, Option.some.inj hv]

theorem arrivesAs_uint32_iff {v : UInt32} (h : SqlOperationBase.ofAdds adds = some op)
    (hv : SqlOperationBase.lastAdded i adds = some (.uint32 v)) :
    op.ArrivesAs toDouble i v.toNat ↔ v.toNat < 2 ^ 31 := by
  rw [@arrivesAs_iff op toDouble adds i _ _ (.int v.toInt32) _ _ h hv rfl rfl (fun _ _ => rfl)
    fun _ => rfl]
  exact toInt32_toInt_eq_iff v

theorem arrivesAs_uint64_iff {v : UInt64} (h : SqlOperationBase.ofAdds adds = some op)
    (hv : SqlOperationBase.lastAdded i adds = some (.uint64 v)) :
    op.ArrivesAs toDouble i v.toNat ↔ v.toNat < 2 ^ 63 := by
  rw [@arrivesAs_iff op toDouble adds i _ _ (.int64 v.toInt64) _ _ h hv rfl rfl (fun _ _ => rfl)
    fun _ => rfl]
  exact toInt64_toInt_eq_iff v

/-- Calls with indices that are not zero make an operation. -/
theorem SqlOperationBase.exists_ofAdds (h : ∀ a ∈ adds, a.1 ≠ 0) :
    ∃ op, SqlOperationBase.ofAdds adds = some op := by
  induction adds using List.reverseRecOn with
  | nil => exact ⟨_, rfl⟩
  | append_singleton adds a ih =>
    obtain ⟨op, hop⟩ := ih fun b hb => h b (List.mem_append_left _ hb)
    obtain ⟨change, hchange, -⟩ := op.add_eq a.1 a.2
    have hne := h a (List.mem_append_right _ List.mem_cons_self)
    rw [ne_eq, ← UInt8.toNat_inj, UInt8.toNat_zero] at hne
    have hslot : slot a.1 < (op.statementData ++
        List.replicate (a.1.toNat - op.statementData.length) OperationData.zero).length := by
      have hpred : (a.1 - 1).toNat = a.1.toNat - 1 := by
        rw [UInt8.toNat_sub_of_le _ _ (by rw [UInt8.le_iff_toNat_le, UInt8.toNat_one]; omega)]
        rfl
      rw [List.length_append, List.length_replicate, slot, hpred]
      omega
    obtain ⟨op', hop'⟩ : ∃ op', op.add a.1 a.2 = some op' := ⟨_, hchange.trans (if_pos hslot)⟩
    refine ⟨op', ?_⟩
    rw [ofAdds, List.foldlM_append, ← ofAdds, hop]
    simpa using hop'

end Morfeusz.SQL

namespace Morfeusz.Proxyd

open SQL SqlOperationBase

/-- The `add_*` call of a parameter. -/
def addedOf : PreparedStatementData → Added
  | .uint8 v => .uint8 v
  | .uint32 v => .uint32 v
  | .uint64 v => .uint64 v
  | .float bits => .float bits
  | .string str => .string str

/-- The `add_*` calls of a request. -/
def addsOf (req : ProxydRequest) : List (UInt8 × Added) :=
  req.params.map fun p => (UInt8.ofNat p.1, addedOf p.2)

/-- **When an unsigned number arrives.** A `uint32` that was added last for its element arrives
at the server, with either driver, if and only if it is below 2^31, and a `uint64` if and only
if it is below 2^63. So the looks of a character are inserted as they were packed if and only
if the colour of its hair is below 128. -/
theorem unsigned_arrives_iff (toDouble : UInt32 → UInt64) :
    (∀ adds op, ofAdds adds = some op →
      (∀ i v, lastAdded i adds = some (.uint32 v) →
        (op.ArrivesAs toDouble i v.toNat ↔ v.toNat < 2 ^ 31)) ∧
      ∀ i v, lastAdded i adds = some (.uint64 v) →
        (op.ArrivesAs toDouble i v.toNat ↔ v.toNat < 2 ^ 63)) ∧
    ∀ env guid account name race pclass gender skin face hairStyle hairColor facialHair,
      ∃ op, ofAdds (addsOf (Conn.playerCreate env guid account name race pclass gender skin face
          hairStyle hairColor facialHair)) = some op ∧
        (op.ArrivesAs toDouble 7 (packed skin face hairStyle hairColor).toNat ↔
          hairColor.toNat < 128) := by
  refine ⟨fun adds op h => ⟨fun i v hv => arrivesAs_uint32_iff h hv,
    fun i v hv => arrivesAs_uint64_iff h hv⟩, ?_⟩
  intro env guid account name race pclass gender skin face hairStyle hairColor facialHair
  obtain ⟨op, hop⟩ := @exists_ofAdds (addsOf (Conn.playerCreate env guid account name race
    pclass gender skin face hairStyle hairColor facialHair)) (by
      simp [addsOf, Conn.playerCreate, addUint32, addUint8, addString, addFloat])
  refine ⟨op, hop, ?_⟩
  have hlast : lastAdded 7 (addsOf (Conn.playerCreate env guid account name race pclass gender skin
      face hairStyle hairColor facialHair)) =
      some (.uint32 (packed skin face hairStyle hairColor)) := by
    simp [lastAdded, addsOf, Conn.playerCreate, addUint32, addUint8, addString, addFloat, slot,
      addedOf, packed]
  rw [arrivesAs_uint32_iff hop hlast, toNat_packed]
  have := skin.toNat_lt
  have := face.toNat_lt
  have := hairStyle.toNat_lt
  omega

/-- The largest numbers that arrive. -/
theorem unsigned_arrives_iff_sample :
    ∃ op, ofAdds [(1, .uint32 0x7fffffff), (2, .uint64 0x7fffffffffffffff)] = some op ∧
      op.ArrivesAs UInt32.toUInt64 0 0x7fffffff ∧
      op.ArrivesAs UInt32.toUInt64 1 0x7fffffffffffffff := by
  obtain ⟨op, hop⟩ :=
    @exists_ofAdds [(1, .uint32 0x7fffffff), (2, .uint64 0x7fffffffffffffff)] (by decide)
  obtain ⟨h32, h64⟩ := (unsigned_arrives_iff UInt32.toUInt64).1 _ op hop
  exact ⟨op, hop, (h32 0 0x7fffffff (by decide)).mpr (by decide),
    (h64 1 0x7fffffffffffffff (by decide)).mpr (by decide)⟩

/-- **The colour 255 makes a negative number of the looks**: they do not arrive. -/
theorem playerBytes_not_arrived :
    ∃ op, ofAdds [(1, .uint32 (packed 1 2 3 255))] = some op ∧
      lastAdded 0 [(1, .uint32 (packed 1 2 3 255))] = some (.uint32 (packed 1 2 3 255)) ∧
      ¬op.ArrivesAs UInt32.toUInt64 0 (packed 1 2 3 255).toNat := by
  obtain ⟨op, hop⟩ := @exists_ofAdds [(1, .uint32 (packed 1 2 3 255))] (by decide)
  refine ⟨op, hop, by decide, ?_⟩
  rw [arrivesAs_uint32_iff hop (by decide)]
  decide

end Morfeusz.Proxyd
