import Morfeusz.Proxyd.Waiting

/-!
# What one step of a proxy connection can do

A packet never touches the account, the cipher or the pointer of a connection; what
it leaves behind is packets to the client and operations for the database. Those of
the two packets about characters are all for the account that is stored
(`Morfeusz.Proxyd.Trans.input`), and so are those of a handler that goes on from an answer
(`Morfeusz.Proxyd.Conn.resume_adds`). The account is written by its observer alone, and the
cipher gets its key where the digest was right. `Morfeusz.Proxyd.ProxySocket.trans_of_step`
says that nothing else can happen to a socket.
-/

namespace Morfeusz.Proxyd

open ByteNumbers ByteBuffer

variable {sha : Sha1} {hmac : Hmac} {env : Env}

/-! ### Operations for an account -/

/-- A request is for an account: the account it names, if it names one, is this one. -/
def IsFor (id : UInt32) (op : ProxydRequest) : Prop :=
  match op.statement with
  | .getChar => op.params = [addUint64 1 id.toUInt64]
  | .getNumchar | .getCharCount => op.params = [addUint32 1 id]
  | .incrNumchar => op.params[1]? = some (addUint32 2 id)
  | .insChar => op.params[1]? = some (addUint32 2 id)
  | .getPlrGuidFromName => True
  | .getAcct => False

/-- The same for an operation: all of its requests are. -/
def SqlOperation.IsFor (id : UInt32) : SqlOperation → Prop
  | request op => Proxyd.IsFor id op
  | transaction ops => ∀ op ∈ ops, Proxyd.IsFor id op

/-! ### What the parts of a handler do -/

namespace Conn

variable {c c' : Conn} {pkt : ClientPkt}

/-- What a packet leaves alone. -/
structure Frame (c c' : Conn) : Prop where
  acct : c'.acct = c.acct
  crypto : c'.crypto = c.crypto
  ptr : c'.ptr = c.ptr
  read : c'.readRegistered = c.readRegistered

theorem Frame.refl (c : Conn) : c.Frame c := ⟨rfl, rfl, rfl, rfl⟩

/-- The state differs in what is for the client and for the database, and in what was
read from the packet. -/
theorem frame_send (c : Conn) (pkt : ByteBuffer) : c.Frame (c.send pkt) := ⟨rfl, rfl, rfl, rfl⟩

theorem frame_ask (c : Conn) (obs : Observer) (op : ProxydRequest) : c.Frame (c.ask obs op) := by
  rw [ask]
  split
  · exact ⟨rfl, rfl, rfl, rfl⟩
  · exact .refl c

/-- A handler that answers with one packet. -/
theorem frame_of_bind_send {pkt? : Option ByteBuffer}
    (h : (do let pkt ← pkt?; some (c.send pkt)) = some c') :
    c.Frame c' ∧ c'.operations = c.operations := by
  obtain ⟨pkt, -, h⟩ := Option.bind_eq_some_iff.mp h
  rw [← Option.some.inj h]
  exact ⟨c.frame_send pkt, rfl⟩

/-- `CMSG_AUTH_SESSION` is ignored, or its account is asked for. -/
theorem handleCmsgAuthSession_some (h : c.handleCmsgAuthSession pkt = some c') :
    c' = c ∨ ∃ login clientSeed clientDigest,
      c' = { c with login, clientSeed, clientDigest := some clientDigest }.getAccount := by
  rw [handleCmsgAuthSession] at h
  split at h
  · exact Or.inl (Option.some.inj h).symm
  · obtain ⟨_, -, h⟩ := Option.bind_eq_some_iff.mp h
    obtain ⟨_, -, h⟩ := Option.bind_eq_some_iff.mp h
    obtain ⟨⟨clientSeed, _⟩, -, h⟩ := Option.bind_eq_some_iff.mp h
    obtain ⟨⟨clientDigest, _⟩, -, h⟩ := Option.bind_eq_some_iff.mp h
    exact Or.inr ⟨_, clientSeed, clientDigest, (Option.some.inj h).symm⟩

theorem handleCmsgAuthSession_frame (h : c.handleCmsgAuthSession pkt = some c') : c.Frame c' := by
  rcases handleCmsgAuthSession_some h with rfl | ⟨login, clientSeed, clientDigest, rfl⟩
  · exact .refl _
  · obtain ⟨hacct, hcrypto, hptr, hread⟩ := frame_ask _ _ _
    exact ⟨hacct, hcrypto, hptr, hread⟩

/-! ### A new character -/

/-- The operations a step adds, all of them for the account of the connection. -/
structure Adds (c c' : Conn) (new : List SqlOperation) : Prop where
  frame : c.Frame c'
  operations : c'.operations = c.operations ++ new
  isFor : ∀ op ∈ new, op.IsFor c.acct.id

theorem Adds.refl (c : Conn) : c.Adds c [] := ⟨.refl c, (List.append_nil _).symm, nofun⟩

theorem Adds.of_send {new : List SqlOperation} {c₁ : Conn} {response : ResponseCodes}
    (h : c.Adds c₁ new) (hs : c₁.sendCharCreate response = some c') : c.Adds c' new := by
  rw [sendCharCreate] at hs
  obtain ⟨⟨hacct, hcrypto, hptr, hread⟩, hops⟩ := frame_of_bind_send hs
  exact ⟨⟨hacct.trans h.frame.acct, hcrypto.trans h.frame.crypto, hptr.trans h.frame.ptr,
    hread.trans h.frame.read⟩, hops.trans h.operations, h.isFor⟩

theorem Adds.enqueue {new : List SqlOperation} {c₁ : Conn} {op : SqlOperation}
    (h : c.Adds c₁ new) (hop : op.IsFor c₁.acct.id) : c.Adds (c₁.enqueue op) (new ++ [op]) := by
  obtain ⟨⟨hacct, hcrypto, hptr, hread⟩, hops, hfor⟩ := h
  refine ⟨⟨hacct, hcrypto, hptr, hread⟩, ?_, fun op' hmem => ?_⟩
  · rw [Conn.enqueue, hops, List.append_assoc]
  · rcases List.mem_append.mp hmem with hmem | hmem
    · exact hfor op' hmem
    · rw [List.mem_singleton.mp hmem, ← hacct]
      exact hop

theorem Adds.trans {new new' : List SqlOperation} {c₁ : Conn} (h : c.Adds c₁ new)
    (h' : c₁.Adds c' new') : c.Adds c' (new ++ new') := by
  obtain ⟨⟨hacct, hcrypto, hptr, hread⟩, hops, hfor⟩ := h
  obtain ⟨⟨hacct', hcrypto', hptr', hread'⟩, hops', hfor'⟩ := h'
  refine ⟨⟨hacct'.trans hacct, hcrypto'.trans hcrypto, hptr'.trans hptr, hread'.trans hread⟩, ?_,
    fun op hmem => ?_⟩
  · rw [hops', hops, List.append_assoc]
  · rcases List.mem_append.mp hmem with hmem | hmem
    · exact hfor op hmem
    · exact hacct ▸ hfor' op hmem

theorem isFor_numchar (c : Conn) : (SqlOperation.request c.numchar).IsFor c.acct.id := rfl

theorem isFor_charCount (c : Conn) : (SqlOperation.request c.charCount).IsFor c.acct.id := rfl

/-- **The end of the handler**: behind the seven bytes that are read, a guid is drawn and
the transaction enqueued, and the client is told of the success. -/
theorem sendCharCreate_of_insertCharacter {race pclass : UInt8} {name : List UInt8}
    {buf : ByteBuffer} (h : c.insertCharacter env race pclass name buf = some c') :
    ∃ gender skin face hairStyle hairColor facialHair,
      ({ c with guids := c.guids ++ [env.maxGuid] }.enqueue (.transaction
        [c.incrNumchar env.realmid, playerCreate env env.maxGuid c.acct.id name race pclass gender
          skin face hairStyle hairColor facialHair])).sendCharCreate .charCreateSuccess =
        some c' := by
  rw [insertCharacter] at h
  obtain ⟨⟨gender, _⟩, -, h⟩ := Option.bind_eq_some_iff.mp h
  obtain ⟨⟨skin, _⟩, -, h⟩ := Option.bind_eq_some_iff.mp h
  obtain ⟨⟨face, _⟩, -, h⟩ := Option.bind_eq_some_iff.mp h
  obtain ⟨⟨hairStyle, _⟩, -, h⟩ := Option.bind_eq_some_iff.mp h
  obtain ⟨⟨hairColor, _⟩, -, h⟩ := Option.bind_eq_some_iff.mp h
  obtain ⟨⟨facialHair, _⟩, -, h⟩ := Option.bind_eq_some_iff.mp h
  obtain ⟨_, -, h⟩ := Option.bind_eq_some_iff.mp h
  exact ⟨gender, skin, face, hairStyle, hairColor, facialHair, h⟩

/-- The transaction of a new character is for the account. -/
theorem insertCharacter_adds {race pclass : UInt8} {name : List UInt8} {buf : ByteBuffer}
    (h : c.insertCharacter env race pclass name buf = some c') : ∃ op, c.Adds c' [op] := by
  obtain ⟨gender, skin, face, hairStyle, hairColor, facialHair, hsend⟩ :=
    sendCharCreate_of_insertCharacter h
  have hdrawn : c.Adds { c with guids := c.guids ++ [env.maxGuid] } [] :=
    ⟨⟨rfl, rfl, rfl, rfl⟩, (List.append_nil _).symm, nofun⟩
  refine ⟨_, (hdrawn.enqueue ?_).of_send hsend⟩
  intro op hop
  rcases List.mem_pair.mp hop with rfl | rfl
  · rfl
  · rfl

/-- A handler that has sent its answer has ended, and has added nothing. -/
theorem adds_of_map_send {response : ResponseCodes} {creation : Option Creation}
    (h : (c.sendCharCreate response).map (fun c => (c, (none : Option Creation))) =
      some (c', creation)) : creation = none ∧ c.Adds c' [] := by
  obtain ⟨c₁, hc₁, h⟩ := Option.map_eq_some_iff.mp h
  obtain ⟨rfl, rfl⟩ := Prod.mk.inj h
  exact ⟨rfl, (Adds.refl c).of_send hc₁⟩

/-- A query is made, for the account. -/
theorem adds_of_ask {h : Creation} {query : Query} {creation : Option Creation}
    (hask : h.ask c query = (c', creation)) : ∃ op, c.Adds c' [op] := by
  rw [← (Prod.mk.inj hask).1]
  refine ⟨_, (Adds.refl c).enqueue ?_⟩
  cases query with
  | guidFromName => exact trivial
  | numchar => exact isFor_numchar c
  | charCount => exact isFor_charCount c

/-- **From an answer the handler goes on** to its next query or to its transaction, exactly
where the answer lets it, and what it adds is for the account the connection now has. -/
theorem resume_adds {h : Creation} {res : ResultSet} {creation : Option Creation}
    (hres : c.resume h res = some (c', creation)) :
    ∃ new, c.Adds c' new ∧ (new ≠ [] ↔ h.GoesOn res) := by
  have hended {response : ResponseCodes} (hnot : ¬h.GoesOn res)
      (hsend : (c.sendCharCreate response).map (fun c => (c, (none : Option Creation))) =
        some (c', creation)) : ∃ new, c.Adds c' new ∧ (new ≠ [] ↔ h.GoesOn res) :=
    ⟨[], (adds_of_map_send hsend).2, iff_of_false (not_not.mpr rfl) hnot⟩
  rw [resume] at hres
  split at hres
  · next hquery =>
    have hgoes : h.GoesOn res ↔ res.rowsCount = 0 := by rw [Creation.GoesOn, hquery]
    split at hres
    · next htaken => exact hended (fun hfree => htaken (hgoes.mp hfree)) hres
    · next hfree =>
      obtain ⟨op, hadds⟩ := adds_of_ask (Option.some.inj hres)
      exact ⟨[op], hadds, iff_of_true (List.cons_ne_nil _ _) (hgoes.mpr (not_not.mp hfree))⟩
  · next hquery =>
    obtain ⟨full, hfull, hres⟩ := Option.bind_eq_some_iff.mp hres
    have hgoes : h.GoesOn res ↔ full = false := by
      rw [Creation.GoesOn, hquery]
      dsimp only
      rw [hfull, Option.some_inj]
    cases full with
    | true => exact hended (fun hroom => Bool.noConfusion (hgoes.mp hroom)) hres
    | false =>
      obtain ⟨op, hadds⟩ := adds_of_ask (Option.some.inj hres)
      exact ⟨[op], hadds, iff_of_true (List.cons_ne_nil _ _) (hgoes.mpr rfl)⟩
  · next hquery =>
    obtain ⟨full, hfull, hres⟩ := Option.bind_eq_some_iff.mp hres
    have hgoes : h.GoesOn res ↔ full = false := by
      rw [Creation.GoesOn, hquery]
      dsimp only
      rw [hfull, Option.some_inj]
    cases full with
    | true => exact hended (fun hroom => Bool.noConfusion (hgoes.mp hroom)) hres
    | false =>
      obtain ⟨c₁, hc₁, hres⟩ := Option.map_eq_some_iff.mp hres
      obtain ⟨rfl, rfl⟩ := Prod.mk.inj hres
      obtain ⟨op, hadds⟩ := insertCharacter_adds hc₁
      exact ⟨[op], hadds, iff_of_true (List.cons_ne_nil _ _) (hgoes.mpr rfl)⟩

/-- However far a handler gets, what it adds is for the account. -/
theorem settle_adds {n : ℕ} {creation : Option Creation}
    (h : settle env n (c, creation) = some c') :
    ∃ new, c.Adds c' new ∧ (creation = none → new = []) := by
  induction n generalizing c creation with
  | zero =>
    cases creation with
    | none =>
      obtain rfl := Option.some.inj h
      exact ⟨[], .refl c, fun _ => rfl⟩
    | some h' => cases h
  | succ n ih =>
    cases creation with
    | none =>
      obtain rfl := Option.some.inj h
      exact ⟨[], .refl c, fun _ => rfl⟩
    | some h' =>
      obtain ⟨⟨c₁, creation₁⟩, hresume, h⟩ := Option.bind_eq_some_iff.mp h
      obtain ⟨new, hadds, -⟩ := resume_adds hresume
      obtain ⟨new', hadds', -⟩ := ih h
      exact ⟨new ++ new', hadds.trans hadds', fun hnone => by cases hnone⟩

/-- A packet that gets `handle_cmsg_char_create` to its first query: it is long enough,
race and class are in their stores, the account has the expansion, and the name may be
one. -/
def PassesChecks (env : Env) (c : Conn) (pkt : ClientPkt) : Prop :=
  pkt.checkSize 10 = true ∧ pkt.checkSize (pkt.buffer.readString.1.length + 1 + 9) = true ∧
    ∃ race pclass buf₁ buf₂ name, pkt.buffer.readString.2.readUint8 = some (race, buf₁) ∧
      buf₁.readUint8 = some (pclass, buf₂) ∧
      c.checkCharacter env race pclass pkt.buffer.readString.1 = .ok name

/-- **A packet makes the first query**, for the account, exactly where it passes the
checks. -/
theorem beginCharCreate_adds {creation : Option Creation}
    (h : c.beginCharCreate env pkt = some (c', creation)) :
    ∃ new, c.Adds c' new ∧ (new ≠ [] ↔ c.PassesChecks env pkt) ∧
      (new = [] → creation = none) := by
  have hnothing (hnot : ¬c.PassesChecks env pkt) (hnone : creation = none) (hadds : c.Adds c' []) :
      ∃ new, c.Adds c' new ∧ (new ≠ [] ↔ c.PassesChecks env pkt) ∧
        (new = [] → creation = none) :=
    ⟨[], hadds, iff_of_false (not_not.mpr rfl) hnot, fun _ => hnone⟩
  rw [beginCharCreate] at h
  split at h
  · next hshort =>
    obtain ⟨rfl, rfl⟩ := Prod.mk.inj (Option.some.inj h)
    refine hnothing (fun hpass => ?_) rfl (.refl c)
    cases hshort.symm.trans hpass.1
  next hsize =>
  dsimp only at h
  split at h
  · next hshort =>
    obtain ⟨rfl, rfl⟩ := Prod.mk.inj (Option.some.inj h)
    refine hnothing (fun hpass => ?_) rfl (.refl c)
    cases hshort.symm.trans hpass.2.1
  next hname =>
  obtain ⟨⟨race, buf₁⟩, hrace, h⟩ := Option.bind_eq_some_iff.mp h
  obtain ⟨⟨pclass, buf₂⟩, hclass, h⟩ := Option.bind_eq_some_iff.mp h
  have hcheck : c.PassesChecks env pkt ↔
      ∃ name, c.checkCharacter env race pclass pkt.buffer.readString.1 = .ok name := by
    constructor
    · rintro ⟨-, -, race', pclass', buf₁', buf₂', name, hrace', hclass', hok⟩
      obtain ⟨rfl, rfl⟩ := Prod.mk.inj (Option.some.inj (hrace.symm.trans hrace'))
      obtain ⟨rfl, rfl⟩ := Prod.mk.inj (Option.some.inj (hclass.symm.trans hclass'))
      exact ⟨name, hok⟩
    · rintro ⟨name, hok⟩
      exact ⟨by simpa using hsize, by simpa using hname, race, pclass, buf₁, buf₂, name, hrace,
        hclass, hok⟩
  dsimp only at h
  split at h
  · next response herror =>
    obtain ⟨hnone, hadds⟩ := adds_of_map_send h
    refine hnothing (fun hpass => ?_) hnone hadds
    obtain ⟨name, hok⟩ := hcheck.mp hpass
    cases herror.symm.trans hok
  · next name hok =>
    obtain ⟨op, hadds⟩ := adds_of_ask (Option.some.inj h)
    exact ⟨[op], hadds, iff_of_true (List.cons_ne_nil _ _) (hcheck.mpr ⟨name, hok⟩), by rintro ⟨⟩⟩

/-- The whole handler, where the answers come at once, is a packet and what settles it. -/
theorem handleCmsgCharCreate_adds (h : c.handleCmsgCharCreate env pkt = some c') :
    ∃ new, c.Adds c' new ∧ (new ≠ [] ↔ c.PassesChecks env pkt) := by
  rw [← handleCmsgCharCreate_eq] at h
  obtain ⟨⟨c₁, creation⟩, hbegin, hsettle⟩ := Option.bind_eq_some_iff.mp h
  obtain ⟨new, hadds, hpass, hnone⟩ := beginCharCreate_adds hbegin
  obtain ⟨new', hadds', hnil⟩ := settle_adds hsettle
  refine ⟨new ++ new', hadds.trans hadds', ?_⟩
  rw [← hpass, ne_eq, ne_eq, not_iff_not, List.append_eq_nil_iff]
  exact ⟨And.left, fun hnew => ⟨hnew, hnil (hnone hnew)⟩⟩

end Conn

/-! ### A packet -/

/-- The two packets about characters. -/
def ClientPkt.IsCharacter (pkt : ClientPkt) : Prop :=
  pkt.opcode = ClientOpcode.cmsgCharEnum.code ∨ pkt.opcode = ClientOpcode.cmsgCharCreate.code

namespace Conn

variable {c c' : Conn} {pkt : ClientPkt}

/-- A packet about characters that has something done in the database: nothing about it
depends on whether the client is known. -/
def ReachesDatabase (env : Env) (c : Conn) (pkt : ClientPkt) : Prop :=
  pkt.opcode = ClientOpcode.cmsgCharEnum.code ∧ c.ptr = true ∨
    pkt.opcode = ClientOpcode.cmsgCharCreate.code ∧ c.PassesChecks env pkt

theorem handleCmsgCharEnum_adds (c : Conn) :
    ∃ new, c.Adds c.handleCmsgCharEnum new ∧ (new ≠ [] ↔ c.ptr = true) := by
  rw [handleCmsgCharEnum, getChars, ask]
  split
  · next hptr =>
    refine ⟨[_], ⟨⟨rfl, rfl, rfl, rfl⟩, rfl, ?_⟩, iff_of_true (List.cons_ne_nil _ _) hptr⟩
    intro op hop
    rw [List.mem_singleton.mp hop]
    rfl
  · next hptr => exact ⟨[], .refl c, iff_of_false (not_not.mpr rfl) hptr⟩

/-- **What a packet does.** -/
theorem processIncoming_adds (h : c.processIncoming env pkt = some c') :
    c.Frame c' ∧
      (pkt.IsCharacter → ∃ new, c.Adds c' new ∧ (new ≠ [] ↔ c.ReachesDatabase env pkt)) := by
  rw [processIncoming] at h
  -- only two opcodes are about characters
  have hother : ∀ {op}, ClientOpcode.ofCode? pkt.opcode = op → op ≠ some .cmsgCharEnum →
      op ≠ some .cmsgCharCreate → ¬pkt.IsCharacter := by
    rintro op rfl henum hcreate (hop | hop)
    · exact henum (by rw [hop, ClientOpcode.ofCode?_code])
    · exact hcreate (by rw [hop, ClientOpcode.ofCode?_code])
  split at h
  · next hop => exact ⟨handleCmsgAuthSession_frame h, fun hc => absurd hc (hother hop nofun nofun)⟩
  · next hop =>
    obtain ⟨_, -, h⟩ := Option.bind_eq_some_iff.mp h
    exact ⟨(frame_of_bind_send h).1, fun hc => absurd hc (hother hop nofun nofun)⟩
  · next hop =>
    obtain ⟨_, -, h⟩ := Option.bind_eq_some_iff.mp h
    exact ⟨(frame_of_bind_send h).1, fun hc => absurd hc (hother hop nofun nofun)⟩
  · next hop =>
    have hcode := ClientOpcode.code_of_ofCode? hop
    obtain ⟨new, hadds, hnew⟩ := handleCmsgCharEnum_adds c
    rw [Option.some.inj h] at hadds
    refine ⟨hadds.frame, fun _ => ⟨new, hadds, hnew.trans ?_⟩⟩
    refine ⟨fun hptr => Or.inl ⟨hcode.symm, hptr⟩, ?_⟩
    rintro (⟨-, hptr⟩ | ⟨hcreate, -⟩)
    · exact hptr
    · cases hcode.trans hcreate
  · next hop =>
    have hcode := ClientOpcode.code_of_ofCode? hop
    obtain ⟨new, hadds, hnew⟩ := handleCmsgCharCreate_adds h
    refine ⟨hadds.frame, fun _ => ⟨new, hadds, hnew.trans ?_⟩⟩
    refine ⟨fun hpass => Or.inr ⟨hcode.symm, hpass⟩, ?_⟩
    rintro (⟨henum, -⟩ | ⟨-, hpass⟩)
    · cases hcode.trans henum
    · exact hpass
  · next hop => exact ⟨(frame_of_bind_send h).1, fun hc => absurd hc (hother hop nofun nofun)⟩
  · next hop =>
    rw [← Option.some.inj h]
    exact ⟨.refl c, fun hc => absurd hc (hother hop nofun nofun)⟩

/-- **What a packet does, up to the first query** of a handler that has one. -/
theorem receive_adds {creation : Option Creation} (h : c.receive env pkt = some (c', creation)) :
    c.readRegistered = true ∧ c.Frame c' ∧
      (pkt.IsCharacter → ∃ new, c.Adds c' new ∧ (new ≠ [] ↔ c.ReachesDatabase env pkt)) := by
  rw [receive] at h
  split at h
  · next hready =>
    refine ⟨hready.2, ?_⟩
    split at h
    · next hop =>
      have hcode := ClientOpcode.code_of_ofCode? hop
      obtain ⟨new, hadds, hnew, -⟩ := beginCharCreate_adds h
      refine ⟨hadds.frame, fun _ => ⟨new, hadds, hnew.trans ?_⟩⟩
      refine ⟨fun hpass => Or.inr ⟨hcode.symm, hpass⟩, ?_⟩
      rintro (⟨henum, -⟩ | ⟨-, hpass⟩)
      · cases hcode.trans henum
      · exact hpass
    · obtain ⟨c₁, hc₁, h⟩ := Option.map_eq_some_iff.mp h
      obtain ⟨rfl, rfl⟩ := Prod.mk.inj h
      exact processIncoming_adds hc₁
  · cases h

/-! ### The answers -/

/-- The two comparisons of `account_retrieved` come out equal: the stored verifier is
that of the stored password hash, and the digest of the client is that of the stored
session key. -/
def Authentic (sha : Sha1) (env : Env) (c : Conn) : Prop :=
  c.verifierText sha = cStr c.acct.v ∧ c.clientDigest = some (c.checkDigest sha env)

/-- An account that was found is accepted or rejected. -/
theorem accountRetrieved_some (h : c.accountRetrieved sha hmac env true = some c') :
    (c.Authentic sha env ∧ ∃ pkt, c' = ({ c with
      crypto := c.crypto.setKey hmac (numberOfText c.acct.sessionkey) }).send pkt) ∨
    (¬c.Authentic sha env ∧ c' = c.die) := by
  rw [accountRetrieved, if_neg (by decide)] at h
  split at h
  · cases h
  -- the verifier first, then the digest
  split at h
  · next hv => exact Or.inr ⟨fun hauth => hv hauth.1, (Option.some.inj h).symm⟩
  next hv =>
  obtain ⟨digest, hdigest, h⟩ := Option.bind_eq_some_iff.mp h
  split at h
  · next hne =>
    refine Or.inr ⟨fun hauth => hne ?_, (Option.some.inj h).symm⟩
    exact Option.some.inj (hauth.2.symm.trans hdigest)
  · next heq =>
    obtain ⟨pkt, -, h⟩ := Option.bind_eq_some_iff.mp h
    refine Or.inl ⟨⟨not_not.mp hv, ?_⟩, pkt, (Option.some.inj h).symm⟩
    rw [hdigest, not_not.mp heq]

/-- An account that was not found ends the connection. -/
theorem accountRetrieved_none (h : c.accountRetrieved sha hmac env false = some c') :
    ∃ pkt, c' = (c.send pkt).die := by
  rw [accountRetrieved, if_pos rfl] at h
  obtain ⟨pkt, -, h⟩ := Option.bind_eq_some_iff.mp h
  exact ⟨pkt, (Option.some.inj h).symm⟩

theorem getCharsObsv_some {res : ResultSet} (h : c.getCharsObsv res = some c') :
    c.Frame c' ∧ c'.operations = c.operations := by
  rw [getCharsObsv] at h
  split at h
  · exact frame_of_bind_send h
  · obtain ⟨_, -, h⟩ := Option.bind_eq_some_iff.mp h
    obtain ⟨⟨hacct, hcrypto, hptr, hread⟩, hops⟩ := frame_of_bind_send h
    exact ⟨⟨hacct, hcrypto, hptr, hread⟩, hops⟩

end Conn

/-! ### The step -/

/-- The account an event brings, from its row. -/
def Event.Brings (e : Event) (acct : Account) : Prop :=
  ∃ res, e.action = .answer .getAcctObsv res ∧ res.rowsCount ≠ 0 ∧
    Conn.readAccount res.next.2 = some acct

/-- An answer for an account without a row. -/
def Event.BringsNone (e : Event) : Prop :=
  ∃ res, e.action = .answer .getAcctObsv res ∧ res.rowsCount = 0

/-- **What one step of a connection can do.** -/
inductive Trans (sha : Sha1) (c : Conn) (e : Event) (c' : Conn) : Prop
  /-- A packet was handled. -/
  | input (pkt : ClientPkt) (hact : e.action = .input pkt) (hread : c.readRegistered = true)
      (hframe : c.Frame c')
      (hcharacter : pkt.IsCharacter →
        ∃ new, c.Adds c' new ∧ (new ≠ [] ↔ c.ReachesDatabase e.env pkt))
  /-- The reactor has closed the socket. -/
  | hangup (hact : e.action = .hangup) (hacct : c'.acct = c.acct) (hcrypto : c'.crypto = c.crypto)
      (hptr : c'.ptr = false) (hread : c'.readRegistered = false)
  /-- The list of characters was sent. -/
  | listed (res : ResultSet) (hact : e.action = .answer .getCharsObsv res) (hframe : c.Frame c')
  /-- The digest of the client was accepted. -/
  | accepted (acct : Account) (hbrings : e.Brings acct)
      (hauth : ({ c with acct } : Conn).Authentic sha e.env) (hacct : c'.acct = acct)
      (hkey : c'.crypto.isInitialised = true) (hptr : c'.ptr = c.ptr)
      (hread : c'.readRegistered = c.readRegistered)
  /-- The digest of the client was rejected. -/
  | rejected (acct : Account) (hbrings : e.Brings acct)
      (hauth : ¬({ c with acct } : Conn).Authentic sha e.env) (hacct : c'.acct = acct)
      (hcrypto : c'.crypto = c.crypto) (hptr : c'.ptr = false)
      (hread : c'.readRegistered = c.readRegistered)
  /-- There is no such account. -/
  | unknown (hbrings : e.BringsNone) (hacct : c'.acct = c.acct) (hcrypto : c'.crypto = c.crypto)
      (hptr : c'.ptr = false) (hread : c'.readRegistered = c.readRegistered)

variable {c c' : Conn} {e : Event}

/-- **The list is complete.** -/
theorem trans_of_step (h : step sha hmac c e = some c') : Trans sha c e c' := by
  obtain ⟨env, action⟩ := e
  rw [step] at h
  split at h
  · cases action with
    | input pkt =>
      dsimp only at h
      split at h
      · next hread =>
        obtain ⟨hframe, hchar⟩ := Conn.processIncoming_adds h
        exact .input pkt rfl hread hframe hchar
      · cases h
    | hangup =>
      dsimp only at h
      split at h
      · rw [← Option.some.inj h]
        exact .hangup rfl rfl rfl rfl rfl
      · cases h
    | answer obs res =>
      dsimp only at h
      split at h
      · cases obs with
        | getAcctObsv =>
          rw [Conn.update, Conn.getAcctObsv] at h
          split at h
          · next hrows =>
            obtain ⟨pkt, rfl⟩ := Conn.accountRetrieved_none h
            exact .unknown ⟨res, rfl, hrows⟩ rfl rfl rfl rfl
          · next hrows =>
            obtain ⟨acct, hacct, h⟩ := Option.bind_eq_some_iff.mp h
            have hbrings : Event.Brings ⟨env, .answer .getAcctObsv res⟩ acct :=
              ⟨res, rfl, hrows, hacct⟩
            rcases Conn.accountRetrieved_some h with ⟨hauth, pkt, rfl⟩ | ⟨hauth, rfl⟩
            · exact .accepted acct hbrings hauth rfl rfl rfl rfl
            · exact .rejected acct hbrings hauth rfl rfl rfl rfl
        | getCharsObsv =>
          obtain ⟨⟨hacct, hcrypto, hptr, hread⟩, -⟩ := Conn.getCharsObsv_some h
          exact .listed res rfl ⟨hacct, hcrypto, hptr, hread⟩
      · cases h
  · cases h

/-- The reactor's registration goes with a hang-up, and with nothing else. -/
theorem Trans.read_eq (h : Trans sha c e c') (hact : e.action ≠ .hangup) :
    c'.readRegistered = c.readRegistered := by
  cases h with
  | input pkt hact hread hframe => exact hframe.read
  | listed res hact hframe => exact hframe.read
  | hangup hact' => exact absurd hact' hact
  | accepted acct hbrings hauth hacct hkey hptr hread => exact hread
  | rejected acct hbrings hauth hacct hcrypto hptr hread => exact hread
  | unknown hbrings hacct hcrypto hptr hread => exact hread

/-- **What one step of a socket can do**: what its connection can, or a handler goes on. A
handler is under way only where the reactor still has the socket. -/
inductive ProxySocket.Trans (sha : Sha1) (s : ProxySocket) : SocketEvent → ProxySocket → Prop
  | event (e : Event) (s' : ProxySocket) (h : Proxyd.Trans sha s.conn e s'.conn)
      (hwaits : s'.creation ≠ none → (s.creation ≠ none ∨ s.conn.readRegistered = true) ∧
        s'.conn.readRegistered = s.conn.readRegistered) :
    Trans sha s (.event e) s'
  | resume (res : ResultSet) (s' : ProxySocket) (h : Creation) (hwaits : s.creation = some h)
      (new : List SqlOperation) (hadds : s.conn.Adds s'.conn new)
      (hnew : new ≠ [] ↔ h.GoesOn res) :
    Trans sha s (.resume res) s'

/-- **The list is complete.** -/
theorem ProxySocket.trans_of_step {s s' : ProxySocket} {e : SocketEvent}
    (h : s.step sha hmac e = some s') : s.Trans sha e s' := by
  cases e with
  | event e =>
    obtain ⟨env, action⟩ := e
    rw [step] at h
    cases action with
    | input pkt =>
      cases hcreation : s.creation with
      | none =>
        rw [hcreation] at h
        obtain ⟨⟨c', creation⟩, hreceive, rfl⟩ := Option.map_eq_some_iff.mp h
        obtain ⟨hread, hframe, hcharacter⟩ := Conn.receive_adds hreceive
        exact .event _ _ (.input pkt rfl hread hframe hcharacter)
          fun _ => ⟨Or.inr hread, hframe.read⟩
      | some h' =>
        rw [hcreation] at h
        cases h
    | hangup =>
      cases hcreation : s.creation with
      | none =>
        rw [hcreation] at h
        obtain ⟨c', hc', rfl⟩ := Option.map_eq_some_iff.mp h
        exact .event _ _ (Proxyd.trans_of_step hc') fun hwaits => absurd rfl hwaits
      | some h' =>
        rw [hcreation] at h
        cases h
    | answer obs res =>
      obtain ⟨c', hc', rfl⟩ := Option.map_eq_some_iff.mp h
      have htrans := Proxyd.trans_of_step hc'
      exact .event _ _ htrans fun hwaits => ⟨Or.inl hwaits, htrans.read_eq Action.noConfusion⟩
  | resume res =>
    obtain ⟨h', hwaits, h⟩ := Option.bind_eq_some_iff.mp h
    obtain ⟨⟨c', creation⟩, hresume, rfl⟩ := Option.map_eq_some_iff.mp h
    obtain ⟨new, hadds, hnew⟩ := Conn.resume_adds hresume
    exact .resume res _ h' hwaits new hadds hnew

/-- What a step on a packet does. -/
theorem Trans.of_input (h : Trans sha c e c') {pkt : ClientPkt} (hact : e.action = .input pkt) :
    c.readRegistered = true ∧ (pkt.IsCharacter →
      ∃ new, c.Adds c' new ∧ (new ≠ [] ↔ c.ReachesDatabase e.env pkt)) := by
  cases h with
  | input pkt' hact' hread hframe hcharacter =>
    obtain rfl := Action.input.inj (hact.symm.trans hact')
    exact ⟨hread, hcharacter⟩
  | hangup hact' | listed res hact' => cases hact.symm.trans hact'
  | accepted acct hbrings | rejected acct hbrings =>
    obtain ⟨res, hact', -⟩ := hbrings
    cases hact.symm.trans hact'
  | unknown hbrings =>
    obtain ⟨res, hact', -⟩ := hbrings
    cases hact.symm.trans hact'

end Morfeusz.Proxyd
