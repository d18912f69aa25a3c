import Morfeusz.Proxyd.Receiver

/-!
# The room in the buffer of the receiver

`raw_buf` has 4096 bytes, six of them for the header. How many more `recv` is asked for is
the size in the header less four, computed in `int` and converted to `size_t`, and nothing
looks at the size first: one below four is asked for as a number close to `2 ^ 64`, and one
above 4094 as more than is left.

The size is also what everything else depends on. As long as every header that is decoded
has a size from 4 to 4094, and no `recv` of a body fails, there is room for every `recv`
and no subtraction goes below zero; and the first header or `recv` that does not comply is
the end of that (`Morfeusz.Proxyd.rawBuf_room_iff`). It is a run that is looked at, since
the header which a failed `recv` leaves to be decoded is one that was decoded before.
-/

namespace Morfeusz.Proxyd

namespace Receiver

variable {hmac : Hmac} {r r' s : Receiver} {answer : Recv} {input : Input}

/-! ### The states and the steps -/

/-- `recv` is asked for no more than there is room for, the size of the packet it receives
is not less than four, and no subtraction has gone below zero. -/
def Safe (r : Receiver) : Prop :=
  r.request.1 + r.request.2 ≤ 4096 ∧ (r.waits = .body → 4 ≤ r.sizeField) ∧ r.wrapped = false

/-- The header there is at the front of `raw_buf` once `recv` has returned: the bytes it
stored, and where it stored less than a header, those that were there. -/
def headerAfter (r : Receiver) (answer : Recv) : Bytes 6 :=
  ⟨(answer.bytes ++ r.rawBuf.val.drop answer.bytes.length).take 6, by
    rw [List.length_take, List.length_append, List.length_drop, r.rawBuf.length]
    omega⟩

/-- A header that is decoded has a size from 4 to 4094, and the `recv` of a body does not
fail. -/
def InRoom (r : Receiver) : Input → Prop
  | .setKey _ => True
  | .recv answer =>
    match r.waits with
    | .start => r.expectedData = 0 → 6 ≤ answer.count →
        4 ≤ plainSize r.crypto (r.headerAfter answer) ∧
          plainSize r.crypto (r.headerAfter answer) ≤ 4094
    | .body => answer ≠ .failed

/-- What is kept by the steps in room. -/
structure Room (r : Receiver) : Prop where
  expected : r.expectedData ≤ 4096
  four_le : r.waits = .body → 4 ≤ r.sizeField
  le_4094 : r.waits = .body → r.sizeField ≤ 4094
  not_wrapped : r.wrapped = false

theorem room_init (crypto : ProxyCrypto) : (init crypto).Room :=
  ⟨Nat.zero_le _, nofun, nofun, rfl⟩

theorem Room.request_body (hr : r.Room) (hw : r.waits = .body) :
    r.request = (6, r.sizeField - 4) := by
  have hle := hr.le_4094 hw
  rw [request, hw]
  dsimp only
  rw [show (4 : ℤ) = ((4 : ℕ) : ℤ) from rfl, sizeT_sub (hr.four_le hw) (by omega)]

theorem Room.safe (hr : r.Room) : r.Safe := by
  refine ⟨?_, hr.four_le, hr.not_wrapped⟩
  rcases hw : r.waits with _ | _
  · have hexpected := hr.expected
    rw [request, hw]
    dsimp only
    split
    · omega
    · omega
  · have hle := hr.le_4094 hw
    rw [hr.request_body hw]
    omega

/-! ### What a step keeps -/

/-- An answer of a `recv` that is not the one of failure. -/
theorem exists_data_of_count_ne (h : answer.count ≠ 2 ^ 64 - 1) :
    ∃ bs, answer = .data bs ∧ answer.count = bs.length := by
  rcases answer with bs | _
  · exact ⟨bs, rfl, rfl⟩
  · exact absurd rfl h

theorem header_store (h : r.store 0 answer.bytes = some s) : s.header = r.headerAfter answer := by
  obtain ⟨hle, rfl⟩ := store_eq_some_iff.mp h
  simp [header, headerAfter, stored]

theorem Room.recvHeader (hs : s.Room)
    (hsize : 6 ≤ answer.count →
      4 ≤ plainSize s.crypto s.header ∧ plainSize s.crypto s.header ≤ 4094) :
    (s.recvHeader answer).Room := by
  rw [Receiver.recvHeader]
  split
  · exact ⟨hs.expected, hs.four_le, hs.le_4094, hs.not_wrapped⟩
  · next hcount =>
    have hfield := sizeField_decodeHeader s
    obtain ⟨hfour, hle⟩ := hsize (Nat.not_lt.mp hcount)
    exact ⟨hs.expected, fun _ => hfield ▸ hfour, fun _ => hfield ▸ hle, hs.not_wrapped⟩

theorem Room.processIncoming (hr : r.Room) (hw : r.waits = .start)
    (h : r.processIncoming = some r') : r'.Room := by
  obtain ⟨hwaits, hexpected, hwrapped⟩ := processIncoming_frame h
  rw [hw] at hwaits
  refine ⟨hexpected ▸ hr.expected, ?_, ?_, hwrapped.trans hr.not_wrapped⟩ <;>
    · rw [hwaits]
      exact nofun

theorem Room.recvRest (hs : s.Room) (hw : s.waits = .start)
    (hlen : answer.bytes.length ≤ s.expectedData) (h : s.recvRest answer = some r') : r'.Room := by
  have hle := hs.expected
  rw [Receiver.recvRest] at h
  split at h
  · obtain rfl := Option.some.inj h
    exact ⟨hs.expected, hs.four_le, hs.le_4094, hs.not_wrapped⟩
  · next hcount =>
    obtain ⟨bs, rfl, hbs⟩ := exists_data_of_count_ne fun hc => hcount (Or.inl hc)
    change bs.length ≤ _ at hlen
    split at h
    · obtain ⟨pkt, -, hpkt⟩ := Option.bind_eq_some_iff.mp h
      dsimp only at hpkt
      split at hpkt
      · obtain rfl := Option.some.inj hpkt
        refine ⟨?_, fun hb => ?_, fun hb => ?_, ?_⟩
        · change sizeT (s.expectedData - (Recv.data bs).count) ≤ 4096
          rw [hbs, sizeT_sub hlen (by omega)]
          omega
        · exact hs.four_le hb
        · exact hs.le_4094 hb
        · change (s.wrapped || decide ((s.expectedData : ℤ) - (Recv.data bs).count < 0)) = false
          rw [hs.not_wrapped, hbs, Bool.false_or, decide_eq_false_iff_not]
          omega
      · refine Room.processIncoming (r := { s with inPacket := .live pkt }) ?_ hw hpkt
        exact ⟨hs.expected, hs.four_le, hs.le_4094, hs.not_wrapped⟩
    · cases h
    · cases h

theorem Room.recvBody (hs : s.Room) (hw : s.waits = .body)
    (hlen : answer.bytes.length ≤ s.sizeField - 4) (hanswer : answer ≠ .failed)
    (h : s.recvBody answer = some r') : r'.Room := by
  have hfour := hs.four_le hw
  have hle := hs.le_4094 hw
  rcases answer with bs | _
  · change bs.length ≤ _ at hlen
    have hcount : (Recv.data bs).count = bs.length := rfl
    rw [recvBody_eq, hcount] at h
    · split at h
      · obtain rfl := Option.some.inj h
        have hmissing : (s.sizeField : ℤ) - bs.length - 4 =
            ((s.sizeField - bs.length - 4 : ℕ) : ℤ) := by
          omega
        refine ⟨?_, nofun, nofun, ?_⟩
        · change sizeT (s.sizeField - bs.length - 4) ≤ 4096
          rw [hmissing, sizeT_of_lt (by omega)]
          omega
        · change (s.wrapped || decide ((s.sizeField : ℤ) - bs.length - 4 < 0)) = false
          rw [hs.not_wrapped, hmissing, Bool.false_or, decide_eq_false_iff_not]
          omega
      · refine Room.processIncoming (r := s.fresh _) ?_ rfl h
        exact ⟨hs.expected, nofun, nofun, hs.not_wrapped⟩
    · rw [hcount, show ((bs.length : ℤ) + 6) = ((bs.length + 6 : ℕ) : ℤ) from rfl,
        sizeT_of_lt (by omega)]
      omega
  · exact absurd rfl hanswer

/-- Storing behind the header leaves the size. -/
theorem sizeField_store {offset : ℕ} {bs : List UInt8} (hoffset : 2 ≤ offset)
    (h : r.store offset bs = some s) : s.sizeField = r.sizeField := by
  obtain ⟨hle, rfl⟩ := store_eq_some_iff.mp h
  rw [sizeField, sizeField]
  exact congrArg ByteNumbers.leVal (take_stored r.rawBuf hle hoffset)

theorem Room.store {offset : ℕ} {bs : List UInt8} (hr : r.Room)
    (hoffset : r.waits = .body → 2 ≤ offset) (h : r.store offset bs = some s) : s.Room := by
  obtain ⟨hwaits, hexpected, -, -, hwrapped⟩ := store_frame h
  refine ⟨hexpected ▸ hr.expected, ?_, ?_, hwrapped.trans hr.not_wrapped⟩
  · intro hb
    rw [hwaits] at hb
    rw [sizeField_store (hoffset hb) h]
    exact hr.four_le hb
  · intro hb
    rw [hwaits] at hb
    rw [sizeField_store (hoffset hb) h]
    exact hr.le_4094 hb

/-- **A step in room keeps the room.** -/
theorem Room.step (hr : r.Room) (h : r.step hmac input = some r') (hin : r.InRoom input) :
    r'.Room := by
  rcases input with answer | key
  · rw [InRoom] at hin
    obtain ⟨⟨-, hlen⟩, s, hstore, hcases⟩ := step_recv_eq_some_iff.mp h
    obtain ⟨hwaits, hexpected, -, hcrypto, -⟩ := store_frame hstore
    rcases hcases with ⟨hw, h0, rfl⟩ | ⟨hw, h0, hrest⟩ | ⟨hw, hbody⟩
    · rw [hw] at hin
      rw [request, hw] at hstore
      refine (hr.store (fun hb => nomatch hw.symm.trans hb) hstore).recvHeader fun hcount => ?_
      rw [hcrypto, header_store hstore]
      exact hin h0 hcount
    · rw [request, hw] at hstore hlen
      dsimp only at hlen
      rw [if_neg h0, ← hexpected] at hlen
      exact (hr.store (fun hb => nomatch hw.symm.trans hb) hstore).recvRest (hwaits.trans hw)
        hlen hrest
    · rw [hw] at hin
      rw [hr.request_body hw] at hstore hlen
      dsimp only at hstore hlen
      rw [← sizeField_store (by decide) hstore] at hlen
      exact (hr.store (fun _ => by decide) hstore).recvBody (hwaits.trans hw) hlen hin hbody
  · obtain rfl := Option.some.inj h
    exact ⟨hr.expected, hr.four_le, hr.le_4094, hr.not_wrapped⟩

/-- A header that there is room for, of a size that is asked for as it is. -/
theorem size_of_safe (hsafe : r.Safe) (hw : r.waits = .body) :
    4 ≤ r.sizeField ∧ r.sizeField ≤ 4094 := by
  obtain ⟨hroom, hfour, -⟩ := hsafe
  have hsize := hfour hw
  have hlt := r.sizeField_lt
  rw [request, hw] at hroom
  dsimp only at hroom
  rw [show (4 : ℤ) = ((4 : ℕ) : ℤ) from rfl, sizeT_sub hsize (by omega)] at hroom
  exact ⟨hsize, by omega⟩

/-- **A step that is not in room is the end of safety.** -/
theorem Room.inRoom_of_safe (hr : r.Room) (h : r.step hmac input = some r') (hsafe : r'.Safe) :
    r.InRoom input := by
  rcases input with answer | key
  · obtain ⟨-, s, hstore, hcases⟩ := step_recv_eq_some_iff.mp h
    obtain ⟨-, -, -, hcrypto, -⟩ := store_frame hstore
    rw [InRoom]
    rcases hcases with ⟨hw, -, rfl⟩ | ⟨hw, h0, -⟩ | ⟨hw, hbody⟩
    · rw [hw]
      rw [request, hw] at hstore
      intro _ hcount
      rw [Receiver.recvHeader, if_neg (Nat.not_lt.mpr hcount)] at hsafe
      have hsize := size_of_safe hsafe rfl
      change 4 ≤ s.decodeHeader.sizeField ∧ s.decodeHeader.sizeField ≤ 4094 at hsize
      rwa [sizeField_decodeHeader, header_store hstore, hcrypto] at hsize
    · rw [hw]
      exact fun hexpected => absurd hexpected h0
    · rw [hw]
      rintro rfl
      rw [hr.request_body hw] at hstore
      dsimp only at hstore
      have hsize := sizeField_store (by decide) hstore
      have hfour := hr.four_le hw
      -- the five bytes in front are taken for the packet, and less than nothing is missing
      rw [recvBody_eq _ (by decide), if_pos] at hbody
      · obtain rfl := Option.some.inj hbody
        have hwrapped := hsafe.2.2
        change (s.wrapped || decide ((s.sizeField : ℤ) - Recv.failed.count - 4 < 0)) = false
          at hwrapped
        rw [Bool.or_eq_false_iff, decide_eq_false_iff_not] at hwrapped
        have hlt := s.sizeField_lt
        have hcount : Recv.failed.count = 2 ^ 64 - 1 := rfl
        omega
      · rw [hsize]
        have hthree : sizeT (Recv.failed.count + 4) = 3 := rfl
        omega
  · trivial

end Receiver

/-- **There is room for every `recv` exactly where every size is one from 4 to 4094.** For
every state of the cipher and every sequence of answers of `recv`, with the key set at any
moments, every state that is reached is safe – `recv` is asked for no more than is left of
`raw_buf`, and neither the size less four nor `expected_data` has gone below zero – if and
only if every header that is decoded has a size from 4 to 4094 and no `recv` of a body
fails. -/
theorem rawBuf_room_iff (hmac : Hmac) (crypto : ProxyCrypto) (inputs : List Receiver.Input) :
    (∀ i r, Runs.run (Receiver.step hmac) (Receiver.init crypto) (inputs.take i) = some r →
      r.Safe) ↔
      ∀ i r input r', Runs.StepAt (Receiver.step hmac) (Receiver.init crypto) inputs i r input r' →
        r.InRoom input :=
  Runs.forall_run_take_iff (fun _ hr => hr.safe) (fun _ _ _ hr h hin => hr.step h hin)
    (fun _ _ _ hr h hsafe => hr.inRoom_of_safe h hsafe) (Receiver.room_init crypto)

/-- A header of size 3, the first a client sends. -/
theorem rawBuf_short_size_not_safe : ∃ r,
    Runs.run (Receiver.step fun _ _ => Bytes.zero 20) (Receiver.init ProxyCrypto.init)
      [.recv (.data [0, 3, 0, 0, 0, 0])] = some r ∧ r.request = (6, 2 ^ 64 - 1) ∧ ¬r.Safe := by
  refine ⟨_, rfl, rfl, ?_⟩
  rintro ⟨hroom, -⟩
  exact absurd hroom (by decide)

end Morfeusz.Proxyd
