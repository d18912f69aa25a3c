import Morfeusz.Lib.ZeroFilled
import Morfeusz.Realmd.Admission

/-!
# What the realm daemon makes of a stream

`handle_input` receives once, takes the first byte for a command and hands the buffer to
its handler; the buffer was zeroed before, and the rest of it is what the handler finds
behind the bytes that came. There is no reassembly: what is missing of a command is zero
for its handler, and what came behind it is not looked at again.

So the handlers are called for the commands of a client exactly where every `recv`
returned one of them (`Morfeusz.Realmd.handlers_run_for_commands_iff`). One direction is
plain. In the other, a handler may well see the whole of its command in a piece of the
stream that is not the command, but not all of them to the end of the stream: this is
`ZeroFilled.eq_of_readIn`, a command being never all zeros
(`Morfeusz.Realmd.ClientCommand.notFilling`).
-/

namespace Morfeusz.Realmd

open ByteNumbers ByteBuffer ZeroFilled

/-! ### The commands of a client -/

/-- A complete command. The two challenges have one layout: the error, the size of what is
behind it, 29 bytes, and the name behind its length. The request for the list is its first
byte, with anything behind it. -/
inductive ClientCommand
  | challenge (reconnect : Bool) (error : UInt8) (fields : Bytes 29) (i : List UInt8)
      (short : i.length ≤ 255)
  | logonProof (fields : Bytes 74)
  | reconnectProof (fields : Bytes 57)
  | realmList (fields : List UInt8)

namespace ClientCommand

def cmd : ClientCommand → EAuthCmd
  | challenge reconnect .. => if reconnect then .authReconnectChallenge else .authLogonChallenge
  | logonProof _ => .authLogonProof
  | reconnectProof _ => .authReconnectProof
  | realmList _ => .realmList

/-- What follows the first byte. -/
def body : ClientCommand → List UInt8
  | challenge _ error fields i _ =>
    uint8 error ++ uint16 (UInt16.ofNat (30 + i.length)) ++ fields.val ++
      uint8 (UInt8.ofNat i.length) ++ i
  | logonProof fields => fields.val
  | reconnectProof fields => fields.val
  | realmList fields => fields

def bytes (command : ClientCommand) : List UInt8 := command.cmd.code :: command.body

/-- The size of a challenge is not zero. -/
theorem exists_mem_uint16_ne_zero {v : UInt16} (h : v ≠ 0) : ∃ b ∈ uint16 v, b ≠ 0 := by
  by_contra hall
  have hzero : uint16 v = List.replicate 2 0 := by
    refine List.eq_replicate_iff.mpr ⟨length_uint16 v, ?_⟩
    intro b hb
    by_contra hne
    exact hall ⟨b, hb, hne⟩
  have hval := leVal_leBytes_of_lt (w := 2) v.toNat_lt
  rw [← uint16, hzero, leVal_replicate_zero] at hval
  exact h (UInt16.toNat_inj.mp hval.symm)

/-- **No command is all zeros**: a challenge has a size, and no other begins with one. -/
theorem notFilling (command : ClientCommand) : NotFilling 0 command.bytes := by
  by_cases hcode : command.cmd.code = 0
  · rcases command with ⟨reconnect, error, fields, i, short⟩ | _ | _ | _
    · have hsize : UInt16.ofNat (30 + i.length) ≠ 0 := by
        intro hzero
        have hval := congrArg UInt16.toNat hzero
        rw [UInt16.toNat_ofNat_of_lt' (by rw [UInt16.size]; omega)] at hval
        have : (0 : UInt16).toNat = 0 := rfl
        omega
      obtain ⟨b, hmem, hne⟩ := exists_mem_uint16_ne_zero hsize
      refine notFilling_of_mem (List.mem_cons_of_mem _ ?_) hne
      simp only [body, List.mem_append, hmem, or_true, true_or]
    · cases hcode
    · cases hcode
    · cases hcode
  · exact ⟨0, Nat.succ_pos _, hcode⟩

end ClientCommand

/-! ### The handlers that are called -/

/-- What a run received. -/
def inputs (es : List Event) : List Received :=
  es.filterMap fun e => match e.action with
    | .input raw => some raw
    | _ => none

/-- The case the `switch` of `handle_input` runs into. -/
def Conn.handlerOf (c : Conn) (raw : Received) : Option EAuthCmd :=
  if c.state = .closing then none else EAuthCmd.ofByte? raw.cmd

/-- The handler an event calls, and the buffer it finds. -/
def handlerCall (c : Conn) (e : Event) : Option (EAuthCmd × Received) :=
  match e.action with
  | .input raw => if c.readRegistered then (c.handlerOf raw).map fun cmd => (cmd, raw) else none
  | _ => none

/-- The handlers a run calls, in order. -/
def handlerCalls (sha : Sha1) : Conn → List Event → List (EAuthCmd × Received)
  | _, [] => []
  | c, e :: es =>
    (handlerCall c e).toList ++ ((step sha c e).map fun c' => handlerCalls sha c' es).getD []

/-- The handlers called are those of the commands, and each has the complete bytes of its
own at the front of `raw_buf`. -/
def Handles (calls : List (EAuthCmd × Received)) (commands : List ClientCommand) : Prop :=
  List.Forall₂ (fun call command => call.1 = command.cmd ∧ command.bytes <+: call.2.rawBuf)
    calls commands

variable {sha : Sha1} {c c' : Conn} {e : Event} {es : List Event}

theorem Conn.Counted.read_of_read (h : Conn.Counted sha c c') (hr : c'.readRegistered = true) :
    c.readRegistered = true := by
  cases h with
  | sent => exact hr
  | dropped => cases hr

/-- **What the reactor has forgotten it does not come back to.** -/
theorem Trans.read_of_read (h : Trans sha c e c') (hr : c'.readRegistered = true) :
    c.readRegistered = true := by
  cases h with
  | died | proofUnsupported | sessionkeyFound => cases hr
  | charsCounted res mid _ _ _ hmid hlast =>
    exact Conn.counted_induction (P := fun d => d.readRegistered = true → c.readRegistered = true)
      hmid hlast id (fun _ _ hcount hd hr => hd (hcount.read_of_read hr)) hr
  | _ => exact hr

/-- A connection the reactor listens to is not closing. -/
def Conn.Listening (c : Conn) : Prop := c.readRegistered = true → c.state ≠ .closing

theorem listening_init (f : Start) : (Conn.init f).Listening := fun _ h => nomatch h

theorem Conn.Listening.handlerCall_input (hc : c.Listening) (hread : c.readRegistered = true)
    (env : Env) (raw : Received) :
    handlerCall c ⟨env, .input raw⟩ = (EAuthCmd.ofByte? raw.cmd).map fun cmd => (cmd, raw) := by
  rw [handlerCall]
  dsimp only
  rw [if_pos hread, Conn.handlerOf, if_neg (hc hread)]

theorem Conn.Counted.listening (h : Conn.Counted sha c c') (hc : c.Listening) : c'.Listening := by
  cases h with
  | sent => exact hc
  | dropped => exact fun hr => nomatch hr

theorem Trans.listening (h : Trans sha c e c') (hc : c.Listening) : c'.Listening := by
  cases h with
  | died | proofUnsupported | sessionkeyFound => exact fun hr => nomatch hr
  | challengeTaken | proofPassed | reconnectTaken | reconnectPassed | sessionkeyMissing =>
    exact fun _ => nofun
  | charsCounted res mid _ _ _ hmid hlast =>
    exact Conn.counted_induction hmid hlast hc fun _ _ hcount hd => hcount.listening hd
  | _ => exact hc

/-- Nothing is received once the reactor has forgotten the socket. -/
theorem no_calls_of_run (hread : c.readRegistered = false)
    (h : Runs.run (step sha) c es = some c') : inputs es = [] ∧ handlerCalls sha c es = [] := by
  induction es generalizing c with
  | nil => exact ⟨rfl, rfl⟩
  | cons e es ih =>
    obtain ⟨c₁, hstep, hrun⟩ := Option.bind_eq_some_iff.mp h
    have hread₁ : c₁.readRegistered = false := by
      by_contra hne
      rw [(trans_of_step hstep).read_of_read (Bool.eq_true_of_not_eq_false hne)] at hread
      cases hread
    obtain ⟨hinputs, hcalls⟩ := ih hread₁ hrun
    have hcall : handlerCall c e = none := by
      rw [handlerCall]
      split
      · rw [hread]
        rfl
      · rfl
    have hinput : inputs (e :: es) = inputs es := by
      obtain ⟨env, action⟩ := e
      cases action with
      | input raw =>
        rw [step] at hstep
        dsimp only at hstep
        rw [hread] at hstep
        cases hstep
      | _ => rfl
    rw [hinput, handlerCalls, hcall, hstep]
    exact ⟨hinputs, hcalls⟩

/-- **Everything that is received goes to a handler**, but for one last unknown command. -/
theorem calls_of_run (hc : c.Listening) (h : Runs.run (step sha) c es = some c') :
    ∃ rest, inputs es = (handlerCalls sha c es).map Prod.snd ++ rest ∧
      (rest = [] ∨ ∃ raw, rest = [raw] ∧ EAuthCmd.ofByte? raw.cmd = none) ∧
      ∀ call ∈ handlerCalls sha c es, EAuthCmd.ofByte? call.2.cmd = some call.1 := by
  induction es generalizing c with
  | nil =>
    refine ⟨[], rfl, Or.inl rfl, ?_⟩
    rintro call ⟨⟩
  | cons e es ih =>
    obtain ⟨c₁, hstep, hrun⟩ := Option.bind_eq_some_iff.mp h
    obtain ⟨rest, hinputs, hrest, hcalls⟩ := ih ((trans_of_step hstep).listening hc) hrun
    rw [handlerCalls, hstep, Option.map_some, Option.getD_some]
    obtain ⟨env, action⟩ := e
    cases action with
    | input raw =>
      obtain ⟨hread, hinput⟩ := Option.ite_none_right_eq_some.mp hstep
      have hcons : inputs (⟨env, .input raw⟩ :: es) = raw :: inputs es := rfl
      cases hcmd : EAuthCmd.ofByte? raw.cmd with
      | none =>
        -- the connection is dropped, and nothing follows
        have hcall : handlerCall c ⟨env, .input raw⟩ = none := by
          rw [hc.handlerCall_input hread, hcmd]
          rfl
        rw [Conn.handleInput, if_neg (hc hread), hcmd] at hinput
        obtain rfl := Option.some.inj hinput
        obtain ⟨hnone, hnocalls⟩ := no_calls_of_run (by rfl) hrun
        rw [hcall, hcons, hnone, hnocalls]
        refine ⟨[raw], rfl, Or.inr ⟨raw, rfl, hcmd⟩, ?_⟩
        rintro call ⟨⟩
      | some cmd =>
        have hcall : handlerCall c ⟨env, .input raw⟩ = some (cmd, raw) := by
          rw [hc.handlerCall_input hread, hcmd]
          rfl
        rw [hcall, hcons, hinputs]
        refine ⟨rest, rfl, hrest, ?_⟩
        intro call hmem
        rcases List.mem_cons.mp hmem with rfl | hmem
        · exact hcmd
        · exact hcalls call hmem
    | _ => exact ⟨rest, hinputs, hrest, hcalls⟩

/-! ### Every run -/

theorem readIn_rawBuf {raw : Received} {command : ClientCommand}
    (h : command.bytes <+: raw.rawBuf) : ReadIn 0 raw.bytes command.bytes :=
  readIn_of_prefix h

/-- The first byte of a command is known. -/
theorem ofByte?_cmd_of_bytes {raw : Received} {command : ClientCommand}
    (h : raw.bytes = command.bytes) : EAuthCmd.ofByte? raw.cmd = some command.cmd := by
  rw [Received.cmd, h, ClientCommand.bytes, List.headD_cons, ofByte?_code]

/-- The pieces are the commands if the handlers of the commands are called. -/
theorem eq_of_handles {f : Start} (h : run sha f es = some c) {commands : List ClientCommand}
    (hstream : ((inputs es).map Received.bytes).flatten =
      (commands.map ClientCommand.bytes).flatten)
    (hcalls : Handles (handlerCalls sha (Conn.init f) es) commands) :
    (inputs es).map Received.bytes = commands.map ClientCommand.bytes := by
  obtain ⟨rest, hinputs, hrest, -⟩ := calls_of_run (listening_init f) h
  rw [hinputs, List.map_append, List.flatten_append] at hstream
  have hread : List.Forall₂ (ReadIn 0)
      ((handlerCalls sha (Conn.init f) es).map fun call => call.2.bytes)
      (commands.map ClientCommand.bytes) := by
    rw [List.forall₂_map_left_iff, List.forall₂_map_right_iff]
    exact hcalls.imp fun _ _ hone => readIn_rawBuf hone.2
  have hfilling : ∀ m ∈ commands.map ClientCommand.bytes, NotFilling 0 m := by
    intro m hm
    obtain ⟨command, -, rfl⟩ := List.mem_map.mp hm
    exact command.notFilling
  -- a piece of zeros would have been taken for a challenge
  have hhead : ∀ b ∈ ((rest.map Received.bytes).flatten).head?, b ≠ 0 := by
    rintro b hb rfl
    rcases hrest with rfl | ⟨raw, rfl, hunknown⟩
    · cases hb
    · rw [List.map_singleton, List.flatten_singleton] at hb
      have hcmd : raw.cmd = 0 := by
        rw [Received.cmd, List.headD_eq_head?_getD, hb]
        rfl
      rw [hcmd] at hunknown
      cases hunknown
  rw [List.map_map] at hstream
  obtain ⟨heq, hnil⟩ := eq_of_readIn hread hfilling hhead hstream
  have hrest : rest = [] := by
    rcases hrest with rfl | ⟨raw, rfl, -⟩
    · rfl
    · rw [List.map_singleton, List.flatten_singleton] at hnil
      exact absurd hnil raw.ne_nil
  rw [hinputs, hrest, List.append_nil, List.map_map]
  exact heq

/-- The handlers of the commands are called if the pieces are the commands. -/
theorem handles_of_eq {f : Start} (h : run sha f es = some c) {commands : List ClientCommand}
    (heq : (inputs es).map Received.bytes = commands.map ClientCommand.bytes) :
    Handles (handlerCalls sha (Conn.init f) es) commands := by
  obtain ⟨rest, hinputs, hrest, hcalls⟩ := calls_of_run (listening_init f) h
  have hnil : rest = [] := by
    rcases hrest with rfl | ⟨raw, rfl, hunknown⟩
    · rfl
    · have hmem : raw.bytes ∈ commands.map ClientCommand.bytes := by
        rw [← heq, hinputs]
        exact List.mem_map_of_mem (List.mem_append_right _ List.mem_cons_self)
      obtain ⟨command, -, hbytes⟩ := List.mem_map.mp hmem
      rw [ofByte?_cmd_of_bytes hbytes.symm] at hunknown
      cases hunknown
  rw [hinputs, hnil, List.append_nil, List.map_map, ← List.forall₂_eq_eq_eq,
    List.forall₂_map_left_iff, List.forall₂_map_right_iff] at heq
  refine ((List.forall₂_and_left _ _).mpr ⟨hcalls, heq⟩).imp ?_
  rintro call command ⟨hcmd, hbytes⟩
  rw [ofByte?_cmd_of_bytes hbytes] at hcmd
  refine ⟨(Option.some.inj hcmd).symm, ?_⟩
  rw [Received.rawBuf, ← hbytes]
  exact List.prefix_append _ _

/-- **The handlers are called for the commands exactly where every `recv` returned one.**
For every run that receives a sequence of complete commands, however it was cut, and
whatever else happens in between, the handlers that are called are those of the commands,
in order and each with the bytes of its own, if and only if every `recv` returned the bytes
of one command. A handler that aborts or closes the connection ends the stream: there is no
`recv` after it, and no run that receives more. -/
theorem handlers_run_for_commands_iff (sha : Sha1) (f : Start) (es : List Event) (c : Conn)
    (h : run sha f es = some c) (commands : List ClientCommand)
    (hstream : ((inputs es).map Received.bytes).flatten =
      (commands.map ClientCommand.bytes).flatten) :
    Handles (handlerCalls sha (Conn.init f) es) commands ↔
      (inputs es).map Received.bytes = commands.map ClientCommand.bytes :=
  ⟨eq_of_handles h hstream, handles_of_eq h⟩

namespace FramingSample

/-- A logon challenge of the account `A`. -/
def command : ClientCommand :=
  .challenge false 0 (Bytes.zero 29) Sample.login.val Sample.login.property

/-- All of it, and its two parts. -/
def whole : Received := { bytes := command.bytes, ne_nil := by decide, length_le := by decide }

def front : Received :=
  { bytes := command.bytes.take 20, ne_nil := by decide, length_le := by decide }

def back : Received :=
  { bytes := command.bytes.drop 20, ne_nil := by decide, length_le := by decide }

end FramingSample

/-- A command that arrives in one piece is handled. -/
theorem handlers_run_for_commands_iff_sample : ∃ c,
    run Sample.zeroSha Sample.start [⟨Sample.env, .input FramingSample.whole⟩] = some c ∧
      Handles (handlerCalls Sample.zeroSha (Conn.init Sample.start)
        [⟨Sample.env, .input FramingSample.whole⟩]) [FramingSample.command] :=
  ⟨_, rfl, (handlers_run_for_commands_iff Sample.zeroSha Sample.start _ _ rfl
    [FramingSample.command] rfl).mpr rfl⟩

/-- One that arrives in two is handled twice. -/
theorem cut_command_not_handled : ∃ c,
    run Sample.zeroSha Sample.start
      [⟨Sample.env, .input FramingSample.front⟩, ⟨Sample.env, .input FramingSample.back⟩] =
        some c ∧
      FramingSample.front.bytes ++ FramingSample.back.bytes = FramingSample.command.bytes ∧
      ¬Handles (handlerCalls Sample.zeroSha (Conn.init Sample.start)
        [⟨Sample.env, .input FramingSample.front⟩, ⟨Sample.env, .input FramingSample.back⟩])
        [FramingSample.command] := by
  refine ⟨_, rfl, List.take_append_drop 20 _, ?_⟩
  intro h
  have hlen := h.length_eq
  have htwo : (handlerCalls Sample.zeroSha (Conn.init Sample.start)
      [⟨Sample.env, .input FramingSample.front⟩,
        ⟨Sample.env, .input FramingSample.back⟩]).length = 2 := rfl
  rw [htwo] at hlen
  cases hlen

end Morfeusz.Realmd
