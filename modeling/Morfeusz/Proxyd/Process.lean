import Morfeusz.Lib.Runs
import Morfeusz.Proxyd.Service

/-!
# The threads of a proxy

What a proxy tells the realm daemon, and when. `start` announces the proxy once and
schedules a timer that goes on announcing it; the threads that it has activated run `svc`,
in which they wait for the reactor, where the timer expires, and for the ORB, where the
realm daemon asks for an announcement; and `stop`, which a signal calls, takes leave of
the realm daemon before it tells the threads to end.

These are steps of one process in any order. A thread only tests `is_running` between one
round of `svc` and the next (`Morfeusz.Proxyd.ThreadPc`).
-/

namespace Morfeusz.Proxyd

open Realmd (ProxyAnnounce ProxyShutdowned)

/-- What is pushed to the event channel. -/
inductive Message
  | announce (announce : ProxyAnnounce ℚ)
  | shutdowned (proxy : ProxyShutdowned)

/-- Where `start` is, from the activation of the threads on. -/
inductive StartPc
  | activated
  | announced
  /-- The timer is scheduled and the signal handler registered. -/
  | registered
  deriving DecidableEq

/-- Where `stop` is. -/
inductive StopPc
  | notCalled
  /-- `Proxy_Shutdowned` is pushed. -/
  | shutdowned
  /-- `is_running` is cleared. -/
  | cleared
  | finished
  deriving DecidableEq

/-- Where a thread is in `svc`. -/
inductive ThreadPc
  /-- At the test of `is_running`. -/
  | head
  /-- In `handle_events`. -/
  | reactor
  /-- At `work_pending`, or in `run`. -/
  | orb
  /-- In `push`, with the timer cancelled. -/
  | requested
  /-- In `push`, with the announcement made. -/
  | announced
  | left
  deriving DecidableEq

/-- The members of `Proxy_Service` that have to do with the event channel, where its
threads are, and what was pushed, oldest first. -/
structure Process where
  service : ProxyService
  start : StartPc
  stop : StopPc
  isRunning : Bool
  /-- The ids of the timers of the reactor. -/
  timers : List ℕ
  /-- `none` is -1. -/
  announceTimerId : Option ℕ
  threads : List ThreadPc
  sent : List Message

/-- A step of one of the threads, of `start` or of `stop`. -/
inductive ProcessEvent
  /-- `start` announces. -/
  | announce
  /-- `start` schedules the timer, which is given an id. -/
  | scheduleTimer (id : ℕ)
  /-- A thread tests `is_running`. -/
  | test (i : ℕ)
  /-- A timer expires in the reactor. -/
  | timeout (i id : ℕ)
  /-- The reactor has handled something else, which may be a connection that comes or goes. -/
  | handled (i : ℕ) (change : Option Bool)
  /-- A `Proxy_Request` arrives. -/
  | request (i : ℕ) (realmId : UInt16)
  | answer (i : ℕ)
  | restartTimer (i id : ℕ)
  /-- The ORB has no work for the thread any more. -/
  | idle (i : ℕ)
  /-- `stop` takes leave. -/
  | shutdowned
  /-- `stop` clears `is_running`. -/
  | clear
  /-- `stop` closes the database. -/
  | close
  deriving DecidableEq

/-- The steps that announce the proxy. -/
def ProcessEvent.announces : ProcessEvent → Bool
  | .announce => true
  | .timeout _ _ => true
  | .answer _ => true
  | _ => false

namespace Process

/-- The process when `start` has activated its threads. -/
def init (service : ProxyService) (netThreads : ℕ) : Process where
  service := service
  start := .activated
  stop := .notCalled
  isRunning := true
  timers := []
  announceTimerId := none
  threads := List.replicate netThreads .head
  sent := []

/-- A thread goes from one place to another. -/
def move (p : Process) (i : ℕ) (here there : ThreadPc) : Option Process :=
  if p.threads[i]? = some here then some { p with threads := p.threads.set i there } else none

/-- `EC_Communicator::announce`. -/
def announce (p : Process) : Process :=
  { p with sent := p.sent ++ [.announce p.service.announce] }

/-- `EC_Communicator::shutdowned`. -/
def shutdowned (p : Process) : Process :=
  { p with sent := p.sent ++ [.shutdowned p.service.shutdowned] }

/-- `schedule_timer`, and its result. -/
def scheduleTimer (p : Process) (id : ℕ) : Process :=
  { p with timers := id :: p.timers, announceTimerId := some id }

/-- `cancel_timer`, where there is one to cancel. -/
def cancelTimer (p : Process) : Process :=
  match p.announceTimerId with
  | none => p
  | some id => { p with timers := p.timers.filter (· ≠ id) }

/-- `update_connections`, where a connection has come or gone. -/
def changeConnections (p : Process) : Option Bool → Option Process
  | none => some p
  | some up => (p.service.updateConnections up).map fun service => { p with service }

/-- One step of the process. -/
def step (p : Process) : ProcessEvent → Option Process
  | .announce =>
    if p.start = .activated then some { p.announce with start := .announced } else none
  | .scheduleTimer id =>
    if p.start = .announced ∧ id ∉ p.timers then
      some { p.scheduleTimer id with start := .registered }
    else none
  | .test i => p.move i .head (if p.isRunning then .reactor else .left)
  | .timeout i id =>
    if id ∈ p.timers then (p.move i .reactor .orb).map Process.announce else none
  | .handled i change => (p.move i .reactor .orb).bind fun p => p.changeConnections change
  | .request i realmId =>
    if realmId = p.service.realmId.toUInt16 then (p.move i .orb .requested).map cancelTimer
    else p.move i .orb .orb
  | .answer i => (p.move i .requested .announced).map Process.announce
  | .restartTimer i id =>
    if p.announceTimerId = none then p.move i .announced .orb
    else if id ∉ p.timers then
      (p.move i .announced .orb).map fun p => p.scheduleTimer id
    else none
  | .idle i => p.move i .orb .head
  | .shutdowned =>
    if p.start = .registered ∧ p.stop = .notCalled then
      some { p.shutdowned with stop := .shutdowned }
    else none
  | .clear =>
    if p.stop = .shutdowned then some { p with stop := .cleared, isRunning := false } else none
  | .close => if p.stop = .cleared then some { p with stop := .finished } else none

/-! ### What a step says -/

variable {p p' : Process} {e : ProcessEvent}

/-- The members that decide what is said, and that hardly a step changes. -/
structure Frame (p p' : Process) : Prop where
  bindAddr : p'.service.bindAddr = p.service.bindAddr
  realmId : p'.service.realmId = p.service.realmId
  stop : p'.stop = .notCalled ↔ p.stop = .notCalled

/-- What a step adds to what was said. -/
inductive Says (p : Process) (e : ProcessEvent) (p' : Process) : Prop
  | nothing (hquiet : e.announces = false) (hframe : p.Frame p')
      (hstart : p'.start = .announced ∨ p'.start = .registered →
        p.start = .announced ∨ p.start = .registered)
      (hsent : p'.sent = p.sent)
  | announce (hannounces : e.announces = true) (hframe : p.Frame p')
      (hsent : p'.sent = p.sent ++ [.announce p.service.announce])
  | shutdowned (hquiet : e.announces = false) (hbind : p'.service = p.service)
      (hstart : p.start = .registered ∧ p'.start = .registered)
      (hstop : p.stop = .notCalled) (hstop' : p'.stop ≠ .notCalled)
      (hsent : p'.sent = p.sent ++ [.shutdowned p.service.shutdowned])

theorem frame_refl (p : Process) : p.Frame p := ⟨rfl, rfl, Iff.rfl⟩

theorem exists_of_move {i : ℕ} {here there : ThreadPc} (h : p.move i here there = some p') :
    p' = { p with threads := p.threads.set i there } := by
  rw [move, Option.ite_none_right_eq_some] at h
  exact (Option.some.inj h.2).symm

theorem cancelTimer_frame (p : Process) :
    p.Frame p.cancelTimer ∧ p.cancelTimer.start = p.start ∧ p.cancelTimer.sent = p.sent := by
  rw [cancelTimer]
  split
  · exact ⟨p.frame_refl, rfl, rfl⟩
  · exact ⟨⟨rfl, rfl, Iff.rfl⟩, rfl, rfl⟩

theorem changeConnections_frame {change : Option Bool} (h : p.changeConnections change = some p') :
    p.Frame p' ∧ p'.start = p.start ∧ p'.sent = p.sent := by
  rcases change with _ | up
  · obtain rfl := Option.some.inj h
    exact ⟨p.frame_refl, rfl, rfl⟩
  · obtain ⟨service, hservice, rfl⟩ := Option.map_eq_some_iff.mp h
    obtain ⟨-, -, hrealm, hbind, -⟩ := ProxyService.updateConnections_frame hservice
    exact ⟨⟨hbind, hrealm, Iff.rfl⟩, rfl, rfl⟩

/-- A step that only moves a thread says nothing. -/
theorem says_of_move {i : ℕ} {here there : ThreadPc} (hquiet : e.announces = false)
    (h : p.move i here there = some p') : p.Says e p' := by
  obtain rfl := exists_of_move h
  exact .nothing hquiet ⟨rfl, rfl, Iff.rfl⟩ id rfl

/-- **What a step can say.** -/
theorem says_of_step (h : p.step e = some p') : p.Says e p' := by
  cases e with
  | announce =>
    rw [step, Option.ite_none_right_eq_some] at h
    obtain rfl := Option.some.inj h.2
    exact .announce rfl ⟨rfl, rfl, Iff.rfl⟩ rfl
  | scheduleTimer id =>
    rw [step, Option.ite_none_right_eq_some] at h
    obtain rfl := Option.some.inj h.2
    exact .nothing rfl ⟨rfl, rfl, Iff.rfl⟩ (fun _ => Or.inl h.1.1) rfl
  | test i => exact says_of_move rfl h
  | timeout i id =>
    rw [step, Option.ite_none_right_eq_some] at h
    obtain ⟨q, hq, rfl⟩ := Option.map_eq_some_iff.mp h.2
    obtain rfl := exists_of_move hq
    exact .announce rfl ⟨rfl, rfl, Iff.rfl⟩ rfl
  | handled i change =>
    obtain ⟨q, hq, hchange⟩ := Option.bind_eq_some_iff.mp h
    obtain rfl := exists_of_move hq
    obtain ⟨hframe, hstart, hsent⟩ := changeConnections_frame hchange
    exact .nothing rfl ⟨hframe.bindAddr, hframe.realmId, hframe.stop⟩ (fun hs => hstart ▸ hs) hsent
  | request i realmId =>
    rw [step] at h
    split at h
    · obtain ⟨q, hq, rfl⟩ := Option.map_eq_some_iff.mp h
      obtain rfl := exists_of_move hq
      obtain ⟨hframe, hstart, hsent⟩ :=
        cancelTimer_frame { p with threads := p.threads.set i .requested }
      exact .nothing rfl ⟨hframe.bindAddr, hframe.realmId, hframe.stop⟩ (fun hs => hstart ▸ hs)
        hsent
    · exact says_of_move rfl h
  | answer i =>
    obtain ⟨q, hq, rfl⟩ := Option.map_eq_some_iff.mp h
    obtain rfl := exists_of_move hq
    exact .announce rfl ⟨rfl, rfl, Iff.rfl⟩ rfl
  | restartTimer i id =>
    rw [step] at h
    split at h
    · exact says_of_move rfl h
    · rw [Option.ite_none_right_eq_some] at h
      obtain ⟨q, hq, rfl⟩ := Option.map_eq_some_iff.mp h.2
      obtain rfl := exists_of_move hq
      exact .nothing rfl ⟨rfl, rfl, Iff.rfl⟩ (fun hs => hs) rfl
  | idle i => exact says_of_move rfl h
  | shutdowned =>
    rw [step, Option.ite_none_right_eq_some] at h
    obtain rfl := Option.some.inj h.2
    exact .shutdowned rfl rfl ⟨h.1.1, h.1.1⟩ h.1.2 (by simp) rfl
  | clear =>
    rw [step, Option.ite_none_right_eq_some] at h
    obtain rfl := Option.some.inj h.2
    exact .nothing rfl ⟨rfl, rfl, by simp [h.1]⟩ id rfl
  | close =>
    rw [step, Option.ite_none_right_eq_some] at h
    obtain rfl := Option.some.inj h.2
    exact .nothing rfl ⟨rfl, rfl, by simp [h.1]⟩ id rfl

end Process

/-- The state a sequence of steps takes a proxy to, from the activation of its threads. -/
def processRun (service : ProxyService) (netThreads : ℕ) (es : List ProcessEvent) :
    Option Process :=
  Runs.run Process.step (Process.init service netThreads) es

/-! ### What was said -/

/-- An announcement of the address `bindAddr` for the realm `realmId`. -/
def Message.Announces (bindAddr : List UInt8) (realmId : UInt8) (m : Message) : Prop :=
  ∃ load, m = .announce { realmId := realmId.toUInt16, address := bindAddr, load }

/-- **What a proxy has said**: it announced itself, and once it has taken leave, it had
announced itself before. -/
structure Process.Said (bindAddr : List UInt8) (realmId : UInt8) (p : Process) : Prop where
  address : p.service.bindAddr = bindAddr
  realm : p.service.realmId = realmId
  started : p.start = .announced ∨ p.start = .registered → p.sent ≠ []
  before : p.stop = .notCalled → ∀ m ∈ p.sent, m.Announces bindAddr realmId
  after : p.stop ≠ .notCalled → ∃ front rest, front ≠ [] ∧
    (∀ m ∈ front, m.Announces bindAddr realmId) ∧ (∀ m ∈ rest, m.Announces bindAddr realmId) ∧
    p.sent = front ++ .shutdowned { address := bindAddr } :: rest

namespace Process

variable {p p' : Process} {e : ProcessEvent} {service : ProxyService} {bindAddr : List UInt8}
  {realmId : UInt8}

theorem Said.step (h : p.Said bindAddr realmId) (hstep : p.step e = some p') :
    p'.Said bindAddr realmId := by
  have hbind := h.address
  have hrealm := h.realm
  cases says_of_step hstep with
  | nothing _ hframe hstart hsent =>
    refine ⟨hframe.bindAddr.trans hbind, hframe.realmId.trans hrealm, ?_, ?_, ?_⟩ <;> rw [hsent]
    · exact fun hs => h.started (hstart hs)
    · exact fun hs => h.before (hframe.stop.mp hs)
    · exact fun hs => h.after (mt hframe.stop.mpr hs)
  | announce _ hframe hsent =>
    have hmsg : (Message.announce p.service.announce).Announces bindAddr realmId := by
      subst hbind hrealm
      exact ⟨p.service.load, rfl⟩
    refine ⟨hframe.bindAddr.trans hbind, hframe.realmId.trans hrealm, ?_, ?_, ?_⟩ <;> rw [hsent]
    · exact fun _ => List.append_ne_nil_of_right_ne_nil _ (List.cons_ne_nil _ _)
    · intro hs m hm
      rcases List.mem_append.mp hm with hm | hm
      · exact h.before (hframe.stop.mp hs) m hm
      · obtain rfl := List.mem_singleton.mp hm
        exact hmsg
    · intro hs
      obtain ⟨front, rest, hne, hfront, hrest, heq⟩ := h.after (mt hframe.stop.mpr hs)
      refine ⟨front, rest ++ [.announce p.service.announce], hne, hfront, ?_, ?_⟩
      · intro m hm
        rcases List.mem_append.mp hm with hm | hm
        · exact hrest m hm
        · obtain rfl := List.mem_singleton.mp hm
          exact hmsg
      · rw [heq, List.append_assoc, List.cons_append]
  | shutdowned _ hservice hstart hstop hstop' hsent =>
    refine ⟨by rw [hservice, hbind], by rw [hservice, hrealm], ?_,
      fun hs => absurd hs hstop', ?_⟩ <;>
      rw [hsent]
    · exact fun _ => List.append_ne_nil_of_right_ne_nil _ (List.cons_ne_nil _ _)
    · intro _
      refine ⟨p.sent, [], h.started (Or.inr hstart.1), h.before hstop, ?_, ?_⟩
      · intro m hm
        cases hm
      · rw [ProxyService.shutdowned, hbind]

theorem said_init (service : ProxyService) (netThreads : ℕ) :
    (init service netThreads).Said service.bindAddr service.realmId where
  address := rfl
  realm := rfl
  started := by simp [init]
  before := by simp [init]
  after h := absurd rfl h

theorem said_run {netThreads : ℕ} {es : List ProcessEvent}
    (h : processRun service netThreads es = some p) : p.Said service.bindAddr service.realmId :=
  Runs.run_invariant (fun _ _ _ hs hstep => hs.step hstep) (said_init service netThreads) h

/-! ### The last word -/

/-- A proxy whose last word was that it leaves has named itself. -/
theorem Said.address_of_lastWord (h : p.Said bindAddr realmId) (hstop : p.stop ≠ .notCalled)
    {front : List Message} {proxy : ProxyShutdowned}
    (hlast : p.sent = front ++ [.shutdowned proxy]) : proxy.address = bindAddr := by
  obtain ⟨front', rest, -, -, hrest, hsent⟩ := h.after hstop
  have heq := congrArg List.getLast? (hlast.symm.trans hsent)
  rcases List.eq_nil_or_concat rest with rfl | ⟨rest, m, rfl⟩
  · rw [List.getLast?_concat, List.getLast?_concat] at heq
    rw [Message.shutdowned.inj (Option.some.inj heq)]
  · obtain ⟨load, rfl⟩ := hrest m (by simp)
    rw [List.concat_eq_append, ← List.cons_append, ← List.append_assoc, List.getLast?_concat,
      List.getLast?_concat] at heq
    cases heq

/-- A proxy that has taken leave has announced itself again. -/
def SpeaksAgain (p : Process) : Prop :=
  p.stop ≠ .notCalled ∧ ∃ front announce, p.sent = front ++ [.announce announce]

theorem SpeaksAgain.step (h : p.SpeaksAgain) (hstep : p.step e = some p') : p'.SpeaksAgain := by
  obtain ⟨hstop, front, announce, heq⟩ := h
  cases says_of_step hstep with
  | nothing _ hframe _ hsent => exact ⟨mt hframe.stop.mp hstop, front, announce, hsent.trans heq⟩
  | announce _ hframe hsent =>
    exact ⟨mt hframe.stop.mp hstop, p.sent, p.service.announce, hsent⟩
  | shutdowned _ _ _ hbefore => exact absurd hbefore hstop

/-- Where a proxy that has taken leave does not announce itself, taking leave is the last
thing it said. -/
theorem lastWord_step
    (h : p.stop ≠ .notCalled → ∃ front proxy, p.sent = front ++ [.shutdowned proxy])
    (hstep : p.step e = some p') (hgood : e.announces = true → p.stop = .notCalled) :
    p'.stop ≠ .notCalled → ∃ front proxy, p'.sent = front ++ [.shutdowned proxy] := by
  intro hstop
  cases says_of_step hstep with
  | nothing _ hframe _ hsent =>
    rw [hsent]
    exact h (mt hframe.stop.mpr hstop)
  | announce hannounces hframe _ => exact absurd (hframe.stop.mpr (hgood hannounces)) hstop
  | shutdowned _ _ _ _ _ hsent => exact ⟨p.sent, p.service.shutdowned, hsent⟩

/-- **The last word of a proxy that has taken leave** is that, exactly where no thread has
announced it since. -/
theorem lastWord_iff {netThreads : ℕ} {es : List ProcessEvent}
    (h : processRun service netThreads es = some p) (hstop : p.stop ≠ .notCalled) :
    (∃ front proxy, p.sent = front ++ [.shutdowned proxy]) ↔
      ∀ i s e s', Runs.StepAt step (init service netThreads) es i s e s' →
        e.announces = true → s.stop = .notCalled := by
  constructor
  · rintro ⟨front, proxy, heq⟩ i s e s' hat hannounces
    by_contra hleft
    have hagain : s'.SpeaksAgain := by
      cases says_of_step hat.2.2 with
      | nothing hquiet => exact absurd (hannounces.symm.trans hquiet) (by simp)
      | announce _ hframe hsent =>
        exact ⟨mt hframe.stop.mp hleft, s.sent, s.service.announce, hsent⟩
      | shutdowned hquiet => exact absurd (hannounces.symm.trans hquiet) (by simp)
    obtain ⟨-, front', announce, heq'⟩ :=
      Runs.run_invariant (fun _ _ _ hs hstep => SpeaksAgain.step hs hstep) hagain (hat.run_drop h)
    have hlast := congrArg List.getLast? (heq.symm.trans heq')
    simp at hlast
  · intro hgood
    have hall : ∀ i p, Runs.run step (init service netThreads) (es.take i) = some p →
        p.stop ≠ .notCalled → ∃ front proxy, p.sent = front ++ [.shutdowned proxy] := by
      refine Runs.run_take_induction (fun hleft => absurd rfl hleft) ?_
      intro i s e s' hat hs
      exact lastWord_step hs hat.2.2 (hgood i s e s' hat)
    exact hall es.length p (by rw [List.take_length]; exact h) hstop

end Process

end Morfeusz.Proxyd
