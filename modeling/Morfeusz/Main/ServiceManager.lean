import Mathlib.Order.Lattice
import Morfeusz.Lib.NodeMap

/-!
# The supervision of the daemons

`Service_Manager` keeps the daemons it has started in a multimap and looks through it from
time to time. `update_services` walks the map with an iterator; where a daemon has died it
starts a new one of the kind, which goes behind the others of the kind, and erases the entry
of the old one. The erasure moves the iterator on, and the loop does so again.

So the entry behind a dead one is passed over. That does no harm if it is the new one, and
it is if the dead one was the last of its kind and its successor could be started; otherwise
a daemon is not looked at in that pass, or the iterator runs over the end
(`Morfeusz.Main.supervises_iff`).
-/

namespace Morfeusz.Main

/-! ### The services -/

/-- `MorpheusServices`. -/
inductive MorpheusServices
  | loginserver
  | gameserver
  | zoneserver
  | socialserver
  deriving DecidableEq

def MorpheusServices.toNat : MorpheusServices → ℕ
  | loginserver => 0
  | gameserver => 1
  | zoneserver => 2
  | socialserver => 3

instance : LinearOrder MorpheusServices := LinearOrder.lift' MorpheusServices.toNat (by
  intro a b h
  cases a <;> cases b <;> first | rfl | cases h)

/-- `ServiceStatus`. -/
inductive ServiceStatus
  | off
  | on
  deriving DecidableEq

/-- `ServiceInfo`. -/
structure ServiceInfo where
  status : ServiceStatus
  pid : UInt32
  deriving DecidableEq

/-- `ServiceInfo(pid_t)`. -/
def ServiceInfo.ofPid (pid : UInt32) : ServiceInfo := { status := .on, pid }

/-! ### The state of a process -/

/-- `strtok(…, " ")` on what is left of a text, where a blank follows the token: the token
and what is left then. Without a blank it would read on behind the buffer. -/
def strtok (text : List UInt8) : Option (List UInt8 × List UInt8) :=
  let text := text.dropWhile (· = 32)
  match text.dropWhile fun c => c ≠ 32 ∧ c ≠ 0 with
  | 32 :: rest => some (text.takeWhile fun c => c ≠ 32 ∧ c ≠ 0, rest)
  | _ => none

/-- The first byte of the third field of the 99 bytes that are read of a file. -/
def statusOf (text : List UInt8) : Option UInt8 := do
  let (_, text) ← strtok (text.take 99)
  let (_, text) ← strtok text
  let (status, _) ← strtok text
  status.head?

/-- The file of a process: it has a third field. -/
structure StatFile where
  text : List UInt8
  readable : (statusOf text).isSome

def StatFile.status (file : StatFile) : UInt8 := (statusOf file.text).get file.readable

/-- What there is below `/proc` during a pass. -/
abbrev Proc := UInt32 → Option StatFile

/-- The local `path`, without its terminator. -/
def path (pid : UInt32) : String := "/proc/" ++ pid.toNat.repr ++ "/stat"

/-- The path fits its buffer. -/
def PathFits (pid : UInt32) : Prop := (path pid).length < 6 + 6 + 5

instance (pid : UInt32) : Decidable (PathFits pid) := inferInstanceAs (Decidable (_ < _))

/-- **It does for numbers of up to five digits.** -/
theorem pathFits_iff (pid : UInt32) : PathFits pid ↔ pid.toNat < 100000 := by
  have hlen : (path pid).length = pid.toNat.repr.length + 11 := by
    rw [path, String.length_append, String.length_append]
    change 6 + _ + 5 = _
    omega
  have hdigits : pid.toNat.repr.length ≤ 5 ↔ pid.toNat < 10 ^ 5 := Nat.length_repr_le_iff (by simp)
  rw [PathFits, hlen]
  omega

/-- `is_dead`: there is no file, or it says that the process is a zombie. -/
def isDead (proc : Proc) (pid : UInt32) : Bool :=
  match proc pid with
  | none => true
  | some file => file.status = 0x5A

/-- The process has to be looked for, and is not alive. -/
def ServiceInfo.Dead (proc : Proc) (info : ServiceInfo) : Prop :=
  info.status = .on ∧ isDead proc info.pid = true

instance (proc : Proc) (info : ServiceInfo) : Decidable (info.Dead proc) :=
  inferInstanceAs (Decidable (_ ∧ _))

/-! ### The pass -/

/-- The multimap of the services. -/
abbrev Svcs := NodeMap MorpheusServices ServiceInfo

/-- The services and the local state of `update_services`. -/
structure Pass where
  svcs : Svcs
  /-- `iter`, which is `end()` where there is no node. -/
  iter : Option ℕ
  /-- How often `spawn` was called. -/
  spawned : ℕ
  /-- The processes that were sent `SIGKILL`. -/
  killed : List UInt32
  /-- The nodes the loop has looked at. -/
  examined : List ℕ

/-- What a pass depends on: the processes there are, what each call of `spawn` returns, and
the memory for the new nodes. -/
structure World where
  proc : Proc
  spawn : ℕ → Option UInt32
  memory : Allocator

variable (w : World)

/-- `run_realmd` and `run_proxyd`, up to the kind of the service. -/
def run (kind : MorpheusServices) (s : Pass) : Pass :=
  match w.spawn s.spawned with
  | none => { s with spawned := s.spawned + 1 }
  | some pid =>
    { s with
      svcs := s.svcs.insert w.memory kind (.ofPid pid)
      spawned := s.spawned + 1 }

def runRealmd (s : Pass) : Pass := run w .loginserver s

def runProxyd (s : Pass) : Pass := run w .gameserver s

/-- The `switch` over the kind of a service that is dead. -/
def restart (s : Pass) : MorpheusServices → Pass
  | .loginserver => runRealmd w s
  | .gameserver => runProxyd w s
  | _ => s

/-- `iter++`: there is nothing behind the end. -/
def Pass.advance (s : Pass) : Option Pass :=
  s.iter.map fun p => { s with iter := s.svcs.next p }

/-- The `SIGKILL` for a process that is dead and still has a file. -/
def kill (s : Pass) (pid : UInt32) : Pass :=
  if (w.proc pid).isSome then { s with killed := s.killed ++ [pid] } else s

/-- The branch of a service that is dead. -/
def replace (s : Pass) (node : Node MorpheusServices ServiceInfo) : Option Pass := do
  -- `erase(iter++)`
  let s ← (restart w s node.key).advance
  some { s with svcs := s.svcs.erase node.place }

/-- A round of the loop up to the `iter++` in its head. -/
def body (s : Pass) (node : Node MorpheusServices ServiceInfo) : Option Pass :=
  let s := { s with examined := s.examined ++ [node.place] }
  if node.value.status = .off then some s
  else if ¬PathFits node.value.pid then none
  else if isDead w.proc node.value.pid then replace w (kill w s node.value.pid) node
  else some s

/-- The loop, with a bound on its rounds. -/
def loop : ℕ → Pass → Option Pass
  | fuel, s =>
    match s.iter with
    | none => some s
    | some p =>
      match fuel with
      | 0 => none
      | fuel + 1 => do
        let node ← s.svcs.node? p
        let s ← body w s node
        let s ← s.advance
        loop fuel s

/-- `begin()`. -/
def Pass.start (svcs : Svcs) : Pass where
  svcs := svcs
  iter := svcs.places.head?
  spawned := 0
  killed := []
  examined := []

/-- `update_services`. No round leaves more nodes ahead of the iterator than one less, so
the nodes there are at first bound the rounds. -/
def updateServices (svcs : Svcs) : Option Pass := loop w svcs.nodes.length (.start svcs)

/-! ### What a pass has to do -/

/-- What comes of starting a service of a kind, and how often `spawn` was called then. The
kinds nobody starts have no call. -/
def World.outcome (spawned : ℕ) : MorpheusServices → Option UInt32 × ℕ
  | .loginserver | .gameserver => (w.spawn spawned, spawned + 1)
  | _ => (none, spawned)

/-- The entries there should be after a pass: one for each that is left alone, and one for
each that could be replaced. -/
def expected : List (Node MorpheusServices ServiceInfo) → ℕ → List (MorpheusServices × ServiceInfo)
  | [], _ => []
  | node :: ahead, spawned =>
    if node.value.Dead w.proc then
      let outcome := w.outcome spawned node.key
      (outcome.1.map fun pid => (node.key, .ofPid pid)).toList ++ expected ahead outcome.2
    else (node.key, node.value) :: expected ahead spawned

/-- **One pass does what it is for**: it comes to its end, every entry was looked at once,
those that are alive or off are where they were, and what the map holds is what should be
there. -/
def Supervises (svcs : Svcs) : Prop :=
  ∃ r, updateServices w svcs = some r ∧
    (∀ node ∈ svcs.nodes, r.examined.count node.place = 1) ∧
    (∀ node ∈ svcs.nodes, ¬node.value.Dead w.proc → node ∈ r.svcs.nodes) ∧
    r.svcs.entries.Perm (expected w svcs.nodes 0)

/-- No service is looked at whose number does not fit the path, and those that are dead are
each the last of their kind, and can be started. -/
def Clean : List (Node MorpheusServices ServiceInfo) → ℕ → Prop
  | [], _ => True
  | node :: ahead, spawned =>
    (node.value.status = .on → PathFits node.value.pid) ∧
      if node.value.Dead w.proc then
        (w.outcome spawned node.key).1.isSome ∧ (∀ other ∈ ahead, other.key ≠ node.key) ∧
          Clean ahead (w.outcome spawned node.key).2
      else Clean ahead spawned

/-! ### One round -/

/-- The iterator has come to the nodes ahead. -/
structure Pass.At (s : Pass) (behind ahead : List (Node MorpheusServices ServiceInfo)) :
    Prop where
  nodes : s.svcs.nodes = behind ++ ahead
  iter : s.iter = ahead.head?.map Node.place

/-- The nodes ahead of one that is dead, once its successor was or was not started. -/
def restarted (s : Pass) (node : Node MorpheusServices ServiceInfo)
    (ahead : List (Node MorpheusServices ServiceInfo)) :
    List (Node MorpheusServices ServiceInfo) :=
  match (w.outcome s.spawned node.key).1 with
  | none => ahead
  | some pid => NodeMap.insertNode (s.svcs.newNode w.memory node.key (.ofPid pid)) ahead

variable {w} {s s' : Pass} {node : Node MorpheusServices ServiceInfo}
  {behind ahead : List (Node MorpheusServices ServiceInfo)}

theorem Pass.At.advance (h : s.At behind (node :: ahead)) :
    s.advance = some { s with iter := ahead.head?.map Node.place } := by
  rw [Pass.advance, h.iter, List.head?_cons, Option.map_some, Option.map_some,
    NodeMap.next_of_nodes_eq h.nodes]

/-- Behind the last node is the end, and nothing behind that. -/
theorem Pass.At.advance_nil (h : s.At behind []) : s.advance = none := by
  rw [Pass.advance, h.iter]
  rfl

theorem length_restarted (w : World) (s : Pass) (node : Node MorpheusServices ServiceInfo)
    (ahead : List (Node MorpheusServices ServiceInfo)) :
    (restarted w s node ahead).length ≤ ahead.length + 1 := by
  rw [restarted]
  split
  · exact Nat.le_succ _
  · exact (NodeMap.perm_insertNode _ _).length_eq.le

/-- The iterator moves on. -/
theorem Pass.At.exists_advance (h : s.At behind (node :: ahead)) :
    ∃ s', s.advance = some s' ∧ s'.At (behind ++ [node]) ahead ∧ s'.examined = s.examined ∧
      s'.spawned = s.spawned := by
  refine ⟨_, h.advance, ⟨?_, rfl⟩, rfl, rfl⟩
  rw [List.append_assoc]
  exact h.nodes

/-- What a restart does at a walk. -/
theorem Pass.At.restart (h : s.At behind (node :: ahead)) :
    ∃ svcs, restart w s node.key =
        { s with svcs, spawned := (w.outcome s.spawned node.key).2 } ∧
      svcs.nodes = behind ++ node :: restarted w s node ahead := by
  have hrun : ∃ svcs, run w node.key s = { s with svcs, spawned := s.spawned + 1 } ∧
      svcs.nodes = behind ++ node :: match w.spawn s.spawned with
        | none => ahead
        | some pid => NodeMap.insertNode (s.svcs.newNode w.memory node.key (.ofPid pid)) ahead := by
    rw [run]
    cases w.spawn s.spawned with
    | none => exact ⟨s.svcs, rfl, h.nodes⟩
    | some pid => exact ⟨_, rfl, NodeMap.nodes_insert_of_nodes_eq w.memory h.nodes (.ofPid pid)⟩
  rw [restarted]
  cases hkey : node.key with
  | loginserver =>
    rw [hkey] at hrun
    exact hrun
  | gameserver =>
    rw [hkey] at hrun
    exact hrun
  | zoneserver => exact ⟨s.svcs, rfl, h.nodes⟩
  | socialserver => exact ⟨s.svcs, rfl, h.nodes⟩

/-- **A service that is alive or off** is looked at. -/
theorem Pass.At.body_of_not_dead (h : s.At behind (node :: ahead))
    (hfits : node.value.status = .on → PathFits node.value.pid)
    (hdead : ¬node.value.Dead w.proc) :
    ∃ s', body w s node = some s' ∧ s'.At behind (node :: ahead) ∧
      s'.examined = s.examined ++ [node.place] ∧ s'.spawned = s.spawned := by
  refine ⟨{ s with examined := s.examined ++ [node.place] }, ?_, ⟨h.nodes, h.iter⟩, rfl, rfl⟩
  rw [body]
  by_cases hoff : node.value.status = .off
  · rw [if_pos hoff]
  · have hon : node.value.status = .on := by
      cases hstatus : node.value.status with
      | off => exact absurd hstatus hoff
      | on => rfl
    rw [if_neg hoff, if_neg (not_not.mpr (hfits hon)), if_neg fun h => hdead ⟨hon, h⟩]

/-- Whether a process is killed makes no difference to the walk. -/
theorem kill_eq (w : World) (s : Pass) (pid : UInt32) :
    ∃ killed, kill w s pid = { s with killed } := by
  rw [kill]
  split
  · exact ⟨_, rfl⟩
  · exact ⟨s.killed, rfl⟩

/-- The node is gone, and the iterator is at what is ahead of it then. -/
theorem Pass.At.replace (h : s.At behind (node :: ahead)) :
    ∃ s', replace w s node = some s' ∧ s'.At behind (restarted w s node ahead) ∧
      s'.examined = s.examined ∧ s'.spawned = (w.outcome s.spawned node.key).2 := by
  obtain ⟨svcs, hrestart, hnodes⟩ := h.restart (w := w)
  rw [Main.replace, hrestart]
  have hrestarted : Pass.At { s with svcs, spawned := (w.outcome s.spawned node.key).2 } behind
      (node :: restarted w s node ahead) := ⟨hnodes, h.iter⟩
  rw [hrestarted.advance]
  exact ⟨_, rfl, ⟨NodeMap.nodes_erase hnodes, rfl⟩, rfl, rfl⟩

/-- **A service that is dead** is looked at and erased, and the iterator moves on. -/
theorem Pass.At.body_of_dead (h : s.At behind (node :: ahead))
    (hfits : PathFits node.value.pid) (hdead : node.value.Dead w.proc) :
    ∃ s', body w s node = some s' ∧ s'.At behind (restarted w s node ahead) ∧
      s'.examined = s.examined ++ [node.place] ∧
      s'.spawned = (w.outcome s.spawned node.key).2 := by
  have hon : ¬node.value.status = .off := by
    rw [hdead.1]
    decide
  rw [body, if_neg hon, if_neg (not_not.mpr hfits), if_pos hdead.2]
  obtain ⟨killed, hkill⟩ := kill_eq w { s with examined := s.examined ++ [node.place] }
    node.value.pid
  rw [hkill]
  have hkilled : Pass.At { s with killed, examined := s.examined ++ [node.place] } behind
      (node :: ahead) := ⟨h.nodes, h.iter⟩
  exact hkilled.replace

theorem body_of_not_fits (hon : node.value.status = .on) (hfits : ¬PathFits node.value.pid) :
    body w s node = none := by
  have hnot : ¬node.value.status = .off := by
    rw [hon]
    decide
  rw [body, if_neg hnot, if_pos hfits]

/-! ### The loop -/

theorem loop_of_end (h : s.iter = none) (fuel : ℕ) : loop w fuel s = some s := by
  rw [loop, h]

theorem Pass.At.loop_succ (h : s.At behind (node :: ahead)) (fuel : ℕ) :
    loop w (fuel + 1) s =
      (body w s node).bind fun s' => s'.advance.bind fun s'' => loop w fuel s'' := by
  rw [loop, h.iter]
  change (s.svcs.node? node.place).bind _ = _
  rw [NodeMap.node?_of_nodes_eq h.nodes]
  rfl

/-- **A round that comes to its end** passes one node, and leaves no more ahead than there
were behind the one it was about. -/
theorem Pass.At.round {s₁ s₂ : Pass} (h : s.At behind (node :: ahead))
    (hbody : body w s node = some s₁) (hadvance : s₁.advance = some s₂) :
    ∃ passed ahead', s₂.At (behind ++ [passed]) ahead' ∧
      s₂.examined = s.examined ++ [node.place] ∧ ahead'.length ≤ ahead.length := by
  have hfits : node.value.status = .on → PathFits node.value.pid := by
    intro hon
    by_contra hfits
    rw [body_of_not_fits hon hfits] at hbody
    cases hbody
  by_cases hdead : node.value.Dead w.proc
  · obtain ⟨s', hs', hat, hexamined, -⟩ := h.body_of_dead (hfits hdead.1) hdead
    obtain rfl := Option.some.inj (hs'.symm.trans hbody)
    have hlen := length_restarted w s node ahead
    rcases hrestarted : restarted w s node ahead with _ | ⟨next, rest⟩
    · rw [hrestarted] at hat
      rw [hat.advance_nil] at hadvance
      cases hadvance
    · rw [hrestarted] at hat hlen
      obtain ⟨s'', hs'', hat', hexamined', -⟩ := hat.exists_advance
      obtain rfl := Option.some.inj (hs''.symm.trans hadvance)
      exact ⟨next, rest, hat', hexamined'.trans hexamined, Nat.le_of_succ_le_succ hlen⟩
  · obtain ⟨s', hs', hat, hexamined, -⟩ := h.body_of_not_dead hfits hdead
    obtain rfl := Option.some.inj (hs'.symm.trans hbody)
    obtain ⟨s'', hs'', hat', hexamined', -⟩ := hat.exists_advance
    obtain rfl := Option.some.inj (hs''.symm.trans hadvance)
    exact ⟨node, ahead, hat', hexamined'.trans hexamined, le_rfl⟩

/-- **The nodes ahead bound the rounds**: a greater bound makes no difference. -/
theorem Pass.At.loop_fuel {fuel : ℕ} (h : s.At behind ahead) (hfuel : ahead.length ≤ fuel) :
    loop w (fuel + 1) s = loop w fuel s := by
  induction fuel generalizing s behind ahead with
  | zero =>
    obtain rfl := List.length_eq_zero_iff.mp (Nat.le_zero.mp hfuel)
    rw [loop_of_end h.iter, loop_of_end h.iter]
  | succ fuel ih =>
    rcases ahead with _ | ⟨node, ahead⟩
    · rw [loop_of_end h.iter, loop_of_end h.iter]
    · rw [h.loop_succ, h.loop_succ]
      cases hbody : body w s node with
      | none => rfl
      | some s₁ =>
        rw [Option.bind_some, Option.bind_some]
        cases hadvance : s₁.advance with
        | none => rfl
        | some s₂ =>
          obtain ⟨passed, ahead', hat, -, hlen⟩ := h.round hbody hadvance
          rw [Option.bind_some, Option.bind_some]
          exact ih hat (hlen.trans (Nat.le_of_succ_le_succ hfuel))

/-- **A node that was passed** is not looked at any more. -/
theorem Pass.At.count_of_passed {fuel : ℕ} {r : Pass} {x : Node MorpheusServices ServiceInfo}
    (h : s.At behind ahead) (hx : x ∈ behind) (hr : loop w fuel s = some r) :
    r.examined.count x.place = s.examined.count x.place := by
  induction fuel generalizing s behind ahead with
  | zero =>
    rcases ahead with _ | ⟨node, ahead⟩
    · rw [loop_of_end h.iter] at hr
      rw [Option.some.inj hr]
    · rw [loop, h.iter] at hr
      cases hr
  | succ fuel ih =>
    rcases ahead with _ | ⟨node, ahead⟩
    · rw [loop_of_end h.iter] at hr
      rw [Option.some.inj hr]
    · rw [h.loop_succ] at hr
      obtain ⟨s₁, hbody, hr⟩ := Option.bind_eq_some_iff.mp hr
      obtain ⟨s₂, hadvance, hr⟩ := Option.bind_eq_some_iff.mp hr
      obtain ⟨passed, ahead', hat, hexamined, -⟩ := h.round hbody hadvance
      have hne : ¬(node.place == x.place) = true := by
        rw [beq_iff_eq]
        exact (NodeMap.place_ne_of_before h.nodes x hx).symm
      rw [ih hat (List.mem_append_left _ hx) hr, hexamined, List.count_append,
        List.count_singleton, if_neg hne, Nat.add_zero]

/-! ### Every pass -/

/-- What is ahead of a node is of its kind or of a later one. -/
theorem key_le_of_nodes_eq {svcs : Svcs} (h : svcs.nodes = behind ++ node :: ahead) :
    ∀ other ∈ ahead, node.key ≤ other.key := by
  have hsorted := svcs.sorted
  rw [h] at hsorted
  exact (List.pairwise_cons.mp (List.pairwise_append.mp hsorted).2.1).1

/-- The new entry for the last service of its kind stands right behind it. -/
theorem Pass.At.restarted_of_last {pid : UInt32} (h : s.At behind (node :: ahead))
    (hpid : (w.outcome s.spawned node.key).1 = some pid)
    (hlast : ∀ other ∈ ahead, other.key ≠ node.key) :
    restarted w s node ahead = s.svcs.newNode w.memory node.key (.ofPid pid) :: ahead := by
  rw [restarted, hpid]
  refine NodeMap.insertNode_of_lt ?_
  intro other hmem
  exact lt_of_le_of_ne (key_le_of_nodes_eq h.nodes other hmem) (hlast other hmem).symm

/-- A service is the last of its kind, and can be started. -/
def Replaceable (w : World) (spawned : ℕ) (node : Node MorpheusServices ServiceInfo)
    (ahead : List (Node MorpheusServices ServiceInfo)) : Prop :=
  (w.outcome spawned node.key).1.isSome ∧ ∀ other ∈ ahead, other.key ≠ node.key

/-- How often `spawn` was called when a service has been looked at. -/
def callsAfter (w : World) (spawned : ℕ) (node : Node MorpheusServices ServiceInfo) : ℕ :=
  if node.value.Dead w.proc then (w.outcome spawned node.key).2 else spawned

theorem clean_cons_iff {spawned : ℕ} :
    Clean w (node :: ahead) spawned ↔
      (node.value.status = .on → PathFits node.value.pid) ∧
        (node.value.Dead w.proc → Replaceable w spawned node ahead) ∧
        Clean w ahead (callsAfter w spawned node) := by
  rw [Clean, callsAfter]
  refine and_congr_right fun _ => ?_
  by_cases hdead : node.value.Dead w.proc
  · rw [if_pos hdead, if_pos hdead, imp_iff_right hdead, Replaceable, and_assoc]
  · rw [if_neg hdead, if_neg hdead]
    exact (and_iff_right fun h => absurd h hdead).symm

/-- **A round that goes well** leaves what was ahead, and behind it the entry there should
be. -/
theorem Pass.At.round_of_replaceable (h : s.At behind (node :: ahead))
    (hfits : node.value.status = .on → PathFits node.value.pid)
    (hgood : node.value.Dead w.proc → Replaceable w s.spawned node ahead) :
    ∃ s₁ s₂ passed, body w s node = some s₁ ∧ s₁.advance = some s₂ ∧
      s₂.At (behind ++ [passed]) ahead ∧ s₂.examined = s.examined ++ [node.place] ∧
      s₂.spawned = callsAfter w s.spawned node ∧
      expected w (node :: ahead) s.spawned =
        (passed.key, passed.value) :: expected w ahead s₂.spawned ∧
      (¬node.value.Dead w.proc → passed = node) := by
  rw [callsAfter, expected]
  by_cases hdead : node.value.Dead w.proc
  · obtain ⟨hsome, hlast⟩ := hgood hdead
    obtain ⟨pid, hpid⟩ := Option.isSome_iff_exists.mp hsome
    obtain ⟨s₁, hbody, hat, hexamined, hspawned⟩ := h.body_of_dead (hfits hdead.1) hdead
    rw [h.restarted_of_last hpid hlast] at hat
    obtain ⟨s₂, hadvance, hat, hexamined', hspawned'⟩ := hat.exists_advance
    refine ⟨s₁, s₂, _, hbody, hadvance, hat, hexamined'.trans hexamined, ?_, ?_,
      fun halive => absurd hdead halive⟩
    · rw [if_pos hdead, hspawned', hspawned]
    · rw [if_pos hdead, hspawned', hspawned]
      dsimp only
      rw [hpid]
      rfl
  · obtain ⟨s₁, hbody, hat, hexamined, hspawned⟩ := h.body_of_not_dead hfits hdead
    obtain ⟨s₂, hadvance, hat, hexamined', hspawned'⟩ := hat.exists_advance
    refine ⟨s₁, s₂, node, hbody, hadvance, hat, hexamined'.trans hexamined, ?_, ?_, fun _ => rfl⟩
    · rw [if_neg hdead, hspawned', hspawned]
    · rw [if_neg hdead, hspawned', hspawned]

/-- **The loop, where every dead service is the last of its kind and can be started.** -/
theorem Pass.At.loop_of_clean {fuel : ℕ} (h : s.At behind ahead) (hfuel : ahead.length ≤ fuel)
    (hclean : Clean w ahead s.spawned) :
    ∃ r done, loop w fuel s = some r ∧ r.svcs.nodes = behind ++ done ∧
      r.examined = s.examined ++ ahead.map Node.place ∧
      done.map (fun node => (node.key, node.value)) = expected w ahead s.spawned ∧
      ∀ node ∈ ahead, ¬node.value.Dead w.proc → node ∈ done := by
  induction ahead generalizing fuel s behind with
  | nil =>
    exact ⟨s, [], loop_of_end h.iter fuel, h.nodes, (List.append_nil _).symm, rfl, nofun⟩
  | cons node ahead ih =>
    rcases fuel with _ | fuel
    · cases hfuel
    obtain ⟨hfits, hgood, hclean⟩ := clean_cons_iff.mp hclean
    obtain ⟨s₁, s₂, passed, hbody, hadvance, hat, hexamined, hspawned, hexpected, hsame⟩ :=
      h.round_of_replaceable hfits hgood
    rw [← hspawned] at hclean
    obtain ⟨r, done, hr, hnodes, hall, hentries, hkept⟩ :=
      ih hat (Nat.le_of_succ_le_succ hfuel) hclean
    refine ⟨r, passed :: done, ?_, ?_, ?_, ?_, ?_⟩
    · rw [h.loop_succ, hbody, Option.bind_some, hadvance, Option.bind_some, hr]
    · rw [hnodes, List.append_assoc]
      rfl
    · rw [hall, hexamined, List.append_assoc]
      rfl
    · rw [List.map_cons, hentries, hexpected]
    · intro other hmem halive
      rcases List.mem_cons.mp hmem with rfl | hmem
      · rw [hsame halive]
        exact List.mem_cons_self
      · exact List.mem_cons_of_mem _ (hkept other hmem halive)

/-- Unless a dead service is the last of its kind and can be started, the node behind it is
an old one, if there is one. -/
theorem Pass.At.restarted_of_not_last (h : s.At behind (node :: ahead))
    (hbad : ¬Replaceable w s.spawned node ahead) :
    restarted w s node ahead = [] ∨
      ∃ x ∈ ahead, ∃ rest, restarted w s node ahead = x :: rest := by
  rw [restarted]
  cases houtcome : (w.outcome s.spawned node.key).1 with
  | none =>
    rcases ahead with _ | ⟨x, ahead⟩
    · exact Or.inl rfl
    · exact Or.inr ⟨x, List.mem_cons_self, ahead, rfl⟩
  | some pid =>
    rw [Replaceable, houtcome] at hbad
    push Not at hbad
    obtain ⟨other, hother, hkey⟩ := hbad rfl
    rcases ahead with _ | ⟨x, ahead⟩
    · cases hother
    · refine Or.inr ⟨x, List.mem_cons_self, ?_⟩
      -- the first node ahead is of the same kind, so the new one goes behind it
      have hle : x.key ≤ node.key := by
        rcases List.mem_cons.mp hother with rfl | hother
        · exact hkey.le
        · have hnodes : s.svcs.nodes = (behind ++ [node]) ++ x :: ahead := by
            rw [h.nodes, List.append_assoc]
            rfl
          exact (key_le_of_nodes_eq hnodes other hother).trans hkey.le
      have hsingle : ∀ other ∈ [x],
          other.key ≤ (s.svcs.newNode w.memory node.key (.ofPid pid)).key := by
        intro other hmem
        rw [List.mem_singleton.mp hmem]
        exact hle
      exact ⟨_, NodeMap.insertNode_append hsingle⟩

/-- **Otherwise an old node is passed** that was not looked at, if there is one. -/
theorem Pass.At.passes_old {s₁ s₂ : Pass} (h : s.At behind (node :: ahead))
    (hfits : PathFits node.value.pid) (hdead : node.value.Dead w.proc)
    (hbad : ¬Replaceable w s.spawned node ahead) (hbody : body w s node = some s₁)
    (hadvance : s₁.advance = some s₂) :
    ∃ x ∈ ahead, ∃ rest, s₂.At (behind ++ [x]) rest ∧
      s₂.examined = s.examined ++ [node.place] := by
  obtain ⟨s', hs', hat, hexamined, -⟩ := h.body_of_dead hfits hdead
  obtain rfl := Option.some.inj (hs'.symm.trans hbody)
  rcases h.restarted_of_not_last hbad with hnil | ⟨x, hx, rest, hrest⟩
  · rw [hnil] at hat
    rw [hat.advance_nil] at hadvance
    cases hadvance
  · rw [hrest] at hat
    obtain ⟨s'', hs'', hat', hexamined', -⟩ := hat.exists_advance
    obtain rfl := Option.some.inj (hs''.symm.trans hadvance)
    exact ⟨x, hx, rest, hat', hexamined'.trans hexamined⟩

/-- **Conversely**, where every node ahead is looked at, every dead service is the last of
its kind and can be started. -/
theorem Pass.At.clean_of_loop {fuel : ℕ} {r : Pass} (h : s.At behind ahead)
    (hr : loop w fuel s = some r)
    (hnew : ∀ node ∈ ahead, s.examined.count node.place = 0)
    (honce : ∀ node ∈ ahead, r.examined.count node.place = 1) : Clean w ahead s.spawned := by
  induction ahead generalizing fuel s behind with
  | nil => trivial
  | cons node ahead ih =>
    rcases fuel with _ | fuel
    · rw [loop, h.iter] at hr
      cases hr
    rw [h.loop_succ] at hr
    obtain ⟨s₁, hbody, hr⟩ := Option.bind_eq_some_iff.mp hr
    obtain ⟨s₂, hadvance, hr⟩ := Option.bind_eq_some_iff.mp hr
    have hfits : node.value.status = .on → PathFits node.value.pid := by
      intro hon
      by_contra hfits
      rw [body_of_not_fits hon hfits] at hbody
      cases hbody
    -- what was not looked at before the round was not looked at in it either
    have hnew' : s₂.examined = s.examined ++ [node.place] →
        ∀ x ∈ ahead, s₂.examined.count x.place = 0 := by
      intro hexamined x hx
      have hne : ¬(node.place == x.place) = true := by
        rw [beq_iff_eq]
        exact (NodeMap.place_ne_of_ahead h.nodes x hx).symm
      rw [hexamined, List.count_append, List.count_singleton, if_neg hne,
        hnew x (List.mem_cons_of_mem _ hx)]
    have hgood : node.value.Dead w.proc → Replaceable w s.spawned node ahead := by
      intro hdead
      by_contra hbad
      obtain ⟨x, hx, rest, hat, hexamined⟩ :=
        h.passes_old (hfits hdead.1) hdead hbad hbody hadvance
      have hcount := hat.count_of_passed
        (List.mem_append_right behind (List.mem_singleton_self x)) hr
      rw [hnew' hexamined x hx, honce x (List.mem_cons_of_mem _ hx)] at hcount
      cases hcount
    obtain ⟨s', s'', passed, hs', hs'', hat, hexamined, hspawned, -⟩ :=
      h.round_of_replaceable hfits hgood
    obtain rfl := Option.some.inj (hs'.symm.trans hbody)
    obtain rfl := Option.some.inj (hs''.symm.trans hadvance)
    refine clean_cons_iff.mpr ⟨hfits, hgood, ?_⟩
    rw [← hspawned]
    exact ih hat hr (hnew' hexamined) fun x hx => honce x (List.mem_cons_of_mem _ hx)

/-- The start of a pass is at the first node, and nothing was looked at. -/
theorem Pass.at_start (svcs : Svcs) : (Pass.start svcs).At [] svcs.nodes :=
  ⟨rfl, List.head?_map⟩

/-- **A pass comes to its end, or fails, within its bound.** -/
theorem updateServices_eq_loop (svcs : Svcs) (extra : ℕ) :
    loop w (svcs.nodes.length + extra) (.start svcs) = updateServices w svcs := by
  induction extra with
  | zero => rfl
  | succ extra ih => rw [← Nat.add_assoc, (Pass.at_start svcs).loop_fuel (Nat.le_add_right _ _), ih]

/-- **A pass does what it is for exactly where every dead service is the last of its kind and
can be started.** This is so for every map of services, whatever processes there are,
whatever `spawn` returns and wherever the new nodes lie. -/
theorem supervises_iff (w : World) (svcs : Svcs) :
    Supervises w svcs ↔ Clean w svcs.nodes 0 := by
  constructor
  · rintro ⟨r, hr, honce, -, -⟩
    exact (Pass.at_start svcs).clean_of_loop hr (fun _ _ => rfl) honce
  · intro hclean
    obtain ⟨r, done, hr, hnodes, hexamined, hentries, hkept⟩ :=
      (Pass.at_start svcs).loop_of_clean le_rfl hclean
    refine ⟨r, hr, ?_, ?_, ?_⟩
    · intro node hmem
      have hplaces : r.examined = svcs.places := hexamined
      rw [hplaces]
      exact List.count_eq_one_of_mem svcs.distinct (List.mem_map_of_mem hmem)
    · intro node hmem halive
      rw [hnodes]
      exact hkept node hmem halive
    · rw [NodeMap.entries, hnodes]
      exact hentries ▸ List.Perm.refl _

namespace Sample

/-- The file of a process that sleeps: `7 (morpheus) S 1 `. -/
def sleeping : StatFile where
  text := [55, 32, 40, 109, 111, 114, 112, 104, 101, 117, 115, 41, 32, 83, 32, 49, 32]
  readable := by decide

/-- Two realm daemons, of which the first is gone. -/
def realmds : Svcs where
  nodes := [⟨0, .loginserver, .ofPid 100⟩, ⟨1, .loginserver, .ofPid 101⟩]
  distinct := by decide
  sorted := by decide

/-- A new one can be started. -/
def world : World where
  proc pid := if pid = 100 then none else some sleeping
  spawn _ := some 102
  memory := NodeMap.topAllocator

end Sample

/-- The second of two realm daemons is not looked at if the first has died. -/
theorem not_supervises_realmds : ¬Supervises Sample.world Sample.realmds := by
  rintro ⟨r, hr, honce, -⟩
  have hskipped : ∀ r ∈ updateServices Sample.world Sample.realmds, r.examined.count 1 = 0 := by
    decide
  have hcount := honce ⟨1, .loginserver, .ofPid 101⟩ (by decide)
  rw [hskipped r hr] at hcount
  cases hcount

end Morfeusz.Main
