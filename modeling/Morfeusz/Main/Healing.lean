import Mathlib.Tactic.Ring
import Morfeusz.Lib.Runs
import Morfeusz.Main.ServiceManager

/-!
# The supervision in the long run

The master process starts a daemon for each option it was given and then looks after them for
good, one pass a second. A single pass may leave out a daemon that is dead, because it stands
behind another one (`Morfeusz.Main.supervises_iff`). But whatever it leaves out it has replaced
something for, so at most half of the dead ones are left, and where they stand they are looked
at the next time. The kinds of the services stay what they were, however many die in between;
and once none dies any more, after a number of passes that is logarithmic in that of the
services all of them run (`Morfeusz.Main.supervision_heals`).

All this is for passes that can start what they have to: where a service cannot be started it is
given up, and the iterator may run over the end.
-/

namespace Morfeusz.Main

/-! ### The master process -/

/-- What `main` does with an option. -/
def consumeArg (w : World) (s : Pass) (arg : String) : Pass :=
  if arg = "-realm" then runRealmd w s else if arg = "-proxy" then runProxyd w s else s

/-- The services once all options are consumed. -/
def startServices (w : World) (args : List String) : Svcs :=
  (args.foldl (consumeArg w) (.start NodeMap.empty)).svcs

/-- A round of the loop of `main`, with what the pass in it depends on. -/
def supervise (svcs : Svcs) (w : World) : Option Svcs := (updateServices w svcs).map Pass.svcs

/-- The kinds of the services, in the order of the map. -/
def kinds (svcs : Svcs) : List MorpheusServices := svcs.nodes.map Node.key

/-- How many of some services are dead. -/
def deadIn (w : World) (nodes : List (Node MorpheusServices ServiceInfo)) : ℕ :=
  nodes.countP fun node => node.value.Dead w.proc

/-- Whatever is started in this world runs for a while, and its number fits the path. -/
def World.Respawns (w : World) : Prop :=
  ∀ n, ∃ pid, w.spawn n = some pid ∧ PathFits pid ∧ isDead w.proc pid = false

/-- From the one world to the other no process has died. -/
def World.Lives (w w' : World) : Prop :=
  ∀ pid, isDead w'.proc pid = true → isDead w.proc pid = true

/-- A service as `main` and the passes start them. -/
structure Started (node : Node MorpheusServices ServiceInfo) : Prop where
  kind : node.key = .loginserver ∨ node.key = .gameserver
  status : node.value.status = .on
  fits : PathFits node.value.pid

variable {w w' : World} {s s' : Pass} {node : Node MorpheusServices ServiceInfo}
  {behind ahead : List (Node MorpheusServices ServiceInfo)} {svcs svcs' : Svcs} {ws : List World}

theorem deadIn_cons (w : World) (node : Node MorpheusServices ServiceInfo)
    (nodes : List (Node MorpheusServices ServiceInfo)) :
    deadIn w (node :: nodes) = deadIn w nodes + if node.value.Dead w.proc then 1 else 0 := by
  rw [deadIn, List.countP_cons]
  simp only [decide_eq_true_eq]
  rfl

theorem deadIn_le_length (w : World) (nodes : List (Node MorpheusServices ServiceInfo)) :
    deadIn w nodes ≤ nodes.length := List.countP_le_length

/-- Where nothing dies there are no more dead. -/
theorem World.Lives.deadIn_le (h : w.Lives w') (nodes : List (Node MorpheusServices ServiceInfo)) :
    deadIn w' nodes ≤ deadIn w nodes := by
  refine List.countP_mono_left fun node _ hdead => ?_
  rw [decide_eq_true_iff] at hdead ⊢
  exact ⟨hdead.1, h _ hdead.2⟩

/-! ### What is started -/

/-- A service that is started. -/
theorem started_ofPid {pid : UInt32} {place : ℕ} {kind : MorpheusServices}
    (hkind : kind = .loginserver ∨ kind = .gameserver) (hfits : PathFits pid) :
    Started ⟨place, kind, .ofPid pid⟩ := ⟨hkind, rfl, hfits⟩

/-- **The options start services as they should be.** -/
theorem started_run {kind : MorpheusServices}
    (hspawn : ∀ n pid, w.spawn n = some pid → PathFits pid)
    (hkind : kind = .loginserver ∨ kind = .gameserver) (h : ∀ node ∈ s.svcs.nodes, Started node) :
    ∀ node ∈ (run w kind s).svcs.nodes, Started node := by
  rw [run]
  split
  · exact h
  · next pid hpid =>
    intro node hmem
    have hmem' : node ∈ s.svcs.newNode w.memory kind (.ofPid pid) :: s.svcs.nodes :=
      (NodeMap.perm_insertNode _ _).mem_iff.mp hmem
    rcases List.mem_cons.mp hmem' with rfl | hmem'
    · exact started_ofPid hkind (hspawn _ _ hpid)
    · exact h node hmem'

theorem started_startServices (hspawn : ∀ n pid, w.spawn n = some pid → PathFits pid)
    (args : List String) : ∀ node ∈ (startServices w args).nodes, Started node := by
  have hall : ∀ s : Pass, (∀ node ∈ s.svcs.nodes, Started node) →
      ∀ node ∈ (args.foldl (consumeArg w) s).svcs.nodes, Started node := by
    induction args with
    | nil => exact fun s h => h
    | cons arg args ih =>
      intro s h
      refine ih _ ?_
      rw [consumeArg]
      split
      · exact started_run hspawn (Or.inl rfl) h
      · split
        · exact started_run hspawn (Or.inr rfl) h
        · exact h
  exact hall _ nofun

/-! ### A round -/

/-- The new service of a kind stands among those ahead of the old one. -/
theorem perm_restarted (hw : w.Respawns) (hstarted : Started node) (s : Pass)
    (ahead : List (Node MorpheusServices ServiceInfo)) :
    ∃ new, Started new ∧ new.key = node.key ∧ ¬new.value.Dead w.proc ∧
      (restarted w s node ahead).Perm (new :: ahead) := by
  obtain ⟨pid, hpid, hfits, halive⟩ := hw s.spawned
  have houtcome : (w.outcome s.spawned node.key).1 = some pid := by
    rcases hstarted.kind with hkind | hkind
    · rw [hkind]
      exact hpid
    · rw [hkind]
      exact hpid
  refine ⟨s.svcs.newNode w.memory node.key (.ofPid pid), ⟨hstarted.kind, rfl, hfits⟩, rfl, ?_, ?_⟩
  · rintro ⟨-, hdead⟩
    exact Bool.false_ne_true (halive.symm.trans hdead)
  · rw [restarted, houtcome]
    exact NodeMap.perm_insertNode _ _

/-- **A round passes one service**, and if that is a dead one, another was replaced. -/
theorem Pass.At.round_of_respawns (hw : w.Respawns) (h : s.At behind (node :: ahead))
    (hall : ∀ other ∈ node :: ahead, Started other) :
    ∃ s₁ s₂ passed rest, body w s node = some s₁ ∧ s₁.advance = some s₂ ∧
      s₂.At (behind ++ [passed]) rest ∧ rest.length = ahead.length ∧
      ((passed :: rest).map Node.key).Perm ((node :: ahead).map Node.key) ∧
      (∀ other ∈ passed :: rest, Started other) ∧
      2 * deadIn w [passed] + deadIn w rest ≤ deadIn w (node :: ahead) := by
  have hstarted := hall node List.mem_cons_self
  by_cases hdead : node.value.Dead w.proc
  · obtain ⟨s₁, hbody, hat, -, -⟩ := h.body_of_dead hstarted.fits hdead
    obtain ⟨new, hnew, hkey, halive, hperm⟩ := perm_restarted hw hstarted s ahead
    cases hrestarted : restarted w s node ahead with
    | nil => exact absurd (hrestarted ▸ hperm).length_eq (by simp)
    | cons passed rest =>
      rw [hrestarted] at hat hperm
      obtain ⟨s₂, hadvance, hat', -, -⟩ := hat.exists_advance
      refine ⟨s₁, s₂, passed, rest, hbody, hadvance, hat', Nat.succ_injective hperm.length_eq,
        ?_, ?_, ?_⟩
      · rw [List.map_cons, List.map_cons, ← hkey]
        exact hperm.map Node.key
      · intro other hmem
        rcases List.mem_cons.mp (hperm.mem_iff.mp hmem) with rfl | hmem
        · exact hnew
        · exact hall other (List.mem_cons_of_mem _ hmem)
      · -- the dead one is gone, so what is passed may be one
        have hcount : deadIn w (passed :: rest) = deadIn w (new :: ahead) := hperm.countP_eq _
        rw [deadIn_cons, deadIn_cons, if_neg halive] at hcount
        rw [deadIn_cons, deadIn_cons, if_pos hdead, deadIn, List.countP_nil]
        have hone : (if passed.value.Dead w.proc then 1 else 0) ≤ 1 := by
          split
          · exact le_rfl
          · exact Nat.zero_le _
        omega
  · obtain ⟨s₁, hbody, hat, -, -⟩ := h.body_of_not_dead (fun _ => hstarted.fits) hdead
    obtain ⟨s₂, hadvance, hat', -, -⟩ := hat.exists_advance
    refine ⟨s₁, s₂, node, ahead, hbody, hadvance, hat', rfl, .refl _, hall, ?_⟩
    rw [deadIn_cons, deadIn_cons, if_neg hdead, deadIn, List.countP_nil]
    omega

/-! ### A pass -/

/-- **The loop comes to its end**, and leaves at most half of the dead. -/
theorem Pass.At.loop_of_respawns {fuel : ℕ} (hw : w.Respawns) (h : s.At behind ahead)
    (hfuel : ahead.length ≤ fuel) (hall : ∀ node ∈ ahead, Started node) :
    ∃ r done, loop w fuel s = some r ∧ r.svcs.nodes = behind ++ done ∧
      (done.map Node.key).Perm (ahead.map Node.key) ∧ (∀ node ∈ done, Started node) ∧
      2 * deadIn w done ≤ deadIn w ahead := by
  induction fuel generalizing s behind ahead with
  | zero =>
    obtain rfl := List.length_eq_zero_iff.mp (Nat.le_zero.mp hfuel)
    exact ⟨s, [], loop_of_end h.iter _, h.nodes, .nil, nofun, le_rfl⟩
  | succ fuel ih =>
    rcases ahead with _ | ⟨node, ahead⟩
    · exact ⟨s, [], loop_of_end h.iter _, h.nodes, .nil, nofun, le_rfl⟩
    · obtain ⟨s₁, s₂, passed, rest, hbody, hadvance, hat, hlength, hkeys, hstarted, hdead⟩ :=
        h.round_of_respawns hw hall
      have hrest : rest.length ≤ fuel := by
        rw [hlength]
        exact Nat.le_of_succ_le_succ hfuel
      obtain ⟨r, done, hr, hnodes, hkeys', hstarted', hdead'⟩ :=
        ih hat hrest fun other hmem => hstarted other (List.mem_cons_of_mem _ hmem)
      refine ⟨r, passed :: done, ?_, ?_, ?_, ?_, ?_⟩
      · rw [h.loop_succ, hbody, Option.bind_some, hadvance, Option.bind_some, hr]
      · rw [hnodes, List.append_assoc]
        rfl
      · exact (hkeys'.cons passed.key).trans hkeys
      · intro other hmem
        rcases List.mem_cons.mp hmem with rfl | hmem
        · exact hstarted _ List.mem_cons_self
        · exact hstarted' other hmem
      · rw [deadIn_cons] at hdead ⊢
        rw [deadIn, List.countP_nil] at hdead
        omega

/-- Maps with the same kinds have them in the same order. -/
theorem kinds_eq_of_perm (h : (kinds svcs').Perm (kinds svcs)) : kinds svcs' = kinds svcs := by
  have hsorted : ∀ svcs : Svcs, (kinds svcs).Pairwise (· ≤ ·) :=
    fun svcs => List.pairwise_map.mpr svcs.sorted
  exact h.eq_of_pairwise (fun _ _ _ _ => le_antisymm) (hsorted svcs') (hsorted svcs)

/-- **A pass that can start what it has to** keeps the kinds and leaves at most half of the
dead. -/
theorem supervise_of_respawns (hw : w.Respawns) (hall : ∀ node ∈ svcs.nodes, Started node) :
    ∃ svcs', supervise svcs w = some svcs' ∧ kinds svcs' = kinds svcs ∧
      (∀ node ∈ svcs'.nodes, Started node) ∧
      2 * deadIn w svcs'.nodes ≤ deadIn w svcs.nodes := by
  obtain ⟨r, done, hr, hnodes, hkeys, hstarted, hdead⟩ :=
    (Pass.at_start svcs).loop_of_respawns hw le_rfl hall
  rw [List.nil_append] at hnodes
  refine ⟨r.svcs, congrArg (Option.map Pass.svcs) hr, kinds_eq_of_perm ?_, ?_, ?_⟩
  · rw [kinds, hnodes]
    exact hkeys
  · rw [hnodes]
    exact hstarted
  · rw [hnodes]
    exact hdead

/-! ### All passes -/

/-- **The services are kept**, whatever dies between the passes. -/
theorem exists_run_of_respawns (hws : ∀ w ∈ ws, w.Respawns)
    (hall : ∀ node ∈ svcs.nodes, Started node) :
    ∃ svcs', Runs.run supervise svcs ws = some svcs' ∧ kinds svcs' = kinds svcs ∧
      ∀ node ∈ svcs'.nodes, Started node := by
  induction ws generalizing svcs with
  | nil => exact ⟨svcs, rfl, rfl, hall⟩
  | cons w ws ih =>
    obtain ⟨mid, hmid, hkinds, hstarted, -⟩ :=
      supervise_of_respawns (hws w List.mem_cons_self) hall
    obtain ⟨svcs', hrun, hkinds', hstarted'⟩ :=
      ih (fun w hw => hws w (List.mem_cons_of_mem _ hw)) hstarted
    refine ⟨svcs', ?_, hkinds'.trans hkinds, hstarted'⟩
    rw [Runs.run_cons_of_step hmid, hrun]

/-- **Every pass halves the dead** while nothing dies. -/
theorem deadIn_of_run (hws : ∀ u ∈ w :: ws, u.Respawns) (hlives : (w :: ws).IsChain World.Lives)
    (hall : ∀ node ∈ svcs.nodes, Started node)
    (hrun : Runs.run supervise svcs (w :: ws) = some svcs') :
    2 ^ (ws.length + 1) * deadIn ((w :: ws).getLast (List.cons_ne_nil w ws)) svcs'.nodes ≤
      deadIn w svcs.nodes := by
  induction ws generalizing w svcs with
  | nil =>
    obtain ⟨mid, hmid, -, -, hdead⟩ := supervise_of_respawns (hws w List.mem_cons_self) hall
    rw [Runs.run_singleton, hmid] at hrun
    obtain rfl := Option.some.inj hrun
    rw [List.length_nil, Nat.zero_add, pow_one]
    exact hdead
  | cons w' ws ih =>
    obtain ⟨mid, hmid, -, hstarted, hdead⟩ :=
      supervise_of_respawns (hws w List.mem_cons_self) hall
    rw [Runs.run_cons_of_step hmid] at hrun
    obtain ⟨hlive, hlives⟩ := List.isChain_cons_cons.mp hlives
    have hrest := ih (fun u hu => hws u (List.mem_cons_of_mem _ hu)) hlives hstarted hrun
    have hless := hlive.deadIn_le mid.nodes
    rw [List.getLast_cons (List.cons_ne_nil w' ws), List.length_cons, pow_succ]
    calc 2 ^ (ws.length + 1) * 2 * deadIn _ svcs'.nodes
        = 2 * (2 ^ (ws.length + 1) * deadIn _ svcs'.nodes) := by ring
      _ ≤ 2 * deadIn w mid.nodes := by omega
      _ ≤ deadIn w svcs.nodes := hdead

/-- **The supervision heals.** Whatever the options of the master process, whatever dies during
the passes `ws`, no pass runs over the end and there are as many services of each kind as were
started. And from the pass on after which nothing dies any more, each leaves at most half of the
dead services; so all of them run as soon as the passes are more than the binary logarithm of
the number of services. -/
theorem supervision_heals {w₀ : World} {args : List String} {ws' : List World}
    (hspawn : ∀ n pid, w₀.spawn n = some pid → PathFits pid)
    (hws : ∀ u ∈ ws ++ w :: ws', u.Respawns) (hlives : (w :: ws').IsChain World.Lives) :
    ∃ svcs svcs', Runs.run supervise (startServices w₀ args) ws = some svcs ∧
      Runs.run supervise svcs (w :: ws') = some svcs' ∧
      kinds svcs = kinds (startServices w₀ args) ∧ kinds svcs' = kinds (startServices w₀ args) ∧
      2 ^ (ws'.length + 1) * deadIn ((w :: ws').getLast (List.cons_ne_nil w ws')) svcs'.nodes ≤
        deadIn w svcs.nodes ∧
      ((startServices w₀ args).nodes.length < 2 ^ (ws'.length + 1) → ∀ node ∈ svcs'.nodes,
        ¬node.value.Dead ((w :: ws').getLast (List.cons_ne_nil w ws')).proc) := by
  obtain ⟨svcs, hrun, hkinds, hstarted⟩ := exists_run_of_respawns
    (fun u hu => hws u (List.mem_append_left _ hu)) (started_startServices hspawn args)
  obtain ⟨svcs', hrun', hkinds', -⟩ := exists_run_of_respawns
    (fun u hu => hws u (List.mem_append_right _ hu)) hstarted
  have hdead := deadIn_of_run (fun u hu => hws u (List.mem_append_right _ hu)) hlives hstarted hrun'
  refine ⟨svcs, svcs', hrun, hrun', hkinds, hkinds'.trans hkinds, hdead, fun hmany node hmem => ?_⟩
  have hlength : svcs.nodes.length = (startServices w₀ args).nodes.length := by
    have h := congrArg List.length hkinds
    rwa [kinds, kinds, List.length_map, List.length_map] at h
  have hfew := hdead.trans (deadIn_le_length w svcs.nodes)
  rw [hlength] at hfew
  have hnone : deadIn ((w :: ws').getLast (List.cons_ne_nil w ws')) svcs'.nodes = 0 := by
    by_contra hne
    have := Nat.le_mul_of_pos_right (2 ^ (ws'.length + 1)) (Nat.pos_of_ne_zero hne)
    omega
  exact of_decide_eq_false (Bool.eq_false_iff.mpr (List.countP_eq_zero.mp hnone node hmem))

namespace Sample

/-- The options start daemons with the numbers from 100 on. -/
def startWorld : World where
  proc _ := none
  spawn n := [100, 101][n]?
  memory := NodeMap.topAllocator

theorem startWorld_fits : ∀ n pid, startWorld.spawn n = some pid → PathFits pid := by
  intro n pid h
  match n with
  | 0 | 1 =>
    rw [← Option.some.inj h]
    decide
  | n + 2 => cases h

theorem world_respawns : world.Respawns := fun _ => ⟨102, rfl, by decide, by decide⟩

end Sample

/-- Of two realm daemons the first has died; two passes later both run. -/
theorem supervision_heals_sample : ∃ svcs,
    Runs.run supervise (startServices Sample.startWorld ["-realm", "-realm"])
      [Sample.world, Sample.world] = some svcs ∧
      ∀ node ∈ svcs.nodes, ¬node.value.Dead Sample.world.proc := by
  have hws : ∀ u ∈ [] ++ [Sample.world, Sample.world], u.Respawns := by
    intro u hu
    rw [List.nil_append, List.mem_pair, or_self] at hu
    rw [hu]
    exact Sample.world_respawns
  have hlives : [Sample.world, Sample.world].IsChain World.Lives :=
    List.isChain_cons_cons.mpr ⟨fun _ hdead => hdead, .singleton _⟩
  obtain ⟨svcs, svcs', hrun, hrun', -, -, -, hall⟩ := supervision_heals Sample.startWorld_fits hws
    hlives
  obtain rfl := Option.some.inj hrun
  exact ⟨svcs', hrun', hall (by decide)⟩

end Morfeusz.Main
