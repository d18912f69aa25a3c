import Morfeusz.Discovery

/-!
# Proxies that take leave

The realm daemon and all of its proxies, where no proxy is killed and none announces itself after
it has taken leave: when nothing is under way, the registry is that of the proxies that run, and
a realm is given the one of the lowest load (`Morfeusz.registry_exact`).
-/

namespace Morfeusz

open Realmd Proxyd

variable {ι : Type}

namespace Network

/-- No process stands for the proxy. -/
def Silent (n : Network ι) (i : ι) : Prop :=
  ∀ p ∈ n.procs i, p.stop ≠ .notCalled ∨ p.sent = []

/-- No proxy ends that stands, and none announces itself when it has taken leave. -/
def Courteous (n : Network ι) : NetworkEvent ι → Prop
  | .exit i => n.Silent i
  | .proc i e => e.announces = true → ∀ p ∈ n.procs i, p.stop = .notCalled
  | _ => True

instance (n : Network ι) (i : ι) : Decidable (n.Silent i) :=
  inferInstanceAs (Decidable (∀ p ∈ n.procs i, p.stop ≠ .notCalled ∨ p.sent = []))

instance (n : Network ι) : (e : NetworkEvent ι) → Decidable (n.Courteous e)
  | .launch _ => isTrue trivial
  | .exit i => inferInstanceAs (Decidable (n.Silent i))
  | .proc i e =>
    inferInstanceAs (Decidable (e.announces = true → ∀ p ∈ n.procs i, p.stop = .notCalled))
  | .take _ _ => isTrue trivial
  | .deliver _ _ => isTrue trivial
  | .updateRealms _ => isTrue trivial

variable (config : ι → Installation)

/-- **Who is gone has said so**: the last message that is under way takes leave, and where none
is, there is no entry. -/
def Departed (n : Network ι) (r : Roster ℚ) : Prop :=
  ∀ i, n.Silent i →
    (∀ m, (n.outbox i).getLast? = some m →
      m = .shutdowned { address := (config i).service.bindAddr }) ∧
      (n.outbox i = [] → r.live (config i).service.bindAddr = none)

variable {config} {n n' : Network ι} {r : Roster ℚ} {i : ι}

theorem departed_init : (init : Network ι).Departed config .init :=
  fun _ _ => ⟨nofun, fun _ => rfl⟩

theorem Departed.procStep [DecidableEq ι] {e : ProcessEvent} (h : n.Departed config r)
    (htruth : n.Truthful config r)
    (hcourteous : e.announces = true → ∀ p, n.procs i = some p → p.stop = .notCalled)
    (hstep : n.procStep i e = some n') : n'.Departed config r := by
  obtain ⟨p, p', hp, hp', rfl⟩ := exists_of_procStep hstep
  intro j hsilent
  rcases eq_or_ne j i with rfl | hne
  · have hsilent := hsilent p' (Function.update_self ..)
    dsimp only
    rw [Function.update_self]
    cases pushes_of_step (htruth.said j p hp) hp' with
    | nothing _ hsame hstop =>
      rw [hsame, List.drop_length, List.append_nil]
      refine h j fun q hq => ?_
      obtain rfl := Option.some.inj (hp.symm.trans hq)
      exact hsilent.imp (mt hstop.mpr) fun hnil => hsame ▸ hnil
    | announce m hannounces _ hsame hstop =>
      rcases hsilent with hleft | hnil
      · exact absurd (hstop.mpr (hcourteous hannounces p hp)) hleft
      · rw [hsame] at hnil
        exact absurd hnil (List.append_ne_nil_of_right_ne_nil _ (List.cons_ne_nil _ _))
    | shutdowned hsame =>
      rw [hsame, List.drop_left]
      refine ⟨fun m hm => ?_, fun hnil => ?_⟩
      · rw [List.getLast?_concat] at hm
        exact (Option.some.inj hm).symm
      · exact absurd hnil (List.append_ne_nil_of_right_ne_nil _ (List.cons_ne_nil _ _))
  · dsimp only
    rw [Function.update_of_ne hne]
    refine h j fun q hq => hsilent q ?_
    dsimp only
    rwa [Function.update_of_ne hne]

theorem Departed.deliver [DecidableEq ι] {m : Message} {rest : List Message} {stale : UInt8}
    (h : n.Departed config r) (htruth : n.Truthful config r)
    (hinj : Function.Injective fun i => (config i).service.bindAddr) (hout : n.outbox i = m :: rest)
    (hstep : realmdStep { n with outbox := Function.update n.outbox i rest } (m.toEvent stale) =
      some n') : n'.Departed config (r.step (m.toEvent stale)) := by
  obtain ⟨s, -, -, hprocs, houtbox, -, -⟩ := exists_of_realmdStep hstep
  dsimp only at hprocs houtbox
  have hm := htruth.speaks i m (by rw [hout]; exact List.mem_cons_self)
  intro j hsilent
  have hold := h j fun q hq => hsilent q (hprocs ▸ hq)
  rw [houtbox]
  rcases eq_or_ne j i with rfl | hne
  · rw [Function.update_self]
    rw [hout] at hold
    rcases eq_or_ne rest [] with rfl | hrest
    · refine ⟨nofun, fun _ => ?_⟩
      rw [hold.1 m rfl]
      exact live_step_shutdowned
    · refine ⟨fun m' hm' => hold.1 m' ?_, fun hnil => absurd hnil hrest⟩
      rw [List.getLast?_cons_of_ne_nil hrest, hm']
  · rw [Function.update_of_ne hne, live_step_of_ne hm fun heq => hne (hinj heq)]
    exact hold

/-- **A step in which no proxy forgets to take leave.** -/
theorem Departed.step [DecidableEq ι]
    (hinj : Function.Injective fun i => (config i).service.bindAddr) {e : NetworkEvent ι}
    (h : n.Departed config r) (htruth : n.Truthful config r) (hcourteous : n.Courteous e)
    (hstep : n.step config e = some n') : n'.Departed config (n.rosterStep r e) := by
  cases e with
  | launch i =>
    rw [Network.step, Option.ite_none_right_eq_some] at hstep
    obtain ⟨hnone, rfl⟩ := hstep.imp_right Option.some.inj
    refine fun j hsilent => h j fun q hq => hsilent q ?_
    dsimp only
    rcases eq_or_ne j i with rfl | hne
    · rw [hq] at hnone
      cases hnone
    · rwa [Function.update_of_ne hne]
  | exit i =>
    rw [Network.step, Option.ite_none_right_eq_some] at hstep
    obtain rfl := Option.some.inj hstep.2
    intro j hsilent
    rcases eq_or_ne j i with rfl | hne
    · exact h j hcourteous
    · refine h j fun q hq => hsilent q ?_
      dsimp only
      rwa [Function.update_of_ne hne]
  | proc i e =>
    rw [Network.step, Option.ite_none_left_eq_some] at hstep
    exact h.procStep htruth hcourteous hstep.2
  | take i thread =>
    rw [Network.step] at hstep
    split at hstep
    · cases hstep
    · next id rest hin =>
      have hdeparted : Departed config { n with inbox := Function.update n.inbox i rest } r := h
      refine hdeparted.procStep (htruth.of_procs rfl rfl fun _ _ hq => Or.inl hq) ?_ hstep
      intro hannounces
      cases hannounces
  | deliver i stale =>
    rw [Network.step] at hstep
    split at hstep
    · cases hstep
    · next m rest hout =>
      rw [rosterStep, hout]
      exact h.deliver htruth hinj hout hstep
  | updateRealms res =>
    obtain ⟨s, -, -, hprocs, houtbox, -, -⟩ := exists_of_realmdStep hstep
    intro j hsilent
    have hold := h j fun q hq => hsilent q (hprocs ▸ hq)
    rw [houtbox]
    rcases res with _ | res
    · exact hold
    · exact ⟨hold.1, fun _ => rfl⟩

/-- The proxy stands, and has announced this load last. -/
def Announced (n : Network ι) (i : ι) (load : ℚ) : Prop :=
  ∃ p announce, n.Stands i p ∧ p.sent.getLast? = some (.announce announce) ∧ announce.load = load

/-- When nothing is under way, the roster is that of the proxies that stand. -/
theorem Departed.live_iff (h : n.Departed config r) (htruth : n.Truthful config r)
    (hcomplete : n.Complete config r) (hquiet : n.Quiet) {ip : List UInt8} {realm : UInt8}
    {load : ℚ} :
    r.live ip = some (realm, load) ↔ r.known realm = true ∧
      ∃ i, n.Announced i load ∧ ip = (config i).service.bindAddr ∧
        realm = (config i).service.realmId := by
  constructor
  · intro hlive
    obtain ⟨hknown, i, rfl, rfl⟩ := htruth.owned ip realm load hlive
    have hstands : ∃ p, n.Stands i p := by
      by_contra hnot
      have hsilent : n.Silent i := by
        intro p hp
        by_contra hboth
        obtain ⟨hstop, hsent⟩ := not_or.mp hboth
        exact hnot ⟨p, hp, not_not.mp hstop, hsent⟩
      rw [(h i hsilent).2 (hquiet.1 i)] at hlive
      cases hlive
    obtain ⟨p, hstands⟩ := hstands
    obtain ⟨announce, hlast, hlive'⟩ := hcomplete.registered_of_quiet hquiet hstands hknown
    obtain ⟨-, rfl⟩ := Prod.mk.inj (Option.some.inj (hlive'.symm.trans hlive))
    exact ⟨hknown, i, ⟨p, announce, hstands, hlast, rfl⟩, rfl, rfl⟩
  · rintro ⟨hknown, i, ⟨p, announce, hstands, hlast, rfl⟩, rfl, rfl⟩
    obtain ⟨announce', hlast', hlive⟩ := hcomplete.registered_of_quiet hquiet hstands hknown
    obtain rfl := Message.announce.inj (Option.some.inj (hlast.symm.trans hlast'))
    exact hlive

end Network

/-- **The registry is that of the proxies that run.** In every run of the realm daemon and any
number of proxies with different addresses in which no proxy ends before it has taken leave
and none announces itself after that, when nothing is under way, the entries of the registry
are those of the proxies that have announced themselves and have not taken leave, where their
realm is known, each with the load it announced last; and a realm that is known is given no
proxy exactly where none of its proxies runs, and else one of the lowest load. -/
theorem registry_exact [DecidableEq ι] {config : ι → Installation}
    (hinj : Function.Injective fun i => (config i).service.bindAddr)
    (haddress : ∀ i, (config i).service.bindAddr ≠ []) {es : List (NetworkEvent ι)}
    {n : Network ι} (hrun : networkRun config es = some n)
    (hcourteous : ∀ k m e m', Runs.StepAt (Network.step config) Network.init es k m e m' →
      m.Courteous e) (hquiet : n.Quiet) :
    (∀ realm info, (realm, info) ∈ n.realmd.proxies ↔ realm ∈ n.realmd.realmIds ∧
      ∃ i, n.Announced i info.load ∧ info.ip = (config i).service.bindAddr ∧
        realm = (config i).service.realmId) ∧
    ∀ id ∈ n.realmd.realmIds,
      (n.realmd.getProxyForRealm id = [] ↔
        ∀ i load, n.Announced i load → (config i).service.realmId ≠ id) ∧
      (n.realmd.getProxyForRealm id ≠ [] →
        ∃ i load, n.realmd.getProxyForRealm id = (config i).service.bindAddr ∧
          (config i).service.realmId = id ∧ n.Announced i load ∧
          ∀ j load', n.Announced j load' → (config j).service.realmId = id → load ≤ load') := by
  have hall : ∀ k m, Runs.run (Network.step config) Network.init (es.take k) = some m →
      ∃ r, m.Truthful config r ∧ m.Complete config r ∧ m.Departed config r := by
    refine Runs.run_take_induction
      ⟨_, Network.truthful_init, Network.complete_init, Network.departed_init⟩ ?_
    rintro k m e m' hat ⟨r, htruth, hcomplete, hdeparted⟩
    obtain ⟨htruth', hcomplete'⟩ := htruth.step hinj hcomplete hat.2.2
    exact ⟨_, htruth', hcomplete',
      hdeparted.step hinj htruth (hcourteous k m e m' hat) hat.2.2⟩
  obtain ⟨r, htruth, hcomplete, hdeparted⟩ := hall es.length n (by rwa [List.take_length])
  have hlive := @Network.Departed.live_iff _ _ _ _ hdeparted htruth hcomplete hquiet
  refine ⟨fun realm info => ?_, fun id hid => ?_⟩
  · rw [htruth.refines.mem_proxies_iff, hlive, htruth.refines.known]
  · have hknown := (htruth.refines.known id).mp hid
    obtain ⟨hnone, hsome⟩ := htruth.refines.getProxyForRealm (by
      rintro ip ⟨realm, load⟩ hentry
      obtain ⟨-, i, rfl, -⟩ := htruth.owned ip realm load hentry
      exact haddress i) id
    constructor
    · rw [hnone]
      constructor
      · rintro hno i load hannounced rfl
        exact hno _ load (hlive.mpr ⟨hknown, i, hannounced, rfl, rfl⟩)
      · intro hno ip load hentry
        obtain ⟨-, i, hannounced, -, hrealm⟩ := hlive.mp hentry
        exact hno i load hannounced hrealm.symm
    · intro hne
      obtain ⟨load, hentry, hleast⟩ := hsome hne
      obtain ⟨-, i, hannounced, hip, hrealm⟩ := hlive.mp hentry
      refine ⟨i, load, hip, hrealm.symm, hannounced, ?_⟩
      rintro j load' hannounced' rfl
      exact hleast _ load' (hlive.mpr ⟨hknown, j, hannounced', rfl, rfl⟩)

namespace DiscoverySample

/-- The second proxy takes leave, and ends. -/
def left : List (NetworkEvent Bool) :=
  [.proc false .shutdowned, .proc false .clear, .proc false .close, .exit false, .deliver false 0]

end DiscoverySample

open DiscoverySample in
/-- The second proxy has taken leave: the realm is given the first. -/
theorem registry_exact_left :
    (after (started ++ asked ++ left)).realmd.getProxyForRealm 1 = [97] := by
  have hrun : networkRun config (started ++ asked ++ left) =
      some (after (started ++ asked ++ left)) := rfl
  have hquiet : (after (started ++ asked ++ left)).Quiet := by
    refine ⟨?_, ?_⟩
    · rintro (_ | _) <;> rfl
    · rintro (_ | _) p hp - <;> cases hp
      exact ⟨rfl, by decide⟩
  have hgood : Runs.allSteps (Network.step config) (fun n e => decide (n.Courteous e))
      Network.init (started ++ asked ++ left) = true := by decide
  have hrealm := (registry_exact config_injective (by rintro (_ | _) <;> decide) hrun
    (fun _ _ _ _ hat => of_decide_eq_true (hat.of_allSteps hgood)) hquiet).2 1 (by decide)
  obtain ⟨i, load, hip, -, ⟨p, announce, hstands, -⟩, -⟩ := hrealm.2 (by decide)
  rw [hip]
  -- the first proxy is the one that stands
  cases i with
  | true => rfl
  | false => exact nomatch hstands.1

end Morfeusz
