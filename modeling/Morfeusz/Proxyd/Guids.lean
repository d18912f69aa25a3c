import Morfeusz.Database.ResultSet
import Morfeusz.Lib.CounterRange
import Morfeusz.Lib.Runs

/-!
# The guids of the characters

Every process of the proxy draws the guids of its characters from a counter of its own.
`init_max_guids` sets the counter behind the greatest guid that is stored, once, and from
then on `get_max_guid` counts; what the other processes draw it does not see. Until it is
set the counter is what was in memory.

So a value of the counter begins a range of guids
(`CounterRange`), and a guid is given out twice as soon as two ranges meet. They stay
apart exactly where no process draws as many guids as lie between its own start and that
of another (`Morfeusz.Proxyd.guids_unique_iff`).
-/

namespace Morfeusz.Proxyd

open ByteNumbers

/-! ### The start of a process -/

/-- The answer to `SELECT MAX(guid) FROM characters`. -/
def maxGuidResult (engine : Engine) (stored : List UInt32) : ResultSet where
  engine := engine
  numFields := 1
  rows :=
    [[match (stored.map UInt32.toNat).max? with
      | none => .null
      | some guid => .integer 4 guid]]

/-- `init_max_guids`: what `max_guids[GUID_CHAR]` is set to. -/
def initMaxGuids (res : ResultSet) : Option UInt32 := (res.next.2.getUint32 1).map (· + 1)

/-! ### The processes -/

/-- The processes that serve one table of characters, and that table. -/
structure Guids where
  /-- The column `guid`. -/
  stored : List UInt32
  /-- Every value a counter was set to, with the guids that were drawn from there. -/
  counters : List CounterRange
  /-- The entry of `counters` a process draws from; `none` has not been started. -/
  current : ℕ → Option ℕ
  /-- The guids of the transactions that are neither committed nor rolled back. -/
  queued : List UInt32
  /-- Every guid `get_max_guid` has returned, oldest first. -/
  handed : List UInt32

/-- What can happen. -/
inductive GuidEvent
  /-- A process is started; its counter is what the memory holds. -/
  | start (process : ℕ) (memory : UInt32)
  | initMaxGuids (process : ℕ)
  | getMaxGuid (process : ℕ)
  | commit (guid : UInt32)
  | rollback (guid : UInt32)

namespace Guids

/-- The table before any process is started. -/
def init (stored : List UInt32) : Guids :=
  { stored, counters := [], current := fun _ => none, queued := [], handed := [] }

/-- The counter of a process is set. -/
def assign (s : Guids) (process : ℕ) (maxGuid : UInt32) : Guids :=
  { s with
    counters := s.counters ++ [{ first := maxGuid, count := 0 }]
    current := Function.update s.current process (some s.counters.length) }

/-- `get_max_guid`, and the transaction of a character with the guid. -/
def getMaxGuid (s : Guids) (process : ℕ) : Option Guids := do
  let i ← s.current process
  let r ← s.counters[i]?
  some
    { s with
      counters := s.counters.set i r.succ
      queued := s.queued ++ [r.next]
      handed := s.handed ++ [r.next] }

/-- One step of the processes and the database. -/
def step (engine : Engine) (s : Guids) : GuidEvent → Option Guids
  | .start process memory =>
    if s.current process = none then some (s.assign process memory) else none
  | .initMaxGuids process =>
    if s.current process = none then none
    else (initMaxGuids (maxGuidResult engine s.stored)).map (s.assign process)
  | .getMaxGuid process => s.getMaxGuid process
  | .commit guid =>
    -- the guid is the primary key
    if guid ∈ s.queued ∧ guid ∉ s.stored then
      some { s with stored := guid :: s.stored, queued := s.queued.erase guid }
    else none
  | .rollback guid =>
    if guid ∈ s.queued then some { s with queued := s.queued.erase guid } else none

/-- The ranges of guids do not meet: no counter has come round, none has reached the start
of another, and none a guid of `stored`. -/
structure Apart (stored : List UInt32) (s : Guids) : Prop where
  bounded : ∀ r ∈ s.counters, r.Bounded
  apart : ∀ (i j : ℕ) (r t : CounterRange), i ≠ j → s.counters[i]? = some r →
    s.counters[j]? = some t → r.Apart t
  stored : ∀ r ∈ s.counters, ∀ guid ∈ stored, ¬r.Mem guid

end Guids

/-- An event that hands out a guid hands out one that was never handed out and is not
stored. -/
def GuidEvent.HandsOutNew (s : Guids) : GuidEvent → Prop
  | .getMaxGuid process =>
    ∀ i r, s.current process = some i → s.counters[i]? = some r →
      r.next ∉ s.handed ∧ r.next ∉ s.stored
  | _ => True

namespace Guids

variable {stored : List UInt32} {s s' : Guids}

/-! ### The value a counter is set to -/

/-- **With MySQL** the counter is set behind the greatest guid that is stored. -/
theorem initMaxGuids_mysql (stored : List UInt32) :
    initMaxGuids (maxGuidResult .mysql stored) =
      some (UInt32.ofNat ((stored.map UInt32.toNat).max?.getD 0) + 1) := by
  cases h : (stored.map UInt32.toNat).max? with
  | none =>
    rw [maxGuidResult, h]
    rfl
  | some guid =>
    obtain ⟨v, -, rfl⟩ := List.mem_map.mp (List.max?_mem h)
    have hv := v.toNat_lt
    have hmod : ((v.toNat : ℤ) % 256 ^ 4).toNat = v.toNat := by omega
    have hread : initMaxGuids (maxGuidResult .mysql stored) =
        some (UInt32.ofNat (leVal ((leBytes 4 ((v.toNat : ℤ) % 256 ^ 4).toNat).take 4)) + 1) := by
      rw [maxGuidResult, h]
      rfl
    rw [hread, hmod, List.take_of_length_le (length_leBytes _ _).le, leVal_leBytes_of_lt (by omega),
      Option.getD_some]

/-- **With SQLite** the counter is set to one, since the getter reads the column behind
the only one. -/
theorem initMaxGuids_sqlite (stored : List UInt32) :
    initMaxGuids (maxGuidResult .sqlite stored) = some 1 := by
  rw [maxGuidResult]
  cases (stored.map UInt32.toNat).max? <;> rfl

/-! ### One step -/

/-- What the histories say of each other. -/
structure Inv (stored : List UInt32) (s : Guids) : Prop where
  handed : ∀ guid, guid ∈ s.handed ↔ ∃ r ∈ s.counters, r.Mem guid
  stored_subset : ∀ guid ∈ s.stored, guid ∈ stored ∨ guid ∈ s.handed
  subset_stored : ∀ guid ∈ stored, guid ∈ s.stored
  queued : ∀ guid ∈ s.queued, guid ∈ s.handed

theorem inv_init (stored : List UInt32) : (init stored).Inv stored where
  handed := by simp [init]
  stored_subset _ h := Or.inl h
  subset_stored _ h := h
  queued := by simp [init]

theorem apart_init (stored : List UInt32) : (init stored).Apart stored where
  bounded := by simp [init]
  apart := by simp [init]
  stored := by simp [init]

/-- An empty range changes nothing. -/
theorem Inv.assign (h : s.Inv stored) (process : ℕ) (maxGuid : UInt32) :
    (s.assign process maxGuid).Inv stored where
  handed guid := by
    have hempty : ¬({ first := maxGuid, count := 0 } : CounterRange).Mem guid :=
      CounterRange.not_mem_of_count rfl
    simp [Guids.assign, h.handed, hempty]
  stored_subset := h.stored_subset
  subset_stored := h.subset_stored
  queued := h.queued

theorem Apart.assign (h : s.Apart stored) (process : ℕ) (maxGuid : UInt32) :
    (s.assign process maxGuid).Apart stored where
  bounded r hr := by
    rcases List.mem_append.mp hr with hr | hr
    · exact h.bounded r hr
    · obtain rfl := List.mem_singleton.mp hr
      exact Nat.zero_le _
  apart i j r t hij hr ht := by
    -- the last of the ranges is empty
    have hlast (k : ℕ) (u : CounterRange)
        (hk : (s.counters ++ [({ first := maxGuid, count := 0 } : CounterRange)])[k]? = some u) :
        s.counters[k]? = some u ∨ u.count = 0 := by
      rcases Nat.lt_or_ge k s.counters.length with hlt | hge
      · exact Or.inl (by rwa [List.getElem?_append_left hlt] at hk)
      · rw [List.getElem?_append_right hge, List.getElem?_singleton] at hk
        split at hk
        · exact Or.inr (by rw [← Option.some.inj hk])
        · cases hk
    rcases hlast i r hr with hr | hr
    · rcases hlast j t ht with ht | ht
      · exact h.apart i j r t hij hr ht
      · exact Or.inr (Or.inl ht)
    · exact Or.inl hr
  stored r hr guid hguid := by
    rcases List.mem_append.mp hr with hr | hr
    · exact h.stored r hr guid hguid
    · obtain rfl := List.mem_singleton.mp hr
      exact CounterRange.not_mem_of_count rfl

/-- The state after a guid was drawn from the range at `i`. -/
def draw (s : Guids) (i : ℕ) (r : CounterRange) : Guids :=
  { s with
    counters := s.counters.set i r.succ
    queued := s.queued ++ [r.next]
    handed := s.handed ++ [r.next] }

theorem getMaxGuid_eq_some_iff {process : ℕ} : s.getMaxGuid process = some s' ↔
    ∃ i r, s.current process = some i ∧ s.counters[i]? = some r ∧ s' = s.draw i r := by
  simp only [getMaxGuid, draw, Option.bind_eq_bind, Option.bind_eq_some_iff, Option.some.injEq]
  constructor
  · rintro ⟨i, hi, r, hr, heq⟩
    exact ⟨i, r, hi, hr, heq.symm⟩
  · rintro ⟨i, r, hi, hr, heq⟩
    exact ⟨i, hi, r, hr, heq.symm⟩

section Draw

variable {i : ℕ} {r : CounterRange}

theorem getElem?_draw (hr : s.counters[i]? = some r) (k : ℕ) :
    (s.draw i r).counters[k]? = if i = k then some r.succ else s.counters[k]? := by
  rw [draw, List.getElem?_set, if_pos (List.getElem?_eq_some_iff.mp hr).1]

theorem exists_mem_draw (hr : s.counters[i]? = some r) {guid : UInt32} :
    (∃ t ∈ (s.draw i r).counters, t.Mem guid) ↔
      (∃ t ∈ s.counters, t.Mem guid) ∨ guid = r.next := by
  constructor
  · rintro ⟨t, ht, hmem⟩
    obtain ⟨k, hk⟩ := List.mem_iff_getElem?.mp ht
    rw [getElem?_draw hr] at hk
    split at hk
    · rw [← Option.some.inj hk, CounterRange.mem_succ] at hmem
      exact hmem.imp_left fun h => ⟨r, List.mem_of_getElem? hr, h⟩
    · exact Or.inl ⟨t, List.mem_of_getElem? hk, hmem⟩
  · have hsucc : r.succ ∈ (s.draw i r).counters :=
      List.mem_of_getElem? ((getElem?_draw hr i).trans (if_pos rfl))
    rintro (⟨t, ht, hmem⟩ | rfl)
    · obtain ⟨k, hk⟩ := List.mem_iff_getElem?.mp ht
      by_cases hik : i = k
      · obtain rfl : r = t := Option.some.inj (hr.symm.trans (hik ▸ hk))
        exact ⟨r.succ, hsucc, CounterRange.mem_succ.mpr (Or.inl hmem)⟩
      · exact ⟨t, List.mem_of_getElem? ((getElem?_draw hr k).trans ((if_neg hik).trans hk)), hmem⟩
    · exact ⟨r.succ, hsucc, CounterRange.mem_succ.mpr (Or.inr rfl)⟩

theorem Inv.draw (h : s.Inv stored) (hr : s.counters[i]? = some r) : (s.draw i r).Inv stored where
  handed guid := by
    rw [exists_mem_draw hr, ← h.handed, Guids.draw, List.mem_append, List.mem_singleton]
  stored_subset guid hguid :=
    (h.stored_subset guid hguid).imp_right fun hmem => List.mem_append_left _ hmem
  subset_stored := h.subset_stored
  queued guid hguid := by
    rcases List.mem_append.mp hguid with hguid | hguid
    · exact List.mem_append_left _ (h.queued guid hguid)
    · exact List.mem_append_right _ hguid

/-- **A draw keeps the ranges apart** exactly where the guid is new. -/
theorem Apart.draw_iff (h : s.Inv stored) (hapart : s.Apart stored)
    (hr : s.counters[i]? = some r) :
    (s.draw i r).Apart stored ↔ r.next ∉ s.handed ∧ r.next ∉ s.stored := by
  have hrmem := List.mem_of_getElem? hr
  have hget := getElem?_draw hr
  have hself : (s.draw i r).counters[i]? = some r.succ := (hget i).trans (if_pos rfl)
  constructor
  · intro h'
    have hbounded := h'.bounded r.succ (List.mem_of_getElem? hself)
    have hnext : r.succ.Mem r.next := CounterRange.mem_succ.mpr (Or.inr rfl)
    have hnew : r.next ∉ s.handed := by
      rw [h.handed]
      rintro ⟨t, ht, hmem⟩
      obtain ⟨k, hk⟩ := List.mem_iff_getElem?.mp ht
      by_cases hik : i = k
      · obtain rfl : r = t := Option.some.inj (hr.symm.trans (hik ▸ hk))
        exact (CounterRange.mem_next_iff (hapart.bounded r hrmem)).mpr hbounded hmem
      · have hk' := (hget k).trans ((if_neg hik).trans hk)
        exact (CounterRange.apart_iff hbounded (hapart.bounded t ht)).mp
          (h'.apart i k r.succ t hik hself hk') r.next hnext hmem
    refine ⟨hnew, fun hstored => ?_⟩
    rcases h.stored_subset _ hstored with hstored | hhanded
    · exact h'.stored r.succ (List.mem_of_getElem? hself) _ hstored hnext
    · exact hnew hhanded
  · rintro ⟨hnew, hstored⟩
    have hother (t) (ht : t ∈ s.counters) : ¬t.Mem r.next := fun hmem =>
      hnew ((h.handed _).mpr ⟨t, ht, hmem⟩)
    have hbounded : r.succ.Bounded :=
      (CounterRange.mem_next_iff (hapart.bounded r hrmem)).mp (hother r hrmem)
    -- the range that has grown, and another
    have hgrown (k t) (hik : i ≠ k) (hk : s.counters[k]? = some t) : r.succ.Apart t := by
      have ht := List.mem_of_getElem? hk
      rw [CounterRange.apart_iff hbounded (hapart.bounded t ht)]
      intro guid hguid
      rcases CounterRange.mem_succ.mp hguid with hguid | rfl
      · exact (CounterRange.apart_iff (hapart.bounded r hrmem) (hapart.bounded t ht)).mp
          (hapart.apart i k r t hik hr hk) guid hguid
      · exact hother t ht
    refine ⟨?_, ?_, ?_⟩
    · intro t ht
      obtain ⟨k, hk⟩ := List.mem_iff_getElem?.mp ht
      rw [hget] at hk
      split at hk
      · exact Option.some.inj hk ▸ hbounded
      · exact hapart.bounded t (List.mem_of_getElem? hk)
    · intro j k t u hjk ht hu
      rw [hget] at ht hu
      split at ht
      · next hij =>
        rw [if_neg (hij ▸ hjk)] at hu
        exact Option.some.inj ht ▸ hgrown k u (hij ▸ hjk) hu
      · next hij =>
        split at hu
        · exact Option.some.inj hu ▸ (hgrown j t hij ht).symm
        · exact hapart.apart j k t u hjk ht hu
    · intro t ht guid hguid hmem
      rcases (exists_mem_draw hr).mp ⟨t, ht, hmem⟩ with ⟨u, hu, hmem⟩ | rfl
      · exact hapart.stored u hu guid hguid hmem
      · exact hstored (h.subset_stored _ hguid)

end Draw

/-- **One step** keeps the ranges apart exactly where it hands out nothing that is there. -/
theorem step_spec {engine : Engine} {e : GuidEvent} (h : s.Inv stored) (hapart : s.Apart stored)
    (hstep : s.step engine e = some s') :
    s'.Inv stored ∧ (s'.Apart stored ↔ e.HandsOutNew s) := by
  cases e with
  | start process memory =>
    rw [step, Option.ite_none_right_eq_some] at hstep
    obtain rfl := Option.some.inj hstep.2
    exact ⟨h.assign process memory, iff_of_true (hapart.assign process memory) trivial⟩
  | initMaxGuids process =>
    rw [step, Option.ite_none_left_eq_some] at hstep
    obtain ⟨maxGuid, -, rfl⟩ := Option.map_eq_some_iff.mp hstep.2
    exact ⟨h.assign process maxGuid, iff_of_true (hapart.assign process maxGuid) trivial⟩
  | getMaxGuid process =>
    obtain ⟨i, r, hi, hr, rfl⟩ := getMaxGuid_eq_some_iff.mp hstep
    refine ⟨h.draw hr, (Apart.draw_iff h hapart hr).trans ⟨?_, fun hnew => hnew i r hi hr⟩⟩
    intro hnew j t hj ht
    obtain rfl := Option.some.inj (hi.symm.trans hj)
    obtain rfl := Option.some.inj (hr.symm.trans ht)
    exact hnew
  | commit guid =>
    rw [step, Option.ite_none_right_eq_some] at hstep
    obtain ⟨⟨hqueued, -⟩, hs⟩ := hstep
    obtain rfl := Option.some.inj hs
    refine ⟨⟨h.handed, ?_, ?_, ?_⟩,
      iff_of_true ⟨hapart.bounded, hapart.apart, hapart.stored⟩ trivial⟩
    · intro other hother
      rcases List.mem_cons.mp hother with rfl | hother
      · exact Or.inr (h.queued _ hqueued)
      · exact h.stored_subset _ hother
    · exact fun other hother => List.mem_cons_of_mem _ (h.subset_stored _ hother)
    · exact fun other hother => h.queued _ (List.mem_of_mem_erase hother)
  | rollback guid =>
    rw [step, Option.ite_none_right_eq_some] at hstep
    obtain rfl := Option.some.inj hstep.2
    exact ⟨⟨h.handed, h.stored_subset, h.subset_stored,
      fun other hother => h.queued _ (List.mem_of_mem_erase hother)⟩,
      iff_of_true ⟨hapart.bounded, hapart.apart, hapart.stored⟩ trivial⟩

end Guids

/-! ### Every run -/

/-- The state a sequence of events takes a table and its processes to. -/
def guidRun (engine : Engine) (stored : List UInt32) (es : List GuidEvent) : Option Guids :=
  Runs.run (Guids.step engine) (Guids.init stored) es

/-- **The guids are unique for as long as the ranges are apart.** For either engine, every
table and every interleaving of the starts, draws, commits and rollbacks of any number of
processes, a guid that is handed out is never one that was handed out before or is stored,
if and only if at no time the guids drawn since one setting of a counter reach those drawn
since another, a guid the table had in the beginning, or their own beginning. -/
theorem guids_unique_iff (engine : Engine) (stored : List UInt32) (es : List GuidEvent) :
    (∀ i s e s', Runs.StepAt (Guids.step engine) (Guids.init stored) es i s e s' →
      e.HandsOutNew s) ↔
      ∀ i s, guidRun engine stored (es.take i) = some s → s.Apart stored := by
  symm
  refine Runs.forall_run_take_iff (P := fun s => s.Inv stored ∧ s.Apart stored)
    (fun s h => h.2) ?_ ?_ ⟨Guids.inv_init stored, Guids.apart_init stored⟩
  · rintro s e s' ⟨h, hapart⟩ hstep hnew
    obtain ⟨h', hiff⟩ := Guids.step_spec h hapart hstep
    exact ⟨h', hiff.mpr hnew⟩
  · rintro s e s' ⟨h, hapart⟩ hstep hapart'
    exact (Guids.step_spec h hapart hstep).2.mp hapart'

/-- Two processes that are started with an empty table: both draw the guid 1. -/
theorem two_processes_same_guid :
    ∃ s s', Runs.StepAt (Guids.step .mysql) (Guids.init [])
        [.start 0 0, .start 1 0, .initMaxGuids 0, .initMaxGuids 1, .getMaxGuid 0, .getMaxGuid 1]
        5 s (.getMaxGuid 1) s' ∧
      s'.handed = [1, 1] ∧ ¬(GuidEvent.getMaxGuid 1).HandsOutNew s := by
  refine ⟨_, _, ⟨rfl, rfl, rfl⟩, rfl, ?_⟩
  intro hnew
  exact (hnew 3 { first := 1, count := 0 } rfl rfl).1 (by decide)

end Morfeusz.Proxyd
