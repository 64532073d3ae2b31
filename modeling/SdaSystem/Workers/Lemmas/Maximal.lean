import SdaSystem.Scheduling.Lemmas.FreeSlots
import SdaSystem.Scheduling.Lemmas.Maximal
import SdaSystem.Workers.Lemmas.LifeCycle
import SdaSystem.Workers.Lemmas.Uniqueness

open CpSat Intervals Runs

namespace SdaSystem

open GreedyScheduler ORToolsOptimizer

section candidates

variable {stations stations' : StationTable} {table table' : PassTable} {startTime endTime : Int}

theorem lookup_map_eq_some [DecidableEq κ] (key : α → κ) (f : κ → β) (xs : List α) {k : κ} {b : β}
    : (xs.map fun x => (key x, f (key x))).lookup k = some b ↔ (∃ x ∈ xs, key x = k) ∧ b = f k := by
  induction xs with
  | nil => simp
  | cons x rest ih =>
    rw [List.map_cons, List.lookup_cons, List.exists_mem_cons_iff]
    by_cases hk : key x = k
    . subst hk
      simp [eq_comm]
    . rw [beq_eq_false_iff_ne.mpr (Ne.symm hk)]
      simpa [hk] using ih

theorem lookup_freeSlotsOf {stationId : String} {slots : List (Int × Int)}
    : (freeSlotsOf stations table startTime endTime).lookup stationId = some slots
        ↔
      stationId ∈ activeStations stations ∧ slots = getFreeSlots table stationId startTime endTime := by
  have hlookup := lookup_map_eq_some (fun station : GroundStation => station.stationId)
    (fun stationId => getFreeSlots table stationId startTime endTime)
    (stations.rows.filter (·.isActive)) (k := stationId) (b := slots)
  unfold freeSlotsOf activeStations
  rw [hlookup]
  simp

theorem lookup_freeSlotsOf_of_active {stationId : String}
    (hactive : stationId ∈ activeStations stations) (table : PassTable) (startTime endTime : Int)
    : (freeSlotsOf stations table startTime endTime).lookup stationId
        =
      some (getFreeSlots table stationId startTime endTime) :=
  lookup_freeSlotsOf.mpr ⟨hactive, rfl⟩

@[simp]
theorem fitsInAnySlot_nil (rise set : Int) : fitsInAnySlot rise set (sortedBy (·.1) []) = false := by
  simp [fitsInAnySlot, Bisect.right, sortedBy]

theorem fitsInAnySlot_getFreeSlots {stationId : String} {p : SatellitePass} (horder : p.TimeOrder)
    : fitsInAnySlot p.riseTime p.setTime
          (sortedBy (·.1) (getFreeSlots table stationId startTime endTime))
        ↔
      startTime ≤ p.riseTime ∧ p.setTime ≤ endTime
        ∧ ∀ q ∈ scheduledWithin table stationId startTime endTime, p.NonOverlapping q := by
  have hsep : Separated (getFreeSlots table stationId startTime endTime) := getFreeSlots_separated
  rw [sortedBy_eq_self (List.pairwise_map.mp hsep.starts), fitsInAnySlot_iff horder hsep]
  simp only [← SatellitePass.not_meets_interval]
  apply exists_within_getFreeSlots (a := p.interval) horder.interval_proper

theorem fitsInAnySlot_freeSlotsOf {p : SatellitePass} (horder : p.TimeOrder)
    : fitsInAnySlot p.riseTime p.setTime (sortedBy (·.1)
          (((freeSlotsOf stations table startTime endTime).lookup p.stationId).getD []))
        ↔
      p.stationId ∈ activeStations stations ∧ startTime ≤ p.riseTime ∧ p.setTime ≤ endTime
        ∧ ∀ q ∈ scheduledWithin table p.stationId startTime endTime, p.NonOverlapping q := by
  cases hslots : (freeSlotsOf stations table startTime endTime).lookup p.stationId with
  | some slots =>
    obtain ⟨hactive, rfl⟩ := lookup_freeSlotsOf.mp hslots
    rw [Option.getD_some, fitsInAnySlot_getFreeSlots horder]
    simp [hactive]
  | none =>
    have hinactive : p.stationId ∉ activeStations stations := by
      intro hactive
      simp [lookup_freeSlotsOf_of_active hactive] at hslots
    simp [hinactive]

theorem mem_getCandidatePasses_freeSlotsOf {sats : Finset Int} {startTime' endTime' : Int}
    {p : SatellitePass}
    : p ∈ getCandidatePasses table' sats startTime' endTime'
          (freeSlotsOf stations table startTime endTime)
        ↔
      (p ∈ table'.rows ∧ p.isScheduled = false ∧ startTime' ≤ p.riseTime ∧ p.setTime ≤ endTime'
        ∧ p.noradId ∉ sats)
        ∧
      p.stationId ∈ activeStations stations ∧ startTime ≤ p.riseTime ∧ p.setTime ≤ endTime
        ∧ ∀ q ∈ scheduledWithin table p.stationId startTime endTime, p.NonOverlapping q := by
  have hfits : p ∈ table'.rows → (fitsInAnySlot p.riseTime p.setTime (sortedBy (·.1)
      (((freeSlotsOf stations table startTime endTime).lookup p.stationId).getD [])) ↔ _) :=
    fun hp => fitsInAnySlot_freeSlotsOf (table'.timeOrder p hp)
  unfold getCandidatePasses
  split
  . next hnone =>
    -- no station is active, so there is none that the pass could be at
    rw [hnone] at hfits
    simp only [List.lookup_nil, Option.getD_none, fitsInAnySlot_nil, Bool.false_eq_true] at hfits
    simp only [List.not_mem_nil, false_iff, not_and]
    intro hquery
    simpa only [false_iff, not_and] using hfits hquery.left
  . simp only [List.mem_filter, mem_sortedBy, decide_eq_true_eq, Bool.not_eq_true]
    rw [and_congr_right]
    intro hquery
    apply hfits hquery.left

end candidates

section handover

variable {stations : StationTable} {table table' : PassTable} {startTime horizon : Int}
variable {task : OrtoolsTask}

structure Handover (fl : Rat → Rat) (stations : StationTable) (table table' : PassTable) (startTime horizon : Int)
    (task : OrtoolsTask) (res : Progress) : Prop where
  stationRun : StationRun fl table startTime (startTime + horizon) (activeStations stations) {} res
  valid : res.Valid table startTime (startTime + horizon) (activeStations stations)
  table_eq : table' = table.markScheduled (res.allScheduled.map (·.id)) .greedy
  scheduledSats_eq : task.scheduledSats = res.globallyScheduledSats
  freeSlots_eq : task.freeSlots = freeSlotsOf stations table' startTime (startTime + horizon)

theorem runGreedy_handover {fl : Rat → Rat} (hfl : Monotone fl)
    (h : runGreedy fl stations table startTime horizon = some (table', task))
    : ∃ res, Handover fl stations table table' startTime horizon task res := by
  obtain ⟨res, hrun, hvalid, heq⟩ :=
    scheduleAllStations_eq hfl stations table startTime (startTime + horizon)
  unfold runGreedy at h
  simp only [heq, Option.bind_eq_bind, Option.bind_some, Option.pure_def, Option.some.injEq,
    Prod.mk.injEq] at h
  obtain ⟨rfl, rfl⟩ := h
  exact ⟨res, hrun, hvalid, rfl, rfl, rfl⟩

namespace Handover

section

variable {fl : Rat → Rat} {res : Progress}
variable (h : Handover fl stations table table' startTime horizon task res)
include h

theorem candidates_eq (hactive : activeStations stations ≠ []) (stations' : StationTable)
    (later : PassTable) (startTime' horizon' : Int)
    : runOrtools.candidates stations' later startTime' horizon' task
        =
      getCandidatePasses later (runOrtools.scheduledSats later task) startTime' (startTime' + horizon')
        (freeSlotsOf stations table' startTime (startTime + horizon)) := by
  have hslots : task.freeSlots ≠ [] := by
    rw [h.freeSlots_eq]
    intro hnone
    obtain ⟨stationId, hmem⟩ := List.exists_mem_of_ne_nil _ hactive
    have hfound := lookup_freeSlotsOf_of_active hmem table' startTime (startTime + horizon)
    rw [hnone] at hfound
    simp at hfound
  unfold runOrtools.candidates runOrtools.parsedSlots
  rw [if_neg hslots, h.freeSlots_eq]

theorem not_mem_of_not_mem_scheduledSats {later : PassTable} {n : Int}
    (hn : n ∉ runOrtools.scheduledSats later task) : n ∉ res.globallyScheduledSats := by
  rw [← h.scheduledSats_eq]
  unfold runOrtools.scheduledSats at hn
  split at hn
  . next hnone => simp [hnone]
  . apply hn

theorem schedule_mem {q : SatellitePass} (hq : q ∈ res.allScheduled)
    : q.schedule .greedy ∈ scheduledWithin table' q.stationId startTime (startTime + horizon) := by
  rw [mem_scheduledWithin]
  refine ⟨⟨?_, rfl, rfl⟩, h.valid.window q hq⟩
  rw [h.table_eq, PassTable.mem_markScheduled]
  exact .inr ⟨q, h.valid.mem q hq, List.mem_map_of_mem hq, rfl⟩

theorem exists_of_mem_scheduledSats {later : PassTable} {n : Int}
    (hkept : ∀ q ∈ table'.rows, q.isScheduled → q ∈ later.rows)
    (hn : n ∈ runOrtools.scheduledSats later task)
    : ∃ q ∈ later.rows, q.isScheduled ∧ q.noradId = n := by
  unfold runOrtools.scheduledSats at hn
  split at hn
  . simpa [and_assoc] using hn
  . rw [h.scheduledSats_eq, h.valid.sats] at hn
    obtain ⟨q, hq, rfl⟩ := hn
    have hmem := mem_scheduledWithin.mp (h.schedule_mem hq)
    exact ⟨_, hkept _ hmem.left.mem rfl, rfl, rfl⟩

end

theorem benefit_nonpos {res : Progress}
    (h : Handover id stations table table' startTime horizon task res) (hactive : activeStations stations ≠ []) {stations' : StationTable}
    {later : PassTable} {startTime' horizon' : Int} {p : SatellitePass}
    (hp : p ∈ runOrtools.candidates stations' later startTime' horizon' task) (hthere : p ∈ table'.rows)
    : benefit p ≤ 0 := by
  rw [h.candidates_eq hactive, mem_getCandidatePasses_freeSlotsOf] at hp
  obtain ⟨⟨_, hunscheduled, _, _, hnorad⟩, hstation, hstart, hend, hclear⟩ := hp
  have hbefore : p ∈ table.rows := by
    rw [h.table_eq, PassTable.mem_markScheduled] at hthere
    rcases hthere with hthere | ⟨q, _, _, rfl⟩
    . apply hthere.left
    . simp at hunscheduled
  by_contra hpos
  obtain ⟨q, hq, hqstation, hover⟩ := h.stationRun.exists_overlaps hstation
    ⟨hbefore, rfl, hstart, hend, hunscheduled, h.not_mem_of_not_mem_scheduledSats hnorad⟩
    (not_le.mp hpos)
  have hmem := h.schedule_mem hq
  rw [hqstation] at hmem
  have hnot : p.NonOverlapping (q.schedule .greedy) := hclear _ hmem
  apply SatellitePass.not_overlaps_iff.mpr hnot hover

end Handover

variable {solver : CpModel Var → Option (Assignment Var)}

/--
Stage 2 schedules only rows that came after Stage 1 has committed, or that are worth nothing; on the
table that Stage 1 has left it has nothing to do.
-/
theorem runOrtools_schedules_later
    (hgreedy : runGreedy id stations table startTime horizon = some (table', task))
    (hactive : activeStations stations ≠ []) (stations' : StationTable) (later : PassTable)
    (startTime' horizon' : Int)
    : let rows := (runOrtools solver stations' later startTime' horizon' task).rows
      (∀ p ∈ later.rows, p ∉ rows → p ∉ table'.rows ∨ benefit p ≤ 0)
        ∧
      ((∀ p ∈ later.rows, p ∈ table'.rows ∧ 0 < benefit p) → rows = later.rows) := by
  intro rows
  obtain ⟨res, h⟩ := runGreedy_handover monotone_id hgreedy
  let candidates := runOrtools.candidates stations' later startTime' horizon' task
  let selected := solve solver candidates startTime' (runOrtools.scheduledSats later task)
  have hrows : rows = (later.markScheduled (selected.map (·.id)) .ortools).rows := rfl
  have hmem : ∀ p ∈ selected, p ∈ later.rows := by
    intro p hp
    apply (mem_getCandidatePasses (mem_solve hp).left).left
  have hnew : ∀ p ∈ selected, p ∉ table'.rows ∨ benefit p ≤ 0 := by
    intro p hp
    by_cases hthere : p ∈ table'.rows
    . exact .inr (h.benefit_nonpos hactive (mem_solve hp).left hthere)
    . exact .inl hthere
  constructor
  . intro p hp hchanged
    apply hnew
    apply PassTable.mem_of_id_mem hmem hp
    by_contra hid
    apply hchanged
    rw [hrows, PassTable.mem_markScheduled]
    exact .inl ⟨hp, hid⟩
  . intro hold
    have hnone : selected = [] := by
      apply List.eq_nil_iff_forall_not_mem.mpr
      intro p hp
      have := hold p (hmem p hp)
      rcases hnew p hp with hlate | hworthless
      . apply hlate this.left
      . apply not_lt.mpr hworthless this.right
    rw [hrows, hnone]
    simp [PassTable.markScheduled]

theorem runOrtools_schedules_later_late
    : ∃ table' task,
        runGreedy id Pipeline.soleStation (PassTable.empty.insert Pipeline.early) 0 3600000000
            = some (table', task)
          ∧
        let rows := (runOrtools (fun _ => some fun _ => true) Pipeline.soleStation
          (table'.insert Pipeline.late) 60000000 3600000000 task).rows
        (∀ p ∈ (table'.insert Pipeline.late).rows, p ∉ rows → p ∉ table'.rows ∨ benefit p ≤ 0)
          ∧
        ((∀ p ∈ (table'.insert Pipeline.late).rows, p ∈ table'.rows ∧ 0 < benefit p)
          → rows = (table'.insert Pipeline.late).rows) := by
  obtain ⟨⟨table', task⟩, hgreedy⟩ : ∃ result,
      runGreedy id Pipeline.soleStation (PassTable.empty.insert Pipeline.early) 0 3600000000
        = some result := by
    apply Option.isSome_iff_exists.mp
    decide +kernel
  refine ⟨table', task, hgreedy, ?_⟩
  apply runOrtools_schedules_later hgreedy
  decide +kernel

end handover

theorem SatellitePass.Advance.eq_of_isScheduled {p q : SatellitePass} (h : p.Advance q)
    (hsched : p.isScheduled) : q = p := by
  rcases h with heq | ⟨hnot, _⟩
  . exact heq
  . simp [hnot] at hsched

theorem PassTable.Advances.mem_of_isScheduled {table table' : PassTable} (h : table.Advances table')
    {q : SatellitePass} (hq : q ∈ table.rows) (hsched : q.isScheduled) : q ∈ table'.rows := by
  obtain ⟨q', hq', hadvance⟩ := h.kept q hq
  rwa [hadvance.eq_of_isScheduled hsched] at hq'

namespace Pipeline

theorem Step.mem_of_isScheduled {s t : State} {e : Event} (h : Step s e t) {q : SatellitePass}
    (hsched : q.isScheduled) (hq : q ∈ s.table.rows) : q ∈ t.table.rows := by
  cases e with
  | bulkUpsertPasses rows =>
    cases h with
    | bulkUpsertPasses hnew h =>
      unfold SdaSystem.bulkUpsertPasses at h
      split at h
      . cases h
        apply PassTable.rows_subset_insertAll _ _ hq
      . simp at h
  | _ => exact (h.advances trivial).mem_of_isScheduled hq hsched

/--
Whatever happens between the two stages: when the solver has found a best answer, a row that both
stages could see is scheduled, or meets a scheduled one, or its satellite has one.
-/
theorem maximal_of_run {s u : State} {stations stations' : StationTable}
    {startTime horizon startTime' horizon' : Int} {table : PassTable} {task : OrtoolsTask}
    {events : List Event} {solver : CpModel Var → Option (Assignment Var)}
    (hgreedy : SdaSystem.runGreedy PyFloat.fl stations s.table startTime horizon = some (table, task))
    (hrun : Run Step { table, tasks := task :: s.tasks } events u)
    (hsolver : (buildModel (validPasses
      (runOrtools.candidates stations' u.table startTime' horizon' task) startTime')).SolvedBy solver)
    : let rows := (SdaSystem.runOrtools solver stations' u.table startTime' horizon' task).rows
      ∀ p ∈ rows, p.stationId ∈ activeStations stations
        → startTime ≤ p.riseTime → p.setTime ≤ startTime + horizon
        → startTime' ≤ p.riseTime → p.setTime ≤ startTime' + horizon'
        → HasDuration startTime' p → 0 ≤ benefit p
        → p.isScheduled
            ∨
          ∃ q ∈ rows, q.isScheduled
            ∧ (q.noradId = p.noradId ∨ (q.stationId = p.stationId ∧ q.Overlaps p)) := by
  intro rows p hp hstation hstart hend hstart' hend' hdur hbenefit
  obtain ⟨res, h⟩ := runGreedy_handover PyFloat.fl_mono hgreedy
  have hkept : ∀ q ∈ table.rows, q.isScheduled → q ∈ u.table.rows := by
    intro q hq hsched
    apply hrun.invariant (I := fun s => q ∈ s.table.rows) _ hq
    intro s e t hq hstep
    apply hstep.mem_of_isScheduled hsched hq
  have hstays : ∀ q ∈ u.table.rows, q.isScheduled → q ∈ rows := by
    intro q hq hsched
    apply advances_runOrtools.mem_of_isScheduled hq hsched
  cases hunscheduled : p.isScheduled with
  | true => exact .inl rfl
  | false =>
    apply Or.inr
    have hthere : p ∈ u.table.rows := by
      rcases PassTable.mem_markScheduled.mp hp with hp | ⟨q, _, _, rfl⟩
      . apply hp.left
      . simp at hunscheduled
    by_cases hserved : p.noradId ∈ runOrtools.scheduledSats u.table task
    . -- its satellite has been served before
      obtain ⟨q, hq, hsched, hnorad⟩ := h.exists_of_mem_scheduledSats hkept hserved
      exact ⟨q, hstays q hq hsched, hsched, .inl hnorad⟩
    by_cases hclear : ∀ q ∈ scheduledWithin table p.stationId startTime (startTime + horizon),
        p.NonOverlapping q
    . -- it is a candidate, so the best answer takes it or takes what keeps it out
      have hcandidate : p ∈ runOrtools.candidates stations' u.table startTime' horizon' task := by
        rw [h.candidates_eq (List.ne_nil_of_mem hstation), mem_getCandidatePasses_freeSlotsOf]
        exact ⟨⟨hthere, hunscheduled, hstart', hend', hserved⟩, hstation, hstart, hend, hclear⟩
      have hoffered : ∀ q ∈ runOrtools.candidates stations' u.table startTime' horizon' task,
          startTime' ≤ q.riseTime ∧ q.TimeOrder
            ∧ q.noradId ∉ runOrtools.scheduledSats u.table task := by
        intro q hq
        obtain ⟨hmem, _, hrise, hnew⟩ := mem_getCandidatePasses hq
        exact ⟨hrise, u.table.timeOrder q hmem, hnew⟩
      obtain ⟨q, hq, hkeepsOut⟩ := exists_mem_solve hsolver hoffered hcandidate hdur hbenefit
      refine ⟨q.schedule .ortools, ?_, rfl, hkeepsOut⟩
      apply PassTable.mem_markScheduled_of_mem _ _ hq
      apply (mem_getCandidatePasses (mem_solve hq).left).left
    . -- it is in the way of a row that Stage 1 has left scheduled
      push Not at hclear
      obtain ⟨q, hq, hmeets⟩ := hclear
      have hq := (mem_scheduledWithin.mp hq).left
      rw [← SatellitePass.not_overlaps_iff, not_not] at hmeets
      exact ⟨q, hstays q (hkept q hq.mem hq.scheduled) hq.scheduled, hq.scheduled,
        .inr ⟨hq.station, hmeets.symm⟩⟩

def afterBoth : SatellitePass :=
  { id := 3, noradId := 103, stationId := "GS1", riseTime := 1000000000, setTime := 1600000000,
    durationSeconds := 600, maxElevation := 30 }

def overlapping : PassTable := (PassTable.empty.insert early).insert late

theorem candidates_afterBoth {table : PassTable} {task : OrtoolsTask}
    (hgreedy : SdaSystem.runGreedy PyFloat.fl soleStation overlapping 0 3600000000 = some (table, task))
    : runOrtools.candidates soleStation (table.insert afterBoth) 0 3600000000 task = [afterBoth] := by
  have hall : (SdaSystem.runGreedy PyFloat.fl soleStation overlapping 0 3600000000).map (fun (table, task) =>
      runOrtools.candidates soleStation (table.insert afterBoth) 0 3600000000 task)
        = some [afterBoth] := by
    decide +kernel
  rw [hgreedy] at hall
  simpa using hall

def acceptAll (_ : CpModel Var) : Option (Assignment Var) := some fun _ => true

theorem solvedBy_acceptAll : (buildModel (validPasses [afterBoth] 0)).SolvedBy acceptAll := by
  refine ⟨_, rfl, by decide +kernel, ?_⟩
  intro b _
  have hobjective : (buildModel (validPasses [afterBoth] 0)).objective
      = [(.pass 0, 1800001), (.pass 0, 1800000)] := by
    decide +kernel
  unfold CpModel.value
  rw [hobjective]
  cases hb : b (.pass 0) <;> simp [hb]

theorem maximal_of_run_afterBoth
    : ∃ table task, SdaSystem.runGreedy PyFloat.fl soleStation overlapping 0 3600000000 = some (table, task)
        ∧
      let rows :=
        (SdaSystem.runOrtools acceptAll soleStation (table.insert afterBoth) 0 3600000000 task).rows
      ∀ p ∈ rows, p.stationId ∈ activeStations soleStation
        → 0 ≤ p.riseTime → p.setTime ≤ 0 + 3600000000 → 0 ≤ p.riseTime → p.setTime ≤ 0 + 3600000000
        → HasDuration 0 p → 0 ≤ benefit p
        → p.isScheduled
            ∨
          ∃ q ∈ rows, q.isScheduled
            ∧ (q.noradId = p.noradId ∨ (q.stationId = p.stationId ∧ q.Overlaps p)) := by
  obtain ⟨⟨table, task⟩, hgreedy⟩ : ∃ result,
      SdaSystem.runGreedy PyFloat.fl soleStation overlapping 0 3600000000 = some result := by
    apply Option.isSome_iff_exists.mp
    decide +kernel
  refine ⟨table, task, hgreedy, ?_⟩
  have hrun : Run Step { table, tasks := [task] } [.bulkUpsertPasses [afterBoth]]
      { table := table.insert afterBoth, tasks := [task] } := by
    apply Run.cons _ (Run.nil _)
    apply Step.bulkUpsertPasses (s := { table, tasks := [task] })
    . simp [afterBoth]
    . have hchecks : ∀ p ∈ [afterBoth], p.Checks := by decide +kernel
      unfold SdaSystem.bulkUpsertPasses
      rw [if_pos hchecks]
      rfl
  apply maximal_of_run (s := { table := overlapping }) hgreedy hrun
  rw [candidates_afterBoth hgreedy]
  apply solvedBy_acceptAll

end Pipeline

end SdaSystem
