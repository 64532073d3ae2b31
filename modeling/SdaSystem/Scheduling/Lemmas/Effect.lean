import Mathlib.Data.List.Forall2
import SdaSystem.Scheduling.Lemmas.Greedy

namespace SdaSystem
namespace GreedyScheduler

section

variable {fl : Rat → Rat} {table : PassTable} {startTime endTime : Int}

theorem StationRun.split {before after : List String} {acc res : Progress}
    (hrun : StationRun fl table startTime endTime (before ++ after) acc res)
    : ∃ mid, StationRun fl table startTime endTime before acc mid
        ∧
      StationRun fl table startTime endTime after mid res := by
  induction before generalizing acc with
  | nil => exact ⟨acc, .nil acc, hrun⟩
  | cons stationId before ih =>
    cases hrun with
    | cons selected hfirst hrest =>
      obtain ⟨mid, hbefore, hafter⟩ := ih hrest
      exact ⟨mid, .cons selected hfirst hbefore, hafter⟩

theorem StationRun.exists_later {stationIds : List String} {acc res : Progress}
    (hrun : StationRun fl table startTime endTime stationIds acc res)
    : ∃ later, res.allScheduled = acc.allScheduled ++ later ∧ ∀ p ∈ later, p.stationId ∈ stationIds := by
  induction hrun with
  | nil acc => exact ⟨[], by simp, by simp⟩
  | @cons stationId rest acc res selected hfirst hrest ih =>
    obtain ⟨later, heq, hlater⟩ := ih
    refine ⟨selected ++ later, ?_, ?_⟩
    . rw [heq, ← List.append_assoc]
      rfl
    . intro p hp
      rw [List.mem_append] at hp
      cases hp with
      | inl hp =>
        have hcand := (mem_candidates _ _ _).mp (hfirst.subperm.subset hp)
        simp [hcand.station]
      | inr hp => simp [hlater p hp]

theorem StationRun.at_station {before after : List String} {stationId : String} {res : Progress}
    (hrun : StationRun fl table startTime endTime (before ++ stationId :: after) {} res)
    (hnodup : (before ++ stationId :: after).Nodup)
    : ∃ sats selected,
        (∀ n, n ∈ sats ↔ ∃ r ∈ res.allScheduled, r.stationId ∈ before ∧ r.noradId = n)
          ∧
        IsFirstBestSchedule fl (candidates table startTime endTime stationId sats) selected
          ∧
        ∀ p, p ∈ selected ↔ p ∈ res.allScheduled ∧ p.stationId = stationId := by
  obtain ⟨mid, hbefore, hafter⟩ := hrun.split
  rw [List.nodup_append] at hnodup
  obtain ⟨hnodup, hnodup', hdisj⟩ := hnodup
  rw [List.nodup_cons] at hnodup'
  have hvalid : mid.Valid table startTime endTime ([] ++ before) :=
    hbefore.valid hnodup Progress.valid_empty
  cases hafter with
  | cons selected hfirst hrest =>
    obtain ⟨later, heq, hlater⟩ := hrest.exists_later
    have hmem : ∀ p, p ∈ res.allScheduled ↔ (p ∈ mid.allScheduled ∨ p ∈ selected) ∨ p ∈ later := by
      intro p
      rw [heq]
      simp [Progress.extend, or_assoc]
    have hstation : ∀ p ∈ selected, p.stationId = stationId := by
      intro p hp
      apply ((mem_candidates _ _ _).mp (hfirst.subperm.subset hp)).station
    refine ⟨mid.globallyScheduledSats, selected, ?_, hfirst, ?_⟩
    . intro n
      rw [hvalid.sats]
      constructor
      . rintro ⟨p, hp, hn⟩
        exact ⟨p, (hmem p).mpr (.inl (.inl hp)), hvalid.station p hp, hn⟩
      . rintro ⟨p, hp, hst, hn⟩
        rcases (hmem p).mp hp with (hp | hp) | hp
        . exact ⟨p, hp, hn⟩
        . exact absurd (hstation p hp) (hdisj _ hst _ (by simp))
        . exact absurd rfl (hdisj _ hst _ (List.mem_cons_of_mem _ (hlater p hp)))
    . intro p
      constructor
      . intro hp
        exact ⟨(hmem p).mpr (.inl (.inr hp)), hstation p hp⟩
      . rintro ⟨hp, hst⟩
        rcases (hmem p).mp hp with (hp | hp) | hp
        . exact absurd hst (hdisj _ (hvalid.station p hp) _ (by simp))
        . assumption
        . exact absurd (hst ▸ hlater p hp) hnodup'.left

end

structure BestSelection (offered selected : List SatellitePass) : Prop where
  sublist : selected.Sublist offered
  nonOverlapping : selected.Pairwise SatellitePass.NonOverlapping
  greatest : ∀ other : List SatellitePass, other.Sublist offered
    → other.Pairwise SatellitePass.NonOverlapping
    → (other.map benefit).sum ≤ (selected.map benefit).sum

theorem IsFirstBestSchedule.bestSelection {offered offered' selected selected' : List SatellitePass}
    (h : IsFirstBestSchedule id offered selected) (hoffered : offered'.Sublist offered)
    (hperm : selected'.Perm selected) (hsub : selected'.Sublist offered')
    : BestSelection offered' selected' := by
  constructor
  case sublist => assumption
  case nonOverlapping =>
    apply (hperm.pairwise_iff SatellitePass.NonOverlapping.symm).mpr
    apply h.pairwise_nonOverlapping
  case greatest =>
    intro other hother hpair
    rw [(hperm.map benefit).sum_eq]
    apply h.sum_benefit_le _ hpair
    apply (hother.trans hoffered).subperm

def flippedAt (table : PassTable) (returned : List SatellitePass) (stationId : String)
    : List SatellitePass :=
  table.rows.filter fun p => p.stationId = stationId ∧ p.schedule .greedy ∈ returned

def offeredAt (table : PassTable) (startTime endTime : Int) (returned : List SatellitePass)
    (before : List String) (stationId : String) : List SatellitePass :=
  table.rows.filter fun p =>
    p.stationId = stationId ∧ startTime ≤ p.riseTime ∧ p.setTime ≤ endTime ∧ ¬ p.isScheduled
      ∧ ∀ r ∈ returned, r.stationId ∈ before → r.noradId ≠ p.noradId

structure Effect (stations : StationTable) (table : PassTable) (startTime endTime : Int)
    (table' : PassTable) (returned : List SatellitePass) (scheduledSats : Finset Int) : Prop where
  rows : List.Forall₂
    (fun p p' => if p.schedule .greedy ∈ returned then
        p.isScheduled = false ∧ p' = { p with isScheduled := true, scheduledBy := some .greedy }
      else
        p' = p)
    table.rows table'.rows
  returned_mem : ∀ r ∈ returned, r ∈ table'.rows ∧ ∃ p ∈ table.rows, r = p.schedule .greedy
  returned_nodup : returned.Nodup
  returned_station : ∀ r ∈ returned, r.stationId ∈ activeStations stations
  best : ∀ before stationId after, activeStations stations = before ++ stationId :: after
    → BestSelection (offeredAt table startTime endTime returned before stationId)
        (flippedAt table returned stationId)
  guard : ∀ stationId sats, ∃ selected,
    scheduleWeighted id (candidates table startTime endTime stationId sats) = some selected
      ∧ detectConflicts selected = [] ∧ dropConflicts selected = selected
  sats : ∀ n, n ∈ scheduledSats ↔ ∃ r ∈ returned, r.noradId = n

section

variable {table : PassTable} {startTime endTime : Int}

theorem exists_scheduleWeighted_candidates (table : PassTable) (startTime endTime : Int)
    (stationId : String) (sats : Finset Int)
    : ∃ selected, scheduleWeighted id (candidates table startTime endTime stationId sats) = some selected
        ∧ detectConflicts selected = [] ∧ dropConflicts selected = selected := by
  have horder : ∀ p ∈ candidates table startTime endTime stationId sats, p.TimeOrder := by
    intro p hp
    apply table.timeOrder p ((mem_candidates _ _ _).mp hp).mem
  obtain ⟨selected, heq, hfirst⟩ := scheduleWeighted_isFirstBestSchedule monotone_id horder
  have horder' : ∀ p ∈ selected, p.TimeOrder := by
    intro p hp
    apply horder p (hfirst.subperm.subset hp)
  have hpair := hfirst.pairwise_nonOverlapping
  exact ⟨selected, heq, detectConflicts_eq_nil horder' hpair, dropConflicts_eq_self horder' hpair⟩

theorem schedule_mem_map_schedule_iff {selected : List SatellitePass}
    (hmem : ∀ p ∈ selected, p ∈ table.rows) {p : SatellitePass} (hp : p ∈ table.rows)
    {stage : ScheduledBy} : p.schedule stage ∈ selected.map (·.schedule stage) ↔ p ∈ selected := by
  constructor
  . intro h
    obtain ⟨q, hq, heq⟩ := List.mem_map.mp h
    have hid : q.id = p.id := by simpa using congrArg (·.id) heq
    rw [← table.eq_of_id_eq (hmem q hq) hp hid]
    apply hq
  . apply List.mem_map_of_mem

theorem Progress.Valid.bestSelection {before after : List String} {stationId : String} {res : Progress}
    (hvalid : res.Valid table startTime endTime (before ++ stationId :: after))
    (hrun : StationRun id table startTime endTime (before ++ stationId :: after) {} res)
    (hnodup : (before ++ stationId :: after).Nodup)
    : BestSelection
        (offeredAt table startTime endTime (res.allScheduled.map (·.schedule .greedy)) before stationId)
        (flippedAt table (res.allScheduled.map (·.schedule .greedy)) stationId) := by
  obtain ⟨sats, selected, hsats, hfirst, hselected⟩ := hrun.at_station hnodup
  have hflipped : ∀ p, p ∈ flippedAt table (res.allScheduled.map (·.schedule .greedy)) stationId
      ↔ p ∈ selected := by
    intro p
    unfold flippedAt
    rw [List.mem_filter, decide_eq_true_iff, hselected]
    constructor
    . rintro ⟨hp, hst, hret⟩
      exact ⟨(schedule_mem_map_schedule_iff hvalid.mem hp).mp hret, hst⟩
    . rintro ⟨hp, hst⟩
      exact ⟨hvalid.mem p hp, hst, List.mem_map_of_mem hp⟩
  have hcand : ∀ p ∈ selected, IsCandidate table startTime endTime stationId sats p := by
    intro p hp
    apply (mem_candidates _ _ _).mp (hfirst.subperm.subset hp)
  have hoffered : offeredAt table startTime endTime (res.allScheduled.map (·.schedule .greedy)) before
        stationId
      = candidates table startTime endTime stationId sats := by
    unfold offeredAt candidates
    apply List.filter_congr
    intro p hp
    have : p.noradId ∉ sats ↔ ∀ r ∈ res.allScheduled.map (·.schedule .greedy),
        r.stationId ∈ before → r.noradId ≠ p.noradId := by
      rw [hsats]
      simp
    simp only [this]
  have hsub : flippedAt table (res.allScheduled.map (·.schedule .greedy)) stationId
      = (candidates table startTime endTime stationId sats).filter (· ∈ selected) := by
    unfold flippedAt candidates
    rw [List.filter_filter]
    apply List.filter_congr
    intro p hp
    rw [Bool.eq_iff_iff, Bool.and_eq_true, decide_eq_true_iff, decide_eq_true_iff, hselected,
      schedule_mem_map_schedule_iff hvalid.mem hp, and_comm]
    constructor
    . intro h
      have := hcand p ((hselected p).mpr h)
      refine ⟨h, ?_⟩
      simp [this.station, this.startTime_le, this.le_endTime, this.unscheduled, this.noradId]
    . intro h
      apply h.left
  apply hfirst.bestSelection
  . rw [hoffered]
  . rw [List.perm_ext_iff_of_nodup]
    . apply hflipped
    . apply List.Nodup.filter
      apply rows_nodup
    . obtain ⟨sub, hperm, hsub⟩ := hfirst.subperm
      apply hperm.nodup
      apply hsub.nodup
      apply List.Nodup.filter
      apply rows_nodup
  . rw [hoffered, hsub]
    apply List.filter_sublist

end

theorem scheduleAllStations_effect (stations : StationTable) (table : PassTable)
    (startTime endTime : Int)
    : ∃ table' returned scheduledSats,
        scheduleAllStations id stations table startTime endTime = some (table', returned, scheduledSats)
          ∧
        Effect stations table startTime endTime table' returned scheduledSats := by
  obtain ⟨res, hrun, hvalid, heq⟩ := scheduleAllStations_eq monotone_id stations table startTime endTime
  refine ⟨_, _, _, heq, ?_⟩
  have hmem : ∀ p ∈ table.rows, p.schedule .greedy ∈ res.allScheduled.map (·.schedule .greedy)
      ↔ p ∈ res.allScheduled := fun p hp => schedule_mem_map_schedule_iff hvalid.mem hp
  have hid : ∀ p ∈ table.rows, p.id ∈ res.allScheduled.map (·.id) ↔ p ∈ res.allScheduled := by
    intro p hp
    constructor
    . apply PassTable.mem_of_id_mem hvalid.mem hp
    . apply List.mem_map_of_mem
  constructor
  case rows =>
    unfold PassTable.markScheduled
    rw [List.forall₂_map_right_iff, List.forall₂_same]
    intro p hp
    simp only [hmem p hp, hid p hp]
    split
    . next h => exact ⟨hvalid.unscheduled p h, rfl⟩
    . rfl
  case returned_mem =>
    intro r hr
    obtain ⟨p, hp, rfl⟩ := List.mem_map.mp hr
    refine ⟨?_, p, hvalid.mem p hp, rfl⟩
    rw [PassTable.mem_markScheduled]
    exact .inr ⟨p, hvalid.mem p hp, List.mem_map_of_mem hp, rfl⟩
  case returned_nodup =>
    rw [List.nodup_map_iff_inj_on hvalid.nodup]
    intro p hp q hq hpq
    apply table.eq_of_id_eq (hvalid.mem p hp) (hvalid.mem q hq)
    simpa using congrArg (·.id) hpq
  case returned_station =>
    intro r hr
    obtain ⟨p, hp, rfl⟩ := List.mem_map.mp hr
    apply hvalid.station p hp
  case best =>
    intro before stationId after hsplit
    have hnodup := activeStations_nodup stations
    rw [hsplit] at hrun hvalid hnodup
    apply hvalid.bestSelection hrun hnodup
  case guard =>
    apply exists_scheduleWeighted_candidates
  case sats =>
    intro n
    rw [hvalid.sats]
    simp

end GreedyScheduler
end SdaSystem
