import Mathlib.Data.List.TakeWhile
import SdaSystem.Scheduling.Lemmas.Weighted

/-!
What one call of `scheduleAllStations` does: the guard never drops a pass, every station contributes
the first best schedule of what it is offered, and the rows gathered on the way are unscheduled rows
of the window, pairwise non-overlapping at each station.
-/

namespace SdaSystem
namespace GreedyScheduler

namespace detectConflicts

theorem mem_heappush {active : List SatellitePass} {p q : SatellitePass}
    : q ∈ heappush active p ↔ q = p ∨ q ∈ active := by
  unfold heappush
  apply List.mem_orderedInsert

theorem go_eq_nil (active sortedPasses : List SatellitePass)
    (hsorted : sortedPasses.Pairwise fun p q => p.riseTime ≤ q.riseTime)
    (horder : ∀ p ∈ sortedPasses, p.TimeOrder)
    (hpair : sortedPasses.Pairwise SatellitePass.NonOverlapping)
    (hactive : ∀ a ∈ active, ∀ p ∈ sortedPasses, a.setTime ≤ p.riseTime)
    : go active sortedPasses = [] := by
  induction sortedPasses generalizing active with
  | nil => simp [go]
  | cons p rest ih =>
    rw [List.pairwise_cons] at hsorted hpair
    have hdrop : active.dropWhile (fun a => decide (a.setTime ≤ p.riseTime)) = [] := by
      rw [List.dropWhile_eq_nil_iff]
      intro a ha
      simpa using hactive a ha p (by simp)
    unfold go
    simp only [hdrop, List.map_nil, List.nil_append]
    apply ih
    . apply hsorted.right
    . intro q hq
      apply horder
      simp [hq]
    . apply hpair.right
    . intro a ha q hq
      rw [mem_heappush] at ha
      rcases ha with rfl | ha
      . have hrise := hsorted.left q hq
        have hset := horder q (by simp [hq])
        unfold SatellitePass.TimeOrder at hset
        rcases hpair.left q hq with h | h
        . assumption
        . omega
      . simp at ha

end detectConflicts

theorem detectConflicts_eq_nil {passes : List SatellitePass} (horder : ∀ p ∈ passes, p.TimeOrder)
    (hpair : passes.Pairwise SatellitePass.NonOverlapping) : detectConflicts passes = [] := by
  unfold detectConflicts
  apply detectConflicts.go_eq_nil
  . apply pairwise_sortedBy
  . intro p hp
    apply horder
    simpa using hp
  . have hperm := sortedBy_perm (fun p : SatellitePass => p.riseTime) passes
    apply (hperm.pairwise_iff SatellitePass.NonOverlapping.symm).mpr hpair
  . simp

theorem dropConflicts_eq_self {passes : List SatellitePass} (horder : ∀ p ∈ passes, p.TimeOrder)
    (hpair : passes.Pairwise SatellitePass.NonOverlapping) : dropConflicts passes = passes := by
  unfold dropConflicts
  rw [detectConflicts_eq_nil horder hpair]
  simp

section

variable {fl : Rat → Rat} (table : PassTable) (startTime endTime : Int)

structure IsCandidate (stationId : String) (sats : Finset Int) (p : SatellitePass) : Prop where
  mem : p ∈ table.rows
  station : p.stationId = stationId
  startTime_le : startTime ≤ p.riseTime
  le_endTime : p.setTime ≤ endTime
  unscheduled : p.isScheduled = false
  noradId : p.noradId ∉ sats

theorem mem_candidates {stationId : String} {sats : Finset Int} {p : SatellitePass}
    : p ∈ candidates table startTime endTime stationId sats
        ↔
      IsCandidate table startTime endTime stationId sats p := by
  unfold candidates
  rw [List.mem_filter]
  constructor
  . intro h
    simp only [Bool.not_eq_true, decide_eq_true_eq] at h
    obtain ⟨hmem, hstation, hrise, hset, hsched, hnorad⟩ := h
    exact ⟨hmem, hstation, hrise, hset, hsched, hnorad⟩
  . intro h
    simp [h.mem, h.station, h.startTime_le, h.le_endTime, h.unscheduled, h.noradId]

def Progress.extend (acc : Progress) (selected : List SatellitePass) : Progress where
  allScheduled := acc.allScheduled ++ selected
  globallyScheduledSats := acc.globallyScheduledSats ∪ (selected.map (·.noradId)).toFinset

theorem scheduleStation_eq (hfl : Monotone fl) (acc : Progress) (stationId : String)
    : ∃ selected,
        IsFirstBestSchedule fl
          (candidates table startTime endTime stationId acc.globallyScheduledSats) selected
          ∧
        scheduleStation fl table startTime endTime acc stationId = some (acc.extend selected) := by
  have horder : ∀ p ∈ candidates table startTime endTime stationId acc.globallyScheduledSats,
      p.TimeOrder := by
    intro p hp
    rw [mem_candidates] at hp
    apply table.timeOrder p hp.mem
  obtain ⟨selected, heq, hfirst⟩ := scheduleWeighted_isFirstBestSchedule hfl horder
  refine ⟨selected, hfirst, ?_⟩
  unfold scheduleStation
  simp only [heq, Option.bind_eq_bind, Option.bind_some]
  rw [dropConflicts_eq_self]
  . rfl
  . intro p hp
    apply horder
    apply hfirst.subperm.subset hp
  . apply hfirst.pairwise_nonOverlapping

variable (fl) in
/-- The station loop from `acc` to `res`, each station contributing its first best schedule. -/
inductive StationRun : List String → Progress → Progress → Prop where
  | nil (acc : Progress) : StationRun [] acc acc
  | cons {stationId : String} {rest : List String} {acc res : Progress}
      (selected : List SatellitePass)
      (hfirst : IsFirstBestSchedule fl
        (candidates table startTime endTime stationId acc.globallyScheduledSats) selected)
      (hrest : StationRun rest (acc.extend selected) res)
      : StationRun (stationId :: rest) acc res

theorem foldlM_scheduleStation (hfl : Monotone fl) (stationIds : List String) (acc : Progress)
    : ∃ res, stationIds.foldlM (scheduleStation fl table startTime endTime) acc = some res
        ∧
      StationRun fl table startTime endTime stationIds acc res := by
  induction stationIds generalizing acc with
  | nil => exact ⟨acc, rfl, .nil acc⟩
  | cons stationId rest ih =>
    obtain ⟨selected, hfirst, heq⟩ := scheduleStation_eq table startTime endTime hfl acc stationId
    obtain ⟨res, hres, hrun⟩ := ih (acc.extend selected)
    refine ⟨res, ?_, .cons selected hfirst hrun⟩
    rw [List.foldlM_cons, heq]
    assumption

structure Progress.Valid (done : List String) (acc : Progress) : Prop where
  mem : ∀ p ∈ acc.allScheduled, p ∈ table.rows
  unscheduled : ∀ p ∈ acc.allScheduled, p.isScheduled = false
  window : ∀ p ∈ acc.allScheduled, startTime ≤ p.riseTime ∧ p.setTime ≤ endTime
  station : ∀ p ∈ acc.allScheduled, p.stationId ∈ done
  exclusive : acc.allScheduled.Pairwise fun p q => p.stationId = q.stationId → p.NonOverlapping q
  nodup : acc.allScheduled.Nodup
  sats : ∀ n, n ∈ acc.globallyScheduledSats ↔ ∃ p ∈ acc.allScheduled, p.noradId = n

variable {table startTime endTime}

theorem rows_nodup (table : PassTable) : table.rows.Nodup :=
  List.Nodup.of_map _ table.primaryKey

theorem Progress.valid_empty : Progress.Valid table startTime endTime [] {} := by
  constructor <;> simp

theorem Progress.Valid.extend {done : List String} {acc : Progress}
    (h : acc.Valid table startTime endTime done) {stationId : String} (hnew : stationId ∉ done)
    {selected : List SatellitePass}
    (hfirst : IsFirstBestSchedule fl
      (candidates table startTime endTime stationId acc.globallyScheduledSats) selected)
    : (acc.extend selected).Valid table startTime endTime (done ++ [stationId]) := by
  have hcand : ∀ p ∈ selected,
      IsCandidate table startTime endTime stationId acc.globallyScheduledSats p := by
    intro p hp
    rw [← mem_candidates]
    apply hfirst.subperm.subset hp
  have hall : ∀ motive : SatellitePass → Prop, (∀ p ∈ acc.allScheduled, motive p)
      → (∀ p ∈ selected, motive p) → ∀ p ∈ (acc.extend selected).allScheduled, motive p := by
    intro motive hold hsel p hp
    cases List.mem_append.mp hp with
    | inl hp => apply hold p hp
    | inr hp => apply hsel p hp
  constructor
  case mem => apply hall _ h.mem (fun p hp => (hcand p hp).mem)
  case unscheduled => apply hall _ h.unscheduled (fun p hp => (hcand p hp).unscheduled)
  case window =>
    apply hall _ h.window
    intro p hp
    exact ⟨(hcand p hp).startTime_le, (hcand p hp).le_endTime⟩
  case station =>
    apply hall
    . intro p hp
      apply List.mem_append_left
      apply h.station p hp
    . intro p hp
      apply List.mem_append_right
      simp [(hcand p hp).station]
  case exclusive =>
    apply List.pairwise_append.mpr
    refine ⟨h.exclusive, ?_, ?_⟩
    . apply hfirst.pairwise_nonOverlapping.imp
      intro p q hpq _
      assumption
    . intro p hp q hq heq
      rw [(hcand q hq).station] at heq
      exact absurd (heq ▸ h.station p hp) hnew
  case nodup =>
    apply List.nodup_append.mpr
    refine ⟨h.nodup, ?_, ?_⟩
    . obtain ⟨sub, hperm, hsub⟩ := hfirst.subperm
      apply hperm.nodup
      apply hsub.nodup
      apply List.Nodup.filter
      apply rows_nodup
    . rintro p hp q hq rfl
      -- a row gathered before is one of another station
      have := (hcand p hq).station
      exact absurd (this ▸ h.station p hp) hnew
  case sats =>
    intro n
    have := h.sats n
    simp only [Progress.extend, Finset.mem_union, List.mem_toFinset, List.mem_map, List.mem_append,
      this]
    grind

theorem StationRun.valid {stationIds done : List String} {acc res : Progress}
    (hrun : StationRun fl table startTime endTime stationIds acc res)
    (hnodup : (done ++ stationIds).Nodup) (h : acc.Valid table startTime endTime done)
    : res.Valid table startTime endTime (done ++ stationIds) := by
  induction hrun generalizing done with
  | nil acc => simpa using h
  | @cons stationId rest acc res selected hfirst hrest ih =>
    have hnew : stationId ∉ done := by
      intro hmem
      rw [List.nodup_append] at hnodup
      apply hnodup.right.right stationId hmem stationId (by simp) rfl
    have hnodup' : ((done ++ [stationId]) ++ rest).Nodup := by simpa using hnodup
    have := ih hnodup' (h.extend hnew hfirst)
    simpa using this

end

theorem activeStations_nodup (stations : StationTable) : (activeStations stations).Nodup := by
  apply (sortedBy_perm id _).nodup_iff.mpr
  apply List.Nodup.sublist _ stations.uniqueKey
  apply List.Sublist.map
  apply List.filter_sublist

theorem scheduleAllStations_eq {fl : Rat → Rat} (hfl : Monotone fl) (stations : StationTable)
    (table : PassTable) (startTime endTime : Int)
    : ∃ res,
        StationRun fl table startTime endTime (activeStations stations) {} res
          ∧
        res.Valid table startTime endTime (activeStations stations)
          ∧
        scheduleAllStations fl stations table startTime endTime
          =
        some (
          table.markScheduled (res.allScheduled.map (·.id)) .greedy,
          res.allScheduled.map (·.schedule .greedy),
          res.globallyScheduledSats
        ) := by
  obtain ⟨res, heq, hrun⟩ :=
    foldlM_scheduleStation table startTime endTime hfl (activeStations stations) {}
  refine ⟨res, hrun, ?_, ?_⟩
  . have hnodup : ([] ++ activeStations stations).Nodup := activeStations_nodup stations
    apply hrun.valid hnodup Progress.valid_empty
  . unfold scheduleAllStations
    rw [heq]
    rfl

end GreedyScheduler
end SdaSystem
