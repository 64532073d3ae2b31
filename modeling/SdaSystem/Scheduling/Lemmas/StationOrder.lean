import SdaSystem.Scheduling.Lemmas.Approximation

namespace SdaSystem
namespace GreedyScheduler

section

variable (table : PassTable) (startTime endTime : Int)

structure Offered (p : SatellitePass) : Prop where
  mem : p ∈ table.rows
  startTime_le : startTime ≤ p.riseTime
  le_endTime : p.setTime ≤ endTime
  unscheduled : p.isScheduled = false

structure Plan (stations : StationTable) (plan : List SatellitePass) : Prop where
  offered : ∀ p ∈ plan, Offered table startTime endTime p
  active : ∀ p ∈ plan, p.stationId ∈ activeStations stations
  exclusive : plan.Pairwise fun p q => p.stationId = q.stationId → p.NonOverlapping q
  uniqueSats : (plan.map (·.noradId)).Nodup

def WithinRatio (ratio : Rat) : Prop :=
  ∀ p q, Offered table startTime endTime p → Offered table startTime endTime q →
    p.noradId = q.noradId → p.stationId ≠ q.stationId → benefit p ≤ ratio * benefit q

end

/-- An earlier station got the satellite of `p`; the stations take turns in the order of their ids. -/
def servedEarlier (returned : List SatellitePass) (p : SatellitePass) : Bool :=
  returned.any fun r => r.noradId = p.noradId ∧ r.stationId < p.stationId

theorem servedEarlier_iff {returned : List SatellitePass} {p : SatellitePass}
    : servedEarlier returned p = true
        ↔
      ∃ r ∈ returned, r.noradId = p.noradId ∧ r.stationId < p.stationId := by
  simp [servedEarlier]

theorem servedEarlier_map_schedule (selected : List SatellitePass) (stage : ScheduledBy)
    (p : SatellitePass)
    : servedEarlier (selected.map (·.schedule stage)) p = servedEarlier selected p := by
  unfold servedEarlier
  rw [List.any_map]
  rfl

theorem activeStations_sorted (stations : StationTable) : (activeStations stations).Pairwise (· < ·) := by
  have hle := pairwise_sortedBy id ((stations.rows.filter (·.isActive)).map (·.stationId))
  have hne := activeStations_nodup stations
  apply (hle.and hne).imp
  intro a b h
  exact lt_of_le_of_ne h.left h.right

theorem mem_before_iff {stationIds before after : List String} {stationId stationId' : String}
    (hsorted : stationIds.Pairwise (· < ·)) (hsplit : stationIds = before ++ stationId :: after)
    (hmem : stationId' ∈ stationIds) : stationId' ∈ before ↔ stationId' < stationId := by
  rw [hsplit, List.pairwise_append, List.pairwise_cons] at hsorted
  obtain ⟨_, ⟨hafter, _⟩, hbefore⟩ := hsorted
  constructor
  . intro h
    exact hbefore stationId' h stationId List.mem_cons_self
  . intro hlt
    rw [hsplit, List.mem_append, List.mem_cons] at hmem
    rcases hmem with h | rfl | h
    . exact h
    . exact absurd hlt (lt_irrefl stationId')
    . exact absurd hlt (lt_asymm (hafter stationId' h))

section

variable {table : PassTable} {startTime endTime : Int} {stations : StationTable} {plan : List SatellitePass}

theorem Plan.filter (h : Plan table startTime endTime stations plan) (f : SatellitePass → Bool)
    : Plan table startTime endTime stations (plan.filter f) where
  offered := fun p hp => h.offered p (List.mem_of_mem_filter hp)
  active := fun p hp => h.active p (List.mem_of_mem_filter hp)
  exclusive := h.exclusive.filter f
  uniqueSats := h.uniqueSats.sublist (List.filter_sublist.map _)

theorem Plan.nodup (h : Plan table startTime endTime stations plan) : plan.Nodup :=
  List.Nodup.of_map _ h.uniqueSats

theorem StationRun.sum_benefit_le {res : Progress} (hplan : Plan table startTime endTime stations plan)
    (hrun : StationRun id table startTime endTime (activeStations stations) {} res)
    (hvalid : res.Valid table startTime endTime (activeStations stations))
    : ((plan.filter fun p => !servedEarlier res.allScheduled p).map benefit).sum
        ≤
      (res.allScheduled.map benefit).sum := by
  have hleft := hplan.filter fun p => !servedEarlier res.allScheduled p
  apply Charging.sum_le_sum_of_groups (activeStations_nodup stations) hleft.active hvalid.station
  intro stationId hstation
  obtain ⟨before, after, hsplit⟩ := List.append_of_mem hstation
  have hnodup := activeStations_nodup stations
  rw [hsplit] at hrun hnodup
  obtain ⟨sats, selected, hsats, hfirst, hselected⟩ := hrun.at_station hnodup
  have hgroup : selected.Perm (group (·.stationId) res.allScheduled stationId) := by
    rw [List.perm_ext_iff_of_nodup]
    . intro p
      rw [hselected, mem_group]
    . obtain ⟨sub, hperm, hsub⟩ := hfirst.subperm
      apply hperm.nodup
      apply hsub.nodup
      apply List.Nodup.filter
      apply rows_nodup
    . apply hvalid.nodup.filter
  rw [← (hgroup.map benefit).sum_eq]
  apply hfirst.sum_benefit_le
  . apply List.subperm_of_subset (hleft.nodup.filter _)
    intro p hp
    obtain ⟨hp, hst⟩ := (mem_group _ _).mp hp
    obtain ⟨hp, hnot⟩ := List.mem_filter.mp hp
    have hoffered := hplan.offered p hp
    rw [mem_candidates]
    refine ⟨hoffered.mem, hst, hoffered.startTime_le, hoffered.le_endTime, hoffered.unscheduled, ?_⟩
    intro hserved
    obtain ⟨r, hr, hbefore, hnorad⟩ := (hsats _).mp hserved
    rw [mem_before_iff (activeStations_sorted stations) hsplit (hvalid.station r hr)] at hbefore
    have hearlier := servedEarlier_iff.mpr ⟨r, hr, hnorad, hst ▸ hbefore⟩
    simp [hearlier] at hnot
  . apply (hleft.exclusive.filter _).imp_of_mem
    intro p q hp hq hpq
    obtain ⟨_, hp⟩ := (mem_group _ _).mp hp
    obtain ⟨_, hq⟩ := (mem_group _ _).mp hq
    exact hpq (hp.trans hq.symm)

theorem sum_benefit_servedEarlier_le {returned : List SatellitePass} {ratio : Rat}
    (hplan : Plan table startTime endTime stations plan)
    (hreturned : ∀ r ∈ returned, ∃ p, Offered table startTime endTime p ∧ r = p.schedule .greedy)
    (hchecks : ∀ p ∈ table.rows, p.Checks) (hnonneg : 0 ≤ ratio)
    (hratio : WithinRatio table startTime endTime ratio)
    : ((plan.filter (servedEarlier returned)).map benefit).sum
        ≤
      ratio * (returned.map benefit).sum := by
  have hearlier := hplan.filter (servedEarlier returned)
  have hle : ((plan.filter (servedEarlier returned)).map benefit).sum
      ≤ 1 • (returned.map fun r => ratio * benefit r).sum := by
    apply Charging.sum_le_nsmul_sum (r := fun r p => decide (r.noradId = p.noradId))
    . intro p hp
      obtain ⟨hp, hserved⟩ := List.mem_filter.mp hp
      obtain ⟨r, hr, hnorad, hlt⟩ := servedEarlier_iff.mp hserved
      refine ⟨r, hr, decide_eq_true hnorad, ?_⟩
      obtain ⟨q, hq, rfl⟩ := hreturned r hr
      apply hratio p q (hplan.offered p hp) hq hnorad.symm (ne_of_gt hlt)
    . intro r _
      have hcount : (plan.filter (servedEarlier returned)).countP (fun p => decide (r.noradId = p.noradId))
          = ((plan.filter (servedEarlier returned)).map (·.noradId)).count r.noradId := by
        rw [List.count_eq_countP, List.countP_map]
        apply List.countP_congr
        intro p _
        rw [decide_eq_true_iff, Function.comp_apply, beq_iff_eq]
        exact eq_comm
      rw [hcount]
      apply List.nodup_iff_count_le_one.mp hearlier.uniqueSats
    . intro r hr
      obtain ⟨q, hq, rfl⟩ := hreturned r hr
      apply mul_nonneg hnonneg (hchecks q hq.mem).benefit_nonneg
  rw [one_nsmul, List.sum_map_mul_left] at hle
  exact hle

theorem Progress.Valid.offered {done : List String} {res : Progress}
    (h : res.Valid table startTime endTime done) {p : SatellitePass} (hp : p ∈ res.allScheduled)
    : Offered table startTime endTime p where
  mem := h.mem p hp
  startTime_le := (h.window p hp).left
  le_endTime := (h.window p hp).right
  unscheduled := h.unscheduled p hp

/--
Against any plan that takes no satellite twice, Stage 1 loses at most what the plan gets from satellites
that went to an earlier station. So if the passes of a satellite at different stations are worth within
`ratio` of each other, it gets at least one in `1 + ratio` parts.
-/
theorem scheduleAllStations_approximates (hchecks : ∀ p ∈ table.rows, p.Checks)
    (hplan : Plan table startTime endTime stations plan)
    : ∃ table' returned scheduledSats,
        scheduleAllStations id stations table startTime endTime = some (table', returned, scheduledSats)
          ∧
        (plan.map benefit).sum
            ≤ (returned.map benefit).sum + ((plan.filter (servedEarlier returned)).map benefit).sum
          ∧
        ∀ ratio, 0 ≤ ratio → WithinRatio table startTime endTime ratio
          → (plan.map benefit).sum ≤ (1 + ratio) * (returned.map benefit).sum := by
  obtain ⟨res, hrun, hvalid, heq⟩ := scheduleAllStations_eq monotone_id stations table startTime endTime
  refine ⟨_, _, _, heq, ?_⟩
  let returned := res.allScheduled.map (·.schedule .greedy)
  have hbenefit : (returned.map benefit).sum = (res.allScheduled.map benefit).sum := by
    rw [List.map_map]
    rfl
  have hloss : (plan.map benefit).sum
      ≤ (returned.map benefit).sum + ((plan.filter (servedEarlier returned)).map benefit).sum := by
    have hleft := StationRun.sum_benefit_le hplan hrun hvalid
    have hsplit := Charging.sum_map_filter_add benefit (servedEarlier returned) plan
    simp only [returned, servedEarlier_map_schedule] at hsplit ⊢
    linarith
  refine ⟨hloss, ?_⟩
  intro ratio hnonneg hratio
  have hreturned : ∀ r ∈ returned, ∃ p, Offered table startTime endTime p ∧ r = p.schedule .greedy := by
    intro r hr
    obtain ⟨p, hp, rfl⟩ := List.mem_map.mp hr
    exact ⟨p, hvalid.offered hp, rfl⟩
  have := sum_benefit_servedEarlier_le hplan hreturned hchecks hnonneg hratio
  linarith

end

open IntervalTreeScheduler (twoStations firstPass otherStation) in
theorem scheduleAllStations_approximates_twoStations
    : let table := (PassTable.empty.insert firstPass).insert otherStation
      ∃ table' returned scheduledSats,
        scheduleAllStations id twoStations table 0 7200000000 = some (table', returned, scheduledSats)
          ∧
        ([{ otherStation with id := 2 }].map benefit).sum ≤ (1 + 1) * (returned.map benefit).sum := by
  intro table
  have hplan : Plan table 0 7200000000 twoStations [{ otherStation with id := 2 }] := by
    constructor
    case offered =>
      rw [List.forall_mem_singleton]
      constructor <;> decide
    case active => decide +kernel
    case exclusive => simp
    case uniqueSats => simp
  have hworth : ∀ p ∈ table.rows, benefit p = 48000 := by decide +kernel
  obtain ⟨table', returned, sats, heq, _, hratio⟩ :=
    scheduleAllStations_approximates (by decide +kernel) hplan
  refine ⟨table', returned, sats, heq, ?_⟩
  apply hratio 1 (by decide)
  intro p q hp hq _ _
  rw [hworth p hp.mem, hworth q hq.mem, one_mul]

end GreedyScheduler
end SdaSystem
