import SdaSystem.Library.Intervals
import SdaSystem.Scheduling.Lemmas.Solve

open Intervals

namespace SdaSystem

def SatellitePass.interval (p : SatellitePass) : Int × Int :=
  (p.riseTime, p.setTime)

theorem SatellitePass.TimeOrder.interval_proper {p : SatellitePass} (h : p.TimeOrder)
    : p.interval.1 < p.interval.2 := h

theorem SatellitePass.not_meets_interval {p q : SatellitePass}
    : ¬ Meets p.interval q.interval ↔ p.NonOverlapping q := by
  rw [← SatellitePass.not_overlaps_iff]
  rfl

namespace GreedyScheduler

namespace mergeIntervals

theorem go_starts_le {last : Int × Int} {rest : List (Int × Int)} {lo : Int} (hlast : lo ≤ last.1)
    (hrest : ∀ iv ∈ rest, lo ≤ iv.1) : ∀ iv ∈ go last rest, lo ≤ iv.1 := by
  induction rest generalizing last with
  | nil => simpa [go] using hlast
  | cons iv rest ih =>
    rw [List.forall_mem_cons] at hrest
    unfold go
    split
    . have hjoined : lo ≤ (last.1, max last.2 iv.2).1 := hlast
      apply ih hjoined hrest.right
    . rw [List.forall_mem_cons]
      exact ⟨hlast, ih hrest.left hrest.right⟩

structure Swept (endTime : Int) (ivs : List (Int × Int)) : Prop where
  proper : ∀ iv ∈ ivs, iv.1 < iv.2
  le_endTime : ∀ iv ∈ ivs, iv.2 ≤ endTime
  starts : ivs.Pairwise fun a b => a.1 ≤ b.1

theorem go_swept {endTime : Int} {last : Int × Int} {rest : List (Int × Int)}
    (h : Swept endTime (last :: rest)) : Swept endTime (go last rest) := by
  induction rest generalizing last with
  | nil => simpa [go] using h
  | cons iv rest ih =>
    obtain ⟨hproper, hend, hstarts⟩ := h
    simp only [List.forall_mem_cons] at hproper hend
    simp only [List.pairwise_cons, List.forall_mem_cons] at hstarts
    unfold go
    split
    . apply ih
      constructor
      . rw [List.forall_mem_cons]
        exact ⟨lt_of_lt_of_le hproper.left (le_max_left _ _), hproper.right.right⟩
      . rw [List.forall_mem_cons]
        exact ⟨max_le hend.left hend.right.left, hend.right.right⟩
      . rw [List.pairwise_cons]
        exact ⟨hstarts.left.right, hstarts.right.right⟩
    . have hgo : Swept endTime (go iv rest) := by
        apply ih
        constructor
        . rw [List.forall_mem_cons]
          exact hproper.right
        . rw [List.forall_mem_cons]
          exact hend.right
        . rw [List.pairwise_cons]
          exact hstarts.right
      constructor
      . rw [List.forall_mem_cons]
        exact ⟨hproper.left, hgo.proper⟩
      . rw [List.forall_mem_cons]
        exact ⟨hend.left, hgo.le_endTime⟩
      . rw [List.pairwise_cons]
        refine ⟨?_, hgo.starts⟩
        apply go_starts_le hstarts.left.left hstarts.left.right

theorem meets_go {a last : Int × Int} {rest : List (Int × Int)} (ha : a.1 < a.2)
    (hstarts : (last :: rest).Pairwise fun a b => a.1 ≤ b.1)
    : (∃ iv ∈ go last rest, Meets a iv) ↔ ∃ iv ∈ last :: rest, Meets a iv := by
  induction rest generalizing last with
  | nil => simp [go]
  | cons iv rest ih =>
    simp only [List.pairwise_cons, List.forall_mem_cons] at hstarts
    unfold go
    split
    . next hjoin =>
      rw [ih]
      . simp only [List.exists_mem_cons_iff]
        rw [meets_join ha hstarts.left.left hjoin, or_assoc]
      . rw [List.pairwise_cons]
        exact ⟨hstarts.left.right, hstarts.right.right⟩
    . rw [List.exists_mem_cons_iff, List.exists_mem_cons_iff, ih]
      rw [List.pairwise_cons]
      exact hstarts.right

end mergeIntervals

theorem mergeIntervals_swept {endTime : Int} {ivs : List (Int × Int)}
    (hproper : ∀ iv ∈ ivs, iv.1 < iv.2) (hend : ∀ iv ∈ ivs, iv.2 ≤ endTime)
    : mergeIntervals.Swept endTime (mergeIntervals ivs) := by
  have hsorted : mergeIntervals.Swept endTime (sortedBy (·.1) ivs) := by
    constructor
    . simpa using hproper
    . simpa using hend
    . apply pairwise_sortedBy
  unfold mergeIntervals
  split
  . next heq => rwa [heq] at hsorted
  . next heq =>
    rw [heq] at hsorted
    apply mergeIntervals.go_swept hsorted

theorem meets_mergeIntervals {a : Int × Int} (ha : a.1 < a.2) (ivs : List (Int × Int))
    : (∃ iv ∈ mergeIntervals ivs, Meets a iv) ↔ ∃ iv ∈ ivs, Meets a iv := by
  have hsorted := pairwise_sortedBy (fun iv : Int × Int => iv.1) ivs
  have hmem : (∃ iv ∈ sortedBy (·.1) ivs, Meets a iv) ↔ ∃ iv ∈ ivs, Meets a iv := by
    simp
  rw [← hmem]
  unfold mergeIntervals
  split
  . next heq => rw [heq]
  . next heq =>
    rw [heq] at hsorted ⊢
    apply mergeIntervals.meets_go ha hsorted

namespace getFreeSlots

variable {endTime : Int}

theorem go_spec (cursor : Int) {occupied : List (Int × Int)}
    (h : mergeIntervals.Swept endTime occupied)
    : Separated (go endTime cursor occupied) ∧ ∀ s ∈ go endTime cursor occupied, cursor ≤ s.1 := by
  induction occupied generalizing cursor with
  | nil =>
    unfold go
    split
    . next hlt =>
      refine ⟨⟨?_, ?_⟩, ?_⟩
      . simpa using hlt
      . apply List.pairwise_singleton
      . simp
    . refine ⟨⟨?_, ?_⟩, ?_⟩ <;> simp
  | cons o rest ih =>
    obtain ⟨hproper, hend, hstarts⟩ := h
    rw [List.forall_mem_cons] at hproper hend
    rw [List.pairwise_cons] at hstarts
    obtain ⟨hsep, hcursor⟩ := ih (max cursor o.2) ⟨hproper.right, hend.right, hstarts.right⟩
    unfold go
    split
    . next hlt =>
      refine ⟨⟨?_, ?_⟩, ?_⟩
      . rw [List.forall_mem_cons]
        exact ⟨hlt, hsep.proper⟩
      . rw [List.pairwise_cons]
        refine ⟨?_, hsep.ordered⟩
        intro s hs
        have := hcursor s hs
        have := hproper.left
        dsimp only
        omega
      . rw [List.forall_mem_cons]
        refine ⟨le_refl _, ?_⟩
        intro s hs
        apply le_trans (le_max_left _ _) (hcursor s hs)
    . refine ⟨hsep, ?_⟩
      intro s hs
      apply le_trans (le_max_left _ _) (hcursor s hs)

theorem exists_within_go {a : Int × Int} (ha : a.1 < a.2) (cursor : Int) {occupied : List (Int × Int)}
    (h : mergeIntervals.Swept endTime occupied)
    : (∃ s ∈ go endTime cursor occupied, Within a s)
        ↔
      cursor ≤ a.1 ∧ a.2 ≤ endTime ∧ ∀ o ∈ occupied, ¬ Meets a o := by
  induction occupied generalizing cursor with
  | nil =>
    unfold go Within
    split
    . simp
    . simp only [List.not_mem_nil, false_and, exists_false, false_iff]
      omega
  | cons o rest ih =>
    obtain ⟨hproper, hend, hstarts⟩ := h
    rw [List.forall_mem_cons] at hproper hend
    rw [List.pairwise_cons] at hstarts
    have hrest := ih (max cursor o.2) ⟨hproper.right, hend.right, hstarts.right⟩
    rw [List.forall_mem_cons]
    have hbefore : a.2 ≤ o.1 → ∀ o' ∈ rest, ¬ Meets a o' := by
      intro hle o' ho' hmeets
      have := hstarts.left o' ho'
      unfold Meets at hmeets
      omega
    -- an interval clear of `o` lies before it, in the slot that ends there, or after it
    have hclear : ¬ Meets a o ↔ a.2 ≤ o.1 ∨ o.2 ≤ a.1 := by
      unfold Meets
      omega
    unfold go
    split
    . rw [List.exists_mem_cons_iff, hrest, hclear]
      unfold Within
      constructor
      . rintro (hfirst | hlater)
        . have := hbefore hfirst.right
          exact ⟨hfirst.left, by have := hend.left; have := hproper.left; dsimp at hfirst; omega,
            .inl hfirst.right, this⟩
        . exact ⟨by omega, hlater.right.left, .inr (by omega), hlater.right.right⟩
      . rintro ⟨hcursor, hle, hbef | haft, hnone⟩
        . exact .inl ⟨hcursor, hbef⟩
        . exact .inr ⟨by omega, hle, hnone⟩
    . rw [hrest, hclear]
      constructor
      . intro hlater
        exact ⟨by omega, hlater.right.left, .inr (by omega), hlater.right.right⟩
      . rintro ⟨hcursor, hle, hbef | haft, hnone⟩
        . omega
        . exact ⟨by omega, hle, hnone⟩

end getFreeSlots

section

variable {scheduled : List SatellitePass} {startTime endTime : Int}

theorem mergeIntervals_scheduled_swept (horder : ∀ q ∈ scheduled, q.TimeOrder)
    (hend : ∀ q ∈ scheduled, q.setTime ≤ endTime)
    : mergeIntervals.Swept endTime (mergeIntervals (scheduled.map (·.interval))) := by
  apply mergeIntervals_swept
  . rw [List.forall_mem_map]
    exact horder
  . rw [List.forall_mem_map]
    exact hend

theorem freeSlotsBetween_separated (horder : ∀ q ∈ scheduled, q.TimeOrder)
    (hend : ∀ q ∈ scheduled, q.setTime ≤ endTime)
    : Separated (freeSlotsBetween scheduled startTime endTime) := by
  apply (getFreeSlots.go_spec startTime (mergeIntervals_scheduled_swept horder hend)).left

theorem exists_within_freeSlotsBetween (horder : ∀ q ∈ scheduled, q.TimeOrder)
    (hend : ∀ q ∈ scheduled, q.setTime ≤ endTime) {a : Int × Int} (ha : a.1 < a.2)
    : (∃ s ∈ freeSlotsBetween scheduled startTime endTime, Within a s)
        ↔
      startTime ≤ a.1 ∧ a.2 ≤ endTime ∧ ∀ q ∈ scheduled, ¬ Meets a q.interval := by
  have hmerge := meets_mergeIntervals ha (scheduled.map (·.interval))
  have hgo := getFreeSlots.exists_within_go ha startTime
    (mergeIntervals_scheduled_swept horder hend)
  have hnone : (∀ o ∈ mergeIntervals (scheduled.map (·.interval)), ¬ Meets a o)
      ↔ ∀ q ∈ scheduled, ¬ Meets a q.interval := by
    rw [← not_iff_not]
    push Not
    rw [hmerge]
    simp
  rw [hnone] at hgo
  apply hgo

end

end GreedyScheduler

namespace ORToolsOptimizer

theorem fitsInAnySlot_iff {rise set : Int} (hrise : rise < set) {slots : List (Int × Int)}
    (h : Separated slots)
    : fitsInAnySlot rise set slots ↔ ∃ s ∈ slots, Within (rise, set) s := by
  rw [h.exists_within_iff hrise]
  unfold fitsInAnySlot
  generalize Bisect.right (slots.map (·.1)) rise = pos
  cases pos with
  | zero => simp
  | succ idx =>
    have hpos : ((idx + 1 : Nat) : Int) - 1 = idx := by omega
    rw [hpos]
    cases hget : slots[idx]? with
    | none => simp [hget]
    | some s =>
      cases s with
      | mk slotStart slotEnd => simp [hget]

end ORToolsOptimizer

namespace GreedyScheduler

section

variable {table : PassTable} {stationId : String} {startTime endTime : Int}

structure ScheduledAt (table : PassTable) (stationId : String) (q : SatellitePass) : Prop where
  mem : q ∈ table.rows
  station : q.stationId = stationId
  scheduled : q.isScheduled = true

def scheduledWithin (table : PassTable) (stationId : String) (startTime endTime : Int)
    : List SatellitePass :=
  sortedBy (·.riseTime) <| table.rows.filter fun p =>
    p.stationId = stationId ∧ p.isScheduled ∧ startTime ≤ p.riseTime ∧ p.setTime ≤ endTime

theorem getFreeSlots_eq : getFreeSlots table stationId startTime endTime
      =
    freeSlotsBetween (scheduledWithin table stationId startTime endTime) startTime endTime := rfl

theorem mem_scheduledWithin {q : SatellitePass}
    : q ∈ scheduledWithin table stationId startTime endTime
        ↔
      ScheduledAt table stationId q ∧ startTime ≤ q.riseTime ∧ q.setTime ≤ endTime := by
  unfold scheduledWithin
  simp only [mem_sortedBy, List.mem_filter, decide_eq_true_eq]
  constructor
  . rintro ⟨hmem, hstation, hsched, hrise, hset⟩
    exact ⟨⟨hmem, hstation, hsched⟩, hrise, hset⟩
  . rintro ⟨h, hrise, hset⟩
    exact ⟨h.mem, h.station, h.scheduled, hrise, hset⟩

theorem getFreeSlots_separated : Separated (getFreeSlots table stationId startTime endTime) := by
  rw [getFreeSlots_eq]
  apply freeSlotsBetween_separated
  . intro q hq
    apply table.timeOrder q (mem_scheduledWithin.mp hq).left.mem
  . intro q hq
    apply (mem_scheduledWithin.mp hq).right.right

theorem exists_within_getFreeSlots {a : Int × Int} (ha : a.1 < a.2)
    : (∃ s ∈ getFreeSlots table stationId startTime endTime, Within a s)
        ↔
      startTime ≤ a.1 ∧ a.2 ≤ endTime
        ∧ ∀ q ∈ scheduledWithin table stationId startTime endTime, ¬ Meets a q.interval := by
  rw [getFreeSlots_eq]
  apply exists_within_freeSlotsBetween
  . intro q hq
    apply table.timeOrder q (mem_scheduledWithin.mp hq).left.mem
  . intro q hq
    apply (mem_scheduledWithin.mp hq).right.right
  . assumption

theorem getFreeSlots_clear (hcovered : ∀ q, ScheduledAt table stationId q → ∀ t, startTime ≤ t →
      t < endTime → Covers q.interval t →
      ∃ q' ∈ scheduledWithin table stationId startTime endTime, Covers q'.interval t)
    {s : Int × Int} (hs : s ∈ getFreeSlots table stationId startTime endTime) {q : SatellitePass}
    (hq : ScheduledAt table stationId q) : ¬ Meets s q.interval := by
  intro hmeets
  have hproper := getFreeSlots_separated.proper s hs
  obtain ⟨hstart, hend, hnone⟩ := (exists_within_getFreeSlots hproper).mp ⟨s, hs, le_refl _, le_refl _⟩
  obtain ⟨t, hst, hqt⟩ := (meets_iff_covers hproper (table.timeOrder q hq.mem).interval_proper).mp hmeets
  unfold Covers at hst
  obtain ⟨q', hq', hq't⟩ := hcovered q hq t (by omega) (by omega) hqt
  apply hnone q' hq'
  apply (meets_iff_covers hproper _).mpr
  . exact ⟨t, hst, hq't⟩
  . apply table.timeOrder q' (mem_scheduledWithin.mp hq').left.mem

theorem getFreeSlots_clear_iff (table : PassTable) (stationId : String) (startTime endTime : Int)
    : (∀ s ∈ getFreeSlots table stationId startTime endTime, ∀ q ∈ table.rows,
          q.stationId = stationId → q.isScheduled → ¬ Meets s q.interval)
        ∧
      (∀ p : SatellitePass, p.TimeOrder
          → ORToolsOptimizer.fitsInAnySlot p.riseTime p.setTime
              (sortedBy (·.1) (getFreeSlots table stationId startTime endTime))
          → ∀ q ∈ table.rows, q.stationId = stationId → q.isScheduled → p.NonOverlapping q)
        ↔
      ∀ q ∈ table.rows, q.stationId = stationId → q.isScheduled →
        ∀ t, startTime ≤ t → t < endTime → Covers q.interval t →
          ∃ q' ∈ table.rows, q'.stationId = stationId ∧ q'.isScheduled
            ∧ startTime ≤ q'.riseTime ∧ q'.setTime ≤ endTime ∧ Covers q'.interval t := by
  constructor
  . rintro ⟨hslots, _⟩ q hq hstation hsched t hstart hend hqt
    by_contra hnone
    have hfree : ∃ s ∈ getFreeSlots table stationId startTime endTime, Within (t, t + 1) s := by
      apply (exists_within_getFreeSlots (by dsimp; omega)).mpr
      refine ⟨hstart, by dsimp; omega, ?_⟩
      intro q' hq' hmeets
      obtain ⟨hq', hrise, hset⟩ := mem_scheduledWithin.mp hq'
      apply hnone
      refine ⟨q', hq'.mem, hq'.station, hq'.scheduled, hrise, hset, ?_⟩
      unfold Meets at hmeets
      unfold Covers
      dsimp only at hmeets ⊢
      omega
    obtain ⟨s, hs, hwithin⟩ := hfree
    apply hslots s hs q hq hstation hsched
    unfold Within at hwithin
    unfold Covers at hqt
    unfold Meets
    dsimp only at hwithin
    omega
  . intro hcovered
    have hclear : ∀ s ∈ getFreeSlots table stationId startTime endTime, ∀ q ∈ table.rows,
        q.stationId = stationId → q.isScheduled → ¬ Meets s q.interval := by
      intro s hs q hq hstation hsched
      apply getFreeSlots_clear _ hs ⟨hq, hstation, hsched⟩
      intro q hq t hstart hend hqt
      obtain ⟨q', hmem, hst, hsc, hrise, hset, hq't⟩ :=
        hcovered q hq.mem hq.station hq.scheduled t hstart hend hqt
      exact ⟨q', mem_scheduledWithin.mpr ⟨⟨hmem, hst, hsc⟩, hrise, hset⟩, hq't⟩
    refine ⟨hclear, ?_⟩
    intro p horder hfits q hq hstation hsched
    have hsep : Separated (getFreeSlots table stationId startTime endTime) := getFreeSlots_separated
    rw [sortedBy_eq_self (List.pairwise_map.mp hsep.starts)] at hfits
    rw [ORToolsOptimizer.fitsInAnySlot_iff horder hsep] at hfits
    obtain ⟨s, hs, hwithin⟩ := hfits
    rw [← SatellitePass.not_meets_interval]
    intro hmeets
    apply hclear s hs q hq hstation hsched
    apply hmeets.mono hwithin

end

/-- A pass that is under way when the window begins is none of the rows that the sweep gets. -/
theorem getFreeSlots_overlaps_scheduled
    : ∃ (table : PassTable) (stationId : String) (startTime endTime : Int),
        startTime < endTime
          ∧
        ∃ s ∈ getFreeSlots table stationId startTime endTime, ∃ q ∈ table.rows,
          q.stationId = stationId ∧ q.isScheduled ∧ Meets s q.interval := by
  let q : SatellitePass := {
    id := 1
    noradId := 101
    stationId := "GS1"
    riseTime := -60000000
    setTime := 600000000
    durationSeconds := 660
    maxElevation := 45
    isScheduled := true
    scheduledBy := some .greedy
  }
  let table : PassTable := {
    rows := [q]
    primaryKey := by simp
    uniqueKey := by simp
    timeOrder := by decide
  }
  refine ⟨table, "GS1", 0, 3600000000, by decide, (0, 3600000000), by decide, q, ?_⟩
  unfold Meets
  decide

end GreedyScheduler
end SdaSystem
