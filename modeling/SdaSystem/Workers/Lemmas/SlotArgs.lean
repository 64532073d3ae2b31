import SdaSystem.Scheduling.Lemmas.FreeSlots
import SdaSystem.Workers.Impl.Pipeline

open Intervals

namespace SdaSystem
namespace slotArgs

section

variable {Text : Type} {isoformat : Int → Text} {fromisoformat : Text → Option Int}

theorem parse_serialize (hiso : ∀ t, fromisoformat (isoformat t) = some t) (slots : List (Int × Int))
    : parse fromisoformat (serialize isoformat slots) = some slots := by
  unfold parse serialize
  induction slots with
  | nil => rfl
  | cons s rest ih =>
    rw [List.map_cons, List.mapM_cons, ih, hiso, hiso]
    rfl

/-- Half-open passes that share no more than an end point do not overlap. -/
theorem accepts_freeSlotsBetween_iff (hiso : ∀ t, fromisoformat (isoformat t) = some t)
    (scheduled : List SatellitePass) (startTime endTime : Int)
    (hscheduled : ∀ q ∈ scheduled, startTime ≤ q.riseTime ∧ q.TimeOrder ∧ q.setTime ≤ endTime)
    (p : SatellitePass) (horder : p.TimeOrder)
    : accepts isoformat fromisoformat
          (GreedyScheduler.freeSlotsBetween scheduled startTime endTime) p
        =
      some (decide (startTime ≤ p.riseTime ∧ p.setTime ≤ endTime
        ∧ ∀ q ∈ scheduled, p.NonOverlapping q)) := by
  have hproper : ∀ q ∈ scheduled, q.TimeOrder := by
    intro q hq
    apply (hscheduled q hq).right.left
  have hend : ∀ q ∈ scheduled, q.setTime ≤ endTime := by
    intro q hq
    apply (hscheduled q hq).right.right
  have hsep : Separated (GreedyScheduler.freeSlotsBetween scheduled startTime endTime) :=
    GreedyScheduler.freeSlotsBetween_separated hproper hend
  have hholds : (∃ s ∈ GreedyScheduler.freeSlotsBetween scheduled startTime endTime,
      Within p.interval s) ↔ startTime ≤ p.riseTime ∧ p.setTime ≤ endTime
        ∧ ∀ q ∈ scheduled, ¬ Meets p.interval q.interval :=
    GreedyScheduler.exists_within_freeSlotsBetween hproper hend horder.interval_proper
  simp only [SatellitePass.not_meets_interval] at hholds
  unfold accepts
  rw [parse_serialize hiso]
  simp only [Option.bind_eq_bind, Option.bind_some, Option.pure_def, Option.some.injEq]
  rw [sortedBy_eq_self (List.pairwise_map.mp hsep.starts), Bool.eq_iff_iff,
    ORToolsOptimizer.fitsInAnySlot_iff horder hsep, decide_eq_true_iff]
  apply hholds

end

def isoTexts : List (Int × List Char) := [
  (0, "1970-01-01T00:00:00+00:00".toList),
  (600000000, "1970-01-01T00:10:00+00:00".toList),
  (1800000000, "1970-01-01T00:30:00+00:00".toList),
  (3600000000, "1970-01-01T01:00:00+00:00".toList)
]

def isoformatSample (t : Int) : List Char :=
  match isoTexts.find? (·.1 = t) with
  | some entry => entry.2
  | none => List.replicate t.natAbs (if t < 0 then '-' else '+')

def fromisoformatSample (text : List Char) : Option Int :=
  match isoTexts.find? (·.2 = text) with
  | some entry => some entry.1
  | none => some (if text.head? = some '-' then -text.length else text.length)

theorem fromisoformatSample_isoformatSample (t : Int)
    : fromisoformatSample (isoformatSample t) = some t := by
  unfold isoformatSample
  split
  . next entry hfind =>
    have hmem := List.mem_of_find?_eq_some hfind
    have heq := List.find?_some hfind
    have hall : ∀ e ∈ isoTexts, fromisoformatSample e.2 = some e.1 := by decide +kernel
    rw [hall entry hmem]
    simpa using heq
  . have hdigit : ∀ e ∈ isoTexts, '1' ∈ e.2 := by decide +kernel
    have hother : isoTexts.find? (·.2 = List.replicate t.natAbs (if t < 0 then '-' else '+')) = none := by
      rw [List.find?_eq_none]
      intro e he heq
      have := hdigit e he
      rw [of_decide_eq_true heq, List.mem_replicate] at this
      split at this <;> simp at this
    unfold fromisoformatSample
    rw [hother, List.head?_replicate, List.length_replicate]
    split <;> grind

/-- Two scheduled passes one after the other, and a candidate that rises as the second one sets. -/
theorem accepts_freeSlotsBetween_iff_adjacent
    : let pass (id : Nat) (riseTime setTime : Int) : SatellitePass := {
        id
        noradId := 100 + id
        stationId := "GS1"
        riseTime
        setTime
        durationSeconds := 600
        maxElevation := 45
      }
      accepts isoformatSample fromisoformatSample
          (GreedyScheduler.freeSlotsBetween
            [pass 1 600000000 1200000000, pass 2 1200000000 1800000000] 0 3600000000)
          (pass 3 1800000000 2400000000)
        =
      some true := by
  intro pass
  rw [accepts_freeSlotsBetween_iff fromisoformatSample_isoformatSample]
  . decide
  . decide
  . decide

end slotArgs
end SdaSystem
