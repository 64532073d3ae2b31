import SdaSystem.Library.EarliestFinish
import SdaSystem.Scheduling.Impl.Greedy

open EarliestFinish

namespace SdaSystem
namespace GreedyScheduler

theorem scheduleEdf.go_eq_scan (lastEnd : Int) (sortedPasses : List SatellitePass)
    : go lastEnd sortedPasses
        =
      scan SatellitePass.riseTime SatellitePass.setTime lastEnd sortedPasses := by
  induction sortedPasses generalizing lastEnd with
  | nil => rfl
  | cons p rest ih =>
    unfold go scan
    rw [ih, ih]

theorem scheduleEdf_isMost (passes : List SatellitePass) (horder : ∀ p ∈ passes, p.TimeOrder)
    (hepoch : ∀ p ∈ passes, epochMin ≤ p.riseTime)
    : (scheduleEdf passes).Subperm passes
        ∧
      (scheduleEdf passes).Pairwise SatellitePass.NonOverlapping
        ∧
      ∀ other : List SatellitePass, other.Subperm passes
        → other.Pairwise SatellitePass.NonOverlapping
        → other.length ≤ (scheduleEdf passes).length := by
  have hperm := sortedBy_perm (fun p : SatellitePass => p.setTime) passes
  have hproper : ∀ p ∈ sortedBy (·.setTime) passes, p.riseTime < p.setTime := by
    intro p hp
    apply horder p (hperm.mem_iff.mp hp)
  unfold scheduleEdf
  rw [scheduleEdf.go_eq_scan]
  refine ⟨?_, pairwise_scan hproper, ?_⟩
  . apply scan_sublist.subperm.trans hperm.subperm
  . intro other hsub hother
    -- Its passes in the order of the sorted list.
    obtain ⟨other', hperm', hsub'⟩ := hsub.trans hperm.symm.subperm
    rw [← hperm'.length_eq]
    apply length_le_length_scan hproper (pairwise_sortedBy _ _) hsub'
    . apply (hperm'.pairwise_iff Apart.symm).mpr hother
    . intro p hp
      apply hepoch p (hperm.mem_iff.mp (hsub'.subset hp))

theorem scheduleEdf_isMost_touching
    : let p : SatellitePass := {
        id := 1, noradId := 1, stationId := "GS1", riseTime := 0, setTime := 600,
        durationSeconds := 600, maxElevation := 40
      }
      let q := { p with riseTime := 600, setTime := 900 }
      (scheduleEdf [q, p]).Subperm [q, p]
        ∧
      (scheduleEdf [q, p]).Pairwise SatellitePass.NonOverlapping
        ∧
      ∀ other : List SatellitePass, other.Subperm [q, p]
        → other.Pairwise SatellitePass.NonOverlapping
        → other.length ≤ (scheduleEdf [q, p]).length :=
  scheduleEdf_isMost _ (by decide) (by decide)

end GreedyScheduler
end SdaSystem
