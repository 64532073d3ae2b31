import SdaSystem.Scheduling.Lemmas.Greedy
import SdaSystem.Scheduling.Lemmas.Solve

open CpSat LexObjective

namespace SdaSystem
namespace GreedyScheduler

theorem IsFirstBestSchedule.exists_overlaps {offered selected : List SatellitePass}
    (h : IsFirstBestSchedule id offered selected) {p : SatellitePass} (hp : p ∈ offered)
    (hleft : p ∉ selected) (hpos : 0 < benefit p) : ∃ q ∈ selected, p.Overlaps q := by
  by_contra hclear
  push Not at hclear
  simp only [SatellitePass.not_overlaps_iff] at hclear
  -- otherwise the schedule with the pass added would be worth more
  have hsub : (p :: selected).Subperm offered :=
    List.cons_subperm_of_not_mem_of_mem hleft hp h.subperm
  have hpair : (p :: selected).Pairwise SatellitePass.NonOverlapping :=
    List.pairwise_cons.mpr ⟨hclear, h.pairwise_nonOverlapping⟩
  have hle := h.sum_benefit_le hsub hpair
  rw [List.map_cons, List.sum_cons] at hle
  linarith

section

variable {fl : Rat → Rat} {table : PassTable} {startTime endTime : Int}

theorem IsCandidate.mono {stationId : String} {sats sats' : Finset Int} {p : SatellitePass}
    (h : IsCandidate table startTime endTime stationId sats' p) (hsub : sats ⊆ sats')
    : IsCandidate table startTime endTime stationId sats p :=
  { h with noradId := fun hmem => h.noradId (hsub hmem) }

theorem StationRun.subset {stationIds : List String} {acc res : Progress}
    (h : StationRun fl table startTime endTime stationIds acc res)
    : acc.allScheduled ⊆ res.allScheduled ∧ acc.globallyScheduledSats ⊆ res.globallyScheduledSats := by
  induction h with
  | nil acc => exact ⟨List.Subset.refl _, Finset.Subset.refl _⟩
  | cons selected hfirst hrest ih =>
    constructor
    . apply List.Subset.trans _ ih.left
      apply List.subset_append_left
    . apply Finset.Subset.trans _ ih.right
      apply Finset.subset_union_left

theorem StationRun.exists_overlaps {stationIds : List String} {acc res : Progress}
    (h : StationRun id table startTime endTime stationIds acc res) {stationId : String}
    (hstation : stationId ∈ stationIds) {p : SatellitePass}
    (hp : IsCandidate table startTime endTime stationId res.globallyScheduledSats p)
    (hpos : 0 < benefit p)
    : ∃ q ∈ res.allScheduled, q.stationId = stationId ∧ p.Overlaps q := by
  induction h with
  | nil => simp at hstation
  | @cons station rest acc res selected hfirst hrest ih =>
    cases List.mem_cons.mp hstation with
    | inr hrest => apply ih hrest hp
    | inl heq =>
      subst heq
      obtain ⟨hscheduled, hsats⟩ := hrest.subset
      have hoffered : IsCandidate table startTime endTime stationId acc.globallyScheduledSats p := by
        apply hp.mono
        apply Finset.Subset.trans _ hsats
        apply Finset.subset_union_left
      have hleft : p ∉ selected := by
        intro hsel
        apply hp.noradId (hsats _)
        apply Finset.mem_union_right
        simpa using ⟨p, hsel, rfl⟩
      rw [← mem_candidates] at hoffered
      obtain ⟨q, hq, hover⟩ := hfirst.exists_overlaps hoffered hleft hpos
      refine ⟨q, hscheduled (List.mem_append_right _ hq), ?_, hover⟩
      apply ((mem_candidates _ _ _).mp (hfirst.subperm.subset hq)).station

end

end GreedyScheduler

namespace ORToolsOptimizer

variable {candidates : List SatellitePass} {epoch : Int} {sel : Nat → Bool} {v : ValidPass}

theorem eq_of_index_eq {w : ValidPass} (hv : v ∈ validPasses candidates epoch)
    (hw : w ∈ validPasses candidates epoch) (hindex : v.index = w.index) : v = w := by
  have : Std.Symm fun v w : ValidPass => v.index ≠ w.index := ⟨fun _ _ h => h.symm⟩
  by_contra hne
  apply (nodup_index candidates epoch).forall hv hw hne hindex

theorem nodup_validPasses (candidates : List SatellitePass) (epoch : Int)
    : (validPasses candidates epoch).Nodup := by
  apply (nodup_index candidates epoch).imp
  intro v w hne heq
  apply hne
  rw [heq]

def including (sel : Nat → Bool) (v : ValidPass) : Nat → Bool :=
  Function.update sel v.index true

theorem including_iff {w : ValidPass} (hv : v ∈ validPasses candidates epoch)
    (hw : w ∈ validPasses candidates epoch)
    : including sel v w.index = true ↔ w = v ∨ sel w.index = true := by
  unfold including
  rw [Function.update_apply]
  split
  . next hindex => simp [eq_of_index_eq hw hv hindex]
  . next hindex =>
    have hne : w ≠ v := by
      rintro rfl
      apply hindex rfl
    simp [hne]

theorem selectedPasses_including (hv : v ∈ validPasses candidates epoch) (hleft : sel v.index = false)
    : (selectedPasses (validPasses candidates epoch) (including sel v)).Perm
        (v :: selectedPasses (validPasses candidates epoch) sel) := by
  have hnodup := nodup_validPasses candidates epoch
  unfold selectedPasses
  rw [List.perm_ext_iff_of_nodup (hnodup.filter _)]
  . intro w
    rw [List.mem_filter, List.mem_cons, List.mem_filter]
    constructor
    . rintro ⟨hw, hsel⟩
      rw [including_iff hv hw] at hsel
      exact hsel.imp_right fun hsel => ⟨hw, hsel⟩
    . rintro (rfl | ⟨hw, hsel⟩)
      . exact ⟨hv, (including_iff hv hv).mpr (.inl rfl)⟩
      . exact ⟨hw, (including_iff hv hw).mpr (.inr hsel)⟩
  . rw [List.nodup_cons]
    refine ⟨?_, hnodup.filter _⟩
    simp [hleft]

def Blocks (v w : ValidPass) : Prop :=
  w.pass.noradId = v.pass.noradId
    ∨ (w.pass.stationId = v.pass.stationId ∧ w.start < v.stop ∧ v.start < w.stop)

theorem admissible_including (h : Admissible (validPasses candidates epoch) sel)
    (hv : v ∈ validPasses candidates epoch)
    (hclear : ∀ w ∈ validPasses candidates epoch, sel w.index → ¬ Blocks w v)
    : Admissible (validPasses candidates epoch) (including sel v) := by
  apply List.Pairwise.imp_of_mem _ (h.and (nodup_index candidates epoch))
  intro x y hx hy hxy hselx hsely
  rw [including_iff hv hx] at hselx
  rw [including_iff hv hy] at hsely
  unfold Blocks at hclear
  rcases hselx with rfl | hselx <;> rcases hsely with rfl | hsely
  . exact absurd rfl hxy.right
  . have := hclear y hy hsely
    grind
  . have := hclear x hx hselx
    grind
  . apply hxy.left hselx hsely

theorem exists_blocks
    (h : IsWeightedBest (Admissible (validPasses candidates epoch))
      (satCount (validPasses candidates epoch)) (totalBenefit (validPasses candidates epoch))
      (satWeight (validPasses candidates epoch)) sel)
    (hv : v ∈ validPasses candidates epoch) (hleft : sel v.index = false) (hbenefit : 0 ≤ v.benefit)
    : ∃ w ∈ validPasses candidates epoch, sel w.index ∧ Blocks w v := by
  by_contra hclear
  push Not at hclear
  have hperm := selectedPasses_including hv hleft
  have hcount : satCount (validPasses candidates epoch) (including sel v)
      = satCount (validPasses candidates epoch) sel + 1 := by
    have hnew : v.pass.noradId
        ∉ ((selectedPasses (validPasses candidates epoch) sel).map (·.pass.noradId)).toFinset := by
      intro hmem
      rw [List.mem_toFinset, List.mem_map] at hmem
      obtain ⟨w, hw, hnorad⟩ := hmem
      obtain ⟨hw, hsel⟩ := List.mem_filter.mp hw
      apply hclear w hw hsel (.inl hnorad.symm)
    unfold satCount
    rw [List.toFinset_eq_of_perm _ _ (hperm.map _), List.map_cons, List.toFinset_cons,
      Finset.card_insert_of_notMem hnew]
    omega
  have htotal : totalBenefit (validPasses candidates epoch) (including sel v)
      = v.benefit + totalBenefit (validPasses candidates epoch) sel := by
    unfold totalBenefit
    rw [(hperm.map _).sum_eq, List.map_cons, List.sum_cons]
  have hweight : v.benefit < satWeight (validPasses candidates epoch) := by
    unfold satWeight
    have hmem : v.benefit ∈ (validPasses candidates epoch).map (·.benefit) := List.mem_map_of_mem hv
    cases hmax : ((validPasses candidates epoch).map (·.benefit)).max? with
    | none =>
      rw [List.max?_eq_none_iff] at hmax
      simp [hmax] at hmem
    | some m =>
      have := (List.max?_eq_some_iff.mp hmax).right v.benefit hmem
      dsimp
      omega
  have hle := h.le _ (admissible_including h.isFeasible hv hclear)
  rw [hcount, htotal] at hle
  linarith

theorem benefit_nonneg (hv : v ∈ validPasses candidates epoch) (hbenefit : 0 ≤ benefit v.pass)
    : 0 ≤ v.benefit := by
  unfold validPasses at hv
  rw [List.mem_filterMap] at hv
  obtain ⟨candidate, _, hnorm⟩ := hv
  unfold normalize at hnorm
  simp only [Option.bind_eq_bind, Option.bind_eq_some_iff] at hnorm
  obtain ⟨s, _, e, _, hnorm⟩ := hnorm
  split at hnorm
  . simp at hnorm
  . simp only [Option.pure_def, Option.some.injEq] at hnorm
    subst hnorm
    apply PyFloat.trunc_nonneg
    apply PyFloat.fl_nonneg
    apply mul_nonneg (PyFloat.fl_nonneg hbenefit) (by decide +kernel)

theorem exists_mem_solve {solver : CpModel Var → Option (Assignment Var)}
    {alreadyScheduled : Finset Int}
    (hsolver : (buildModel (validPasses candidates epoch)).SolvedBy solver)
    (hcandidates : ∀ q ∈ candidates,
      epoch ≤ q.riseTime ∧ q.TimeOrder ∧ q.noradId ∉ alreadyScheduled)
    {p : SatellitePass} (hp : p ∈ candidates) (hdur : HasDuration epoch p) (hbenefit : 0 ≤ benefit p)
    : ∃ q ∈ solve solver candidates epoch alreadyScheduled,
        q.noradId = p.noradId ∨ (q.stationId = p.stationId ∧ q.Overlaps p) := by
  obtain ⟨a, ha, hopt⟩ := hsolver
  have hbest := (optimal_iff.mp hopt).left
  obtain ⟨hepoch, horder, _⟩ := hcandidates p hp
  obtain ⟨v, hv, rfl⟩ := exists_validPass_of_hasDuration hp hepoch horder hdur
  -- whatever the solver takes is marked: none of its satellites is scheduled already
  have hmarked : ∀ w ∈ validPasses candidates epoch, a w.var
      → w.pass ∈ solve solver candidates epoch alreadyScheduled := by
    intro w hw hsel
    rw [solve_eq, ha]
    dsimp only
    rw [extract_eq hbest.isFeasible]
    apply List.mem_map_of_mem
    rw [List.mem_filter]
    refine ⟨hw, ?_⟩
    simpa using ⟨hsel, (hcandidates w.pass (pass_mem_candidates hw)).right.right⟩
  cases hsel : a v.var with
  | true => exact ⟨v.pass, hmarked v hv hsel, .inl rfl⟩
  | false =>
    obtain ⟨w, hw, hwsel, hblocks⟩ := exists_blocks hbest hv hsel (benefit_nonneg hv hbenefit)
    refine ⟨w.pass, hmarked w hw hwsel, ?_⟩
    rcases hblocks with hnorad | ⟨hstation, hwv, hvw⟩
    . exact .inl hnorad.symm
    . -- what overlaps in whole seconds does so in time
      obtain ⟨hwepoch, hworder, _⟩ := hcandidates w.pass (pass_mem_candidates hw)
      have hvalid := (mem_validPasses hv).right
      have hwvalid := (mem_validPasses hw).right
      unfold SatellitePass.TimeOrder at horder hworder
      refine .inr ⟨hstation.symm, ?_, ?_⟩
      . apply lt_of_toUtcSeconds_lt hwvalid.start_eq hvalid.stop_eq hvw
      . apply lt_of_toUtcSeconds_lt hvalid.start_eq hwvalid.stop_eq hwv

end ORToolsOptimizer
end SdaSystem
