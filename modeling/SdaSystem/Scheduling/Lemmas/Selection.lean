import SdaSystem.Scheduling.Lemmas.Solve

open CpSat LexObjective

namespace SdaSystem
namespace ORToolsOptimizer

section selection

variable {candidates : List SatellitePass} {epoch : Int}

/-- A pass that spans a whole second, counted from `epoch`; the others are dropped. -/
def Lasts (epoch : Int) (p : SatellitePass) : Prop :=
  0 ≤ second epoch p.riseTime ∧ second epoch p.riseTime < second epoch p.setTime

def Compatible (epoch : Int) (p q : SatellitePass) : Prop :=
  p.noradId ≠ q.noradId
    ∧
  (p.stationId = q.stationId
    → second epoch p.setTime ≤ second epoch q.riseTime
        ∨ second epoch q.setTime ≤ second epoch p.riseTime)

structure IsSelection (candidates : List SatellitePass) (epoch : Int) (chosen : List SatellitePass)
    : Prop where
  sublist : chosen.Sublist candidates
  lasts : ∀ p ∈ chosen, Lasts epoch p
  compatible : chosen.Pairwise (Compatible epoch)

/-- A selection has one pass of each satellite that it covers. -/
def satellites (chosen : List SatellitePass) : Int :=
  chosen.length

def worth (chosen : List SatellitePass) : Int :=
  (chosen.map scaledBenefit).sum

def chosenPasses (candidates : List SatellitePass) (epoch : Int) (sel : Nat → Bool)
    : List SatellitePass :=
  (selectedPasses (validPasses candidates epoch) sel).map (·.pass)

theorem ValidPass.IsValid.second_start {v : ValidPass} (h : v.IsValid epoch)
    : second epoch v.pass.riseTime = v.start := by
  apply (toUtcSeconds_eq_some_iff.mp h.start_eq).right

theorem ValidPass.IsValid.second_stop {v : ValidPass} (h : v.IsValid epoch)
    : second epoch v.pass.setTime = v.stop := by
  apply (toUtcSeconds_eq_some_iff.mp h.stop_eq).right

theorem ValidPass.IsValid.lasts {v : ValidPass} (h : v.IsValid epoch) : Lasts epoch v.pass := by
  unfold Lasts
  rw [h.second_start, h.second_stop]
  refine ⟨?_, h.start_lt⟩
  rw [← h.second_start]
  apply (toUtcSeconds_eq_some_iff.mp h.start_eq).left

theorem normalize_of_lasts {candidate : SatellitePass × Nat} (h : Lasts epoch candidate.1)
    : ∃ v, normalize epoch candidate = some v := by
  obtain ⟨hrise, hlt⟩ := h
  apply normalize_isSome _ (toUtcSeconds_eq_some_iff.mpr ⟨hrise, rfl⟩) _ hlt
  exact toUtcSeconds_eq_some_iff.mpr ⟨by omega, rfl⟩

theorem compatible_iff {v w : ValidPass} (hv : v.IsValid epoch) (hw : w.IsValid epoch)
    : Compatible epoch v.pass w.pass
        ↔
      v.pass.noradId ≠ w.pass.noradId
        ∧ (v.pass.stationId = w.pass.stationId → v.stop ≤ w.start ∨ w.stop ≤ v.start) := by
  unfold Compatible
  rw [hv.second_start, hv.second_stop, hw.second_start, hw.second_stop]

theorem mem_selectedPasses {sel : Nat → Bool} {v : ValidPass}
    (h : v ∈ selectedPasses (validPasses candidates epoch) sel) : v.IsValid epoch := by
  apply (mem_validPasses (List.mem_of_mem_filter h)).right

theorem chosenPasses_compatible_iff {sel : Nat → Bool}
    : (chosenPasses candidates epoch sel).Pairwise (Compatible epoch)
        ↔
      Admissible (validPasses candidates epoch) sel := by
  unfold chosenPasses Admissible
  rw [List.pairwise_map]
  have hiff := List.pairwise_filter (p := fun v : ValidPass => sel v.index)
    (R := fun v w => v.pass.noradId ≠ w.pass.noradId
      ∧ (v.pass.stationId = w.pass.stationId → v.stop ≤ w.start ∨ w.stop ≤ v.start))
    (l := validPasses candidates epoch)
  rw [← hiff]
  apply List.Pairwise.iff_of_mem
  intro v w hv hw
  apply compatible_iff (mem_selectedPasses hv) (mem_selectedPasses hw)

theorem filterMap_normalize_sublist (epoch : Int) (xs : List (SatellitePass × Nat))
    : ((xs.filterMap (normalize epoch)).map (·.pass)).Sublist (xs.map (·.1)) := by
  induction xs with
  | nil => simp
  | cons x rest ih =>
    cases hnorm : normalize epoch x with
    | none =>
      rw [List.filterMap_cons_none hnorm, List.map_cons]
      apply ih.cons
    | some v =>
      rw [List.filterMap_cons_some hnorm, List.map_cons, List.map_cons,
        (normalize_eq_some hnorm).left]
      apply ih.cons_cons

theorem map_pass_filterMap_normalize {xs : List (SatellitePass × Nat)}
    (h : ∀ p ∈ xs.map (·.1), Lasts epoch p)
    : (xs.filterMap (normalize epoch)).map (·.pass) = xs.map (·.1) := by
  induction xs with
  | nil => rfl
  | cons x rest ih =>
    rw [List.map_cons, List.forall_mem_cons] at h
    obtain ⟨v, hv⟩ := normalize_of_lasts h.left
    rw [List.filterMap_cons_some hv, List.map_cons, List.map_cons, ih h.right,
      (normalize_eq_some hv).left]

theorem isSelection_chosenPasses {sel : Nat → Bool}
    (h : Admissible (validPasses candidates epoch) sel)
    : IsSelection candidates epoch (chosenPasses candidates epoch sel) := by
  refine ⟨?_, ?_, chosenPasses_compatible_iff.mpr h⟩
  . have hvalid := filterMap_normalize_sublist epoch candidates.zipIdx
    rw [List.zipIdx_map_fst] at hvalid
    apply List.Sublist.trans (List.filter_sublist.map _) hvalid
  . intro p hp
    obtain ⟨v, hv, rfl⟩ := List.mem_map.mp hp
    apply (mem_selectedPasses hv).lasts

def select (chosen : List ValidPass) (index : Nat) : Bool :=
  index ∈ chosen.map (·.index)

theorem selectedPasses_select {valid chosen : List ValidPass} (h : chosen.Sublist valid)
    (hindex : valid.Pairwise fun v w => v.index ≠ w.index)
    : selectedPasses valid (select chosen) = chosen := by
  induction h with
  | slnil => rfl
  | cons v h ih =>
    rw [List.pairwise_cons] at hindex
    unfold selectedPasses at ih ⊢
    rw [List.filter_cons_of_neg, ih hindex.right]
    simp only [select, List.mem_map, decide_eq_true_eq, not_exists, not_and]
    intro w hw heq
    apply hindex.left w (h.subset hw) heq.symm
  | cons_cons v h ih =>
    rw [List.pairwise_cons] at hindex
    unfold selectedPasses at ih ⊢
    rw [List.filter_cons_of_pos (by simp [select])]
    congr 1
    apply Eq.trans _ (ih hindex.right)
    apply List.filter_congr
    intro w hw
    have := hindex.left w hw
    simp [select, this.symm]

theorem exists_chosenPasses {chosen : List SatellitePass} (h : IsSelection candidates epoch chosen)
    : ∃ sel, Admissible (validPasses candidates epoch) sel
        ∧ chosenPasses candidates epoch sel = chosen := by
  have hsublist := h.sublist
  rw [← List.zipIdx_map_fst 0 candidates, List.sublist_map_iff] at hsublist
  obtain ⟨xs, hxs, rfl⟩ := hsublist
  have hvalid : (xs.filterMap (normalize epoch)).Sublist (validPasses candidates epoch) :=
    hxs.filterMap _
  have heq : chosenPasses candidates epoch (select (xs.filterMap (normalize epoch)))
      = xs.map (·.1) := by
    unfold chosenPasses
    rw [selectedPasses_select hvalid (nodup_index _ _), map_pass_filterMap_normalize h.lasts]
  refine ⟨_, ?_, heq⟩
  rw [← chosenPasses_compatible_iff, heq]
  apply h.compatible

theorem satellites_chosenPasses {sel : Nat → Bool}
    (h : Admissible (validPasses candidates epoch) sel)
    : satellites (chosenPasses candidates epoch sel)
        =
      satCount (validPasses candidates epoch) sel := by
  have hnodup : ((chosenPasses candidates epoch sel).map (·.noradId)).Nodup := by
    rw [List.Nodup, List.pairwise_map]
    apply (chosenPasses_compatible_iff.mpr h).imp
    intro p q hpq
    apply hpq.left
  unfold satellites satCount
  unfold chosenPasses at hnodup ⊢
  rw [List.map_map] at hnodup
  have hcard := List.toFinset_card_of_nodup hnodup
  simp only [List.length_map] at hcard ⊢
  rw [← hcard]
  rfl

theorem worth_chosenPasses (sel : Nat → Bool)
    : worth (chosenPasses candidates epoch sel)
        =
      totalBenefit (validPasses candidates epoch) sel := by
  unfold worth totalBenefit chosenPasses
  rw [List.map_map]
  congr 1
  apply List.map_congr_left
  intro v hv
  exact (mem_selectedPasses hv).benefit_eq.symm

theorem isLexBest_chosenPasses_iff {sel : Nat → Bool}
    (h : Admissible (validPasses candidates epoch) sel)
    : IsLexBest (Admissible (validPasses candidates epoch)) (satCount (validPasses candidates epoch))
        (totalBenefit (validPasses candidates epoch)) sel
        ↔
      IsLexBest (IsSelection candidates epoch) satellites worth
        (chosenPasses candidates epoch sel) := by
  apply isLexBest_map_iff _ (fun _ => exists_chosenPasses) h
  intro sel hsel
  exact ⟨isSelection_chosenPasses hsel, satellites_chosenPasses hsel, worth_chosenPasses sel⟩

theorem lt_satWeight_mul_iff {gain given : Int} (hgiven : 0 < given)
    (hvalid : validPasses candidates epoch ≠ [])
    : gain < satWeight (validPasses candidates epoch) * given
        ↔
      ∃ p ∈ candidates, Lasts epoch p ∧ gain < (scaledBenefit p + 1) * given := by
  obtain ⟨best, hbest⟩ : ∃ best,
      ((validPasses candidates epoch).map (·.benefit)).max? = some best := by
    cases hmax : ((validPasses candidates epoch).map (·.benefit)).max? with
    | some best => exact ⟨best, rfl⟩
    | none => simp [hvalid] at hmax
  have hweight : satWeight (validPasses candidates epoch) = best + 1 := by
    unfold satWeight
    rw [hbest]
    rfl
  rw [List.max?_eq_some_iff] at hbest
  rw [hweight]
  constructor
  . intro hlt
    obtain ⟨v, hv, rfl⟩ := List.mem_map.mp hbest.left
    have hvvalid := (mem_validPasses hv).right
    refine ⟨v.pass, pass_mem_candidates hv, hvvalid.lasts, ?_⟩
    rwa [← hvvalid.benefit_eq]
  . rintro ⟨p, hp, ⟨hrise, hlasts⟩, hlt⟩
    obtain ⟨v, hv, rfl⟩ := exists_validPass hp (toUtcSeconds_eq_some_iff.mpr ⟨hrise, rfl⟩)
      (toUtcSeconds_eq_some_iff.mpr ⟨by omega, rfl⟩) hlasts
    have hle := hbest.right _ (List.mem_map_of_mem hv)
    rw [(mem_validPasses hv).right.benefit_eq] at hle
    apply lt_of_lt_of_le hlt
    apply mul_le_mul_of_nonneg_right _ hgiven.le
    omega

end selection

theorem selectedPasses_congr {valid : List ValidPass} {sel sel' : Nat → Bool}
    (h : ∀ v ∈ valid, sel v.index = sel' v.index)
    : selectedPasses valid sel = selectedPasses valid sel' := by
  unfold selectedPasses
  apply List.filter_congr
  intro v hv
  rw [h v hv]

theorem admissible_congr {valid : List ValidPass} {sel sel' : Nat → Bool}
    (h : ∀ v ∈ valid, sel v.index = sel' v.index) (hadm : Admissible valid sel)
    : Admissible valid sel' := by
  apply List.Pairwise.imp_of_mem _ hadm
  intro v w hv hw hvw hselv hselw
  rw [← h v hv] at hselv
  rw [← h w hw] at hselw
  apply hvw hselv hselw

instance (valid : List ValidPass) (sel : Nat → Bool) : Decidable (Admissible valid sel) :=
  inferInstanceAs (Decidable (List.Pairwise _ valid))

def shortAgainstLong : List SatellitePass := [
  { id := 1, noradId := 101, stationId := "GS1", riseTime := 0, setTime := 60000000,
    durationSeconds := 60, maxElevation := 20 },
  { id := 2, noradId := 102, stationId := "GS1", riseTime := 60000000, setTime := 140000000,
    durationSeconds := 80, maxElevation := 20 },
  { id := 3, noradId := 103, stationId := "GS1", riseTime := 140000000, setTime := 200000000,
    durationSeconds := 60, maxElevation := 20 },
  { id := 4, noradId := 104, stationId := "GS1", riseTime := 0, setTime := 100000000,
    durationSeconds := 100, maxElevation := 80 },
  { id := 5, noradId := 105, stationId := "GS1", riseTime := 100000000, setTime := 200000000,
    durationSeconds := 100, maxElevation := 80 }]

end ORToolsOptimizer
end SdaSystem
