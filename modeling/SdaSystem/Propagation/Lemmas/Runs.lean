import Mathlib.Data.List.Forall2
import SdaSystem.Propagation.Lemmas.Crossing

namespace SdaSystem
namespace PassDetector

theorem sanitize_map_some (elevations : List Rat) : sanitize (elevations.map some) = elevations := by
  simp [sanitize]

section line

variable {times elevations : List Rat} {mask : Rat} {riseI setI : Nat}

def lineAt (times elevations : List Rat) (left : Nat) (t : Rat) : Rat :=
  elevations.getD left 0
    + (t - times.getD left 0) / (times.getD (left + 1) 0 - times.getD left 0)
      * (elevations.getD (left + 1) 0 - elevations.getD left 0)

theorem frac_mem {elL elR : Rat} (h : (elL < mask ∧ mask ≤ elR) ∨ (mask ≤ elL ∧ elR < mask))
    : 0 ≤ (mask - elL) / (elR - elL) ∧ (mask - elL) / (elR - elL) ≤ 1 := by
  cases h with
  | inl h =>
    have hdelta : 0 < elR - elL := by linarith
    rw [div_le_one hdelta]
    refine ⟨?_, by linarith⟩
    apply div_nonneg <;> linarith
  | inr h =>
    have hdelta : elR - elL < 0 := by linarith
    rw [div_le_one_of_neg hdelta]
    refine ⟨?_, by linarith⟩
    apply div_nonneg_of_nonpos <;> linarith

theorem clip_eq_self {x lo hi : Rat} (hlo : lo ≤ x) (hhi : x ≤ hi) : clip x lo hi = x := by
  unfold clip
  rw [max_eq_left hlo, min_eq_left hhi]

theorem lineAt_lineTime {left : Nat} (hstep : times.getD left 0 < times.getD (left + 1) 0)
    (h : (elevations.getD left 0 < mask ∧ mask ≤ elevations.getD (left + 1) 0)
      ∨ (mask ≤ elevations.getD left 0 ∧ elevations.getD (left + 1) 0 < mask))
    : lineAt times elevations left (lineTime .exact times elevations mask left) = mask := by
  have hdt : times.getD (left + 1) 0 - times.getD left 0 ≠ 0 := by
    apply ne_of_gt
    linarith
  have hdelta : elevations.getD (left + 1) 0 - elevations.getD left 0 ≠ 0 := by
    cases h with
    | inl h =>
      apply ne_of_gt
      linarith
    | inr h =>
      apply ne_of_lt
      linarith
  obtain ⟨hnonneg, hle⟩ := frac_mem h
  unfold lineAt lineTime lineOffset
  simp only [Arith.exact_fl, Arith.exact_portion]
  rw [clip_eq_self hnonneg hle]
  field_simp
  ring

theorem lineAt_riseAt (hincreasing : times.Pairwise (· < ·))
    (hlength : elevations.length = times.length) (h : IsRun elevations mask riseI setI)
    (hpos : 0 < riseI) (hflat : ¬ IsFlat .exact elevations (riseI - 1))
    : lineAt times elevations (riseI - 1) (riseAt .exact times elevations mask riseI) = mask := by
  have hlt := h.lt
  have hle := h.le
  obtain ⟨left, rfl⟩ : ∃ left, riseI = left + 1 := ⟨riseI - 1, by omega⟩
  rw [Nat.add_one_sub_one] at hflat ⊢
  have hcrosses := h.crosses.left left rfl
  unfold riseAt
  rw [if_neg (Nat.succ_ne_zero left), Nat.add_one_sub_one, if_neg hflat]
  apply lineAt_lineTime _ (.inl hcrosses)
  apply getD_lt_getD hincreasing (Nat.lt_succ_self left) (by omega)

theorem lineAt_setAt (hincreasing : times.Pairwise (· < ·))
    (hlength : elevations.length = times.length) (h : IsRun elevations mask riseI setI)
    (hend : setI < times.length) (hflat : ¬ IsFlat .exact elevations (setI - 1))
    : lineAt times elevations (setI - 1) (setAt .exact times elevations mask setI) = mask := by
  have hlt := h.lt
  obtain ⟨left, rfl⟩ : ∃ left, setI = left + 1 := ⟨setI - 1, by omega⟩
  rw [Nat.add_one_sub_one] at hflat ⊢
  have hcrosses := h.crosses.right left rfl (by omega)
  unfold setAt
  rw [if_neg (by omega), Nat.add_one_sub_one, if_neg hflat]
  apply lineAt_lineTime _ (.inr hcrosses)
  apply getD_lt_getD hincreasing (Nat.lt_succ_self left) hend

end line

section runs

variable {cfg : Config} {elevations times : List Rat} {positions : List Position} {mask : Rat}
  {riseI setI : Nat}

structure CoversRun (elevations times : List Rat) (mask : Rat) (riseI setI : Nat) (p : PassRecord)
    : Prop where
  duration : p.durationSeconds = p.setTime - p.riseTime
  contains : ∀ k, riseI ≤ k → k < setI → p.riseTime ≤ times.getD k 0 ∧ times.getD k 0 ≤ p.setTime
  interior : ∀ k < times.length, p.riseTime < times.getD k 0 → times.getD k 0 < p.setTime
    → mask ≤ elevations.getD k 0
  rises : 0 < riseI → times.getD (riseI - 1) 0 ≤ p.riseTime
    ∧ (¬ IsFlat .exact elevations (riseI - 1) → lineAt times elevations (riseI - 1) p.riseTime = mask)
  sets : setI < times.length → p.setTime ≤ times.getD setI 0
    ∧ (¬ IsFlat .exact elevations (setI - 1) → lineAt times elevations (setI - 1) p.setTime = mask)
  begins : riseI = 0 → p.riseTime = times.getD 0 0
  ends : setI = times.length → p.setTime = times.getD (times.length - 1) 0
  truncatedStart : p.truncatedStart = true ↔ riseI = 0
  truncatedEnd : p.truncatedEnd = true ↔ setI = times.length

theorem passOf_flags {elevations : List (Option Rat)} {window : Nat × Nat} {p : PassRecord}
    (h : passOf .exact cfg elevations times positions mask window = some p)
    : p.truncatedStart = decide (window.1 = 0 ∧ (sanitize elevations).getD 0 0 ≥ mask)
        ∧
      p.truncatedEnd = decide (window.2 = times.length) := by
  unfold passOf at h
  simp only [Option.bind_eq_bind, Option.bind_eq_some_iff, Option.pure_def, Option.some.injEq] at h
  obtain ⟨_, _, rfl⟩ := h
  exact ⟨rfl, rfl⟩

theorem coversRun_of_passOf (hincreasing : times.Pairwise (· < ·))
    (hlength : elevations.length = times.length) {window : Nat × Nat} {p : PassRecord}
    (hwindow : window ∈ windows elevations mask)
    (h : passOf .exact cfg (elevations.map some) times positions mask window = some p)
    : CoversRun elevations times mask window.1 window.2 p := by
  have hrun : IsRun elevations mask window.1 window.2 := mem_windows_iff.mp hwindow
  have hlength' : (elevations.map some).length = times.length := by simpa using hlength
  have hpass := (passOf_eq_some_of hlength' (by rwa [sanitize_map_some]) h).right
  have hrise : p.riseTime = riseAt .exact times elevations mask window.1 := by
    rw [hpass.riseTime, sanitize_map_some]
  have hset : p.setTime = setAt .exact times elevations mask window.2 := by
    rw [hpass.setTime, sanitize_map_some]
  obtain ⟨_, _, _, hriseTime, hsetTime, hduration, _⟩ := passOf_eq_some _ _ _ _ _ _ h
  obtain ⟨hstart, hend⟩ := passOf_flags h
  obtain ⟨hafter, hupto⟩ := riseAt_bounds hincreasing Arith.exact_keepsSteps hlength hrun
  obtain ⟨hfrom, hbefore⟩ := setAt_bounds hincreasing Arith.exact_keepsSteps hlength hrun
  have hlt := hrun.lt
  have hle := hrun.le
  constructor
  case duration => rw [hduration, hriseTime, hsetTime, Arith.exact_fl]
  case contains =>
    intro k hk hk'
    have := getD_le_getD hincreasing hk (by omega)
    have := getD_le_getD hincreasing (show k ≤ window.2 - 1 by omega) (by omega)
    rw [hrise, hset]
    constructor <;> linarith
  case interior =>
    intro k hk hk1 hk2
    rw [hrise] at hk1
    rw [hset] at hk2
    obtain ⟨hlow, hhigh⟩ := mem_run_of_lt hincreasing Arith.exact_keepsSteps hlength hrun hk hk1 hk2
    apply hrun.above k hlow hhigh
  case rises =>
    intro hpos
    rw [hrise]
    exact ⟨hafter, lineAt_riseAt hincreasing hlength hrun hpos⟩
  case sets =>
    intro hinside
    rw [hset]
    exact ⟨hbefore hinside, lineAt_setAt hincreasing hlength hrun hinside⟩
  case begins =>
    intro hzero
    rw [hrise, riseAt, if_pos hzero]
  case ends =>
    intro hlast
    rw [hset, setAt, if_pos (by omega)]
  case truncatedStart =>
    rw [hstart, sanitize_map_some, decide_eq_true_iff, and_iff_left_iff_imp]
    intro hzero
    apply hrun.above 0 (by omega) (by omega)
  case truncatedEnd => rw [hend, decide_eq_true_iff]

theorem forall₂_filterMap {α β : Type} (f : α → Option β) (as : List α)
    : List.Forall₂ (fun a b => a ∈ as ∧ f a = some b) (as.filter fun a => (f a).isSome)
        (as.filterMap f) := by
  induction as with
  | nil => apply List.Forall₂.nil
  | cons a as ih =>
    have hrest := ih.imp fun a' b h => And.intro (List.mem_cons_of_mem a h.left) h.right
    cases hf : f a with
    | none => simpa [hf] using hrest
    | some b => simpa [hf] using hrest

/--
The passes are those of the maximal runs at or above the mask that last for the minimum, one for
each and in their order, and no two of them overlap.
-/
theorem extractPasses_runs (cfg : Config) (elevations times : List Rat) (positions : List Position)
    (mask : Rat) (hincreasing : times.Pairwise (· < ·)) (hlength : elevations.length = times.length)
    (hmin : 0 < cfg.minPassDuration)
    : ∃ runs : List (Nat × Nat),
        (∀ riseI setI, (riseI, setI) ∈ runs
          ↔
          IsRun elevations mask riseI setI
            ∧ cfg.minPassDuration
              ≤ setAt .exact times elevations mask setI - riseAt .exact times elevations mask riseI)
          ∧
        runs.Pairwise (fun r r' => r.2 < r'.1)
          ∧
        List.Forall₂ (fun r p => CoversRun elevations times mask r.1 r.2 p) runs
          (extractPasses .exact cfg (elevations.map some) times positions mask)
          ∧
        (extractPasses .exact cfg (elevations.map some) times positions mask).Pairwise
          (fun p q => p.setTime ≤ q.riseTime) := by
  have hlength' : (elevations.map some).length = times.length := by simpa using hlength
  let f := passOf .exact cfg (elevations.map some) times positions mask
  refine ⟨(windows elevations mask).filter fun w => (f w).isSome, ?_, ?_, ?_, ?_⟩
  . intro riseI setI
    rw [List.mem_filter, mem_windows_iff, and_congr_right_iff]
    intro hrun
    have hwindow : (riseI, setI) ∈ windows (sanitize (elevations.map some)) mask := by
      rwa [sanitize_map_some, mem_windows_iff]
    have htimes := fun rise set => @passTimes_eq_some_iff .exact cfg _ _ mask hlength' _ hwindow rise set
    simp only [sanitize_map_some] at htimes
    rw [passOf_isSome_iff, Option.isSome_iff_exists]
    constructor
    . intro hsome
      obtain ⟨⟨rise, set⟩, hsome⟩ := hsome
      apply ((htimes rise set).mp hsome).left.longEnough
    . intro hlong
      refine ⟨_, (htimes _ _).mpr ⟨⟨hrun, ?_, hlong⟩, rfl, rfl⟩⟩
      linarith
  . apply (windows_pairwise elevations mask).filter
  . unfold extractPasses
    rw [sanitize_map_some]
    apply (forall₂_filterMap f (windows elevations mask)).imp
    intro w p h
    apply coversRun_of_passOf hincreasing hlength h.left h.right
  . apply extractPasses_pairwise hincreasing Arith.exact_keepsSteps hlength'

theorem extractPasses_runs_apart
    : let elevations := [30, 0, 40, 30, 0]
      ∃ runs : List (Nat × Nat),
        (∀ riseI setI, (riseI, setI) ∈ runs
          ↔
          IsRun elevations 10 riseI setI
            ∧ 5 ≤ setAt .exact fiveTimes elevations 10 setI - riseAt .exact fiveTimes elevations 10 riseI)
          ∧
        runs.Pairwise (fun r r' => r.2 < r'.1)
          ∧
        List.Forall₂ (fun r p => CoversRun elevations fiveTimes 10 r.1 r.2 p) runs
          (extractPasses .exact northward (elevations.map some) fiveTimes [] 10)
          ∧
        (extractPasses .exact northward (elevations.map some) fiveTimes [] 10).Pairwise
          (fun p q => p.setTime ≤ q.riseTime) :=
  extractPasses_runs northward [30, 0, 40, 30, 0] fiveTimes [] 10 (by decide +kernel) rfl
    (by norm_num [northward])

end runs

end PassDetector
end SdaSystem
