import Mathlib.Data.List.Sigma
import SdaSystem.Scheduling.Lemmas.OrTools

/-!
What `solve` marks. The guards of the extraction never drop a second pass of a satellite that the
solver selected, and two passes of a station that it selected can overlap only within one second.
-/

open CpSat

namespace SdaSystem
namespace ORToolsOptimizer

section normalize

variable {epoch : Int}

/-- The second, counted from the epoch, in which an instant lies for the model. -/
def second (epoch t : Int) : Int :=
  PyFloat.trunc (PyFloat.totalSeconds (t - epoch))

theorem second_mono : Monotone (second epoch) := by
  intro s t h
  apply PyFloat.trunc_mono
  apply PyFloat.totalSeconds_mono
  omega

theorem toUtcSeconds_eq_some_iff {t s : Int}
    : toUtcSeconds t epoch = some s ↔ 0 ≤ second epoch t ∧ second epoch t = s := by
  unfold toUtcSeconds
  dsimp only
  rw [← second]
  split
  . next h => simp [not_le.mpr h]
  . next h => simp [not_lt.mp h]

theorem toUtcSeconds_eq {t : Int} (ht : epoch ≤ t) : toUtcSeconds t epoch = some (second epoch t) := by
  rw [toUtcSeconds_eq_some_iff, and_iff_left rfl]
  apply PyFloat.trunc_nonneg
  apply PyFloat.totalSeconds_nonneg
  omega

theorem lt_of_toUtcSeconds_lt {s t i j : Int} (hi : toUtcSeconds s epoch = some i)
    (hj : toUtcSeconds t epoch = some j) (hlt : i < j) : s < t := by
  obtain ⟨_, rfl⟩ := toUtcSeconds_eq_some_iff.mp hi
  obtain ⟨_, rfl⟩ := toUtcSeconds_eq_some_iff.mp hj
  by_contra hle
  exact absurd (second_mono (not_lt.mp hle)) (not_le_of_gt hlt)

structure ValidPass.IsValid (epoch : Int) (v : ValidPass) : Prop where
  start_eq : toUtcSeconds v.pass.riseTime epoch = some v.start
  stop_eq : toUtcSeconds v.pass.setTime epoch = some v.stop
  start_lt : v.start < v.stop
  benefit_eq : v.benefit = scaledBenefit v.pass

theorem normalize_eq_some {candidate : SatellitePass × Nat} {v : ValidPass}
    (h : normalize epoch candidate = some v)
    : v.pass = candidate.1 ∧ v.index = candidate.2 ∧ v.IsValid epoch := by
  unfold normalize at h
  simp only [Option.bind_eq_bind, Option.bind_eq_some_iff] at h
  obtain ⟨s, hs, e, he, h⟩ := h
  split at h
  . simp at h
  . next hdur =>
    simp only [Option.pure_def, Option.some.injEq] at h
    subst h
    exact ⟨rfl, rfl, hs, he, by dsimp; omega, rfl⟩

theorem normalize_isSome (candidate : SatellitePass × Nat) {s e : Int}
    (hs : toUtcSeconds candidate.1.riseTime epoch = some s)
    (he : toUtcSeconds candidate.1.setTime epoch = some e) (hlt : s < e)
    : ∃ v, normalize epoch candidate = some v := by
  unfold normalize
  simp [hs, he, hlt]

variable {candidates : List SatellitePass}

theorem mem_validPasses {v : ValidPass} (h : v ∈ validPasses candidates epoch)
    : candidates[v.index]? = some v.pass ∧ v.IsValid epoch := by
  unfold validPasses at h
  rw [List.mem_filterMap] at h
  obtain ⟨candidate, hmem, hnorm⟩ := h
  obtain ⟨hpass, hindex, hvalid⟩ := normalize_eq_some hnorm
  rw [hpass, hindex]
  exact ⟨List.mem_zipIdx_iff_getElem?.mp hmem, hvalid⟩

theorem pass_mem_candidates {v : ValidPass} (h : v ∈ validPasses candidates epoch)
    : v.pass ∈ candidates := by
  apply List.mem_of_getElem?
  apply (mem_validPasses h).left

theorem exists_validPass {p : SatellitePass} (hp : p ∈ candidates) {s e : Int}
    (hs : toUtcSeconds p.riseTime epoch = some s) (he : toUtcSeconds p.setTime epoch = some e)
    (hlt : s < e) : ∃ v ∈ validPasses candidates epoch, v.pass = p := by
  obtain ⟨index, hindex⟩ := List.mem_iff_getElem?.mp hp
  obtain ⟨v, hv⟩ := normalize_isSome (p, index) hs he hlt
  refine ⟨v, ?_, (normalize_eq_some hv).left⟩
  unfold validPasses
  rw [List.mem_filterMap]
  exact ⟨(p, index), List.mem_zipIdx_iff_getElem?.mpr hindex, hv⟩

theorem nodup_index (candidates : List SatellitePass) (epoch : Int)
    : (validPasses candidates epoch).Pairwise fun v w => v.index ≠ w.index := by
  unfold validPasses
  rw [List.pairwise_filterMap]
  have hnodup : candidates.zipIdx.Pairwise fun x y => x.2 ≠ y.2 := by
    rw [← List.pairwise_map]
    apply List.nodup_zipIdx_map_snd
  apply hnodup.imp
  intro x y hne v hv w hw
  rw [(normalize_eq_some hv).right.left, (normalize_eq_some hw).right.left]
  apply hne

end normalize

namespace extract

variable {a : Assignment Var} {alreadyScheduled : Finset Int}

theorem go_eq (committedNorads : Finset Int) (valid : List ValidPass)
    (hmost : valid.Pairwise fun v w => v.pass.noradId = w.pass.noradId → ¬ (a v.var ∧ a w.var))
    (hnew : ∀ v ∈ valid, a v.var → v.pass.noradId ∉ committedNorads)
    : go a alreadyScheduled committedNorads valid
        =
      (valid.filter fun v => a v.var ∧ v.pass.noradId ∉ alreadyScheduled).map (·.pass) := by
  induction valid generalizing committedNorads with
  | nil => simp [go]
  | cons v rest ih =>
    rw [List.pairwise_cons] at hmost
    have hrest : ∀ w ∈ rest, a w.var → w.pass.noradId ∉ committedNorads := by
      intro w hw
      apply hnew
      simp [hw]
    unfold go
    split
    . next hsel =>
      rw [ih committedNorads hmost.right hrest]
      simp [hsel]
    . next hsel =>
      simp only [Bool.not_eq_true, Bool.not_eq_false] at hsel
      split
      . next hstage =>
        rw [ih committedNorads hmost.right hrest]
        simp [hstage]
      . next hstage =>
        have := hnew v (by simp) hsel
        simp only [this, ↓reduceIte]
        rw [ih _ hmost.right]
        . simp [hsel, hstage]
        . intro w hw hselw
          rw [Finset.mem_insert, not_or]
          refine ⟨?_, hrest w hw hselw⟩
          intro heq
          apply hmost.left w hw heq.symm ⟨hsel, hselw⟩

end extract

variable {a : Assignment Var} {candidates : List SatellitePass} {epoch : Int}
variable {alreadyScheduled : Finset Int}

theorem extract_eq {valid : List ValidPass} (h : Admissible valid (passValues a))
    : extract valid a alreadyScheduled
        =
      (valid.filter fun v => a v.var ∧ v.pass.noradId ∉ alreadyScheduled).map (·.pass) := by
  unfold extract
  apply extract.go_eq
  . apply h.imp
    intro v w hvw heq hsel
    apply (hvw hsel.left hsel.right).left heq
  . simp

theorem solve_eq (solver : CpModel Var → Option (Assignment Var))
    : solve solver candidates epoch alreadyScheduled
        =
      match solver (buildModel (validPasses candidates epoch)) with
      | some a => extract (validPasses candidates epoch) a alreadyScheduled
      | none => [] := by
  unfold solve
  split
  . next hnil =>
    rw [hnil]
    split <;> rfl
  . rfl

section overlap

/-- A pass that lasts at least until the next whole second after it began, counted from `epoch`. -/
def HasDuration (epoch : Int) (p : SatellitePass) : Prop :=
  toUtcSeconds p.riseTime epoch ≠ toUtcSeconds p.setTime epoch

/--
No pass rises in the second in which another one at its station sets, but before that. Passes of one
satellite, of satellites that are already scheduled, and passes without duration do not matter.
-/
def NoSharedSecond (candidates : List SatellitePass) (epoch : Int) (alreadyScheduled : Finset Int)
    : Prop :=
  ∀ p ∈ candidates, ∀ q ∈ candidates,
    p.stationId = q.stationId → p.noradId ≠ q.noradId
      → p.noradId ∉ alreadyScheduled → q.noradId ∉ alreadyScheduled
      → HasDuration epoch p → HasDuration epoch q
      → toUtcSeconds q.riseTime epoch = toUtcSeconds p.setTime epoch → p.setTime ≤ q.riseTime

theorem exists_validPass_of_hasDuration {p : SatellitePass} (hp : p ∈ candidates)
    (hepoch : epoch ≤ p.riseTime) (horder : p.TimeOrder) (hdur : HasDuration epoch p)
    : ∃ v ∈ validPasses candidates epoch, v.pass = p := by
  unfold SatellitePass.TimeOrder at horder
  unfold HasDuration at hdur
  have hrise := toUtcSeconds_eq hepoch
  have hset : toUtcSeconds p.setTime epoch = _ := toUtcSeconds_eq (by omega)
  rw [hrise, hset, ne_eq, Option.some.injEq] at hdur
  apply exists_validPass hp hrise hset
  apply lt_of_le_of_ne _ hdur
  apply second_mono
  omega

theorem ValidPass.IsValid.hasDuration {v : ValidPass} (h : v.IsValid epoch)
    : HasDuration epoch v.pass := by
  unfold HasDuration
  rw [h.start_eq, h.stop_eq]
  have := h.start_lt
  simp only [ne_eq, Option.some.injEq]
  omega

theorem setTime_le_of_stop_le (hcond : NoSharedSecond candidates epoch alreadyScheduled)
    {v w : ValidPass} (hv : v ∈ validPasses candidates epoch) (hw : w ∈ validPasses candidates epoch)
    (hstation : v.pass.stationId = w.pass.stationId) (hnorad : v.pass.noradId ≠ w.pass.noradId)
    (hvnew : v.pass.noradId ∉ alreadyScheduled) (hwnew : w.pass.noradId ∉ alreadyScheduled)
    (hle : v.stop ≤ w.start) : v.pass.setTime ≤ w.pass.riseTime := by
  have hvalid := (mem_validPasses hv).right
  have hvalid' := (mem_validPasses hw).right
  cases Int.lt_or_eq_of_le hle with
  | inl hlt =>
    have := lt_of_toUtcSeconds_lt hvalid.stop_eq hvalid'.start_eq hlt
    omega
  | inr heq =>
    apply hcond v.pass (pass_mem_candidates hv) w.pass (pass_mem_candidates hw) hstation hnorad hvnew
      hwnew hvalid.hasDuration hvalid'.hasDuration
    rw [hvalid'.start_eq, hvalid.stop_eq, heq]

theorem extract_pairwise (hcond : NoSharedSecond candidates epoch alreadyScheduled)
    (h : Admissible (validPasses candidates epoch) (passValues a))
    : (extract (validPasses candidates epoch) a alreadyScheduled).Pairwise
        fun p q => p.stationId = q.stationId → p.NonOverlapping q := by
  rw [extract_eq h, List.pairwise_map, List.pairwise_filter]
  apply List.Pairwise.imp_of_mem _ h
  intro v w hv hw hvw hselv hselw hstation
  simp only [decide_eq_true_eq] at hselv hselw
  have hadm := hvw hselv.left hselw.left
  cases hadm.right hstation with
  | inl hle =>
    apply Or.inl
    apply setTime_le_of_stop_le hcond hv hw hstation hadm.left hselv.right hselw.right hle
  | inr hle =>
    apply Or.inr
    exact setTime_le_of_stop_le hcond hw hv hstation.symm hadm.left.symm hselw.right
      hselv.right hle

def pairSel (i j index : Nat) : Bool :=
  index = i ∨ index = j

theorem admissible_pair {v w : ValidPass} (hv : v ∈ validPasses candidates epoch)
    (hw : w ∈ validPasses candidates epoch) (hnorad : v.pass.noradId ≠ w.pass.noradId)
    (hle : v.stop ≤ w.start)
    : Admissible (validPasses candidates epoch) (pairSel v.index w.index) := by
  have hindex := nodup_index candidates epoch
  have huniq : ∀ x ∈ validPasses candidates epoch, ∀ y ∈ validPasses candidates epoch,
      x.index = y.index → x = y := by
    intro x hx y hy heq
    by_contra hne
    have : Std.Symm fun v w : ValidPass => v.index ≠ w.index := ⟨fun _ _ h => h.symm⟩
    apply hindex.forall hx hy hne heq
  apply List.Pairwise.imp_of_mem _ hindex
  intro x y hx hy hne hselx hsely
  simp only [pairSel, decide_eq_true_eq] at hselx hsely
  rcases hselx with hselx | hselx <;> rcases hsely with hsely | hsely
  . omega
  . obtain rfl := huniq x hx v hv hselx
    obtain rfl := huniq y hy w hw hsely
    exact ⟨hnorad, fun _ => Or.inl hle⟩
  . obtain rfl := huniq x hx w hw hselx
    obtain rfl := huniq y hy v hv hsely
    exact ⟨hnorad.symm, fun _ => Or.inr hle⟩
  . omega

def answering (a : Assignment Var) (model : CpModel Var) : Option (Assignment Var) :=
  if model.Feasible a then some a else none

theorem answering_sound (a : Assignment Var) : CpModel.Sound (answering a) := by
  intro model b hb
  unfold answering at hb
  split at hb
  . next hfeasible =>
    cases hb
    apply hfeasible
  . simp at hb

theorem mem_solve_answering {sel : Nat → Bool} (h : Admissible (validPasses candidates epoch) sel)
    {v : ValidPass} (hv : v ∈ validPasses candidates epoch) (hsel : sel v.index)
    (hnew : v.pass.noradId ∉ alreadyScheduled)
    : v.pass ∈ solve (answering (assignmentOf (validPasses candidates epoch) sel)) candidates epoch
        alreadyScheduled := by
  rw [solve_eq]
  unfold answering
  simp only [assignmentOf_feasible h, ↓reduceIte]
  rw [extract_eq h]
  apply List.mem_map_of_mem
  rw [List.mem_filter]
  exact ⟨hv, by simp [hnew]; exact hsel⟩

/-- What Stage 2 marks is free of conflicts whatever the solver answers iff no second is shared. -/
theorem solve_nonOverlapping_iff (candidates : List SatellitePass) (epoch : Int)
    (alreadyScheduled : Finset Int)
    (hepoch : ∀ p ∈ candidates, epoch ≤ p.riseTime ∧ p.TimeOrder)
    : (∀ solver, CpModel.Sound solver →
        (solve solver candidates epoch alreadyScheduled).Pairwise
          fun p q => p.stationId = q.stationId → p.NonOverlapping q)
        ↔
      NoSharedSecond candidates epoch alreadyScheduled := by
  constructor
  . intro h p hp q hq hstation hnorad hpnew hqnew hpdur hqdur hsecond
    have hporder := hepoch p hp
    have hqorder := hepoch q hq
    obtain ⟨v, hv, rfl⟩ := exists_validPass_of_hasDuration hp hporder.left hporder.right hpdur
    obtain ⟨w, hw, rfl⟩ := exists_validPass_of_hasDuration hq hqorder.left hqorder.right hqdur
    have hvvalid := (mem_validPasses hv).right
    have hwvalid := (mem_validPasses hw).right
    rw [hwvalid.start_eq, hvvalid.stop_eq, Option.some.injEq] at hsecond
    -- a solver may select both, as `w` begins in the second in which `v` ends
    have hadm := admissible_pair hv hw hnorad (le_of_eq hsecond.symm)
    have hpair := h _ (answering_sound
      (assignmentOf (validPasses candidates epoch) (pairSel v.index w.index)))
    have hvmem := mem_solve_answering hadm hv (by simp [pairSel]) hpnew
    have hwmem := mem_solve_answering hadm hw (by simp [pairSel]) hqnew
    have : Std.Symm fun p q : SatellitePass => p.stationId = q.stationId → p.NonOverlapping q :=
      ⟨fun p q hpq heq => (hpq heq.symm).symm⟩
    have hne : v.pass ≠ w.pass := by
      intro heq
      apply hnorad
      rw [heq]
    cases hpair.forall hvmem hwmem hne hstation with
    | inl hle => apply hle
    | inr hle =>
      obtain ⟨_, hvstart⟩ := toUtcSeconds_eq_some_iff.mp hvvalid.start_eq
      obtain ⟨_, hwstart⟩ := toUtcSeconds_eq_some_iff.mp hwvalid.start_eq
      have hvlt := hvvalid.start_lt
      unfold SatellitePass.TimeOrder at hqorder
      have hearlier : w.pass.riseTime ≤ v.pass.riseTime := by omega
      have hsecond : second epoch w.pass.riseTime ≤ second epoch v.pass.riseTime :=
        second_mono hearlier
      omega
  . intro hcond solver hsound
    rw [solve_eq]
    split
    . next a ha =>
      apply extract_pairwise hcond
      apply (feasible_iff.mp (hsound _ _ ha)).left
    . simp

theorem solve_nonOverlapping_iff_handover
    : (∀ solver, CpModel.Sound solver →
        (solve solver [
          { id := 1, noradId := 101, stationId := "GS1", riseTime := 0, setTime := 10900000,
            durationSeconds := 109/10, maxElevation := 40 },
          { id := 2, noradId := 102, stationId := "GS1", riseTime := 10900000, setTime := 20000000,
            durationSeconds := 91/10, maxElevation := 50 }] 0 ∅).Pairwise
          fun p q => p.stationId = q.stationId → p.NonOverlapping q)
        ↔
      NoSharedSecond [
          { id := 1, noradId := 101, stationId := "GS1", riseTime := 0, setTime := 10900000,
            durationSeconds := 109/10, maxElevation := 40 },
          { id := 2, noradId := 102, stationId := "GS1", riseTime := 10900000, setTime := 20000000,
            durationSeconds := 91/10, maxElevation := 50 }] 0 ∅ := by
  apply solve_nonOverlapping_iff
  decide +kernel

theorem solve_overlapping
    : ¬ ∀ (candidates : List SatellitePass) (epoch : Int) (alreadyScheduled : Finset Int),
        (∀ p ∈ candidates, epoch ≤ p.riseTime ∧ p.TimeOrder)
          → ∀ solver, CpModel.Sound solver
          → (solve solver candidates epoch alreadyScheduled).Pairwise
              fun p q => p.stationId = q.stationId → p.NonOverlapping q := by
  intro h
  have := h [
      { id := 1, noradId := 101, stationId := "GS1", riseTime := 0, setTime := 10900000,
        durationSeconds := 109/10, maxElevation := 40 },
      { id := 2, noradId := 102, stationId := "GS1", riseTime := 10200000, setTime := 20000000,
        durationSeconds := 98/10, maxElevation := 50 }]
    0 ∅ (by decide +kernel) (answering fun _ => true) (answering_sound _)
  revert this
  decide +kernel

end overlap

end ORToolsOptimizer
end SdaSystem
