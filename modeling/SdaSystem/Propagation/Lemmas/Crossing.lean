import SdaSystem.Propagation.Lemmas.PassDetector

open TrueRuns

namespace SdaSystem
namespace PassDetector

section windows

variable {elevations : List Rat} {mask : Rat} {riseI setI : Nat}

/-- The samples from `riseI` to `setI - 1` are a maximal run at or above the mask. -/
structure IsRun (elevations : List Rat) (mask : Rat) (riseI setI : Nat) : Prop where
  lt : riseI < setI
  le : setI ≤ elevations.length
  above : ∀ k, riseI ≤ k → k < setI → mask ≤ elevations.getD k 0
  before : 0 < riseI → elevations.getD (riseI - 1) 0 < mask
  after : setI < elevations.length → elevations.getD setI 0 < mask

theorem above_getElem?_iff {k : Nat} (hk : k < elevations.length)
    : ((elevations.map fun e => decide (e ≥ mask))[k]? = some true ↔ mask ≤ elevations.getD k 0)
        ∧
      ((elevations.map fun e => decide (e ≥ mask))[k]? = some false ↔ elevations.getD k 0 < mask) := by
  rw [List.getElem?_map, List.getElem?_eq_getElem hk, List.getD_eq_getElem _ _ hk]
  simp

theorem mem_windows_iff : (riseI, setI) ∈ windows elevations mask ↔ IsRun elevations mask riseI setI := by
  rw [windows_eq, mem_trueRuns_iff, List.length_map]
  constructor
  . rintro ⟨hlt, hle, habove, hbefore, hafter⟩
    constructor
    case lt => exact hlt
    case le => exact hle
    case above =>
      intro k hrise hset
      apply (above_getElem?_iff (by omega)).left.mp (habove k hrise hset)
    case before =>
      intro hpos
      apply (above_getElem?_iff (by omega)).right.mp (hbefore hpos)
    case after =>
      intro hend
      apply (above_getElem?_iff hend).right.mp (hafter hend)
  . intro h
    refine ⟨h.lt, h.le, ?_, ?_, ?_⟩
    . intro k hrise hset
      have := h.le
      apply (above_getElem?_iff (by omega)).left.mpr (h.above k hrise hset)
    . intro hpos
      have := h.lt
      have := h.le
      apply (above_getElem?_iff (by omega)).right.mpr (h.before hpos)
    . intro hend
      apply (above_getElem?_iff hend).right.mpr (h.after hend)

theorem windows_pairwise (elevations : List Rat) (mask : Rat)
    : (windows elevations mask).Pairwise fun w w' => w.2 < w'.1 := by
  rw [windows_eq]
  apply trueRuns_pairwise

end windows

namespace Arith

variable (ar : Arith) {c d x : Rat}

@[simp]
theorem fl_zero : ar.fl 0 = 0 := by
  have := ar.fl_neg 0
  rw [neg_zero] at this
  linarith

@[simp]
theorem timedelta_zero : ar.timedelta 0 = 0 := by
  have := ar.timedelta_neg 0
  rw [neg_zero] at this
  linarith

theorem fl_nonneg (h : 0 ≤ x) : 0 ≤ ar.fl x := by
  rw [← ar.fl_zero]
  apply ar.fl_mono h

def portion (c d : Rat) : Rat :=
  ar.timedelta (ar.fl (c * ar.fl d))

theorem portion_mono (hd : 0 ≤ d) : Monotone fun c => ar.portion c d := by
  intro c c' h
  apply ar.timedelta_mono
  apply ar.fl_mono
  apply mul_le_mul_of_nonneg_right h (ar.fl_nonneg hd)

@[simp]
theorem portion_zero : ar.portion 0 d = 0 := by
  unfold portion
  rw [zero_mul, fl_zero, timedelta_zero]

theorem portion_neg : ar.portion (-c) d = -ar.portion c d := by
  unfold portion
  rw [neg_mul, ar.fl_neg, ar.timedelta_neg]

theorem portion_nonneg (hd : 0 ≤ d) (hc : 0 ≤ c) : 0 ≤ ar.portion c d := by
  rw [← ar.portion_zero]
  apply ar.portion_mono hd hc

/-- `timedelta(seconds=d.total_seconds()) == d` -/
def Keeps (d : Rat) : Prop :=
  ar.portion 1 d = d

variable {ar}

theorem Keeps.portion_le (h : ar.Keeps d) (hd : 0 ≤ d) (hc : c ≤ 1) : ar.portion c d ≤ d := by
  apply le_trans (ar.portion_mono hd hc) (le_of_eq h)

theorem Keeps.neg_le_portion (h : ar.Keeps d) (hd : 0 ≤ d) (hc : -1 ≤ c) : -d ≤ ar.portion c d := by
  have hle := h.portion_le hd (neg_le.mp hc)
  rw [portion_neg] at hle
  apply neg_le.mp hle

variable (ar) in
def KeepsSteps (times : List Rat) : Prop :=
  ∀ left, left + 1 < times.length → ar.Keeps (times.getD (left + 1) 0 - times.getD left 0)

@[simp]
theorem exact_portion : exact.portion c d = c * d :=
  rfl

theorem exact_keeps : exact.Keeps d :=
  one_mul d

theorem exact_keepsSteps {times : List Rat} : exact.KeepsSteps times :=
  fun _ _ => exact_keeps

theorem python_keeps {us : Int} (hnonneg : 0 ≤ us)
    (h : us < 2 ^ 33 * 1000000 ∨ ∃ k : Int, |k| < 2 ^ 53 ∧ us = k * 1000000)
    : python.Keeps (seconds us) := by
  have hkeeps : PyFloat.timedelta (PyFloat.totalSeconds us) = us := by
    rcases h with h | ⟨k, hk, rfl⟩
    . apply PyFloat.timedelta_totalSeconds hnonneg h
    . rw [PyFloat.totalSeconds_mul hk, PyFloat.timedelta_intCast]
  have hfl : python.fl (seconds us) = PyFloat.totalSeconds us := rfl
  unfold Keeps portion
  rw [one_mul, hfl]
  change seconds (PyFloat.timedelta (PyFloat.fl (PyFloat.fl _))) = _
  rw [PyFloat.fl_fl]
  change seconds (PyFloat.timedelta (PyFloat.totalSeconds us)) = _
  rw [hkeeps]

end Arith

theorem le_clip {x lo hi : Rat} (h : lo ≤ hi) : lo ≤ clip x lo hi :=
  le_min (le_max_right x lo) h

theorem clip_le (x lo hi : Rat) : clip x lo hi ≤ hi :=
  min_le_right _ _

section line

variable (ar : Arith) (times elevations : List Rat) (mask : Rat)

def IsFlat (left : Nat) : Prop :=
  |ar.fl (elevations.getD (left + 1) 0 - elevations.getD left 0)| < ar.fl (1 / 10 ^ 12)

instance (left : Nat) : Decidable (IsFlat ar elevations left) := inferInstanceAs (Decidable (_ < _))

/-- How far the mask is on the straight line from sample `left` to the next one, `dt` later. -/
def lineOffset (left : Nat) (dt : Rat) : Rat :=
  ar.portion (clip (ar.fl (ar.fl (mask - elevations.getD left 0)
    / ar.fl (elevations.getD (left + 1) 0 - elevations.getD left 0))) 0 1) dt

def lineTime (left : Nat) : Rat :=
  times.getD left 0
    + lineOffset ar elevations mask left (times.getD (left + 1) 0 - times.getD left 0)

/-- When a run that begins with sample `riseI` rises: at the first sample of all, or on the line. -/
def riseAt (riseI : Nat) : Rat :=
  if riseI = 0 then
    times.getD 0 0
  else if IsFlat ar elevations (riseI - 1) then
    times.getD (riseI - 1) 0
  else
    lineTime ar times elevations mask (riseI - 1)

def setAt (setI : Nat) : Rat :=
  if times.length ≤ setI then
    times.getD (times.length - 1) 0
  else if IsFlat ar elevations (setI - 1) then
    times.getD setI 0
  else
    lineTime ar times elevations mask (setI - 1)

end line

section crossing

variable {ar : Arith} {times elevations : List Rat} {mask : Rat} {riseI setI : Nat}

theorem getD_le_getD (hincreasing : times.Pairwise (· < ·)) {i j : Nat} (hij : i ≤ j)
    (hj : j < times.length) : times.getD i 0 ≤ times.getD j 0 := by
  rw [List.getD_eq_getElem _ _ (by omega), List.getD_eq_getElem _ _ hj]
  cases Nat.eq_or_lt_of_le hij with
  | inl heq => simp [heq]
  | inr hlt => apply le_of_lt (List.pairwise_iff_getElem.mp hincreasing i j _ hj hlt)

theorem getD_lt_getD (hincreasing : times.Pairwise (· < ·)) {i j : Nat} (hij : i < j)
    (hj : j < times.length) : times.getD i 0 < times.getD j 0 := by
  rw [List.getD_eq_getElem _ _ (by omega), List.getD_eq_getElem _ _ hj]
  apply List.pairwise_iff_getElem.mp hincreasing i j _ hj hij

theorem IsRun.crosses (h : IsRun elevations mask riseI setI)
    : (∀ left, riseI = left + 1
        → elevations.getD left 0 < mask ∧ mask ≤ elevations.getD (left + 1) 0)
        ∧
      (∀ left, setI = left + 1 → setI < elevations.length
        → mask ≤ elevations.getD left 0 ∧ elevations.getD (left + 1) 0 < mask) := by
  have hlt := h.lt
  constructor
  . rintro left rfl
    exact ⟨h.before (Nat.succ_pos left), h.above (left + 1) (Nat.le_refl _) hlt⟩
  . rintro left rfl hend
    exact ⟨h.above left (by omega) (Nat.lt_succ_self left), h.after hend⟩

theorem rise_time_eq (hlength : elevations.length = times.length)
    (h : IsRun elevations mask riseI setI)
    : (interpolateCrossing ar times elevations riseI mask true).time
        =
      riseAt ar times elevations mask riseI := by
  have hlt := h.lt
  have hle := h.le
  unfold interpolateCrossing riseAt
  cases riseI with
  | zero => simp
  | succ left =>
    simp only [if_true, Nat.add_one_sub_one, Nat.succ_ne_zero, and_false, if_false, ge_iff_le]
    rw [if_neg (by omega), apply_ite Crossing.time]
    rfl

theorem set_time_eq (h : IsRun elevations mask riseI setI)
    : (interpolateCrossing ar times elevations (setI - 1) mask false).time
        =
      setAt ar times elevations mask setI := by
  have hlt := h.lt
  obtain ⟨left, rfl⟩ : ∃ left, setI = left + 1 := ⟨setI - 1, by omega⟩
  unfold interpolateCrossing setAt
  simp only [Bool.false_eq_true, if_false, false_and, ge_iff_le, Nat.add_one_sub_one]
  split
  . rfl
  . rw [apply_ite Crossing.time]
    rfl

section bounds

variable (hincreasing : times.Pairwise (· < ·)) (hkeeps : ar.KeepsSteps times)

include hincreasing hkeeps

theorem lineTime_mem {left : Nat} (hleft : left + 1 < times.length)
    : times.getD left 0 ≤ lineTime ar times elevations mask left
        ∧
      lineTime ar times elevations mask left ≤ times.getD (left + 1) 0 := by
  have hstep := getD_lt_getD hincreasing (Nat.lt_succ_self left) hleft
  have hnonneg : 0 ≤ times.getD (left + 1) 0 - times.getD left 0 := by linarith
  unfold lineTime lineOffset
  constructor
  . rw [le_add_iff_nonneg_right]
    apply ar.portion_nonneg hnonneg
    apply le_clip zero_le_one
  . rw [← le_sub_iff_add_le']
    apply (hkeeps left hleft).portion_le hnonneg
    apply clip_le

theorem riseAt_bounds (hlength : elevations.length = times.length)
    (h : IsRun elevations mask riseI setI)
    : times.getD (riseI - 1) 0 ≤ riseAt ar times elevations mask riseI
        ∧
      riseAt ar times elevations mask riseI ≤ times.getD riseI 0 := by
  have hlt := h.lt
  have hle := h.le
  unfold riseAt
  cases riseI with
  | zero => simp
  | succ left =>
    have hstep := getD_lt_getD hincreasing (Nat.lt_succ_self left) (by omega)
    rw [if_neg (Nat.succ_ne_zero left), Nat.add_one_sub_one]
    split
    . exact ⟨le_refl _, le_of_lt hstep⟩
    . apply lineTime_mem hincreasing hkeeps (by omega)

theorem setAt_bounds (hlength : elevations.length = times.length)
    (h : IsRun elevations mask riseI setI)
    : times.getD (setI - 1) 0 ≤ setAt ar times elevations mask setI
        ∧
      (setI < times.length → setAt ar times elevations mask setI ≤ times.getD setI 0) := by
  have hlt := h.lt
  have hle : setI ≤ times.length := hlength ▸ h.le
  obtain ⟨left, rfl⟩ : ∃ left, setI = left + 1 := ⟨setI - 1, by omega⟩
  unfold setAt
  rw [Nat.add_one_sub_one]
  split
  . next hend =>
    refine ⟨getD_le_getD hincreasing (by omega) (by omega), ?_⟩
    intro hend'
    omega
  . next hend =>
    have hstep := getD_lt_getD hincreasing (Nat.lt_succ_self left) (by omega)
    split
    . exact ⟨le_of_lt hstep, fun _ => le_refl _⟩
    . have hmem := @lineTime_mem ar times elevations mask hincreasing hkeeps left (by omega)
      exact ⟨hmem.left, fun _ => hmem.right⟩

theorem mem_run_of_lt (hlength : elevations.length = times.length)
    (h : IsRun elevations mask riseI setI) {k : Nat} (hk : k < times.length)
    (hrise : riseAt ar times elevations mask riseI < times.getD k 0)
    (hset : times.getD k 0 < setAt ar times elevations mask setI) : riseI ≤ k ∧ k < setI := by
  have hlt := h.lt
  have hle := h.le
  constructor
  . by_contra hlow
    have := (riseAt_bounds hincreasing hkeeps hlength h).left
    have := getD_le_getD hincreasing (show k ≤ riseI - 1 by omega) (by omega)
    linarith
  . by_contra hhigh
    have := (setAt_bounds hincreasing hkeeps hlength h).right (by omega)
    have := getD_le_getD hincreasing (not_lt.mp hhigh) hk
    linarith

end bounds

end crossing

section passes

variable {ar : Arith} {cfg : Config} {elevations : List (Option Rat)} {times : List Rat}
  {positions : List Position} {mask : Rat}

structure EmittedRun (ar : Arith) (minPassDuration : Rat) (times elevations : List Rat) (mask : Rat)
    (riseI setI : Nat) : Prop extends IsRun elevations mask riseI setI where
  ordered : riseAt ar times elevations mask riseI < setAt ar times elevations mask setI
  longEnough : minPassDuration
    ≤ ar.fl (setAt ar times elevations mask setI - riseAt ar times elevations mask riseI)

theorem passTimes_eq_some_iff (hlength : elevations.length = times.length) {window : Nat × Nat}
    (h : window ∈ windows (sanitize elevations) mask) {rise set : Crossing}
    : passTimes ar cfg elevations times mask window = some (rise, set)
        ↔
      EmittedRun ar cfg.minPassDuration times (sanitize elevations) mask window.1 window.2
        ∧ rise = interpolateCrossing ar times (sanitize elevations) window.1 mask true
        ∧ set = interpolateCrossing ar times (sanitize elevations) (window.2 - 1) mask false := by
  have hrun : IsRun (sanitize elevations) mask window.1 window.2 := mem_windows_iff.mp h
  have hlength' : (sanitize elevations).length = times.length := by simp [sanitize, hlength]
  unfold passTimes
  dsimp only
  rw [rise_time_eq hlength' hrun, set_time_eq hrun]
  split
  . next hord =>
    simp only [reduceCtorEq, false_iff]
    rintro ⟨hemitted, _⟩
    exact absurd hemitted.ordered (not_lt_of_ge hord)
  . next hord =>
    split
    . next hshort =>
      simp only [reduceCtorEq, false_iff]
      rintro ⟨hemitted, _⟩
      exact absurd hemitted.longEnough (not_le_of_gt hshort)
    . next hshort =>
      rw [Option.some.injEq, Prod.mk.injEq]
      constructor
      . rintro ⟨hrise, hset⟩
        exact ⟨⟨hrun, not_le.mp hord, not_lt.mp hshort⟩, hrise.symm, hset.symm⟩
      . rintro ⟨_, hrise, hset⟩
        exact ⟨hrise.symm, hset.symm⟩

theorem passOf_hasDataGap {window : Nat × Nat} {p : PassRecord}
    (h : passOf ar cfg elevations times positions mask window = some p)
    : p.hasDataGap = ((elevations.take window.2).drop window.1).any (·.isNone) := by
  unfold passOf at h
  simp only [Option.bind_eq_bind, Option.bind_eq_some_iff, Option.pure_def, Option.some.injEq] at h
  obtain ⟨_, _, rfl⟩ := h
  rfl

structure PassOfRun (ar : Arith) (elevations : List (Option Rat)) (times : List Rat) (mask : Rat)
    (riseI setI : Nat) (p : PassRecord) : Prop where
  riseTime : p.riseTime = riseAt ar times (sanitize elevations) mask riseI
  setTime : p.setTime = setAt ar times (sanitize elevations) mask setI
  hasDataGap : p.hasDataGap = ((elevations.take setI).drop riseI).any (·.isNone)

theorem passOf_eq_some_of (hlength : elevations.length = times.length) {window : Nat × Nat}
    (hwindow : window ∈ windows (sanitize elevations) mask) {p : PassRecord}
    (h : passOf ar cfg elevations times positions mask window = some p)
    : EmittedRun ar cfg.minPassDuration times (sanitize elevations) mask window.1 window.2
        ∧
      PassOfRun ar elevations times mask window.1 window.2 p := by
  have hlength' : (sanitize elevations).length = times.length := by simp [sanitize, hlength]
  obtain ⟨rise, set, htimes, hrise, hset, _⟩ := passOf_eq_some _ _ _ _ _ _ h
  obtain ⟨hemitted, hriseEq, hsetEq⟩ := (passTimes_eq_some_iff hlength hwindow).mp htimes
  refine ⟨hemitted, ?_⟩
  constructor
  case riseTime => rw [hrise, hriseEq, rise_time_eq hlength' hemitted.toIsRun]
  case setTime => rw [hset, hsetEq, set_time_eq hemitted.toIsRun]
  case hasDataGap => rw [passOf_hasDataGap h]

theorem exists_run_of_mem (hlength : elevations.length = times.length) {p : PassRecord}
    (hp : p ∈ extractPasses ar cfg elevations times positions mask)
    : ∃ riseI setI,
        EmittedRun ar cfg.minPassDuration times (sanitize elevations) mask riseI setI
          ∧
        PassOfRun ar elevations times mask riseI setI p := by
  obtain ⟨window, hwindow, hp⟩ := List.mem_filterMap.mp hp
  exact ⟨window.1, window.2, passOf_eq_some_of hlength hwindow hp⟩

theorem exists_passOf_of_run (hlength : elevations.length = times.length) {riseI setI : Nat}
    (h : EmittedRun ar cfg.minPassDuration times (sanitize elevations) mask riseI setI)
    : ∃ p, passOf ar cfg elevations times positions mask (riseI, setI) = some p := by
  have hwindow : (riseI, setI) ∈ windows (sanitize elevations) mask := mem_windows_iff.mpr h.toIsRun
  rw [← Option.isSome_iff_exists, passOf_isSome_iff,
    (passTimes_eq_some_iff hlength hwindow).mpr ⟨h, rfl, rfl⟩]
  rfl

theorem exists_pass_of_run (hlength : elevations.length = times.length) {riseI setI : Nat}
    (h : EmittedRun ar cfg.minPassDuration times (sanitize elevations) mask riseI setI)
    : ∃ p ∈ extractPasses ar cfg elevations times positions mask,
        PassOfRun ar elevations times mask riseI setI p := by
  have hwindow : (riseI, setI) ∈ windows (sanitize elevations) mask := mem_windows_iff.mpr h.toIsRun
  obtain ⟨p, hp⟩ := exists_passOf_of_run hlength h
  refine ⟨p, List.mem_filterMap.mpr ⟨_, hwindow, hp⟩, ?_⟩
  apply (passOf_eq_some_of hlength hwindow hp).right

theorem extractPasses_pairwise (hincreasing : times.Pairwise (· < ·)) (hkeeps : ar.KeepsSteps times)
    (hlength : elevations.length = times.length)
    : (extractPasses ar cfg elevations times positions mask).Pairwise fun p q =>
        p.setTime ≤ q.riseTime := by
  have hlength' : (sanitize elevations).length = times.length := by simp [sanitize, hlength]
  unfold extractPasses
  rw [List.pairwise_filterMap]
  apply (windows_pairwise (sanitize elevations) mask).imp_of_mem
  intro w w' hw hw' hlt p hp q hq
  obtain ⟨hemitted, hpass⟩ := passOf_eq_some_of hlength hw hp
  obtain ⟨hemitted', hpass'⟩ := passOf_eq_some_of hlength hw' hq
  have hlt' := hemitted'.lt
  have hle' := hemitted'.le
  rw [hpass.setTime, hpass'.riseTime]
  calc
    setAt ar times (sanitize elevations) mask w.2 ≤ times.getD w.2 0 := by
      apply (setAt_bounds hincreasing hkeeps hlength' hemitted.toIsRun).right
      omega
    _ ≤ times.getD (w'.1 - 1) 0 := by
      apply getD_le_getD hincreasing
      . omega
      . omega
    _ ≤ riseAt ar times (sanitize elevations) mask w'.1 := by
      apply (riseAt_bounds hincreasing hkeeps hlength' hemitted'.toIsRun).left

end passes

end PassDetector
end SdaSystem
