import Mathlib.Data.Int.ConditionallyCompleteOrder
import SdaSystem.Library.Rounding

/-!
Python's floats, without their overflow: the result of an operation is the float nearest to the exact
one. `int` of a float, and the conversions between floats of seconds and the whole microseconds of a
duration.
-/

namespace PyFloat

open Rounding

def fl (x : Rat) : Rat :=
  nearest binary64 x

/-- `int(x)` -/
def trunc (x : Rat) : Int :=
  x.num.tdiv x.den

/-- `delta.total_seconds()` -/
def totalSeconds (us : Int) : Rat :=
  fl (mkRat us 1000000)

/--
`timedelta(seconds=x)` in microseconds: whole seconds are multiplied exactly, the rest is multiplied as
a float and then rounded.
-/
def timedelta (x : Rat) : Int :=
  trunc x * 1000000 + halfEven (fl ((x - trunc x) * 1000000))

section trunc

variable {x y : Rat}

theorem trunc_of_nonneg (h : 0 ≤ x) : trunc x = ⌊x⌋ := by
  unfold trunc
  rw [Int.tdiv_eq_ediv_of_nonneg (Rat.num_nonneg.mpr h), Rat.floor_def']

theorem trunc_neg (x : Rat) : trunc (-x) = -trunc x := by
  unfold trunc
  rw [Rat.num_neg_eq_neg_num, Rat.den_neg_eq_den, Int.neg_tdiv]

@[simp]
theorem trunc_intCast (n : Int) : trunc n = n := by
  unfold trunc
  simp

theorem trunc_le (h : 0 ≤ x) : (trunc x : Rat) ≤ x := by
  rw [trunc_of_nonneg h]
  apply Int.floor_le

theorem lt_trunc_add_one (h : 0 ≤ x) : x < trunc x + 1 := by
  rw [trunc_of_nonneg h]
  apply Int.lt_floor_add_one

theorem trunc_nonneg (h : 0 ≤ x) : 0 ≤ trunc x := by
  rw [trunc_of_nonneg h]
  apply Int.floor_nonneg.mpr h

theorem monotone_of_odd {f : Rat → Int} (hneg : ∀ x, f (-x) = -f x) (hnonneg : ∀ x, 0 ≤ x → 0 ≤ f x)
    (hmono : ∀ x y, 0 ≤ x → x ≤ y → f x ≤ f y) : Monotone f := by
  intro x y h
  by_cases hx : 0 ≤ x
  . apply hmono x y hx h
  . have hx' : 0 ≤ f (-x) := by
      apply hnonneg
      linarith
    rw [hneg] at hx'
    by_cases hy : 0 ≤ y
    . have := hnonneg y hy
      omega
    . have := hmono (-y) (-x) (by linarith) (by linarith)
      rw [hneg, hneg] at this
      omega

theorem trunc_mono : Monotone trunc := by
  apply monotone_of_odd trunc_neg
  . intro x hx
    apply trunc_nonneg hx
  . intro x y hx h
    rw [trunc_of_nonneg hx, trunc_of_nonneg (le_trans hx h)]
    apply Int.floor_mono h

end trunc

section fl

variable {x : Rat}

theorem fl_mono : Monotone fl :=
  nearest_mono binary64

@[simp]
theorem fl_neg (x : Rat) : fl (-x) = -fl x :=
  nearest_neg binary64 x

@[simp]
theorem fl_zero : fl 0 = 0 :=
  nearest_zero binary64

@[simp]
theorem fl_fl (x : Rat) : fl (fl x) = fl x :=
  nearest_nearest binary64 x

theorem fl_nonneg (h : 0 ≤ x) : 0 ≤ fl x :=
  nearest_nonneg binary64 h

theorem fl_intCast {n : Int} (h : |n| < 2 ^ 53) : fl n = n := by
  apply nearest_intCast binary64 (show (0 : ℤ) < 53 by decide) (le_refl _) (by decide)
  exact_mod_cast h

theorem abs_sub_fl_le {z : ℤ} (hz : 0 < z) (h : |x| < 2 ^ z)
    : |x - fl x| ≤ 2 ^ max (z - 53) (-1074) / 2 :=
  abs_sub_nearest_le_of_lt binary64 hz h

end fl

section timedelta

theorem timedelta_neg (x : Rat) : timedelta (-x) = -timedelta x := by
  have hrest : (-x - (-trunc x : Int)) * 1000000 = -((x - trunc x) * 1000000) := by
    rw [Int.cast_neg]
    ring
  unfold timedelta
  rw [trunc_neg, hrest, fl_neg, halfEven_neg]
  ring

theorem timedelta_intCast (n : Int) : timedelta n = n * 1000000 := by
  have hzero : halfEven (0 : Rat) = 0 := by simpa using halfEven_intCast (K := Rat) 0
  unfold timedelta
  rw [trunc_intCast, sub_self, zero_mul, fl_zero, hzero, add_zero]

theorem halfEven_fl_bounds {x : Rat} (h : 0 ≤ x)
    : 0 ≤ halfEven (fl ((x - trunc x) * 1000000))
        ∧
      halfEven (fl ((x - trunc x) * 1000000)) ≤ 1000000 := by
  have hle := trunc_le h
  have hlt := lt_trunc_add_one h
  have hmillion : fl ((1000000 : Int) : Rat) = (1000000 : Int) := fl_intCast (by norm_num)
  constructor
  . rw [← halfEven_intCast (K := Rat) 0]
    apply halfEven_mono
    rw [Int.cast_zero]
    apply fl_nonneg
    linarith
  . rw [← halfEven_intCast (K := Rat) 1000000, ← hmillion]
    apply halfEven_mono
    apply fl_mono
    push_cast
    linarith

theorem timedelta_mono : Monotone timedelta := by
  apply monotone_of_odd timedelta_neg
  . intro x hx
    have := trunc_nonneg hx
    have := (halfEven_fl_bounds hx).left
    unfold timedelta
    omega
  . intro x y hx h
    have htrunc := trunc_mono h
    cases Int.lt_or_eq_of_le htrunc with
    | inl hlt =>
      have := (halfEven_fl_bounds hx).right
      have := (halfEven_fl_bounds (le_trans hx h)).left
      unfold timedelta
      omega
    | inr heq =>
      unfold timedelta
      rw [heq]
      apply add_le_add_right
      apply halfEven_mono
      apply fl_mono
      linarith

theorem totalSeconds_mono : Monotone totalSeconds := by
  intro us us' h
  apply fl_mono
  rw [Rat.mkRat_eq_div, Rat.mkRat_eq_div]
  apply div_le_div_of_nonneg_right _ (by norm_num)
  exact_mod_cast h

theorem totalSeconds_nonneg {us : Int} (h : 0 ≤ us) : 0 ≤ totalSeconds us := by
  apply le_trans _ (totalSeconds_mono h)
  apply fl_nonneg
  simp

theorem totalSeconds_mul {n : Int} (h : |n| < 2 ^ 53) : totalSeconds (n * 1000000) = n := by
  have hwhole : mkRat (n * 1000000) 1000000 = n := by
    rw [Rat.mkRat_eq_div]
    push_cast
    ring
  unfold totalSeconds
  rw [hwhole, fl_intCast h]

theorem timedelta_totalSeconds {us : Int} (hnonneg : 0 ≤ us) (h : us < 2 ^ 33 * 1000000)
    : timedelta (totalSeconds us) = us := by
  have hsplit : us = us / 1000000 * 1000000 + us % 1000000 := by omega
  have hn : 0 ≤ us / 1000000 ∧ us / 1000000 < 2 ^ 33 := by omega
  have hr : 0 ≤ us % 1000000 ∧ us % 1000000 < 1000000 := by omega
  generalize us / 1000000 = n at *
  generalize us % 1000000 = r at *
  have hq : mkRat us 1000000 = n + r / 1000000 := by
    rw [Rat.mkRat_eq_div, hsplit]
    push_cast
    ring
  unfold totalSeconds
  rw [hq]
  have hn' : (0 : Rat) ≤ n ∧ (n : Rat) + 1 ≤ 2 ^ 33 := by
    constructor
    . exact_mod_cast hn.left
    . exact_mod_cast hn.right
  have hr' : (0 : Rat) ≤ r ∧ (r : Rat) + 1 ≤ 1000000 := by
    constructor
    . exact_mod_cast hr.left
    . exact_mod_cast hr.right
  have hself : fl n = n := by
    apply fl_intCast
    rw [abs_of_nonneg hn.left]
    omega
  cases Int.lt_or_eq_of_le hr.left with
  | inr hzero =>
    -- whole seconds
    rw [← hzero, Int.cast_zero, zero_div, add_zero, hself, timedelta_intCast]
    omega
  | inl hpos =>
    have hpos' : (1 : Rat) ≤ r := by exact_mod_cast hpos
    have hlower : (n : Rat) ≤ fl (n + r / 1000000) := by
      rw [← hself]
      apply fl_mono
      rw [hself]
      linarith
    have hclose : |(n + r / 1000000 : Rat) - fl (n + r / 1000000)| ≤ 2 ^ (-21 : ℤ) := by
      have hbound : |(n + r / 1000000 : Rat)| < 2 ^ (33 : ℤ) := by
        rw [abs_of_nonneg (by linarith)]
        norm_num at hn' ⊢
        linarith
      apply le_trans (abs_sub_fl_le (by decide) hbound)
      norm_num
    generalize fl (n + r / 1000000) = x at *
    norm_num at hclose
    obtain ⟨hbelow, habove⟩ := abs_le.mp hclose
    have htrunc : trunc x = n := by
      rw [trunc_of_nonneg (by linarith), Int.floor_eq_iff]
      constructor
      . exact hlower
      . linarith
    have hround : |(x - n) * 1000000 - fl ((x - n) * 1000000)| ≤ 2 ^ (-34 : ℤ) := by
      have hbound : |(x - n) * 1000000| < 2 ^ (20 : ℤ) := by
        rw [abs_of_nonneg (by linarith)]
        norm_num
        linarith
      apply le_trans (abs_sub_fl_le (by decide) hbound)
      norm_num
    have hnear : |fl ((x - n) * 1000000) - r| < 1 / 2 := by
      norm_num at hround
      obtain ⟨hbelow', habove'⟩ := abs_le.mp hround
      rw [abs_lt]
      constructor <;> linarith
    unfold timedelta
    rw [htrunc, halfEven_eq_of (le_of_lt hnear) fun htie => absurd htie (ne_of_lt hnear)]
    omega

end timedelta

end PyFloat
