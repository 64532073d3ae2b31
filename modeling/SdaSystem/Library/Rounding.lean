import Mathlib.Algebra.Order.Field.Basic
import Mathlib.Algebra.Order.Floor.Ring
import Mathlib.Data.Int.Log
import Mathlib.Data.Rat.Floor
import Mathlib.Tactic.Linarith
import Mathlib.Tactic.Ring

/-!
Rounding to the nearest integer and to the nearest number of a binary floating-point format, ties to
even. A format is given by its precision and its least exponent; overflow is left to those who use it.
-/

namespace Rounding

variable [Field K] [LinearOrder K] [FloorRing K]

def halfEven (x : K) : ℤ :=
  if Int.fract x < 1 / 2 then
    ⌊x⌋
  else if 1 / 2 < Int.fract x then
    ⌊x⌋ + 1
  else if Even ⌊x⌋ then
    ⌊x⌋
  else
    ⌊x⌋ + 1

section

variable [IsStrictOrderedRing K] {x y : K}

theorem halfEven_spec (x : K)
    : |x - halfEven x| ≤ 1 / 2 ∧ (|x - halfEven x| = 1 / 2 → Even (halfEven x)) := by
  have hfloor := Int.floor_add_fract x
  have hnonneg := Int.fract_nonneg x
  have hlt := Int.fract_lt_one x
  have hdown : |x - ⌊x⌋| = Int.fract x := by
    rw [Int.self_sub_floor, abs_of_nonneg hnonneg]
  have hup : |x - (⌊x⌋ + 1 : ℤ)| = 1 - Int.fract x := by
    rw [Int.cast_add, Int.cast_one, abs_sub_comm, abs_of_nonneg]
    . linarith
    . linarith
  unfold halfEven
  split
  . next h =>
    rw [hdown]
    exact ⟨le_of_lt h, fun heq => absurd heq (ne_of_lt h)⟩
  . split
    . next h =>
      rw [hup]
      refine ⟨by linarith, fun heq => ?_⟩
      linarith
    . next hge hle =>
      have htie : Int.fract x = 1 / 2 := le_antisymm (not_lt.mp hle) (not_lt.mp hge)
      split
      . next heven =>
        rw [hdown]
        exact ⟨le_of_eq htie, fun _ => heven⟩
      . next hodd =>
        rw [hup]
        refine ⟨by linarith, fun _ => ?_⟩
        rw [Int.even_add_one]
        exact hodd

theorem tie_of_lt {m n : ℤ} (hm : |x - m| ≤ 1 / 2) (hn : |x - n| ≤ 1 / 2) (hlt : m < n)
    : n = m + 1 ∧ |x - m| = 1 / 2 ∧ |x - n| = 1 / 2 := by
  have hle : (m : K) + 1 ≤ n := by exact_mod_cast hlt
  obtain ⟨_, hm⟩ := abs_le.mp hm
  obtain ⟨hn, _⟩ := abs_le.mp hn
  have hnext : (n : K) = m + 1 := by linarith
  have hx : x = m + 1 / 2 := by linarith
  refine ⟨by exact_mod_cast hnext, ?_, ?_⟩
  . rw [hx, add_sub_cancel_left, abs_of_pos one_half_pos]
  . rw [hx, hnext, abs_sub_comm, abs_of_pos]
    . linarith
    . linarith

theorem halfEven_eq_of {n : ℤ} (hle : |x - n| ≤ 1 / 2) (htie : |x - n| = 1 / 2 → Even n)
    : halfEven x = n := by
  obtain ⟨hle', htie'⟩ := halfEven_spec x
  rcases lt_trichotomy (halfEven x) n with hlt | heq | hlt
  . obtain ⟨hnext, htied', htied⟩ := tie_of_lt hle' hle hlt
    have heven := htie htied
    rw [hnext, Int.even_add_one] at heven
    exact absurd (htie' htied') heven
  . apply heq
  . obtain ⟨hnext, htied, htied'⟩ := tie_of_lt hle hle' hlt
    have heven := htie' htied'
    rw [hnext, Int.even_add_one] at heven
    exact absurd (htie htied) heven

@[simp]
theorem halfEven_intCast (n : ℤ) : halfEven (n : K) = n := by
  apply halfEven_eq_of
  . simp
  . simp

theorem halfEven_neg (x : K) : halfEven (-x) = -halfEven x := by
  obtain ⟨hle, htie⟩ := halfEven_spec x
  have habs : |-x - (-halfEven x : ℤ)| = |x - halfEven x| := by
    rw [Int.cast_neg, ← neg_add', abs_neg, ← sub_eq_add_neg]
  apply halfEven_eq_of
  . rwa [habs]
  . rw [habs, even_neg]
    apply htie

theorem halfEven_mono (h : x ≤ y) : halfEven x ≤ halfEven y := by
  by_contra hlt
  have hle : (halfEven y : K) + 1 ≤ halfEven x := by exact_mod_cast not_le.mp hlt
  obtain ⟨hx, _⟩ := abs_le.mp (halfEven_spec x).left
  obtain ⟨_, hy⟩ := abs_le.mp (halfEven_spec y).left
  have hboth : y = x := by linarith
  rw [hboth] at hlt
  exact hlt (le_refl _)

end

structure Format where
  precision : ℕ
  minExponent : ℤ
  precision_pos : 0 < precision

def binary64 : Format where
  precision := 53
  minExponent := -1074
  precision_pos := by decide

variable (format : Format)

def ulpExponent (x : K) : ℤ :=
  max (Int.log 2 |x| + 1 - format.precision) format.minExponent

def nearest (x : K) : K :=
  halfEven (x / 2 ^ ulpExponent format x) * 2 ^ ulpExponent format x

section

variable [IsStrictOrderedRing K] {x y : K}

theorem abs_sub_nearest_le (x : K)
    : |x - nearest format x| ≤ 2 ^ ulpExponent format x / 2 := by
  have hpos : (0 : K) < 2 ^ ulpExponent format x := zpow_pos two_pos _
  have hle := (halfEven_spec (x / 2 ^ ulpExponent format x)).left
  have hscale : x - nearest format x
      = (x / 2 ^ ulpExponent format x - halfEven (x / 2 ^ ulpExponent format x))
        * 2 ^ ulpExponent format x := by
    rw [sub_mul, div_mul_cancel₀ _ (ne_of_gt hpos)]
    rfl
  rw [hscale, abs_mul, abs_of_pos hpos]
  calc
    _ ≤ 1 / 2 * (2 : K) ^ ulpExponent format x := by
      apply mul_le_mul_of_nonneg_right hle (le_of_lt hpos)
    _ = _ := by ring

theorem ulpExponent_le {z : ℤ} (hz : 0 < z) (h : |x| < 2 ^ z)
    : ulpExponent format x ≤ max (z - format.precision) format.minExponent := by
  have hlog : Int.log 2 |x| < z := by
    cases eq_or_lt_of_le (abs_nonneg x) with
    | inl hzero =>
      rw [← hzero, Int.log_zero_right]
      exact hz
    | inr hpos =>
      rw [← Int.lt_zpow_iff_log_lt (by decide) hpos]
      exact_mod_cast h
  apply max_le_max _ (le_refl _)
  apply sub_le_sub_right hlog

theorem abs_sub_nearest_le_of_lt {z : ℤ} (hz : 0 < z) (h : |x| < 2 ^ z)
    : |x - nearest format x| ≤ 2 ^ max (z - format.precision) format.minExponent / 2 := by
  apply le_trans (abs_sub_nearest_le format x)
  apply div_le_div_of_nonneg_right _ two_pos.le
  apply zpow_le_zpow_right₀ one_le_two
  apply ulpExponent_le format hz h

variable {format} in
theorem nearest_lt_nearest {e : ℤ} (hx : ulpExponent format x ≤ e) (hy : ulpExponent format y ≤ e)
    (h : x + 2 ^ e < y) : nearest format x < nearest format y := by
  have hulp : ∀ z : K, ulpExponent format z ≤ e → |z - nearest format z| ≤ 2 ^ e / 2 := by
    intro z hz
    apply le_trans (abs_sub_nearest_le format z)
    apply div_le_div_of_nonneg_right _ two_pos.le
    apply zpow_le_zpow_right₀ one_le_two hz
  obtain ⟨hx', _⟩ := abs_le.mp (hulp x hx)
  obtain ⟨_, hy'⟩ := abs_le.mp (hulp y hy)
  linarith

theorem nearest_neg (x : K) : nearest format (-x) = -nearest format x := by
  have hulp : ulpExponent format (-x) = ulpExponent format x := by
    unfold ulpExponent
    rw [abs_neg]
  unfold nearest
  rw [hulp, neg_div, halfEven_neg, Int.cast_neg, neg_mul]

omit [FloorRing K] in
theorem zpow_eq_mul {z e : ℤ} (h : e ≤ z) : (2 : K) ^ z = ((2 ^ (z - e).toNat : ℤ) : K) * 2 ^ e := by
  have hz : ((z - e).toNat : ℤ) = z - e := Int.toNat_of_nonneg (sub_nonneg.mpr h)
  rw [Int.cast_pow, Int.cast_ofNat, ← zpow_natCast, hz, ← zpow_add₀ two_ne_zero, sub_add_cancel]

variable {format} in
theorem nearest_le_zpow {z : ℤ} (hz : ulpExponent format x ≤ z) (h : x ≤ 2 ^ z)
    : nearest format x ≤ 2 ^ z := by
  have hpos : (0 : K) < 2 ^ ulpExponent format x := zpow_pos two_pos _
  unfold nearest
  rw [zpow_eq_mul hz] at h ⊢
  apply mul_le_mul_of_nonneg_right _ (le_of_lt hpos)
  rw [Int.cast_le, ← halfEven_intCast (K := K) (2 ^ (z - ulpExponent format x).toNat)]
  apply halfEven_mono
  rwa [div_le_iff₀ hpos]

variable {format} in
theorem zpow_le_nearest {z : ℤ} (hz : ulpExponent format x ≤ z) (h : 2 ^ z ≤ x)
    : 2 ^ z ≤ nearest format x := by
  have hpos : (0 : K) < 2 ^ ulpExponent format x := zpow_pos two_pos _
  unfold nearest
  rw [zpow_eq_mul hz] at h ⊢
  apply mul_le_mul_of_nonneg_right _ (le_of_lt hpos)
  rw [Int.cast_le, ← halfEven_intCast (K := K) (2 ^ (z - ulpExponent format x).toNat)]
  apply halfEven_mono
  rwa [le_div_iff₀ hpos]

theorem nearest_mono_of_pos (hx : 0 < x) (h : x ≤ y) : nearest format x ≤ nearest format y := by
  have hy : 0 < y := lt_of_lt_of_le hx h
  have hlog : Int.log 2 |x| ≤ Int.log 2 |y| := by
    rw [abs_of_pos hx, abs_of_pos hy]
    apply Int.log_mono_right hx h
  have hexp : ulpExponent format x ≤ ulpExponent format y := by
    unfold ulpExponent
    omega
  cases Int.lt_or_eq_of_le hexp with
  | inl hlt =>
    -- Then `y` is at least a power of two that is above `x`.
    have hpos := format.precision_pos
    have hy' : ulpExponent format y ≤ Int.log 2 |y| ∧ Int.log 2 |x| < Int.log 2 |y| := by
      unfold ulpExponent at hlt ⊢
      omega
    rw [abs_of_pos hx, abs_of_pos hy] at hy'
    calc
      nearest format x ≤ 2 ^ Int.log 2 y := by
        apply nearest_le_zpow
        . omega
        . apply le_of_lt
          have := (Int.lt_zpow_iff_log_lt (R := K) (b := 2) (by decide) hx).mpr hy'.right
          simpa using this
      _ ≤ nearest format y := by
        apply zpow_le_nearest hy'.left
        have := Int.zpow_log_le_self (R := K) (b := 2) (by decide) hy
        simpa using this
  | inr heq =>
    have hpos : (0 : K) < 2 ^ ulpExponent format y := zpow_pos two_pos _
    unfold nearest
    rw [heq]
    apply mul_le_mul_of_nonneg_right _ (le_of_lt hpos)
    rw [Int.cast_le]
    apply halfEven_mono
    apply div_le_div_of_nonneg_right h (le_of_lt hpos)

@[simp]
theorem nearest_zero : nearest format (0 : K) = 0 := by
  have hzero : halfEven (0 : K) = 0 := by simpa using halfEven_intCast (K := K) 0
  unfold nearest
  rw [zero_div, hzero, Int.cast_zero, zero_mul]

theorem nearest_nonneg (h : 0 ≤ x) : 0 ≤ nearest format x := by
  have hpos : (0 : K) < 2 ^ ulpExponent format x := zpow_pos two_pos _
  have hzero : halfEven (0 : K) = 0 := by simpa using halfEven_intCast (K := K) 0
  have hle : halfEven (0 : K) ≤ halfEven (x / 2 ^ ulpExponent format x) := by
    apply halfEven_mono
    apply div_nonneg h (le_of_lt hpos)
  rw [hzero] at hle
  unfold nearest
  apply mul_nonneg _ (le_of_lt hpos)
  exact_mod_cast hle

theorem nearest_mono : Monotone (nearest format : K → K) := by
  intro x y h
  rcases lt_trichotomy x 0 with hx | hx | hx
  . cases lt_or_ge y 0 with
    | inl hy =>
      have := nearest_mono_of_pos format (neg_pos.mpr hy) (neg_le_neg h)
      rw [nearest_neg, nearest_neg] at this
      apply neg_le_neg_iff.mp this
    | inr hy =>
      have := nearest_nonneg format (le_of_lt (neg_pos.mpr hx))
      rw [nearest_neg] at this
      apply le_trans (neg_nonneg.mp this) (nearest_nonneg format hy)
  . rw [hx, nearest_zero]
    apply nearest_nonneg format (hx ▸ h)
  . apply nearest_mono_of_pos format hx h

theorem abs_nearest (x : K) : |nearest format x| = nearest format |x| := by
  have hnonneg := nearest_nonneg format (abs_nonneg x)
  cases abs_choice x with
  | inl heq =>
    rw [heq] at hnonneg ⊢
    apply abs_of_nonneg hnonneg
  | inr heq =>
    rw [heq, nearest_neg] at hnonneg ⊢
    apply abs_of_nonpos (neg_nonneg.mp hnonneg)

variable {format} in
theorem nearest_eq_self {m e : ℤ} (h : ulpExponent format ((m : K) * 2 ^ e) ≤ e)
    : nearest format ((m : K) * 2 ^ e) = m * 2 ^ e := by
  unfold nearest
  generalize ulpExponent format ((m : K) * 2 ^ e) = u at *
  have hne : (2 : K) ^ u ≠ 0 := zpow_ne_zero u two_ne_zero
  have hdiv : (m : K) * 2 ^ e / 2 ^ u = ((m * 2 ^ (e - u).toNat : ℤ) : K) := by
    rw [zpow_eq_mul h, ← mul_assoc, mul_div_cancel_right₀ _ hne, ← Int.cast_mul]
  rw [hdiv, halfEven_intCast, ← hdiv, div_mul_cancel₀ _ hne]

variable {format} in
theorem exists_eq_mul_zpow (h : nearest format x = x) {e : ℤ} (he : e ≤ ulpExponent format x)
    : ∃ n : ℤ, x = n * 2 ^ e := by
  unfold nearest at h
  refine ⟨halfEven (x / 2 ^ ulpExponent format x) * 2 ^ (ulpExponent format x - e).toNat, ?_⟩
  rw [Int.cast_mul, mul_assoc, ← zpow_eq_mul he]
  exact h.symm

theorem le_ulpExponent {z : ℤ} (h : 2 ^ z ≤ |x|) : z + 1 - format.precision ≤ ulpExponent format x := by
  have hpos : 0 < |x| := lt_of_lt_of_le (zpow_pos two_pos z) h
  have hlog : z ≤ Int.log 2 |x| := by
    apply (Int.zpow_le_iff_le_log (by decide) hpos).mp
    simpa using h
  unfold ulpExponent
  omega

theorem nearest_intCast {n : ℤ} {z : ℤ} (hz : 0 < z) (hprecision : z ≤ format.precision)
    (hexponent : format.minExponent ≤ 0) (h : |(n : K)| < 2 ^ z) : nearest format (n : K) = n := by
  have hulp := ulpExponent_le format hz h
  have hself : ulpExponent format ((n : K) * 2 ^ (0 : ℤ)) ≤ 0
      → nearest format ((n : K) * 2 ^ (0 : ℤ)) = n * 2 ^ (0 : ℤ) := nearest_eq_self
  simp only [zpow_zero, mul_one] at hself
  apply hself
  omega

variable {format} in
theorem nearest_zpow {e : ℤ} (he : format.minExponent ≤ e) : nearest format ((2 : K) ^ e) = 2 ^ e := by
  have hself : ulpExponent format (((1 : ℤ) : K) * 2 ^ e) ≤ e
      → nearest format (((1 : ℤ) : K) * 2 ^ e) = (1 : ℤ) * 2 ^ e := nearest_eq_self
  rw [Int.cast_one, one_mul] at hself
  apply hself
  have hpos : (0 : K) < 2 ^ e := zpow_pos two_pos _
  have hlog : Int.log 2 ((2 : K) ^ e) = e := by
    have := Int.log_zpow (R := K) (b := 2) (by decide) e
    simpa using this
  have hprecision := format.precision_pos
  unfold ulpExponent
  rw [abs_of_pos hpos, hlog]
  omega

@[simp]
theorem nearest_nearest (x : K) : nearest format (nearest format x) = nearest format x := by
  generalize hy : nearest format x = y
  by_cases hzero : y = 0
  . rw [hzero, nearest_zero]
  by_cases hulp : ulpExponent format y ≤ ulpExponent format x
  . have hself : y = (halfEven (x / 2 ^ ulpExponent format x) : ℤ) * 2 ^ ulpExponent format x := hy.symm
    rw [hself] at hulp ⊢
    apply nearest_eq_self hulp
  . -- rounding has gone up to a power of two
    have hmin : format.minExponent ≤ ulpExponent format x := le_max_right _ _
    have hlog : ulpExponent format x + format.precision ≤ Int.log 2 |y| := by
      unfold ulpExponent at hulp ⊢
      omega
    have hge : (2 : K) ^ (ulpExponent format x + format.precision : ℤ) ≤ |y| := by
      have := (Int.zpow_le_iff_le_log (R := K) (b := 2) (by decide) (abs_pos.mpr hzero)).mpr hlog
      simpa using this
    have hle : |y| ≤ 2 ^ (ulpExponent format x + format.precision : ℤ) := by
      rw [← hy, abs_nearest]
      apply nearest_le_zpow
      . unfold ulpExponent
        rw [abs_abs]
        omega
      . have hlt := Int.lt_zpow_succ_log_self (R := K) (b := 2) (by decide) |x|
        apply le_trans (le_of_lt (by simpa using hlt))
        apply zpow_le_zpow_right₀ one_le_two
        unfold ulpExponent
        omega
    have heq : nearest format ((2 : K) ^ (ulpExponent format x + format.precision : ℤ))
        = 2 ^ (ulpExponent format x + format.precision : ℤ) := nearest_zpow (by omega)
    rw [← le_antisymm hle hge] at heq
    cases abs_choice y with
    | inl habs => rwa [habs] at heq
    | inr habs =>
      rw [habs, nearest_neg] at heq
      apply neg_inj.mp heq

end

end Rounding
