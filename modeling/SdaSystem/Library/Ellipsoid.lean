import Mathlib.Algebra.Order.BigOperators.Group.Finset
import Mathlib.Algebra.Order.Field.Basic
import Mathlib.Data.Matrix.Mul
import Mathlib.Tactic.Linarith
import Mathlib.Tactic.Ring

/-!
Ellipsoids with the axes of coordinates as their axes, and which lines of sight they obstruct. An
ellipsoid is on one side of each of its tangent planes, so what is not below the horizon of a point is
seen from there; from a point of the surface nothing else is seen.
-/

namespace Ellipsoid

variable {ι K : Type} [Fintype ι] [Field K]

/-- The product of two vectors in which the ellipsoid with these semi-axes is the unit ball. -/
def form (axes v w : ι → K) : K :=
  ∑ i, v i * w i / axes i ^ 2

def normalAt (axes v : ι → K) : ι → K :=
  fun i => v i / axes i ^ 2

def On (axes v : ι → K) : Prop :=
  form axes v v = 1

def along (p q : ι → K) (t : K) : ι → K :=
  p + t • (q - p)

variable (axes : ι → K) (p q s v w : ι → K)

theorem form_eq_dotProduct : form axes v w = dotProduct v (normalAt axes w) := by
  unfold form normalAt dotProduct
  apply Finset.sum_congr rfl
  intro i _
  rw [mul_div_assoc]

theorem form_comm : form axes v w = form axes w v := by
  unfold form
  apply Finset.sum_congr rfl
  intro i _
  rw [mul_comm]

theorem form_add_left : form axes (v + w) s = form axes v s + form axes w s := by
  rw [form_eq_dotProduct, form_eq_dotProduct, form_eq_dotProduct, add_dotProduct]

theorem form_smul_left (c : K) : form axes (c • v) w = c * form axes v w := by
  rw [form_eq_dotProduct, form_eq_dotProduct, smul_dotProduct, smul_eq_mul]

theorem form_sub_left : form axes (v - w) s = form axes v s - form axes w s := by
  rw [form_eq_dotProduct, form_eq_dotProduct, form_eq_dotProduct, sub_dotProduct]

theorem form_along (t : K)
    : form axes (along p q t) s = form axes p s + t * (form axes q s - form axes p s) := by
  unfold along
  rw [form_add_left, form_smul_left, form_sub_left]

theorem form_sub_self
    : form axes (v - w) (v - w) = form axes v v - 2 * form axes v w + form axes w w := by
  rw [form_sub_left, form_comm axes v, form_comm axes w, form_sub_left, form_sub_left,
    form_comm axes w v]
  ring

variable [LinearOrder K] [IsStrictOrderedRing K]

def Inside (axes v : ι → K) : Prop :=
  form axes v v < 1

/-- Nothing of the ellipsoid is between the two points. -/
def Clear (axes p q : ι → K) : Prop :=
  ∀ t, 0 ≤ t → t ≤ 1 → ¬ Inside axes (along p q t)

theorem form_self_nonneg : 0 ≤ form axes v v := by
  apply Finset.sum_nonneg
  intro i _
  apply div_nonneg (mul_self_nonneg (v i)) (sq_nonneg (axes i))

variable {axes p q s v}

theorem not_inside_of_one_le (hs : On axes s) (h : 1 ≤ form axes v s) : ¬ Inside axes v := by
  have hnonneg := form_self_nonneg axes (v - s)
  rw [form_sub_self, hs] at hnonneg
  unfold Inside
  linarith

theorem clear_of_le (hs : On axes s) (hp : 1 ≤ form axes p s) (hpq : form axes p s ≤ form axes q s)
    : Clear axes p q := by
  intro t ht _
  apply not_inside_of_one_le hs
  rw [form_along]
  have hrise := mul_nonneg ht (sub_nonneg.mpr hpq)
  linarith

theorem exists_inside_of_lt (hs : On axes s) (h : form axes q s < 1)
    : ∃ t, 0 ≤ t ∧ t ≤ 1 ∧ Inside axes (along s q t) := by
  -- Along the line, the form is a square function of `t` that falls at 0.
  have hform : ∀ t, form axes (along s q t) (along s q t)
      = 1 - t * (2 * (1 - form axes q s) - t * form axes (q - s) (q - s)) := by
    intro t
    rw [form_along, form_comm axes s, form_comm axes q, form_along, form_along, form_sub_self, hs,
      form_comm axes s q]
    ring
  have hfall : 0 < 1 - form axes q s := sub_pos.mpr h
  have hcurve := form_self_nonneg axes (q - s)
  have hden : 0 < 1 - form axes q s + form axes (q - s) (q - s) := by linarith
  refine ⟨(1 - form axes q s) / (1 - form axes q s + form axes (q - s) (q - s)), ?_, ?_, ?_⟩
  . apply le_of_lt (div_pos hfall hden)
  . rw [div_le_one hden]
    linarith
  . unfold Inside
    rw [hform, sub_lt_self_iff]
    apply mul_pos (div_pos hfall hden)
    have hle : (1 - form axes q s) / (1 - form axes q s + form axes (q - s) (q - s))
        * form axes (q - s) (q - s) ≤ 1 - form axes q s := by
      rw [div_mul_eq_mul_div, div_le_iff₀ hden]
      apply mul_le_mul_of_nonneg_left _ (le_of_lt hfall)
      linarith
    linarith

theorem clear_iff_of_on (hs : On axes s) : Clear axes s q ↔ 1 ≤ form axes q s := by
  constructor
  . intro hclear
    by_contra h
    obtain ⟨t, ht, hle, hinside⟩ := exists_inside_of_lt hs (not_le.mp h)
    exact hclear t ht hle hinside
  . intro h
    apply clear_of_le hs (ge_of_eq hs)
    rw [hs]
    exact h

end Ellipsoid
