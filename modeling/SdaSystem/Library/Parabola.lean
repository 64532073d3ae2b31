import Mathlib.Algebra.Order.Field.Basic
import Mathlib.Tactic.FieldSimp
import Mathlib.Tactic.Linarith
import Mathlib.Tactic.Positivity
import Mathlib.Tactic.Ring

/-!
Concave quadratic functions, and their vertex in terms of three equally spaced samples. The vertex is
less than a step from the middle sample if this is the largest of the three.
-/

structure Parabola (K : Type) [Field K] [LinearOrder K] where
  a : K
  b : K
  c : K
  concave : a < 0

namespace Parabola

section offset

variable {K : Type} [Field K]

def offset (l m r : K) : K :=
  -(r - l) / (((l - m) + (r - m)) + ((l - m) + (r - m)))

theorem offset_eq (l m r : K) : offset l m r = -(r - l) / (2 * (l - 2 * m + r)) := by
  unfold offset
  congr 1
  ring

theorem offset_eq_falls (l m r : K)
    : offset l m r = ((m - l) - (m - r)) / (2 * ((m - l) + (m - r))) := by
  rw [offset_eq, ← neg_div_neg_eq]
  congr 1 <;> ring

variable [LinearOrder K] [IsStrictOrderedRing K] {l m r : K}

theorem abs_offset_le (hl : l ≤ m) (hr : r ≤ m) : |offset l m r| ≤ 1 / 2 := by
  have hsum : 0 ≤ 2 * ((m - l) + (m - r)) := by linarith
  have habs : |(m - l) - (m - r)| ≤ (m - l) + (m - r) := by
    rw [abs_le]
    constructor <;> linarith
  rw [offset_eq_falls, abs_div, abs_of_nonneg hsum]
  apply div_le_of_le_mul₀ hsum (by norm_num)
  linarith

end offset

variable {K : Type} [Field K] [LinearOrder K] (f : Parabola K)

def eval (t : K) : K :=
  f.a * t ^ 2 + f.b * t + f.c

def vertex : K :=
  -f.b / (f.a + f.a)

theorem vertex_eq : f.vertex = -f.b / (2 * f.a) := by
  rw [vertex, two_mul]

theorem second_difference (t s : K)
    : f.eval (t - s) - 2 * f.eval t + f.eval (t + s) = 2 * f.a * s ^ 2 := by
  unfold eval
  ring

theorem difference (t s : K) : f.eval (t + s) - f.eval (t - s) = 2 * s * (2 * f.a * t + f.b) := by
  unfold eval
  ring

variable [IsStrictOrderedRing K]

theorem eval_eq (t : K) : f.eval t = f.eval f.vertex + f.a * (t - f.vertex) ^ 2 := by
  have ha := ne_of_lt f.concave
  rw [vertex_eq]
  unfold eval
  field_simp
  ring

theorem eval_le_eval_vertex (t : K) : f.eval t ≤ f.eval f.vertex := by
  rw [f.eval_eq t, add_le_iff_nonpos_right]
  apply mul_nonpos_of_nonpos_of_nonneg (le_of_lt f.concave)
  positivity

section samples

variable (t : K) {s : K} (hs : s ≠ 0)

include hs

theorem add_offset_eq_vertex
    : t + offset (f.eval (t - s)) (f.eval t) (f.eval (t + s)) * s = f.vertex := by
  have ha := ne_of_lt f.concave
  rw [offset_eq, vertex_eq, second_difference, difference]
  field_simp
  ring

theorem eval_vertex_eq
    : f.eval f.vertex = f.eval t
        - (f.eval (t + s) - f.eval (t - s)) ^ 2
          / (8 * (f.eval (t - s) - 2 * f.eval t + f.eval (t + s))) := by
  have ha := ne_of_lt f.concave
  rw [second_difference, difference, vertex_eq]
  unfold eval
  field_simp
  ring

end samples

end Parabola
