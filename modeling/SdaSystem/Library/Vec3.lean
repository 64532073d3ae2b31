import Mathlib.Data.Matrix.Mul
import Mathlib.LinearAlgebra.Matrix.Notation
import Mathlib.Tactic.Ring

namespace Vec3

variable {K : Type}

def x (v : Fin 3 → K) : K := v 0

def y (v : Fin 3 → K) : K := v 1

def z (v : Fin 3 → K) : K := v 2

variable (a b c : K)

@[simp]
theorem x_mk : x ![a, b, c] = a := rfl

@[simp]
theorem y_mk : y ![a, b, c] = b := rfl

@[simp]
theorem z_mk : z ![a, b, c] = c := rfl

theorem ext {v w : Fin 3 → K} (hx : x v = x w) (hy : y v = y w) (hz : z v = z w) : v = w := by
  funext i
  match i with
  | 0 => exact hx
  | 1 => exact hy
  | 2 => exact hz

section

variable [Field K] (v w : Fin 3 → K)

@[simp]
theorem x_sub : x (v - w) = x v - x w := rfl

@[simp]
theorem y_sub : y (v - w) = y v - y w := rfl

@[simp]
theorem z_sub : z (v - w) = z v - z w := rfl

@[simp]
theorem x_smul (r : K) : x (r • v) = r * x v := rfl

@[simp]
theorem y_smul (r : K) : y (r • v) = r * y v := rfl

@[simp]
theorem z_smul (r : K) : z (r • v) = r * z v := rfl

theorem dotProduct_eq : dotProduct v w = x v * x w + y v * y w + z v * z w := Fin.sum_univ_three _

theorem dotProduct_self : dotProduct v v = x v ^ 2 + y v ^ 2 + z v ^ 2 := by
  rw [dotProduct_eq]
  ring

end

end Vec3
