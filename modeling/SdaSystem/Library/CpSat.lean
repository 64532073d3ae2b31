import Mathlib.Algebra.BigOperators.Group.List.Basic
import Mathlib.Algebra.Order.Ring.Int

/-!
The part of the CP-SAT modelling language that is needed to pose interval selection problems:
Boolean variables, optional intervals with fixed bounds, and a linear objective to maximise. A solver
is not modelled; an assignment is judged by the constraints and the objective alone.
-/

namespace CpSat

structure OptionalInterval (ν : Type) where
  start : Int
  duration : Int
  stop : Int
  presence : ν
  deriving DecidableEq

inductive Constraint (ν : Type) where
  | interval (iv : OptionalInterval ν)
  | noOverlap (ivs : List (OptionalInterval ν))
  | atMostOne (literals : List ν)
  | maxEquality (target : ν) (literals : List ν)
  deriving DecidableEq

structure CpModel (ν : Type) where
  constraints : List (Constraint ν)
  objective : List (ν × Int)
  deriving DecidableEq

abbrev Assignment (ν : Type) := ν → Bool

variable {ν : Type}

def Constraint.Holds (a : Assignment ν) : Constraint ν → Prop
  | .interval iv => a iv.presence → iv.start + iv.duration = iv.stop
  | .noOverlap ivs =>
    ivs.Pairwise fun v w => a v.presence → a w.presence → v.stop ≤ w.start ∨ w.stop ≤ v.start
  | .atMostOne literals => literals.Pairwise fun x y => ¬ (a x ∧ a y)
  | .maxEquality target literals => a target = literals.any a

section

variable (a : Assignment ν)

@[simp]
theorem holds_interval {iv : OptionalInterval ν}
    : (Constraint.interval iv).Holds a ↔ (a iv.presence → iv.start + iv.duration = iv.stop) :=
  Iff.rfl

@[simp]
theorem holds_noOverlap {ivs : List (OptionalInterval ν)}
    : (Constraint.noOverlap ivs).Holds a
        ↔
      ivs.Pairwise fun v w => a v.presence → a w.presence → v.stop ≤ w.start ∨ w.stop ≤ v.start :=
  Iff.rfl

@[simp]
theorem holds_atMostOne {literals : List ν}
    : (Constraint.atMostOne literals).Holds a ↔ literals.Pairwise fun x y => ¬ (a x ∧ a y) :=
  Iff.rfl

@[simp]
theorem holds_maxEquality {target : ν} {literals : List ν}
    : (Constraint.maxEquality target literals).Holds a ↔ a target = literals.any a :=
  Iff.rfl

end

instance (a : Assignment ν) : DecidablePred (Constraint.Holds a) := fun c =>
  match c with
  | .interval iv => inferInstanceAs (Decidable (a iv.presence → _ = _))
  | .noOverlap ivs => inferInstanceAs (Decidable (ivs.Pairwise _))
  | .atMostOne literals => inferInstanceAs (Decidable (literals.Pairwise _))
  | .maxEquality target literals => inferInstanceAs (Decidable (a target = literals.any a))

namespace CpModel

def Feasible (model : CpModel ν) (a : Assignment ν) : Prop :=
  ∀ c ∈ model.constraints, c.Holds a

instance (model : CpModel ν) : DecidablePred model.Feasible := fun a =>
  inferInstanceAs (Decidable (∀ c ∈ model.constraints, c.Holds a))

def value (model : CpModel ν) (a : Assignment ν) : Int :=
  (model.objective.map fun term => if a term.1 then term.2 else 0).sum

structure Optimal (model : CpModel ν) (a : Assignment ν) : Prop where
  feasible : model.Feasible a
  value_le : ∀ b, model.Feasible b → model.value b ≤ model.value a

/-- What is assumed of a solver: an assignment that it returns satisfies the constraints posted. -/
def Sound (solver : CpModel ν → Option (Assignment ν)) : Prop :=
  ∀ model a, solver model = some a → model.Feasible a

def SolvedBy (model : CpModel ν) (solver : CpModel ν → Option (Assignment ν)) : Prop :=
  ∃ a, solver model = some a ∧ model.Optimal a

end CpModel

end CpSat
