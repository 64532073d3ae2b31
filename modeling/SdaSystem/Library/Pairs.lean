import Mathlib.Data.List.FinRange
import Mathlib.Data.Sym.Sym2

/-!
The unordered pairs of entries at different places of a list that are in a relation, each as often as
there are places for it.
-/

namespace Pairs

variable (r : α → α → Prop) [DecidableRel r]

def pairsAt (xs : List α) : List (Sym2 α) :=
  (List.finRange xs.length).flatMap fun i =>
    ((List.finRange xs.length).filter fun j => i < j ∧ r xs[i] xs[j]).map fun j => s(xs[i], xs[j])

def pairsOf (xs : List α) : List (Sym2 α) :=
  match xs with
  | [] => []
  | a :: rest => (rest.filter (r a ·)).map (s(a, ·)) ++ pairsOf rest

theorem pairsAt_eq (xs : List α) : pairsAt r xs = pairsOf r xs := by
  induction xs with
  | nil => rfl
  | cons a rest ih =>
    unfold pairsOf
    rw [← ih]
    unfold pairsAt
    have hfirst : ((List.finRange rest.length).filter fun j => r a rest[j]).map (fun j => s(a, rest[j]))
        = (rest.filter (r a ·)).map (s(a, ·)) := by
      conv => rhs; rw [← List.map_getElem_finRange rest]
      rw [List.filter_map, List.map_map]
      rfl
    have hplaces : List.finRange (a :: rest).length
        = (0 : Fin (rest.length + 1)) :: (List.finRange rest.length).map Fin.succ := by
      apply List.finRange_succ
    rw [← hfirst, hplaces, List.flatMap_cons, List.flatMap_map]
    simp [List.filter_map, Function.comp_def]

variable {r}

theorem pairsOf_perm (hsymm : ∀ a b, r a b → r b a) {xs ys : List α} (h : xs.Perm ys)
    : (pairsOf r xs).Perm (pairsOf r ys) := by
  induction h with
  | nil => apply List.Perm.nil
  | cons a h ih =>
    unfold pairsOf
    apply ((h.filter _).map _).append ih
  | swap a b rest =>
    have hiff : r b a ↔ r a b := ⟨hsymm b a, hsymm a b⟩
    unfold pairsOf pairsOf
    rw [List.filter_cons, List.filter_cons]
    simp only [hiff, decide_eq_true_eq]
    rw [← List.append_assoc, ← List.append_assoc]
    apply List.Perm.append_right
    split
    . rw [List.map_cons, List.map_cons, Sym2.eq_swap]
      apply (List.perm_append_comm.cons _)
    . apply List.perm_append_comm
  | trans _ _ ih ih' => apply ih.trans ih'

end Pairs
