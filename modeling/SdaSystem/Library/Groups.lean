import Mathlib.Data.List.Dedup
import Mathlib.Data.List.Nodup

/-!
Grouping a list by a key, the way a Python `dict` filled with `setdefault(key, []).append(x)` does.
-/

def groupKeys [DecidableEq κ] (key : α → κ) (xs : List α) : List κ :=
  (xs.map key).reverse.dedup.reverse

def group [DecidableEq κ] (key : α → κ) (xs : List α) (k : κ) : List α :=
  xs.filter fun x => key x = k

variable [DecidableEq κ] (key : α → κ) (xs : List α)

theorem nodup_groupKeys : (groupKeys key xs).Nodup := by
  unfold groupKeys
  rw [List.nodup_reverse]
  apply List.nodup_dedup

@[simp]
theorem mem_groupKeys {k : κ} : k ∈ groupKeys key xs ↔ ∃ x ∈ xs, key x = k := by
  simp [groupKeys]

@[simp]
theorem mem_group {k : κ} {x : α} : x ∈ group key xs k ↔ x ∈ xs ∧ key x = k := by
  simp [group]

theorem forall_group_pairwise_iff {r : α → α → Prop}
    : (∀ k ∈ groupKeys key xs, (group key xs k).Pairwise r)
        ↔
      xs.Pairwise fun x y => key x = key y → r x y := by
  unfold group
  simp only [List.pairwise_filter, decide_eq_true_eq, mem_groupKeys, forall_exists_index, and_imp]
  constructor
  . intro h
    rw [List.pairwise_iff_getElem]
    intro i j hi hj hij hkey
    have := List.pairwise_iff_getElem.mp (h (key xs[i]) xs[i] (List.getElem_mem hi) rfl)
    apply this i j hi hj hij rfl hkey.symm
  . intro h k x hx hk
    apply h.imp
    intro y z hr hy hz
    apply hr
    rw [hy, hz]
