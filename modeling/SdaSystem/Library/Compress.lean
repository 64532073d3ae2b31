import Mathlib.Data.List.GetD
import Mathlib.Data.List.Basic
import Mathlib.Order.Lattice

/-!
The entries of a list at the places where a mask is set, as an array indexed by booleans gives them,
and where an entry that is left out stands among those that are kept.
-/

universe u v

variable {α : Type u} {β : Type v}

def compress (xs : List α) (mask : List Bool) : List α :=
  ((xs.zip mask).filter (·.2)).map (·.1)

def rankBefore (mask : List Bool) (j : Nat) : Nat :=
  (mask.take j).count true

theorem compress_append {xs ys : List α} {mask mask' : List Bool} (hlen : xs.length = mask.length)
    : compress (xs ++ ys) (mask ++ mask') = compress xs mask ++ compress ys mask' := by
  unfold compress
  rw [List.zip_append hlen, List.filter_append, List.map_append]

@[simp]
theorem compress_cons (x : α) (xs : List α) (b : Bool) (mask : List Bool)
    : compress (x :: xs) (b :: mask)
        =
      if b then x :: compress xs mask else compress xs mask := by
  cases b <;> rfl

theorem compress_map (xs : List β) (f : β → α) (kept : β → Bool)
    : compress (xs.map f) (xs.map kept) = (xs.filter kept).map f := by
  induction xs with
  | nil => rfl
  | cons x xs ih =>
    rw [List.map_cons, List.map_cons, compress_cons, ih, List.filter_cons]
    split <;> rfl

theorem length_compress {xs : List α} {mask : List Bool} (hlen : xs.length = mask.length)
    : (compress xs mask).length = mask.count true := by
  induction xs generalizing mask with
  | nil =>
    have : mask = [] := List.eq_nil_of_length_eq_zero hlen.symm
    simp [this, compress]
  | cons x xs ih =>
    cases mask with
    | nil => simp at hlen
    | cons b mask =>
      have := ih (Nat.succ.inj hlen)
      cases b <;> simp [this]

theorem compress_sublist (xs : List α) (mask : List Bool) : (compress xs mask).Sublist xs := by
  induction xs generalizing mask with
  | nil => simp [compress]
  | cons x xs ih =>
    cases mask with
    | nil => simp [compress]
    | cons b mask =>
      rw [compress_cons]
      split
      . apply (ih mask).cons_cons
      . apply (ih mask).cons

section

variable {xs : List α} {mask : List Bool} {j : Nat} {x : α}

theorem eq_take_cons_drop (hx : xs[j]? = some x) : xs = xs.take j ++ x :: xs.drop (j + 1) := by
  rw [← (List.getElem?_eq_some_iff.mp hx).choose_spec, List.getElem_cons_drop, List.take_append_drop]

theorem compress_split (hlen : xs.length = mask.length) (hx : xs[j]? = some x)
    (hmask : mask[j]? = some false)
    : compress xs mask
        =
      compress (xs.take j) (mask.take j) ++ compress (xs.drop (j + 1)) (mask.drop (j + 1)) := by
  conv => lhs; rw [eq_take_cons_drop hx, eq_take_cons_drop hmask]
  rw [compress_append (by simp [hlen]), compress_cons]
  rfl

theorem getD_compress_lt_iff [LinearOrder α] (hsorted : xs.Pairwise (· < ·)) (hlen : xs.length = mask.length)
    (hx : xs[j]? = some x) (hmask : mask[j]? = some false) {i : Nat}
    (hi : i < (compress xs mask).length) (d : α)
    : ((compress xs mask).getD i d < x ↔ i < rankBefore mask j)
        ∧
      (x < (compress xs mask).getD i d ↔ rankBefore mask j ≤ i) := by
  rw [eq_take_cons_drop hx, List.pairwise_append, List.pairwise_cons] at hsorted
  obtain ⟨_, ⟨hafter, _⟩, hbefore⟩ := hsorted
  have hrank : (compress (xs.take j) (mask.take j)).length = rankBefore mask j :=
    length_compress (by simp [hlen])
  have hsplit := compress_split hlen hx hmask
  rw [List.getD_eq_getElem _ _ hi]
  by_cases hik : i < rankBefore mask j
  . have hlt : (compress xs mask)[i] < x := by
      apply hbefore _ _ x (by simp)
      apply (compress_sublist (xs.take j) (mask.take j)).subset
      simp only [hsplit]
      rw [List.getElem_append_left (by omega)]
      apply List.getElem_mem
    simp [hlt, hik, not_lt_of_gt hlt]
  . have hgt : x < (compress xs mask)[i] := by
      apply hafter
      apply (compress_sublist (xs.drop (j + 1)) (mask.drop (j + 1))).subset
      simp only [hsplit]
      rw [List.getElem_append_right (by omega)]
      apply List.getElem_mem
    simp [hgt, hik, not_lt_of_gt hgt, Nat.not_lt.mp hik]

end
