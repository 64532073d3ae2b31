import Mathlib.Data.List.Dedup

/-!
A list that keeps the most recently used of its entries, the latest one last, against the history of all
uses.
-/

namespace Lru

variable {α : Type} [DecidableEq α]

/-- The last `max` of the distinct entries of a history, in the order of their last uses. -/
def latest (max : Nat) (history : List α) : List α :=
  history.dedup.drop (history.dedup.length - max)

/-- Put an entry last. One that is new may be too many; then the first entry goes. -/
def touch (max : Nat) (xs : List α) (a : α) : List α :=
  if a ∈ xs then
    xs.erase a ++ [a]
  else if max < xs.length + 1 then
    (xs ++ [a]).drop 1
  else
    xs ++ [a]

theorem latest_nil (max : Nat) : latest max ([] : List α) = [] := by
  simp [latest]

theorem length_latest (max : Nat) (history : List α)
    : (latest max history).length = min max history.dedup.length := by
  unfold latest
  rw [List.length_drop]
  omega

theorem latest_subset {max : Nat} {history : List α} {a : α} (h : a ∈ latest max history)
    : a ∈ history :=
  List.mem_dedup.mp (List.mem_of_mem_drop h)

theorem dedup_concat (history : List α) (a : α)
    : (history ++ [a]).dedup = history.dedup.erase a ++ [a] := by
  induction history with
  | nil => simp
  | cons b history ih =>
    rw [List.cons_append]
    by_cases hba : b = a
    . subst hba
      rw [List.dedup_cons_of_mem (by simp), ih]
      by_cases hmem : b ∈ history
      . rw [List.dedup_cons_of_mem hmem]
      . rw [List.dedup_cons_of_notMem hmem, List.erase_cons_head,
          List.erase_of_not_mem (by simpa using hmem)]
    . by_cases hmem : b ∈ history
      . rw [List.dedup_cons_of_mem (by simp [hmem]), ih, List.dedup_cons_of_mem hmem]
      . rw [List.dedup_cons_of_notMem (by simp [hmem, hba]), ih, List.dedup_cons_of_notMem hmem,
          List.erase_cons_tail (by simpa using hba), List.cons_append]

section

-- the distinct entries of a history: those that were dropped, and those that are kept
variable {max : Nat} {dropped kept : List α} {a : α}

theorem touch_of_kept (hnodup : (dropped ++ kept).Nodup) (hkept : a ∈ kept)
    (hlen : dropped.length = (dropped ++ kept).length - max)
    : touch max kept a
        =
      ((dropped ++ kept).erase a ++ [a]).drop
        (((dropped ++ kept).erase a ++ [a]).length - max) := by
  have hdropped : a ∉ dropped :=
    fun hmem => (List.nodup_append.mp hnodup).right.right a hmem a hkept rfl
  have hone := List.length_erase_of_mem hkept
  have hpos := List.length_pos_of_mem hkept
  rw [List.length_append] at hlen
  rw [touch, if_pos hkept, List.erase_append_right _ hdropped, List.append_assoc,
    List.length_append, List.length_append, List.length_singleton, hone]
  have : dropped.length + (kept.length - 1 + 1) - max = dropped.length := by omega
  rw [this, List.drop_left]

theorem touch_of_dropped (hdropped : a ∈ dropped) (hkept : a ∉ kept)
    (hlen : dropped.length = (dropped ++ kept).length - max)
    : touch max kept a
        =
      ((dropped ++ kept).erase a ++ [a]).drop
        (((dropped ++ kept).erase a ++ [a]).length - max) := by
  have hone := List.length_erase_of_mem hdropped
  have hpos := List.length_pos_of_mem hdropped
  rw [List.length_append] at hlen
  rw [touch, if_neg hkept, if_pos (by omega), List.erase_append_left _ hdropped, List.append_assoc,
    List.length_append, hone, List.length_append, List.length_singleton]
  have : dropped.length - 1 + (kept.length + 1) - max = (dropped.erase a).length + 1 := by omega
  rw [this, ← List.drop_drop, List.drop_left]

theorem touch_of_new (hdropped : a ∉ dropped) (hkept : a ∉ kept)
    (hlen : dropped.length = (dropped ++ kept).length - max)
    : touch max kept a
        =
      ((dropped ++ kept).erase a ++ [a]).drop
        (((dropped ++ kept).erase a ++ [a]).length - max) := by
  have hmem : a ∉ dropped ++ kept := by simp [hdropped, hkept]
  rw [List.length_append] at hlen
  rw [touch, if_neg hkept, List.erase_of_not_mem hmem, List.append_assoc, List.length_append,
    List.length_append, List.length_singleton]
  split
  . have : dropped.length + (kept.length + 1) - max = dropped.length + 1 := by omega
    rw [this, ← List.drop_drop, List.drop_left]
  . have : dropped.length + (kept.length + 1) - max = 0 := by omega
    have hnil : dropped = [] := List.eq_nil_of_length_eq_zero (by omega)
    rw [this, hnil]
    rfl

end

theorem touch_latest (max : Nat) (history : List α) (a : α)
    : touch max (latest max history) a = latest max (history ++ [a]) := by
  have hnodup : history.dedup.Nodup := List.nodup_dedup history
  unfold latest
  rw [dedup_concat]
  generalize history.dedup = xs at *
  obtain ⟨dropped, hdropped⟩ : ∃ dropped, dropped = xs.take (xs.length - max) := ⟨_, rfl⟩
  obtain ⟨kept, hkept⟩ : ∃ kept, kept = xs.drop (xs.length - max) := ⟨_, rfl⟩
  have hxs : xs = dropped ++ kept := by
    rw [hdropped, hkept, List.take_append_drop]
  have hlen : dropped.length = (dropped ++ kept).length - max := by
    rw [← hxs, hdropped, List.length_take]
    omega
  rw [← hkept]
  rw [hxs] at hnodup ⊢
  by_cases hmem : a ∈ kept
  . exact touch_of_kept hnodup hmem hlen
  . by_cases hmem' : a ∈ dropped
    . exact touch_of_dropped hmem' hmem hlen
    . exact touch_of_new hmem' hmem hlen

theorem map_eraseP {β : Type} {f : β → α} {p : β → Bool} {b : α} {xs : List β}
    (h : ∀ x ∈ xs, p x = true ↔ f x = b) : (xs.eraseP p).map f = (xs.map f).erase b := by
  induction xs with
  | nil => rfl
  | cons x xs ih =>
    obtain ⟨hx, hxs⟩ := List.forall_mem_cons.mp h
    rw [List.map_cons, List.eraseP_cons, List.erase_cons]
    by_cases hb : f x = b
    . simp [hb, hx.mpr hb]
    . have hp : ¬ p x = true := fun heq => hb (hx.mp heq)
      simp [hb, hp, ih hxs]

end Lru
