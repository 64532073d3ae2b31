import Mathlib.Algebra.Order.Group.Defs
import Mathlib.Data.List.Basic

/-!
Admission by a sliding window: a request is admitted if fewer than `limit` requests were admitted in
the window of length `width` that ends with it. No window of that length, wherever it ends, then
holds more than `limit` admitted requests.
-/

namespace SlidingWindow

variable [AddCommGroup τ] [LinearOrder τ]

def inWindow (width t : τ) (times : List τ) : List τ :=
  times.filter fun a => t - width < a ∧ a ≤ t

theorem inWindow_append (width t : τ) (times times' : List τ)
    : inWindow width t (times ++ times') = inWindow width t times ++ inWindow width t times' := by
  apply List.filter_append

theorem inWindow_length_mono {width t : τ} {times times' : List τ} (h : times.Sublist times')
    : (inWindow width t times).length ≤ (inWindow width t times').length := by
  apply List.Sublist.length_le
  apply h.filter

inductive Admitted (width : τ) (limit : Nat) : List τ → Prop where
  | nil : Admitted width limit []
  | snoc {times : List τ} {now : τ} (h : Admitted width limit times) (hpast : ∀ a ∈ times, a ≤ now)
      (hroom : (inWindow width now times).length < limit) : Admitted width limit (times ++ [now])

theorem Admitted.length_inWindow_le [IsOrderedAddMonoid τ] {width : τ} {limit : Nat} {times : List τ}
    (h : Admitted width limit times) (t : τ) : (inWindow width t times).length ≤ limit := by
  induction h with
  | nil => simp [inWindow]
  | @snoc times now h hpast hroom ih =>
    rw [inWindow_append, List.length_append]
    by_cases hin : t - width < now ∧ now ≤ t
    . -- what was admitted before `now` and is in the window of `t` is in the window of `now`
      have hle : (inWindow width t times).length ≤ (inWindow width now times).length := by
        unfold inWindow
        rw [← List.countP_eq_length_filter, ← List.countP_eq_length_filter]
        apply List.countP_mono_left
        intro a ha hwin
        simp only [decide_eq_true_eq] at hwin ⊢
        refine ⟨?_, hpast a ha⟩
        apply lt_of_le_of_lt _ hwin.left
        apply sub_le_sub_right hin.right
      have hone : (inWindow width t [now]).length ≤ 1 := by
        apply List.length_filter_le
      omega
    . have hnone : inWindow width t [now] = [] := by
        unfold inWindow
        simpa using hin
      rw [hnone]
      simpa using ih

end SlidingWindow
