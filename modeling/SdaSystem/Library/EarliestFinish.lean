import Mathlib.Data.List.Pairwise
import Mathlib.Order.Lattice

/-!
The selection of intervals by their ends: of a list in the order of the ends, every interval is taken
that begins no earlier than the last one taken ends. No selection has more intervals.
-/

namespace EarliestFinish

variable [LinearOrder τ] (start finish : α → τ)

def scan (last : τ) (xs : List α) : List α :=
  match xs with
  | [] => []
  | a :: rest => if last ≤ start a then a :: scan (finish a) rest else scan last rest

def Apart (a b : α) : Prop :=
  finish a ≤ start b ∨ finish b ≤ start a

variable {start finish} {last : τ} {xs : List α}

theorem Apart.symm {a b : α} (h : Apart start finish a b) : Apart start finish b a :=
  Or.symm h

theorem scan_sublist : (scan start finish last xs).Sublist xs := by
  induction xs generalizing last with
  | nil => apply List.Sublist.refl
  | cons a rest ih =>
    unfold scan
    split
    . apply ih.cons_cons
    . apply ih.cons

theorem le_start_of_mem_scan (hproper : ∀ a ∈ xs, start a < finish a) {b : α}
    (hb : b ∈ scan start finish last xs) : last ≤ start b := by
  induction xs generalizing last with
  | nil => simp [scan] at hb
  | cons a rest ih =>
    have hrest : ∀ a ∈ rest, start a < finish a := by
      intro c hc
      apply hproper c (List.mem_cons_of_mem a hc)
    unfold scan at hb
    split at hb
    . next hle =>
      cases List.mem_cons.mp hb with
      | inl heq => rwa [heq]
      | inr hb =>
        have := hproper a List.mem_cons_self
        apply le_trans (le_of_lt (lt_of_le_of_lt hle this))
        apply ih hrest hb
    . apply ih hrest hb

theorem pairwise_scan (hproper : ∀ a ∈ xs, start a < finish a)
    : (scan start finish last xs).Pairwise (Apart start finish) := by
  induction xs generalizing last with
  | nil => apply List.Pairwise.nil
  | cons a rest ih =>
    have hrest : ∀ a ∈ rest, start a < finish a := by
      intro c hc
      apply hproper c (List.mem_cons_of_mem a hc)
    unfold scan
    split
    . rw [List.pairwise_cons]
      refine ⟨?_, ih hrest⟩
      intro b hb
      apply Or.inl (le_start_of_mem_scan hrest hb)
    . apply ih hrest

/-- The greedy selection stays ahead: from wherever it goes on, it gets as many as anyone else. -/
theorem length_le_length_scan (hproper : ∀ a ∈ xs, start a < finish a)
    (hsorted : xs.Pairwise fun a b => finish a ≤ finish b) {ys : List α} (hsub : ys.Sublist xs)
    (hapart : ys.Pairwise (Apart start finish)) (hlast : ∀ b ∈ ys, last ≤ start b)
    : ys.length ≤ (scan start finish last xs).length := by
  induction xs generalizing last ys with
  | nil => simp [List.sublist_nil.mp hsub]
  | cons a rest ih =>
    have hrest : ∀ a ∈ rest, start a < finish a := by
      intro c hc
      apply hproper c (List.mem_cons_of_mem a hc)
    obtain ⟨hends, hsorted'⟩ := List.pairwise_cons.mp hsorted
    unfold scan
    cases ys with
    | nil => simp
    | cons b ys =>
      rw [List.pairwise_cons] at hapart
      -- Whichever interval comes first, it ends no earlier than `a`, and before the others begin.
      have hfirst : finish a ≤ finish b := by
        cases List.mem_cons.mp (hsub.subset List.mem_cons_self) with
        | inl heq => rw [heq]
        | inr hb => apply hends b hb
      have hproperb : start b < finish b := hproper b (hsub.subset List.mem_cons_self)
      have hlater : ∀ c ∈ ys, finish a ≤ start c := by
        intro c hc
        cases hapart.left c hc with
        | inl hafter => apply le_trans hfirst hafter
        | inr hbefore =>
          have hle := List.rel_of_pairwise_cons (hsorted.sublist hsub) hc
          exact absurd (lt_of_lt_of_le hproperb hle) (not_lt.mpr hbefore)
      split
      . rw [List.length_cons, List.length_cons, Nat.add_le_add_iff_right]
        apply ih hrest hsorted' hsub.tail hapart.right hlater
      . next hskip =>
        apply ih hrest hsorted' _ (List.pairwise_cons.mpr hapart) hlast
        cases hsub with
        | cons _ hsub => apply hsub
        | cons_cons => exact absurd (hlast a List.mem_cons_self) hskip

end EarliestFinish
