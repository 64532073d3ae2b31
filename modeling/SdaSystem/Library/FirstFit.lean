import Mathlib.Data.List.Basic

/-!
The greedy selection from a list: an entry is taken if it is in the relation with all entries that
were taken before it. A scan that keeps some other account of what was taken selects the same, if it
tests an entry by that account the same way.
-/

namespace FirstFit

def firstFit (r : α → α → Prop) [DecidableRel r] (taken xs : List α) : List α :=
  match xs with
  | [] => []
  | a :: rest =>
    if ∀ b ∈ taken, r b a then a :: firstFit r (a :: taken) rest else firstFit r taken rest

def scan (test : σ → α → Bool) (add : σ → α → σ) (s : σ) (xs : List α) : List α :=
  match xs with
  | [] => []
  | a :: rest => if test s a then a :: scan test add (add s a) rest else scan test add s rest

/-- For the entries of `xs`, the test by the account kept is the test by what was taken. -/
structure Accounts (r : α → α → Prop) (test : σ → α → Bool) (add : σ → α → σ) (xs : List α)
    (account : σ → List α → Prop) : Prop where
  test_iff : ∀ {s taken}, account s taken → ∀ a ∈ xs, test s a = true ↔ ∀ b ∈ taken, r b a
  add : ∀ {s taken}, account s taken → ∀ a ∈ xs, test s a = true → account (add s a) (a :: taken)

theorem scan_eq_firstFit {r : α → α → Prop} [DecidableRel r] {test : σ → α → Bool}
    {add : σ → α → σ} {account : σ → List α → Prop} {xs : List α}
    (haccounts : Accounts r test add xs account) {s : σ} {taken : List α} (h : account s taken)
    : scan test add s xs = firstFit r taken xs := by
  induction xs generalizing s taken with
  | nil => rfl
  | cons a rest ih =>
    have hrest : Accounts r test add rest account := by
      constructor
      case test_iff => exact fun h b hb => haccounts.test_iff h b (List.mem_cons_of_mem a hb)
      case add => exact fun h b hb => haccounts.add h b (List.mem_cons_of_mem a hb)
    unfold scan firstFit
    simp only [← haccounts.test_iff h a List.mem_cons_self]
    split
    . next hfits => rw [ih hrest (haccounts.add h a List.mem_cons_self hfits)]
    . rw [ih hrest h]

end FirstFit
