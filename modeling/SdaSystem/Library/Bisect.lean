import Mathlib.Data.List.Basic
import Mathlib.Order.Lattice

/-!
Binary search in a list, the way Python's `bisect` module performs it: `left` and `right` return the
insertion points before and after the entries that are equal to the key, and `insort` inserts there.
-/

namespace Bisect

/--
Find the first index whose entry does not satisfy `p`, provided that all entries that do come first.
-/
def search (p : α → Bool) (xs : List α) : Nat :=
  go xs.length 0 xs.length
where
  -- Every round shrinks `hi - lo`, so the length of the list bounds the number of rounds.
  go (fuel lo hi : Nat) : Nat :=
    match fuel with
    | 0 => lo
    | fuel + 1 =>
      if lo < hi then
        let mid := (lo + hi) / 2
        match xs[mid]? with
        | some y => if p y then go fuel (mid + 1) hi else go fuel lo mid
        | none => lo
      else
        lo

theorem search.lt_iff_of_split {p : α → Bool} {xs : List α} {i : Nat}
    (hleft : ∀ (idx : Nat) (hidx : idx < xs.length), idx < i → p xs[idx])
    (hright : ∀ (idx : Nat) (hidx : idx < xs.length), i ≤ idx → ¬ p xs[idx])
    : ∀ (idx : Nat) (hidx : idx < xs.length), idx < i ↔ p xs[idx] := by
  intro idx hidx
  constructor
  . apply hleft
  . intro h
    by_contra hge
    apply hright idx hidx (by omega) h

theorem search.go_spec (p : α → Bool) (xs : List α) (hp : xs.Pairwise fun a b => p b → p a)
    (fuel lo hi : Nat) (hfuel : hi - lo ≤ fuel) (hlo : lo ≤ hi) (hhi : hi ≤ xs.length)
    (hleft : ∀ (idx : Nat) (hidx : idx < xs.length), idx < lo → p xs[idx])
    (hright : ∀ (idx : Nat) (hidx : idx < xs.length), hi ≤ idx → ¬ p xs[idx])
    : go p xs fuel lo hi ≤ xs.length
        ∧
      ∀ (idx : Nat) (hidx : idx < xs.length), idx < go p xs fuel lo hi ↔ p xs[idx] := by
  have hpair := List.pairwise_iff_getElem.mp hp
  induction fuel generalizing lo hi with
  | zero =>
    have : lo = hi := by omega
    subst this
    unfold go
    exact ⟨hhi, lt_iff_of_split hleft hright⟩
  | succ fuel ih =>
    unfold go
    split
    . next hlt =>
      have hmid : (lo + hi) / 2 < xs.length := by omega
      simp only [List.getElem?_eq_getElem hmid]
      -- the entry in the middle decides for all entries before it, or for all after it
      split
      . next hpm =>
        apply ih
        . omega
        . omega
        . apply hhi
        . intro idx hidx hle
          cases Nat.lt_or_eq_of_le (Nat.le_of_lt_succ hle) with
          | inl hlt' => apply hpair idx _ hidx hmid hlt' hpm
          | inr heq =>
            subst heq
            apply hpm
        . apply hright
      . next hpm =>
        apply ih
        . omega
        . omega
        . omega
        . apply hleft
        . intro idx hidx hle h
          cases Nat.lt_or_eq_of_le hle with
          | inl hlt' => apply hpm (hpair _ idx hmid hidx hlt' h)
          | inr heq =>
            subst heq
            apply hpm h
    . next hge =>
      have : lo = hi := by omega
      subst this
      exact ⟨hhi, lt_iff_of_split hleft hright⟩

section

variable {p : α → Bool} {xs : List α} (hp : xs.Pairwise fun a b => p b → p a)

include hp

theorem search_spec
    : search p xs ≤ xs.length
        ∧
      ∀ (idx : Nat) (hidx : idx < xs.length), idx < search p xs ↔ p xs[idx] := by
  apply search.go_spec p xs hp xs.length 0 xs.length
  all_goals omega

theorem search_le_length : search p xs ≤ xs.length := by
  apply (search_spec hp).left

theorem lt_search_iff {idx : Nat} (hidx : idx < xs.length) : idx < search p xs ↔ p xs[idx] := by
  apply (search_spec hp).right

end

variable [LinearOrder α]

/-- `bisect.bisect_right`: every entry left of the result is `≤ x`, every other one is `> x`. -/
def right (xs : List α) (x : α) : Nat :=
  search (fun y => decide (y ≤ x)) xs

theorem pairwise_decide_le {xs : List α} (hxs : xs.Pairwise (· ≤ ·)) (x : α)
    : xs.Pairwise fun a b => decide (b ≤ x) → decide (a ≤ x) := by
  apply hxs.imp
  intro a b hab hb
  simp only [decide_eq_true_eq] at hb ⊢
  apply le_trans hab hb

theorem right_le_length {xs : List α} (hxs : xs.Pairwise (· ≤ ·)) (x : α)
    : right xs x ≤ xs.length := by
  apply search_le_length
  apply pairwise_decide_le hxs

theorem lt_right_iff {xs : List α} (hxs : xs.Pairwise (· ≤ ·)) (x : α) {idx : Nat}
    (hidx : idx < xs.length) : idx < right xs x ↔ xs[idx] ≤ x := by
  unfold right
  rw [lt_search_iff (pairwise_decide_le hxs x) hidx]
  simp

/-- `bisect.bisect_left`: every entry left of the result is `< x`, every other one is `≥ x`. -/
def left (xs : List α) (x : α) : Nat :=
  search (fun y => decide (y < x)) xs

theorem pairwise_decide_lt {xs : List α} (hxs : xs.Pairwise (· ≤ ·)) (x : α)
    : xs.Pairwise fun a b => decide (b < x) → decide (a < x) := by
  apply hxs.imp
  intro a b hab hb
  simp only [decide_eq_true_eq] at hb ⊢
  apply lt_of_le_of_lt hab hb

theorem left_le_length {xs : List α} (hxs : xs.Pairwise (· ≤ ·)) (x : α)
    : left xs x ≤ xs.length := by
  apply search_le_length
  apply pairwise_decide_lt hxs

theorem lt_left_iff {xs : List α} (hxs : xs.Pairwise (· ≤ ·)) (x : α) {idx : Nat}
    (hidx : idx < xs.length) : idx < left xs x ↔ xs[idx] < x := by
  unfold left
  rw [lt_search_iff (pairwise_decide_lt hxs x) hidx]
  simp

section

variable (key : β → α) (xs : List β) (x : β)

def insort : List β :=
  let pos := right (xs.map key) (key x)
  xs.take pos ++ x :: xs.drop pos

theorem insort_perm : (insort key xs x).Perm (x :: xs) := by
  unfold insort
  apply List.perm_middle.trans
  rw [List.take_append_drop]

variable {key xs x}

theorem mem_insort {y : β} : y ∈ insort key xs x ↔ y = x ∨ y ∈ xs := by
  rw [(insort_perm key xs x).mem_iff, List.mem_cons]

theorem pairwise_insort {r : β → β → Prop} (hsorted : (xs.map key).Pairwise (· ≤ ·))
    (hpair : xs.Pairwise r) (hbefore : ∀ y ∈ xs, key y ≤ key x → r y x)
    (hafter : ∀ y ∈ xs, key x < key y → r x y) : (insort key xs x).Pairwise r := by
  have hlt : ∀ (i : Nat) (hi : i < xs.length),
      i < right (xs.map key) (key x) ↔ key xs[i] ≤ key x := by
    intro i hi
    have hi' : i < (xs.map key).length := by simpa using hi
    simpa using lt_right_iff hsorted (key x) hi'
  unfold insort
  rw [List.pairwise_append, List.pairwise_cons]
  have hdrop : ∀ y ∈ xs.drop (right (xs.map key) (key x)), key x < key y := by
    intro y hy
    obtain ⟨i, hi, rfl⟩ := List.getElem_of_mem hy
    rw [List.length_drop] at hi
    rw [List.getElem_drop, ← not_le, ← hlt]
    omega
  have htake : ∀ y ∈ xs.take (right (xs.map key) (key x)), key y ≤ key x := by
    intro y hy
    obtain ⟨i, hi, rfl⟩ := List.getElem_of_mem hy
    rw [List.length_take] at hi
    rw [List.getElem_take, ← hlt]
    omega
  refine ⟨hpair.sublist (List.take_sublist _ _), ⟨?_, hpair.sublist (List.drop_sublist _ _)⟩, ?_⟩
  . intro y hy
    apply hafter y (List.mem_of_mem_drop hy) (hdrop y hy)
  . intro y hy z hz
    cases List.mem_cons.mp hz with
    | inl heq =>
      subst heq
      apply hbefore y (List.mem_of_mem_take hy) (htake y hy)
    | inr hz =>
      have hpair' := hpair
      rw [← List.take_append_drop (right (xs.map key) (key x)) xs, List.pairwise_append] at hpair'
      apply hpair'.right.right y hy z hz

end

end Bisect
