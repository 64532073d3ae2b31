import Mathlib.Data.Prod.Lex
import Mathlib.Order.MinMax
import SdaSystem.Library.Bisect

/-!
Half-open intervals over an arbitrary time line, given by their end points: when two of them meet,
what joining two of them does to that, and the lookup of an interval in a separated list by binary
search.
-/

namespace Intervals

variable [LinearOrder τ]

def Meets (a b : τ × τ) : Prop :=
  a.1 < b.2 ∧ b.1 < a.2

def Within (a b : τ × τ) : Prop :=
  b.1 ≤ a.1 ∧ a.2 ≤ b.2

def Covers (a : τ × τ) (t : τ) : Prop :=
  a.1 ≤ t ∧ t < a.2

theorem Meets.symm {a b : τ × τ} (h : Meets a b) : Meets b a :=
  And.symm h

theorem Meets.mono {a b c : τ × τ} (h : Meets a c) (hab : Within a b) : Meets b c := by
  unfold Meets Within at *
  exact ⟨lt_of_le_of_lt hab.left h.left, lt_of_lt_of_le h.right hab.right⟩

theorem meets_iff_covers {a b : τ × τ} (ha : a.1 < a.2) (hb : b.1 < b.2)
    : Meets a b ↔ ∃ t, Covers a t ∧ Covers b t := by
  unfold Meets Covers
  constructor
  . intro h
    refine ⟨max a.1 b.1, ⟨le_max_left _ _, ?_⟩, ⟨le_max_right _ _, ?_⟩⟩
    . apply max_lt ha h.right
    . apply max_lt h.left hb
  . rintro ⟨t, hat, hbt⟩
    exact ⟨lt_of_le_of_lt hat.left hbt.right, lt_of_le_of_lt hbt.left hat.right⟩

theorem meets_join {a : τ × τ} (ha : a.1 < a.2) {lo hi lo' hi' : τ} (hle : lo ≤ lo') (hjoin : lo' ≤ hi)
    : Meets a (lo, max hi hi') ↔ Meets a (lo, hi) ∨ Meets a (lo', hi') := by
  unfold Meets
  simp only [lt_max_iff]
  constructor
  . rintro ⟨hlt | hlt, hlo⟩
    . exact .inl ⟨hlt, hlo⟩
    . -- where `a` begins after the first interval, it begins after the second one has begun
      by_cases hhi : a.1 < hi
      . exact .inl ⟨hhi, hlo⟩
      . refine .inr ⟨hlt, lt_of_le_of_lt ?_ ha⟩
        apply le_trans hjoin (not_lt.mp hhi)
  . rintro (h | h)
    . exact ⟨.inl h.left, h.right⟩
    . exact ⟨.inr h.left, lt_of_le_of_lt hle h.right⟩

structure Separated (ivs : List (τ × τ)) : Prop where
  proper : ∀ iv ∈ ivs, iv.1 < iv.2
  ordered : ivs.Pairwise fun a b => a.2 ≤ b.1

theorem Separated.starts {ivs : List (τ × τ)} (h : Separated ivs)
    : (ivs.map (·.1)).Pairwise (· ≤ ·) := by
  rw [List.pairwise_map]
  apply h.ordered.imp_of_mem
  intro a b ha _ hab
  apply le_trans (le_of_lt (h.proper a ha)) hab

theorem Separated.exists_within_iff {ivs : List (τ × τ)} (h : Separated ivs) {a : τ × τ}
    (ha : a.1 < a.2)
    : (∃ iv ∈ ivs, Within a iv)
        ↔
      ∃ idx iv, Bisect.right (ivs.map (·.1)) a.1 = idx + 1 ∧ ivs[idx]? = some iv ∧ a.2 ≤ iv.2 := by
  have hlen := Bisect.right_le_length h.starts a.1
  have hlt : ∀ (i : Nat) (hi : i < ivs.length),
      i < Bisect.right (ivs.map (·.1)) a.1 ↔ ivs[i].1 ≤ a.1 := by
    intro i hi
    have hi' : i < (ivs.map (·.1)).length := by simpa using hi
    simpa using Bisect.lt_right_iff h.starts a.1 hi'
  rw [List.length_map] at hlen
  constructor
  . rintro ⟨iv, hiv, hwithin⟩
    obtain ⟨i, hi, rfl⟩ := List.getElem_of_mem hiv
    refine ⟨i, ivs[i], ?_, List.getElem?_eq_getElem hi, hwithin.right⟩
    have hbefore := (hlt i hi).mpr hwithin.left
    by_contra hne
    have hnext : i + 1 < ivs.length := by omega
    have hbegun := (hlt (i + 1) hnext).mp (by omega)
    have hgap := List.pairwise_iff_getElem.mp h.ordered i (i + 1) hi hnext (by omega)
    exact absurd (hwithin.right.trans (hgap.trans hbegun)) (not_le.mpr ha)
  . rintro ⟨idx, iv, hright, hget, hset⟩
    obtain ⟨hidx, rfl⟩ := List.getElem?_eq_some_iff.mp hget
    refine ⟨ivs[idx], List.getElem_mem hidx, ?_, hset⟩
    apply (hlt idx hidx).mp
    omega

theorem Separated.nil : Separated ([] : List (τ × τ)) where
  proper := by simp
  ordered := List.Pairwise.nil

theorem Separated.sorted {ivs : List (τ × τ)} (h : Separated ivs)
    : (ivs.map toLex).Pairwise (· ≤ ·) := by
  rw [List.pairwise_map]
  apply h.ordered.imp_of_mem
  intro a b ha _ hab
  apply le_of_lt
  rw [Prod.Lex.toLex_lt_toLex]
  apply Or.inl (lt_of_lt_of_le (h.proper a ha) hab)

theorem Separated.lt_left_iff {ivs : List (τ × τ)} (h : Separated ivs) (a : τ × τ) {i : Nat}
    (hi : i < ivs.length) : i < Bisect.left (ivs.map toLex) (toLex a) ↔ toLex ivs[i] < toLex a := by
  have hi' : i < (ivs.map toLex).length := by simpa using hi
  simpa using Bisect.lt_left_iff h.sorted (toLex a) hi'

theorem Separated.exists_meets_iff {ivs : List (τ × τ)} (h : Separated ivs) (a : τ × τ)
    : (∃ iv ∈ ivs, Meets a iv)
        ↔
      (∃ idx iv, Bisect.left (ivs.map toLex) (toLex a) = idx + 1 ∧ ivs[idx]? = some iv ∧ Meets a iv)
        ∨
      (∃ iv, ivs[Bisect.left (ivs.map toLex) (toLex a)]? = some iv ∧ Meets a iv) := by
  have hlen := Bisect.left_le_length h.sorted (toLex a)
  rw [List.length_map] at hlen
  have hgap := List.pairwise_iff_getElem.mp h.ordered
  constructor
  . rintro ⟨iv, hiv, hmeets⟩
    obtain ⟨i, hi, rfl⟩ := List.getElem_of_mem hiv
    by_cases hbefore : i < Bisect.left (ivs.map toLex) (toLex a)
    . -- an interval further left ends before the neighbour begins, which is not after `a`
      refine .inl ⟨i, ivs[i], ?_, List.getElem?_eq_getElem hi, hmeets⟩
      by_contra hne
      have hnext : i + 1 < ivs.length := by omega
      have hlt := (h.lt_left_iff a hnext).mp (by omega)
      have hbegun := Prod.Lex.monotone_fst _ _ (le_of_lt hlt)
      exact absurd hmeets.left (not_lt.mpr ((hgap i (i + 1) hi hnext (by omega)).trans hbegun))
    . -- so does the first interval that does not begin before `a`, if a later one begins in time
      have hpos : Bisect.left (ivs.map toLex) (toLex a) < ivs.length := by omega
      refine .inr ⟨_, List.getElem?_eq_getElem hpos, ?_⟩
      cases Nat.eq_or_lt_of_le (not_lt.mp hbefore) with
      | inl heq => simpa only [heq] using hmeets
      | inr hlt =>
        have hbegun := mt (h.lt_left_iff a hpos).mpr (lt_irrefl _)
        have hstart := Prod.Lex.monotone_fst _ _ (not_lt.mp hbegun)
        have hproper := h.proper _ (List.getElem_mem hpos)
        have hbound := hgap _ i hpos hi hlt
        unfold Meets at hmeets ⊢
        refine ⟨lt_of_le_of_lt hstart hproper, ?_⟩
        apply lt_of_lt_of_le hproper
        apply le_trans hbound (le_of_lt hmeets.right)
  . rintro (⟨idx, iv, _, hget, hmeets⟩ | ⟨iv, hget, hmeets⟩)
    . exact ⟨iv, List.mem_of_getElem? hget, hmeets⟩
    . exact ⟨iv, List.mem_of_getElem? hget, hmeets⟩

theorem Separated.insort {ivs : List (τ × τ)} (h : Separated ivs) {a : τ × τ} (ha : a.1 < a.2)
    (hclear : ∀ iv ∈ ivs, ¬ Meets a iv) : Separated (Bisect.insort toLex ivs a) := by
  constructor
  case proper =>
    intro iv hiv
    cases Bisect.mem_insort.mp hiv with
    | inl heq => rwa [heq]
    | inr hiv => apply h.proper iv hiv
  case ordered =>
    apply Bisect.pairwise_insort h.sorted h.ordered
    . intro iv hiv hle
      have hstart := Prod.Lex.monotone_fst _ _ hle
      by_contra hover
      exact hclear iv hiv ⟨not_le.mp hover, lt_of_le_of_lt hstart ha⟩
    . intro iv hiv hlt
      have hstart := Prod.Lex.monotone_fst _ _ (le_of_lt hlt)
      by_contra hover
      exact hclear iv hiv ⟨lt_of_le_of_lt hstart (h.proper iv hiv), not_le.mp hover⟩

end Intervals
