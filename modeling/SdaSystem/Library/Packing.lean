import Mathlib.Algebra.Order.Group.Basic
import Mathlib.Tactic.Abel
import SdaSystem.Library.Intervals
import SdaSystem.Library.SortedBy

/-!
How many disjoint intervals of some least length can meet one interval.
-/

namespace Intervals

variable [AddCommGroup τ] [LinearOrder τ] [IsOrderedAddMonoid τ]

theorem add_nsmul_lt {a : τ × τ} {ivs : List (τ × τ)} {d e : τ} (hne : ivs ≠ [])
    (hordered : (a :: ivs).Pairwise fun a b => a.2 ≤ b.1) (hlen : ∀ iv ∈ ivs, iv.1 + d ≤ iv.2)
    (hend : ∀ iv ∈ ivs, iv.1 < e) : a.2 + (ivs.length - 1) • d < e := by
  induction ivs generalizing a with
  | nil => contradiction
  | cons b ivs ih =>
    rw [List.pairwise_cons] at hordered
    have hab := hordered.left b List.mem_cons_self
    by_cases hivs : ivs = []
    . subst hivs
      have hb := hend b List.mem_cons_self
      simpa using lt_of_le_of_lt hab hb
    . have hlast := ih hivs hordered.right (fun iv hiv => hlen iv (List.mem_cons_of_mem b hiv))
        fun iv hiv => hend iv (List.mem_cons_of_mem b hiv)
      have hb := hlen b List.mem_cons_self
      have hpos : 0 < ivs.length := List.length_pos_iff.mpr hivs
      have hcount : (b :: ivs).length - 1 = (ivs.length - 1) + 1 := by
        rw [List.length_cons]
        omega
      rw [hcount, succ_nsmul]
      calc a.2 + ((ivs.length - 1) • d + d)
        _ ≤ b.1 + ((ivs.length - 1) • d + d) := by gcongr
        _ = (b.1 + d) + (ivs.length - 1) • d := by abel
        _ ≤ b.2 + (ivs.length - 1) • d := by gcongr
        _ < e := hlast

theorem length_le_of_meets {a : τ × τ} {ivs : List (τ × τ)} {d : τ} {c : Nat} (hd : 0 < d)
    (ha : a.2 ≤ a.1 + c • d) (hlen : ∀ iv ∈ ivs, iv.1 + d ≤ iv.2)
    (hdisjoint : ivs.Pairwise fun a b => ¬ Meets a b) (hmeets : ∀ iv ∈ ivs, Meets a iv)
    : ivs.length ≤ c + 1 := by
  let sorted := sortedBy (fun iv => iv.1) ivs
  have hperm : sorted.Perm ivs := sortedBy_perm _ ivs
  have hordered : sorted.Pairwise fun a b => a.2 ≤ b.1 := by
    have hclear := (hperm.pairwise_iff fun h => fun hmeet => h hmeet.symm).mpr hdisjoint
    apply ((pairwise_sortedBy (fun iv : τ × τ => iv.1) ivs).and hclear).imp_of_mem
    intro x y _ hy h
    have hyd := hlen y (hperm.mem_iff.mp hy)
    have hproper : y.1 < y.2 := lt_of_lt_of_le (lt_add_of_pos_right y.1 hd) hyd
    by_contra hlt
    exact h.right ⟨lt_of_le_of_lt h.left hproper, not_le.mp hlt⟩
  rw [← hperm.length_eq]
  match hsorted : sorted with
  | [] => simp
  | first :: rest =>
    by_cases hrest : rest = []
    . simp [hrest]
    . have hmem : ∀ iv ∈ first :: rest, iv ∈ ivs := fun iv hiv => hperm.mem_iff.mp (hsorted ▸ hiv)
      have hlt := add_nsmul_lt hrest (hsorted ▸ hordered)
        (fun iv hiv => hlen iv (hmem iv (List.mem_cons_of_mem first hiv)))
        fun iv hiv => (hmeets iv (hmem iv (List.mem_cons_of_mem first hiv))).right
      have hfirst := (hmeets first (hmem first List.mem_cons_self)).left
      have hspan : (rest.length - 1) • d < c • d := by
        have := lt_of_lt_of_le hlt ha
        have := lt_trans (add_lt_add_left hfirst _) this
        exact lt_of_add_lt_add_left this
      have := (nsmul_lt_nsmul_iff_left hd).mp hspan
      rw [List.length_cons]
      omega

end Intervals
