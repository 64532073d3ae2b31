import SdaSystem.Library.Pairs
import SdaSystem.Scheduling.Lemmas.Greedy

open Pairs

namespace SdaSystem

theorem SatellitePass.Overlaps.symm {p q : SatellitePass} (h : p.Overlaps q) : q.Overlaps p :=
  And.symm h

namespace GreedyScheduler

namespace detectConflicts

variable {active : List SatellitePass} {p : SatellitePass}

theorem heappush_perm : (heappush active p).Perm (p :: active) := by
  unfold heappush
  apply List.perm_orderedInsert

theorem pairwise_heappush (h : active.Pairwise fun a b => a.setTime ≤ b.setTime)
    : (heappush active p).Pairwise fun a b => a.setTime ≤ b.setTime := by
  unfold heappush
  induction active with
  | nil => simp
  | cons a rest ih =>
    rw [List.orderedInsert]
    split
    . next hlt =>
      rw [List.pairwise_cons]
      refine ⟨?_, h⟩
      intro b hb
      cases List.mem_cons.mp hb with
      | inl heq =>
        rw [heq]
        apply le_of_lt hlt
      | inr hb => apply le_trans (le_of_lt hlt) (List.rel_of_pairwise_cons h hb)
    . next hge =>
      rw [List.pairwise_cons]
      refine ⟨?_, ih h.of_cons⟩
      intro b hb
      rw [List.mem_orderedInsert] at hb
      cases hb with
      | inl heq =>
        rw [heq]
        apply not_lt.mp hge
      | inr hb => apply List.rel_of_pairwise_cons h hb

theorem dropWhile_eq_filter (h : active.Pairwise fun a b => a.setTime ≤ b.setTime) (t : Int)
    : active.dropWhile (fun a => a.setTime ≤ t) = active.filter fun a => t < a.setTime := by
  induction active with
  | nil => rfl
  | cons a rest ih =>
    rw [List.dropWhile_cons, List.filter_cons]
    by_cases hle : a.setTime ≤ t
    . simp [hle, ih h.of_cons]
    . -- the root has not expired, so nothing behind it has
      have hrest : rest.filter (fun a => t < a.setTime) = rest := by
        rw [List.filter_eq_self]
        intro b hb
        have := List.rel_of_pairwise_cons h hb
        simp only [decide_eq_true_eq]
        omega
      simp [hle, hrest]

def met (active : List SatellitePass) (p : SatellitePass) : List (Sym2 SatellitePass) :=
  (active.filter (·.Overlaps p)).map (s(·, p))

theorem met_unexpired {q : SatellitePass} (hlater : p.riseTime ≤ q.riseTime)
    : met (active.filter fun a => p.riseTime < a.setTime) q = met active q := by
  unfold met
  rw [List.filter_filter]
  congr 1
  apply List.filter_congr
  intro a _
  rw [Bool.and_eq_left_iff_imp]
  simp only [decide_eq_true_eq]
  intro hover
  apply lt_of_le_of_lt hlater hover.right

theorem met_heappush (q : SatellitePass)
    : (met (heappush active p) q).Perm ((if p.Overlaps q then [s(p, q)] else []) ++ met active q) := by
  unfold met
  apply ((heappush_perm.filter _).map _).trans
  rw [List.filter_cons]
  simp only [decide_eq_true_eq]
  split
  . apply List.Perm.refl
  . apply List.Perm.refl

theorem flatMap_ite_eq (rest : List SatellitePass)
    : (rest.flatMap fun q => if p.Overlaps q then [s(p, q)] else [])
        =
      (rest.filter (p.Overlaps ·)).map (s(p, ·)) := by
  induction rest with
  | nil => rfl
  | cons q rest ih =>
    rw [List.flatMap_cons, List.filter_cons, ih]
    simp only [decide_eq_true_eq]
    split <;> rfl

theorem go_perm (sortedPasses : List SatellitePass)
    (hsorted : sortedPasses.Pairwise fun p q => p.riseTime ≤ q.riseTime)
    (horder : ∀ p ∈ sortedPasses, p.TimeOrder)
    (hactive : active.Pairwise fun a b => a.setTime ≤ b.setTime)
    (hbegun : ∀ a ∈ active, ∀ p ∈ sortedPasses, a.riseTime ≤ p.riseTime)
    : ((go active sortedPasses).map fun c => s(c.1, c.2)).Perm
        (sortedPasses.flatMap (met active) ++ pairsOf SatellitePass.Overlaps sortedPasses) := by
  induction sortedPasses generalizing active with
  | nil => simp [go, pairsOf]
  | cons p rest ih =>
    have hp := horder p List.mem_cons_self
    have hlater : ∀ q ∈ rest, p.riseTime ≤ q.riseTime := by
      intro q hq
      apply List.rel_of_pairwise_cons hsorted hq
    unfold go
    rw [dropWhile_eq_filter hactive]
    let left := active.filter fun a => p.riseTime < a.setTime
    have hfound : (left.map fun a => (a, p)).map (fun c => s(c.1, c.2)) = met active p := by
      have hall : left.filter (·.Overlaps p) = left := by
        rw [List.filter_eq_self]
        intro a ha
        obtain ⟨ha, hset⟩ := List.mem_filter.mp ha
        have hrise := hbegun a ha p List.mem_cons_self
        simp only [decide_eq_true_eq] at hset ⊢
        exact ⟨lt_of_le_of_lt hrise hp, hset⟩
      rw [← met_unexpired (le_refl p.riseTime), List.map_map]
      unfold met
      rw [hall]
      rfl
    have hrest : (rest.flatMap (met (heappush left p))).Perm
        ((rest.filter (p.Overlaps ·)).map (s(p, ·)) ++ rest.flatMap (met active)) := by
      rw [← flatMap_ite_eq]
      refine List.Perm.trans (List.Perm.flatMap_left _ fun q hq => ?_)
        (List.flatMap_append_perm _ _ _).symm
      have hmet : met left q = met active q := met_unexpired (hlater q hq)
      rw [← hmet]
      apply met_heappush
    have hgo := @ih (heappush left p) hsorted.of_cons
      (fun q hq => horder q (List.mem_cons_of_mem p hq))
      (pairwise_heappush (hactive.filter _))
      (by
        intro a ha q hq
        cases mem_heappush.mp ha with
        | inl heq =>
          rw [heq]
          apply hlater q hq
        | inr ha => apply hbegun a (List.mem_filter.mp ha).left q (List.mem_cons_of_mem p hq))
    rw [List.map_append, hfound, List.flatMap_cons, List.append_assoc]
    apply List.Perm.append_left
    apply hgo.trans
    apply (hrest.append_right _).trans
    rw [pairsOf, ← List.append_assoc]
    apply List.Perm.append_right
    apply List.perm_append_comm

end detectConflicts

/-- Every pair of passes that overlap is found once for the places at which they are. -/
theorem detectConflicts_perm (passes : List SatellitePass) (horder : ∀ p ∈ passes, p.TimeOrder)
    : ((detectConflicts passes).map fun c => s(c.1, c.2)).Perm
        (pairsAt SatellitePass.Overlaps passes) := by
  have hperm := sortedBy_perm (fun p : SatellitePass => p.riseTime) passes
  have hsymm : ∀ p q : SatellitePass, p.Overlaps q → q.Overlaps p := by
    intro p q
    apply SatellitePass.Overlaps.symm
  have horder' : ∀ p ∈ sortedBy (·.riseTime) passes, p.TimeOrder := by
    intro p hp
    apply horder p (hperm.mem_iff.mp hp)
  rw [pairsAt_eq]
  apply List.Perm.trans _ (pairsOf_perm hsymm hperm)
  have hgo := detectConflicts.go_perm _ (pairwise_sortedBy _ _) horder' List.Pairwise.nil (by simp)
  have hnone : (sortedBy (·.riseTime) passes).flatMap (detectConflicts.met []) = [] := by
    simp [detectConflicts.met]
  rw [hnone, List.nil_append] at hgo
  apply hgo

theorem detectConflicts_perm_nested
    : let p : SatellitePass := {
        id := 1, noradId := 1, stationId := "GS1", riseTime := 0, setTime := 600,
        durationSeconds := 600, maxElevation := 40
      }
      let passes := [{ p with riseTime := 600, setTime := 900 }, p, { p with setTime := 300 }, p]
      ((detectConflicts passes).map fun c => s(c.1, c.2)).Perm
        (pairsAt SatellitePass.Overlaps passes) :=
  detectConflicts_perm _ (by decide)

end GreedyScheduler
end SdaSystem
