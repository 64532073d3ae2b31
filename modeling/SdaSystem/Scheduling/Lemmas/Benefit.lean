import SdaSystem.Library.FirstFit
import SdaSystem.Scheduling.Impl.Timestamp
import SdaSystem.Scheduling.Lemmas.FreeSlots
import SdaSystem.Scheduling.Lemmas.IntervalTree

/-!
The greedy selection by benefit and its two implementations: one looks up two neighbours in a sorted
list of intervals, the other one asks a tree of intervals whose ends are floats.
-/

open Intervals FirstFit

namespace SdaSystem

def greedyByBenefit (passes : List SatellitePass) : List SatellitePass :=
  firstFit SatellitePass.NonOverlapping [] (sortedBy (fun p => -benefit p) passes)

namespace GreedyScheduler

theorem hasOverlap_iff {p : SatellitePass} {committed : List (Int × Int)} (h : Separated committed)
    : hasOverlap p.riseTime p.setTime committed = true
        ↔
      ∃ iv ∈ committed, Meets p.interval iv := by
  rw [h.exists_meets_iff]
  unfold hasOverlap SatellitePass.interval Meets
  dsimp only
  generalize Bisect.left (committed.map toLex) (toLex (p.riseTime, p.setTime)) = pos
  rw [Bool.or_eq_true, Option.any_eq_true, Option.any_eq_true]
  apply or_congr
  . cases pos with
    | zero => simp
    | succ idx => simp [and_comm]
  . simp

namespace scheduleHeap

def test (committed : List (Int × Int)) (p : SatellitePass) : Bool :=
  ¬ hasOverlap p.riseTime p.setTime committed

def add (committed : List (Int × Int)) (p : SatellitePass) : List (Int × Int) :=
  Bisect.insort toLex committed p.interval

theorem go_eq_scan (committed : List (Int × Int)) (heap : List SatellitePass)
    : go committed heap = scan test add committed heap := by
  induction heap generalizing committed with
  | nil => rfl
  | cons p rest ih =>
    have htest : test committed p = !hasOverlap p.riseTime p.setTime committed := by simp [test]
    unfold go scan
    rw [htest, ih, ih]
    cases hasOverlap p.riseTime p.setTime committed with
    | true => rfl
    | false => rfl

structure Account (committed : List (Int × Int)) (taken : List SatellitePass) : Prop where
  separated : Separated committed
  mem_iff : ∀ iv, iv ∈ committed ↔ ∃ p ∈ taken, p.interval = iv

theorem test_iff {committed : List (Int × Int)} {taken : List SatellitePass}
    (h : Account committed taken) (p : SatellitePass)
    : test committed p = true ↔ ∀ q ∈ taken, q.NonOverlapping p := by
  unfold test
  rw [decide_eq_true_iff, hasOverlap_iff h.separated]
  rw [not_exists]
  constructor
  . intro hclear q hq
    apply SatellitePass.NonOverlapping.symm
    rw [← SatellitePass.not_meets_interval]
    intro hmeets
    apply hclear q.interval ⟨(h.mem_iff _).mpr ⟨q, hq, rfl⟩, hmeets⟩
  . rintro hclear iv ⟨hiv, hmeets⟩
    obtain ⟨q, hq, rfl⟩ := (h.mem_iff iv).mp hiv
    apply SatellitePass.not_meets_interval.mpr (hclear q hq).symm hmeets

theorem accounts {passes : List SatellitePass} (horder : ∀ p ∈ passes, p.TimeOrder)
    : Accounts SatellitePass.NonOverlapping test add passes Account := by
  constructor
  case test_iff => exact fun h p _ => test_iff h p
  case add =>
    intro committed taken h p hp htest
    constructor
    case separated =>
      apply h.separated.insort (horder p hp).interval_proper
      intro iv hiv
      obtain ⟨q, hq, rfl⟩ := (h.mem_iff iv).mp hiv
      rw [SatellitePass.not_meets_interval]
      apply SatellitePass.NonOverlapping.symm ((test_iff h p).mp htest q hq)
    case mem_iff =>
      intro iv
      unfold add
      rw [Bisect.mem_insort, h.mem_iff]
      simp [eq_comm]

end scheduleHeap

theorem scheduleHeap_eq (passes : List SatellitePass) (horder : ∀ p ∈ passes, p.TimeOrder)
    : scheduleHeap passes = greedyByBenefit passes := by
  unfold scheduleHeap greedyByBenefit
  rw [scheduleHeap.go_eq_scan]
  apply scan_eq_firstFit (scheduleHeap.accounts _)
  . constructor
    case separated => apply Separated.nil
    case mem_iff => simp
  . intro p hp
    apply horder p (by simpa using hp)

end GreedyScheduler

namespace IntervalTreeScheduler

variable {f : Int → Rat}

section

variable (f)

def test (tree : IntervalTree Nat) (p : SatellitePass) : Bool :=
  f p.riseTime < f p.setTime ∧ tree.overlap (f p.riseTime) (f p.setTime) = []

def add (tree : IntervalTree Nat) (p : SatellitePass) : IntervalTree Nat :=
  interval f p :: tree

theorem considerAll_eq_scan (st : Selection) (i : Nat) (candidates : List SatellitePass)
    : ∃ st', considerAll f (fun _ => false) st i candidates = .ok st'
        ∧
      st'.selected
        = st.selected ++ (scan (test f) (add f) st.tree candidates).map (·.schedule .intervalTree)
    := by
  induction candidates generalizing st i with
  | nil => exact ⟨st, rfl, by simp [scan]⟩
  | cons p rest ih =>
    unfold considerAll scan
    by_cases hfits : test f st.tree p
    . obtain ⟨hlen, htree⟩ := of_decide_eq_true hfits
      have htake : consider f (fun _ => false) st i p = .ok {
            session := st.session.add p
            tree := add f st.tree p
            selected := st.selected ++ [p.schedule .intervalTree]
          } := by
        simp [consider, not_le.mpr hlen, htree, add, interval]
      rw [htake, if_pos hfits]
      obtain ⟨st', hok, hselected⟩ := ih {
          session := st.session.add p
          tree := add f st.tree p
          selected := st.selected ++ [p.schedule .intervalTree]
        } (i + 1)
      refine ⟨st', hok, ?_⟩
      rw [hselected, List.append_assoc]
      rfl
    . have hskip : consider f (fun _ => false) st i p = .ok st := by
        have : f p.riseTime < f p.setTime
            → st.tree.overlap (f p.riseTime) (f p.setTime) ≠ [] := by
          intro hlen htree
          exact hfits (decide_eq_true ⟨hlen, htree⟩)
        unfold consider
        by_cases hlen : f p.setTime ≤ f p.riseTime
        . simp [hlen]
        . simp [hlen, this (not_le.mp hlen)]
      rw [hskip, if_neg hfits]
      apply ih

end

/-- The floats are in the same order as the times of the passes. -/
def OrderedAlike (f : Int → Rat) (passes : List SatellitePass) : Prop :=
  ∀ p ∈ passes, ∀ q ∈ passes, f p.riseTime < f q.setTime ↔ p.riseTime < q.setTime

structure Account (f : Int → Rat) (passes : List SatellitePass) (tree : IntervalTree Nat)
    (taken : List SatellitePass) : Prop where
  subset : taken ⊆ passes
  mem_iff : ∀ iv, iv ∈ tree ↔ ∃ p ∈ taken, interval f p = iv

theorem test_iff {passes : List SatellitePass} (halike : OrderedAlike f passes)
    (horder : ∀ p ∈ passes, p.TimeOrder) {tree : IntervalTree Nat} {taken : List SatellitePass}
    (h : Account f passes tree taken) {p : SatellitePass} (hp : p ∈ passes)
    : test f tree p = true ↔ ∀ q ∈ taken, q.NonOverlapping p := by
  unfold test
  rw [decide_eq_true_iff, IntervalTree.overlap_eq_nil_iff,
    and_iff_right ((halike p hp p hp).mpr (horder p hp))]
  have hover : ∀ q ∈ taken,
      (interval f q).first < f p.setTime ∧ f p.riseTime < (interval f q).last ↔ q.Overlaps p := by
    intro q hq
    exact and_congr (halike q (h.subset hq) p hp) (halike p hp q (h.subset hq))
  constructor
  . intro hclear q hq
    rw [← SatellitePass.not_overlaps_iff, ← hover q hq]
    apply hclear _ ((h.mem_iff _).mpr ⟨q, hq, rfl⟩)
  . intro hclear iv hiv
    obtain ⟨q, hq, rfl⟩ := (h.mem_iff iv).mp hiv
    rw [hover q hq, SatellitePass.not_overlaps_iff]
    apply hclear q hq

theorem accounts {passes : List SatellitePass} (halike : OrderedAlike f passes)
    (horder : ∀ p ∈ passes, p.TimeOrder)
    : Accounts SatellitePass.NonOverlapping (test f) (add f) passes (Account f passes) := by
  constructor
  case test_iff => exact fun h p hp => test_iff halike horder h hp
  case add =>
    intro tree taken h p hp _
    constructor
    case subset => exact List.cons_subset.mpr ⟨hp, h.subset⟩
    case mem_iff =>
      intro iv
      unfold add
      rw [List.mem_cons, h.mem_iff]
      simp [eq_comm]

theorem scheduleForStation_eq {session : Session} {stationId : String} {sats : Finset Int}
    {startTime endTime : Int}
    (halike : OrderedAlike f
      (GreedyScheduler.candidates session.table startTime endTime stationId sats))
    : (scheduleForStation f (fun _ => false) session stationId sats startTime endTime).2
        =
      some ((greedyByBenefit
        (GreedyScheduler.candidates session.table startTime endTime stationId sats)).map
          (·.schedule .intervalTree)) := by
  have hsession : session = Session.of session.table { pending := session.pending } := by
    simp [Session.of, PassTable.markScheduled_nil]
  let cands := candidates session.table startTime endTime stationId sats
  have horder : ∀ p ∈ cands, p.TimeOrder := by
    intro p hp
    apply session.table.timeOrder p (mem_candidates.mp hp).mem
  have halike' : OrderedAlike f cands := by
    intro p hp q hq
    apply halike p ((mem_sortedBy _ _).mp hp) q ((mem_sortedBy _ _).mp hq)
  have hscan : scan (test f) (add f) [] cands = greedyByBenefit
      (GreedyScheduler.candidates session.table startTime endTime stationId sats) := by
    apply scan_eq_firstFit (accounts halike' horder)
    constructor
    case subset => apply List.nil_subset
    case mem_iff => simp
  unfold scheduleForStation
  rw [if_neg Bool.false_ne_true]
  dsimp only
  split
  . next hnil =>
    have : cands = [] := hnil
    rw [← hscan, this]
    rfl
  . obtain ⟨st', hok, hselected⟩ := considerAll_eq_scan f { session } 0 cands
    obtain ⟨picks, _, hselects⟩ := @considerAll_selects f (fun _ => false) session.table
      { pending := session.pending } _ _ _ (selects_nil _ _) 0 cands
    rw [← hsession, hok] at hselects
    rw [hok]
    simp only [Selects.verifyNoConflicts_eq_nil hselects, ne_eq, not_true_eq_false, if_false]
    rw [hselected, hscan]
    rfl

open Rounding

theorem toUtcTimestamp_mono {s t : Int} (hle : s ≤ t) : toUtcTimestamp s ≤ toUtcTimestamp t := by
  apply nearest_mono
  rw [Rat.mkRat_eq_div, Rat.mkRat_eq_div]
  apply div_le_div_of_nonneg_right _ (by norm_num)
  exact_mod_cast hle

-- From 1698 to 2241, where the floats are less than a microsecond apart.
def Near (t : Int) : Prop :=
  -(2 ^ 33 * 1000000) < t ∧ t < 2 ^ 33 * 1000000

instance : DecidablePred Near := fun t => inferInstanceAs (Decidable (_ < t ∧ t < _))

theorem toUtcTimestamp_strictMono {s t : Int} (hs : Near s) (ht : Near t) (hlt : s < t)
    : toUtcTimestamp s < toUtcTimestamp t := by
  have hulp : ∀ t : Int, Near t → ulpExponent binary64 (mkRat t 1000000) ≤ -20 := by
    intro t ht
    have hbound : |mkRat t 1000000| < 2 ^ (33 : ℤ) := by
      have ht := abs_lt.mpr ht
      rw [Rat.mkRat_eq_div, abs_div, Nat.abs_cast, div_lt_iff₀ (by norm_num)]
      exact_mod_cast ht
    exact ulpExponent_le binary64 (by decide) hbound
  apply nearest_lt_nearest (hulp s hs) (hulp t ht)
  have hnext : (s : Rat) + 1 ≤ t := by exact_mod_cast hlt
  rw [Rat.mkRat_eq_div, Rat.mkRat_eq_div]
  norm_num
  linarith

/-- No pass rises and another one sets at different times that are one float. -/
def DistinctAlike (passes : List SatellitePass) : Prop :=
  ∀ p ∈ passes, ∀ q ∈ passes, toUtcTimestamp p.riseTime = toUtcTimestamp q.setTime
    → p.riseTime = q.setTime

theorem DistinctAlike.orderedAlike {passes : List SatellitePass} (h : DistinctAlike passes)
    : OrderedAlike toUtcTimestamp passes := by
  intro p hp q hq
  constructor
  . intro hlt
    by_contra hge
    exact absurd (toUtcTimestamp_mono (not_lt.mp hge)) (not_le.mpr hlt)
  . intro hlt
    apply lt_of_le_of_ne (toUtcTimestamp_mono (le_of_lt hlt))
    intro heq
    exact absurd (h p hp q hq heq) (ne_of_lt hlt)

theorem distinctAlike_of_near {passes : List SatellitePass}
    (h : ∀ p ∈ passes, Near p.riseTime ∧ Near p.setTime) : DistinctAlike passes := by
  intro p hp q hq heq
  cases lt_trichotomy p.riseTime q.setTime with
  | inl hlt =>
    have := toUtcTimestamp_strictMono (h p hp).left (h q hq).right hlt
    exact absurd heq (ne_of_lt this)
  | inr hrest =>
    cases hrest with
    | inl heq => exact heq
    | inr hgt =>
      have := toUtcTimestamp_strictMono (h q hq).right (h p hp).left hgt
      exact absurd heq (ne_of_gt this)

end IntervalTreeScheduler

open IntervalTreeScheduler in
/--
The heap scheduler selects what the plain greedy selection does, and so does the interval tree for
the candidates of a station if their times can be told apart as floats.
-/
theorem greedyByBenefit_agree (passes : List SatellitePass) (horder : ∀ p ∈ passes, p.TimeOrder)
    : GreedyScheduler.scheduleHeap passes = greedyByBenefit passes
        ∧
      (DistinctAlike passes → ∀ session stationId sats startTime endTime,
        GreedyScheduler.candidates session.table startTime endTime stationId sats = passes
          → (scheduleForStation toUtcTimestamp (fun _ => false) session stationId sats startTime
              endTime).2
            =
          some ((greedyByBenefit passes).map (·.schedule .intervalTree))) := by
  refine ⟨GreedyScheduler.scheduleHeap_eq passes horder, ?_⟩
  rintro hdistinct session stationId sats startTime endTime rfl
  apply scheduleForStation_eq hdistinct.orderedAlike

namespace IntervalTreeScheduler

-- It rises a microsecond after the beginning of the year 2300.
def shortPass : SatellitePass where
  id := 0
  noradId := 101
  stationId := "GS1"
  riseTime := 10413792000000001
  setTime := 10413792000000002
  durationSeconds := 1 / 1000000
  maxElevation := 40

theorem greedyByBenefit_agree_touching
    : let p := { shortPass with riseTime := 0, setTime := 600000000 }
      let q := { p with riseTime := 600000000, setTime := 900000000 }
      let session : Session := { table := (PassTable.empty.insert p).insert q }
      let passes := session.table.rows
      GreedyScheduler.scheduleHeap passes = greedyByBenefit passes
        ∧
      (scheduleForStation toUtcTimestamp (fun _ => false) session "GS1" ∅ 0 900000000).2
        =
      some ((greedyByBenefit passes).map (·.schedule .intervalTree)) := by
  intro p q session passes
  have hagree := greedyByBenefit_agree passes (by decide)
  refine ⟨hagree.left, ?_⟩
  apply hagree.right
  . apply distinctAlike_of_near
    decide +kernel
  . decide +kernel

theorem greedyByBenefit_not_agree
    : ¬ ∀ passes : List SatellitePass, (∀ p ∈ passes, p.TimeOrder)
        → GreedyScheduler.scheduleHeap passes = greedyByBenefit passes
            ∧
          ∀ session stationId sats startTime endTime,
            GreedyScheduler.candidates session.table startTime endTime stationId sats = passes
              → (scheduleForStation toUtcTimestamp (fun _ => false) session stationId sats startTime
                  endTime).2
                =
              some ((greedyByBenefit passes).map (·.schedule .intervalTree)) := by
  intro h
  let session : Session := { table := PassTable.empty.insert shortPass }
  have hagree := (h [{ shortPass with id := 1 }] (by decide)).right session "GS1" ∅
    10413792000000000 10413792000000010 (by decide +kernel)
  revert hagree
  decide +kernel

end IntervalTreeScheduler

end SdaSystem
