import SdaSystem.Api.Impl.Passes
import SdaSystem.Library.Pages

/-!
The pages of `GET /api/passes` without a cache. Each page is a query of its own, which is sorted by
rise time only, so passes that rise together need not keep their order from one page to the next.
-/

open Pages

namespace SdaSystem
namespace Passes

variable {table : PassTable} {req : Request}

theorem getPassesDb_query (table : PassTable) (req : Request)
    : getPassesDb table (req.query table) req = (getPasses table none req).2 := by
  unfold getPassesDb getPasses
  cases req.check with
  | some error => rfl
  | none => rfl

theorem pairwise_query (table : PassTable) (req : Request)
    : (req.query table).Pairwise fun p q => p.riseTime ≤ q.riseTime := by
  apply pairwise_sortedBy

theorem nodup_query (table : PassTable) (req : Request) : (req.query table).Nodup := by
  unfold Request.query
  rw [(sortedBy_perm _ _).nodup_iff]
  apply List.Nodup.filter
  apply List.Nodup.of_map _ table.primaryKey

def shown (table : PassTable) (rows : List SatellitePass) (req : Request)
    : PaginatedPassesResponse :=
  { req.paginate (req.query table) with data := req.onPage rows }

theorem atPage_of_startTime (h : req.startTime.isSome) (page : Nat) (page_pos : 1 ≤ page) (now : Int)
    : (req.atPage page page_pos now).check = req.check
        ∧ (req.atPage page page_pos now).query table = req.query table := by
  obtain ⟨startTime, hstart⟩ := Option.isSome_iff_exists.mp h
  have hstart' : (req.atPage page page_pos now).start = req.start := by
    simp [Request.start, Request.atPage, hstart]
  have hstop' : (req.atPage page page_pos now).stop = req.stop := by
    simp [Request.stop, Request.atPage, hstart]
  unfold Request.check Request.query
  rw [hstart', hstop']
  exact ⟨rfl, rfl⟩

theorem followNextPage_succ (orders : Nat → List SatellitePass) (clock : Nat → Int) (fuel : Nat)
    (hcheck : req.check = none)
    : followNextPage table orders clock (fuel + 1) req
        =
      if (req.page - 1) * req.pageSize + req.pageSize < (req.query table).length then
        (followNextPage table orders clock fuel
          (req.atPage (req.page + 1) (Nat.le_add_left 1 req.page) (clock (req.page + 1)))).map
          (·.map (shown table (orders req.page) req :: ·))
      else
        some (.ok [shown table (orders req.page) req]) := by
  have hresponse : getPassesDb table (orders req.page) req
      = .ok (shown table (orders req.page) req) := by
    unfold getPassesDb
    rw [hcheck]
    rfl
  conv_lhs => unfold followNextPage
  rw [hresponse]
  unfold shown Request.paginate
  dsimp only
  by_cases hnext : (req.page - 1) * req.pageSize + req.pageSize < (req.query table).length
  . simp only [if_pos hnext, dif_pos (Nat.le_add_left 1 req.page)]
  . simp only [if_neg hnext]

section fixed

variable (orders : Nat → List SatellitePass) (clock : Nat → Int)

theorem followNextPage_eq (hstart : req.startTime.isSome) (hcheck : req.check = none)
    {fuel : Nat} (hpos : 0 < fuel)
    (hfuel : (req.query table).length ≤ (req.page - 1 + fuel) * req.pageSize)
    : ∃ n responses, followNextPage table orders clock fuel req = some (.ok responses)
        ∧
      (req.query table).length ≤ (req.page - 1 + n) * req.pageSize
        ∧
      (∀ response ∈ responses, response.totalCount = (req.query table).length)
        ∧
      responses.flatMap (·.data)
        =
      (List.range' (req.page - 1) n).flatMap fun k => pageOf req.pageSize k (orders (k + 1)) := by
  induction fuel generalizing req with
  | zero => omega
  | succ fuel ih =>
    have hpage : req.page - 1 + 1 = req.page := Nat.sub_add_cancel req.page_pos
    have hdata : (shown table (orders req.page) req).data
        = pageOf req.pageSize (req.page - 1) (orders (req.page - 1 + 1)) := by
      rw [hpage]
      rfl
    rw [followNextPage_succ orders clock fuel hcheck]
    by_cases hnext : (req.page - 1) * req.pageSize + req.pageSize < (req.query table).length
    . obtain ⟨hcheck', hquery'⟩ := @atPage_of_startTime table req hstart (req.page + 1)
        (Nat.le_add_left 1 req.page) (clock (req.page + 1))
      have hpos' : 0 < fuel := by
        apply Nat.pos_of_ne_zero
        intro hzero
        rw [hzero, Nat.add_mul] at hfuel
        omega
      have hfuel' : (req.query table).length ≤ (req.page + 1 - 1 + fuel) * req.pageSize := by
        rwa [show req.page - 1 + (fuel + 1) = req.page + 1 - 1 + fuel by omega] at hfuel
      rw [← hquery'] at hfuel'
      let next := req.atPage (req.page + 1) (Nat.le_add_left 1 req.page) (clock (req.page + 1))
      obtain ⟨n, responses, hwalk, hall, htotals, hrest⟩ :=
        @ih next hstart (hcheck'.trans hcheck) hpos' hfuel'
      rw [hquery'] at hall htotals
      rw [if_pos hnext, hwalk]
      refine ⟨n + 1, shown table (orders req.page) req :: responses, rfl, ?_, ?_, ?_⟩
      . rw [show req.page - 1 + (n + 1) = req.page + n by omega]
        exact hall
      . intro response hresponse
        cases List.mem_cons.mp hresponse with
        | inl heq => rw [heq]; rfl
        | inr hmem => apply htotals response hmem
      . rw [List.flatMap_cons, List.range'_succ, List.flatMap_cons, hdata, hrest, hpage]
        rfl
    . rw [if_neg hnext]
      refine ⟨1, [shown table (orders req.page) req], rfl, ?_, ?_, ?_⟩
      . rw [Nat.add_one_mul]
        omega
      . intro response hresponse
        rw [List.mem_singleton.mp hresponse]
        rfl
      . simp [hdata]

theorem followNextPage_from_first (hstart : req.startTime.isSome) (hcheck : req.check = none)
    (hpage : req.page = 1)
    : ∃ n responses, followNextPage table orders clock ((req.query table).length + 1) req
          = some (.ok responses)
        ∧
      (req.query table).length ≤ n * req.pageSize
        ∧
      (∀ response ∈ responses, response.totalCount = (req.query table).length)
        ∧
      responses.flatMap (·.data) = pagesOf req.pageSize n (fun k => orders (k + 1)) := by
  have hfuel : (req.query table).length
      ≤ (req.page - 1 + ((req.query table).length + 1)) * req.pageSize := by
    calc
      (req.query table).length ≤ req.page - 1 + ((req.query table).length + 1) := by omega
      _ ≤ _ := Nat.le_mul_of_pos_right _ req.pageSize_pos
  obtain ⟨n, responses, hwalk, hall, htotals, hdata⟩ :=
    followNextPage_eq orders clock hstart hcheck (Nat.succ_pos _) hfuel
  rw [hpage, Nat.sub_self, Nat.zero_add] at hall
  rw [hpage, Nat.sub_self, ← List.range_eq_range'] at hdata
  exact ⟨n, responses, hwalk, hall, htotals, hdata⟩

theorem followNextPage_one (hcheck : req.check = none) (hpage : req.page = 1)
    (hone : (req.query table).length ≤ req.pageSize) (fuel : Nat)
    : followNextPage table orders clock (fuel + 1) req
        = some (.ok [shown table (orders req.page) req]) := by
  rw [followNextPage_succ orders clock fuel hcheck, if_neg]
  rw [hpage, Nat.sub_self, Nat.zero_mul, Nat.zero_add, not_lt]
  exact hone

end fixed

theorem atPage_first (hpage : req.page = 1) (page_pos : 1 ≤ 1)
    : req.atPage 1 page_pos req.now = req := by
  unfold Request.atPage
  simp only [← hpage]

section moving

variable {now : Int}

def NeverBack (clock : Nat → Int) : Prop :=
  ∀ ⦃page page'⦄, page ≤ page' → clock page ≤ clock page'

def laterPages (req : Request) (now : Int) (page : Nat) : Int :=
  if page ≤ 1 then req.now else now

theorem neverBack_laterPages (h : req.now ≤ now) : NeverBack (laterPages req now) := by
  intro page page' hle
  unfold laterPages
  split
  . split
    . exact le_refl _
    . exact h
  . next hlater =>
    rw [if_neg (by omega)]

theorem query_eq_nil_of_late (hstart : req.startTime = none) {page : Nat} {page_pos : 1 ≤ page}
    (hlate : ∀ p ∈ table.rows, p.riseTime < now - sevenDays)
    : (req.atPage page page_pos now).query table = [] := by
  have hwindow : (req.atPage page page_pos now).start.instant = now - sevenDays := by
    simp [Request.start, Request.atPage, hstart, DateTime.aware, DateTime.instant]
  unfold Request.query
  rw [List.filter_eq_nil_iff.mpr]
  . rfl
  . intro p hp
    have := hlate p hp
    simp only [hwindow, decide_eq_true_eq, not_and]
    intro hle
    omega

theorem exists_late (table : PassTable) (req : Request)
    : ∃ now, req.now ≤ now ∧ ∀ p ∈ table.rows, p.riseTime < now - sevenDays := by
  have hrows : ∀ rows : List SatellitePass, ∃ now, req.now ≤ now
      ∧ ∀ p ∈ rows, p.riseTime < now - sevenDays := by
    intro rows
    induction rows with
    | nil => exact ⟨req.now, le_refl _, by simp⟩
    | cons p rows ih =>
      obtain ⟨now, hnow, hrows⟩ := ih
      refine ⟨max now (p.riseTime + sevenDays + 1), le_max_of_le_left hnow, ?_⟩
      intro q hq
      rcases List.mem_cons.mp hq with rfl | hq
      . omega
      . have := hrows q hq
        omega
  exact hrows table.rows

theorem followNextPage_late (hstart : req.startTime = none) (hcheck : req.check = none)
    (hpage : req.page = 1) (hmore : req.pageSize < (req.query table).length)
    (hlate : ∀ p ∈ table.rows, p.riseTime < now - sevenDays) {orders : Nat → List SatellitePass}
    (horders : orders 2 = []) {fuel : Nat} {responses : List PaginatedPassesResponse}
    (hwalk : followNextPage table orders (laterPages req now) (fuel + 2) req
      = some (.ok responses))
    : responses.flatMap (·.data) = req.onPage (orders 1) := by
  have hclock : laterPages req now 2 = now := rfl
  rw [followNextPage_succ orders _ (fuel + 1) hcheck, hpage, if_pos (by omega)] at hwalk
  have hnone := @query_eq_nil_of_late table req now hstart 2 (by decide) hlate
  rw [Option.map_eq_some_iff] at hwalk
  obtain ⟨rest, hrest, heq⟩ := hwalk
  rw [hclock] at hrest
  unfold followNextPage getPassesDb at hrest
  cases hcheck' : (req.atPage 2 (by decide) now).check with
  | some error =>
    rw [hcheck'] at hrest
    cases hrest
    cases heq
  | none =>
    rw [hcheck'] at hrest
    dsimp only at hrest
    rw [hnone] at hrest
    simp only [List.length_nil, Nat.not_lt_zero, if_false] at hrest
    cases hrest
    cases heq
    have hsecond : (req.atPage 2 (by decide) now).onPage (orders 2) = [] := by
      rw [horders]
      simp [Request.onPage]
    simp only [List.flatMap_cons, List.flatMap_nil, List.append_nil]
    show req.onPage (orders 1) ++ (req.atPage 2 (by decide) now).onPage (orders 2) = _
    rw [hsecond, List.append_nil]

theorem exists_incomplete_walk (hstart : req.startTime = none) (hcheck : req.check = none)
    (hpage : req.page = 1) (hmore : req.pageSize < (req.query table).length)
    : ∃ orders clock, clock 1 = req.now
        ∧ NeverBack clock
        ∧ (∀ page (page_pos : 1 ≤ page), Ordering (·.riseTime)
            ((req.atPage page page_pos (clock page)).query table) (orders page))
        ∧ ∀ responses,
            followNextPage table orders clock ((req.query table).length + 1) req = some (.ok responses)
              → (responses.flatMap (·.data)).length < (req.query table).length := by
  obtain ⟨now, hnow, hlate⟩ := exists_late table req
  let orders (page : Nat) : List SatellitePass := if page ≤ 1 then req.query table else []
  refine ⟨orders, laterPages req now, rfl, neverBack_laterPages hnow, ?_, ?_⟩
  . intro page page_pos
    by_cases hfirst : page ≤ 1
    . obtain rfl : page = 1 := by omega
      have hclock : laterPages req now 1 = req.now := rfl
      rw [hclock, atPage_first hpage]
      exact ⟨List.Perm.refl _, pairwise_query table req⟩
    . have hclock : laterPages req now page = now := if_neg hfirst
      have horders : orders page = [] := if_neg hfirst
      rw [hclock, query_eq_nil_of_late hstart hlate, horders]
      exact ⟨List.Perm.refl _, List.Pairwise.nil⟩
  . intro responses hwalk
    obtain ⟨fuel, hfuel⟩ : ∃ fuel, (req.query table).length + 1 = fuel + 2 :=
      ⟨(req.query table).length - 1, by omega⟩
    rw [hfuel] at hwalk
    rw [followNextPage_late hstart hcheck hpage hmore hlate rfl hwalk]
    apply lt_of_le_of_lt _ hmore
    apply List.length_take_le

end moving

section partition

theorem exists_repeating_walk (hstart : req.startTime.isSome) (hcheck : req.check = none)
    (hpage : req.page = 1) {k : Nat}
    (htie : ¬ StepsAt (·.riseTime) (req.query table) ((k + 1) * req.pageSize - 1))
    : ∃ orders : Nat → List SatellitePass,
        (∀ page (page_pos : 1 ≤ page), Ordering (·.riseTime)
            ((req.atPage page page_pos req.now).query table) (orders page))
        ∧ ∀ responses,
            followNextPage table orders (fun _ => req.now) ((req.query table).length + 1) req
                = some (.ok responses)
              → ¬ (responses.flatMap (·.data)).Perm (req.query table) := by
  obtain ⟨orders, horders, htwice⟩ :=
    exists_not_nodup_pagesOf (pairwise_query table req) req.pageSize_pos htie
  refine ⟨fun page => orders (page - 1), ?_, ?_⟩
  . intro page page_pos
    rw [(atPage_of_startTime hstart page page_pos req.now).right]
    exact horders _
  . intro responses hwalk hperm
    obtain ⟨n, responses', hwalk', hall, _, hdata⟩ :=
      followNextPage_from_first (fun page => orders (page - 1)) (fun _ => req.now) hstart hcheck hpage
    rw [hwalk, Option.some.injEq, Except.ok.injEq] at hwalk'
    rw [hwalk', hdata] at hperm
    exact htwice n hall (hperm.nodup_iff.mpr (nodup_query table req))

theorem stepsAt_of_one_page (hone : (req.query table).length ≤ req.pageSize) (k : Nat)
    : StepsAt (·.riseTime) (req.query table) ((k + 1) * req.pageSize - 1) := by
  intro a b _ hb
  obtain ⟨hlt, _⟩ := List.getElem?_eq_some_iff.mp hb
  have := Nat.le_mul_of_pos_left req.pageSize (show 0 < k + 1 by omega)
  have := req.pageSize_pos
  omega

variable {orders : Nat → List SatellitePass} {clock : Nat → Int}

theorem walk_of_startTime (hstart : req.startTime.isSome) (hcheck : req.check = none)
    (hpage : req.page = 1)
    (hsteps : ∀ k, StepsAt (·.riseTime) (req.query table) ((k + 1) * req.pageSize - 1))
    (horders : ∀ page (page_pos : 1 ≤ page), Ordering (·.riseTime)
      ((req.atPage page page_pos (clock page)).query table) (orders page))
    : ∃ responses,
        followNextPage table orders clock ((req.query table).length + 1) req = some (.ok responses)
          ∧
        (∀ response ∈ responses, response.totalCount = (req.query table).length)
          ∧
        (responses.flatMap (·.data)).Perm (req.query table) := by
  have horders' : ∀ k, Ordering (·.riseTime) (req.query table) (orders (k + 1)) := by
    intro k
    have := horders (k + 1) (Nat.le_add_left 1 k)
    rwa [(atPage_of_startTime hstart _ _ _).right] at this
  obtain ⟨n, responses, hwalk, hall, htotals, hdata⟩ :=
    followNextPage_from_first orders clock hstart hcheck hpage
  have hperm := pagesOf_perm (pairwise_query table req) req.pageSize_pos hsteps horders' n
  rw [List.take_of_length_le hall, ← hdata] at hperm
  exact ⟨responses, hwalk, htotals, hperm⟩

theorem walk_of_one_page (hone : (req.query table).length ≤ req.pageSize) (hcheck : req.check = none)
    (hpage : req.page = 1) (horder : Ordering (·.riseTime) (req.query table) (orders 1))
    : ∃ responses,
        followNextPage table orders clock ((req.query table).length + 1) req = some (.ok responses)
          ∧
        (∀ response ∈ responses, response.totalCount = (req.query table).length)
          ∧
        (responses.flatMap (·.data)).Perm (req.query table) := by
  have hdata : [shown table (orders req.page) req].flatMap (·.data) = orders 1 := by
    simp only [List.flatMap_cons, List.flatMap_nil, List.append_nil]
    show req.onPage (orders req.page) = _
    unfold Request.onPage
    rw [hpage, Nat.sub_self, Nat.zero_mul, List.drop_zero, List.take_of_length_le]
    rw [horder.perm.length_eq]
    exact hone
  refine ⟨_, followNextPage_one orders clock hcheck hpage hone _, ?_, ?_⟩
  . intro response hresponse
    rw [List.mem_singleton.mp hresponse]
    rfl
  . rw [hdata]
    exact horder.perm

/--
Whatever orders the queries see and whenever the requests arrive, the walk shows every matching pass
once if and only if its window does not move with the clock, or it has one page only, and no page ends
between passes that rise together.
-/
theorem followNextPage_partitions_iff (table : PassTable) (req : Request)
    (hcheck : req.check = none) (hpage : req.page = 1)
    : (∀ (orders : Nat → List SatellitePass) (clock : Nat → Int), clock 1 = req.now → NeverBack clock
        → (∀ page (page_pos : 1 ≤ page), Ordering (·.riseTime)
            ((req.atPage page page_pos (clock page)).query table) (orders page))
          → ∃ responses,
              followNextPage table orders clock ((req.query table).length + 1) req
                  = some (.ok responses)
                ∧
              (∀ response ∈ responses, response.totalCount = (req.query table).length)
                ∧
              (responses.flatMap (·.data)).length = (req.query table).length
                ∧
              (responses.flatMap (·.data)).Perm (req.query table))
        ↔
      (req.startTime.isSome ∨ (req.query table).length ≤ req.pageSize)
        ∧ ∀ k, StepsAt (·.riseTime) (req.query table) ((k + 1) * req.pageSize - 1) := by
  constructor
  . intro h
    have hfixed : req.startTime.isSome ∨ (req.query table).length ≤ req.pageSize := by
      by_contra hmoving
      rw [not_or, not_le, Option.not_isSome_iff_eq_none] at hmoving
      obtain ⟨orders, clock, hclock, hforth, horders, hshort⟩ :=
        exists_incomplete_walk hmoving.left hcheck hpage hmoving.right
      obtain ⟨responses, hwalk, _, hlength, _⟩ := h orders clock hclock hforth horders
      have := hshort responses hwalk
      omega
    refine ⟨hfixed, ?_⟩
    intro k
    rcases hfixed with hstart | hone
    . by_contra htie
      obtain ⟨orders, horders, htwice⟩ := exists_repeating_walk hstart hcheck hpage htie
      obtain ⟨responses, hwalk, _, _, hperm⟩ :=
        h orders (fun _ => req.now) rfl (fun _ _ _ => le_refl _) horders
      apply htwice responses hwalk hperm
    . apply stepsAt_of_one_page hone
  . rintro ⟨hfixed, hsteps⟩ orders clock hclock _ horders
    have hwalk : ∃ responses,
        followNextPage table orders clock ((req.query table).length + 1) req = some (.ok responses)
          ∧ (∀ response ∈ responses, response.totalCount = (req.query table).length)
          ∧ (responses.flatMap (·.data)).Perm (req.query table) := by
      rcases hfixed with hstart | hone
      . apply walk_of_startTime hstart hcheck hpage hsteps horders
      . have horder := horders 1 (Nat.le_refl 1)
        rw [hclock, atPage_first hpage] at horder
        apply walk_of_one_page hone hcheck hpage horder
    obtain ⟨responses, hwalk, htotals, hperm⟩ := hwalk
    exact ⟨responses, hwalk, htotals, hperm.length_eq, hperm⟩

end partition

def riser : SatellitePass where
  id := 1
  noradId := 25544
  stationId := "GS001"
  riseTime := 36000000000
  setTime := 36600000000
  durationSeconds := 600
  maxElevation := 45

def twoRisers : PassTable where
  rows := [riser, { riser with id := 2, stationId := "GS002" }]
  primaryKey := by decide
  uniqueKey := by decide
  timeOrder := by decide

def firstDay (pageSize : Nat) (pos : 1 ≤ pageSize) (le : pageSize ≤ 100) : Request where
  startTime := some { wall := 0, utcoffset := some 0 }
  endTime := some { wall := 86400000000, utcoffset := some 0 }
  pageSize
  now := 0
  pageSize_pos := pos
  pageSize_le := le

theorem followNextPage_partitions_iff_one
    : let req := firstDay 50 (by decide) (by decide)
      (∀ (orders : Nat → List SatellitePass) (clock : Nat → Int), clock 1 = req.now → NeverBack clock
        → (∀ page (page_pos : 1 ≤ page), Ordering (·.riseTime)
            ((req.atPage page page_pos (clock page)).query twoRisers) (orders page))
          → ∃ responses,
              followNextPage twoRisers orders clock ((req.query twoRisers).length + 1) req
                  = some (.ok responses)
                ∧
              (∀ response ∈ responses, response.totalCount = (req.query twoRisers).length)
                ∧
              (responses.flatMap (·.data)).length = (req.query twoRisers).length
                ∧
              (responses.flatMap (·.data)).Perm (req.query twoRisers))
        ↔
      (req.startTime.isSome ∨ (req.query twoRisers).length ≤ req.pageSize)
        ∧ ∀ k, StepsAt (·.riseTime) (req.query twoRisers) ((k + 1) * req.pageSize - 1) :=
  followNextPage_partitions_iff twoRisers _ (by decide) rfl

/-- The second query sees the passes that rise together the other way round. -/
theorem followNextPage_not_partitions
    : ¬ ∀ (table : PassTable) (req : Request) (orders : Nat → List SatellitePass) (clock : Nat → Int),
        req.check = none → req.page = 1 → clock 1 = req.now → NeverBack clock
          → (∀ page (page_pos : 1 ≤ page), Ordering (·.riseTime)
              ((req.atPage page page_pos (clock page)).query table) (orders page))
          → ∃ responses,
              followNextPage table orders clock ((req.query table).length + 1) req
                  = some (.ok responses)
                ∧
              (responses.flatMap (·.data)).Perm (req.query table) := by
  intro h
  let req := firstDay 1 (by decide) (by decide)
  let rows := req.query twoRisers
  let orders : Nat → List SatellitePass := fun page => if page = 1 then rows else rows.reverse
  have horders : ∀ page (page_pos : 1 ≤ page),
      Ordering (·.riseTime) ((req.atPage page page_pos 0).query twoRisers) (orders page) := by
    intro page page_pos
    have hsorted : rows.Pairwise fun p q => p.riseTime ≤ q.riseTime := pairwise_query _ _
    have heq : (req.atPage page page_pos 0).query twoRisers = rows :=
      (atPage_of_startTime rfl page page_pos 0).right
    rw [heq]
    dsimp only [orders]
    split
    . exact ⟨List.Perm.refl _, hsorted⟩
    . exact ⟨List.reverse_perm rows, by decide +kernel⟩
  obtain ⟨responses, hwalk, hperm⟩ := h twoRisers req orders (fun _ => 0) (by decide) rfl rfl
    (fun _ _ _ => le_refl _) horders
  have htwice : (followNextPage twoRisers orders (fun _ => 0) (rows.length + 1) req).map
      (·.toOption.map (·.flatMap (·.data))) = some (some [riser, riser]) := by
    decide +kernel
  rw [hwalk, Option.map_some, Option.some.injEq] at htwice
  have hdata : responses.flatMap (·.data) = [riser, riser] := Option.some.inj htwice
  rw [hdata] at hperm
  have := hperm.nodup_iff.mpr (nodup_query twoRisers req)
  revert this
  decide

end Passes
end SdaSystem
