import Mathlib.Data.Finset.Dedup
import SdaSystem.Library.UnitOfWork
import SdaSystem.Scheduling.Impl.IntervalTree
import SdaSystem.Scheduling.Lemmas.Greedy

/-!
What the interval-tree scheduler persists when calls of single stations raise: the session as a unit
of work that the calls share, and when a failure stays within its station.
-/

namespace SdaSystem

theorem PassTable.markScheduled_markScheduled (table : PassTable) (ids ids' : List Nat)
    (stage : ScheduledBy)
    : (table.markScheduled ids stage).markScheduled ids' stage
        =
      table.markScheduled (ids ++ ids') stage := by
  unfold markScheduled
  rw [PassTable.mk.injEq, List.map_map]
  apply List.map_congr_left
  intro p hp
  rw [Function.comp_apply]
  by_cases h : p.id ∈ ids
  . by_cases h' : p.id ∈ ids' <;> simp [h, h', SatellitePass.schedule]
  . by_cases h' : p.id ∈ ids' <;> simp [h, h']

theorem PassTable.markScheduled_nil (table : PassTable) (stage : ScheduledBy)
    : table.markScheduled [] stage = table := by
  simp [markScheduled]

open UnitOfWork

def Session.of (table : PassTable) (s : State Nat) : Session where
  table := table.markScheduled s.written .intervalTree
  pending := s.pending

namespace Session

variable (table : PassTable) (s : State Nat)

theorem of_add (p : SatellitePass)
    : (Session.of table s).add p = Session.of table { s with pending := s.pending ++ [p.id] } := rfl

theorem of_commit (marks : List Nat)
    : (Session.of table { s with pending := s.pending ++ marks }).commit
        =
      Session.of table (s.run ⟨marks, .commit⟩) := by
  simp [Session.of, commit, PassTable.markScheduled_markScheduled, State.run]

theorem of_rollback (marks : List Nat)
    : (Session.of table { s with pending := s.pending ++ marks }).rollback
        =
      Session.of table (s.run ⟨marks, .rollback⟩) := rfl

theorem mem_of_unscheduled {p : SatellitePass} (hp : p ∈ (Session.of table s).table.rows)
    (hnew : p.isScheduled = false) : p ∈ table.rows := by
  cases PassTable.mem_markScheduled.mp hp with
  | inl hp => apply hp.left
  | inr hp =>
    obtain ⟨q, _, _, rfl⟩ := hp
    simp at hnew

end Session

namespace IntervalTreeScheduler

theorem mem_candidates {table : PassTable} {startTime endTime : Int} {stationId : String}
    {sats : Finset Int} {p : SatellitePass}
    : p ∈ candidates table startTime endTime stationId sats
        ↔
      GreedyScheduler.IsCandidate table startTime endTime stationId sats p := by
  unfold candidates
  rw [mem_sortedBy, GreedyScheduler.mem_candidates]

section

variable {toUtcTimestamp : Int → Rat}

variable (toUtcTimestamp) in
def HasLength (p : SatellitePass) : Prop :=
  toUtcTimestamp p.riseTime < toUtcTimestamp p.setTime

variable (toUtcTimestamp) in
def interval (p : SatellitePass) : Interval Nat :=
  ⟨toUtcTimestamp p.riseTime, toUtcTimestamp p.setTime, p.id⟩

variable (toUtcTimestamp) in
def Clear (p q : SatellitePass) : Prop :=
  ¬ (toUtcTimestamp p.riseTime < toUtcTimestamp q.setTime
    ∧ toUtcTimestamp q.riseTime < toUtcTimestamp p.setTime)

theorem IntervalTree.overlap_eq_nil_iff {tree : IntervalTree δ} {first last : Rat}
    : tree.overlap first last = [] ↔ ∀ iv ∈ tree, ¬ (iv.first < last ∧ first < iv.last) := by
  simp [IntervalTree.overlap]

theorem verifyNoConflicts.go_eq_nil {checkTree : IntervalTree Int} {passes : List SatellitePass}
    (htree : ∀ p ∈ passes,
      checkTree.overlap (toUtcTimestamp p.riseTime) (toUtcTimestamp p.setTime) = [])
    (hclear : passes.Pairwise (Clear toUtcTimestamp)) : go toUtcTimestamp checkTree passes = [] := by
  induction passes generalizing checkTree with
  | nil => rfl
  | cons p rest ih =>
    rw [List.forall_mem_cons] at htree
    rw [List.pairwise_cons] at hclear
    unfold go
    dsimp only
    split
    . apply ih htree.right hclear.right
    . rw [htree.left]
      apply ih _ hclear.right
      intro q hq
      rw [IntervalTree.overlap_eq_nil_iff, List.forall_mem_cons]
      refine ⟨hclear.left q hq, ?_⟩
      apply IntervalTree.overlap_eq_nil_iff.mp (htree.right q hq)

theorem verifyNoConflicts_eq_nil {passes : List SatellitePass}
    (hclear : passes.Pairwise (Clear toUtcTimestamp)) : verifyNoConflicts toUtcTimestamp passes = [] := by
  unfold verifyNoConflicts
  split
  . rfl
  . apply verifyNoConflicts.go_eq_nil _ hclear
    simp [IntervalTree.overlap]

variable (toUtcTimestamp) in
/-- What the loop has done with the candidates that it has seen: `picks` are those it took. -/
structure Selects (table : PassTable) (s : State Nat) (seen : List SatellitePass) (st : Selection)
    (picks : List SatellitePass) : Prop where
  sublist : picks.Sublist seen
  session : st.session = Session.of table { s with pending := s.pending ++ picks.map (·.id) }
  selected : st.selected = picks.map (·.schedule .intervalTree)
  tree : ∀ iv, iv ∈ st.tree ↔ ∃ p ∈ picks, iv = interval toUtcTimestamp p
  hasLength : ∀ p ∈ picks, HasLength toUtcTimestamp p
  clear : picks.Pairwise (Clear toUtcTimestamp)
  ne_nil : ∀ p ∈ seen, HasLength toUtcTimestamp p → picks ≠ []

variable {raises : Point → Bool} {table : PassTable} {s : State Nat} {st : Selection}
  {seen picks : List SatellitePass}

theorem consider_cases (i : Nat) (p : SatellitePass)
    : (consider toUtcTimestamp raises st i p = .ok st
        ∧ (HasLength toUtcTimestamp p → ∃ iv, iv ∈ st.tree))
        ∨
      (HasLength toUtcTimestamp p
        ∧ st.tree.overlap (toUtcTimestamp p.riseTime) (toUtcTimestamp p.setTime) = []
        ∧ consider toUtcTimestamp raises st i p = .ok {
            session := st.session.add p
            tree := interval toUtcTimestamp p :: st.tree
            selected := st.selected ++ [p.schedule .intervalTree]
          })
        ∨
      consider toUtcTimestamp raises st i p = .error st.session
        ∨
      consider toUtcTimestamp raises st i p = .error (st.session.add p) := by
  unfold consider
  dsimp only
  split
  . simp
  split
  . next hlen =>
    refine .inl ⟨rfl, ?_⟩
    intro hlen'
    exact absurd hlen' (not_lt.mpr hlen)
  next hlen =>
    split
    . simp
    split
    . next htree =>
      refine .inl ⟨rfl, ?_⟩
      intro _
      obtain ⟨iv, hiv⟩ := List.exists_mem_of_ne_nil _ htree
      exact ⟨iv, (List.mem_filter.mp hiv).left⟩
    next htree =>
      split
      . simp
      split
      . simp
      . exact .inr (.inl ⟨not_le.mp hlen, not_not.mp htree, rfl⟩)

theorem Selects.skip (h : Selects toUtcTimestamp table s seen st picks) {p : SatellitePass}
    (hp : HasLength toUtcTimestamp p → ∃ iv, iv ∈ st.tree)
    : Selects toUtcTimestamp table s (seen ++ [p]) st picks := by
  constructor
  case sublist => apply h.sublist.trans (List.sublist_append_left _ _)
  case session => apply h.session
  case selected => apply h.selected
  case tree => apply h.tree
  case hasLength => apply h.hasLength
  case clear => apply h.clear
  case ne_nil =>
    intro q hq hlen
    rw [List.mem_append, List.mem_singleton] at hq
    cases hq with
    | inl hq => apply h.ne_nil q hq hlen
    | inr hq =>
      obtain ⟨iv, hiv⟩ := hp (hq ▸ hlen)
      obtain ⟨p', hp', _⟩ := (h.tree iv).mp hiv
      apply List.ne_nil_of_mem hp'

theorem Selects.take (h : Selects toUtcTimestamp table s seen st picks) {p : SatellitePass}
    (hlen : HasLength toUtcTimestamp p)
    (htree : st.tree.overlap (toUtcTimestamp p.riseTime) (toUtcTimestamp p.setTime) = [])
    : Selects toUtcTimestamp table s (seen ++ [p])
        {
          session := st.session.add p
          tree := interval toUtcTimestamp p :: st.tree
          selected := st.selected ++ [p.schedule .intervalTree]
        }
        (picks ++ [p]) := by
  constructor
  case sublist => apply h.sublist.append (List.Sublist.refl _)
  case session => simp [h.session, Session.of_add]
  case selected => simp [h.selected]
  case tree =>
    intro iv
    rw [List.mem_cons, h.tree]
    simp [or_and_right, exists_or, or_comm]
  case hasLength =>
    intro q hq
    rw [List.mem_append, List.mem_singleton] at hq
    cases hq with
    | inl hq => apply h.hasLength q hq
    | inr hq => rwa [hq]
  case clear =>
    rw [List.pairwise_append]
    refine ⟨h.clear, List.pairwise_singleton _ _, ?_⟩
    intro q hq p' hp'
    rw [List.mem_singleton] at hp'
    rw [hp']
    apply IntervalTree.overlap_eq_nil_iff.mp htree (interval toUtcTimestamp q)
    apply (h.tree _).mpr ⟨q, hq, rfl⟩
  case ne_nil => simp

theorem considerAll_selects (h : Selects toUtcTimestamp table s seen st picks) (i : Nat)
    (rest : List SatellitePass)
    : ∃ picks', picks'.Sublist (seen ++ rest)
        ∧
      match considerAll toUtcTimestamp raises st i rest with
      | .ok st' => Selects toUtcTimestamp table s (seen ++ rest) st' picks'
      | .error session =>
        session = Session.of table { s with pending := s.pending ++ picks'.map (·.id) } := by
  induction rest generalizing st seen picks i with
  | nil =>
    rw [List.append_nil]
    exact ⟨picks, h.sublist, h⟩
  | cons p rest ih =>
    have happend : seen ++ p :: rest = (seen ++ [p]) ++ rest := by simp
    unfold considerAll
    rcases @consider_cases toUtcTimestamp raises st i p with
      ⟨heq, hskip⟩ | ⟨hlen, htree, heq⟩ | heq | heq
    . rw [heq, happend]
      apply ih (h.skip hskip)
    . rw [heq, happend]
      apply ih (h.take hlen htree)
    . rw [heq]
      refine ⟨picks, h.sublist.trans (List.sublist_append_left _ _), ?_⟩
      apply h.session
    . rw [heq, happend]
      refine ⟨picks ++ [p], ?_, ?_⟩
      . apply (h.sublist.append (List.Sublist.refl [p])).trans (List.sublist_append_left _ _)
      . simp [Bind.bind, Except.bind, h.session, Session.of_add]

theorem selects_nil (table : PassTable) (s : State Nat)
    : Selects toUtcTimestamp table s [] { session := Session.of table s } [] := by
  constructor <;> simp [Session.of]

variable (toUtcTimestamp raises) in
/-- The call gets to its commit, and the commit succeeds. -/
def Commits (session : Session) (stationId : String) (sats : Finset Int) (startTime endTime : Int)
    : Prop :=
  let cands := candidates session.table startTime endTime stationId sats
  raises .query = false ∧ cands ≠ []
    ∧ (∃ st, considerAll toUtcTimestamp raises { session } 0 cands = .ok st)
    ∧ raises .verifyNoConflicts = false ∧ raises .commit = false

structure Call where
  stationId : String
  picks : List SatellitePass
  ending : Ending
  raised : Bool

def Call.block (c : Call) : Block Nat where
  marks := c.picks.map (·.id)
  ending := c.ending

def Call.returned (c : Call) : Option (List SatellitePass) :=
  if c.raised then none else some (c.picks.map (·.schedule .intervalTree))

variable (toUtcTimestamp raises table s) in
structure CallSpec (sats : Finset Int) (startTime endTime : Int) (c : Call) : Prop where
  eq : scheduleForStation toUtcTimestamp raises (Session.of table s) c.stationId sats startTime endTime
    = (Session.of table (s.run c.block), c.returned)
  sublist : c.picks.Sublist
    (candidates (Session.of table s).table startTime endTime c.stationId sats)
  commits : c.ending = .commit
    ↔ Commits toUtcTimestamp raises (Session.of table s) c.stationId sats startTime endTime
  picks_eq_nil : c.ending = .commit → (c.picks = []
    ↔ ∀ p ∈ candidates (Session.of table s).table startTime endTime c.stationId sats,
        toUtcTimestamp p.setTime ≤ toUtcTimestamp p.riseTime)
  raised : c.ending = .commit → c.raised = raises .report
  returned : c.raised = false → c.ending = .commit ∨ c.picks = []

theorem CallSpec.of_not_commits {sats : Finset Int} {startTime endTime : Int} {c : Call}
    (heq : scheduleForStation toUtcTimestamp raises (Session.of table s) c.stationId sats startTime
        endTime = (Session.of table (s.run c.block), c.returned))
    (hsub : c.picks.Sublist
      (candidates (Session.of table s).table startTime endTime c.stationId sats))
    (hending : c.ending ≠ .commit)
    (hcommits : ¬ Commits toUtcTimestamp raises (Session.of table s) c.stationId sats startTime endTime)
    (hreturned : c.raised = false → c.picks = [])
    : CallSpec toUtcTimestamp raises table s sats startTime endTime c := by
  constructor
  case eq => apply heq
  case sublist => apply hsub
  case commits => exact ⟨fun h => absurd h hending, fun h => absurd h hcommits⟩
  case picks_eq_nil => exact fun h => absurd h hending
  case raised => exact fun h => absurd h hending
  case returned => exact fun h => .inr (hreturned h)

theorem Selects.verifyNoConflicts_eq_nil (h : Selects toUtcTimestamp table s seen st picks)
    : verifyNoConflicts toUtcTimestamp st.selected = [] := by
  apply IntervalTreeScheduler.verifyNoConflicts_eq_nil
  rw [h.selected, List.pairwise_map]
  apply h.clear

theorem Selects.eq_nil_iff (h : Selects toUtcTimestamp table s seen st picks)
    : picks = [] ↔ ∀ p ∈ seen, toUtcTimestamp p.setTime ≤ toUtcTimestamp p.riseTime := by
  constructor
  . intro hnil p hp
    by_contra hlen
    exact h.ne_nil p hp (not_le.mp hlen) hnil
  . intro hseen
    rw [List.eq_nil_iff_forall_not_mem]
    intro p hp
    exact absurd (h.hasLength p hp) (not_lt.mpr (hseen p (h.sublist.subset hp)))

variable (toUtcTimestamp raises table s) in
theorem exists_callSpec (stationId : String) (sats : Finset Int) (startTime endTime : Int)
    : ∃ c : Call, c.stationId = stationId
        ∧ CallSpec toUtcTimestamp raises table s sats startTime endTime c := by
  by_cases hquery : raises .query = true
  . refine ⟨⟨stationId, [], .abandon, true⟩, rfl, .of_not_commits ?_ ?_ ?_ ?_ ?_⟩
    . simp [scheduleForStation, hquery, Call.returned, Call.block, State.run]
    . apply List.nil_sublist
    . simp
    . simp [Commits, hquery]
    . simp
  rw [Bool.not_eq_true] at hquery
  by_cases hcands : candidates (Session.of table s).table startTime endTime stationId sats = []
  . refine ⟨⟨stationId, [], .abandon, false⟩, rfl, .of_not_commits ?_ ?_ ?_ ?_ ?_⟩
    . simp [scheduleForStation, hquery, hcands, Call.returned, Call.block, State.run]
    . apply List.nil_sublist
    . simp
    . simp [Commits, hcands]
    . simp
  obtain ⟨picks, hsub, hloop⟩ := @considerAll_selects toUtcTimestamp raises table s _ _ _
    (selects_nil table s) 0
    (candidates (Session.of table s).table startTime endTime stationId sats)
  rw [List.nil_append] at hsub hloop
  cases hconsider : considerAll toUtcTimestamp raises { session := Session.of table s } 0
      (candidates (Session.of table s).table startTime endTime stationId sats) with
  | error session =>
    rw [hconsider] at hloop
    refine ⟨⟨stationId, picks, .abandon, true⟩, rfl, .of_not_commits ?_ hsub ?_ ?_ ?_⟩
    . simp [scheduleForStation, hquery, hcands, hconsider, hloop, Call.returned, Call.block, State.run]
    . simp
    . simp [Commits, hconsider]
    . simp
  | ok st =>
    rw [hconsider] at hloop
    by_cases hverify : raises .verifyNoConflicts = true
    . refine ⟨⟨stationId, picks, .abandon, true⟩, rfl, .of_not_commits ?_ hsub ?_ ?_ ?_⟩
      . simp [scheduleForStation, hquery, hcands, hconsider, hverify, hloop.session, Call.returned,
          Call.block, State.run]
      . simp
      . simp [Commits, hverify]
      . simp
    rw [Bool.not_eq_true] at hverify
    by_cases hcommit : raises .commit = true
    . refine ⟨⟨stationId, picks, .rollback, true⟩, rfl, .of_not_commits ?_ hsub ?_ ?_ ?_⟩
      . simp [scheduleForStation, hquery, hcands, hconsider, hverify, hloop.verifyNoConflicts_eq_nil,
          hcommit, hloop.session, Session.of_rollback, Call.returned, Call.block]
      . simp
      . simp [Commits, hcommit]
      . simp
    rw [Bool.not_eq_true] at hcommit
    refine ⟨⟨stationId, picks, .commit, raises .report⟩, rfl, ?_⟩
    constructor
    case eq =>
      have hnone := hloop.verifyNoConflicts_eq_nil
      rw [hloop.selected] at hnone
      cases hreport : raises .report <;>
        simp [scheduleForStation, hquery, hcands, hconsider, hverify, hnone, hcommit, hreport,
          hloop.session, hloop.selected, Session.of_commit, Call.returned, Call.block]
    case sublist => apply hsub
    case commits => simp [Commits, hquery, hcands, hconsider, hverify, hcommit]
    case picks_eq_nil => exact fun _ => hloop.eq_nil_iff
    case raised => simp
    case returned => simp

end

section

variable {toUtcTimestamp : Int → Rat} {raises : String → Point → Bool} {table : PassTable}
  {startTime endTime : Int}

def returnedBy (calls : List Call) : List SatellitePass :=
  (calls.filter (¬ ·.raised)).flatMap fun c => c.picks.map (·.schedule .intervalTree)

variable (table) in
def progressOf (calls : List Call) : Progress where
  session := Session.of table (runAll (calls.map Call.block))
  allScheduled := returnedBy calls
  globallyScheduled := ((returnedBy calls).map (·.noradId)).toFinset
  failedStations := (calls.filter (·.raised)).map (·.stationId)

theorem mem_returnedBy {calls : List Call} {r : SatellitePass}
    : r ∈ returnedBy calls
        ↔
      ∃ c ∈ calls, c.raised = false ∧ ∃ p ∈ c.picks, p.schedule .intervalTree = r := by
  simp [returnedBy, and_assoc]

variable (toUtcTimestamp raises table startTime endTime) in
inductive Calls : List Call → Prop where
  | nil : Calls []
  | concat {calls : List Call} {c : Call} (hcalls : Calls calls)
      (hspec : CallSpec toUtcTimestamp (raises c.stationId) table (runAll (calls.map Call.block))
        (progressOf table calls).globallyScheduled startTime endTime c)
      : Calls (calls ++ [c])

theorem scheduleStation_progressOf {calls : List Call} {c : Call}
    (hspec : CallSpec toUtcTimestamp (raises c.stationId) table (runAll (calls.map Call.block))
      (progressOf table calls).globallyScheduled startTime endTime c)
    : scheduleStation toUtcTimestamp raises startTime endTime (progressOf table calls) c.stationId
        =
      progressOf table (calls ++ [c]) := by
  have heq := hspec.eq
  unfold scheduleStation
  unfold progressOf at heq ⊢
  dsimp only at heq ⊢
  rw [heq]
  cases hraised : c.raised <;>
    simp [Call.returned, hraised, returnedBy, runAll, List.filter_append, List.toFinset_append]

theorem Calls.foldl_eq {calls : List Call}
    (h : Calls toUtcTimestamp raises table startTime endTime calls)
    : (calls.map (·.stationId)).foldl (scheduleStation toUtcTimestamp raises startTime endTime)
          { session := { table } }
        =
      progressOf table calls := by
  induction h with
  | nil => simp [progressOf, returnedBy, runAll, Session.of, PassTable.markScheduled_nil]
  | concat hcalls hspec ih =>
    rw [List.map_append, List.foldl_append, ih]
    apply scheduleStation_progressOf hspec

variable (toUtcTimestamp raises table startTime endTime) in
theorem exists_calls (stationIds : List String)
    : ∃ calls, Calls toUtcTimestamp raises table startTime endTime calls
        ∧ calls.map (·.stationId) = stationIds := by
  induction stationIds using List.reverseRecOn with
  | nil => exact ⟨[], .nil, rfl⟩
  | append_singleton stationIds stationId ih =>
    obtain ⟨calls, hcalls, hmap⟩ := ih
    obtain ⟨c, hc, hspec⟩ := exists_callSpec toUtcTimestamp (raises stationId) table
      (runAll (calls.map Call.block)) stationId (progressOf table calls).globallyScheduled startTime
      endTime
    refine ⟨calls ++ [c], .concat hcalls ?_, ?_⟩
    . rwa [hc]
    . simp [hmap, hc]

variable {calls : List Call}

theorem Calls.of_split (h : Calls toUtcTimestamp raises table startTime endTime calls)
    {before after : List Call} {c : Call} (hsplit : calls = before ++ c :: after)
    : Calls toUtcTimestamp raises table startTime endTime before
        ∧
      CallSpec toUtcTimestamp (raises c.stationId) table (runAll (before.map Call.block))
        (progressOf table before).globallyScheduled startTime endTime c := by
  induction h generalizing after with
  | nil => simp at hsplit
  | concat hcalls hspec ih =>
    cases after using List.reverseRecOn with
    | nil =>
      obtain ⟨rfl, heq⟩ := List.append_inj' hsplit rfl
      rw [List.cons.injEq] at heq
      rw [← heq.left]
      exact ⟨hcalls, hspec⟩
    | append_singleton after c' =>
      rw [← List.cons_append, ← List.append_assoc] at hsplit
      apply ih (List.append_inj' hsplit rfl).left

theorem Calls.mem_picks (h : Calls toUtcTimestamp raises table startTime endTime calls) {c : Call}
    (hc : c ∈ calls) {p : SatellitePass} (hp : p ∈ c.picks)
    : p ∈ table.rows ∧ p.isScheduled = false ∧ p.stationId = c.stationId := by
  obtain ⟨before, after, hsplit⟩ := List.append_of_mem hc
  have hcand := mem_candidates.mp ((h.of_split hsplit).right.sublist.subset hp)
  exact ⟨Session.mem_of_unscheduled _ _ hcand.mem hcand.unscheduled, hcand.unscheduled, hcand.station⟩

theorem Calls.eq_of_mem_marks (h : Calls toUtcTimestamp raises table startTime endTime calls)
    (hnodup : (calls.map (·.stationId)).Nodup) {c c' : Call} (hc : c ∈ calls) (hc' : c' ∈ calls)
    {a : Nat} (ha : a ∈ c.block.marks) (ha' : a ∈ c'.block.marks) : c = c' := by
  obtain ⟨p, hp, hid⟩ := List.mem_map.mp ha
  obtain ⟨p', hp', hid'⟩ := List.mem_map.mp ha'
  obtain ⟨hmem, _, hst⟩ := h.mem_picks hc hp
  obtain ⟨hmem', _, hst'⟩ := h.mem_picks hc' hp'
  apply List.inj_on_of_nodup_map hnodup hc hc'
  rw [← hst, ← hst', table.eq_of_id_eq hmem hmem' (hid.trans hid'.symm)]

theorem Calls.disjoint_marks (h : Calls toUtcTimestamp raises table startTime endTime calls)
    (hnodup : (calls.map (·.stationId)).Nodup)
    : (calls.map Call.block).Pairwise fun b b' => b.marks.Disjoint b'.marks := by
  rw [List.pairwise_map]
  apply (List.pairwise_map.mp hnodup).imp_of_mem
  intro c c' hc hc' hne a ha ha'
  apply hne
  rw [h.eq_of_mem_marks hnodup hc hc' ha ha']

def Exact (calls : List Call) : Prop :=
  ∀ a, a ∈ (runAll (calls.map Call.block)).written
    ↔ ∃ c ∈ calls, c.raised = false ∧ a ∈ c.block.marks

theorem exact_iff (h : Calls toUtcTimestamp raises table startTime endTime calls)
    (hnodup : (calls.map (·.stationId)).Nodup)
    : Exact calls
        ↔
      Clean (calls.map Call.block)
        ∧ ∀ c ∈ calls, c.ending = .commit → c.raised = true → c.picks = [] := by
  have hcommitted : ∀ a, a ∈ committed (calls.map Call.block)
      ↔ ∃ c ∈ calls, c.ending = .commit ∧ a ∈ c.block.marks := by
    intro a
    rw [mem_committed]
    simp [Call.block]
  have hreturned : ∀ a, (∃ c ∈ calls, c.raised = false ∧ a ∈ c.block.marks)
      → a ∈ committed (calls.map Call.block) := by
    rintro a ⟨c, hc, hraised, ha⟩
    obtain ⟨before, after, hsplit⟩ := List.append_of_mem hc
    rw [hcommitted]
    cases (h.of_split hsplit).right.returned hraised with
    | inl hending => exact ⟨c, hc, hending, ha⟩
    | inr hnil => simp [Call.block, hnil] at ha
  rw [← mem_written_iff_committed_iff (h.disjoint_marks hnodup)]
  constructor
  . intro hexact
    refine ⟨?_, ?_⟩
    . intro a
      constructor
      . intro ha
        apply hreturned a ((hexact a).mp ha)
      . apply committed_subset_written
    . intro c hc hending hraised
      rw [List.eq_nil_iff_forall_not_mem]
      intro p hp
      have hmark : p.id ∈ c.block.marks := List.mem_map_of_mem hp
      have hwritten := committed_subset_written _ ((hcommitted p.id).mpr ⟨c, hc, hending, hmark⟩)
      obtain ⟨c', hc', hraised', hmark'⟩ := (hexact p.id).mp hwritten
      rw [h.eq_of_mem_marks hnodup hc hc' hmark hmark', hraised'] at hraised
      cases hraised
  . rintro ⟨hwritten, hsilent⟩ a
    rw [hwritten a]
    constructor
    . intro ha
      obtain ⟨c, hc, hending, hmark⟩ := (hcommitted a).mp ha
      refine ⟨c, hc, ?_, hmark⟩
      rw [← Bool.not_eq_true]
      intro hraised
      simp [Call.block, hsilent c hc hending hraised] at hmark
    . apply hreturned a

def Newly (table table' : PassTable) (r : SatellitePass) : Prop :=
  r ∈ table'.rows ∧ r.isScheduled ∧ ∃ p ∈ table.rows, p.id = r.id ∧ ¬ p.isScheduled

structure Isolated (table : PassTable) (res : Progress) : Prop where
  newly : ∀ r, r ∈ res.allScheduled ↔ Newly table res.session.table r
  failed : ∀ p : SatellitePass, p.stationId ∈ res.failedStations
    → (p ∈ res.session.table.rows ↔ p ∈ table.rows)
  unique : ∀ p q, Newly table res.session.table p → Newly table res.session.table q
    → p.noradId = q.noradId → p.stationId = q.stationId

theorem newly_markScheduled_iff {ids : List Nat} {stage : ScheduledBy} {r : SatellitePass}
    : Newly table (table.markScheduled ids stage) r
        ↔
      ∃ p ∈ table.rows, p.isScheduled = false ∧ p.id ∈ ids ∧ p.schedule stage = r := by
  unfold Newly
  rw [PassTable.mem_markScheduled]
  constructor
  . rintro ⟨hr, hsched, p, hp, hid, hnew⟩
    rw [Bool.not_eq_true] at hnew
    cases hr with
    | inl hr =>
      rw [table.eq_of_id_eq hp hr.left hid, hsched] at hnew
      cases hnew
    | inr hr =>
      obtain ⟨q, hq, hmem, rfl⟩ := hr
      rw [table.eq_of_id_eq hp hq hid] at hnew
      exact ⟨q, hq, hnew, hmem, rfl⟩
  . rintro ⟨p, hp, hnew, hmem, rfl⟩
    exact ⟨.inr ⟨p, hp, hmem, rfl⟩, rfl, p, hp, rfl, by simp [hnew]⟩

theorem Calls.newly_iff_exact (h : Calls toUtcTimestamp raises table startTime endTime calls)
    : (∀ r, r ∈ (progressOf table calls).allScheduled
        ↔ Newly table (progressOf table calls).session.table r)
        ↔
      Exact calls := by
  have hnewly : ∀ r, Newly table (progressOf table calls).session.table r
      ↔ ∃ p ∈ table.rows, p.isScheduled = false
          ∧ p.id ∈ (runAll (calls.map Call.block)).written ∧ p.schedule .intervalTree = r := by
    intro r
    apply newly_markScheduled_iff
  have hreturned : ∀ r, r ∈ (progressOf table calls).allScheduled
      ↔ ∃ c ∈ calls, c.raised = false ∧ ∃ p ∈ c.picks, p.schedule .intervalTree = r := by
    intro r
    apply mem_returnedBy
  constructor
  . intro hiff a
    constructor
    . intro ha
      obtain ⟨b, hb, hmark⟩ := exists_of_mem_written ha
      obtain ⟨c, hc, rfl⟩ := List.mem_map.mp hb
      obtain ⟨p, hp, rfl⟩ := List.mem_map.mp hmark
      obtain ⟨hmem, hnew, _⟩ := h.mem_picks hc hp
      have hret := (hiff _).mpr ((hnewly _).mpr ⟨p, hmem, hnew, ha, rfl⟩)
      obtain ⟨c', hc', hraised, q, hq, heq⟩ := (hreturned _).mp hret
      refine ⟨c', hc', hraised, List.mem_map.mpr ⟨q, hq, ?_⟩⟩
      simpa using congrArg (·.id) heq
    . rintro ⟨c, hc, hraised, hmark⟩
      obtain ⟨p, hp, rfl⟩ := List.mem_map.mp hmark
      have hnew := (hiff _).mp ((hreturned _).mpr ⟨c, hc, hraised, p, hp, rfl⟩)
      obtain ⟨q, _, _, hwritten, heq⟩ := (hnewly _).mp hnew
      have hid : q.id = p.id := by simpa using congrArg (·.id) heq
      rwa [← hid]
  . intro hexact r
    rw [hnewly, hreturned]
    constructor
    . rintro ⟨c, hc, hraised, p, hp, rfl⟩
      obtain ⟨hmem, hnew, _⟩ := h.mem_picks hc hp
      exact ⟨p, hmem, hnew, (hexact _).mpr ⟨c, hc, hraised, List.mem_map_of_mem hp⟩, rfl⟩
    . rintro ⟨p, hmem, _, hwritten, rfl⟩
      obtain ⟨c, hc, hraised, hmark⟩ := (hexact _).mp hwritten
      obtain ⟨q, hq, hid⟩ := List.mem_map.mp hmark
      rw [table.eq_of_id_eq (h.mem_picks hc hq).left hmem hid] at hq
      exact ⟨c, hc, hraised, p, hq, rfl⟩

theorem Calls.unique_returnedBy (h : Calls toUtcTimestamp raises table startTime endTime calls)
    : ∀ p ∈ returnedBy calls, ∀ q ∈ returnedBy calls, p.noradId = q.noradId
        → p.stationId = q.stationId := by
  induction h with
  | nil => simp [returnedBy]
  | @concat calls c hcalls hspec ih =>
    have hmem : ∀ r ∈ returnedBy (calls ++ [c]), r ∈ returnedBy calls
        ∨ (r.stationId = c.stationId ∧ ∀ r' ∈ returnedBy calls, r'.noradId ≠ r.noradId) := by
      intro r hr
      obtain ⟨c', hc', hraised, p, hp, rfl⟩ := mem_returnedBy.mp hr
      rw [List.mem_append, List.mem_singleton] at hc'
      cases hc' with
      | inl hc' => exact .inl (mem_returnedBy.mpr ⟨c', hc', hraised, p, hp, rfl⟩)
      | inr hc' =>
        rw [hc'] at hp
        have hcand := mem_candidates.mp (hspec.sublist.subset hp)
        have hsats := hcand.noradId
        simp only [progressOf, List.mem_toFinset, List.mem_map, not_exists, not_and] at hsats
        exact .inr ⟨hcand.station, hsats⟩
    intro p hp q hq heq
    rcases hmem p hp with hp | ⟨hst, hp'⟩ <;> rcases hmem q hq with hq | ⟨hst', hq'⟩
    . apply ih p hp q hq heq
    . exact absurd heq (hq' p hp)
    . exact absurd heq.symm (hp' q hq)
    . rw [hst, hst']

theorem Calls.isolated_iff (h : Calls toUtcTimestamp raises table startTime endTime calls)
    (hnodup : (calls.map (·.stationId)).Nodup)
    : Isolated table (progressOf table calls) ↔ Exact calls := by
  rw [← h.newly_iff_exact]
  constructor
  . exact fun hisolated => hisolated.newly
  . intro hnewly
    have hexact := h.newly_iff_exact.mp hnewly
    constructor
    case newly => apply hnewly
    case failed =>
      intro p hst
      obtain ⟨c, hc, hstation⟩ := List.mem_map.mp hst
      rw [List.mem_filter] at hc
      -- An id of the failed station is not written: it was picked by no call that returned.
      have hunwritten : ∀ q ∈ table.rows, q.stationId = p.stationId
          → q.id ∉ (runAll (calls.map Call.block)).written := by
        intro q hq hqst hwritten
        obtain ⟨c', hc', hraised, hmark⟩ := (hexact _).mp hwritten
        obtain ⟨q', hq', hid⟩ := List.mem_map.mp hmark
        obtain ⟨hmem', _, hst'⟩ := h.mem_picks hc' hq'
        rw [table.eq_of_id_eq hmem' hq hid, hqst, ← hstation] at hst'
        rw [← List.inj_on_of_nodup_map hnodup hc.left hc' hst', hc.right] at hraised
        cases hraised
      rw [show (progressOf table calls).session.table
          = table.markScheduled (runAll (calls.map Call.block)).written .intervalTree from rfl,
        PassTable.mem_markScheduled]
      constructor
      . rintro (hp | ⟨q, hq, hid, rfl⟩)
        . apply hp.left
        . exact absurd hid (hunwritten q hq rfl)
      . intro hp
        exact .inl ⟨hp, hunwritten p hp rfl⟩
    case unique =>
      intro p q hp hq
      apply h.unique_returnedBy
      . apply (hnewly p).mpr hp
      . apply (hnewly q).mpr hq

/--
Failures stay within their stations if and only if no call commits while rows are pending that an
earlier call marked before it raised, and none that took a row raises after its commit.
-/
theorem scheduleAllStations_isolated_iff (toUtcTimestamp : Int → Rat)
    (raises : String → Point → Bool) (stations : StationTable) (table : PassTable)
    (startTime endTime : Int)
    : Isolated table
          (scheduleAllStations toUtcTimestamp raises stations table startTime endTime)
        ↔
      ∀ before stationId after,
        GreedyScheduler.activeStations stations = before ++ stationId :: after →
        let acc := before.foldl (scheduleStation toUtcTimestamp raises startTime endTime)
          { session := { table } }
        Commits toUtcTimestamp (raises stationId) acc.session stationId acc.globallyScheduled
            startTime endTime →
          acc.session.pending = []
            ∧
          (raises stationId .report = true →
            ∀ p ∈ candidates acc.session.table startTime endTime stationId acc.globallyScheduled,
              toUtcTimestamp p.setTime ≤ toUtcTimestamp p.riseTime) := by
  obtain ⟨calls, hcalls, hstations⟩ := exists_calls toUtcTimestamp raises table startTime endTime
    (GreedyScheduler.activeStations stations)
  have hnodup : (calls.map (·.stationId)).Nodup := by
    rw [hstations]
    apply GreedyScheduler.activeStations_nodup
  unfold scheduleAllStations
  rw [← hstations, hcalls.foldl_eq, hcalls.isolated_iff hnodup, exact_iff hcalls hnodup]
  dsimp only
  constructor
  . rintro ⟨hclean, hsilent⟩ before stationId after hsplit hcommits
    obtain ⟨before', rest, rfl, hbefore, hrest⟩ := List.map_eq_append_iff.mp hsplit
    obtain ⟨c, after', rfl, rfl, hafter⟩ := List.map_eq_cons_iff.mp hrest
    obtain ⟨hcalls', hspec⟩ := hcalls.of_split rfl
    rw [← hbefore, hcalls'.foldl_eq] at hcommits ⊢
    have hending := hspec.commits.mpr hcommits
    refine ⟨?_, ?_⟩
    . apply hclean (before'.map Call.block) c.block (after'.map Call.block) (by simp) hending
    . intro hreport
      apply (hspec.picks_eq_nil hending).mp
      apply hsilent c (by simp) hending
      rw [hspec.raised hending, hreport]
  . intro hcond
    have hat : ∀ before c after, calls = before ++ c :: after → c.ending = .commit
        → (runAll (before.map Call.block)).pending = [] ∧ (c.raised = true → c.picks = []) := by
      intro before c after hsplit hending
      obtain ⟨hcalls', hspec⟩ := hcalls.of_split hsplit
      have hc := hcond (before.map (·.stationId)) c.stationId (after.map (·.stationId))
        (by simp [hsplit])
      rw [hcalls'.foldl_eq] at hc
      obtain ⟨hpending, hreport⟩ := hc (hspec.commits.mp hending)
      refine ⟨hpending, ?_⟩
      intro hraised
      apply (hspec.picks_eq_nil hending).mpr
      apply hreport
      rw [← hspec.raised hending, hraised]
    refine ⟨?_, ?_⟩
    . intro before b after hsplit hending
      obtain ⟨before', rest, rfl, rfl, hrest⟩ := List.map_eq_append_iff.mp hsplit
      obtain ⟨c, after', rfl, rfl, hafter⟩ := List.map_eq_cons_iff.mp hrest
      apply (hat before' c after' rfl hending).left
    . intro c hc hending
      obtain ⟨before, after, hsplit⟩ := List.append_of_mem hc
      apply (hat before c after hsplit hending).right

def twoStations : StationTable where
  rows := [⟨"GS1", true⟩, ⟨"GS2", true⟩]
  uniqueKey := by decide

def firstPass : SatellitePass where
  id := 0
  noradId := 101
  stationId := "GS1"
  riseTime := 0
  setTime := 600000000
  durationSeconds := 600
  maxElevation := 80

def secondPass : SatellitePass :=
  { firstPass with noradId := 102, riseTime := 3000000000, setTime := 3600000000, maxElevation := 40 }

def otherStation : SatellitePass :=
  { firstPass with stationId := "GS2", riseTime := 700000000, setTime := 1300000000 }

theorem scheduleAllStations_not_isolated
    : ¬ ∀ (toUtcTimestamp : Int → Rat) (raises : String → Point → Bool) (stations : StationTable)
        (table : PassTable) (startTime endTime : Int),
        Isolated table
          (scheduleAllStations toUtcTimestamp raises stations table startTime endTime) := by
  intro h
  let table := ((PassTable.empty.insert firstPass).insert secondPass).insert otherStation
  let raises : String → Point → Bool := fun stationId point =>
    stationId = "GS1" ∧ point = .toUtcTimestamp 1
  let res := scheduleAllStations (mkRat · 1000000) raises twoStations table 0 7200000000
  let stray := { firstPass with id := 1, isScheduled := true, scheduledBy := some .intervalTree }
  have hnew : Newly table res.session.table stray := by
    unfold Newly
    decide +kernel
  have hnot : stray ∉ res.allScheduled := by decide +kernel
  exact hnot (((h _ _ _ _ _ _).newly stray).mpr hnew)

end

end IntervalTreeScheduler
end SdaSystem
