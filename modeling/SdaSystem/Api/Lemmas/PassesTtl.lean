import Mathlib.Order.Basic
import SdaSystem.Api.Impl.PassesTtl

open Runs

namespace SdaSystem
namespace Passes

section

variable (s₀ : TimedState)

def Counted (n : Nat) (req : Request) (totalCount : Nat) : List TimedEvent → Prop :=
  Once TimedStep s₀ fun _ s e => e = .count n ∧ totalCount = (req.query s.table).length

def Paged (n : Nat) (req : Request) (totalCount : Nat) (passes : List SatellitePass)
    : List TimedEvent → Prop :=
  Once TimedStep s₀ fun before s e =>
    e = .page n ∧ passes = req.onPage (req.query s.table) ∧ Counted s₀ n req totalCount before

/-- A request `w` with this key has sent all that it found, on the page that it had found before. -/
def Filled (key : String × Int) (passes : List SatellitePass) : List TimedEvent → Prop :=
  Once TimedStep s₀ fun before s e => ∃ m w totalCount onPage, e = .finish m
    ∧ w.check = none ∧ w.page = 1 ∧ w.passKey = some key
    ∧ Paged s₀ m w totalCount onPage before ∧ passes = identityMap onPage (w.query s.table)

def Stored (key : String × Int) (passes : List SatellitePass) (putAt : Int) : List TimedEvent → Prop :=
  Once TimedStep s₀ fun before s e =>
    s.now = putAt ∧ e = .land key passes ∧ Filled s₀ key passes before

def FromCache (n : Nat) (req : Request) (response : PaginatedPassesResponse) : List TimedEvent → Prop :=
  Once TimedStep s₀ fun before s e => e = .lookup n true
    ∧ ∃ key passes putAt, req.passKey = some key ∧ passes ≠ [] ∧ response = req.paginate passes
      ∧ putAt ≤ s.now ∧ s.now ≤ putAt + cacheTtl ∧ Stored s₀ key passes putAt before

def FromTable (n : Nat) (req : Request) (response : PaginatedPassesResponse)
    (events : List TimedEvent) : Prop :=
  ∃ totalCount passes, response = req.respond totalCount passes
    ∧ Paged s₀ n req totalCount passes events

def CallOk (n : Nat) (req : Request) (phase : Phase) (events : List TimedEvent) : Prop :=
  match phase with
  | .started => req.check = none
  | .missed => req.check = none
  | .counted totalCount => req.check = none ∧ Counted s₀ n req totalCount events
  | .paged totalCount passes => req.check = none ∧ Paged s₀ n req totalCount passes events
  | .done (.ok response) =>
    req.check = none ∧ (FromTable s₀ n req response events ∨ FromCache s₀ n req response events)
  | .done (.error error) => req.check = some error

end

inductive TimedOutcome (s : TimedState) : TimedEvent → TimedState → Prop where
  | start {n : Nat} {req : Request} (hcall : s.calls n = none)
      : TimedOutcome s (.start n req) (s.setPhase n req req.arrive)
  | lookup {n : Nat} {available : Bool} {req : Request} {cached : Option (List SatellitePass)}
      (hcall : s.calls n = some ⟨req, .started⟩)
      (hcached : cached = none ∨ (available = true ∧ cached = req.passKey.bind (s.cache.get s.now)))
      : TimedOutcome s (.lookup n available) (s.setPhase n req (req.lookup cached))
  | count {n : Nat} {req : Request} (hcall : s.calls n = some ⟨req, .missed⟩)
      : TimedOutcome s (.count n) (s.setPhase n req (.counted (req.query s.table).length))
  | page {n : Nat} {req : Request} {totalCount : Nat} (hcall : s.calls n = some ⟨req, .counted totalCount⟩)
      : TimedOutcome s (.page n)
          (s.setPhase n req (.paged totalCount (req.onPage (req.query s.table))))
  | finish {n : Nat} {req : Request} {totalCount : Nat} {passes : List SatellitePass}
      (hcall : s.calls n = some ⟨req, .paged totalCount passes⟩)
      : TimedOutcome s (.finish n) (s.setPhase n req (.done (.ok (req.respond totalCount passes))))
  | finishSend {n : Nat} {req : Request} {totalCount : Nat} {passes : List SatellitePass}
      {key : String × Int} (hcall : s.calls n = some ⟨req, .paged totalCount passes⟩)
      (hkey : req.passKey = some key) (hpage : req.page = 1)
      : TimedOutcome s (.finish n)
          ((s.setPhase n req (.done (.ok (req.respond totalCount passes)))).send key
            (identityMap passes (req.query s.table)))
  | land {key : String × Int} {passes : List SatellitePass} (hsent : (key, passes) ∈ s.sent)
      : TimedOutcome s (.land key passes)
          { s with cache := s.cache.setex s.now cacheTtl key passes }
  | lose {key : String × Int} {passes : List SatellitePass}
      : TimedOutcome s (.lose key passes) { s with sent := s.sent.erase (key, passes) }
  | evict {key : String × Int} : TimedOutcome s (.evict key) { s with cache := s.cache.evict key }
  | write {table : PassTable} : TimedOutcome s (.write table) { s with table }
  | clock {now : Int} (hle : s.now ≤ now) : TimedOutcome s (.clock now) { s with now }

variable {s₀ s t : TimedState} {e : TimedEvent} {events : List TimedEvent} {n m : Nat} {req : Request}
  {phase : Phase}

theorem TimedStep.outcome (h : TimedStep s e t) : TimedOutcome s e t := by
  unfold TimedStep timedNext at h
  cases e with
  | start n req =>
    dsimp only at h
    split at h
    . cases h
    . next hcall =>
      cases h
      apply TimedOutcome.start hcall
  | lookup n available =>
    dsimp only at h
    split at h
    . next req hcall =>
      cases h
      apply TimedOutcome.lookup hcall
      cases available with
      | false => apply Or.inl rfl
      | true => apply Or.inr ⟨rfl, rfl⟩
    . cases h
  | count n =>
    dsimp only at h
    split at h
    . next req hcall =>
      cases h
      apply TimedOutcome.count hcall
    . cases h
  | page n =>
    dsimp only at h
    split at h
    . next req totalCount hcall =>
      cases h
      apply TimedOutcome.page hcall
    . cases h
  | finish n =>
    dsimp only at h
    split at h
    . next req totalCount passes hcall =>
      split at h
      . next key hkey =>
        rw [Option.some.injEq] at h
        subst h
        split
        . next hpage => apply TimedOutcome.finishSend hcall hkey hpage
        . apply TimedOutcome.finish hcall
      . cases h
        apply TimedOutcome.finish hcall
    . cases h
  | land key passes =>
    dsimp only at h
    split at h
    . next hsent =>
      cases h
      apply TimedOutcome.land hsent
    . cases h
  | lose key passes =>
    cases h
    apply TimedOutcome.lose
  | evict key =>
    cases h
    apply TimedOutcome.evict
  | write table =>
    cases h
    apply TimedOutcome.write
  | clock now =>
    dsimp only at h
    split at h
    . next hle =>
      cases h
      apply TimedOutcome.clock hle
    . cases h

theorem CallOk.append (h : CallOk s₀ n req phase events) (more : List TimedEvent)
    : CallOk s₀ n req phase (events ++ more) := by
  unfold CallOk at *
  split
  . exact h
  . exact h
  . exact ⟨h.left, h.right.append more⟩
  . exact ⟨h.left, h.right.append more⟩
  . refine ⟨h.left, ?_⟩
    rcases h.right with ⟨totalCount, passes, heq, hpaged⟩ | hread
    . apply Or.inl ⟨totalCount, passes, heq, hpaged.append more⟩
    . apply Or.inr (hread.append more)
  . exact h

theorem callOk_arrive (events : List TimedEvent) : CallOk s₀ n req req.arrive events := by
  unfold Request.arrive
  split
  . next error herror => exact herror
  . next hnone => exact hnone

/-- What is in the cache, on the way to it, or known to a call goes back to queries of the run. -/
structure Justified (s₀ : TimedState) (events : List TimedEvent) (s : TimedState) : Prop where
  cache : TtlCache.Backed (fun key passes putAt => Stored s₀ key passes putAt events)
    (fun _ => cacheTtl) s.now s.cache
  sent : ∀ key passes, (key, passes) ∈ s.sent → Filled s₀ key passes events
  calls : ∀ n req phase, s.calls n = some ⟨req, phase⟩ → CallOk s₀ n req phase events

theorem Justified.append (h : Justified s₀ events s) (more : List TimedEvent)
    : Justified s₀ (events ++ more) s := by
  constructor
  case cache =>
    apply h.cache.mono _ (le_refl s.now)
    intro key passes putAt hstored
    apply hstored.append more
  case sent =>
    intro key passes hsent
    apply (h.sent key passes hsent).append more
  case calls =>
    intro n req phase hcall
    apply (h.calls n req phase hcall).append more

theorem Justified.setPhase (h : Justified s₀ events s) (hcall : CallOk s₀ n req phase events)
    : Justified s₀ events (s.setPhase n req phase) := by
  refine ⟨h.cache, h.sent, ?_⟩
  intro m req' phase' hm
  unfold TimedState.setPhase at hm
  by_cases hne : m = n
  . subst hne
    simp only [Function.update_self, Option.some.injEq, Call.mk.injEq] at hm
    obtain ⟨rfl, rfl⟩ := hm
    exact hcall
  . simp only [Function.update_of_ne hne] at hm
    apply h.calls m req' phase' hm

theorem Justified.fromCache {key : String × Int} {passes : List SatellitePass}
    (h : Justified s₀ events s) (hrun : Run TimedStep s₀ events s) (hkey : req.passKey = some key)
    (hget : s.cache.get s.now key = some passes) (hne : passes ≠ [])
    : FromCache s₀ n req (req.paginate passes) (events ++ [.lookup n true]) := by
  obtain ⟨putAt, hpast, hfresh, hstored⟩ := h.cache.get hget
  apply Once.last hrun
  exact ⟨rfl, key, passes, putAt, hkey, hne, rfl, hpast, hfresh, hstored⟩

theorem Justified.step (hrun : Run TimedStep s₀ events s) (h : Justified s₀ events s)
    (hstep : TimedStep s e t) : Justified s₀ (events ++ [e]) t := by
  have h' := h.append [e]
  cases hstep.outcome with
  | @start n req hcall =>
    apply h'.setPhase
    apply callOk_arrive
  | @lookup n available req cached hcall hcached =>
    apply h'.setPhase
    have hcheck : req.check = none := h.calls n req _ hcall
    unfold Request.lookup
    split
    . next passes =>
      split
      . exact hcheck
      . next hne =>
        rcases hcached with hnone | ⟨rfl, hget⟩
        . cases hnone
        . obtain ⟨key, hkey, hget⟩ := Option.bind_eq_some_iff.mp hget.symm
          refine ⟨hcheck, .inr ?_⟩
          apply h.fromCache hrun hkey hget hne
    . exact hcheck
  | @count n req hcall =>
    apply h'.setPhase
    refine ⟨h.calls n req _ hcall, ?_⟩
    apply Once.last hrun
    exact ⟨rfl, rfl⟩
  | @page n req totalCount hcall =>
    apply h'.setPhase
    obtain ⟨hcheck, hcounted⟩ := h.calls n req _ hcall
    refine ⟨hcheck, ?_⟩
    apply Once.last hrun
    exact ⟨rfl, rfl, hcounted⟩
  | @finish n req totalCount passes hcall =>
    apply h'.setPhase
    obtain ⟨hcheck, hpaged⟩ := h'.calls n req _ hcall
    exact ⟨hcheck, .inl ⟨totalCount, passes, rfl, hpaged⟩⟩
  | @finishSend n req totalCount passes key hcall hkey hpage =>
    obtain ⟨hcheck, hpaged⟩ := h'.calls n req _ hcall
    have hdone : Justified s₀ (events ++ [.finish n])
        (s.setPhase n req (.done (.ok (req.respond totalCount passes)))) := by
      apply h'.setPhase
      exact ⟨hcheck, .inl ⟨totalCount, passes, rfl, hpaged⟩⟩
    refine ⟨hdone.cache, ?_, hdone.calls⟩
    intro key' passes' hsent
    cases List.mem_cons.mp hsent with
    | inl heq =>
      cases heq
      apply Once.last hrun
      exact ⟨n, req, totalCount, passes, rfl, hcheck, hpage, hkey, (h.calls n req _ hcall).right, rfl⟩
    | inr hsent => apply h'.sent key' passes' hsent
  | @land key passes hsent =>
    refine ⟨?_, h'.sent, h'.calls⟩
    apply TtlCache.Backed.setex h'.cache
    apply Once.last hrun
    exact ⟨rfl, rfl, h.sent key passes hsent⟩
  | lose =>
    refine ⟨h'.cache, ?_, h'.calls⟩
    intro key' passes' hsent'
    apply h'.sent key' passes' (List.mem_of_mem_erase hsent')
  | evict => exact ⟨h'.cache.evict, h'.sent, h'.calls⟩
  | write => exact ⟨h'.cache, h'.sent, h'.calls⟩
  | clock hle =>
    refine ⟨?_, h'.sent, h'.calls⟩
    apply h'.cache.mono _ hle
    intro _ _ _ hstored
    apply hstored

structure TimedState.Initial (s : TimedState) : Prop where
  cache : ∀ key, s.cache key = none
  sent : s.sent = []
  calls : ∀ n, s.calls n = none

theorem justified_of_initial (h : s₀.Initial) : Justified s₀ [] s₀ := by
  constructor
  case cache =>
    intro key entry hentry
    rw [h.cache] at hentry
    cases hentry
  case sent =>
    intro key passes hsent
    rw [h.sent] at hsent
    cases hsent
  case calls =>
    intro n req phase hcall
    rw [h.calls] at hcall
    cases hcall

theorem justified_of_run (hinit : s₀.Initial) (hrun : Run TimedStep s₀ events s)
    : Justified s₀ events s := by
  apply hrun.invariant_prefix _ (justified_of_initial hinit)
  intro before s e s' hbefore hs hstep
  apply hs.step hbefore hstep

/--
A request that is answered with rows has queried them itself, or it shows a page of what the queries of
one request for the same station and day found, stored at most an hour before it looked.
-/
theorem response_of_run {response : PaginatedPassesResponse} (hinit : s₀.Initial)
    (hrun : Run TimedStep s₀ events s) (hcall : s.calls n = some ⟨req, .done (.ok response)⟩)
    : FromTable s₀ n req response events ∨ FromCache s₀ n req response events := by
  apply ((justified_of_run hinit hrun).calls n req _ hcall).right

def Read (s₀ : TimedState) (p : SatellitePass) : List TimedEvent → Prop :=
  Once TimedStep s₀ fun _ s e => (∃ m, e = .page m ∨ e = .finish m) ∧ p ∈ s.table.rows

theorem mem_query_table {table : PassTable} {p : SatellitePass} (h : p ∈ req.query table)
    : p ∈ table.rows
      ∧ (∀ stationId ∈ req.station, p.stationId = stationId)
      ∧ (∀ satelliteId ∈ req.satellite, p.noradId = satelliteId) := by
  unfold Request.query at h
  rw [mem_sortedBy, List.mem_filter, decide_eq_true_iff] at h
  exact ⟨h.left, h.right.right.right⟩

theorem mem_of_mem_onPage {rows : List SatellitePass} {p : SatellitePass} (h : p ∈ req.onPage rows)
    : p ∈ rows := by
  apply List.mem_of_mem_drop
  apply List.mem_of_mem_take h

theorem passKey_eq_some {key : String × Int} (h : req.passKey = some key)
    : req.station = some key.1 ∧ req.satellite = none := by
  unfold Request.passKey at h
  split at h
  . next stationId hstation hsatellite =>
    cases h
    exact ⟨hstation, hsatellite⟩
  . cases h

section

variable {p : SatellitePass}

def Shown (s₀ : TimedState) (req : Request) (p : SatellitePass) (events : List TimedEvent) : Prop :=
  (∀ stationId ∈ req.station, p.stationId = stationId)
    ∧ (∀ satelliteId ∈ req.satellite, p.noradId = satelliteId)
    ∧ Read s₀ p events

theorem Shown.append (h : Shown s₀ req p events) (more : List TimedEvent)
    : Shown s₀ req p (events ++ more) :=
  ⟨h.left, h.right.left, h.right.right.append more⟩

theorem Paged.shown {totalCount : Nat} {passes : List SatellitePass}
    (h : Paged s₀ n req totalCount passes events) (hp : p ∈ passes) : Shown s₀ req p events := by
  obtain ⟨before, e, after, u, rfl, hrun, rfl, rfl, _⟩ := h
  obtain ⟨hrow, hstation, hsatellite⟩ := mem_query_table (mem_of_mem_onPage hp)
  refine ⟨hstation, hsatellite, ?_⟩
  exact ⟨before, _, after, u, rfl, hrun, ⟨n, .inl rfl⟩, hrow⟩

theorem mem_of_mem_identityMap {loaded rows : List SatellitePass} (h : p ∈ identityMap loaded rows)
    : p ∈ loaded ∨ p ∈ rows := by
  obtain ⟨row, hrow, rfl⟩ := List.mem_map.mp h
  cases hfind : loaded.find? (·.id = row.id) with
  | none => apply Or.inr hrow
  | some known => apply Or.inl (List.mem_of_find?_eq_some hfind)

theorem Filled.shown {key : String × Int} {passes : List SatellitePass}
    (h : Filled s₀ key passes events) (hkey : req.passKey = some key) (hp : p ∈ passes)
    : Shown s₀ req p events := by
  obtain ⟨before, e, after, u, rfl, hrun, m, w, totalCount, onPage, rfl, _, _, hw, hpaged, rfl⟩ := h
  have hreq := passKey_eq_some hkey
  have hshown : Shown s₀ w p (before ++ .finish m :: after) := by
    cases mem_of_mem_identityMap hp with
    | inl hloaded => apply (hpaged.shown hloaded).append
    | inr hrow =>
      obtain ⟨hrow, hstation, hsatellite⟩ := mem_query_table hrow
      exact ⟨hstation, hsatellite, before, _, after, u, rfl, hrun, ⟨m, .inr rfl⟩, hrow⟩
  refine ⟨?_, ?_, hshown.right.right⟩
  . -- both requests are for the station of the key
    rw [hreq.left, ← (passKey_eq_some hw).left]
    apply hshown.left
  . simp [hreq.right]

theorem FromCache.shown {response : PaginatedPassesResponse}
    (h : FromCache s₀ n req response events) (hp : p ∈ response.data) : Shown s₀ req p events := by
  obtain ⟨before, e, after, u, rfl, _, rfl, key, passes, putAt, hkey, _, rfl, _, _, hstored⟩ := h
  obtain ⟨before', e', after', u', rfl, _, _, _, hfilled⟩ := hstored
  have := hfilled.shown hkey (mem_of_mem_onPage hp)
  exact (this.append _).append _

/--
Whatever others write and whatever is in the cache, no answer shows a row of another station or satellite
than asked for, or one that was in the table at no time when a request read it.
-/
theorem shown_of_run {response : PaginatedPassesResponse} (hinit : s₀.Initial)
    (hrun : Run TimedStep s₀ events s) (hcall : s.calls n = some ⟨req, .done (.ok response)⟩)
    (hp : p ∈ response.data) : Shown s₀ req p events := by
  rcases ((justified_of_run hinit hrun).calls n req _ hcall).right with htable | hcache
  . obtain ⟨totalCount, passes, rfl, hpaged⟩ := htable
    apply hpaged.shown hp
  . apply hcache.shown hp

end

@[simp]
theorem TimedState.setPhase_calls_self : (s.setPhase n req phase).calls n = some ⟨req, phase⟩ := by
  apply Function.update_self

theorem exists_run_of_missed (hcall : s.calls n = some ⟨req, .missed⟩)
    : ∃ events t, Run TimedStep s events t
        ∧ t.calls n = some ⟨req, .done (.ok (req.paginate (req.query s.table)))⟩ := by
  let counted := s.setPhase n req (.counted (req.query s.table).length)
  let paged := counted.setPhase n req
    (.paged (req.query s.table).length (req.onPage (req.query s.table)))
  have hcount : TimedStep s (.count n) counted := by
    unfold TimedStep timedNext
    simp [hcall, counted]
  have hpage : TimedStep counted (.page n) paged := by
    unfold TimedStep timedNext
    simp [counted, paged, TimedState.setPhase]
  have hfinish : ∃ t, TimedStep paged (.finish n) t
      ∧ t.calls n = some ⟨req, .done (.ok (req.paginate (req.query s.table)))⟩ := by
    unfold TimedStep timedNext
    simp only [paged, TimedState.setPhase_calls_self]
    split
    . refine ⟨_, rfl, ?_⟩
      split <;> apply TimedState.setPhase_calls_self
    . exact ⟨_, rfl, TimedState.setPhase_calls_self⟩
  obtain ⟨t, hfinish, hdone⟩ := hfinish
  exact ⟨_, t, .cons hcount (.cons hpage (.cons hfinish (.nil _))), hdone⟩

theorem exists_run_getPasses (hcall : s.calls n = none)
    : ∃ events t, Run TimedStep s events t
        ∧ t.calls n = some ⟨req, .done (getPasses s.table (some (s.cache.get s.now)) req).2⟩ := by
  have hstart : TimedStep s (.start n req) (s.setPhase n req req.arrive) := by
    unfold TimedStep timedNext
    simp [hcall]
  unfold getPasses
  cases hcheck : req.check with
  | some error =>
    refine ⟨_, _, .cons hstart (.nil _), ?_⟩
    simp [Request.arrive, hcheck]
  | none =>
    let started := s.setPhase n req .started
    let looked := started.setPhase n req (req.lookup (req.passKey.bind (s.cache.get s.now)))
    have hlookup : TimedStep started (.lookup n true) looked := by
      unfold TimedStep timedNext
      simp [started, looked, TimedState.setPhase]
    have hhit : hit (some (s.cache.get s.now)) req
        = (req.passKey.bind (s.cache.get s.now)).bind fun cached =>
          if cached = [] then none else some cached := by
      unfold hit
      cases req.passKey <;> rfl
    simp only [Request.arrive, hcheck] at hstart
    by_cases hmissed : req.lookup (req.passKey.bind (s.cache.get s.now)) = .missed
    . have hcall' : looked.calls n = some ⟨req, .missed⟩ := by
        rw [← hmissed]
        apply TimedState.setPhase_calls_self
      obtain ⟨events, t, hrun, hdone⟩ := exists_run_of_missed hcall'
      refine ⟨_, t, .cons hstart (.cons hlookup hrun), ?_⟩
      rw [hdone, hhit]
      unfold Request.lookup at hmissed
      split at hmissed
      . next passes hcached =>
        split at hmissed
        . next hempty => simp [hcached, hempty, looked, started, TimedState.setPhase]
        . cases hmissed
      . next hcached => simp [hcached, looked, started, TimedState.setPhase]
    . refine ⟨_, looked, .cons hstart (.cons hlookup (.nil _)), ?_⟩
      rw [TimedState.setPhase_calls_self, hhit]
      unfold Request.lookup at *
      split at hmissed
      . next passes hcached =>
        split at hmissed
        . exact absurd rfl hmissed
        . next hne => simp [hcached, hne]
      . exact absurd rfl hmissed

theorem firstPage_pos : 1 ≤ 1 := Nat.le_refl 1

def morning : Request where
  stationId := some "GS001"
  startTime := some { wall := 0, utcoffset := some 0 }
  endTime := some { wall := 43200000000, utcoffset := some 0 }
  now := 0
  page_pos := firstPage_pos

def atTen : SatellitePass where
  id := 1
  noradId := 25544
  stationId := "GS001"
  riseTime := 36000000000
  setTime := 36600000000
  durationSeconds := 600
  maxElevation := 45

def onlyAtTen : TimedState where
  now := 0
  table := {
    rows := [atTen]
    primaryKey := by simp
    uniqueKey := by simp
    timeOrder := by decide
  }

def afterDeletion : List TimedEvent :=
  [.start 1 morning, .lookup 1 true, .count 1, .page 1, .finish 1, .land ("GS001", 0) [atTen],
    .write .empty, .start 2 morning, .clock 3600000, .lookup 2 true]

theorem response_of_run_deleted
    : FromTable onlyAtTen 2 morning (morning.paginate [atTen]) afterDeletion
      ∨ FromCache onlyAtTen 2 morning (morning.paginate [atTen]) afterDeletion := by
  apply response_of_run
  . exact ⟨fun _ => rfl, rfl, fun _ => rfl⟩
  . exact .cons rfl (.cons rfl (.cons rfl (.cons rfl (.cons rfl (.cons rfl (.cons rfl (.cons rfl
      (.cons rfl (.cons rfl (.nil _))))))))))
  . rfl

theorem shown_of_run_deleted : Shown onlyAtTen morning atTen afterDeletion := by
  apply @shown_of_run _ _ _ 2 _ _ (morning.paginate [atTen])
  . exact ⟨fun _ => rfl, rfl, fun _ => rfl⟩
  . exact .cons rfl (.cons rfl (.cons rfl (.cons rfl (.cons rfl (.cons rfl (.cons rfl (.cons rfl
      (.cons rfl (.cons rfl (.nil _))))))))))
  . rfl
  . decide

end Passes
end SdaSystem
