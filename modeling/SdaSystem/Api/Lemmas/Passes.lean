import SdaSystem.Api.Impl.Passes
import SdaSystem.Library.Runs

namespace SdaSystem
namespace Passes

def Request.Fills (table : PassTable) (key : String × Int) (req : Request) : Prop :=
  req.check = none ∧ req.passKey = some key ∧ req.page = 1 ∧ req.query table ≠ []

instance (table : PassTable) (key : String × Int) : DecidablePred (Request.Fills table key) :=
  fun req => inferInstanceAs (Decidable (req.check = none ∧ req.passKey = some key ∧ _ ∧ _))

def firstFill (table : PassTable) (key : String × Int) (before : List Request) : List SatellitePass :=
  match before.find? (Request.Fills table key) with
  | some req => req.query table
  | none => []

/-- The entries after `before`, where an empty one counts as none. -/
def Holds (table : PassTable) (before : List Request) (cache : Cache) : Prop :=
  ∀ key, (cache key).getD [] = firstFill table key before

theorem holds_nil (table : PassTable) : Holds table [] fun _ => none := by
  intro key
  rfl

theorem firstFill_append (table : PassTable) (key : String × Int) (before : List Request)
    (req : Request)
    : firstFill table key (before ++ [req])
        =
      if firstFill table key before = [] ∧ req.Fills table key then
        req.query table
      else
        firstFill table key before := by
  unfold firstFill
  rw [List.find?_append]
  cases hfind : before.find? (Request.Fills table key) with
  | some w =>
    have hfills := List.find?_some hfind
    rw [decide_eq_true_iff] at hfills
    simp [hfills.right.right.right]
  | none =>
    by_cases hfills : req.Fills table key <;> simp [hfills]

section

variable {table : PassTable} {before : List Request} {cache : Cache} {req : Request}

theorem hit_eq (h : Holds table before cache)
    : hit (some cache) req
        =
      match req.passKey with
      | some key => if firstFill table key before = [] then none else some (firstFill table key before)
      | none => none := by
  unfold hit
  cases hkey : req.passKey with
  | none => rfl
  | some key =>
    dsimp only
    rw [← h key]
    cases hcache : cache key with
    | none => simp [hcache]
    | some cached => simp [hcache]

theorem firstFill_append_of_hit {cached : List SatellitePass} (h : Holds table before cache)
    (hhit : hit (some cache) req = some cached) (key : String × Int)
    : firstFill table key (before ++ [req]) = firstFill table key before := by
  rw [firstFill_append, if_neg]
  rintro ⟨hempty, hfills⟩
  rw [hit_eq h, hfills.right.left] at hhit
  simp [hempty] at hhit

theorem holds_writeBack (h : Holds table before cache) (hcheck : req.check = none)
    (hhit : hit (some cache) req = none)
    : ∃ cache', writeBack table (some cache) req = some cache'
        ∧ Holds table (before ++ [req]) cache' := by
  rw [hit_eq h] at hhit
  unfold writeBack
  cases hkey : req.passKey with
  | none =>
    refine ⟨cache, rfl, ?_⟩
    intro key
    rw [h key, firstFill_append, if_neg]
    rintro ⟨_, _, hkey', _⟩
    rw [hkey] at hkey'
    cases hkey'
  | some key =>
    rw [hkey] at hhit
    have hempty : firstFill table key before = [] := by simpa using hhit
    have hfills : ∀ key', req.Fills table key'
        ↔ key = key' ∧ req.page = 1 ∧ req.query table ≠ [] := by
      intro key'
      unfold Request.Fills
      rw [hkey, Option.some.injEq, and_iff_right hcheck]
    refine ⟨_, rfl, ?_⟩
    intro key'
    rw [firstFill_append]
    simp only [hfills]
    by_cases heq : key = key'
    . subst heq
      rw [hempty]
      -- an empty result that is stored leaves the entry as good as absent
      by_cases hpage : req.page = 1
      . by_cases hrows : req.query table = [] <;> simp [hpage, hrows]
      . simp [hpage, h key, hempty]
    . have hne : key' ≠ key := Ne.symm heq
      have hsame : (if req.page = 1 then Function.update cache key (some (req.query table)) else cache)
          key' = cache key' := by
        split
        . apply Function.update_of_ne hne
        . rfl
      rw [hsame, h key', if_neg]
      rintro ⟨_, hkey', _⟩
      apply heq hkey'

theorem holds_getPasses (req : Request) (h : Holds table before cache)
    : ∃ cache', (getPasses table (some cache) req).1 = some cache'
        ∧ Holds table (before ++ [req]) cache' := by
  unfold getPasses
  split
  . next error hcheck =>
    refine ⟨cache, rfl, ?_⟩
    intro key
    rw [h key, firstFill_append, if_neg]
    rintro ⟨_, hfills⟩
    rw [hfills.left] at hcheck
    cases hcheck
  . next hcheck =>
    split
    . next cached hhit =>
      refine ⟨cache, rfl, ?_⟩
      intro key
      rw [h key, firstFill_append_of_hit h hhit]
    . next hhit =>
      apply holds_writeBack h hcheck hhit

/-- The first request that stored passes under the key of `req` saw what `req` is asked to show. -/
def Agrees (table : PassTable) (before : List Request) (req : Request) : Prop :=
  req.check = none → ∀ key, req.passKey = some key →
    ∀ w, before.find? (Request.Fills table key) = some w
      → (w.query table).length = (req.query table).length
        ∧ req.onPage (w.query table) = req.onPage (req.query table)

theorem paginate_inj {rows rows' : List SatellitePass}
    : req.paginate rows = req.paginate rows'
        ↔
      rows.length = rows'.length ∧ req.onPage rows = req.onPage rows' := by
  unfold Request.paginate
  constructor
  . intro heq
    rw [PaginatedPassesResponse.mk.injEq] at heq
    exact ⟨heq.right.left, heq.left⟩
  . rintro ⟨hlen, hpage⟩
    rw [hlen, hpage]

theorem getPasses_agree_iff (h : Holds table before cache)
    : (getPasses table (some cache) req).2 = (getPasses table none req).2
        ↔
      Agrees table before req := by
  unfold getPasses Agrees
  cases hcheck : req.check with
  | some error => simp
  | none =>
    have huncached : hit none req = none := rfl
    rw [huncached, hit_eq h]
    cases hkey : req.passKey with
    | none => simp
    | some key =>
      unfold firstFill
      cases hfind : before.find? (Request.Fills table key) with
      | none => simp [hfind]
      | some w =>
        have hfills := List.find?_some hfind
        rw [decide_eq_true_iff] at hfills
        simp [hfind, hfills.right.right.right, paginate_inj]

theorem responses_agree_iff_from (h : Holds table before cache) (reqs : List Request)
    : responses table (some cache) reqs = responses table none reqs
        ↔
      ∀ mid req after, reqs = mid ++ req :: after → Agrees table (before ++ mid) req := by
  induction reqs generalizing before cache with
  | nil => simp [responses]
  | cons req reqs ih =>
    obtain ⟨cache', hcache', hholds⟩ := holds_getPasses req h
    have huncached : (getPasses table none req).1 = none := by
      unfold getPasses
      split
      . rfl
      . rfl
    have hcons : ∀ cache : Option Cache, responses table cache (req :: reqs)
        = (getPasses table cache req).2 :: responses table (getPasses table cache req).1 reqs :=
      fun _ => rfl
    rw [hcons, hcons, hcache', huncached, List.cons.injEq, getPasses_agree_iff h, ih hholds,
      Runs.forall_split_cons_iff]
    simp

end

/--
Every answer is the one without a cache if and only if every request asks for what the first
request that stored passes under its key has seen.
-/
theorem responses_agree_iff (table : PassTable) (reqs : List Request)
    : responses table (some fun _ => none) reqs = responses table none reqs
        ↔
      ∀ before req after, reqs = before ++ req :: after → req.check = none →
        ∀ key, req.passKey = some key → ∀ w, before.find? (Request.Fills table key) = some w
          → (w.query table).length = (req.query table).length
            ∧ req.onPage (w.query table) = req.onPage (req.query table) := by
  rw [responses_agree_iff_from (holds_nil table)]
  rfl

/-- Morning and afternoon of one day at one station, with a pass in the morning. -/
theorem responses_disagree
    : ∃ (table : PassTable) (reqs : List Request),
        responses table (some fun _ => none) reqs ≠ responses table none reqs := by
  let p : SatellitePass := {
    id := 1
    noradId := 25544
    stationId := "GS001"
    riseTime := 36000000000
    setTime := 36600000000
    durationSeconds := 600
    maxElevation := 45
  }
  let table : PassTable := {
    rows := [p]
    primaryKey := by simp
    uniqueKey := by simp
    timeOrder := by decide
  }
  let req (fromHour toHour : Int) : Request := {
    stationId := some "GS001"
    startTime := some { wall := fromHour * 3600000000, utcoffset := some 0 }
    endTime := some { wall := toHour * 3600000000, utcoffset := some 0 }
    now := 0
  }
  refine ⟨table, [req 0 12, req 12 24], ?_⟩
  intro heq
  have hcounts := congrArg (List.map fun r => r.toOption.map (·.totalCount)) heq
  revert hcounts
  decide +kernel

end Passes
end SdaSystem
