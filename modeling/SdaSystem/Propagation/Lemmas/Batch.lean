import SdaSystem.Propagation.Impl.Batch
import SdaSystem.Propagation.Lemmas.DataGap
import SdaSystem.Propagation.Lemmas.SatCache

namespace SdaSystem
namespace SGP4Engine

open PassDetector (Settings)
open PropagationResult (hourly)
open TLEFetcher (strip issDay1 issDay2 issLine2)

def propagateUncached (skyfield : Skyfield) (settings : Settings) (args : PropagateArgs)
    : Except PropagateError PropagationResult :=
  match validateTleFormat args.line1 args.line2 with
  | some error => .error (.format args.noradId error)
  | none =>
    if skyfield.raises args.line1 args.line2 then
      .error .skyfield
    else
      propagateObject skyfield settings args { line1 := args.line1, line2 := args.line2, name := args.name }

def PropagateArgs.pair (args : PropagateArgs) : List Char × List Char :=
  (strip args.line1, strip args.line2)

/-- The lines come without whitespace around them, as they are stored, and their digests tell them apart. -/
structure Distinct (sha256 : List Char → String) (requested : List PropagateArgs) : Prop where
  stripped : ∀ args ∈ requested, strip args.line1 = args.line1 ∧ strip args.line2 = args.line2
  collisionFree : ∀ args ∈ requested, ∀ args' ∈ requested,
    sha256 (joined args.pair) = sha256 (joined args'.pair) → joined args.pair = joined args'.pair

/-- Each object is for two lines that were requested, and is under their key. -/
def Honest (sha256 : List Char → String) (skyfield : Skyfield) (requested : List PropagateArgs)
    (cache : SatCache) : Prop :=
  ∀ entry ∈ cache, entry.1 = sha256 (joined entry.2.pair)
    ∧ skyfield.raises entry.2.line1 entry.2.line2 = false
    ∧ ∃ req : SatRequest, entry.2 = req.toEarthSatellite
      ∧ ∃ args ∈ requested, req.line1 = args.line1 ∧ req.line2 = args.line2

variable {sha256 : List Char → String} {skyfield : Skyfield} (settings : Settings)
  {requested : List PropagateArgs} {cache : SatCache} {args : PropagateArgs} {req : SatRequest}

theorem honest_nil : Honest sha256 skyfield requested [] := by
  intro entry hentry
  cases hentry

theorem Honest.of_subset (h : Honest sha256 skyfield requested cache) {cache' : SatCache}
    (hsub : cache' ⊆ cache) : Honest sha256 skyfield requested cache' :=
  fun entry hentry => h entry (hsub hentry)

theorem Honest.concat (h : Honest sha256 skyfield requested cache) (hargs : args ∈ requested)
    (hline1 : req.line1 = args.line1) (hline2 : req.line2 = args.line2)
    (hraises : skyfield.raises req.line1 req.line2 = false)
    : Honest sha256 skyfield requested
        (cache ++ [(sha256 (joined req.pair), req.toEarthSatellite)]) := by
  intro entry hentry
  rcases List.mem_append.mp hentry with hold | hlast
  . apply h entry hold
  . rw [List.mem_singleton.mp hlast]
    exact ⟨rfl, hraises, req, rfl, args, hargs, hline1, hline2⟩

theorem Honest.lines_of_lookup (h : Honest sha256 skyfield requested cache)
    (hdistinct : Distinct sha256 requested) (hargs : args ∈ requested)
    (hline1 : req.line1 = args.line1) (hline2 : req.line2 = args.line2) {sat : EarthSatellite}
    (hlookup : cache.lookup (sha256 (joined req.pair)) = some sat)
    : sat.line1 = args.line1 ∧ sat.line2 = args.line2
        ∧ skyfield.raises args.line1 args.line2 = false := by
  obtain ⟨hkey, hraises, req', rfl, args', hargs', hline1', hline2'⟩ := h _ (mem_of_lookup hlookup)
  have hpair : req.pair = args.pair := by
    unfold EarthSatellite.pair PropagateArgs.pair
    rw [hline1, hline2]
  have hpair' : req'.pair = args'.pair := by
    unfold EarthSatellite.pair PropagateArgs.pair
    rw [hline1', hline2']
  dsimp only at hkey hraises
  rw [hpair, hpair'] at hkey
  have hjoined := hdistinct.collisionFree args hargs args' hargs' hkey
  rw [← hpair, ← hpair'] at hjoined
  have hsame := joined_injective hjoined
  rw [hpair, hpair'] at hsame
  obtain ⟨hsame1, hsame2⟩ := Prod.mk.inj hsame
  obtain ⟨hstrip1, hstrip2⟩ := hdistinct.stripped args hargs
  obtain ⟨hstrip1', hstrip2'⟩ := hdistinct.stripped args' hargs'
  rw [hstrip1, hstrip1'] at hsame1
  rw [hstrip2, hstrip2'] at hsame2
  rw [hsame1, hsame2, ← hline1', ← hline2']
  exact ⟨rfl, rfl, hraises⟩

theorem Honest.getOrCreateSatellite (h : Honest sha256 skyfield requested cache)
    (hdistinct : Distinct sha256 requested) (hargs : args ∈ requested)
    (hline1 : req.line1 = args.line1) (hline2 : req.line2 = args.line2)
    : Honest sha256 skyfield requested
          (getOrCreateSatellite sha256 cache req (skyfield.raises args.line1 args.line2)).1
        ∧
      if skyfield.raises args.line1 args.line2 then
        (SGP4Engine.getOrCreateSatellite sha256 cache req
          (skyfield.raises args.line1 args.line2)).2 = none
      else
        ∃ sat, (SGP4Engine.getOrCreateSatellite sha256 cache req
            (skyfield.raises args.line1 args.line2)).2 = some sat
          ∧ sat.line1 = args.line1 ∧ sat.line2 = args.line2 := by
  cases hlookup : cache.lookup (sha256 (joined req.pair)) with
  | some sat =>
    obtain ⟨hsat1, hsat2, hraises⟩ := h.lines_of_lookup hdistinct hargs hline1 hline2 hlookup
    rw [getOrCreateSatellite_hit _ hlookup, hraises, if_neg Bool.false_ne_true]
    refine ⟨?_, sat, rfl, hsat1, hsat2⟩
    apply h.of_subset
    intro entry hentry
    rcases List.mem_append.mp hentry with hold | hlast
    . apply List.mem_of_mem_eraseP hold
    . rw [List.mem_singleton.mp hlast]
      apply mem_of_lookup hlookup
  | none =>
    cases hraises : skyfield.raises args.line1 args.line2 with
    | true =>
      rw [getOrCreateSatellite_raises hlookup, if_pos rfl]
      exact ⟨h, rfl⟩
    | false =>
      obtain ⟨hsat, hcache⟩ := getOrCreateSatellite_miss hlookup
      rw [hcache, hsat, if_neg Bool.false_ne_true]
      have hraises' : skyfield.raises req.line1 req.line2 = false := by
        rw [hline1, hline2, hraises]
      have hconcat := h.concat hargs hline1 hline2 hraises'
      refine ⟨?_, _, rfl, hline1, hline2⟩
      split
      . apply hconcat.of_subset (List.drop_subset 1 _)
      . apply hconcat

theorem propagateObject_of_lines {sat : EarthSatellite} (hline1 : sat.line1 = args.line1)
    (hline2 : sat.line2 = args.line2)
    : propagateObject skyfield settings args sat
        =
      propagateObject skyfield settings args
        { line1 := args.line1, line2 := args.line2, name := args.name } := by
  unfold propagateObject
  rw [hline1, hline2]

theorem propagateUncached_of_format (h : validateTleFormat args.line1 args.line2 = none)
    : propagateUncached skyfield settings args
        =
      if skyfield.raises args.line1 args.line2 then
        .error .skyfield
      else
        propagateObject skyfield settings args
          { line1 := args.line1, line2 := args.line2, name := args.name } := by
  unfold propagateUncached
  rw [h]

theorem propagateCached_spec (h : Honest sha256 skyfield requested cache)
    (hdistinct : Distinct sha256 requested) (hargs : args ∈ requested)
    : Honest sha256 skyfield requested (propagateCached sha256 skyfield settings cache args).1
        ∧
      (propagateCached sha256 skyfield settings cache args).2
        = propagateUncached skyfield settings args := by
  unfold propagateCached
  split
  . next error herror =>
    unfold propagateUncached
    rw [herror]
    exact ⟨h, rfl⟩
  . next hformat =>
    rw [propagateUncached_of_format settings hformat]
    obtain ⟨hcache, hsat⟩ := @Honest.getOrCreateSatellite sha256 skyfield requested cache args
      (args.request hformat) h hdistinct hargs rfl rfl
    dsimp only
    split at hsat
    . next hraises =>
      rw [hsat, if_pos hraises]
      exact ⟨hcache, rfl⟩
    . next hraises =>
      obtain ⟨sat, hsome, hsat1, hsat2⟩ := hsat
      rw [hsome, if_neg hraises, ← propagateObject_of_lines settings hsat1 hsat2]
      exact ⟨hcache, rfl⟩

def argsOf (calls : List EngineCall) : List PropagateArgs :=
  calls.filterMap fun
    | .propagate args => some args
    | .clearCache => none

theorem serve_spec (h : Honest sha256 skyfield requested cache)
    (hdistinct : Distinct sha256 requested) {calls : List EngineCall} (hcalls : argsOf calls ⊆ requested)
    : Honest sha256 skyfield requested (serve sha256 skyfield settings cache calls).1
        ∧
      (serve sha256 skyfield settings cache calls).2
        = (argsOf calls).map (propagateUncached skyfield settings) := by
  induction calls generalizing cache with
  | nil => exact ⟨h, rfl⟩
  | cons call calls ih =>
    cases call with
    | clearCache => apply ih honest_nil hcalls
    | propagate args =>
      have hcalls : args :: argsOf calls ⊆ requested := hcalls
      rw [List.cons_subset] at hcalls
      obtain ⟨hcache, hresult⟩ := propagateCached_spec settings h hdistinct hcalls.left
      obtain ⟨hserved, hresults⟩ := ih hcache hcalls.right
      refine ⟨hserved, ?_⟩
      unfold serve
      dsimp only
      rw [hresult, hresults]
      rfl

def batchArgs (tles : List (Int × List Char × List Char)) (startTime : Int)
    (names : Int → Option (List Char)) : List PropagateArgs :=
  tles.map fun (noradId, line1, line2) =>
    { line1, line2, noradId, startTime, name := (names noradId).getD [] }

theorem batchPropagate_spec (h : Honest sha256 skyfield requested cache)
    (hdistinct : Distinct sha256 requested) {tles : List (Int × List Char × List Char)} {startTime : Int}
    {names : Int → Option (List Char)} (htles : batchArgs tles startTime names ⊆ requested)
    : (batchPropagate sha256 skyfield settings cache tles startTime names).2
        =
      (batchArgs tles startTime names).map fun args =>
        yielded args.noradId (propagateUncached skyfield settings args) := by
  induction tles generalizing cache with
  | nil => rfl
  | cons tle tles ih =>
    obtain ⟨noradId, line1, line2⟩ := tle
    unfold batchArgs at htles ⊢
    rw [List.map_cons, List.cons_subset] at htles
    obtain ⟨hcache, hresult⟩ := propagateCached_spec settings h hdistinct htles.left
    unfold batchPropagate
    dsimp only
    rw [hresult, ih hcache htles.right]
    rfl

/--
Whatever propagations and clearings come before, a propagation gives what it gives without a cache; and
a batch yields one result for each satellite, in their order, each as if it were propagated alone.
-/
theorem propagate_transparent (sha256 : List Char → String) (skyfield : Skyfield) (settings : Settings)
    (calls : List EngineCall) (tles : List (Int × List Char × List Char)) (startTime : Int)
    (names : Int → Option (List Char))
    (hdistinct : Distinct sha256 (argsOf calls ++ batchArgs tles startTime names))
    : (serve sha256 skyfield settings [] calls).2
          = (argsOf calls).map (propagateUncached skyfield settings)
        ∧
      (batchPropagate sha256 skyfield settings (serve sha256 skyfield settings [] calls).1 tles startTime
            names).2
          = (batchArgs tles startTime names).map fun args =>
              yielded args.noradId (propagateUncached skyfield settings args) := by
  obtain ⟨hcache, hserved⟩ := serve_spec settings honest_nil hdistinct
    (List.subset_append_left (argsOf calls) (batchArgs tles startTime names))
  refine ⟨hserved, ?_⟩
  apply batchPropagate_spec settings hcache hdistinct
  apply List.subset_append_right

def issArgs : PropagateArgs where
  line1 := issDay1
  line2 := issLine2
  noradId := 25544
  startTime := 1704110400000000

def resting : Skyfield where
  raises _ _ := false
  satrec _ _ _ := some {
    epochyr := 24
    epochdays := 1
    step _ := { position := some { x := 6778, y := 0, z := 0 }, errorCode := 0 }
  }

/-- The second line of the second satellite is missing. -/
theorem propagate_transparent_iss
    : (serve issSatSha256 resting hourly [] [.propagate issArgs, .clearCache, .propagate issArgs]).2
          = [issArgs, issArgs].map (propagateUncached resting hourly)
        ∧
      (batchPropagate issSatSha256 resting hourly
            (serve issSatSha256 resting hourly []
              [.propagate issArgs, .clearCache, .propagate issArgs]).1
            [(25544, issDay1, issLine2), (5, issDay2, [])] 1704110400000000 fun _ => none).2
          = (batchArgs [(25544, issDay1, issLine2), (5, issDay2, [])] 1704110400000000
              fun _ => none).map fun args =>
              yielded args.noradId (propagateUncached resting hourly args) := by
  apply propagate_transparent
  constructor
  . decide +kernel
  . decide +kernel

end SGP4Engine
end SdaSystem
