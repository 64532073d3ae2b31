import SdaSystem.Ingestion.Lemmas.Fetcher
import SdaSystem.Library.Lru
import SdaSystem.Propagation.Impl.SatCache

open Lru

namespace SdaSystem
namespace SGP4Engine

open TLEFetcher (strip issDay1 issDay2 issLine2 issName)

theorem joined_injective {req req' : SatRequest} (h : joined req.pair = joined req'.pair)
    : req.pair = req'.pair := by
  obtain ⟨h1, h2⟩ := List.append_inj h (req.length1.trans req'.length1.symm)
  exact Prod.ext h1 (List.cons_inj_right _ |>.mp h2)

def SatEvent.request? (event : SatEvent) : Option SatRequest :=
  match event with
  | .request req _ => some req
  | .clear => none

def requestsOf (events : List SatEvent) : List SatRequest :=
  events.filterMap SatEvent.request?

theorem requestsOf_append (events events' : List SatEvent)
    : requestsOf (events ++ events') = requestsOf events ++ requestsOf events' :=
  List.filterMap_append

variable {sha256 : List Char → String}

def CollisionFree (sha256 : List Char → String) (events : List SatEvent) : Prop :=
  ∀ req ∈ requestsOf events, ∀ req' ∈ requestsOf events,
    sha256 (joined req.pair) = sha256 (joined req'.pair) → joined req.pair = joined req'.pair

instance (events : List SatEvent) : Decidable (CollisionFree sha256 events) :=
  inferInstanceAs (Decidable (∀ req ∈ requestsOf events, ∀ req' ∈ requestsOf events, _ → _))

/--
A request succeeds if the object need not be built, as its pair is one of the latest, or if Skyfield
builds it. This follows the requests alone, not what the cache made of them.
-/
def requestedStep (requested : List (List Char × List Char)) (event : SatEvent)
    : List (List Char × List Char) :=
  match event with
  | .request req raises =>
    if req.pair ∈ latest satCacheMaxsize requested ∨ raises = false then
      requested ++ [req.pair]
    else
      requested
  | .clear => []

def requestedIn (events : List SatEvent) : List (List Char × List Char) :=
  events.foldl requestedStep []

def KeysOk (sha256 : List Char → String) (cache : SatCache) : Prop :=
  ∀ entry ∈ cache, entry.1 = sha256 (joined entry.2.pair)

def pairs (cache : SatCache) : List (List Char × List Char) :=
  cache.map (·.2.pair)

section

variable {cache : SatCache} {req : SatRequest}

def KeyTells (sha256 : List Char → String) (cache : SatCache) (req : SatRequest) : Prop :=
  ∀ entry ∈ cache, entry.1 = sha256 (joined req.pair) ↔ entry.2.pair = req.pair

theorem mem_of_lookup {key : String} {sat : EarthSatellite} (h : cache.lookup key = some sat)
    : (key, sat) ∈ cache := by
  rw [List.lookup_eq_some_iff] at h
  obtain ⟨before, after, rfl, _⟩ := h
  simp

theorem lookup_eq_none (h : KeyTells sha256 cache req)
    (hnone : cache.lookup (sha256 (joined req.pair)) = none) : req.pair ∉ pairs cache := by
  intro hmem
  obtain ⟨entry, hentry, hpair⟩ := List.mem_map.mp hmem
  rw [List.lookup_eq_none_iff] at hnone
  have := hnone entry hentry
  rw [(h entry hentry).mpr hpair] at this
  simp at this

theorem moveToEnd_touch {sat : EarthSatellite} (h : KeyTells sha256 cache req)
    (hfound : cache.lookup (sha256 (joined req.pair)) = some sat)
    : sat.pair = req.pair
        ∧ pairs (moveToEnd cache (sha256 (joined req.pair)) sat)
            = touch satCacheMaxsize (pairs cache) req.pair := by
  have hmem := mem_of_lookup hfound
  have hpair : sat.pair = req.pair := (h _ hmem).mp rfl
  have hmemPair : req.pair ∈ pairs cache := List.mem_map.mpr ⟨_, hmem, hpair⟩
  refine ⟨hpair, ?_⟩
  have hentries : ∀ entry ∈ cache, decide (entry.1 = sha256 (joined req.pair)) = true
      ↔ entry.2.pair = req.pair := by
    intro entry hentry
    rw [decide_eq_true_iff]
    exact h entry hentry
  rw [touch, if_pos hmemPair]
  unfold moveToEnd pairs
  rw [List.map_append, map_eraseP hentries, ← hpair]
  rfl

theorem getOrCreateSatellite_hit {sat : EarthSatellite} (raises : Bool)
    (h : cache.lookup (sha256 (joined req.pair)) = some sat)
    : getOrCreateSatellite sha256 cache req raises
        =
      (moveToEnd cache (sha256 (joined req.pair)) sat, some sat) := by
  unfold getOrCreateSatellite
  dsimp only
  rw [h]

theorem getOrCreateSatellite_raises (h : cache.lookup (sha256 (joined req.pair)) = none)
    : getOrCreateSatellite sha256 cache req true = (cache, none) := by
  unfold getOrCreateSatellite
  dsimp only
  rw [h]
  rfl

theorem getOrCreateSatellite_miss (h : cache.lookup (sha256 (joined req.pair)) = none)
    : (getOrCreateSatellite sha256 cache req false).2 = some req.toEarthSatellite
        ∧ (getOrCreateSatellite sha256 cache req false).1
            = if satCacheMaxsize < cache.length + 1 then
                (cache ++ [(sha256 (joined req.pair), req.toEarthSatellite)]).drop 1
              else
                cache ++ [(sha256 (joined req.pair), req.toEarthSatellite)] := by
  unfold getOrCreateSatellite
  dsimp only
  rw [h, List.length_append]
  exact ⟨rfl, rfl⟩

theorem getOrCreateSatellite_fails (h : KeyTells sha256 cache req) (hpair : req.pair ∉ pairs cache)
    : getOrCreateSatellite sha256 cache req true = (cache, none) := by
  apply getOrCreateSatellite_raises
  cases hlookup : cache.lookup (sha256 (joined req.pair)) with
  | none => rfl
  | some sat =>
    have hmem := mem_of_lookup hlookup
    exact absurd (List.mem_map.mpr ⟨_, hmem, (h _ hmem).mp rfl⟩) hpair

theorem getOrCreateSatellite_succeeds {raises : Bool} (h : KeyTells sha256 cache req)
    (hok : req.pair ∈ pairs cache ∨ raises = false)
    : ((getOrCreateSatellite sha256 cache req raises).2.map (·.pair)) = some req.pair
        ∧ pairs (getOrCreateSatellite sha256 cache req raises).1
            = touch satCacheMaxsize (pairs cache) req.pair := by
  cases hlookup : cache.lookup (sha256 (joined req.pair)) with
  | some sat =>
    rw [getOrCreateSatellite_hit raises hlookup]
    obtain ⟨hpair, htouch⟩ := moveToEnd_touch h hlookup
    exact ⟨congrArg some hpair, htouch⟩
  | none =>
    have hnew := lookup_eq_none h hlookup
    obtain rfl : raises = false := hok.resolve_left hnew
    obtain ⟨hsat, hcache⟩ := getOrCreateSatellite_miss hlookup
    refine ⟨by rw [hsat]; rfl, ?_⟩
    rw [hcache, touch, if_neg hnew]
    unfold pairs
    rw [List.length_map]
    split
    . rw [List.map_drop, List.map_append]
      rfl
    . rw [List.map_append]
      rfl

theorem keysOk_getOrCreateSatellite (raises : Bool) (h : KeysOk sha256 cache)
    : KeysOk sha256 (getOrCreateSatellite sha256 cache req raises).1 := by
  cases hlookup : cache.lookup (sha256 (joined req.pair)) with
  | some sat =>
    rw [getOrCreateSatellite_hit raises hlookup]
    intro entry hentry
    rcases List.mem_append.mp hentry with hold | hlast
    . exact h entry (List.mem_of_mem_eraseP hold)
    . rw [List.mem_singleton.mp hlast]
      exact h _ (mem_of_lookup hlookup)
  | none =>
    cases raises with
    | true =>
      rw [getOrCreateSatellite_raises hlookup]
      exact h
    | false =>
      have hconcat : KeysOk sha256 (cache ++ [(sha256 (joined req.pair), req.toEarthSatellite)]) := by
        intro entry hentry
        rcases List.mem_append.mp hentry with hold | hlast
        . exact h entry hold
        . rw [List.mem_singleton.mp hlast]
      rw [(getOrCreateSatellite_miss hlookup).right]
      split
      . exact fun entry hentry => hconcat entry (List.mem_of_mem_drop hentry)
      . exact hconcat

end

/--
The cache holds the pairs of the latest successful requests, each with an object for the pair. The next
request is answered with such an object, unless it has to be built and Skyfield raises: that changes
nothing.
-/
structure ExactLru (sha256 : List Char → String) (requested : List (List Char × List Char))
    (cache : SatCache) : Prop where
  latest : pairs cache = latest satCacheMaxsize requested
  length : cache.length = min satCacheMaxsize requested.dedup.length
  keys : KeysOk sha256 cache
  answers : ∀ req raises, KeyTells sha256 cache req → req.pair ∈ pairs cache ∨ raises = false →
    ((getOrCreateSatellite sha256 cache req raises).2.map (·.pair)) = some req.pair
  raises : ∀ req, KeyTells sha256 cache req → req.pair ∉ pairs cache →
    getOrCreateSatellite sha256 cache req true = (cache, none)

structure SatInvariant (sha256 : List Char → String) (events : List SatEvent)
    (requested : List (List Char × List Char)) (cache : SatCache) : Prop where
  latest : pairs cache = Lru.latest satCacheMaxsize requested
  keys : KeysOk sha256 cache
  requested : ∀ pair ∈ requested, ∃ req ∈ requestsOf events, req.pair = pair

section

variable {events : List SatEvent} {requested : List (List Char × List Char)} {cache : SatCache}

theorem keyTells_of_collisionFree {req : SatRequest} (hfree : CollisionFree sha256 events)
    (h : SatInvariant sha256 events requested cache) (hreq : req ∈ requestsOf events)
    : KeyTells sha256 cache req := by
  intro entry hentry
  rw [h.keys entry hentry]
  constructor
  . intro heq
    have hmem : entry.2.pair ∈ Lru.latest satCacheMaxsize requested := by
      rw [← h.latest]
      exact List.mem_map_of_mem hentry
    obtain ⟨req', hreq', hpair⟩ := h.requested _ (latest_subset hmem)
    rw [← hpair] at heq ⊢
    exact joined_injective (hfree req' hreq' req hreq heq)
  . intro heq
    rw [heq]

theorem satInvariant_empty (sha256 : List Char → String) (events : List SatEvent)
    : SatInvariant sha256 events [] [] := by
  constructor
  case latest => exact (latest_nil satCacheMaxsize).symm
  case keys =>
    intro entry hentry
    cases hentry
  case requested =>
    intro pair hpair
    cases hpair

theorem satInvariant_step {event : SatEvent} (hfree : CollisionFree sha256 (events ++ [event]))
    (h : SatInvariant sha256 events requested cache)
    : SatInvariant sha256 (events ++ [event]) (requestedStep requested event)
        (satStep sha256 cache event) := by
  have hold : SatInvariant sha256 (events ++ [event]) requested cache := by
    refine { h with requested := fun pair hpair => ?_ }
    obtain ⟨req, hreq, heq⟩ := h.requested pair hpair
    rw [requestsOf_append]
    exact ⟨req, List.mem_append_left _ hreq, heq⟩
  cases event with
  | clear => exact satInvariant_empty sha256 _
  | request req raises =>
    have hreq : req ∈ requestsOf (events ++ [.request req raises]) := by
      rw [requestsOf_append]
      exact List.mem_append_right _ (List.mem_singleton_self req)
    have htells := keyTells_of_collisionFree hfree hold hreq
    unfold satStep requestedStep
    dsimp only
    rw [← h.latest]
    split
    next hok =>
      obtain ⟨_, htouch⟩ := getOrCreateSatellite_succeeds htells hok
      constructor
      case latest =>
        rw [htouch, h.latest]
        exact touch_latest satCacheMaxsize requested req.pair
      case keys => exact keysOk_getOrCreateSatellite raises h.keys
      case requested =>
        intro pair hpair
        rcases List.mem_append.mp hpair with hmem | hlast
        . exact hold.requested pair hmem
        . exact ⟨req, hreq, (List.mem_singleton.mp hlast).symm⟩
    next hok =>
      rw [not_or, Bool.not_eq_false] at hok
      obtain ⟨hnew, rfl⟩ := hok
      rw [getOrCreateSatellite_fails htells hnew]
      exact hold

end

theorem satInvariant_foldl {events : List SatEvent} (hfree : CollisionFree sha256 events)
    : SatInvariant sha256 events (requestedIn events) (events.foldl (satStep sha256) []) := by
  induction events using List.reverseRecOn with
  | nil => exact satInvariant_empty sha256 _
  | append_singleton events event ih =>
    have hbefore : CollisionFree sha256 events := by
      intro req hreq req' hreq'
      unfold CollisionFree at hfree
      rw [requestsOf_append] at hfree
      exact hfree req (List.mem_append_left _ hreq) req' (List.mem_append_left _ hreq')
    unfold requestedIn
    rw [List.foldl_append, List.foldl_append]
    exact satInvariant_step hfree (ih hbefore)

theorem getOrCreateSatellite_exactLru {events : List SatEvent} (h : CollisionFree sha256 events)
    : ExactLru sha256 (requestedIn events) (events.foldl (satStep sha256) []) := by
  have hinv := satInvariant_foldl h
  constructor
  case latest => exact hinv.latest
  case length =>
    rw [← length_latest, ← hinv.latest]
    exact (List.length_map _).symm
  case keys => exact hinv.keys
  case answers => exact fun req raises htells hok => (getOrCreateSatellite_succeeds htells hok).left
  case raises => exact fun req => getOrCreateSatellite_fails

def issRequest1 : SatRequest where
  line1 := issDay1
  line2 := issLine2
  name := issName
  length1 := by decide +kernel
  length2 := by decide +kernel

def issRequest2 : SatRequest where
  line1 := '\t' :: issDay2
  line2 := issLine2
  name := issName
  length1 := by decide +kernel
  length2 := by decide +kernel

def issSatSha256 (text : List Char) : String :=
  if text = joined issRequest1.pair then
    "3da255613e03425cba08a8b350a17b7e3312dc86db04a8efed4e3e00f02c169e"
  else
    "55342f2b2e58abda0784cd68ff4ae4fddab44c02b665738e27acde3bcb20bb66"

theorem getOrCreateSatellite_exactLru_iss
    : ExactLru issSatSha256
        (requestedIn [.request issRequest1 false, .request issRequest2 true,
          .request issRequest2 false, .request issRequest1 true])
        ([.request issRequest1 false, .request issRequest2 true,
          .request issRequest2 false, .request issRequest1 true].foldl (satStep issSatSha256) []) :=
  getOrCreateSatellite_exactLru (by decide +kernel)

end SGP4Engine
end SdaSystem
