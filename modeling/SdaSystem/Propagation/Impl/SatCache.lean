import SdaSystem.Ingestion.Impl.Fetcher

/-!
The cache of satellite objects in the SGP4 engine. A dictionary is the list of its entries in the order
that it keeps them in; the lock around each operation makes it one step.
-/

namespace SdaSystem
namespace SGP4Engine

open TLEFetcher (strip)

def satCacheMaxsize : Nat := 2000

/-- What Skyfield builds a satellite object from. -/
structure EarthSatellite where
  line1 : List Char
  line2 : List Char
  name : List Char
  deriving DecidableEq, Repr

def EarthSatellite.pair (sat : EarthSatellite) : List Char × List Char :=
  (strip sat.line1, strip sat.line2)

/-- The arguments of `_get_or_create_satellite`, as `_validate_tle_format` lets them pass. -/
structure SatRequest extends EarthSatellite where
  length1 : (strip line1).length = 69
  length2 : (strip line2).length = 69

abbrev SatCache := List (String × EarthSatellite)

/-- The text that is hashed to the key of a pair. -/
def joined (pair : List Char × List Char) : List Char :=
  pair.1 ++ '|' :: pair.2

/-- `OrderedDict.move_to_end`, for the entry with the given value. -/
def moveToEnd (cache : SatCache) (key : String) (sat : EarthSatellite) : SatCache :=
  cache.eraseP (·.1 = key) ++ [(key, sat)]

/--
The cache after the call, and the object that it returns. `sha256` is the digest in hexadecimal;
`raises` tells whether Skyfield raises, if it is asked for the object.
-/
def getOrCreateSatellite (sha256 : List Char → String) (cache : SatCache) (req : SatRequest)
    (raises : Bool) : SatCache × Option EarthSatellite :=
  let key := sha256 (joined req.pair)
  match cache.lookup key with
  | some sat => (moveToEnd cache key sat, some sat)
  | none =>
    if raises then
      (cache, none)
    else
      let sat := req.toEarthSatellite
      let cache := cache ++ [(key, sat)]
      (if satCacheMaxsize < cache.length then cache.drop 1 else cache, some sat)

/-- The empty cache, and the number of objects that were evicted. -/
def clearCache (cache : SatCache) : SatCache × Nat :=
  ([], cache.length)

inductive SatEvent where
  | request (req : SatRequest) (raises : Bool)
  | clear

def satStep (sha256 : List Char → String) (cache : SatCache) (event : SatEvent) : SatCache :=
  match event with
  | .request req raises => (getOrCreateSatellite sha256 cache req raises).1
  | .clear => (clearCache cache).1

end SGP4Engine
end SdaSystem
