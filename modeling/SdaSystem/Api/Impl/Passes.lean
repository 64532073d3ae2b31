import Mathlib.Logic.Function.Basic
import SdaSystem.Db.Models
import SdaSystem.Library.SortedBy

/-!
`GET /api/passes`: the window of a request, its checks, the query, and the cache in front of it.

Rows that rise together keep the order of the table. What the cache gives back is what was put into
it, so an entry is the list of its responses. Instants are unbounded: that `start + 7 days` stays within
the years of `datetime`, and the offset below 2^63, is taken for granted.
-/

namespace SdaSystem
namespace Passes

/-- Microseconds on the clock face, and how far that clock is ahead of UTC; `none` if that is open. -/
structure DateTime where
  wall : Int
  utcoffset : Option Int
  deriving DecidableEq, Repr

namespace DateTime

def instant (dt : DateTime) : Int :=
  dt.wall - dt.utcoffset.getD 0

def aware (dt : DateTime) : DateTime :=
  { dt with utcoffset := some (dt.utcoffset.getD 0) }

def date (dt : DateTime) : Int :=
  dt.wall / 86400000000

def add (dt : DateTime) (delta : Int) : DateTime :=
  { dt with wall := dt.wall + delta }

end DateTime

structure Request where
  stationId : Option String := none
  satelliteId : Option Int := none
  startTime : Option DateTime := none
  endTime : Option DateTime := none
  page : Nat := 1
  pageSize : Nat := 50
  /-- what the clock shows when the request arrives -/
  now : Int
  page_pos : 1 ≤ page := by decide
  pageSize_pos : 1 ≤ pageSize := by decide
  pageSize_le : pageSize ≤ 100 := by decide

structure HTTPException where
  statusCode : Nat
  detail : String
  deriving DecidableEq, Repr

structure PaginatedPassesResponse where
  data : List SatellitePass
  totalCount : Nat
  page : Nat
  pageSize : Nat
  nextPage : Option Nat
  deriving DecidableEq, Repr

def sevenDays : Int := 7 * 24 * 3600 * 1000000

namespace Request

variable (req : Request)

def start : DateTime :=
  let startTime := req.startTime.getD { wall := req.now - sevenDays, utcoffset := some 0 }
  startTime.aware

def stop : DateTime :=
  let startTime := req.startTime.getD { wall := req.now - sevenDays, utcoffset := some 0 }
  let endTime := req.endTime.getD (startTime.add sevenDays)
  endTime.aware

def check : Option HTTPException :=
  if req.stop.instant ≤ req.start.instant then
    some { statusCode := 400, detail := "end_time must be after start_time" }
  else if sevenDays < req.stop.instant - req.start.instant then
    some { statusCode := 400, detail := "Maximum time window is 7 days" }
  else
    none

/-- A filter that is absent, empty or zero does not count. -/
def station : Option String :=
  req.stationId.filter (· ≠ "")

def satellite : Option Int :=
  req.satelliteId.filter (· ≠ 0)

def query (table : PassTable) : List SatellitePass :=
  sortedBy (·.riseTime) <| table.rows.filter fun p =>
    req.start.instant ≤ p.riseTime ∧ p.setTime ≤ req.stop.instant
      ∧ (∀ stationId ∈ req.station, p.stationId = stationId)
      ∧ (∀ satelliteId ∈ req.satellite, p.noradId = satelliteId)

def onPage (rows : List SatellitePass) : List SatellitePass :=
  (rows.drop ((req.page - 1) * req.pageSize)).take req.pageSize

def paginate (rows : List SatellitePass) : PaginatedPassesResponse where
  data := req.onPage rows
  totalCount := rows.length
  page := req.page
  pageSize := req.pageSize
  nextPage :=
    if (req.page - 1) * req.pageSize + req.pageSize < rows.length then some (req.page + 1) else none

/-- `_pass_key` of a station-only request: the station and the day on which the window starts. -/
def passKey : Option (String × Int) :=
  match req.station, req.satellite with
  | some stationId, none => some (stationId, req.start.date)
  | _, _ => none

end Request

abbrev Cache := String × Int → Option (List SatellitePass)

/-- The entry for a request, if it is one that counts: an empty list is none. -/
def hit (cache : Option Cache) (req : Request) : Option (List SatellitePass) := do
  let cache ← cache
  let key ← req.passKey
  let cached ← cache key
  if cached = [] then none else some cached

def writeBack (table : PassTable) (cache : Option Cache) (req : Request) : Option Cache :=
  match cache, req.passKey with
  | some cache, some key =>
    some (if req.page = 1 then Function.update cache key (some (req.query table)) else cache)
  | cache, _ => cache

def getPasses (table : PassTable) (cache : Option Cache) (req : Request)
    : Option Cache × Except HTTPException PaginatedPassesResponse :=
  match req.check with
  | some error => (cache, .error error)
  | none =>
    match hit cache req with
    | some cached => (cache, .ok (req.paginate cached))
    | none => (writeBack table cache req, .ok (req.paginate (req.query table)))

/-- The path without a cache, if the query for the page finds the rows in the order `rows`. -/
def getPassesDb (table : PassTable) (rows : List SatellitePass) (req : Request)
    : Except HTTPException PaginatedPassesResponse :=
  match req.check with
  | some error => .error error
  | none =>
    let totalCount := (req.query table).length
    let offset := (req.page - 1) * req.pageSize
    .ok {
      data := req.onPage rows
      totalCount
      page := req.page
      pageSize := req.pageSize
      nextPage := if offset + req.pageSize < totalCount then some (req.page + 1) else none
    }

def Request.atPage (req : Request) (page : Nat) (page_pos : 1 ≤ page) (now : Int) : Request :=
  { req with page, page_pos, now }

/--
The answers from the page of `req` on, until there is no next page. The query for a page finds the
rows in the order `orders page`, and `clock page` is when the request for it arrives; `none` is a
walk that does not end within `fuel` requests.
-/
def followNextPage (table : PassTable) (orders : Nat → List SatellitePass) (clock : Nat → Int)
    (fuel : Nat) (req : Request) : Option (Except HTTPException (List PaginatedPassesResponse)) :=
  match fuel with
  | 0 => none
  | fuel + 1 =>
    match getPassesDb table (orders req.page) req with
    | .error error => some (.error error)
    | .ok response =>
      match response.nextPage with
      | none => some (.ok [response])
      | some page =>
        if h : 1 ≤ page then
          (followNextPage table orders clock fuel (req.atPage page h (clock page))).map
            (·.map (response :: ·))
        else
          none

def responses (table : PassTable) (cache : Option Cache) (reqs : List Request)
    : List (Except HTTPException PaginatedPassesResponse) :=
  match reqs with
  | [] => []
  | req :: reqs =>
    let (cache, response) := getPasses table cache req
    response :: responses table cache reqs

end Passes
end SdaSystem
