import SdaSystem.Api.Impl.Passes
import SdaSystem.Library.Runs
import SdaSystem.Library.TtlCache

/-!
`GET /api/passes` while others write to the table: any number of requests, each cut at its queries and
at its commands to the cache, whose entries live for an hour. Times are milliseconds on the clock of
Redis.
-/

namespace SdaSystem
namespace Passes

def cacheTtl : Int := 3600 * 1000

inductive Phase where
  | started
  -- the cache has no entry for the request
  | missed
  -- `query.count()` has been answered
  | counted (totalCount : Nat)
  -- the query for the page has been answered too
  | paged (totalCount : Nat) (passes : List SatellitePass)
  | done (response : Except HTTPException PaginatedPassesResponse)
  deriving DecidableEq, Repr

structure Call where
  req : Request
  phase : Phase

structure TimedState where
  now : Int
  table : PassTable
  cache : TtlCache (String × Int) (List SatellitePass) Int := fun _ => none
  -- the `SETEX` commands that can still take effect
  sent : List ((String × Int) × List SatellitePass) := []
  calls : Nat → Option Call := fun _ => none

namespace TimedState

def setPhase (s : TimedState) (n : Nat) (req : Request) (phase : Phase) : TimedState :=
  { s with calls := Function.update s.calls n (some { req, phase }) }

def send (s : TimedState) (key : String × Int) (passes : List SatellitePass) : TimedState :=
  { s with sent := (key, passes) :: s.sent }

end TimedState

/-- What the session makes of the rows of a query: of those that it has loaded, it keeps what it has. -/
def identityMap (loaded rows : List SatellitePass) : List SatellitePass :=
  rows.map fun row => (loaded.find? (·.id = row.id)).getD row

namespace Request

variable (req : Request)

/-- The response from what the two queries found, which may be of different times. -/
def respond (totalCount : Nat) (passes : List SatellitePass) : PaginatedPassesResponse where
  data := passes
  totalCount
  page := req.page
  pageSize := req.pageSize
  nextPage :=
    if (req.page - 1) * req.pageSize + req.pageSize < totalCount then some (req.page + 1) else none

def arrive : Phase :=
  match req.check with
  | some error => .done (.error error)
  | none => .started

def lookup (cached : Option (List SatellitePass)) : Phase :=
  match cached with
  | some passes => if passes = [] then .missed else .done (.ok (req.paginate passes))
  | none => .missed

end Request

inductive TimedEvent where
  | start (n : Nat) (req : Request)
  | lookup (n : Nat) (available : Bool)
  | count (n : Nat)
  | page (n : Nat)
  | finish (n : Nat)
  | land (key : String × Int) (passes : List SatellitePass)
  | lose (key : String × Int) (passes : List SatellitePass)
  | evict (key : String × Int)
  | write (table : PassTable)
  | clock (now : Int)

/--
`finish` is the query for the write-back, with the command that it sends, if there is one. As `_call`
repeats what has failed, a command can take effect any number of times, until `lose`.
-/
def timedNext (s : TimedState) (e : TimedEvent) : Option TimedState :=
  match e with
  | .start n req =>
    match s.calls n with
    | some _ => none
    | none => some (s.setPhase n req req.arrive)
  | .lookup n available =>
    match s.calls n with
    | some { req, phase := .started } =>
      let cached := if available then req.passKey.bind (s.cache.get s.now) else none
      some (s.setPhase n req (req.lookup cached))
    | _ => none
  | .count n =>
    match s.calls n with
    | some { req, phase := .missed } =>
      some (s.setPhase n req (.counted (req.query s.table).length))
    | _ => none
  | .page n =>
    match s.calls n with
    | some { req, phase := .counted totalCount } =>
      some (s.setPhase n req (.paged totalCount (req.onPage (req.query s.table))))
    | _ => none
  | .finish n =>
    match s.calls n with
    | some { req, phase := .paged totalCount passes } =>
      let s' := s.setPhase n req (.done (.ok (req.respond totalCount passes)))
      match req.passKey with
      | some key =>
        some (if req.page = 1 then s'.send key (identityMap passes (req.query s.table)) else s')
      | none => some s'
    | _ => none
  | .land key passes =>
    if (key, passes) ∈ s.sent then
      some { s with cache := s.cache.setex s.now cacheTtl key passes }
    else
      none
  | .lose key passes => some { s with sent := s.sent.erase (key, passes) }
  | .evict key => some { s with cache := s.cache.evict key }
  | .write table => some { s with table }
  | .clock now => if s.now ≤ now then some { s with now } else none

def TimedStep (s : TimedState) (e : TimedEvent) (t : TimedState) : Prop :=
  timedNext s e = some t

end Passes
end SdaSystem
