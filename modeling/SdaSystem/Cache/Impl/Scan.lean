import SdaSystem.Cache.Impl.TleCache

/-!
The pass entries of the Redis cache: their keys, and `_scan_delete`, which deletes the keys of a pattern
page by page while other clients set and delete keys.
-/

open Gregorian
open Runs

namespace SdaSystem
namespace RedisCache

open PyNumber (zeroPad)

def isoformat (date : Date) : List Char :=
  zeroPad 4 date.year ++ ('-' :: (zeroPad 2 date.month ++ ('-' :: zeroPad 2 date.day)))

def passes : List Char := ['p', 'a', 's', 's', 'e', 's']

def passKey (keyPrefix stationId : List Char) (queryDate : Date) : List Char :=
  key keyPrefix [passes, stationId, isoformat queryDate]

/-- What `invalidate_station_passes` deletes. -/
def stationPattern (keyPrefix stationId : List Char) : List Char :=
  key keyPrefix [passes, stationId, ['*']]

/-- What `invalidate_all_passes` deletes. -/
def allPattern (keyPrefix : List Char) : List Char :=
  key keyPrefix [passes, ['*']]

inductive ScanPhase where
  | scanning (cursor : Nat)
  | deleting (keys : List (List Char)) (cursor : Nat)
  | finished
  -- a command has failed for good
  | failed
  deriving DecidableEq, Repr

structure ScanState (V : Type) where
  store : List Char → Option V
  phase : ScanPhase := .scanning 0
  deleted : Nat := 0

inductive ScanEvent (V : Type) where
  -- the cursor that `SCAN` is given, and its reply
  | page (asked cursor : Nat) (keys : List (List Char))
  | delete
  -- `DEL` is carried out and its reply is lost, so it is sent again
  | deleteLost
  | fail
  -- other clients, and entries that expire
  | set (key : List Char) (value : V)
  | forget (key : List Char)

variable {V : Type}

def ScanPhase.ofCursor (cursor : Nat) : ScanPhase :=
  if cursor = 0 then .finished else .scanning cursor

def deleteKeys (keys : List (List Char)) (store : List Char → Option V) (key : List Char) : Option V :=
  if keys.contains key then none else store key

def scanNext (s : ScanState V) (e : ScanEvent V) : Option (ScanState V) :=
  match e with
  | .page asked cursor keys =>
    if s.phase = .scanning asked then
      if keys = [] then
        some { s with phase := .ofCursor cursor }
      else
        some { s with phase := .deleting keys cursor }
    else
      none
  | .delete =>
    match s.phase with
    | .deleting keys cursor =>
      some {
        store := deleteKeys keys s.store
        phase := .ofCursor cursor
        deleted := s.deleted + keys.length
      }
    | _ => none
  | .deleteLost =>
    match s.phase with
    | .deleting keys _ => some { s with store := deleteKeys keys s.store }
    | _ => none
  | .fail =>
    match s.phase with
    | .scanning _ => some { s with phase := .failed }
    | .deleting _ _ => some { s with phase := .failed }
    | _ => none
  | .set key value => some { s with store := Function.update s.store key (some value) }
  | .forget key => some { s with store := Function.update s.store key none }

def ScanStep (s : ScanState V) (e : ScanEvent V) (t : ScanState V) : Prop :=
  scanNext s e = some t

/-- The number that `invalidate_station_passes` and `invalidate_all_passes` return. -/
def ScanState.result (s : ScanState V) : Option Nat :=
  match s.phase with
  | .finished => some s.deleted
  | .failed => some 0
  | _ => none

end RedisCache
end SdaSystem
