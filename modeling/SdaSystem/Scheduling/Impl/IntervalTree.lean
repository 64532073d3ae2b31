import SdaSystem.Scheduling.Impl.Greedy

/-!
This module contains the interval-tree scheduler together with the part of a session that it uses:
rows that are marked stay pending until a commit writes them or a rollback discards them.

Where a call may raise is an argument: `raises` tells for each point of the body whether it does
there. An exception does not touch the session, so what raises gives the session as it is then.
-/

namespace SdaSystem

structure Session where
  table : PassTable
  -- The ids of the rows that are marked as scheduled in the session only.
  pending : List Nat := []

namespace Session

def add (session : Session) (p : SatellitePass) : Session :=
  { session with pending := session.pending ++ [p.id] }

def commit (session : Session) : Session where
  table := session.table.markScheduled session.pending .intervalTree

def rollback (session : Session) : Session :=
  { session with pending := [] }

end Session

structure Interval (δ : Type) where
  first : Rat
  last : Rat
  data : δ

abbrev IntervalTree (δ : Type) := List (Interval δ)

def IntervalTree.overlap (tree : IntervalTree δ) (first last : Rat) : List (Interval δ) :=
  tree.filter fun iv => iv.first < last ∧ first < iv.last

namespace IntervalTreeScheduler

/-- The points of the body of `_schedule_for_station` at which it can raise, `i` being a candidate. -/
inductive Point where
  | query
  | toUtcTimestamp (i : Nat)
  | overlap (i : Nat)
  | insert (i : Nat)
  | add (i : Nat)
  | verifyNoConflicts
  | commit
  | report
  deriving DecidableEq

section

-- The conversion of a time to a float; close to each other, two times may be rounded to one.
variable (toUtcTimestamp : Int → Rat)

def verifyNoConflicts (passes : List SatellitePass) : List (Int × Int) :=
  if passes.length < 2 then
    []
  else
    go [] passes
where
  go (checkTree : IntervalTree Int) (passes : List SatellitePass) : List (Int × Int) :=
    match passes with
    | [] => []
    | p :: rest =>
      let riseTs := toUtcTimestamp p.riseTime
      let setTs := toUtcTimestamp p.setTime
      if setTs ≤ riseTs then
        go checkTree rest
      else
        (checkTree.overlap riseTs setTs).map (fun iv => (p.noradId, iv.data))
          ++ go (⟨riseTs, setTs, p.noradId⟩ :: checkTree) rest

def candidates (table : PassTable) (startTime endTime : Int) (stationId : String)
    (globallyScheduled : Finset Int) : List SatellitePass :=
  sortedBy (fun p => -benefit p)
    (GreedyScheduler.candidates table startTime endTime stationId globallyScheduled)

structure Selection where
  session : Session
  tree : IntervalTree Nat := []
  selected : List SatellitePass := []

def consider (raises : Point → Bool) (st : Selection) (i : Nat) (p : SatellitePass)
    : Except Session Selection :=
  let riseTs := toUtcTimestamp p.riseTime
  let setTs := toUtcTimestamp p.setTime
  if raises (.toUtcTimestamp i) then
    .error st.session
  else if setTs ≤ riseTs then
    .ok st
  else if raises (.overlap i) then
    .error st.session
  else if st.tree.overlap riseTs setTs ≠ [] then
    .ok st
  else if raises (.insert i) then
    .error st.session
  else if raises (.add i) then
    -- The attributes are set, and the row is in the session already.
    .error (st.session.add p)
  else
    .ok {
      session := st.session.add p
      tree := ⟨riseTs, setTs, p.id⟩ :: st.tree
      selected := st.selected ++ [p.schedule .intervalTree]
    }

def considerAll (raises : Point → Bool) (st : Selection) (i : Nat) (candidates : List SatellitePass)
    : Except Session Selection :=
  match candidates with
  | [] => .ok st
  | p :: rest => do
    let st ← consider toUtcTimestamp raises st i p
    considerAll raises st (i + 1) rest

/-- The session after the call, and the passes that it returns; `none` is an exception. -/
def scheduleForStation (raises : Point → Bool) (session : Session) (stationId : String)
    (globallyScheduled : Finset Int) (startTime endTime : Int)
    : Session × Option (List SatellitePass) :=
  if raises .query then
    (session, none)
  else
    let cands := candidates session.table startTime endTime stationId globallyScheduled
    if cands = [] then
      (session, some [])
    else
      match considerAll toUtcTimestamp raises { session } 0 cands with
      | .error session => (session, none)
      | .ok st =>
        if raises .verifyNoConflicts then
          (st.session, none)
        else if verifyNoConflicts toUtcTimestamp st.selected ≠ [] then
          (st.session.rollback, some [])
        else if raises .commit then
          (st.session.rollback, none)
        else if raises .report then
          (st.session.commit, none)
        else
          (st.session.commit, some st.selected)

structure Progress where
  session : Session
  allScheduled : List SatellitePass := []
  globallyScheduled : Finset Int := ∅
  failedStations : List String := []

def scheduleStation (raises : String → Point → Bool) (startTime endTime : Int) (acc : Progress)
    (stationId : String) : Progress :=
  match scheduleForStation toUtcTimestamp (raises stationId) acc.session stationId
      acc.globallyScheduled startTime endTime with
  | (session, some scheduled) => {
      session
      allScheduled := acc.allScheduled ++ scheduled
      globallyScheduled := acc.globallyScheduled ∪ (scheduled.map (·.noradId)).toFinset
      failedStations := acc.failedStations
    }
  | (session, none) => { acc with session, failedStations := acc.failedStations ++ [stationId] }

def scheduleAllStations (raises : String → Point → Bool) (stations : StationTable)
    (table : PassTable) (startTime endTime : Int) : Progress :=
  (GreedyScheduler.activeStations stations).foldl
    (scheduleStation toUtcTimestamp raises startTime endTime) { session := { table } }

end

end IntervalTreeScheduler

end SdaSystem
