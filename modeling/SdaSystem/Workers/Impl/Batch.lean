import Mathlib.Data.Finset.Insert
import Mathlib.Data.List.FinRange
import Mathlib.Data.Fintype.Defs

/-!
This module contains the tasks of a propagation batch: one `detect_passes` task for each satellite,
and the Redis counter whose last decrement starts the scheduling. What a task does besides is folded
into the way in which its attempt ends.
-/

namespace SdaSystem
namespace Batch

def maxRetries : Nat := 3

structure Message (n : Nat) where
  sat : Fin n
  counterKey : String
  retries : Nat := 0
  deriving DecidableEq, Repr

structure State (n : Nat) where
  -- The messages that are not acknowledged.
  queue : List (Message n)
  -- `none` is a key that has expired.
  counter : Option Int
  -- The satellites for which `DECR` was called.
  decremented : List (Fin n) := []
  -- The satellites for which some delivery came to an end.
  processed : Finset (Fin n) := ∅
  -- The satellites that were processed when `run_greedy` was dispatched, for each time it was.
  dispatches : List (Finset (Fin n)) := []

/--
The batch after the counter is set and all tasks are sent. A task that starts before the last one is
sent does nothing else than one that starts later.
-/
def propagateBatch (batchKey : String) (n : Nat) : State n where
  queue := (List.finRange n).map fun sat => { sat, counterKey := batchKey }
  counter := some n

section

variable {n : Nat}

def delayGreedy (s : State n) : State n :=
  { s with dispatches := s.dispatches ++ [s.processed] }

/-- `DECR`, which takes a missing key for zero. -/
def decr (m : Message n) (s : State n) : State n :=
  { s with
    counter := some (s.counter.getD 0 - 1)
    decremented := s.decremented ++ [m.sat] }

def propagateCounterDecr (m : Message n) (s : State n) : State n :=
  if m.counterKey = "" then
    delayGreedy s
  else
    let s := decr m s
    if s.counter.getD 0 ≤ 0 then delayGreedy s else s

/-- Where `SoftTimeLimitExceeded` is raised: around or in a call of `_propagate_counter_decr`. -/
inductive Landing where
  -- before the `try` of the function, or anywhere before the call
  | beforeCall
  | beforeDecr
  | beforeDispatch
  -- after the `try`, or before the return that follows the call
  | beforeReturn
  deriving DecidableEq, Repr

inductive Exc where
  | maxRetriesExceeded
  | other
  deriving DecidableEq, Repr

-- An error in `db.close()` comes after all of this and changes none of it.
inductive Outcome where
  | success
  | noStations
  | softTimeLimit (landing : Landing)
  | exception (exc : Exc)
  -- A handler ends in an exception before it counts the task or has sent the next attempt: in
  -- `db.rollback()` or in `self.retry`.
  | handlerRaises
  -- `SoftTimeLimitExceeded` is raised when `except MaxRetriesExceededError` is about to count the task.
  | maxRetriesTimeLimit (landing : Landing)
  deriving DecidableEq, Repr

inductive Raised where
  | retry
  | exc (exc : Exc)

/-- What `self.retry(exc=exc)` raises; in the first case it has sent the next attempt. -/
def retry (retries : Nat) (exc : Exc) : Raised :=
  if retries < maxRetries then .retry else .exc exc

/--
What the call has done when the exception is raised, and whether the exception leaves it: the counter
function has a handler of its own around `DECR` and the dispatch, which takes it for a failure of Redis.
-/
def interrupted (landing : Landing) (m : Message n) (s : State n) : State n × Bool :=
  match landing with
  | .beforeCall => (s, true)
  | .beforeDecr => (s, m.counterKey = "")
  | .beforeDispatch => if m.counterKey = "" then (s, true) else (decr m s, false)
  | .beforeReturn => (propagateCounterDecr m s, true)

/-- `except SoftTimeLimitExceeded`, when the exception leaves the call that the body makes. -/
def exceptSoftTimeLimit (landing : Landing) (m : Message n) (s : State n) : State n :=
  let (s, raised) := interrupted landing m s
  if raised then propagateCounterDecr m s else s

def detectPasses (m : Message n) (outcome : Outcome) (s : State n) : State n :=
  let ended := { s with processed := insert m.sat s.processed }
  let retried := { s with queue := s.queue ++ [{ m with retries := m.retries + 1 }] }
  match outcome with
  | .success | .noStations => propagateCounterDecr m ended
  | .softTimeLimit landing => exceptSoftTimeLimit landing m ended
  | .exception exc =>
    match retry m.retries exc with
    | .retry => retried
    | .exc .maxRetriesExceeded => propagateCounterDecr m ended
    -- `except MaxRetriesExceededError` does not match.
    | .exc .other => ended
  | .handlerRaises => ended
  | .maxRetriesTimeLimit landing =>
    match retry m.retries .maxRetriesExceeded with
    | .retry => retried
    | .exc _ => (interrupted landing m ended).1

/-- The worker of a lost message dies before the acknowledgement, so the message is delivered again. -/
inductive Event (n : Nat) where
  | ack (m : Message n) (outcome : Outcome)
  | lostBeforeDecr (m : Message n)
  | lostBeforeDispatch (m : Message n)
  | lostBeforeAck (m : Message n) (outcome : Outcome)
  | expire

inductive Step : State n → Event n → State n → Prop where
  | ack {s : State n} {m : Message n} {outcome : Outcome} (hm : m ∈ s.queue)
      : Step s (.ack m outcome) (detectPasses m outcome { s with queue := s.queue.erase m })
  | lostBeforeDecr {s : State n} {m : Message n} (hm : m ∈ s.queue) : Step s (.lostBeforeDecr m) s
  | lostBeforeDispatch {s : State n} {m : Message n} (hm : m ∈ s.queue) (hkey : m.counterKey ≠ "")
      : Step s (.lostBeforeDispatch m) (decr m { s with processed := insert m.sat s.processed })
  | lostBeforeAck {s : State n} {m : Message n} {outcome : Outcome} (hm : m ∈ s.queue)
      : Step s (.lostBeforeAck m outcome) (detectPasses m outcome s)
  | expire {s : State n} : Step s .expire { s with counter := none }

end

end Batch
end SdaSystem
