import Mathlib.Algebra.Order.Ring.Rat
import SdaSystem.Library.PyFloat
import SdaSystem.Library.Runs

/-!
The circuit breaker of the Redis cache, and any number of its calls between which the event loop
switches. A call gives up control while it waits for Redis and while it sleeps before it tries again.
What is noted of the calls, their commands, results and completions, is not up to the calls.
-/

namespace SdaSystem
namespace RedisCache

def maxRetries : Nat := 3

def retryBaseSec : Rat := PyFloat.fl (1 / 10)

def maxFailures : Nat := 5

def openDurationSec : Rat := 30

/-- The instant that is `openDurationSec` after another one, on a clock whose readings are floats. -/
def openDeadline (now : Rat) : Rat :=
  PyFloat.fl (now + openDurationSec)

/-- What `time.monotonic()` shows, in seconds; the clock does not start before zero. -/
structure Moment where
  seconds : Rat
  nonneg : 0 ≤ seconds
  deriving DecidableEq

structure Breaker where
  failureCount : Nat := 0
  openUntil : Rat := 0
  deriving DecidableEq, Repr

namespace Breaker

def circuitIsOpen (b : Breaker) (now : Rat) : Bool :=
  b.openUntil ≠ 0 ∧ now < b.openUntil

def onSuccess : Breaker where
  failureCount := 0
  openUntil := 0

def onFailure (b : Breaker) (now : Rat) : Breaker where
  failureCount := b.failureCount + 1
  openUntil :=
    if maxFailures ≤ b.failureCount + 1 then openDeadline now else b.openUntil

end Breaker

inductive Accounting where
  | onSuccess
  | onFailure
  deriving DecidableEq, Repr

def Breaker.account (b : Breaker) (now : Rat) (accounting : Option Accounting) : Breaker :=
  match accounting with
  | none => b
  | some .onSuccess => .onSuccess
  | some .onFailure => b.onFailure now

/-- What awaiting the command gives. An exception that is no `RedisError` passes through the call. -/
inductive Result where
  | success
  | transientError
  | permanentError
  | otherException
  deriving DecidableEq, Repr

/-- How the caller of `_call` sees it end; the three in the middle are a `RedisError`. -/
inductive Ending where
  | returned
  | circuitOpen
  | permanentError
  | retriesExhausted
  | otherException
  deriving DecidableEq, Repr

/-- Where a call stands; it gives up control in the first two places. -/
inductive Phase where
  | awaiting (attempt : Nat)
  | sleeping (attempt : Nat) (delay : Rat)
  | finished (ending : Ending)
  deriving DecidableEq, Repr

namespace Call

def enter (b : Breaker) (now : Rat) : Phase :=
  if b.circuitIsOpen now then .finished .circuitOpen else .awaiting 1

def onResult (result : Result) (phase : Phase) : Option (Phase × Option Accounting) :=
  match phase with
  | .awaiting attempt =>
    match result with
    | .success => some (.finished .returned, some .onSuccess)
    | .transientError => some (.sleeping attempt (retryBaseSec * 2 ^ (attempt - 1)), none)
    | .permanentError => some (.finished .permanentError, some .onFailure)
    | .otherException => some (.finished .otherException, none)
  | _ => none

/-- The call sleeps after the last attempt too, and counts as failed then. -/
def onWake (phase : Phase) : Option (Phase × Option Accounting) :=
  match phase with
  | .sleeping attempt _ =>
    if attempt < maxRetries then
      some (.awaiting (attempt + 1), none)
    else
      some (.finished .retriesExhausted, some .onFailure)
  | _ => none

def onCancel (phase : Phase) : Option (Phase × Option Accounting) :=
  match phase with
  | .finished _ => none
  | _ => some (.finished .otherException, none)

end Call

/-- A call that came to an end after it had been let through: did it fail? -/
structure Completion where
  call : Nat
  time : Rat
  failed : Bool
  deriving DecidableEq, Repr

/-- The failed completions since the last successful one; the latest completion comes first. -/
def failedSinceSuccess (completions : List Completion) : Nat :=
  (completions.takeWhile (·.failed)).length

/-- Enough failures in a row, and the latest failed completion is not too long ago. -/
def OpenAt (completions : List Completion) (t : Rat) : Prop :=
  maxFailures ≤ failedSinceSuccess completions
    ∧ ∃ last, completions.find? (·.failed) = some last ∧ t < openDeadline last.time

instance (completions : List Completion) (t : Rat) : Decidable (OpenAt completions t) :=
  match h : completions.find? (·.failed) with
  | none => isFalse fun hopen => by
    obtain ⟨_, last, hlast, _⟩ := hopen
    rw [h] at hlast
    cases hlast
  | some last =>
    decidable_of_iff (maxFailures ≤ failedSinceSuccess completions
        ∧ t < openDeadline last.time) <| by
      unfold OpenAt
      rw [h]
      simp

def Ending.completion : Ending → Option Bool
  | .returned => some false
  | .permanentError => some true
  | .retriesExhausted => some true
  | .circuitOpen => none
  | .otherException => none

namespace Phase

def commands : Phase → Nat
  | .awaiting _ => 1
  | _ => 0

def completion : Phase → Option Bool
  | .finished ending => ending.completion
  | _ => none

end Phase

/-- An execution of `_call`, and what can be seen of it from outside. -/
structure Execution where
  -- was the circuit open by the completions before it
  enteredOpen : Bool
  phase : Phase
  commands : Nat
  results : List Result
  deriving DecidableEq, Repr

structure State where
  now : Moment
  breaker : Breaker := {}
  -- in the order in which they were entered
  calls : List Execution := []
  -- the latest one first
  completions : List Completion := []
  deriving DecidableEq

namespace State

def enter (s : State) : State :=
  let phase := Call.enter s.breaker s.now.seconds
  { s with
    calls := s.calls ++ [{
      enteredOpen := OpenAt s.completions s.now.seconds
      phase
      commands := phase.commands
      results := []
    }] }

/-- Let one call run on until it gives up control again or ends. -/
def resume (s : State) (i : Nat) (results : List Result)
    (f : Phase → Option (Phase × Option Accounting)) : Option State := do
  let call ← s.calls[i]?
  let (phase, accounting) ← f call.phase
  return { s with
    breaker := s.breaker.account s.now.seconds accounting
    calls := s.calls.set i { call with
      phase
      commands := call.commands + phase.commands
      results := call.results ++ results
    }
    completions :=
      (phase.completion.map fun failed => { call := i, time := s.now.seconds, failed }).toList
        ++ s.completions }

end State

inductive Event where
  | enter
  | resolve (call : Nat) (result : Result)
  | wake (call : Nat)
  | cancel (call : Nat)
  | clock (now : Moment)

def step (s : State) (event : Event) : Option State :=
  match event with
  | .enter => some s.enter
  | .resolve i result => s.resume i [result] (Call.onResult result)
  | .wake i => s.resume i [] Call.onWake
  | .cancel i => s.resume i [] Call.onCancel
  | .clock now => if s.now.seconds ≤ now.seconds then some { s with now } else none

def Step (s : State) (event : Event) (s' : State) : Prop :=
  step s event = some s'

end RedisCache
end SdaSystem
