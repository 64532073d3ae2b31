import Mathlib.Algebra.Order.Ring.Rat
import Mathlib.Logic.Function.Basic
import SdaSystem.Library.Runs
import SdaSystem.Library.SortedSet

/-!
The rate limiter: the script that Redis runs as one transaction, the call around it, and the calls
that any number of requests make one after the other.
-/

namespace SdaSystem
namespace RateLimiter

/-- What `timestamp()` gives for the clock: it does not show a time before the epoch. -/
structure Timestamp where
  seconds : Rat
  nonneg : 0 ≤ seconds

abbrev Store := String → Option (Expiring (SortedSet String Rat) Rat)

def setAt (store : Store) (key : String) : SortedSet String Rat :=
  match store key with
  | some entry => entry.value
  | none => .empty

/-- A set that loses its last member is no key any more. -/
def zremrangebyscore (store : Store) (key : String) (lo hi : Rat) : Store :=
  let z := (setAt store key).removeRangeByScore lo hi
  Function.update store key
    (if z.card = 0 then none else (store key).map fun entry => { entry with value := z })

def zcard (store : Store) (key : String) : Nat :=
  (setAt store key).card

def zadd (store : Store) (key : String) (score : Rat) (member : String) : Store :=
  Function.update store key (some {
    value := (setAt store key).add score member
    expireAt := (store key).bind (·.expireAt)
  })

def expire (store : Store) (key : String) (deadline : Rat) : Store :=
  Function.update store key ((store key).map fun entry => { entry with expireAt := some deadline })

def rateLimitLua (store : Store) (key : String) (now winStart : Rat) (limit : Nat) (member : String)
    : Store × Int :=
  let store := zremrangebyscore store key 0 winStart
  let count := zcard store key
  if limit ≤ count then
    (store, 1)
  else
    let store := zadd store key now member
    (expire store key (now + 60), 0)

structure Call where
  keyHash : String
  requestsPerMin : Nat
  now : Timestamp
  member : String

def redisKey (keyHash : String) : String :=
  "ratelimit:" ++ keyHash

/-- `none` is an exception of the Redis client. -/
def response (result : Option Int) : Bool × Option Nat :=
  match result with
  | some result => if result = 1 then (false, some 60) else (true, none)
  | none => (true, none)

def checkRateLimit (store : Store) (call : Call) : Store × (Bool × Option Nat) :=
  let now := call.now.seconds
  let windowStart := now - 60
  let (store, result) :=
    rateLimitLua store (redisKey call.keyHash) now windowStart call.requestsPerMin call.member
  (store, response (some result))

/-- A call and whether it was allowed. Keys whose time has come may be gone when it runs. -/
inductive Step : Store → Call × Bool → Store → Prop where
  | checkRateLimit {store store' : Store} {call : Call} (hlapse : Lapse call.now.seconds store store')
      : Step store (call, (RateLimiter.checkRateLimit store' call).2.1)
          (RateLimiter.checkRateLimit store' call).1

end RateLimiter
end SdaSystem
