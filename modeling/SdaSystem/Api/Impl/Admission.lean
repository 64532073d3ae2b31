import SdaSystem.Api.Impl.AuthTtl
import SdaSystem.Api.Impl.RateLimit

/-!
`verify_api_key`, on which every route depends: it authenticates a request by its key, and then asks the
rate limiter with the limit that came with the key. Both run on one clock, which the limiter reads
before it sends its script.
-/

namespace SdaSystem
namespace APIKeyAuth

inductive Verdict where
  -- 401, before the key is looked at
  | missingKey
  -- 429, with the header `Retry-After`
  | tooManyRequests (retryAfter : Nat)
  | admitted (keyToken : String)
  deriving DecidableEq, Repr

/-- `str(retry_after or 60)` takes sixty also for zero. -/
def verdict (keyToken : String) (response : Bool × Option Nat) : Verdict :=
  if response.1 then
    .admitted keyToken
  else
    let retryAfter := response.2.getD 0
    .tooManyRequests (if retryAfter = 0 then 60 else retryAfter)

structure AdmissionState where
  auth : TimedState
  store : RateLimiter.Store := fun _ => none
  -- what the requests that wait for the rate limiter have read off the clock
  stamps : Nat → Option RateLimiter.Timestamp := fun _ => none
  -- the calls for which the script has run so far, and whether it allowed them
  checks : List (RateLimiter.Call × Bool) := []
  replies : Nat → Option Bool := fun _ => none
  decided : Nat → Option Verdict := fun _ => none

namespace AdmissionState

def seconds (s : AdmissionState) : Rat :=
  mkRat s.auth.now 1000

def decide (s : AdmissionState) (n : Nat) (verdict : Verdict) : AdmissionState :=
  { s with decided := Function.update s.decided n (some verdict) }

end AdmissionState

inductive AdmissionEvent where
  | request (n : Nat) (xApiKey : Option String)
  -- a step of `verify`, of the cache, of an administrator or of the clock
  | auth (e : TimedEvent)
  | readClock (n : Nat)
  | runScript (n : Nat) (member : String)
  | answer (n : Nat)
  -- the client of Redis raises, and the limiter lets the request through
  | failOpen (n : Nat)
  deriving DecidableEq, Repr

def AdmissionEvent.authEvents (e : AdmissionEvent) : List TimedEvent :=
  match e with
  | .request n (some apiKey) => if apiKey = "" then [] else [.start n apiKey]
  | .auth e => [e]
  | _ => []

variable (sha256 : String → String)

inductive AdmissionStep (s : AdmissionState) : AdmissionEvent → AdmissionState → Prop where
  | missingKey {n : Nat} {xApiKey : Option String} (hnew : s.auth.calls n = none)
      (hdecided : s.decided n = none) (hkey : xApiKey.getD "" = "")
      : AdmissionStep s (.request n xApiKey) (s.decide n .missingKey)
  | request {n : Nat} {apiKey : String} {auth : TimedState} (hdecided : s.decided n = none)
      (hkey : apiKey ≠ "") (hstart : TimedStep sha256 s.auth (.start n apiKey) auth)
      : AdmissionStep s (.request n (some apiKey)) { s with auth }
  | auth {e : TimedEvent} {auth : TimedState} (hstart : ∀ n apiKey, e ≠ .start n apiKey)
      (hstep : TimedStep sha256 s.auth e auth) : AdmissionStep s (.auth e) { s with auth }
  | readClock {n : Nat} {keyToken : String} {rateLimit : Int} {now : RateLimiter.Timestamp}
      (hcall : s.auth.calls n = some ⟨keyToken, .success rateLimit⟩) (hstamp : s.stamps n = none)
      (hnow : now.seconds = s.seconds)
      : AdmissionStep s (.readClock n) { s with stamps := Function.update s.stamps n (some now) }
  -- also for a request that no longer waits for the answer
  | runScript {n : Nat} {call : RateLimiter.Call} {rateLimit : Int} {allowed : Bool}
      {store : RateLimiter.Store}
      (hcall : s.auth.calls n = some ⟨call.keyHash, .success rateLimit⟩)
      (hlimit : call.requestsPerMin = rateLimit.toNat) (hstamp : s.stamps n = some call.now)
      (hreply : s.replies n = none)
      -- `uuid4` gives no text twice
      (hmember : call.member ∉ s.checks.map (·.1.member))
      (hstep : RateLimiter.Step s.store (call, allowed) store)
      : AdmissionStep s (.runScript n call.member) {
          s with
          store
          checks := s.checks ++ [(call, allowed)]
          replies := Function.update s.replies n (some allowed)
        }
  | answer {n : Nat} {keyToken : String} {rateLimit : Int} {allowed : Bool}
      (hcall : s.auth.calls n = some ⟨keyToken, .success rateLimit⟩) (hdecided : s.decided n = none)
      (hreply : s.replies n = some allowed)
      : AdmissionStep s (.answer n)
          (s.decide n (verdict keyToken (RateLimiter.response (some (if allowed then 0 else 1)))))
  | failOpen {n : Nat} {keyToken : String} {rateLimit : Int} {now : RateLimiter.Timestamp}
      (hcall : s.auth.calls n = some ⟨keyToken, .success rateLimit⟩) (hdecided : s.decided n = none)
      (hstamp : s.stamps n = some now)
      : AdmissionStep s (.failOpen n) (s.decide n (verdict keyToken (RateLimiter.response none)))

end APIKeyAuth
end SdaSystem
