import Mathlib.Logic.Function.Basic
import SdaSystem.Library.Gregorian
import SdaSystem.Library.Runs

/-!
The TLE entries of the Redis cache. Redis is a map from keys to payloads that also forgets on its own;
a command without a reply may take effect later, or never.
-/

open Gregorian

namespace SdaSystem
namespace RedisCache

open PyNumber (str zeroPad)

/-- An aware `datetime`: the fields on its clock, and how many microseconds that clock is ahead of UTC. -/
structure Epoch where
  date : Date
  hour : Nat
  minute : Nat
  second : Nat
  microsecond : Nat
  utcoffset : Int
  yearLe : date.year ≤ 9999
  hourLt : hour < 24
  minuteLt : minute < 60
  secondLt : second < 60
  microsecondLt : microsecond < 1000000
  utcoffsetLt : -86400000000 < utcoffset ∧ utcoffset < 86400000000

namespace Epoch

/-- Microseconds on the clock since the midnight before the year 1. -/
def wall (e : Epoch) : Int :=
  (((e.date.ordinal - 1 : Int) * 24 + e.hour) * 60 + e.minute) * 60000000 + e.second * 1000000
    + e.microsecond

def instant (e : Epoch) : Int :=
  e.wall - e.utcoffset

/-- `strftime("%Y%m%d_%H%M%S")` -/
def strftime (e : Epoch) : List Char :=
  zeroPad 4 e.date.year ++ (zeroPad 2 e.date.month ++ (zeroPad 2 e.date.day ++ '_' ::
    (zeroPad 2 e.hour ++ (zeroPad 2 e.minute ++ zeroPad 2 e.second))))

end Epoch

/-- `_key`: the parts after the prefix, with colons between them. -/
def key (keyPrefix : List Char) (parts : List (List Char)) : List Char :=
  keyPrefix ++ parts.flatMap fun part => ':' :: part

def tleKey (keyPrefix : List Char) (noradId : Int) (epoch : Epoch) : List Char :=
  key keyPrefix [['t', 'l', 'e'], str noradId, epoch.strftime]

/-- `V` is what is cached, `I` what `json.loads` makes of its text. -/
structure Codec (V I : Type) where
  -- `none` is a `TypeError` or a `ValueError`
  dumps : V → Option (List Char)
  -- `none` is a `JSONDecodeError`
  loads : List Char → Option I

structure Cache where
  store : List Char → Option (List Char) := fun _ => none
  -- the `SETEX` commands that were sent without a reply
  unanswered : List (List Char × List Char) := []
  hits : Nat := 0
  misses : Nat := 0

section

variable {V I : Type} (codec : Codec V I) (keyPrefix : List Char)

/--
`_call` sends up to three times: `lost` commands get no reply, then one may be answered. With the
circuit open it sends none.
-/
def setTle (c : Cache) (noradId : Int) (epoch : Epoch) (tleData : V) (lost : Nat) (answered : Bool)
    : Cache × Bool :=
  let key := tleKey keyPrefix noradId epoch
  match codec.dumps tleData with
  | none => (c, false)
  | some payload =>
    let c := { c with unanswered := c.unanswered ++ List.replicate lost (key, payload) }
    if answered then
      ({ c with store := Function.update c.store key (some payload) }, true)
    else
      (c, false)

/-- `deleted` tells whether Redis deletes a corrupt entry; the code does not wait for it to succeed. -/
def getTle (c : Cache) (noradId : Int) (epoch : Epoch) (answered deleted : Bool)
    : Cache × Option I :=
  let key := tleKey keyPrefix noradId epoch
  if ¬ answered then
    ({ c with misses := c.misses + 1 }, none)
  else
    match c.store key with
    | none => ({ c with misses := c.misses + 1 }, none)
    | some raw =>
      match codec.loads raw with
      | some image => ({ c with hits := c.hits + 1 }, some image)
      | none =>
        let store := if deleted then Function.update c.store key none else c.store
        -- a corrupt entry counts as a hit and as a miss
        ({ c with store, hits := c.hits + 1, misses := c.misses + 1 }, none)

inductive CacheEvent (V I : Type) where
  | set (noradId : Int) (epoch : Epoch) (tleData : V) (ok : Bool)
  | get (noradId : Int) (epoch : Epoch) (result : Option I)
  | expire (key : List Char)
  | land (key payload : List Char)

/-- The calls with what they return, and what Redis does by itself. -/
inductive CacheStep : Cache → CacheEvent V I → Cache → Prop where
  | set (c : Cache) (noradId : Int) (epoch : Epoch) (tleData : V) (lost : Nat) (answered : Bool)
      : CacheStep c
          (.set noradId epoch tleData
            (setTle codec keyPrefix c noradId epoch tleData lost answered).2)
          (setTle codec keyPrefix c noradId epoch tleData lost answered).1
  | get (c : Cache) (noradId : Int) (epoch : Epoch) (answered deleted : Bool)
      : CacheStep c
          (.get noradId epoch (getTle codec keyPrefix c noradId epoch answered deleted).2)
          (getTle codec keyPrefix c noradId epoch answered deleted).1
  | expire (c : Cache) (key : List Char)
      : CacheStep c (.expire key) { c with store := Function.update c.store key none }
  | land (c : Cache) (key payload : List Char) (h : (key, payload) ∈ c.unanswered)
      : CacheStep c (.land key payload)
          { c with
            store := Function.update c.store key (some payload)
            unanswered := c.unanswered.erase (key, payload) }

end

end RedisCache
end SdaSystem
