import Mathlib.Data.List.Nodup
import Mathlib.Data.String.Basic

/-!
The authentication of API keys: the table of keys, and `verify`, cut where other requests can come in
between.
-/

namespace SdaSystem

structure APIKey where
  id : Nat
  keyHash : String
  isActive : Bool := true
  rateLimitPerMin : Int := 100
  deriving DecidableEq, Repr

structure KeyTable where
  rows : List APIKey
  primaryKey : (rows.map (·.id)).Nodup
  uniqueHash : (rows.map (·.keyHash)).Nodup

namespace KeyTable

def update (keys : KeyTable) (keyId : Nat) (rateLimitPerMin : Option Int) (isActive : Option Bool)
    : KeyTable where
  rows := keys.rows.map fun row =>
    if row.id = keyId then
      {
        row with
        rateLimitPerMin := rateLimitPerMin.getD row.rateLimitPerMin
        isActive := isActive.getD row.isActive
      }
    else
      row
  primaryKey := by
    rw [List.map_map]
    convert keys.primaryKey using 2
    funext row
    dsimp only [Function.comp]
    split <;> rfl
  uniqueHash := by
    rw [List.map_map]
    convert keys.uniqueHash using 2
    funext row
    dsimp only [Function.comp]
    split <;> rfl

end KeyTable

namespace APIKeyAuth

/-- The texts `valid:<rate_limit>`, `invalid` and `revoked`, and those that `verify` makes nothing of. -/
inductive Cached where
  | valid (rateLimit : Int)
  | invalid
  | revoked
  | malformed
  deriving DecidableEq, Repr

inductive Phase where
  | started
  | missed
  | found (rateLimit : Int)
  | notFound
  | success (rateLimit : Int)
  | unauthorized
  | badRequest
  deriving DecidableEq, Repr

structure Call where
  keyToken : String
  phase : Phase
  deriving DecidableEq, Repr

def start (apiKey : String) : Phase :=
  if apiKey = "" then .badRequest else .started

/-- `cached` is `none` if there is no entry, or if Redis is not available. -/
def lookup (cached : Option Cached) : Phase :=
  match cached with
  | some .revoked => .unauthorized
  | some .invalid => .unauthorized
  | some (.valid rateLimit) => .success rateLimit
  | some .malformed => .missed
  | none => .missed

def query (keys : KeyTable) (keyToken : String) : Phase :=
  match keys.rows.find? fun row => row.keyHash = keyToken ∧ row.isActive with
  | some row => .found row.rateLimitPerMin
  | none => .notFound

def finish (phase : Phase) : Option (Cached × Phase) :=
  match phase with
  | .found rateLimit => some (.valid rateLimit, .success rateLimit)
  | .notFound => some (.invalid, .unauthorized)
  | _ => none

end APIKeyAuth
end SdaSystem
