import Mathlib.Logic.Function.Basic
import SdaSystem.Api.Impl.Auth
import SdaSystem.Library.TtlCache

/-!
`verify` on a clock: how long the entries live that it puts into the cache, when the `SETEX` commands
it has sent take effect, and the keys that are created, updated and revoked in between. Times are
milliseconds on the clock of Redis.
-/

namespace SdaSystem

/-- `create_api_key`: the commit fails if the hash is there already. -/
def KeyTable.create (keys : KeyTable) (id : Nat) (keyHash : String) (rateLimitPerMin : Int) : KeyTable :=
  if h : id ∉ keys.rows.map (·.id) ∧ keyHash ∉ keys.rows.map (·.keyHash) then
    {
      rows := { id, keyHash, rateLimitPerMin } :: keys.rows
      primaryKey := List.nodup_cons.mpr ⟨h.left, keys.primaryKey⟩
      uniqueHash := List.nodup_cons.mpr ⟨h.right, keys.uniqueHash⟩
    }
  else
    keys

namespace APIKeyAuth

/-- `verify` puts in the first two, and nothing puts in the others. -/
def cacheTtl (value : Cached) : Int :=
  match value with
  | .valid _ => 300 * 1000
  | .invalid => 60 * 1000
  | .revoked => 3600 * 1000
  | .malformed => 0

structure TimedState where
  now : Int
  keys : KeyTable
  cache : TtlCache String Cached Int := fun _ => none
  -- the `SETEX` commands that can still take effect
  sent : List (String × Cached) := []
  calls : Nat → Option Call := fun _ => none

namespace TimedState

def setCall (s : TimedState) (n : Nat) (call : Call) : TimedState :=
  { s with calls := Function.update s.calls n (some call) }

end TimedState

inductive TimedEvent where
  | start (n : Nat) (apiKey : String)
  | lookup (n : Nat) (available : Bool)
  | query (n : Nat)
  | finish (n : Nat)
  | land (keyToken : String) (value : Cached)
  | lose (keyToken : String) (value : Cached)
  | evict (keyToken : String)
  | createApiKey (keyId : Nat) (rawKey : String) (rateLimitPerMin : Int)
  | revokeApiKey (keyId : Nat)
  | updateApiKey (keyId : Nat) (rateLimitPerMin : Option Int) (isActive : Option Bool)
  | clock (now : Int)
  deriving DecidableEq, Repr

variable (sha256 : String → String)

/--
A command that is sent can take effect at any time after that, as the call does not wait for it if its
reply fails, and more than once, as the client sends it again: until `lose`, which may come first.
-/
def timedNext (s : TimedState) (e : TimedEvent) : Option TimedState :=
  match e with
  | .start n apiKey =>
    match s.calls n with
    | some _ => none
    | none => some (s.setCall n { keyToken := sha256 apiKey, phase := APIKeyAuth.start apiKey })
  | .lookup n available =>
    match s.calls n with
    | some { keyToken, phase := .started } =>
      let cached := if available then s.cache.get s.now keyToken else none
      some (s.setCall n { keyToken, phase := APIKeyAuth.lookup cached })
    | _ => none
  | .query n =>
    match s.calls n with
    | some { keyToken, phase := .missed } =>
      some (s.setCall n { keyToken, phase := APIKeyAuth.query s.keys keyToken })
    | _ => none
  | .finish n =>
    match s.calls n with
    | some { keyToken, phase } =>
      match APIKeyAuth.finish phase with
      | some (value, phase) =>
        some ({ s with sent := (keyToken, value) :: s.sent }.setCall n { keyToken, phase })
      | none => none
    | none => none
  | .land keyToken value =>
    if (keyToken, value) ∈ s.sent then
      some { s with cache := s.cache.setex s.now (cacheTtl value) keyToken value }
    else
      none
  | .lose keyToken value => some { s with sent := s.sent.erase (keyToken, value) }
  | .evict keyToken => some { s with cache := s.cache.evict keyToken }
  | .createApiKey keyId rawKey rateLimitPerMin =>
    some { s with keys := s.keys.create keyId (sha256 rawKey) rateLimitPerMin }
  | .revokeApiKey keyId => some { s with keys := s.keys.update keyId none (some false) }
  | .updateApiKey keyId rateLimitPerMin isActive =>
    some { s with keys := s.keys.update keyId rateLimitPerMin isActive }
  | .clock now => if s.now ≤ now then some { s with now } else none

def TimedStep (s : TimedState) (e : TimedEvent) (t : TimedState) : Prop :=
  timedNext sha256 s e = some t

end APIKeyAuth
end SdaSystem
