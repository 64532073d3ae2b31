import Mathlib.Algebra.Ring.Nat
import SdaSystem.Ingestion.Impl.Fetcher

/-!
This module contains the part of the TLE fetcher that downloads a feed: the attempts at one URL, and the
URLs one after the other. What the network does at an attempt is an argument.
-/

namespace SdaSystem
namespace TLEFetcher

def httpMaxRetries : Nat := 3

def transientStatuses : List Nat := [429, 500, 502, 503, 504]

/-- `aiohttp.ClientError` or `asyncio.TimeoutError` -/
inductive NetworkError where
  | client
  | timeout
  deriving DecidableEq, Repr

inductive ReadError where
  | network (error : NetworkError)
  | unicodeDecode
  deriving DecidableEq, Repr

structure Response where
  status : Nat
  contentType : Option (List Char)
  /-- `await resp.text(encoding="utf-8")` -/
  utf8Text : Except ReadError (List Char)
  /-- `await resp.text()`, in the encoding that the response declares -/
  text : Except ReadError (List Char)

/-- What `http.get` raises or gives. -/
abbrev HttpOutcome := Except NetworkError Response

inductive Outcome where
  | retry (wait : Nat)
  | stop (result : Except ReadError (Option (List Char)))
  deriving DecidableEq

def isHtml (contentType : Option (List Char)) : Bool :=
  ['h', 't', 'm', 'l'] <:+: contentType.getD []

def onNetworkError (attempt : Nat) : Outcome :=
  if attempt < httpMaxRetries then .retry (2 ^ attempt) else .stop (.ok none)

/-- The `except` clause does not know the errors of decoding. -/
def onReadError (attempt : Nat) (error : ReadError) : Outcome :=
  match error with
  | .network _ => onNetworkError attempt
  | .unicodeDecode => .stop (.error .unicodeDecode)

def handle (attempt : Nat) (outcome : HttpOutcome) : Outcome :=
  match outcome with
  | .error _ => onNetworkError attempt
  | .ok resp =>
    if resp.status = 200 then
      if isHtml resp.contentType then
        match resp.text with
        | .error error => onReadError attempt error
        | .ok _ => .stop (.ok none)
      else
        match resp.utf8Text with
        | .error error => onReadError attempt error
        | .ok text => if text = [] ∨ strip text = [] then .stop (.ok none) else .stop (.ok (some text))
    else
      match resp.text with
      | .error error => onReadError attempt error
      | .ok _ =>
        if resp.status ∈ transientStatuses ∧ attempt < httpMaxRetries then
          .retry (2 ^ attempt)
        else
          .stop (.ok none)

structure Fetch where
  result : Except ReadError (Option (List Char))
  attempts : Nat := 0
  waits : List Nat := []
  deriving DecidableEq

/-- The last `left` rounds of the loop, from the attempt with the number `attempt` on. -/
def fetchLoop (outcomes : Nat → HttpOutcome) (attempt left : Nat) : Fetch :=
  match left with
  | 0 => { result := .ok none }
  | left + 1 =>
    match handle attempt (outcomes attempt) with
    | .retry wait =>
      let rest := fetchLoop outcomes (attempt + 1) left
      { rest with attempts := rest.attempts + 1, waits := wait :: rest.waits }
    | .stop result => { result, attempts := 1 }

def fetchUrl (outcomes : Nat → HttpOutcome) : Fetch :=
  fetchLoop outcomes 1 httpMaxRetries

/-- What `fetch_all` raises; it does not catch what `_parse_and_store` raises. -/
inductive FetchError where
  | runtimeError (message : String)
  | unicodeDecodeError
  | ingestion
  deriving DecidableEq, Repr

/-- The configured URLs, each by the outcomes of its attempts. -/
structure Sources where
  celestrakUrl : Nat → HttpOutcome
  tleFallbackUrls : List (Nat → HttpOutcome)

def Sources.urls (sources : Sources) : List (Nat → HttpOutcome) :=
  sources.celestrakUrl :: sources.tleFallbackUrls

def firstText (tried : Nat) (urls : List (Nat → HttpOutcome)) : Except FetchError (List Char) :=
  match urls with
  | [] =>
    .error (.runtimeError ("All TLE sources failed (" ++ toString tried ++ " tried). "
      ++ "Check CELESTRAK_URL and TLE_FALLBACK_URLS."))
  | url :: urls =>
    match (fetchUrl url).result with
    | .error _ => .error .unicodeDecodeError
    | .ok (some text) => .ok text
    | .ok none => firstText tried urls

/-- The counts of the first text that is found, with the table that is left; or what is raised. -/
def fetchAll (refused : TLE → Bool) (validator : TLEValidator) (db : List TLE) (sources : Sources)
    : Except FetchError Counts × List TLE :=
  match firstText sources.urls.length sources.urls with
  | .error error => (.error error, db)
  | .ok text =>
    match parseAndStore refused validator db text with
    | .ok (db', counts) => (.ok counts, db')
    | .error db' => (.error .ingestion, db')

end TLEFetcher
end SdaSystem
