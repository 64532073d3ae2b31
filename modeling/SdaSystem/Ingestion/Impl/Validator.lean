import SdaSystem.Ingestion.Impl.Fetcher
import SdaSystem.Library.PyNumber

/-!
This module contains the TLE validator and the column parsers beside it. `none` is an exception that
escapes; of what is caught, only that it is caught is kept, and of an error its kind and its values.
-/

open PyNumber

namespace SdaSystem
namespace Validator

open TLEFetcher (isSpace strip)

def tleLineLength : Nat := 69

def epochYearCutoff : Int := 57

def columns (i j : Nat) (line : List Char) : List Char :=
  (line.take j).drop i

def rstripCr (line : List Char) : List Char :=
  (line.reverse.dropWhile (· = '\r')).reverse

inductive Element where
  | inclination
  | raan
  | eccentricity
  | argPerigee
  | meanAnomaly
  | meanMotion
  deriving DecidableEq

inductive LineError where
  | empty
  | length (got : Nat)
  | lineNumber (got : Char)
  | column2
  | satelliteNumber (field : List Char)
  | epochYear (field : List Char)
  | epochDay (field : List Char)
  | epochDayRange (day : PyNumber.Float)
  | unparsable (element : Element) (field : List Char)
  | outside (element : Element) (value : PyNumber.Float)
  | checksumDigit (got : Char)
  | checksumMismatch (computed expected : Int)
  deriving DecidableEq

inductive PairError where
  | line1 (name : List Char) (err : LineError)
  | line2 (name : List Char) (err : LineError)
  | mismatch (name : List Char) (id1 id2 : Option Int)
  deriving DecidableEq

/-- Checks in the order in which they are made; the first one that fails or raises decides. -/
def firstError (checks : List (Option (Option LineError))) : Option (Option LineError) :=
  match checks with
  | [] => some none
  | none :: _ => none
  | some (some err) :: _ => some (some err)
  | some none :: checks => firstError checks

def reject (failed : Bool) (err : LineError) : Option (Option LineError) :=
  some (if failed then some err else none)

def charValue (c : Char) : Option Int :=
  if isdigit c then int isSpace [c] else if c = '-' then some 1 else some 0

def tleLineChecksum (line : List Char) : Option Int :=
  ((line.take 68).foldlM (fun total c => (charValue c).map (total + ·)) (0 : Int)).map (· % 10)

def checkChecksum (line : List Char) : Option (Option LineError) := do
  let computed ← tleLineChecksum line
  let checksumChar := line.getD 68 ' '
  if ¬ isdigit checksumChar then
    return some (.checksumDigit checksumChar)
  else
    let expected ← int isSpace [checksumChar]
    return if computed ≠ expected then some (.checksumMismatch computed expected) else none

def checkElement (element : Element) (inRange : PyNumber.Float → Bool) (field : List Char)
    : Option (Option LineError) :=
  match float isSpace field with
  | none => some (some (.unparsable element field))
  | some value => reject (¬ inRange value) (.outside element value)

def checkEpochDay (field : List Char) : Option (Option LineError) :=
  match float isSpace field with
  | none => some (some (.epochDay field))
  | some day => reject (¬ (day.ge 1 ∧ day.lt 367)) (.epochDayRange day)

/-- Here `float` is called outside of `try`. -/
def checkEccentricity (eccRaw : List Char) : Option (Option LineError) :=
  if ¬ isdigitText eccRaw then
    some (some (.unparsable .eccentricity eccRaw))
  else do
    let value ← float isSpace ('0' :: '.' :: eccRaw)
    reject (¬ (value.ge 0 ∧ value.lt 1)) (.outside .eccentricity value)

section

-- `str.isupper` of a single character.
variable (isupper : Char → Bool)

def parseSatelliteNumber (field : List Char) : Option (Option Int) :=
  let s := strip field
  if s = [] then
    some none
  else if isdigitText s then do
    let val ← int isSpace s
    return if 0 < val then some val else none
  else if s.length = 5 ∧ isupper (s.getD 0 ' ') ∧ isdigitText (s.drop 1) then do
    let letterVal : Int := (s.getD 0 ' ').toNat - 'A'.toNat + 10
    let rest ← int isSpace (s.drop 1)
    return some (letterVal * 10000 + rest)
  else
    some none

def checkSatelliteNumber (field : List Char) : Option (Option LineError) :=
  (parseSatelliteNumber isupper field).map fun val =>
    if val = none then some (.satelliteNumber field) else none

def validateLine1 (line1 : List Char) : Option (Option LineError) :=
  let line := rstripCr line1
  let epochYearStr := columns 18 20 line
  let epochDayStr := strip (columns 20 32 line)
  firstError [
    reject (line1 = []) .empty,
    reject (line.length ≠ tleLineLength) (.length line.length),
    reject (line.getD 0 ' ' ≠ '1') (.lineNumber (line.getD 0 ' ')),
    reject (line.getD 1 ' ' ≠ ' ') .column2,
    checkSatelliteNumber isupper (columns 2 7 line),
    reject (¬ isdigitText epochYearStr) (.epochYear epochYearStr),
    checkEpochDay epochDayStr,
    checkChecksum line
  ]

def validateLine2 (line2 : List Char) : Option (Option LineError) :=
  let line := rstripCr line2
  firstError [
    reject (line2 = []) .empty,
    reject (line.length ≠ tleLineLength) (.length line.length),
    reject (line.getD 0 ' ' ≠ '2') (.lineNumber (line.getD 0 ' ')),
    reject (line.getD 1 ' ' ≠ ' ') .column2,
    checkSatelliteNumber isupper (columns 2 7 line),
    checkElement .inclination (fun x => x.ge 0 ∧ x.le 180) (columns 8 16 line),
    checkElement .raan (fun x => x.ge 0 ∧ x.lt 360) (columns 17 25 line),
    checkEccentricity (columns 26 33 line),
    checkElement .argPerigee (fun x => x.ge 0 ∧ x.lt 360) (columns 34 42 line),
    checkElement .meanAnomaly (fun x => x.ge 0 ∧ x.lt 360) (columns 43 51 line),
    checkElement .meanMotion (fun x => x.gt 0 ∧ x.lt 20) (columns 52 63 line),
    checkChecksum line
  ]

def validatePair (name line1 line2 : List Char) : Option (Option PairError) := do
  match ← validateLine1 isupper line1 with
  | some err => return some (.line1 name err)
  | none =>
    match ← validateLine2 isupper line2 with
    | some err => return some (.line2 name err)
    | none =>
      let id1 ← parseSatelliteNumber isupper (columns 2 7 line1)
      let id2 ← parseSatelliteNumber isupper (columns 2 7 line2)
      return if id1 ≠ id2 then some (.mismatch name id1 id2) else none

def extractNoradId (line1 : List Char) : Option (Option Int) :=
  if line1.length < 7 then some none else parseSatelliteNumber isupper (columns 2 7 line1)

end

def newYear (year : Int) : Int :=
  365 * (year - 1970) + (year - 1) / 4 - (year - 1) / 100 + (year - 1) / 400 - 477

def usPerDay : Int := 86400000000

/--
`timedelta(days=days)` in microseconds: whole days are multiplied exactly, the rest is multiplied as
a float and then rounded.
-/
def timedeltaDays (days : Rat) : Int :=
  let leftover := Rounding.nearest Rounding.binary64 (Int.fract days * 86400000000)
  ⌊days⌋ * usPerDay + Rounding.halfEven leftover

/-- `none` is the `None` that the function returns, also for the exceptions that it catches. -/
def extractEpoch (line1 : List Char) : Option Int :=
  if line1.length < 32 then
    none
  else do
    let year2d ← int isSpace (columns 18 20 line1)
    let year := if year2d ≥ epochYearCutoff then 1900 + year2d else 2000 + year2d
    let dayOfYear ← float isSpace (strip (columns 20 32 line1))
    match dayOfYear with
    | .finite day =>
      if ¬ (1 ≤ day ∧ day < 367) then
        none
      else
        some (newYear year * usPerDay
          + timedeltaDays (Rounding.nearest Rounding.binary64 (day - 1)))
    | _ => none

structure Line2Elements where
  inclinationDeg : PyNumber.Float
  raanDeg : PyNumber.Float
  eccentricity : PyNumber.Float
  argPerigeeDeg : PyNumber.Float
  meanAnomalyDeg : PyNumber.Float
  meanMotionRevPerDay : PyNumber.Float
  revAtEpoch : PyNumber.Float

def parseLine2Elements (line2 : List Char) : Option Line2Elements :=
  if line2.length ≠ tleLineLength then
    none
  else do
    let inclinationDeg ← float isSpace (columns 8 16 line2)
    let raanDeg ← float isSpace (columns 17 25 line2)
    let eccentricity ← float isSpace ('0' :: '.' :: columns 26 33 line2)
    let argPerigeeDeg ← float isSpace (columns 34 42 line2)
    let meanAnomalyDeg ← float isSpace (columns 43 51 line2)
    let meanMotionRevPerDay ← float isSpace (columns 52 63 line2)
    let revAtEpoch ← float isSpace (columns 63 68 line2)
    return {
      inclinationDeg, raanDeg, eccentricity, argPerigeeDeg, meanAnomalyDeg, meanMotionRevPerDay,
      revAtEpoch
    }

-- The hexadecimal SHA-256 digest of the UTF-8 bytes of a text.
variable (sha256 : List Char → List Char)

def computePairHash (line1 line2 : List Char) : List Char :=
  sha256 (strip line1 ++ '\n' :: strip line2)

def methods (isupper : Char → Bool) : TLEValidator where
  validatePair name line1 line2 := (validatePair isupper name line1 line2).map (·.isNone)
  extractNoradId := extractNoradId isupper
  extractEpoch line1 := some (extractEpoch line1)
  computePairHash line1 line2 := some (computePairHash sha256 line1 line2)

end Validator
end SdaSystem
