import SdaSystem.Library.Gregorian
import Mathlib.Data.Rat.Floor
import Mathlib.Tactic.Linarith
import Mathlib.Tactic.Ring

/-!
This module contains the conversion of UTC components to a Julian date in two parts, and the Julian
date that it is meant to compute.
-/

namespace SdaSystem

open Gregorian

namespace SGP4Engine

/-- The components of a time of day; `second` has the microseconds in it. -/
structure TimeOfDay where
  hour : Nat
  minute : Nat
  second : Rat
  hourLt : hour < 24
  minuteLt : minute < 60
  secondNonneg : 0 ≤ second
  secondLt : second < 60

def TimeOfDay.fraction (t : TimeOfDay) : Rat :=
  t.hour / 24 + t.minute / 1440 + t.second / 86400

/-- Integer day number; `/` rounds down. -/
def jdInt (year month day : Int) : Int :=
  367 * year - 7 * (year + (month + 9) / 12) / 4 + 275 * month / 9 + day + 1721013

/--
The fraction of the day from the noon before. `fl` is what becomes of the result of an operation: the
number itself in exact arithmetic, the nearest double in the arithmetic of the machine.
-/
def dayFrac (fl : Rat → Rat) (t : TimeOfDay) : Rat :=
  fl (fl (fl (fl (t.hour / 24) + fl (t.minute / 1440)) + fl (t.second / 86400)) + 1 / 2)

/--
What `_jd_from_components` returns for one row of its arrays. The whole numbers and the difference are
exact in doubles too, so they are not rounded.
-/
def jdFromComponents (fl : Rat → Rat) (d : Date) (t : TimeOfDay) : Rat × Rat :=
  let floorFrac := ⌊dayFrac fl t⌋
  let jdWhole := (jdInt d.year d.month d.day : Rat) + (floorFrac : Rat)
  let jdFrac := dayFrac fl t - floorFrac
  (jdWhole, jdFrac)

/-- The Julian date counts days from a noon; midnight before 1 January of the year 1 is 1721425.5. -/
def julianDate (d : Date) (t : TimeOfDay) : Rat :=
  d.ordinal + 3442849 / 2 + t.fraction

-- the epoch J2000
example
    : julianDate ⟨2000, 1, 1, by decide, by decide, by decide, by decide, by decide⟩
        ⟨12, 0, 0, by decide, by decide, by decide, by decide⟩ = 2451545 := by
  decide +kernel

end SGP4Engine

end SdaSystem
