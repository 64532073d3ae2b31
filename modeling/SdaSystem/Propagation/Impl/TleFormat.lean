import SdaSystem.Ingestion.Impl.Validator

/-!
The check that the SGP4 engine makes of two lines before it hands them to the propagator.
-/

open PyNumber

namespace SdaSystem
namespace SGP4Engine

open TLEFetcher (isSpace strip)
open Validator (columns)

inductive FormatError where
  | length (line got : Nat)
  | start (line : Nat) (got : Char)
  | noradId (field1 field2 : List Char)
  | epoch (field : List Char)
  deriving DecidableEq

def validateTleFormat (line1 line2 : List Char) : Option FormatError :=
  let l1 := strip line1
  let l2 := strip line2
  if l1.length ≠ 69 then
    some (.length 1 l1.length)
  else if l2.length ≠ 69 then
    some (.length 2 l2.length)
  else if l1.getD 0 ' ' ≠ '1' then
    some (.start 1 (l1.getD 0 ' '))
  else if l2.getD 0 ' ' ≠ '2' then
    some (.start 2 (l2.getD 0 ' '))
  else if columns 2 7 l1 ≠ columns 2 7 l2 then
    some (.noradId (columns 2 7 l1) (columns 2 7 l2))
  else
    let epochField := strip (columns 18 32 l1)
    if float isSpace epochField = none then
      some (.epoch epochField)
    else
      none

end SGP4Engine
end SdaSystem
