import SdaSystem.Library.Rounding

/-!
How Python reads numbers from a text, which is a list of code points here: the digits that Unicode
has, `int`, and `float` with its rounding. `none` is a `ValueError`.
-/

namespace PyNumber

/-- The zeros of the decimal digits; the other nine follow each of them. -/
def zeros : List Nat := [
  0x30, 0x660, 0x6F0, 0x7C0, 0x966, 0x9E6, 0xA66, 0xAE6, 0xB66, 0xBE6, 0xC66, 0xCE6, 0xD66, 0xDE6,
  0xE50, 0xED0, 0xF20, 0x1040, 0x1090, 0x17E0, 0x1810, 0x1946, 0x19D0, 0x1A80, 0x1A90, 0x1B50,
  0x1BB0, 0x1C40, 0x1C50, 0xA620, 0xA8D0, 0xA900, 0xA9D0, 0xA9F0, 0xAA50, 0xABF0, 0xFF10, 0x104A0,
  0x10D30, 0x11066, 0x110F0, 0x11136, 0x111D0, 0x112F0, 0x11450, 0x114D0, 0x11650, 0x116C0,
  0x11730, 0x118E0, 0x11950, 0x11C50, 0x11D50, 0x11DA0, 0x16A60, 0x16AC0, 0x16B50, 0x1D7CE,
  0x1D7D8, 0x1D7E2, 0x1D7EC, 0x1D7F6, 0x1E140, 0x1E2F0, 0x1E950, 0x1FBF0
]

def decimal (c : Char) : Option Nat :=
  (zeros.find? fun z => z ≤ c.toNat ∧ c.toNat < z + 10).map fun z => c.toNat - z

def isdecimal (c : Char) : Bool :=
  (decimal c).isSome

/-- The first and the last one of the digits that are not decimal, such as superscripts. -/
def otherDigits : List (Nat × Nat) := [
  (0xB2, 0xB3), (0xB9, 0xB9), (0x1369, 0x1371), (0x19DA, 0x19DA), (0x2070, 0x2070),
  (0x2074, 0x2079), (0x2080, 0x2089), (0x2460, 0x2468), (0x2474, 0x247C), (0x2488, 0x2490),
  (0x24EA, 0x24EA), (0x24F5, 0x24FD), (0x24FF, 0x24FF), (0x2776, 0x277E), (0x2780, 0x2788),
  (0x278A, 0x2792), (0x10A40, 0x10A43), (0x10E60, 0x10E68), (0x11052, 0x1105A), (0x1F100, 0x1F10A)
]

/-- A digit that has no decimal value, so neither `int` nor `float` takes it. -/
def isOtherDigit (c : Char) : Bool :=
  otherDigits.any fun r => r.1 ≤ c.toNat ∧ c.toNat ≤ r.2

def isdigit (c : Char) : Bool :=
  isdecimal c || isOtherDigit c

/-- `str.isdigit` -/
def isdigitText (s : List Char) : Bool :=
  s ≠ [] ∧ s.all isdigit

def isAsciiSpace (c : Char) : Bool :=
  (0x09 ≤ c.toNat ∧ c.toNat ≤ 0x0D) ∨ c.toNat = 0x20

def trimBy (p : Char → Bool) (s : List Char) : List Char :=
  ((s.dropWhile p).reverse.dropWhile p).reverse

def trim (s : List Char) : List Char :=
  trimBy isAsciiSpace s

/-- Underscores go, each of which stands between two digits; `prev` is the character before. -/
def dropUnderscores (prev : Char) (s : List Char) : Option (List Char) :=
  match s with
  | [] => if prev = '_' then none else some []
  | c :: s =>
    if c = '_' then
      if prev.isDigit then dropUnderscores c s else none
    else if prev = '_' ∧ ¬ c.isDigit then
      none
    else
      (dropUnderscores c s).map (c :: ·)

def ofDigits (s : List Char) : Nat :=
  s.foldl (fun n c => 10 * n + (c.toNat - '0'.toNat)) 0

def digits (s : List Char) : Option Nat :=
  if s ≠ [] ∧ s.all Char.isDigit then some (ofDigits s) else none

def signedDigits (s : List Char) : Option Int :=
  match s with
  | '-' :: s => (digits s).map fun n : Nat => -(n : Int)
  | '+' :: s => (digits s).map fun n : Nat => (n : Int)
  | s => (digits s).map fun n : Nat => (n : Int)

inductive Float where
  | nan
  | inf (negative : Bool)
  | finite (x : Rat)
  deriving DecidableEq, Repr

namespace Float

def ofRat (x : Rat) : Float :=
  let x := Rounding.nearest Rounding.binary64 x
  if 2 ^ 1024 ≤ x then
    .inf false
  else if x ≤ -2 ^ 1024 then
    .inf true
  else
    .finite x

def neg (x : Float) : Float :=
  match x with
  | .nan => .nan
  | .inf negative => .inf (¬ negative)
  | .finite x => .finite (-x)

def lt (x : Float) (bound : Rat) : Bool :=
  match x with
  | .nan => false
  | .inf negative => negative
  | .finite x => x < bound

def le (x : Float) (bound : Rat) : Bool :=
  match x with
  | .nan => false
  | .inf negative => negative
  | .finite x => x ≤ bound

def gt (x : Float) (bound : Rat) : Bool :=
  match x with
  | .nan => false
  | .inf negative => ¬ negative
  | .finite x => bound < x

def ge (x : Float) (bound : Rat) : Bool :=
  match x with
  | .nan => false
  | .inf negative => ¬ negative
  | .finite x => bound ≤ x

end Float

def scale (n : Nat) (e : Int) : Rat :=
  if 0 ≤ e then mkRat (n * 10 ^ e.toNat) 1 else mkRat n (10 ^ (-e).toNat)

def exponent (s : List Char) : Option Int :=
  match s with
  | [] => some 0
  | c :: s => if c = 'e' ∨ c = 'E' then signedDigits s else none

/-- The digits after a point, and what is left. -/
def fraction (s : List Char) : List Char × List Char :=
  match s with
  | '.' :: s => (s.takeWhile Char.isDigit, s.dropWhile Char.isDigit)
  | s => ([], s)

/-- Digits with a point between them or beside them, and an exponent. -/
def decimalLiteral (s : List Char) : Option Rat :=
  let whole := s.takeWhile Char.isDigit
  let (frac, rest) := fraction (s.dropWhile Char.isDigit)
  if whole = [] ∧ frac = [] then
    none
  else
    (exponent rest).map fun e => scale (ofDigits (whole ++ frac)) (e - frac.length)

def unsigned (s : List Char) : Option Float :=
  match decimalLiteral s with
  | some x => some (.ofRat x)
  | none =>
    let word := s.map Char.toLower
    if word = ['i', 'n', 'f'] ∨ word = ['i', 'n', 'f', 'i', 'n', 'i', 't', 'y'] then
      some (.inf false)
    else if word = ['n', 'a', 'n'] then
      some .nan
    else
      none

def signed (s : List Char) : Option Float :=
  match s with
  | '-' :: s => (unsigned s).map Float.neg
  | '+' :: s => unsigned s
  | s => unsigned s

section

-- The characters that count as blank, `str.isspace`.
variable (isSpace : Char → Bool)

/-- The ASCII character that is read instead of `c`; `?` is for those that no number has. -/
def toAscii (c : Char) : Char :=
  if c.toNat < 127 then
    c
  else if isSpace c then
    ' '
  else
    match decimal c with
    | some d => Char.ofNat ('0'.toNat + d)
    | none => '?'

def int (s : List Char) : Option Int :=
  match trim (s.map (toAscii isSpace)) with
  | '-' :: s => ((dropUnderscores ' ' s).bind digits).map fun n : Nat => -(n : Int)
  | '+' :: s => ((dropUnderscores ' ' s).bind digits).map fun n : Nat => (n : Int)
  | s => ((dropUnderscores ' ' s).bind digits).map fun n : Nat => (n : Int)

def float (s : List Char) : Option Float :=
  (dropUnderscores ' ' (trim (s.map (toAscii isSpace)))).bind signed

end

end PyNumber
