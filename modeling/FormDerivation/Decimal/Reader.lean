import FormDerivation.Decimal.Binary
import FormDerivation.Text.Blank

/-!
Reading doubles from decimal text.

`ofText?` reads one number that fills the whole text, correctly rounded.  `scaled?` is the reading
of stored values: the digits are rounded once and then scaled by exact powers of ten.
-/

namespace FormDerivation.Decimal

def infinity : Float := 1.0 / 0.0

def notANumber : Float := 0.0 / 0.0

def ofDigits (digits : List Char) : Nat :=
  digits.foldl (fun n c => 10 * n + (c.toNat - '0'.toNat)) 0

/--
`digits · 10 ^ exponent`, correctly rounded.  Magnitudes beyond the range of doubles are settled
by their size alone.
-/
def ofScientific (digits : Nat) (exponent : Int) : Float :=
  let magnitude : Int := (Nat.toDigits 10 digits).length + exponent
  if digits == 0 || magnitude < -400 then 0.0
  else if magnitude > 400 then infinity
  else if 0 ≤ exponent then Float.ofScientific digits false exponent.toNat
  else Float.ofScientific digits true (-exponent).toNat

def spanDigits (cs : List Char) : List Char × List Char :=
  (cs.takeWhile Text.isDigit, cs.dropWhile Text.isDigit)

def splitSign : List Char → Bool × List Char
  | '-' :: rest => (true, rest)
  | '+' :: rest => (false, rest)
  | cs => (false, cs)

/-- The exponent that fills a text: nothing, or `e`, a sign and digits. -/
def exponentOf? : List Char → Option Int
  | [] => some 0
  | c :: rest =>
    if c == 'e' || c == 'E' then
      let (negative, digits) := splitSign rest
      if digits.isEmpty || !digits.all Text.isDigit then none
      else
        let n : Int := ofDigits digits
        some (if negative then -n else n)
    else none

/-- A number without sign: digits with at most one point, at least one digit, an exponent. -/
def magnitudeOf? (cs : List Char) : Option Float :=
  let (before, rest) := spanDigits cs
  let (after, rest) :=
    match rest with
    | '.' :: rest => spanDigits rest
    | rest => ([], rest)
  if before.isEmpty && after.isEmpty then none
  else (exponentOf? rest).map fun exponent =>
    ofScientific (ofDigits (before ++ after)) (exponent - (after.length : Int))

inductive TextError where
  | empty
  | invalid
  deriving DecidableEq, Repr

def TextError.message : TextError → String
  | .empty => "cannot parse float from empty string"
  | .invalid => "invalid float literal"

/-- The double that fills a text; the names of infinity and not-a-number count in any case. -/
def ofText (s : String) : Except TextError Float :=
  let cs := s.toList
  if cs.isEmpty then .error .empty
  else
    let (negative, rest) := splitSign cs
    let name := String.ofList (rest.map Text.lowerAscii)
    let magnitude :=
      if name == "inf" || name == "infinity" then some infinity
      else if name == "nan" then some notANumber
      else magnitudeOf? rest
    match magnitude with
    | none => .error .invalid
    | some x => .ok (if negative then -x else x)

def ofText? (s : String) : Option Float :=
  (ofText s).toOption

/-- A power of ten up to `10 ^ 308`, correctly rounded. -/
def powerOfTen (n : Nat) : Float :=
  Float.ofScientific 1 false n

/-- Divides by `10 ^ 308` until the exponent is in reach of one power of ten. -/
def scaleDown : Nat → Float → Int → Float
  | 0, _, _ => 0.0
  | steps + 1, x, exponent =>
    if -308 ≤ exponent then x / powerOfTen (-exponent).toNat
    else if x == 0.0 then x
    else scaleDown steps (x / powerOfTen 308) (exponent + 308)

/-- The digits, rounded, times a power of ten; nothing where that overflows. -/
def scaled? (digits : Nat) (exponent : Int) : Option Float :=
  let x := Float.ofNat digits
  if exponent < 0 then some (scaleDown 8 x exponent)
  else if 308 < exponent then if x == 0.0 then some x else none
  else
    let y := x * powerOfTen exponent.toNat
    if isFinite y then some y else none

end FormDerivation.Decimal
