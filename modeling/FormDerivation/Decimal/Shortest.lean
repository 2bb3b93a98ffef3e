import FormDerivation.Decimal.Binary

/-!
The shortest decimal that reads back as a given double.

A positive double `v = m · 2 ^ q` owns the interval of reals that round to it; the ends belong to
it iff `m` is even.  For 1, 2, …, 17 digits the two neighbours of `v` on the grid of that many
digits are tested, in exact natural-number arithmetic; the first grid with a hit gives the digits.
-/

namespace FormDerivation.Decimal

/-- The decimal `digits · 10 ^ exponent`. -/
structure Digits where
  digits : Nat
  exponent : Int
  deriving DecidableEq, Repr

structure Rounding where
  low : Nat
  value : Nat
  high : Nat
  denominator : Nat
  closed : Bool
  deriving DecidableEq, Repr

namespace Rounding

/-- The interval of `mantissa · 2 ^ exponent`.  Below a power of two the neighbours are closer. -/
def of (p : Parts) : Rounding :=
  let scale := Nat.pow 2 p.exponent.toNat
  let step := if p.mantissa == Nat.pow 2 52 && p.exponent != -1074 then 1 else 2
  { low := (4 * p.mantissa - step) * scale
    value := 4 * p.mantissa * scale
    high := (4 * p.mantissa + 2) * scale
    denominator := 4 * Nat.pow 2 (-p.exponent).toNat
    closed := p.mantissa % 2 == 0 }

def contains (r : Rounding) (d : Digits) : Bool :=
  let scaled := d.digits * Nat.pow 10 d.exponent.toNat * r.denominator
  let unit := Nat.pow 10 (-d.exponent).toNat
  if r.closed then r.low * unit ≤ scaled && scaled ≤ r.high * unit
  else r.low * unit < scaled && scaled < r.high * unit

/-- The number `e` with `10 ^ (e - 1) ≤ value < 10 ^ e`. -/
def magnitude (r : Rounding) : Int :=
  if r.denominator ≤ r.value then
    (Nat.toDigits 10 (r.value / r.denominator)).length
  else
    let length : Int := (Nat.toDigits 10 (r.denominator / r.value)).length
    if r.value * Nat.pow 10 (length - 1).toNat == r.denominator then 2 - length else 1 - length

/-- The neighbour below the value on the grid of multiples of `10 ^ exponent`. -/
def gridBelow (r : Rounding) (exponent : Int) : Nat :=
  r.value * Nat.pow 10 (-exponent).toNat / (r.denominator * Nat.pow 10 exponent.toNat)

/-- Whether the value lies nearer to the lower neighbour, or midway with the lower one even. -/
def prefersBelow (r : Rounding) (below : Digits) : Bool :=
  let twice := 2 * r.value * Nat.pow 10 (-below.exponent).toNat
  let midway := (2 * below.digits + 1) * Nat.pow 10 below.exponent.toNat * r.denominator
  twice < midway || (twice == midway && below.digits % 2 == 0)

/-- The decimal of at most `count` digits that rounds to the value, if there is one. -/
def withDigits (r : Rounding) (count : Nat) : Option Digits :=
  let exponent := r.magnitude - count
  let below : Digits := ⟨r.gridBelow exponent, exponent⟩
  let above : Digits := ⟨below.digits + 1, exponent⟩
  match r.contains below, r.contains above with
  | true, true => some (if r.prefersBelow below then below else above)
  | true, false => some below
  | false, true => some above
  | false, false => none

end Rounding

/-- Moves trailing zeros of the digits into the exponent; `limit` bounds their number. -/
def Digits.stripZeros : Nat → Digits → Digits
  | 0, d => d
  | limit + 1, d =>
    if d.digits != 0 && d.digits % 10 == 0 then
      Digits.stripZeros limit ⟨d.digits / 10, d.exponent + 1⟩
    else d

def shortest (x : Float) : Digits :=
  let p := Parts.of x
  if p.mantissa == 0 then ⟨0, 0⟩
  else
    let r := Rounding.of p
    let found := (List.range 17).findSome? fun n => r.withDigits (n + 1)
    (found.getD ⟨p.whole, 0⟩).stripZeros 20

end FormDerivation.Decimal
