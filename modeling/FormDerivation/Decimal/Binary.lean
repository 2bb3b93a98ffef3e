/-!
Doubles as binary fractions.

A finite double is `± mantissa · 2 ^ exponent`; `Parts.of` reads the three numbers off its bits.
Rounding to whole numbers is arithmetic on them, so it does not depend on opaque operations.
-/

namespace FormDerivation.Decimal

/-- A finite double, as `± mantissa · 2 ^ exponent`. -/
structure Parts where
  negative : Bool
  mantissa : Nat
  exponent : Int
  deriving DecidableEq, Repr

namespace Parts

/-- The parts of a finite double; the hidden leading bit is made explicit. -/
def of (x : Float) : Parts :=
  let bits := x.toBits.toNat
  let fraction : Nat := bits % Nat.pow 2 52
  let field : Nat := bits / Nat.pow 2 52 % Nat.pow 2 11
  { negative := bits / Nat.pow 2 63 == 1
    mantissa := if field == 0 then fraction else fraction + Nat.pow 2 52
    exponent := if field == 0 then -1074 else (field : Int) - 1075 }

def whole (p : Parts) : Nat :=
  if 0 ≤ p.exponent then p.mantissa * Nat.pow 2 p.exponent.toNat
  else p.mantissa / Nat.pow 2 (-p.exponent).toNat

/-- What the whole part leaves over, in units of `2 ^ exponent`. -/
def leftover (p : Parts) : Nat :=
  if 0 ≤ p.exponent then 0 else p.mantissa % Nat.pow 2 (-p.exponent).toNat

def isWhole (p : Parts) : Bool :=
  p.leftover == 0

def atLeastHalf (p : Parts) : Bool :=
  !p.isWhole && Nat.pow 2 (-p.exponent).toNat ≤ 2 * p.leftover

end Parts

def isFinite (x : Float) : Bool :=
  x.toBits.toNat / Nat.pow 2 52 % Nat.pow 2 11 != 2047

def isWhole (x : Float) : Bool :=
  isFinite x && (Parts.of x).isWhole

/-- A whole number of a given sign; zero keeps its sign. -/
def signedWhole (negative : Bool) (n : Nat) : Float :=
  if negative then -(Float.ofNat n) else Float.ofNat n

/-- Applies a rounding of the absolute value; infinities and not-a-number stay as they are. -/
def roundWith (magnitude : Parts → Nat) (x : Float) : Float :=
  if isWhole x || !isFinite x then x
  else signedWhole (Parts.of x).negative (magnitude (Parts.of x))

/-- The nearest whole number; one half goes away from zero. -/
def roundHalfAway : Float → Float :=
  roundWith fun p => if p.atLeastHalf then p.whole + 1 else p.whole

def truncate : Float → Float :=
  roundWith Parts.whole

def floor : Float → Float :=
  roundWith fun p => if p.negative then p.whole + 1 else p.whole

def ceiling : Float → Float :=
  roundWith fun p => if p.negative then p.whole else p.whole + 1

def toInt (x : Float) : Int :=
  let p := Parts.of x
  if p.negative then -(p.whole : Int) else p.whole

/--
What a division with a whole quotient, rounded toward zero, leaves over; it has the sign of the
dividend.
-/
def remainder (x y : Float) : Float :=
  if !isFinite x || y.isNaN || y == 0.0 then 0.0 / 0.0
  else if !isFinite y || x.abs < y.abs then x
  else
    let a := Parts.of x
    let b := Parts.of y
    let unit := min a.exponent b.exponent
    let rest := a.mantissa * Nat.pow 2 (a.exponent - unit).toNat %
      (b.mantissa * Nat.pow 2 (b.exponent - unit).toNat)
    (signedWhole a.negative rest).scaleB unit

def minInt64 : Int := -(Int.pow 2 63)

def maxInt64 : Int := Int.pow 2 63 - 1

def maxNat64 : Nat := Nat.pow 2 64 - 1

def fitsInt64 (n : Int) : Bool :=
  minInt64 ≤ n && n ≤ maxInt64

def wrapInt64 (n : Int) : Int :=
  Int.bmod n (Nat.pow 2 64)

/-- The integer itself, unless it lies outside the signed 64-bit range. -/
def checkedInt64 (n : Int) : Option Int :=
  if fitsInt64 n then some n else none

end FormDerivation.Decimal
