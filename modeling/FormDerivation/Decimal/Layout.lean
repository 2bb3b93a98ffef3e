import FormDerivation.Decimal.Shortest

/-!
Written forms of a double: its shortest digits, laid out positionally or with an exponent.

A `Layout` says which magnitudes are written positionally and how the exponent looks.  `json` is
the form of stored values; `script` is the form in which scripts turn numbers into text.
-/

namespace FormDerivation.Decimal

structure Layout where
  /-- Numbers below `10 ^ most` are written positionally. -/
  most : Int
  /-- Numbers of at least `10 ^ (least - 1)` are written positionally. -/
  least : Int
  /-- A positional whole number ends in `.0`. -/
  keepsFraction : Bool
  /-- A positive exponent carries a plus sign. -/
  plusSign : Bool
  deriving DecidableEq, Repr

namespace Layout

/-- Stored values: positional below `10 ^ 16` and from `10 ^ -5` on, whole numbers with `.0`. -/
def json : Layout := ⟨16, -4, true, true⟩

def positional : Layout := ⟨400, -400, false, false⟩

def scientific : Layout := ⟨-1000, 1000, false, false⟩

def nested : Layout := ⟨16, -3, true, false⟩

end Layout

def zeros (n : Nat) : String :=
  String.ofList (List.replicate n '0')

/-- The digits of `d`, with a decimal point after the first `point` of them. -/
def positionalText (digits : List Char) (point : Int) (keepsFraction : Bool) : String :=
  let count : Int := digits.length
  if point ≤ 0 then "0." ++ zeros (-point).toNat ++ String.ofList digits
  else if count ≤ point then
    String.ofList digits ++ zeros (point - count).toNat ++ (if keepsFraction then ".0" else "")
  else
    String.ofList (digits.take point.toNat) ++ "." ++ String.ofList (digits.drop point.toNat)

def scientificText (digits : List Char) (exponent : Int) (plusSign : Bool) : String :=
  let mantissa :=
    match digits with
    | [] => "0"
    | first :: rest => String.ofList (if rest.isEmpty then [first] else first :: '.' :: rest)
  let sign := if exponent < 0 then "-" else if plusSign then "+" else ""
  mantissa ++ "e" ++ sign ++ Nat.repr exponent.natAbs

def Layout.write (layout : Layout) (x : Float) : String :=
  let d := shortest x
  let digits := Nat.toDigits 10 d.digits
  let point : Int := if d.digits == 0 then 1 else digits.length + d.exponent
  let sign := if (Parts.of x).negative then "-" else ""
  if d.digits == 0 && layout.most < 1 then sign ++ "0e0"
  else if d.digits == 0 then sign ++ (if layout.keepsFraction then "0.0" else "0")
  else if layout.least ≤ point && point ≤ layout.most then
    sign ++ positionalText digits point layout.keepsFraction
  else sign ++ scientificText digits (point - 1) layout.plusSign

def Layout.writeNamed (layout : Layout) (x : Float) : String :=
  if isFinite x then layout.write x
  else if x.isNaN then "NaN"
  else if (Parts.of x).negative then "-inf" else "inf"

/-- The text of a number in a script: positional from `10 ^ -13` to `10 ^ 13`, zero without sign. -/
def scriptText (x : Float) : String :=
  let size := x.abs
  if size == 0.0 then "0.0"
  else if !isFinite x then Layout.positional.writeNamed x
  else if size > 10000000000000.0 || size < 0.0000000000001 then Layout.scientific.write x
  else { Layout.positional with keepsFraction := true }.write x

end FormDerivation.Decimal
