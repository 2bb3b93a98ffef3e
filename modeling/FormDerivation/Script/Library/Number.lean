import FormDerivation.Script.Library.Basic

/-!
Built-in functions on numbers, and the reading of numbers from texts.
-/

namespace FormDerivation.Script.Library

def complementText (base : Nat) (n : Int) : String :=
  String.ofList (Nat.toDigits base (Int64.ofInt n).toUInt64.toNat)

def digit36? (c : Char) : Option Nat :=
  let c := Text.lowerAscii c
  if Text.isDigit c then some (c.toNat - '0'.toNat)
  else if 'a' ≤ c ∧ c ≤ 'z' then some (c.toNat - 'a'.toNat + 10)
  else none

/-- A number in a base, `none` at the first character that is no digit of it. -/
def numberIn? (base : Nat) (cs : List Char) : Option Nat :=
  cs.foldl (fun n c => do
    let digit ← (digit36? c).filter (· < base)
    some (base * (← n) + digit)) (some 0)

def integerOfText (base : Nat) (cs : List Char) : Except String Int :=
  let (negative, digits) := Decimal.splitSign cs
  if cs.isEmpty then .error "cannot parse integer from empty string"
  else if digits.isEmpty then .error "invalid digit found in string"
  else
    match numberIn? base digits with
    | none => .error "invalid digit found in string"
    | some n =>
      let n : Int := if negative then -n else n
      if Decimal.maxInt64 < n then .error "number too large to fit in target type"
      else if n < Decimal.minInt64 then .error "number too small to fit in target type"
      else .ok n

def parseInteger (text : String) (base : Int) : Except Fault Value :=
  if base < 2 || 36 < base then .error (.arithmetic ("Invalid radix: '" ++ toString base ++ "'"))
  else
    match integerOfText base.toNat (Text.trim text).toList with
    | .ok n => .ok (.int n)
    | .error why => .error (.arithmetic ("Error parsing integer number '" ++ text ++ "': " ++ why))

def parseDouble (text : String) : Except Fault Value :=
  match Decimal.ofText (Text.trim text) with
  | .ok x => .ok (.float x)
  | .error why =>
    .error (.arithmetic ("Error parsing floating-point number '" ++ text ++ "': " ++ why.message))

def doubleToInteger (x : Float) : Except Fault Value :=
  if Decimal.isFinite x && Decimal.fitsInt64 (Decimal.toInt x) then .ok (.int (Decimal.toInt x))
  else .error (.arithmetic ("Integer overflow: to_int(" ++ Decimal.scriptText x ++ ")"))

def stepped : Nat → Int → Int → Int → List Value
  | 0, _, _, _ => []
  | count + 1, first, last, step =>
    if (0 < step && first < last) || (step < 0 && last < first) then
      .int first :: stepped count (first + step) last step
    else []

/-- The smaller or the greater of two numbers, one of them a double; the other becomes one. -/
def choose (better : Float → Float → Bool) (a b : Value) : Option (Except Fault Value) :=
  match a, b with
  | .float x, .float y => answer (.float (if better x y then x else y))
  | .int m, .float y => answer (.float (if better (Float.ofInt m) y then Float.ofInt m else y))
  | .float x, .int n => answer (.float (if better x (Float.ofInt n) then x else Float.ofInt n))
  | _, _ => none

def onDouble (name : String) (f : Float → Float) : Native :=
  ⟨name, fun
    | [.float x] => answer (.float (f x))
    | _ => none⟩

def askDouble (name : String) (p : Float → Bool) : Native :=
  ⟨name, fun
    | [.float x] => bools (p x)
    | _ => none⟩

def onInteger (name : String) (f : Int → Value) : Native :=
  ⟨name, fun
    | [.int n] => answer (f n)
    | _ => none⟩

def pi : Float := 3.141592653589793

def integerFunctions : List Native :=
  [⟨"abs", fun
      | [.int n] => some ((if n < 0 then Integer.negate n else .ok n).map .int)
      | _ => none⟩,
    onInteger "sign" fun n => .int n.sign,
    onInteger "is_odd" fun n => .bool (n % 2 != 0),
    onInteger "is_even" fun n => .bool (n % 2 == 0),
    onInteger "is_zero" fun n => .bool (n == 0),
    onInteger "to_float" fun n => .float (Float.ofInt n),
    onInteger "to_int" fun n => .int n,
    onInteger "to_hex" fun n => .text (complementText 16 n),
    onInteger "to_octal" fun n => .text (complementText 8 n),
    onInteger "to_binary" fun n => .text (complementText 2 n)]

def doubleFunctions : List Native :=
  [onDouble "abs" Float.abs,
    ⟨"sign", fun
      | [.float x] =>
        if x.isNaN then some (.error (.arithmetic "Sign of NaN is undefined"))
        else ints (if 0.0 < x then 1 else if x < 0.0 then -1 else 0)
      | _ => none⟩,
    askDouble "is_zero" (· == 0.0),
    askDouble "is_nan" Float.isNaN,
    askDouble "is_finite" Decimal.isFinite,
    askDouble "is_infinite" fun x => !Decimal.isFinite x && !x.isNaN,
    onDouble "to_float" id,
    ⟨"to_int", fun
      | [.float x] => some (doubleToInteger x)
      | _ => none⟩,
    onDouble "floor" Decimal.floor,
    onDouble "ceiling" Decimal.ceiling,
    onDouble "round" Decimal.roundHalfAway,
    onDouble "int" Decimal.truncate,
    onDouble "fraction" fun x => x - Decimal.truncate x,
    onDouble "sqrt" Float.sqrt,
    onDouble "exp" Float.exp,
    onDouble "ln" Float.log,
    onDouble "log" Float.log10,
    ⟨"log", fun
      | [.float x, .float base] => answer (.float (x.log / base.log))
      | _ => none⟩,
    onDouble "sin" Float.sin,
    onDouble "cos" Float.cos,
    onDouble "tan" Float.tan,
    onDouble "asin" Float.asin,
    onDouble "acos" Float.acos,
    onDouble "atan" Float.atan,
    ⟨"atan", fun
      | [.float y, .float x] => answer (.float (Float.atan2 y x))
      | _ => none⟩,
    onDouble "sinh" Float.sinh,
    onDouble "cosh" Float.cosh,
    onDouble "tanh" Float.tanh,
    ⟨"hypot", fun
      | [.float x, .float y] => answer (.float (x * x + y * y).sqrt)
      | _ => none⟩,
    onDouble "to_degrees" fun x => x * (180.0 / pi),
    onDouble "to_radians" fun x => x * (pi / 180.0),
    ⟨"PI", fun
      | [] => answer (.float pi)
      | _ => none⟩,
    ⟨"E", fun
      | [] => answer (.float 2.718281828459045)
      | _ => none⟩]

def chooseText (greater : Bool) (a b : Value) : Option (Except Fault Value) :=
  match a, b with
  | .text s, .text t => texts (if (t < s) == greater then s else t)
  | .char c, .char d => answer (.char (if (d < c) == greater then c else d))
  | _, _ => none

def numberFunctions : List Native :=
  integerFunctions ++ doubleFunctions ++
  [⟨"max", fun
      | [.int m, .int n] => ints (max m n)
      | [a, b] => (choose (fun x y => y < x) a b).or (chooseText true a b)
      | _ => none⟩,
    ⟨"min", fun
      | [.int m, .int n] => ints (min m n)
      | [a, b] => (choose (fun x y => x < y) a b).or (chooseText false a b)
      | _ => none⟩,
    ⟨"parse_int", fun
      | [.text s] => some (parseInteger s 10)
      | [.text s, .int base] => some (parseInteger s base)
      | _ => none⟩,
    ⟨"parse_float", fun
      | [.text s] => some (parseDouble s)
      | _ => none⟩,
    ⟨"range", fun
      | [.int a, .int b] => answer (.range a b false)
      | [.int a, .int b, .int step] => arrays (stepped (b - a).natAbs a b step)
      | _ => none⟩]

end FormDerivation.Script.Library
