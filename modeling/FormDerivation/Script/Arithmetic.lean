import FormDerivation.Script.Fault

/-!
Operators on values.

`BinaryOp.result?` and `UnaryOp.result?` are the meaning of the operators: `none` where an operator
is not defined for the types of its operands, a fault where it has no result for their values.
Integers have 64 bits and never wrap; a double beside an integer makes the calculation one of
doubles.
-/

namespace FormDerivation.Script

inductive UnaryOp where
  | plus
  | minus
  | not
  deriving DecidableEq, Repr

def UnaryOp.symbol : UnaryOp → String
  | .plus => "+"
  | .minus => "-"
  | .not => "!"

inductive BinaryOp where
  | add
  | subtract
  | multiply
  | divide
  | modulo
  | power
  | shiftLeft
  | shiftRight
  | bitAnd
  | bitOr
  | bitXor
  | equal
  | unequal
  | less
  | lessEqual
  | greater
  | greaterEqual
  | range
  | rangeInclusive
  deriving DecidableEq, Repr

namespace BinaryOp

def symbol : BinaryOp → String
  | .add => "+"
  | .subtract => "-"
  | .multiply => "*"
  | .divide => "/"
  | .modulo => "%"
  | .power => "**"
  | .shiftLeft => "<<"
  | .shiftRight => ">>"
  | .bitAnd => "&"
  | .bitOr => "|"
  | .bitXor => "^"
  | .equal => "=="
  | .unequal => "!="
  | .less => "<"
  | .lessEqual => "<="
  | .greater => ">"
  | .greaterEqual => ">="
  | .range => ".."
  | .rangeInclusive => "..="

def all : List BinaryOp :=
  [.add, .subtract, .multiply, .divide, .modulo, .power, .shiftLeft, .shiftRight, .bitAnd, .bitOr,
    .bitXor, .equal, .unequal, .less, .lessEqual, .greater, .greaterEqual, .range,
    .rangeInclusive]

def ofSymbol? (symbol : String) : Option BinaryOp :=
  all.find? fun op => op.symbol == symbol

def holds (op : BinaryOp) : Option Ordering → Bool
  | none => op == .unequal
  | some .lt => op == .less || op == .lessEqual || op == .unequal
  | some .eq => op == .equal || op == .lessEqual || op == .greaterEqual
  | some .gt => op == .greater || op == .greaterEqual || op == .unequal

def isComparison : BinaryOp → Bool
  | .equal => true
  | .unequal => true
  | .less => true
  | .lessEqual => true
  | .greater => true
  | .greaterEqual => true
  | _ => false

def isEquality : BinaryOp → Bool
  | .equal => true
  | .unequal => true
  | _ => false

end BinaryOp

/-! ## Integers -/

namespace Integer

def described (what : String) (a : Int) (op : BinaryOp) (b : Int) : Fault :=
  .arithmetic (what ++ ": " ++ toString a ++ " " ++ op.symbol ++ " " ++ toString b)

def checked (what : String) (a : Int) (op : BinaryOp) (b n : Int) : Except Fault Int :=
  match Decimal.checkedInt64 n with
  | some n => .ok n
  | none => .error (described (what ++ " overflow") a op b)

def negate (n : Int) : Except Fault Int :=
  match Decimal.checkedInt64 (-n) with
  | some n => .ok n
  | none => .error (.arithmetic ("Negation overflow: -" ++ toString n))

def divide (a b : Int) : Except Fault Int :=
  if b == 0 then .error (described "Division by zero" a .divide b)
  else checked "Division" a .divide b (Int.tdiv a b)

def modulo (a b : Int) : Except Fault Int :=
  if b == 0 || (a == Decimal.minInt64 && b == -1) then
    .error (described "Modulo division by zero or overflow" a .modulo b)
  else .ok (Int.tmod a b)

def power (a b : Int) : Except Fault Int :=
  if b < 0 then .error (described "Integer raised to a negative index" a .power b)
  else if 4294967295 < b then
    .error (described "Integer raised to too large an index" a .power b)
  else if a == 0 || a == 1 then .ok (if b == 0 then 1 else a)
  else if a == -1 then .ok (if b % 2 == 0 then 1 else -1)
  else if 64 < b then .error (described "Exponential overflow" a .power b)
  else checked "Exponential" a .power b (Int.pow a b.toNat)

def shiftLeftBy (n : Int) (count : Nat) : Int :=
  if 64 ≤ count then 0 else Decimal.wrapInt64 (n * Int.pow 2 count)

def shiftRightBy (n : Int) (count : Nat) : Int :=
  if 64 ≤ count then (if n < 0 then -1 else 0) else n >>> count

def shiftLeft (n count : Int) : Int :=
  if count < 0 then shiftRightBy n count.natAbs else shiftLeftBy n count.natAbs

def shiftRight (n count : Int) : Int :=
  if count < 0 then shiftLeftBy n count.natAbs else shiftRightBy n count.natAbs

def result? (op : BinaryOp) (a b : Int) : Option (Except Fault Value) :=
  match op with
  | .add => some ((checked "Addition" a .add b (a + b)).map .int)
  | .subtract => some ((checked "Subtraction" a .subtract b (a - b)).map .int)
  | .multiply => some ((checked "Multiplication" a .multiply b (a * b)).map .int)
  | .divide => some ((divide a b).map .int)
  | .modulo => some ((modulo a b).map .int)
  | .power => some ((power a b).map .int)
  | .shiftLeft => some (.ok (.int (shiftLeft a b)))
  | .shiftRight => some (.ok (.int (shiftRight a b)))
  | .bitAnd => some (.ok (.int (Int64.ofInt a &&& Int64.ofInt b).toInt))
  | .bitOr => some (.ok (.int (Int64.ofInt a ||| Int64.ofInt b).toInt))
  | .bitXor => some (.ok (.int (Int64.ofInt a ^^^ Int64.ofInt b).toInt))
  | .range => some (.ok (.range a b false))
  | .rangeInclusive => some (.ok (.range a b true))
  | op => some (.ok (.bool (op.holds (some (compare a b)))))

end Integer

/-! ## Doubles -/

namespace Double

/-- The order of two doubles; none if one of them is not a number. -/
def order (a b : Float) : Option Ordering :=
  if a < b then some .lt
  else if b < a then some .gt
  else if a == b then some .eq
  else none

def result? (op : BinaryOp) (a b : Float) : Option (Except Fault Value) :=
  match op with
  | .add => some (.ok (.float (a + b)))
  | .subtract => some (.ok (.float (a - b)))
  | .multiply => some (.ok (.float (a * b)))
  | .divide => some (.ok (.float (a / b)))
  | .modulo => some (.ok (.float (Decimal.remainder a b)))
  | .power => some (.ok (.float (a.pow b)))
  | op => if op.isComparison then some (.ok (.bool (op.holds (order a b)))) else none

end Double

/-! ## Texts and collections -/

def withoutChars (needle : List Char) : List Char → Nat → List Char
  | [], _ => []
  | c :: rest, 0 =>
    match needle with
    | [] => c :: withoutChars needle rest 0
    | _ :: tail =>
      match Text.dropBeginning? needle (c :: rest) with
      | some _ => withoutChars needle rest tail.length
      | none => c :: withoutChars needle rest 0
  | _ :: rest, skip + 1 => withoutChars needle rest skip

def removeText (s needle : String) : String :=
  String.ofList (withoutChars needle.toList s.toList 0)

def compareTexts (op : BinaryOp) (a b : String) : Option (Except Fault Value) :=
  if op.isComparison then some (.ok (.bool (op.holds (some (compare a b))))) else none

/-- The entries of two maps; of equal keys the second one counts. -/
def mergeMembers (as bs : List (String × Value)) : List (String × Value) :=
  ((KeyMap.ofList as).insertAll bs).toList

def applyToBools? (op : BinaryOp) (a b : Bool) : Option (Except Fault Value) :=
  match op with
  | .bitAnd => some (.ok (.bool (a && b)))
  | .bitOr => some (.ok (.bool (a || b)))
  | .bitXor => some (.ok (.bool (a != b)))
  | op =>
    if op.isComparison then some (.ok (.bool (op.holds (some (compare a b))))) else none

/-- An equality decided by `Value.same`. -/
def applyToSame? (op : BinaryOp) (a b : Value) : Option (Except Fault Value) :=
  if op.isEquality then some (.ok (.bool (a.same b == (op == .equal)))) else none

/-- Joining to a text; the other operand takes its plain form. -/
def joinToText (a b : Value) : Option (Except Fault Value) :=
  some (.ok (.text (a.plainText ++ b.plainText)))

def applyToUnlike? (op : BinaryOp) : Option (Except Fault Value) :=
  if op.isComparison then some (.ok (.bool (op == .unequal))) else none

def BinaryOp.result? (op : BinaryOp) (left right : Value) : Option (Except Fault Value) :=
  match left, right with
  | .int a, .int b => Integer.result? op a b
  | .float a, .float b => Double.result? op a b
  | .int a, .float b => Double.result? op (Float.ofInt a) b
  | .float a, .int b => Double.result? op a (Float.ofInt b)
  | .bool a, .bool b => applyToBools? op a b
  | .unit, .unit =>
    if op.isComparison then some (.ok (.bool (op == .equal))) else none
  | .text a, .text b =>
    match op with
    | .add => joinToText left right
    | .subtract => some (.ok (.text (removeText a b)))
    | op => compareTexts op a b
  | .text a, .char b =>
    match op with
    | .add => joinToText left right
    | .subtract => some (.ok (.text (removeText a b.toString)))
    | op => compareTexts op a b.toString
  | .char a, .text b =>
    match op with
    | .add => joinToText left right
    | op => compareTexts op a.toString b
  | .char a, .char b =>
    match op with
    | .add => joinToText left right
    | op => compareTexts op a.toString b.toString
  | .text _, _ => if op == .add then joinToText left right else applyToUnlike? op
  | _, .text _ => if op == .add then joinToText left right else applyToUnlike? op
  | .array as, .array bs =>
    match op with
    | .add => some (.ok (.array (as ++ bs)))
    | op => applyToSame? op left right
  | .map as, .map bs =>
    match op with
    | .add => some (.ok (.map (mergeMembers as bs)))
    | op => applyToSame? op left right
  | .range _ _ i, .range _ _ j =>
    if i == j then applyToSame? op left right else applyToUnlike? op
  | .function _ _, .function _ _ => none
  | .timestamp, .timestamp => applyToSame? op left right
  | _, _ => applyToUnlike? op

def UnaryOp.result? (op : UnaryOp) (operand : Value) : Option (Except Fault Value) :=
  match op, operand with
  | .plus, .int n => some (.ok (.int n))
  | .plus, .float x => some (.ok (.float x))
  | .minus, .int n => some ((Integer.negate n).map .int)
  | .minus, .float x => some (.ok (.float (-x)))
  | .not, .bool b => some (.ok (.bool !b))
  | _, _ => none

/-! ## Sizes -/

structure Sizes where
  items : Nat
  members : Nat
  bytes : Nat
  deriving DecidableEq, Repr

def Sizes.add (a b : Sizes) : Sizes :=
  ⟨a.items + b.items, a.members + b.members, a.bytes + b.bytes⟩

mutual

def Value.sizes : Value → Sizes
  | .text s => ⟨0, 0, s.utf8ByteSize⟩
  | .array items => sizesOfItems items
  | .map members => sizesOfMembers members
  | _ => ⟨0, 0, 0⟩

def Value.sizesOfItems : List Value → Sizes
  | [] => ⟨0, 0, 0⟩
  | v :: rest => (Sizes.add ⟨1, 0, 0⟩ v.sizes).add (sizesOfItems rest)

def Value.sizesOfMembers : List (String × Value) → Sizes
  | [] => ⟨0, 0, 0⟩
  | (_, v) :: rest => (Sizes.add ⟨0, 1, 0⟩ v.sizes).add (sizesOfMembers rest)

end

end FormDerivation.Script
