import FormDerivation.Operator.Basic
import FormDerivation.Pattern.Reader

/-!
The built-in operators, in six packages.

Numbers are doubles: results that are not finite are failures, and equality of numbers does not
tell integers from doubles.
-/

namespace FormDerivation

def Json.equalByValue (left right : Json) : Bool :=
  match left.number?, right.number? with
  | some a, some b => a == b
  | _, _ => left == right

/-- Whether a value has no content: `null`, a blank text, an empty list or an empty object. -/
def Json.isVacant : Json → Bool
  | .null => true
  | .string text => (Text.trim text).isEmpty
  | .array items => items.isEmpty
  | .object members => members.isEmpty
  | _ => false

namespace Operator

/-! ## Logic -/

def booleanPair : List Parameter :=
  [⟨"left", .boolean⟩, ⟨"right", .boolean⟩]

def connective (name label description : String) (f : Bool → Bool → Bool) : Operator :=
  reading name label description booleanPair .boolean fun args => do
    return .boolean (f (← args.boolean 0) (← args.boolean 1))

def andOperator : Operator :=
  connective "and" "And" "True when both operands are true." (· && ·)

def orOperator : Operator :=
  connective "or" "Or" "True when at least one operand is true." (· || ·)

def xorOperator : Operator :=
  connective "xor" "Exclusive or" "True when exactly one operand is true." (· != ·)

def notOperator : Operator :=
  reading "not" "Not" "Negates a boolean." [⟨"value", .boolean⟩] .boolean fun args => do
    return .boolean !(← args.boolean 0)

def ifElseOperator : Operator :=
  reading "if-else" "If / else"
    "Yields the second operand when the condition holds, otherwise the third."
    [⟨"condition", .boolean⟩, ⟨"then", .any⟩, ⟨"else", .any⟩] .any fun args => do
    return .infer (← args.value (if ← args.boolean 0 then 1 else 2))

/-! ## Comparison -/

def anyPair : List Parameter :=
  [⟨"left", .any⟩, ⟨"right", .any⟩]

def numberPair : List Parameter :=
  [⟨"left", .number⟩, ⟨"right", .number⟩]

def equality (name label description : String) (negate : Bool) : Operator :=
  reading name label description anyPair .boolean fun args => do
    return .boolean ((← args.value 0).equalByValue (← args.value 1) != negate)

def equalsOperator : Operator :=
  equality "equals" "Equal" "True when the operands are equal; numbers compare by value." false

def notEqualsOperator : Operator :=
  equality "not-equals" "Not equal" "True when the operands differ." true

def ordering (name label : String) (f : Float → Float → Bool) : Operator :=
  reading name label "Numeric comparison of the left operand against the right one."
    numberPair .boolean fun args => do
    return .boolean (f (← args.number 0) (← args.number 1))

def lessThanOperator : Operator :=
  ordering "less-than" "Less than" (· < ·)

def lessOrEqualOperator : Operator :=
  ordering "less-or-equal" "Less than or equal" (· ≤ ·)

def greaterThanOperator : Operator :=
  ordering "greater-than" "Greater than" (· > ·)

def greaterOrEqualOperator : Operator :=
  ordering "greater-or-equal" "Greater than or equal" (· ≥ ·)

def isNullOperator : Operator :=
  reading "is-null" "Is empty value"
    "True when the operand is null, e.g. an unanswered or hidden field."
    [⟨"value", .any⟩] .boolean fun args => do
    return .boolean (← args.value 0).isNull

/-! ## Arithmetic -/

def finite (args : Arguments) (x : Float) : Except FormulaError TypedValue :=
  if Decimal.isFinite x then .ok (.number x)
  else .error (args.failure "result is not a finite number")

def arithmetic (name label : String) (f : Float → Float → Except String Float) : Operator :=
  reading name label "Binary arithmetic on two numbers." numberPair .number fun args => do
    match f (← args.number 0) (← args.number 1) with
    | .ok x => finite args x
    | .error message => .error (args.failure message)

def addOperator : Operator :=
  arithmetic "add" "Add" fun a b => .ok (a + b)

def subtractOperator : Operator :=
  arithmetic "subtract" "Subtract" fun a b => .ok (a - b)

def multiplyOperator : Operator :=
  arithmetic "multiply" "Multiply" fun a b => .ok (a * b)

def divideOperator : Operator :=
  arithmetic "divide" "Divide" fun a b =>
    if b == 0.0 then .error "division by zero" else .ok (a / b)

def roundTo (x : Float) (decimals : Nat) : Float :=
  let factor := Float.ofInt (Int.pow 10 decimals)
  Decimal.roundHalfAway (x * factor) / factor

def roundOperator : Operator :=
  reading "round" "Round" "Rounds half away from zero to the given number of decimals (0-10)."
    [⟨"value", .number⟩, ⟨"decimals", .number⟩] .number fun args => do
    let x ← args.number 0
    let decimals ← args.number 1
    if Decimal.isWhole decimals && 0.0 ≤ decimals && decimals ≤ 10.0 then
      finite args (roundTo x (Decimal.toInt decimals).toNat)
    else .error (args.failure "decimals must be a whole number between 0 and 10")

/-! ## Texts -/

def textPair : List Parameter :=
  [⟨"text", .string⟩, ⟨"other", .string⟩]

def concatOperator : Operator :=
  reading "concat" "Concatenate" "Joins two strings." textPair .string fun args => do
    return .text ((← args.text 0) ++ (← args.text 1))

def lengthOperator : Operator :=
  reading "length" "Length" "Number of characters in a string." [⟨"text", .string⟩] .number
    fun args => do
    return .integer (← args.text 0).length

def isEmptyOperator : Operator :=
  reading "is-empty" "Is empty" "True for null, blank strings and empty lists."
    [⟨"value", .any⟩] .boolean fun args => do
    return .boolean (← args.value 0).isVacant

def textContainsOperator : Operator :=
  reading "contains" "Contains" "True when the first string contains the second."
    textPair .boolean fun args => do
    return .boolean (Text.contains (← args.text 0) (← args.text 1))

def matchesOperator : Operator :=
  reading "matches" "Matches pattern"
    "True when the whole string matches the regular expression."
    [⟨"text", .string⟩, ⟨"pattern", .string⟩] .boolean fun args => do
    let text ← args.text 0
    match Pattern.parse ("^(?:" ++ (← args.text 1) ++ ")$") with
    | .ok pattern => .ok (.boolean (pattern.isMatch text))
    | .error error => .error (args.failure ("invalid pattern: " ++ error.message))

/-! ## Lists -/

def listParameter : List Parameter :=
  [⟨"list", .list⟩]

def sizeOperator : Operator :=
  reading "size" "Size" "Number of entries in a list." listParameter .number fun args => do
    return .integer (← args.list 0).length

def listContainsOperator : Operator :=
  reading "contains" "List contains" "True when any entry equals the value."
    [⟨"list", .list⟩, ⟨"value", .any⟩] .boolean fun args => do
    let value ← args.value 1
    return .boolean ((← args.list 0).any (Json.equalByValue · value))

/-- The sum of numbers, added to `total` from left to right; `index` counts the entries. -/
def sumFrom (index : Nat) (total : Float) : List Json → Except String Float
  | [] => .ok total
  | item :: rest =>
    match item.number? with
    | some x => sumFrom (index + 1) (total + x) rest
    | none => .error ("entry " ++ toString index ++ " is not a number")

def sumOperator : Operator :=
  reading "sum" "Sum" "Adds all entries of a list of numbers." listParameter .number
    fun args => do
    match sumFrom 0 0.0 (← args.list 0) with
    | .ok total => finite args total
    | .error message => .error (args.failure message)

/-! ## Dates -/

def datePair : List Parameter :=
  [⟨"date", .date⟩, ⟨"other", .date⟩]

def dateOrder (name label : String) (f : Date → Date → Bool) : Operator :=
  reading name label "Strict calendar comparison of two dates." datePair .boolean fun args => do
    return .boolean (f (← args.date 0) (← args.date 1))

def beforeOperator : Operator :=
  dateOrder "before" "Is before" fun a b => a.before b

def afterOperator : Operator :=
  dateOrder "after" "Is after" fun a b => b.before a

def yearsBetweenOperator : Operator :=
  reading "years-between" "Years between"
    "Completed years from the first date to the second; negative when reversed."
    [⟨"from", .date⟩, ⟨"to", .date⟩] .number fun args => do
    return .integer (Date.yearsBetween (← args.date 0) (← args.date 1))

end Operator

structure OperatorPackage where
  name : String
  operators : List Operator

namespace OperatorPackage

open Operator

def logic : OperatorPackage :=
  ⟨"logic", [andOperator, orOperator, xorOperator, notOperator, ifElseOperator]⟩

def compare : OperatorPackage :=
  ⟨"compare", [equalsOperator, notEqualsOperator, lessThanOperator, lessOrEqualOperator,
    greaterThanOperator, greaterOrEqualOperator, isNullOperator]⟩

def math : OperatorPackage :=
  ⟨"math", [addOperator, subtractOperator, multiplyOperator, divideOperator, roundOperator]⟩

def text : OperatorPackage :=
  ⟨"text", [concatOperator, lengthOperator, isEmptyOperator, textContainsOperator,
    matchesOperator]⟩

def list : OperatorPackage :=
  ⟨"list", [sizeOperator, listContainsOperator, sumOperator]⟩

def date : OperatorPackage :=
  ⟨"date", [beforeOperator, afterOperator, yearsBetweenOperator]⟩

def builtin : List OperatorPackage :=
  [logic, compare, math, text, list, date]

end OperatorPackage

end FormDerivation
