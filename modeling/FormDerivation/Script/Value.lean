import FormDerivation.Decimal.Layout
import FormDerivation.Json.Basic
import FormDerivation.Text.Quoted

/-!
Values of scripts: stored values and, beyond them, characters, ranges and functions.

`Value.ofJson` and `Value.toJson` go between the two; a value that cannot be stored is refused with
the name of its type.
-/

namespace FormDerivation.Script

inductive Value where
  | unit
  | bool (b : Bool)
  | int (n : Int)
  | float (x : Float)
  | char (c : Char)
  | text (s : String)
  | array (items : List Value)
  /-- The members are listed by increasing key. -/
  | map (members : List (String × Value))
  | range (first last : Int) (inclusive : Bool)
  /-- A function by its name, with values for its first parameters. -/
  | function (name : String) (bound : List Value)
  /-- A variable that functions share: the number of the cell with its value. -/
  | shared (cell : Nat)
  | timestamp
  deriving Repr, Inhabited

namespace Value

def typeName : Value → String
  | .unit => "()"
  | .bool _ => "bool"
  | .int _ => "i64"
  | .float _ => "f64"
  | .char _ => "char"
  | .text _ => "string"
  | .array _ => "array"
  | .map _ => "map"
  | .range _ _ inclusive => if inclusive then "range=" else "range"
  | .function _ _ => "Fn"
  | .shared _ => "shared"
  | .timestamp => "timestamp"

/-- The name of the type of a value where another type is needed: ranges say what they are of. -/
def givenTypeName : Value → String
  | .range _ _ inclusive => if inclusive then "RangeInclusive<i64>" else "Range<i64>"
  | v => v.typeName

def signatureName : Value → String
  | .text _ => "&str | ImmutableString | String"
  | v => v.typeName

/-! ## Written forms -/

def rangeText (first last : Int) (inclusive : Bool) : String :=
  toString first ++ (if inclusive then "..=" else "..") ++ toString last

mutual

/-- The form of a value inside arrays and maps: texts and characters are quoted. -/
def nestedText : Value → String
  | .unit => "()"
  | .bool b => if b then "true" else "false"
  | .int n => toString n
  | .float x => Decimal.Layout.nested.writeNamed x
  | .char c =>
    if c == '\'' then "'\\''" else if c == '"' then "'\"'" else "'" ++ Text.quotedChar c ++ "'"
  | .text s => Text.quoted s
  | .array items => "[" ++ Text.joinWith ", " (nestedTexts items) ++ "]"
  | .map members => "#\x7b" ++ Text.joinWith ", " (memberTexts members) ++ "\x7d"
  | .range first last inclusive => rangeText first last inclusive
  | .function name _ => "Fn(" ++ name ++ ")"
  | .shared _ => "<shared>"
  | .timestamp => "<timestamp>"

def nestedTexts : List Value → List String
  | [] => []
  | v :: rest => nestedText v :: nestedTexts rest

def memberTexts : List (String × Value) → List String
  | [] => []
  | (key, v) :: rest => (Text.quoted key ++ ": " ++ nestedText v) :: memberTexts rest

end

/-- The form of a value in a text: texts and characters stand for themselves, `()` for nothing. -/
def plainText : Value → String
  | .unit => ""
  | .float x => Decimal.scriptText x
  | .char c => c.toString
  | .text s => s
  | v => nestedText v

/-! ## Equality -/

mutual

/-- Equality of values: numbers by their size, everything else only within its type. -/
def same : Value → Value → Bool
  | .unit, .unit => true
  | .bool a, .bool b => a == b
  | .int a, .int b => a == b
  | .float a, .float b => a == b
  | .int a, .float b => Float.ofInt a == b
  | .float a, .int b => a == Float.ofInt b
  | .char a, .char b => a == b
  | .text a, .text b => a == b
  | .char a, .text b => a.toString == b
  | .text a, .char b => a == b.toString
  | .array as, .array bs => sameItems as bs
  | .map as, .map bs => sameMembers as bs
  | .range a b i, .range c d j => a == c && b == d && i == j
  | .function f _, .function g _ => f == g
  | .shared a, .shared b => a == b
  | .timestamp, .timestamp => true
  | _, _ => false

def sameItems : List Value → List Value → Bool
  | [], [] => true
  | a :: as, b :: bs => same a b && sameItems as bs
  | _, _ => false

def sameMembers : List (String × Value) → List (String × Value) → Bool
  | [], [] => true
  | (k, a) :: as, (l, b) :: bs => k == l && same a b && sameMembers as bs
  | _, _ => false

end

/-! ## Stored values -/

mutual

/-- A stored value in a script; an integer beyond 64 bits becomes a double. -/
def ofJson : Json → Value
  | .null => .unit
  | .bool b => .bool b
  | .int n => if n ≤ 9223372036854775807 then .int n else .float (Float.ofInt n)
  | .float x => .float x
  | .string s => .text s
  | .array items => .array (ofJsonItems items)
  | .object members => .map (ofJsonMembers members)

def ofJsonItems : List Json → List Value
  | [] => []
  | j :: rest => ofJson j :: ofJsonItems rest

def ofJsonMembers : List (String × Json) → List (String × Value)
  | [] => []
  | (key, j) :: rest => (key, ofJson j) :: ofJsonMembers rest

end

def notStored (v : Value) : String :=
  "Output type incorrect: " ++ v.givenTypeName ++ " (expecting serde_json::value::Value)"

mutual

/-- The stored form of a value; a character is a text, a double without a size is `null`. -/
def toJson : Value → Except String Json
  | .unit => .ok .null
  | .bool b => .ok (.bool b)
  | .int n => .ok (.int n)
  | .float x => .ok (if Decimal.isFinite x then .float x else .null)
  | .char c => .ok (.string c.toString)
  | .text s => .ok (.string s)
  | .array items => do .ok (.array (← toJsonItems items))
  | .map members => do .ok (.object (← toJsonMembers members))
  | .range first last inclusive => .error (notStored (.range first last inclusive))
  | .function name bound => .error (notStored (.function name bound))
  | .shared cell => .error (notStored (.shared cell))
  | .timestamp => .error (notStored .timestamp)

def toJsonItems : List Value → Except String (List Json)
  | [] => .ok []
  | v :: rest => do .ok ((← toJson v) :: (← toJsonItems rest))

def toJsonMembers : List (String × Value) → Except String (List (String × Json))
  | [] => .ok []
  | (key, v) :: rest => do .ok ((key, ← toJson v) :: (← toJsonMembers rest))

end

end Value

end FormDerivation.Script
