import FormDerivation.Calendar
import FormDerivation.Json.Basic

/-!
Types of stored values.

`ValueType.accepts` says which values may stand where a type is expected, `TypedValue` is a value
with the type it is declared to have, and `truthiness` is how a value decides a question.
-/

namespace FormDerivation

inductive ValueType where
  | any
  | boolean
  | number
  | string
  | date
  | list
  | object
  deriving DecidableEq, Repr, Inhabited

namespace ValueType

def all : List ValueType :=
  [.any, .boolean, .number, .string, .date, .list, .object]

def name : ValueType → String
  | .any => "any"
  | .boolean => "boolean"
  | .number => "number"
  | .string => "string"
  | .date => "date"
  | .list => "list"
  | .object => "object"

/-- The type of a value on its own; a text is a string even where it spells a date. -/
def of : Json → ValueType
  | .null => .any
  | .bool _ => .boolean
  | .int _ => .number
  | .float _ => .number
  | .string _ => .string
  | .array _ => .list
  | .object _ => .object

/-- Whether a value may stand where a type is expected; `null` satisfies `any` only. -/
def accepts (type : ValueType) (value : Json) : Bool :=
  match type, value with
  | .any, _ => true
  | .boolean, .bool _ => true
  | .number, .int _ => true
  | .number, .float _ => true
  | .string, .string _ => true
  | .date, .string text => (Date.parse? text).isSome
  | .list, .array _ => true
  | .object, .object _ => true
  | _, _ => false

end ValueType

def describe (value : Json) : String :=
  if value.isNull then "null" else (ValueType.of value).name

/-- A double as a stored number: an integer if it is whole and below `2 ^ 63` in size. -/
def numberValue (x : Float) : Json :=
  if Decimal.isWhole x && x.abs < 9223372036854775808.0 then .int (Decimal.toInt x)
  else if Decimal.isFinite x then .float x
  else .null

/-- How a value decides a question; `null` leaves it open. -/
def truthiness : Json → Option Bool
  | .null => none
  | .bool b => some b
  | .int n => some (n != 0)
  | .float x => some (x != 0.0)
  | .string s => some (s != "")
  | .array items => some !items.isEmpty
  | .object _ => some true

structure TypedValue where
  type : ValueType
  value : Json
  deriving Repr, Inhabited

namespace TypedValue

def null : TypedValue :=
  ⟨.any, .null⟩

def infer (value : Json) : TypedValue :=
  ⟨.of value, value⟩

def boolean (b : Bool) : TypedValue :=
  ⟨.boolean, .bool b⟩

def number (x : Float) : TypedValue :=
  ⟨.number, numberValue x⟩

/-- A count or another integer below `2 ^ 53` in size, which a double holds exactly. -/
def integer (n : Int) : TypedValue :=
  ⟨.number, .int n⟩

def text (s : String) : TypedValue :=
  ⟨.string, .string s⟩

def toJson (v : TypedValue) : Json :=
  .object [("value", v.value), ("value_type", .string v.type.name)]

end TypedValue

def scopedKey (scope : Option String) (id : String) : String :=
  match scope with
  | none => id
  | some p => if p = "" then id else p ++ "_" ++ id

def rowScope (key : String) (index : Nat) : String :=
  key ++ "_" ++ toString index

end FormDerivation
