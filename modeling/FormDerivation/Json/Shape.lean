import FormDerivation.Decimal.Layout
import FormDerivation.Json.Basic
import FormDerivation.Text.Quoted

/-!
Shapes of stored records.

A `Shape` describes the stored form of a typed value; `Shape.mismatch?` reports the first place at
which a stored value departs from it.  A record may be written as an object, whose members are
looked at in key order, or as an array of its fields in declaration order.
-/

namespace FormDerivation.Json

inductive Found where
  | null
  | bool (value : Bool)
  | int (value : Int)
  | float (value : Float)
  | text (value : String)
  | list
  | map
  deriving Repr

namespace Found

def of : Json → Found
  | .null => .null
  | .bool b => .bool b
  | .int n => .int n
  | .float x => .float x
  | .string s => .text s
  | .array _ => .list
  | .object _ => .map

def describe : Found → String
  | .null => "null"
  | .bool b => "boolean `" ++ (if b then "true" else "false") ++ "`"
  | .int n => "integer `" ++ toString n ++ "`"
  | .float x => "floating point `" ++ Decimal.Layout.json.write x ++ "`"
  | .text s => "string " ++ Text.quoted s
  | .list => "sequence"
  | .map => "map"

end Found

inductive Mismatch where
  | wrongType (found : Found) (expected : String)
  | wrongValue (found : Found) (expected : String)
  | wrongLength (length : Nat) (expected : String)
  | missingField (name : String)
  | duplicateField (name : String)
  | unknownVariant (name : String) (expected : List String)
  deriving Repr

def listAlternatives (names : List String) : String :=
  let ticked := names.map fun name => "`" ++ name ++ "`"
  match ticked with
  | [] => "there are no variants"
  | [a] => "expected " ++ a
  | [a, b] => "expected " ++ a ++ " or " ++ b
  | many => "expected one of " ++ Text.joinWith ", " many

def Mismatch.message : Mismatch → String
  | .wrongType found expected => "invalid type: " ++ found.describe ++ ", expected " ++ expected
  | .wrongValue found expected => "invalid value: " ++ found.describe ++ ", expected " ++ expected
  | .wrongLength length expected =>
    "invalid length " ++ toString length ++ ", expected " ++ expected
  | .missingField name => "missing field `" ++ name ++ "`"
  | .duplicateField name => "duplicate field `" ++ name ++ "`"
  | .unknownVariant name expected =>
    "unknown variant `" ++ name ++ "`, " ++ listAlternatives expected

inductive Shape where
  | any
  | text
  | flag
  /-- An integer from 0 to `2 ^ 64 - 1`; the name appears in messages. -/
  | natural (name : String)
  | float
  /-- `null` stands for no value. -/
  | optional (shape : Shape)
  | list (shape : Shape)
  | map (shape : Shape)
  | variant (names : List String)
  | record (name : String) (fields : List (String × Bool × Shape))
  deriving Inhabited, Repr

def Shape.field? (name : String) : List (String × Bool × Shape) → Option Shape
  | [] => none
  | (field, _, shape) :: rest => if name == field then some shape else Shape.field? name rest

def Shape.missing? (members : List (String × Json)) :
    List (String × Bool × Shape) → Option Mismatch
  | [] => none
  | (field, required, _) :: rest =>
    if required && (KeyMap.lookupEntry field members).isNone then some (.missingField field)
    else Shape.missing? members rest

/-- The position of the first required field, counted on from `index`. -/
def Shape.requiredIndex? (index : Nat) : List (String × Bool × Shape) → Option Nat
  | [] => none
  | (_, required, _) :: rest =>
    if required then some index else Shape.requiredIndex? (index + 1) rest

def Shape.withoutOption : Shape → Shape
  | .optional shape => shape.withoutOption
  | shape => shape

def countElements (count : Nat) : String :=
  toString count ++ (if count == 1 then " element" else " elements")

def Shape.expected : Shape → String
  | .any => "any value"
  | .text => "a string"
  | .flag => "a boolean"
  | .natural name => name
  | .float => "f64"
  | .optional _ => "option"
  | .list _ => "a sequence"
  | .map _ => "a map"
  | .variant _ => "string or map"
  | .record name _ => "struct " ++ name

def Shape.wrongType (shape : Shape) (j : Json) : Option Mismatch :=
  some (.wrongType (.of j) shape.expected)

def recordMembers (fields : List (String × Bool × Shape)) : Json → List (String × Json)
  | .object members => members
  | .array items => (fields.map (·.1)).zip items
  | _ => []

mutual

def Shape.mismatch? (j : Json) (shape : Shape) : Option Mismatch :=
  match j with
  | .null =>
    match shape with
    | .any => none
    | .optional _ => none
    | shape => shape.wrongType j
  | .bool _ =>
    match shape.withoutOption with
    | .any => none
    | .flag => none
    | shape => shape.wrongType j
  | .int n =>
    match shape.withoutOption with
    | .any => none
    | .float => none
    | .natural name => if 0 ≤ n then none else some (.wrongValue (.int n) name)
    | shape => shape.wrongType j
  | .float _ =>
    match shape.withoutOption with
    | .any => none
    | .float => none
    | shape => shape.wrongType j
  | .string s =>
    match shape.withoutOption with
    | .any => none
    | .text => none
    | .variant names => if names.contains s then none else some (.unknownVariant s names)
    | shape => shape.wrongType j
  | .array items =>
    match shape.withoutOption with
    | .any => none
    | .list item => Shape.itemsMismatch? items item
    | .record name fields =>
      Shape.fieldsMismatch? items 0 fields
        ("struct " ++ name ++ " with " ++ countElements fields.length) items.length
    | shape => shape.wrongType j
  | .object members =>
    match shape.withoutOption with
    | .any => none
    | .map value => Shape.valuesMismatch? members value
    | .record _ fields =>
      (Shape.membersMismatch? members fields).or (Shape.missing? members fields)
    | shape => shape.wrongType j

def Shape.itemsMismatch? (items : List Json) (shape : Shape) : Option Mismatch :=
  match items with
  | [] => none
  | item :: rest => (Shape.mismatch? item shape).or (Shape.itemsMismatch? rest shape)

/-- Matches array items with fields; `total` is the length of the whole array. -/
def Shape.fieldsMismatch? (items : List Json) (index : Nat)
    (fields : List (String × Bool × Shape)) (expected : String) (total : Nat) :
    Option Mismatch :=
  match items, fields with
  | [], fields =>
    (Shape.requiredIndex? index fields).map fun missing => .wrongLength missing expected
  | _ :: _, [] => some (.wrongLength total "fewer elements in array")
  | item :: items, (_, _, shape) :: fields =>
    (Shape.mismatch? item shape).or
      (Shape.fieldsMismatch? items (index + 1) fields expected total)

def Shape.valuesMismatch? (members : List (String × Json)) (shape : Shape) : Option Mismatch :=
  match members with
  | [] => none
  | (_, value) :: rest => (Shape.mismatch? value shape).or (Shape.valuesMismatch? rest shape)

def Shape.membersMismatch? (members : List (String × Json))
    (fields : List (String × Bool × Shape)) : Option Mismatch :=
  match members with
  | [] => none
  | (key, value) :: rest =>
    ((Shape.field? key fields).bind fun shape => Shape.mismatch? value shape).or
      (Shape.membersMismatch? rest fields)

end

end FormDerivation.Json
