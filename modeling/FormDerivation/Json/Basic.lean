import FormDerivation.KeyMap

/-!
Stored values: the JSON data model with integers and doubles kept apart.

An object lists its members without repetition: by increasing key where it is read from a text or
built from a map, in the order of the fields where it is the stored form of a record.  Nothing that
looks up a member depends on the order; `Json.object?` and `Json.ofMap` go between objects and
`KeyMap`, and `Json.sorted` lists the members by key.
-/

namespace FormDerivation

/-- A stored value.  An integer and a double of the same size are different values. -/
inductive Json where
  | null
  | bool (value : Bool)
  | int (value : Int)
  | float (value : Float)
  | string (value : String)
  | array (items : List Json)
  | object (members : List (String × Json))
  deriving Inhabited, Repr

namespace Json

mutual

/-- Equality of stored values: doubles by their numeric equality, an integer never equals one. -/
def same : Json → Json → Bool
  | .null, .null => true
  | .bool a, .bool b => a == b
  | .int a, .int b => a == b
  | .float a, .float b => a == b
  | .string a, .string b => a == b
  | .array as, .array bs => sameItems as bs
  | .object as, .object bs => sameMembers as bs
  | _, _ => false

def sameItems : List Json → List Json → Bool
  | [], [] => true
  | a :: as, b :: bs => same a b && sameItems as bs
  | _, _ => false

def sameMembers : List (String × Json) → List (String × Json) → Bool
  | [], [] => true
  | (k, a) :: as, (l, b) :: bs => k == l && same a b && sameMembers as bs
  | _, _ => false

end

instance : BEq Json := ⟨same⟩

def ofMap (m : KeyMap Json) : Json :=
  .object m.toList

/-- The object with the given members; of equal keys the last one counts. -/
def ofMembers (members : List (String × Json)) : Json :=
  ofMap (KeyMap.ofList members)

def object? : Json → Option (KeyMap Json)
  | .object members => some (KeyMap.ofList members)
  | _ => none

mutual

def sorted : Json → Json
  | .array items => .array (sortedItems items)
  | .object members => ofMembers (sortedMembers members)
  | j => j

def sortedItems : List Json → List Json
  | [] => []
  | item :: rest => sorted item :: sortedItems rest

def sortedMembers : List (String × Json) → List (String × Json)
  | [] => []
  | (key, value) :: rest => (key, sorted value) :: sortedMembers rest

end

def string? : Json → Option String
  | .string s => some s
  | _ => none

def bool? : Json → Option Bool
  | .bool b => some b
  | _ => none

def array? : Json → Option (List Json)
  | .array items => some items
  | _ => none

def isNull : Json → Bool
  | .null => true
  | _ => false

def isObject : Json → Bool
  | .object _ => true
  | _ => false

def member? (j : Json) (key : String) : Option Json :=
  match j with
  | .object members => KeyMap.lookupEntry key members
  | _ => none

def int64? : Json → Option Int
  | .int n => if n ≤ 9223372036854775807 then some n else none
  | _ => none

def natural? : Json → Option Nat
  | .int n => if 0 ≤ n then some n.toNat else none
  | _ => none

/-- A number as a double; integers are rounded to the nearest one. -/
def number? : Json → Option Float
  | .int n => some (Float.ofInt n)
  | .float x => some x
  | _ => none

def ofNat (n : Nat) : Json :=
  .int n

def ofStrings (texts : List String) : Json :=
  .array (texts.map .string)

end Json

end FormDerivation
