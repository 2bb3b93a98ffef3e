import FormDerivation.Element.Basic
import FormDerivation.Expression.Stored

/-!
The stored form of elements.

`Element.ofJson` never fails: an attribute that is absent or of the wrong type has its default, and
an element of no known type is a group.  `Element.toJson` writes the stored form back; an attribute
that is not set is left out.
-/

namespace FormDerivation

open Json (Shape)

/-! ## Members -/

namespace Json

/-- A text, also where a number spells it; empty if there is none. -/
def textMember (members : List (String × Json)) (key : String) : String :=
  match KeyMap.lookupEntry key members with
  | some (.string text) => text
  | some (.int n) => toString n
  | some (.float x) => Decimal.Layout.json.write x
  | _ => ""

def naturalMember? (members : List (String × Json)) (key : String) : Option Nat :=
  (KeyMap.lookupEntry key members).bind natural?

def firstMember? (members : List (String × Json)) : List String → Option Json
  | [] => none
  | key :: rest => (KeyMap.lookupEntry key members).or (firstMember? members rest)

/-- The expression under the first of several keys; `null` stands for none. -/
def expressionMember? (members : List (String × Json)) (keys : List String) :
    Option Expression :=
  match firstMember? members keys with
  | none => none
  | some .null => none
  | some j => some (Expression.ofJson j)

end Json

/-! ## Attributes -/

def Attributes.visibilityKeys : List String :=
  ["visibility", "visible_if"]

def Attributes.patchKeys : List String :=
  ["patch", "override"]

def FieldTraits.computeKeys : List String :=
  ["compute_value", "computed"]

def Attributes.ofMembers (members : List (String × Json)) : Attributes where
  id := Json.textMember members "id"
  label := Json.textMember members "label"
  weight := (KeyMap.lookupEntry "weight" members).bind Json.int64?
  visibility := Json.expressionMember? members visibilityKeys
  patch := Json.expressionMember? members patchKeys

/-! ## Fields -/

def FieldKind.ofName? (name : String) : Option FieldKind :=
  match Text.lowerAsciiText name with
  | "text" => some .text
  | "string" => some .text
  | "textarea" => some .textarea
  | "number" => some .number
  | "integer" => some .number
  | "checkbox" => some .checkbox
  | "boolean" => some .checkbox
  | "date" => some .date
  | "select" => some .select
  | "radio" => some .select
  | "enum" => some .select
  | "email" => some .email
  | "other" => some .other
  | _ => none

def Constraint.fields : List (String × Bool × Shape) :=
  [("pattern", false, .optional .text),
    ("min_len", false, .optional (.natural "usize")),
    ("max_len", false, .optional (.natural "usize")),
    ("min", false, .optional .float),
    ("max", false, .optional .float)]

/-- A stored constraint, unless one of its fields is of the wrong type. -/
def Constraint.ofJson? (j : Json) : Option Constraint :=
  match Shape.mismatch? j (.record "Constraint" fields) with
  | some _ => none
  | none =>
    let members := j.recordMembers fields
    some {
      pattern := (KeyMap.lookupEntry "pattern" members).bind Json.string?
      minLength := Json.naturalMember? members "min_len"
      maxLength := Json.naturalMember? members "max_len"
      min := (KeyMap.lookupEntry "min" members).bind Json.number?
      max := (KeyMap.lookupEntry "max" members).bind Json.number? }

/-- The traits of a field; its kind is given or named by a member. -/
def FieldTraits.ofMembers (kind : Option FieldKind) (members : List (String × Json)) :
    FieldTraits where
  kind := (kind.or (((KeyMap.lookupEntry "field_type" members).bind Json.string?).bind
    FieldKind.ofName?)).getD .text
  required := ((KeyMap.lookupEntry "required" members).bind Json.bool?).getD false
  constraint := (KeyMap.lookupEntry "constraint" members).bind Constraint.ofJson?
  validation := Json.expressionMember? members ["validation"]
  validationMessage := (KeyMap.lookupEntry "validation_message" members).bind Json.string?
  compute := Json.expressionMember? members computeKeys

/-! ## Types -/

inductive StoredType where
  | root
  | step
  | group
  | repeating
  | field (kind : Option FieldKind)
  | content
  deriving DecidableEq, Repr

/-- The type of a name; case does not count, and a hyphen is an underscore. -/
def StoredType.ofName (name : String) : StoredType :=
  let plain := String.ofList ((Text.lowerAsciiText name).toList.map fun c =>
    if c == '-' then '_' else c)
  match plain with
  | "root" => .root
  | "form" => .root
  | "step" => .step
  | "repeating" => .repeating
  | "repeating_container" => .repeating
  | "replicating" => .repeating
  | "replicating_container" => .repeating
  | "field" => .field none
  | "content" => .content
  | "text_content" => .content
  | "headline" => .content
  | "group" => .group
  | other =>
    match FieldKind.ofName? other with
    | some kind => .field (some kind)
    | none => .group

def StoredType.ofMembers (members : List (String × Json)) : StoredType :=
  .ofName (((KeyMap.lookupEntry "type" members).bind Json.string?).getD "")

/-! ## Reading -/

namespace Element

def rank (e : Element) : Int :=
  e.attributes.weight.getD 0

def insertByRank (e : Element) : List Element → List Element
  | [] => [e]
  | sibling :: rest =>
    if e.rank ≤ sibling.rank then e :: sibling :: rest else sibling :: insertByRank e rest

/-- Siblings by increasing weight; those of equal weight keep their order. -/
def sortByRank : List Element → List Element
  | [] => []
  | e :: rest => insertByRank e (sortByRank rest)

/-- A fixed step of a root is a step even where it is stored as a group. -/
def asStep : Element → Element
  | .container attributes .group children => .container attributes .step children
  | e => e

mutual

def ofJson : Json → Element
  | .object members =>
    let attributes := Attributes.ofMembers members
    match StoredType.ofMembers members with
    | .root =>
      let introduction := fixedStep? "introduction" members
      let summary := fixedStep? "summary" members
      let submit := fixedStep? "submit" members
      .container attributes
        (.root ⟨introduction.isSome, summary.isSome, submit.isSome⟩)
        (introduction.toList ++ sortByRank (childrenOf members) ++ summary.toList ++
          submit.toList)
    | .step => .container attributes .step (sortByRank (childrenOf members))
    | .group => .container attributes .group (sortByRank (childrenOf members))
    | .repeating =>
      .container attributes
        (.repeating ⟨(Json.naturalMember? members "min_repetitions").getD 0,
          Json.naturalMember? members "max_repetitions"⟩)
        (sortByRank (childrenOf members))
    | .field kind => .field attributes (FieldTraits.ofMembers kind members)
    | .content => .content attributes (Json.textMember members "content")
  | _ => .container (Attributes.ofMembers []) .group []

def childrenOf : List (String × Json) → List Element
  | [] => []
  | (key, value) :: rest =>
    if key == "children" then elementsOf value else childrenOf rest

def elementsOf : Json → List Element
  | .array items => ofItems items
  | _ => []

def ofItems : List Json → List Element
  | [] => []
  | item :: rest => ofJson item :: ofItems rest

def fixedStep? (name : String) : List (String × Json) → Option Element
  | [] => none
  | (key, value) :: rest =>
    if key == name then (if value.isObject then some (asStep (ofJson value)) else none)
    else fixedStep? name rest

end

end Element

/-! ## Writing -/

def optionalMember (key : String) (value : Option Json) : List (String × Json) :=
  match value with
  | none => []
  | some value => [(key, value)]

def Attributes.toMembers (a : Attributes) : List (String × Json) :=
  [("id", .string a.id), ("label", .string a.label)] ++
    optionalMember "weight" (a.weight.map .int) ++
    optionalMember "visibility" (a.visibility.map Expression.toJson) ++
    optionalMember "patch" (a.patch.map Expression.toJson)

def Constraint.toJson (c : Constraint) : Json :=
  .object (optionalMember "pattern" (c.pattern.map .string) ++
    optionalMember "min_len" (c.minLength.map Json.ofNat) ++
    optionalMember "max_len" (c.maxLength.map Json.ofNat) ++
    optionalMember "min" (c.min.map .float) ++
    optionalMember "max" (c.max.map .float))

def FieldTraits.toMembers (t : FieldTraits) : List (String × Json) :=
  [("field_type", .string t.kind.name), ("required", .bool t.required)] ++
    optionalMember "constraint" (t.constraint.map Constraint.toJson) ++
    optionalMember "validation" (t.validation.map Expression.toJson) ++
    optionalMember "validation_message" (t.validationMessage.map .string) ++
    optionalMember "compute_value" (t.compute.map Expression.toJson)

def RootSteps.members (steps : RootSteps) (children : List Json) : List (String × Json) :=
  let fixed (present : Bool) : Nat := if present then 1 else 0
  let first := fixed steps.introduction
  let last := fixed steps.summary + fixed steps.submit
  let trailing := children.drop (children.length - last)
  let regular := (children.drop first).take (children.length - last - first)
  optionalMember "introduction" (if steps.introduction then children.head? else none) ++
    [("children", .array regular)] ++
    optionalMember "summary" (if steps.summary then trailing.head? else none) ++
    optionalMember "submit" (if steps.submit then trailing.getLast? else none)

mutual

def Element.toJson : Element → Json
  | .container attributes kind children =>
    let stored := Element.toJsonAll children
    let members := match kind with
      | .root steps => steps.members stored
      | .step => [("children", .array stored)]
      | .group => [("children", .array stored)]
      | .repeating bounds =>
        [("children", .array stored), ("min_repetitions", Json.ofNat bounds.min)] ++
          optionalMember "max_repetitions" (bounds.max.map Json.ofNat)
    .object (("type", .string kind.name) :: attributes.toMembers ++ members)
  | .field attributes traits =>
    .object (("type", .string "field") :: attributes.toMembers ++ traits.toMembers)
  | .content attributes text =>
    .object (("type", .string "content") :: attributes.toMembers ++ [("content", .string text)])

def Element.toJsonAll : List Element → List Json
  | [] => []
  | e :: rest => Element.toJson e :: Element.toJsonAll rest

end

end FormDerivation
