import FormDerivation.Expression.Basic
import FormDerivation.Json.Shape

/-!
The stored form of expressions.

`Expression.ofJson` never fails: what it cannot understand becomes a malformed expression with the
reason.  Formulas and operands may also be stored as arrays of their fields.  `Expression.toJson`
writes the stored form back.
-/

namespace FormDerivation

open Json (Mismatch Found)

/-! ## Reading formulas -/

def Json.requireText : Json → Except Mismatch String
  | .string s => .ok s
  | j => .error (.wrongType (.of j) "a string")

def Operand.kinds : List String :=
  ["static", "reference", "expression"]

def Operand.readKind : Json → Except Mismatch String
  | .string s => if Operand.kinds.contains s then .ok s else .error (.unknownVariant s kinds)
  | j => .error (.wrongType (.of j) "variant identifier")

def Json.requireEnd (expected : Nat) (surplus : List Json) : Except Mismatch Unit :=
  if surplus.isEmpty then .ok ()
  else .error (.wrongLength (expected + surplus.length)
    (Json.countElements expected ++ " in sequence"))

structure Formula.Fields where
  operator : Option String
  operands : Option (List Operand)

def Formula.Fields.formula (fields : Formula.Fields) : Except Mismatch Formula :=
  match fields.operator with
  | none => .error (.missingField "operator")
  | some operator => .ok (.apply operator (fields.operands.getD []))

mutual

def Formula.read : Json → Except Mismatch Formula
  | .object members =>
    match Formula.readFields members with
    | .error cause => .error cause
    | .ok fields => fields.formula
  | .array [] => .error (.wrongLength 0 "struct NoCodeExpression with 2 elements")
  | .array [operator] => do .ok (.apply (← operator.requireText) [])
  | .array (operator :: operands :: surplus) =>
    match operator.requireText with
    | .error cause => .error cause
    | .ok operator =>
      match Operand.readList operands with
      | .error cause => .error cause
      | .ok operands => do
        Json.requireEnd 2 surplus
        .ok (.apply operator operands)
  | j => .error (.wrongType (.of j) "struct NoCodeExpression")

def Formula.readFields : List (String × Json) → Except Mismatch Formula.Fields
  | [] => .ok ⟨none, none⟩
  | (key, value) :: rest =>
    if key == "operator" then
      match value.requireText with
      | .error cause => .error cause
      | .ok operator =>
        match Formula.readFields rest with
        | .error cause => .error cause
        | .ok fields => .ok { fields with operator := fields.operator.or (some operator) }
    else if key == "operands" then
      match Operand.readList value with
      | .error cause => .error cause
      | .ok operands =>
        match Formula.readFields rest with
        | .error cause => .error cause
        | .ok fields => .ok { fields with operands := fields.operands.or (some operands) }
    else Formula.readFields rest

def Operand.readList : Json → Except Mismatch (List Operand)
  | .array items => Operand.readItems items
  | j => .error (.wrongType (.of j) "a sequence")

def Operand.readItems : List Json → Except Mismatch (List Operand)
  | [] => .ok []
  | item :: rest =>
    match Operand.read item with
    | .error cause => .error cause
    | .ok operand =>
      match Operand.readItems rest with
      | .error cause => .error cause
      | .ok operands => .ok (operand :: operands)

def Operand.read : Json → Except Mismatch Operand
  | .object members =>
    match KeyMap.lookupEntry "type" members with
    | none => .error (.missingField "type")
    | some tag =>
      match Operand.readKind tag with
      | .error cause => .error cause
      | .ok kind =>
        if kind == "static" then
          .ok (.constant ((KeyMap.lookupEntry "value" members).getD .null))
        else if kind == "reference" then
          match KeyMap.lookupEntry "id" members with
          | none => .error (.missingField "id")
          | some id => do .ok (.reference (← id.requireText))
        else
          match Operand.readNested members with
          | none => .error (.missingField "expression")
          | some (.error cause) => .error cause
          | some (.ok formula) => .ok (.nested formula)
  | .array [] => .error (.missingField "type")
  | .array [tag] => do
    let kind ← Operand.readKind tag
    if kind == "static" then .ok (.constant .null)
    else if kind == "reference" then
      .error (.wrongLength 0 "struct variant Operand::Reference with 1 element")
    else .error (.wrongLength 0 "struct variant Operand::Expression with 1 element")
  | .array (tag :: field :: surplus) =>
    match Operand.readKind tag with
    | .error cause => .error cause
    | .ok kind =>
      if kind == "static" then do
        Json.requireEnd 1 surplus
        .ok (.constant field)
      else if kind == "reference" then do
        let id ← field.requireText
        Json.requireEnd 1 surplus
        .ok (.reference id)
      else
        match Formula.read field with
        | .error cause => .error cause
        | .ok formula => do
          Json.requireEnd 1 surplus
          .ok (.nested formula)
  | j => .error (.wrongType (.of j) "internally tagged enum Operand")

def Operand.readNested : List (String × Json) → Option (Except Mismatch Formula)
  | [] => none
  | (key, value) :: rest =>
    if key == "expression" then some (Formula.read value) else Operand.readNested rest

end

/-! ## Reading expressions -/

inductive ExpressionKind where
  | script
  | formula
  | other (name : String)
  deriving DecidableEq, Repr

/-- The kind of a name; case, underscores and hyphens do not count. -/
def ExpressionKind.ofName (name : String) : ExpressionKind :=
  let plain := String.ofList
    ((Text.lowerAsciiText name).toList.filter fun c => c != '_' && c != '-')
  if plain == "script" then .script
  else if plain == "nocode" then .formula
  else .other plain

/-- The kind of an expression with given members; without a name, the members decide. -/
def ExpressionKind.ofMembers? (members : List (String × Json)) : Option ExpressionKind :=
  match KeyMap.lookupEntry "kind" members with
  | some (.string name) => some (.ofName name)
  | _ =>
    if (KeyMap.lookupEntry "code" members).isSome then some .script
    else if (KeyMap.lookupEntry "operator" members).isSome then some .formula
    else none

def Expression.ofJson (j : Json) : Expression :=
  match j with
  | .object members =>
    match ExpressionKind.ofMembers? members with
    | none => .malformed j "expression kind is missing"
    | some .script =>
      match KeyMap.lookupEntry "code" members with
      | some (.string code) => .script code
      | none => .script ""
      | some .null => .script ""
      | some _ => .malformed j "script code must be a string"
    | some .formula =>
      match Formula.read j with
      | .ok read => .formula read
      | .error cause => .malformed j cause.message
    | some (.other name) => .malformed j ("unknown expression kind '" ++ name ++ "'")
  | _ => .malformed j "expression must be an object"

/-! ## Writing -/

mutual

def Formula.toJson : Formula → Json
  | .apply operator operands =>
    .object [("operator", .string operator), ("operands", .array (Operand.toJsonAll operands))]

def Operand.toJson : Operand → Json
  | .constant value => .object [("type", .string "static"), ("value", value)]
  | .reference id => .object [("type", .string "reference"), ("id", .string id)]
  | .nested formula =>
    .object [("type", .string "expression"), ("expression", Formula.toJson formula)]

def Operand.toJsonAll : List Operand → List Json
  | [] => []
  | operand :: rest => Operand.toJson operand :: Operand.toJsonAll rest

end

def Expression.toJson : Expression → Json
  | .script code => .object [("kind", .string "script"), ("code", .string code)]
  | .formula (.apply operator operands) =>
    .object [("kind", .string "no_code"), ("operator", .string operator),
      ("operands", .array (Operand.toJsonAll operands))]
  | .malformed raw reason =>
    .object [("kind", .string "malformed"), ("raw", raw), ("reason", .string reason)]

end FormDerivation
