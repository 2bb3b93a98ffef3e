import FormDerivation.Script.Error
import FormDerivation.Value

/-!
Conversions of the results of scripts, requested by their users.
-/

namespace FormDerivation.ScriptResult

def refuse {α : Type} (expected : String) (result : Json) : Except ScriptError α :=
  .error (.conversion expected (describe result))

/-- A result as a truth value; only truth values convert. -/
def toBool (result : Json) : Except ScriptError Bool :=
  match result with
  | .bool b => .ok b
  | _ => refuse "boolean" result

/-- A result as a number; a text that spells a number converts. -/
def toNumber (result : Json) : Except ScriptError Float :=
  match result with
  | .string text =>
    match Decimal.ofText? (Text.trim text) with
    | some x => .ok x
    | none => refuse "number" result
  | _ =>
    match result.number? with
    | some x => .ok x
    | none => refuse "number" result

/-- A result as a text; `null`, lists and objects do not convert. -/
def toText (result : Json) : Except ScriptError String :=
  match result with
  | .string text => .ok text
  | .bool b => .ok (if b then "true" else "false")
  | .int n => .ok (toString n)
  | .float x => .ok (Decimal.Layout.json.write x)
  | _ => refuse "string" result

end FormDerivation.ScriptResult
