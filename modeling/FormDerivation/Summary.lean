import FormDerivation.Derivation.State
import FormDerivation.Json.Printer
import FormDerivation.Value

/-!
Summaries of derived forms: the visible fields in document order, with repetitions expanded.

A row stands for an instance of an element that is a field once overrides are applied.  Nothing
below an instance that is not visible has a row.
-/

namespace FormDerivation

structure SummaryRow where
  key : String
  label : String
  value : Option Json
  error : Option String
  depth : Nat
  deriving Repr, Inhabited

namespace Summary

def eachRow {α : Type} (key : String) (f : String → List α) (count : Nat) : List α :=
  (List.range count).flatMap fun index => f (rowScope key index)

def rowOf (state : FormState) (key : String) (depth : Nat) (effective : Element) : SummaryRow where
  key
  label := effective.label
  value := state.values.get? key
  error := state.errors.get? key
  depth

def leafRows (state : FormState) (scope : Option String) (depth : Nat) (e : Element) :
    List SummaryRow :=
  let key := scopedKey scope e.id
  let effective := (state.overrides.get? key).getD e
  if state.isVisible key && effective.isField then [rowOf state key depth effective] else []

mutual

def rowsFrom (state : FormState) (scope : Option String) (depth : Nat) :
    Element → List SummaryRow
  | .container attributes kind children =>
    let key := scopedKey scope attributes.id
    if !state.isVisible key then []
    else
      match state.overrides.get? key with
      | some (.field replaced traits) => [rowOf state key depth (.field replaced traits)]
      | _ =>
        match kind with
        | .repeating _ =>
          eachRow key (fun row => rowsFromAll state (some row) (depth + 1) children)
            ((state.repetitions.get? key).getD 0)
        | _ => rowsFromAll state scope (depth + 1) children
  | .field attributes traits => leafRows state scope depth (.field attributes traits)
  | .content attributes text => leafRows state scope depth (.content attributes text)

def rowsFromAll (state : FormState) (scope : Option String) (depth : Nat) :
    List Element → List SummaryRow
  | [] => []
  | e :: rest => rowsFrom state scope depth e ++ rowsFromAll state scope depth rest

end

def rows (tree : Element) (state : FormState) : List SummaryRow :=
  rowsFrom state none 0 tree

def status (state : FormState) : String :=
  if state.isValid then "valid" else "invalid"

/-! ## Text -/

mutual

/-- A value as text: entries of a list with commas between them, other values as they are stored. -/
def displayValue : Json → String
  | .null => ""
  | .string text => text
  | .array items => Text.joinWith ", " (displayItems items)
  | other => other.compact

def displayItems : List Json → List String
  | [] => []
  | item :: rest => displayValue item :: displayItems rest

end

def indentation (depth : Nat) : String :=
  String.ofList (List.replicate (2 * (depth - 1)) ' ')

def rowLines (row : SummaryRow) : List String :=
  let indent := indentation row.depth
  let label := if row.label = "" then row.key else row.label
  let value := (row.value.map displayValue).getD ""
  (indent ++ label ++ ": " ++ value) ::
    (row.error.toList.map fun error => indent ++ "  ! " ++ error)

def failureLine (failure : StepFailure) : String :=
  "Failure: " ++ failure.step ++ " of " ++ failure.key ++ ": " ++ failure.message

def text (tree : Element) (state : FormState) : String :=
  Text.joinWith "\n" <|
    ["Form: " ++ tree.label ++ " (" ++ tree.id ++ ")",
      "Status: " ++ status state ++ " (" ++ toString state.errors.size ++ " error(s))"] ++
    (rows tree state).flatMap rowLines ++ state.failures.map failureLine

/-! ## Stored form -/

def rowToJson (row : SummaryRow) : Json :=
  .object ([("depth", Json.ofNat row.depth)] ++
    optionalMember "error" (row.error.map .string) ++
    [("key", .string row.key), ("label", .string row.label),
      ("value", row.value.getD .null)])

def toJson (tree : Element) (state : FormState) : Json :=
  .object [
    ("errors", Json.ofMap (state.errors.mapValues fun _ message => .string message)),
    ("failures", .array (state.failures.map fun failure =>
      .object [("key", .string failure.key), ("message", .string failure.message),
        ("step", .string failure.step)])),
    ("form_id", .string tree.id),
    ("form_label", .string tree.label),
    ("rows", .array ((rows tree state).map rowToJson)),
    ("status", .string (status state))]

end Summary

end FormDerivation
