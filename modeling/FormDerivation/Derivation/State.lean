import FormDerivation.Element.Stored

/-!
The result of a derivation.

All maps of a state are by element key: the id of the element, inside repetitions behind the key of
the container and the number of the repetition.
-/

namespace FormDerivation

open Json (Shape Mismatch)

structure StepFailure where
  key : String
  step : String
  message : String
  deriving DecidableEq, Repr, Inhabited

structure FormState where
  visibilities : KeyMap Bool
  /-- The inputs with computed values applied. -/
  values : KeyMap Json
  errors : KeyMap String
  overrides : KeyMap Element
  repetitions : KeyMap Nat
  failures : List StepFailure

namespace FormState

def ofInputs (inputs : KeyMap Json) : FormState where
  visibilities := KeyMap.empty
  values := inputs
  errors := KeyMap.empty
  overrides := KeyMap.empty
  repetitions := KeyMap.empty
  failures := []

instance : Inhabited FormState := ⟨ofInputs KeyMap.empty⟩

/-- A key that was not visited counts as visible. -/
def isVisible (state : FormState) (key : String) : Bool :=
  (state.visibilities.get? key).getD true

def visibleValues (state : FormState) : KeyMap Json :=
  state.values.filter fun key _ => state.isVisible key

def isValid (state : FormState) : Bool :=
  state.errors.isEmpty

/-! ## Stored form -/

def failureFields : List (String × Bool × Shape) :=
  [("key", true, .text), ("step", true, .text), ("message", true, .text)]

def fields : List (String × Bool × Shape) :=
  [("visibilities", true, .map .flag),
    ("values", true, .map .any),
    ("errors", true, .map .text),
    ("overrides", true, .map .any),
    ("repetitions", true, .map (.natural "usize")),
    ("failures", false, .list (.record "DerivationFailure" failureFields))]

def shape : Shape :=
  .record "FormState" fields

def mapMember {α : Type} (members : List (String × Json)) (key : String)
    (f : Json → Option α) : KeyMap α :=
  match KeyMap.lookupEntry key members with
  | some (.object entries) =>
    KeyMap.ofList (entries.filterMap fun (name, value) => (f value).map fun a => (name, a))
  | _ => KeyMap.empty

def readFailure (j : Json) : StepFailure :=
  let members := j.recordMembers failureFields
  ⟨Json.textMember members "key", Json.textMember members "step",
    Json.textMember members "message"⟩

def ofShaped (j : Json) : FormState :=
  let members := j.recordMembers fields
  { visibilities := mapMember members "visibilities" Json.bool?
    values := mapMember members "values" some
    errors := mapMember members "errors" Json.string?
    overrides := mapMember members "overrides" fun j => some (Element.ofJson j)
    repetitions := mapMember members "repetitions" Json.natural?
    failures := (((KeyMap.lookupEntry "failures" members).bind Json.array?).getD []).map
      readFailure }

def ofJson (j : Json) : Except Mismatch FormState :=
  match Shape.mismatch? j shape with
  | some cause => .error cause
  | none => .ok (ofShaped j)

def failureToJson (failure : StepFailure) : Json :=
  .object [("key", .string failure.key), ("step", .string failure.step),
    ("message", .string failure.message)]

/-- The stored form of a state; without failures, their list is left out. -/
def toJson (state : FormState) : Json :=
  .object ([
    ("visibilities", Json.ofMap (state.visibilities.mapValues fun _ visible => .bool visible)),
    ("values", Json.ofMap state.values),
    ("errors", Json.ofMap (state.errors.mapValues fun _ message => .string message)),
    ("overrides", Json.ofMap (state.overrides.mapValues fun _ e => e.toJson)),
    ("repetitions", Json.ofMap (state.repetitions.mapValues fun _ count => Json.ofNat count))] ++
    (if state.failures.isEmpty then []
      else [("failures", .array (state.failures.map failureToJson))]))

end FormState

end FormDerivation
