import FormDerivation.Derivation.Error
import FormDerivation.Derivation.State
import FormDerivation.Operator.Evaluation
import FormDerivation.Script.Engine
import FormDerivation.Validation

/-!
The walk of a derivation.

Every element is visited before its children: it is patched, its visibility is decided, and if it
is a visible field its value is computed and validated.  The children of a repeating container are
visited once for each repetition.  Below a hidden element everything is marked hidden and nothing
is evaluated.
-/

namespace FormDerivation

/-- An element of the form at its place: inside a repetition `scope` is the key prefix of it. -/
structure Site where
  id : String
  scope : Option String
  deriving DecidableEq, Repr

def Site.key (site : Site) : String :=
  scopedKey site.scope site.id

structure Walk where
  state : FormState
  scripts : ScriptEngine
  /-- Whether scripts see values that have changed since. -/
  stale : Bool

structure WalkSetting where
  operators : OperatorRegistry
  config : Configuration

abbrev WalkM := StateT Walk (Except DerivationError)

namespace Walk

def start (scripts : ScriptEngine) (inputs : KeyMap Json) : Walk :=
  ⟨.ofInputs inputs, scripts, true⟩

/-! ## Expressions -/

def row (values : KeyMap Json) : Option String → KeyMap Json
  | none => KeyMap.empty
  | some scope =>
    KeyMap.ofList (values.toList.filterMap fun (key, value) =>
      (Text.dropBeginning? (scope ++ "_").toList key.toList).map fun rest =>
        (String.ofList rest, value))

def siteToJson (site : Site) : Json :=
  .ofMembers [
    ("id", .string site.id),
    ("key", .string site.key),
    ("prefix", (site.scope.map Json.string).getD .null)]

def publishData (walk : Walk) : Except ScriptError Walk :=
  if walk.stale then do
    .ok { walk with
      scripts := ← walk.scripts.register "data" (.ofMap walk.state.values)
      stale := false }
  else .ok walk

def publish (walk : Walk) (site : Site) : Except ScriptError Walk := do
  let walk ← walk.publishData
  let scripts ← walk.scripts.register "row" (.ofMap (row walk.state.values site.scope))
  .ok { walk with scripts := ← scripts.register "element" (siteToJson site) }

def evaluate (setting : WalkSetting) (walk : Walk) (site : Site) :
    Expression → Except ExpressionError Json × Walk
  | .formula formula =>
    let result := formula.evaluate setting.operators walk.state.values site.scope
    ((result.map (·.value)).mapError .formula, walk)
  | .script code =>
    match walk.publish site with
    | .error error => (.error (.script error), walk)
    | .ok walk =>
      let (result, scripts) := walk.scripts.evaluate code
      (result.mapError .script, { walk with scripts })
  | .malformed _ reason => (.error (.formula (.malformedExpression reason)), walk)

/-! ## Changes of the state -/

def recordFailure (site : Site) (step : DerivationStep) (error : ExpressionError) (walk : Walk) :
    Walk :=
  let failure : StepFailure := ⟨site.key, step.name, error.message⟩
  { walk with state := { walk.state with failures := walk.state.failures ++ [failure] } }

def markVisibility (key : String) (visible : Bool) (walk : Walk) : Walk :=
  { walk with state :=
      { walk.state with visibilities := walk.state.visibilities.insert key visible } }

@[simp] theorem markVisibility_state (key : String) (visible : Bool) (walk : Walk) :
    (markVisibility key visible walk).state =
      { walk.state with visibilities := walk.state.visibilities.insert key visible } := rfl

def setValue (key : String) (value : Json) (walk : Walk) : Walk :=
  { walk with
    state := { walk.state with values := walk.state.values.insert key value }
    stale := true }

@[simp] theorem setValue_state (key : String) (value : Json) (walk : Walk) :
    (setValue key value walk).state =
      { walk.state with values := walk.state.values.insert key value } := rfl

def recordError (key message : String) (walk : Walk) : Walk :=
  { walk with state := { walk.state with errors := walk.state.errors.insert key message } }

@[simp] theorem recordError_state (key message : String) (walk : Walk) :
    (recordError key message walk).state =
      { walk.state with errors := walk.state.errors.insert key message } := rfl

def recordOverride (key : String) (replacement : Element) (walk : Walk) : Walk :=
  { walk with state :=
      { walk.state with overrides := walk.state.overrides.insert key replacement } }

@[simp] theorem recordOverride_state (key : String) (replacement : Element) (walk : Walk) :
    (recordOverride key replacement walk).state =
      { walk.state with overrides := walk.state.overrides.insert key replacement } := rfl

def recordCount (key : String) (count : Nat) (walk : Walk) : Walk :=
  { walk with state :=
      { walk.state with repetitions := walk.state.repetitions.insert key count } }

@[simp] theorem recordCount_state (key : String) (count : Nat) (walk : Walk) :
    (recordCount key count walk).state =
      { walk.state with repetitions := walk.state.repetitions.insert key count } := rfl

/-! ## Repetitions -/

def repetitions (policy : RepetitionPolicy) (bounds : RepetitionBounds) (value : Option Json) :
    Nat :=
  let requested :=
    match value with
    | some (.array rows) => rows.length
    | some value => value.natural?.getD policy.standard
    | none => policy.standard
  min (max requested bounds.min) (bounds.max.getD policy.max)

def rowEntries (key : String) (rows : List Json) : List (String × Json) :=
  rows.zipIdx.flatMap fun (row, index) =>
    match row with
    | .object members =>
      members.map fun (field, value) => (scopedKey (some (rowScope key index)) field, value)
    | _ => []

/-- Adds an entry of a row unless there is a value under its key. -/
def addEntry (walk : Walk) (entry : String × Json) : Walk :=
  if walk.state.values.contains entry.1 then walk else walk.setValue entry.1 entry.2

def expandRows (key : String) (count : Nat) (walk : Walk) : Walk :=
  match walk.state.values.get? key with
  | some (.array rows) => (rowEntries key (rows.take count)).foldl addEntry walk
  | _ => walk

/-! ## Steps -/

def value (setting : WalkSetting) (site : Site) (e : Expression) :
    WalkM (Except ExpressionError Json) := do
  let (result, walk) := (← get).evaluate setting site e
  set walk
  return result

/--
The result of a step, or what stands in for it: where failures are tolerated a failed step is
recorded, otherwise the derivation stops.
-/
def settle {α : Type} (setting : WalkSetting) (site : Site) (step : DerivationStep)
    (result : Except ExpressionError α) (fallback : α) : WalkM α := do
  match result, setting.config.failurePolicy with
  | .ok a, _ => return a
  | .error cause, .abort => throw ⟨site.key, step, cause⟩
  | .error cause, .degrade =>
    modify (recordFailure site step cause)
    return fallback

def replacement (e : Element) (overlay : KeyMap Json) : Element :=
  let own := (e.toJson.object?).getD KeyMap.empty
  .ofJson (.ofMap ((own.insertAll overlay.toList).insertIfNew "id" (.string e.id)))

def patch (setting : WalkSetting) (site : Site) (e : Element) : WalkM (Option Element) := do
  match e.attributes.patch with
  | none => return none
  | some expression =>
    let result ← settle setting site .patch (← value setting site expression) .null
    match result.object? with
    | none => return none
    | some overlay =>
      let element := replacement e overlay
      modify (recordOverride site.key element)
      return some element

/-- Whether an element is visible; without an expression that decides it, it is. -/
def visibility (setting : WalkSetting) (site : Site) (e : Element) : WalkM Bool := do
  match e.attributes.visibility with
  | none => return true
  | some expression =>
    let result := (← value setting site expression).map fun v => (truthiness v).getD true
    settle setting site .visibility result false

def compute (setting : WalkSetting) (site : Site) (field : FieldTraits) : WalkM Unit := do
  match field.compute with
  | none => return
  | some expression =>
    let result := (← value setting site expression).map some
    match ← settle setting site .compute result none with
    | none => return
    | some v => modify (setValue site.key v)

def violation? (setting : WalkSetting) (site : Site) (field : FieldTraits)
    (expression : Expression) : WalkM (Option Violation) := do
  match ← value setting site expression with
  | .ok result => return field.interpret result
  | .error error =>
    modify (recordFailure site .validate error)
    return some (.notEvaluated error.message)

/-- Checks the value of a field; a failure never stops the derivation. -/
def validate (setting : WalkSetting) (site : Site) (field : FieldTraits) : WalkM Unit := do
  let violation ←
    match field.check ((← get).state.values.get? site.key), field.validation with
    | some violation, _ => pure (some violation)
    | none, some expression => violation? setting site field expression
    | none, none => pure none
  match violation with
  | some violation => modify (recordError site.key violation.message)
  | none => return

def forRows (key : String) (visit : String → WalkM Unit) : Nat → WalkM Unit
  | 0 => return
  | count + 1 => do
    forRows key visit count
    visit (rowScope key count)

def countAt (setting : WalkSetting) (bounds : RepetitionBounds) (key : String) : WalkM Nat := do
  return repetitions setting.config.repetition bounds ((← get).state.values.get? key)

def hideWithin (setting : WalkSetting) (scope : Option String) (id : String) (kind : Container)
    (inner : Option String → WalkM Unit) : WalkM Unit := do
  match kind with
  | .repeating bounds =>
    let key := scopedKey scope id
    forRows key (fun row => inner (some row)) (← countAt setting bounds key)
  | _ => inner scope

def visitWithin (setting : WalkSetting) (scope : Option String) (id : String) (kind : Container)
    (inner : Option String → WalkM Unit) : WalkM Unit := do
  match kind with
  | .repeating bounds =>
    let key := scopedKey scope id
    let count ← countAt setting bounds key
    modify (expandRows key count)
    modify (recordCount key count)
    forRows key (fun row => inner (some row)) count
  | _ => inner scope

/-! ## Hidden elements -/

mutual

def hide (setting : WalkSetting) (scope : Option String) : Element → WalkM Unit
  | .container attributes kind children => do
    modify (markVisibility (scopedKey scope attributes.id) false)
    hideWithin setting scope attributes.id kind fun scope => hideAll setting scope children
  | .field attributes _ => modify (markVisibility (scopedKey scope attributes.id) false)
  | .content attributes _ => modify (markVisibility (scopedKey scope attributes.id) false)

def hideAll (setting : WalkSetting) (scope : Option String) : List Element → WalkM Unit
  | [] => return
  | e :: rest => do
    hide setting scope e
    hideAll setting scope rest

end

/-! ## The walk -/

/--
Patches an element, decides its visibility and, if it is a visible field, derives its value;
returns whether it is visible.
-/
def enter (setting : WalkSetting) (scope : Option String) (e : Element) : WalkM Bool := do
  let site : Site := ⟨e.id, scope⟩
  let effective := (← patch setting site e).getD e
  let visible ← visibility setting site effective
  modify (markVisibility site.key visible)
  match visible, effective with
  | true, .field _ field =>
    compute setting site field
    validate setting site field
  | _, _ => pure ()
  return visible

mutual

/-- Visits an element and what is stored below it, also where a patch has replaced it. -/
def visit (setting : WalkSetting) (scope : Option String) : Element → WalkM Unit
  | .container attributes kind children => do
    if ← enter setting scope (.container attributes kind children) then
      visitWithin setting scope attributes.id kind fun scope => visitAll setting scope children
    else hideWithin setting scope attributes.id kind fun scope => hideAll setting scope children
  | .field attributes field => discard (enter setting scope (.field attributes field))
  | .content attributes text => discard (enter setting scope (.content attributes text))

def visitAll (setting : WalkSetting) (scope : Option String) : List Element → WalkM Unit
  | [] => return
  | e :: rest => do
    visit setting scope e
    visitAll setting scope rest

end

end Walk

end FormDerivation
