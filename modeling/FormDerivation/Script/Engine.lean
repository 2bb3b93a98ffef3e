import FormDerivation.Script.Evaluation
import FormDerivation.Script.Parser

/-!
A script engine: globals, host functions and limits for one script after the other.

Every evaluation starts from the globals alone, which are constants in it; sources that have been
read once are kept.  A failing call of a host function leaves its report in the engine until the
next evaluation, and a failing script is classified by that report if there is one.
-/

namespace FormDerivation

open Script

structure ScriptEngine where
  host : HostRegistry
  limits : ScriptLimits
  globals : KeyMap Value
  compiled : List (String × Program)
  hostFailure : Option ScriptError

namespace ScriptEngine

def fresh (host : HostRegistry) (limits : ScriptLimits) : ScriptEngine where
  host := host
  limits := limits
  globals := ∅
  compiled := []
  hostFailure := none

/-- Whether a text can name a global: ASCII letters, digits and underscores, no digit first. -/
def isGlobalName (name : String) : Bool :=
  match name.toList with
  | c :: rest => isNameStart c && rest.all isNameChar
  | [] => false

def register (engine : ScriptEngine) (name : String) (value : Json) :
    Except ScriptError ScriptEngine :=
  if isGlobalName name then
    .ok { engine with globals := engine.globals.insert name (Value.ofJson value) }
  else .error (.invalidGlobal name)

/-- The program of a source, read only once. -/
def compile (engine : ScriptEngine) (code : String) :
    Except ScriptError (Program × ScriptEngine) :=
  match engine.compiled.lookup code with
  | some program => .ok (program, engine)
  | none =>
    match Program.parse engine.limits code with
    | .ok program =>
      .ok (program, { engine with compiled := (code, program) :: engine.compiled })
    | .error fault => .error (.compile (Fault.placed "no script" fault.pos))

def scope (engine : ScriptEngine) : List Variable :=
  engine.globals.toList.map fun (name, value) => ⟨name, value, true⟩

theorem find?_scope (engine : ScriptEngine) (name : String) :
    engine.scope.find? (·.name == name) =
      (engine.globals.get? name).map fun value => ⟨name, value, true⟩ := by
  rw [scope, KeyMap.get?]
  induction engine.globals.toList with
  | nil => rfl
  | cons entry rest ih =>
      rw [List.map_cons, List.find?_cons, KeyMap.lookupEntry, ih]
      by_cases h : name = entry.1
      · simp [h]
      · have hother : (entry.1 == name) = false := beq_eq_false_iff_ne.mpr (Ne.symm h)
        simp [h, hother]

/--
Steps that suffice for a run: some for each operation that the limits allow and, between two
operations, some for each character of the source.
-/
def stepsFor (limits : ScriptLimits) (code : String) : Nat :=
  8 * (Run.allowance limits + limits.maxCallLevels + 2) * (code.length + 8)

def run (engine : ScriptEngine) (program : Program) (code : String) :
    Except Interruption Value × Run :=
  let ctx : Context := ⟨program, engine.host, engine.limits, 0⟩
  Eval.statements (stepsFor engine.limits code) ctx program.body ⟨engine.scope, #[], 0, none⟩

def classify (limits : ScriptLimits) (failure : Failure) (report : Option ScriptError) :
    ScriptError :=
  match report with
  | some report => report
  | none =>
    match failure.fault with
    | .outOfOperations => .budgetExhausted limits.maxOperations
    | .outOfTime => .timedOut limits.timeoutMs
    | _ => .runtime failure.message

def stored (value : Value) : Except ScriptError Json :=
  match value.toJson with
  | .ok j => .ok j
  | .error description => .error (.value description)

def outcome (limits : ScriptLimits) (report : Option ScriptError) :
    Except Interruption Value → Except ScriptError Json
  | .ok value => stored value
  | .error (.answer value) => stored value
  | .error (.exit value) => stored value
  | .error (.leave value) => stored value
  | .error .again => stored .unit
  | .error (.failure failure _) => .error (classify limits failure report)

def evaluate (engine : ScriptEngine) (code : String) :
    Except ScriptError Json × ScriptEngine :=
  match engine.compile code with
  | .error error => (.error error, engine)
  | .ok (program, engine) =>
    let (result, last) := engine.run program code
    let result := result.map last.read
    let left := if result.toOption.isSome then last.hostFailure else none
    (outcome engine.limits last.hostFailure result, { engine with hostFailure := left })

end ScriptEngine

end FormDerivation
