import FormDerivation.Derivation.Walk

/-!
The form engine: one derivation after the other, none of which knows of the others.
-/

namespace FormDerivation

structure FormEngine where
  operators : OperatorRegistry
  host : HostRegistry
  config : Configuration

namespace FormEngine

def prepare (scripts : ScriptEngine) : List (String × Json) → Except ScriptError ScriptEngine
  | [] => .ok scripts
  | (name, value) :: rest =>
    match scripts.register name value with
    | .ok scripts => prepare scripts rest
    | .error error => .error error

/--
The state of a form with inputs.  Scripts also see the globals, except those with the names of the
values, the row and the element, which the derivation gives them itself.
-/
def derive (engine : FormEngine) (tree : Element) (inputs : KeyMap Json)
    (globals : KeyMap Json) : Except DerivationError FormState :=
  match prepare (.fresh engine.host engine.config.script) globals.toList with
  | .error error => .error ⟨tree.id, .prepare, .script error⟩
  | .ok scripts =>
    match (Walk.visit ⟨engine.operators, engine.config⟩ none tree).run (.start scripts inputs) with
    | .error error => .error error
    | .ok (_, walk) => .ok walk.state

end FormEngine

end FormDerivation
