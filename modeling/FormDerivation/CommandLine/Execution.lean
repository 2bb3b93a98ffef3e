import FormDerivation.CommandLine.Help
import FormDerivation.Engine
import FormDerivation.Host.Secrets
import FormDerivation.Host.Text
import FormDerivation.References
import FormDerivation.Schema
import FormDerivation.Summary

/-!
What the program does for a request, over the contents of its files and the environment.
-/

namespace FormDerivation.CommandLine

structure Outcome where
  status : Nat
  output : String
  complaint : Option String
  deriving DecidableEq, Repr

namespace Outcome

def success (text : String) : Outcome :=
  ⟨0, text ++ "\n", none⟩

def failure (complaint : String) : Outcome :=
  ⟨1, "", some complaint⟩

def misuse : Outcome :=
  ⟨2, "", some "wrong usage, see --help"⟩

def ofExcept : Except String Outcome → Outcome
  | .ok outcome => outcome
  | .error complaint => failure complaint

end Outcome

structure Surrounding where
  files : List (String × String)
  environment : List (String × String)

def secretBeginning : String := "FORM_SECRET_"

def versionLine : String := "form-derive 0.3.0"

/-! ## Files -/

def readFile (surrounding : Surrounding) (path : String) : Except String String :=
  match surrounding.files.lookup path with
  | some text => .ok text
  | none => .error ("cannot read " ++ path)

def readJson (surrounding : Surrounding) (path : String) : Except String Json := do
  (Json.parse (← readFile surrounding path)).mapError Json.Fault.message

def readTree (surrounding : Surrounding) (path : String) : Except String Element := do
  .ok (.ofJson (← readJson surrounding path))

/-- The object in a file; `null` counts as an empty one. -/
def readObject (surrounding : Surrounding) (path : String) : Except String (KeyMap Json) := do
  match ← readJson surrounding path with
  | .null => .ok KeyMap.empty
  | j =>
    match j.object? with
    | some object => .ok object
    | none => .error (path ++ " must contain a JSON object")

def readOptionalObject (surrounding : Surrounding) :
    Option String → Except String (KeyMap Json)
  | some path => readObject surrounding path
  | none => .ok KeyMap.empty

def readConfiguration (surrounding : Surrounding) : Option String → Except String Configuration
  | some path => do
    (Configuration.parse (← readFile surrounding path)).mapError Json.Fault.message
  | none => .ok {}

def buildEngine (surrounding : Surrounding) (config : Option String) :
    Except String FormEngine := do
  let config ← readConfiguration surrounding config
  let values := SecretStore.ofEnvironment secretBeginning surrounding.environment
  let store ← (SecretStore.ofPolicy values config.secrets).mapError RegistrationError.message
  let host ← (HostRegistry.ofProviders [HostProvider.text, store.provider]).mapError
    RegistrationError.message
  .ok ⟨.builtin, host, config⟩

/-! ## Commands -/

def formatted (format : OutputFormat) (tree : Element) (state : FormState) : String :=
  match format with
  | .json => (Summary.toJson tree state).pretty
  | .text => Summary.text tree state
  | .state => state.toJson.pretty

def runDerive (surrounding : Surrounding) (tree inputs : String) (globals config : Option String)
    (format : OutputFormat) : Except String Outcome := do
  let tree ← readTree surrounding tree
  let inputs ← readObject surrounding inputs
  let globals ← readOptionalObject surrounding globals
  let engine ← buildEngine surrounding config
  let state ← (engine.derive tree inputs globals).mapError DerivationError.message
  .ok (.success (formatted format tree state))

def validationLines (state : FormState) : List String :=
  let errors := state.errors.toList.map fun (key, message) => "  " ++ key ++ " - " ++ message
  let degraded := state.failures.map fun failure =>
    "  " ++ failure.key ++ " (" ++ failure.step ++ ") - " ++ failure.message
  ["Validation result: " ++ (if state.isValid then "valid" else "invalid")] ++
    (if errors.isEmpty then [] else "Errors:" :: errors) ++
    (if degraded.isEmpty then [] else "Degraded:" :: degraded)

def runValidate (surrounding : Surrounding) (tree inputs : String) (config : Option String) :
    Except String Outcome := do
  let tree ← readTree surrounding tree
  let inputs ← readObject surrounding inputs
  let engine ← buildEngine surrounding config
  let state ← (engine.derive tree inputs KeyMap.empty).mapError DerivationError.message
  let report := Outcome.success (Text.joinWith "\n" (validationLines state))
  .ok (if state.isValid then report
    else { report with status := 1, complaint := some "validation failed" })

def runReferences (surrounding : Surrounding) (tree : String) : Except String Outcome := do
  let tree ← readTree surrounding tree
  .ok (.success (ReferenceReport.ofTree tree).toJson.pretty)

def Request.run (surrounding : Surrounding) : Request → Outcome
  | .version => .success versionLine
  | .help long => .success (Help.program long)
  | .commandHelp name => (Help.command? name).elim .misuse .success
  | .derive tree inputs globals config format =>
    .ofExcept (runDerive surrounding tree inputs globals config format)
  | .validate tree inputs config => .ofExcept (runValidate surrounding tree inputs config)
  | .operators => .success (Json.array OperatorRegistry.builtin.catalog).pretty
  | .references tree => .ofExcept (runReferences surrounding tree)
  | .schema .config => .success Configuration.schema.pretty
  | .schema .state => .success FormState.schema.pretty

def run (arguments : List String) (surrounding : Surrounding) : Outcome :=
  match Request.parse? arguments with
  | some request => request.run surrounding
  | none => .misuse

end FormDerivation.CommandLine
