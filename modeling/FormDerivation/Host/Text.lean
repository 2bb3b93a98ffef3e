import FormDerivation.Host.Basic
import FormDerivation.Pattern.Reader

/-!
Text helpers for scripts: the package `forms.text`.
-/

namespace FormDerivation.HostProvider

def textArgument (args : List Json) (index : Nat) : Except HostError String :=
  match args[index]? with
  | some (.string text) => .ok text
  | _ => .error (.failed ("argument " ++ toString index ++ " must be a string"))

def normalizeFunction : HostFunction where
  name := "normalize"
  arity := 1
  call args := do .ok (.string (Text.normalize (← textArgument args 0)))

def matchesFunction : HostFunction where
  name := "matches"
  arity := 2
  call args := do
    let text ← textArgument args 0
    let pattern ← textArgument args 1
    match Pattern.parse pattern with
    | .ok pattern => .ok (.bool (pattern.isMatch text))
    | .error error => .error (.failed ("invalid pattern: " ++ error.message))

def text : HostProvider :=
  ⟨"forms.text", [normalizeFunction, matchesFunction]⟩

end FormDerivation.HostProvider
