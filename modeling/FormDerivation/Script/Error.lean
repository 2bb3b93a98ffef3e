import FormDerivation.Configuration

/-!
Why a script has no result.
-/

namespace FormDerivation

inductive ScriptError where
  | compile (message : String)
  | runtime (message : String)
  | budgetExhausted (operations : Nat)
  | timedOut (milliseconds : Nat)
  | host (provider function message : String)
  | hostTimedOut (provider function : String) (milliseconds : Nat)
  | invalidGlobal (name : String)
  | value (message : String)
  | conversion (expected actual : String)
  deriving DecidableEq, Repr

def ScriptError.message : ScriptError → String
  | .compile message => "script failed to compile: " ++ message
  | .runtime message => "script failed: " ++ message
  | .budgetExhausted operations =>
    "script exceeded its budget of " ++ toString operations ++ " operations"
  | .timedOut milliseconds => "script exceeded its time budget of " ++ durationText milliseconds
  | .host provider function message =>
    "host function " ++ provider ++ "::" ++ function ++ " failed: " ++ message
  | .hostTimedOut provider function milliseconds =>
    "host function " ++ provider ++ "::" ++ function ++ " exceeded " ++ durationText milliseconds
  | .invalidGlobal name => "'" ++ name ++ "' is not a valid global name"
  | .value message => "cannot convert script value: " ++ message
  | .conversion expected actual =>
    "script result is not a " ++ expected ++ ": got " ++ actual

end FormDerivation
