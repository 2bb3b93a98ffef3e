/-!
What can go wrong while operators and host functions are registered.
-/

namespace FormDerivation

def maxHostArity : Nat := 4

inductive RegistrationError where
  | duplicateOperator (identifier : String)
  | duplicateProvider (name : String)
  | duplicateHostFunction (provider function : String)
  | unsupportedArity (provider function : String) (arity : Nat)
  | invalidPackage (package : String)
  | secretsPolicy (message : String)
  deriving DecidableEq, Repr

def RegistrationError.message : RegistrationError → String
  | .duplicateOperator identifier => "operator '" ++ identifier ++ "' is registered twice"
  | .duplicateProvider name => "host provider '" ++ name ++ "' is registered twice"
  | .duplicateHostFunction provider function =>
    "host provider '" ++ provider ++ "' exports '" ++ function ++ "' twice"
  | .unsupportedArity provider function arity =>
    "host function '" ++ provider ++ "::" ++ function ++ "' takes " ++ toString arity ++
      " arguments, at most " ++ toString maxHostArity ++ " are supported"
  | .invalidPackage package => "invalid provider package '" ++ package ++ "'"
  | .secretsPolicy message => "invalid secrets policy: " ++ message

end FormDerivation
