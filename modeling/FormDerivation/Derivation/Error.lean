import FormDerivation.Operator.Basic
import FormDerivation.Script.Error

/-!
Failures of derivations.
-/

namespace FormDerivation

inductive DerivationStep where
  | prepare
  | patch
  | visibility
  | compute
  | validate
  deriving DecidableEq, Repr

def DerivationStep.name : DerivationStep → String
  | .prepare => "prepare"
  | .patch => "patch"
  | .visibility => "visibility"
  | .compute => "compute"
  | .validate => "validate"

inductive ExpressionError where
  | formula (error : FormulaError)
  | script (error : ScriptError)
  deriving Repr

def ExpressionError.message : ExpressionError → String
  | .formula error => error.message
  | .script error => error.message

structure DerivationError where
  key : String
  step : DerivationStep
  cause : ExpressionError
  deriving Repr

def DerivationError.message (error : DerivationError) : String :=
  error.step.name ++ " of '" ++ error.key ++ "' failed: " ++ error.cause.message

end FormDerivation
