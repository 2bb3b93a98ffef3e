import FormDerivation.Expression.Basic
import FormDerivation.Operator.Registry

/-!
Evaluation of formulas.

The operator is looked up first, then the operands are evaluated from left to right, all of them.
The result carries the declared type of the operator; an error names the operator by its full
identifier.
-/

namespace FormDerivation

mutual

def Formula.evaluate (registry : OperatorRegistry) (context : KeyMap Json)
    (scope : Option String) : Formula → Except FormulaError TypedValue
  | .apply identifier operands =>
    match registry.get? identifier with
    | none => .error (.unknownOperator identifier)
    | some operator =>
      match Operand.evaluateAll registry context scope operands with
      | .error error => .error error
      | .ok values =>
        match operator.evaluate values with
        | .error error => .error (error.scopedTo identifier)
        | .ok result => .ok ⟨operator.returnType, result.value⟩

/-- The value of an operand; an absent reference is `null`. -/
def Operand.evaluate (registry : OperatorRegistry) (context : KeyMap Json)
    (scope : Option String) : Operand → Except FormulaError Json
  | .constant value => .ok value
  | .reference id => .ok ((context.get? (scopedKey scope id)).getD .null)
  | .nested formula =>
    match Formula.evaluate registry context scope formula with
    | .error error => .error error
    | .ok result => .ok result.value

def Operand.evaluateAll (registry : OperatorRegistry) (context : KeyMap Json)
    (scope : Option String) : List Operand → Except FormulaError (List Json)
  | [] => .ok []
  | operand :: rest =>
    match Operand.evaluate registry context scope operand with
    | .error error => .error error
    | .ok value =>
      match Operand.evaluateAll registry context scope rest with
      | .error error => .error error
      | .ok values => .ok (value :: values)

end

end FormDerivation
