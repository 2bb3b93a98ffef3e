import FormDerivation.Json.Basic

/-!
Expressions attached to the elements of a form.

An expression is the source of a script, a formula, or a stored value that could not be understood
and is kept so that evaluating it fails.  A formula applies an operator to operands, which may be
formulas themselves.
-/

namespace FormDerivation

mutual

inductive Formula where
  | apply (operator : String) (operands : List Operand)

inductive Operand where
  | constant (value : Json)
  | reference (id : String)
  | nested (formula : Formula)

end

deriving instance Repr for Formula, Operand

instance : Inhabited Formula := ⟨.apply "" []⟩

instance : Inhabited Operand := ⟨.constant .null⟩

inductive Expression where
  | script (code : String)
  | formula (formula : Formula)
  | malformed (raw : Json) (reason : String)
  deriving Repr, Inhabited

namespace Formula

def operator : Formula → String
  | .apply operator _ => operator

def operands : Formula → List Operand
  | .apply _ operands => operands

end Formula

/-! ## Equality -/

mutual

def Formula.same : Formula → Formula → Bool
  | .apply a as, .apply b bs => a == b && Operand.sameAll as bs

def Operand.same : Operand → Operand → Bool
  | .constant a, .constant b => a == b
  | .reference a, .reference b => a == b
  | .nested a, .nested b => Formula.same a b
  | _, _ => false

def Operand.sameAll : List Operand → List Operand → Bool
  | [], [] => true
  | a :: as, b :: bs => Operand.same a b && Operand.sameAll as bs
  | _, _ => false

end

def Expression.same : Expression → Expression → Bool
  | .script a, .script b => a == b
  | .formula a, .formula b => a.same b
  | .malformed a reason, .malformed b other => a == b && reason == other
  | _, _ => false

instance : BEq Formula := ⟨Formula.same⟩

instance : BEq Expression := ⟨Expression.same⟩

end FormDerivation
