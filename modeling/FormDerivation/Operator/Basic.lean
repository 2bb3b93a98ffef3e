import FormDerivation.Value

/-!
Operators: typed functions that formulas apply.

`Operator.evaluate` checks the number of arguments.  The operator then reads them one after the
other through `Arguments`, which checks each argument that is read against the type of its
parameter.  An operator gets the values of its arguments and nothing else: neither the types that
the formulas in its operands declare nor the context that they are evaluated in.
-/

namespace FormDerivation

structure Parameter where
  name : String
  type : ValueType
  deriving DecidableEq, Repr, Inhabited

inductive FormulaError where
  | unknownOperator (identifier : String)
  | malformedExpression (reason : String)
  | wrongArgumentCount (operator : String) (expected actual : Nat)
  | typeMismatch (operator parameter : String) (expected : ValueType) (actual : String)
  | evaluation (operator message : String)
  deriving DecidableEq, Repr

namespace FormulaError

def message : FormulaError → String
  | .unknownOperator identifier => "unknown operator '" ++ identifier ++ "'"
  | .malformedExpression reason => "malformed expression: " ++ reason
  | .wrongArgumentCount operator expected actual =>
    "operator '" ++ operator ++ "' expects " ++ toString expected ++ " argument(s), got " ++
      toString actual
  | .typeMismatch operator parameter expected actual =>
    "operator '" ++ operator ++ "' parameter '" ++ parameter ++ "' expects " ++ expected.name ++
      ", got " ++ actual
  | .evaluation operator message => "operator '" ++ operator ++ "' failed: " ++ message

def isDefinitionError : FormulaError → Bool
  | .unknownOperator _ => true
  | .malformedExpression _ => true
  | _ => false

def scopedTo (identifier : String) : FormulaError → FormulaError
  | .wrongArgumentCount _ expected actual => .wrongArgumentCount identifier expected actual
  | .typeMismatch _ parameter expected actual =>
    .typeMismatch identifier parameter expected actual
  | .evaluation _ message => .evaluation identifier message
  | error => error

end FormulaError

structure Arguments where
  operator : String
  parameters : List Parameter
  values : List Json

namespace Arguments

variable (args : Arguments)

def parameter (index : Nat) : Parameter :=
  args.parameters.getD index default

def argument (index : Nat) : Json :=
  args.values.getD index .null

def failure (message : String) : FormulaError :=
  .evaluation args.operator message

def mismatch (index : Nat) : FormulaError :=
  .typeMismatch args.operator (args.parameter index).name (args.parameter index).type
    (describe (args.argument index))

def value (index : Nat) : Except FormulaError Json :=
  if (args.parameter index).type.accepts (args.argument index) then .ok (args.argument index)
  else .error (args.mismatch index)

def read {α : Type} (view : Json → Option α) (index : Nat) : Except FormulaError α := do
  match view (← args.value index) with
  | some a => .ok a
  | none => .error (args.mismatch index)

def boolean : Nat → Except FormulaError Bool :=
  args.read Json.bool?

def number : Nat → Except FormulaError Float :=
  args.read Json.number?

def text : Nat → Except FormulaError String :=
  args.read Json.string?

def list : Nat → Except FormulaError (List Json) :=
  args.read Json.array?

def date : Nat → Except FormulaError Date :=
  args.read fun value => value.string?.bind Date.parse?

end Arguments

/--
A typed function.  `apply` is given one argument for each parameter, checks their types itself, and
yields a value or says why there is none.
-/
structure Operator where
  name : String
  label : String
  description : String
  parameters : List Parameter
  returnType : ValueType
  apply : List Json → Except FormulaError TypedValue

namespace Operator

def reading (name label description : String) (parameters : List Parameter)
    (returnType : ValueType) (body : Arguments → Except FormulaError TypedValue) : Operator where
  name
  label
  description
  parameters
  returnType
  apply values := body ⟨name, parameters, values⟩

def evaluate (operator : Operator) (args : List Json) : Except FormulaError TypedValue :=
  if args.length ≠ operator.parameters.length then
    .error (.wrongArgumentCount operator.name operator.parameters.length args.length)
  else operator.apply args

def descriptor (operator : Operator) (identifier : String) : Json :=
  .object [
    ("identifier", .string identifier),
    ("label", .string operator.label),
    ("description", .string operator.description),
    ("parameters", .array (operator.parameters.map fun parameter =>
      .object [("name", .string parameter.name), ("value_type", .string parameter.type.name)])),
    ("return_type", .string operator.returnType.name)]

end Operator

end FormDerivation
