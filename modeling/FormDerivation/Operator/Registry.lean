import FormDerivation.Operator.Builtin
import FormDerivation.Registration
import FormDerivation.Text.Quoted

/-!
Operators by identifier: the package, a point, and the name.
-/

namespace FormDerivation

structure OperatorRegistry where
  operators : KeyMap Operator

namespace OperatorRegistry

def empty : OperatorRegistry :=
  ⟨KeyMap.empty⟩

/-- Adds the operators of a package one after the other; an identifier can be taken only once. -/
def addOperators (package : String) :
    OperatorRegistry → List Operator → Except RegistrationError OperatorRegistry
  | registry, [] => .ok registry
  | registry, operator :: rest =>
    let identifier := package ++ "." ++ operator.name
    if registry.operators.contains identifier then .error (.duplicateOperator identifier)
    else addOperators package ⟨registry.operators.insert identifier operator⟩ rest

def addPackages : OperatorRegistry → List OperatorPackage →
    Except RegistrationError OperatorRegistry
  | registry, [] => .ok registry
  | registry, package :: rest =>
    if package.name = "" then .error (.invalidPackage package.name)
    else
      match addOperators package.name registry package.operators with
      | .error error => .error error
      | .ok registry => addPackages registry rest

/-- The registry of packages, unless one of them is refused. -/
def ofPackages (packages : List OperatorPackage) : Except RegistrationError OperatorRegistry :=
  addPackages empty packages

def builtin : OperatorRegistry :=
  ⟨KeyMap.ofList (OperatorPackage.builtin.flatMap fun package =>
    package.operators.map fun operator => (package.name ++ "." ++ operator.name, operator))⟩

def get? (registry : OperatorRegistry) (identifier : String) : Option Operator :=
  registry.operators.get? identifier

def identifiers (registry : OperatorRegistry) : List String :=
  registry.operators.keys

def describe (registry : OperatorRegistry) : String :=
  "OperatorRegistry \x7b operators: " ++ Text.quotedList registry.identifiers ++ " \x7d"

def catalog (registry : OperatorRegistry) : List Json :=
  registry.operators.toList.map fun (identifier, operator) => operator.descriptor identifier

end OperatorRegistry

end FormDerivation
