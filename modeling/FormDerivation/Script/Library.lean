import FormDerivation.Script.Library.Collection
import FormDerivation.Script.Library.Number
import FormDerivation.Script.Library.Text

/-!
All built-in functions of scripts that call no other functions.
-/

namespace FormDerivation.Script.Library

def generalFunctions : List Native :=
  [⟨"to_string", fun
      | [v] => texts v.plainText
      | _ => none⟩,
    ⟨"to_debug", fun
      | [v] => texts v.nestedText
      | _ => none⟩,
    ⟨"type_of", fun
      | [v] => texts v.typeName
      | _ => none⟩,
    ⟨"print", fun
      | [_] => answer .unit
      | _ => none⟩,
    ⟨"debug", fun
      | [_] => answer .unit
      | _ => none⟩,
    ⟨"is_shared", fun
      | [_] => bools false
      | _ => none⟩,
    ⟨"timestamp", fun
      | [] => answer .timestamp
      | _ => none⟩,
    ⟨"Fn", fun
      | [.text name] => answer (.function name [])
      | _ => none⟩,
    ⟨"name", fun
      | [.function name _] => texts name
      | _ => none⟩,
    ⟨"curry", fun
      | .function name bound :: args => answer (.function name (bound ++ args))
      | _ => none⟩]

def functions : List Native :=
  generalFunctions ++ numberFunctions ++ textFunctions ++ arrayFunctions ++ mapFunctions ++
    rangeFunctions

def generalMutators : List Mutator :=
  [⟨"take", fun
      | v, [] => changeTo .unit v
      | _, _ => none⟩]

def mutators : List Mutator :=
  generalMutators ++ textMutators ++ arrayMutators ++ mapMutators

def properties : List String :=
  ["len", "is_empty", "bytes", "chars", "is_odd", "is_even", "is_zero", "floor", "ceiling", "round",
    "int", "fraction", "is_nan", "is_finite", "is_infinite", "start", "end", "is_inclusive",
    "is_exclusive", "name"]

def call? (name : String) (args : List Value) : Option (Except Fault Value) :=
  functions.findSome? fun f => if f.name == name then f.apply args else none

def mutate? (name : String) (target : Value) (args : List Value) :
    Option (Except Fault (Value × Value)) :=
  mutators.findSome? fun f => if f.name == name then f.apply target args else none

def property? (name : String) (target : Value) : Option (Except Fault Value) :=
  if properties.contains name then call? name [target] else none

def operator? (symbol : String) (args : List Value) : Option (Except Fault Value) :=
  match args with
  | [a, b] => (BinaryOp.ofSymbol? symbol).bind fun op => op.result? a b
  | [a] => ([UnaryOp.plus, .minus, .not].find? fun op => op.symbol == symbol).bind (·.result? a)
  | _ => none

end FormDerivation.Script.Library
