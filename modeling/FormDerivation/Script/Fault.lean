import FormDerivation.Script.Error
import FormDerivation.Script.Token
import FormDerivation.Script.Value

/-!
Failures of running scripts: a cause and the place where it arose.

A failure inside a function is wrapped by every call that it leaves, except for those that stop the
whole run (`Fault.stopsRun`), which no handler catches either.
-/

namespace FormDerivation.Script

inductive Bounded where
  | array
  | text
  | bits
  deriving DecidableEq, Repr

inductive Fault where
  | unknownVariable (name : String)
  | unknownFunction (signature : String)
  | unknownModule (name : String)
  | unknownProperty (name type : String)
  | readOnlyProperty (name type given : String)
  | notIndexable (types : String)
  | arithmetic (description : String)
  | wrongType (actual expected : String)
  | outOfBounds (what : Bounded) (size : Nat) (index : Int)
  | constant (name : String)
  | mutatesConstant (method : String)
  | thrown (value : Value)
  | noReceiver
  | tooDeep
  | tooLarge (what : String)
  | notIterable
  | notStored (description : String)
  | outOfOperations
  | outOfTime
  | inCall (function : Option String) (inner : Fault) (pos : Position)
  deriving Repr, Inhabited

namespace Fault

def counted (n : Nat) (thing : String) : String :=
  "only " ++ toString n ++ " " ++ thing ++ (if n == 1 then "" else "s")

def boundsText (what : Bounded) (size : Nat) (index : Int) : String :=
  match what with
  | .array =>
    "Array index " ++ toString index ++ " out of bounds: " ++
      (if size == 0 then "array is empty"
        else counted size "element" ++ " in array")
  | .text =>
    "String index " ++ toString index ++ " out of bounds: " ++
      (if size == 0 then "string is empty"
        else counted size "character" ++ " in string")
  | .bits =>
    "Bit-field index " ++ toString index ++ " out of bounds: " ++ counted size "bit" ++
      " in bit-field"

def placed (text : String) (pos : Position) : String :=
  if pos.isNone then text else text ++ " (" ++ pos.text ++ ")"

def text : Fault → String
  | .unknownVariable name => "Variable not found: " ++ name
  | .unknownFunction signature => "Function not found: " ++ signature
  | .unknownModule name => "Module not found: " ++ name
  | .unknownProperty name type =>
    "Unknown property '" ++ name ++ "' - a getter is not registered for type '" ++ type ++ "'"
  | .readOnlyProperty name type given =>
    "No writable property '" ++ name ++ "' - a setter is not registered for type '" ++ type ++
      "' to handle '" ++ given ++ "'"
  | .notIndexable types => "Indexer unavailable: " ++ types
  | .arithmetic description => description
  | .wrongType actual expected =>
    "Data type incorrect: " ++ actual ++ " (expecting " ++ expected ++ ")"
  | .outOfBounds what size index => boundsText what size index
  | .constant name => "Cannot modify constant " ++ name
  | .mutatesConstant method =>
    "Non-pure method '" ++ method ++ "' cannot be called on a constant"
  | .thrown value =>
    let shown := value.plainText
    if shown == "" then "Runtime error" else "Runtime error: " ++ shown
  | .noReceiver => "'this' not bound"
  | .tooDeep => "Stack overflow"
  | .tooLarge what => what ++ " too large"
  | .notIterable => "For loop expects iterable type"
  | .notStored description => description
  | .outOfOperations => "Too many operations"
  | .outOfTime => "Script terminated"
  | .inCall function inner pos =>
    placed inner.text pos ++ " in call to " ++
      (match function with
        | some name => "function " ++ name
        | none => "closure")

def stopsRun : Fault → Bool
  | .tooDeep => true
  | .tooLarge _ => true
  | .outOfOperations => true
  | .outOfTime => true
  | _ => false

def innermost : Fault → Fault
  | .inCall _ inner _ => inner.innermost
  | fault => fault

def kindName : Fault → String
  | .unknownVariable _ => "ErrorVariableNotFound"
  | .unknownFunction _ => "ErrorFunctionNotFound"
  | .unknownModule _ => "ErrorModuleNotFound"
  | .unknownProperty _ _ => "ErrorDotExpr"
  | .readOnlyProperty _ _ _ => "ErrorDotExpr"
  | .notIndexable _ => "ErrorIndexingType"
  | .arithmetic _ => "ErrorArithmetic"
  | .wrongType _ _ => "ErrorMismatchDataType"
  | .outOfBounds .array _ _ => "ErrorArrayBounds"
  | .outOfBounds .text _ _ => "ErrorStringBounds"
  | .outOfBounds .bits _ _ => "ErrorBitFieldBounds"
  | .constant _ => "ErrorAssignmentToConstant"
  | .mutatesConstant _ => "ErrorNonPureMethodCallOnConstant"
  | .thrown _ => "ErrorRuntime"
  | .noReceiver => "ErrorUnboundThis"
  | .tooDeep => "ErrorStackOverflow"
  | .tooLarge _ => "ErrorDataTooLarge"
  | .notIterable => "ErrorFor"
  | .notStored _ => "ErrorMismatchOutputType"
  | .outOfOperations => "ErrorTooManyOperations"
  | .outOfTime => "ErrorTerminated"
  | .inCall _ _ _ => "ErrorInFunctionCall"

def details : Fault → List (String × Value)
  | .unknownVariable name => [("variable", .text name)]
  | .unknownFunction signature => [("function", .text signature)]
  | .unknownModule name => [("module", .text name)]
  | .unknownProperty name type => [("property", .text (text (.unknownProperty name type)))]
  | .readOnlyProperty name type given =>
    [("property", .text (text (.readOnlyProperty name type given)))]
  | .notIndexable types => [("type", .text types)]
  | .wrongType actual expected => [("actual", .text actual), ("requested", .text expected)]
  | .outOfBounds _ size index => [("index", .int index), ("length", .int size)]
  | .constant name => [("variable", .text name)]
  | .mutatesConstant method => [("function", .text method)]
  | .inCall function _ _ => [("function", .text (function.getD "")), ("source", .text "")]
  | _ => []

end Fault

structure Failure where
  fault : Fault
  pos : Position
  deriving Repr, Inhabited

namespace Failure

def message (failure : Failure) : String :=
  Fault.placed failure.fault.text failure.pos

/--
What a handler gets to see: a thrown value itself, of other failures a map with their text, place,
kind and details.
-/
def caughtValue (failure : Failure) : Value :=
  match failure.fault.innermost with
  | .thrown value => value
  | _ =>
    let pos := failure.pos
    let place : List (String × Value) :=
      if pos.isNone then [] else [("line", .int pos.line), ("position", .int pos.column)]
    .map (KeyMap.ofList (place ++ failure.fault.details ++
      [("error", .text failure.fault.kindName), ("message", .text failure.fault.text)])).toList

def leaveCall (function : Option String) (pos : Position) (failure : Failure) : Failure :=
  if failure.fault.stopsRun then { failure with pos }
  else ⟨.inCall function failure.fault failure.pos, pos⟩

end Failure

inductive Interruption where
  | failure (failure : Failure) (report : Option ScriptError)
  | leave (value : Value)
  | again
  | answer (value : Value)
  | exit (value : Value)
  deriving Repr, Inhabited

end FormDerivation.Script
