import FormDerivation.Host.Basic
import FormDerivation.Script.Path
import FormDerivation.Script.Syntax

/-!
The state of a running script.

`Eval` keeps the state when a part of the script is interrupted: what it changed before stays
changed.  Every operation is counted (`operation`), which bounds the run in number and in time.
-/

namespace FormDerivation.Script

structure Variable where
  name : String
  value : Value
  fixed : Bool
  deriving Inhabited

/-- Whether a function may change the variable in place: it is no constant and not shared. -/
def Variable.isOwn (v : Variable) : Bool :=
  !v.fixed &&
    match v.value with
    | .shared _ => false
    | _ => true

structure Run where
  /-- The variables in scope, the innermost first. -/
  scope : List Variable
  cells : Array Value
  operations : Nat
  hostFailure : Option ScriptError

structure Context where
  program : Program
  host : HostRegistry
  limits : ScriptLimits
  level : Nat

abbrev Eval (α : Type) : Type :=
  ExceptT Interruption (StateM Run) α

namespace Run

def operationsPerMillisecond : Nat := 2000

def timeAllowance (limits : ScriptLimits) : Nat :=
  limits.timeoutMs * operationsPerMillisecond

def allowance (limits : ScriptLimits) : Nat :=
  if limits.maxOperations == 0 then timeAllowance limits
  else min limits.maxOperations (timeAllowance limits)

def lookup? (run : Run) (name : String) : Option Variable :=
  run.scope.find? (·.name == name)

def read (run : Run) : Value → Value
  | .shared cell => run.cells[cell]?.getD .unit
  | v => v

def changeVariable (name : String) (change : Variable → Variable) :
    List Variable → List Variable
  | [] => []
  | v :: rest =>
    if v.name == name then change v :: rest else v :: changeVariable name change rest

def assign (run : Run) (name : String) (value : Value) : Run :=
  match run.lookup? name with
  | some { value := .shared cell, .. } => { run with cells := run.cells.setIfInBounds cell value }
  | _ => { run with scope := changeVariable name (fun v => { v with value }) run.scope }

def share (run : Run) (shared : Variable) : Run × Value :=
  match shared.value with
  | .shared cell => (run, .shared cell)
  | value =>
    let cell := Value.shared run.cells.size
    ({ run with
        scope := changeVariable shared.name (fun v => { v with value := cell }) run.scope
        cells := run.cells.push value }, cell)

def declare (run : Run) (name : String) (value : Value) (fixed : Bool) : Run :=
  { run with scope := ⟨name, value, fixed⟩ :: run.scope }

end Run

namespace Eval

def failAt {α : Type} (pos : Position) (fault : Fault) : Eval α :=
  throw (.failure ⟨fault, pos⟩ none)

def ofResult {α : Type} : Except Failure α → Eval α
  | .ok a => pure a
  | .error failure => throw (.failure failure none)

def ofFault {α : Type} (pos : Position) : Except Fault α → Eval α
  | .ok a => pure a
  | .error fault => failAt pos fault

def operation (ctx : Context) (pos : Position) : Eval Unit := do
  let count := (← get).operations + 1
  modify fun run => { run with operations := count }
  if ctx.limits.maxOperations != 0 && ctx.limits.maxOperations < count then
    failAt pos .outOfOperations
  else if Run.timeAllowance ctx.limits < count then failAt pos .outOfTime

def locally {α : Type} (inner : Eval α) : Eval α := fun run =>
  let depth := run.scope.length
  match inner run with
  | (result, run) => (result, { run with scope := run.scope.drop (run.scope.length - depth) })

def withScope {α : Type} (scope : List Variable) (inner : Eval α) : Eval α := fun run =>
  match inner { run with scope } with
  | (result, after) => (result, { after with scope := run.scope })

def exceeds (limit size : Nat) : Bool :=
  limit != 0 && limit < size

def checkSize (ctx : Context) (pos : Position) (v : Value) : Eval Unit :=
  match v with
  | .text _ | .array _ | .map _ =>
    let sizes := v.sizes
    if exceeds ctx.limits.maxStringSize sizes.bytes then failAt pos (.tooLarge "Length of string")
    else if exceeds ctx.limits.maxArraySize sizes.items then
      failAt pos (.tooLarge "Size of array/BLOB")
    else if exceeds ctx.limits.maxMapSize sizes.members then
      failAt pos (.tooLarge "Size of object map")
    else pure ()
  | _ => pure ()

def missingFunction {α : Type} (pos : Position) (name : String) (args : List Value) : Eval α :=
  failAt pos (.unknownFunction
    (name ++ " (" ++ Text.joinWith ", " (args.map Value.signatureName) ++ ")"))

def operator (ctx : Context) (pos : Position) (symbol : String) (args : List Value)
    (result : Option (Except Fault Value)) : Eval Value :=
  match result with
  | none => missingFunction pos symbol args
  | some result => do
    let value ← ofFault pos result
    checkSize ctx pos value
    return value

def truth (pos : Position) : Value → Eval Bool
  | .bool b => pure b
  | v => failAt pos (.wrongType v.givenTypeName "bool")

def binary (ctx : Context) (op : BinaryOp) (pos : Position) (left right : Value) : Eval Value :=
  operator ctx pos op.symbol [left, right] (op.result? left right)

/-- The new value of a compound assignment; an array takes any other value as a new item. -/
def compound (ctx : Context) (op : BinaryOp) (pos : Position) (before v : Value) : Eval Value := do
  match op, before, v with
  | .add, .array items, .array more =>
    let value := Value.array (items ++ more)
    checkSize ctx pos value
    return value
  | .add, .array items, v =>
    let value := Value.array (items ++ [v])
    checkSize ctx pos value
    return value
  | op, before, v => binary ctx op pos before v

def variableValue? (name : String) : Eval (Option (Variable × Value)) := do
  let run ← get
  return (run.lookup? name).map fun v => (v, run.read v.value)

def receiverName : String := "this"

def hostTimedOut (limits : ScriptLimits) (outcome : Except HostError Json) : Bool :=
  limits.hostCallTimeoutMs == 0 ||
    match outcome with
    | .error .timedOut => true
    | _ => false

def hostReport? (limits : ScriptLimits) (module function : String)
    (outcome : Except HostError Json) : Option ScriptError :=
  if hostTimedOut limits outcome then
    some (.hostTimedOut module function limits.hostCallTimeoutMs)
  else
    match outcome with
    | .ok _ => none
    | .error error => some (.host module function error.message)

/--
Calls a host function.  Its failure is noted in the state and goes on in the script as a thrown
text, which the script can catch.
-/
def callHost (ctx : Context) (module : String) (function : HostFunction) (args : List Value)
    (pos : Position) : Eval Value := do
  let stored ←
    match args.mapM Value.toJson with
    | .ok stored => pure stored
    | .error description => failAt pos (.notStored description)
  let outcome := function.call stored
  match hostReport? ctx.limits module function.name outcome, outcome with
  | some report, _ =>
    modify fun run => { run with hostFailure := some report }
    throw (.failure ⟨.thrown (.text report.message), pos⟩ (some report))
  | none, .ok result =>
    let value := Value.ofJson result
    checkSize ctx pos value
    return value
  | none, .error error => failAt pos (.thrown (.text error.message))

def callInModule (ctx : Context) (path : List String) (name : String) (args : List Value)
    (pathPos pos : Position) : Eval Value := do
  let pathText := Text.joinWith "::" path
  match path.head?.bind ctx.host.module? with
  | none => failAt pathPos (.unknownModule pathText)
  | some provider =>
    let function? := provider.installed.find? fun f => f.name == name && f.arity == args.length
    match path, function? with
    | [module], some function => callHost ctx module function args pos
    | _, _ => missingFunction pos (pathText ++ "::" ++ name) args

end Eval

inductive Items where
  | values (rest : List Value)
  | integers (next last : Int)

namespace Items

def of? : Value → Option Items
  | .array items => some (.values items)
  | .text s => some (.values (s.toList.map .char))
  | .range first last inclusive => some (.integers first (if inclusive then last else last - 1))
  | _ => none

def next? : Items → Option (Value × Items)
  | .values [] => none
  | .values (v :: rest) => some (v, .values rest)
  | .integers next last =>
    if next ≤ last then some (.int next, .integers (next + 1) last) else none

end Items

end FormDerivation.Script
