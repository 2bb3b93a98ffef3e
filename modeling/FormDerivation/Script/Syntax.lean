import FormDerivation.Script.Arithmetic

/-!
Scripts as trees.

An access such as `a.b[0].c()` is one `Expr.access`: a root and the list of its links.  Functions
and closures are gathered in the `Program`; a closure refers to its function by name.
-/

namespace FormDerivation.Script

mutual

/-- An expression; its place is the one that failures of its value name. -/
inductive Expr where
  | constant (value : Value) (pos : Position)
  | variable (name : String) (pos : Position)
  | moduleName (path : List String) (name : String) (pos : Position)
  | receiver (pos : Position)
  | template (parts : List Expr) (pos : Position)
  | array (items : List Expr) (pos : Position)
  | map (members : List (String × Expr)) (pos : Position)
  /-- A function of the program, with the variables around it that it uses. -/
  | closure (name : String) (captured : List (String × Position)) (pos : Position)
  | unary (op : UnaryOp) (operand : Expr) (pos : Position)
  | binary (op : BinaryOp) (left right : Expr) (pos : Position)
  | both (left right : Expr) (pos : Position)
  | either (left right : Expr) (pos : Position)
  /-- The left value, or the right one where the left one is `()`. -/
  | orElse (left right : Expr) (pos : Position)
  | call (name : String) (args : List Expr) (pos : Position)
  | moduleCall (path : List String) (name : String) (args : List Expr) (pathPos pos : Position)
  | access (root : Expr) (links : List Link) (pos : Position)
  | statement (body : Stmt) (pos : Position)

/-- A step of an access; with `optional`, a target `()` ends the access with `()`. -/
inductive Link where
  | property (name : String) (optional : Bool) (pos : Position)
  | index (index : Expr) (optional : Bool) (pos : Position)
  | method (name : String) (args : List Expr) (optional : Bool) (pos : Position)

inductive Stmt where
  | expr (e : Expr)
  | declare (name : String) (value : Option Expr) (fixed : Bool)
  | assign (target : Expr) (op : Option BinaryOp) (value : Expr) (pos : Position)
  | block (body : List Stmt)
  | branch (condition : Expr) (body otherwise : List Stmt)
  | switch (subject : Expr) (cases : List Case) (otherwise : Option Expr)
  | loopWhile (condition : Option Expr) (body : List Stmt)
  /-- A loop whose condition is tested behind each round and goes on while it is `wanted`. -/
  | loopUntil (body : List Stmt) (condition : Expr) (wanted : Bool)
  | forEach (name : String) (counter : Option String) (items : Expr) (body : List Stmt)
  | attempt (body : List Stmt) (caught : Option String) (handler : List Stmt)
  | leave (value : Option Expr)
  | again
  | answer (value : Option Expr)
  | throwValue (value : Option Expr) (pos : Position)
  | importModule (path : Expr)
  | exportName (name : String) (pos : Position)

/-- A case of a `switch`: single values, spans of integers, and a further condition. -/
inductive Case where
  | mk (values : List Value) (spans : List (Int × Int)) (guard : Option Expr) (result : Expr)

end

instance : Inhabited Expr := ⟨.constant .unit .none⟩

instance : Inhabited Stmt := ⟨.again⟩

structure Function where
  name : String
  parameters : List String
  body : List Stmt
  anonymous : Bool

structure Program where
  functions : List Function
  body : List Stmt

namespace Program

def function? (program : Program) (name : String) (arity : Nat) : Option Function :=
  program.functions.find? fun f => f.name == name && f.parameters.length == arity

def definesName (program : Program) (name : String) : Bool :=
  program.functions.any fun f => f.name == name

end Program

namespace Expr

def pos : Expr → Position
  | .constant _ pos => pos
  | .variable _ pos => pos
  | .moduleName _ _ pos => pos
  | .receiver pos => pos
  | .template _ pos => pos
  | .array _ pos => pos
  | .map _ pos => pos
  | .closure _ _ pos => pos
  | .unary _ _ pos => pos
  | .binary _ _ _ pos => pos
  | .both _ _ pos => pos
  | .either _ _ pos => pos
  | .orElse _ _ pos => pos
  | .call _ _ pos => pos
  | .moduleCall _ _ _ _ pos => pos
  | .access _ _ pos => pos
  | .statement _ pos => pos

/-- The place where an access, a name in a module or a condition begins; else the usual one. -/
def firstPos : Expr → Position
  | .both left _ _ => left.firstPos
  | .either left _ _ => left.firstPos
  | .orElse left _ _ => left.firstPos
  | .access root _ _ => root.firstPos
  | .moduleCall _ _ _ pathPos _ => pathPos
  | e => e.pos

def neverBool : Expr → Bool
  | .constant (.bool _) _ => false
  | .constant _ _ => true
  | .template _ _ => true
  | .array _ _ => true
  | .map _ _ => true
  | _ => false

/-- Both conditions; a constant `true` leaves the other one as it is. -/
def conjunction (left right : Expr) (pos : Position) : Expr :=
  match left, right with
  | .constant (.bool true) _, right => right
  | .constant (.bool false) p, _ => .constant (.bool false) p
  | left, .constant (.bool true) _ => left
  | left, right => .both left right pos

/-- One of two conditions; a constant `false` leaves the other one as it is. -/
def disjunction (left right : Expr) (pos : Position) : Expr :=
  match left, right with
  | .constant (.bool false) _, right => right
  | .constant (.bool true) p, _ => .constant (.bool true) p
  | left, .constant (.bool false) _ => left
  | left, right => .either left right pos

def literal? : Expr → Option Value
  | .constant value _ => some value
  | .binary .range (.constant (.int a) _) (.constant (.int b) _) _ => some (.range a b false)
  | .binary .rangeInclusive (.constant (.int a) _) (.constant (.int b) _) _ =>
    some (.range a b true)
  | _ => none

end Expr

namespace Stmt

def endsItself : Stmt → Bool
  | .block _ => true
  | .branch _ _ _ => true
  | .switch _ _ _ => true
  | .loopWhile _ _ => true
  | .forEach _ _ _ _ => true
  | .attempt _ _ _ => true
  | _ => false

end Stmt

end FormDerivation.Script
