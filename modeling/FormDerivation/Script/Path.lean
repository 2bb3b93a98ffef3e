import FormDerivation.Script.Library

/-!
Places inside values.

A path leads from a value to a part of it, by properties and indexes.  `Value.part` reads what is
there, `Value.withPart` puts something else there, and an assignment to a missing member of a map
adds it.
-/

namespace FormDerivation.Script

/-- A step from a value to a part of it; with `optional`, there is nothing behind `()`. -/
inductive PathStep where
  | property (name : String) (optional : Bool) (pos : Position)
  | index (index : Value) (optional : Bool) (indexPos pos : Position)

def PathStep.optional : PathStep → Bool
  | .property _ optional _ => optional
  | .index _ optional _ _ => optional

namespace Value

def boundedPlace (what : Bounded) (size : Nat) (index : Int) (pos : Position) :
    Except Failure Nat :=
  match Library.place? size index with
  | some place => .ok place
  | none => .error ⟨.outOfBounds what size index, pos⟩

def wrongIndex {α : Type} (index : Value) (expected : String) (pos : Position) :
    Except Failure α :=
  .error ⟨.wrongType index.givenTypeName expected, pos⟩

def atIndex (target index : Value) (indexPos pos : Position) : Except Failure Value :=
  match target, index with
  | .array items, .int n => do
    .ok (items[← boundedPlace .array items.length n indexPos]?.getD .unit)
  | .array _, index => wrongIndex index "i64" indexPos
  | .map members, .text key => .ok ((members.lookup key).getD .unit)
  | .map _, index => wrongIndex index "string" indexPos
  | .text s, .int n => do
    .ok ((s.toList[← boundedPlace .text s.length n indexPos]?).elim .unit .char)
  | .text s, .range first last inclusive =>
    .ok (Library.textStretch s (Library.stretchOfRange s.length first last inclusive))
  | .text _, index => wrongIndex index "i64" indexPos
  | .int n, .int bit => do
    let place ← boundedPlace .bits 64 bit indexPos
    .ok (.bool ((Int64.ofInt n).toUInt64.toNat.testBit place))
  | target, index => .error ⟨.notIndexable (target.typeName ++ " [" ++ index.typeName ++ "]"), pos⟩

/-- A property of a value: a member of a map, a built-in property of anything else. -/
def atProperty (target : Value) (name : String) (pos : Position) : Except Failure Value :=
  match target with
  | .map members => .ok ((members.lookup name).getD .unit)
  | target =>
    match Library.property? name target with
    | some (.ok value) => .ok value
    | some (.error fault) => .error ⟨fault, pos⟩
    | none => .error ⟨.unknownProperty name target.typeName, pos⟩

def atStep (target : Value) : PathStep → Except Failure Value
  | .property name _ pos => target.atProperty name pos
  | .index index _ indexPos pos => target.atIndex index indexPos pos

def stopsAt (target : Value) (optional : Bool) : Bool :=
  match target with
  | .unit => optional
  | _ => false

/-- What is at the end of a path; `none` where an optional step has left it. -/
def part (target : Value) : List PathStep → Except Failure (Option Value)
  | [] => .ok (some target)
  | step :: rest =>
    if target.stopsAt step.optional then .ok none
    else do (← target.atStep step).part rest

/-- A value with another part behind one step; without such a part it stays as it is. -/
def replaceStep (target : Value) (step : PathStep) (v : Value) : Value :=
  match target, step with
  | .map members, .property name _ _ =>
    if (members.lookup name).isSome then .map (Library.setMember members name v) else target
  | .map members, .index (.text key) _ _ _ =>
    if (members.lookup key).isSome then .map (Library.setMember members key v) else target
  | .array items, .index (.int n) _ _ _ =>
    match Library.place? items.length n with
    | some place => .array (items.set place v)
    | none => target
  | _, _ => target

def withPart (target : Value) (path : List PathStep) (v : Value) : Value :=
  match path with
  | [] => v
  | step :: rest =>
    match target.atStep step with
    | .ok inner => target.replaceStep step (inner.withPart rest v)
    | .error _ => target

def assignStep (target : Value) (step : PathStep) (v : Value) : Except Failure Value :=
  match target, step with
  | .map members, .property name _ _ => .ok (.map (Library.setMember members name v))
  | target, .property name _ pos =>
    .error ⟨.readOnlyProperty name target.typeName v.typeName, pos⟩
  | .map members, .index (.text key) _ _ _ => .ok (.map (Library.setMember members key v))
  | .map _, .index index _ indexPos _ => wrongIndex index "string" indexPos
  | .array items, .index (.int n) _ indexPos _ => do
    .ok (.array (items.set (← boundedPlace .array items.length n indexPos) v))
  | .array _, .index index _ indexPos _ => wrongIndex index "i64" indexPos
  | .text s, .index (.int n) _ indexPos pos => do
    let place ← boundedPlace .text s.length n indexPos
    match v with
    | .char c => .ok (.text (String.ofList (s.toList.set place c)))
    | v => .error ⟨.wrongType v.givenTypeName "char", pos⟩
  | target, .index index _ _ pos =>
    .error ⟨.notIndexable
      (target.typeName ++ " [" ++ index.typeName ++ "] = " ++ v.typeName), pos⟩

/-- A value as it is in the step of an assignment that `change` computes from the part before it. -/
def assignAt (target : Value) (path : List PathStep) (last : PathStep)
    (change : Value → Except Failure Value) (reads : Bool) : Except Failure Value :=
  match path with
  | [] => do
    let before ← if reads then target.atStep last else .ok .unit
    target.assignStep last (← change before)
  | step :: rest => do
    let inner ← target.atStep step
    let inner ← inner.assignAt rest last change reads
    .ok (target.replaceStep step inner)

end Value

end FormDerivation.Script
