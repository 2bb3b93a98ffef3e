import FormDerivation.Script.Run

/-!
Running scripts.

Expressions and statements are evaluated by mutual recursion over a number of steps, which
`stepsFor` takes so large that the count of operations ends a run first.

An access first evaluates the arguments of all its links, then its root.  The first method of an
access may change the part of a variable that it is called on; everything behind it works on the
result alone.
-/

namespace FormDerivation.Script

inductive Step where
  | part (step : PathStep)
  | method (name : String) (args : List Value) (optional : Bool) (pos : Position)

def Step.splitPath : List Step → List PathStep × List Step
  | .part step :: rest =>
    let (path, rest) := splitPath rest
    (step :: path, rest)
  | rest => ([], rest)

def splitLast? : List PathStep → Option (List PathStep × PathStep)
  | [] => none
  | [step] => some ([], step)
  | step :: rest => (splitLast? rest).map fun (path, last) => (step :: path, last)

namespace Value

def isTrue : Value → Bool
  | .bool b => b
  | _ => false

def isUnit : Value → Bool
  | .unit => true
  | _ => false

def putsFirst : Value → Bool
  | .int n => n < 0
  | .bool b => b
  | _ => false

def method? (target : Value) (name : String) : Option (String × List Value) :=
  match target with
  | .map members =>
    match members.lookup name with
    | some (.function f bound) => some (f, bound)
    | _ => none
  | _ => none

end Value

/-- Whether a case has the value among its labels; single values come before spans. -/
def Case.hasValue (v : Value) : Case → Bool
  | .mk values _ _ _ => values.any fun label => label.typeName == v.typeName && label.same v

def Case.spans (v : Value) : Case → Bool
  | .mk _ spans _ _ =>
    match v with
    | .int n => spans.any fun span => span.1 ≤ n && n ≤ span.2
    | _ => false

def Case.fitting (v : Value) (cases : List Case) : List Case :=
  if cases.any (·.hasValue v) then cases.filter (·.hasValue v) else cases.filter (·.spans v)

/-- Pairs of items and answers of which the answer is `true`, and the other items. -/
def partitionByAnswers (items : List (Value × Value)) : List Value × List Value :=
  ((items.filter (·.2.isTrue)).map (·.1), (items.filter (!·.2.isTrue)).map (·.1))

namespace Eval

def noSteps {α : Type} : Eval α :=
  failAt .none .outOfTime

/-- The arguments for the parameters that a function has: with or without the additional ones. -/
def fittingArguments (ctx : Context) (f : String) (bound args additional : List Value) :
    List Value :=
  let count := bound.length + args.length
  if (ctx.program.function? f count).isNone
      && (ctx.program.function? f (count + additional.length)).isSome then
    bound ++ args ++ additional
  else bound ++ args

def capture : List (String × Position) → Eval (List Value)
  | [] => return []
  | (name, pos) :: rest => do
    let run ← get
    match run.lookup? name with
    | none => failAt pos (.unknownVariable name)
    | some found =>
      let (run, cell) := run.share found
      set run
      return cell :: (← capture rest)

def plain (ctx : Context) (name : String) (args : List Value) (fixed : Bool) (pos : Position) :
    Eval (Value × Option Value) := do
  let changed? : Option (Except Fault (Value × Value)) :=
    match args with
    | target :: rest => Library.mutate? name target rest
    | [] => none
  match changed? with
  | some result =>
    if fixed then failAt pos (.mutatesConstant name)
    else
      let (target, result) ← ofFault pos result
      checkSize ctx pos target
      checkSize ctx pos result
      return (result, some target)
  | none =>
    match (Library.call? name args).or (Library.operator? name args) with
    | none => missingFunction pos name args
    | some result =>
      let result ← ofFault pos result
      match args with
      | target :: _ => checkSize ctx pos target
      | [] => pure ()
      checkSize ctx pos result
      return (result, none)

def changed (ctx : Context) (op : Option BinaryOp) (pos : Position) (before value : Value) :
    Eval Value :=
  match op with
  | none => pure value
  | some op => compound ctx op pos before value

mutual

def expression : Nat → Context → Expr → Eval Value
  | 0, _, _ => noSteps
  | fuel + 1, ctx, e => do
    operation ctx e.pos
    match e with
    | .constant value _ => return value
    | .variable name pos =>
      match ← variableValue? name with
      | some (_, value) => return value
      | none =>
        if ctx.program.definesName name then return .function name []
        else failAt pos (.unknownVariable name)
    | .moduleName path name pos =>
      let pathText := Text.joinWith "::" path
      match path.head?.bind ctx.host.module? with
      | some _ => failAt pos (.unknownVariable (pathText ++ "::" ++ name))
      | none => failAt pos (.unknownModule pathText)
    | .receiver pos =>
      match ← variableValue? receiverName with
      | some (_, value) => return value
      | none => failAt pos .noReceiver
    | .template parts pos =>
      let values ← expressions fuel ctx parts
      let value := Value.text (String.join (values.map Value.plainText))
      checkSize ctx pos value
      return value
    | .array items pos =>
      let value := Value.array (← expressions fuel ctx items)
      checkSize ctx pos value
      return value
    | .map entries pos =>
      let value := Value.map (KeyMap.ofList (← members fuel ctx entries)).toList
      checkSize ctx pos value
      return value
    | .closure name captured _ =>
      return .function name (← capture captured)
    | .unary op operand pos =>
      let value ← expression fuel ctx operand
      operator ctx pos op.symbol [value] (op.result? value)
    | .binary op left right pos =>
      let a ← expression fuel ctx left
      let b ← expression fuel ctx right
      binary ctx op pos a b
    | .both left right _ =>
      if ← truth left.pos (← expression fuel ctx left) then
        return .bool (← truth right.pos (← expression fuel ctx right))
      else return .bool false
    | .either left right _ =>
      if ← truth left.pos (← expression fuel ctx left) then return .bool true
      else return .bool (← truth right.pos (← expression fuel ctx right))
    | .orElse left right _ =>
      let value ← expression fuel ctx left
      if value.isUnit then expression fuel ctx right else return value
    | .call name args pos => call fuel ctx name args pos
    | .moduleCall path name args pathPos pos =>
      callInModule ctx path name (← expressions fuel ctx args) pathPos pos
    | .access root links _ => access fuel ctx root links
    | .statement body _ => statement fuel ctx body
termination_by structural n => n

def expressions : Nat → Context → List Expr → Eval (List Value)
  | 0, _, _ => noSteps
  | _ + 1, _, [] => return []
  | fuel + 1, ctx, e :: rest => do
    let value ← expression fuel ctx e
    return value :: (← expressions fuel ctx rest)
termination_by structural n => n

def members : Nat → Context → List (String × Expr) → Eval (List (String × Value))
  | 0, _, _ => noSteps
  | _ + 1, _, [] => return []
  | fuel + 1, ctx, (key, e) :: rest => do
    let value ← expression fuel ctx e
    return (key, value) :: (← members fuel ctx rest)
termination_by structural n => n

def steps : Nat → Context → List Link → Eval (List Step)
  | 0, _, _ => noSteps
  | _ + 1, _, [] => return []
  | fuel + 1, ctx, link :: rest => do
    let step ←
      match link with
      | .property name optional pos => pure (Step.part (.property name optional pos))
      | .index index optional pos =>
        pure (Step.part (.index (← expression fuel ctx index) optional index.pos pos))
      | .method name args optional pos =>
        pure (Step.method name (← expressions fuel ctx args) optional pos)
    return step :: (← steps fuel ctx rest)
termination_by structural n => n

def access : Nat → Context → Expr → List Link → Eval Value
  | 0, _, _, _ => noSteps
  | fuel + 1, ctx, root, links => do
    let steps ← steps fuel ctx links
    let value ← expression fuel ctx root
    let place ←
      match root with
      | .variable name _ => do pure ((← variableValue? name).map (·.1))
      | .receiver _ => do pure ((← variableValue? receiverName).map (·.1))
      | _ => pure none
    follow fuel ctx place value steps
termination_by structural n => n

/-- Follows steps from a value; a method may change the variable that holds the value. -/
def follow : Nat → Context → Option Variable → Value → List Step → Eval Value
  | 0, _, _, _, _ => noSteps
  | fuel + 1, ctx, place, value, steps => do
    let (path, rest) := Step.splitPath steps
    match ← ofResult (value.part path) with
    | none => return .unit
    | some target =>
      match rest with
      | .method name args optional pos :: rest =>
        if target.stopsAt optional then return .unit
        else
          let fixed := place.any (·.fixed)
          let (result, changed) ← method fuel ctx target fixed name args pos
          match changed, place with
          | some changed, some found =>
            modify fun run => run.assign found.name (value.withPart path changed)
          | _, _ => pure ()
          follow fuel ctx none result rest
      | _ => return target
termination_by structural n => n

def call : Nat → Context → String → List Expr → Position → Eval Value
  | 0, _, _, _, _ => noSteps
  | fuel + 1, ctx, name, args, pos => do
    match args with
    | .variable first firstPos :: rest =>
      let others ← expressions fuel ctx rest
      let value ← expression fuel ctx (.variable first firstPos)
      let found : Option Variable := (← variableValue? first).map (·.1)
      let (result, changed) ← function fuel ctx name (value :: others) pos
      match changed, found with
      | some changed, some found =>
        if found.isOwn then
          modify fun run => run.assign first changed
        return result
      | _, _ => return result
    | args =>
      let values ← expressions fuel ctx args
      let (result, _) ← function fuel ctx name values pos
      return result
termination_by structural n => n

def function : Nat → Context → String → List Value → Position → Eval (Value × Option Value)
  | 0, _, _, _, _ => noSteps
  | fuel + 1, ctx, name, args, pos => do
    match name, args with
    | "call", .function f bound :: args =>
      return (← pointer fuel ctx f (bound ++ args) none pos).map id fun _ => none
    | "exit", [] => throw (.exit .unit)
    | "exit", [v] => throw (.exit v)
    | "is_def_var", [.text name] =>
      return (.bool ((← get).lookup? name).isSome, none)
    | "is_def_fn", [.text name, .int arity] =>
      return (.bool (ctx.program.function? name arity.toNat).isSome, none)
    | name, args =>
      match ctx.program.function? name args.length with
      | some f => return (← script fuel ctx f args none pos).map id fun _ => none
      | none => builtin fuel ctx name args false pos
termination_by structural n => n

/-- Calls a method of a value; a constant is not changed. -/
def method : Nat → Context → Value → Bool → String → List Value → Position →
    Eval (Value × Option Value)
  | 0, _, _, _, _, _, _ => noSteps
  | fuel + 1, ctx, target, fixed, name, args, pos => do
    match name, target, args with
    | "call", .function f bound, args =>
      return (← pointer fuel ctx f (bound ++ args) none pos).map id fun _ => none
    | "call", target, .function f bound :: args =>
      pointer fuel ctx f (bound ++ args) (some target) pos
    | name, target, args =>
      match target.method? name with
      | some (f, bound) => pointer fuel ctx f (bound ++ args) (some target) pos
      | none =>
        match ctx.program.function? name args.length with
        | some f => script fuel ctx f args (some target) pos
        | none => builtin fuel ctx name (target :: args) fixed pos
termination_by structural n => n

def pointer : Nat → Context → String → List Value → Option Value → Position →
    Eval (Value × Option Value)
  | 0, _, _, _, _, _ => noSteps
  | fuel + 1, ctx, name, args, receiver, pos => do
    match ctx.program.function? name args.length with
    | some f => script fuel ctx f args receiver pos
    | none =>
      match receiver with
      | some target => builtin fuel ctx name (target :: args) false pos
      | none => builtin fuel ctx name args false pos
termination_by structural n => n

/-- Calls a function of the script: its result and the receiver behind it. -/
def script : Nat → Context → Function → List Value → Option Value → Position →
    Eval (Value × Option Value)
  | 0, _, _, _, _, _ => noSteps
  | fuel + 1, ctx, f, args, receiver, pos => do
    operation ctx pos
    if ctx.limits.maxCallLevels ≤ ctx.level then failAt pos .tooDeep
    else
      let scope := (f.parameters.zip args).reverse.map fun (name, value) => ⟨name, value, false⟩
      let bottom : List Variable :=
        match receiver with
        | some target => [⟨receiverName, target, false⟩]
        | none => []
      let inner : Context := { ctx with level := ctx.level + 1 }
      let run : Eval Value := fun run =>
        match statements fuel inner f.body run with
        | (.error (.answer value), run) => (.ok value, run)
        | (.error (.failure failure report), run) =>
          let name := if f.anonymous then none else some f.name
          (.error (.failure (failure.leaveCall name pos) report), run)
        | result => result
      withScope (scope ++ bottom) do
        let result ← run
        return (result, (← variableValue? receiverName).map (·.2))
termination_by structural n => n

def builtin : Nat → Context → String → List Value → Bool → Position →
    Eval (Value × Option Value)
  | 0, _, _, _, _, _ => noSteps
  | fuel + 1, ctx, name, args, fixed, pos => do
    let args := args.map (← get).read
    match args with
    | target :: .function f bound :: rest =>
      match ← withFunction fuel ctx name target f bound rest fixed pos with
      | some result => return result
      | none => plain ctx name args fixed pos
    | args => plain ctx name args fixed pos
termination_by structural n => n

/--
Built-in functions that call one for the items of a collection; `none` where there is no such
function.
-/
def withFunction : Nat → Context → String → Value → String → List Value → List Value → Bool →
    Position → Eval (Option (Value × Option Value))
  | 0, _, _, _, _, _, _, _, _ => noSteps
  | fuel + 1, ctx, name, target, f, bound, rest, fixed, pos => do
    let keep (result : Value) : Eval (Option (Value × Option Value)) := do
      checkSize ctx pos result
      return some (result, none)
    let change (changed result : Value) : Eval (Option (Value × Option Value)) := do
      return some (result, some changed)
    let allow : Eval Unit := if fixed then failAt pos (.mutatesConstant name) else pure ()
    match target, rest with
    | .array items, [] =>
      match name with
      | "map" => keep (.array (← answers fuel ctx f bound items 0 pos))
      | "filter" =>
        let found ← answers fuel ctx f bound items 0 pos
        keep (.array (partitionByAnswers (items.zip found)).1)
      | "some" => keep (.bool (← first fuel ctx f bound Value.isTrue items 0 pos).isSome)
      | "all" => keep (.bool (← first fuel ctx f bound (!·.isTrue) items 0 pos).isNone)
      | "find" =>
        keep ((← first fuel ctx f bound Value.isTrue items 0 pos).elim .unit (·.2.1))
      | "index_of" =>
        keep (.int ((← first fuel ctx f bound Value.isTrue items 0 pos).elim (-1) (·.1)))
      | "find_map" =>
        keep ((← first fuel ctx f bound (!·.isUnit) items 0 pos).elim .unit (·.2.2))
      | "reduce" => keep (← reduced fuel ctx f bound .unit (items.zipIdx) pos)
      | "reduce_rev" => keep (← reduced fuel ctx f bound .unit items.zipIdx.reverse pos)
      | "for_each" =>
        allow
        change (.array (← eachChanged fuel ctx f bound items 0 pos)) .unit
      | "retain" =>
        allow
        let found ← answers fuel ctx f bound items 0 pos
        let (kept, taken) := partitionByAnswers (items.zip found)
        change (.array kept) (.array taken)
      | "drain" =>
        allow
        let found ← answers fuel ctx f bound items 0 pos
        let (taken, kept) := partitionByAnswers (items.zip found)
        change (.array kept) (.array taken)
      | "sort" =>
        allow
        change (.array (← sortedBy fuel ctx f bound items pos)) .unit
      | _ => return none
    | .array items, [initial] =>
      match name with
      | "reduce" => keep (← reduced fuel ctx f bound initial (items.zipIdx) pos)
      | "reduce_rev" => keep (← reduced fuel ctx f bound initial items.zipIdx.reverse pos)
      | _ => return none
    | .map entries, [] =>
      if name == "filter" || name == "retain" || name == "drain" then
        let found ← memberAnswers fuel ctx f bound entries pos
        let kept := ((entries.zip found).filter (·.2.isTrue)).map (·.1)
        let others := ((entries.zip found).filter (!·.2.isTrue)).map (·.1)
        if name == "filter" then keep (.map kept)
        else
          allow
          if name == "retain" then change (.map kept) (.map others)
          else change (.map others) (.map kept)
      else return none
    | _, _ => return none
termination_by structural n => n

def answers : Nat → Context → String → List Value → List Value → Nat → Position →
    Eval (List Value)
  | 0, _, _, _, _, _, _ => noSteps
  | _ + 1, _, _, _, [], _, _ => return []
  | fuel + 1, ctx, f, bound, item :: rest, place, pos => do
    let args := fittingArguments ctx f bound [item] [.int place]
    let (answer, _) ← pointer fuel ctx f args none pos
    return answer :: (← answers fuel ctx f bound rest (place + 1) pos)
termination_by structural n => n

def first : Nat → Context → String → List Value → (Value → Bool) → List Value → Nat → Position →
    Eval (Option (Nat × Value × Value))
  | 0, _, _, _, _, _, _, _ => noSteps
  | _ + 1, _, _, _, _, [], _, _ => return none
  | fuel + 1, ctx, f, bound, accepted, item :: rest, place, pos => do
    let args := fittingArguments ctx f bound [item] [.int place]
    let (answer, _) ← pointer fuel ctx f args none pos
    if accepted answer then return some (place, item, answer)
    else first fuel ctx f bound accepted rest (place + 1) pos
termination_by structural n => n

def reduced : Nat → Context → String → List Value → Value → List (Value × Nat) → Position →
    Eval Value
  | 0, _, _, _, _, _, _ => noSteps
  | _ + 1, _, _, _, result, [], _ => return result
  | fuel + 1, ctx, f, bound, result, (item, place) :: rest, pos => do
    let args := fittingArguments ctx f bound [result, item] [.int place]
    let (result, _) ← pointer fuel ctx f args none pos
    reduced fuel ctx f bound result rest pos
termination_by structural n => n

def eachChanged : Nat → Context → String → List Value → List Value → Nat → Position →
    Eval (List Value)
  | 0, _, _, _, _, _, _ => noSteps
  | _ + 1, _, _, _, [], _, _ => return []
  | fuel + 1, ctx, f, bound, item :: rest, place, pos => do
    let args := fittingArguments ctx f bound [] [.int place]
    let (_, changed) ← pointer fuel ctx f args (some item) pos
    return changed.getD item :: (← eachChanged fuel ctx f bound rest (place + 1) pos)
termination_by structural n => n

def memberAnswers : Nat → Context → String → List Value → List (String × Value) → Position →
    Eval (List Value)
  | 0, _, _, _, _, _ => noSteps
  | _ + 1, _, _, _, [], _ => return []
  | fuel + 1, ctx, f, bound, (key, value) :: rest, pos => do
    let (answer, _) ← pointer fuel ctx f (bound ++ [.text key, value]) none pos
    return answer :: (← memberAnswers fuel ctx f bound rest pos)
termination_by structural n => n

def sortedBy : Nat → Context → String → List Value → List Value → Position → Eval (List Value)
  | 0, _, _, _, _, _ => noSteps
  | _ + 1, _, _, _, [], _ => return []
  | fuel + 1, ctx, f, bound, item :: rest, pos => do
    insertedBy fuel ctx f bound item (← sortedBy fuel ctx f bound rest pos) pos
termination_by structural n => n

def insertedBy : Nat → Context → String → List Value → Value → List Value → Position →
    Eval (List Value)
  | 0, _, _, _, _, _, _ => noSteps
  | _ + 1, _, _, _, item, [], _ => return [item]
  | fuel + 1, ctx, f, bound, item, other :: rest, pos => do
    let (answer, _) ← pointer fuel ctx f (bound ++ [other, item]) none pos
    if answer.putsFirst then
      return other :: (← insertedBy fuel ctx f bound item rest pos)
    else return item :: other :: rest
termination_by structural n => n

def statements : Nat → Context → List Stmt → Eval Value
  | 0, _, _ => noSteps
  | _ + 1, _, [] => return .unit
  | fuel + 1, ctx, [s] => statement fuel ctx s
  | fuel + 1, ctx, s :: rest => do
    let _ ← statement fuel ctx s
    statements fuel ctx rest
termination_by structural n => n

def block : Nat → Context → List Stmt → Eval Value
  | 0, _, _ => noSteps
  | fuel + 1, ctx, body => locally (statements fuel ctx body)
termination_by structural n => n

def statement : Nat → Context → Stmt → Eval Value
  | 0, _, _ => noSteps
  | fuel + 1, ctx, s => do
    operation ctx .none
    match s with
    | .expr e => expression fuel ctx e
    | .declare name value fixed =>
      let value ← optional fuel ctx value
      modify fun run => run.declare name value fixed
      return .unit
    | .assign target op value pos =>
      let value ← expression fuel ctx value
      assignment fuel ctx target op value pos
      return .unit
    | .block body => block fuel ctx body
    | .branch condition body otherwise =>
      if ← truth condition.pos (← expression fuel ctx condition) then block fuel ctx body
      else block fuel ctx otherwise
    | .switch subject cases otherwise =>
      let value ← expression fuel ctx subject
      switch fuel ctx (Case.fitting value cases) otherwise
    | .loopWhile condition body => loopWhile fuel ctx condition body
    | .loopUntil body condition wanted => loopUntil fuel ctx body condition wanted
    | .forEach name counter items body =>
      let value ← expression fuel ctx items
      match Items.of? value with
      | some found => forEach fuel ctx name counter found 0 body
      | none => failAt items.firstPos .notIterable
    | .attempt body caught handler => attempt fuel ctx body caught handler
    | .leave value => throw (.leave (← optional fuel ctx value))
    | .again => throw .again
    | .answer value => throw (.answer (← optional fuel ctx value))
    | .throwValue value pos => failAt pos (.thrown (← optional fuel ctx value))
    | .importModule path =>
      match ← expression fuel ctx path with
      | .text name => failAt path.pos (.unknownModule name)
      | v => failAt path.pos (.wrongType v.givenTypeName "string")
    | .exportName name pos =>
      match ← variableValue? name with
      | some _ => return .unit
      | none => failAt pos (.unknownVariable name)
termination_by structural n => n

def optional : Nat → Context → Option Expr → Eval Value
  | 0, _, _ => noSteps
  | _ + 1, _, none => return .unit
  | fuel + 1, ctx, some e => expression fuel ctx e
termination_by structural n => n

def assignment : Nat → Context → Expr → Option BinaryOp → Value → Position → Eval Unit
  | 0, _, _, _, _, _ => noSteps
  | fuel + 1, ctx, target, op, value, pos => do
    let (root, links) :=
      match target with
      | .access root links _ => (root, links)
      | target => (target, [])
    let (path, _) := Step.splitPath (← steps fuel ctx links)
    let name :=
      match root with
      | .variable name _ => name
      | _ => receiverName
    match ← variableValue? name with
    | none =>
      match root with
      | .variable name pos => failAt pos (.unknownVariable name)
      | root => failAt root.pos .noReceiver
    | some (found, before) =>
      if found.fixed then failAt root.pos (.constant name)
      else
        match splitLast? path with
        | none =>
          let value ← changed ctx op pos before value
          modify fun run => run.assign name value
        | some (path, last) =>
          match op with
          | none =>
            let value ← ofResult (before.assignAt path last (fun _ => .ok value) false)
            modify fun run => run.assign name value
          | some _ =>
            match ← ofResult (before.part path) with
            | none => return
            | some inner =>
              let value ← changed ctx op pos (← ofResult (inner.atStep last)) value
              let value ← ofResult (before.assignAt path last (fun _ => .ok value) false)
              modify fun run => run.assign name value
termination_by structural n => n

def switch : Nat → Context → List Case → Option Expr → Eval Value
  | 0, _, _, _ => noSteps
  | fuel + 1, ctx, [], otherwise => optional fuel ctx otherwise
  | fuel + 1, ctx, .mk _ _ guard result :: rest, otherwise => do
    let holds ←
      match guard with
      | none => pure true
      | some condition => truth condition.pos (← expression fuel ctx condition)
    if holds then expression fuel ctx result else switch fuel ctx rest otherwise
termination_by structural n => n

def loopWhile : Nat → Context → Option Expr → List Stmt → Eval Value
  | 0, _, _, _ => noSteps
  | fuel + 1, ctx, condition, body => fun run =>
    let test : Eval Bool := do
      operation ctx .none
      match condition with
      | none => return true
      | some condition => truth condition.pos (← expression fuel ctx condition)
    match test run with
    | (.error interruption, run) => (.error interruption, run)
    | (.ok false, run) => (.ok .unit, run)
    | (.ok true, run) =>
      match block fuel ctx body run with
      | (.ok _, run) => loopWhile fuel ctx condition body run
      | (.error .again, run) => loopWhile fuel ctx condition body run
      | (.error (.leave value), run) => (.ok value, run)
      | (.error interruption, run) => (.error interruption, run)
termination_by structural n => n

def loopUntil : Nat → Context → List Stmt → Expr → Bool → Eval Value
  | 0, _, _, _, _ => noSteps
  | fuel + 1, ctx, body, condition, wanted => fun run =>
    let test : Eval Bool := do
      operation ctx .none
      truth condition.pos (← expression fuel ctx condition)
    let next (run : Run) : Except Interruption Value × Run :=
      match test run with
      | (.error interruption, run) => (.error interruption, run)
      | (.ok goesOn, run) =>
        if goesOn == wanted then loopUntil fuel ctx body condition wanted run else (.ok .unit, run)
    match block fuel ctx body run with
    | (.ok _, run) => next run
    | (.error .again, run) => next run
    | (.error (.leave value), run) => (.ok value, run)
    | (.error interruption, run) => (.error interruption, run)
termination_by structural n => n

def forEach : Nat → Context → String → Option String → Items → Nat → List Stmt → Eval Value
  | 0, _, _, _, _, _, _ => noSteps
  | fuel + 1, ctx, name, counter, items, place, body => fun run =>
    match items.next? with
    | none => (.ok .unit, run)
    | some (item, rest) =>
      let round : Eval Value := locally do
        operation ctx .none
        if let some counter := counter then
          modify fun run => run.declare counter (.int place) false
        modify fun run => run.declare name item false
        statements fuel ctx body
      match round run with
      | (.ok _, run) => forEach fuel ctx name counter rest (place + 1) body run
      | (.error .again, run) => forEach fuel ctx name counter rest (place + 1) body run
      | (.error (.leave value), run) => (.ok value, run)
      | (.error interruption, run) => (.error interruption, run)
termination_by structural n => n

/-- Runs statements; a failure that can be caught is handled, and thrown on by an empty `throw`. -/
def attempt : Nat → Context → List Stmt → Option String → List Stmt → Eval Value
  | 0, _, _, _, _ => noSteps
  | fuel + 1, ctx, body, caught, handler => fun run =>
    match block fuel ctx body run with
    | (.error (.failure failure report), run) =>
      if failure.fault.stopsRun then (.error (.failure failure report), run)
      else
        let handled : Eval Value := locally do
          if let some name := caught then
            modify fun run => run.declare name failure.caughtValue false
          statements fuel ctx handler
        match handled run with
        | (.ok _, run) => (.ok .unit, run)
        | (.error (.failure ⟨.thrown .unit, pos⟩ _), run) =>
          (.error (.failure { failure with pos } report), run)
        | (.error interruption, run) => (.error interruption, run)
    | result => result
termination_by structural n => n

end

end Eval

end FormDerivation.Script
