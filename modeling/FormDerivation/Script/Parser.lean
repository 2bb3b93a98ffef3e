import FormDerivation.Script.Lexer
import FormDerivation.Script.Syntax

/-!
Reading scripts.

Expressions are read by precedence, statements up to their semicolons.  The parser keeps the names
that are declared around it: assigning to one of its constants is a fault, and a closure captures
the names that it does not declare itself.
-/

namespace FormDerivation.Script

structure SyntaxFault where
  pos : Position
  deriving DecidableEq, Repr

structure ParserState where
  input : List Lexeme
  /-- The names declared so far, the last one first, and whether they are constants. -/
  scope : List (String × Bool)
  free : List (String × Position)
  functions : List Function

abbrev Parser := StateT ParserState (Except SyntaxFault)

structure Surroundings where
  inLoop : Bool
  inFunction : Bool
  topLevel : Bool
  limits : ScriptLimits

namespace Surroundings

def nested (around : Surroundings) : Surroundings :=
  { around with topLevel := false }

def loopBody (around : Surroundings) : Surroundings :=
  { around with topLevel := false, inLoop := true }

def functionBody (around : Surroundings) : Surroundings :=
  { around with topLevel := false, inLoop := false, inFunction := true }

end Surroundings

namespace Parser

/-! ## Tokens -/

def here : Parser Position := do
  match (← get).input with
  | lexeme :: _ => return lexeme.pos
  | [] => return .none

def fail {α : Type} : Parser α := do
  throw ⟨← here⟩

def peek? : Parser (Option Token) := do
  return (← get).input.head?.map (·.token)

def skip : Parser Unit :=
  modify fun state => { state with input := state.input.drop 1 }

def atSymbol (s : String) : Parser Bool := do
  match ← peek? with
  | some (.symbol t) => return s == t
  | _ => return false

def atKeyword (s : String) : Parser Bool := do
  match ← peek? with
  | some (.keyword t) => return s == t
  | _ => return false

def takeSymbol (s : String) : Parser Bool := do
  if ← atSymbol s then
    skip
    return true
  else return false

def takeKeyword (s : String) : Parser Bool := do
  if ← atKeyword s then
    skip
    return true
  else return false

def expectSymbol (s : String) : Parser Unit := do
  unless ← takeSymbol s do fail

def expectKeyword (s : String) : Parser Unit := do
  unless ← takeKeyword s do fail

def expectName : Parser String := do
  match ← peek? with
  | some (.name s) =>
    if functionWords.contains s then fail
    else
      skip
      return s
  | _ => fail

/-! ## Names -/

def declare (name : String) (fixed : Bool) : Parser Unit :=
  modify fun state => { state with scope := (name, fixed) :: state.scope }

def isFixed (name : String) : Parser Bool := do
  return ((← get).scope.lookup name).getD false

def useName (name : String) (pos : Position) : Parser Unit :=
  modify fun state =>
    if (state.scope.lookup name).isSome || (state.free.lookup name).isSome
        || state.functions.any (·.name == name) then state
    else { state with free := state.free ++ [(name, pos)] }

def locally {α : Type} (parser : Parser α) : Parser α := do
  let scope := (← get).scope
  let result ← parser
  modify fun state => { state with scope }
  return result

/-! ## Operators -/

inductive Joint where
  | op (op : BinaryOp)
  | both
  | either
  | orElse
  | isIn
  | isNotIn

def Joint.ofToken? : Token → Option Joint
  | .symbol "&&" => some .both
  | .symbol "||" => some .either
  | .symbol "??" => some .orElse
  | .symbol "!in" => some .isNotIn
  | .keyword "in" => some .isIn
  | .symbol s => (BinaryOp.ofSymbol? s).map .op
  | _ => none

def Joint.precedence : Joint → Nat
  | .either => 30
  | .op .bitXor => 30
  | .op .bitOr => 30
  | .both => 60
  | .op .bitAnd => 60
  | .op .equal => 90
  | .op .unequal => 90
  | .isIn => 110
  | .isNotIn => 110
  | .op .less => 130
  | .op .lessEqual => 130
  | .op .greater => 130
  | .op .greaterEqual => 130
  | .orElse => 135
  | .op .range => 140
  | .op .rangeInclusive => 140
  | .op .add => 150
  | .op .subtract => 150
  | .op .multiply => 180
  | .op .divide => 180
  | .op .modulo => 180
  | .op .power => 190
  | .op .shiftLeft => 210
  | .op .shiftRight => 210

def Joint.bindsRight : Joint → Bool
  | .op .power => true
  | _ => false

def Joint.join (joint : Joint) (left right : Expr) (pos : Position) : Parser Expr := do
  match joint with
  | .op operator => return .binary operator left right pos
  | .both =>
    if left.neverBool || right.neverBool then fail else return .conjunction left right pos
  | .either =>
    if left.neverBool || right.neverBool then fail else return .disjunction left right pos
  | .orElse => return .orElse left right pos
  | .isIn => return .call "contains" [right, left] pos
  | .isNotIn => return .unary .not (.call "contains" [right, left] pos) pos

def joint? : Parser (Option Joint) := do
  return (← peek?).bind Joint.ofToken?

def assignment? : Token → Option (Option BinaryOp)
  | .symbol "=" => some none
  | .symbol s =>
    match s.toList.reverse with
    | '=' :: rest => (BinaryOp.ofSymbol? (String.ofList rest.reverse)).bind fun op =>
      if op.isComparison || s == "==" || s == "!=" || s == "<=" || s == ">=" || s == "..=" then none
      else some (some op)
    | _ => none
  | _ => none

/-- An operator in front of an operand; the sign of a written number belongs to it. -/
def signed (op : UnaryOp) (operand : Expr) (pos : Position) : Expr :=
  match op, operand with
  | .minus, .constant (.int n) _ => .constant (.int (-n)) pos
  | .minus, .constant (.float x) _ => .constant (.float (-x)) pos
  | .plus, .constant (.int n) _ => .constant (.int n) pos
  | .plus, .constant (.float x) _ => .constant (.float x) pos
  | op, operand => .unary op operand pos

def unaryOp? : Token → Option UnaryOp
  | .symbol "-" => some .minus
  | .symbol "+" => some .plus
  | .symbol "!" => some .not
  | _ => none

def indexFits (root : Expr) (index : Expr) : Bool :=
  match index with
  | .constant (.int _) _ =>
    match root with
    | .map _ _ => false
    | .constant (.int _) _ => true
    | .constant (.text _) _ => true
    | .constant _ _ => false
    | .both _ _ _ => false
    | .either _ _ _ => false
    | _ => true
  | .constant (.text _) _ =>
    match root with
    | .map _ _ => true
    | .array _ _ => false
    | .template _ _ => false
    | .constant _ _ => false
    | .both _ _ _ => false
    | .either _ _ _ => false
    | _ => true
  | .constant _ _ => false
  | .both _ _ _ => false
  | .either _ _ _ => false
  | _ => true

def isPlace : Expr → Bool
  | .variable _ _ => true
  | .receiver _ => true
  | .access (.variable _ _) links _ => links.all fun
    | .method _ _ _ _ => false
    | _ => true
  | .access (.receiver _) links _ => links.all fun
    | .method _ _ _ _ => false
    | _ => true
  | _ => false

def neverIterable : Expr → Bool
  | .constant (.text _) _ => false
  | .constant (.range _ _ _) _ => false
  | .constant _ _ => true
  | .both _ _ _ => true
  | .either _ _ _ => true
  | .map _ _ => true
  | _ => false

def spanOf (first last : Int) (inclusive : Bool) : Int × Int :=
  (first, if inclusive then last else last - 1)

def integersOf (span : Int × Int) : List Value :=
  (List.range (span.2 - span.1 + 1).toNat).map fun (n : Nat) => .int (span.1 + n)

def shortSpan : Int := 16

/--
The values and spans of the labels of a case.  A short range counts as its integers, unless a long
one came before it (`hasSpans`).
-/
def splitLabels (hasSpans : Bool) : List Value → List Value × List (Int × Int)
  | [] => ([], [])
  | .range first last inclusive :: rest =>
    let span := spanOf first last inclusive
    if span.2 - span.1 + 1 ≤ shortSpan && !hasSpans then
      let (values, spans) := splitLabels hasSpans rest
      (integersOf span ++ values, spans)
    else
      let (values, spans) := splitLabels true rest
      (values, span :: spans)
  | value :: rest =>
    let (values, spans) := splitLabels hasSpans rest
    (value :: values, spans)

def closureName (number : Nat) : String :=
  "anon$" ++ String.ofList (List.replicate (16 - (toString number).length) '0') ++ toString number

def checkSize (limit size : Nat) : Parser Unit := do
  if limit != 0 && limit < size then fail

/-! ## Expressions and statements -/

mutual

def expression : Nat → Surroundings → Parser Expr
  | 0, _ => fail
  | fuel + 1, around => do
    let left ← unary fuel around
    joined fuel around 0 left

def joined : Nat → Surroundings → Nat → Expr → Parser Expr
  | 0, _, _, _ => fail
  | fuel + 1, around, outer, left => do
    match ← joint? with
    | none => return left
    | some joint =>
      if joint.precedence < outer || (joint.precedence == outer && !joint.bindsRight) then
        return left
      else
        let pos ← here
        skip
        let right ← unary fuel around
        let right ←
          match ← joint? with
          | none => pure right
          | some next =>
            if joint.precedence < next.precedence ||
                (joint.precedence == next.precedence && joint.bindsRight) then
              joined fuel around joint.precedence right
            else pure right
        joined fuel around outer (← joint.join left right pos)

def unary : Nat → Surroundings → Parser Expr
  | 0, _ => fail
  | fuel + 1, around => do
    match (← peek?).bind unaryOp? with
    | some op =>
      let pos ← here
      skip
      return signed op (← unary fuel around) pos
    | none =>
      let root ← primary fuel around
      let pos ← here
      let links ← links fuel around root
      return if links.isEmpty then root else .access root links pos

def primary : Nat → Surroundings → Parser Expr
  | 0, _ => fail
  | fuel + 1, around => do
    let pos ← here
    match ← peek? with
    | none => fail
    | some token =>
      match token with
      | .int n => skip; return .constant (.int n) pos
      | .float x => skip; return .constant (.float x) pos
      | .char c => skip; return .constant (.char c) pos
      | .text s =>
        checkSize around.limits.maxStringSize s.utf8ByteSize
        skip
        return .constant (.text s) pos
      | .piece s true =>
        checkSize around.limits.maxStringSize s.utf8ByteSize
        skip
        return .constant (.text s) pos
      | .piece _ false => return .template (← pieces fuel around) pos
      | .name name => skip; named fuel around name pos
      | .keyword "true" => skip; return .constant (.bool true) pos
      | .keyword "false" => skip; return .constant (.bool false) pos
      | .keyword "this" =>
        if around.inFunction then
          skip
          return .receiver pos
        else fail
      | .keyword word =>
        if ["if", "switch", "while", "loop", "do", "for"].contains word then
          return .statement (← statement fuel around.nested) pos
        else fail
      | .symbol "(" =>
        skip
        if ← takeSymbol ")" then return .constant .unit pos
        else
          let e ← expression fuel around
          expectSymbol ")"
          return e
      | .symbol "[" =>
        skip
        let items ← arguments fuel around "]"
        checkSize around.limits.maxArraySize items.length
        return .array items pos
      | .symbol "#\x7b" =>
        skip
        let members ← mapMembers fuel around []
        checkSize around.limits.maxMapSize members.length
        return .map members pos
      | .symbol "\x7b" => return .statement (.block (← block fuel around.nested)) pos
      | .symbol "|" =>
        skip
        let parameters ← names fuel "|" []
        closure fuel around parameters pos
      | .symbol "||" => skip; closure fuel around [] pos
      | _ => fail

def named : Nat → Surroundings → String → Position → Parser Expr
  | 0, _, _, _ => fail
  | fuel + 1, around, name, pos => do
    if ← takeSymbol "(" then return .call name (← arguments fuel around ")") pos
    else if functionWords.contains name then fail
    else if ← atSymbol "::" then inModule fuel around [] name pos
    else
      useName name pos
      return .variable name pos

def inModule : Nat → Surroundings → List String → String → Position → Parser Expr
  | 0, _, _, _, _ => fail
  | fuel + 1, around, path, name, pos => do
    let last ← here
    if ← takeSymbol "::" then
      let pathHere := path ++ [name]
      let inner ← here
      match ← peek? with
      | some (.name next) =>
        if functionWords.contains next then fail
        else
          skip
          if ← atSymbol "::" then inModule fuel around pathHere next pos
          else if ← takeSymbol "(" then
            return .moduleCall pathHere next (← arguments fuel around ")") pos inner
          else return .moduleName pathHere next pos
      | _ => throw ⟨last⟩
    else fail

def arguments : Nat → Surroundings → String → Parser (List Expr)
  | 0, _, _ => fail
  | fuel + 1, around, closing => do
    if ← takeSymbol closing then return []
    else
      let first ← expression fuel around
      if ← takeSymbol closing then return [first]
      else
        expectSymbol ","
        return first :: (← arguments fuel around closing)

def mapMembers : Nat → Surroundings → List String → Parser (List (String × Expr))
  | 0, _, _ => fail
  | fuel + 1, around, before => do
    if ← takeSymbol "\x7d" then return []
    else
      let key ←
        match ← peek? with
        | some (.text s) => do skip; pure s
        | _ => expectName
      if before.contains key then fail
      expectSymbol ":"
      let value ← expression fuel around
      if ← takeSymbol "\x7d" then return [(key, value)]
      else
        expectSymbol ","
        return (key, value) :: (← mapMembers fuel around (key :: before))

/-- Different names between commas up to a closing symbol, behind those in `before`. -/
def names : Nat → String → List String → Parser (List String)
  | 0, _, _ => fail
  | fuel + 1, closing, before => do
    if ← takeSymbol closing then return before
    else
      let name ← expectName
      if before.contains name then fail
      if ← takeSymbol closing then return before ++ [name]
      else
        expectSymbol ","
        names fuel closing (before ++ [name])

def pieces : Nat → Surroundings → Parser (List Expr)
  | 0, _ => fail
  | fuel + 1, around => do
    let pos ← here
    match ← peek? with
    | some (.piece s last) =>
      checkSize around.limits.maxStringSize s.utf8ByteSize
      skip
      if last then return [.constant (.text s) pos]
      else
        let blockPos ← here
        let body ← block fuel around.nested
        return .constant (.text s) pos :: .statement (.block body) blockPos ::
          (← pieces fuel around)
    | _ => fail

def closure : Nat → Surroundings → List String → Position → Parser Expr
  | 0, _, _, _ => fail
  | fuel + 1, around, parameters, pos => do
    let outer ← get
    set { outer with scope := parameters.map fun name => (name, false), free := [] }
    let body ← statement fuel around.functionBody
    let captured := (← get).free
    let name := closureName (← get).functions.length
    modify fun state =>
      { state with
        scope := outer.scope
        free := outer.free
        functions := ⟨name, captured.map (·.1) ++ parameters, [body], true⟩ :: state.functions }
    captured.forM fun use => useName use.1 use.2
    return .closure name captured pos

def links : Nat → Surroundings → Expr → Parser (List Link)
  | 0, _, _ => fail
  | fuel + 1, around, root => do
    let pos ← here
    match ← peek? with
    | some (.symbol s) =>
      if s == "[" || s == "?[" then
        skip
        let index ← expression fuel around
        expectSymbol "]"
        unless indexFits root index do fail
        let next := Link.index index (s == "?[") pos
        return next :: (← links fuel around (.access root [next] pos))
      else if s == "." || s == "?." then
        skip
        let namePos ← here
        match ← peek? with
        | some (.name name) =>
          skip
          let optional := s == "?."
          if ← takeSymbol "(" then
            let args ← arguments fuel around ")"
            let next := Link.method name args optional namePos
            return next :: (← links fuel around (.access root [next] pos))
          else if functionWords.contains name then fail
          else
            let next := Link.property name optional namePos
            return next :: (← links fuel around (.access root [next] pos))
        | _ => fail
      else return []
    | _ => return []

def block : Nat → Surroundings → Parser (List Stmt)
  | 0, _ => fail
  | fuel + 1, around => do
    expectSymbol "\x7b"
    locally (statements fuel around true)

def statements : Nat → Surroundings → Bool → Parser (List Stmt)
  | 0, _, _ => fail
  | fuel + 1, around, braced => do
    match ← peek? with
    | none => if braced then fail else return []
    | some (.symbol ";") => skip; statements fuel around braced
    | some token =>
      let closing := match token with
        | .symbol s => braced && s == "\x7d"
        | _ => false
      if closing then
        skip
        return []
      else
        let defined ← definition fuel around
        if defined then statements fuel around braced
        else
          let first ← statement fuel around
          let atEnd := (← get).input.isEmpty
          let atClosing ← atSymbol "\x7d"
          if ← takeSymbol ";" then return first :: (← statements fuel around braced)
          else if first.endsItself || (atEnd && !braced) || (atClosing && braced) then
            return first :: (← statements fuel around braced)
          else fail

def definition : Nat → Surroundings → Parser Bool
  | 0, _ => fail
  | fuel + 1, around => do
    let hidden ← takeKeyword "private"
    if ← takeKeyword "fn" then
      unless around.topLevel do fail
      let name ← expectName
      expectSymbol "("
      let parameters ← names fuel ")" []
      if (← get).functions.any fun f =>
          f.name == name && f.parameters.length == parameters.length then fail
      let outer ← get
      set { outer with scope := parameters.map fun name => (name, false), free := [] }
      let body ← block fuel around.functionBody
      modify fun state =>
        { state with
          scope := outer.scope
          free := outer.free
          functions := ⟨name, parameters, body, false⟩ :: state.functions }
      return true
    else if hidden then fail
    else return false

def condition : Nat → Surroundings → Parser Expr
  | 0, _ => fail
  | fuel + 1, around => do
    if ← atSymbol "\x7b" then fail
    let e ← expression fuel around.nested
    if e.neverBool then fail else return e

def statement : Nat → Surroundings → Parser Stmt
  | 0, _ => fail
  | fuel + 1, around => do
    let pos ← here
    match ← peek? with
    | some (.symbol "\x7b") => return .block (← block fuel around.nested)
    | some (.keyword word) =>
      if word == "if" then branch fuel around.nested
      else if word == "switch" then
        skip
        if ← atSymbol "\x7b" then fail
        let subject ← expression fuel around.nested
        expectSymbol "\x7b"
        let (cases, otherwise) ← switchCases fuel around.nested false
        return .switch subject cases otherwise
      else if word == "while" then
        skip
        let condition ← condition fuel around.nested
        return .loopWhile (some condition) (← block fuel around.loopBody)
      else if word == "loop" then
        skip
        return .loopWhile none (← block fuel around.loopBody)
      else if word == "do" then
        skip
        let body ← block fuel around.loopBody
        let wanted ← takeKeyword "while"
        unless wanted do expectKeyword "until"
        return .loopUntil body (← condition fuel around.nested) wanted
      else if word == "for" then
        skip
        forEach fuel around.nested
      else if word == "let" || word == "const" then
        skip
        let name ← expectName
        let value ←
          if ← takeSymbol "=" then pure (some (← expression fuel around.nested)) else pure none
        declare name (word == "const")
        return .declare name value (word == "const")
      else if word == "break" || word == "continue" then
        unless around.inLoop do fail
        skip
        if word == "continue" then return .again
        else return .leave (← optionalValue fuel around)
      else if word == "return" then
        skip
        return .answer (← optionalValue fuel around)
      else if word == "throw" then
        skip
        return .throwValue (← optionalValue fuel around) pos
      else if word == "try" then
        skip
        let body ← block fuel around.nested
        expectKeyword "catch"
        if ← takeSymbol "(" then
          let name ← expectName
          expectSymbol ")"
          let handler ← locally do
            declare name false
            block fuel around.nested
          return .attempt body (some name) handler
        else return .attempt body none (← block fuel around.nested)
      else if word == "import" then
        skip
        let path ← expression fuel around.nested
        if ← takeKeyword "as" then
          let name ← expectName
          declare name true
        return .importModule path
      else if word == "export" then
        unless around.topLevel do fail
        skip
        let namePos ← here
        let name ← expectName
        useName name namePos
        if ← takeKeyword "as" then
          let _ ← expectName
        return .exportName name namePos
      else expressionStatement fuel around.nested
    | _ => expressionStatement fuel around.nested

def expressionStatement : Nat → Surroundings → Parser Stmt
  | 0, _ => fail
  | fuel + 1, around => do
    let target ← expression fuel around
    match (← peek?).bind assignment? with
    | none => return .expr target
    | some op =>
      unless isPlace target do fail
      match target with
      | .variable name _ => if ← isFixed name then fail
      | _ => pure ()
      let pos ← here
      skip
      return .assign target op (← expression fuel around) pos

def optionalValue : Nat → Surroundings → Parser (Option Expr)
  | 0, _ => fail
  | fuel + 1, around => do
    let missing :=
      match ← peek? with
      | none => true
      | some (.symbol s) => s == ";" || s == "\x7d"
      | some _ => false
    if missing then return none else return some (← expression fuel around.nested)

def branch : Nat → Surroundings → Parser Stmt
  | 0, _ => fail
  | fuel + 1, around => do
    expectKeyword "if"
    let condition ← condition fuel around
    let body ← block fuel around
    if ← takeKeyword "else" then
      if ← atKeyword "if" then return .branch condition body [← branch fuel around]
      else return .branch condition body (← block fuel around)
    else return .branch condition body []

def forEach : Nat → Surroundings → Parser Stmt
  | 0, _ => fail
  | fuel + 1, around => do
    let (name, counter) ←
      if ← takeSymbol "(" then do
        let name ← expectName
        expectSymbol ","
        let counter ← expectName
        if name == counter then fail
        expectSymbol ")"
        pure (name, some counter)
      else do pure (← expectName, none)
    expectKeyword "in"
    if ← atSymbol "\x7b" then fail
    let items ← expression fuel around
    if neverIterable items then fail
    let body ← locally do
      if let some counter := counter then declare counter false
      declare name false
      block fuel around.loopBody
    return .forEach name counter items body

/-- The cases of a `switch` up to its closing brace, and the one for all other values. -/
def switchCases : Nat → Surroundings → Bool → Parser (List Case × Option Expr)
  | 0, _, _ => fail
  | fuel + 1, around, hasSpans => do
    if ← takeSymbol "\x7d" then return ([], none)
    else if ← takeSymbol "_" then
      if ← atKeyword "if" then fail
      expectSymbol "=>"
      let (result, endsItself) ← caseResult fuel around
      let _ ← takeSymbol ","
      let _ := endsItself
      expectSymbol "\x7d"
      return ([], some result)
    else
      let labels ← caseLabels fuel around
      let (values, spans) := splitLabels hasSpans labels
      let guard ←
        if ← takeKeyword "if" then pure (some (← condition fuel around)) else pure none
      expectSymbol "=>"
      let (result, endsItself) ← caseResult fuel around
      let comma ← takeSymbol ","
      let closing ← atSymbol "\x7d"
      unless comma || closing || endsItself do fail
      let (cases, otherwise) ← switchCases fuel around (hasSpans || !spans.isEmpty)
      return (.mk values spans guard result :: cases, otherwise)

def caseResult : Nat → Surroundings → Parser (Expr × Bool)
  | 0, _ => fail
  | fuel + 1, around => do
    let pos ← here
    let body ← statement fuel around
    return (.statement (.block [body]) pos, body.endsItself)

def caseLabels : Nat → Surroundings → Parser (List Value)
  | 0, _ => fail
  | fuel + 1, around => do
    let left ← unary fuel around
    let e ← joined fuel around 30 left
    match e.literal? with
    | none => fail
    | some value =>
      if ← takeSymbol "|" then return value :: (← caseLabels fuel around)
      else return [value]

end

def program (limits : ScriptLimits) (fuel : Nat) : Parser Program := do
  let body ← statements fuel ⟨false, false, true, limits⟩ false
  return ⟨(← get).functions, body⟩

end Parser

def Program.parse (limits : ScriptLimits) (code : String) : Except SyntaxFault Program :=
  match tokenize code with
  | .error fault => .error ⟨fault.pos⟩
  | .ok lexemes =>
    (Parser.program limits (20 * lexemes.length + 20)).run' ⟨lexemes, [], [], []⟩

end FormDerivation.Script
