import FormDerivation.Decimal.Reader
import FormDerivation.Script.Token

/-!
Splitting the source of a script into tokens.

Blanks and comments are passed over; a symbol is as long as possible.  Templates are split into
their pieces and the tokens of the blocks between them: `Mode` remembers how many braces are open
in each block, so that the brace which closes the block continues the template.
-/

namespace FormDerivation.Script

structure LexFault where
  pos : Position
  deriving DecidableEq, Repr

structure Source where
  rest : List Char
  pos : Position
  deriving DecidableEq, Repr

namespace Source

def start (code : String) : Source :=
  ⟨code.toList, .start⟩

def skip (n : Nat) (s : Source) : Source :=
  ⟨s.rest.drop n, s.pos.afterAll (s.rest.take n)⟩

def upTo (s : Source) (rest : List Char) : Source :=
  s.skip (s.rest.length - rest.length)

end Source

/-! ## Numbers -/

def digitValue? (base : Nat) (c : Char) : Option Nat :=
  let value? : Option Nat :=
    if Text.isDigit c then some (c.toNat - '0'.toNat)
    else if 'a' ≤ c ∧ c ≤ 'f' then some (c.toNat - 'a'.toNat + 10)
    else if 'A' ≤ c ∧ c ≤ 'F' then some (c.toNat - 'A'.toNat + 10)
    else none
  value?.filter (· < base)

def numberInBase? (base : Nat) (cs : List Char) : Option Nat :=
  if cs.isEmpty then none
  else cs.foldl (fun n c => do some (base * (← n) + (← digitValue? base c))) (some 0)

/-- Splits off digits; underscores between them do not count. -/
def spanDigits (base : Nat) (cs : List Char) : List Char × List Char :=
  let run := cs.takeWhile fun c => c == '_' || (digitValue? base c).isSome
  (run.filter (· != '_'), cs.drop run.length)

def baseOf? : List Char → Option (Nat × List Char)
  | '0' :: letter :: rest =>
    if letter == 'x' || letter == 'X' then some (16, rest)
    else if letter == 'o' || letter == 'O' then some (8, rest)
    else if letter == 'b' || letter == 'B' then some (2, rest)
    else none
  | _ => none

def isNameStart (c : Char) : Bool :=
  Text.isLetter c || c == '_'

def isNameChar (c : Char) : Bool :=
  Text.isAlphanumeric c || c == '_'

/-- The fraction of a number, if there is one: `none` where the point belongs to what follows. -/
def fraction? : List Char → Option (List Char × List Char)
  | '.' :: c :: rest =>
    if Text.isDigit c then
      let (digits, rest) := spanDigits 10 (c :: rest)
      some ('.' :: digits, rest)
    else if c == '.' || isNameStart c then none
    else some ("." ++ "0" |>.toList, c :: rest)
  | ['.'] => some (".0".toList, [])
  | _ => none

def exponent? : List Char → Option (List Char × List Char)
  | e :: rest =>
    if e == 'e' || e == 'E' then
      match rest with
      | sign :: digits =>
        if sign == '+' || sign == '-' then
          let (digits, rest) := spanDigits 10 digits
          some ('e' :: sign :: digits, rest)
        else if Text.isDigit sign then
          let (digits, rest) := spanDigits 10 rest
          some ('e' :: digits, rest)
        else none
      | [] => none
    else none
  | [] => none

/-- A number; an integer that does not fit is read as a double. -/
def readNumber? (cs : List Char) : Option (Token × List Char) :=
  match baseOf? cs with
  | some (base, rest) => do
    let (digits, rest) := spanDigits base rest
    let n ← numberInBase? base digits
    if (n : Int) ≤ Decimal.maxInt64 then some (.int n, rest) else none
  | none =>
    let (digits, rest) := spanDigits 10 cs
    let (fraction, behind) := (fraction? rest).getD ([], rest)
    let (exponent, behind) := (exponent? behind).getD ([], behind)
    let n : Int := Decimal.ofDigits digits
    if fraction.isEmpty && exponent.isEmpty && n ≤ Decimal.maxInt64 then some (.int n, behind)
    else (Decimal.ofText? (String.ofList (digits ++ fraction ++ exponent))).map fun x =>
      (.float x, behind)

/-! ## Texts -/

def hexChar? (digits : List Char) : Option Char := do
  let n ← numberInBase? 16 digits
  if n.isValidChar then some (Char.ofNat n) else none

def readHexChar? (count : Nat) (cs : List Char) : Option (Char × List Char) := do
  let digits := cs.take count
  if digits.length == count then some (← hexChar? digits, cs.drop count) else none

def readEscape? (quote : Char) : List Char → Option (Char × List Char)
  | '\\' :: rest => some ('\\', rest)
  | 't' :: rest => some ('\t', rest)
  | 'n' :: rest => some ('\n', rest)
  | 'r' :: rest => some ('\r', rest)
  | 'x' :: rest => readHexChar? 2 rest
  | 'u' :: rest => readHexChar? 4 rest
  | 'U' :: rest => readHexChar? 8 rest
  | c :: rest => if c == quote then some (c, rest) else none
  | [] => none

def skipMargin (column : Nat) : Nat → List Char → List Char
  | current, c :: rest =>
    if Text.isBlank c && current < column then skipMargin column (current + 1) rest else c :: rest
  | _, [] => []

/--
The characters of a text up to its closing quote, which inside it is written twice; `read` holds
those before in reverse order.  A backslash at the end of a line joins it with the next one.
-/
def readQuoted? (quote : Char) (column : Nat) :
    Nat → List Char → List Char → Option (List Char × List Char)
  | 0, _, _ => none
  | _ + 1, _, [] => none
  | steps + 1, read, c :: rest =>
    if c == quote then
      match rest with
      | next :: behind =>
        if next == quote then readQuoted? quote column steps (quote :: read) behind
        else some (read.reverse, rest)
      | [] => some (read.reverse, [])
    else if c == '\\' then
      match rest with
      | '\n' :: behind => readQuoted? quote column steps read (skipMargin column 1 behind)
      | _ =>
        match readEscape? quote rest with
        | some (escaped, behind) => readQuoted? quote column steps (escaped :: read) behind
        | none => none
    else if c == '\n' then none
    else readQuoted? quote column steps (c :: read) rest

def readPiece? : List Char → List Char → Option (List Char × Bool × List Char)
  | _, [] => none
  | read, '`' :: '`' :: rest => readPiece? ('`' :: read) rest
  | read, '`' :: rest => some (read.reverse, true, rest)
  | read, '$' :: '\x7b' :: rest => some (read.reverse, false, '\x7b' :: rest)
  | read, c :: rest => readPiece? (c :: read) rest

def skipFirstLineEnd : List Char → List Char
  | '\n' :: rest => rest
  | '\r' :: '\n' :: rest => rest
  | rest => rest

def readRaw? (marks : Nat) : Nat → List Char → List Char → Option (List Char × List Char)
  | 0, _, _ => none
  | _ + 1, _, [] => none
  | steps + 1, read, c :: rest =>
    if c == '"' && rest.take marks == List.replicate marks '#' then
      some (read.reverse, rest.drop marks)
    else readRaw? marks steps (c :: read) rest

/-! ## Blanks and comments -/

/-- Passes over a comment, which may hold others; `depth` of them are open. -/
def skipComment? : Nat → Nat → List Char → Option (List Char)
  | 0, _, _ => none
  | _ + 1, 0, cs => some cs
  | _ + 1, _ + 1, [] => none
  | steps + 1, depth + 1, '/' :: '*' :: rest => skipComment? steps (depth + 2) rest
  | steps + 1, depth + 1, '*' :: '/' :: rest => skipComment? steps depth rest
  | steps + 1, depth + 1, _ :: rest => skipComment? steps (depth + 1) rest

/-! ## Names and symbols -/

/-- The token of a word; a name has a letter before its first digit. -/
def wordToken? (word : List Char) : Option Token :=
  let s := String.ofList word
  if keywords.contains s then some (.keyword s)
  else if reservedWords.contains s then none
  else if s == "_" then some (.symbol "_")
  else match word.dropWhile (· == '_') with
    | c :: _ => if Text.isLetter c then some (.name s) else none
    | [] => none

def symbolAhead? (cs : List Char) : List String → Option String
  | [] => none
  | s :: rest => if (Text.dropBeginning? s.toList cs).isSome then some s else symbolAhead? cs rest

/-- The symbol at the beginning of a source; a longer one that is kept free rules it out. -/
def symbol? (cs : List Char) : Option String :=
  match symbolAhead? cs reservedSymbols, symbolAhead? cs symbols with
  | some free, some used => if used.length < free.length then none else some used
  | none, used => used
  | some _, none => none

def isNotIn (cs : List Char) : Bool :=
  match Text.dropBeginning? "!in".toList cs with
  | some (c :: _) => !isNameChar c
  | some [] => true
  | none => false

/-! ## Tokens -/

abbrev Mode := List Nat

/-- The mode behind a symbol; `none` where a brace closes the block of a template. -/
def Mode.after (mode : Mode) (symbol : String) : Option Mode :=
  match mode with
  | [] => some []
  | depth :: outer =>
    if symbol == "\x7b" || symbol == "#\x7b" then some ((depth + 1) :: outer)
    else if symbol == "\x7d" then (if depth ≤ 1 then none else some ((depth - 1) :: outer))
    else some mode

def tokensFrom : Nat → Mode → Source → Except LexFault (List Lexeme)
  | 0, _, source => .error ⟨source.pos⟩
  | steps + 1, mode, source =>
    let fault {α : Type} : Except LexFault α := .error ⟨source.pos⟩
    let next (token : Token) (rest : List Char) : Except LexFault (List Lexeme) := do
      .ok (⟨token, source.pos⟩ :: (← tokensFrom steps mode (source.upTo rest)))
    let piece (rest : List Char) (mode : Mode) (before : List Lexeme) (pos : Position) :
        Except LexFault (List Lexeme) :=
      match readPiece? [] rest with
      | none => fault
      | some (s, true, behind) => do
        .ok (before ++ ⟨.piece (String.ofList s) true, pos⟩ ::
          (← tokensFrom steps mode (source.upTo behind)))
      | some (s, false, behind) => do
        .ok (before ++ ⟨.piece (String.ofList s) false, pos⟩ ::
          (← tokensFrom steps (0 :: mode) (source.upTo behind)))
    match source.rest with
    | [] => if mode.isEmpty then .ok [] else fault
    | '/' :: '/' :: rest => tokensFrom steps mode (source.upTo (rest.dropWhile (· != '\n')))
    | '/' :: '*' :: rest =>
      match skipComment? (rest.length + 1) 1 rest with
      | some behind => tokensFrom steps mode (source.upTo behind)
      | none => fault
    | '"' :: rest =>
      match readQuoted? '"' source.pos.column (rest.length + 1) [] rest with
      | some (s, behind) => next (.text (String.ofList s)) behind
      | none => fault
    | '\'' :: rest =>
      match readQuoted? '\'' 0 (rest.length + 1) [] rest with
      | some ([c], behind) => next (.char c) behind
      | _ => fault
    | '`' :: rest => piece (skipFirstLineEnd rest) mode [] source.pos
    | c :: rest =>
      if Text.isBlank c then tokensFrom steps mode (source.skip 1)
      else if Text.isDigit c then
        match readNumber? (c :: rest) with
        | some (token, behind) => next token behind
        | none => fault
      else if isNameStart c then
        let word := (c :: rest).takeWhile isNameChar
        match wordToken? word with
        | some token => next token ((c :: rest).drop word.length)
        | none => fault
      else if c == '#' && (rest.dropWhile (· == '#')).head? == some '"' then
        let marks := (rest.takeWhile (· == '#')).length + 1
        match readRaw? marks (rest.length + 1) [] (rest.drop marks) with
        | some (s, behind) => next (.text (String.ofList s)) behind
        | none => fault
      else if isNotIn (c :: rest) then next (.symbol "!in") (rest.drop 2)
      else
        match symbol? (c :: rest) with
        | none => fault
        | some s =>
          let behind := (c :: rest).drop s.length
          match mode.after s with
          | some mode => do
            .ok (⟨.symbol s, source.pos⟩ :: (← tokensFrom steps mode (source.upTo behind)))
          | none => piece behind mode.tail [⟨.symbol s, source.pos⟩] (source.upTo behind).pos

def tokenize (code : String) : Except LexFault (List Lexeme) :=
  tokensFrom (code.length + 1) [] (Source.start code)

end FormDerivation.Script
