import FormDerivation.Json.Shape

/-!
Positions in a JSON text and what can be wrong there.

A `Cursor` is the rest of the text with the line and the byte column that end just before it.
-/

namespace FormDerivation.Json

inductive Malformation where
  | endInList
  | endInObject
  | endInString
  | endInValue
  | expectedColon
  | expectedListEnd
  | expectedObjectEnd
  | expectedWord
  | expectedValue
  | invalidEscape
  | invalidNumber
  | numberOutOfRange
  | controlCharacter
  | keyNotString
  | loneSurrogate
  | unfinishedSurrogatePair
  | trailingComma
  | trailingCharacters
  | tooDeep
  deriving DecidableEq, Repr

def Malformation.message : Malformation → String
  | .endInList => "EOF while parsing a list"
  | .endInObject => "EOF while parsing an object"
  | .endInString => "EOF while parsing a string"
  | .endInValue => "EOF while parsing a value"
  | .expectedColon => "expected `:`"
  | .expectedListEnd => "expected `,` or `]`"
  | .expectedObjectEnd => "expected `,` or `\x7d`"
  | .expectedWord => "expected ident"
  | .expectedValue => "expected value"
  | .invalidEscape => "invalid escape"
  | .invalidNumber => "invalid number"
  | .numberOutOfRange => "number out of range"
  | .controlCharacter =>
    "control character (\\u0000-\\u001F) found while parsing a string"
  | .keyNotString => "key must be a string"
  | .loneSurrogate => "lone leading surrogate in hex escape"
  | .unfinishedSurrogatePair => "unexpected end of hex escape"
  | .trailingComma => "trailing comma"
  | .trailingCharacters => "trailing characters"
  | .tooDeep => "recursion limit exceeded"

/-- What is wrong at a position: the text is not JSON, or the value is not of its shape. -/
inductive Cause where
  | malformed (cause : Malformation)
  | mismatched (cause : Mismatch)
  deriving Repr

def Cause.message : Cause → String
  | .malformed cause => cause.message
  | .mismatched cause => cause.message

structure Fault where
  cause : Cause
  line : Nat
  column : Nat
  deriving Repr

def Fault.message (fault : Fault) : String :=
  fault.cause.message ++ " at line " ++ toString fault.line ++ " column " ++
    toString fault.column

/-- The rest of a text; `column` counts the bytes of the current line before it. -/
structure Cursor where
  rest : List Char
  line : Nat
  column : Nat
  deriving DecidableEq, Repr

namespace Cursor

def start (text : String) : Cursor :=
  ⟨text.toList, 1, 0⟩

def advance (cursor : Cursor) : Cursor :=
  match cursor.rest with
  | [] => cursor
  | c :: rest =>
    if c == '\n' then ⟨rest, cursor.line + 1, 0⟩
    else ⟨rest, cursor.line, cursor.column + c.utf8Size⟩

def skip : Nat → Cursor → Cursor
  | 0, cursor => cursor
  | n + 1, cursor => skip n cursor.advance

def fault (cursor : Cursor) (cause : Malformation) : Fault :=
  ⟨.malformed cause, cursor.line, cursor.column⟩

def faultAhead (cursor : Cursor) (cause : Malformation) : Fault :=
  match cursor.rest with
  | [] => cursor.fault cause
  | c :: _ =>
    if c == '\n' then ⟨.malformed cause, cursor.line + 1, 0⟩
    else ⟨.malformed cause, cursor.line, cursor.column + 1⟩

def mismatch (cursor : Cursor) (cause : Mismatch) : Fault :=
  ⟨.mismatched cause, cursor.line, cursor.column⟩

def isSpace (c : Char) : Bool :=
  c == ' ' || c == '\n' || c == '\t' || c == '\r'

def skipSpace (cursor : Cursor) : Cursor :=
  skip (cursor.rest.takeWhile isSpace).length cursor

def skipDigits (cursor : Cursor) : Cursor :=
  skip (cursor.rest.takeWhile Text.isDigit).length cursor

def peek (cursor : Cursor) : Option Char :=
  cursor.rest.head?

end Cursor

abbrev Reader (α : Type) := Cursor → Except Fault (α × Cursor)

end FormDerivation.Json
