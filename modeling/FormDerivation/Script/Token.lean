import FormDerivation.Json.Basic

/-!
Tokens of scripts.
-/

namespace FormDerivation.Script

structure Position where
  line : Nat
  column : Nat
  deriving DecidableEq, Repr, Inhabited

namespace Position

def none : Position := ⟨0, 0⟩

def isNone (p : Position) : Bool :=
  p.line == 0

def start : Position := ⟨1, 1⟩

def after (p : Position) (c : Char) : Position :=
  if c == '\n' then ⟨p.line + 1, 1⟩ else ⟨p.line, p.column + 1⟩

def afterAll (p : Position) (cs : List Char) : Position :=
  cs.foldl after p

def text (p : Position) : String :=
  "line " ++ toString p.line ++ ", position " ++ toString p.column

end Position

inductive Token where
  | int (n : Int)
  | float (x : Float)
  | char (c : Char)
  | text (s : String)
  /-- A piece of a template that a block in braces follows or, with `last`, that ends it. -/
  | piece (s : String) (last : Bool)
  | name (s : String)
  | keyword (s : String)
  | symbol (s : String)
  deriving Repr, Inhabited

structure Lexeme where
  token : Token
  pos : Position
  deriving Repr, Inhabited

def keywords : List String :=
  ["true", "false", "let", "const", "if", "else", "switch", "do", "while", "until", "loop", "for",
    "in", "continue", "break", "fn", "private", "return", "throw", "try", "catch", "import",
    "export", "as", "this"]

def functionWords : List String :=
  ["Fn", "call", "curry", "is_shared", "is_def_fn", "is_def_var", "print", "debug", "type_of"]

def reservedWords : List String :=
  ["public", "protected", "super", "new", "use", "module", "package", "var", "static", "shared",
    "with", "is", "goto", "match", "case", "default", "void", "null", "nil", "spawn", "thread",
    "go", "sync", "async", "await", "yield", "eval"]

def symbols : List String :=
  ["<<=", ">>=", "**=", "..=", "+=", "-=", "*=", "/=", "%=", "&=", "|=", "^=", "==", "!=", "<=",
    ">=", "<<", ">>", "&&", "||", "**", "::", "..", "?.", "?[", "??", "=>", "#\x7b", "\x7b",
    "\x7d", "(", ")", "[", "]", ",", ";", ":", ".", "=", "<", ">", "!", "&", "|", "^", "+", "-",
    "*", "/", "%"]

def reservedSymbols : List String :=
  ["===", "!==", "...", "::<", "->", "<-", ":=", ":;", "++", "--", "(*", "*)", "<|", "|>", "#!",
    "~", "@", "$", "#", "?"]

end FormDerivation.Script
