import FormDerivation.Expression.Basic
import FormDerivation.Text.Unicode.CategoryTable

/-!
The elements that an expression refers to.

A formula refers to the elements that its operands name.  In a script, an access to a member of
`data` or `row` counts, and so does every word that has a digit and an underscore in the way of
numbered names.
-/

namespace FormDerivation

/-! ## Formulas -/

mutual

def Formula.references : Formula → List String
  | .apply _ operands => Operand.referencesAll operands

def Operand.references : Operand → List String
  | .constant _ => []
  | .reference id => [id]
  | .nested formula => Formula.references formula

def Operand.referencesAll : List Operand → List String
  | [] => []
  | operand :: rest => Operand.references operand ++ Operand.referencesAll rest

end

/-! ## Scripts -/

namespace ScriptText

def isWordChar (c : Char) : Bool :=
  if Text.isAscii c then Text.isAlphanumeric c || c == '_'
  else Text.Unicode.wordCharacters.contains c.toNat

def isNameChar (c : Char) : Bool :=
  Text.isAlphanumeric c || c == '_'

/-- The name that a text begins with, and the rest; a name does not begin with a digit. -/
def name? (cs : List Char) : Option (List Char × List Char) :=
  match cs with
  | c :: _ =>
    if Text.isLetter c || c == '_' then
      let name := cs.takeWhile isNameChar
      some (name, cs.drop name.length)
    else none
  | [] => none

/-- A member in brackets: a quoted name. -/
def bracketed? (cs : List Char) : Option (List Char × List Char) :=
  match Text.trimStartChars cs with
  | '"' :: rest => do
    let (name, rest) ← name? rest
    match rest with
    | '"' :: rest =>
      match Text.trimStartChars rest with
      | ']' :: rest => some (name, rest)
      | _ => none
    | _ => none
  | _ => none

def member? (cs : List Char) : Option (List Char × List Char) :=
  match Text.trimStartChars cs with
  | '?' :: '.' :: rest => name? (Text.trimStartChars rest)
  | '.' :: rest => name? (Text.trimStartChars rest)
  | '?' :: '[' :: rest => bracketed? rest
  | '[' :: rest => bracketed? rest
  | _ => none

def access? (cs : List Char) : Option (List Char × List Char) :=
  match cs with
  | 'd' :: 'a' :: 't' :: 'a' :: rest => member? rest
  | 'r' :: 'o' :: 'w' :: rest => member? rest
  | _ => none

/-- The members that a script accesses; `inWord` says whether a word character stands before. -/
def accesses : Nat → Bool → List Char → List (List Char)
  | 0, _, _ => []
  | _ + 1, _, [] => []
  | steps + 1, inWord, c :: rest =>
    match if inWord then none else access? (c :: rest) with
    | some (name, behind) => name :: accesses steps false behind
    | none => accesses steps (isWordChar c) rest

/-- The words of a script: the longest runs of word characters. -/
def words (current : List Char) : List Char → List (List Char)
  | [] => if current.isEmpty then [] else [current.reverse]
  | c :: rest =>
    if isWordChar c then words (c :: current) rest
    else if current.isEmpty then words [] rest
    else current.reverse :: words [] rest

/-- Whether a word is a numbered name: letters and digits in parts joined by underscores, at least
two parts, the first beginning with a letter, and a digit among them. -/
def isNumbered (word : List Char) : Bool :=
  let parts := Text.splitAtChar '_' word
  word.head?.any Text.isLetter && 2 ≤ parts.length &&
    parts.all (fun part => !part.isEmpty && part.all Text.isAlphanumeric) &&
    word.any Text.isDigit

def references (code : String) : List String :=
  let cs := code.toList
  (accesses (cs.length + 1) false cs ++ (words [] cs).filter isNumbered).map String.ofList

end ScriptText

def Expression.references : Expression → KeySet
  | .script code => KeySet.ofList (ScriptText.references code)
  | .formula f => KeySet.ofList f.references
  | .malformed _ _ => KeyMap.empty

end FormDerivation
