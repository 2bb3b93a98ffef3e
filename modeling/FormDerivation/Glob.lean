import FormDerivation.Pattern.Search

/-!
Glob patterns for names.

`?` stands for one byte, `*` for any bytes, `[…]` for a byte of a class and `{…,…}` for
alternatives; a backslash takes the next character as it is.  Two stars that fill a component of a
path stand for any components.  `Glob.pattern` is the regular expression over bytes that a glob
means.
-/

namespace FormDerivation

inductive GlobPart where
  | literal (c : Char)
  | anyByte
  | anyBytes
  /-- Any leading components. -/
  | leading
  /-- Any trailing components, at least one. -/
  | trailing
  /-- Any components between two others. -/
  | between
  | byteClass (negated : Bool) (ranges : List (Char × Char))
  | alternatives (choices : List (List GlobPart))
  deriving Repr, Inhabited

structure Glob where
  parts : List GlobPart
  deriving Repr, Inhabited

namespace Glob

inductive Reason where
  | unclosedClass
  | invalidRange (low high : Char)
  | unopenedAlternatives
  | unclosedAlternatives
  | danglingEscape
  deriving DecidableEq, Repr

def Reason.message : Reason → String
  | .unclosedClass => "unclosed character class; missing ']'"
  | .invalidRange low high =>
    "invalid range; '" ++ String.singleton low ++ "' > '" ++ String.singleton high ++ "'"
  | .unopenedAlternatives =>
    "unopened alternate group; missing '\x7b' (maybe escape '\x7d' with '[\x7d]'?)"
  | .unclosedAlternatives =>
    "unclosed alternate group; missing '\x7d' (maybe escape '\x7b' with '[\x7b]'?)"
  | .danglingEscape => "dangling '\\'"

structure Error where
  text : String
  reason : Reason
  deriving DecidableEq, Repr

def Error.message (error : Error) : String :=
  "error parsing glob '" ++ error.text ++ "': " ++ error.reason.message

/-! ## Reading -/

/-- The ranges of a class, in reverse order; an unfinished range waits for its upper end. -/
structure ClassSoFar where
  ranges : List (Char × Char)
  unfinished : Bool

def ClassSoFar.push (s : ClassSoFar) (c : Char) : Except Reason ClassSoFar :=
  match s.unfinished, s.ranges with
  | true, (low, _) :: rest =>
    if c < low then .error (.invalidRange low c) else .ok ⟨(low, c) :: rest, false⟩
  | _, ranges => .ok ⟨(c, c) :: ranges, false⟩

def readClass (first : Bool) (s : ClassSoFar) :
    List Char → Except Reason (List (Char × Char) × List Char)
  | [] => .error .unclosedClass
  | c :: rest =>
    if c == ']' && !first then
      .ok ((if s.unfinished then ('-', '-') :: s.ranges else s.ranges).reverse, rest)
    else if c == '-' && !first && !s.unfinished then
      readClass false { s with unfinished := true } rest
    else do readClass false (← s.push c) rest

/-- A group of alternatives that is still open: those before the last one, in reverse order. -/
structure OpenGroup where
  choices : List (List GlobPart)
  /-- The parts before the group, in reverse order. -/
  outside : List GlobPart

def componentStars (last : GlobPart) (atEnd : Bool) : GlobPart :=
  match last with
  | .leading => .leading
  | .trailing => .trailing
  | _ => if atEnd then .trailing else .between

/-- Parts so far, in reverse order, with two stars added; `before` is the character in front. -/
def pushStars (before : Option Char) (inGroup : Bool) (parts : List GlobPart)
    (rest : List Char) : List GlobPart × List Char :=
  let plain := (.anyBytes :: .anyBytes :: parts, rest)
  match parts, rest with
  | [], [] => ([.leading], [])
  | [], '/' :: behind => ([.leading], behind)
  | [], _ => plain
  | last :: outer, rest =>
    if before != some '/' then plain
    else match rest with
      | [] => (componentStars last true :: outer, [])
      | '/' :: behind => (componentStars last false :: outer, behind)
      | c :: _ =>
        if inGroup && (c == ',' || c == '\x7d') then (componentStars last true :: outer, rest)
        else plain

/--
Reads the parts of a glob.  `groups` are the open groups, the innermost first, `parts` the parts of
the current alternative in reverse order, and `before` is the last character read.
-/
def readParts : Nat → List OpenGroup → List GlobPart → Option Char → List Char →
    Except Reason (List GlobPart)
  | 0, _, parts, _, _ => .ok parts.reverse
  | _ + 1, groups, parts, _, [] =>
    if groups.isEmpty then .ok parts.reverse else .error .unclosedAlternatives
  | steps + 1, groups, parts, before, c :: rest =>
    let push (part : GlobPart) : Except Reason (List GlobPart) :=
      readParts steps groups (part :: parts) (some c) rest
    match c, rest with
    | '?', _ => push .anyByte
    | '*', '*' :: behind =>
      let (parts, after) := pushStars before (!groups.isEmpty) parts behind
      let last := if after.length < behind.length then '/' else '*'
      readParts steps groups parts (some last) after
    | '*', _ => push .anyBytes
    | '[', _ => do
      let (negated, body) := match rest with
        | '!' :: body => (true, body)
        | '^' :: body => (true, body)
        | body => (false, body)
      let (ranges, behind) ← readClass true ⟨[], false⟩ body
      readParts steps groups (.byteClass negated ranges :: parts) (some ']') behind
    | '\x7b', _ => readParts steps (⟨[], parts⟩ :: groups) [] (some c) rest
    | '\x7d', _ =>
      match groups with
      | [] => .error .unopenedAlternatives
      | group :: outer =>
        let choices := (parts.reverse :: group.choices).reverse
        readParts steps outer (.alternatives choices :: group.outside) (some c) rest
    | ',', _ =>
      match groups with
      | [] => push (.literal ',')
      | group :: outer =>
        readParts steps (⟨parts.reverse :: group.choices, group.outside⟩ :: outer) [] (some c) rest
    | '\\', [] => .error .danglingEscape
    | '\\', escaped :: behind =>
      readParts steps groups (.literal escaped :: parts) (some escaped) behind
    | _, _ => push (.literal c)

def parse (text : String) : Except Error Glob :=
  let cs := text.toList
  match readParts (cs.length + 1) [] [] none cs with
  | .error reason => .error ⟨text, reason⟩
  | .ok parts => .ok ⟨parts⟩

/-! ## Meaning -/

def byteChars (text : List Char) : List Char :=
  (text.flatMap String.utf8EncodeChar).map fun byte => Char.ofNat byte.toNat

def anyBytePattern : Pattern :=
  .chars [(0, 255)]

def anyBytesPattern : Pattern :=
  .repeated anyBytePattern 0 none

def slashPattern : Pattern :=
  .chars (Text.CharSet.single '/')

/-- The bytes of a class; of characters of several bytes, a range joins the neighbouring ones. -/
def classSet (ranges : List (Char × Char)) : Text.CharSet :=
  let ofChar (c : Char) : Text.CharSet :=
    (byteChars [c]).map fun byte => (byte.toNat, byte.toNat)
  ranges.flatMap fun (low, high) =>
    if low == high then ofChar low
    else
      match (ofChar low).reverse, ofChar high with
      | (first, _) :: before, (last, _) :: behind => before ++ (first, last) :: behind
      | _, _ => []

mutual

def partPatterns : GlobPart → List Pattern
  | .literal c => (byteChars [c]).map fun byte => .chars (Text.CharSet.single byte)
  | .anyByte => [anyBytePattern]
  | .anyBytes => [anyBytesPattern]
  | .leading =>
    [.alt (.repeated slashPattern 0 (some 1)) (.cat anyBytesPattern slashPattern)]
  | .trailing => [slashPattern, anyBytesPattern]
  | .between =>
    [.alt slashPattern (.cat slashPattern (.cat anyBytesPattern slashPattern))]
  | .byteClass negated ranges =>
    [.chars (if negated then (classSet ranges).complement else classSet ranges)]
  | .alternatives choices =>
    match choicePatterns choices with
    | [] => []
    | patterns => [Pattern.alternatives patterns]

def partsPatterns : List GlobPart → List Pattern
  | [] => []
  | part :: rest => partPatterns part ++ partsPatterns rest

def choicePatterns : List (List GlobPart) → List Pattern
  | [] => []
  | choice :: rest =>
    match partsPatterns choice with
    | [] => choicePatterns rest
    | patterns => Pattern.sequence patterns :: choicePatterns rest

end

def pattern (glob : Glob) : Pattern :=
  let body := match glob.parts with
    | [.leading] => [anyBytesPattern]
    | parts => partsPatterns parts
  Pattern.sequence (.anchor .textStart [] :: body ++ [.anchor .textEnd []])

def isMatch (glob : Glob) (name : String) : Bool :=
  glob.pattern.matchesWithin (byteChars name.toList)

end Glob

end FormDerivation
