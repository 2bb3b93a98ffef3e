import FormDerivation.Pattern.Error
import FormDerivation.Pattern.Search
import FormDerivation.Text.Unicode.CaseTable
import FormDerivation.Text.Unicode.PropertyTable

/-!
Reading patterns from text.

`Pattern.parse` accepts the usual notation: literals, classes with nested classes and set
operations, Unicode classes, groups, flags, alternation, repetition and assertions.  There are no
back-references and no look-around.  The readers recurse on a bound that the length of the text
provides; each of their steps takes at least one character.
-/

namespace FormDerivation.Pattern

open FormDerivation.Text (CharSet)

structure Flags where
  ignoreCase : Bool := false
  multiLine : Bool := false
  dotAll : Bool := false
  carriageReturn : Bool := false
  verbose : Bool := false
  unicode : Bool := true
  deriving DecidableEq, Repr

structure Source where
  rest : List Char
  flags : Flags
  names : List String

/-! ## Blanks and numbers -/

/-- Skips blanks and comments; a comment ends with its line. -/
def skipBlanks (inComment : Bool) : List Char → List Char
  | [] => []
  | c :: rest =>
    if inComment then skipBlanks (c != '\n') rest
    else if Text.isBlank c then skipBlanks false rest
    else if c == '#' then skipBlanks true rest
    else c :: rest

def skipIgnored (flags : Flags) (cs : List Char) : List Char :=
  if flags.verbose then skipBlanks false cs else cs

/-- A decimal number with blanks around it; it has to fit 32 bits. -/
def readDecimal (cs : List Char) : Except Reason (Nat × List Char) :=
  let cs := cs.dropWhile Text.isBlank
  let digits := cs.takeWhile Text.isDigit
  let value := digits.foldl (fun n c => 10 * n + (c.toNat - '0'.toNat)) 0
  if digits.isEmpty then .error .countNoDecimal
  else if value ≥ Nat.pow 2 32 then .error .countDecimalInvalid
  else .ok (value, (cs.drop digits.length).dropWhile Text.isBlank)

def hexDigit? (c : Char) : Option Nat :=
  if Text.isDigit c then some (c.toNat - '0'.toNat)
  else if 'a' ≤ c ∧ c ≤ 'f' then some (c.toNat - 'a'.toNat + 10)
  else if 'A' ≤ c ∧ c ≤ 'F' then some (c.toNat - 'A'.toNat + 10)
  else none

def hexValue? (digits : List Char) : Option Nat :=
  digits.foldl (fun n c => do some (16 * (← n) + (← hexDigit? c))) (some 0)

def scalar? (n : Nat) : Option Char :=
  if h : n.isValidChar then some (Char.ofNatAux n h) else none

/-! ## Escapes -/

inductive Escaped where
  | literal (c : Char)
  | byte (c : Char)
  | set (set : CharSet)
  | anchor (anchor : Anchor)

def isMeta (c : Char) : Bool :=
  "\\.+*?()|[]\x7b\x7d^$#&-~".toList.contains c

def isEscapable (c : Char) : Bool :=
  isMeta c || (Text.isAscii c && !Text.isAlphanumeric c && c != '<' && c != '>')

def hexLiteral (digits : List Char) : Except Reason Char :=
  match hexValue? digits with
  | none => .error .hexInvalidDigit
  | some n =>
    match scalar? n with
    | none => .error .hexInvalid
    | some c => .ok c

def readHexEscape (letter : Char) (cs : List Char) : Except Reason (Escaped × List Char) :=
  match cs with
  | [] => .error .escapeUnfinished
  | '\x7b' :: rest => do
    let digits := rest.takeWhile (· != '\x7d')
    if digits.length == rest.length then .error .escapeUnfinished
    else if digits.isEmpty then .error .hexEmpty
    else .ok (.literal (← hexLiteral digits), rest.drop (digits.length + 1))
  | cs => do
    let count := if letter == 'x' then 2 else if letter == 'u' then 4 else 8
    let digits := cs.take count
    if !digits.all fun c => (hexDigit? c).isSome then .error .hexInvalidDigit
    else if digits.length < count then .error .escapeUnfinished
    else
      let c ← hexLiteral digits
      .ok (if letter == 'x' then .byte c else .literal c, cs.drop count)

def foldCase (flags : Flags) (set : CharSet) : CharSet :=
  if !flags.ignoreCase then set
  else if flags.unicode then Text.Unicode.closeUnderFolding set
  else
    let letters (low high : Char) (shift : Int) : CharSet :=
      ((List.range 26).map fun i => low.toNat + i).filterMap fun n =>
        if set.contains n && n ≤ high.toNat then
          let m := ((n : Int) + shift).toNat
          some (m, m)
        else none
    CharSet.normalize (set ++ letters 'a' 'z' (-32) ++ letters 'A' 'Z' 32)

/-- A set or its complement; without Unicode a complement would match single bytes. -/
def negateIf (flags : Flags) (negated : Bool) (set : CharSet) : Except Reason CharSet :=
  if !negated then .ok set
  else if flags.unicode then .ok set.complement
  else .error .invalidEncoding

def shorthand (flags : Flags) (letter : Char) : CharSet :=
  match letter, flags.unicode with
  | 'd', true => Text.Unicode.decimalDigits
  | 'd', false => [(0x30, 0x39)]
  | 's', true => Text.blanks
  | 's', false => [(9, 13), (0x20, 0x20)]
  | _, true => Text.Unicode.wordCharacters
  | _, false => [(0x30, 0x39), (0x41, 0x5A), (0x5F, 0x5F), (0x61, 0x7A)]

/-- Splits `key=value`, `key:value` and `key!=value`. -/
def splitProperty (name : List Char) : Option String × String × Bool :=
  let key := name.takeWhile fun c => c != '=' && c != ':' && c != '!'
  match name.drop key.length with
  | '!' :: '=' :: value => (some (String.ofList key), String.ofList value, true)
  | '=' :: value => (some (String.ofList key), String.ofList value, false)
  | ':' :: value => (some (String.ofList key), String.ofList value, false)
  | _ => (none, String.ofList name, false)

def readUnicodeClass (flags : Flags) (negated : Bool) (cs : List Char) :
    Except Reason (Escaped × List Char) := do
  let (name, rest) ←
    match skipIgnored flags cs with
    | [] => .error .escapeUnfinished
    | '\\' :: _ => .error .unicodeClassInvalid
    | '\x7b' :: rest =>
      let name := rest.takeWhile (· != '\x7d')
      if name.length == rest.length then .error .escapeUnfinished
      else .ok (name, rest.drop (name.length + 1))
    | c :: rest => .ok ([c], rest)
  if !flags.unicode then .error .unicodeNotAllowed
  else
    let (key, value, differs) := splitProperty name
    match Text.Unicode.property? key value with
    | none => .error .propertyNotFound
    | some set =>
      let set ← negateIf flags (negated != differs) (foldCase flags set)
      .ok (.set set, rest)

def readBoundary (flags : Flags) (cs : List Char) : Except Reason (Escaped × List Char) :=
  match cs with
  | '\x7b' :: rest =>
    let isNameChar (c : Char) : Bool := Text.isLetter c || c == '-'
    match skipIgnored flags rest with
    | [] => .error .boundaryUnfinished
    | c :: _ =>
      if !isNameChar c then .ok (.anchor .wordBoundary, cs)
      else
        let body := skipIgnored flags rest
        let name := body.takeWhile isNameChar
        match body.drop name.length with
        | '\x7d' :: rest =>
          match String.ofList name with
          | "start" => .ok (.anchor .wordStart, rest)
          | "end" => .ok (.anchor .wordEnd, rest)
          | "start-half" => .ok (.anchor .wordStartHalf, rest)
          | "end-half" => .ok (.anchor .wordEndHalf, rest)
          | _ => .error .boundaryUnrecognized
        | _ => .error .boundaryUnclosed
  | cs => .ok (.anchor .wordBoundary, cs)

def readEscape (flags : Flags) (cs : List Char) : Except Reason (Escaped × List Char) :=
  match cs with
  | [] => .error .escapeUnfinished
  | c :: rest =>
    if Text.isDigit c then .error .backreference
    else if c == 'x' || c == 'u' || c == 'U' then readHexEscape c (skipIgnored flags rest)
    else if c == 'p' || c == 'P' then readUnicodeClass flags (c == 'P') rest
    else if c == 'd' || c == 's' || c == 'w' then .ok (.set (shorthand flags c), rest)
    else if c == 'D' || c == 'S' || c == 'W' then do
      .ok (.set (← negateIf flags true (shorthand flags (Text.lowerAscii c))), rest)
    else if isEscapable c then .ok (.literal c, rest)
    else
      match c with
      | 'a' => .ok (.literal '\x07', rest)
      | 'f' => .ok (.literal '\x0c', rest)
      | 't' => .ok (.literal '\t', rest)
      | 'n' => .ok (.literal '\n', rest)
      | 'r' => .ok (.literal '\r', rest)
      | 'v' => .ok (.literal '\x0b', rest)
      | 'A' => .ok (.anchor .textStart, rest)
      | 'z' => .ok (.anchor .textEnd, rest)
      | 'b' => readBoundary flags rest
      | 'B' => .ok (.anchor .noWordBoundary, rest)
      | '<' => .ok (.anchor .wordStart, rest)
      | '>' => .ok (.anchor .wordEnd, rest)
      | _ => .error .escapeUnrecognized

/-! ## Classes -/

def asciiClass? (name : String) : Option CharSet :=
  match name with
  | "alnum" => some [(0x30, 0x39), (0x41, 0x5A), (0x61, 0x7A)]
  | "alpha" => some [(0x41, 0x5A), (0x61, 0x7A)]
  | "ascii" => some [(0, 0x7F)]
  | "blank" => some [(9, 9), (0x20, 0x20)]
  | "cntrl" => some [(0, 0x1F), (0x7F, 0x7F)]
  | "digit" => some [(0x30, 0x39)]
  | "graph" => some [(0x21, 0x7E)]
  | "lower" => some [(0x61, 0x7A)]
  | "print" => some [(0x20, 0x7E)]
  | "punct" => some [(0x21, 0x2F), (0x3A, 0x40), (0x5B, 0x60), (0x7B, 0x7E)]
  | "space" => some [(9, 13), (0x20, 0x20)]
  | "upper" => some [(0x41, 0x5A)]
  | "word" => some [(0x30, 0x39), (0x41, 0x5A), (0x5F, 0x5F), (0x61, 0x7A)]
  | "xdigit" => some [(0x30, 0x39), (0x41, 0x46), (0x61, 0x66)]
  | _ => none

/-- A class such as `[:alpha:]`, from behind its bracket; `none` where the text is no such class. -/
def namedClass? (cs : List Char) : Option (Bool × CharSet × List Char) := do
  let rest ← Text.dropBeginning? [':'] cs
  let (negated, rest) := match rest with
    | '^' :: rest => (true, rest)
    | rest => (false, rest)
  let name := rest.takeWhile (· != ':')
  let rest ← Text.dropBeginning? [':', ']'] (rest.drop name.length)
  some (negated, ← asciiClass? (String.ofList name), rest)

inductive SetOperator where
  | intersection
  | difference
  | symmetricDifference

def SetOperator.apply : SetOperator → CharSet → CharSet → CharSet
  | .intersection => CharSet.intersection
  | .difference => CharSet.difference
  | .symmetricDifference => CharSet.symmetricDifference

abbrev Pending := Option (CharSet × SetOperator)

def combine (flags : Flags) (pending : Pending) (set : CharSet) : CharSet :=
  match pending with
  | none => set
  | some (left, operator) => operator.apply (foldCase flags left) (foldCase flags set)

/-- One element of a class: an escape or a character. -/
def readClassItem (flags : Flags) (cs : List Char) : Except Reason (Escaped × List Char) :=
  match cs with
  | [] => .error .classUnclosed
  | '\\' :: rest => readEscape flags rest
  | c :: rest => .ok (.literal c, rest)

def classLiteral? : Escaped → Option Char
  | .literal c => some c
  | .byte c => some c
  | _ => none

/-- A character in a class; without Unicode only ASCII is allowed. -/
def checkLiteral (flags : Flags) (c : Char) : Except Reason CharSet :=
  if flags.unicode || Text.isAscii c then .ok (CharSet.single c) else .error .unicodeNotAllowed

def readClassRange (flags : Flags) (cs : List Char) : Except Reason (CharSet × List Char) := do
  let (first, rest) ← readClassItem flags cs
  let rest := skipIgnored flags rest
  let alone : Except Reason (CharSet × List Char) :=
    match first with
    | .set set => .ok (set, rest)
    | .anchor _ => .error .classEscapeInvalid
    | .literal c => do .ok (← checkLiteral flags c, rest)
    | .byte c => do .ok (← checkLiteral flags c, rest)
  match rest with
  | [] => .error .classUnclosed
  | '-' :: behind =>
    match skipIgnored flags behind with
    | ']' :: _ => alone
    | '-' :: _ => alone
    | [] => .error .classUnclosed
    | behind =>
      let (last, behind) ← readClassItem flags behind
      match classLiteral? first, classLiteral? last with
      | some low, some high =>
        if high < low then .error .classRangeInvalid
        else if !flags.unicode && !(Text.isAscii high) then .error .unicodeNotAllowed
        else .ok (CharSet.range low high, behind)
      | _, _ => .error .classRangeLiteral
  | _ => alone

def readClassStart (flags : Flags) (cs : List Char) : CharSet × List Char :=
  let hyphens := (cs.takeWhile (· == '-')).length
  let rest := skipIgnored flags (cs.drop hyphens)
  if 0 < hyphens then (CharSet.single '-', rest)
  else match rest with
    | ']' :: rest => (CharSet.single ']', skipIgnored flags rest)
    | rest => ([], rest)

def readClassBody (flags : Flags) : Nat → Bool → Pending → CharSet → List Char →
    Except Reason (CharSet × List Char)
  | 0, _, _, _, _ => .error .classUnclosed
  | steps + 1, negated, pending, set, cs =>
    let operator (op : SetOperator) (rest : List Char) : Except Reason (CharSet × List Char) :=
      readClassBody flags steps negated (some (combine flags pending set, op)) [] rest
    match skipIgnored flags cs with
    | [] => .error .classUnclosed
    | ']' :: rest => do
      let whole := foldCase flags (combine flags pending set)
      .ok (← negateIf flags negated whole.normalize, rest)
    | '&' :: '&' :: rest => operator .intersection rest
    | '-' :: '-' :: rest => operator .difference rest
    | '~' :: '~' :: rest => operator .symmetricDifference rest
    | '[' :: rest =>
      match namedClass? rest with
      | some (inverted, named, rest) => do
        let named ← negateIf flags inverted (foldCase flags named)
        readClassBody flags steps negated pending (set ++ named) rest
      | none => do
        let inner := skipIgnored flags rest
        let (inverted, inner) := match inner with
          | '^' :: inner => (true, skipIgnored flags inner)
          | inner => (false, inner)
        let (start, inner) := readClassStart flags inner
        let (nested, rest) ← readClassBody flags steps inverted none start inner
        readClassBody flags steps negated pending (set ++ nested) rest
    | cs => do
      let (item, rest) ← readClassRange flags cs
      readClassBody flags steps negated pending (set ++ item) rest

def readClass (flags : Flags) (cs : List Char) : Except Reason (CharSet × List Char) :=
  let body := skipIgnored flags cs
  let (negated, body) := match body with
    | '^' :: rest => (true, skipIgnored flags rest)
    | body => (false, body)
  let (start, body) := readClassStart flags body
  readClassBody flags (body.length + 1) negated none start body

/-! ## Groups and flags -/

def Flags.set? (flags : Flags) (letter : Char) (value : Bool) : Option Flags :=
  match letter with
  | 'i' => some { flags with ignoreCase := value }
  | 'm' => some { flags with multiLine := value }
  | 's' => some { flags with dotAll := value }
  | 'R' => some { flags with carriageReturn := value }
  | 'x' => some { flags with verbose := value }
  | 'u' => some { flags with unicode := value }
  | 'U' => some flags
  | _ => none

def readFlags (flags : Flags) (seen : List Char) (negated dangling : Bool) :
    List Char → Except Reason (Flags × List Char)
  | [] => .error .flagUnfinished
  | c :: rest =>
    if c == ':' || c == ')' then
      if dangling then .error .flagDanglingNegation else .ok (flags, c :: rest)
    else if c == '-' then
      if negated then .error .flagRepeatedNegation
      else readFlags flags seen true true rest
    else
      match flags.set? c !negated with
      | none => .error .flagUnrecognized
      | some next =>
        if seen.contains c then .error .flagDuplicate
        else readFlags next (c :: seen) negated false rest

def isNameChar (first : Bool) (c : Char) : Bool :=
  let letter := Text.isLetter c || c == '_' ||
    (!Text.isAscii c && (Text.Unicode.categoryRanges fun major _ => major == 'L').contains c.toNat)
  if first then letter
  else letter || Text.isDigit c || c == '.' || c == '[' || c == ']'

def readGroupName (names : List String) (cs : List Char) :
    Except Reason (String × List Char) :=
  let name := cs.takeWhile (· != '>')
  match name with
  | [] => .error (if cs.isEmpty then .groupNameUnfinished else .groupNameEmpty)
  | first :: others =>
    if !isNameChar true first || !others.all (isNameChar false) then .error .groupNameInvalid
    else if name.length == cs.length then .error .groupNameUnfinished
    else if names.contains (String.ofList name) then .error .groupNameDuplicate
    else .ok (String.ofList name, cs.drop (name.length + 1))

inductive Opening where
  | group (source : Source)
  | flags (source : Source)

def readOpening (source : Source) : Except Reason Opening :=
  let rest := skipIgnored source.flags source.rest
  let named (cs : List Char) : Except Reason Opening := do
    let (name, rest) ← readGroupName source.names cs
    .ok (.group { source with rest, names := name :: source.names })
  match rest with
  | '?' :: '=' :: _ => .error .lookAround
  | '?' :: '!' :: _ => .error .lookAround
  | '?' :: '<' :: '=' :: _ => .error .lookAround
  | '?' :: '<' :: '!' :: _ => .error .lookAround
  | '?' :: 'P' :: '<' :: rest => named rest
  | '?' :: '<' :: rest => named rest
  | ['?'] => .error .groupUnclosed
  | '?' :: ')' :: _ => .error .repetitionMissing
  | '?' :: rest => do
    let (flags, rest) ← readFlags source.flags [] false false rest
    match rest with
    | ':' :: rest => .ok (.group { source with rest, flags })
    | rest => .ok (.flags { source with rest := rest.drop 1, flags })
  | rest => .ok (.group { source with rest })

/-! ## Repetition -/

def readBounds (flags : Flags) (cs : List Char) :
    Except Reason ((Nat × Option Nat) × List Char) := do
  let body := skipIgnored flags cs
  if body.isEmpty then .error .countUnclosed
  else
    let (min, rest) ← readDecimal body
    match skipIgnored flags rest with
    | '\x7d' :: rest => .ok ((min, some min), rest)
    | ',' :: rest =>
      match skipIgnored flags rest with
      | [] => .error .countUnclosed
      | '\x7d' :: rest => .ok ((min, none), rest)
      | rest =>
        let (max, rest) ← readDecimal rest
        match skipIgnored flags rest with
        | '\x7d' :: rest =>
          if max < min then .error .countInvalid else .ok ((min, some max), rest)
        | _ => .error .countUnclosed
    | _ => .error .countUnclosed

def skipLazy : List Char → List Char
  | '?' :: rest => rest
  | rest => rest

-- Ignored text may stand before the question mark behind a count, and only there.
def skipLazyCount (flags : Flags) (cs : List Char) : List Char :=
  match skipIgnored flags cs with
  | '?' :: rest => rest
  | _ => cs

structure Item where
  pattern : Pattern
  repeatable : Bool

/-- Repeats the last item of a sequence, which is given in reverse order. -/
def repeatLast (items : List Item) (min : Nat) (max : Option Nat) : Except Reason (List Item) :=
  match items with
  | [] => .error .repetitionMissing
  | item :: before =>
    if item.repeatable then .ok (⟨.repeated item.pattern min max, true⟩ :: before)
    else .error .repetitionMissing

/-! ## Sequences -/

def anchorPattern (flags : Flags) (condition : Anchor) : Pattern :=
  match condition with
  | .textStart => .anchor condition []
  | .textEnd => .anchor condition []
  | _ => .anchor condition (shorthand flags 'w')

def literalPattern (flags : Flags) (c : Char) : Pattern :=
  .chars (if flags.ignoreCase then foldCase flags (CharSet.single c) else CharSet.single c)

def escapedPattern (flags : Flags) : Escaped → Except Reason Pattern
  | .literal c => .ok (literalPattern flags c)
  | .byte c =>
    if flags.unicode || Text.isAscii c then .ok (literalPattern flags c)
    else .error .invalidEncoding
  | .set set => .ok (.chars set)
  | .anchor condition => .ok (anchorPattern flags condition)

/-- What a point matches: any character but the end of a line. -/
def dotPattern (flags : Flags) : Except Reason Pattern :=
  if !flags.unicode then .error .invalidEncoding
  else if flags.dotAll then .ok (.chars [(0, Text.maxCodePoint)])
  else if flags.carriageReturn then
    .ok (.chars (CharSet.complement [(0x0A, 0x0A), (0x0D, 0x0D)]))
  else .ok (.chars (CharSet.complement [(0x0A, 0x0A)]))

def lineAnchor (flags : Flags) (start : Bool) : Pattern :=
  match start, flags.multiLine, flags.carriageReturn with
  | true, false, _ => .anchor .textStart []
  | true, true, false => .anchor .lineStart []
  | true, true, true => .anchor .anyLineStart []
  | false, false, _ => .anchor .textEnd []
  | false, true, false => .anchor .lineEnd []
  | false, true, true => .anchor .anyLineEnd []

def sequenceOf (items : List Item) : Pattern :=
  Pattern.sequence (items.reverse.map Item.pattern)

def maxNesting : Nat := 250

/--
Reads the alternatives of a group at a nesting level, up to its closing parenthesis or, on level 0,
the end of the text.  `branches` and `items` hold what has been read, in reverse order.
-/
def readAlternatives : Nat → Nat → List Pattern → List Item → Source →
    Except Reason (Pattern × Source)
  | 0, _, _, _, _ => .error .nestedTooDeep
  | steps + 1, level, branches, items, source =>
    let flags := source.flags
    let finish (rest : List Char) : Pattern × Source :=
      (Pattern.alternatives (sequenceOf items :: branches).reverse, { source with rest })
    let next (pattern : Pattern) (rest : List Char) : Except Reason (Pattern × Source) :=
      readAlternatives steps level branches (⟨pattern, true⟩ :: items) { source with rest }
    let again (min : Nat) (max : Option Nat) (rest : List Char) :
        Except Reason (Pattern × Source) := do
      let items ← repeatLast items min max
      readAlternatives steps level branches items { source with rest }
    match skipIgnored flags source.rest with
    | [] => if level == 0 then .ok (finish []) else .error .groupUnclosed
    | ')' :: rest => if level == 0 then .error .groupUnopened else .ok (finish rest)
    | '|' :: rest =>
      readAlternatives steps level (sequenceOf items :: branches) [] { source with rest }
    | '(' :: rest => do
      match ← readOpening { source with rest } with
      | .flags source => readAlternatives steps level branches (⟨.empty, false⟩ :: items) source
      | .group inner =>
        if maxNesting ≤ level then .error .nestedTooDeep
        else
          let (pattern, behind) ← readAlternatives steps (level + 1) [] [] inner
          readAlternatives steps level branches (⟨pattern, true⟩ :: items)
            { behind with flags }
    | '[' :: rest => do
      let (set, rest) ← readClass flags rest
      next (.chars set) rest
    | '?' :: rest => again 0 (some 1) (skipLazy rest)
    | '*' :: rest => again 0 none (skipLazy rest)
    | '+' :: rest => again 1 none (skipLazy rest)
    | '\x7b' :: rest => do
      let _ ← repeatLast items 0 none
      let ((min, max), rest) ← readBounds flags rest
      again min max (skipLazyCount flags rest)
    | '\\' :: rest => do
      let (escaped, rest) ← readEscape flags rest
      next (← escapedPattern flags escaped) rest
    | '.' :: rest => do next (← dotPattern flags) rest
    | '^' :: rest => next (lineAnchor flags true) rest
    | '$' :: rest => next (lineAnchor flags false) rest
    | c :: rest => next (literalPattern flags c) rest

/-! ## Size -/

def rangeSize (last : Nat) : Nat :=
  if last < 128 then 8 else if last < 2048 then 40 else 100

def setSize (set : CharSet) : Nat :=
  set.foldl (fun n range => n + rangeSize range.2) 32

/-- Bytes that the compiled form takes: counted repetitions are unrolled. -/
def compiledSize : Pattern → Nat
  | .empty => 16
  | .chars set => setSize set
  | .anchor _ _ => 24
  | .cat p q => compiledSize p + compiledSize q
  | .alt p q => compiledSize p + compiledSize q + 32
  | .repeated p min max => compiledSize p * Nat.max 1 (max.getD (min + 1)) + 32

def parse (text : String) : Except Error Pattern :=
  let cs := text.toList
  match readAlternatives (cs.length + 1) 0 [] [] ⟨cs, {}, []⟩ with
  | .error reason => .error (.malformed text reason)
  | .ok (pattern, _) =>
    if maxCompiledSize < compiledSize pattern then .error .tooLarge else .ok pattern

def isMatch (pattern : Pattern) (text : String) : Bool :=
  pattern.matchesWithin text.toList

end FormDerivation.Pattern
