import FormDerivation.Decimal.Reader
import FormDerivation.Json.Fault

/-!
Reading JSON text.

`Json.parse` reads one value that fills a text.  Values may nest 127 levels deep, so the readers
recurse on the number of levels that are left; lists and objects are read by a loop whose bound is
the length of the rest.  `skipValue` passes over a value without building it and without a limit on
its depth.
-/

namespace FormDerivation.Json

/-! ## Texts -/

def hexValue? (c : Char) : Option Nat :=
  if Text.isDigit c then some (c.toNat - '0'.toNat)
  else if 'a' ≤ c ∧ c ≤ 'f' then some (c.toNat - 'a'.toNat + 10)
  else if 'A' ≤ c ∧ c ≤ 'F' then some (c.toNat - 'A'.toNat + 10)
  else none

def hexNumber? (digits : List Char) : Option Nat :=
  digits.foldl (fun n c => do some (16 * (← n) + (← hexValue? c))) (some 0)

def readHex : Reader Nat := fun cursor =>
  let digits := cursor.rest.take 4
  if digits.length < 4 then
    .error ((Cursor.skip digits.length cursor).fault .endInString)
  else
    let behind := Cursor.skip 4 cursor
    match hexNumber? digits with
    | some n => .ok (n, behind)
    | none => .error (behind.fault .invalidEscape)

/-- The character behind a `\u`, which may need a second escape. -/
def readUnicodeEscape : Reader Char := fun cursor => do
  let (high, behind) ← readHex cursor
  if 0xDC00 ≤ high ∧ high ≤ 0xDFFF then .error (behind.fault .loneSurrogate)
  else if high < 0xD800 ∨ 0xDBFF < high then .ok (Char.ofNat high, behind)
  else
    match behind.rest with
    | [] => .error (behind.fault .endInString)
    | '\\' :: next =>
      match next with
      | [] => .error (behind.advance.fault .endInString)
      | 'u' :: _ =>
        let (low, behind) ← readHex (Cursor.skip 2 behind)
        if low < 0xDC00 ∨ 0xDFFF < low then .error (behind.fault .loneSurrogate)
        else .ok (Char.ofNat ((high - 0xD800) * 0x400 + (low - 0xDC00) + 0x10000), behind)
      | _ => .error ((Cursor.skip 2 behind).fault .unfinishedSurrogatePair)
    | _ => .error (behind.advance.fault .unfinishedSurrogatePair)

def simpleEscape? : Char → Option Char
  | '"' => some '"'
  | '\\' => some '\\'
  | '/' => some '/'
  | 'b' => some '\x08'
  | 'f' => some '\x0c'
  | 'n' => some '\n'
  | 'r' => some '\r'
  | 't' => some '\t'
  | _ => none

def readEscape : Reader Char := fun cursor =>
  match cursor.rest with
  | [] => .error (cursor.fault .endInString)
  | 'u' :: _ => readUnicodeEscape cursor.advance
  | c :: _ =>
    match simpleEscape? c with
    | some escaped => .ok (escaped, cursor.advance)
    | none => .error (cursor.advance.fault .invalidEscape)

/-- The characters up to the closing quote; `read` holds those before them in reverse order. -/
def readTextFrom : Nat → List Char → Reader String
  | 0, _, cursor => .error (cursor.fault .endInString)
  | steps + 1, read, cursor =>
    match cursor.rest with
    | [] => .error (cursor.fault .endInString)
    | '"' :: _ => .ok (String.ofList read.reverse, cursor.advance)
    | '\\' :: _ =>
      match readEscape cursor.advance with
      | .error fault => .error fault
      | .ok (c, behind) => readTextFrom steps (c :: read) behind
    | c :: _ =>
      if c.toNat < 32 then .error (cursor.advance.fault .controlCharacter)
      else readTextFrom steps (c :: read) cursor.advance

def readText : Reader String := fun cursor =>
  readTextFrom (cursor.rest.length + 1) [] cursor

/-! ## Numbers and words -/

def expectWord : List Char → Cursor → Except Fault Cursor
  | [], cursor => .ok cursor
  | expected :: word, cursor =>
    match cursor.rest with
    | [] => .error (cursor.fault .endInValue)
    | c :: _ =>
      if c == expected then expectWord word cursor.advance
      else .error (cursor.advance.fault .expectedWord)

/-- Digits gathered into a number below `2 ^ 64`; of any further ones only the count is kept. -/
structure Significand where
  value : Nat
  dropped : Nat
  deriving DecidableEq, Repr

def Significand.push (s : Significand) (c : Char) : Significand :=
  let next := 10 * s.value + (c.toNat - '0'.toNat)
  if s.dropped == 0 && next ≤ Decimal.maxNat64 then { s with value := next }
  else { s with dropped := s.dropped + 1 }

/-- The exponent behind an `e`; one too large for 32 bits counts as a very large one. -/
def readExponent (significand : Nat) : Reader Int := fun cursor =>
  let (negative, behind) :=
    match cursor.rest with
    | '-' :: _ => (true, cursor.advance)
    | '+' :: _ => (false, cursor.advance)
    | _ => (false, cursor)
  match behind.rest with
  | [] => .error (behind.fault .endInValue)
  | c :: _ =>
    if Text.isDigit c then
      let digits := behind.rest.takeWhile Text.isDigit
      let size : Int := Decimal.ofDigits digits
      if 2147483647 < size && !negative && significand != 0 then
        .error (behind.skipDigits.fault .numberOutOfRange)
      else .ok (if negative then -size else size, behind.skipDigits)
    else .error (behind.advance.fault .invalidNumber)

def finishFloat (negative : Bool) (significand : Nat) (exponent : Int) (behind : Cursor) :
    Except Fault (Json × Cursor) :=
  match Decimal.scaled? significand exponent with
  | none => .error (behind.fault .numberOutOfRange)
  | some x => .ok (.float (if negative then -x else x), behind)

def readExponentPart (negative : Bool) (significand : Nat) (exponent : Int) : Reader Json :=
  fun cursor =>
    match cursor.rest with
    | c :: _ =>
      if c == 'e' || c == 'E' then
        match readExponent significand cursor.advance with
        | .error fault => .error fault
        | .ok (shift, behind) => finishFloat negative significand (exponent + shift) behind
      else finishFloat negative significand exponent cursor
    | [] => finishFloat negative significand exponent cursor

def readFraction (negative : Bool) (before : Significand) : Reader Json := fun cursor =>
  let digits := cursor.rest.takeWhile Text.isDigit
  let behind := cursor.skipDigits
  if digits.isEmpty then
    .error (behind.faultAhead (if behind.rest.isEmpty then .endInValue else .invalidNumber))
  else
    let after := digits.foldl Significand.push { before with dropped := 0 }
    let kept : Int := (digits.length : Int) - after.dropped
    readExponentPart negative after.value (before.dropped - kept) behind

/-- An integer that fits 64 bits stays an integer; minus zero and larger ones become doubles. -/
def finishInteger (negative : Bool) (s : Significand) (behind : Cursor) :
    Except Fault (Json × Cursor) :=
  if s.dropped == 0 && !negative then .ok (.int s.value, behind)
  else if s.dropped == 0 && 0 < s.value && s.value ≤ Nat.pow 2 63 then .ok (.int (-s.value), behind)
  else finishFloat negative s.value s.dropped behind

def readNumber (negative : Bool) : Reader Json := fun cursor =>
  match cursor.rest with
  | [] => .error (cursor.fault .endInValue)
  | first :: _ =>
    if !Text.isDigit first then .error (cursor.advance.fault .invalidNumber)
    else
      let digits := cursor.rest.takeWhile Text.isDigit
      if first == '0' && 1 < digits.length then
        .error (cursor.advance.faultAhead .invalidNumber)
      else
        let behind := cursor.skipDigits
        let s := digits.foldl Significand.push ⟨0, 0⟩
        match behind.rest with
        | '.' :: _ => readFraction negative s behind.advance
        | c :: _ =>
          if c == 'e' || c == 'E' then readExponentPart negative s.value s.dropped behind
          else finishInteger negative s behind
        | [] => finishInteger negative s behind

/-! ## Values -/

def nextItem (first : Bool) (cursor : Cursor) : Except Fault (Option Cursor) :=
  let cursor := cursor.skipSpace
  match cursor.rest with
  | [] => .error (cursor.faultAhead .endInList)
  | ']' :: _ => .ok none
  | ',' :: _ =>
    if first then .ok (some cursor)
    else
      let behind := cursor.advance.skipSpace
      match behind.rest with
      | [] => .error (behind.faultAhead .endInValue)
      | ']' :: _ => .error (behind.faultAhead .trailingComma)
      | _ => .ok (some behind)
  | _ => if first then .ok (some cursor) else .error (cursor.faultAhead .expectedListEnd)

/-- Checks for another key: `none` at the closing brace, otherwise the cursor behind its quote. -/
def nextKey (first : Bool) (cursor : Cursor) : Except Fault (Option Cursor) :=
  let cursor := cursor.skipSpace
  let key (cursor : Cursor) : Except Fault (Option Cursor) :=
    match cursor.rest with
    | [] => .error (cursor.faultAhead .endInValue)
    | '"' :: _ => .ok (some cursor.advance)
    | '\x7d' :: _ => .error (cursor.faultAhead .trailingComma)
    | _ => .error (cursor.faultAhead .keyNotString)
  match cursor.rest with
  | [] => .error (cursor.faultAhead .endInObject)
  | '\x7d' :: _ => .ok none
  | ',' :: _ =>
    if first then .error (cursor.faultAhead .keyNotString) else key cursor.advance.skipSpace
  | _ => if first then key cursor else .error (cursor.faultAhead .expectedObjectEnd)

def readColon (cursor : Cursor) : Except Fault Cursor :=
  let cursor := cursor.skipSpace
  match cursor.rest with
  | [] => .error (cursor.faultAhead .endInObject)
  | ':' :: _ => .ok cursor.advance
  | _ => .error (cursor.faultAhead .expectedColon)

def readListEnd (cursor : Cursor) : Except Fault Cursor :=
  let cursor := cursor.skipSpace
  match cursor.rest with
  | [] => .error (cursor.faultAhead .endInList)
  | ']' :: _ => .ok cursor.advance
  | ',' :: _ =>
    let behind := cursor.advance.skipSpace
    .error (behind.faultAhead
      (if behind.peek == some ']' then .trailingComma else .trailingCharacters))
  | _ => .error (cursor.faultAhead .trailingCharacters)

def readItems (item : Reader Json) : Nat → Bool → Reader (List Json)
  | 0, _, cursor => .error (cursor.fault .endInList)
  | steps + 1, first, cursor => do
    match ← nextItem first cursor with
    | none => .ok ([], cursor.skipSpace.advance)
    | some cursor =>
      let (value, behind) ← item cursor
      let (values, behind) ← readItems item steps false behind
      .ok (value :: values, behind)

def readMembers (value : Reader Json) : Nat → Bool → Reader (List (String × Json))
  | 0, _, cursor => .error (cursor.fault .endInObject)
  | steps + 1, first, cursor => do
    match ← nextKey first cursor with
    | none => .ok ([], cursor.skipSpace.advance)
    | some cursor =>
      let (key, behind) ← readText cursor
      let behind ← readColon behind
      let (member, behind) ← value behind
      let (members, behind) ← readMembers value steps false behind
      .ok ((key, member) :: members, behind)

/-- A value whose lists and objects nest fewer than `depth` levels deep. -/
def readValue : Nat → Reader Json
  | 0, cursor => .error (cursor.faultAhead .tooDeep)
  | depth + 1, cursor =>
    let cursor := cursor.skipSpace
    match cursor.rest with
    | [] => .error (cursor.faultAhead .endInValue)
    | 'n' :: _ => do .ok (.null, ← expectWord "ull".toList cursor.advance)
    | 't' :: _ => do .ok (.bool true, ← expectWord "rue".toList cursor.advance)
    | 'f' :: _ => do .ok (.bool false, ← expectWord "alse".toList cursor.advance)
    | '-' :: _ => readNumber true cursor.advance
    | '"' :: _ => do
      let (text, behind) ← readText cursor.advance
      .ok (.string text, behind)
    | '[' :: _ =>
      if depth == 0 then .error (cursor.faultAhead .tooDeep)
      else do
        let (items, behind) ←
          readItems (readValue depth) (cursor.rest.length + 1) true cursor.advance
        .ok (.array items, behind)
    | '\x7b' :: _ =>
      if depth == 0 then .error (cursor.faultAhead .tooDeep)
      else do
        let (members, behind) ←
          readMembers (readValue depth) (cursor.rest.length + 1) true cursor.advance
        .ok (ofMembers members, behind)
    | c :: _ =>
      if Text.isDigit c then readNumber false cursor
      else .error (cursor.faultAhead .expectedValue)

def maxDepth : Nat := 128

def readEnd (cursor : Cursor) : Except Fault Unit :=
  let cursor := cursor.skipSpace
  if cursor.rest.isEmpty then .ok () else .error (cursor.faultAhead .trailingCharacters)

def parse (text : String) : Except Fault Json := do
  let (value, behind) ← readValue maxDepth (Cursor.start text)
  readEnd behind
  .ok value

/-! ## Passing over a value -/

def skipText : Nat → Cursor → Except Fault Cursor
  | 0, cursor => .error (cursor.fault .endInString)
  | steps + 1, cursor =>
    match cursor.rest with
    | [] => .error (cursor.fault .endInString)
    | '"' :: _ => .ok cursor.advance
    | '\\' :: [] => .error (cursor.advance.fault .endInString)
    | '\\' :: 'u' :: _ =>
      match readHex (Cursor.skip 2 cursor) with
      | .error fault => .error fault
      | .ok (_, behind) => skipText steps behind
    | '\\' :: c :: _ =>
      if (simpleEscape? c).isSome then skipText steps (Cursor.skip 2 cursor)
      else .error ((Cursor.skip 2 cursor).fault .invalidEscape)
    | c :: _ =>
      if c.toNat < 32 then .error (cursor.fault .controlCharacter)
      else skipText steps cursor.advance

def skipExponent (cursor : Cursor) : Except Fault Cursor :=
  let cursor :=
    match cursor.rest with
    | '+' :: _ => cursor.advance
    | '-' :: _ => cursor.advance
    | _ => cursor
  match cursor.rest with
  | [] => .error (cursor.fault .invalidNumber)
  | c :: _ =>
    if Text.isDigit c then .ok cursor.skipDigits
    else .error (cursor.advance.fault .invalidNumber)

def skipNumber (cursor : Cursor) : Except Fault Cursor :=
  match cursor.rest with
  | [] => .error (cursor.fault .invalidNumber)
  | first :: _ =>
    let digits := cursor.rest.takeWhile Text.isDigit
    if !Text.isDigit first then .error (cursor.advance.fault .invalidNumber)
    else if first == '0' && 1 < digits.length then
      .error (cursor.advance.faultAhead .invalidNumber)
    else
      let behind := cursor.skipDigits
      match behind.rest with
      | '.' :: _ =>
        let point := behind.advance
        let behind := point.skipDigits
        if (point.rest.takeWhile Text.isDigit).isEmpty then
          .error (behind.faultAhead .invalidNumber)
        else if behind.peek == some 'e' || behind.peek == some 'E' then
          skipExponent behind.advance
        else .ok behind
      | c :: _ =>
        if c == 'e' || c == 'E' then skipExponent behind.advance else .ok behind
      | [] => .ok behind

def skipScalar (cursor : Cursor) : Except Fault Cursor :=
  match cursor.rest with
  | [] => .error (cursor.faultAhead .endInValue)
  | 'n' :: _ => expectWord "ull".toList cursor.advance
  | 't' :: _ => expectWord "rue".toList cursor.advance
  | 'f' :: _ => expectWord "alse".toList cursor.advance
  | '-' :: _ => skipNumber cursor.advance
  | '"' :: _ => skipText (cursor.rest.length + 1) cursor.advance
  | c :: _ =>
    if Text.isDigit c then skipNumber cursor else .error (cursor.faultAhead .expectedValue)

/-- What a passing-over does next: read a value, or look for a comma or closing bracket. -/
inductive Awaiting where
  | value
  | separator
  | firstItem
  deriving DecidableEq, Repr

def skipKey (cursor : Cursor) : Except Fault Cursor :=
  match cursor.rest with
  | [] => .error (cursor.faultAhead .endInObject)
  | '"' :: _ => do
    let behind ← skipText (cursor.rest.length + 1) cursor.advance
    readColon behind
  | _ => .error (cursor.faultAhead .keyNotString)

/--
Passes over a value.  `open` lists the brackets that enclose the current place, innermost first;
`true` stands for an object.
-/
def skipFrom : Nat → List Bool → Awaiting → Cursor → Except Fault Cursor
  | 0, _, _, cursor => .error (cursor.fault .endInValue)
  | steps + 1, opened, awaiting, cursor =>
    let cursor := cursor.skipSpace
    match awaiting with
    | .value =>
      match cursor.rest with
      | '[' :: _ => skipFrom steps (false :: opened) .firstItem cursor.advance
      | '\x7b' :: _ => skipFrom steps (true :: opened) .firstItem cursor.advance
      | _ =>
        match skipScalar cursor with
        | .error fault => .error fault
        | .ok behind =>
          if opened.isEmpty then .ok behind else skipFrom steps opened .separator behind
    | _ =>
      match opened with
      | [] => .ok cursor
      | isObject :: enclosing =>
        let close := if isObject then '\x7d' else ']'
        match cursor.rest with
        | [] => .error (cursor.faultAhead (if isObject then .endInObject else .endInList))
        | c :: _ =>
          if c == close then
            if enclosing.isEmpty then .ok cursor.advance
            else skipFrom steps enclosing .separator cursor.advance
          else if awaiting == .separator && c != ',' then
            .error (cursor.faultAhead
              (if isObject then .expectedObjectEnd else .expectedListEnd))
          else
            let next := (if awaiting == .separator then cursor.advance else cursor).skipSpace
            if isObject then
              match skipKey next with
              | .error fault => .error fault
              | .ok behind => skipFrom steps opened .value behind
            else skipFrom steps opened .value next

def skipValue (cursor : Cursor) : Except Fault Cursor :=
  skipFrom (3 * cursor.rest.length + 3) [] .value cursor

end FormDerivation.Json
