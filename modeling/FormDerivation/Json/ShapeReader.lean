import FormDerivation.Json.Reader

/-!
Reading JSON text of a known shape.

`Shape.parse` checks the shape while it reads, so that a departure is reported at its place in the
text.  Members that are no field are passed over; a field may occur once only.
-/

namespace FormDerivation.Json

def wrongTypeHere (expected : String) (cursor : Cursor) : Fault :=
  let report (found : Found) (behind : Cursor) : Fault :=
    behind.mismatch (.wrongType found expected)
  match cursor.rest with
  | [] => cursor.faultAhead .endInValue
  | '[' :: _ => report .list cursor
  | '\x7b' :: _ => report .map cursor
  | c :: _ =>
    if c == 'n' || c == 't' || c == 'f' || c == '-' || c == '"' || Text.isDigit c then
      match readValue 1 cursor with
      | .error fault => fault
      | .ok (value, behind) => report (.of value) behind
    else cursor.faultAhead .expectedValue

def readNatural (name : String) : Reader Json := fun cursor =>
  let number (read : Except Fault (Json × Cursor)) : Except Fault (Json × Cursor) := do
    let (value, behind) ← read
    match Shape.mismatch? value (.natural name) with
    | none => .ok (value, behind)
    | some cause => .error (behind.mismatch cause)
  match cursor.rest with
  | [] => .error (cursor.faultAhead .endInValue)
  | '-' :: _ => number (readNumber true cursor.advance)
  | c :: _ =>
    if Text.isDigit c then number (readNumber false cursor)
    else .error (wrongTypeHere name cursor)

def readString (expected : String) : Reader String := fun cursor =>
  match cursor.rest with
  | [] => .error (cursor.faultAhead .endInValue)
  | '"' :: _ => readText cursor.advance
  | _ => .error (wrongTypeHere expected cursor)

def readVariantName (names : List String) : Reader Json := fun cursor => do
  let (name, behind) ← readString "variant identifier" cursor.skipSpace
  if names.contains name then .ok (.string name, behind)
  else .error (behind.mismatch (.unknownVariant name names))

/-- A variant: its name, or an object whose one key is the name and whose value is `null`. -/
def readVariant (names : List String) : Reader Json := fun cursor =>
  match cursor.rest with
  | [] => .error (cursor.faultAhead .endInValue)
  | '"' :: _ => readVariantName names cursor
  | '\x7b' :: _ => do
    let (name, behind) ← readVariantName names cursor.advance
    let behind := (← readColon behind).skipSpace
    match behind.rest with
    | 'n' :: _ =>
      let behind := (← expectWord "ull".toList behind.advance).skipSpace
      match behind.rest with
      | [] => .error (behind.fault .endInObject)
      | '\x7d' :: _ => .ok (name, behind.advance)
      | _ => .error (behind.fault .expectedValue)
    | _ => .error (wrongTypeHere "unit" behind)
  | _ => .error (cursor.faultAhead .expectedValue)

def readFields (field : Shape → Reader Json) (expected : String) :
    Nat → List (String × Bool × Shape) → Reader (List (String × Json))
  | _, [], cursor => do .ok ([], ← readListEnd cursor)
  | index, (name, required, shape) :: fields, cursor => do
    match ← nextItem (index == 0) cursor with
    | none =>
      match Shape.requiredIndex? index ((name, required, shape) :: fields) with
      | none => .ok ([], cursor.skipSpace.advance)
      | some missing =>
        .error (cursor.skipSpace.advance.mismatch (.wrongLength missing expected))
    | some cursor =>
      let (value, behind) ← field shape cursor
      let (members, behind) ← readFields field expected (index + 1) fields behind
      .ok ((name, value) :: members, behind)

def readRecordMembers (field : Shape → Reader Json) (fields : List (String × Bool × Shape)) :
    Nat → Bool → List (String × Json) → Reader (List (String × Json))
  | 0, _, _, cursor => .error (cursor.fault .endInObject)
  | steps + 1, first, members, cursor => do
    match ← nextKey first cursor with
    | none => .ok (members, cursor.skipSpace.advance)
    | some cursor =>
      let (key, behind) ← readText cursor
      match Shape.field? key fields with
      | none =>
        let behind ← readColon behind
        readRecordMembers field fields steps false members (← skipValue behind)
      | some shape =>
        if (KeyMap.lookupEntry key members).isSome then
          .error (behind.skipSpace.mismatch (.duplicateField key))
        else
          let behind ← readColon behind
          let (value, behind) ← field shape behind
          readRecordMembers field fields steps false ((key, value) :: members) behind

/-- A value of a shape, with at most `depth` more levels of nesting. -/
def Shape.read : Nat → Shape → Reader Json
  | 0, _, cursor => .error (cursor.faultAhead .tooDeep)
  | depth + 1, shape, cursor =>
    let cursor := cursor.skipSpace
    match shape with
    | .natural name => readNatural name cursor
    | .text => do
      let (content, behind) ← readString "a string" cursor
      .ok (.string content, behind)
    | .variant names => readVariant names cursor
    | .list item =>
      match cursor.rest with
      | [] => .error (cursor.faultAhead .endInValue)
      | '[' :: _ => do
        let (items, behind) ←
          readItems (Shape.read depth item) (cursor.rest.length + 1) true cursor.advance
        .ok (.array items, behind)
      | _ => .error (wrongTypeHere shape.expected cursor)
    | .record name fields =>
      match cursor.rest with
      | [] => .error (cursor.faultAhead .endInValue)
      | '[' :: _ => do
        let expected := "struct " ++ name ++ " with " ++ countElements fields.length
        let (members, behind) ← readFields (Shape.read depth) expected 0 fields cursor.advance
        .ok (ofMembers members, behind)
      | '\x7b' :: _ => do
        let (members, behind) ←
          readRecordMembers (Shape.read depth) fields (cursor.rest.length + 1) true []
            cursor.advance
        match Shape.missing? members fields with
        | none => .ok (ofMembers members, behind)
        | some cause => .error (behind.mismatch cause)
      | _ => .error (wrongTypeHere shape.expected cursor)
    | shape => do
      let (value, behind) ← readValue (depth + 1) cursor
      match Shape.mismatch? value shape with
      | none => .ok (value, behind)
      | some cause => .error (behind.mismatch cause)

def Shape.parse (shape : Shape) (text : String) : Except Fault Json := do
  let (value, behind) ← shape.read maxDepth (Cursor.start text)
  readEnd behind
  .ok value

end FormDerivation.Json
