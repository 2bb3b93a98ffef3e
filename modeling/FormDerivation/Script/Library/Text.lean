import FormDerivation.Script.Library.Basic
import FormDerivation.Text.Unicode.CaseTable

/-!
Built-in functions on texts and characters.

Positions count characters.  A character may stand wherever a text is searched for.
-/

namespace FormDerivation.Script.Library

def needle? : Value → Option (List Char)
  | .text s => some s.toList
  | .char c => some [c]
  | _ => none

def indexOfChars (needle : List Char) : Nat → List Char → Option Nat
  | place, cs =>
    if (Text.dropBeginning? needle cs).isSome then some place
    else
      match cs with
      | [] => none
      | _ :: rest => indexOfChars needle (place + 1) rest

def foundAt : Option Nat → Int
  | some n => n
  | none => -1

/-- The parts of a text between the occurrences of another one; at most `count` further cuts. -/
def splitChars (needle : List Char) : Nat → Nat → List Char → List Char → List (List Char)
  | _, _, part, [] => [part.reverse]
  | cuts, 0, part, c :: rest =>
    match cuts, needle, Text.dropBeginning? needle (c :: rest) with
    | cuts + 1, _ :: tail, some _ => part.reverse :: splitChars needle cuts tail.length [] rest
    | _, _, _ => splitChars needle cuts 0 (c :: part) rest
  | cuts, skip + 1, part, _ :: rest => splitChars needle cuts skip part rest

def splitEverywhere (cs : List Char) : List (List Char) :=
  [] :: cs.map ([·]) ++ [[]]

def splitText (s : String) (needle : List Char) (cuts : Nat) : List Value :=
  let parts :=
    if needle.isEmpty then splitEverywhere s.toList
    else splitChars needle cuts 0 [] s.toList
  parts.map fun part => .text (String.ofList part)

def replaceChars (needle replacement : List Char) : Nat → List Char → List Char
  | _, [] => []
  | 0, c :: rest =>
    match needle, Text.dropBeginning? needle (c :: rest) with
    | _ :: tail, some _ => replacement ++ replaceChars needle replacement tail.length rest
    | _, _ => c :: replaceChars needle replacement 0 rest
  | skip + 1, _ :: rest => replaceChars needle replacement skip rest

def replaceText (s : String) (needle replacement : List Char) : String :=
  String.ofList (replaceChars needle replacement 0 s.toList)

def endsWithChars (needle cs : List Char) : Bool :=
  (Text.dropBeginning? needle.reverse cs.reverse).isSome

def cutText (s : String) (index : Int) : List Value :=
  let cs := s.toList
  let place := nearestPlace cs.length index
  [.text (String.ofList (cs.take place)), .text (String.ofList (cs.drop place))]

def textStretch (s : String) (part : Nat × Nat) : Value :=
  .text (String.ofList (within s.toList part))

/-- The stretch of a text that the arguments of a function name; without a length, up to the end. -/
def textStretchOf? (s : String) : List Value → Option (Nat × Nat)
  | [.int start] => some (stretch s.length start s.length)
  | args => stretchOf? s.length args

def padChars (length : Nat) (filling : List Char) (cs : List Char) : List Char :=
  if filling.isEmpty then cs
  else cs ++ (List.replicate length filling).flatten.take (length - cs.length)

def askText (name : String) (p : List Char → List Char → Bool) : Native :=
  ⟨name, fun
    | [.text s, v] => (needle? v).map fun needle => .ok (.bool (p needle s.toList))
    | _ => none⟩

def onText (name : String) (f : String → Value) : Native :=
  ⟨name, fun
    | [.text s] => answer (f s)
    | _ => none⟩

def textFunctions : List Native :=
  [onText "len" fun s => .int s.length,
    onText "is_empty" fun s => .bool (s == ""),
    onText "bytes" fun s => .int s.utf8ByteSize,
    onText "chars" fun s => .array (s.toList.map .char),
    ⟨"chars", fun
      | .text s :: args =>
        (textStretchOf? s args).map fun part => .ok (.array ((within s.toList part).map .char))
      | _ => none⟩,
    onText "to_upper" fun s => .text (Text.Unicode.upper s),
    onText "to_lower" fun s => .text (Text.Unicode.lower s),
    ⟨"to_upper", fun
      | [.char c] =>
        match Text.Unicode.upperChar c with
        | [u] => answer (.char u)
        | _ => answer (.char c)
      | _ => none⟩,
    ⟨"to_lower", fun
      | [.char c] =>
        match Text.Unicode.lowerChar c with
        | [l] => answer (.char l)
        | _ => answer (.char c)
      | _ => none⟩,
    ⟨"to_int", fun
      | [.char c] => ints c.toNat
      | _ => none⟩,
    askText "starts_with" fun needle cs => (Text.dropBeginning? needle cs).isSome,
    askText "ends_with" endsWithChars,
    askText "contains" Text.containsChars,
    ⟨"index_of", fun
      | [.text s, v] => (needle? v).map fun needle =>
        .ok (.int (foundAt (indexOfChars needle 0 s.toList)))
      | [.text s, v, .int start] => (needle? v).map fun needle =>
        let place := nearestPlace s.length start
        .ok (.int (foundAt (if s.length ≤ place then none
          else indexOfChars needle place (s.toList.drop place))))
      | _ => none⟩,
    ⟨"sub_string", fun
      | .text s :: args => (textStretchOf? s args).map fun part => .ok (textStretch s part)
      | _ => none⟩,
    ⟨"get", fun
      | [.text s, .int index] =>
        answer (((place? s.length index).bind (s.toList[·]?)).elim .unit .char)
      | _ => none⟩,
    ⟨"split", fun
      | [.text s] => arrays ((Text.words s.toList).map fun word => .text (String.ofList word))
      | [.text s, .int index] => arrays (cutText s index)
      | [.text s, v] => (needle? v).map fun needle => .ok (.array (splitText s needle s.length))
      | [.text s, v, .int count] => (needle? v).map fun needle =>
        .ok (.array (splitText s needle ((max count 1).toNat - 1)))
      | _ => none⟩,
    ⟨"split_rev", fun
      | [.text s, v] => (needle? v).map fun needle =>
        .ok (.array (splitText s needle s.length).reverse)
      | _ => none⟩]

def changeText (name : String) (f : String → List Value → Option String) : Mutator :=
  ⟨name, fun target args =>
    match target with
    | .text s => (f s args).map fun t => .ok (.text t, .unit)
    | _ => none⟩

def convertText (name : String) (f : String → String) : Mutator :=
  changeText name fun s args => if args.isEmpty then some (f s) else none

def textMutators : List Mutator :=
  [convertText "trim" Text.trim,
    convertText "clear" fun _ => "",
    convertText "make_upper" Text.Unicode.upper,
    convertText "make_lower" Text.Unicode.lower,
    changeText "append" fun s args =>
      match args with
      | [v] => some (s ++ v.plainText)
      | _ => none,
    changeText "truncate" fun s args =>
      match args with
      | [.int length] => some (String.ofList (s.toList.take length.toNat))
      | _ => none,
    changeText "crop" fun s args =>
      (textStretchOf? s args).map fun part => String.ofList (within s.toList part),
    changeText "remove" fun s args =>
      match args with
      | [v] => (needle? v).map fun needle => replaceText s needle []
      | _ => none,
    changeText "replace" fun s args =>
      match args with
      | [a, b] => do some (replaceText s (← needle? a) (← needle? b))
      | _ => none,
    changeText "pad" fun s args =>
      match args with
      | [.int length, v] => (needle? v).map fun filling =>
        String.ofList (padChars length.toNat filling s.toList)
      | _ => none,
    changeText "set" fun s args =>
      match args with
      | [.int index, .char c] =>
        match place? s.length index with
        | some place => some (String.ofList (s.toList.set place c))
        | none => some s
      | _ => none,
    ⟨"pop", fun target args =>
      match target, args with
      | .text s, [] =>
        changeTo (.text (String.ofList s.toList.dropLast)) (s.toList.getLast?.elim .unit .char)
      | .text s, [.int count] =>
        let keep := s.length - count.toNat
        changeTo (.text (String.ofList (s.toList.take keep)))
          (.text (String.ofList (s.toList.drop keep)))
      | _, _ => none⟩]

end FormDerivation.Script.Library
