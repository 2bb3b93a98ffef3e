import FormDerivation.Script.Library.Basic

/-!
Built-in functions on arrays, maps and ranges, as far as they call no other functions.
-/

namespace FormDerivation.Script.Library

/-! ## Arrays -/

def indexOfValue (v : Value) : Nat → List Value → Option Nat
  | _, [] => none
  | place, item :: rest => if item.same v then some place else indexOfValue v (place + 1) rest

def dropRepeated : List Value → List Value
  | [] => []
  | [v] => [v]
  | v :: w :: rest =>
    if v.same w then dropRepeated (v :: rest) else v :: dropRepeated (w :: rest)
termination_by items => items.length

def zipped : List Value → List Value → List Value
  | a :: as, b :: bs => .array [a, b] :: zipped as bs
  | _, _ => []

def comesBefore (a b : Value) : Bool :=
  match BinaryOp.less.result? a b with
  | some (.ok (.bool true)) => true
  | _ => false

/-- The items in increasing order; of equal ones the earlier one stays first. -/
def sortItems (items : List Value) : List Value :=
  items.mergeSort fun a b => !comesBefore b a

def sorted (decreasing : Bool) (items : List Value) : Except Fault (List Value) :=
  match items with
  | [] => .ok []
  | first :: _ =>
    if items.all fun v => v.typeName == first.typeName then
      .ok (if decreasing then (sortItems items).reverse else sortItems items)
    else
      .error (.unknownFunction "sort() cannot be called with elements of different types")

def arrayFunctions : List Native :=
  [⟨"len", fun
      | [.array items] => ints items.length
      | _ => none⟩,
    ⟨"is_empty", fun
      | [.array items] => bools items.isEmpty
      | _ => none⟩,
    ⟨"get", fun
      | [.array items, .int index] =>
        answer (((place? items.length index).bind (items[·]?)).getD .unit)
      | _ => none⟩,
    ⟨"contains", fun
      | [.array items, v] => bools (items.any (·.same v))
      | _ => none⟩,
    ⟨"index_of", fun
      | [.array _, .function _ _] => none
      | [.array _, .function _ _, _] => none
      | [.array items, v] => ints ((indexOfValue v 0 items).elim (-1) Int.ofNat)
      | [.array items, v, .int start] =>
        let place := nearestPlace items.length start
        ints ((indexOfValue v place (items.drop place)).elim (-1) Int.ofNat)
      | _ => none⟩,
    ⟨"extract", fun
      | [.array items, .int start] => arrays (items.drop (nearestPlace items.length start))
      | .array items :: args =>
        (stretchOf? items.length args).map fun part => .ok (.array (within items part))
      | _ => none⟩,
    ⟨"zip", fun
      | [.array as, .array bs] => arrays (zipped as bs)
      | _ => none⟩]

def changeArray (name : String) (f : List Value → List Value → Option (List Value)) : Mutator :=
  ⟨name, fun target args =>
    match target with
    | .array items => (f items args).map fun items => .ok (.array items, .unit)
    | _ => none⟩

def takeFromArray (name : String) (f : List Value → List Value → Option (List Value × Value)) :
    Mutator :=
  ⟨name, fun target args =>
    match target with
    | .array items => (f items args).map fun (rest, taken) => .ok (.array rest, taken)
    | _ => none⟩

def sortArray (name : String) (decreasing : Bool) : Mutator :=
  ⟨name, fun target args =>
    match target, args with
    | .array items, [] =>
      some ((sorted decreasing items).map fun items => (.array items, .unit))
    | _, _ => none⟩

def arrayMutators : List Mutator :=
  [changeArray "push" fun items args =>
      match args with
      | [v] => some (items ++ [v])
      | _ => none,
    changeArray "append" fun items args =>
      match args with
      | [.array more] => some (items ++ more)
      | _ => none,
    changeArray "insert" fun items args =>
      match args with
      | [.int index, v] => some (items.insertIdx (nearestPlace items.length index) v)
      | _ => none,
    changeArray "pad" fun items args =>
      match args with
      | [.int length, v] => some (items ++ List.replicate (length.toNat - items.length) v)
      | _ => none,
    changeArray "set" fun items args =>
      match args with
      | [.int index, v] =>
        some (match place? items.length index with
          | some place => items.set place v
          | none => items)
      | _ => none,
    changeArray "clear" fun _ args => if args.isEmpty then some [] else none,
    changeArray "truncate" fun items args =>
      match args with
      | [.int length] => some (items.take length.toNat)
      | _ => none,
    changeArray "chop" fun items args =>
      match args with
      | [.int length] => some (items.drop (items.length - length.toNat))
      | _ => none,
    changeArray "reverse" fun items args => if args.isEmpty then some items.reverse else none,
    changeArray "dedup" fun items args =>
      if args.isEmpty then some (dropRepeated items) else none,
    changeArray "splice" fun items args =>
      match args.reverse with
      | .array more :: rest => (stretchOf? items.length rest.reverse).map fun part =>
        let (before, behind) := around items part
        before ++ more ++ behind
      | _ => none,
    takeFromArray "pop" fun items args =>
      if args.isEmpty then some (items.dropLast, items.getLast?.getD .unit) else none,
    takeFromArray "shift" fun items args =>
      if args.isEmpty then some (items.tail, items.head?.getD .unit) else none,
    takeFromArray "remove" fun items args =>
      match args with
      | [.int index] =>
        some (match place? items.length index with
          | some place => (items.eraseIdx place, items[place]?.getD .unit)
          | none => (items, .unit))
      | _ => none,
    takeFromArray "drain" fun items args =>
      (stretchOf? items.length args).map fun part =>
        let (before, behind) := around items part
        (before ++ behind, .array (within items part)),
    takeFromArray "retain" fun items args =>
      (stretchOf? items.length args).map fun part =>
        let (before, behind) := around items part
        (within items part, .array (before ++ behind)),
    takeFromArray "split" fun items args =>
      match args with
      | [.int index] =>
        let place := nearestPlace items.length index
        some (items.take place, .array (items.drop place))
      | _ => none,
    sortArray "sort" false,
    sortArray "sort_desc" true]

/-! ## Maps -/

mutual

def mapText : Value → String
  | .map members => "\x7b" ++ Text.joinWith "," (mapMemberTexts members) ++ "\x7d"
  | .unit => "null"
  | v => v.nestedText

def mapMemberTexts : List (String × Value) → List String
  | [] => []
  | (key, v) :: rest => (Text.quoted key ++ ":" ++ mapText v) :: mapMemberTexts rest

end

def mapFunctions : List Native :=
  [⟨"len", fun
      | [.map members] => ints members.length
      | _ => none⟩,
    ⟨"is_empty", fun
      | [.map members] => bools members.isEmpty
      | _ => none⟩,
    ⟨"get", fun
      | [.map members, .text key] => answer ((members.lookup key).getD .unit)
      | _ => none⟩,
    ⟨"contains", fun
      | [.map members, .text key] => bools (members.lookup key).isSome
      | _ => none⟩,
    ⟨"keys", fun
      | [.map members] => arrays (members.map fun member => .text member.1)
      | _ => none⟩,
    ⟨"values", fun
      | [.map members] => arrays (members.map (·.2))
      | _ => none⟩,
    ⟨"to_json", fun
      | [.map members] => texts (mapText (.map members))
      | _ => none⟩]

def setMember (members : List (String × Value)) (key : String) (v : Value) :
    List (String × Value) :=
  KeyMap.insertEntry key v members

def mapMutators : List Mutator :=
  [⟨"clear", fun
      | .map _, [] => change (.map [])
      | _, _ => none⟩,
    ⟨"set", fun
      | .map members, [.text key, v] => change (.map (setMember members key v))
      | _, _ => none⟩,
    ⟨"remove", fun
      | .map members, [.text key] =>
        changeTo (.map (members.filter (·.1 != key))) ((members.lookup key).getD .unit)
      | _, _ => none⟩,
    ⟨"mixin", fun
      | .map members, [.map more] => change (.map (mergeMembers members more))
      | _, _ => none⟩,
    ⟨"fill_with", fun
      | .map members, [.map more] => change (.map (mergeMembers more members))
      | _, _ => none⟩]

/-! ## Ranges -/

def rangeFunctions : List Native :=
  [⟨"contains", fun
      | [.range first last inclusive, .int n] =>
        bools (first ≤ n && (if inclusive then n ≤ last else n < last))
      | _ => none⟩,
    ⟨"start", fun
      | [.range first _ _] => ints first
      | _ => none⟩,
    ⟨"end", fun
      | [.range _ last _] => ints last
      | _ => none⟩,
    ⟨"is_inclusive", fun
      | [.range _ _ inclusive] => bools inclusive
      | _ => none⟩,
    ⟨"is_exclusive", fun
      | [.range _ _ inclusive] => bools !inclusive
      | _ => none⟩,
    ⟨"is_empty", fun
      | [.range first last inclusive] =>
        bools (if inclusive then last < first else last ≤ first)
      | _ => none⟩]

end FormDerivation.Script.Library
