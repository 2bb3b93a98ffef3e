import FormDerivation.Script.Arithmetic

/-!
Built-in functions of scripts, as tables.

A `Native` computes a value from arguments, a `Mutator` also changes its first argument.  Several
entries may share a name: the first one that is defined for the arguments counts.
-/

namespace FormDerivation.Script

/-- A function on values, `none` where it is not defined for the types of its arguments. -/
structure Native where
  name : String
  apply : List Value → Option (Except Fault Value)

structure Mutator where
  name : String
  apply : Value → List Value → Option (Except Fault (Value × Value))

namespace Library

def answer (value : Value) : Option (Except Fault Value) :=
  some (.ok value)

def change (target : Value) : Option (Except Fault (Value × Value)) :=
  some (.ok (target, .unit))

def changeTo (target result : Value) : Option (Except Fault (Value × Value)) :=
  some (.ok (target, result))

def bools (b : Bool) : Option (Except Fault Value) :=
  answer (.bool b)

def ints (n : Int) : Option (Except Fault Value) :=
  answer (.int n)

def texts (s : String) : Option (Except Fault Value) :=
  answer (.text s)

def arrays (items : List Value) : Option (Except Fault Value) :=
  answer (.array items)

/-! ## Indexes -/

def place? (size : Nat) (index : Int) : Option Nat :=
  if 0 ≤ index then (if index < size then some index.toNat else none)
  else if -index ≤ size then some (size - index.natAbs)
  else none

def nearestPlace (size : Nat) (index : Int) : Nat :=
  if 0 ≤ index then min index.toNat size else size - index.natAbs

/-- A stretch of a list: from an index on, of a given length. -/
def stretch (size : Nat) (start length : Int) : Nat × Nat :=
  let first := nearestPlace size start
  (first, min length.toNat (size - first))

/-- The stretch that a range covers; a negative start counts as zero. -/
def stretchOfRange (size : Nat) (first last : Int) (inclusive : Bool) : Nat × Nat :=
  let start := max first 0
  let stop := max (if inclusive then last + 1 else last) start
  stretch size start (stop - start)

def within {α : Type} (items : List α) (part : Nat × Nat) : List α :=
  (items.drop part.1).take part.2

def around {α : Type} (items : List α) (part : Nat × Nat) : List α × List α :=
  (items.take part.1, items.drop (part.1 + part.2))

def stretchOf? (size : Nat) : List Value → Option (Nat × Nat)
  | [.range first last inclusive] => some (stretchOfRange size first last inclusive)
  | [.int start, .int length] => some (stretch size start length)
  | _ => none

end Library

end FormDerivation.Script
