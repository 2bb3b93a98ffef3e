import FormDerivation.Pattern.Basic

/-!
Searching a text for a pattern.

A set of positions is a natural number whose bit `i` says whether position `i` belongs to it.
`located` replaces the character sets and assertions of a pattern by the positions at which they
hold in one text; `reach` takes a set of start positions to the set of end positions.
-/

namespace FormDerivation.Pattern

abbrev Positions := Nat

inductive Located where
  | empty
  | step (positions : Positions)
  | test (positions : Positions)
  | cat (first second : Located)
  | alt (first second : Located)
  | repeated (body : Located) (min : Nat) (max : Option Nat)
  deriving Repr, Inhabited

def stepPositions (set : Text.CharSet) (index : Nat) : List Char → Positions
  | [] => 0
  | c :: rest =>
    (if set.contains c.toNat then Nat.pow 2 index else 0) ||| stepPositions set (index + 1) rest

def testPositions (anchor : Anchor) (words : Text.CharSet) (index : Nat) (before : Option Char) :
    List Char → Positions
  | [] => if anchor.holds words before none then Nat.pow 2 index else 0
  | c :: rest =>
    (if anchor.holds words before (some c) then Nat.pow 2 index else 0) |||
      testPositions anchor words (index + 1) (some c) rest

def located (text : List Char) : Pattern → Located
  | .empty => .empty
  | .chars set => .step (stepPositions set 0 text)
  | .anchor a words => .test (testPositions a words 0 none text)
  | .cat p q => .cat (located text p) (located text q)
  | .alt p q => .alt (located text p) (located text q)
  | .repeated p min max => .repeated (located text p) min max

/-- Applies a step a number of times; a step that changes nothing ends it early. -/
def iterate (step : Positions → Positions) : Nat → Positions → Positions
  | 0, positions => positions
  | n + 1, positions =>
    let next := step positions
    if next == positions then positions else iterate step n next

/-- The end positions of the matches that start at the given positions; `limit` bounds them. -/
def Located.reach (limit : Nat) : Located → Positions → Positions
  | .empty, positions => positions
  | .step allowed, positions => (positions &&& allowed) <<< 1
  | .test allowed, positions => positions &&& allowed
  | .cat p q, positions => q.reach limit (p.reach limit positions)
  | .alt p q, positions => p.reach limit positions ||| q.reach limit positions
  | .repeated p min max, positions =>
    let required := iterate (fun s => if s == 0 then 0 else p.reach limit s) min positions
    let optional := match max with
      | none => limit
      | some max => Nat.min (max - min) limit
    iterate (fun s => s ||| p.reach limit s) optional required

def allPositions (text : List Char) : Positions :=
  Nat.pow 2 (text.length + 1) - 1

def matchesWithin (p : Pattern) (text : List Char) : Bool :=
  (located text p).reach (text.length + 1) (allPositions text) != 0

end FormDerivation.Pattern
