import FormDerivation.Text.CharSet

/-!
Patterns: regular expressions with assertions about positions.

`Pattern.Spans` is the language of a pattern on a text: the pairs of positions between which it
matches.  `Pattern.Search` computes the positions that a set of start positions leads to.
-/

namespace FormDerivation

inductive Anchor where
  | textStart
  | textEnd
  | lineStart
  | lineEnd
  | anyLineStart
  | anyLineEnd
  | wordBoundary
  | noWordBoundary
  | wordStart
  | wordEnd
  | wordStartHalf
  | wordEndHalf
  deriving DecidableEq, Repr

/-- A regular expression.  `words` are the characters that an assertion about words counts. -/
inductive Pattern where
  | empty
  | chars (set : Text.CharSet)
  | anchor (anchor : Anchor) (words : Text.CharSet)
  | cat (first second : Pattern)
  | alt (first second : Pattern)
  | repeated (body : Pattern) (min : Nat) (max : Option Nat)
  deriving Repr, Inhabited

namespace Anchor

def holds (anchor : Anchor) (words : Text.CharSet) (before after : Option Char) : Bool :=
  let isWord (c : Option Char) : Bool := c.any fun c => words.contains c.toNat
  match anchor with
  | .textStart => before.isNone
  | .textEnd => after.isNone
  | .lineStart => before.isNone || before == some '\n'
  | .lineEnd => after.isNone || after == some '\n'
  | .anyLineStart =>
    before.isNone || before == some '\n' || (before == some '\r' && after != some '\n')
  | .anyLineEnd =>
    after.isNone || after == some '\r' || (after == some '\n' && before != some '\r')
  | .wordBoundary => isWord before != isWord after
  | .noWordBoundary => isWord before == isWord after
  | .wordStart => !isWord before && isWord after
  | .wordEnd => isWord before && !isWord after
  | .wordStartHalf => !isWord before
  | .wordEndHalf => !isWord after

end Anchor

namespace Pattern

def charBefore (text : List Char) (i : Nat) : Option Char :=
  if i = 0 then none else text[i - 1]?

/-- `Spans text p i j`: the pattern matches the characters from position `i` up to `j`. -/
inductive Spans (text : List Char) : Pattern → Nat → Nat → Prop where
  | empty {i : Nat} : Spans text .empty i i
  | chars {set : Text.CharSet} {i : Nat} {c : Char} (at_i : text[i]? = some c)
      (mem : set.contains c.toNat) : Spans text (.chars set) i (i + 1)
  | anchor {a : Anchor} {words : Text.CharSet} {i : Nat}
      (holds : a.holds words (charBefore text i) text[i]?) : Spans text (.anchor a words) i i
  | cat {p q : Pattern} {i j k : Nat} (first : Spans text p i j) (second : Spans text q j k) :
      Spans text (.cat p q) i k
  | altLeft {p q : Pattern} {i j : Nat} (first : Spans text p i j) : Spans text (.alt p q) i j
  | altRight {p q : Pattern} {i j : Nat} (second : Spans text q i j) : Spans text (.alt p q) i j
  | done {p : Pattern} {max : Option Nat} {i : Nat} : Spans text (.repeated p 0 max) i i
  | more {p : Pattern} {min : Nat} {max : Option Nat} {i j k : Nat} (room : max ≠ some 0)
      (first : Spans text p i j)
      (rest : Spans text (.repeated p (min - 1) (max.map (· - 1))) j k) :
      Spans text (.repeated p min max) i k

def MatchesWithin (p : Pattern) (text : List Char) : Prop :=
  ∃ i j, i ≤ text.length ∧ Spans text p i j

def sequence : List Pattern → Pattern
  | [] => .empty
  | [p] => p
  | p :: rest => .cat p (sequence rest)

def alternatives : List Pattern → Pattern
  | [] => .empty
  | [p] => p
  | p :: rest => .alt p (alternatives rest)

end Pattern

end FormDerivation
