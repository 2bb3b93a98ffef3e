import FormDerivation.Text.Blank

/-!
Sets of characters as lists of ranges of code points.
-/

namespace FormDerivation.Text

/-- A set of code points: the union of ranges, both ends included. -/
abbrev CharSet := List (Nat × Nat)

def maxCodePoint : Nat := 0x10FFFF

namespace CharSet

def contains (s : CharSet) (n : Nat) : Bool :=
  s.any fun range => range.1 ≤ n && n ≤ range.2

def mergeSorted : Nat → Nat → CharSet → CharSet
  | low, high, [] => [(low, high)]
  | low, high, range :: rest =>
    if range.1 ≤ high + 1 then mergeSorted low (max high range.2) rest
    else (low, high) :: mergeSorted range.1 range.2 rest

def normalize (s : CharSet) : CharSet :=
  match (s.filter fun range => range.1 ≤ range.2).mergeSort (fun a b => a.1 ≤ b.1) with
  | [] => []
  | range :: rest => mergeSorted range.1 range.2 rest

/-- The gaps from `low` on between ranges in increasing order. -/
def gaps (low : Nat) : CharSet → CharSet
  | [] => if low ≤ maxCodePoint then [(low, maxCodePoint)] else []
  | range :: rest =>
    if low < range.1 then (low, range.1 - 1) :: gaps (range.2 + 1) rest
    else gaps (range.2 + 1) rest

def complement (s : CharSet) : CharSet :=
  gaps 0 s.normalize

def union (a b : CharSet) : CharSet :=
  normalize (a ++ b)

def intersection (a b : CharSet) : CharSet :=
  complement (union (complement a) (complement b))

def difference (a b : CharSet) : CharSet :=
  intersection a (complement b)

def symmetricDifference (a b : CharSet) : CharSet :=
  union (difference a b) (difference b a)

def single (c : Char) : CharSet :=
  [(c.toNat, c.toNat)]

def range (low high : Char) : CharSet :=
  [(low.toNat, high.toNat)]

end CharSet

def blanks : CharSet :=
  [(9, 13), (0x20, 0x20), (0x85, 0x85), (0xA0, 0xA0), (0x1680, 0x1680), (0x2000, 0x200A),
    (0x2028, 0x2029), (0x202F, 0x202F), (0x205F, 0x205F), (0x3000, 0x3000)]

end FormDerivation.Text
