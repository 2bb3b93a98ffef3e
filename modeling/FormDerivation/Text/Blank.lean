/-!
Blank characters, words and trimming.

`isBlank` is Unicode's White_Space property.  `words` splits a text at every run of blanks, and
`normalize` joins the words again with single spaces.
-/

namespace FormDerivation.Text

def isBlank (c : Char) : Bool :=
  let n := c.toNat
  (9 ≤ n && n ≤ 13) || n == 0x20 || n == 0x85 || n == 0xA0 || n == 0x1680 ||
    (0x2000 ≤ n && n ≤ 0x200A) || n == 0x2028 || n == 0x2029 || n == 0x202F || n == 0x205F ||
    n == 0x3000

theorem isBlank_of_visible {c : Char} (h : 33 ≤ c.toNat ∧ c.toNat ≤ 126) : isBlank c = false := by
  simp only [isBlank, Bool.or_eq_false_iff, Bool.and_eq_false_iff, decide_eq_false_iff_not,
    beq_eq_false_iff_ne, ne_eq]
  omega

def isDigit (c : Char) : Bool :=
  '0' ≤ c && c ≤ '9'

def isLetter (c : Char) : Bool :=
  ('a' ≤ c && c ≤ 'z') || ('A' ≤ c && c ≤ 'Z')

def isAlphanumeric (c : Char) : Bool :=
  isLetter c || isDigit c

def isAscii (c : Char) : Bool :=
  c.toNat < 128

/-- The ASCII lower-case form; every other character stays. -/
def lowerAscii (c : Char) : Char :=
  if 'A' ≤ c ∧ c ≤ 'Z' then Char.ofNat (c.toNat + 32) else c

def lowerAsciiText (s : String) : String :=
  String.ofList (s.toList.map lowerAscii)

def trimStartChars (cs : List Char) : List Char :=
  cs.dropWhile isBlank

def trimEndChars (cs : List Char) : List Char :=
  (cs.reverse.dropWhile isBlank).reverse

def trim (s : String) : String :=
  String.ofList (trimEndChars (trimStartChars s.toList))

/--
The maximal runs of non-blank characters.  `current` holds, in reverse order, the run that ends
where the remaining characters begin.
-/
def wordsFrom (current : List Char) : List Char → List (List Char)
  | [] => if current.isEmpty then [] else [current.reverse]
  | c :: rest =>
    if isBlank c then
      if current.isEmpty then wordsFrom [] rest else current.reverse :: wordsFrom [] rest
    else wordsFrom (c :: current) rest

def words (cs : List Char) : List (List Char) :=
  wordsFrom [] cs

def joinWords : List (List Char) → List Char
  | [] => []
  | [w] => w
  | w :: rest => w ++ ' ' :: joinWords rest

/-- Every run of blanks becomes one space; blanks at the ends go. -/
def normalize (s : String) : String :=
  String.ofList (joinWords (words s.toList))

def splitAtChar (separator : Char) : List Char → List (List Char)
  | [] => [[]]
  | c :: rest =>
    let pieces := splitAtChar separator rest
    if c == separator then [] :: pieces
    else match pieces with
      | [] => [[c]]
      | piece :: others => (c :: piece) :: others

def joinWith (separator : String) : List String → String
  | [] => ""
  | [s] => s
  | s :: rest => s ++ separator ++ joinWith separator rest

def dropBeginning? : List Char → List Char → Option (List Char)
  | [], rest => some rest
  | _ :: _, [] => none
  | b :: beginning, c :: rest => if b == c then dropBeginning? beginning rest else none

theorem dropBeginning?_eq_some_iff (beginning cs rest : List Char) :
    dropBeginning? beginning cs = some rest ↔ cs = beginning ++ rest := by
  induction beginning generalizing cs with
  | nil => simp [dropBeginning?, eq_comm]
  | cons b beginning ih =>
      cases cs with
      | nil => simp [dropBeginning?]
      | cons c cs =>
          by_cases hbc : b = c
          · simp [dropBeginning?, hbc, ih]
          · simp [dropBeginning?, hbc, Ne.symm hbc]

def containsChars (needle : List Char) : List Char → Bool
  | [] => needle.isEmpty
  | c :: rest => (dropBeginning? needle (c :: rest)).isSome || containsChars needle rest

def contains (text needle : String) : Bool :=
  containsChars needle.toList text.toList

end FormDerivation.Text
