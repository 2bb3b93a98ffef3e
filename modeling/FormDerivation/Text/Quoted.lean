import FormDerivation.Text.Blank

/-!
Texts quoted for diagnostics: line breaks, tabs, quotes and backslashes are escaped, and so is
every character that has no visible form of its own.
-/

namespace FormDerivation.Text

def hexText (n : Nat) : String :=
  String.ofList (Nat.toDigits 16 n)

/--
Characters without a visible form: controls, blanks other than the space, format characters,
combining marks of the common blocks, and code points set aside for private use.
-/
def isInvisible (c : Char) : Bool :=
  let n := c.toNat
  n < 0x20 || (0x7F ≤ n && n ≤ 0xA0) || n == 0xAD || (0x300 ≤ n && n ≤ 0x36F) ||
    (0x483 ≤ n && n ≤ 0x489) || (0x591 ≤ n && n ≤ 0x5BD) || (0x600 ≤ n && n ≤ 0x605) ||
    n == 0x61C || n == 0x1680 || n == 0x180E || (0x1AB0 ≤ n && n ≤ 0x1AFF) ||
    (0x1DC0 ≤ n && n ≤ 0x1DFF) || (0x2000 ≤ n && n ≤ 0x200F) || (0x2028 ≤ n && n ≤ 0x202F) ||
    (0x205F ≤ n && n ≤ 0x206F) || (0x20D0 ≤ n && n ≤ 0x20F0) || n == 0x3000 ||
    (0xE000 ≤ n && n ≤ 0xF8FF) || (0xFE00 ≤ n && n ≤ 0xFE0F) || (0xFE20 ≤ n && n ≤ 0xFE2F) ||
    n == 0xFEFF || (0xFFF0 ≤ n && n ≤ 0xFFFB) || 0xE0000 ≤ n

def quotedChar (c : Char) : String :=
  match c with
  | '"' => "\\\""
  | '\\' => "\\\\"
  | '\n' => "\\n"
  | '\r' => "\\r"
  | '\t' => "\\t"
  | '\x00' => "\\0"
  | c => if isInvisible c then "\\u\x7b" ++ hexText c.toNat ++ "\x7d" else c.toString

def quoted (s : String) : String :=
  "\"" ++ String.join (s.toList.map quotedChar) ++ "\""

def quotedList (texts : List String) : String :=
  "[" ++ joinWith ", " (texts.map quoted) ++ "]"

end FormDerivation.Text
