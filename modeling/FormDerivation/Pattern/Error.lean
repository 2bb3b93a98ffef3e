/-!
Why a text is no pattern.
-/

namespace FormDerivation.Pattern

inductive Reason where
  | classEscapeInvalid
  | classRangeInvalid
  | classRangeLiteral
  | classUnclosed
  | hexEmpty
  | hexInvalid
  | hexInvalidDigit
  | escapeUnfinished
  | escapeUnrecognized
  | flagDanglingNegation
  | flagDuplicate
  | flagRepeatedNegation
  | flagUnfinished
  | flagUnrecognized
  | groupNameDuplicate
  | groupNameEmpty
  | groupNameInvalid
  | groupNameUnfinished
  | groupUnclosed
  | groupUnopened
  | nestedTooDeep
  | countInvalid
  | countNoDecimal
  | countDecimalInvalid
  | countUnclosed
  | repetitionMissing
  | boundaryUnclosed
  | boundaryUnrecognized
  | boundaryUnfinished
  | backreference
  | lookAround
  | unicodeClassInvalid
  | unicodeNotAllowed
  | invalidEncoding
  | propertyNotFound
  deriving DecidableEq, Repr

def Reason.message : Reason → String
  | .classEscapeInvalid => "invalid escape sequence found in character class"
  | .classRangeInvalid => "invalid character class range, the start must be <= the end"
  | .classRangeLiteral => "invalid range boundary, must be a literal"
  | .classUnclosed => "unclosed character class"
  | .hexEmpty => "hexadecimal literal empty"
  | .hexInvalid => "hexadecimal literal is not a Unicode scalar value"
  | .hexInvalidDigit => "invalid hexadecimal digit"
  | .escapeUnfinished => "incomplete escape sequence, reached end of pattern prematurely"
  | .escapeUnrecognized => "unrecognized escape sequence"
  | .flagDanglingNegation => "dangling flag negation operator"
  | .flagDuplicate => "duplicate flag"
  | .flagRepeatedNegation => "flag negation operator repeated"
  | .flagUnfinished => "expected flag but got end of regex"
  | .flagUnrecognized => "unrecognized flag"
  | .groupNameDuplicate => "duplicate capture group name"
  | .groupNameEmpty => "empty capture group name"
  | .groupNameInvalid => "invalid capture group character"
  | .groupNameUnfinished => "unclosed capture group name"
  | .groupUnclosed => "unclosed group"
  | .groupUnopened => "unopened group"
  | .nestedTooDeep => "exceed the maximum number of nested parentheses/brackets (250)"
  | .countInvalid => "invalid repetition count range, the start must be <= the end"
  | .countNoDecimal => "repetition quantifier expects a valid decimal"
  | .countDecimalInvalid => "decimal literal invalid"
  | .countUnclosed => "unclosed counted repetition"
  | .repetitionMissing => "repetition operator missing expression"
  | .boundaryUnclosed =>
    "special word boundary assertion is either unclosed or contains an invalid character"
  | .boundaryUnrecognized =>
    "unrecognized special word boundary assertion, valid choices are: start, end, start-half " ++
      "or end-half"
  | .boundaryUnfinished =>
    "found either the beginning of a special word boundary or a bounded repetition on a \\b " ++
      "with an opening brace, but no closing brace"
  | .backreference => "backreferences are not supported"
  | .lookAround => "look-around, including look-ahead and look-behind, is not supported"
  | .unicodeClassInvalid => "invalid Unicode character class"
  | .unicodeNotAllowed => "Unicode not allowed here"
  | .invalidEncoding => "pattern can match invalid UTF-8"
  | .propertyNotFound => "Unicode property not found"

inductive Error where
  | malformed (pattern : String) (reason : Reason)
  | tooLarge
  deriving DecidableEq, Repr

def maxCompiledSize : Nat := 10485760

def Error.message : Error → String
  | .malformed pattern reason =>
    "regex parse error:\n    " ++ pattern ++ "\nerror: " ++ reason.message
  | .tooLarge =>
    "Compiled regex exceeds size limit of " ++ toString maxCompiledSize ++ " bytes."

end FormDerivation.Pattern
