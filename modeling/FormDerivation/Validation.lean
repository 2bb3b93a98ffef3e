import FormDerivation.Element.Basic
import FormDerivation.Pattern.Reader
import FormDerivation.Value

/-!
Checks of field values.

A blank value fails a required field only.  Any other value is checked against the kind of the
field, then against the conditions of its constraint in a fixed order; the first failure counts.
-/

namespace FormDerivation

inductive Violation where
  | required
  | typeMismatch
  | patternMismatch
  | tooShort
  | tooLong
  | tooSmall
  | tooLarge
  | rejected (message : String)
  | notEvaluated (reason : String)
  deriving DecidableEq, Repr

namespace Violation

def code : Violation → String
  | .required => "required"
  | .typeMismatch => "type_mismatch"
  | .patternMismatch => "pattern_mismatch"
  | .tooShort => "min_length"
  | .tooLong => "max_length"
  | .tooSmall => "min"
  | .tooLarge => "max"
  | .rejected _ => "validation"
  | .notEvaluated _ => "validation_failed"

def message : Violation → String
  | .required => "a value is required"
  | .typeMismatch => "type mismatch"
  | .patternMismatch => "value does not match pattern"
  | .tooShort => "string shorter than min length"
  | .tooLong => "string longer than max length"
  | .tooSmall => "value below minimum"
  | .tooLarge => "value above maximum"
  | .rejected message => message
  | .notEvaluated reason => "validation could not be evaluated: " ++ reason

end Violation

namespace FieldKind

/-- Whether a value counts as no answer; for a checkbox, not being ticked does. -/
def isBlank (kind : FieldKind) : Json → Bool
  | .null => true
  | .bool b => !b && kind == .checkbox
  | .string s => Text.trim s = ""
  | .array items => items.isEmpty
  | _ => false

def accepts (kind : FieldKind) (value : Json) : Bool :=
  match kind with
  | .text => ValueType.string.accepts value
  | .textarea => ValueType.string.accepts value
  | .email => ValueType.string.accepts value
  | .number => ValueType.number.accepts value
  | .checkbox => ValueType.boolean.accepts value
  | .date => ValueType.date.accepts value
  | .select => ValueType.string.accepts value || ValueType.list.accepts value
  | .other => true

end FieldKind

namespace Constraint

/-- The pattern condition; a pattern that cannot be used is no condition. -/
def patternViolation? (c : Constraint) (value : Json) : Option Violation :=
  match c.pattern, value with
  | some pattern, .string text =>
    match Pattern.parse pattern with
    | .ok pattern => if pattern.isMatch text then none else some .patternMismatch
    | .error _ => none
  | _, _ => none

def minLengthViolation? (c : Constraint) (value : Json) : Option Violation :=
  match c.minLength, value with
  | some limit, .string text => if text.length < limit then some .tooShort else none
  | _, _ => none

def maxLengthViolation? (c : Constraint) (value : Json) : Option Violation :=
  match c.maxLength, value with
  | some limit, .string text => if limit < text.length then some .tooLong else none
  | _, _ => none

def minViolation? (c : Constraint) (value : Json) : Option Violation :=
  match c.min, value.number? with
  | some bound, some x => if x < bound then some .tooSmall else none
  | _, _ => none

def maxViolation? (c : Constraint) (value : Json) : Option Violation :=
  match c.max, value.number? with
  | some bound, some x => if bound < x then some .tooLarge else none
  | _, _ => none

def violation? (c : Constraint) (value : Json) : Option Violation :=
  (c.patternViolation? value).or <| (c.minLengthViolation? value).or <|
    (c.maxLengthViolation? value).or <| (c.minViolation? value).or <| c.maxViolation? value

end Constraint

namespace FieldTraits

def check (field : FieldTraits) (value : Option Json) : Option Violation :=
  match value.filter fun value => !field.kind.isBlank value with
  | none => if field.required then some .required else none
  | some value =>
    if field.kind.accepts value then
      field.constraint.bind fun constraint => constraint.violation? value
    else some .typeMismatch

/--
What the result of a validation expression says: a text that is not empty is the message itself, and
`false` fails with the message of the field.
-/
def interpret (field : FieldTraits) (result : Json) : Option Violation :=
  match result with
  | .string message => if message = "" then none else some (.rejected message)
  | other =>
    if truthiness other == some false then
      some (.rejected (field.validationMessage.getD "invalid value"))
    else none

end FieldTraits

end FormDerivation
