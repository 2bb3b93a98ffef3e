import FormDerivation.Json.ShapeReader

/-!
The configuration of a form engine.

Every section and every field has a default.  `Configuration.parse` reads the text of a
configuration, where a blank text stands for the default one.
-/

namespace FormDerivation

open Json (Shape Mismatch Fault)

inductive FailurePolicy where
  | abort
  | degrade
  deriving DecidableEq, Repr, Inhabited

namespace FailurePolicy

def name : FailurePolicy → String
  | .abort => "abort"
  | .degrade => "degrade"

def ofName? (name : String) : Option FailurePolicy :=
  if name == "abort" then some .abort
  else if name == "degrade" then some .degrade
  else none

end FailurePolicy

/-- What a script may use up; a size of zero stands for no limit. -/
structure ScriptLimits where
  maxOperations : Nat := 1000000
  timeoutMs : Nat := 2000
  hostCallTimeoutMs : Nat := 5000
  maxCallLevels : Nat := 32
  maxStringSize : Nat := 65536
  maxArraySize : Nat := 10000
  maxMapSize : Nat := 10000
  deriving DecidableEq, Repr, Inhabited

structure RepetitionPolicy where
  standard : Nat := 0
  max : Nat := 1000
  deriving DecidableEq, Repr, Inhabited

/-- Which secrets scripts may read: globs for names. -/
structure SecretsPolicy where
  /-- Without any glob here, every name is allowed that is not denied. -/
  allow : List String := []
  deny : List String := []
  deriving DecidableEq, Repr, Inhabited

structure Configuration where
  failurePolicy : FailurePolicy := .abort
  script : ScriptLimits := {}
  repetition : RepetitionPolicy := {}
  secrets : SecretsPolicy := {}
  deriving DecidableEq, Repr, Inhabited

/-! ## Shapes -/

def optionalField (name : String) (shape : Shape) : String × Bool × Shape :=
  (name, false, shape)

def ScriptLimits.fields : List (String × Bool × Shape) :=
  [optionalField "max_operations" (.natural "u64"),
    optionalField "timeout_ms" (.natural "u64"),
    optionalField "host_call_timeout_ms" (.natural "u64"),
    optionalField "max_call_levels" (.natural "usize"),
    optionalField "max_string_size" (.natural "usize"),
    optionalField "max_array_size" (.natural "usize"),
    optionalField "max_map_size" (.natural "usize")]

def ScriptLimits.shape : Shape :=
  .record "ScriptLimits" fields

def RepetitionPolicy.fields : List (String × Bool × Shape) :=
  [optionalField "default_repetitions" (.natural "usize"),
    optionalField "max_repetitions" (.natural "usize")]

def RepetitionPolicy.shape : Shape :=
  .record "RepetitionConfig" fields

def SecretsPolicy.fields : List (String × Bool × Shape) :=
  [optionalField "allow" (.list .text), optionalField "deny" (.list .text)]

def SecretsPolicy.shape : Shape :=
  .record "SecretsPolicy" fields

def Configuration.fields : List (String × Bool × Shape) :=
  [optionalField "failure_policy" (.variant ["abort", "degrade"]),
    optionalField "script" ScriptLimits.shape,
    optionalField "repetition" RepetitionPolicy.shape,
    optionalField "secrets" SecretsPolicy.shape]

def Configuration.shape : Shape :=
  .record "EngineConfig" fields

/-! ## Reading -/

def naturalField (members : List (String × Json)) (key : String) (standard : Nat) : Nat :=
  ((KeyMap.lookupEntry key members).bind Json.natural?).getD standard

def textsField (members : List (String × Json)) (key : String) : List String :=
  (((KeyMap.lookupEntry key members).bind Json.array?).getD []).filterMap Json.string?

def sectionField (members : List (String × Json)) (key : String) : Json :=
  (KeyMap.lookupEntry key members).getD .null

def ScriptLimits.ofShaped (j : Json) : ScriptLimits :=
  let members := j.recordMembers fields
  let standard : ScriptLimits := {}
  { maxOperations := naturalField members "max_operations" standard.maxOperations
    timeoutMs := naturalField members "timeout_ms" standard.timeoutMs
    hostCallTimeoutMs := naturalField members "host_call_timeout_ms" standard.hostCallTimeoutMs
    maxCallLevels := naturalField members "max_call_levels" standard.maxCallLevels
    maxStringSize := naturalField members "max_string_size" standard.maxStringSize
    maxArraySize := naturalField members "max_array_size" standard.maxArraySize
    maxMapSize := naturalField members "max_map_size" standard.maxMapSize }

def RepetitionPolicy.ofShaped (j : Json) : RepetitionPolicy :=
  let members := j.recordMembers fields
  let standard : RepetitionPolicy := {}
  { standard := naturalField members "default_repetitions" standard.standard
    max := naturalField members "max_repetitions" standard.max }

def SecretsPolicy.ofShaped (j : Json) : SecretsPolicy :=
  let members := j.recordMembers fields
  { allow := textsField members "allow", deny := textsField members "deny" }

def Configuration.ofShaped (j : Json) : Configuration :=
  let members := j.recordMembers fields
  { failurePolicy := (((KeyMap.lookupEntry "failure_policy" members).bind Json.string?).bind
      FailurePolicy.ofName?).getD .abort
    script := .ofShaped (sectionField members "script")
    repetition := .ofShaped (sectionField members "repetition")
    secrets := .ofShaped (sectionField members "secrets") }

def ScriptLimits.ofJson (j : Json) : Except Mismatch ScriptLimits :=
  match Shape.mismatch? j shape with
  | some cause => .error cause
  | none => .ok (.ofShaped j)

def SecretsPolicy.ofJson (j : Json) : Except Mismatch SecretsPolicy :=
  match Shape.mismatch? j shape with
  | some cause => .error cause
  | none => .ok (.ofShaped j)

def Configuration.parse (text : String) : Except Fault Configuration :=
  if Text.trim text = "" then .ok {}
  else
    match shape.parse text with
    | .error fault => .error fault
    | .ok j => .ok (.ofShaped j)

/-! ## Writing -/

def textsMember (key : String) (texts : List String) : List (String × Json) :=
  if texts.isEmpty then [] else [(key, Json.ofStrings texts)]

def ScriptLimits.toJson (limits : ScriptLimits) : Json :=
  .object [
    ("max_operations", Json.ofNat limits.maxOperations),
    ("timeout_ms", Json.ofNat limits.timeoutMs),
    ("host_call_timeout_ms", Json.ofNat limits.hostCallTimeoutMs),
    ("max_call_levels", Json.ofNat limits.maxCallLevels),
    ("max_string_size", Json.ofNat limits.maxStringSize),
    ("max_array_size", Json.ofNat limits.maxArraySize),
    ("max_map_size", Json.ofNat limits.maxMapSize)]

def RepetitionPolicy.toJson (policy : RepetitionPolicy) : Json :=
  .object [
    ("default_repetitions", Json.ofNat policy.standard),
    ("max_repetitions", Json.ofNat policy.max)]

def SecretsPolicy.toJson (policy : SecretsPolicy) : Json :=
  .object (textsMember "allow" policy.allow ++ textsMember "deny" policy.deny)

def Configuration.toJson (c : Configuration) : Json :=
  .object [
    ("failure_policy", .string c.failurePolicy.name),
    ("script", c.script.toJson),
    ("repetition", c.repetition.toJson),
    ("secrets", c.secrets.toJson)]

/-! ## Durations -/

def thousandthsText (n : Nat) : String :=
  let digits := (toString (1000 + n)).toList.drop 1
  let kept := (digits.reverse.dropWhile (· == '0')).reverse
  if kept.isEmpty then "" else "." ++ String.ofList kept

def durationText (milliseconds : Nat) : String :=
  if milliseconds = 0 then "0ns"
  else if milliseconds < 1000 then toString milliseconds ++ "ms"
  else toString (milliseconds / 1000) ++ thousandthsText (milliseconds % 1000) ++ "s"

end FormDerivation
