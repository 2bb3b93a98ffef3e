import FormDerivation.Configuration
import FormDerivation.Derivation.State

/-!
JSON schemas of the stored forms of configurations and states.

A schema lists the members of a record with what they mean; members of a configuration also carry
their standard values.
-/

namespace FormDerivation

namespace Schema

def dialect : String := "https://json-schema.org/draft/2020-12/schema"

def withMember (key : String) (value : Json) (schema : Json) : Json :=
  .ofMap (((schema.object?).getD KeyMap.empty).insert key value)

def described (description : String) (schema : Json) : Json :=
  withMember "description" (.string description) schema

def withStandard (standard : Json) (schema : Json) : Json :=
  withMember "default" standard schema

def ofType (name : String) : Json :=
  .object [("type", .string name)]

def natural (format : String) : Json :=
  .ofMembers [("format", .string format), ("minimum", .int 0), ("type", .string "integer")]

def listOf (items : Json) : Json :=
  .ofMembers [("items", items), ("type", .string "array")]

def mapOf (members : Json) : Json :=
  .ofMembers [("additionalProperties", members), ("type", .string "object")]

def reference (name : String) : Json :=
  .object [("$ref", .string ("#/$defs/" ++ name))]

def choice (name description : String) : Json :=
  .ofMembers [("const", .string name), ("description", .string description),
    ("type", .string "string")]

def record (members : List (String × Json)) (required : List String) : Json :=
  .ofMembers ([("properties", .ofMembers members), ("type", .string "object")] ++
    (if required.isEmpty then [] else [("required", Json.ofStrings required)]))

def titled (title : String) (definitions : List (String × Json)) (schema : Json) : Json :=
  withMember "$schema" (.string dialect)
    (withMember "title" (.string title)
      (withMember "$defs" (.ofMembers definitions) schema))

end Schema

open Schema

/-! ## Configurations -/

def FailurePolicy.schema : Json :=
  described "What a derivation does when an expression fails outside validation."
    (.object [("oneOf", .array [
      choice "abort" "The first failure aborts the derivation and no state is returned.",
      choice "degrade" ("The failing step falls back (no override, hidden, raw value kept) and " ++
        "the\nfailure is listed in the resulting state.")])])

def ScriptLimits.schema : Json :=
  let standard : ScriptLimits := {}
  let limit (format : String) (n : Nat) : Json := withStandard (Json.ofNat n) (natural format)
  described "Resource budget of a script engine." (record [
    ("max_operations",
      described "Instruction budget for one script evaluation; `0` disables it."
        (limit "uint64" standard.maxOperations)),
    ("timeout_ms",
      described "Wall-clock budget for one script evaluation."
        (limit "uint64" standard.timeoutMs)),
    ("host_call_timeout_ms",
      described "Wall-clock budget for one host-function call."
        (limit "uint64" standard.hostCallTimeoutMs)),
    ("max_call_levels", limit "uint" standard.maxCallLevels),
    ("max_string_size", limit "uint" standard.maxStringSize),
    ("max_array_size", limit "uint" standard.maxArraySize),
    ("max_map_size", limit "uint" standard.maxMapSize)] [])

def RepetitionPolicy.schema : Json :=
  let policy : RepetitionPolicy := {}
  let count (n : Nat) : Json := withStandard (Json.ofNat n) (natural "uint")
  record [
    ("default_repetitions",
      described ("Repetitions used when the input carries no count for a container.\n" ++
        "Still clamped to the container's own bounds.") (count policy.standard)),
    ("max_repetitions",
      described "Upper bound for containers that declare no `max_repetitions`."
        (count policy.max))] []

def SecretsPolicy.schema : Json :=
  let names : Json := listOf (ofType "string")
  described "Secret names scripts may read through the `forms.secrets` provider." (record [
    ("allow", described "Glob patterns; an empty list allows every name not denied." names),
    ("deny", names)] [])

def Configuration.schema : Json :=
  let standard : Configuration := {}
  let part (name : String) (value : Json) : Json := withStandard value (reference name)
  titled "EngineConfig" [
      ("FailurePolicy", FailurePolicy.schema),
      ("RepetitionConfig", RepetitionPolicy.schema),
      ("ScriptLimits", ScriptLimits.schema),
      ("SecretsPolicy", SecretsPolicy.schema)]
    (described "Engine configuration. Every field has a default, so `\x7b\x7d` is valid." (record [
      ("failure_policy", part "FailurePolicy" (.string standard.failurePolicy.name)),
      ("script", part "ScriptLimits" (Json.sorted standard.script.toJson)),
      ("repetition", part "RepetitionConfig" (Json.sorted standard.repetition.toJson)),
      ("secrets", part "SecretsPolicy" (Json.sorted standard.secrets.toJson))] []))

/-! ## States -/

def StepFailure.schema : Json :=
  described
    "A failure tolerated under [`FailurePolicy::Degrade`](crate::config::FailurePolicy)."
    (record [
      ("key", ofType "string"),
      ("step", ofType "string"),
      ("message", ofType "string")] ["key", "step", "message"])

def FormState.schema : Json :=
  titled "FormState" [("DerivationFailure", StepFailure.schema)]
    (described ("Immutable snapshot produced by one derivation.\n\n" ++
        "All maps are keyed by element key: the element ID, prefixed with\n" ++
        "`<container>_<index>` inside repetitions.")
      (record [
        ("visibilities", mapOf (ofType "boolean")),
        ("values",
          described "Effective values: inputs with computed values applied."
            (mapOf (.bool true))),
        ("errors",
          described "Validation messages of visible fields." (mapOf (ofType "string"))),
        ("overrides", mapOf (.bool true)),
        ("repetitions",
          described "Repetition count per repeating container key." (mapOf (natural "uint"))),
        ("failures", listOf (reference "DerivationFailure"))]
        ["visibilities", "values", "errors", "overrides", "repetitions"]))

end FormDerivation
