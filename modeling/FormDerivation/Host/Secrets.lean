import FormDerivation.Configuration
import FormDerivation.Glob
import FormDerivation.Host.Basic

/-!
Named secrets for scripts: the package `forms.secrets`.

A name is allowed if no deny glob matches it and, where there are allow globs, one of those does.
Scripts learn nothing about a name that is not allowed.
-/

namespace FormDerivation

structure SecretsFilter where
  /-- `none` allows every name that is not denied. -/
  allow : Option (List Glob)
  deny : List Glob

structure SecretStore where
  values : KeyMap String
  filter : SecretsFilter

namespace SecretsFilter

def readGlobs : List String → Except RegistrationError (List Glob)
  | [] => .ok []
  | text :: rest =>
    match Glob.parse text with
    | .error error => .error (.secretsPolicy error.message)
    | .ok glob => do .ok (glob :: (← readGlobs rest))

/-- The filter of a policy, unless one of its globs cannot be read. -/
def ofPolicy (policy : SecretsPolicy) : Except RegistrationError SecretsFilter := do
  let allow ← if policy.allow.isEmpty then .ok none else some <$> readGlobs policy.allow
  let deny ← readGlobs policy.deny
  .ok ⟨allow, deny⟩

def allows (filter : SecretsFilter) (name : String) : Bool :=
  !(filter.deny.any (·.isMatch name)) &&
    match filter.allow with
    | none => true
    | some globs => globs.any (·.isMatch name)

end SecretsFilter

namespace SecretStore

def nameArgument (args : List Json) : Except HostError String :=
  match args.head? with
  | some (.string name) => .ok name
  | _ => .error (.failed "secret name must be a string")

/-- The secret of a name, `null` if there is none. -/
def getFunction (store : SecretStore) : HostFunction where
  name := "get"
  arity := 1
  call args := do
    let name ← nameArgument args
    if store.filter.allows name then
      .ok (((store.values.get? name).map Json.string).getD .null)
    else .error (.denied name)

def hasFunction (store : SecretStore) : HostFunction where
  name := "has"
  arity := 1
  call args := do
    let name ← nameArgument args
    .ok (.bool (store.filter.allows name && store.values.contains name))

def provider (store : SecretStore) : HostProvider :=
  ⟨"forms.secrets", [store.getFunction, store.hasFunction]⟩

def ofPolicy (values : KeyMap String) (policy : SecretsPolicy) :
    Except RegistrationError SecretStore := do
  .ok ⟨values, ← SecretsFilter.ofPolicy policy⟩

/--
The secrets among environment variables: those whose name continues a given beginning, by the rest
of the name in lower case.  Of equal names the last one counts.
-/
def ofEnvironment (beginning : String) (environment : List (String × String)) : KeyMap String :=
  KeyMap.ofList <| environment.filterMap fun (name, value) =>
    match Text.dropBeginning? beginning.toList name.toList with
    | some (c :: rest) => some (Text.lowerAsciiText (String.ofList (c :: rest)), value)
    | _ => none

end SecretStore

end FormDerivation
