import FormDerivation.Json.Basic
import FormDerivation.Registration
import FormDerivation.Text.Quoted

/-!
Functions that scripts can call in the program around them.

A provider offers functions under the name of its package; scripts reach them in a module whose
name is `globalName` of the package.  A registry refuses what could not be put into modules as it
is offered, so that every function of an accepted provider can be called.
-/

namespace FormDerivation

inductive HostError where
  | failed (message : String)
  | denied (name : String)
  | timedOut
  deriving DecidableEq, Repr

def HostError.message : HostError → String
  | .failed message => message
  | .denied name => "access to '" ++ name ++ "' is denied"
  | .timedOut => "timed out"

structure HostFunction where
  name : String
  arity : Nat
  call : List Json → Except HostError Json

structure HostProvider where
  package : String
  functions : List HostFunction

namespace HostProvider

/--
The name of the module for a package: each character that is no ASCII letter or digit becomes an
underscore, and one more stands before a leading digit.
-/
def globalName (package : String) : String :=
  let plain := package.toList.map fun c => if Text.isAlphanumeric c then c else '_'
  match plain with
  | c :: _ => String.ofList (if Text.isDigit c then '_' :: plain else plain)
  | [] => ""

def moduleName (provider : HostProvider) : String :=
  globalName provider.package

/--
Puts a function into a module, in place of one of its name that takes as many arguments; a function
that takes more arguments than a script can pass is skipped.
-/
def install (installed : List HostFunction) (function : HostFunction) : List HostFunction :=
  if maxHostArity < function.arity then installed
  else
    installed.filter (fun f => !(f.name == function.name && f.arity == function.arity)) ++
      [function]

def installed (provider : HostProvider) : List HostFunction :=
  provider.functions.foldl install []

theorem mem_foldl_install {function : HostFunction} {functions installed : List HostFunction}
    (h : function ∈ functions.foldl install installed) :
    function ∈ installed ∨ function ∈ functions := by
  induction functions generalizing installed with
  | nil => exact .inl h
  | cons first rest ih =>
      have hfirst : ∀ f ∈ install installed first, f ∈ installed ∨ f = first := by
        intro f hf
        simp only [install] at hf
        split at hf
        · exact .inl hf
        · simp only [List.mem_append, List.mem_filter, List.mem_singleton] at hf
          exact hf.imp_left And.left
      rcases ih h with hinstalled | hrest
      · rcases hfirst function hinstalled with hbefore | rfl
        · exact .inl hbefore
        · exact .inr List.mem_cons_self
      · exact .inr (List.mem_cons_of_mem _ hrest)

theorem installed_subset (provider : HostProvider) : provider.installed ⊆ provider.functions := by
  intro function h
  simpa using mem_foldl_install h

def function? (provider : HostProvider) (name : String) : Option HostFunction :=
  provider.functions.find? fun function => function.name == name

end HostProvider

structure HostRegistry where
  providers : List HostProvider

namespace HostRegistry

def empty : HostRegistry :=
  ⟨[]⟩

/-- The first function that cannot be registered behind those with the names `taken`. -/
def functionOffence? (provider : String) (taken : List String) :
    List HostFunction → Option RegistrationError
  | [] => none
  | function :: rest =>
    if maxHostArity < function.arity then
      some (.unsupportedArity provider function.name function.arity)
    else if taken.contains function.name then
      some (.duplicateHostFunction provider function.name)
    else functionOffence? provider (function.name :: taken) rest

/-- The first provider or function that cannot be registered behind the modules `taken`. -/
def offence? (taken : List String) : List HostProvider → Option RegistrationError
  | [] => none
  | provider :: rest =>
    if provider.package = "" then some (.invalidPackage "")
    else if taken.contains provider.moduleName then
      some (.duplicateProvider provider.moduleName)
    else
      (functionOffence? provider.moduleName [] provider.functions).or
        (offence? (provider.moduleName :: taken) rest)

/-- The registry of providers, unless one of them is refused. -/
def ofProviders (providers : List HostProvider) : Except RegistrationError HostRegistry :=
  match offence? [] providers with
  | some error => .error error
  | none => .ok ⟨providers⟩

def module? (registry : HostRegistry) (name : String) : Option HostProvider :=
  registry.providers.find? fun provider => provider.moduleName == name

def describe (registry : HostRegistry) : String :=
  Text.quotedList (registry.providers.map (·.package))

end HostRegistry

end FormDerivation
