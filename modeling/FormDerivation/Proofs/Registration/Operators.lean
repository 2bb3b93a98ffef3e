import FormDerivation.Operator.Registry
import FormDerivation.Proofs.KeyMap
import FormDerivation.Proofs.Registration.FirstOffence

/-!
# Registered operators

A list of packages is registered if every package has a name and no identifier is taken twice;
otherwise the error is that of the first package or operator that offends
(`OperatorRegistry.ofPackages_registers`).  The identifiers are compared as whole texts: since names
may have points in them, operators of different packages can have one identifier.
-/

namespace FormDerivation

namespace OperatorPackage

def identifier (package : OperatorPackage) (operator : Operator) : String :=
  package.name ++ "." ++ operator.name

def identifiers (packages : List OperatorPackage) : List String :=
  packages.flatMap fun package => package.operators.map package.identifier

def entriesOf (package : OperatorPackage) (operators : List Operator) : List (String × Operator) :=
  operators.map fun operator => (package.identifier operator, operator)

def entries (packages : List OperatorPackage) : List (String × Operator) :=
  packages.flatMap fun package => package.entriesOf package.operators

@[simp] theorem map_fst_entriesOf (package : OperatorPackage) (operators : List Operator) :
    (package.entriesOf operators).map Prod.fst = operators.map package.identifier := by
  simp [entriesOf, Function.comp_def]

@[simp] theorem map_fst_entries (packages : List OperatorPackage) :
    (entries packages).map Prod.fst = identifiers packages := by
  simp [entries, identifiers, List.map_flatMap]

@[simp] theorem identifiers_append_singleton (packages : List OperatorPackage)
    (package : OperatorPackage) :
    identifiers (packages ++ [package]) =
      identifiers packages ++ package.operators.map package.identifier := by
  simp [identifiers]

@[simp] theorem entries_append_singleton (packages : List OperatorPackage)
    (package : OperatorPackage) :
    entries (packages ++ [package]) = entries packages ++ package.entriesOf package.operators := by
  simp [entries]

theorem mem_entries {packages : List OperatorPackage} {package : OperatorPackage}
    {operator : Operator} (hpackage : package ∈ packages)
    (hoperator : operator ∈ package.operators) :
    (package.identifier operator, operator) ∈ entries packages :=
  List.mem_flatMap.mpr ⟨package, hpackage, List.mem_map_of_mem hoperator⟩

end OperatorPackage

namespace OperatorRegistry

/-! ## Offences -/

/-- An operator has the identifier of one in the packages before, or of one before it in its own. -/
inductive OperatorOffends (earlier : List OperatorPackage) (package : OperatorPackage)
    (before : List Operator) (operator : Operator) : RegistrationError → Prop where
  | taken (htaken : package.identifier operator ∈
      OperatorPackage.identifiers earlier ++ before.map package.identifier) :
      OperatorOffends earlier package before operator
        (.duplicateOperator (package.identifier operator))

/-- A package has no name, or else has an operator that offends. -/
inductive PackageOffends (before : List OperatorPackage) (package : OperatorPackage) :
    RegistrationError → Prop where
  | unnamed (hname : package.name = "") : PackageOffends before package (.invalidPackage "")
  | operator {error : RegistrationError} (hname : package.name ≠ "")
      (hoperator : FirstOffence (OperatorOffends before package) package.operators error) :
      PackageOffends before package error

theorem OperatorOffends.unique {earlier : List OperatorPackage} {package : OperatorPackage}
    (before : List Operator) (operator : Operator) (error error' : RegistrationError)
    (h : OperatorOffends earlier package before operator error)
    (h' : OperatorOffends earlier package before operator error') : error = error' := by
  cases h
  cases h'
  rfl

theorem PackageOffends.unique (before : List OperatorPackage) (package : OperatorPackage)
    (error error' : RegistrationError) (h : PackageOffends before package error)
    (h' : PackageOffends before package error') : error = error' := by
  cases h with
  | unnamed hname => cases h' <;> simp_all
  | operator hname hoperator =>
      cases h' with
      | unnamed hname' => exact absurd hname' hname
      | operator _ hoperator' => exact hoperator.unique OperatorOffends.unique hoperator'

/-! ## Lists without offences -/

variable {earlier packages : List OperatorPackage} {package : OperatorPackage}

theorem not_operatorOffends_iff {before : List Operator} {operator : Operator} :
    (∀ error, ¬ OperatorOffends earlier package before operator error) ↔
      package.identifier operator ∉
        OperatorPackage.identifiers earlier ++ before.map package.identifier := by
  constructor
  · exact fun h htaken => h _ (.taken htaken)
  · rintro h error ⟨htaken⟩
    exact h htaken

theorem passes_operators_iff {operators : List Operator}
    (hearlier : (OperatorPackage.identifiers earlier).Nodup) :
    Passes (OperatorOffends earlier package) operators ↔
      (OperatorPackage.identifiers earlier ++ operators.map package.identifier).Nodup := by
  induction operators using List.reverseRecOn with
  | nil => simp [hearlier]
  | append_singleton operators operator ih =>
      rw [passes_append_singleton, ih, not_operatorOffends_iff, List.map_append, List.map_singleton,
        ← List.append_assoc, ← List.concat_eq_append, List.nodup_concat, and_comm]

theorem not_packageOffends_iff :
    (∀ error, ¬ PackageOffends packages package error) ↔
      package.name ≠ "" ∧ Passes (OperatorOffends packages package) package.operators := by
  rw [passes_iff]
  constructor
  · intro h
    have hname : package.name ≠ "" := fun hname => h _ (.unnamed hname)
    exact ⟨hname, fun error hoperator => h error (.operator hname hoperator)⟩
  · rintro ⟨hname, hoperators⟩ error (hunnamed | ⟨-, hoperator⟩)
    · exact hname hunnamed
    · exact hoperators error hoperator

theorem passes_packages_iff :
    Passes PackageOffends packages ↔
      (∀ package ∈ packages, package.name ≠ "") ∧ (OperatorPackage.identifiers packages).Nodup := by
  induction packages using List.reverseRecOn with
  | nil => simp [OperatorPackage.identifiers]
  | append_singleton packages package ih =>
      rw [passes_append_singleton, ih, not_packageOffends_iff,
        OperatorPackage.identifiers_append_singleton]
      simp only [List.forall_mem_append, List.forall_mem_singleton]
      constructor
      · rintro ⟨⟨hnames, hearlier⟩, hname, hoperators⟩
        exact ⟨⟨hnames, hname⟩, (passes_operators_iff hearlier).mp hoperators⟩
      · rintro ⟨⟨hnames, hname⟩, hidentifiers⟩
        have hearlier := hidentifiers.of_append_left
        exact ⟨⟨hnames, hearlier⟩, hname, (passes_operators_iff hearlier).mpr hidentifiers⟩

/-! ## Registering -/

theorem addOperators_cons (before rest : List Operator) (operator : Operator) :
    addOperators package.name
        ⟨.ofList (OperatorPackage.entries earlier ++ package.entriesOf before)⟩
        (operator :: rest) =
      if package.identifier operator ∈
          OperatorPackage.identifiers earlier ++ before.map package.identifier then
        .error (.duplicateOperator (package.identifier operator))
      else addOperators package.name
        ⟨.ofList (OperatorPackage.entries earlier ++ package.entriesOf (before ++ [operator]))⟩
        rest := by
  have hcontains : (KeyMap.ofList (OperatorPackage.entries earlier ++
      package.entriesOf before)).contains (package.identifier operator) = true ↔
        package.identifier operator ∈
          OperatorPackage.identifiers earlier ++ before.map package.identifier := by
    simp
  have hentries : OperatorPackage.entries earlier ++ package.entriesOf (before ++ [operator]) =
      (OperatorPackage.entries earlier ++ package.entriesOf before) ++
        [(package.identifier operator, operator)] := by
    simp [OperatorPackage.entriesOf]
  rw [hentries, KeyMap.ofList_concat]
  simp only [← hcontains]
  rfl

theorem addOperators_outcome (earlier : List OperatorPackage) (package : OperatorPackage)
    (rest : List Operator) {before : List Operator}
    (hbefore : Passes (OperatorOffends earlier package) before) :
    match addOperators package.name
        ⟨.ofList (OperatorPackage.entries earlier ++ package.entriesOf before)⟩ rest with
    | .ok registry => Passes (OperatorOffends earlier package) (before ++ rest) ∧
        registry = ⟨.ofList (OperatorPackage.entries earlier ++ package.entriesOf (before ++ rest))⟩
    | .error error => FirstOffence (OperatorOffends earlier package) (before ++ rest) error := by
  induction rest generalizing before with
  | nil => simpa [addOperators] using hbefore
  | cons operator rest ih =>
      rw [addOperators_cons]
      by_cases htaken : package.identifier operator ∈
          OperatorPackage.identifiers earlier ++ before.map package.identifier
      · rw [if_pos htaken]
        exact ⟨before, operator, rest, rfl, hbefore, .taken htaken⟩
      · have hoperator : Passes (OperatorOffends earlier package) (before ++ [operator]) :=
          passes_append_singleton.mpr ⟨hbefore, not_operatorOffends_iff.mpr htaken⟩
        rw [if_neg htaken]
        simpa using ih hoperator

theorem addPackages_outcome (rest : List OperatorPackage) {before : List OperatorPackage}
    (hbefore : Passes PackageOffends before) :
    match addPackages ⟨.ofList (OperatorPackage.entries before)⟩ rest with
    | .ok registry => Passes PackageOffends (before ++ rest) ∧
        registry = ⟨.ofList (OperatorPackage.entries (before ++ rest))⟩
    | .error error => FirstOffence PackageOffends (before ++ rest) error := by
  induction rest generalizing before with
  | nil => simpa [addPackages] using hbefore
  | cons package rest ih =>
      rw [addPackages]
      by_cases hname : package.name = ""
      · rw [if_pos hname, hname]
        exact ⟨before, package, rest, rfl, hbefore, .unnamed hname⟩
      have hoperators := addOperators_outcome before package package.operators passes_nil
      have hentries : OperatorPackage.entries before ++ package.entriesOf [] =
          OperatorPackage.entries before := List.append_nil _
      rw [hentries, List.nil_append] at hoperators
      rw [if_neg hname]
      cases hadded : addOperators package.name ⟨.ofList (OperatorPackage.entries before)⟩
          package.operators with
      | error error =>
          rw [hadded] at hoperators
          exact ⟨before, package, rest, rfl, hbefore, .operator hname hoperators⟩
      | ok registry =>
          rw [hadded] at hoperators
          obtain ⟨hpasses, rfl⟩ := hoperators
          have hpackage : Passes PackageOffends (before ++ [package]) :=
            passes_append_singleton.mpr ⟨hbefore, not_packageOffends_iff.mpr ⟨hname, hpasses⟩⟩
          rw [← OperatorPackage.entries_append_singleton]
          simpa using ih hpackage

theorem ofPackages_outcome (packages : List OperatorPackage) :
    match ofPackages packages with
    | .ok registry =>
        Passes PackageOffends packages ∧ registry = ⟨.ofList (OperatorPackage.entries packages)⟩
    | .error error => FirstOffence PackageOffends packages error :=
  addPackages_outcome packages passes_nil

theorem ofPackages_eq_ok_iff {registry : OperatorRegistry} :
    ofPackages packages = .ok registry ↔
      Passes PackageOffends packages ∧ registry = ⟨.ofList (OperatorPackage.entries packages)⟩ := by
  have houtcome := ofPackages_outcome packages
  cases hpackages : ofPackages packages with
  | ok found =>
      rw [hpackages] at houtcome
      obtain ⟨hpasses, rfl⟩ := houtcome
      simp [hpasses, eq_comm]
  | error error =>
      rw [hpackages] at houtcome
      simp [houtcome.not_passes]

theorem ofPackages_eq_error_iff {error : RegistrationError} :
    ofPackages packages = .error error ↔ FirstOffence PackageOffends packages error := by
  have houtcome := ofPackages_outcome packages
  cases hpackages : ofPackages packages with
  | ok found =>
      rw [hpackages] at houtcome
      simp [passes_iff.mp houtcome.1 error]
  | error found =>
      rw [hpackages] at houtcome
      rw [Except.error.injEq]
      constructor
      · rintro rfl
        exact houtcome
      · exact houtcome.unique PackageOffends.unique

/-! ## Accepted registries -/

/-- A registry has the operators of packages, each under its identifier, and nothing else. -/
structure Registers (packages : List OperatorPackage) (registry : OperatorRegistry) : Prop where
  get : ∀ package ∈ packages, ∀ operator ∈ package.operators,
    registry.get? (package.identifier operator) = some operator
  other : ∀ identifier, identifier ∉ OperatorPackage.identifiers packages →
    registry.get? identifier = none
  size : registry.operators.size = (OperatorPackage.identifiers packages).length
  sorted : registry.identifiers.Pairwise (· < ·)
  identifiers : registry.identifiers.Perm (OperatorPackage.identifiers packages)
  catalog : List.Forall₂ (fun identifier entry => ∃ operator,
    registry.get? identifier = some operator ∧ entry = operator.descriptor identifier)
    registry.identifiers registry.catalog

theorem forall₂_catalog (registry : OperatorRegistry) :
    List.Forall₂ (fun identifier entry => ∃ operator, registry.get? identifier = some operator ∧
      entry = operator.descriptor identifier) registry.identifiers registry.catalog := by
  rw [identifiers, catalog, KeyMap.keys, List.forall₂_map_left_iff, List.forall₂_map_right_iff,
    List.forall₂_same]
  rintro ⟨identifier, operator⟩ hentry
  exact ⟨operator, (registry.operators.mem_toList_iff identifier operator).mp hentry, rfl⟩

theorem registers_ofList (hnodup : (OperatorPackage.identifiers packages).Nodup) :
    Registers packages ⟨.ofList (OperatorPackage.entries packages)⟩ := by
  have hnames : ((OperatorPackage.entries packages).map Prod.fst).Nodup := by
    rwa [OperatorPackage.map_fst_entries]
  have hkeys : (KeyMap.ofList (OperatorPackage.entries packages)).keys.Perm
      (OperatorPackage.identifiers packages) := by
    have hkeys : (KeyMap.ofList (OperatorPackage.entries packages)).keys.Nodup :=
      KeyMap.keys_nodup _
    rw [List.perm_ext_iff_of_nodup hkeys hnodup]
    intro identifier
    simp
  constructor
  · intro package hpackage operator hoperator
    rw [get?, KeyMap.get?_ofList hnames, KeyMap.lookupEntry_eq_some_iff hnames]
    exact OperatorPackage.mem_entries hpackage hoperator
  · intro identifier hother
    rw [get?, KeyMap.get?_ofList hnames]
    exact KeyMap.lookupEntry_eq_none (by rwa [OperatorPackage.map_fst_entries])
  · rw [← hkeys.length_eq, KeyMap.keys, List.length_map]
    rfl
  · exact List.pairwise_map.mpr (KeyMap.sorted _)
  · exact hkeys
  · exact forall₂_catalog _

theorem ofPackages_builtin : ofPackages OperatorPackage.builtin = .ok builtin := by
  refine ofPackages_eq_ok_iff.mpr ⟨passes_packages_iff.mpr ⟨?_, ?_⟩, rfl⟩
  · decide
  · decide +kernel

/--
Packages are registered exactly if all have names and no identifier is taken twice, and the registry
then has their operators and nothing else; otherwise the error is that of the first offence.
-/
theorem ofPackages_registers (packages : List OperatorPackage) :
    ((∃ registry, ofPackages packages = .ok registry) ↔
      (∀ package ∈ packages, package.name ≠ "") ∧
        (OperatorPackage.identifiers packages).Nodup) ∧
    (∀ registry, ofPackages packages = .ok registry → registry.Registers packages) ∧
    ∀ error, ofPackages packages = .error error ↔ FirstOffence PackageOffends packages error := by
  refine ⟨?_, ?_, fun _ => ofPackages_eq_error_iff⟩
  · simp only [ofPackages_eq_ok_iff, exists_and_left, exists_eq, and_true, passes_packages_iff]
  · intro registry hregistry
    obtain ⟨hpasses, rfl⟩ := ofPackages_eq_ok_iff.mp hregistry
    exact registers_ofList (passes_packages_iff.mp hpasses).2

theorem ofPackages_registers_points :
    let operator := fun name => { Operator.notOperator with name := name }
    (∃ registry, ofPackages [⟨"a.b", [operator "c"]⟩, ⟨"a", [operator "b", operator "c"]⟩] =
        .ok registry ∧ registry.get? "a.b.c" = some (operator "c") ∧
          registry.identifiers.Perm ["a.b.c", "a.b", "a.c"]) ∧
      ofPackages [⟨"a.b", [operator "c"]⟩, ⟨"a", [operator "b", operator "b.c"]⟩] =
        .error (.duplicateOperator "a.b.c") := by
  intro operator
  constructor
  · have hspec := ofPackages_registers
      [⟨"a.b", [operator "c"]⟩, ⟨"a", [operator "b", operator "c"]⟩]
    obtain ⟨registry, hregistry⟩ := hspec.1.mpr ⟨by decide, by decide⟩
    have hregisters := hspec.2.1 registry hregistry
    have hget := hregisters.get _ List.mem_cons_self _ List.mem_cons_self
    exact ⟨registry, hregistry, hget, hregisters.identifiers⟩
  · refine ((ofPackages_registers _).2.2 _).mpr ⟨[_], _, [], rfl, ?_, .operator (by decide) ?_⟩
    · exact passes_packages_iff.mpr ⟨by decide, by decide⟩
    · have hbefore : (OperatorPackage.identifiers [⟨"a.b", [operator "c"]⟩]).Nodup := by decide
      refine ⟨[operator "b"], operator "b.c", [], rfl, ?_, .taken (by decide)⟩
      exact (passes_operators_iff hbefore).mpr (by decide)

end OperatorRegistry

end FormDerivation
