import FormDerivation.Proofs.Registration.FirstOffence
import FormDerivation.Script.Engine

/-!
# Registered providers

A list of host providers is registered if every package has a name, no module is offered twice, and
each provider offers functions of different names that scripts have enough arguments for; otherwise
the error is that of the first provider that offends.  What is put into the modules of a registry is
then all that its providers offer (`HostRegistry.ofProviders_installed`).
-/

namespace FormDerivation

namespace HostProvider

theorem foldl_install_eq {functions installed : List HostFunction}
    (hnames : ((installed ++ functions).map HostFunction.name).Nodup)
    (harity : ∀ function ∈ functions, function.arity ≤ maxHostArity) :
    functions.foldl install installed = installed ++ functions := by
  induction functions generalizing installed with
  | nil => simp
  | cons function rest ih =>
      obtain ⟨hfunction, hrest⟩ := List.forall_mem_cons.mp harity
      have hnew : ∀ f ∈ installed, f.name ≠ function.name := by
        intro f hf hsame
        rw [List.map_append, List.map_cons, List.nodup_append] at hnames
        exact hnames.2.2 _ (List.mem_map_of_mem hf) _ List.mem_cons_self hsame
      have hkept : installed.filter
          (fun f => !(f.name == function.name && f.arity == function.arity)) = installed := by
        rw [List.filter_eq_self]
        intro f hf
        simp [hnew f hf]
      have hinstall : install installed function = installed ++ [function] := by
        rw [HostProvider.install, if_neg (Nat.not_lt.mpr hfunction), hkept]
      rw [List.foldl_cons, hinstall, ih (by simpa using hnames) hrest]
      simp

theorem installed_eq {provider : HostProvider}
    (hnames : (provider.functions.map HostFunction.name).Nodup)
    (harity : ∀ function ∈ provider.functions, function.arity ≤ maxHostArity) :
    provider.installed = provider.functions := by
  rw [installed, foldl_install_eq (by simpa using hnames) harity, List.nil_append]

end HostProvider

namespace HostRegistry

/-! ## Offences -/

/-- A function takes too many arguments, or else has the name of one before it. -/
inductive FunctionOffends (module : String) (before : List HostFunction)
    (function : HostFunction) : RegistrationError → Prop where
  | arity (harity : maxHostArity < function.arity) :
      FunctionOffends module before function (.unsupportedArity module function.name function.arity)
  | name (harity : function.arity ≤ maxHostArity)
      (hname : function.name ∈ before.map HostFunction.name) :
      FunctionOffends module before function (.duplicateHostFunction module function.name)

/--
A provider has no package name, or else has the module of one before it, or else offers a function
that offends.
-/
inductive ProviderOffends (before : List HostProvider) (provider : HostProvider) :
    RegistrationError → Prop where
  | package (hpackage : provider.package = "") :
      ProviderOffends before provider (.invalidPackage "")
  | module (hpackage : provider.package ≠ "")
      (hmodule : provider.moduleName ∈ before.map HostProvider.moduleName) :
      ProviderOffends before provider (.duplicateProvider provider.moduleName)
  | function {error : RegistrationError} (hpackage : provider.package ≠ "")
      (hmodule : provider.moduleName ∉ before.map HostProvider.moduleName)
      (hfunction : FirstOffence (FunctionOffends provider.moduleName) provider.functions error) :
      ProviderOffends before provider error

theorem FunctionOffends.unique (module : String) (before : List HostFunction)
    (function : HostFunction) (error error' : RegistrationError)
    (h : FunctionOffends module before function error)
    (h' : FunctionOffends module before function error') : error = error' := by
  cases h <;> cases h' <;> first | rfl | omega

theorem ProviderOffends.unique (before : List HostProvider) (provider : HostProvider)
    (error error' : RegistrationError) (h : ProviderOffends before provider error)
    (h' : ProviderOffends before provider error') : error = error' := by
  cases h with
  | package hpackage => cases h' <;> simp_all
  | module hpackage hmodule => cases h' <;> simp_all
  | function hpackage hmodule hfunction =>
      cases h' with
      | package hpackage' => exact absurd hpackage' hpackage
      | module _ hmodule' => exact absurd hmodule' hmodule
      | function _ _ hfunction' => exact hfunction.unique (FunctionOffends.unique _) hfunction'

/-! ## Lists without offences -/

theorem not_functionOffends_iff {module : String} {before : List HostFunction}
    {function : HostFunction} :
    (∀ error, ¬ FunctionOffends module before function error) ↔
      function.arity ≤ maxHostArity ∧ function.name ∉ before.map HostFunction.name := by
  constructor
  · intro h
    have harity := Nat.not_lt.mp fun harity => h _ (.arity harity)
    exact ⟨harity, fun hname => h _ (.name harity hname)⟩
  · rintro ⟨harity, hname⟩ error (hover | ⟨-, htaken⟩)
    · omega
    · exact hname htaken

theorem passes_functions_iff {module : String} {functions : List HostFunction} :
    Passes (FunctionOffends module) functions ↔
      (∀ function ∈ functions, function.arity ≤ maxHostArity) ∧
        (functions.map HostFunction.name).Nodup := by
  induction functions using List.reverseRecOn with
  | nil => simp
  | append_singleton functions function ih =>
      rw [passes_append_singleton, ih, not_functionOffends_iff, nodup_map_append_singleton]
      simp only [List.forall_mem_append, List.forall_mem_singleton]
      tauto

theorem not_providerOffends_iff {before : List HostProvider} {provider : HostProvider} :
    (∀ error, ¬ ProviderOffends before provider error) ↔
      provider.package ≠ "" ∧ provider.moduleName ∉ before.map HostProvider.moduleName ∧
        Passes (FunctionOffends provider.moduleName) provider.functions := by
  rw [passes_iff]
  constructor
  · intro h
    have hpackage : provider.package ≠ "" := fun hpackage => h _ (.package hpackage)
    have hmodule := fun hmodule => h _ (.module hpackage hmodule)
    exact ⟨hpackage, hmodule,
      fun error hfunction => h error (.function hpackage hmodule hfunction)⟩
  · rintro ⟨hpackage, hmodule, hfunctions⟩ error (hunnamed | ⟨-, htaken⟩ | ⟨-, -, hfunction⟩)
    · exact hpackage hunnamed
    · exact hmodule htaken
    · exact hfunctions error hfunction

structure Registrable (providers : List HostProvider) : Prop where
  packages : ∀ provider ∈ providers, provider.package ≠ ""
  modules : (providers.map HostProvider.moduleName).Nodup
  arities : ∀ provider ∈ providers, ∀ function ∈ provider.functions,
    function.arity ≤ maxHostArity
  functions : ∀ provider ∈ providers, (provider.functions.map HostFunction.name).Nodup

theorem registrable_append_singleton {providers : List HostProvider} {provider : HostProvider} :
    Registrable (providers ++ [provider]) ↔ Registrable providers ∧ provider.package ≠ "" ∧
      provider.moduleName ∉ providers.map HostProvider.moduleName ∧
      (∀ function ∈ provider.functions, function.arity ≤ maxHostArity) ∧
      (provider.functions.map HostFunction.name).Nodup := by
  constructor
  · rintro ⟨hpackages, hmodules, harities, hfunctions⟩
    rw [nodup_map_append_singleton] at hmodules
    simp only [List.forall_mem_append, List.forall_mem_singleton] at hpackages harities hfunctions
    exact ⟨⟨hpackages.1, hmodules.2, harities.1, hfunctions.1⟩, hpackages.2, hmodules.1, harities.2,
      hfunctions.2⟩
  · rintro ⟨⟨hpackages, hmodules, harities, hfunctions⟩, hpackage, hmodule, harity, hnames⟩
    constructor
    · simpa only [List.forall_mem_append, List.forall_mem_singleton] using ⟨hpackages, hpackage⟩
    · exact nodup_map_append_singleton.mpr ⟨hmodule, hmodules⟩
    · simpa only [List.forall_mem_append, List.forall_mem_singleton] using ⟨harities, harity⟩
    · simpa only [List.forall_mem_append, List.forall_mem_singleton] using ⟨hfunctions, hnames⟩

theorem passes_providers_iff {providers : List HostProvider} :
    Passes ProviderOffends providers ↔ Registrable providers := by
  induction providers using List.reverseRecOn with
  | nil => exact iff_of_true passes_nil ⟨by simp, by simp, by simp, by simp⟩
  | append_singleton providers provider ih =>
      rw [passes_append_singleton, ih, not_providerOffends_iff, passes_functions_iff,
        registrable_append_singleton]

/-! ## The search for an offence -/

theorem functionOffence?_finds {module : String} {rest before : List HostFunction}
    {taken : List String} (hbefore : Passes (FunctionOffends module) before)
    (htaken : ∀ name, name ∈ taken ↔ name ∈ before.map HostFunction.name) :
    Finds (FunctionOffends module) (before ++ rest) (functionOffence? module taken rest) := by
  -- The functions before do not offend, and theirs are the names that are taken.
  induction rest generalizing before taken with
  | nil =>
      rw [List.append_nil]
      exact hbefore
  | cons function rest ih =>
      rw [functionOffence?]
      split
      · next harity => exact ⟨before, function, rest, rfl, hbefore, .arity harity⟩
      next harity =>
      have hcontains : taken.contains function.name = true ↔
          function.name ∈ before.map HostFunction.name := by rw [List.contains_iff_mem, htaken]
      split
      · next hname =>
        exact ⟨before, function, rest, rfl, hbefore, .name (by omega) (hcontains.mp hname)⟩
      next hname =>
      rw [hcontains] at hname
      have hfunction : Passes (FunctionOffends module) (before ++ [function]) :=
        passes_append_singleton.mpr
          ⟨hbefore, not_functionOffends_iff.mpr ⟨Nat.not_lt.mp harity, hname⟩⟩
      simpa using ih hfunction (mem_cons_taken_iff htaken function)

theorem functionOffence?_nil_finds (module : String) (functions : List HostFunction) :
    Finds (FunctionOffends module) functions (functionOffence? module [] functions) :=
  functionOffence?_finds passes_nil fun _ => Iff.rfl

theorem offence?_finds {rest before : List HostProvider} {taken : List String}
    (hbefore : Passes ProviderOffends before)
    (htaken : ∀ name, name ∈ taken ↔ name ∈ before.map HostProvider.moduleName) :
    Finds ProviderOffends (before ++ rest) (offence? taken rest) := by
  induction rest generalizing before taken with
  | nil =>
      rw [List.append_nil]
      exact hbefore
  | cons provider rest ih =>
      rw [offence?]
      split
      · next hpackage => exact ⟨before, provider, rest, rfl, hbefore, .package hpackage⟩
      next hpackage =>
      have hcontains : taken.contains provider.moduleName = true ↔
          provider.moduleName ∈ before.map HostProvider.moduleName := by
        rw [List.contains_iff_mem, htaken]
      split
      · next hmodule =>
        exact ⟨before, provider, rest, rfl, hbefore, .module hpackage (hcontains.mp hmodule)⟩
      next hmodule =>
      rw [hcontains] at hmodule
      have hfunctions := functionOffence?_nil_finds provider.moduleName provider.functions
      cases hfound : functionOffence? provider.moduleName [] provider.functions with
      | some error =>
          rw [hfound] at hfunctions
          exact ⟨before, provider, rest, rfl, hbefore, .function hpackage hmodule hfunctions⟩
      | none =>
          rw [hfound] at hfunctions
          have hprovider : Passes ProviderOffends (before ++ [provider]) :=
            passes_append_singleton.mpr
              ⟨hbefore, not_providerOffends_iff.mpr ⟨hpackage, hmodule, hfunctions⟩⟩
          simpa using ih hprovider (mem_cons_taken_iff htaken provider)

theorem offence?_nil_finds (providers : List HostProvider) :
    Finds ProviderOffends providers (offence? [] providers) :=
  offence?_finds passes_nil fun _ => Iff.rfl

/-! ## Accepted providers -/

theorem ofProviders_eq_ok_iff {providers : List HostProvider} {registry : HostRegistry} :
    ofProviders providers = .ok registry ↔ Registrable providers ∧ registry = ⟨providers⟩ := by
  rw [← passes_providers_iff, ← (offence?_nil_finds providers).eq_none_iff, ofProviders]
  cases offence? [] providers <;> simp [eq_comm]

theorem ofProviders_eq_error_iff {providers : List HostProvider} {error : RegistrationError} :
    ofProviders providers = .error error ↔ FirstOffence ProviderOffends providers error := by
  rw [← (offence?_nil_finds providers).eq_some_iff ProviderOffends.unique, ofProviders]
  cases offence? [] providers <;> simp

theorem find?_of_nodup {α : Type} {key : α → String} {item : α} {items : List α}
    (hnodup : (items.map key).Nodup) (hitem : item ∈ items) {test : α → Bool}
    (htest : test item = true) (hkey : ∀ other ∈ items, test other = true → key other = key item) :
    items.find? test = some item := by
  induction items with
  | nil => cases hitem
  | cons first rest ih =>
      rw [List.map_cons, List.nodup_cons] at hnodup
      rw [List.find?_cons]
      cases hfirst : test first with
      | true =>
          have hsame := hkey first List.mem_cons_self hfirst
          rcases List.mem_cons.mp hitem with rfl | hrest
          · rfl
          · exact absurd (hsame ▸ List.mem_map_of_mem hrest) hnodup.1
      | false =>
          rcases List.mem_cons.mp hitem with rfl | hrest
          · rw [htest] at hfirst
            cases hfirst
          · exact ih hnodup.2 hrest fun other hother => hkey other (List.mem_cons_of_mem _ hother)

namespace Registrable

variable {providers : List HostProvider} {provider : HostProvider}

theorem module? (h : Registrable providers) (hprovider : provider ∈ providers) :
    HostRegistry.module? ⟨providers⟩ provider.moduleName = some provider :=
  find?_of_nodup h.modules hprovider (beq_self_eq_true _) fun _ _ hsame => beq_iff_eq.mp hsame

theorem installed (h : Registrable providers) (hprovider : provider ∈ providers) :
    provider.installed = provider.functions :=
  HostProvider.installed_eq (h.functions provider hprovider) (h.arities provider hprovider)

theorem find?_function (h : Registrable providers) (hprovider : provider ∈ providers)
    {function : HostFunction} (hfunction : function ∈ provider.functions) :
    provider.installed.find? (fun f => f.name == function.name && f.arity == function.arity) =
      some function := by
  rw [h.installed hprovider]
  refine find?_of_nodup (h.functions provider hprovider) hfunction (by simp) fun other _ hsame => ?_
  rw [Bool.and_eq_true, beq_iff_eq] at hsame
  exact hsame.1

end Registrable

theorem callInModule_moduleName {providers : List HostProvider} (h : Registrable providers)
    {provider : HostProvider} (hprovider : provider ∈ providers) {function : HostFunction}
    (hfunction : function ∈ provider.functions) {ctx : Script.Context}
    (hhost : ctx.host = ⟨providers⟩) {values : List Script.Value}
    (hvalues : values.length = function.arity) (pathPos pos : Script.Position) :
    Script.Eval.callInModule ctx [provider.moduleName] function.name values pathPos pos =
      Script.Eval.callHost ctx provider.moduleName function values pos := by
  unfold Script.Eval.callInModule
  simp only [List.head?_cons, Option.bind_some, hhost, h.module? hprovider, hvalues,
    h.find?_function hprovider hfunction]

structure Installed (host : HostRegistry) (provider : HostProvider) : Prop where
  module : host.module? provider.moduleName = some provider
  arities : ∀ function ∈ provider.functions, function.arity ≤ maxHostArity
  functions : provider.installed = provider.functions
  calls : ∀ function ∈ provider.functions, ∀ (ctx : Script.Context) values pathPos pos,
    ctx.host = host → values.length = function.arity →
      Script.Eval.callInModule ctx [provider.moduleName] function.name values pathPos pos =
        Script.Eval.callHost ctx provider.moduleName function values pos

/--
Providers are registered exactly if nothing about them offends; otherwise the error is that of the
first offence.  An engine over the registry has all their functions in its modules: none is skipped
for its arguments or replaced by another one.
-/
theorem ofProviders_installed (providers : List HostProvider) :
    ((∃ registry, ofProviders providers = .ok registry) ↔ Registrable providers) ∧
    (∀ error, ofProviders providers = .error error ↔
      FirstOffence ProviderOffends providers error) ∧
    ∀ registry limits, ofProviders providers = .ok registry →
      (ScriptEngine.fresh registry limits).host.providers = providers ∧
        ∀ provider ∈ providers, (ScriptEngine.fresh registry limits).host.Installed provider := by
  refine ⟨?_, fun _ => ofProviders_eq_error_iff, ?_⟩
  · simp only [ofProviders_eq_ok_iff, exists_and_left, exists_eq, and_true]
  · intro registry limits hregistry
    obtain ⟨h, rfl⟩ := ofProviders_eq_ok_iff.mp hregistry
    refine ⟨rfl, fun provider hprovider => ⟨h.module? hprovider, h.arities provider hprovider,
      h.installed hprovider, ?_⟩⟩
    intro function hfunction ctx values pathPos pos hhost hvalues
    exact callInModule_moduleName h hprovider hfunction hhost hvalues pathPos pos

theorem ofProviders_installed_modules :
    let function := fun name arity => (⟨name, arity, fun _ => .ok .null⟩ : HostFunction)
    let provider : HostProvider := ⟨"a.b", [function "f" 0, function "g" 4]⟩
    let sameModule : HostProvider := ⟨"a-b", [function "f" 5]⟩
    let sameName : HostProvider := ⟨"c", [function "f" 1, function "f" 5]⟩
    (∃ registry, ofProviders [provider, ⟨"c", [function "f" 1]⟩] = .ok registry ∧
      ∀ limits, (ScriptEngine.fresh registry limits).host.Installed provider) ∧
    ofProviders [provider, sameModule] = .error (.duplicateProvider "a_b") ∧
    ofProviders [provider, sameName] = .error (.unsupportedArity "c" "f" 5) := by
  intro function provider sameModule sameName
  have hbefore : Passes ProviderOffends [provider] :=
    passes_providers_iff.mpr ⟨by decide, by decide, by decide, by decide⟩
  refine ⟨?_, ?_, ?_⟩
  · have hspec := ofProviders_installed [provider, ⟨"c", [function "f" 1]⟩]
    obtain ⟨registry, hregistry⟩ :=
      hspec.1.mpr ⟨by decide, by decide, by decide, by decide⟩
    exact ⟨registry, hregistry, fun limits =>
      (hspec.2.2 registry limits hregistry).2 provider List.mem_cons_self⟩
  · have hmodule : sameModule.moduleName = "a_b" := by decide
    have hoffends : ProviderOffends [provider] sameModule (.duplicateProvider "a_b") := by
      rw [← hmodule]
      exact .module (by decide) (by decide)
    exact ((ofProviders_installed _).2.1 _).mpr ⟨[provider], _, [], rfl, hbefore, hoffends⟩
  · have hmodule : sameName.moduleName = "c" := by decide
    have hfunction : FirstOffence (FunctionOffends sameName.moduleName) sameName.functions
        (.unsupportedArity "c" "f" 5) := by
      rw [hmodule]
      have hfirst : Passes (FunctionOffends "c") [function "f" 1] :=
        passes_functions_iff.mpr ⟨by decide, by decide⟩
      exact ⟨[function "f" 1], function "f" 5, [], rfl, hfirst, .arity (by decide)⟩
    have hother : sameName.moduleName ∉ [provider].map HostProvider.moduleName := by decide
    have hoffends := ProviderOffends.function (by decide) hother hfunction
    exact ((ofProviders_installed _).2.1 _).mpr ⟨[provider], _, [], rfl, hbefore, hoffends⟩

end HostRegistry

end FormDerivation
