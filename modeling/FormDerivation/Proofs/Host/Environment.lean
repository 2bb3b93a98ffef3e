import FormDerivation.CommandLine.Execution
import FormDerivation.Proofs.Host.Secrets
import FormDerivation.Proofs.Host.TextCalls

/-!
# Secrets in the environment

Variables become secrets by their names in lower case.  Where two variables get one name the last of
them counts (`get?_ofEnvironment`), and the other one cannot be read by any script.  So the program
keeps all secrets, and none depends on the order of the environment, exactly if no two variables
with different values get one name that the policy allows (`CommandLine.buildEngine_secrets`).
-/

namespace FormDerivation

/-- A script gets a value exactly if the store has it under the name and the name is allowed. -/
theorem SecretStore.evaluate_get_iff (store : SecretStore) {limits : ScriptLimits}
    {name value : String} (hlimits : limits.LetsCall) (hname : limits.Admits name)
    (hvalue : limits.Admits value) (calls : List ScriptCall) :
    (((ScriptEngine.fresh ⟨[.text, store.provider]⟩ limits).afterCalls calls).evaluate
        (Script.textCall "forms_secrets" "get" name)).1 = .ok (.string value) ↔
      store.filter.allows name = true ∧ store.values.get? name = some value := by
  have haccepted := (HostRegistry.ofProviders_eq_ok_iff.mp
    (SecretStore.ofProviders_text_secrets store)).1
  have hmodule : store.provider.moduleName = "forms_secrets" := by
    show HostProvider.globalName "forms.secrets" = "forms_secrets"
    decide
  have hprovider : store.provider ∈ [HostProvider.text, store.provider] := by simp
  have hfunction : store.getFunction ∈ store.provider.functions := by simp [SecretStore.provider]
  have hpath : Script.isPathName store.provider.moduleName = true := by
    rw [hmodule]
    decide
  have hget : Script.isPathName store.getFunction.name = true := by
    show Script.isPathName "get" = true
    decide
  have hnone : ScriptEngine.Knows .empty (.fresh ⟨[.text, store.provider]⟩ limits) := rfl
  obtain ⟨hgenuine, -⟩ := ScriptEngine.afterCalls_kept (ScriptEngine.fresh_genuine _ _) hnone calls
  have hcall := hgenuine.evaluate_textCall haccepted hprovider hpath hfunction hget rfl hlimits
    hname hvalue
  rw [hmodule] at hcall
  exact hcall.trans (store.getFunction_call_eq_iff name value)

namespace CommandLine

def IsSecret (environment : List (String × String)) (name value : String) : Prop :=
  ∃ written, written ≠ "" ∧ (secretBeginning ++ written, value) ∈ environment ∧
    Text.lowerAsciiText written = name

def IsLastSecret (environment : List (String × String)) (name value : String) : Prop :=
  ∃ before item after, environment = before ++ item :: after ∧
    IsSecret [item] name value ∧ ∀ other, ¬ IsSecret after name other

/-- All variables for a name that the policy allows hold the same value. -/
def Unambiguous (policy : SecretsPolicy) (environment : List (String × String)) : Prop :=
  ∀ name, policy.Allows name → ∀ value other,
    IsSecret environment name value → IsSecret environment name other → value = other

/-! ## Variables of a name -/

section Environments

variable {environment environment' : List (String × String)} {entry : String × String}
  {name value : String}

theorem isSecret_append : IsSecret (environment ++ environment') name value ↔
    IsSecret environment name value ∨ IsSecret environment' name value := by
  constructor
  · rintro ⟨written, hwritten, hmem, hname⟩
    rcases List.mem_append.mp hmem with hmem | hmem
    · exact .inl ⟨written, hwritten, hmem, hname⟩
    · exact .inr ⟨written, hwritten, hmem, hname⟩
  · rintro (⟨written, hwritten, hmem, hname⟩ | ⟨written, hwritten, hmem, hname⟩)
    · exact ⟨written, hwritten, List.mem_append_left _ hmem, hname⟩
    · exact ⟨written, hwritten, List.mem_append_right _ hmem, hname⟩

theorem IsSecret.perm (h : environment.Perm environment') :
    IsSecret environment name value ↔ IsSecret environment' name value := by
  simp only [IsSecret, h.mem_iff]

theorem IsLastSecret.isSecret (h : IsLastSecret environment name value) :
    IsSecret environment name value := by
  obtain ⟨before, item, after, rfl, hitem, -⟩ := h
  rw [List.append_cons, isSecret_append, isSecret_append]
  exact .inl (.inr hitem)

theorem isLastSecret_append_singleton : IsLastSecret (environment ++ [entry]) name value ↔
    IsSecret [entry] name value ∨
      (∀ other, ¬ IsSecret [entry] name other) ∧ IsLastSecret environment name value := by
  constructor
  · rintro ⟨before, item, after, h, hitem, hafter⟩
    -- The variable is the one behind, or stands before it.
    rcases List.eq_nil_or_concat after with rfl | ⟨front, last, rfl⟩
    · obtain ⟨rfl, hlast⟩ := List.append_inj' h rfl
      cases hlast
      exact .inl hitem
    · have hsplit : environment ++ [entry] = (before ++ item :: front) ++ [last] := by
        simpa using h
      obtain ⟨rfl, hlast⟩ := List.append_inj' hsplit rfl
      cases hlast
      simp only [List.concat_eq_append, isSecret_append, not_or] at hafter
      exact .inr ⟨fun other => (hafter other).2, before, item, front, rfl, hitem,
        fun other => (hafter other).1⟩
  · rintro (hentry | ⟨hentry, before, item, after, rfl, hitem, hafter⟩)
    · exact ⟨environment, entry, [], rfl, hentry, by simp [IsSecret]⟩
    · refine ⟨before, item, after ++ [entry], by simp, hitem, fun other => ?_⟩
      rw [isSecret_append, not_or]
      exact ⟨hafter other, hentry other⟩

def secretOf? : String × String → Option (String × String)
  | (written, value) =>
    match Text.dropBeginning? secretBeginning.toList written.toList with
    | some (c :: rest) => some (Text.lowerAsciiText (String.ofList (c :: rest)), value)
    | _ => none

theorem secretOf?_eq_some_iff :
    secretOf? entry = some (name, value) ↔ IsSecret [entry] name value := by
  obtain ⟨written, held⟩ := entry
  constructor
  · intro h
    simp only [secretOf?] at h
    split at h
    · next c rest hrest =>
      cases h
      refine ⟨String.ofList (c :: rest), by simp, ?_, rfl⟩
      rw [Text.dropBeginning?_eq_some_iff] at hrest
      rw [List.mem_singleton, Prod.mk.injEq, ← String.toList_inj, hrest, String.toList_append,
        String.toList_ofList]
      exact ⟨rfl, rfl⟩
    · cases h
  · rintro ⟨written, hwritten, hmem, rfl⟩
    cases List.mem_singleton.mp hmem
    have hrest := (Text.dropBeginning?_eq_some_iff secretBeginning.toList
      (secretBeginning ++ written).toList written.toList).mpr String.toList_append
    cases hchars : written.toList with
    | nil => exact absurd (String.toList_eq_nil_iff.mp hchars) hwritten
    | cons c rest =>
        rw [hchars] at hrest
        simp only [secretOf?, hrest]
        rw [← hchars, String.ofList_toList]

theorem get?_ofEnvironment_append_singleton :
    (SecretStore.ofEnvironment secretBeginning (environment ++ [entry])).get? name = some value ↔
      IsSecret [entry] name value ∨ (∀ other, ¬ IsSecret [entry] name other) ∧
        (SecretStore.ofEnvironment secretBeginning environment).get? name = some value := by
  have hentries : ∀ environment, SecretStore.ofEnvironment secretBeginning environment =
      KeyMap.ofList (environment.filterMap secretOf?) := fun _ => rfl
  simp only [← secretOf?_eq_some_iff, hentries, List.filterMap_append]
  cases hentry : secretOf? entry with
  | none => simp [hentry]
  | some found =>
      obtain ⟨key, held⟩ := found
      simp only [List.filterMap_cons, hentry, List.filterMap_nil, KeyMap.ofList_concat,
        KeyMap.get?_insert]
      by_cases hkey : name = key
      · simp [hkey]
      · simp [hkey, Ne.symm hkey]

theorem get?_ofEnvironment (environment : List (String × String)) (name value : String) :
    (SecretStore.ofEnvironment secretBeginning environment).get? name = some value ↔
      IsLastSecret environment name value := by
  induction environment using List.reverseRecOn with
  | nil => simp [SecretStore.ofEnvironment, KeyMap.ofList, KeyMap.insertAll, IsLastSecret]
  | append_singleton environment entry ih =>
      rw [get?_ofEnvironment_append_singleton, isLastSecret_append_singleton, ih]

theorem IsLastSecret.eq {other : String} (h : IsLastSecret environment name value)
    (hother : IsLastSecret environment name other) : value = other := by
  rw [← get?_ofEnvironment] at h hother
  cases h.symm.trans hother
  rfl

theorem IsSecret.exists_last (h : IsSecret environment name value) :
    ∃ last, IsLastSecret environment name last := by
  induction environment using List.reverseRecOn with
  | nil => simp [IsSecret] at h
  | append_singleton environment entry ih =>
      simp only [isLastSecret_append_singleton]
      by_cases hentry : ∃ other, IsSecret [entry] name other
      · obtain ⟨other, hother⟩ := hentry
        exact ⟨other, .inl hother⟩
      · rw [not_exists] at hentry
        obtain ⟨last, hlast⟩ := ih ((isSecret_append.mp h).resolve_right (hentry value))
        exact ⟨last, .inr ⟨hentry, hlast⟩⟩

/-- Any variable for a name can be the last one. -/
theorem IsSecret.exists_perm (h : IsSecret environment name value) :
    ∃ environment', environment'.Perm environment ∧ IsLastSecret environment' name value := by
  obtain ⟨written, hwritten, hmem, hname⟩ := h
  obtain ⟨before, after, rfl⟩ := List.append_of_mem hmem
  refine ⟨(before ++ after) ++ [(secretBeginning ++ written, value)], ?_, ?_⟩
  · rw [List.append_assoc]
    exact (List.perm_append_singleton _ _).append_left before
  · rw [isLastSecret_append_singleton]
    exact .inl ⟨written, hwritten, List.mem_singleton.mpr rfl, hname⟩

end Environments

/-! ## Engines over environments -/

def storeOf (environment : List (String × String)) (filter : SecretsFilter) : SecretStore :=
  ⟨SecretStore.ofEnvironment secretBeginning environment, filter⟩

def engineOf (configuration : Configuration) (filter : SecretsFilter)
    (environment : List (String × String)) : FormEngine :=
  ⟨.builtin, ⟨[.text, (storeOf environment filter).provider]⟩, configuration⟩

theorem buildEngine_eq_ok {surrounding : Surrounding} {path : Option String}
    {configuration : Configuration} {filter : SecretsFilter}
    (hconfiguration : readConfiguration surrounding path = .ok configuration)
    (hfilter : SecretsFilter.ofPolicy configuration.secrets = .ok filter) :
    buildEngine surrounding path = .ok (engineOf configuration filter surrounding.environment) := by
  have hhost := SecretStore.ofProviders_text_secrets (storeOf surrounding.environment filter)
  rw [storeOf] at hhost
  simp only [buildEngine, hconfiguration, SecretStore.ofPolicy, hfilter, bind, Except.bind,
    Except.mapError, hhost]
  rfl

def ReadsSecret (engine : FormEngine) (name value : String) : Prop :=
  ∀ calls, (((ScriptEngine.fresh engine.host engine.config.script).afterCalls calls).evaluate
    (Script.textCall "forms_secrets" "get" name)).1 = .ok (.string value)

section Engines

variable {configuration : Configuration} {filter : SecretsFilter}
  {environment environment' : List (String × String)} {name value : String}

theorem readsSecret_iff (hlimits : configuration.script.LetsCall)
    (hname : configuration.script.Admits name) (hvalue : configuration.script.Admits value) :
    ReadsSecret (engineOf configuration filter environment) name value ↔
      filter.allows name = true ∧ IsLastSecret environment name value := by
  have hread (calls : List ScriptCall) :=
    ((storeOf environment filter).evaluate_get_iff hlimits hname hvalue calls).trans
      (and_congr_right fun _ => get?_ofEnvironment environment name value)
  exact ⟨fun h => (hread []).mp (h []), fun h calls => (hread calls).mpr h⟩

theorem ReadsSecret.eq {engine : FormEngine} {other : String} (h : ReadsSecret engine name value)
    (hother : ReadsSecret engine name other) : value = other := by
  cases (h []).symm.trans (hother [])
  rfl

/-! ## Variables that agree -/

theorem Unambiguous.isLastSecret_iff {policy : SecretsPolicy} (h : Unambiguous policy environment)
    (hallows : policy.Allows name) :
    IsLastSecret environment name value ↔ IsSecret environment name value := by
  refine ⟨IsLastSecret.isSecret, fun hsecret => ?_⟩
  obtain ⟨last, hlast⟩ := hsecret.exists_last
  rw [h name hallows value last hsecret hlast.isSecret]
  exact hlast

theorem Unambiguous.perm {policy : SecretsPolicy} (h : Unambiguous policy environment)
    (hperm : environment'.Perm environment) : Unambiguous policy environment' := by
  intro name hallows value other hvalue hother
  rw [IsSecret.perm hperm] at hvalue hother
  exact h name hallows value other hvalue hother

theorem engineOf_eq_iff : engineOf configuration filter environment' =
      engineOf configuration filter environment ↔
    ∀ name, filter.allows name = true →
      ∀ value, IsLastSecret environment' name value ↔ IsLastSecret environment name value := by
  constructor
  · intro h name hname value
    have hget :
        (storeOf environment' filter).getFunction = (storeOf environment filter).getFunction := by
      have hproviders := congrArg (fun engine => engine.host.providers) h
      simp only [engineOf, SecretStore.provider, List.cons.injEq, HostProvider.mk.injEq]
        at hproviders
      exact hproviders.2.1.2.1
    have hanswer (environment : List (String × String)) :
        (storeOf environment filter).getFunction.call [.string name] = .ok (.string value) ↔
          IsLastSecret environment name value :=
      ((storeOf environment filter).getFunction_call_eq_iff name value).trans <|
        (and_iff_right hname).trans (get?_ofEnvironment environment name value)
    rw [← hanswer, ← hanswer, hget]
  · intro h
    have hprovider :
        (storeOf environment' filter).provider = (storeOf environment filter).provider := by
      apply SecretStore.provider_congr
      intro name hname
      apply Option.ext
      intro value
      rw [get?_ofEnvironment, get?_ofEnvironment]
      exact h name hname value
    rw [engineOf, engineOf, hprovider]

end Engines

/--
What a script gets for a name is the value of the last variable for it, if the name is allowed.  So
the engine is the same for every order of the variables, and each allowed variable is read with its
own value if it fits into the limits, exactly if the environment has no two values for one allowed
name.
-/
theorem buildEngine_secrets (surrounding : Surrounding) (path : Option String)
    (configuration : Configuration)
    (hconfiguration : readConfiguration surrounding path = .ok configuration)
    (hvalid : configuration.secrets.Valid) (hlimits : configuration.script.LetsCall) :
    ∃ engineFor : List (String × String) → FormEngine,
      (∀ environment, buildEngine { surrounding with environment } path =
        .ok (engineFor environment)) ∧
      (∀ environment name value, configuration.script.Admits name →
        configuration.script.Admits value →
          (ReadsSecret (engineFor environment) name value ↔
            configuration.secrets.Allows name ∧ IsLastSecret environment name value)) ∧
      ∀ environment,
        ((∀ environment' : List (String × String), environment'.Perm environment →
          engineFor environment' = engineFor environment) ↔
            Unambiguous configuration.secrets environment) ∧
        ((∀ name value, configuration.secrets.Allows name → IsSecret environment name value →
            configuration.script.Admits name ∧ configuration.script.Admits value) →
          ((∀ name value, configuration.secrets.Allows name → IsSecret environment name value →
            ReadsSecret (engineFor environment) name value) ↔
              Unambiguous configuration.secrets environment)) := by
  obtain ⟨filter, hfilter, hallows⟩ := SecretsFilter.ofPolicy_eq_ok hvalid
  refine ⟨engineOf configuration filter, fun environment => ?_, ?_, fun environment => ⟨?_, ?_⟩⟩
  · have hread : readConfiguration { surrounding with environment } path = .ok configuration :=
      hconfiguration
    exact buildEngine_eq_ok hread hfilter
  · intro environment name value hname hvalue
    rw [readsSecret_iff hlimits hname hvalue, hallows]
  · constructor
    · -- Either value can be that of the last variable, and then the engines differ.
      intro h name hname value other hvalue hother
      obtain ⟨first, hfirst, hlast⟩ := hvalue.exists_perm
      obtain ⟨second, hsecond, hlast'⟩ := hother.exists_perm
      have hsame := engineOf_eq_iff.mp ((h first hfirst).trans (h second hsecond).symm) name
        ((hallows name).mpr hname) value
      exact (hsame.mp hlast).eq hlast'
    · intro h environment' hperm
      rw [engineOf_eq_iff]
      intro name hname value
      rw [(h.perm hperm).isLastSecret_iff ((hallows name).mp hname),
        h.isLastSecret_iff ((hallows name).mp hname), IsSecret.perm hperm]
  · intro hfits
    constructor
    · intro h name hname value other hvalue hother
      exact (h name value hname hvalue).eq (h name other hname hother)
    · intro h name value hname hsecret
      obtain ⟨hfitsName, hfitsValue⟩ := hfits name value hname hsecret
      rw [readsSecret_iff hlimits hfitsName hfitsValue, hallows, h.isLastSecret_iff hname]
      exact ⟨hname, hsecret⟩

theorem buildEngine_secrets_key :
    let surrounding : Surrounding :=
      ⟨[("config.json", "\x7b\"secrets\": \x7b\"deny\": [\"db_*\"]\x7d\x7d")],
        [("FORM_SECRET_API_KEY", "k-123"), ("FORM_SECRET_DB_PASSWORD", "hunter2")]⟩
    ∃ engine, buildEngine surrounding (some "config.json") = .ok engine ∧
      ReadsSecret engine "api_key" "k-123" ∧ ¬ ReadsSecret engine "db_password" "hunter2" := by
  intro surrounding
  have hvalid : SecretsPolicy.Valid ⟨[], ["db_*"]⟩ := by
    simp only [SecretsPolicy.Valid, List.nil_append, List.forall_mem_singleton]
    exact ⟨_, rfl⟩
  obtain ⟨engineFor, hbuild, hread, -⟩ := buildEngine_secrets surrounding (some "config.json")
    { secrets := ⟨[], ["db_*"]⟩ } rfl hvalid ⟨by decide, by decide⟩
  refine ⟨engineFor surrounding.environment, hbuild surrounding.environment, ?_, ?_⟩
  · rw [hread _ _ _ (.inr (by decide)) (.inr (by decide)), ← get?_ofEnvironment]
    refine ⟨⟨?_, .inl rfl⟩, by decide⟩
    rintro ⟨text, htext, glob, hglob, hmatch⟩
    cases List.mem_singleton.mp htext
    cases hglob
    revert hmatch
    decide
  · rw [hread _ _ _ (.inr (by decide)) (.inr (by decide))]
    rintro ⟨⟨hdenied, -⟩, -⟩
    exact hdenied ⟨"db_*", List.mem_singleton.mpr rfl, _, rfl, by decide⟩

/-- Of two variables for one name only the last one in the environment is read. -/
theorem buildEngine_secrets_replaced :
    let environment := [("FORM_SECRET_A", "1"), ("FORM_SECRET_a", "2")]
    ({} : Configuration).secrets.Allows "a" ∧ IsSecret environment "a" "1" ∧
      (∃ engine, buildEngine ⟨[], environment⟩ none = .ok engine ∧
        ReadsSecret engine "a" "2" ∧ ¬ ReadsSecret engine "a" "1") ∧
      ∃ engine, buildEngine ⟨[], environment.reverse⟩ none = .ok engine ∧
        ReadsSecret engine "a" "1" := by
  intro environment
  have hbuild (environment : List (String × String)) : buildEngine ⟨[], environment⟩ none =
      .ok (engineOf {} ⟨none, []⟩ environment) := buildEngine_eq_ok rfl rfl
  have hread (environment : List (String × String)) (value : String)
      (hvalue : value.utf8ByteSize ≤ 65536) :
      ReadsSecret (engineOf {} ⟨none, []⟩ environment) "a" value ↔
        (SecretStore.ofEnvironment secretBeginning environment).get? "a" = some value := by
    rw [readsSecret_iff ⟨by decide, by decide⟩ (.inr (by decide)) (.inr hvalue),
      ← get?_ofEnvironment]
    exact and_iff_right rfl
  refine ⟨⟨by simp, .inl rfl⟩, ⟨"A", by decide, List.mem_cons_self, by decide⟩,
    ⟨_, hbuild environment, ?_, ?_⟩, ⟨_, hbuild environment.reverse, ?_⟩⟩
  · rw [hread _ _ (by decide)]
    decide
  · rw [hread _ _ (by decide)]
    decide
  · rw [hread _ _ (by decide)]
    decide

end CommandLine

end FormDerivation
