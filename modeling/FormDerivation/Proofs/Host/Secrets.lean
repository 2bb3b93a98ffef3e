import FormDerivation.Engine
import FormDerivation.Host.Secrets
import FormDerivation.Host.Text
import Mathlib.Logic.Basic

/-!
# What scripts learn about secrets

A name that the policy does not allow is denied before the store is asked for it.  So two stores
that agree on the allowed names offer the same functions, and no derivation and no script can tell
one from the other (`FormEngine.derive_secrets_indistinguishable`).
-/

namespace FormDerivation

def Glob.Covers (text name : String) : Prop :=
  ∃ glob, parse text = .ok glob ∧ glob.isMatch name = true

namespace SecretsPolicy

def Valid (policy : SecretsPolicy) : Prop :=
  ∀ text ∈ policy.allow ++ policy.deny, ∃ glob, Glob.parse text = .ok glob

/-- Denial comes first; where nothing is listed as allowed, all that is not denied is. -/
def Allows (policy : SecretsPolicy) (name : String) : Prop :=
  (¬ ∃ text ∈ policy.deny, Glob.Covers text name) ∧
    (policy.allow = [] ∨ ∃ text ∈ policy.allow, Glob.Covers text name)

end SecretsPolicy

/-! ## Filters of policies -/

namespace SecretsFilter

theorem readGlobs_eq_ok : {texts : List String} →
    (∀ text ∈ texts, ∃ glob, Glob.parse text = .ok glob) →
    ∃ globs, readGlobs texts = .ok globs ∧
      ∀ name, globs.any (·.isMatch name) = true ↔ ∃ text ∈ texts, Glob.Covers text name
  | [], _ => ⟨[], rfl, by simp⟩
  | text :: rest, h => by
      rw [List.forall_mem_cons] at h
      obtain ⟨glob, hglob⟩ := h.1
      obtain ⟨globs, hglobs, hmatch⟩ := readGlobs_eq_ok h.2
      refine ⟨glob :: globs, by simp [readGlobs, hglob, hglobs, bind, Except.bind], fun name => ?_⟩
      have hhead : Glob.Covers text name ↔ glob.isMatch name = true := by
        simp [Glob.Covers, hglob]
      simp only [List.any_cons, Bool.or_eq_true, hmatch, ← hhead, List.mem_cons, exists_eq_or_imp]

theorem ofPolicy_eq_ok {policy : SecretsPolicy} (h : policy.Valid) :
    ∃ filter, ofPolicy policy = .ok filter ∧
      ∀ name, filter.allows name = true ↔ policy.Allows name := by
  rw [SecretsPolicy.Valid, List.forall_mem_append] at h
  obtain ⟨allow, hallow, hallowed⟩ := readGlobs_eq_ok h.1
  obtain ⟨deny, hdeny, hdenied⟩ := readGlobs_eq_ok h.2
  by_cases hnone : policy.allow = []
  · refine ⟨⟨none, deny⟩, by simp [ofPolicy, hnone, hdeny, bind, Except.bind], fun name => ?_⟩
    rw [SecretsPolicy.Allows, ← hdenied name]
    simp [allows, hnone]
  · refine ⟨⟨some allow, deny⟩, by
      simp [ofPolicy, hnone, hallow, hdeny, bind, Except.bind, Functor.map, Except.map],
      fun name => ?_⟩
    rw [SecretsPolicy.Allows, ← hdenied name, ← hallowed name]
    simp [allows, hnone]

end SecretsFilter

/-! ## Answers of a store -/

namespace SecretStore

theorem getFunction_call_eq_iff (store : SecretStore) (name value : String) :
    store.getFunction.call [.string name] = .ok (.string value) ↔
      store.filter.allows name = true ∧ store.values.get? name = some value := by
  have hcall : store.getFunction.call [.string name] =
      if store.filter.allows name then .ok (((store.values.get? name).map Json.string).getD .null)
      else .error (.denied name) := rfl
  rw [hcall]
  cases store.filter.allows name <;> cases store.values.get? name <;> simp

/-! ## Stores that agree -/

variable {filter : SecretsFilter} {values others : KeyMap String}

theorem getFunction_congr
    (h : ∀ name, filter.allows name = true → values.get? name = others.get? name) :
    getFunction ⟨values, filter⟩ = getFunction ⟨others, filter⟩ := by
  unfold getFunction
  congr 1
  funext args
  cases hname : nameArgument args with
  | error error => rfl
  | ok name =>
      cases hallows : filter.allows name with
      | false => simp [bind, Except.bind, hallows]
      | true => simp [bind, Except.bind, hallows, h name hallows]

theorem hasFunction_congr
    (h : ∀ name, filter.allows name = true → values.get? name = others.get? name) :
    hasFunction ⟨values, filter⟩ = hasFunction ⟨others, filter⟩ := by
  unfold hasFunction
  congr 1
  funext args
  cases hname : nameArgument args with
  | error error => rfl
  | ok name =>
      cases hallows : filter.allows name with
      | false => simp [bind, Except.bind, hallows]
      | true => simp [bind, Except.bind, hallows, KeyMap.contains, h name hallows]

theorem provider_congr
    (h : ∀ name, filter.allows name = true → values.get? name = others.get? name) :
    provider ⟨values, filter⟩ = provider ⟨others, filter⟩ := by
  rw [provider, provider, getFunction_congr h, hasFunction_congr h]

theorem ofProviders_text_secrets (store : SecretStore) :
    HostRegistry.ofProviders [.text, store.provider] = .ok ⟨[.text, store.provider]⟩ := by
  have htext : HostProvider.text.moduleName = "forms_text" := by decide
  have hsecrets : store.provider.moduleName = "forms_secrets" := by
    show HostProvider.globalName "forms.secrets" = "forms_secrets"
    decide
  have hpackages : HostProvider.text.package ≠ "" ∧ store.provider.package ≠ "" := by
    show "forms.text" ≠ "" ∧ "forms.secrets" ≠ ""
    decide
  have hfunctions : ∀ module, HostRegistry.functionOffence? module [] HostProvider.text.functions =
      none ∧ HostRegistry.functionOffence? module [] store.provider.functions = none :=
    fun _ => ⟨rfl, rfl⟩
  simp [HostRegistry.ofProviders, HostRegistry.offence?, htext, hsecrets, hpackages, hfunctions]

end SecretStore

/--
Secrets that are not allowed do not interfere: under a policy of globs, two stores whose secrets
agree on the allowed names give the same answer to every call, and every script and every derivation
over them ends in the same way.
-/
theorem FormEngine.derive_secrets_indistinguishable (policy : SecretsPolicy) (hvalid : policy.Valid)
    (values others : KeyMap String)
    (h : ∀ name, policy.Allows name → values.get? name = others.get? name) :
    ∃ store other host host',
      SecretStore.ofPolicy values policy = .ok store ∧
      SecretStore.ofPolicy others policy = .ok other ∧
      HostRegistry.ofProviders [.text, store.provider] = .ok host ∧
      HostRegistry.ofProviders [.text, other.provider] = .ok host' ∧
      (∀ args, store.getFunction.call args = other.getFunction.call args ∧
        store.hasFunction.call args = other.hasFunction.call args) ∧
      (∀ limits code, ((ScriptEngine.fresh host limits).evaluate code).1 =
        ((ScriptEngine.fresh host' limits).evaluate code).1) ∧
      ∀ operators config tree inputs globals,
        FormEngine.derive ⟨operators, host, config⟩ tree inputs globals =
          FormEngine.derive ⟨operators, host', config⟩ tree inputs globals := by
  obtain ⟨filter, hfilter, hallows⟩ := SecretsFilter.ofPolicy_eq_ok hvalid
  have hagree : ∀ name, filter.allows name = true → values.get? name = others.get? name :=
    fun name hname => h name ((hallows name).mp hname)
  refine ⟨⟨values, filter⟩, ⟨others, filter⟩, _, _,
    by simp [SecretStore.ofPolicy, hfilter, bind, Except.bind],
    by simp [SecretStore.ofPolicy, hfilter, bind, Except.bind],
    SecretStore.ofProviders_text_secrets _, SecretStore.ofProviders_text_secrets _, ?_, ?_, ?_⟩
  · intro args
    rw [SecretStore.getFunction_congr hagree, SecretStore.hasFunction_congr hagree]
    exact ⟨rfl, rfl⟩
  all_goals
    rw [SecretStore.provider_congr hagree]
    intros
    rfl

theorem FormEngine.derive_secrets_indistinguishable_password :
    let policy : SecretsPolicy := ⟨["api_*", "db_*"], ["db_*"]⟩
    let values : KeyMap String := .ofList [("api_key", "k-123"), ("db_password", "hunter2")]
    let others : KeyMap String := .ofList [("api_key", "k-123"), ("token", "t")]
    policy.Valid ∧ (∀ name, policy.Allows name → values.get? name = others.get? name) ∧
      values.get? "db_password" = some "hunter2" ∧ others.get? "db_password" = none ∧
      ∃ store other host host',
        SecretStore.ofPolicy values policy = .ok store ∧
        SecretStore.ofPolicy others policy = .ok other ∧
        HostRegistry.ofProviders [.text, store.provider] = .ok host ∧
        HostRegistry.ofProviders [.text, other.provider] = .ok host' ∧
        ∀ tree inputs globals,
          FormEngine.derive ⟨.builtin, host, {}⟩ tree inputs globals =
            FormEngine.derive ⟨.builtin, host', {}⟩ tree inputs globals := by
  intro policy values others
  have hvalid : policy.Valid := by
    simp only [SecretsPolicy.Valid, policy, List.cons_append, List.nil_append, List.forall_mem_cons]
    exact ⟨⟨_, rfl⟩, ⟨_, rfl⟩, ⟨_, rfl⟩, by simp⟩
  have hagree : ∀ name, policy.Allows name → values.get? name = others.get? name := by
    rintro name ⟨hdenied, hallowed⟩
    have hpassword : name ≠ "db_password" := by
      rintro rfl
      exact hdenied ⟨"db_*", by simp [policy], _, rfl, rfl⟩
    have htoken : name ≠ "token" := by
      rintro rfl
      obtain hnone | ⟨text, htext, glob, hglob, hmatch⟩ := hallowed
      · cases hnone
      · simp only [policy, List.mem_cons, List.not_mem_nil, or_false] at htext
        obtain rfl | rfl := htext
        all_goals
          cases hglob
          revert hmatch
          decide
    simp [values, others, KeyMap.ofList, KeyMap.insertAll, hpassword, htoken]
  obtain ⟨store, other, host, host', hstore, hother, hhost, hhost', -, -, hderive⟩ :=
    FormEngine.derive_secrets_indistinguishable policy hvalid values others hagree
  exact ⟨hvalid, hagree, rfl, rfl, store, other, host, host', hstore, hother, hhost, hhost',
    hderive _ _⟩

end FormDerivation
