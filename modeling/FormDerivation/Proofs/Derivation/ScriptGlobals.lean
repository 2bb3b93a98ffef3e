import FormDerivation.Proofs.Derivation.Congruence

/-!
# What scripts see

A walk makes its values known to scripts only when they have changed.  `Walk.Fresh` is the invariant
that makes this enough: a script starts from the values of the state, those of its row and its
place (`Walk.publish_eq`), and a value that is made known once more changes no step
(`Walk.congruent_sameButStale`).
-/

namespace FormDerivation

open KeyMap (lookupEntry)

/-! ## Globals of an engine -/

namespace ScriptEngine

def constant? (engine : ScriptEngine) (name : String) : Option Script.Value :=
  (engine.scope.find? (·.name == name)).map Script.Variable.value

theorem constant?_eq (engine : ScriptEngine) (name : String) :
    engine.constant? name = engine.globals.get? name := by
  rw [constant?, find?_scope, Option.map_map]
  exact Option.map_id'

theorem evaluate_globals (engine : ScriptEngine) (code : String) :
    (engine.evaluate code).2.globals = engine.globals := by
  have hcompile : ∀ program loaded, engine.compile code = .ok (program, loaded) →
      loaded.globals = engine.globals := by
    intro program loaded h
    unfold compile at h
    split at h
    · cases h
      rfl
    · split at h
      · cases h
        rfl
      · cases h
  unfold evaluate
  cases h : engine.compile code with
  | error error => rfl
  | ok result => exact hcompile result.1 result.2 h

def furnished (engine : ScriptEngine) (values : KeyMap Json) (site : Site) : ScriptEngine :=
  let known := engine.globals.insert "data" (.ofJson (.ofMap values))
  let known := known.insert "row" (.ofJson (.ofMap (Walk.row values site.scope)))
  { engine with globals := known.insert "element" (.ofJson (Walk.siteToJson site)) }

end ScriptEngine

/-! ## Rows -/

namespace Walk

def localName? (scope key : String) : Option String :=
  (Text.dropBeginning? (scope ++ "_").toList key.toList).map String.ofList

theorem localName?_eq_some_iff (scope key name : String) :
    localName? scope key = some name ↔ key = scope ++ "_" ++ name := by
  rw [localName?, Option.map_eq_some_iff]
  constructor
  · rintro ⟨rest, hrest, rfl⟩
    rw [Text.dropBeginning?_eq_some_iff] at hrest
    rw [← String.toList_inj, hrest]
    simp
  · intro hkey
    refine ⟨name.toList, ?_, by simp⟩
    rw [Text.dropBeginning?_eq_some_iff, hkey]
    simp

theorem row_eq (values : KeyMap Json) (scope : String) :
    row values (some scope) = .ofList (values.toList.filterMap fun entry =>
      (localName? scope entry.1).map fun name => (name, entry.2)) := by
  simp only [row, localName?, Option.map_map]
  rfl

theorem lookupEntry_localNames (scope name : String) (entries : List (String × Json)) :
    lookupEntry name (entries.filterMap fun entry =>
        (localName? scope entry.1).map fun name => (name, entry.2)) =
      lookupEntry (scope ++ "_" ++ name) entries := by
  induction entries with
  | nil => rfl
  | cons entry rest ih =>
      rw [List.filterMap_cons, lookupEntry]
      cases hlocal : localName? scope entry.1 with
      | none =>
          have hkey : scope ++ "_" ++ name ≠ entry.1 := by
            intro hkey
            rw [(localName?_eq_some_iff scope entry.1 name).mpr hkey.symm] at hlocal
            cases hlocal
          simpa [hkey] using ih
      | some found =>
          have hentry := (localName?_eq_some_iff scope entry.1 found).mp hlocal
          have hsame : name = found ↔ scope ++ "_" ++ name = entry.1 := by
            simp [hentry]
          simp only [Option.map_some, lookupEntry, hsame, ih]

@[simp] theorem get?_row (values : KeyMap Json) (scope : Option String) (name : String) :
    (row values scope).get? name = scope.bind fun s => values.get? (s ++ "_" ++ name) := by
  cases scope with
  | none => rfl
  | some s =>
      have hnodup : ((values.toList.filterMap fun entry =>
          (localName? s entry.1).map fun name => (name, entry.2)).map Prod.fst).Nodup := by
        have hkeys : (values.toList.filterMap fun entry =>
            (localName? s entry.1).map fun name => (name, entry.2)).map Prod.fst =
              (values.toList.map Prod.fst).filterMap (localName? s) := by
          rw [List.map_filterMap, List.filterMap_map]
          congr 1
          funext entry
          simp [Function.comp_def]
        rw [hkeys]
        refine values.keys_nodup.filterMap ?_
        intro key key' found hfound hfound'
        rw [Option.mem_def, localName?_eq_some_iff] at hfound hfound'
        rw [hfound, hfound']
      rw [row_eq, KeyMap.get?_ofList hnodup, lookupEntry_localNames]
      rfl

theorem siteToJson_eq (site : Site) : siteToJson site = .object [("id", .string site.id),
    ("key", .string site.key), ("prefix", (site.scope.map Json.string).getD .null)] := by
  have hkey : ¬ "key" < "id" := by decide
  have hprefix : ¬ "prefix" < "id" := by decide
  have hprefix' : ¬ "prefix" < "key" := by decide
  simp [siteToJson, Json.ofMembers, Json.ofMap, KeyMap.ofList, KeyMap.insertAll, KeyMap.insert,
    KeyMap.insertEntry, KeyMap.empty, hkey, hprefix, hprefix']

/-! ## Values that scripts know -/

/-- Unless they are marked as stale, the values that scripts know are those of the state. -/
def Fresh (walk : Walk) : Prop :=
  walk.stale = false → walk.scripts.globals.get? "data" = some (.ofJson (.ofMap walk.state.values))

theorem publish_eq {walk : Walk} (h : walk.Fresh) (site : Site) :
    walk.publish site = .ok { walk with
      scripts := walk.scripts.furnished walk.state.values site
      stale := false } := by
  have hrow : ScriptEngine.isGlobalName "row" = true := by decide
  have helement : ScriptEngine.isGlobalName "element" = true := by decide
  have hdata : ScriptEngine.isGlobalName "data" = true := by decide
  have hpublished : walk.publishData = .ok { walk with
      scripts := { walk.scripts with
        globals := walk.scripts.globals.insert "data" (.ofJson (.ofMap walk.state.values)) }
      stale := false } := by
    unfold publishData
    cases hstale : walk.stale with
    | true =>
        simp only [if_true, ScriptEngine.register, hdata]
        rfl
    | false =>
        have hsame := KeyMap.insert_eq_self (h hstale)
        rw [hsame, if_neg Bool.false_ne_true, ← hstale]
  unfold publish
  rw [hpublished]
  simp only [bind, Except.bind, ScriptEngine.register, hrow, helement, if_true]
  rfl

structure SameButStale (walk walk' : Walk) : Prop where
  fresh : walk.Fresh
  fresh' : walk'.Fresh
  state : walk'.state = walk.state
  scripts : walk'.scripts = walk.scripts

theorem fresh_of_stale {walk : Walk} (h : walk.stale = true) : walk.Fresh := by
  intro hstale
  rw [h] at hstale
  cases hstale

theorem Fresh.sameButStale {walk : Walk} (h : walk.Fresh) : SameButStale walk walk :=
  ⟨h, h, rfl, rfl⟩

theorem SameButStale.outdated {walk walk' : Walk} (h : SameButStale walk walk') :
    SameButStale walk { walk' with stale := true } :=
  ⟨h.fresh, fresh_of_stale rfl, h.state, h.scripts⟩

theorem evaluate_script {walk : Walk} (setting : WalkSetting) (h : walk.Fresh) (site : Site)
    (code : String) :
    walk.evaluate setting site (.script code) =
      (((walk.scripts.furnished walk.state.values site).evaluate code).1.mapError .script,
        ⟨walk.state, ((walk.scripts.furnished walk.state.values site).evaluate code).2, false⟩) := by
  simp only [evaluate, publish_eq h]

theorem congruent_sameButStale (setting : WalkSetting) :
    Congruent setting Eq SameButStale where
  values := fun h _ => by rw [h.state]
  recordFailure := by
    intro walk walk' site site' step error h hkey
    refine ⟨h.fresh, h.fresh', ?_, h.scripts⟩
    simp only [recordFailure, h.state, hkey]
  markVisibility := fun visible h _ =>
    ⟨h.fresh, h.fresh', by simp only [markVisibility, h.state], h.scripts⟩
  setValue := by
    intro walk walk' key value h _
    have hstate : (setValue key value walk').state = (setValue key value walk).state := by
      simp only [setValue, h.state]
    exact ⟨fresh_of_stale rfl, fresh_of_stale rfl, hstate, h.scripts⟩
  recordError := fun message h _ =>
    ⟨h.fresh, h.fresh', by simp only [recordError, h.state], h.scripts⟩
  recordCount := fun count h _ =>
    ⟨h.fresh, h.fresh', by simp only [recordCount, h.state], h.scripts⟩
  refl := fun _ => rfl
  visibility_eq := by
    rintro e _ rfl
    rfl
  traits_eq := by
    rintro e _ rfl
    rfl
  evaluate := by
    intro walk walk' site e h
    cases e with
    | formula formula =>
        simp only [evaluate, h.state, true_and]
        exact h
    | script code =>
        rw [evaluate_script setting h.fresh, evaluate_script setting h.fresh', h.state, h.scripts]
        -- Both walks run the script with the values of the state, also the one that is not stale.
        have hknown : (((walk.scripts.furnished walk.state.values site).evaluate
            code).2.globals.get? "data") = some (.ofJson (.ofMap walk.state.values)) := by
          rw [ScriptEngine.evaluate_globals]
          simp [ScriptEngine.furnished]
        constructor
        · rfl
        · exact ⟨fun _ => hknown, fun _ => hknown, rfl, rfl⟩
    | malformed raw reason => exact ⟨rfl, h⟩
  recordOverride := by
    rintro walk walk' e _ key rfl h
    exact ⟨h.fresh, h.fresh', by simp only [recordOverride, h.state], h.scripts⟩

end Walk

end FormDerivation
