import FormDerivation.Engine

/-!
# The steps of a walk

What one element of a form does to a walk: `enter_state` lists every change that entering an
element makes to the state, `expandRows_state` those of spreading rows, and `visitWithin_run` and
`hideWithin_run` say that what is in a container is walked through scope by scope.
-/

namespace FormDerivation

namespace KeyMap

variable {α : Type}

def insertSome (m : KeyMap α) (key : String) : Option α → KeyMap α
  | none => m
  | some value => m.insert key value

@[simp] theorem get?_insertSome (m : KeyMap α) (key other : String) (value : Option α) :
    (m.insertSome key value).get? other =
      if other = key then value.or (m.get? other) else m.get? other := by
  cases value <;> simp [insertSome]

end KeyMap

/-! ## Results in sequence -/

theorem exists_of_bind_eq_ok {ε α β : Type} {x : Except ε α} {f : α → Except ε β} {b : β}
    (h : x >>= f = .ok b) : ∃ a, x = .ok a ∧ f a = .ok b := by
  cases x with
  | error error => cases h
  | ok a => exact ⟨a, rfl, h⟩

theorem exists_ok_of_map {ε α β : Type} {x : Except ε α} {f : α → β} {b : β}
    (h : x.toOption.map f = some b) : ∃ a, x = .ok a ∧ f a = b := by
  cases x with
  | error error => cases h
  | ok a => exact ⟨a, rfl, Option.some.inj h⟩

namespace Walk

section Sequence

variable {α β : Type} {part : WalkM α} {next : α → WalkM β} {walk walk' : Walk}

theorem run_bind_of_ok {a : α} (h : part.run walk = .ok (a, walk')) :
    (part >>= next).run walk = (next a).run walk' := by
  rw [StateT.run_bind, h]
  rfl

theorem run_bind_of_error {error : DerivationError} (h : part.run walk = .error error) :
    (part >>= next).run walk = .error error := by
  rw [StateT.run_bind, h]
  rfl

theorem run_get_bind (next : Walk → WalkM β) (walk : Walk) :
    (get >>= next).run walk = (next walk).run walk :=
  rfl

theorem exists_of_run_bind_eq_ok {b : β} (h : (part >>= next).run walk = .ok (b, walk')) :
    ∃ a between, part.run walk = .ok (a, between) ∧ (next a).run between = .ok (b, walk') := by
  rw [StateT.run_bind] at h
  obtain ⟨⟨a, between⟩, hpart, hnext⟩ := exists_of_bind_eq_ok h
  exact ⟨a, between, hpart, hnext⟩

theorem exists_of_run_discard_eq_ok (h : (discard part).run walk = .ok ((), walk')) :
    ∃ a, part.run walk = .ok (a, walk') := by
  change (part >>= fun _ => pure ()).run walk = .ok ((), walk') at h
  obtain ⟨a, between, hpart, hend⟩ := exists_of_run_bind_eq_ok h
  cases hend
  exact ⟨a, hpart⟩

end Sequence

variable (setting : WalkSetting) (site : Site)

/-! ## Expressions -/

theorem publishData_state {walk published : Walk} (h : walk.publishData = .ok published) :
    published.state = walk.state := by
  unfold publishData at h
  split at h
  · obtain ⟨scripts, -, h⟩ := exists_of_bind_eq_ok h
    cases h
    rfl
  · cases h
    rfl

theorem publish_state {walk published : Walk} {site : Site}
    (h : walk.publish site = .ok published) : published.state = walk.state := by
  unfold publish at h
  obtain ⟨behind, hbehind, h⟩ := exists_of_bind_eq_ok h
  obtain ⟨scripts, -, h⟩ := exists_of_bind_eq_ok h
  obtain ⟨scripts', -, h⟩ := exists_of_bind_eq_ok h
  have hstate : published.state = behind.state := by
    cases h
    rfl
  rw [hstate, publishData_state hbehind]

theorem evaluate_state (walk : Walk) (e : Expression) :
    (walk.evaluate setting site e).2.state = walk.state := by
  cases e with
  | formula formula => rfl
  | script code =>
      simp only [evaluate]
      cases hpublish : walk.publish site with
      | error error => rfl
      | ok published =>
          have hstate := publish_state hpublish
          exact hstate
  | malformed raw reason => rfl

@[simp] theorem value_run (e : Expression) (walk : Walk) :
    (value setting site e).run walk = .ok (walk.evaluate setting site e) :=
  rfl

theorem value_state {walk walk' : Walk} {e : Expression} {result : Except ExpressionError Json}
    (h : (value setting site e).run walk = .ok (result, walk')) : walk'.state = walk.state := by
  rw [value_run] at h
  have hstate := evaluate_state setting site walk e
  cases hevaluate : walk.evaluate setting site e with
  | mk first second =>
      rw [hevaluate] at h hstate
      cases h
      exact hstate

theorem settle_state {α : Type} {step : DerivationStep} {result : Except ExpressionError α}
    {fallback a : α} {walk walk' : Walk}
    (h : (settle setting site step result fallback).run walk = .ok (a, walk')) :
    ∃ failures, walk'.state = { walk.state with failures := failures } := by
  unfold settle at h
  cases result with
  | ok value =>
      cases h
      exact ⟨_, rfl⟩
  | error cause =>
      cases hpolicy : setting.config.failurePolicy with
      | abort =>
          rw [hpolicy] at h
          cases h
      | degrade =>
          rw [hpolicy] at h
          cases h
          exact ⟨_, rfl⟩

/-! ## The steps of an element -/

theorem patch_state {e : Element} {replaced : Option Element} {walk walk' : Walk}
    (h : (patch setting site e).run walk = .ok (replaced, walk')) :
    ∃ failures, walk'.state = { walk.state with
      overrides := walk.state.overrides.insertSome site.key replaced
      failures := failures } := by
  unfold patch at h
  cases hpatch : e.attributes.patch with
  | none =>
      rw [hpatch] at h
      cases h
      exact ⟨_, rfl⟩
  | some expression =>
      rw [hpatch] at h
      obtain ⟨result, first, hvalue, h⟩ := exists_of_run_bind_eq_ok h
      obtain ⟨overlay, second, hsettle, h⟩ := exists_of_run_bind_eq_ok h
      obtain ⟨failures, hstate⟩ := settle_state setting site hsettle
      rw [value_state setting site hvalue] at hstate
      cases hobject : overlay.object? with
      | none =>
          rw [hobject] at h
          cases h
          exact ⟨failures, hstate⟩
      | some members =>
          rw [hobject] at h
          cases h
          exact ⟨failures, by simp only [recordOverride, hstate, KeyMap.insertSome]⟩

theorem visibility_state {e : Element} {visible : Bool} {walk walk' : Walk}
    (h : (visibility setting site e).run walk = .ok (visible, walk')) :
    ∃ failures, walk'.state = { walk.state with failures := failures } := by
  unfold visibility at h
  cases hvisibility : e.attributes.visibility with
  | none =>
      rw [hvisibility] at h
      cases h
      exact ⟨_, rfl⟩
  | some expression =>
      rw [hvisibility] at h
      obtain ⟨result, first, hvalue, h⟩ := exists_of_run_bind_eq_ok h
      rw [← value_state setting site hvalue]
      exact settle_state setting site h

theorem compute_state {field : FieldTraits} {walk walk' : Walk}
    (h : (compute setting site field).run walk = .ok ((), walk')) :
    ∃ failures value, walk'.state = { walk.state with
      values := walk.state.values.insertSome site.key value
      failures := failures } := by
  unfold compute at h
  cases hcompute : field.compute with
  | none =>
      rw [hcompute] at h
      cases h
      exact ⟨_, none, rfl⟩
  | some expression =>
      rw [hcompute] at h
      obtain ⟨result, first, hvalue, h⟩ := exists_of_run_bind_eq_ok h
      obtain ⟨value, second, hsettle, h⟩ := exists_of_run_bind_eq_ok h
      obtain ⟨failures, hstate⟩ := settle_state setting site hsettle
      rw [value_state setting site hvalue] at hstate
      cases value with
      | none =>
          cases h
          exact ⟨failures, none, hstate⟩
      | some value =>
          cases h
          exact ⟨failures, some value, by simp only [setValue, hstate, KeyMap.insertSome]⟩

def findViolation (setting : WalkSetting) (site : Site) (field : FieldTraits) :
    WalkM (Option Violation) := do
  match field.check ((← get).state.values.get? site.key), field.validation with
  | some violation, _ => return some violation
  | none, some expression => violation? setting site field expression
  | none, none => return none

def recordViolation (site : Site) : Option Violation → WalkM Unit
  | some violation => modify (recordError site.key violation.message)
  | none => return

theorem validate_eq (field : FieldTraits) :
    validate setting site field =
      findViolation setting site field >>= recordViolation site := by
  unfold validate findViolation
  rw [bind_assoc]
  refine bind_congr fun walk => ?_
  cases field.check (walk.state.values.get? site.key) with
  | some violation => rfl
  | none => cases field.validation <;> rfl

theorem findViolation_state {field : FieldTraits} {violation : Option Violation}
    {walk walk' : Walk}
    (h : (findViolation setting site field).run walk = .ok (violation, walk')) :
    ∃ failures, walk'.state = { walk.state with failures := failures } := by
  unfold findViolation at h
  obtain ⟨current, between, hget, h⟩ := exists_of_run_bind_eq_ok h
  cases hget
  split at h
  · cases h
    exact ⟨_, rfl⟩
  · obtain ⟨result, first, hvalue, h⟩ := exists_of_run_bind_eq_ok h
    rw [← value_state setting site hvalue]
    cases result with
    | ok value =>
        cases h
        exact ⟨_, rfl⟩
    | error error =>
        cases h
        exact ⟨_, rfl⟩
  · cases h
    exact ⟨_, rfl⟩

theorem validate_state {field : FieldTraits} {walk walk' : Walk}
    (h : (validate setting site field).run walk = .ok ((), walk')) :
    ∃ failures message, walk'.state = { walk.state with
      errors := walk.state.errors.insertSome site.key message
      failures := failures } := by
  rw [validate_eq] at h
  obtain ⟨violation, between, hfind, h⟩ := exists_of_run_bind_eq_ok h
  obtain ⟨failures, hstate⟩ := findViolation_state setting site hfind
  cases violation with
  | none =>
      cases h
      exact ⟨failures, none, hstate⟩
  | some violation =>
      cases h
      refine ⟨failures, some violation.message, ?_⟩
      simp only [recordError, hstate, KeyMap.insertSome]

/-- Derives the value of an element that is a visible field; nothing happens to others. -/
def answer (setting : WalkSetting) (site : Site) (visible : Bool) (effective : Element) :
    WalkM Unit := do
  match visible, effective with
  | true, .field _ field =>
    compute setting site field
    validate setting site field
  | _, _ => pure ()

theorem answer_state {visible : Bool} {effective : Element} {walk walk' : Walk}
    (h : (answer setting site visible effective).run walk = .ok ((), walk')) :
    ∃ failures value message, walk'.state = { walk.state with
      values := walk.state.values.insertSome site.key value
      errors := walk.state.errors.insertSome site.key message
      failures := failures } ∧
    ((visible && effective.isField) = false → value = none ∧ message = none) := by
  unfold answer at h
  split at h
  · obtain ⟨⟨⟩, between, hcompute, h⟩ := exists_of_run_bind_eq_ok h
    obtain ⟨failures, value, hstate⟩ := compute_state setting site hcompute
    obtain ⟨failures', message, hstate'⟩ := validate_state setting site h
    rw [hstate] at hstate'
    refine ⟨failures', value, message, hstate', ?_⟩
    intro hfield
    cases hfield
  · cases h
    exact ⟨_, none, none, rfl, fun _ => ⟨rfl, rfl⟩⟩

theorem enter_eq (scope : Option String) (e : Element) :
    enter setting scope e = do
      let replaced ← patch setting ⟨e.id, scope⟩ e
      let visible ← visibility setting ⟨e.id, scope⟩ (replaced.getD e)
      modify (markVisibility (scopedKey scope e.id) visible)
      answer setting ⟨e.id, scope⟩ visible (replaced.getD e)
      return visible := by
  unfold enter answer
  refine bind_congr fun replaced => bind_congr fun visible => bind_congr fun _ => ?_
  cases visible with
  | false => rfl
  | true =>
      cases replaced.getD e with
      | field attributes traits => simp
      | container attributes kind children => rfl
      | content attributes text => rfl

/--
All that entering an element does to the state: it puts entries under the key of the element, and
those for a value and an error only if the element is a visible field.
-/
theorem enter_state {scope : Option String} {e : Element} {visible : Bool} {walk walk' : Walk}
    (h : (enter setting scope e).run walk = .ok (visible, walk')) :
    ∃ replaced patched failures value message,
      (patch setting ⟨e.id, scope⟩ e).run walk = .ok (replaced, patched) ∧
      walk'.state = { walk.state with
        visibilities := walk.state.visibilities.insert (scopedKey scope e.id) visible
        values := walk.state.values.insertSome (scopedKey scope e.id) value
        errors := walk.state.errors.insertSome (scopedKey scope e.id) message
        overrides := walk.state.overrides.insertSome (scopedKey scope e.id) replaced
        failures := failures } ∧
      ((visible && (replaced.getD e).isField) = false → value = none ∧ message = none) := by
  rw [enter_eq] at h
  obtain ⟨replaced, patched, hpatch, h⟩ := exists_of_run_bind_eq_ok h
  obtain ⟨visible', seen, hvisibility, h⟩ := exists_of_run_bind_eq_ok h
  obtain ⟨⟨⟩, marked, hmark, h⟩ := exists_of_run_bind_eq_ok h
  obtain ⟨⟨⟩, answered, hanswer, h⟩ := exists_of_run_bind_eq_ok h
  cases h
  cases hmark
  obtain ⟨_, hpatched⟩ := patch_state setting _ hpatch
  obtain ⟨_, hseen⟩ := visibility_state setting _ hvisibility
  obtain ⟨failures, value, message, hanswered, hnone⟩ := answer_state setting _ hanswer
  refine ⟨replaced, patched, failures, value, message, hpatch, ?_, hnone⟩
  rw [hanswered]
  simp only [markVisibility, hseen, hpatched, Site.key]

/-! ## Rows -/

theorem addEntry_state (walk : Walk) (entry : String × Json) :
    ∃ values : KeyMap Json, (addEntry walk entry).state = { walk.state with values := values } ∧
      ∀ key value, walk.state.values.get? key = some value → values.get? key = some value := by
  unfold addEntry
  by_cases htaken : walk.state.values.contains entry.1 = true
  · rw [if_pos htaken]
    exact ⟨_, rfl, fun _ _ h => h⟩
  · rw [if_neg htaken]
    refine ⟨_, rfl, ?_⟩
    intro key value hvalue
    have hne : key ≠ entry.1 := by
      rintro rfl
      exact htaken (by simp [KeyMap.contains, hvalue])
    simpa [hne] using hvalue

theorem foldl_addEntry_state (entries : List (String × Json)) (walk : Walk) :
    ∃ values : KeyMap Json,
      (entries.foldl addEntry walk).state = { walk.state with values := values } ∧
      ∀ key value, walk.state.values.get? key = some value → values.get? key = some value := by
  induction entries generalizing walk with
  | nil => exact ⟨_, rfl, fun _ _ h => h⟩
  | cons entry entries ih =>
      obtain ⟨values, hstate, hkept⟩ := addEntry_state walk entry
      obtain ⟨values', hstate', hkept'⟩ := ih (addEntry walk entry)
      rw [hstate] at hstate' hkept'
      exact ⟨values', hstate', fun key value h => hkept' key value (hkept key value h)⟩

theorem expandRows_state (key : String) (count : Nat) (walk : Walk) :
    ∃ values : KeyMap Json,
      (expandRows key count walk).state = { walk.state with values := values } ∧
      ∀ key value, walk.state.values.get? key = some value → values.get? key = some value := by
  unfold expandRows
  split
  · exact foldl_addEntry_state _ walk
  · exact ⟨_, rfl, fun _ _ h => h⟩

/-! ## Containers -/

def scopesBelow (setting : WalkSetting) (scope : Option String) (id : String) (walk : Walk) :
    Container → List (Option String)
  | .repeating bounds =>
    let key := scopedKey scope id
    let count := repetitions setting.config.repetition bounds (walk.state.values.get? key)
    (List.range count).map fun index => some (rowScope key index)
  | _ => [scope]

def spread (setting : WalkSetting) (scope : Option String) (id : String) (walk : Walk) :
    Container → Walk
  | .repeating bounds =>
    let key := scopedKey scope id
    let count := repetitions setting.config.repetition bounds (walk.state.values.get? key)
    recordCount key count (expandRows key count walk)
  | _ => walk

theorem forRows_eq_forM (key : String) (inner : Option String → WalkM Unit) (count : Nat) :
    forRows key (fun row => inner (some row)) count =
      forM ((List.range count).map fun index => some (rowScope key index)) inner := by
  induction count with
  | zero => rfl
  | succ count ih =>
      rw [forRows, ih, List.range_succ, List.map_append, List.forM_append]
      simp

@[simp] theorem visitWithin_run (scope : Option String) (id : String) (kind : Container)
    (inner : Option String → WalkM Unit) (walk : Walk) :
    (visitWithin setting scope id kind inner).run walk =
      (forM (scopesBelow setting scope id walk kind) inner).run
        (spread setting scope id walk kind) := by
  cases kind with
  | repeating bounds =>
      simp only [scopesBelow, ← forRows_eq_forM]
      rfl
  | root steps => simp [visitWithin, scopesBelow, spread]
  | step => simp [visitWithin, scopesBelow, spread]
  | group => simp [visitWithin, scopesBelow, spread]

@[simp] theorem hideWithin_run (scope : Option String) (id : String) (kind : Container)
    (inner : Option String → WalkM Unit) (walk : Walk) :
    (hideWithin setting scope id kind inner).run walk =
      (forM (scopesBelow setting scope id walk kind) inner).run walk := by
  cases kind with
  | repeating bounds =>
      simp only [scopesBelow, ← forRows_eq_forM]
      rfl
  | root steps => simp [hideWithin, scopesBelow]
  | step => simp [hideWithin, scopesBelow]
  | group => simp [hideWithin, scopesBelow]

end Walk

/-! ## Derivations -/

namespace FormEngine

variable (engine : FormEngine) (tree : Element) (inputs globals : KeyMap Json)

theorem derive_of_prepare_error {error : ScriptError}
    (h : prepare (.fresh engine.host engine.config.script) globals.toList = .error error) :
    engine.derive tree inputs globals = .error ⟨tree.id, .prepare, .script error⟩ := by
  unfold derive
  rw [h]

theorem derive_of_visit_ok {scripts : ScriptEngine} {walk : Walk}
    (h : prepare (.fresh engine.host engine.config.script) globals.toList = .ok scripts)
    (hvisit : (Walk.visit ⟨engine.operators, engine.config⟩ none tree).run
      (.start scripts inputs) = .ok ((), walk)) :
    engine.derive tree inputs globals = .ok walk.state := by
  unfold derive
  rw [h]
  simp only [hvisit]

theorem derive_of_visit_error {scripts : ScriptEngine} {error : DerivationError}
    (h : prepare (.fresh engine.host engine.config.script) globals.toList = .ok scripts)
    (hvisit : (Walk.visit ⟨engine.operators, engine.config⟩ none tree).run
      (.start scripts inputs) = .error error) :
    engine.derive tree inputs globals = .error error := by
  unfold derive
  rw [h]
  simp only [hvisit]

theorem exists_visit_of_derive {state : FormState}
    (h : engine.derive tree inputs globals = .ok state) :
    ∃ scripts walk,
      prepare (.fresh engine.host engine.config.script) globals.toList = .ok scripts ∧
      (Walk.visit ⟨engine.operators, engine.config⟩ none tree).run (.start scripts inputs) =
        .ok ((), walk) ∧ walk.state = state := by
  cases hprepare : prepare (.fresh engine.host engine.config.script) globals.toList with
  | error error =>
      rw [derive_of_prepare_error engine tree inputs globals hprepare] at h
      cases h
  | ok scripts =>
      cases hvisit : (Walk.visit ⟨engine.operators, engine.config⟩ none tree).run
          (.start scripts inputs) with
      | error error =>
          rw [derive_of_visit_error engine tree inputs globals hprepare hvisit] at h
          cases h
      | ok result =>
          rw [derive_of_visit_ok engine tree inputs globals hprepare hvisit] at h
          cases h
          exact ⟨scripts, result.2, rfl, hvisit, rfl⟩

end FormEngine

end FormDerivation
