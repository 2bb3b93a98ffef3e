import FormDerivation.Proofs.Derivation.Steps

/-!
# Stopping at failures and going on after them

Two derivations that differ only in their failure policy run in lockstep up to the first failure
that is not contained.  `Walk.Tolerates` is the relation between a part of the one walk and the
same part of the other; it holds of every step and is kept when parts are put one after the other,
hence of the visit of any tree.
-/

namespace FormDerivation

def WalkSetting.withPolicy (setting : WalkSetting) (policy : FailurePolicy) : WalkSetting :=
  { setting with config := { setting.config with failurePolicy := policy } }

def FormEngine.withPolicy (engine : FormEngine) (policy : FailurePolicy) : FormEngine :=
  { engine with config := { engine.config with failurePolicy := policy } }

def DerivationError.asFailure (error : DerivationError) : StepFailure :=
  ⟨error.key, error.step.name, error.cause.message⟩

def StepFailure.isContained (failure : StepFailure) : Bool :=
  failure.step == DerivationStep.validate.name

theorem DerivationError.asFailure_isContained {error : DerivationError}
    (h : error.step ≠ .validate) : error.asFailure.isContained = false := by
  cases hstep : error.step <;>
    simp_all [asFailure, StepFailure.isContained, DerivationStep.name]

namespace Walk

/-! ## Failures that a part of a walk adds -/

def AddsContained (walk walk' : Walk) : Prop :=
  ∃ added : List StepFailure, walk'.state.failures = walk.state.failures ++ added ∧
    ∀ failure ∈ added, failure.isContained = true

/-- The first failure that a walk adds to those of an earlier one and that is not contained is
that of an error. -/
def AddsError (error : DerivationError) (walk walk' : Walk) : Prop :=
  ∃ added rest : List StepFailure,
    walk'.state.failures = walk.state.failures ++ added ++ error.asFailure :: rest ∧
      ∀ failure ∈ added, failure.isContained = true

theorem AddsContained.of_failures_eq {walk walk' : Walk}
    (h : walk'.state.failures = walk.state.failures) : AddsContained walk walk' :=
  ⟨[], by simpa using h, by simp⟩

theorem AddsContained.trans {first second third : Walk} (h : AddsContained first second)
    (h' : AddsContained second third) : AddsContained first third := by
  obtain ⟨added, heq, hadded⟩ := h
  obtain ⟨added', heq', hadded'⟩ := h'
  refine ⟨added ++ added', by rw [heq', heq, List.append_assoc], ?_⟩
  intro failure hmem
  rcases List.mem_append.mp hmem with hmem | hmem
  · exact hadded failure hmem
  · exact hadded' failure hmem

theorem AddsContained.trans_error {first second third : Walk} {error : DerivationError}
    (h : AddsContained first second) (h' : AddsError error second third) :
    AddsError error first third := by
  obtain ⟨added, heq, hadded⟩ := h
  obtain ⟨added', rest, heq', hadded'⟩ := h'
  refine ⟨added ++ added', rest, by simp [heq', heq], ?_⟩
  intro failure hmem
  rcases List.mem_append.mp hmem with hmem | hmem
  · exact hadded failure hmem
  · exact hadded' failure hmem

theorem AddsError.append {first second third : Walk} {error : DerivationError}
    {more : List StepFailure} (h : AddsError error first second)
    (h' : third.state.failures = second.state.failures ++ more) :
    AddsError error first third := by
  obtain ⟨added, rest, heq, hadded⟩ := h
  exact ⟨added, rest ++ more, by simp [h', heq], hadded⟩

/-! ## Lockstep -/

/--
A part of a walk that stops at failures, and the same part where they are tolerated: without a
failure both end in the same walk, and otherwise the second one goes on and lists that failure.
-/
structure Tolerates {α : Type} (strict lenient : WalkM α) : Prop where
  ok : ∀ {walk a walk'}, strict.run walk = .ok (a, walk') →
    lenient.run walk = .ok (a, walk') ∧ AddsContained walk walk'
  error : ∀ {walk error}, strict.run walk = .error error →
    error.step ≠ .prepare ∧ error.step ≠ .validate ∧
      ∃ a walk', lenient.run walk = .ok (a, walk') ∧ AddsError error walk walk'

namespace Tolerates

variable {α β : Type} {strict lenient : WalkM α} {next next' : α → WalkM β}

/-- Where failures are tolerated, nothing stops and no failure is forgotten. -/
theorem total (h : Tolerates strict lenient) (walk : Walk) :
    ∃ a walk' added, lenient.run walk = .ok (a, walk') ∧
      walk'.state.failures = walk.state.failures ++ added := by
  cases hrun : strict.run walk with
  | ok result =>
      obtain ⟨hlenient, added, hadded, -⟩ := h.ok hrun
      exact ⟨_, _, added, hlenient, hadded⟩
  | error error =>
      obtain ⟨-, -, a, walk', hlenient, added, rest, hadded, -⟩ := h.error hrun
      exact ⟨a, walk', added ++ error.asFailure :: rest, hlenient, by simp [hadded]⟩

theorem bind (h : Tolerates strict lenient) (hnext : ∀ a, Tolerates (next a) (next' a)) :
    Tolerates (strict >>= next) (lenient >>= next') where
  ok := by
    intro walk b last hrun
    obtain ⟨a, between, hfirst, hsecond⟩ := exists_of_run_bind_eq_ok hrun
    obtain ⟨hlenient, hadds⟩ := h.ok hfirst
    obtain ⟨hlenient', hadds'⟩ := (hnext a).ok hsecond
    rw [run_bind_of_ok hlenient]
    exact ⟨hlenient', hadds.trans hadds'⟩
  error := by
    intro walk error hrun
    cases hfirst : strict.run walk with
    | error cause =>
        rw [run_bind_of_error hfirst] at hrun
        cases hrun
        obtain ⟨hprepare, hvalidate, a, between, hlenient, hadds⟩ := h.error hfirst
        -- The second part is not reached on the strict side, so all that is known of it on the
        -- other one is that it ends.
        obtain ⟨b, last, more, hlast, hmore⟩ := (hnext a).total between
        rw [run_bind_of_ok hlenient]
        exact ⟨hprepare, hvalidate, b, last, hlast, hadds.append hmore⟩
    | ok result =>
        rw [run_bind_of_ok hfirst] at hrun
        obtain ⟨hlenient, hadds⟩ := h.ok hfirst
        obtain ⟨hprepare, hvalidate, b, last, hlast, hadds'⟩ := (hnext _).error hrun
        rw [run_bind_of_ok hlenient]
        exact ⟨hprepare, hvalidate, b, last, hlast, hadds.trans_error hadds'⟩

/-- A part that never stops and only adds contained failures is the same under both policies. -/
theorem of_contained {part : WalkM α}
    (h : ∀ walk, ∃ a walk', part.run walk = .ok (a, walk') ∧ AddsContained walk walk') :
    Tolerates part part where
  ok := by
    intro walk a walk' hrun
    obtain ⟨b, last, hlast, hadds⟩ := h walk
    rw [hrun] at hlast
    cases hlast
    exact ⟨hrun, hadds⟩
  error := by
    intro walk error hrun
    obtain ⟨b, last, hlast, -⟩ := h walk
    rw [hrun] at hlast
    cases hlast

theorem pure (a : α) : Tolerates (pure a : WalkM α) (pure a) :=
  of_contained fun walk => ⟨a, walk, rfl, .of_failures_eq rfl⟩

theorem get : Tolerates (get : WalkM Walk) get :=
  of_contained fun walk => ⟨walk, walk, rfl, .of_failures_eq rfl⟩

theorem modify (change : Walk → Walk)
    (h : ∀ walk, (change walk).state.failures = walk.state.failures) :
    Tolerates (modify change) (modify change) :=
  of_contained fun walk => ⟨(), change walk, rfl, .of_failures_eq (h walk)⟩

theorem forM {act act' : α → WalkM Unit} (h : ∀ a, Tolerates (act a) (act' a)) (items : List α) :
    Tolerates (forM items act) (forM items act') := by
  induction items with
  | nil => exact .pure ()
  | cons item items ih =>
      rw [List.forM_cons, List.forM_cons]
      exact (h item).bind fun _ => ih

end Tolerates

/-! ## The steps of an element -/

section Steps

variable (setting : WalkSetting) (site : Site)

@[simp] theorem evaluate_withPolicy (policy : FailurePolicy) (walk : Walk) (e : Expression) :
    walk.evaluate (setting.withPolicy policy) site e = walk.evaluate setting site e := by
  cases e <;> rfl

theorem value_tolerates (e : Expression) :
    Tolerates (value (setting.withPolicy .abort) site e)
      (value (setting.withPolicy .degrade) site e) := by
  have hsame : ∀ policy, value (setting.withPolicy policy) site e = value setting site e := by
    intro policy
    funext walk
    exact congrArg Except.ok (evaluate_withPolicy setting site policy walk e)
  rw [hsame, hsame]
  refine .of_contained fun walk => ⟨_, _, value_run setting site e walk, ?_⟩
  exact .of_failures_eq (congrArg FormState.failures (evaluate_state setting site walk e))

theorem settle_tolerates {α : Type} {step : DerivationStep} (hprepare : step ≠ .prepare)
    (hvalidate : step ≠ .validate) (result : Except ExpressionError α) (fallback : α) :
    Tolerates (settle (setting.withPolicy .abort) site step result fallback)
      (settle (setting.withPolicy .degrade) site step result fallback) := by
  cases result with
  | ok a => exact .pure a
  | error cause =>
      constructor
      · intro walk a walk' h
        cases h
      · intro walk error h
        cases h
        refine ⟨hprepare, hvalidate, fallback, recordFailure site step cause walk, rfl, ?_⟩
        exact ⟨[], [], by simp [recordFailure, DerivationError.asFailure], by simp⟩

theorem patch_tolerates (e : Element) :
    Tolerates (patch (setting.withPolicy .abort) site e)
      (patch (setting.withPolicy .degrade) site e) := by
  unfold patch
  cases e.attributes.patch with
  | none => exact .pure none
  | some expression =>
      refine (value_tolerates setting site expression).bind fun result => ?_
      refine (settle_tolerates setting site (by decide) (by decide) result .null).bind
        fun overlay => ?_
      cases overlay.object? with
      | none => exact .pure none
      | some members =>
          exact (Tolerates.modify (recordOverride site.key _) fun _ => rfl).bind
            fun _ => .pure _

theorem visibility_tolerates (e : Element) :
    Tolerates (visibility (setting.withPolicy .abort) site e)
      (visibility (setting.withPolicy .degrade) site e) := by
  unfold visibility
  cases e.attributes.visibility with
  | none => exact .pure true
  | some expression =>
      refine (value_tolerates setting site expression).bind fun result => ?_
      exact settle_tolerates setting site (by decide) (by decide) _ false

theorem compute_tolerates (field : FieldTraits) :
    Tolerates (compute (setting.withPolicy .abort) site field)
      (compute (setting.withPolicy .degrade) site field) := by
  unfold compute
  cases field.compute with
  | none => exact .pure ()
  | some expression =>
      refine (value_tolerates setting site expression).bind fun result => ?_
      refine (settle_tolerates setting site (by decide) (by decide) _ none).bind
        fun value => ?_
      cases value with
      | none => exact .pure ()
      | some value => exact .modify _ fun _ => rfl

theorem violation?_tolerates (field : FieldTraits) (e : Expression) :
    Tolerates (violation? (setting.withPolicy .abort) site field e)
      (violation? (setting.withPolicy .degrade) site field e) := by
  unfold violation?
  refine (value_tolerates setting site e).bind fun result => ?_
  cases result with
  | ok result => exact .pure _
  | error error =>
      refine (Tolerates.of_contained fun walk => ?_).bind fun _ => .pure _
      refine ⟨(), recordFailure site .validate error walk, rfl, _, rfl, ?_⟩
      simp [StepFailure.isContained]

theorem validate_tolerates (field : FieldTraits) :
    Tolerates (validate (setting.withPolicy .abort) site field)
      (validate (setting.withPolicy .degrade) site field) := by
  rw [validate_eq, validate_eq]
  refine Tolerates.bind ?_ fun violation => ?_
  · unfold findViolation
    refine Tolerates.get.bind fun walk => ?_
    cases field.check (walk.state.values.get? site.key) with
    | some violation => exact .pure _
    | none =>
        cases field.validation with
        | none => exact .pure _
        | some e => exact violation?_tolerates setting site field e
  · cases violation with
    | none => exact .pure ()
    | some violation => exact .modify _ fun _ => rfl

theorem answer_tolerates (visible : Bool) (effective : Element) :
    Tolerates (answer (setting.withPolicy .abort) site visible effective)
      (answer (setting.withPolicy .degrade) site visible effective) := by
  cases visible with
  | false => exact .pure ()
  | true =>
      cases effective with
      | field attributes traits =>
          exact (compute_tolerates setting site traits).bind fun _ =>
            validate_tolerates setting site traits
      | container attributes kind children => exact .pure ()
      | content attributes text => exact .pure ()

theorem enter_tolerates (scope : Option String) (e : Element) :
    Tolerates (enter (setting.withPolicy .abort) scope e)
      (enter (setting.withPolicy .degrade) scope e) := by
  rw [enter_eq, enter_eq]
  refine (patch_tolerates setting _ e).bind fun replaced => ?_
  refine (visibility_tolerates setting _ _).bind fun visible => ?_
  refine (Tolerates.modify (markVisibility _ visible) fun _ => rfl).bind fun _ => ?_
  exact (answer_tolerates setting _ visible _).bind fun _ => .pure visible

end Steps

/-! ## The walk -/

section Visit

variable (setting : WalkSetting)

theorem countAt_tolerates (bounds : RepetitionBounds) (key : String) :
    Tolerates (countAt (setting.withPolicy .abort) bounds key)
      (countAt (setting.withPolicy .degrade) bounds key) :=
  Tolerates.get.bind fun _ => .pure _

@[simp] theorem expandRows_failures (key : String) (count : Nat) (walk : Walk) :
    (expandRows key count walk).state.failures = walk.state.failures := by
  obtain ⟨values, hstate, -⟩ := expandRows_state key count walk
  rw [hstate]

variable {inner inner' : Option String → WalkM Unit}

theorem hideWithin_tolerates (h : ∀ scope, Tolerates (inner scope) (inner' scope))
    (scope : Option String) (id : String) (kind : Container) :
    Tolerates (hideWithin (setting.withPolicy .abort) scope id kind inner)
      (hideWithin (setting.withPolicy .degrade) scope id kind inner') := by
  cases kind with
  | repeating bounds =>
      refine (countAt_tolerates setting bounds (scopedKey scope id)).bind fun count => ?_
      rw [forRows_eq_forM, forRows_eq_forM]
      exact .forM h _
  | root steps => exact h scope
  | step => exact h scope
  | group => exact h scope

theorem visitWithin_tolerates (h : ∀ scope, Tolerates (inner scope) (inner' scope))
    (scope : Option String) (id : String) (kind : Container) :
    Tolerates (visitWithin (setting.withPolicy .abort) scope id kind inner)
      (visitWithin (setting.withPolicy .degrade) scope id kind inner') := by
  cases kind with
  | repeating bounds =>
      refine (countAt_tolerates setting bounds (scopedKey scope id)).bind fun count => ?_
      refine (Tolerates.modify _ (expandRows_failures (scopedKey scope id) count)).bind
        fun _ => ?_
      refine (Tolerates.modify (recordCount _ count) fun _ => rfl).bind fun _ => ?_
      rw [forRows_eq_forM, forRows_eq_forM]
      exact .forM h _
  | root steps => exact h scope
  | step => exact h scope
  | group => exact h scope

mutual

theorem hide_tolerates (scope : Option String) : (e : Element) →
    Tolerates (hide (setting.withPolicy .abort) scope e)
      (hide (setting.withPolicy .degrade) scope e)
  | .container attributes kind children => by
      rw [hide, hide]
      refine (Tolerates.modify (markVisibility _ false) fun _ => rfl).bind fun _ => ?_
      exact hideWithin_tolerates setting (fun scope => hideAll_tolerates scope children)
        scope attributes.id kind
  | .field attributes traits => by
      rw [hide, hide]
      exact .modify _ fun _ => rfl
  | .content attributes text => by
      rw [hide, hide]
      exact .modify _ fun _ => rfl

theorem hideAll_tolerates (scope : Option String) : (es : List Element) →
    Tolerates (hideAll (setting.withPolicy .abort) scope es)
      (hideAll (setting.withPolicy .degrade) scope es)
  | [] => .pure ()
  | e :: rest => by
      rw [hideAll, hideAll]
      exact (hide_tolerates scope e).bind fun _ => hideAll_tolerates scope rest

end

mutual

theorem visit_tolerates (scope : Option String) : (e : Element) →
    Tolerates (visit (setting.withPolicy .abort) scope e)
      (visit (setting.withPolicy .degrade) scope e)
  | .container attributes kind children => by
      rw [visit, visit]
      refine (enter_tolerates setting scope _).bind fun visible => ?_
      cases visible with
      | true =>
          exact visitWithin_tolerates setting (fun scope => visitAll_tolerates scope children)
            scope attributes.id kind
      | false =>
          exact hideWithin_tolerates setting
            (fun scope => hideAll_tolerates setting scope children) scope attributes.id kind
  | .field attributes traits => by
      rw [visit, visit]
      exact (enter_tolerates setting scope _).bind fun _ => .pure ()
  | .content attributes text => by
      rw [visit, visit]
      exact (enter_tolerates setting scope _).bind fun _ => .pure ()

theorem visitAll_tolerates (scope : Option String) : (es : List Element) →
    Tolerates (visitAll (setting.withPolicy .abort) scope es)
      (visitAll (setting.withPolicy .degrade) scope es)
  | [] => .pure ()
  | e :: rest => by
      rw [visitAll, visitAll]
      exact (visit_tolerates scope e).bind fun _ => visitAll_tolerates scope rest

end

end Visit

end Walk

/-! ## Derivations -/

namespace FormEngine

section Cases

variable (engine : FormEngine) (tree : Element) (inputs globals : KeyMap Json)

/--
The three ways in which a derivation under the two policies can go: both fail at the globals, both
end in one state in which only validations have failed, or one stops at a failure and the other
goes on after it.
-/
theorem derive_cases :
    (∃ error, error.step = .prepare ∧
      (engine.withPolicy .abort).derive tree inputs globals = .error error ∧
      (engine.withPolicy .degrade).derive tree inputs globals = .error error) ∨
    (∃ state, (∀ failure ∈ state.failures, failure.isContained = true) ∧
      (engine.withPolicy .abort).derive tree inputs globals = .ok state ∧
      (engine.withPolicy .degrade).derive tree inputs globals = .ok state) ∨
    (∃ error state, error.step ≠ .prepare ∧ error.step ≠ .validate ∧
      (engine.withPolicy .abort).derive tree inputs globals = .error error ∧
      (engine.withPolicy .degrade).derive tree inputs globals = .ok state ∧
      ∃ contained rest, state.failures = contained ++ error.asFailure :: rest ∧
        ∀ failure ∈ contained, failure.isContained = true) := by
  cases hprepare : prepare (.fresh engine.host engine.config.script) globals.toList with
  | error cause =>
      left
      refine ⟨⟨tree.id, .prepare, .script cause⟩, rfl, ?_, ?_⟩
      · exact derive_of_prepare_error (engine.withPolicy .abort) tree inputs globals hprepare
      · exact derive_of_prepare_error (engine.withPolicy .degrade) tree inputs globals hprepare
  | ok scripts =>
      right
      have htolerates := Walk.visit_tolerates ⟨engine.operators, engine.config⟩ none tree
      cases hvisit : (Walk.visit
          (WalkSetting.withPolicy ⟨engine.operators, engine.config⟩ .abort) none tree).run
          (.start scripts inputs) with
      | ok result =>
          left
          obtain ⟨hlenient, added, hadded, hcontained⟩ := htolerates.ok hvisit
          refine ⟨result.2.state, ?_, ?_, ?_⟩
          · rw [hadded]
            simpa [Walk.start, FormState.ofInputs] using hcontained
          · exact derive_of_visit_ok (engine.withPolicy .abort) tree inputs globals hprepare hvisit
          · exact derive_of_visit_ok (engine.withPolicy .degrade) tree inputs globals hprepare
              hlenient
      | error error =>
          right
          obtain ⟨hne, hne', _, walk, hlenient, contained, rest, hadded, hcontained⟩ :=
            htolerates.error hvisit
          refine ⟨error, walk.state, hne, hne', ?_, ?_, contained, rest, ?_, hcontained⟩
          · exact derive_of_visit_error (engine.withPolicy .abort) tree inputs globals hprepare
              hvisit
          · exact derive_of_visit_ok (engine.withPolicy .degrade) tree inputs globals hprepare
              hlenient
          · rw [hadded]
            simp [Walk.start, FormState.ofInputs]

end Cases

theorem find?_first_error {error : StepFailure} {contained rest : List StepFailure}
    (h : error.isContained = false)
    (hcontained : ∀ failure ∈ contained, failure.isContained = true) :
    (contained ++ error :: rest).find? (fun failure => failure.step != "validate") =
      some error := by
  have hnone : contained.find? (fun failure => failure.step != "validate") = none := by
    rw [List.find?_eq_none]
    intro failure hmem
    simpa [StepFailure.isContained, DerivationStep.name] using hcontained failure hmem
  have herror : (error.step != "validate") = true := by
    simpa [StepFailure.isContained, DerivationStep.name] using h
  rw [List.find?_append, hnone, List.find?_cons, herror]
  rfl

/--
How derivations that stop at failures and those that tolerate them differ.  They fail at globals
together, and a tolerating one fails at nothing else.  Without a failure other than one of a
validation, both end in the same state.  The failure at which the one stops is the first such
failure in the list of the other.
-/
theorem derive_abort_degrade (engine : FormEngine) (tree : Element)
    (inputs globals : KeyMap Json) :
    let strict := (engine.withPolicy .abort).derive tree inputs globals
    let lenient := (engine.withPolicy .degrade).derive tree inputs globals
    (∀ error, error.step = .prepare → (strict = .error error ↔ lenient = .error error)) ∧
    (∀ state, strict = .ok state → lenient = .ok state) ∧
    (∀ error, strict = .error error → error.step ≠ .prepare →
      ∃ state, lenient = .ok state ∧
        state.failures.find? (fun failure => failure.step != "validate") =
          some ⟨error.key, error.step.name, error.cause.message⟩) ∧
    (∀ state, lenient = .ok state →
      (∀ failure ∈ state.failures, failure.step = "validate") → strict = .ok state) ∧
    (∀ error, lenient = .error error → error.step = .prepare) := by
  intro strict lenient
  rcases derive_cases engine tree inputs globals with
    ⟨cause, hstep, hstrict, hlenient⟩ | ⟨final, hcontained, hstrict, hlenient⟩ |
      ⟨cause, final, hne, hne', hstrict, hlenient, contained, rest, hfailures, hcontained⟩
  · simp only [strict, lenient, hstrict, hlenient]
    refine ⟨fun _ _ => trivial, ?_, ?_, ?_, ?_⟩
    · intro state h
      cases h
    · intro error h hprepare
      cases h
      exact absurd hstep hprepare
    · intro state h
      cases h
    · intro error h
      cases h
      exact hstep
  · simp only [strict, lenient, hstrict, hlenient]
    refine ⟨fun _ _ => trivial, fun _ h => h, ?_, fun _ h _ => h, ?_⟩
    · intro error h
      cases h
    · intro error h
      cases h
  · simp only [strict, lenient, hstrict, hlenient]
    have hmarked := DerivationError.asFailure_isContained hne'
    refine ⟨?_, ?_, ?_, ?_, ?_⟩
    · intro error hprepare
      constructor
      · intro h
        cases h
        exact absurd hprepare hne
      · intro h
        cases h
    · intro state h
      cases h
    · intro error h _
      cases h
      refine ⟨final, rfl, ?_⟩
      rw [hfailures]
      exact find?_first_error hmarked hcontained
    · intro state h hall
      cases h
      have hmem : cause.asFailure ∈ final.failures := by simp [hfailures]
      have hcontained' : cause.asFailure.isContained = true := by
        simp [StepFailure.isContained, DerivationStep.name, hall _ hmem]
      rw [hmarked] at hcontained'
      cases hcontained'
    · intro error h
      cases h

theorem derive_abort_degrade_unknown_operator :
    let engine : FormEngine := ⟨.empty, .empty, {}⟩
    let broken : Expression := .formula (.apply "logic.nand" [])
    let tree : Element := .container ⟨"broken", "", none, some broken, none⟩ .group []
    ∃ state, (engine.withPolicy .degrade).derive tree .empty .empty = .ok state ∧
      state.failures.find? (fun failure => failure.step != "validate") =
        some ⟨"broken", "visibility", "unknown operator 'logic.nand'"⟩ := by
  intro engine broken tree
  exact (derive_abort_degrade engine tree .empty .empty).2.2.1
    ⟨"broken", .visibility, .formula (.unknownOperator "logic.nand")⟩ rfl (by decide)

end FormEngine

end FormDerivation
