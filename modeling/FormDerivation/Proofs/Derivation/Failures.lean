import FormDerivation.Proofs.Derivation.Instances

/-!
# Failures that steps record

A step that fails where failures are tolerated leaves a failure with the key of its element and its
own name (`Walk.settle_adds`).  Entering an element therefore records failures under its key only,
and none of the computation if it has stored a value (`Walk.enter_outcome`).
-/

namespace FormDerivation

namespace Walk

def Adds (P : StepFailure → Prop) (walk walk' : Walk) : Prop :=
  ∃ added, walk'.state.failures = walk.state.failures ++ added ∧ ∀ failure ∈ added, P failure

namespace Adds

variable {P Q : StepFailure → Prop} {walk between walk' : Walk}

theorem of_eq (h : walk'.state.failures = walk.state.failures) : Adds P walk walk' :=
  ⟨[], by simpa using h, by simp⟩

theorem trans (h : Adds P walk between) (h' : Adds P between walk') : Adds P walk walk' := by
  obtain ⟨added, hfailures, hadded⟩ := h
  obtain ⟨added', hfailures', hadded'⟩ := h'
  refine ⟨added ++ added', ?_, ?_⟩
  · rw [hfailures', hfailures, List.append_assoc]
  · rw [List.forall_mem_append]
    exact ⟨hadded, hadded'⟩

theorem mono (h : Adds P walk walk') (himp : ∀ failure, P failure → Q failure) :
    Adds Q walk walk' := by
  obtain ⟨added, hfailures, hadded⟩ := h
  exact ⟨added, hfailures, fun failure hfailure => himp failure (hadded failure hfailure)⟩

end Adds

def FailureOf (site : Site) (step : DerivationStep) (failure : StepFailure) : Prop :=
  failure.key = site.key ∧ failure.step = step.name

def FailureElsewhere (site : Site) (failure : StepFailure) : Prop :=
  failure.key = site.key ∧ failure.step ≠ DerivationStep.compute.name

theorem FailureOf.elsewhere {site : Site} {step : DerivationStep} (hstep : step ≠ .compute) :
    ∀ failure, FailureOf site step failure → FailureElsewhere site failure := by
  rintro failure ⟨hkey, hname⟩
  refine ⟨hkey, ?_⟩
  rw [hname]
  cases step <;> first | contradiction | decide

variable (setting : WalkSetting) (site : Site)

/-! ## The steps of an element -/

theorem value_adds {P : StepFailure → Prop} {walk walk' : Walk} {e : Expression}
    {result : Except ExpressionError Json}
    (h : (value setting site e).run walk = .ok (result, walk')) : Adds P walk walk' :=
  .of_eq (by rw [value_state setting site h])

theorem recordFailure_adds (step : DerivationStep) (error : ExpressionError) (walk : Walk) :
    Adds (FailureOf site step) walk (recordFailure site step error walk) :=
  ⟨_, rfl, List.forall_mem_singleton.mpr ⟨rfl, rfl⟩⟩

/-- A step either succeeds, or it leaves a failure and the fallback. -/
theorem settle_outcome {α : Type} {step : DerivationStep} {result : Except ExpressionError α}
    {fallback a : α} {walk walk' : Walk}
    (h : (settle setting site step result fallback).run walk = .ok (a, walk')) :
    (result = .ok a ∧ walk' = walk) ∨
      (a = fallback ∧ ∃ error, walk' = recordFailure site step error walk) := by
  unfold settle at h
  cases result with
  | ok b =>
      cases h
      exact .inl ⟨rfl, rfl⟩
  | error cause =>
      cases hpolicy : setting.config.failurePolicy with
      | abort =>
          rw [hpolicy] at h
          cases h
      | degrade =>
          rw [hpolicy] at h
          cases h
          exact .inr ⟨rfl, cause, rfl⟩

theorem settle_adds {α : Type} {step : DerivationStep} {result : Except ExpressionError α}
    {fallback a : α} {walk walk' : Walk}
    (h : (settle setting site step result fallback).run walk = .ok (a, walk')) :
    Adds (FailureOf site step) walk walk' := by
  rcases settle_outcome setting site h with ⟨-, rfl⟩ | ⟨-, error, rfl⟩
  · exact .of_eq rfl
  · exact recordFailure_adds site step error walk

theorem patch_adds {e : Element} {replaced : Option Element} {walk walk' : Walk}
    (h : (patch setting site e).run walk = .ok (replaced, walk')) :
    Adds (FailureOf site .patch) walk walk' := by
  unfold patch at h
  split at h
  · cases h
    exact .of_eq rfl
  · obtain ⟨result, first, hvalue, h⟩ := exists_of_run_bind_eq_ok h
    obtain ⟨overlay, second, hsettle, h⟩ := exists_of_run_bind_eq_ok h
    have hadds := (value_adds setting site hvalue).trans (settle_adds setting site hsettle)
    split at h <;> cases h <;> exact hadds

theorem visibility_adds {e : Element} {visible : Bool} {walk walk' : Walk}
    (h : (visibility setting site e).run walk = .ok (visible, walk')) :
    Adds (FailureOf site .visibility) walk walk' := by
  unfold visibility at h
  split at h
  · cases h
    exact .of_eq rfl
  · obtain ⟨result, first, hvalue, h⟩ := exists_of_run_bind_eq_ok h
    exact (value_adds setting site hvalue).trans (settle_adds setting site h)

theorem compute_outcome {field : FieldTraits} {walk walk' : Walk}
    (h : (compute setting site field).run walk = .ok ((), walk')) :
    (walk'.state.values = walk.state.values ∧ Adds (FailureOf site .compute) walk walk') ∨
      (field.compute.isSome = true ∧ walk'.state.failures = walk.state.failures ∧
        ∃ v, walk'.state.values = walk.state.values.insert site.key v) := by
  unfold compute at h
  cases hcompute : field.compute with
  | none =>
      rw [hcompute] at h
      cases h
      exact .inl ⟨rfl, .of_eq rfl⟩
  | some expression =>
      rw [hcompute] at h
      obtain ⟨result, first, hvalue, h⟩ := exists_of_run_bind_eq_ok h
      obtain ⟨outcome, second, hsettle, h⟩ := exists_of_run_bind_eq_ok h
      have hfirst := value_state setting site hvalue
      cases outcome with
      | none =>
          cases h
          have hadds := (value_adds setting site hvalue).trans (settle_adds setting site hsettle)
          obtain ⟨failures, hstate⟩ := settle_state setting site hsettle
          refine .inl ⟨?_, hadds⟩
          rw [hstate, hfirst]
      | some v =>
          cases h
          rcases settle_outcome setting site hsettle with ⟨-, rfl⟩ | ⟨hnone, -⟩
          · refine .inr ⟨rfl, ?_, v, ?_⟩
            · simp only [setValue, hfirst]
            · simp only [setValue, hfirst]
          · cases hnone

theorem recordViolation_adds {P : StepFailure → Prop} {violation : Option Violation}
    {walk walk' : Walk} (h : (recordViolation site violation).run walk = .ok ((), walk')) :
    Adds P walk walk' := by
  cases violation <;> cases h <;> exact .of_eq rfl

theorem findViolation_adds {field : FieldTraits} {violation : Option Violation} {walk walk' : Walk}
    (h : (findViolation setting site field).run walk = .ok (violation, walk')) :
    Adds (FailureOf site .validate) walk walk' := by
  unfold findViolation at h
  obtain ⟨current, between, hget, h⟩ := exists_of_run_bind_eq_ok h
  cases hget
  split at h
  · cases h
    exact .of_eq rfl
  · obtain ⟨result, first, hvalue, h⟩ := exists_of_run_bind_eq_ok h
    have hadds := value_adds (P := FailureOf site .validate) setting site hvalue
    cases result with
    | ok value =>
        cases h
        exact hadds
    | error error =>
        cases h
        exact hadds.trans (recordFailure_adds site .validate error first)
  · cases h
    exact .of_eq rfl

theorem validate_adds {field : FieldTraits} {walk walk' : Walk}
    (h : (validate setting site field).run walk = .ok ((), walk')) :
    Adds (FailureOf site .validate) walk walk' := by
  rw [validate_eq] at h
  obtain ⟨violation, between, hfind, h⟩ := exists_of_run_bind_eq_ok h
  exact (findViolation_adds setting site hfind).trans (recordViolation_adds site h)

/-! ## Entering an element -/

theorem exists_steps_of_enter {scope : Option String} {e : Element} {visible : Bool}
    {walk entered : Walk} (h : (enter setting scope e).run walk = .ok (visible, entered)) :
    ∃ patched seen, Adds (FailureOf ⟨e.id, scope⟩ .patch) walk patched ∧
      (visibility setting ⟨e.id, scope⟩ (effectiveAt setting scope e walk)).run patched =
        .ok (visible, seen) ∧
      (answer setting ⟨e.id, scope⟩ visible (effectiveAt setting scope e walk)).run
        (markVisibility (scopedKey scope e.id) visible seen) = .ok ((), entered) ∧
      seen.state.values = walk.state.values ∧ seen.state.errors = walk.state.errors := by
  rw [enter_eq] at h
  obtain ⟨replaced, patched, hpatch, h⟩ := exists_of_run_bind_eq_ok h
  obtain ⟨visible', seen, hvisibility, h⟩ := exists_of_run_bind_eq_ok h
  obtain ⟨⟨⟩, marked, hmark, h⟩ := exists_of_run_bind_eq_ok h
  obtain ⟨⟨⟩, answered, hanswer, h⟩ := exists_of_run_bind_eq_ok h
  cases h
  cases hmark
  have heffective : effectiveAt setting scope e walk = replaced.getD e := by
    simp only [effectiveAt, hpatch]
  obtain ⟨_, hpatched⟩ := patch_state setting _ hpatch
  obtain ⟨_, hseen⟩ := visibility_state setting _ hvisibility
  rw [heffective]
  refine ⟨patched, seen, patch_adds setting _ hpatch, hvisibility, hanswer, ?_, ?_⟩
  · simp only [hseen, hpatched]
  · simp only [hseen, hpatched]

theorem enter_outcome {scope : Option String} {e : Element} {visible : Bool} {walk entered : Walk}
    (h : (enter setting scope e).run walk = .ok (visible, entered)) :
    (entered.state.values = walk.state.values ∧
        Adds (fun failure => failure.key = scopedKey scope e.id) walk entered) ∨
      (visible = true ∧ Adds (FailureElsewhere ⟨e.id, scope⟩) walk entered ∧
        (∃ attributes traits, effectiveAt setting scope e walk = .field attributes traits ∧
          traits.compute.isSome = true) ∧
        ∃ v, entered.state.values = walk.state.values.insert (scopedKey scope e.id) v) := by
  obtain ⟨patched, seen, hpatch, hvisibility, hanswer, hvalues, -⟩ := exists_steps_of_enter setting h
  have hseen := visibility_adds setting _ hvisibility
  have hmarked : Adds (FailureElsewhere ⟨e.id, scope⟩) walk
      (markVisibility (scopedKey scope e.id) visible seen) := by
    have hfirst := hpatch.mono (FailureOf.elsewhere (by decide))
    have hsecond := hseen.mono (FailureOf.elsewhere (by decide))
    exact (hfirst.trans hsecond).trans (.of_eq rfl)
  unfold answer at hanswer
  split at hanswer
  · next effective attributes field heffective =>
    obtain ⟨⟨⟩, computed, hcompute, hvalidate⟩ := exists_of_run_bind_eq_ok hanswer
    have hvalidated := (validate_adds setting _ hvalidate).mono (FailureOf.elsewhere (by decide))
    obtain ⟨_, _, hstate⟩ := validate_state setting _ hvalidate
    rcases compute_outcome setting _ hcompute with ⟨hkept, hadds⟩ | ⟨hsome, hfailures, v, hset⟩
    · refine .inl ⟨?_, ?_⟩
      · rw [hstate]
        exact hkept.trans hvalues
      · have hcomputed := (hmarked.mono fun _ h => h.1).trans (hadds.mono fun _ h => h.1)
        exact hcomputed.trans (hvalidated.mono fun _ h => h.1)
    · refine .inr ⟨rfl, ?_, ⟨attributes, field, heffective, hsome⟩, v, ?_⟩
      · exact (hmarked.trans (.of_eq hfailures)).trans hvalidated
      · rw [hstate]
        exact hset.trans (by rw [← hvalues]; rfl)
  · cases hanswer
    exact .inl ⟨hvalues, hmarked.mono fun _ h => h.1⟩

end Walk

end FormDerivation
