import FormDerivation.Proofs.Derivation.Values
import FormDerivation.Proofs.Derivation.Visibility

/-!
# What stands in for failed steps

Every step of an element fails at most once, and it leaves its fallback when it does
(`Walk.Own.fallbacks`).  Below a hidden element no step is taken, so what is around an element with
a failure is visible (`Walk.visit_shown`).  Where keys are distinct all of this can be read off the
state (`FormEngine.derive_fallbacks`).
-/

namespace FormDerivation

def StepFailure.occasion (failure : StepFailure) : String × String :=
  (failure.key, failure.step)

namespace Walk

/--
The failures recorded on the way from one walk to another all satisfy a condition, and no two of
them are of the same step under the same key.
-/
def AddsDistinct (P : StepFailure → Prop) (walk walk' : Walk) : Prop :=
  ∃ added, walk'.state.failures = walk.state.failures ++ added ∧
    (added.map StepFailure.occasion).Nodup ∧ ∀ failure ∈ added, P failure

namespace AddsDistinct

variable {P Q : StepFailure → Prop} {walk between walk' : Walk}

theorem of_eq (h : walk'.state.failures = walk.state.failures) : AddsDistinct P walk walk' :=
  ⟨[], by simpa using h, List.nodup_nil, by simp⟩

theorem of_recordFailure {site : Site} {step : DerivationStep} {error : ExpressionError}
    (h : P ⟨site.key, step.name, error.message⟩) :
    AddsDistinct P walk (recordFailure site step error walk) :=
  ⟨_, rfl, by simp, List.forall_mem_singleton.mpr h⟩

theorem mono (h : AddsDistinct P walk walk') (himp : ∀ failure, P failure → Q failure) :
    AddsDistinct Q walk walk' := by
  obtain ⟨added, hfailures, hdistinct, hadded⟩ := h
  exact ⟨added, hfailures, hdistinct, fun failure hfailure => himp failure (hadded failure hfailure)⟩

theorem from_eq (h : AddsDistinct P between walk') (hstart : between.state = walk.state) :
    AddsDistinct P walk walk' := by
  rwa [AddsDistinct, hstart] at h

theorem trans (h : AddsDistinct P walk between) (h' : AddsDistinct Q between walk')
    (hapart : ∀ failure failure', P failure → Q failure' → failure.occasion ≠ failure'.occasion) :
    AddsDistinct (fun failure => P failure ∨ Q failure) walk walk' := by
  obtain ⟨added, hfailures, hdistinct, hadded⟩ := h
  obtain ⟨added', hfailures', hdistinct', hadded'⟩ := h'
  refine ⟨added ++ added', by rw [hfailures', hfailures, List.append_assoc], ?_, ?_⟩
  · rw [List.map_append, List.nodup_append]
    refine ⟨hdistinct, hdistinct', ?_⟩
    intro occasion hmem occasion' hmem'
    obtain ⟨failure, hfailure, rfl⟩ := List.mem_map.mp hmem
    obtain ⟨failure', hfailure', rfl⟩ := List.mem_map.mp hmem'
    exact hapart failure failure' (hadded failure hfailure) (hadded' failure' hfailure')
  · intro failure hfailure
    rcases List.mem_append.mp hfailure with hfailure | hfailure
    · exact .inl (hadded failure hfailure)
    · exact .inr (hadded' failure hfailure)

end AddsDistinct

theorem FailureOf.apart {site : Site} {step step' : DerivationStep} (hstep : step ≠ step')
    {failure failure' : StepFailure} (h : FailureOf site step failure)
    (h' : FailureOf site step' failure') : failure.occasion ≠ failure'.occasion := by
  intro heq
  have hname : step.name = step'.name := by rw [← h.2, ← h'.2, (Prod.mk.inj heq).2]
  revert hname
  cases step <;> cases step' <;> first | contradiction | decide

variable (setting : WalkSetting) (site : Site)

/-! ## The steps of an element -/

theorem settle_fallback {α : Type} {step : DerivationStep} {result : Except ExpressionError α}
    {fallback a : α} {walk walk' : Walk}
    (h : (settle setting site step result fallback).run walk = .ok (a, walk')) :
    AddsDistinct (fun failure => FailureOf site step failure ∧ a = fallback ∧
      setting.config.failurePolicy = .degrade) walk walk' := by
  unfold settle at h
  cases result with
  | ok b =>
      cases h
      exact .of_eq rfl
  | error cause =>
      cases hpolicy : setting.config.failurePolicy with
      | abort =>
          rw [hpolicy] at h
          cases h
      | degrade =>
          rw [hpolicy] at h
          cases h
          exact .of_recordFailure ⟨⟨rfl, rfl⟩, rfl, rfl⟩

theorem patch_fallback {e : Element} {replaced : Option Element} {walk walk' : Walk}
    (h : (patch setting site e).run walk = .ok (replaced, walk')) :
    AddsDistinct (fun failure => FailureOf site .patch failure ∧ replaced = none ∧
      setting.config.failurePolicy = .degrade) walk walk' := by
  unfold patch at h
  split at h
  · cases h
    exact .of_eq rfl
  · obtain ⟨result, first, hvalue, h⟩ := exists_of_run_bind_eq_ok h
    obtain ⟨overlay, second, hsettle, h⟩ := exists_of_run_bind_eq_ok h
    have hadds := (settle_fallback setting site hsettle).from_eq (value_state setting site hvalue)
    split at h
    · cases h
      exact hadds.mono fun _ hfailure => ⟨hfailure.1, rfl, hfailure.2.2⟩
    · next overlay hobject =>
      cases h
      -- An overlay is an object, so it is not what stands in for a failed patch.
      have hnone : AddsDistinct (fun _ => False) walk second := by
        refine hadds.mono ?_
        rintro failure ⟨-, rfl, -⟩
        cases hobject
      exact hnone.mono fun _ => False.elim

theorem visibility_fallback {e : Element} {visible : Bool} {walk walk' : Walk}
    (h : (visibility setting site e).run walk = .ok (visible, walk')) :
    AddsDistinct (fun failure => FailureOf site .visibility failure ∧ visible = false ∧
      setting.config.failurePolicy = .degrade) walk walk' := by
  unfold visibility at h
  split at h
  · cases h
    exact .of_eq rfl
  · obtain ⟨result, first, hvalue, h⟩ := exists_of_run_bind_eq_ok h
    exact (settle_fallback setting site h).from_eq (value_state setting site hvalue)

theorem compute_fallback {field : FieldTraits} {walk walk' : Walk}
    (h : (compute setting site field).run walk = .ok ((), walk')) :
    AddsDistinct (fun failure => FailureOf site .compute failure ∧
      setting.config.failurePolicy = .degrade) walk walk' := by
  unfold compute at h
  split at h
  · cases h
    exact .of_eq rfl
  · obtain ⟨result, first, hvalue, h⟩ := exists_of_run_bind_eq_ok h
    obtain ⟨outcome, second, hsettle, h⟩ := exists_of_run_bind_eq_ok h
    have hsettled := (settle_fallback setting site hsettle).mono fun _ h => And.intro h.1 h.2.2
    have hadds := hsettled.from_eq (value_state setting site hvalue)
    split at h <;> cases h <;> exact hadds

theorem validate_fallback {field : FieldTraits} {walk walk' : Walk}
    (h : (validate setting site field).run walk = .ok ((), walk')) :
    AddsDistinct (fun failure => FailureOf site .validate failure ∧
      walk'.state.errors.get? site.key = some (Violation.notEvaluated failure.message).message)
      walk walk' := by
  rw [validate_eq] at h
  obtain ⟨violation, between, hfind, h⟩ := exists_of_run_bind_eq_ok h
  have hfound : AddsDistinct (fun failure => FailureOf site .validate failure ∧
      violation = some (.notEvaluated failure.message)) walk between := by
    unfold findViolation at hfind
    rw [run_get_bind] at hfind
    split at hfind
    · cases hfind
      exact .of_eq rfl
    · obtain ⟨result, first, hvalue, hfind⟩ := exists_of_run_bind_eq_ok hfind
      refine AddsDistinct.from_eq ?_ (value_state setting site hvalue)
      cases result with
      | ok value =>
          cases hfind
          exact .of_eq rfl
      | error error =>
          cases hfind
          exact .of_recordFailure ⟨⟨rfl, rfl⟩, rfl⟩
    · cases hfind
      exact .of_eq rfl
  cases violation with
  | none =>
      cases h
      exact hfound.mono fun _ hfailure => ⟨hfailure.1, by cases hfailure.2⟩
  | some violation =>
      cases h
      refine hfound.mono fun failure hfailure => ⟨hfailure.1, ?_⟩
      rw [← Option.some.inj hfailure.2]
      exact KeyMap.get?_insert_self _ _ _

theorem answer_fallbacks {visible : Bool} {effective : Element} {walk walk' : Walk}
    (h : (answer setting site visible effective).run walk = .ok ((), walk')) :
    AddsDistinct (fun failure =>
      (FailureOf site .compute failure ∧ setting.config.failurePolicy = .degrade) ∨
      (FailureOf site .validate failure ∧
        walk'.state.errors.get? site.key = some (Violation.notEvaluated failure.message).message))
      walk walk' := by
  unfold answer at h
  split at h
  · obtain ⟨⟨⟩, computed, hcompute, hvalidate⟩ := exists_of_run_bind_eq_ok h
    refine (compute_fallback setting site hcompute).trans (validate_fallback setting site hvalidate) ?_
    intro failure failure' hcomputed hvalidated
    exact hcomputed.1.apart (by decide) hvalidated.1
  · cases h
    exact .of_eq rfl

/-! ## The own steps of an instance -/

def Fallback (v : Instance) (before : FormState) (message : String) : DerivationStep → Prop
  | .prepare => False
  | .patch => v.after.overrides = before.overrides
  | .visibility => v.visible = false
  -- What a failed computation leaves is seen from where values come from (`Writes.origin`).
  | .compute => True
  | .validate => v.after.errors.get? v.key = some (Violation.notEvaluated message).message

def OwnFailure (v : Instance) (before : FormState) (failure : StepFailure) : Prop :=
  failure.key = v.key ∧ ∃ step, failure.step = step.name ∧
    (step ≠ .validate → setting.config.failurePolicy = .degrade) ∧
    Fallback v before failure.message step

theorem state_behind_own (scope : Option String) (e : Element) (visible : Bool) (entered : Walk) :
    ∃ values repetitions, (if visible then opened setting scope e entered else entered).state =
      { entered.state with values, repetitions } := by
  obtain ⟨values, count, hopened, -⟩ := opened_state setting scope e entered
  cases visible with
  | true => exact ⟨values, _, hopened⟩
  | false => exact ⟨_, _, rfl⟩

theorem enter_fallbacks (above : List Instance) {scope : Option String} {e : Element}
    {visible : Bool} {walk entered : Walk}
    (h : (enter setting scope e).run walk = .ok (visible, entered)) :
    AddsDistinct (OwnFailure setting (enteredInstance setting above scope e walk) walk.state)
      walk entered := by
  obtain ⟨values, repetitions, hafter⟩ := state_behind_own setting scope e visible entered
  rw [enteredInstance_eq setting above h, hafter]
  rw [enter_eq] at h
  obtain ⟨replaced, patched, hpatch, h⟩ := exists_of_run_bind_eq_ok h
  obtain ⟨visible', seen, hvisibility, h⟩ := exists_of_run_bind_eq_ok h
  obtain ⟨⟨⟩, marked, hmark, h⟩ := exists_of_run_bind_eq_ok h
  obtain ⟨⟨⟩, answered, hanswer, h⟩ := exists_of_run_bind_eq_ok h
  cases h
  cases hmark
  obtain ⟨_, hpatched⟩ := patch_state setting _ hpatch
  obtain ⟨_, hseen⟩ := visibility_state setting _ hvisibility
  obtain ⟨_, _, _, hanswered, -⟩ := answer_state setting _ hanswer
  have hoverrides : entered.state.overrides =
      walk.state.overrides.insertSome (scopedKey scope e.id) replaced := by
    simp only [hanswered, markVisibility, hseen, hpatched, Site.key]
  have hanswers := answer_fallbacks setting _ hanswer
  change AddsDistinct _ seen entered at hanswers
  have hfirst := (patch_fallback setting _ hpatch).trans (visibility_fallback setting _ hvisibility)
    fun _ _ hpatched hseen => hpatched.1.apart (by decide) hseen.1
  have hall := hfirst.trans hanswers fun failure failure' hbefore hanswered => by
    rcases hbefore with hbefore | hbefore <;> rcases hanswered with hanswered | hanswered <;>
      exact hbefore.1.apart (by decide) hanswered.1
  refine hall.mono fun failure hfailure => ?_
  rcases hfailure with (⟨⟨hkey, hstep⟩, hnone, hpolicy⟩ | ⟨⟨hkey, hstep⟩, hhidden, hpolicy⟩) |
    ⟨⟨hkey, hstep⟩, hpolicy⟩ | ⟨⟨hkey, hstep⟩, herror⟩
  · refine ⟨hkey, .patch, hstep, fun _ => hpolicy, ?_⟩
    rw [hnone] at hoverrides
    exact hoverrides
  · exact ⟨hkey, .visibility, hstep, fun _ => hpolicy, hhidden⟩
  · exact ⟨hkey, .compute, hstep, fun _ => hpolicy, trivial⟩
  · exact ⟨hkey, .validate, hstep, fun hne => absurd rfl hne, herror⟩

variable {setting}

/-- Every step of an instance fails at most once, and it leaves its fallback when it does. -/
theorem Own.fallbacks {v : Instance} {walk walk' : Walk} (h : Own setting v walk walk') :
    AddsDistinct (OwnFailure setting v walk.state) walk walk' := by
  cases h with
  | hidden above scope e walk => exact .of_eq rfl
  | @entered above scope e visible walk entered henter =>
      obtain ⟨values, repetitions, hafter⟩ := state_behind_own setting scope e visible entered
      obtain ⟨added, hadded, hdistinct, hown⟩ := enter_fallbacks setting above henter
      exact ⟨added, (congrArg FormState.failures hafter).trans hadded, hdistinct, hown⟩

/-! ## The failures of a walk -/

def FailsDistinctly (list : List Instance) (walk walk' : Walk) : Prop :=
  (list.map Instance.key).Nodup →
    AddsDistinct (fun failure => failure.key ∈ list.map Instance.key) walk walk'

theorem sequential_failsDistinctly : Sequential setting FailsDistinctly where
  nil := fun _ _ => .of_eq rfl
  append := by
    intro first second walk between walk' hfirst hsecond hnodup
    rw [List.map_append, List.nodup_append] at hnodup
    obtain ⟨hfirstNodup, hsecondNodup, hdisjoint⟩ := hnodup
    have hboth := (hfirst hfirstNodup).trans (hsecond hsecondNodup) ?_
    · refine hboth.mono fun failure hfailure => ?_
      rwa [List.map_append, List.mem_append]
    · intro failure failure' hfailure hfailure' heq
      exact hdisjoint _ hfailure _ hfailure' (Prod.mk.inj heq).1
  own := by
    intro v walk walk' hown _
    exact hown.fallbacks.mono fun failure hfailure => List.mem_singleton.mpr hfailure.1

/-! ## Failures below hidden elements -/

def Shown (above list : List Instance) (failure : StepFailure) : Prop :=
  ∃ v ∈ list, v.key = failure.key ∧ ∀ u ∈ v.above, u ∈ above ∨ u.visible = true

theorem Shown.mono {above list list' : List Instance} (hsub : list ⊆ list') :
    ∀ failure, Shown above list failure → Shown above list' failure := by
  rintro failure ⟨v, hv, hshown⟩
  exact ⟨v, hsub hv, hshown⟩

theorem Shown.within {above list : List Instance} {v : Instance} (hvisible : v.visible = true) :
    ∀ failure, Shown (v :: above) list failure → Shown above (v :: list) failure := by
  rintro failure ⟨w, hw, hkey, habove⟩
  refine ⟨w, List.mem_cons_of_mem _ hw, hkey, fun u hu => ?_⟩
  rcases habove u hu with hmem | hshown
  · rcases List.mem_cons.mp hmem with rfl | hmem
    · exact .inr hvisible
    · exact .inl hmem
  · exact .inr hshown

theorem Adds.followedBy {part next : WalkM Unit} {above list : List Instance}
    {following : Walk → List Instance} {walk walk' : Walk}
    (hpart : ∀ between, part.run walk = .ok ((), between) → Adds (Shown above list) walk between)
    (hnext : ∀ between, next.run between = .ok ((), walk') →
      Adds (Shown above (following between)) between walk')
    (h : (part >>= fun _ => next).run walk = .ok ((), walk')) :
    Adds (Shown above (list ++ listFrom part following walk)) walk walk' := by
  obtain ⟨⟨⟩, between, hfirst, hsecond⟩ := exists_of_run_bind_eq_ok h
  rw [listFrom_of_run hfirst]
  refine ((hpart between hfirst).mono ?_).trans ((hnext between hsecond).mono ?_)
  · exact Shown.mono (List.subset_append_left _ _)
  · exact Shown.mono (List.subset_append_right _ _)

theorem Adds.scopes {part : Option String → WalkM Unit} {above : List Instance}
    {inner : Option String → Walk → List Instance}
    (hpart : ∀ scope walk walk', (part scope).run walk = .ok ((), walk') →
      Adds (Shown above (inner scope walk)) walk walk') :
    ∀ (scopes : List (Option String)) {walk walk' : Walk},
      (forM scopes part).run walk = .ok ((), walk') →
      Adds (Shown above (listScopes part inner scopes walk)) walk walk'
  | [], _, _, h => by
      cases h
      exact .of_eq rfl
  | scope :: scopes, walk, _, h => by
      rw [List.forM_cons] at h
      exact Adds.followedBy (hpart scope walk) (fun _ => Adds.scopes hpart scopes) h

def KeepsFailures (part : WalkM Unit) : Prop :=
  ∀ walk walk', part.run walk = .ok ((), walk') → walk'.state.failures = walk.state.failures

theorem KeepsFailures.bind {part next : WalkM Unit} (h : KeepsFailures part)
    (hnext : KeepsFailures next) : KeepsFailures (part >>= fun _ => next) := by
  intro walk walk' hrun
  obtain ⟨⟨⟩, between, hfirst, hsecond⟩ := exists_of_run_bind_eq_ok hrun
  rw [hnext between walk' hsecond, h walk between hfirst]

theorem KeepsFailures.forM {α : Type} {act : α → WalkM Unit} (h : ∀ item, KeepsFailures (act item))
    (items : List α) : KeepsFailures (forM items act) := by
  induction items with
  | nil =>
      intro walk walk' hrun
      cases hrun
      rfl
  | cons item rest ih =>
      rw [List.forM_cons]
      exact (h item).bind ih

theorem mark_keepsFailures (key : String) (visible : Bool) :
    KeepsFailures (modify (markVisibility key visible)) := by
  intro walk walk' hrun
  cases hrun
  rfl

mutual

theorem hide_keepsFailures (scope : Option String) : (e : Element) →
    KeepsFailures (hide setting scope e)
  | .container attributes kind children => by
      rw [hide]
      refine (mark_keepsFailures _ false).bind fun walk walk' hrun => ?_
      rw [hideWithin_run] at hrun
      exact KeepsFailures.forM (fun inner => hideAll_keepsFailures inner children) _ _ _ hrun
  | .field attributes traits => by
      rw [hide]
      exact mark_keepsFailures _ false
  | .content attributes text => by
      rw [hide]
      exact mark_keepsFailures _ false

theorem hideAll_keepsFailures (scope : Option String) : (es : List Element) →
    KeepsFailures (hideAll setting scope es)
  | [] => by
      intro walk walk' hrun
      cases hrun
      rfl
  | e :: rest => by
      rw [hideAll]
      exact (hide_keepsFailures scope e).bind (hideAll_keepsFailures scope rest)

end

theorem enter_shown (above : List Instance) {scope : Option String} {e : Element} {visible : Bool}
    {walk entered : Walk} (h : (enter setting scope e).run walk = .ok (visible, entered)) :
    Adds (Shown above [enteredInstance setting above scope e walk]) walk entered := by
  refine (enter_adds setting h).mono fun failure hkey => ?_
  refine ⟨_, List.mem_singleton_self _, ?_, ?_⟩
  · simp [hkey]
  · simp only [enteredInstance_above]
    exact fun u hu => .inl hu

mutual

theorem visit_shown (above : List Instance) (scope : Option String) : (e : Element) →
    ∀ {walk walk'}, (visit setting scope e).run walk = .ok ((), walk') →
      Adds (Shown above (instancesFrom setting above scope e walk)) walk walk'
  | .container attributes kind children, walk, walk', h => by
      rw [visit] at h
      obtain ⟨visible, entered, henter, h⟩ := exists_of_run_bind_eq_ok h
      have hown := enter_shown above henter
      cases visible with
      | true =>
          rw [if_pos rfl, visitWithin_run] at h
          rw [instancesFrom_of_visible setting henter]
          have hspread : (spread setting scope attributes.id entered kind).state.failures =
              entered.state.failures := by
            obtain ⟨_, _, hopened, -⟩ :=
              opened_state setting scope (.container attributes kind children) entered
            exact (congrArg FormState.failures hopened :)
          refine ((hown.mono (Shown.mono ?_)).trans (.of_eq hspread)).trans
            ((Adds.scopes ?_ _ h).mono (Shown.within (enteredInstance_visible setting henter)))
          · exact List.cons_subset_cons _ (List.nil_subset _)
          · intro inner _ _ hrun
            exact visitAll_shown _ inner children hrun
      | false =>
          rw [if_neg Bool.false_ne_true, hideWithin_run] at h
          rw [instancesFrom_of_hidden setting henter]
          have hhidden := KeepsFailures.forM
            (fun inner => @hideAll_keepsFailures setting inner children) _ _ _ h
          refine (hown.mono (Shown.mono ?_)).trans (.of_eq hhidden)
          exact List.cons_subset_cons _ (List.nil_subset _)
  | .field attributes traits, walk, walk', h => by
      rw [visit] at h
      obtain ⟨visible, henter⟩ := exists_of_run_discard_eq_ok h
      rw [instancesFrom]
      exact enter_shown above henter
  | .content attributes text, walk, walk', h => by
      rw [visit] at h
      obtain ⟨visible, henter⟩ := exists_of_run_discard_eq_ok h
      rw [instancesFrom]
      exact enter_shown above henter

theorem visitAll_shown (above : List Instance) (scope : Option String) : (es : List Element) →
    ∀ {walk walk'}, (visitAll setting scope es).run walk = .ok ((), walk') →
      Adds (Shown above (instancesFromAll setting above scope es walk)) walk walk'
  | [], walk, walk', h => by
      cases h
      exact .of_eq rfl
  | e :: rest, walk, walk', h => by
      rw [visitAll] at h
      rw [instancesFromAll]
      exact Adds.followedBy (fun _ hrun => visit_shown above scope e hrun)
        (fun _ hrun => visitAll_shown above scope rest hrun) h

end

end Walk

/-! ## The failures of a derivation -/

/-- A value under a key is that of the inputs, or the inputs have none and it is an entry of a row. -/
def FormState.Given (state : FormState) (inputs : KeyMap Json) (instances : List Instance)
    (key : String) : Prop :=
  state.values.get? key = inputs.get? key ∨
    inputs.get? key = none ∧ ∃ value, state.values.get? key = some value ∧
      ∃ u ∈ instances, u.element.isRepeating = true ∧
        state.visibilities.get? u.key = some true ∧ state.RowEntry u.key key value

/-- What a state has in place of the result of a step of an instance. -/
def FormState.StandsIn (state : FormState) (inputs : KeyMap Json) (instances : List Instance)
    (v : Instance) (message : String) : DerivationStep → Prop
  | .prepare => False
  | .patch => state.overrides.get? v.key = none
  | .visibility =>
    state.visibilities.get? v.key = some false ∧
      ∀ u ∈ instances, v ∈ u.above → state.visibilities.get? u.key = some false
  | .compute => state.Given inputs instances v.key
  | .validate =>
    state.errors.get? v.key = some ("validation could not be evaluated: " ++ message)

namespace FormEngine

section Derived

variable {engine : FormEngine} {tree : Element} {inputs globals : KeyMap Json} {state : FormState}

theorem derive_shown (h : engine.derive tree inputs globals = .ok state) :
    ∀ failure ∈ state.failures, ∃ v ∈ engine.instances tree inputs globals,
      v.key = failure.key ∧ ∀ u ∈ v.above, u.visible = true := by
  obtain ⟨scripts, walk', hprepare, hvisit, rfl⟩ := exists_visit_of_derive _ _ _ _ h
  rw [instances_of_prepare hprepare]
  obtain ⟨added, hadded, hshown⟩ := Walk.visit_shown [] none tree hvisit
  intro failure hfailure
  rw [hadded] at hfailure
  obtain ⟨v, hv, hkey, habove⟩ := hshown failure hfailure
  refine ⟨v, hv, hkey, fun u hu => (habove u hu).resolve_left ?_⟩
  exact List.not_mem_nil

/-- A failure under the key of an instance is of its own steps, which come to a key not patched. -/
theorem derive_ownFailure (h : engine.derive tree inputs globals = .ok state)
    (distinct : ((engine.instances tree inputs globals).map Instance.key).Nodup)
    {failure : StepFailure} (hfailure : failure ∈ state.failures) {v : Instance}
    (hv : v ∈ engine.instances tree inputs globals) (hkey : v.key = failure.key) :
    ∃ before, before.overrides.get? v.key = none ∧
      Walk.OwnFailure ⟨engine.operators, engine.config⟩ v before failure := by
  obtain ⟨before, later, hlist⟩ := List.append_of_mem hv
  obtain ⟨walk, start, between, walk', hstart, hbefore, hown, hlater, rfl⟩ :=
    exists_around (Walk.Sequential.records.both Walk.sequential_failsDistinctly) h hlist
  rw [hlist, List.map_append, List.map_cons, List.nodup_append, List.nodup_cons] at distinct
  obtain ⟨hbeforeNodup, ⟨hnotLater, hlaterNodup⟩, hdisjoint⟩ := distinct
  have hnotBefore : v.key ∉ before.map Instance.key := by
    intro hmem
    exact hdisjoint v.key hmem v.key List.mem_cons_self rfl
  refine ⟨start.state, ?_, ?_⟩
  · rw [(hbefore.1.frame v.key hnotBefore).overrides, hstart]
    rfl
  · obtain ⟨first, hfirst, -, hfirstKeys⟩ := hbefore.2 hbeforeNodup
    obtain ⟨own, howned, -, hownFailures⟩ := hown.fallbacks
    obtain ⟨last, hlast, -, hlastKeys⟩ := hlater.2 hlaterNodup
    rw [hlast, howned, hfirst, hstart] at hfailure
    rcases List.mem_append.mp hfailure with hfailure | hfailure
    · rcases List.mem_append.mp hfailure with hfailure | hfailure
      · exact absurd (hkey ▸ hfirstKeys failure hfailure) hnotBefore
      · exact hownFailures failure hfailure
    · exact absurd (hkey ▸ hlastKeys failure hfailure) hnotLater

theorem derive_failures_distinct (h : engine.derive tree inputs globals = .ok state)
    (distinct : ((engine.instances tree inputs globals).map Instance.key).Nodup) :
    (state.failures.map StepFailure.occasion).Nodup := by
  obtain ⟨walk, walk', hstart, rfl, hfails⟩ :=
    compositional_of_derive Walk.sequential_failsDistinctly.compositional h
  obtain ⟨added, hadded, hnodup, -⟩ := hfails distinct
  rw [hstart] at hadded
  rwa [hadded]

/-- No computed value is stored where the computation has failed. -/
theorem derive_given_of_failedAt (h : engine.derive tree inputs globals = .ok state)
    (distinct : ((engine.instances tree inputs globals).map Instance.key).Nodup) {key : String}
    (hfailed : state.FailedAt key .compute) :
    state.Given inputs (engine.instances tree inputs globals) key := by
  have hsettled := derive_settled h distinct
  obtain ⟨walk, walk', hstart, rfl, hwrites⟩ :=
    compositional_of_derive (Walk.sequential_writes _).compositional h
  by_cases hsame : walk'.state.values.get? key = inputs.get? key
  · exact .inl hsame
  · have horigin := hwrites.origin distinct key
    rw [hstart] at horigin
    rcases horigin hsame with
      ⟨v, -, -, -, -, added, hadded, hother⟩ | ⟨hnone, u, hu, hvisible, hrepeating, value, hvalue, hentry⟩
    · obtain ⟨failure, hfailure, hkey, hstep⟩ := hfailed
      rw [hadded, hstart] at hfailure
      exact absurd hstep (hother failure hfailure hkey)
    · refine .inr ⟨hnone, value, hvalue, u, hu, hrepeating, ?_, hentry.later (hsettled u hu).agrees⟩
      rw [(hsettled u hu).visible, hvisible]

end Derived

/--
Where keys are distinct, a state has at most one failure for each key and step, and in place of what
has failed it has its fallback.  Where failures stop the derivation all of them are of validations.
Every failure is under the key of an instance with nothing hidden around it.
-/
theorem derive_fallbacks (engine : FormEngine) (tree : Element) (inputs globals : KeyMap Json)
    (state : FormState) (h : engine.derive tree inputs globals = .ok state)
    (distinct : ((engine.instances tree inputs globals).map Instance.key).Nodup) :
    let instances := engine.instances tree inputs globals
    (state.failures.map fun failure => (failure.key, failure.step)).Nodup ∧
    ∀ failure ∈ state.failures, ∃ v ∈ instances, ∃ step : DerivationStep,
      v.key = failure.key ∧ failure.step = step.name ∧
      state.StandsIn inputs instances v failure.message step ∧
      (engine.config.failurePolicy = .abort → step = .validate) ∧
      ∀ u ∈ v.above, state.visibilities.get? u.key = some true := by
  intro instances
  have hsettled := derive_settled h distinct
  refine ⟨derive_failures_distinct h distinct, fun failure hfailure => ?_⟩
  obtain ⟨v, hv, hkey, habove⟩ := derive_shown h failure hfailure
  obtain ⟨before, hfresh, -, step, hstep, hpolicy, hfallback⟩ :=
    derive_ownFailure h distinct hfailure hv hkey
  refine ⟨v, hv, step, hkey, hstep, ?_, ?_, ?_⟩
  · cases step with
    | prepare => exact hfallback
    | patch =>
        have hoverrides : v.after.overrides = before.overrides := hfallback
        rw [FormState.StandsIn, (hsettled v hv).agrees.overrides, hoverrides, hfresh]
    | visibility =>
        have hhidden : v.visible = false := hfallback
        refine ⟨by rw [(hsettled v hv).visible, hhidden], fun u hu hmem => ?_⟩
        obtain ⟨-, hinherited⟩ := hidden_of_mem_above hu hmem
        rw [(hsettled u hu).visible, hinherited hhidden]
    | compute => exact derive_given_of_failedAt h distinct ⟨failure, hfailure, hkey.symm, hstep⟩
    | validate => exact (hsettled v hv).agrees.errors.trans hfallback
  · intro habort
    by_contra hother
    rw [hpolicy hother] at habort
    cases habort
  · intro u hu
    obtain ⟨hmem, -⟩ := hidden_of_mem_above hv hu
    rw [(hsettled u hmem).visible, habove u hu]

theorem derive_fallbacks_unknown_operator :
    let engine : FormEngine := ⟨.empty, .empty, { failurePolicy := .degrade }⟩
    let broken : Expression := .formula (.apply "logic.nand" [])
    let tree : Element := .container ⟨"form", "", none, none, none⟩ .group [
      .container ⟨"box", "", none, some broken, none⟩ .group
        [.field ⟨"inside", "", none, none, none⟩ ⟨.text, false, none, none, none, none⟩],
      .field ⟨"name", "", none, none, none⟩ ⟨.text, false, none, some broken, none, some broken⟩]
    let inputs : KeyMap Json := .ofList [("name", .string "Ada")]
    ∃ state, engine.derive tree inputs .empty = .ok state ∧
      state.failures.map (fun failure => (failure.key, failure.step)) =
        [("box", "visibility"), ("name", "compute"), ("name", "validate")] ∧
      ∀ failure ∈ state.failures, ∃ v ∈ engine.instances tree inputs .empty,
        ∃ step : DerivationStep, v.key = failure.key ∧ failure.step = step.name ∧
          state.StandsIn inputs (engine.instances tree inputs .empty) v failure.message step := by
  intro engine broken tree inputs
  have hkeys : (engine.instances tree inputs .empty).map Instance.key =
      ["form", "box", "inside", "name"] := by decide +kernel +zetaReduce
  have distinct : ((engine.instances tree inputs .empty).map Instance.key).Nodup := by
    rw [hkeys]
    decide
  have hfailures : (engine.derive tree inputs .empty).toOption.map (fun state =>
      state.failures.map fun failure => (failure.key, failure.step)) =
        some [("box", "visibility"), ("name", "compute"), ("name", "validate")] := by
    decide +kernel +zetaReduce
  obtain ⟨state, h, hstate⟩ := exists_ok_of_map hfailures
  refine ⟨state, h, hstate, fun failure hfailure => ?_⟩
  obtain ⟨v, hv, step, hkey, hstep, hstands, -⟩ :=
    (derive_fallbacks engine tree inputs .empty state h distinct).2 failure hfailure
  exact ⟨v, hv, step, hkey, hstep, hstands⟩

end FormEngine

end FormDerivation
