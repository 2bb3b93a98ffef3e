import FormDerivation.Proofs.Derivation.Inheritance
import FormDerivation.Proofs.Derivation.Values

/-!
# Errors beside the values they are about

A field without a validation expression is judged by its built-in check when it is visited
(`Walk.enter_judged`).  Where keys are distinct its error stays, and its value changes only if there
was none and a repeating container that is visited later spreads a row over its key
(`FormEngine.derive_errors_at_visit`).
-/

namespace FormDerivation

namespace Walk

variable (setting : WalkSetting)

/-! ## The check of a field -/

theorem validate_judged {site : Site} {field : FieldTraits} {walk walk' : Walk}
    (h : (validate setting site field).run walk = .ok ((), walk')) (hfield : field.validation = none)
    (hfresh : walk.state.errors.get? site.key = none) :
    walk'.state.values = walk.state.values ∧
      walk'.state.errors.get? site.key =
        (field.check (walk.state.values.get? site.key)).map Violation.message := by
  have hfind : (findViolation setting site field).run walk =
      .ok (field.check (walk.state.values.get? site.key), walk) := by
    unfold findViolation
    rw [run_get_bind, hfield]
    cases field.check (walk.state.values.get? site.key) <;> rfl
  rw [validate_eq, run_bind_of_ok hfind] at h
  cases hcheck : field.check (walk.state.values.get? site.key) with
  | none =>
      rw [hcheck] at h
      cases h
      exact ⟨rfl, hfresh⟩
  | some violation =>
      rw [hcheck] at h
      cases h
      exact ⟨rfl, KeyMap.get?_insert_self _ _ _⟩

theorem enter_judged {scope : Option String} {e : Element} {attributes : Attributes}
    {traits : FieldTraits} {walk entered : Walk}
    (h : (enter setting scope e).run walk = .ok (true, entered))
    (heffective : effectiveAt setting scope e walk = .field attributes traits)
    (htraits : traits.validation = none)
    (hfresh : walk.state.errors.get? (scopedKey scope e.id) = none) :
    entered.state.errors.get? (scopedKey scope e.id) =
      (traits.check (entered.state.values.get? (scopedKey scope e.id))).map Violation.message := by
  obtain ⟨patched, seen, -, -, hanswer, -, herrors⟩ := exists_steps_of_enter setting h
  rw [heffective] at hanswer
  obtain ⟨⟨⟩, computed, hcompute, hvalidate⟩ := exists_of_run_bind_eq_ok hanswer
  obtain ⟨_, _, hcomputed⟩ := compute_state setting _ hcompute
  have hbefore : computed.state.errors.get? (scopedKey scope e.id) = none := by
    have hseen : seen.state.errors.get? (scopedKey scope e.id) = none := by rw [herrors, hfresh]
    rw [hcomputed]
    exact hseen
  obtain ⟨hvalues, herror⟩ := validate_judged setting hvalidate htraits hbefore
  rw [hvalues]
  exact herror

theorem opened_own (scope : Option String) (e : Element) (walk : Walk) :
    (opened setting scope e walk).state.values.get? (scopedKey scope e.id) =
        walk.state.values.get? (scopedKey scope e.id) ∧
      (opened setting scope e walk).state.errors = walk.state.errors := by
  cases he : e.isRepeating with
  | false =>
      rw [opened_of_not_repeating setting he]
      exact ⟨rfl, rfl⟩
  | true =>
      obtain ⟨count, hstate⟩ := opened_repeating setting scope he walk
      rw [hstate]
      exact ⟨get?_spreadRows_self _ _ _, rfl⟩

theorem Own.judged {setting : WalkSetting} {v : Instance} {walk walk' : Walk}
    (h : Own setting v walk walk') (hvisible : v.visible = true) {attributes : Attributes}
    {traits : FieldTraits} (heffective : v.effective = .field attributes traits)
    (htraits : traits.validation = none) (hfresh : walk.state.errors.get? v.key = none) :
    v.after.errors.get? v.key =
      (traits.check (v.after.values.get? v.key)).map Violation.message := by
  cases h with
  | hidden above scope e walk => cases hvisible
  | @entered above scope e visible walk entered henter =>
      have hkey : (enteredInstance setting above scope e walk).key = scopedKey scope e.id := by
        simp
      rw [hkey] at hfresh ⊢
      rw [enteredInstance_eq setting above henter] at hvisible heffective ⊢
      cases hvisible
      obtain ⟨hvalue, herrors⟩ := opened_own setting scope e entered
      simp only [if_true, hvalue, herrors]
      exact enter_judged setting henter heffective htraits hfresh

end Walk

/-! ## Errors of a derivation -/

namespace FormEngine

/--
Where keys are distinct, a visible field without a validation expression has the error of the value
that it has when it is visited.  In the end it still has that value, or it had none and a visible
repeating container that is visited later has an entry for it in a row.
-/
theorem derive_errors_at_visit (engine : FormEngine) (tree : Element) (inputs globals : KeyMap Json)
    (state : FormState) (h : engine.derive tree inputs globals = .ok state)
    (distinct : ((engine.instances tree inputs globals).map Instance.key).Nodup)
    (before later : List Instance) (v : Instance)
    (hlist : engine.instances tree inputs globals = before ++ v :: later)
    (hvisible : state.visibilities.get? v.key = some true) (attributes : Attributes)
    (traits : FieldTraits) (heffective : state.effectiveOf v = .field attributes traits)
    (htraits : traits.validation = none) :
    state.errors.get? v.key = (traits.check (v.after.values.get? v.key)).map Violation.message ∧
      (state.values.get? v.key = v.after.values.get? v.key ∨
        v.after.values.get? v.key = none ∧
          ∃ u ∈ later, u.element.isRepeating = true ∧ state.visibilities.get? u.key = some true ∧
            ∃ value, state.values.get? v.key = some value ∧ state.RowEntry u.key v.key value) := by
  have hsettled := derive_settled h distinct
  have hv := hsettled v (by simp [hlist])
  obtain ⟨walk, start, between, walk', hstart, hbefore, hown, hlater, rfl⟩ :=
    exists_around (Walk.Sequential.records.both (Walk.sequential_writes _)) h hlist
  rw [hlist, List.map_append, List.map_cons, List.nodup_append, List.nodup_cons] at distinct
  obtain ⟨-, ⟨hnotLater, hlaterDistinct⟩, hdisjoint⟩ := distinct
  constructor
  · rw [hv.agrees.errors]
    rw [hv.visible] at hvisible
    rw [hv.effective] at heffective
    refine hown.judged (Option.some.inj hvisible) heffective htraits ?_
    have hnotBefore : v.key ∉ before.map Instance.key := by
      intro hmem
      exact hdisjoint v.key hmem v.key List.mem_cons_self rfl
    rw [(hbefore.1.frame v.key hnotBefore).errors, hstart]
    rfl
  · rw [← hown.state_eq]
    by_cases hsame : walk'.state.values.get? v.key = between.state.values.get? v.key
    · exact .inl hsame
    · right
      -- No later instance has the key, so a value that changes later is not computed.
      rcases hlater.2.origin hlaterDistinct v.key hsame with
        ⟨w, hw, hkey, -⟩ | ⟨hnone, u, hu, hvisible', hrepeating, value, hvalue, hentry⟩
      · exact absurd (List.mem_map.mpr ⟨w, hw, hkey⟩) hnotLater
      · have husettled := hsettled u (by simp [hlist, hu])
        refine ⟨hnone, u, hu, hrepeating, ?_, value, hvalue, hentry.later husettled.agrees⟩
        rw [husettled.visible, hvisible']

theorem derive_errors_at_visit_name :
    let engine : FormEngine := ⟨⟨.ofList []⟩, .empty, {}⟩
    let required : FieldTraits := ⟨.text, true, none, none, none, none⟩
    let tree : Element := .container ⟨"form", "", none, none, none⟩ .group [
      .field ⟨"people_0_name", "", none, none, none⟩ required,
      .container ⟨"people", "", none, none, none⟩ (.repeating ⟨1, none⟩)
        [.field ⟨"age", "", none, none, none⟩ required]]
    ∃ state, engine.derive tree .empty .empty = .ok state ∧
      state.errors.get? "people_0_name" = some "a value is required" ∧
      ∃ v ∈ engine.instances tree .empty .empty, v.key = "people_0_name" ∧
        state.errors.get? v.key =
          (required.check (v.after.values.get? v.key)).map Violation.message := by
  intro engine required tree
  have hkeys : (engine.instances tree .empty .empty).map Instance.key =
      ["form", "people_0_name", "people", "people_0_age"] := rfl
  have distinct : ((engine.instances tree .empty .empty).map Instance.key).Nodup := by
    rw [hkeys]
    decide
  refine ⟨_, rfl, by decide, _, List.mem_cons_of_mem _ List.mem_cons_self, rfl, ?_⟩
  exact (derive_errors_at_visit engine tree .empty .empty _ rfl distinct [_] [_, _] _ rfl (by decide)
    _ required rfl rfl).1

/-- An error is recorded before a later row gives the field a value that is valid. -/
theorem derive_error_beside_valid_value :
    let engine : FormEngine := ⟨⟨.ofList []⟩, .empty, {}⟩
    let tree : Element := .container ⟨"form", "", none, none, none⟩ .group [
      .field ⟨"a_0_b", "", none, none, none⟩ ⟨.text, true, none, none, none, none⟩,
      .container ⟨"a", "", none, none, none⟩ (.repeating ⟨0, none⟩)
        [.field ⟨"c", "", none, none, none⟩ ⟨.text, false, none, none, none, none⟩]]
    let inputs : KeyMap Json := .ofList [("a", .array [.object [("b", .string "x")]])]
    ∃ state, engine.derive tree inputs .empty = .ok state ∧
      ((engine.instances tree inputs .empty).map Instance.key).Nodup ∧
      ∃ v ∈ engine.instances tree inputs .empty, state.visibilities.get? v.key = some true ∧
        ∃ attributes traits, state.effectiveOf v = .field attributes traits ∧
          traits.validation = none ∧ state.errors.get? v.key ≠
            (traits.check (state.values.get? v.key)).map Violation.message := by
  intro engine tree inputs
  have hkeys : (engine.instances tree inputs .empty).map Instance.key =
      ["form", "a_0_b", "a", "a_0_c"] := by decide +kernel +zetaReduce
  have hstate : (engine.derive tree inputs .empty).toOption.map (fun state =>
      (engine.instances tree inputs .empty).any fun v =>
        state.visibilities.get? v.key == some true && (state.effectiveOf v).traits?.any fun traits =>
          traits.validation.isNone && state.errors.get? v.key !=
            (traits.check (state.values.get? v.key)).map Violation.message) = some true := by
    decide +kernel +zetaReduce
  obtain ⟨state, h, hany⟩ := exists_ok_of_map hstate
  refine ⟨state, h, ?_, ?_⟩
  · rw [hkeys]
    decide
  · obtain ⟨v, hv, hjudged⟩ := List.any_eq_true.mp hany
    rw [Bool.and_eq_true, beq_iff_eq] at hjudged
    obtain ⟨hvisible, hjudged⟩ := hjudged
    refine ⟨v, hv, hvisible, ?_⟩
    cases heffective : state.effectiveOf v with
    | field attributes traits =>
        simp only [heffective, Element.traits?, Option.any_some, Bool.and_eq_true, bne_iff_ne,
          Option.isNone_iff_eq_none] at hjudged
        exact ⟨attributes, traits, rfl, hjudged⟩
    | _ => simp [heffective, Element.traits?] at hjudged

end FormEngine

end FormDerivation
