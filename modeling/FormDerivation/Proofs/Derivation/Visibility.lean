import FormDerivation.Proofs.Derivation.Record

/-!
# Visibility in derived forms

Where the keys of instances are distinct, the visibilities of a state are those of the instances,
so what holds of instances by the shape of the walk holds of the state: being hidden is passed on
to everything below, and only visible fields are found invalid.
-/

namespace FormDerivation.FormEngine

section Derived

variable {engine : FormEngine} {tree : Element} {inputs globals : KeyMap Json} {state : FormState}

theorem derive_visibilities (h : engine.derive tree inputs globals = .ok state)
    (distinct : ((engine.instances tree inputs globals).map Instance.key).Nodup) (key : String) :
    state.visibilities.contains key = true ↔
      key ∈ (engine.instances tree inputs globals).map Instance.key := by
  constructor
  · intro hkey
    by_cases hmem : key ∈ (engine.instances tree inputs globals).map Instance.key
    · exact hmem
    · have hnone : state.visibilities.get? key = none := (derive_frame h hmem).visibilities
      rw [KeyMap.contains, hnone] at hkey
      cases hkey
  · intro hmem
    obtain ⟨v, hv, rfl⟩ := List.mem_map.mp hmem
    rw [KeyMap.contains, (derive_settled h distinct v hv).visible]
    rfl

theorem derive_children (h : engine.derive tree inputs globals = .ok state)
    (distinct : ((engine.instances tree inputs globals).map Instance.key).Nodup) {v : Instance}
    (hv : v ∈ engine.instances tree inputs globals) (hvisible : v.visible = true) :
    ∀ child ∈ v.element.children, ∀ scope ∈ state.scopesWithin v.scope v.element,
      ∃ u ∈ engine.instances tree inputs globals,
        u.element = child ∧ u.scope = scope ∧ u.above = v :: v.above := by
  intro child hchild scope hscope
  have hscopes := (derive_settled h distinct v hv).agrees.scopesWithin_eq
  rw [hscopes] at hscope
  exact derive_covered h v hv hvisible child hchild scope hscope

theorem hidden_of_mem_above {u v : Instance} (hu : u ∈ engine.instances tree inputs globals)
    (hv : v ∈ u.above) :
    v ∈ engine.instances tree inputs globals ∧ (v.visible = false → u.visible = false) := by
  obtain ⟨between, habove, hbetween⟩ := instances_nested engine tree inputs globals u hu
  rw [habove, List.append_nil] at hv
  exact hbetween v hv

end Derived

/--
The visibilities of a state.  The children of a visible instance have one in every scope that the
instance has; everything below a hidden instance is hidden, so everything around a visible one is
visible; and every error is that of a visible instance that is a field once it is patched.
-/
theorem derive_visibility_nested (engine : FormEngine) (tree : Element)
    (inputs globals : KeyMap Json) (state : FormState)
    (h : engine.derive tree inputs globals = .ok state)
    (distinct : ((engine.instances tree inputs globals).map Instance.key).Nodup) :
    let instances := engine.instances tree inputs globals
    (∀ v ∈ instances, state.visibilities.get? v.key = some true →
      ∀ child ∈ v.element.children, ∀ scope ∈ state.scopesWithin v.scope v.element,
        state.visibilities.contains (scopedKey scope child.id) = true) ∧
    (∀ u ∈ instances, ∀ v ∈ u.above, state.visibilities.get? v.key = some false →
      state.visibilities.get? u.key = some false) ∧
    (∀ u ∈ instances, state.visibilities.get? u.key = some true →
      ∀ v ∈ u.above, state.visibilities.get? v.key = some true) ∧
    (∀ key, state.errors.contains key = true →
      ∃ v ∈ instances, v.key = key ∧ state.visibilities.get? key = some true ∧
        (state.effectiveOf v).isField = true) := by
  intro instances
  have hsettled := derive_settled h distinct
  refine ⟨?_, ?_, ?_, ?_⟩
  · intro v hv hvisible child hchild scope hscope
    rw [(hsettled v hv).visible] at hvisible
    obtain ⟨u, hu, rfl, rfl, -⟩ :=
      derive_children h distinct hv (Option.some.inj hvisible) child hchild scope hscope
    rw [derive_visibilities h distinct]
    exact List.mem_map_of_mem hu
  · intro u hu v hv hhidden
    obtain ⟨hmem, hinherited⟩ := hidden_of_mem_above hu hv
    rw [(hsettled v hmem).visible] at hhidden
    rw [(hsettled u hu).visible, hinherited (Option.some.inj hhidden)]
  · intro u hu hvisible v hv
    obtain ⟨hmem, hinherited⟩ := hidden_of_mem_above hu hv
    rw [(hsettled u hu).visible] at hvisible
    rw [(hsettled v hmem).visible]
    cases hv' : v.visible with
    | true => rfl
    | false =>
        rw [hinherited hv'] at hvisible
        cases hvisible
  · intro key hkey
    obtain ⟨v, hv, rfl, hvisible, hfield⟩ := derive_errors h hkey
    refine ⟨v, hv, rfl, ?_, ?_⟩
    · rw [(hsettled v hv).visible, hvisible]
    · rw [(hsettled v hv).effective, hfield]

theorem derive_visibility_nested_hidden_group :
    let engine : FormEngine := ⟨⟨.ofList [("logic.not", Operator.notOperator)]⟩, .empty, {}⟩
    let never : Expression := .formula (.apply "logic.not" [.constant (.bool true)])
    let required : FieldTraits := ⟨.text, true, none, none, none, none⟩
    let tree : Element := .container ⟨"form", "", none, none, none⟩ .group [
      .container ⟨"box", "", none, some never, none⟩ .group
        [.field ⟨"inside", "", none, none, none⟩ required],
      .container ⟨"people", "", none, none, none⟩ (.repeating ⟨2, none⟩)
        [.field ⟨"name", "", none, none, none⟩ required]]
    ∃ state, engine.derive tree .empty .empty = .ok state ∧
      state.errors.keys = ["people_0_name", "people_1_name"] ∧
      (∀ key, state.errors.contains key = true →
        ∃ v ∈ engine.instances tree .empty .empty, v.key = key ∧
          state.visibilities.get? key = some true ∧ (state.effectiveOf v).isField = true) := by
  intro engine never required tree
  have hkeys : (engine.instances tree .empty .empty).map Instance.key =
      ["form", "box", "inside", "people", "people_0_name", "people_1_name"] := rfl
  have distinct : ((engine.instances tree .empty .empty).map Instance.key).Nodup := by
    rw [hkeys]
    decide
  refine ⟨_, rfl, ?_, ?_⟩
  · decide
  · exact (derive_visibility_nested engine tree .empty .empty _ rfl distinct).2.2.2

end FormDerivation.FormEngine
