import FormDerivation.Proofs.Derivation.Scopes
import FormDerivation.Proofs.Element.References

/-!
# References to places of a form

The key of an instance is the id of its element, inside repetitions behind the prefix of the innermost
one.  So the id explains the key at any nesting (`ReferenceReport.explains_scopedKey`), and no
reference to a place that a derivation comes to is reported as unresolved
(`ReferenceReport.keys_not_unresolved`).
-/

namespace FormDerivation

/-! ## Keys of instances -/

theorem ReferenceReport.explains_scopedKey (scope : Option String) (id : String) :
    Explains id (scopedKey scope id) := by
  cases scope with
  | none => exact .inl rfl
  | some outer =>
      rw [scopedKey]
      split
      · exact .inl rfl
      · exact .inr ⟨outer, rfl⟩

def FormState.HasEntry (state : FormState) (key : String) : Prop :=
  state.visibilities.contains key = true ∨ state.errors.contains key = true ∨
    state.overrides.contains key = true ∨ state.repetitions.contains key = true

namespace FormEngine

variable {engine : FormEngine} {tree : Element} {inputs globals : KeyMap Json}

theorem instances_element {v : Instance} (hv : v ∈ engine.instances tree inputs globals) :
    v.element ∈ tree.elements := by
  unfold instances at hv
  split at hv
  · cases hv
  · exact (Walk.instancesFrom_within [] none tree _ v hv).1

theorem instances_explained {v : Instance} (hv : v ∈ engine.instances tree inputs globals) :
    ∃ id ∈ tree.ids, ReferenceReport.Explains id v.key := by
  refine ⟨v.element.id, ?_, ReferenceReport.explains_scopedKey v.scope v.element.id⟩
  rw [Element.ids_eq]
  exact List.mem_map_of_mem (instances_element hv)

theorem mem_keys_of_hasEntry {state : FormState} (h : engine.derive tree inputs globals = .ok state)
    {key : String} (hkey : state.HasEntry key) :
    key ∈ (engine.instances tree inputs globals).map Instance.key := by
  by_contra hother
  have hframe := derive_frame h hother
  rcases hkey with hkey | hkey | hkey | hkey
  · rw [KeyMap.contains, hframe.visibilities] at hkey
    cases hkey
  · rw [KeyMap.contains, hframe.errors] at hkey
    cases hkey
  · rw [KeyMap.contains, hframe.overrides] at hkey
    cases hkey
  · rw [KeyMap.contains, hframe.repetitions] at hkey
    cases hkey

end FormEngine

/-! ## The report -/

namespace ReferenceReport

theorem not_unresolved_of_explained {tree : Element} {reference : String}
    (h : ∃ id ∈ tree.ids, Explains id reference) :
    (ofTree tree).unresolved.contains reference = false := by
  obtain ⟨id, hid, hexplains⟩ := h
  rw [Bool.eq_false_iff]
  intro hunresolved
  exact ((unresolved_contains tree reference).mp hunresolved).2 id hid hexplains

/--
What is reported as unresolved.  It is never the key of an instance that some derivation comes to,
nor a key under which a derived state has an entry; and what is collected but not reported is an id of
the form, or ends in an underscore and one.
-/
theorem keys_not_unresolved (tree : Element) :
    (∀ (engine : FormEngine) (inputs globals : KeyMap Json),
      (∀ v ∈ engine.instances tree inputs globals,
        (ofTree tree).unresolved.contains v.key = false) ∧
      ∀ state, engine.derive tree inputs globals = .ok state → ∀ key, state.HasEntry key →
        (ofTree tree).unresolved.contains key = false) ∧
    ∀ ids ∈ (ofTree tree).references.values, ∀ reference, ids.contains reference = true →
      ((ofTree tree).unresolved.contains reference = false ↔
        ∃ id ∈ tree.ids, reference = id ∨ ∃ start, reference = start ++ "_" ++ id) := by
  refine ⟨fun engine inputs globals => ⟨fun v hv => ?_, fun state h key hkey => ?_⟩, ?_⟩
  · exact not_unresolved_of_explained (FormEngine.instances_explained hv)
  · obtain ⟨v, hv, rfl⟩ := List.mem_map.mp (FormEngine.mem_keys_of_hasEntry h hkey)
    exact not_unresolved_of_explained (FormEngine.instances_explained hv)
  · intro ids hids reference hreference
    refine ⟨fun hresolved => ?_, not_unresolved_of_explained⟩
    by_contra hunexplained
    have hcollected : ∃ id, tree.Reports id reference :=
      (tree.exists_reports_iff reference).mpr ⟨ids, hids, hreference⟩
    have hunresolved := (unresolved_contains tree reference).mpr
      ⟨hcollected, fun id hid hexplains => hunexplained ⟨id, hid, hexplains⟩⟩
    rw [hresolved] at hunresolved
    cases hunresolved

theorem keys_not_unresolved_beds :
    let engine : FormEngine := ⟨.empty, .empty, {}⟩
    let tree : Element := .container ⟨"form", "", none, none, none⟩ .group [
      .container ⟨"rooms", "", none, none, none⟩ (.repeating ⟨1, none⟩) [
        .container ⟨"beds", "", none, none, none⟩ (.repeating ⟨2, none⟩)
          [.field ⟨"width", "", none, none, none⟩ ⟨.number, true, none, none, none, none⟩]],
      .content ⟨"note", "", none, some (Element.isMissing "rooms_0_beds_1_width"), none⟩ "",
      .content ⟨"hint", "", none, some (Element.isMissing "kitchen"), none⟩ ""]
    (∃ v ∈ engine.instances tree .empty .empty, v.key = "rooms_0_beds_1_width" ∧
      (ofTree tree).unresolved.contains v.key = false) ∧
    (∃ ids ∈ (ofTree tree).references.values, ids.contains "kitchen" = true ∧
      ((ofTree tree).unresolved.contains "kitchen" = false ↔
        ∃ id ∈ tree.ids, "kitchen" = id ∨ ∃ start, "kitchen" = start ++ "_" ++ id)) ∧
    (ofTree tree).unresolved.keys = ["kitchen"] := by
  intro engine tree
  obtain ⟨hkeys, hcollected⟩ := keys_not_unresolved tree
  have hmem : "rooms_0_beds_1_width" ∈
      (engine.instances tree .empty .empty).map Instance.key := by decide
  obtain ⟨v, hv, hkey⟩ := List.mem_map.mp hmem
  refine ⟨⟨v, hv, hkey, (hkeys engine .empty .empty).1 v hv⟩, ?_, by decide⟩
  have hids : KeySet.ofList ["kitchen"] ∈ (ofTree tree).references.values :=
    (KeyMap.mem_values_iff _ _).mpr ⟨"hint", rfl⟩
  exact ⟨_, hids, rfl, hcollected _ hids "kitchen" rfl⟩

end ReferenceReport

end FormDerivation
