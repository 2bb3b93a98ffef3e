import FormDerivation.Proofs.Derivation.Visibility
import FormDerivation.Proofs.KeyMap
import Mathlib.Data.List.Nodup

/-!
# Values in the rows of hidden containers

A container that is hidden marks the children of the repetitions that its value asks for, so none of
their values is a visible one (`FormEngine.derive_hidden_rows`).  A value behind those repetitions
is that of no instance, and a key that was never visited counts as visible; and of two instances
with one key the later decides the mark (`FormEngine.derive_shows_hidden_rows`).
-/

namespace FormDerivation

namespace Walk

variable (setting : WalkSetting)

/-! ## Children of hidden instances -/

def AllConcealed (list : List Instance) : Prop :=
  ∀ v ∈ list, v.visible = false → Conceals setting v list

variable {setting}

theorem Conceals.mono {v : Instance} {list list' : List Instance} (h : Conceals setting v list)
    (hsub : list ⊆ list') : Conceals setting v list' := by
  intro child hchild scope hscope
  obtain ⟨u, hu, hchild⟩ := h child hchild scope hscope
  exact ⟨u, hsub hu, hchild⟩

theorem AllConcealed.cons {v : Instance} {list : List Instance} (h : AllConcealed setting list)
    (hv : v.visible = false → Conceals setting v list) : AllConcealed setting (v :: list) := by
  intro u hu hhidden
  have hconceals : Conceals setting u list := by
    rcases List.mem_cons.mp hu with rfl | hu
    · exact hv hhidden
    · exact h u hu hhidden
  exact hconceals.mono (List.subset_cons_self v list)

theorem compositional_allConcealed :
    Compositional setting fun list _ _ => AllConcealed setting list where
  nil := by simp [AllConcealed]
  append := by
    intro first second walk between walk' hfirst hsecond v hv hhidden
    rcases List.mem_append.mp hv with hv | hv
    · exact (hfirst v hv hhidden).mono (List.subset_append_left first second)
    · exact (hsecond v hv hhidden).mono (List.subset_append_right first second)
  entered := by
    intro above scope e visible walk entered walk' below henter _ hconceals hbelow
    refine hbelow.cons fun hhidden => hconceals ?_
    rw [← enteredInstance_visible setting henter, hhidden]
  hidden := by
    intro above scope e walk walk' below hconceals hbelow
    exact hbelow.cons fun _ => hconceals

/-! ## Marks -/

structure Marks (list : List Instance) (walk walk' : Walk) : Prop where
  kept : ∀ key, walk.state.visibilities.contains key = true →
    walk'.state.visibilities.contains key = true
  marked : ∀ v ∈ list, walk'.state.visibilities.contains v.key = true
  source : ∀ key visible, walk'.state.visibilities.get? key = some visible →
    walk.state.visibilities.get? key = some visible ∨
      ∃ v ∈ list, v.key = key ∧ v.visible = visible

namespace Marks

theorem append {first second : List Instance} {walk between walk' : Walk}
    (h : Marks first walk between) (h' : Marks second between walk') :
    Marks (first ++ second) walk walk' where
  kept := fun key hkey => h'.kept key (h.kept key hkey)
  marked := by
    intro v hv
    rcases List.mem_append.mp hv with hv | hv
    · exact h'.kept v.key (h.marked v hv)
    · exact h'.marked v hv
  source := by
    intro key visible hkey
    rcases h'.source key visible hkey with hkey | ⟨v, hv, hmark⟩
    · rcases h.source key visible hkey with hkey | ⟨v, hv, hmark⟩
      · exact .inl hkey
      · exact .inr ⟨v, List.mem_append_left _ hv, hmark⟩
    · exact .inr ⟨v, List.mem_append_right _ hv, hmark⟩

theorem singleton {v : Instance} {walk walk' : Walk}
    (h : walk'.state.visibilities = walk.state.visibilities.insert v.key v.visible) :
    Marks [v] walk walk' := by
  constructor
  · intro key hkey
    by_cases hown : key = v.key <;> simp_all
  · intro u hu
    cases List.mem_singleton.mp hu
    simp [h]
  · intro key visible hkey
    rw [h, KeyMap.get?_insert] at hkey
    split at hkey
    · next hown => exact .inr ⟨v, List.mem_singleton_self v, hown.symm, Option.some.inj hkey⟩
    · exact .inl hkey

end Marks

theorem compositional_marks (setting : WalkSetting) : Compositional setting Marks where
  nil := fun _ => ⟨fun _ h => h, by simp, fun _ _ h => .inl h⟩
  append := .append
  entered := by
    intro above scope e visible walk entered walk' below henter _ _ hbelow
    refine (Marks.singleton ?_).append hbelow
    obtain ⟨replaced, patched, failures, value, message, -, hstate, -⟩ := enter_state setting henter
    obtain ⟨values, count, hopened, -⟩ := opened_state setting scope e entered
    rw [enteredInstance_key, enteredInstance_visible setting henter]
    cases visible with
    | true => simp [hopened, hstate]
    | false => simp [hstate]
  hidden := by
    intro above scope e walk walk' below _ hbelow
    have hmark : Marks [hiddenInstance above scope e walk] walk
        (markVisibility (scopedKey scope e.id) false walk) := .singleton rfl
    exact hmark.append hbelow

end Walk

namespace FormEngine

variable {engine : FormEngine} {tree : Element} {inputs globals : KeyMap Json} {state : FormState}

theorem derive_concealed (h : engine.derive tree inputs globals = .ok state) :
    Walk.AllConcealed ⟨engine.operators, engine.config⟩
      (engine.instances tree inputs globals) := by
  obtain ⟨walk, walk', -, -, hconcealed⟩ :=
    compositional_of_derive Walk.compositional_allConcealed h
  exact hconcealed

/-- A key has the visibility of an instance with that key, and every instance has one. -/
theorem derive_marks (h : engine.derive tree inputs globals = .ok state) :
    (∀ v ∈ engine.instances tree inputs globals, state.visibilities.contains v.key = true) ∧
    ∀ key visible, state.visibilities.get? key = some visible →
      ∃ v ∈ engine.instances tree inputs globals, v.key = key ∧ v.visible = visible := by
  obtain ⟨walk, walk', hstart, hend, hmarks⟩ :=
    compositional_of_derive (Walk.compositional_marks _) h
  rw [← hend]
  refine ⟨hmarks.marked, ?_⟩
  intro key visible hkey
  rcases hmarks.source key visible hkey with hkey | hmark
  · rw [hstart] at hkey
    cases hkey
  · exact hmark

theorem isVisible_eq_false (h : engine.derive tree inputs globals = .ok state) {key : String}
    (hmarked : ∃ v ∈ engine.instances tree inputs globals, v.key = key)
    (hhidden : ∀ v ∈ engine.instances tree inputs globals, v.key = key → v.visible = false) :
    state.isVisible key = false := by
  obtain ⟨v, hv, hkey⟩ := hmarked
  have hcontains := (derive_marks h).1 v hv
  rw [hkey, KeyMap.contains, Option.isSome_iff_exists] at hcontains
  obtain ⟨visible, hvisible⟩ := hcontains
  obtain ⟨u, hu, hkey', rfl⟩ := (derive_marks h).2 key visible hvisible
  rw [FormState.isVisible, hvisible, hhidden u hu hkey']
  rfl

/--
Values in the rows of a container.  While it is hidden, none is a visible value under the key of a
child in one of the repetitions that its value asked for when it was hidden, unless an instance
outside the container has that key.  A hidden mark under the key of the container is that of an
instance of this key, which is the container where no other has its key.
-/
theorem derive_hidden_rows (engine : FormEngine) (tree : Element) (inputs globals : KeyMap Json)
    (state : FormState) (h : engine.derive tree inputs globals = .ok state) (v : Instance)
    (hv : v ∈ engine.instances tree inputs globals) (attributes : Attributes)
    (bounds : RepetitionBounds) (children : List Element)
    (hcontainer : v.element = .container attributes (.repeating bounds) children) :
    (v.visible = false →
      ∀ index < Walk.repetitions engine.config.repetition bounds (v.after.values.get? v.key),
      ∀ child ∈ children,
        (∀ u ∈ engine.instances tree inputs globals,
          u.key = scopedKey (some (rowScope v.key index)) child.id → v ∈ u.above) →
        state.visibleValues.get? (scopedKey (some (rowScope v.key index)) child.id) = none) ∧
    (state.visibilities.get? v.key = some false →
      ∃ u ∈ engine.instances tree inputs globals, u.key = v.key ∧ u.visible = false) ∧
    ((∀ u ∈ engine.instances tree inputs globals, u.key = v.key → u = v) →
      state.visibilities.get? v.key = some v.visible) := by
  refine ⟨?rows, (derive_marks h).2 v.key false, ?mark⟩
  case rows =>
    intro hhidden index hindex child hchild hother
    have hscope : some (rowScope v.key index) ∈
        v.after.scopesAsked engine.config.repetition v.scope v.element := by
      have hkey : v.key = scopedKey v.scope attributes.id := by simp [Instance.key, hcontainer]
      rw [hcontainer, FormState.scopesAsked, ← hkey]
      exact List.mem_map_of_mem (List.mem_range.mpr hindex)
    obtain ⟨u, hu, rfl, hrow, -⟩ := derive_concealed h v hv hhidden child
      (by rw [hcontainer]; exact hchild) _ hscope
    have hinvisible : state.isVisible (scopedKey (some (rowScope v.key index)) u.element.id) =
        false := by
      refine isVisible_eq_false h ⟨u, hu, ?_⟩ ?_
      · rw [Instance.key, hrow]
      · intro x hx hkey
        exact (hidden_of_mem_above hx (hother x hx hkey)).2 hhidden
    simp [FormState.visibleValues, hinvisible]
  case mark =>
    intro hown
    have hcontains := (derive_marks h).1 v hv
    obtain ⟨visible, hvisible⟩ := Option.isSome_iff_exists.mp hcontains
    obtain ⟨u, hu, hkey, rfl⟩ := (derive_marks h).2 v.key visible hvisible
    rw [hvisible, hown u hu hkey]

theorem derive_hidden_rows_people :
    let engine : FormEngine := ⟨⟨.ofList [("logic.not", Operator.notOperator)]⟩, .empty, {}⟩
    let never : Expression := .formula (.apply "logic.not" [.constant (.bool true)])
    let name : Element := .field ⟨"name", "", none, none, none⟩ ⟨.text, true, none, none, none, none⟩
    let tree : Element := .container ⟨"form", "", none, none, none⟩ .group [
      .container ⟨"people", "", none, some never, none⟩ (.repeating ⟨0, none⟩) [name]]
    let inputs : KeyMap Json := .ofList [("people", .array [.object []]),
      ("people_0_name", .string "Ada"), ("people_1_name", .string "Eve")]
    ∃ state, engine.derive tree inputs .empty = .ok state ∧
      state.visibilities.get? "people" = some false ∧
      state.values.contains "people_0_name" = true ∧
      state.visibleValues.get? "people_0_name" = none := by
  intro engine never name tree inputs
  have hkeys : (engine.instances tree inputs .empty).map Instance.key =
      ["form", "people", "people_0_name"] := rfl
  have distinct : ((engine.instances tree inputs .empty).map Instance.key).Nodup := by
    rw [hkeys]
    decide
  let people : Instance := (engine.instances tree inputs .empty)[1]
  let row : Instance := (engine.instances tree inputs .empty)[2]
  have hpeople : people ∈ engine.instances tree inputs .empty := List.getElem_mem _
  have hrow : row ∈ engine.instances tree inputs .empty := List.getElem_mem _
  have hhidden : people.visible = false := by decide +kernel +zetaReduce
  have hrowKey : scopedKey (some (rowScope people.key 0)) name.id = row.key := by
    decide +kernel +zetaReduce
  have hderived : (engine.derive tree inputs .empty).toOption.map (fun state =>
      state.values.contains "people_0_name") = some true := by decide +kernel +zetaReduce
  obtain ⟨state, h, hvalue⟩ := exists_ok_of_map hderived
  obtain ⟨hrows, -, hmark⟩ := derive_hidden_rows engine tree inputs .empty state h people hpeople
    _ _ [name] rfl
  refine ⟨state, h, ?_, hvalue, ?_⟩
  · have hown := hmark fun u hu hkey => List.inj_on_of_nodup_map distinct hu hpeople hkey
    rw [hhidden] at hown
    exact hown
  · refine hrows hhidden 0 (by decide +kernel +zetaReduce) name List.mem_cons_self ?_
    intro u hu hkey
    rw [List.inj_on_of_nodup_map distinct hu hrow (hkey.trans hrowKey)]
    exact List.mem_cons_self

theorem derive_shows_hidden_rows :
    let engine : FormEngine := ⟨⟨.ofList [("logic.not", Operator.notOperator)]⟩, .empty, {}⟩
    let never : Expression := .formula (.apply "logic.not" [.constant (.bool true)])
    let name : Element := .field ⟨"name", "", none, none, none⟩ ⟨.text, true, none, none, none, none⟩
    let people (visibility : Option Expression) : Element :=
      .container ⟨"people", "", none, visibility, none⟩ (.repeating ⟨0, none⟩) [name]
    let namesake : Element :=
      .field ⟨"people", "", none, some never, none⟩ ⟨.text, false, none, none, none, none⟩
    let form (children : List Element) : Element :=
      .container ⟨"form", "", none, none, none⟩ .group children
    let flat : KeyMap Json := .ofList [("people_0_name", .string "Ada")]
    let rows : KeyMap Json :=
      .ofList [("people", .array [.object [("name", .string "Ada")]])]
    (∃ state, engine.derive (form [people (some never)]) flat .empty = .ok state ∧
      (engine.instances (form [people (some never)]) flat .empty).map Instance.key =
        ["form", "people"] ∧
      state.visibilities.get? "people" = some false ∧
      state.visibleValues.get? (scopedKey (some (rowScope "people" 0)) name.id) =
        some (.string "Ada")) ∧
    ∃ state, engine.derive (form [people none, namesake]) rows .empty = .ok state ∧
      state.visibilities.get? "people" = some false ∧
      state.visibleValues.get? (scopedKey (some (rowScope "people" 0)) name.id) =
        some (.string "Ada") :=
  ⟨⟨_, rfl, rfl, by decide, rfl⟩, _, rfl, by decide, rfl⟩

end FormEngine

end FormDerivation
