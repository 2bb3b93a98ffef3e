import FormDerivation.Proofs.Derivation.Lockstep

/-!
# Unrolling repetitions

A repeating container is derived like a group that holds a copy of its children for each repetition,
with the keys of the repetition as ids (`FormEngine.derive_unrolled`).
-/

namespace FormDerivation

structure FormState.SameOutcome (s s' : FormState) : Prop where
  visibilities : s'.visibilities = s.visibilities
  values : s'.values = s.values
  errors : s'.errors = s.errors
  failures : s'.failures = s.failures

/-- The group with a copy of the children of a repeating container for each repetition. -/
def Element.unrolled (attributes : Attributes) (count : Nat) (children : List Element) : Element :=
  .container attributes .group ((List.range count).flatMap fun index =>
    renameAll (fun name => rowStart attributes.id index ++ name) children)

namespace Walk

variable (setting : WalkSetting)

/-! ## Elements one after the other -/

@[simp] theorem visitAll_append (scope : Option String) (first second : List Element) :
    visitAll setting scope (first ++ second) =
      visitAll setting scope first >>= fun _ => visitAll setting scope second := by
  induction first with
  | nil => rw [List.nil_append, visitAll, pure_bind]
  | cons e rest ih => rw [List.cons_append, visitAll, visitAll, ih, bind_assoc]

theorem visitAll_flatMap {α : Type} (scope : Option String) (items : List α)
    (elements : α → List Element) :
    visitAll setting scope (items.flatMap elements) =
      forM items fun item => visitAll setting scope (elements item) := by
  induction items with
  | nil => rfl
  | cons item rest ih => rw [List.flatMap_cons, visitAll_append, ih, List.forM_cons]

theorem shared_sameOutcome :
    Shared (fun walk walk' => walk.state.SameOutcome walk'.state) fun _ => True where
  values := fun h _ => by rw [h.values]
  recordFailure := by
    intro walk walk' site site' step error h hkey
    constructor <;> simp [recordFailure, h.visibilities, h.values, h.errors, h.failures, hkey]
  markVisibility := by
    intro walk walk' key visible h _
    constructor <;> simp [h.visibilities, h.values, h.errors, h.failures]
  setValue := by
    intro walk walk' key value h _
    constructor <;> simp [h.visibilities, h.values, h.errors, h.failures]
  recordError := by
    intro walk walk' key message h _
    constructor <;> simp [h.visibilities, h.values, h.errors, h.failures]
  recordCount := by
    intro walk walk' key count h _
    constructor <;> simp [h.visibilities, h.values, h.errors, h.failures]

theorem unrolled_lockstep {children : List Element}
    (hplain : ∀ x ∈ Element.elementsAll children, x.Plain) (id : String) (count : Nat) :
    Lockstep (fun walk walk' => walk.state.SameOutcome walk'.state)
      (forM (List.range count) fun index => visitAll setting (some (rowScope id index)) children)
      (visitAll setting none ((List.range count).flatMap fun index =>
        Element.renameAll (fun name => rowStart id index ++ name) children)) := by
  rw [visitAll_flatMap]
  refine .forM fun index _ => ?_
  refine visitAll_lockstep setting shared_sameOutcome children hplain ⟨?_, fun _ => trivial⟩
  intro name
  rw [scopedKey_row]
  rfl

theorem visit_unrolled {attributes : Attributes} (hvisibility : attributes.visibility = none)
    (hpatch : attributes.patch = none) {children : List Element}
    (hplain : ∀ x ∈ Element.elementsAll children, x.Plain) (bounds : RepetitionBounds)
    (scripts : ScriptEngine) (inputs : KeyMap Json) :
    let count := repetitions setting.config.repetition bounds (inputs.get? attributes.id)
    Matched (fun walk walk' => walk.state.SameOutcome walk'.state)
      ((visit setting none (.container attributes (.repeating bounds) children)).run
        (start scripts inputs))
      ((visit setting none (.unrolled attributes count children)).run
        (start scripts (spreadRows attributes.id count inputs))) := by
  intro count
  obtain ⟨spread, hstate, hrun⟩ :=
    visit_rows_run setting hvisibility hpatch bounds children scripts inputs
  have hstart : spread.state.SameOutcome (markVisibility attributes.id true
      (start scripts (spreadRows attributes.id count inputs))).state := by
    rw [hstate]
    exact ⟨rfl, rfl, rfl, rfl⟩
  rw [hrun, Element.unrolled, visit_open_run setting hvisibility hpatch]
  exact unrolled_lockstep setting hplain attributes.id count _ _ hstart

end Walk

namespace FormEngine

/--
Unrolling.  A repeating container without expressions of its own is derived like the group of its
copies over the values with its rows spread: both stop at the same failure, or the outcome is the
same.
-/
theorem derive_unrolled (engine : FormEngine) (attributes : Attributes) (bounds : RepetitionBounds)
    (children : List Element) (hvisibility : attributes.visibility = none)
    (hpatch : attributes.patch = none)
    (hplain : ∀ x ∈ Element.elementsAll children, x.Plain) (inputs globals : KeyMap Json) :
    let count := Walk.repetitions engine.config.repetition bounds (inputs.get? attributes.id)
    (∃ error,
      engine.derive (.container attributes (.repeating bounds) children) inputs globals =
        .error error ∧
      engine.derive (.unrolled attributes count children)
        (Walk.spreadRows attributes.id count inputs) globals = .error error) ∨
    (∃ state state',
      engine.derive (.container attributes (.repeating bounds) children) inputs globals =
        .ok state ∧
      engine.derive (.unrolled attributes count children)
        (Walk.spreadRows attributes.id count inputs) globals = .ok state' ∧
      state.SameOutcome state') := by
  intro count
  have hid : (Element.unrolled attributes count children).id =
      (Element.container attributes (.repeating bounds) children).id := rfl
  have hwalks := fun scripts => Walk.visit_unrolled ⟨engine.operators, engine.config⟩ hvisibility
    hpatch hplain bounds scripts inputs
  rcases engine.derive_matched hid hwalks globals with
    herror | ⟨walk, walk', hderive, hderive', hsame⟩
  · exact .inl herror
  · exact .inr ⟨walk.state, walk'.state, hderive, hderive', hsame⟩

theorem derive_unrolled_people :
    let engine : FormEngine := ⟨⟨.ofList [("logic.not", Operator.notOperator)]⟩, .empty, {}⟩
    let people : Attributes := ⟨"people", "", none, none, none⟩
    let married : Expression := .formula (.apply "logic.not" [.reference "single"])
    let children : List Element := [
      .field ⟨"single", "", none, none, none⟩ ⟨.checkbox, false, none, none, none, none⟩,
      .field ⟨"spouse", "", none, some married, none⟩ ⟨.text, true, none, none, none, none⟩]
    let inputs : KeyMap Json := .ofList [("people", .array [
      .object [("single", .bool true)], .object [("single", .bool false)]])]
    ∃ state state',
      engine.derive (.container people (.repeating ⟨0, none⟩) children) inputs .empty = .ok state ∧
      engine.derive (.unrolled people 2 children) (Walk.spreadRows "people" 2 inputs) .empty =
        .ok state' ∧
      state.SameOutcome state' ∧ state'.errors.keys = ["people_1_spouse"] := by
  intro engine people married children inputs
  have hplain : ∀ x ∈ Element.elementsAll children, x.Plain := by
    simp only [children, Element.elementsAll, Element.elements, List.cons_append, List.nil_append,
      List.forall_mem_cons]
    refine ⟨⟨rfl, ?_⟩, ⟨rfl, ?_⟩, by simp⟩ <;> decide +zetaReduce
  have hok : ∃ state, engine.derive (.unrolled people 2 children)
      (Walk.spreadRows "people" 2 inputs) .empty = .ok state ∧
        state.errors.keys = ["people_1_spouse"] := ⟨_, rfl, by decide +zetaReduce⟩
  obtain ⟨found, hfound, herrors⟩ := hok
  rcases derive_unrolled engine people ⟨0, none⟩ children rfl rfl hplain inputs .empty with
    ⟨error, -, herror⟩ | ⟨state, state', hderive, hderive', hsame⟩
  · have hunrolled := hfound.symm.trans herror
    cases hunrolled
  · have hunrolled := hfound.symm.trans hderive'
    cases hunrolled
    exact ⟨state, found, hderive, hfound, hsame, herrors⟩

end FormEngine

end FormDerivation
