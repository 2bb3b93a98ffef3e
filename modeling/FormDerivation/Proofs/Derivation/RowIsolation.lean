import FormDerivation.Proofs.Derivation.Lockstep

/-!
# Rows do not see each other

A repetition of a container reads and writes under keys that begin with its own prefix only.  What a
derivation says there depends on the values under these keys and on the row of the repetition, but
not on other rows (`FormEngine.derive_rows_isolated`).
-/

namespace FormDerivation

/-! ## States that agree under a key -/

structure FormState.SameAt (key : String) (s s' : FormState) : Prop where
  visibilities : s'.visibilities.get? key = s.visibilities.get? key
  values : s'.values.get? key = s.values.get? key
  errors : s'.errors.get? key = s.errors.get? key
  repetitions : s'.repetitions.get? key = s.repetitions.get? key

namespace FormState.SameAt

variable {key : String} {s t u v : FormState}

theorem refl (key : String) (s : FormState) : SameAt key s s :=
  ⟨rfl, rfl, rfl, rfl⟩

theorem symm (h : SameAt key s t) : SameAt key t s :=
  ⟨h.visibilities.symm, h.values.symm, h.errors.symm, h.repetitions.symm⟩

theorem trans (h : SameAt key s t) (h' : SameAt key t u) : SameAt key s u where
  visibilities := h'.visibilities.trans h.visibilities
  values := h'.values.trans h.values
  errors := h'.errors.trans h.errors
  repetitions := h'.repetitions.trans h.repetitions

end FormState.SameAt

namespace Walk

open FormState (SameAt)

section Changes

variable {key own : String} {walk walk' : Walk} (h : SameAt own walk.state walk'.state)

include h

theorem markVisibility_sameAt (key : String) (visible : Bool) :
    SameAt own (markVisibility key visible walk).state
      (markVisibility key visible walk').state := by
  constructor <;> simp [h.visibilities, h.values, h.errors, h.repetitions]

theorem setValue_sameAt (key : String) (value : Json) :
    SameAt own (setValue key value walk).state (setValue key value walk').state := by
  constructor <;> simp [h.visibilities, h.values, h.errors, h.repetitions]

theorem recordError_sameAt (key message : String) :
    SameAt own (recordError key message walk).state (recordError key message walk').state := by
  constructor <;> simp [h.visibilities, h.values, h.errors, h.repetitions]

theorem recordCount_sameAt (key : String) (count : Nat) :
    SameAt own (recordCount key count walk).state (recordCount key count walk').state := by
  constructor <;> simp [h.visibilities, h.values, h.errors, h.repetitions]

end Changes

theorem shared_sameAt (region : String → Prop) :
    Shared (fun walk walk' => ∀ key, region key → SameAt key walk.state walk'.state) region where
  values := fun h hkey => (h _ hkey).values
  recordFailure := fun _ _ h _ key hkey =>
    ⟨(h key hkey).visibilities, (h key hkey).values, (h key hkey).errors, (h key hkey).repetitions⟩
  markVisibility := fun visible h _ key hkey => markVisibility_sameAt (h key hkey) _ visible
  setValue := fun value h _ key hkey => setValue_sameAt (h key hkey) _ value
  recordError := fun message h _ key hkey => recordError_sameAt (h key hkey) _ message
  recordCount := fun count h _ key hkey => recordCount_sameAt (h key hkey) _ count

section Apart

variable {key own : String} (h : own ≠ key) (walk : Walk)

include h

theorem markVisibility_apart (visible : Bool) :
    SameAt own walk.state (markVisibility key visible walk).state := by
  constructor <;> simp [h]

theorem setValue_apart (value : Json) :
    SameAt own walk.state (setValue key value walk).state := by
  constructor <;> simp [h]

theorem recordError_apart (message : String) :
    SameAt own walk.state (recordError key message walk).state := by
  constructor <;> simp [h]

theorem recordCount_apart (count : Nat) :
    SameAt own walk.state (recordCount key count walk).state := by
  constructor <;> simp [h]

end Apart

theorem ne_of_outside {region : String → Prop} {key own : String} (hkey : region key)
    (hown : ¬ region own) : own ≠ key := by
  rintro rfl
  exact hown hkey

theorem shared_frame (first : Walk) (region : String → Prop) :
    Shared (fun walk walk' => walk' = walk ∧
      ∀ key, ¬ region key → SameAt key first.state walk.state) region where
  values := fun h _ => by rw [h.1]
  recordFailure := by
    intro walk walk' site site' step error h hkey
    refine ⟨by simp only [recordFailure, h.1, hkey], fun key hother => ?_⟩
    exact (h.2 key hother).trans ⟨rfl, rfl, rfl, rfl⟩
  markVisibility := fun visible h hkey => ⟨by rw [h.1], fun own hown =>
    (h.2 own hown).trans (markVisibility_apart (ne_of_outside hkey hown) _ visible)⟩
  setValue := fun value h hkey => ⟨by rw [h.1], fun own hown =>
    (h.2 own hown).trans (setValue_apart (ne_of_outside hkey hown) _ value)⟩
  recordError := fun message h hkey => ⟨by rw [h.1], fun own hown =>
    (h.2 own hown).trans (recordError_apart (ne_of_outside hkey hown) _ message)⟩
  recordCount := fun count h hkey => ⟨by rw [h.1], fun own hown =>
    (h.2 own hown).trans (recordCount_apart (ne_of_outside hkey hown) _ count)⟩

/-! ## Rows -/

def InRow (id : String) (index : Nat) (key : String) : Prop :=
  ∃ name, key = rowStart id index ++ name

theorem inRow_scopedKey (id : String) (index : Nat) (name : String) :
    InRow id index (scopedKey (some (rowScope id index)) name) :=
  ⟨name, scopedKey_row id name index⟩

theorem not_inRow_of_inRow {id key : String} {i j : Nat} (h : InRow id i key) (hne : i ≠ j) :
    ¬ InRow id j key := by
  obtain ⟨name, rfl⟩ := h
  rintro ⟨name', hkey⟩
  exact hne (Element.rowStart_append_inj hkey)

section Visits

variable (setting : WalkSetting) {children : List Element}
  (hplain : ∀ x ∈ Element.elementsAll children, x.Plain)

include hplain

theorem row_lockstep {R : Walk → Walk → Prop} {id : String} {index : Nat}
    (shared : Shared R (InRow id index)) :
    Lockstep R (visitAll setting (some (rowScope id index)) children)
      (visitAll setting (some (rowScope id index)) children) := by
  have hself : SameKeys (InRow id index) (fun name => name) (some (rowScope id index))
      (some (rowScope id index)) := ⟨fun _ => rfl, inRow_scopedKey id index⟩
  have hlockstep := visitAll_lockstep setting shared children hplain hself
  rwa [Element.renameAll_self] at hlockstep

theorem visitAll_row_frame {id : String} {index : Nat} {walk walk' : Walk}
    (h : (visitAll setting (some (rowScope id index)) children).run walk = .ok ((), walk'))
    {key : String} (hkey : ¬ InRow id index key) : SameAt key walk.state walk'.state := by
  have hlockstep := row_lockstep setting hplain (shared_frame walk (InRow id index)) walk walk
    ⟨rfl, fun key _ => SameAt.refl key _⟩
  rw [h] at hlockstep
  cases hlockstep with
  | ok _ hrelated => exact hrelated.2 key hkey

theorem visitAll_row_same {id : String} {index : Nat} {walk walk' last last' : Walk}
    (hsame : ∀ key, InRow id index key → SameAt key walk.state walk'.state)
    (h : (visitAll setting (some (rowScope id index)) children).run walk = .ok ((), last))
    (h' : (visitAll setting (some (rowScope id index)) children).run walk' = .ok ((), last')) :
    ∀ key, InRow id index key → SameAt key last.state last'.state := by
  have hlockstep := row_lockstep setting hplain (shared_sameAt (InRow id index)) walk walk' hsame
  rw [h, h'] at hlockstep
  cases hlockstep with
  | ok _ hrelated => exact hrelated

theorem visitRows_same {id : String} {index : Nat} {indices : List Nat}
    {walk walk' last last' : Walk}
    (hsame : ∀ key, InRow id index key → SameAt key walk.state walk'.state)
    (h : (forM indices fun i => visitAll setting (some (rowScope id i)) children).run walk =
      .ok ((), last))
    (h' : (forM indices fun i => visitAll setting (some (rowScope id i)) children).run walk' =
      .ok ((), last')) :
    ∀ key, InRow id index key → SameAt key last.state last'.state := by
  induction indices generalizing walk walk' with
  | nil =>
      cases h
      cases h'
      exact hsame
  | cons i rest ih =>
      rw [List.forM_cons] at h h'
      obtain ⟨⟨⟩, between, hrow, hrest⟩ := exists_of_run_bind_eq_ok h
      obtain ⟨⟨⟩, between', hrow', hrest'⟩ := exists_of_run_bind_eq_ok h'
      refine ih ?_ hrest hrest'
      by_cases hindex : index = i
      · subst hindex
        exact visitAll_row_same setting hplain hsame hrow hrow'
      · -- Another repetition leaves the keys of this one alone in both walks.
        intro key hkey
        have hother := not_inRow_of_inRow hkey hindex
        have hframe := visitAll_row_frame setting hplain hrow hother
        have hframe' := visitAll_row_frame setting hplain hrow' hother
        exact (hframe.symm.trans (hsame key hkey)).trans hframe'

end Visits

/-! ## Inputs -/

/-- Two values of a container that ask for equally many repetitions and differ in one row only. -/
def SameRows (other : Nat) (value value' : Option Json) : Prop :=
  value' = value ∨ ∃ rows rows', value = some (.array rows) ∧ value' = some (.array rows') ∧
    rows'.length = rows.length ∧ ∀ index, index ≠ other → rows'[index]? = rows[index]?

theorem SameRows.repetitions_eq {other : Nat} {value value' : Option Json}
    (h : SameRows other value value') (policy : RepetitionPolicy) (bounds : RepetitionBounds) :
    repetitions policy bounds value' = repetitions policy bounds value := by
  rcases h with rfl | ⟨rows, rows', rfl, rfl, hlength, -⟩
  · rfl
  · simp only [repetitions, hlength]

theorem SameRows.row_eq {other index : Nat} {value value' : Option Json}
    (h : SameRows other value value') (hne : index ≠ other) :
    (rowsOf value')[index]? = (rowsOf value)[index]? := by
  rcases h with rfl | ⟨rows, rows', rfl, rfl, -, hrows⟩
  · rfl
  · exact hrows index hne

theorem spreadRows_same {id : String} {other index : Nat} {inputs inputs' : KeyMap Json}
    (hne : index ≠ other)
    (hinputs : ∀ key, InRow id index key → inputs'.get? key = inputs.get? key)
    (hrows : SameRows other (inputs.get? id) (inputs'.get? id)) (count : Nat) {key : String}
    (hkey : InRow id index key) :
    (spreadRows id count inputs').get? key = (spreadRows id count inputs).get? key := by
  have hvalue := hinputs key hkey
  obtain ⟨name, rfl⟩ := hkey
  rw [get?_spreadRows, get?_spreadRows, hvalue, List.getElem?_take, List.getElem?_take,
    hrows.row_eq hne]

end Walk

namespace FormEngine

/--
Isolation of rows.  Inputs of an open repeating container that differ in one of its repetitions only
are derived to the same entries in every other one.
-/
theorem derive_rows_isolated (engine : FormEngine) (attributes : Attributes)
    (bounds : RepetitionBounds) (children : List Element)
    (hvisibility : attributes.visibility = none) (hpatch : attributes.patch = none)
    (hplain : ∀ x ∈ Element.elementsAll children, x.Plain) (inputs inputs' globals : KeyMap Json)
    (other : Nat)
    (hinputs : ∀ key, key ≠ attributes.id → ¬ Walk.InRow attributes.id other key →
      inputs'.get? key = inputs.get? key)
    (hrows : Walk.SameRows other (inputs.get? attributes.id) (inputs'.get? attributes.id))
    (state state' : FormState)
    (h : engine.derive (.container attributes (.repeating bounds) children) inputs globals =
      .ok state)
    (h' : engine.derive (.container attributes (.repeating bounds) children) inputs' globals =
      .ok state')
    (index : Nat) (hindex : index ≠ other) (key : String)
    (hkey : Walk.InRow attributes.id index key) : FormState.SameAt key state state' := by
  obtain ⟨scripts, walk, hprepare, hvisit, rfl⟩ := exists_visit_of_derive engine _ _ _ h
  obtain ⟨scripts', walk', hprepare', hvisit', rfl⟩ := exists_visit_of_derive engine _ _ _ h'
  obtain ⟨spread, hspread, hrun⟩ := Walk.visit_rows_run ⟨engine.operators, engine.config⟩
    hvisibility hpatch bounds children scripts inputs
  obtain ⟨spread', hspread', hrun'⟩ := Walk.visit_rows_run ⟨engine.operators, engine.config⟩
    hvisibility hpatch bounds children scripts' inputs'
  rw [hrun] at hvisit
  rw [hrun', hrows.repetitions_eq] at hvisit'
  rw [hrows.repetitions_eq] at hspread'
  refine Walk.visitRows_same _ hplain ?_ hvisit hvisit' key hkey
  intro key hkey
  have hsame : ∀ key, Walk.InRow attributes.id index key → inputs'.get? key = inputs.get? key := by
    intro key hkey
    refine hinputs key ?_ (Walk.not_inRow_of_inRow hkey hindex)
    obtain ⟨name, rfl⟩ := hkey
    exact (Element.id_ne_rowStart_append attributes.id name index).symm
  rw [hspread, hspread']
  exact ⟨rfl, Walk.spreadRows_same hindex hsame hrows _ hkey, rfl, rfl⟩

theorem derive_rows_isolated_people :
    let engine : FormEngine := ⟨⟨.ofList [("logic.not", Operator.notOperator)]⟩, .empty, {}⟩
    let people : Attributes := ⟨"people", "", none, none, none⟩
    let children : List Element := [
      .field ⟨"name", "", none, none, none⟩ ⟨.text, true, none, none, none, none⟩]
    let tree : Element := .container people (.repeating ⟨0, none⟩) children
    let inputs : KeyMap Json := .ofList [("people", .array [.object [("name", .string "Ada")],
      .object [("name", .string "Eve")]])]
    let inputs' : KeyMap Json := .ofList [("people", .array [.object [("name", .string "Ada")],
      .object []])]
    ∃ state state', engine.derive tree inputs .empty = .ok state ∧
      engine.derive tree inputs' .empty = .ok state' ∧ state.errors.keys = [] ∧
      state'.errors.keys = ["people_1_name"] ∧ FormState.SameAt "people_0_name" state state' := by
  intro engine people children tree inputs inputs'
  have hplain : ∀ x ∈ Element.elementsAll children, x.Plain := by
    simp only [children, Element.elementsAll, Element.elements, List.cons_append, List.nil_append,
      List.forall_mem_cons]
    exact ⟨⟨rfl, by simp [Element.expressions]⟩, by simp⟩
  have hinputs : ∀ key, key ≠ "people" → ¬ Walk.InRow "people" 1 key →
      inputs'.get? key = inputs.get? key := by
    intro key hkey _
    simp [inputs, inputs', KeyMap.ofList, KeyMap.insertAll, hkey]
  have hrows : Walk.SameRows 1 (inputs.get? "people") (inputs'.get? "people") := by
    refine .inr ⟨_, _, rfl, rfl, rfl, ?_⟩
    intro index hindex
    rcases index with _ | _ | index
    · rfl
    · exact absurd rfl hindex
    · rfl
  have hbefore : (engine.derive tree inputs .empty).toOption.map (·.errors.keys) = some [] := by
    decide +kernel +zetaReduce
  have hafter : (engine.derive tree inputs' .empty).toOption.map (·.errors.keys) =
      some ["people_1_name"] := by decide +kernel +zetaReduce
  obtain ⟨state, h, herrors⟩ := exists_ok_of_map hbefore
  obtain ⟨state', h', herrors'⟩ := exists_ok_of_map hafter
  refine ⟨state, state', h, h', herrors, herrors', ?_⟩
  exact derive_rows_isolated engine people ⟨0, none⟩ children rfl rfl hplain inputs inputs' .empty 1
    hinputs hrows state state' h h' 0 (by decide) "people_0_name" ⟨"name", by decide⟩

end FormEngine

end FormDerivation
