import FormDerivation.Proofs.Derivation.Nesting

/-!
# What instances leave in the state

An instance puts entries under its own key only.  Where keys are distinct the state of a derivation
therefore has, under the key of every instance, what that instance has put there
(`FormEngine.derive_settled`), and it has nothing under other keys.
-/

namespace FormDerivation

/-! ## Entries under a key -/

/-- Two states have the same entries under a key; only a value may have been added. -/
structure FormState.AgreesAt (key : String) (s s' : FormState) : Prop where
  visibilities : s'.visibilities.get? key = s.visibilities.get? key
  errors : s'.errors.get? key = s.errors.get? key
  overrides : s'.overrides.get? key = s.overrides.get? key
  repetitions : s'.repetitions.get? key = s.repetitions.get? key
  values : ∀ value, s.values.get? key = some value → s'.values.get? key = some value

namespace FormState.AgreesAt

variable {key : String} {s t u : FormState}

theorem refl (key : String) (s : FormState) : AgreesAt key s s :=
  ⟨rfl, rfl, rfl, rfl, fun _ h => h⟩

theorem trans (h : AgreesAt key s t) (h' : AgreesAt key t u) : AgreesAt key s u where
  visibilities := h'.visibilities.trans h.visibilities
  errors := h'.errors.trans h.errors
  overrides := h'.overrides.trans h.overrides
  repetitions := h'.repetitions.trans h.repetitions
  values := fun value hvalue => h'.values value (h.values value hvalue)

theorem scopesWithin_eq {scope : Option String} {e : Element}
    (h : AgreesAt (scopedKey scope e.id) s t) :
    t.scopesWithin scope e = s.scopesWithin scope e := by
  cases e with
  | container attributes kind children =>
      cases kind with
      | repeating bounds =>
          have hcount : t.repetitions.get? (scopedKey scope attributes.id) =
              s.repetitions.get? (scopedKey scope attributes.id) := h.repetitions
          simp only [scopesWithin, hcount]
      | root steps => rfl
      | step => rfl
      | group => rfl
  | field attributes traits => rfl
  | content attributes text => rfl

end FormState.AgreesAt

def FormState.effectiveOf (state : FormState) (v : Instance) : Element :=
  (state.overrides.get? v.key).getD v.element

structure Instance.Settled (v : Instance) (state : FormState) : Prop where
  agrees : FormState.AgreesAt v.key v.after state
  visible : state.visibilities.get? v.key = some v.visible
  effective : state.effectiveOf v = v.effective

theorem Instance.Settled.later {v : Instance} {s t : FormState} (h : v.Settled s)
    (hagrees : FormState.AgreesAt v.key s t) : v.Settled t where
  agrees := h.agrees.trans hagrees
  visible := by rw [hagrees.visibilities, h.visible]
  effective := by
    rw [FormState.effectiveOf, hagrees.overrides]
    exact h.effective

theorem Instance.Settled.isVisible {v : Instance} {state : FormState} (h : v.Settled state) :
    state.isVisible v.key = v.visible := by
  rw [FormState.isVisible, h.visible]
  rfl

namespace Walk

open FormState (AgreesAt)

variable (setting : WalkSetting)

/-! ## The steps of an instance -/

theorem opened_state (scope : Option String) (e : Element) (walk : Walk) :
    ∃ (values : KeyMap Json) (count : Option Nat),
      (opened setting scope e walk).state = { walk.state with
        values := values
        repetitions := walk.state.repetitions.insertSome (scopedKey scope e.id) count } ∧
      ∀ key value, walk.state.values.get? key = some value → values.get? key = some value := by
  cases e with
  | container attributes kind children =>
      cases kind with
      | repeating bounds =>
          let count := repetitions setting.config.repetition bounds
            (walk.state.values.get? (scopedKey scope attributes.id))
          obtain ⟨values, hstate, hkept⟩ :=
            expandRows_state (scopedKey scope attributes.id) count walk
          refine ⟨values, some count, ?_, hkept⟩
          simp only [opened, spread, recordCount, count, hstate, KeyMap.insertSome]
          rfl
      | root steps => exact ⟨_, none, rfl, fun _ _ h => h⟩
      | step => exact ⟨_, none, rfl, fun _ _ h => h⟩
      | group => exact ⟨_, none, rfl, fun _ _ h => h⟩
  | field attributes traits => exact ⟨_, none, rfl, fun _ _ h => h⟩
  | content attributes text => exact ⟨_, none, rfl, fun _ _ h => h⟩

theorem opened_agreesAt {scope : Option String} {e : Element} {key : String}
    (hkey : key ≠ scopedKey scope e.id) (walk : Walk) :
    AgreesAt key walk.state (opened setting scope e walk).state := by
  obtain ⟨values, count, hstate, hkept⟩ := opened_state setting scope e walk
  rw [hstate]
  exact ⟨rfl, rfl, rfl, by simp [hkey], hkept key⟩

theorem enter_agreesAt {scope : Option String} {e : Element} {visible : Bool} {key : String}
    {walk entered : Walk} (h : (enter setting scope e).run walk = .ok (visible, entered))
    (hkey : key ≠ scopedKey scope e.id) : AgreesAt key walk.state entered.state := by
  obtain ⟨replaced, patched, failures, value, message, -, hstate, -⟩ := enter_state setting h
  rw [hstate]
  constructor <;> simp [hkey]

theorem markVisibility_agreesAt {own key : String} (hkey : key ≠ own) (visible : Bool)
    (walk : Walk) : AgreesAt key walk.state (markVisibility own visible walk).state := by
  constructor <;> simp [hkey]

theorem enter_own {scope : Option String} {e : Element} {visible : Bool} {walk entered : Walk}
    (h : (enter setting scope e).run walk = .ok (visible, entered))
    (hfresh : walk.state.overrides.get? (scopedKey scope e.id) = none) :
    entered.state.visibilities.get? (scopedKey scope e.id) = some visible ∧
      (entered.state.overrides.get? (scopedKey scope e.id)).getD e =
        effectiveAt setting scope e walk := by
  obtain ⟨replaced, patched, failures, value, message, hpatch, hstate, -⟩ := enter_state setting h
  rw [hstate]
  refine ⟨KeyMap.get?_insert_self _ _ _, ?_⟩
  simp [effectiveAt, hpatch, hfresh]

theorem enter_errors {scope : Option String} {e : Element} {visible : Bool} {key : String}
    {walk entered : Walk} (h : (enter setting scope e).run walk = .ok (visible, entered))
    (hkey : entered.state.errors.contains key = true) :
    walk.state.errors.contains key = true ∨
      scopedKey scope e.id = key ∧ visible = true ∧
        (effectiveAt setting scope e walk).isField = true := by
  obtain ⟨replaced, patched, failures, value, message, hpatch, hstate, hnone⟩ :=
    enter_state setting h
  have heffective : effectiveAt setting scope e walk = replaced.getD e := by
    simp only [effectiveAt, hpatch]
  rw [heffective]
  cases hfield : visible && (replaced.getD e).isField with
  | false =>
      obtain ⟨-, hmessage⟩ := hnone hfield
      left
      simpa [hstate, hmessage, KeyMap.insertSome] using hkey
  | true =>
      by_cases hown : key = scopedKey scope e.id
      · right
        exact ⟨hown.symm, by simpa using hfield⟩
      · left
        simpa [hstate, KeyMap.contains, hown] using hkey

/-! ## The record of a walk -/

/--
What a part of a walk does to the state with the instances that it comes to: nothing under other
keys, and where their keys are distinct every instance keeps what it has put there.
-/
structure Records (list : List Instance) (walk walk' : Walk) : Prop where
  frame : ∀ key, key ∉ list.map Instance.key → AgreesAt key walk.state walk'.state
  settled : (list.map Instance.key).Nodup →
    (∀ v ∈ list, walk.state.overrides.get? v.key = none) → ∀ v ∈ list, v.Settled walk'.state
  errors : ∀ key, walk'.state.errors.contains key = true →
    walk.state.errors.contains key = true ∨
      ∃ v ∈ list, v.key = key ∧ v.visible = true ∧ v.effective.isField = true

namespace Records

theorem nil (walk : Walk) : Records [] walk walk where
  frame := fun key _ => AgreesAt.refl key _
  settled := by simp
  errors := fun _ h => .inl h

theorem append {first second : List Instance} {walk between walk' : Walk}
    (h : Records first walk between) (h' : Records second between walk') :
    Records (first ++ second) walk walk' where
  frame := by
    intro key hkey
    rw [List.map_append, List.mem_append, not_or] at hkey
    exact (h.frame key hkey.1).trans (h'.frame key hkey.2)
  settled := by
    intro hnodup hfresh v hv
    rw [List.map_append, List.nodup_append] at hnodup
    obtain ⟨hfirst, hsecond, hdisjoint⟩ := hnodup
    rcases List.mem_append.mp hv with hv | hv
    · have hother : v.key ∉ second.map Instance.key := by
        intro hmem
        exact hdisjoint v.key (List.mem_map_of_mem hv) v.key hmem rfl
      have hsettled := h.settled hfirst (fun u hu => hfresh u (List.mem_append_left _ hu)) v hv
      exact hsettled.later (h'.frame v.key hother)
    · refine h'.settled hsecond (fun u hu => ?_) v hv
      have hother : u.key ∉ first.map Instance.key := by
        intro hmem
        exact hdisjoint u.key hmem u.key (List.mem_map_of_mem hu) rfl
      rw [(h.frame u.key hother).overrides]
      exact hfresh u (List.mem_append_right _ hu)
  errors := by
    intro key hkey
    rcases h'.errors key hkey with hkey | ⟨v, hv, hown⟩
    · rcases h.errors key hkey with hkey | ⟨v, hv, hown⟩
      · exact .inl hkey
      · exact .inr ⟨v, List.mem_append_left _ hv, hown⟩
    · exact .inr ⟨v, List.mem_append_right _ hv, hown⟩

variable {setting}

theorem entered {above : List Instance} {scope : Option String} {e : Element} {visible : Bool}
    {walk entered : Walk} (h : (enter setting scope e).run walk = .ok (visible, entered)) :
    Records [enteredInstance setting above scope e walk] walk
      (if visible then opened setting scope e entered else entered) := by
  obtain ⟨values, count, hopened, hkept⟩ := opened_state setting scope e entered
  rw [enteredInstance_eq setting above h]
  constructor
  · intro key hkey
    have hne : key ≠ scopedKey scope e.id := by simpa [Instance.key] using hkey
    have hentered := enter_agreesAt setting h hne
    cases visible with
    | true => exact hentered.trans (opened_agreesAt setting hne entered)
    | false => exact hentered
  · intro _ hfresh v hv
    cases List.mem_singleton.mp hv
    obtain ⟨hvisible, heffective⟩ := enter_own setting h (hfresh _ hv)
    refine ⟨AgreesAt.refl _ _, ?_, ?_⟩
    · cases visible with
      | true => simpa [hopened, Instance.key] using hvisible
      | false => exact hvisible
    · cases visible with
      | true => simpa [hopened, Instance.key, FormState.effectiveOf] using heffective
      | false => exact heffective
  · intro key hkey
    have hkey' : entered.state.errors.contains key = true := by
      cases visible with
      | true => simpa [hopened] using hkey
      | false => exact hkey
    rcases enter_errors setting h hkey' with hkey | hown
    · exact .inl hkey
    · exact .inr ⟨_, List.mem_singleton_self _, hown⟩

theorem hidden (above : List Instance) (scope : Option String) (e : Element) (walk : Walk) :
    Records [hiddenInstance above scope e walk] walk
      (markVisibility (scopedKey scope e.id) false walk) := by
  constructor
  · intro key hkey
    have hne : key ≠ scopedKey scope e.id := by
      simpa using hkey
    exact markVisibility_agreesAt hne false walk
  · intro _ hfresh v hv
    cases List.mem_singleton.mp hv
    have hnone : walk.state.overrides.get? (scopedKey scope e.id) = none := hfresh _ hv
    refine ⟨AgreesAt.refl _ _, KeyMap.get?_insert_self _ _ _, ?_⟩
    simp [markVisibility, hiddenInstance, Instance.key, FormState.effectiveOf, hnone]
  · intro key hkey
    exact .inl hkey

end Records

theorem compositional_records : Compositional setting Records where
  nil := .nil
  append := .append
  entered := by
    intro above scope e visible walk entered walk' below henter _ _ hbelow
    exact (Records.entered henter).append hbelow
  hidden := by
    intro above scope e walk walk' below _ hbelow
    exact (Records.hidden above scope e walk).append hbelow

end Walk

/-! ## The record of a derivation -/

namespace FormEngine

variable {engine : FormEngine} {tree : Element} {inputs globals : KeyMap Json} {state : FormState}

theorem instances_of_prepare {scripts : ScriptEngine}
    (h : prepare (.fresh engine.host engine.config.script) globals.toList = .ok scripts) :
    engine.instances tree inputs globals =
      Walk.instancesFrom ⟨engine.operators, engine.config⟩ [] none tree
        (.start scripts inputs) := by
  unfold instances
  rw [h]

theorem instances_nested (engine : FormEngine) (tree : Element) (inputs globals : KeyMap Json) :
    Walk.AllNested [] (engine.instances tree inputs globals) := by
  unfold instances
  split
  · exact (Walk.hereditary_allNested []).nil
  · exact Walk.instancesFrom_nested _ [] none tree _

/-- A relation that a walk has with its instances is one that a derivation has with them. -/
theorem compositional_of_derive {P : List Instance → Walk → Walk → Prop}
    (hP : Walk.Compositional ⟨engine.operators, engine.config⟩ P)
    (h : engine.derive tree inputs globals = .ok state) :
    ∃ walk walk', walk.state = .ofInputs inputs ∧ walk'.state = state ∧
      P (engine.instances tree inputs globals) walk walk' := by
  obtain ⟨scripts, walk', hprepare, hvisit, hstate⟩ := exists_visit_of_derive _ _ _ _ h
  rw [instances_of_prepare hprepare]
  exact ⟨_, walk', rfl, hstate, hP.visit [] hvisit⟩

theorem derive_covered (h : engine.derive tree inputs globals = .ok state) :
    Walk.AllCovered (engine.instances tree inputs globals) := by
  obtain ⟨walk, walk', -, -, hcovered⟩ :=
    compositional_of_derive (Walk.compositional_allCovered _) h
  exact hcovered

/-- A state has entries under the keys of instances only, besides values. -/
theorem derive_frame (h : engine.derive tree inputs globals = .ok state) {key : String}
    (hkey : key ∉ (engine.instances tree inputs globals).map Instance.key) :
    FormState.AgreesAt key (.ofInputs inputs) state := by
  obtain ⟨walk, walk', hstart, hend, hrecords⟩ :=
    compositional_of_derive (Walk.compositional_records _) h
  rw [← hstart, ← hend]
  exact hrecords.frame key hkey

/-- Where keys are distinct, a state has under the key of an instance what it has put there. -/
theorem derive_settled (h : engine.derive tree inputs globals = .ok state)
    (distinct : ((engine.instances tree inputs globals).map Instance.key).Nodup) :
    ∀ v ∈ engine.instances tree inputs globals, v.Settled state := by
  obtain ⟨walk, walk', hstart, hend, hrecords⟩ :=
    compositional_of_derive (Walk.compositional_records _) h
  rw [← hend]
  refine hrecords.settled distinct fun v _ => ?_
  rw [hstart]
  rfl

theorem derive_errors (h : engine.derive tree inputs globals = .ok state) {key : String}
    (hkey : state.errors.contains key = true) :
    ∃ v ∈ engine.instances tree inputs globals,
      v.key = key ∧ v.visible = true ∧ v.effective.isField = true := by
  obtain ⟨walk, walk', hstart, hend, hrecords⟩ :=
    compositional_of_derive (Walk.compositional_records _) h
  rw [← hend] at hkey
  rcases hrecords.errors key hkey with hnew | hown
  · rw [hstart] at hnew
    cases hnew
  · exact hown

end FormEngine

end FormDerivation
