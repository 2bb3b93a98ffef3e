import FormDerivation.Proofs.Derivation.Failures
import FormDerivation.Proofs.Derivation.OwnSteps
import FormDerivation.Proofs.Derivation.Rows

/-!
# Where values come from

Values differ from the inputs only where a visible field has computed one and where a visible
repeating container has spread its rows over keys without a value (`Walk.Writes`).  Where keys are
distinct this can be read off the state (`FormEngine.derive_values`).
-/

namespace FormDerivation

namespace FormState

def FailedAt (state : FormState) (key : String) (step : DerivationStep) : Prop :=
  ∃ failure ∈ state.failures, failure.key = key ∧ failure.step = step.name

structure Computed (state : FormState) (v : Instance) : Prop where
  visible : state.visibilities.get? v.key = some true
  computes : ∃ attributes traits, state.effectiveOf v = .field attributes traits ∧
    traits.compute.isSome = true
  succeeded : ¬ state.FailedAt v.key .compute

def RowEntry (state : FormState) (container key : String) (value : Json) : Prop :=
  ∃ count rows index row name, state.repetitions.get? container = some count ∧ index < count ∧
    state.values.get? container = some (.array rows) ∧ rows[index]? = some row ∧
    row.member? name = some value ∧ key = scopedKey (some (rowScope container index)) name

theorem RowEntry.later {s t : FormState} {container key : String} {value : Json}
    (h : s.RowEntry container key value) (hagrees : AgreesAt container s t) :
    t.RowEntry container key value := by
  obtain ⟨count, rows, index, row, name, hcount, hindex, hrows, hrow⟩ := h
  exact ⟨count, rows, index, row, name, hagrees.repetitions.trans hcount, hindex,
    hagrees.values _ hrows, hrow⟩

end FormState

namespace Walk

variable (setting : WalkSetting)

/-! ## Spreading rows -/

theorem eq_array_of_rowsOf {value : Option Json} {index : Nat} {row : Json}
    (h : (rowsOf value)[index]? = some row) : value = some (.array (rowsOf value)) := by
  cases value with
  | none => simp [rowsOf] at h
  | some value =>
      cases value with
      | array rows => rfl
      | _ => simp [rowsOf, Json.array?] at h

theorem get?_spreadRows_self (key : String) (count : Nat) (values : KeyMap Json) :
    (spreadRows key count values).get? key = values.get? key :=
  get?_spreadRows_other count values fun index name =>
    Element.id_ne_rowStart_append key name index

theorem get?_spreadRows_of_some {key other : String} {count : Nat} {values : KeyMap Json}
    {value : Json} (h : values.get? other = some value) :
    (spreadRows key count values).get? other = some value := by
  rw [spreadRows, KeyMap.get?_insertAllNew, h, Option.some_or]

theorem exists_of_get?_spreadRows_ne {key other : String} {count : Nat} {values : KeyMap Json}
    (h : (spreadRows key count values).get? other ≠ values.get? other) :
    values.get? other = none ∧ ∃ index row name value, index < count ∧
      values.get? key = some (.array (rowsOf (values.get? key))) ∧
      (rowsOf (values.get? key))[index]? = some row ∧ row.member? name = some value ∧
      other = rowStart key index ++ name ∧
      (spreadRows key count values).get? other = some value := by
  have hnone : values.get? other = none := by
    cases hother : values.get? other with
    | none => rfl
    | some value => exact absurd ((get?_spreadRows_of_some hother).trans hother.symm) h
  refine ⟨hnone, ?_⟩
  by_cases hkey : ∃ index name, other = rowStart key index ++ name
  · obtain ⟨index, name, rfl⟩ := hkey
    rw [hnone, get?_spreadRows, hnone, Option.none_or] at h
    obtain ⟨value, hvalue⟩ := Option.ne_none_iff_exists'.mp h
    obtain ⟨row, hrow, hmember⟩ := Option.bind_eq_some_iff.mp hvalue
    rw [List.getElem?_take] at hrow
    split at hrow
    · next hindex =>
      refine ⟨index, row, name, value, hindex, eq_array_of_rowsOf hrow, hrow, hmember, rfl, ?_⟩
      rw [get?_spreadRows, hnone, Option.none_or, hvalue]
    · cases hrow
  · refine absurd (get?_spreadRows_other count values fun index name heq => ?_) h
    exact hkey ⟨index, name, heq⟩

theorem opened_repeating (scope : Option String) {e : Element} (he : e.isRepeating = true)
    (walk : Walk) :
    let key := scopedKey scope e.id
    ∃ count, (opened setting scope e walk).state = { walk.state with
      values := spreadRows key count walk.state.values
      repetitions := walk.state.repetitions.insert key count } := by
  cases e with
  | container attributes kind children =>
      cases kind with
      | repeating bounds =>
          refine ⟨repetitions setting.config.repetition bounds
            (walk.state.values.get? (scopedKey scope attributes.id)), ?_⟩
          simp only [opened, spread, recordCount, expandRows_eq]
          rfl
      | _ => cases he
  | _ => cases he

theorem opened_of_not_repeating {scope : Option String} {e : Element} (he : e.isRepeating = false)
    (walk : Walk) : opened setting scope e walk = walk := by
  cases e with
  | container attributes kind children =>
      cases kind with
      | repeating bounds => cases he
      | _ => rfl
  | _ => rfl

theorem exists_of_opened_ne {scope : Option String} {e : Element} {walk : Walk} {key : String}
    (h : (opened setting scope e walk).state.values.get? key ≠ walk.state.values.get? key) :
    walk.state.values.get? key = none ∧ e.isRepeating = true ∧
      ∃ value, (opened setting scope e walk).state.values.get? key = some value ∧
        (opened setting scope e walk).state.RowEntry (scopedKey scope e.id) key value := by
  cases he : e.isRepeating with
  | false =>
      rw [opened_of_not_repeating setting he] at h
      exact absurd rfl h
  | true =>
      obtain ⟨count, hstate⟩ := opened_repeating setting scope he walk
      rw [hstate] at h ⊢
      obtain ⟨hnone, index, row, name, value, hindex, hrows, hrow, hmember, hkey, hvalue⟩ :=
        exists_of_get?_spreadRows_ne h
      refine ⟨hnone, rfl, value, hvalue, count, _, index, row, name, ?_, hindex, ?_, hrow, hmember, ?_⟩
      · exact KeyMap.get?_insert_self _ _ _
      · exact (get?_spreadRows_self _ _ _).trans hrows
      · rw [hkey, scopedKey_row]

theorem opened_spreads {scope : Option String} {e : Element} (he : e.isRepeating = true)
    (walk : Walk) :
    ∃ count,
      (opened setting scope e walk).state.repetitions.get? (scopedKey scope e.id) = some count ∧
      ∀ key value,
        (opened setting scope e walk).state.RowEntry (scopedKey scope e.id) key value →
        (opened setting scope e walk).state.values.contains key = true := by
  obtain ⟨count, hstate⟩ := opened_repeating setting scope he walk
  rw [hstate]
  refine ⟨count, KeyMap.get?_insert_self _ _ _, ?_⟩
  rintro key value ⟨count', rows, index, row, name, hcount, hindex, hrows, hrow, hmember, rfl⟩
  cases Option.some.inj (hcount.symm.trans (KeyMap.get?_insert_self _ _ _))
  have hvalues : walk.state.values.get? (scopedKey scope e.id) = some (.array rows) :=
    (get?_spreadRows_self _ _ _).symm.trans hrows
  have htaken : (rows.take count)[index]? = some row := by
    rw [List.getElem?_take, if_pos hindex, hrow]
  rw [KeyMap.contains, scopedKey_row, get?_spreadRows, hvalues]
  simp [rowsOf, Json.array?, htaken, hmember]

/-! ## Entering an element -/

section Enter

variable {scope : Option String} {e : Element} {visible : Bool} {walk entered : Walk}

theorem enter_adds (h : (enter setting scope e).run walk = .ok (visible, entered)) :
    Adds (fun failure => failure.key = scopedKey scope e.id) walk entered := by
  rcases enter_outcome setting h with ⟨-, hadds⟩ | ⟨-, hadds, -⟩
  · exact hadds
  · exact hadds.mono fun _ hfailure => hfailure.1

theorem enter_kept (h : (enter setting scope e).run walk = .ok (visible, entered)) {key : String}
    (hnone : entered.state.values.get? key = none) : walk.state.values.get? key = none := by
  rcases enter_outcome setting h with ⟨hvalues, -⟩ | ⟨-, -, -, value, hvalues⟩
  · rw [← hvalues, hnone]
  · by_cases hkey : key = scopedKey scope e.id
    · simp [hvalues, hkey] at hnone
    · simpa [hvalues, hkey] using hnone

theorem enter_changed (h : (enter setting scope e).run walk = .ok (visible, entered)) {key : String}
    (hchanged : entered.state.values.get? key ≠ walk.state.values.get? key) :
    scopedKey scope e.id = key ∧ visible = true ∧
      (∃ attributes traits, effectiveAt setting scope e walk = .field attributes traits ∧
        traits.compute.isSome = true) ∧
      Adds (fun failure => failure.step ≠ DerivationStep.compute.name) walk entered := by
  rcases enter_outcome setting h with ⟨hvalues, -⟩ | ⟨hvisible, hadds, hcomputes, value, hvalues⟩
  · rw [hvalues] at hchanged
    exact absurd rfl hchanged
  · have hkey : scopedKey scope e.id = key := by
      by_cases hkey : key = scopedKey scope e.id
      · exact hkey.symm
      · simp [hvalues, hkey] at hchanged
    exact ⟨hkey, hvisible, hcomputes, hadds.mono fun _ hfailure => hfailure.2⟩

end Enter

/-! ## Values of a walk -/

/--
What a part of a walk does to values and failures with the instances that it comes to.  A changed
value is computed, or it is an entry of a row under a key that had no value.
-/
structure Writes (list : List Instance) (walk walk' : Walk) : Prop where
  failures : Adds (fun failure => ∃ v ∈ list, failure.key = v.key) walk walk'
  kept : ∀ key, walk'.state.values.get? key = none → walk.state.values.get? key = none
  origin : (list.map Instance.key).Nodup →
    ∀ key, walk'.state.values.get? key ≠ walk.state.values.get? key →
      (∃ v ∈ list, v.key = key ∧ v.visible = true ∧
        (∃ attributes traits, v.effective = .field attributes traits ∧
          traits.compute.isSome = true) ∧
        Adds (fun failure => failure.key = key → failure.step ≠ DerivationStep.compute.name)
          walk walk') ∨
      (walk.state.values.get? key = none ∧ ∃ u ∈ list, u.visible = true ∧
        u.element.isRepeating = true ∧ ∃ value, walk'.state.values.get? key = some value ∧
          u.after.RowEntry u.key key value)
  spread : ∀ u ∈ list, u.visible = true → u.element.isRepeating = true →
    ∃ count, u.after.repetitions.get? u.key = some count ∧
      ∀ key value, u.after.RowEntry u.key key value → walk'.state.values.contains key = true

namespace Writes

theorem nil (walk : Walk) : Writes [] walk walk where
  failures := .of_eq rfl
  kept := fun _ h => h
  origin := fun _ key h => absurd rfl h
  spread := by simp

theorem adds_of_not_mem {list : List Instance} {walk walk' : Walk} (h : Writes list walk walk')
    {key : String} (hkey : key ∉ list.map Instance.key) {P : StepFailure → Prop} :
    Adds (fun failure => failure.key = key → P failure) walk walk' := by
  refine h.failures.mono ?_
  rintro failure ⟨v, hv, hfailure⟩ rfl
  exact absurd (List.mem_map.mpr ⟨v, hv, hfailure.symm⟩) hkey

theorem append {first second : List Instance} {walk between walk' : Walk}
    (h : Writes first walk between) (h' : Writes second between walk') :
    Writes (first ++ second) walk walk' where
  failures := by
    refine (h.failures.mono ?_).trans (h'.failures.mono ?_)
    · rintro failure ⟨v, hv, hfailure⟩
      exact ⟨v, List.mem_append_left _ hv, hfailure⟩
    · rintro failure ⟨v, hv, hfailure⟩
      exact ⟨v, List.mem_append_right _ hv, hfailure⟩
  kept := fun key hnone => h.kept key (h'.kept key hnone)
  origin := by
    intro hnodup key hchanged
    rw [List.map_append, List.nodup_append] at hnodup
    obtain ⟨hfirst, hsecond, hdisjoint⟩ := hnodup
    -- The part that changes the value last says where it comes from.
    by_cases hlater : walk'.state.values.get? key = between.state.values.get? key
    · rw [hlater] at hchanged ⊢
      rcases h.origin hfirst key hchanged with
        ⟨v, hv, hkey, hvisible, hcomputes, hadds⟩ | ⟨hnone, u, hu, hspread⟩
      · have hother : key ∉ second.map Instance.key := by
          intro hmem
          exact hdisjoint key (List.mem_map.mpr ⟨v, hv, hkey⟩) key hmem rfl
        exact .inl ⟨v, List.mem_append_left _ hv, hkey, hvisible, hcomputes,
          hadds.trans (h'.adds_of_not_mem hother)⟩
      · exact .inr ⟨hnone, u, List.mem_append_left _ hu, hspread⟩
    · rcases h'.origin hsecond key hlater with
        ⟨v, hv, hkey, hvisible, hcomputes, hadds⟩ | ⟨hnone, u, hu, hspread⟩
      · have hother : key ∉ first.map Instance.key := by
          intro hmem
          exact hdisjoint key hmem key (List.mem_map.mpr ⟨v, hv, hkey⟩) rfl
        exact .inl ⟨v, List.mem_append_right _ hv, hkey, hvisible, hcomputes,
          (h.adds_of_not_mem hother).trans hadds⟩
      · exact .inr ⟨h.kept key hnone, u, List.mem_append_right _ hu, hspread⟩
  spread := by
    intro u hu hvisible hrepeating
    rcases List.mem_append.mp hu with hu | hu
    · obtain ⟨count, hcount, hentries⟩ := h.spread u hu hvisible hrepeating
      refine ⟨count, hcount, fun key value hentry => ?_⟩
      -- What the first part has spread is still there: no part takes a value away.
      have hpresent := hentries key value hentry
      cases hlater : walk'.state.values.get? key with
      | some later => simp [KeyMap.contains, hlater]
      | none => simp [KeyMap.contains, h'.kept key hlater] at hpresent
    · exact h'.spread u hu hvisible hrepeating

variable {setting}

theorem hidden (above : List Instance) (scope : Option String) (e : Element) (walk : Walk) :
    Writes [hiddenInstance above scope e walk] walk
      (markVisibility (scopedKey scope e.id) false walk) where
  failures := .of_eq rfl
  kept := fun _ h => h
  origin := fun _ key h => absurd rfl h
  spread := by simp [hiddenInstance]

theorem entered {above : List Instance} {scope : Option String} {e : Element} {visible : Bool}
    {walk entered : Walk} (h : (enter setting scope e).run walk = .ok (visible, entered)) :
    Writes [enteredInstance setting above scope e walk] walk
      (if visible then opened setting scope e entered else entered) := by
  obtain ⟨values, count, hopened, hkept⟩ := opened_state setting scope e entered
  have hfailures : (if visible then opened setting scope e entered else entered).state.failures =
      entered.state.failures := by
    cases visible with
    | true => simp [hopened]
    | false => rfl
  have hvalues : ∀ key, (if visible then opened setting scope e entered else entered).state.values.get?
      key = none → entered.state.values.get? key = none := by
    intro key hnone
    cases visible with
    | false => exact hnone
    | true =>
        cases hvalue : entered.state.values.get? key with
        | none => rfl
        | some value =>
            rw [if_pos rfl, hopened] at hnone
            rw [hkept key value hvalue] at hnone
            cases hnone
  rw [enteredInstance_eq setting above h]
  constructor
  · refine ((enter_adds setting h).trans (.of_eq hfailures)).mono fun failure hkey => ?_
    exact ⟨_, List.mem_singleton_self _, hkey⟩
  · exact fun key hnone => enter_kept setting h (hvalues key hnone)
  · intro _ key hchanged
    by_cases hsame : (if visible then opened setting scope e entered else entered).state.values.get?
        key = entered.state.values.get? key
    · left
      rw [hsame] at hchanged
      obtain ⟨rfl, hvisible, hcomputes, hadds⟩ := enter_changed setting h hchanged
      refine ⟨_, List.mem_singleton_self _, rfl, hvisible, hcomputes, ?_⟩
      exact (hadds.trans (.of_eq hfailures)).mono fun _ hother _ => hother
    · right
      cases visible with
      | false => exact absurd rfl hsame
      | true =>
          obtain ⟨hnone, hrepeating, value, hvalue, hentry⟩ := exists_of_opened_ne setting hsame
          exact ⟨enter_kept setting h hnone, _, List.mem_singleton_self _, rfl, hrepeating, value,
            hvalue, hentry⟩
  · intro u hu hvisible hrepeating
    cases List.mem_singleton.mp hu
    cases hvisible
    exact opened_spreads setting hrepeating entered

end Writes

theorem sequential_writes : Sequential setting Writes where
  nil := .nil
  append := .append
  own := by
    intro v walk walk' h
    cases h with
    | entered above henter => exact .entered henter
    | hidden above scope e walk => exact .hidden above scope e walk

end Walk

/-! ## Values of a derivation -/

namespace FormEngine

/--
Where keys are distinct and no visible field has computed the value of a key, an input is kept, and
any other value is an entry of a row of a visible repeating container.  The rows that such a
container has when it is visited all have their values, within its count.
-/
theorem derive_values (engine : FormEngine) (tree : Element) (inputs globals : KeyMap Json)
    (state : FormState) (h : engine.derive tree inputs globals = .ok state)
    (distinct : ((engine.instances tree inputs globals).map Instance.key).Nodup) :
    (∀ key, (∀ v ∈ engine.instances tree inputs globals, state.Computed v → v.key ≠ key) →
      (∀ value, inputs.get? key = some value → state.values.get? key = some value) ∧
      (inputs.get? key = none → ∀ value, state.values.get? key = some value →
        ∃ u ∈ engine.instances tree inputs globals, u.element.isRepeating = true ∧
          state.visibilities.get? u.key = some true ∧ state.RowEntry u.key key value)) ∧
    (∀ u ∈ engine.instances tree inputs globals, u.element.isRepeating = true →
      state.visibilities.get? u.key = some true →
      ∃ count, state.repetitions.get? u.key = some count ∧
        ∀ rows, u.after.values.get? u.key = some (.array rows) →
          ∀ index < count, ∀ row, rows[index]? = some row →
            ∀ name value, row.member? name = some value →
              state.values.contains (scopedKey (some (rowScope u.key index)) name) = true) := by
  have hsettled := derive_settled h distinct
  obtain ⟨walk, walk', hstart, rfl, hwrites⟩ :=
    compositional_of_derive (Walk.sequential_writes _).compositional h
  constructor
  · intro key hcomputed
    have hchange : walk'.state.values.get? key ≠ inputs.get? key → inputs.get? key = none ∧
        ∃ u ∈ engine.instances tree inputs globals, u.visible = true ∧
          u.element.isRepeating = true ∧ ∃ value, walk'.state.values.get? key = some value ∧
            u.after.RowEntry u.key key value := by
      intro hchanged
      have horigin := hwrites.origin distinct key
      rw [hstart] at horigin
      rcases horigin hchanged with ⟨v, hv, hkey, hvisible, hcomputes, hadds⟩ | hspread
      · have hvsettled := hsettled v hv
        refine absurd hkey (hcomputed v hv ⟨?_, ?_, ?_⟩)
        · rw [hvsettled.visible, hvisible]
        · rwa [hvsettled.effective]
        · rw [hkey]
          obtain ⟨added, hfailures, hadded⟩ := hadds
          rintro ⟨failure, hfailure, hat, hstep⟩
          rw [hfailures, hstart] at hfailure
          exact hadded failure hfailure hat hstep
      · exact hspread
    constructor
    · intro value hvalue
      by_cases hsame : walk'.state.values.get? key = inputs.get? key
      · rw [hsame, hvalue]
      · have hnone := (hchange hsame).1
        rw [hvalue] at hnone
        cases hnone
    · intro hnone value hvalue
      have hchanged : walk'.state.values.get? key ≠ inputs.get? key := by
        rw [hvalue, hnone]
        simp
      obtain ⟨-, u, hu, hvisible, hrepeating, value', hvalue', hentry⟩ := hchange hchanged
      cases Option.some.inj (hvalue.symm.trans hvalue')
      refine ⟨u, hu, hrepeating, ?_, hentry.later (hsettled u hu).agrees⟩
      rw [(hsettled u hu).visible, hvisible]
  · intro u hu hrepeating hvisible
    rw [(hsettled u hu).visible] at hvisible
    obtain ⟨count, hcount, hentries⟩ := hwrites.spread u hu (Option.some.inj hvisible) hrepeating
    refine ⟨count, (hsettled u hu).agrees.repetitions.trans hcount, ?_⟩
    intro rows hrows index hindex row hrow name value hmember
    exact hentries _ value ⟨count, rows, index, row, name, hcount, hindex, hrows, hrow, hmember, rfl⟩

theorem derive_values_people :
    let engine : FormEngine := ⟨⟨.ofList [("logic.not", Operator.notOperator)]⟩, .empty, {}⟩
    let always : Expression := .formula (.apply "logic.not" [.constant (.bool false)])
    let tree : Element := .container ⟨"form", "", none, none, none⟩ .group [
      .field ⟨"adult", "", none, none, none⟩ ⟨.checkbox, false, none, none, none, some always⟩,
      .container ⟨"people", "", none, none, none⟩ (.repeating ⟨0, none⟩)
        [.field ⟨"name", "", none, none, none⟩ ⟨.text, false, none, none, none, none⟩]]
    let inputs : KeyMap Json := .ofList [("people", .array [.object [("role", .string "host")]])]
    ∃ state, engine.derive tree inputs .empty = .ok state ∧
      state.values.keys = ["adult", "people", "people_0_role"] ∧
      ∃ u ∈ engine.instances tree inputs .empty, u.element.isRepeating = true ∧
        state.visibilities.get? u.key = some true ∧
        ∃ value, state.RowEntry u.key "people_0_role" value := by
  intro engine always tree inputs
  have hkeys : (engine.instances tree inputs .empty).map Instance.key =
      ["form", "adult", "people", "people_0_name"] := by decide +kernel +zetaReduce
  have hvalues : (engine.derive tree inputs .empty).toOption.map (fun state =>
      (state.values.keys, state.values.contains "people_0_role")) =
        some (["adult", "people", "people_0_role"], true) := by decide +kernel +zetaReduce
  obtain ⟨state, h, hstate⟩ := exists_ok_of_map hvalues
  obtain ⟨hvalueKeys, hcontains⟩ := Prod.mk.inj hstate
  obtain ⟨value, hvalue⟩ := Option.isSome_iff_exists.mp hcontains
  have distinct : ((engine.instances tree inputs .empty).map Instance.key).Nodup := by
    rw [hkeys]
    decide
  have hnone : inputs.get? "people_0_role" = none := by simp [inputs, KeyMap.ofList, KeyMap.insertAll]
  have hother : ∀ v ∈ engine.instances tree inputs .empty, state.Computed v →
      v.key ≠ "people_0_role" := by
    intro v hv _ hkey
    have hmem := List.mem_map_of_mem (f := Instance.key) hv
    rw [hkeys, hkey] at hmem
    exact absurd hmem (by decide)
  obtain ⟨u, hu, hrepeating, hvisible, hentry⟩ :=
    ((derive_values engine tree inputs .empty state h distinct).1 _ hother).2 hnone value hvalue
  exact ⟨state, h, hvalueKeys, u, hu, hrepeating, hvisible, value, hentry⟩

end FormEngine

end FormDerivation
