import FormDerivation.Proofs.Derivation.Record
import FormDerivation.Summary

/-!
# What a summary shows of a derivation

A summary is a second walk over the tree, by the state that a derivation has left.  Its rows are
those of the visible fields among the instances, except that it stops at every field, while a
derivation goes on below a container that a patch has made one.
-/

namespace FormDerivation.Summary

/-- Whether an instance is visible and, once it is patched, a field. -/
def isVisibleField (state : FormState) (v : Instance) : Bool :=
  state.isVisible v.key && (state.effectiveOf v).isField

def isBelowField (state : FormState) (v : Instance) : Bool :=
  v.above.any fun u => (state.effectiveOf u).isField

def instanceRow (state : FormState) (v : Instance) : SummaryRow :=
  rowOf state v.key v.above.length (state.effectiveOf v)

def listedRows (state : FormState) (list : List Instance) : List SummaryRow :=
  (list.filter fun v => isVisibleField state v && !isBelowField state v).map (instanceRow state)

section Listed

variable {state : FormState}

@[simp] theorem listedRows_append (first second : List Instance) :
    listedRows state (first ++ second) = listedRows state first ++ listedRows state second := by
  simp [listedRows]

theorem listedRows_cons (v : Instance) (list : List Instance) :
    listedRows state (v :: list) = listedRows state [v] ++ listedRows state list :=
  listedRows_append [v] list

theorem listedRows_eq_nil {list : List Instance}
    (h : ∀ v ∈ list, isVisibleField state v = true → isBelowField state v = true) :
    listedRows state list = [] := by
  unfold listedRows
  rw [List.map_eq_nil_iff, List.filter_eq_nil_iff]
  intro v hv hlisted
  rw [Bool.and_eq_true, Bool.not_eq_true'] at hlisted
  rw [h v hv hlisted.1] at hlisted
  cases hlisted.2

theorem listedRows_of_allHidden {list : List Instance} (h : Walk.AllHidden list)
    (hsettled : ∀ v ∈ list, v.Settled state) : listedRows state list = [] := by
  refine listedRows_eq_nil fun v hv hshown => ?_
  rw [isVisibleField, (hsettled v hv).isVisible, h v hv] at hshown
  cases hshown

theorem listedRows_of_allNested (above : List Instance) {list : List Instance}
    (h : Walk.AllNested above list)
    (hfield : ∃ u ∈ above, (state.effectiveOf u).isField = true) : listedRows state list = [] := by
  refine listedRows_eq_nil fun v hv _ => ?_
  obtain ⟨u, hu, hfield⟩ := hfield
  obtain ⟨between, habove, -⟩ := h v hv
  rw [isBelowField, List.any_eq_true, habove]
  exact ⟨u, List.mem_append_right _ hu, hfield⟩

theorem listedRows_singleton {v : Instance}
    (habove : ∀ u ∈ v.above, (state.effectiveOf u).isField = false) :
    listedRows state [v] = if isVisibleField state v then [instanceRow state v] else [] := by
  have hbelow : isBelowField state v = false := by
    rw [isBelowField, List.any_eq_false]
    intro u hu
    rw [habove u hu]
    exact Bool.false_ne_true
  cases hshown : isVisibleField state v with
  | true => simp [listedRows, hshown, hbelow]
  | false => simp [listedRows, hshown]

end Listed

/-! ## The rows of an element -/

theorem eachRow_eq_flatMap {α : Type} (key : String) (f : Option String → List α) (count : Nat) :
    eachRow key (fun row => f (some row)) count =
      ((List.range count).map fun index => some (rowScope key index)).flatMap f := by
  rw [eachRow, List.flatMap_map]

theorem rowsFrom_container (state : FormState) (scope : Option String) (depth : Nat)
    (attributes : Attributes) (kind : Container) (children : List Element) :
    let e : Element := .container attributes kind children
    let key := scopedKey scope attributes.id
    let effective := (state.overrides.get? key).getD e
    rowsFrom state scope depth e =
      if !state.isVisible key then []
      else if effective.isField then [rowOf state key depth effective]
      else (state.scopesWithin scope e).flatMap fun scope =>
        rowsFromAll state scope (depth + 1) children := by
  intro e key effective
  unfold rowsFrom
  by_cases hvisible : (!state.isVisible key) = true
  · rw [if_pos hvisible, if_pos hvisible]
  · rw [if_neg hvisible, if_neg hvisible]
    cases kind with
    | repeating bounds =>
        have hrows := eachRow_eq_flatMap key
          (fun scope => rowsFromAll state scope (depth + 1) children)
          ((state.repetitions.get? key).getD 0)
        cases hoverride : state.overrides.get? key with
        | none =>
            simp only [effective, hoverride]
            exact hrows
        | some replaced =>
            simp only [effective, hoverride]
            cases replaced with
            | field attributes' traits => rfl
            | _ => exact hrows
    | _ =>
        have hrows : [scope].flatMap (fun scope => rowsFromAll state scope (depth + 1) children) =
            rowsFromAll state scope (depth + 1) children := List.flatMap_singleton _ _
        cases hoverride : state.overrides.get? key with
        | none =>
            simp only [effective, hoverride]
            exact hrows.symm
        | some replaced =>
            simp only [effective, hoverride]
            cases replaced with
            | field attributes' traits => rfl
            | _ => exact hrows.symm

theorem rowsFrom_of_settled {state : FormState} {v : Instance} {above below : List Instance}
    {scope : Option String} {attributes : Attributes} {kind : Container} {children : List Element}
    (helement : v.element = .container attributes kind children) (hscope : v.scope = scope)
    (haround : v.above = above) (hv : v.Settled state)
    (habove : ∀ u ∈ above, (state.effectiveOf u).isField = false)
    (hhidden : v.visible = false → listedRows state below = [])
    (hfield : (state.effectiveOf v).isField = true → listedRows state below = [])
    (hbelow : v.visible = true → (state.effectiveOf v).isField = false →
      ((state.scopesWithin scope (.container attributes kind children)).flatMap fun scope =>
        rowsFromAll state scope (above.length + 1) children) = listedRows state below) :
    rowsFrom state scope above.length (.container attributes kind children) =
      listedRows state (v :: below) := by
  subst hscope haround
  have hkey : scopedKey v.scope attributes.id = v.key := by
    rw [Instance.key, helement]
    rfl
  have heffective : (state.overrides.get? v.key).getD (.container attributes kind children) =
      state.effectiveOf v := by
    rw [FormState.effectiveOf, helement]
  rw [listedRows_cons, listedRows_singleton habove, isVisibleField, rowsFrom_container, hkey,
    heffective, hv.isVisible]
  cases hvisible : v.visible with
  | false => simp [hhidden hvisible]
  | true =>
      cases hshown : (state.effectiveOf v).isField with
      | true => simp [hfield hshown, instanceRow]
      | false => simpa using hbelow hvisible hshown

/-! ## Both walks -/

section Visited

open Walk (enter visit visitAll instancesFrom instancesFromAll enteredInstance listScopes)

variable {setting : WalkSetting} {state : FormState}

theorem leafRows_of_entered {above : List Instance} {scope : Option String} {e : Element}
    {walk : Walk} (habove : ∀ u ∈ above, (state.effectiveOf u).isField = false) :
    leafRows state scope above.length e =
      listedRows state [enteredInstance setting above scope e walk] := by
  have hnone : ∀ u ∈ (enteredInstance setting above scope e walk).above,
      (state.effectiveOf u).isField = false := by
    rw [Walk.enteredInstance_above]
    exact habove
  rw [listedRows_singleton hnone]
  simp [leafRows, isVisibleField, instanceRow, FormState.effectiveOf]

theorem flatMap_eq_listedRows {part : Option String → WalkM Unit}
    {inner : Option String → Walk → List Instance} {rows : Option String → List SummaryRow}
    (hpart : ∀ scope walk walk', (part scope).run walk = .ok ((), walk') →
      (∀ v ∈ inner scope walk, v.Settled state) → rows scope = listedRows state (inner scope walk))
    {scopes : List (Option String)} {walk walk' : Walk}
    (h : (forM scopes part).run walk = .ok ((), walk'))
    (hsettled : ∀ v ∈ listScopes part inner scopes walk, v.Settled state) :
    scopes.flatMap rows = listedRows state (listScopes part inner scopes walk) := by
  induction scopes generalizing walk with
  | nil => rfl
  | cons scope scopes ih =>
      rw [List.forM_cons] at h
      obtain ⟨⟨⟩, between, hfirst, hrest⟩ := Walk.exists_of_run_bind_eq_ok h
      rw [listScopes, Walk.listFrom_of_run hfirst] at hsettled ⊢
      rw [List.flatMap_cons, listedRows_append]
      have hscope := hpart scope walk between hfirst
        fun v hv => hsettled v (List.mem_append_left _ hv)
      have hscopes := ih hrest fun v hv => hsettled v (List.mem_append_right _ hv)
      rw [hscope, hscopes]

mutual

/-- Outside fields a summary has the rows of the instances that a visit comes to. -/
theorem rowsFrom_of_visit {above : List Instance} {scope : Option String} {walk walk' : Walk}
    (habove : ∀ u ∈ above, (state.effectiveOf u).isField = false) : {e : Element} →
    (visit setting scope e).run walk = .ok ((), walk') →
    (∀ v ∈ instancesFrom setting above scope e walk, v.Settled state) →
    rowsFrom state scope above.length e =
      listedRows state (instancesFrom setting above scope e walk)
  | .container attributes kind children, h, hsettled => by
      rw [visit] at h
      obtain ⟨visible, entered, henter, h⟩ := Walk.exists_of_run_bind_eq_ok h
      have hvisible : (enteredInstance setting above scope (.container attributes kind children)
          walk).visible = visible := Walk.enteredInstance_visible setting henter
      cases visible with
      | true =>
          rw [if_pos rfl, Walk.visitWithin_run] at h
          rw [Walk.instancesFrom_of_visible setting henter] at hsettled ⊢
          obtain ⟨hown, hlist⟩ := List.forall_mem_cons.mp hsettled
          refine rowsFrom_of_settled (by simp) (by simp) (by simp) hown habove ?_ ?_ ?_
          · intro hhidden
            rw [hvisible] at hhidden
            cases hhidden
          · -- The summary stops at a field; what the walk comes to below it has no row.
            intro hfield
            refine listedRows_of_allNested (_ :: above) ?_ ⟨_, List.mem_cons_self, hfield⟩
            refine (Walk.hereditary_allNested _).scopes ?_ _
            intro scope' _
            exact Walk.instancesFromAll_nested setting _ scope' children
          · intro _ hcontainer
            have hscopes := hown.agrees.scopesWithin_eq
            rw [Walk.enteredInstance_scope, Walk.enteredInstance_element,
              Walk.enteredInstance_scopesWithin setting henter] at hscopes
            rw [hscopes]
            have habove' : ∀ u ∈ enteredInstance setting above scope
                (.container attributes kind children) walk :: above,
                (state.effectiveOf u).isField = false :=
              List.forall_mem_cons.mpr ⟨hcontainer, habove⟩
            refine flatMap_eq_listedRows ?_ h hlist
            intro scope' _ _ hrun hsettled'
            exact rowsFromAll_of_visitAll habove' hrun hsettled'
      | false =>
          rw [Walk.instancesFrom_of_hidden setting henter] at hsettled ⊢
          obtain ⟨hown, hlist⟩ := List.forall_mem_cons.mp hsettled
          have hnone := listedRows_of_allHidden
            (Walk.hiddenScopes_allHidden setting _ children _ _) hlist
          refine rowsFrom_of_settled (by simp) (by simp) (by simp) hown habove
            (fun _ => hnone) (fun _ => hnone) fun hshown => ?_
          rw [hvisible] at hshown
          cases hshown
  | .field attributes traits, h, hsettled => by
      rw [rowsFrom, instancesFrom]
      exact leafRows_of_entered habove
  | .content attributes text, h, hsettled => by
      rw [rowsFrom, instancesFrom]
      exact leafRows_of_entered habove

theorem rowsFromAll_of_visitAll {above : List Instance} {scope : Option String}
    {walk walk' : Walk} (habove : ∀ u ∈ above, (state.effectiveOf u).isField = false) :
    {es : List Element} → (visitAll setting scope es).run walk = .ok ((), walk') →
    (∀ v ∈ instancesFromAll setting above scope es walk, v.Settled state) →
    rowsFromAll state scope above.length es =
      listedRows state (instancesFromAll setting above scope es walk)
  | [], _, _ => rfl
  | e :: rest, h, hsettled => by
      rw [visitAll] at h
      obtain ⟨⟨⟩, between, hfirst, hrest⟩ := Walk.exists_of_run_bind_eq_ok h
      rw [instancesFromAll, Walk.listFrom_of_run hfirst] at hsettled ⊢
      rw [rowsFromAll, listedRows_append]
      have hrow := rowsFrom_of_visit habove hfirst
        fun v hv => hsettled v (List.mem_append_left _ hv)
      have hrows := rowsFromAll_of_visitAll habove hrest
        fun v hv => hsettled v (List.mem_append_right _ hv)
      rw [hrow, hrows]

end

theorem rows_of_derive {engine : FormEngine} {tree : Element} {inputs globals : KeyMap Json}
    (h : engine.derive tree inputs globals = .ok state)
    (distinct : ((engine.instances tree inputs globals).map Instance.key).Nodup) :
    rows tree state = listedRows state (engine.instances tree inputs globals) := by
  have hsettled := FormEngine.derive_settled h distinct
  obtain ⟨scripts, walk, hprepare, hvisit, -⟩ := FormEngine.exists_visit_of_derive _ _ _ _ h
  rw [FormEngine.instances_of_prepare hprepare] at hsettled ⊢
  exact rowsFrom_of_visit (by simp) hvisit hsettled

end Visited

/-! ## Rows under a key -/

section Keys

variable {state : FormState} {list : List Instance}

theorem filter_key_eq (hnodup : (list.map Instance.key).Nodup) {v : Instance} (hv : v ∈ list)
    (p : Instance → Bool) :
    list.filter (fun u => p u && u.key == v.key) = if p v then [v] else [] := by
  induction list with
  | nil => cases hv
  | cons u list ih =>
      rw [List.map_cons, List.nodup_cons] at hnodup
      obtain ⟨hother, hnodup⟩ := hnodup
      rw [List.filter_cons]
      rcases List.mem_cons.mp hv with rfl | hv
      · have hnone : list.filter (fun u => p u && u.key == v.key) = [] := by
          rw [List.filter_eq_nil_iff]
          intro u hu hsame
          rw [Bool.and_eq_true, beq_iff_eq] at hsame
          exact hother (hsame.2 ▸ List.mem_map_of_mem hu)
        rw [hnone]
        simp
      · have hne : u.key ≠ v.key := by
          intro hsame
          exact hother (hsame ▸ List.mem_map_of_mem hv)
        rw [ih hnodup hv]
        simp [hne]

theorem filter_listedRows (key : String) :
    (listedRows state list).filter (fun row => row.key == key) =
      (list.filter fun v =>
        (isVisibleField state v && !isBelowField state v) && v.key == key).map
          (instanceRow state) := by
  rw [listedRows, List.filter_map, List.filter_filter]
  congr 2
  funext v
  rw [Bool.and_comm]
  rfl

theorem listedRows_keys_nodup (hnodup : (list.map Instance.key).Nodup) :
    ((listedRows state list).map SummaryRow.key).Nodup := by
  have hkeys : (listedRows state list).map SummaryRow.key =
      (list.filter fun v => isVisibleField state v && !isBelowField state v).map Instance.key := by
    rw [listedRows, List.map_map]
    rfl
  rw [hkeys]
  exact hnodup.sublist (List.filter_sublist.map _)

end Keys

/--
The rows of a summary.  They are those of the visible fields of the derivation, in its order, that
are not below a field, hence those of all visible fields exactly if none is below another.  An error
is on one row, unless its field is below another one, and then on none.
-/
theorem rows_visible_fields (engine : FormEngine) (tree : Element) (inputs globals : KeyMap Json)
    (state : FormState) (h : engine.derive tree inputs globals = .ok state)
    (distinct : ((engine.instances tree inputs globals).map Instance.key).Nodup) :
    let shown := (engine.instances tree inputs globals).filter (isVisibleField state)
    rows tree state = (shown.filter fun v => !isBelowField state v).map (instanceRow state) ∧
    ((rows tree state).map SummaryRow.key).Nodup ∧
    (rows tree state = shown.map (instanceRow state) ↔
      ∀ v ∈ shown, isBelowField state v = false) ∧
    (∀ key message, state.errors.get? key = some message → ∃ v ∈ shown, v.key = key ∧
      ((rows tree state).filter fun row => row.key == key).map SummaryRow.error =
        if isBelowField state v then [] else [some message]) := by
  intro shown
  have hrows := rows_of_derive h distinct
  have hfiltered : rows tree state =
      (shown.filter fun v => !isBelowField state v).map (instanceRow state) := by
    rw [hrows, listedRows, List.filter_filter]
    simp only [Bool.and_comm]
  refine ⟨hfiltered, ?_, ?_, ?_⟩
  · rw [hrows]
    exact listedRows_keys_nodup distinct
  · rw [hfiltered]
    constructor
    · intro hall v hv
      have hlength := congrArg List.length hall
      rw [List.length_map, List.length_map, List.length_filter_eq_length_iff] at hlength
      simpa using hlength v hv
    · intro hnone
      have hall : (shown.filter fun v => !isBelowField state v) = shown := by
        rw [List.filter_eq_self]
        intro v hv
        rw [hnone v hv]
        rfl
      rw [hall]
  · intro key message herror
    have hkey : state.errors.contains key = true := by
      rw [KeyMap.contains, herror]
      rfl
    obtain ⟨v, hv, rfl, hvisible, hfield⟩ := FormEngine.derive_errors h hkey
    have hsettled := FormEngine.derive_settled h distinct v hv
    have hshown : isVisibleField state v = true := by
      rw [isVisibleField, hsettled.isVisible, hsettled.effective, hvisible, hfield]
      rfl
    refine ⟨v, List.mem_filter.mpr ⟨hv, hshown⟩, rfl, ?_⟩
    rw [hrows, filter_listedRows, filter_key_eq distinct hv, hshown]
    cases isBelowField state v with
    | true => rfl
    | false => simp [instanceRow, rowOf, herror]

theorem rows_visible_fields_repeated :
    let engine : FormEngine := ⟨.empty, .empty, {}⟩
    let required : FieldTraits := ⟨.text, true, none, none, none, none⟩
    let tree : Element := .container ⟨"form", "", none, none, none⟩ .group [
      .field ⟨"title", "", none, none, none⟩ required,
      .container ⟨"people", "", none, none, none⟩ (.repeating ⟨1, none⟩)
        [.field ⟨"name", "", none, none, none⟩ required]]
    ∃ state, engine.derive tree .empty .empty = .ok state ∧
      state.errors.keys = ["people_0_name", "title"] ∧
      (rows tree state =
          ((engine.instances tree .empty .empty).filter (isVisibleField state)).map
            (instanceRow state) ↔
        ∀ v ∈ (engine.instances tree .empty .empty).filter (isVisibleField state),
          isBelowField state v = false) := by
  intro engine required tree
  have hkeys : (engine.instances tree .empty .empty).map Instance.key =
      ["form", "title", "people", "people_0_name"] := rfl
  have distinct : ((engine.instances tree .empty .empty).map Instance.key).Nodup := by
    rw [hkeys]
    decide
  refine ⟨_, rfl, ?_, ?_⟩
  · decide
  · exact (rows_visible_fields engine tree .empty .empty _ rfl distinct).2.2.1

/--
A group that a patch makes a field.  The derivation goes on below it and finds a required field
without a value there; the summary has no row for that field.
-/
theorem rows_omit_field_below_patched_group :
    let engine : FormEngine := ⟨⟨.ofList [("logic.if-else", Operator.ifElseOperator)]⟩, .empty, {}⟩
    let patch : Expression := .formula (.apply "logic.if-else" [.constant (.bool true),
      .constant (.object [("type", .string "text")]), .constant .null])
    let required : FieldTraits := ⟨.text, true, none, none, none, none⟩
    let tree : Element := .container ⟨"form", "", none, none, none⟩ (.root ⟨false, false, false⟩) [
      .container ⟨"g", "", none, none, some patch⟩ .group
        [.field ⟨"x", "", none, none, none⟩ required]]
    ∃ state, engine.derive tree .empty .empty = .ok state ∧
      ((engine.instances tree .empty .empty).map Instance.key).Nodup ∧
      rows tree state ≠
        ((engine.instances tree .empty .empty).filter (isVisibleField state)).map
          (instanceRow state) ∧
      state.errors.contains "x" = true ∧ ∀ row ∈ rows tree state, row.key ≠ "x" := by
  refine ⟨_, rfl, ?_, ?_, ?_, ?_⟩
  · decide
  · intro hrows
    exact absurd (congrArg List.length hrows) (by decide)
  · decide
  · decide

end FormDerivation.Summary
