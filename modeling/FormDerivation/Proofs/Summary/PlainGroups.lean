import FormDerivation.Proofs.Derivation.PlainGroups
import FormDerivation.Proofs.Summary.Coverage

/-!
# Plain groups in summaries

Summaries of forms with and without a group that has no expressions have the same rows up to their
depth (`FormEngine.derive_plain_group`).  A summary only sees the state behind a derivation: it skips
the children of a group that was hidden, also where a container around the group has the key of one
that was found visible later.
-/

namespace FormDerivation

def SummaryRow.flat (row : SummaryRow) : SummaryRow :=
  { row with depth := 0 }

namespace Summary

variable {setting : WalkSetting} {state : FormState}

/-! ## Rows without depths -/

theorem flat_leafRows (state : FormState) (scope : Option String) (depth depth' : Nat)
    (e : Element) : (leafRows state scope depth' e).map SummaryRow.flat =
      (leafRows state scope depth e).map SummaryRow.flat := by
  unfold leafRows
  dsimp only
  split <;> rfl

theorem flat_flatMap {rows rows' : Option String → List SummaryRow}
    (h : ∀ scope, (rows' scope).map SummaryRow.flat = (rows scope).map SummaryRow.flat)
    (scopes : List (Option String)) :
    (scopes.flatMap rows').map SummaryRow.flat = (scopes.flatMap rows).map SummaryRow.flat := by
  simp only [List.map_flatMap, h]

mutual

theorem flat_rowsFrom (state : FormState) (scope : Option String) (depth depth' : Nat) :
    (e : Element) → (rowsFrom state scope depth' e).map SummaryRow.flat =
      (rowsFrom state scope depth e).map SummaryRow.flat
  | .container attributes kind children => by
      rw [rowsFrom_container, rowsFrom_container]
      split
      · rfl
      split
      · rfl
      · exact flat_flatMap (fun scope => flat_rowsFromAll state scope _ _ children) _
  | .field attributes traits => by
      rw [rowsFrom, rowsFrom]
      exact flat_leafRows state scope depth depth' _
  | .content attributes text => by
      rw [rowsFrom, rowsFrom]
      exact flat_leafRows state scope depth depth' _

theorem flat_rowsFromAll (state : FormState) (scope : Option String) (depth depth' : Nat) :
    (es : List Element) → (rowsFromAll state scope depth' es).map SummaryRow.flat =
      (rowsFromAll state scope depth es).map SummaryRow.flat
  | [] => rfl
  | e :: rest => by
      rw [rowsFromAll, rowsFromAll, List.map_append, List.map_append,
        flat_rowsFrom state scope depth depth' e, flat_rowsFromAll state scope depth depth' rest]

end

theorem rowsFromAll_append (state : FormState) (scope : Option String) (depth : Nat)
    (first second : List Element) :
    rowsFromAll state scope depth (first ++ second) =
      rowsFromAll state scope depth first ++ rowsFromAll state scope depth second := by
  induction first with
  | nil => rfl
  | cons e rest ih => rw [List.cons_append, rowsFromAll, rowsFromAll, ih, List.append_assoc]

open Walk (enter visit visitAll instancesFromAll enteredInstance)

theorem enteredInstance_effective (e : Element) (hpatch : e.attributes.patch = none)
    {above : List Instance} {scope : Option String} {walk : Walk} :
    (enteredInstance setting above scope e walk).effective = e := by
  have heffective : Walk.effectiveAt setting scope e walk = e := by
    rw [Walk.effectiveAt, Walk.patch_eq_pure setting hpatch]
    rfl
  unfold enteredInstance
  split <;> exact heffective

theorem rowsFrom_of_unpatched {attributes : Attributes} (hpatch : attributes.patch = none)
    {above : List Instance} {scope : Option String} {kind' : Container} {children' : List Element}
    {walk : Walk}
    (h : (enteredInstance setting above scope (.container attributes kind' children')
      walk).Settled state) (kind : Container) (children : List Element) (depth : Nat) :
    rowsFrom state scope depth (.container attributes kind children) =
      if (enteredInstance setting above scope (.container attributes kind' children') walk).visible
      then (state.scopesWithin scope (.container attributes kind children)).flatMap fun scope =>
        rowsFromAll state scope (depth + 1) children
      else [] := by
  have hkey : (enteredInstance setting above scope (.container attributes kind' children')
      walk).key = scopedKey scope attributes.id := Walk.enteredInstance_key _ _ _ _ _
  have hvisible := h.isVisible
  have heffective := h.effective
  rw [FormState.effectiveOf, hkey, Walk.enteredInstance_element] at heffective
  rw [hkey] at hvisible
  rw [enteredInstance_effective (.container attributes kind' children') hpatch] at heffective
  have hfield : ((state.overrides.get? (scopedKey scope attributes.id)).getD
      (.container attributes kind children)).isField = false := by
    cases hoverride : state.overrides.get? (scopedKey scope attributes.id) with
    | none => rfl
    | some replaced =>
        rw [hoverride, Option.getD_some] at heffective
        rw [Option.getD_some, heffective]
        rfl
  rw [rowsFrom_container, hvisible]
  cases (enteredInstance setting above scope (.container attributes kind' children') walk).visible with
  | false => rfl
  | true => simp only [hfield, Bool.not_true, Bool.false_eq_true, if_false, if_true]

/-! ## Siblings with the same rows -/

theorem scopesWithin_sameButSteps {kind kind' : Container} (h : kind.SameButSteps kind')
    {scope : Option String} {attributes : Attributes} {children children' : List Element} :
    state.scopesWithin scope (.container attributes kind' children') =
      state.scopesWithin scope (.container attributes kind children) := by
  cases h with
  | refl => cases kind <;> rfl
  | root steps steps' => rfl

theorem flat_flatMap_of_run {part : Option String → WalkM Unit}
    {inner : Option String → Walk → List Instance} {rows rows' : Option String → List SummaryRow}
    (h : ∀ scope walk walk', (part scope).run walk = .ok ((), walk') →
      (∀ v ∈ inner scope walk, v.Settled state) →
      (rows' scope).map SummaryRow.flat = (rows scope).map SummaryRow.flat)
    {scopes : List (Option String)} {walk walk' : Walk}
    (hrun : (forM scopes part).run walk = .ok ((), walk'))
    (hsettled : ∀ v ∈ Walk.listScopes part inner scopes walk, v.Settled state) :
    (scopes.flatMap rows').map SummaryRow.flat = (scopes.flatMap rows).map SummaryRow.flat := by
  induction scopes generalizing walk with
  | nil => rfl
  | cons scope scopes ih =>
      rw [List.forM_cons] at hrun
      obtain ⟨⟨⟩, between, hfirst, hrest⟩ := Walk.exists_of_run_bind_eq_ok hrun
      rw [Walk.listScopes, Walk.listFrom_of_run hfirst, List.forall_mem_append] at hsettled
      rw [List.flatMap_cons, List.flatMap_cons, List.map_append, List.map_append,
        h scope walk between hfirst hsettled.1, ih hrest hsettled.2]

def ShowAlike (setting : WalkSetting) (state : FormState) (es es' : List Element) : Prop :=
  ∀ scope above depth depth' walk walk', (visitAll setting scope es').run walk = .ok ((), walk') →
    (∀ v ∈ instancesFromAll setting above scope es' walk, v.Settled state) →
    (rowsFromAll state scope depth' es').map SummaryRow.flat =
      (rowsFromAll state scope depth es).map SummaryRow.flat

namespace ShowAlike

variable {es es' fs fs' : List Element}

theorem refl (es : List Element) : ShowAlike setting state es es :=
  fun scope _ depth depth' _ _ _ _ => flat_rowsFromAll state scope depth depth' es

theorem append (h : ShowAlike setting state es es') (hnext : ShowAlike setting state fs fs') :
    ShowAlike setting state (es ++ fs) (es' ++ fs') := by
  intro scope above depth depth' walk walk' hrun hsettled
  rw [Walk.visitAll_append] at hrun
  obtain ⟨⟨⟩, between, hfirst, hsecond⟩ := Walk.exists_of_run_bind_eq_ok hrun
  rw [Walk.instancesFromAll_append, Walk.listFrom_of_run hfirst, List.forall_mem_append] at hsettled
  rw [rowsFromAll_append, rowsFromAll_append, List.map_append, List.map_append,
    h scope above depth depth' walk between hfirst hsettled.1,
    hnext scope above depth depth' between walk' hsecond hsettled.2]

variable {attributes : Attributes} {kind kind' : Container}

theorem group (hvisibility : attributes.visibility = none) (hpatch : attributes.patch = none)
    (es : List Element) : ShowAlike setting state es [.container attributes .group es] := by
  intro scope above depth depth' walk walk' hrun hsettled
  have henter := Walk.enter_open_run setting hvisibility hpatch scope .group es walk
  rw [Walk.instancesFromAll_singleton, Walk.instancesFrom_of_visible setting henter,
    List.forall_mem_cons] at hsettled
  rw [rowsFromAll, rowsFromAll, List.append_nil, rowsFrom_of_unpatched hpatch hsettled.1,
    Walk.enteredInstance_visible setting henter, if_pos rfl]
  have hscopes : state.scopesWithin scope (.container attributes .group es) = [scope] := rfl
  rw [hscopes, List.flatMap_singleton]
  exact flat_rowsFromAll state scope depth (depth' + 1) es

theorem container (hkind : kind.SameButSteps kind') (hpatch : attributes.patch = none)
    (h : ShowAlike setting state es es') :
    ShowAlike setting state [.container attributes kind es] [.container attributes kind' es'] := by
  intro scope above depth depth' walk walk' hrun hsettled
  rw [Walk.visitAll_singleton, visit] at hrun
  obtain ⟨visible, entered, henter, hrun⟩ := Walk.exists_of_run_bind_eq_ok hrun
  rw [Walk.instancesFromAll_singleton] at hsettled
  rw [rowsFromAll, rowsFromAll, rowsFromAll, rowsFromAll, List.append_nil, List.append_nil]
  cases visible with
  | false =>
      rw [Walk.instancesFrom_of_hidden setting henter, List.forall_mem_cons] at hsettled
      rw [rowsFrom_of_unpatched hpatch hsettled.1, rowsFrom_of_unpatched hpatch hsettled.1,
        Walk.enteredInstance_visible setting henter, if_neg Bool.false_ne_true,
        if_neg Bool.false_ne_true]
  | true =>
      rw [if_pos rfl, Walk.visitWithin_run] at hrun
      rw [Walk.instancesFrom_of_visible setting henter, List.forall_mem_cons] at hsettled
      have hscopes := hsettled.1.agrees.scopesWithin_eq
      rw [Walk.enteredInstance_scope, Walk.enteredInstance_element,
        Walk.enteredInstance_scopesWithin setting henter] at hscopes
      rw [rowsFrom_of_unpatched hpatch hsettled.1, rowsFrom_of_unpatched hpatch hsettled.1,
        Walk.enteredInstance_visible setting henter, if_pos rfl, if_pos rfl,
        ← scopesWithin_sameButSteps hkind, hscopes]
      exact flat_flatMap_of_run (fun inner walk walk' hrun hsettled =>
        h inner _ _ _ walk walk' hrun hsettled) hrun hsettled.2

variable (setting state) in
theorem plug {group : Attributes} (hgroup : group.visibility = none ∧ group.patch = none)
    (es : List Element) (frame : Frame) (hkind : kind.SameButSteps frame.kind)
    (hframe : frame.attributes.patch = none) :
    (frames : List Frame) → (∀ outer ∈ frames, outer.attributes.patch = none) →
    ShowAlike setting state
      [(Element.container frame.attributes kind (frame.before ++ es ++ frame.after)).plug frames]
      [(Element.container group .group es).plug (frames ++ [frame])]
  | [], _ => by
      rw [List.append_assoc]
      have hgrouped : ShowAlike setting state es [.container group .group es] :=
        .group hgroup.1 hgroup.2 es
      have hbehind := hgrouped.append (.refl frame.after)
      exact .container hkind hframe ((ShowAlike.refl frame.before).append hbehind)
  | outer :: frames, hframes => by
      rw [List.forall_mem_cons] at hframes
      have hinner := plug hgroup es frame hkind hframe frames hframes.2
      have hbehind := hinner.append (.refl outer.after)
      exact .container (.refl _) hframes.1 ((ShowAlike.refl outer.before).append hbehind)

end ShowAlike

/-! ## Derived states -/

section Derived

variable {engine : FormEngine} {tree : Element} {inputs globals : KeyMap Json}

/-- The rows of a form do not ask for visibilities under other keys than those of its instances. -/
theorem rows_congr_visibilities (h : engine.derive tree inputs globals = .ok state)
    (distinct : ((engine.instances tree inputs globals).map Instance.key).Nodup)
    {visibilities : KeyMap Bool}
    (hsame : ∀ v ∈ engine.instances tree inputs globals,
      visibilities.get? v.key = state.visibilities.get? v.key) :
    rows tree { state with visibilities } = rows tree state := by
  have hsettled : ∀ v ∈ engine.instances tree inputs globals,
      v.Settled { state with visibilities } := by
    intro v hv
    refine (FormEngine.derive_settled h distinct v hv).later ?_
    exact ⟨hsame v hv, rfl, rfl, rfl, fun _ hvalue => hvalue⟩
  have hlisted : listedRows { state with visibilities } (engine.instances tree inputs globals) =
      listedRows state (engine.instances tree inputs globals) := by
    refine congrArg (List.map _) (List.filter_congr fun v hv => ?_)
    have hvisible : FormState.isVisible { state with visibilities } v.key =
        state.isVisible v.key := by
      rw [FormState.isVisible, FormState.isVisible, hsame v hv]
    rw [isVisibleField, hvisible]
    rfl
  rw [rows_of_derive h distinct, ← hlisted]
  obtain ⟨scripts, walk, hprepare, hvisit, -⟩ := FormEngine.exists_visit_of_derive _ _ _ _ h
  rw [FormEngine.instances_of_prepare hprepare] at hsettled ⊢
  exact rowsFrom_of_visit (by simp) hvisit hsettled

theorem flat_rows_grouped {group : Attributes}
    (hgroup : group.visibility = none ∧ group.patch = none) (es : List Element)
    (frames : List Frame) (frame : Frame) {kind : Container}
    (hkind : kind.SameButSteps frame.kind) (hframe : frame.attributes.patch = none)
    (hframes : ∀ outer ∈ frames, outer.attributes.patch = none) :
    let tree := (Element.container frame.attributes kind
      (frame.before ++ es ++ frame.after)).plug frames
    let grouped := (Element.container group .group es).plug (frames ++ [frame])
    engine.derive grouped inputs globals = .ok state →
    ((engine.instances grouped inputs globals).map Instance.key).Nodup →
    (rows grouped state).map SummaryRow.flat = (rows tree state).map SummaryRow.flat := by
  intro tree grouped h distinct
  have hsettled := FormEngine.derive_settled h distinct
  obtain ⟨scripts, walk, hprepare, hvisit, -⟩ := FormEngine.exists_visit_of_derive _ _ _ _ h
  rw [FormEngine.instances_of_prepare hprepare, ← Walk.instancesFromAll_singleton] at hsettled
  rw [← Walk.visitAll_singleton] at hvisit
  have halike := ShowAlike.plug _ state hgroup es frame hkind hframe frames hframes none [] 0 0 _ _
    hvisit hsettled
  rwa [rowsFromAll, rowsFromAll, rowsFromAll, rowsFromAll, List.append_nil, List.append_nil] at halike

end Derived

end Summary

/-! ## Plain groups -/

namespace FormEngine

open Summary (rows)

/--
Plain groups are transparent.  A group without expressions is put around siblings in a form in which
nothing around it is patched.  The derivation comes to one more instance wherever it comes to the
place of the group, and stops at the same error or has the same state up to visibilities under the
keys of these instances.  If these keys are new then there were no visibilities under them; and if
the other keys are distinct too then the summary has the same rows up to depth.
-/
theorem derive_plain_group (engine : FormEngine) (group : Attributes)
    (hgroup : group.visibility = none ∧ group.patch = none) (attributes : Attributes)
    (kind kind' : Container) (hkind : kind.SameButSteps kind') (before run after : List Element)
    (frames : List Frame)
    (hpatch : attributes.patch = none ∧ ∀ outer ∈ frames, outer.attributes.patch = none)
    (inputs globals : KeyMap Json) :
    let place := frames ++ [⟨attributes, kind', before, after⟩]
    let tree := (Element.container attributes kind (before ++ run ++ after)).plug frames
    let grouped := (Element.container group .group run).plug place
    let own := (engine.placedAt (.container group .group run) place inputs globals).map Instance.key
    let keys := (engine.instances tree inputs globals).map Instance.key
    let keys' := (engine.instances grouped inputs globals).map Instance.key
    keys'.Perm (own ++ keys) ∧
    ((∃ error, engine.derive tree inputs globals = .error error ∧
        engine.derive grouped inputs globals = .error error) ∨
      ∃ state state', engine.derive tree inputs globals = .ok state ∧
        engine.derive grouped inputs globals = .ok state' ∧
        state'.values = state.values ∧ state'.errors = state.errors ∧
        state'.overrides = state.overrides ∧ state'.repetitions = state.repetitions ∧
        state'.failures = state.failures ∧
        (∀ key, key ∉ own → state'.visibilities.get? key = state.visibilities.get? key) ∧
        ((∀ key ∈ own, keys'.count key = 1) →
          (∀ key ∈ own, state.visibilities.get? key = none) ∧
          (keys.Nodup → (rows grouped state').map SummaryRow.flat =
            (rows tree state).map SummaryRow.flat))) := by
  intro place tree grouped own keys keys'
  obtain ⟨hperm, hderived⟩ := engine.derive_grouped hgroup run frames
    ⟨attributes, kind', before, after⟩ hkind hpatch.1 hpatch.2 inputs globals
  change keys'.Perm (own ++ keys) at hperm
  refine ⟨hperm, hderived.imp_right ?_⟩
  rintro ⟨walk, _, hstate, hstate', visibilities, hsame, rfl⟩
  refine ⟨_, _, hstate, hstate', rfl, rfl, rfl, rfl, rfl, hsame, fun fresh => ?_⟩
  -- A key of the group is listed once among all, so it is there once and not among the others.
  have hcount : ∀ key ∈ own, own.count key ≤ 1 ∧ keys.count key = 0 := by
    intro key hkey
    have hall := hperm.count_eq key
    have hown := List.count_pos_iff.mpr hkey
    rw [fresh key hkey, List.count_append] at hall
    omega
  have hother : ∀ key ∈ own, key ∉ keys := fun key hkey => List.count_eq_zero.mp (hcount key hkey).2
  refine ⟨fun key hkey => (derive_frame hstate (hother key hkey)).visibilities, fun distinct => ?_⟩
  have distinct' : keys'.Nodup := by
    rw [hperm.nodup_iff, List.nodup_append]
    refine ⟨?_, distinct, fun key hkey other hmem hsame => hother key hkey (hsame ▸ hmem)⟩
    rw [List.nodup_iff_count_le_one]
    intro key
    by_cases hkey : key ∈ own
    · exact (hcount key hkey).1
    · rw [List.count_eq_zero.mpr hkey]
      exact Nat.zero_le 1
  have hrows := Summary.flat_rows_grouped hgroup run frames ⟨attributes, kind', before, after⟩ hkind
    hpatch.1 hpatch.2 hstate' distinct'
  have hsummary : rows tree { walk.state with visibilities } = rows tree walk.state := by
    refine Summary.rows_congr_visibilities hstate distinct fun v hv => hsame v.key fun hmem => ?_
    exact hother v.key hmem (List.mem_map_of_mem hv)
  rw [← hsummary]
  exact hrows

theorem derive_plain_group_in_rows :
    let engine : FormEngine := ⟨.empty, .empty, {}⟩
    let required : FieldTraits := ⟨.text, true, none, none, none, none⟩
    let title : Element := .field ⟨"title", "", none, none, none⟩ required
    let name : Element := .field ⟨"name", "", none, none, none⟩ required
    let people : Attributes := ⟨"people", "", none, none, none⟩
    let frames : List Frame := [⟨⟨"form", "", none, none, none⟩, .group, [title], []⟩]
    let tree := (Element.container people (.repeating ⟨2, none⟩) [name]).plug frames
    let grouped := (Element.container ⟨"box", "", none, none, none⟩ .group [name]).plug
      (frames ++ [⟨people, .repeating ⟨2, none⟩, [], []⟩])
    ∃ state state', engine.derive tree .empty .empty = .ok state ∧
      engine.derive grouped .empty .empty = .ok state' ∧
      state'.visibilities.get? "people_1_box" = some true ∧ state'.errors = state.errors ∧
      (rows tree state).map SummaryRow.key = ["title", "people_0_name", "people_1_name"] ∧
      (rows grouped state').map SummaryRow.flat = (rows tree state).map SummaryRow.flat := by
  intro engine required title name people frames tree grouped
  have htree : (engine.derive tree .empty .empty).toOption.map (fun state =>
      (rows tree state).map SummaryRow.key) =
      some ["title", "people_0_name", "people_1_name"] := by decide +kernel +zetaReduce
  have hgrouped : (engine.derive grouped .empty .empty).toOption.map (fun state =>
      state.visibilities.get? "people_1_box") = some (some true) := by decide +kernel +zetaReduce
  obtain ⟨state, hstate, hkeys⟩ := exists_ok_of_map htree
  obtain ⟨state', hstate', hvisible⟩ := exists_ok_of_map hgrouped
  obtain ⟨-, hderived⟩ := derive_plain_group engine ⟨"box", "", none, none, none⟩ ⟨rfl, rfl⟩ people
    (.repeating ⟨2, none⟩) (.repeating ⟨2, none⟩) (.refl _) [] [name] [] frames
    ⟨rfl, List.forall_mem_singleton.mpr rfl⟩ .empty .empty
  rcases hderived with ⟨error, herror, -⟩ | ⟨_, _, h, h', -, herrors, -, -, -, -, hfresh⟩
  · cases herror.symm.trans hstate
  · cases h.symm.trans hstate
    cases h'.symm.trans hstate'
    obtain ⟨-, hrows⟩ := hfresh (by decide +kernel)
    exact ⟨state, state', hstate, hstate', hvisible, herrors, hkeys, hrows (by decide +kernel)⟩

/--
Two groups of one key, of which the first one is hidden.  A summary has the rows of both, but not
those in a new group in the first one.
-/
theorem derive_plain_group_in_repeated_key :
    let engine : FormEngine := ⟨⟨.ofList [("logic.not", Operator.notOperator)]⟩, .empty, {}⟩
    let never : Expression := .formula (.apply "logic.not" [.constant (.bool true)])
    let field : Element := .field ⟨"x", "", none, none, none⟩ ⟨.text, false, none, none, none, none⟩
    let hidden : Attributes := ⟨"a", "", none, some never, none⟩
    let shown : Element := .container ⟨"a", "", none, none, none⟩ .group [field]
    let frames : List Frame := [⟨⟨"form", "", none, none, none⟩, .group, [], [shown]⟩]
    let tree := (Element.container hidden .group [field]).plug frames
    let group : Element := .container ⟨"g", "", none, none, none⟩ .group [field]
    let place := frames ++ [⟨hidden, .group, [], []⟩]
    let keys := (engine.instances (group.plug place) .empty .empty).map Instance.key
    (engine.placedAt group place .empty .empty).map Instance.key = ["g"] ∧ keys.count "g" = 1 ∧
      ∃ state state', engine.derive tree .empty .empty = .ok state ∧
        engine.derive (group.plug place) .empty .empty = .ok state' ∧
        (rows (group.plug place) state').map SummaryRow.flat ≠
          (rows tree state).map SummaryRow.flat := by
  intro engine never field hidden shown frames tree group place keys
  have htree : (engine.derive tree .empty .empty).toOption.map (fun state =>
      (rows tree state).length) = some 2 := by decide +kernel +zetaReduce
  have hgrouped : (engine.derive (group.plug place) .empty .empty).toOption.map (fun state =>
      (rows (group.plug place) state).length) = some 1 := by decide +kernel +zetaReduce
  obtain ⟨state, hstate, hcount⟩ := exists_ok_of_map htree
  obtain ⟨state', hstate', hcount'⟩ := exists_ok_of_map hgrouped
  refine ⟨by decide +kernel +zetaReduce, by decide +kernel +zetaReduce, state, state', hstate, hstate',
    fun hrows => ?_⟩
  have hlength := congrArg List.length hrows
  rw [List.length_map, List.length_map, hcount, hcount'] at hlength
  cases hlength

end FormEngine

end FormDerivation
