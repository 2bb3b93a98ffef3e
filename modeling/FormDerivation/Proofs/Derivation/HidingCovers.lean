import FormDerivation.Proofs.Derivation.HiddenRows
import FormDerivation.Proofs.Derivation.Scopes
import FormDerivation.Proofs.Element.Outline

/-!
# What hiding covers

In a form with one condition, what is below its container is instantiated where the condition holds
and marked as hidden where it does not.  Hiding goes by the same counts as showing except that it does
not spread rows: what it comes to are the instances that are counted without them
(`FormEngine.derive_hiding_covers`), and rows within rows are not always among these
(`FormEngine.derive_hiding_leaves_rows`).
-/

namespace FormDerivation

def Element.shownIf (attributes : Attributes) (kind : Container) (children : List Element)
    (condition : Expression) : Element :=
  .container { attributes with visibility := some condition } kind children

theorem Element.shownIf_expressions (attributes : Attributes) (kind : Container)
    (children : List Element) (condition : Expression) :
    (shownIf attributes kind children condition).expressions ≠ [] :=
  List.cons_ne_nil _ _

/--
Every repetition around an instance, as far as it is below another one, is one that the values of a
state ask for.
-/
def Instance.CountedBy (policy : RepetitionPolicy) (state : FormState) (v u : Instance) : Prop :=
  ∀ w ∈ u.above, v ∈ w.above →
    w.after.scopesWithin w.scope w.element ⊆ state.scopesAsked policy w.scope w.element

namespace Walk

open Element (elements elementsAll elementsAll_append expressions)

variable {setting : WalkSetting}

/-! ## What is marked below a hidden element -/

theorem scopesAsked_congr {s s' : FormState} (h : s'.values = s.values) (policy : RepetitionPolicy)
    (scope : Option String) (e : Element) :
    s'.scopesAsked policy scope e = s.scopesAsked policy scope e := by
  cases e with
  | container attributes kind children => cases kind <;> simp only [FormState.scopesAsked, h]
  | _ => rfl

section Covered

variable {v : Instance} {state : FormState}

mutual

theorem exists_hiddenFrom {above above' : List Instance} (hv : v ∈ above)
    (scope : Option String) : (e : Element) →
    (∀ x ∈ e.elements, x.expressions = []) → ∀ walk walk',
    walk'.state.values = state.values → ∀ u ∈ instancesFrom setting above scope e walk,
    Instance.CountedBy setting.config.repetition state v u →
    ∃ u' ∈ hiddenFrom setting above' scope e walk', u'.key = u.key
  | .container attributes kind children, hplain, walk, walk', hvalues, u, hu, hcounted => by
      rw [elements, List.forall_mem_cons] at hplain
      have hopen : attributes.visibility = none ∧ attributes.patch = none :=
        Element.no_attribute_expressions hplain.1
      have henter := enter_open_run setting hopen.1 hopen.2 scope kind children walk
      rw [instancesFrom_of_visible setting henter] at hu
      rw [hiddenFrom]
      rcases List.mem_cons.mp hu with rfl | hu
      · exact ⟨_, List.mem_cons_self, by rw [enteredInstance_key]; rfl⟩
      · obtain ⟨inner, hinner, between, hu⟩ := exists_mem_of_mem_listScopes hu
        -- The repetition that the instance is in is one that hiding comes to as well.
        have hasked : inner ∈ state.scopesAsked setting.config.repetition scope
            (.container attributes kind children) := by
          obtain ⟨nearer, habove, -⟩ := instancesFromAll_nested setting _ inner children between u hu
          have hsub := hcounted _ (habove ▸ List.mem_append_right _ List.mem_cons_self)
            (by rwa [enteredInstance_above])
          rw [enteredInstance_scope, enteredInstance_element,
            enteredInstance_scopesWithin setting henter] at hsub
          exact hsub hinner
        rw [← scopesAsked_congr hvalues] at hasked
        let marked := markVisibility (scopedKey scope attributes.id) false walk'
        have hscopes := scopesAsked_eq setting scope attributes kind children marked
        have hbelow : ∃ u' ∈ listScopes (fun inner => hideAll setting inner children)
            (fun inner => hiddenFromAll setting
              (hiddenInstance above' scope (.container attributes kind children) walk' :: above')
              inner children)
            (scopesBelow setting scope attributes.id marked kind) marked, u'.key = u.key := by
          refine exists_mem_listScopes (fun inner => hideAll_keepsValues inner children)
            (hscopes ▸ hasked) ?_ hvalues
          intro between' hbetween
          exact exists_hiddenFromAll (List.mem_cons_of_mem _ hv) inner children hplain.2 between
            between' hbetween u hu hcounted
        obtain ⟨u', hu', hkey⟩ := hbelow
        exact ⟨u', List.mem_cons_of_mem _ hu', hkey⟩
  | .field attributes traits, _, walk, walk', _, u, hu, _ => by
      rw [instancesFrom] at hu
      cases List.mem_singleton.mp hu
      rw [hiddenFrom, enteredInstance_key]
      exact ⟨_, List.mem_singleton_self _, rfl⟩
  | .content attributes text, _, walk, walk', _, u, hu, _ => by
      rw [instancesFrom] at hu
      cases List.mem_singleton.mp hu
      rw [hiddenFrom, enteredInstance_key]
      exact ⟨_, List.mem_singleton_self _, rfl⟩

theorem exists_hiddenFromAll {above above' : List Instance} (hv : v ∈ above)
    (scope : Option String) : (es : List Element) →
    (∀ x ∈ elementsAll es, x.expressions = []) → ∀ walk walk',
    walk'.state.values = state.values → ∀ u ∈ instancesFromAll setting above scope es walk,
    Instance.CountedBy setting.config.repetition state v u →
    ∃ u' ∈ hiddenFromAll setting above' scope es walk', u'.key = u.key
  | [], _, walk, walk', _, u, hu, _ => by
      rw [instancesFromAll] at hu
      cases hu
  | e :: rest, hplain, walk, walk', hvalues, u, hu, hcounted => by
      rw [elementsAll, List.forall_mem_append] at hplain
      rw [instancesFromAll] at hu
      rw [hiddenFromAll]
      rcases List.mem_append.mp hu with hu | hu
      · obtain ⟨u', hu', hkey⟩ :=
          exists_hiddenFrom hv scope e hplain.1 walk walk' hvalues u hu hcounted
        exact ⟨u', List.mem_append_left _ hu', hkey⟩
      · obtain ⟨between, hu⟩ := exists_mem_of_mem_listFrom hu
        obtain ⟨between', hrun, hbetween⟩ := hide_keepsValues scope e walk'
        obtain ⟨u', hu', hkey⟩ := exists_hiddenFromAll hv scope rest hplain.2 between between'
          (hbetween.trans hvalues) u hu hcounted
        rw [listFrom_of_run hrun]
        exact ⟨u', List.mem_append_right _ hu', hkey⟩

end

theorem exists_hiddenScopes {above : List Instance} (hv : v ∈ above) (above' : List Instance)
    {id : String} {kind : Container} {children : List Element} {scope : Option String}
    (hplain : ∀ x ∈ elementsAll children, x.expressions = []) {entered entered' start : Walk}
    (hsame : SameValues (InScope scope) entered entered') {u : Instance}
    (hu : u ∈ listScopes (fun scope => visitAll setting scope children)
      (fun scope => instancesFromAll setting above scope children)
      (scopesBelow setting scope id entered kind) start)
    (hcounted : Instance.CountedBy setting.config.repetition entered'.state v u) :
    ∃ u' ∈ listScopes (fun scope => hideAll setting scope children)
      (fun scope => hiddenFromAll setting above' scope children)
      (scopesBelow setting scope id entered' kind) entered', u'.key = u.key := by
  obtain ⟨inner, hinner, between, hu⟩ := exists_mem_of_mem_listScopes hu
  rw [← hsame.scopesBelow_eq] at hinner
  refine exists_mem_listScopes (fun inner => hideAll_keepsValues inner children) hinner ?_ rfl
  intro between' hbetween
  exact exists_hiddenFromAll hv inner children hplain between between' hbetween u hu hcounted

end Covered

/-! ## The place of an instance in the other walk -/

/--
In place of an instance another list has one of the element `off`, the only one in its scope, and below
it an instance for every one that is counted by the values there.
-/
def CoveredAt (setting : WalkSetting) (off : Element) (v : Instance) (list list' : List Instance) :
    Prop :=
  ∃ v' ∈ list', v'.element = off ∧ v'.scope = v.scope ∧
    (∀ x ∈ list', x.element = off → x.scope = v.scope → x = v') ∧
    ∀ u ∈ list, v ∈ u.above →
      Instance.CountedBy setting.config.repetition v'.after v u → ∃ u' ∈ list', u'.key = u.key

theorem CoveredAt.mono {off : Element} {v : Instance} {list list' whole whole' : List Instance}
    (h : CoveredAt setting off v list list') (hsub : list' ⊆ whole')
    (hown : ∀ x ∈ whole', x.element = off → x.scope = v.scope → x ∈ list')
    (hbelow : ∀ u ∈ whole, v ∈ u.above → u ∈ list) : CoveredAt setting off v whole whole' := by
  obtain ⟨v', hv', helement, hscope, hunique, hcovered⟩ := h
  refine ⟨v', hsub hv', helement, hscope, ?_, ?_⟩
  · exact fun x hx helement hscope => hunique x (hown x hx helement hscope) helement hscope
  · intro u hu hv hcounted
    obtain ⟨u', hu', hkey⟩ := hcovered u (hbelow u hu hv) hv hcounted
    exact ⟨u', hsub hu', hkey⟩

section Free

variable {e : Element} {es : List Element} {scope : Option String} {above : List Instance}

theorem ne_of_expressions {x : Element} (hx : x.expressions = []) (he : e.expressions ≠ []) :
    x ≠ e :=
  fun h => he (h ▸ hx)

theorem not_below_of_expressions (he : e.expressions ≠ [])
    (hplain : ∀ x ∈ elementsAll es, x.expressions = []) (houtside : ∀ w ∈ above, w.element ≠ e)
    {walk : Walk} {u : Instance} (hu : u ∈ instancesFromAll setting above scope es walk) :
    u.element ≠ e ∧ ∀ w ∈ u.above, w.element ≠ e := by
  have hown : ∀ w ∈ instancesFromAll setting above scope es walk, w.element ≠ e := fun w hw =>
    ne_of_expressions (hplain _ (instancesFromAll_within above scope es walk w hw).1) he
  refine ⟨hown u hu, fun w hw => ?_⟩
  obtain ⟨between, heq, hbetween⟩ := instancesFromAll_nested setting above scope es walk u hu
  rw [heq] at hw
  rcases List.mem_append.mp hw with hw | hw
  · exact hown w (hbetween w hw).1
  · exact houtside w hw

end Free

/--
A visit of siblings and one of others from walks that agree in the scope, both of which come to an end:
the element `on` is shown in the first one and `off` is hidden in the second one.
-/
structure SideBySide (setting : WalkSetting) (on off : Element) (scope : Option String)
    (above above' : List Instance) (es es' : List Element) (walk walk' : Walk) : Prop where
  same : SameValues (InScope scope) walk walk'
  ends : ∃ last, (visitAll setting scope es).run walk = .ok ((), last)
  ends' : ∃ last, (visitAll setting scope es').run walk' = .ok ((), last)
  outside : ∀ w ∈ above, w.element ≠ on
  shown : ∀ v ∈ instancesFromAll setting above scope es walk, v.element = on → v.visible = true
  hidden : ∀ v ∈ instancesFromAll setting above' scope es' walk', v.element = off →
    v.visible = false

/-- Siblings that have `off` hidden wherever others have `on` shown, with what is below it. -/
def HidingCovers (setting : WalkSetting) (on off : Element) (es es' : List Element) : Prop :=
  ∀ ⦃scope : Option String⦄ ⦃above above' : List Instance⦄ ⦃walk walk' : Walk⦄,
    SideBySide setting on off scope above above' es es' walk walk' →
    ∀ v ∈ instancesFromAll setting above scope es walk, v.element = on →
      CoveredAt setting off v (instancesFromAll setting above scope es walk)
        (instancesFromAll setting above' scope es' walk')

section Container

variable {attributes : Attributes} {kind : Container} {children : List Element}

theorem enter_container_values {scope : Option String} (hpatch : attributes.patch = none)
    {visible : Bool} {walk entered : Walk}
    (h : (enter setting scope (.container attributes kind children)).run walk =
      .ok (visible, entered)) : entered.state.values = walk.state.values := by
  apply KeyMap.ext_get?
  intro key
  by_contra hchanged
  obtain ⟨-, -, ⟨_, _, heffective, -⟩, -⟩ := enter_changed setting h hchanged
  have hnone : (Element.container attributes kind children).attributes.patch = none := hpatch
  have hpatched : ∀ site,
      (patch setting site (.container attributes kind children)).run walk = .ok (none, walk) := by
    intro site
    rw [patch_eq_pure setting hnone]
    rfl
  simp only [effectiveAt, hpatched] at heffective
  cases heffective

theorem hidingCovers_shownIf (hpatch : attributes.patch = none)
    (hchildren : ∀ x ∈ elementsAll children, x.expressions = []) (on off : Expression) :
    HidingCovers setting (.shownIf attributes kind children on)
      (.shownIf attributes kind children off) [.shownIf attributes kind children on]
      [.shownIf attributes kind children off] := by
  intro scope above above' walk walk' h
  obtain ⟨hsame, ⟨last, hrun⟩, ⟨last', hrun'⟩, houtside, hshown, hhidden⟩ := h
  rw [visitAll_singleton] at hrun hrun'
  rw [instancesFromAll_singleton] at hshown hhidden ⊢
  rw [instancesFromAll_singleton]
  have hvisible := hshown _ (mem_instancesFrom_self setting above scope _ walk) (by simp)
  have hinvisible := hhidden _ (mem_instancesFrom_self setting above' scope _ walk') (by simp)
  rw [Element.shownIf, visit] at hrun hrun'
  obtain ⟨visible, entered, henter, -⟩ := exists_of_run_bind_eq_ok hrun
  obtain ⟨visible', entered', henter', -⟩ := exists_of_run_bind_eq_ok hrun'
  rw [Element.shownIf, enteredInstance_visible setting henter] at hvisible
  rw [Element.shownIf, enteredInstance_visible setting henter'] at hinvisible
  subst hvisible hinvisible
  rw [Element.shownIf, Element.shownIf, instancesFrom_of_visible setting henter,
    instancesFrom_of_hidden setting henter']
  set v := enteredInstance setting above scope (.container _ kind children) walk with hv
  set v' := enteredInstance setting above' scope (.container _ kind children) walk' with hv'
  -- The container is not among the elements below it.
  have hbelow : ∀ {x : Instance} {condition : Expression}, x.element ∈ elementsAll children →
      x.element ≠ .shownIf attributes kind children condition :=
    fun hx => ne_of_expressions (hchildren _ hx) (Element.shownIf_expressions _ _ _ _)
  intro w hw helement
  have hown : w = v := by
    rcases List.mem_cons.mp hw with rfl | hw
    · rfl
    · obtain ⟨inner, -, between, hw⟩ := exists_mem_of_mem_listScopes hw
      exact absurd helement (hbelow (instancesFromAll_within _ inner children between w hw).1)
  subst hown
  refine ⟨v', List.mem_cons_self, by simp [hv'], by simp [hv, hv'], ?_, ?_⟩
  · intro x hx helement _
    rcases List.mem_cons.mp hx with rfl | hx
    · rfl
    · obtain ⟨inner, -, between, hx⟩ := exists_mem_of_mem_listScopes hx
      exact absurd helement (hbelow (hiddenFromAll_within _ inner children between x hx).1)
  · intro u hu habove hcounted
    have hpatches : ∀ condition : Expression,
        ({ attributes with visibility := some condition } : Attributes).patch = none :=
      fun _ => hpatch
    have hvalues := enter_container_values (hpatches on) henter
    have hvalues' := enter_container_values (hpatches off) henter'
    rcases List.mem_cons.mp hu with rfl | hu
    · rw [hv, enteredInstance_above] at habove
      exact absurd (by simp [Element.shownIf]) (houtside _ habove)
    · have hentered : SameValues (InScope scope) entered entered' := by
        intro key hkey
        rw [hvalues, hvalues']
        exact hsame key hkey
      rw [hv', enteredInstance_after_of_hidden setting above' henter'] at hcounted
      obtain ⟨u', hu', hkey⟩ := exists_hiddenScopes List.mem_cons_self (v' :: above') hchildren
        hentered hu hcounted
      exact ⟨u', List.mem_cons_of_mem _ hu', hkey⟩

end Container

namespace HidingCovers

variable {on off : Element} {es es' : List Element}

section Siblings

variable (hon : on.expressions ≠ []) (hoff : off.expressions ≠ [])

include hon hoff

theorem followedBy (h : HidingCovers setting on off es es') {after : List Element}
    (hplain : ∀ x ∈ elementsAll after, x.expressions = []) :
    HidingCovers setting on off (es ++ after) (es' ++ after) := by
  intro scope above above' walk walk' hside v hv helement
  obtain ⟨hsame, ⟨last, hrun⟩, ⟨last', hrun'⟩, houtside, hshown, hhidden⟩ := hside
  rw [visitAll_append] at hrun hrun'
  obtain ⟨⟨⟩, between, hrun, -⟩ := exists_of_run_bind_eq_ok hrun
  obtain ⟨⟨⟩, between', hrun', -⟩ := exists_of_run_bind_eq_ok hrun'
  rw [instancesFromAll_append, listFrom_of_run hrun] at hshown hv ⊢
  rw [instancesFromAll_append, listFrom_of_run hrun'] at hhidden ⊢
  have hside : SideBySide setting on off scope above above' es es' walk walk' :=
    ⟨hsame, ⟨between, hrun⟩, ⟨between', hrun'⟩, houtside,
      fun w hw => hshown w (List.mem_append_left _ hw),
      fun w hw => hhidden w (List.mem_append_left _ hw)⟩
  rcases List.mem_append.mp hv with hv | hv
  · refine (h hside v hv helement).mono (List.subset_append_left _ _) ?_ ?_
    · intro x hx hoff' _
      rcases List.mem_append.mp hx with hx | hx
      · exact hx
      · have hplain := hplain _ (instancesFromAll_within above' scope after between' x hx).1
        exact absurd hoff' (ne_of_expressions hplain hoff)
    · intro u hu habove
      rcases List.mem_append.mp hu with hu | hu
      · exact hu
      · exact absurd helement ((not_below_of_expressions hon hplain houtside hu).2 v habove)
  · exact absurd helement (not_below_of_expressions hon hplain houtside hv).1

theorem after (h : HidingCovers setting on off es es') {before : List Element}
    (hplain : ∀ x ∈ elementsAll before, x.expressions = []) :
    HidingCovers setting on off (before ++ es) (before ++ es') := by
  intro scope above above' walk walk' hside v hv helement
  obtain ⟨hsame, ⟨last, hrun⟩, ⟨last', hrun'⟩, houtside, hshown, hhidden⟩ := hside
  rw [visitAll_append] at hrun hrun'
  obtain ⟨⟨⟩, start, hbefore, hrun⟩ := exists_of_run_bind_eq_ok hrun
  obtain ⟨⟨⟩, start', hbefore', hrun'⟩ := exists_of_run_bind_eq_ok hrun'
  rw [instancesFromAll_append, listFrom_of_run hbefore] at hshown hv ⊢
  rw [instancesFromAll_append, listFrom_of_run hbefore'] at hhidden ⊢
  have hside : SideBySide setting on off scope above above' es es' start start' :=
    ⟨hsame.visitAll hplain hbefore hbefore', ⟨last, hrun⟩, ⟨last', hrun'⟩, houtside,
      fun w hw => hshown w (List.mem_append_right _ hw),
      fun w hw => hhidden w (List.mem_append_right _ hw)⟩
  rcases List.mem_append.mp hv with hv | hv
  · exact absurd helement (not_below_of_expressions hon hplain houtside hv).1
  · refine (h hside v hv helement).mono (List.subset_append_right _ _) ?_ ?_
    · intro x hx hoff' _
      rcases List.mem_append.mp hx with hx | hx
      · have hplain := hplain _ (instancesFromAll_within above' scope before walk' x hx).1
        exact absurd hoff' (ne_of_expressions hplain hoff)
      · exact hx
    · intro u hu habove
      rcases List.mem_append.mp hu with hu | hu
      · exact absurd helement ((not_below_of_expressions hon hplain houtside hu).2 v habove)
      · exact hu

end Siblings

theorem scopes (h : HidingCovers setting on off es es') (hid : off.id = on.id)
    {scopes : List (Option String)} (hapart : scopes.Pairwise Apart) {above above' : List Instance}
    {walk walk' last last' : Walk}
    (hsame : ∀ scope ∈ scopes, SameValues (InScope scope) walk walk')
    (hrun : (forM scopes fun scope => visitAll setting scope es).run walk = .ok ((), last))
    (hrun' : (forM scopes fun scope => visitAll setting scope es').run walk' = .ok ((), last'))
    (houtside : ∀ w ∈ above, w.element ≠ on) :
    let list := listScopes (fun scope => visitAll setting scope es)
      (fun scope => instancesFromAll setting above scope es) scopes walk
    let list' := listScopes (fun scope => visitAll setting scope es')
      (fun scope => instancesFromAll setting above' scope es') scopes walk'
    (∀ v ∈ list, v.element = on → v.visible = true) →
    (∀ v ∈ list', v.element = off → v.visible = false) →
    ∀ v ∈ list, v.element = on → CoveredAt setting off v list list' := by
  intro list list' hshown hhidden v hv helement
  obtain ⟨scope, hscope, visited, hmem⟩ := exists_mem_of_mem_listScopes hv
  have hkey : InScope scope v.key := (instancesFromAll_within above scope es visited v hmem).2
  obtain ⟨before, after, rfl⟩ := List.append_of_mem hscope
  rw [List.forM_append] at hrun hrun'
  obtain ⟨⟨⟩, start, hbefore, hrun⟩ := exists_of_run_bind_eq_ok hrun
  obtain ⟨⟨⟩, start', hbefore', hrun'⟩ := exists_of_run_bind_eq_ok hrun'
  rw [List.forM_cons] at hrun hrun'
  obtain ⟨⟨⟩, between, hrun, -⟩ := exists_of_run_bind_eq_ok hrun
  obtain ⟨⟨⟩, between', hrun', -⟩ := exists_of_run_bind_eq_ok hrun'
  have hothers : ∀ other ∈ before, Apart other scope := fun other hother =>
    (List.pairwise_append.mp hapart).2.2 other hother scope List.mem_cons_self
  have hstart : SameValues (InScope scope) start start' := by
    intro key hkey
    have hconfined := confined_before (fun other => visitAll_confined other es)
      hothers _ _ _ hbefore key (not_not.mpr hkey)
    have hconfined' := confined_before (fun other => visitAll_confined other es') hothers _ _ _
      hbefore' key (not_not.mpr hkey)
    rw [hconfined, hconfined']
    exact hsame scope hscope key hkey
  have hside : SideBySide setting on off scope above above' es es' start start' :=
    ⟨hstart, ⟨between, hrun⟩, ⟨between', hrun'⟩, houtside,
      fun w hw => hshown w (inner_subset hbefore hw),
      fun w hw => hhidden w (inner_subset hbefore' hw)⟩
  have hown : v ∈ instancesFromAll setting above scope es start :=
    mem_inner_of_apart hbefore hapart hkey
      (fun other between hmem => (instancesFromAll_within above other es between v hmem).2) hv
  refine (h hside v hown helement).mono (fun x hx => inner_subset hbefore' hx) ?_ ?_
  · intro x hx hoff hscope
    have hsameKey : x.key = v.key := by rw [Instance.key, Instance.key, hscope, hoff, helement, hid]
    refine mem_inner_of_apart hbefore' hapart hkey (fun other between hmem => ?_) hx
    exact hsameKey ▸ (instancesFromAll_within above' other es' between x hmem).2
  · intro u hu habove
    refine mem_inner_of_apart hbefore hapart hkey (fun other between hmem => ?_) hu
    -- What is below the instance is visited in the scope in which it is itself.
    obtain ⟨nearer, heq, hnearer⟩ := instancesFromAll_nested setting above other es between u hmem
    rw [heq] at habove
    rcases List.mem_append.mp habove with habove | habove
    · exact (instancesFromAll_within above other es between v (hnearer v habove).1).2
    · exact absurd helement (houtside v habove)

theorem container (h : HidingCovers setting on off es es') (hon : on.expressions ≠ [])
    (hoff : off.expressions ≠ []) (hid : off.id = on.id) {attributes : Attributes} (kind : Container)
    (hvisibility : attributes.visibility = none) (hpatch : attributes.patch = none) :
    HidingCovers setting on off [.container attributes kind es] [.container attributes kind es'] := by
  intro scope above above' walk walk' hside
  obtain ⟨hsame, ⟨last, hrun⟩, ⟨last', hrun'⟩, houtside, hshown, hhidden⟩ := hside
  have hplain : ∀ children : List Element,
      (Element.container attributes kind children).expressions = [] := by
    simp [expressions, hvisibility, hpatch]
  have henter := enter_open_run setting hvisibility hpatch scope kind es walk
  have henter' := enter_open_run setting hvisibility hpatch scope kind es' walk'
  rw [visitAll_singleton, visit_open_run setting hvisibility hpatch, visitWithin_run] at hrun hrun'
  rw [instancesFromAll_singleton, instancesFrom_of_visible setting henter] at hshown ⊢
  rw [instancesFromAll_singleton, instancesFrom_of_visible setting henter'] at hhidden ⊢
  set marked := markVisibility (scopedKey scope attributes.id) true walk
  set marked' := markVisibility (scopedKey scope attributes.id) true walk'
  set w := enteredInstance setting above scope (.container attributes kind es) walk with hw
  set w' := enteredInstance setting above' scope (.container attributes kind es') walk' with hw'
  have hmarked : SameValues (InScope scope) marked marked' := hsame
  have hspread : SameValues (InScope scope) (spread setting scope attributes.id marked kind)
      (spread setting scope attributes.id marked' kind) := hmarked.spread attributes.id kind
  rw [hmarked.scopesBelow_eq] at hrun' hhidden ⊢
  have helement : w.element ≠ on := by
    rw [hw, enteredInstance_element]
    exact ne_of_expressions (hplain es) hon
  have hcovered := h.scopes hid (scopesBelow_apart scope attributes.id kind marked)
    (fun inner hinner key hkey => hspread key (hkey.outward hinner)) hrun hrun'
    (List.forall_mem_cons.mpr ⟨helement, houtside⟩)
    (fun v hv => hshown v (List.mem_cons_of_mem _ hv))
    (fun v hv => hhidden v (List.mem_cons_of_mem _ hv))
  intro v hv hon'
  rcases List.mem_cons.mp hv with rfl | hv
  · exact absurd hon' helement
  · refine (hcovered v hv hon').mono (List.subset_cons_self _ _) ?_ ?_
    · intro x hx hoff' _
      rcases List.mem_cons.mp hx with rfl | hx
      · rw [hw', enteredInstance_element] at hoff'
        exact absurd hoff' (ne_of_expressions (hplain es') hoff)
      · exact hx
    · intro u hu habove
      rcases List.mem_cons.mp hu with rfl | hu
      · rw [hw, enteredInstance_above] at habove
        exact absurd hon' (houtside v habove)
      · exact hu

end HidingCovers

/-- Hiding a container at a place in a form in which nothing else has an expression. -/
theorem hidingCovers_plug {attributes : Attributes} {kind : Container} {children : List Element}
    (on off : Expression) {frames : List Frame}
    (hplain : ∀ x ∈ ((Element.container attributes kind children).plug frames).elements,
      x.expressions = []) :
    HidingCovers setting (.shownIf attributes kind children on)
      (.shownIf attributes kind children off) [(Element.shownIf attributes kind children on).plug frames]
      [(Element.shownIf attributes kind children off).plug frames] := by
  have hon := Element.shownIf_expressions attributes kind children on
  have hoff := Element.shownIf_expressions attributes kind children off
  induction frames with
  | nil =>
      rw [Element.plug, elements, List.forall_mem_cons] at hplain
      have hpatch : attributes.patch = none := (Element.no_attribute_expressions hplain.1).2
      exact hidingCovers_shownIf hpatch hplain.2 on off
  | cons frame frames ih =>
      rw [Element.plug, Frame.around, Frame.children, elements, List.forall_mem_cons,
        elementsAll_append, List.forall_mem_append, elementsAll, List.forall_mem_append] at hplain
      obtain ⟨hframe, hbefore, hplug, hafter⟩ := hplain
      obtain ⟨hvisibility, hpatch⟩ := Element.no_attribute_expressions hframe
      have hsiblings := ((ih hplug).followedBy hon hoff hafter).after hon hoff hbefore
      exact hsiblings.container hon hoff rfl frame.kind hvisibility hpatch

end Walk

/-! ## Derivations -/

namespace FormEngine

theorem mem_above_of_key {engine : FormEngine} {tree : Element} {inputs globals : KeyMap Json}
    (distinct : ((engine.instances tree inputs globals).map Instance.key).Nodup) {u v : Instance}
    (hu : u ∈ engine.instances tree inputs globals) (hv : v ∈ engine.instances tree inputs globals)
    (h : ∃ w ∈ u.above, w.key = v.key) : v ∈ u.above := by
  obtain ⟨w, hw, hkey⟩ := h
  rwa [← List.inj_on_of_nodup_map distinct (hidden_of_mem_above hu hw).1 hv hkey]

/--
A container has the only expression of a form, which is derived with it shown and with it hidden.
Every instance of the container has one in its place, and what is below the one is marked below the
other if the values at hiding ask for the repetitions around it.  It is hidden there unless the key is
that of an instance elsewhere.
-/
theorem derive_hiding_covers (engine : FormEngine) (attributes : Attributes) (kind : Container)
    (children : List Element) (frames : List Frame)
    (hplain : ∀ x ∈ ((Element.container attributes kind children).plug frames).elements,
      x.expressions = [])
    (on off : Expression) (inputs globals : KeyMap Json) (shown hidden : FormState) :
    let place (condition : Expression) := Element.shownIf attributes kind children condition
    let instances := engine.instances ((place on).plug frames) inputs globals
    let instances' := engine.instances ((place off).plug frames) inputs globals
    engine.derive ((place on).plug frames) inputs globals = .ok shown →
    engine.derive ((place off).plug frames) inputs globals = .ok hidden →
    (∀ v ∈ instances, v.element = place on → v.visible = true) →
    (∀ v ∈ instances', v.element = place off → v.visible = false) →
    ∀ v ∈ instances, v.element = place on →
      ∃ v' ∈ instances', v'.element = place off ∧ v'.scope = v.scope ∧
        (∀ x ∈ instances', x.element = place off → x.scope = v.scope → x = v') ∧
        ∀ u ∈ instances, v ∈ u.above →
          Instance.CountedBy engine.config.repetition v'.after v u →
          hidden.visibilities.contains u.key = true ∧
          ((∀ x ∈ instances', x.key = u.key → v' ∈ x.above) →
            hidden.visibilities.get? u.key = some false ∧ hidden.isVisible u.key = false) := by
  intro place instances instances' h h' hshown hhidden v hv helement
  have hcovered : Walk.CoveredAt ⟨engine.operators, engine.config⟩ (place off) v instances
      instances' := by
    obtain ⟨scripts, last, hprepare, hvisit, -⟩ := exists_visit_of_derive engine _ _ _ h
    obtain ⟨scripts', last', hprepare', hvisit', -⟩ := exists_visit_of_derive engine _ _ _ h'
    cases hprepare.symm.trans hprepare'
    simp only [instances, instances', instances_of_prepare hprepare,
      ← Walk.instancesFromAll_singleton] at hshown hhidden hv ⊢
    rw [← Walk.visitAll_singleton] at hvisit hvisit'
    exact Walk.hidingCovers_plug on off hplain
      ⟨fun _ _ => rfl, ⟨last, hvisit⟩, ⟨last', hvisit'⟩, by simp, hshown, hhidden⟩ v hv helement
  obtain ⟨v', hv', helement', hscope, hunique, hmarks⟩ := hcovered
  refine ⟨v', hv', helement', hscope, hunique, fun u hu habove hcounted => ?_⟩
  obtain ⟨u', hu', hkey⟩ := hmarks u hu habove hcounted
  have hcontains := (derive_marks h').1 u' hu'
  rw [hkey] at hcontains
  refine ⟨hcontains, fun hother => ?_⟩
  have hinvisible : ∀ x ∈ instances', x.key = u.key → x.visible = false := fun x hx hkey =>
    (hidden_of_mem_above hx (hother x hx hkey)).2 (hhidden v' hv' helement')
  refine ⟨?_, isVisible_eq_false h' ⟨u', hu', hkey⟩ hinvisible⟩
  obtain ⟨visible, hvisible⟩ := Option.isSome_iff_exists.mp hcontains
  obtain ⟨x, hx, hkey, rfl⟩ := (derive_marks h').2 u.key visible hvisible
  rw [hvisible, hinvisible x hx hkey]

theorem derive_hiding_covers_inner :
    let engine : FormEngine := ⟨⟨.ofList [("logic.not", Operator.notOperator)]⟩, .empty, {}⟩
    let condition (holds : Bool) : Expression :=
      .formula (.apply "logic.not" [.constant (.bool !holds)])
    let inner : Element := .container ⟨"inner", "", none, none, none⟩ (.repeating ⟨0, none⟩)
      [.field ⟨"x", "", none, none, none⟩ ⟨.text, false, none, none, none, none⟩]
    let frames : List Frame := [⟨⟨"form", "", none, none, none⟩, .group, [], []⟩]
    let form (holds : Bool) : Element := (Element.shownIf ⟨"h", "", none, none, none⟩
      (.repeating ⟨0, none⟩) [inner] (condition holds)).plug frames
    let inputs : KeyMap Json := .ofList [("h", .int 1), ("h_0_inner", .int 2)]
    ∃ shown hidden, engine.derive (form true) inputs .empty = .ok shown ∧
      engine.derive (form false) inputs .empty = .ok hidden ∧
      shown.visibilities.get? "h_0_inner_1_x" = some true ∧
      hidden.visibilities.get? "h_0_inner_1_x" = some false := by
  intro engine condition inner frames form inputs
  have hplain : ((Element.container ⟨"h", "", none, none, none⟩ (.repeating ⟨0, none⟩)
      [inner]).plug frames).elements.flatMap Element.expressions = [] := rfl
  have hkeys : ∀ holds, (engine.instances (form holds) inputs .empty).map Instance.key =
      ["form", "h", "h_0_inner", "h_0_inner_0_x", "h_0_inner_1_x"] := by decide +kernel +zetaReduce
  have distinct : ∀ holds,
      ((engine.instances (form holds) inputs .empty).map Instance.key).Nodup := by
    intro holds
    rw [hkeys]
    decide
  have hderived : (engine.derive (form true) inputs .empty).toOption.map
      (fun state => state.visibilities.get? "h_0_inner_1_x") = some (some true) := by
    decide +kernel +zetaReduce
  have hderived' : (engine.derive (form false) inputs .empty).toOption.map (fun _ => ()) =
      some () := by decide +kernel +zetaReduce
  obtain ⟨shown, h, hshown⟩ := exists_ok_of_map hderived
  obtain ⟨hidden, h', -⟩ := exists_ok_of_map hderived'
  refine ⟨shown, hidden, h, h', hshown, ?_⟩
  have hbelow : ∀ holds, ∀ u ∈ engine.instances (form holds) inputs .empty,
      u.key = "h_0_inner_1_x" → ∃ w ∈ u.above, w.key = "h" := by decide +kernel +zetaReduce
  have hvisible : ∀ w ∈ engine.instances (form true) inputs .empty, w.visible = true := by
    decide +kernel +zetaReduce
  have hinvisible : ∀ w ∈ engine.instances (form false) inputs .empty, w.element.id = "h" →
      w.visible = false := by decide +kernel +zetaReduce
  let v : Instance := (engine.instances (form true) inputs .empty)[1]
  let u : Instance := (engine.instances (form true) inputs .empty)[4]
  let place : Instance := (engine.instances (form false) inputs .empty)[1]
  have hv : v ∈ engine.instances (form true) inputs .empty := List.getElem_mem _
  have hu : u ∈ engine.instances (form true) inputs .empty := List.getElem_mem _
  have hplace : place ∈ engine.instances (form false) inputs .empty := List.getElem_mem _
  have hcounted : ∀ w ∈ u.above, w.after.scopesWithin w.scope w.element ⊆
      place.after.scopesAsked engine.config.repetition w.scope w.element := by
    decide +kernel +zetaReduce
  have hkey : u.key = "h_0_inner_1_x" ∧ v.key = "h" ∧ place.key = "h" ∧ place.scope = v.scope := by
    decide +kernel +zetaReduce
  obtain ⟨hukey, hvkey, hplaceKey, hscope⟩ := hkey
  have hvu : v ∈ u.above := mem_above_of_key (distinct true) hu hv (hvkey ▸ hbelow true u hu hukey)
  obtain ⟨v', -, -, -, hunique, hcovered⟩ := derive_hiding_covers engine ⟨"h", "", none, none, none⟩
    (.repeating ⟨0, none⟩) [inner] frames (List.flatMap_eq_nil_iff.mp hplain) (condition true)
    (condition false) inputs .empty shown hidden h h' (fun w hw _ => hvisible w hw)
    (fun w hw helement => hinvisible w hw (congrArg Element.id helement)) v hv rfl
  have hown : place = v' := hunique place hplace rfl hscope
  subst hown
  obtain ⟨-, hhidden⟩ := hcovered u hu hvu fun w hw _ => hcounted w hw
  rw [hukey] at hhidden
  refine (hhidden fun x hx hxkey => ?_).1
  exact mem_above_of_key (distinct false) hx hplace (hplaceKey ▸ hbelow false x hx hxkey)

/--
Rows within a row.  Showing the container spreads them, so the field has an instance below it; hiding
it does not, and the value that the field has is a visible one.
-/
theorem derive_hiding_leaves_rows :
    let engine : FormEngine := ⟨⟨.ofList [("logic.not", Operator.notOperator)]⟩, .empty, {}⟩
    let condition (holds : Bool) : Expression :=
      .formula (.apply "logic.not" [.constant (.bool !holds)])
    let inner : Element := .container ⟨"inner", "", none, none, none⟩ (.repeating ⟨0, none⟩)
      [.field ⟨"x", "", none, none, none⟩ ⟨.text, false, none, none, none, none⟩]
    let frames : List Frame := [⟨⟨"form", "", none, none, none⟩, .group, [], []⟩]
    let form (holds : Bool) : Element := (Element.shownIf ⟨"h", "", none, none, none⟩
      (.repeating ⟨0, none⟩) [inner] (condition holds)).plug frames
    let inputs : KeyMap Json := .ofList [
      ("h", .array [.object [("inner", .array [.object [("x", .string "a")]])]]),
      ("h_0_inner_0_x", .string "a")]
    ∃ shown hidden, engine.derive (form true) inputs .empty = .ok shown ∧
      engine.derive (form false) inputs .empty = .ok hidden ∧
      (∃ u ∈ engine.instances (form true) inputs .empty, u.key = "h_0_inner_0_x" ∧
        ∃ v ∈ u.above, v.key = "h") ∧
      shown.visibilities.get? "h_0_inner_0_x" = some true ∧
      hidden.visibilities.get? "h" = some false ∧
      hidden.visibilities.get? "h_0_inner_0_x" = none ∧
      hidden.isVisible "h_0_inner_0_x" = true ∧
      hidden.visibleValues.contains "h_0_inner_0_x" = true := by
  intro engine condition inner frames form inputs
  have hderived : (engine.derive (form true) inputs .empty).toOption.map
      (fun state => state.visibilities.get? "h_0_inner_0_x") = some (some true) := by
    decide +kernel +zetaReduce
  have hderived' : (engine.derive (form false) inputs .empty).toOption.map (fun state =>
      (state.visibilities.get? "h", state.visibilities.get? "h_0_inner_0_x",
        state.isVisible "h_0_inner_0_x", state.visibleValues.contains "h_0_inner_0_x")) =
      some (some false, none, true, true) := by decide +kernel +zetaReduce
  have hbelow : ∃ u ∈ engine.instances (form true) inputs .empty, u.key = "h_0_inner_0_x" ∧
      ∃ v ∈ u.above, v.key = "h" := by decide +kernel +zetaReduce
  obtain ⟨shown, h, hshown⟩ := exists_ok_of_map hderived
  obtain ⟨hidden, h', hhidden⟩ := exists_ok_of_map hderived'
  simp only [Prod.mk.injEq] at hhidden
  exact ⟨shown, hidden, h, h', hbelow, hshown, hhidden⟩

end FormEngine

end FormDerivation
