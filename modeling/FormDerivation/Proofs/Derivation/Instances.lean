import FormDerivation.Proofs.Derivation.Steps

/-!
# The instances of a derivation

An instance is an element at a place of the expanded form.  `FormEngine.instances` lists the
instances that a derivation comes to, in the order in which it does, read off the runs of the walk
itself: those that are visited, also by a derivation that stops, and those that are only marked as
hidden below a hidden one.

`Walk.Compositional` is the induction over a walk: a relation between a list of instances and the
walks before and behind them holds of every visit if putting an instance before those below it and
putting parts of a walk one after the other keep it.
-/

namespace FormDerivation

/-- An element at a place of the expanded form that a walk comes to. -/
structure Instance where
  element : Element
  scope : Option String
  /-- The instances around it, the nearest one first. -/
  above : List Instance
  effective : Element
  visible : Bool
  /-- The state when its own steps are done and nothing below it is reached yet. -/
  after : FormState

namespace Instance

def key (v : Instance) : String :=
  scopedKey v.scope v.element.id

end Instance

def FormState.scopesWithin (state : FormState) (scope : Option String) :
    Element → List (Option String)
  | .container attributes (.repeating _) _ =>
    let key := scopedKey scope attributes.id
    (List.range ((state.repetitions.get? key).getD 0)).map fun index => some (rowScope key index)
  | _ => [scope]

def FormState.scopesAsked (state : FormState) (policy : RepetitionPolicy)
    (scope : Option String) : Element → List (Option String)
  | .container attributes (.repeating bounds) _ =>
    let key := scopedKey scope attributes.id
    (List.range (Walk.repetitions policy bounds (state.values.get? key))).map fun index =>
      some (rowScope key index)
  | _ => [scope]

namespace Walk

variable (setting : WalkSetting)

def listFrom (part : WalkM Unit) (next : Walk → List Instance) (walk : Walk) : List Instance :=
  match part.run walk with
  | .ok (_, walk) => next walk
  | .error _ => []

theorem listFrom_of_run {part : WalkM Unit} {next : Walk → List Instance} {walk between : Walk}
    (h : part.run walk = .ok ((), between)) : listFrom part next walk = next between := by
  simp only [listFrom, h]

def listScopes (part : Option String → WalkM Unit)
    (inner : Option String → Walk → List Instance) :
    List (Option String) → Walk → List Instance
  | [], _ => []
  | scope :: rest, walk =>
    inner scope walk ++ listFrom (part scope) (listScopes part inner rest) walk

def hiddenInstance (above : List Instance) (scope : Option String) (e : Element) (walk : Walk) :
    Instance where
  element := e
  scope
  above
  effective := e
  visible := false
  after := (markVisibility (scopedKey scope e.id) false walk).state

@[simp] theorem hiddenInstance_key (above : List Instance) (scope : Option String) (e : Element)
    (walk : Walk) : (hiddenInstance above scope e walk).key = scopedKey scope e.id := rfl

mutual

def hiddenFrom (above : List Instance) (scope : Option String) : Element → Walk → List Instance
  | .container attributes kind children, walk =>
    let e : Element := .container attributes kind children
    let v := hiddenInstance above scope e walk
    let marked := markVisibility (scopedKey scope attributes.id) false walk
    v :: listScopes (fun scope => hideAll setting scope children)
      (fun scope => hiddenFromAll (v :: above) scope children)
      (scopesBelow setting scope attributes.id marked kind) marked
  | .field attributes traits, walk => [hiddenInstance above scope (.field attributes traits) walk]
  | .content attributes text, walk => [hiddenInstance above scope (.content attributes text) walk]

def hiddenFromAll (above : List Instance) (scope : Option String) :
    List Element → Walk → List Instance
  | [], _ => []
  | e :: rest, walk =>
    hiddenFrom above scope e walk ++
      listFrom (hide setting scope e) (hiddenFromAll above scope rest) walk

end

def effectiveAt (scope : Option String) (e : Element) (walk : Walk) : Element :=
  match (patch setting ⟨e.id, scope⟩ e).run walk with
  | .ok (replaced, _) => replaced.getD e
  | .error _ => e

def opened (scope : Option String) (e : Element) (walk : Walk) : Walk :=
  match e with
  | .container attributes kind _ => spread setting scope attributes.id walk kind
  | _ => walk

def enteredInstance (above : List Instance) (scope : Option String) (e : Element) (walk : Walk) :
    Instance :=
  match (enter setting scope e).run walk with
  | .ok (visible, entered) =>
    ⟨e, scope, above, effectiveAt setting scope e walk, visible,
      (if visible then opened setting scope e entered else entered).state⟩
  | .error _ => ⟨e, scope, above, effectiveAt setting scope e walk, false, walk.state⟩

mutual

/-- The instances that the visit of an element comes to, until it ends or stops. -/
def instancesFrom (above : List Instance) (scope : Option String) :
    Element → Walk → List Instance
  | .container attributes kind children, walk =>
    let e : Element := .container attributes kind children
    let v := enteredInstance setting above scope e walk
    v :: match (enter setting scope e).run walk with
      | .ok (true, entered) =>
        listScopes (fun scope => visitAll setting scope children)
          (fun scope => instancesFromAll (v :: above) scope children)
          (scopesBelow setting scope attributes.id entered kind)
          (spread setting scope attributes.id entered kind)
      | .ok (false, entered) =>
        listScopes (fun scope => hideAll setting scope children)
          (fun scope => hiddenFromAll setting (v :: above) scope children)
          (scopesBelow setting scope attributes.id entered kind) entered
      | .error _ => []
  | .field attributes traits, walk =>
    [enteredInstance setting above scope (.field attributes traits) walk]
  | .content attributes text, walk =>
    [enteredInstance setting above scope (.content attributes text) walk]

def instancesFromAll (above : List Instance) (scope : Option String) :
    List Element → Walk → List Instance
  | [], _ => []
  | e :: rest, walk =>
    instancesFrom above scope e walk ++
      listFrom (visit setting scope e) (instancesFromAll above scope rest) walk

end

/-! ## The own instance of an element -/

@[simp] theorem enteredInstance_element (above : List Instance) (scope : Option String)
    (e : Element) (walk : Walk) : (enteredInstance setting above scope e walk).element = e := by
  unfold enteredInstance
  split <;> rfl

@[simp] theorem enteredInstance_scope (above : List Instance) (scope : Option String)
    (e : Element) (walk : Walk) : (enteredInstance setting above scope e walk).scope = scope := by
  unfold enteredInstance
  split <;> rfl

@[simp] theorem enteredInstance_above (above : List Instance) (scope : Option String)
    (e : Element) (walk : Walk) : (enteredInstance setting above scope e walk).above = above := by
  unfold enteredInstance
  split <;> rfl

@[simp] theorem enteredInstance_key (above : List Instance) (scope : Option String)
    (e : Element) (walk : Walk) :
    (enteredInstance setting above scope e walk).key = scopedKey scope e.id := by
  simp [Instance.key]

theorem enteredInstance_eq (above : List Instance) {scope : Option String} {e : Element}
    {visible : Bool} {walk entered : Walk}
    (h : (enter setting scope e).run walk = .ok (visible, entered)) :
    enteredInstance setting above scope e walk =
      ⟨e, scope, above, effectiveAt setting scope e walk, visible,
        (if visible then opened setting scope e entered else entered).state⟩ := by
  simp only [enteredInstance, h]

theorem enteredInstance_visible {above : List Instance} {scope : Option String} {e : Element}
    {visible : Bool} {walk entered : Walk}
    (h : (enter setting scope e).run walk = .ok (visible, entered)) :
    (enteredInstance setting above scope e walk).visible = visible := by
  simp only [enteredInstance, h]

theorem mem_instancesFrom_self (above : List Instance) (scope : Option String) (e : Element)
    (walk : Walk) :
    enteredInstance setting above scope e walk ∈ instancesFrom setting above scope e walk := by
  cases e <;> rw [instancesFrom] <;> exact List.mem_cons_self

theorem instancesFrom_of_visible {above : List Instance} {scope : Option String}
    {attributes : Attributes} {kind : Container} {children : List Element} {walk entered : Walk}
    (h : (enter setting scope (.container attributes kind children)).run walk =
      .ok (true, entered)) :
    let v := enteredInstance setting above scope (.container attributes kind children) walk
    instancesFrom setting above scope (.container attributes kind children) walk =
      v :: listScopes (fun scope => visitAll setting scope children)
        (fun scope => instancesFromAll setting (v :: above) scope children)
        (scopesBelow setting scope attributes.id entered kind)
        (spread setting scope attributes.id entered kind) := by
  rw [instancesFrom]
  simp only [h]

theorem instancesFrom_of_hidden {above : List Instance} {scope : Option String}
    {attributes : Attributes} {kind : Container} {children : List Element} {walk entered : Walk}
    (h : (enter setting scope (.container attributes kind children)).run walk =
      .ok (false, entered)) :
    let v := enteredInstance setting above scope (.container attributes kind children) walk
    instancesFrom setting above scope (.container attributes kind children) walk =
      v :: listScopes (fun scope => hideAll setting scope children)
        (fun scope => hiddenFromAll setting (v :: above) scope children)
        (scopesBelow setting scope attributes.id entered kind) entered := by
  rw [instancesFrom]
  simp only [h]

/-! ## Children of a visible element -/

theorem scopesWithin_spread (scope : Option String) (attributes : Attributes) (kind : Container)
    (children : List Element) (walk : Walk) :
    (spread setting scope attributes.id walk kind).state.scopesWithin scope
        (.container attributes kind children) =
      scopesBelow setting scope attributes.id walk kind := by
  cases kind with
  | repeating bounds =>
      simp [spread, scopesBelow, FormState.scopesWithin]
  | root steps => rfl
  | step => rfl
  | group => rfl

theorem enteredInstance_scopesWithin {above : List Instance} {scope : Option String}
    {attributes : Attributes} {kind : Container} {children : List Element} {walk entered : Walk}
    (h : (enter setting scope (.container attributes kind children)).run walk =
      .ok (true, entered)) :
    (enteredInstance setting above scope (.container attributes kind children)
        walk).after.scopesWithin scope (.container attributes kind children) =
      scopesBelow setting scope attributes.id entered kind := by
  have hafter : (enteredInstance setting above scope (.container attributes kind children)
      walk).after = (spread setting scope attributes.id entered kind).state := by
    simp only [enteredInstance, h]
    rfl
  rw [hafter, scopesWithin_spread]

theorem exists_subset_listScopes {part : Option String → WalkM Unit}
    {inner : Option String → Walk → List Instance} {scopes : List (Option String)}
    {scope : Option String} {walk walk' : Walk}
    (h : (forM scopes part).run walk = .ok ((), walk')) (hscope : scope ∈ scopes) :
    ∃ between after, (part scope).run between = .ok ((), after) ∧
      inner scope between ⊆ listScopes part inner scopes walk := by
  induction scopes generalizing walk with
  | nil => cases hscope
  | cons first rest ih =>
      rw [List.forM_cons] at h
      obtain ⟨⟨⟩, between, hfirst, hrest⟩ := exists_of_run_bind_eq_ok h
      rw [listScopes]
      rcases List.mem_cons.mp hscope with rfl | hscope
      · exact ⟨walk, between, hfirst, List.subset_append_left _ _⟩
      · obtain ⟨start, after, hrun, hsub⟩ := ih hrest hscope
        rw [listFrom_of_run hfirst]
        exact ⟨start, after, hrun, fun v hv => List.mem_append_right _ (hsub hv)⟩

theorem exists_subset_instancesFromAll {above : List Instance} {scope : Option String}
    {es : List Element} {e : Element} {walk walk' : Walk}
    (h : (visitAll setting scope es).run walk = .ok ((), walk')) (he : e ∈ es) :
    ∃ between, instancesFrom setting above scope e between ⊆
      instancesFromAll setting above scope es walk := by
  induction es generalizing walk with
  | nil => cases he
  | cons first rest ih =>
      rw [visitAll] at h
      obtain ⟨⟨⟩, between, hfirst, hrest⟩ := exists_of_run_bind_eq_ok h
      rw [instancesFromAll]
      rcases List.mem_cons.mp he with rfl | he
      · exact ⟨walk, List.subset_append_left _ _⟩
      · obtain ⟨start, hsub⟩ := ih hrest he
        rw [listFrom_of_run hfirst]
        exact ⟨start, fun v hv => List.mem_append_right _ (hsub hv)⟩

def Covers (v : Instance) (below : List Instance) : Prop :=
  ∀ child ∈ v.element.children, ∀ scope ∈ v.after.scopesWithin v.scope v.element,
    ∃ u ∈ below, u.element = child ∧ u.scope = scope ∧ u.above = v :: v.above

theorem covers_of_visitAll (above : List Instance) {scope : Option String}
    {attributes : Attributes} {kind : Container} {children : List Element}
    {walk entered walk' : Walk}
    (henter : (enter setting scope (.container attributes kind children)).run walk =
      .ok (true, entered))
    (h : (forM (scopesBelow setting scope attributes.id entered kind)
      (fun scope => visitAll setting scope children)).run
        (spread setting scope attributes.id entered kind) = .ok ((), walk')) :
    let v := enteredInstance setting above scope (.container attributes kind children) walk
    Covers v (listScopes (fun scope => visitAll setting scope children)
      (fun scope => instancesFromAll setting (v :: above) scope children)
      (scopesBelow setting scope attributes.id entered kind)
      (spread setting scope attributes.id entered kind)) := by
  intro v child hchild scope' hscope
  rw [enteredInstance_scope, enteredInstance_element,
    enteredInstance_scopesWithin setting henter] at hscope
  rw [enteredInstance_element] at hchild
  obtain ⟨between, after, hrun, hsub⟩ := exists_subset_listScopes h hscope
  obtain ⟨between', hsub'⟩ := exists_subset_instancesFromAll setting hrun hchild
  refine ⟨enteredInstance setting (v :: above) scope' child between', ?_, ?_, ?_, ?_⟩
  · exact hsub (hsub' (mem_instancesFrom_self setting _ scope' child between'))
  · simp
  · simp
  · simp [v]

/-! ## Children of a hidden element -/

theorem scopesAsked_eq (scope : Option String) (attributes : Attributes) (kind : Container)
    (children : List Element) (walk : Walk) :
    walk.state.scopesAsked setting.config.repetition scope
        (.container attributes kind children) =
      scopesBelow setting scope attributes.id walk kind := by
  cases kind <;> rfl

theorem enteredInstance_after_of_hidden (above : List Instance) {scope : Option String}
    {e : Element} {walk entered : Walk}
    (h : (enter setting scope e).run walk = .ok (false, entered)) :
    (enteredInstance setting above scope e walk).after = entered.state := by
  simp only [enteredInstance, h]
  rfl

theorem exists_mem_hiddenFromAll (above : List Instance) {scope : Option String}
    {es : List Element} {e : Element} {walk walk' : Walk}
    (h : (hideAll setting scope es).run walk = .ok ((), walk')) (he : e ∈ es) :
    ∃ between, hiddenInstance above scope e between ∈
      hiddenFromAll setting above scope es walk := by
  induction es generalizing walk with
  | nil => cases he
  | cons first rest ih =>
      rw [hideAll] at h
      obtain ⟨⟨⟩, between, hfirst, hrest⟩ := exists_of_run_bind_eq_ok h
      rw [hiddenFromAll]
      rcases List.mem_cons.mp he with rfl | he
      · refine ⟨walk, List.mem_append_left _ ?_⟩
        cases e <;> rw [hiddenFrom] <;> exact List.mem_cons_self
      · obtain ⟨start, hmem⟩ := ih hrest he
        rw [listFrom_of_run hfirst]
        exact ⟨start, List.mem_append_right _ hmem⟩

def Conceals (v : Instance) (below : List Instance) : Prop :=
  ∀ child ∈ v.element.children,
    ∀ scope ∈ v.after.scopesAsked setting.config.repetition v.scope v.element,
      ∃ u ∈ below, u.element = child ∧ u.scope = scope ∧ u.above = v :: v.above

theorem conceals_of_hideAll {v : Instance} {children : List Element}
    {scopes : List (Option String)} {walk walk' : Walk} (hchildren : v.element.children = children)
    (hscopes : v.after.scopesAsked setting.config.repetition v.scope v.element = scopes)
    (h : (forM scopes fun scope => hideAll setting scope children).run walk = .ok ((), walk')) :
    Conceals setting v (listScopes (fun scope => hideAll setting scope children)
      (fun scope => hiddenFromAll setting (v :: v.above) scope children) scopes walk) := by
  intro child hchild scope hscope
  rw [hchildren] at hchild
  rw [hscopes] at hscope
  obtain ⟨between, after, hrun, hsub⟩ := exists_subset_listScopes h hscope
  obtain ⟨start, hmem⟩ := exists_mem_hiddenFromAll setting (v :: v.above) hrun hchild
  exact ⟨_, hsub hmem, rfl, rfl, rfl⟩

theorem conceals_of_no_children {v : Instance} (h : v.element.children = [])
    (below : List Instance) : Conceals setting v below := by
  simp [Conceals, h]

/-! ## Induction over a walk -/

/--
A relation between instances and the walks around them that an instance with those below it has,
and that sequences keep.
-/
structure Compositional (P : List Instance → Walk → Walk → Prop) : Prop where
  nil : ∀ walk, P [] walk walk
  append : ∀ {first second : List Instance} {walk between walk' : Walk},
    P first walk between → P second between walk' → P (first ++ second) walk walk'
  entered : ∀ (above : List Instance) {scope : Option String} {e : Element} {visible : Bool}
    {walk entered walk' : Walk} {below : List Instance},
    (enter setting scope e).run walk = .ok (visible, entered) →
    (visible = true → Covers (enteredInstance setting above scope e walk) below) →
    (visible = false → Conceals setting (enteredInstance setting above scope e walk) below) →
    P below (if visible then opened setting scope e entered else entered) walk' →
    P (enteredInstance setting above scope e walk :: below) walk walk'
  hidden : ∀ (above : List Instance) (scope : Option String) (e : Element) {walk walk' : Walk}
    {below : List Instance}, Conceals setting (hiddenInstance above scope e walk) below →
    P below (markVisibility (scopedKey scope e.id) false walk) walk' →
    P (hiddenInstance above scope e walk :: below) walk walk'

namespace Compositional

variable {setting} {P : List Instance → Walk → Walk → Prop}

theorem followedBy (hP : Compositional setting P) {part next : WalkM Unit} {list : List Instance}
    {following : Walk → List Instance} {walk walk' : Walk}
    (hpart : ∀ between, part.run walk = .ok ((), between) → P list walk between)
    (hnext : ∀ between, next.run between = .ok ((), walk') →
      P (following between) between walk')
    (h : (part >>= fun _ => next).run walk = .ok ((), walk')) :
    P (list ++ listFrom part following walk) walk walk' := by
  obtain ⟨⟨⟩, between, hfirst, hsecond⟩ := exists_of_run_bind_eq_ok h
  rw [listFrom_of_run hfirst]
  exact hP.append (hpart between hfirst) (hnext between hsecond)

theorem scopes (hP : Compositional setting P) {part : Option String → WalkM Unit}
    {inner : Option String → Walk → List Instance}
    (hpart : ∀ scope walk walk', (part scope).run walk = .ok ((), walk') →
      P (inner scope walk) walk walk')
    {scopes : List (Option String)} {walk walk' : Walk}
    (h : (forM scopes part).run walk = .ok ((), walk')) :
    P (listScopes part inner scopes walk) walk walk' := by
  induction scopes generalizing walk with
  | nil =>
      cases h
      exact hP.nil _
  | cons scope scopes ih =>
      rw [List.forM_cons] at h
      exact hP.followedBy (hpart scope walk) (fun _ hrun => ih hrun) h

mutual

theorem hide (hP : Compositional setting P) (above : List Instance) {scope : Option String}
    {walk walk' : Walk} : {e : Element} →
    (Walk.hide setting scope e).run walk = .ok ((), walk') →
    P (hiddenFrom setting above scope e walk) walk walk'
  | .container attributes kind children, h => by
      rw [Walk.hide] at h
      obtain ⟨⟨⟩, marked, hmark, h⟩ := exists_of_run_bind_eq_ok h
      cases hmark
      rw [hideWithin_run] at h
      rw [hiddenFrom]
      have hconceals := conceals_of_hideAll setting
        (v := hiddenInstance above scope (.container attributes kind children) walk) rfl
        (scopesAsked_eq setting scope attributes kind children _) h
      refine hP.hidden above scope _ hconceals (hP.scopes ?_ h)
      intro scope' _ _ hrun
      exact hideAll hP _ hrun
  | .field attributes traits, h => by
      rw [Walk.hide] at h
      cases h
      exact hP.hidden above scope _ (conceals_of_no_children setting rfl _) (hP.nil _)
  | .content attributes text, h => by
      rw [Walk.hide] at h
      cases h
      exact hP.hidden above scope _ (conceals_of_no_children setting rfl _) (hP.nil _)

theorem hideAll (hP : Compositional setting P) (above : List Instance) {scope : Option String}
    {walk walk' : Walk} : {es : List Element} →
    (Walk.hideAll setting scope es).run walk = .ok ((), walk') →
    P (hiddenFromAll setting above scope es walk) walk walk'
  | [], h => by
      cases h
      exact hP.nil _
  | e :: rest, h => by
      rw [Walk.hideAll] at h
      rw [hiddenFromAll]
      exact hP.followedBy (fun _ hrun => hide hP above hrun) (fun _ hrun => hideAll hP above hrun) h

end

mutual

/-- What holds of the steps of instances holds of a visit with its instances. -/
theorem visit (hP : Compositional setting P) (above : List Instance) {scope : Option String}
    {walk walk' : Walk} : {e : Element} →
    (Walk.visit setting scope e).run walk = .ok ((), walk') →
    P (instancesFrom setting above scope e walk) walk walk'
  | .container attributes kind children, h => by
      rw [Walk.visit] at h
      obtain ⟨visible, entered, henter, h⟩ := exists_of_run_bind_eq_ok h
      cases visible with
      | true =>
          rw [if_pos rfl, visitWithin_run] at h
          rw [instancesFrom_of_visible setting henter]
          have hcovers := covers_of_visitAll setting above henter h
          refine hP.entered above henter (fun _ => hcovers) (fun hvisible => by cases hvisible)
            (hP.scopes ?_ h)
          intro scope' _ _ hrun
          exact visitAll hP _ hrun
      | false =>
          rw [if_neg Bool.false_ne_true, hideWithin_run] at h
          rw [instancesFrom_of_hidden setting henter]
          have hscopes := scopesAsked_eq setting scope attributes kind children entered
          rw [← enteredInstance_after_of_hidden setting above henter] at hscopes
          have hconceals := conceals_of_hideAll setting
            (v := enteredInstance setting above scope (.container attributes kind children) walk)
            (by rw [enteredInstance_element]; rfl)
            (by rw [enteredInstance_element, enteredInstance_scope]; exact hscopes) h
          rw [enteredInstance_above] at hconceals
          refine hP.entered above henter (fun hvisible => by cases hvisible)
            (fun _ => hconceals) (hP.scopes ?_ h)
          intro scope' _ _ hrun
          exact hP.hideAll _ hrun
  | .field attributes traits, h => by
      rw [Walk.visit] at h
      obtain ⟨visible, henter⟩ := exists_of_run_discard_eq_ok h
      rw [instancesFrom]
      refine hP.entered above henter (fun _ => ?_)
        (fun _ => conceals_of_no_children setting (by rw [enteredInstance_element]; rfl) _) ?_
      · simp [Covers]
      · simpa only [opened, ite_self] using hP.nil walk'
  | .content attributes text, h => by
      rw [Walk.visit] at h
      obtain ⟨visible, henter⟩ := exists_of_run_discard_eq_ok h
      rw [instancesFrom]
      refine hP.entered above henter (fun _ => ?_)
        (fun _ => conceals_of_no_children setting (by rw [enteredInstance_element]; rfl) _) ?_
      · simp [Covers]
      · simpa only [opened, ite_self] using hP.nil walk'

theorem visitAll (hP : Compositional setting P) (above : List Instance) {scope : Option String}
    {walk walk' : Walk} : {es : List Element} →
    (Walk.visitAll setting scope es).run walk = .ok ((), walk') →
    P (instancesFromAll setting above scope es walk) walk walk'
  | [], h => by
      cases h
      exact hP.nil _
  | e :: rest, h => by
      rw [Walk.visitAll] at h
      rw [instancesFromAll]
      exact hP.followedBy (fun _ hrun => visit hP above hrun)
        (fun _ hrun => visitAll hP above hrun) h

end

end Compositional

end Walk

/-- The instances that a derivation comes to, those included that are only marked as hidden. -/
def FormEngine.instances (engine : FormEngine) (tree : Element) (inputs globals : KeyMap Json) :
    List Instance :=
  match prepare (.fresh engine.host engine.config.script) globals.toList with
  | .error _ => []
  | .ok scripts =>
    Walk.instancesFrom ⟨engine.operators, engine.config⟩ [] none tree (.start scripts inputs)

end FormDerivation
