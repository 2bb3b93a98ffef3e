import FormDerivation.Proofs.Derivation.DocumentOrder

/-!
# Groups without expressions

A group without expressions around siblings is visited, and hidden, together with them.  The walk
over a form with such a group goes the way of the one without it, over one more instance wherever it
comes to the place of the group (`Walk.EnlargesAll.plug`).  All that these instances leave are
entries under their keys among the visibilities, for which no step asks.
-/

namespace FormDerivation

inductive Container.SameButSteps : Container → Container → Prop where
  | refl (kind : Container) : SameButSteps kind kind
  | root (steps steps' : RootSteps) : SameButSteps (.root steps) (.root steps')

namespace Walk

/-! ## All instances at a place -/

section Places

variable (setting : WalkSetting) (e : Element)

def hiddenAt (above : List Instance) (scope : Option String) : List Frame → Walk → List Instance
  | [], walk => [hiddenInstance above scope e walk]
  | frame :: frames, walk =>
    let v := hiddenInstance above scope (frame.around (e.plug frames)) walk
    let marked := markVisibility (scopedKey scope frame.attributes.id) false walk
    listScopes (fun scope => hideAll setting scope (frame.children (e.plug frames)))
      (fun scope => listFrom (hideAll setting scope frame.before)
        (hiddenAt (v :: above) scope frames))
      (scopesBelow setting scope frame.attributes.id marked frame.kind) marked

def placedAt (above : List Instance) (scope : Option String) : List Frame → Walk → List Instance
  | [], walk => [enteredInstance setting above scope e walk]
  | frame :: frames, walk =>
    let container := frame.around (e.plug frames)
    let v := enteredInstance setting above scope container walk
    match (enter setting scope container).run walk with
    | .ok (true, entered) =>
      listScopes (fun scope => visitAll setting scope (frame.children (e.plug frames)))
        (fun scope => listFrom (visitAll setting scope frame.before)
          (placedAt (v :: above) scope frames))
        (scopesBelow setting scope frame.attributes.id entered frame.kind)
        (spread setting scope frame.attributes.id entered frame.kind)
    | .ok (false, entered) =>
      listScopes (fun scope => hideAll setting scope (frame.children (e.plug frames)))
        (fun scope => listFrom (hideAll setting scope frame.before)
          (hiddenAt setting e (v :: above) scope frames))
        (scopesBelow setting scope frame.attributes.id entered frame.kind) entered
    | .error _ => []

end Places

/-! ## Walks with other visibilities -/

def SameButVisibilities (keys : String → Prop) (walk walk' : Walk) : Prop :=
  ∃ visibilities : KeyMap Bool,
    (∀ key, ¬ keys key → visibilities.get? key = walk.state.visibilities.get? key) ∧
      walk' = { walk with state := { walk.state with visibilities } }

/-- No step asks for visibilities. -/
theorem congruent_sameButVisibilities (setting : WalkSetting) (keys : String → Prop) :
    Congruent setting Eq (SameButVisibilities keys) where
  values := by
    rintro walk _ key ⟨visibilities, -, rfl⟩ _
    rfl
  recordFailure := by
    rintro walk _ site site' step error ⟨visibilities, hsame, rfl⟩ hkey
    exact ⟨visibilities, hsame, by simp only [recordFailure, hkey]⟩
  markVisibility := by
    rintro walk _ key visible ⟨visibilities, hsame, rfl⟩ _
    refine ⟨visibilities.insert key visible, fun other hother => ?_, rfl⟩
    simp only [markVisibility, KeyMap.get?_insert, hsame other hother]
  setValue := by
    rintro walk _ key value ⟨visibilities, hsame, rfl⟩ _
    exact ⟨visibilities, hsame, rfl⟩
  recordError := by
    rintro walk _ key message ⟨visibilities, hsame, rfl⟩ _
    exact ⟨visibilities, hsame, rfl⟩
  recordCount := by
    rintro walk _ key count ⟨visibilities, hsame, rfl⟩ _
    exact ⟨visibilities, hsame, rfl⟩
  refl := fun _ => rfl
  visibility_eq := by
    rintro e _ rfl
    rfl
  traits_eq := by
    rintro e _ rfl
    rfl
  evaluate := by
    rintro walk _ site e ⟨visibilities, hsame, rfl⟩
    cases e with
    | formula formula => exact ⟨rfl, visibilities, hsame, rfl⟩
    | script code =>
        have hvalues := @publish_of_values walk site { walk.state with visibilities } rfl
        simp only [evaluate, hvalues]
        cases hpublish : walk.publish site with
        | error error => exact ⟨rfl, visibilities, hsame, rfl⟩
        | ok published =>
            rw [← publish_state hpublish] at hsame ⊢
            exact ⟨rfl, visibilities, hsame, rfl⟩
    | malformed raw reason => exact ⟨rfl, visibilities, hsame, rfl⟩
  recordOverride := by
    rintro walk _ e _ key rfl ⟨visibilities, hsame, rfl⟩
    exact ⟨visibilities, hsame, rfl⟩

theorem SameButVisibilities.mark {keys : String → Prop} {walk walk' : Walk}
    (h : SameButVisibilities keys walk walk') {key : String} (hkey : keys key) (visible : Bool) :
    SameButVisibilities keys walk (markVisibility key visible walk') := by
  obtain ⟨visibilities, hsame, rfl⟩ := h
  refine ⟨visibilities.insert key visible, fun other hother => ?_, rfl⟩
  have hne : other ≠ key := by
    rintro rfl
    exact hother hkey
  rw [KeyMap.get?_insert, if_neg hne]
  exact hsame other hother

/-! ## Walks over further instances -/

/--
Parts of walks that go the same way, the second one over further instances besides those of the
first one, whose keys are among some at which the visibilities may differ.
-/
def Enlarges (keys : String → Prop) (part part' : WalkM Unit)
    (list list' further : Walk → List Instance) : Prop :=
  ∀ walk walk', SameButVisibilities keys walk walk' → (∀ v ∈ further walk', keys v.key) →
    Matched (SameButVisibilities keys) (part.run walk) (part'.run walk') ∧
      ((list' walk').map Instance.key).Perm
        ((further walk').map Instance.key ++ (list walk).map Instance.key)

theorem perm_append_append {α : Type} {first first' second second' new new' : List α}
    (h : first'.Perm (new ++ first)) (h' : second'.Perm (new' ++ second)) :
    (first' ++ second').Perm ((new ++ new') ++ (first ++ second)) := by
  refine (h.append h').trans ?_
  rw [List.append_assoc, List.append_assoc]
  refine List.Perm.append_left new ?_
  rw [← List.append_assoc, ← List.append_assoc]
  exact List.perm_append_comm.append_right second

namespace Enlarges

variable {keys : String → Prop} {part part' next next' : WalkM Unit}
  {list list' further following following' more : Walk → List Instance}

theorem same (hpart : Lockstep (SameButVisibilities keys) part part')
    (hlist : SameKeysFrom (SameButVisibilities keys) list list') :
    Enlarges keys part part' list list' fun _ => [] := by
  intro walk walk' hrelated _
  refine ⟨hpart walk walk' hrelated, ?_⟩
  rw [hlist walk walk' hrelated, List.map_nil, List.nil_append]

theorem andThen (h : Enlarges keys part part' list list' further)
    (hnext : Enlarges keys next next' following following' more) :
    Enlarges keys (part >>= fun _ => next) (part' >>= fun _ => next')
      (fun walk => list walk ++ listFrom part following walk)
      (fun walk => list' walk ++ listFrom part' following' walk)
      (fun walk => further walk ++ listFrom part' more walk) := by
  intro walk walk' hrelated hkeys
  rw [List.forall_mem_append] at hkeys
  obtain ⟨hmatched, hperm⟩ := h walk walk' hrelated hkeys.1
  simp only [List.map_append]
  rcases hmatched.error_or_ok with
    ⟨error, hrun, hrun'⟩ | ⟨⟨⟩, between, between', hrun, hrun', hbetween⟩
  · rw [run_bind_of_error hrun, run_bind_of_error hrun', listFrom, listFrom, listFrom, hrun, hrun']
    exact ⟨.error error, perm_append_append hperm (List.Perm.refl [])⟩
  · rw [run_bind_of_ok hrun, run_bind_of_ok hrun', listFrom_of_run hrun, listFrom_of_run hrun',
      listFrom_of_run hrun']
    rw [listFrom_of_run hrun'] at hkeys
    obtain ⟨hmatched', hperm'⟩ := hnext between between' hbetween hkeys.2
    exact ⟨hmatched', perm_append_append hperm hperm'⟩

theorem between {before before' after after' : WalkM Unit}
    {first first' last last' : Walk → List Instance}
    (hbefore : Enlarges keys before before' first first' fun _ => [])
    (h : Enlarges keys part part' list list' further)
    (hafter : Enlarges keys after after' last last' fun _ => []) :
    Enlarges keys (before >>= fun _ => part >>= fun _ => after)
      (before' >>= fun _ => part' >>= fun _ => after')
      (fun walk => first walk ++
        listFrom before (fun walk => list walk ++ listFrom part last walk) walk)
      (fun walk => first' walk ++
        listFrom before' (fun walk => list' walk ++ listFrom part' last' walk) walk)
      (listFrom before' further) := by
  have hall := hbefore.andThen (h.andThen hafter)
  simpa only [listFrom_nil, List.append_nil, List.nil_append] using hall

theorem forM {inner inner' : Option String → WalkM Unit}
    {lists lists' furthers : Option String → Walk → List Instance}
    (h : ∀ scope, Enlarges keys (inner scope) (inner' scope) (lists scope) (lists' scope)
      (furthers scope)) (scopes : List (Option String)) :
    Enlarges keys (forM scopes inner) (forM scopes inner') (listScopes inner lists scopes)
      (listScopes inner' lists' scopes) (listScopes inner' furthers scopes) := by
  induction scopes with
  | nil => exact .same (.pure ()) fun _ _ _ => rfl
  | cons scope rest ih =>
      rw [List.forM_cons, List.forM_cons]
      exact (h scope).andThen ih

end Enlarges

/-! ## Containers -/

section Containers

variable {setting : WalkSetting} {scope : Option String} {attributes : Attributes}
  {kind kind' : Container} {children children' : List Element}

theorem hide_container_run (walk : Walk) :
    (hide setting scope (.container attributes kind children)).run walk =
      (forM (scopesBelow setting scope attributes.id
          (markVisibility (scopedKey scope attributes.id) false walk) kind)
        fun scope => hideAll setting scope children).run
          (markVisibility (scopedKey scope attributes.id) false walk) := by
  rw [hide, ← hideWithin_run]
  rfl

theorem enter_container_eq (hpatch : attributes.patch = none) :
    enter setting scope (.container attributes kind' children') =
      enter setting scope (.container attributes kind children) := by
  have hnone : ∀ kind children site,
      patch setting site (.container attributes kind children) = pure none :=
    fun _ _ _ => patch_eq_pure setting hpatch
  rw [enter_eq, enter_eq, hnone, hnone, pure_bind, pure_bind, Option.getD_none, Option.getD_none]
  refine bind_congr fun visible => bind_congr fun _ => ?_
  cases visible <;> rfl

variable (setting scope) in
theorem scopesBelow_sameButSteps (h : kind.SameButSteps kind') (id : String) (walk : Walk) :
    scopesBelow setting scope id walk kind' = scopesBelow setting scope id walk kind ∧
      spread setting scope id walk kind' = spread setting scope id walk kind := by
  cases h <;> exact ⟨rfl, rfl⟩

end Containers

/-! ## Siblings -/

structure EnlargesAll (setting : WalkSetting) (keys : String → Prop) (e : Element)
    (frames : List Frame) (es es' : List Element) : Prop where
  visited : ∀ scope above above', Enlarges keys
    (visitAll setting scope es) (visitAll setting scope es')
    (instancesFromAll setting above scope es) (instancesFromAll setting above' scope es')
    (placedAt setting e above' scope frames)
  hidden : ∀ scope above above', Enlarges keys
    (hideAll setting scope es) (hideAll setting scope es')
    (hiddenFromAll setting above scope es) (hiddenFromAll setting above' scope es')
    (hiddenAt setting e above' scope frames)

namespace EnlargesAll

variable {setting : WalkSetting} {keys : String → Prop}

theorem group {attributes : Attributes} (hvisibility : attributes.visibility = none)
    (hpatch : attributes.patch = none) (es : List Element) :
    EnlargesAll setting keys (.container attributes .group es) [] es
      [.container attributes .group es] where
  visited := by
    intro scope above above' walk walk' hrelated hkeys
    have hcongruent := congruent_sameButVisibilities setting keys
    have henter := enter_open_run setting hvisibility hpatch scope .group es walk'
    have hkey := List.forall_mem_singleton.mp hkeys
    rw [enteredInstance_key] at hkey
    have hmarked := hrelated.mark hkey true
    have hlists := hcongruent.instancesFromAll_keys above
      (enteredInstance setting above' scope (.container attributes .group es) walk' :: above')
      scope es walk _ hmarked
    rw [visitAll_singleton, instancesFromAll_singleton, visit_plain rfl, run_bind_of_ok henter,
      if_pos rfl, instancesFrom_plain rfl henter, if_pos rfl, List.map_cons]
    refine ⟨hcongruent.visitAll scope es walk _ hmarked, ?_⟩
    exact List.Perm.of_eq (congrArg (_ :: ·) hlists)
  hidden := by
    intro scope above above' walk walk' hrelated hkeys
    have hcongruent := congruent_sameButVisibilities setting keys
    have hkey := List.forall_mem_singleton.mp hkeys
    have hmarked := hrelated.mark hkey false
    have hlists := hcongruent.hiddenFromAll_keys above
      (hiddenInstance above' scope (.container attributes .group es) walk' :: above')
      scope es walk _ hmarked
    rw [hideAll_singleton, hiddenFromAll_singleton, hide_plain rfl, hiddenFrom_plain rfl,
      List.map_cons]
    refine ⟨hcongruent.hideAll scope es walk _ hmarked, ?_⟩
    exact List.Perm.of_eq (congrArg (_ :: ·) hlists)

section Around

variable {e : Element} {frames : List Frame} {es : List Element} (frame : Frame)
  (h : EnlargesAll setting keys e frames es [e.plug frames])

include h

theorem visitAll_children (scope : Option String) (above above' : List Instance) :
    Enlarges keys (visitAll setting scope (frame.before ++ es ++ frame.after))
      (visitAll setting scope (frame.children (e.plug frames)))
      (instancesFromAll setting above scope (frame.before ++ es ++ frame.after))
      (instancesFromAll setting above' scope (frame.children (e.plug frames)))
      (listFrom (visitAll setting scope frame.before)
        (placedAt setting e above' scope frames)) := by
  have hcongruent := congruent_sameButVisibilities setting keys
  have hchildren : frame.children (e.plug frames) =
      frame.before ++ ([e.plug frames] ++ frame.after) := rfl
  have hsame : ∀ es, Enlarges keys (visitAll setting scope es) (visitAll setting scope es)
      (instancesFromAll setting above scope es) (instancesFromAll setting above' scope es)
      fun _ => [] := fun es =>
    .same (hcongruent.visitAll scope es) (hcongruent.instancesFromAll_keys above above' scope es)
  rw [hchildren, List.append_assoc, visitAll_append, visitAll_append, visitAll_append,
    visitAll_append, funext (instancesFromAll_append above scope frame.before _),
    funext (instancesFromAll_append above scope es _),
    funext (instancesFromAll_append above' scope frame.before _),
    funext (instancesFromAll_append above' scope [e.plug frames] _)]
  exact .between (hsame frame.before) (h.visited scope above above') (hsame frame.after)

theorem hideAll_children (scope : Option String) (above above' : List Instance) :
    Enlarges keys (hideAll setting scope (frame.before ++ es ++ frame.after))
      (hideAll setting scope (frame.children (e.plug frames)))
      (hiddenFromAll setting above scope (frame.before ++ es ++ frame.after))
      (hiddenFromAll setting above' scope (frame.children (e.plug frames)))
      (listFrom (hideAll setting scope frame.before)
        (hiddenAt setting e above' scope frames)) := by
  have hcongruent := congruent_sameButVisibilities setting keys
  have hchildren : frame.children (e.plug frames) =
      frame.before ++ ([e.plug frames] ++ frame.after) := rfl
  have hsame : ∀ es, Enlarges keys (hideAll setting scope es) (hideAll setting scope es)
      (hiddenFromAll setting above scope es) (hiddenFromAll setting above' scope es)
      fun _ => [] := fun es =>
    .same (hcongruent.hideAll scope es) (hcongruent.hiddenFromAll_keys above above' scope es)
  rw [hchildren, List.append_assoc, hideAll_append, hideAll_append, hideAll_append,
    hideAll_append, funext (hiddenFromAll_append above scope frame.before _),
    funext (hiddenFromAll_append above scope es _),
    funext (hiddenFromAll_append above' scope frame.before _),
    funext (hiddenFromAll_append above' scope [e.plug frames] _)]
  exact .between (hsame frame.before) (h.hidden scope above above') (hsame frame.after)

variable {kind : Container} (hkind : kind.SameButSteps frame.kind)

include hkind

theorem visit_around (hpatch : frame.attributes.patch = none) (scope : Option String)
    (above above' : List Instance) :
    let container : Element := .container frame.attributes kind (frame.before ++ es ++ frame.after)
    Enlarges keys (visit setting scope container) (visit setting scope (e.plug (frame :: frames)))
      (instancesFrom setting above scope container)
      (instancesFrom setting above' scope (e.plug (frame :: frames)))
      (placedAt setting e above' scope (frame :: frames)) := by
  intro container walk walk' hrelated hkeys
  have hcongruent := congruent_sameButVisibilities setting keys
  have hsame : enter setting scope (.container frame.attributes frame.kind
      (frame.children (e.plug frames))) = enter setting scope container := enter_container_eq hpatch
  rw [Element.plug, Frame.around]
  rw [placedAt, Frame.around] at hkeys ⊢
  rcases (hcongruent.enter scope (hcongruent.twins container) walk walk' hrelated).error_or_ok with
    ⟨error, hrun, hrun'⟩ | ⟨visible, entered, entered', hrun, hrun', hentered⟩
  · rw [← hsame] at hrun'
    rw [visit, visit, run_bind_of_error hrun, run_bind_of_error hrun', instancesFrom, instancesFrom]
    simp only [container] at hrun
    simp only [hrun, hrun', List.map_singleton, enteredInstance_key]
    exact ⟨.error error, List.Perm.refl _⟩
  · rw [← hsame] at hrun'
    simp only [hrun'] at hkeys ⊢
    obtain ⟨hscopes, hspread⟩ :=
      scopesBelow_sameButSteps setting scope hkind frame.attributes.id entered'
    rw [visit, visit, run_bind_of_ok hrun, run_bind_of_ok hrun']
    -- The own instances of the containers have one key, and what is below them is alike.
    cases visible with
    | true =>
        rw [if_pos rfl, if_pos rfl, visitWithin_run, visitWithin_run,
          instancesFrom_of_visible setting hrun, instancesFrom_of_visible setting hrun']
        simp only [hscopes, hspread, hcongruent.scopesBelow_eq hentered] at hkeys ⊢
        obtain ⟨hmatched, hperm⟩ := Enlarges.forM
          (fun inner => h.visitAll_children frame inner
            (enteredInstance setting above scope container walk :: above) _) _ _ _
          (hcongruent.spread hentered scope frame.attributes.id kind) hkeys
        rw [List.map_cons, List.map_cons, enteredInstance_key, enteredInstance_key]
        exact ⟨hmatched, (hperm.cons _).trans List.perm_middle.symm⟩
    | false =>
        rw [if_neg Bool.false_ne_true, if_neg Bool.false_ne_true, hideWithin_run, hideWithin_run,
          instancesFrom_of_hidden setting hrun, instancesFrom_of_hidden setting hrun']
        simp only [hscopes, hcongruent.scopesBelow_eq hentered] at hkeys ⊢
        obtain ⟨hmatched, hperm⟩ := Enlarges.forM
          (fun inner => h.hideAll_children frame inner
            (enteredInstance setting above scope container walk :: above) _) _ _ _ hentered hkeys
        rw [List.map_cons, List.map_cons, enteredInstance_key, enteredInstance_key]
        exact ⟨hmatched, (hperm.cons _).trans List.perm_middle.symm⟩

theorem hide_around (scope : Option String) (above above' : List Instance) :
    let container : Element := .container frame.attributes kind (frame.before ++ es ++ frame.after)
    Enlarges keys (hide setting scope container) (hide setting scope (e.plug (frame :: frames)))
      (hiddenFrom setting above scope container)
      (hiddenFrom setting above' scope (e.plug (frame :: frames)))
      (hiddenAt setting e above' scope (frame :: frames)) := by
  intro container walk walk' hrelated hkeys
  have hcongruent := congruent_sameButVisibilities setting keys
  let mark := markVisibility (scopedKey scope frame.attributes.id) false
  have hmarked : SameButVisibilities keys (mark walk) (mark walk') :=
    hcongruent.markVisibility false hrelated trivial
  have hscopes := (scopesBelow_sameButSteps setting scope hkind frame.attributes.id (mark walk')).1
  rw [Element.plug, Frame.around, hide_container_run, hide_container_run, hiddenFrom, hiddenFrom]
  rw [hiddenAt, Frame.around] at hkeys ⊢
  simp only [mark] at hmarked hscopes
  simp only [hscopes, hcongruent.scopesBelow_eq hmarked] at hkeys ⊢
  obtain ⟨hmatched, hperm⟩ := Enlarges.forM
    (fun inner => h.hideAll_children frame inner
      (hiddenInstance above scope container walk :: above) _) _ _ _ hmarked hkeys
  exact ⟨hmatched, (hperm.cons _).trans List.perm_middle.symm⟩

theorem around (hpatch : frame.attributes.patch = none) :
    EnlargesAll setting keys e (frame :: frames)
      [.container frame.attributes kind (frame.before ++ es ++ frame.after)]
      [e.plug (frame :: frames)] where
  visited := by
    intro scope above above'
    simp only [visitAll_singleton, instancesFromAll_singleton]
    exact h.visit_around frame hkind hpatch scope above above'
  hidden := by
    intro scope above above'
    simp only [hideAll_singleton, hiddenFromAll_singleton]
    exact h.hide_around frame hkind scope above above'

end Around

variable (setting keys) in
theorem plug {group : Attributes} (hgroup : group.visibility = none ∧ group.patch = none)
    (es : List Element) (frame : Frame) {kind : Container} (hkind : kind.SameButSteps frame.kind)
    (hframe : frame.attributes.patch = none) :
    (frames : List Frame) → (∀ outer ∈ frames, outer.attributes.patch = none) →
    EnlargesAll setting keys (.container group .group es) (frames ++ [frame])
      [(Element.container frame.attributes kind (frame.before ++ es ++ frame.after)).plug frames]
      [(Element.container group .group es).plug (frames ++ [frame])]
  | [], _ => (EnlargesAll.group hgroup.1 hgroup.2 es).around frame hkind hframe
  | outer :: frames, hframes => by
      rw [List.forall_mem_cons] at hframes
      have hinner := plug hgroup es frame hkind hframe frames hframes.2
      have hall := hinner.around outer (.refl _) hframes.1
      rw [List.append_assoc] at hall
      exact hall

end EnlargesAll

end Walk

/-! ## Derivations -/

namespace FormEngine

def placedAt (engine : FormEngine) (e : Element) (frames : List Frame)
    (inputs globals : KeyMap Json) : List Instance :=
  match prepare (.fresh engine.host engine.config.script) globals.toList with
  | .error _ => []
  | .ok scripts =>
    Walk.placedAt ⟨engine.operators, engine.config⟩ e [] none frames (.start scripts inputs)

/--
A form with a group that has no expressions, in a place around which nothing is patched, has one
more instance wherever a derivation comes to that place.  The derivation goes the way of the form
without the group up to visibilities under the keys of these instances.
-/
theorem derive_grouped (engine : FormEngine) {group : Attributes}
    (hgroup : group.visibility = none ∧ group.patch = none) (es : List Element)
    (frames : List Frame) (frame : Frame) {kind : Container}
    (hkind : kind.SameButSteps frame.kind) (hframe : frame.attributes.patch = none)
    (hframes : ∀ outer ∈ frames, outer.attributes.patch = none) (inputs globals : KeyMap Json) :
    let tree := (Element.container frame.attributes kind
      (frame.before ++ es ++ frame.after)).plug frames
    let grouped := (Element.container group .group es).plug (frames ++ [frame])
    let own := (engine.placedAt (.container group .group es) (frames ++ [frame]) inputs globals).map
      Instance.key
    ((engine.instances grouped inputs globals).map Instance.key).Perm
        (own ++ (engine.instances tree inputs globals).map Instance.key) ∧
      ((∃ error, engine.derive tree inputs globals = .error error ∧
        engine.derive grouped inputs globals = .error error) ∨
      ∃ walk walk', engine.derive tree inputs globals = .ok walk.state ∧
        engine.derive grouped inputs globals = .ok walk'.state ∧
        Walk.SameButVisibilities (· ∈ own) walk walk') := by
  intro tree grouped own
  let setting : WalkSetting := ⟨engine.operators, engine.config⟩
  have hid : grouped.id = tree.id := by
    cases frames <;> rfl
  have hwalks : ∀ scripts,
      prepare (.fresh engine.host engine.config.script) globals.toList = .ok scripts →
      Walk.Matched (Walk.SameButVisibilities (· ∈ own))
        ((Walk.visit setting none tree).run (.start scripts inputs))
        ((Walk.visit setting none grouped).run (.start scripts inputs)) ∧
      ((engine.instances grouped inputs globals).map Instance.key).Perm
        (own ++ (engine.instances tree inputs globals).map Instance.key) := by
    intro scripts hprepare
    let start : Walk := .start scripts inputs
    have hplaced : own = (Walk.placedAt setting (.container group .group es) [] none
        (frames ++ [frame]) start).map Instance.key := by
      simp only [own, placedAt, hprepare]
      rfl
    have hall := Walk.EnlargesAll.plug setting (· ∈ own) hgroup es frame hkind hframe frames hframes
    have henlarges := hall.visited none [] [] start start ⟨_, fun _ _ => rfl, rfl⟩
      fun v hv => hplaced ▸ List.mem_map_of_mem hv
    rw [Walk.visitAll_singleton, Walk.visitAll_singleton, Walk.instancesFromAll_singleton,
      Walk.instancesFromAll_singleton, ← hplaced] at henlarges
    rwa [instances_of_prepare hprepare, instances_of_prepare hprepare]
  constructor
  · cases hprepare : prepare (.fresh engine.host engine.config.script) globals.toList with
    | ok scripts => exact (hwalks scripts hprepare).2
    | error error =>
        have hnone : engine.instances grouped inputs globals = [] ∧
            engine.instances tree inputs globals = [] ∧ own = [] := by
          simp only [instances, own, placedAt, hprepare, List.map_nil, and_self]
        rw [hnone.1, hnone.2.1, hnone.2.2]
        exact List.Perm.refl []
  · exact engine.derive_matched_of_prepare hid fun scripts hprepare => (hwalks scripts hprepare).1

end FormEngine

end FormDerivation
