import FormDerivation.Proofs.Derivation.Nesting
import FormDerivation.Proofs.Derivation.Outlines
import FormDerivation.Proofs.Derivation.Unrolling

/-!
# What is below a hidden element

Two trees that differ strictly below one element have derivations that differ in overrides only, if
every instance of that element in the first one is hidden (`FormEngine.derive_hidden_inert`).
-/

namespace FormDerivation

namespace Walk

/-! ## Instances at a place -/

section Places

variable (setting : WalkSetting) (e : Element)

/--
The instances that an element has in a place, as far as they are entered.  Below a hidden instance
of a container around it, it is hidden without being entered.
-/
def instancesAt (above : List Instance) (scope : Option String) : List Frame → Walk → List Instance
  | [], walk => [enteredInstance setting above scope e walk]
  | frame :: frames, walk =>
    let container := frame.around (e.plug frames)
    let v := enteredInstance setting above scope container walk
    match (enter setting scope container).run walk with
    | .ok (true, entered) =>
      listScopes (fun scope => visitAll setting scope (frame.children (e.plug frames)))
        (fun scope => listFrom (visitAll setting scope frame.before)
          (instancesAt (v :: above) scope frames))
        (scopesBelow setting scope frame.attributes.id entered frame.kind)
        (spread setting scope frame.attributes.id entered frame.kind)
    | _ => []

theorem listFrom_subset {part : WalkM Unit} {next next' : Walk → List Instance}
    (h : ∀ walk, next walk ⊆ next' walk) (walk : Walk) :
    listFrom part next walk ⊆ listFrom part next' walk := by
  unfold listFrom
  split
  · exact h _
  · exact List.Subset.refl _

theorem listScopes_subset {part : Option String → WalkM Unit}
    {inner inner' : Option String → Walk → List Instance}
    (h : ∀ scope walk, inner scope walk ⊆ inner' scope walk) (scopes : List (Option String))
    (walk : Walk) : listScopes part inner scopes walk ⊆ listScopes part inner' scopes walk := by
  induction scopes generalizing walk with
  | nil => exact List.Subset.refl _
  | cons scope rest ih =>
      rw [listScopes, listScopes]
      refine List.append_subset.mpr ⟨?_, ?_⟩
      · exact List.subset_append_of_subset_left _ (h scope walk)
      · exact List.subset_append_of_subset_right _ (listFrom_subset ih walk)

theorem listFrom_visitAll_subset (above : List Instance) (scope : Option String)
    (before after : List Element) (child : Element) (walk : Walk) :
    listFrom (visitAll setting scope before) (instancesFrom setting above scope child) walk ⊆
      instancesFromAll setting above scope (before ++ child :: after) walk := by
  induction before generalizing walk with
  | nil =>
      rw [List.nil_append, instancesFromAll]
      exact List.subset_append_left _ _
  | cons first rest ih =>
      rw [List.cons_append, instancesFromAll, visitAll]
      refine List.subset_append_of_subset_right _ ?_
      unfold listFrom
      cases hfirst : (visit setting scope first).run walk with
      | error error =>
          rw [run_bind_of_error hfirst]
          exact List.nil_subset _
      | ok result =>
          obtain ⟨_, between⟩ := result
          rw [run_bind_of_ok hfirst]
          exact ih between

theorem instancesAt_subset (above : List Instance) (scope : Option String) (frames : List Frame)
    (walk : Walk) :
    instancesAt setting e above scope frames walk ⊆
      instancesFrom setting above scope (e.plug frames) walk := by
  induction frames generalizing above scope walk with
  | nil =>
      intro v hv
      cases List.mem_singleton.mp hv
      exact mem_instancesFrom_self setting above scope e walk
  | cons frame frames ih =>
      rw [instancesAt, Element.plug, Frame.around]
      split
      · next entered henter =>
        rw [instancesFrom_of_visible setting henter]
        refine List.Subset.trans (listScopes_subset (fun scope' between => ?_) _ _)
          (List.subset_cons_self _ _)
        refine List.Subset.trans ?_
          (listFrom_visitAll_subset setting _ scope' frame.before frame.after (e.plug frames) between)
        exact listFrom_subset (ih _ scope') between
      · exact List.nil_subset _

theorem instancesAt_element (above : List Instance) (scope : Option String) (frames : List Frame)
    (walk : Walk) : ∀ v ∈ instancesAt setting e above scope frames walk, v.element = e := by
  have hereditary := Hereditary.forall_mem fun v => v.element = e
  induction frames generalizing above scope walk with
  | nil => simp [instancesAt]
  | cons frame frames ih =>
      rw [instancesAt]
      split
      · exact hereditary.scopes (fun scope' _ => hereditary.listFrom (ih _ scope')) _
      · exact hereditary.nil

end Places

/-! ## Lockstep while instances are hidden -/

def LockstepWhile {α : Type} (R : Walk → Walk → Prop) (list : Walk → List Instance)
    (part part' : WalkM α) : Prop :=
  ∀ walk walk', R walk walk' → (∀ v ∈ list walk, v.visible = false) →
    Matched R (part.run walk) (part'.run walk')

namespace LockstepWhile

variable {R : Walk → Walk → Prop} {list following : Walk → List Instance}
  {part part' next next' : WalkM Unit}

theorem bind (h : LockstepWhile R list part part') (hnext : LockstepWhile R following next next') :
    LockstepWhile R (fun walk => list walk ++ listFrom part following walk)
      (part >>= fun _ => next) (part' >>= fun _ => next') := by
  intro walk walk' hrelated hhidden
  rw [List.forall_mem_append] at hhidden
  refine (h walk walk' hrelated hhidden.1).bind fun _ between between' hrun hbetween => ?_
  rw [listFrom_of_run hrun] at hhidden
  exact hnext between between' hbetween hhidden.2

theorem between {before before' after after' : WalkM Unit} (hbefore : Lockstep R before before')
    (h : LockstepWhile R list part part') (hafter : Lockstep R after after') :
    LockstepWhile R (listFrom before list) (before >>= fun _ => part >>= fun _ => after)
      (before' >>= fun _ => part' >>= fun _ => after') := by
  intro walk walk' hrelated hhidden
  refine (hbefore walk walk' hrelated).bind fun _ start start' hrun hstart => ?_
  rw [listFrom_of_run hrun] at hhidden
  exact (h start start' hstart hhidden).bind fun _ last last' _ hlast => hafter last last' hlast

theorem forM {inner inner' : Option String → WalkM Unit}
    {lists : Option String → Walk → List Instance}
    (h : ∀ scope, LockstepWhile R (lists scope) (inner scope) (inner' scope))
    (scopes : List (Option String)) :
    LockstepWhile R (listScopes inner lists scopes) (forM scopes inner) (forM scopes inner') := by
  induction scopes with
  | nil => exact fun walk walk' hrelated _ => Lockstep.pure () walk walk' hrelated
  | cons scope rest ih =>
      rw [List.forM_cons, List.forM_cons]
      exact (h scope).bind ih

end LockstepWhile

section Plugged

variable (setting : WalkSetting) {e e' : Element}

theorem hide_children_lockstep {children children' : List Element}
    (h : Element.outlines children' = Element.outlines children) (scope : Option String) (id : String)
    (kind : Container) :
    Lockstep SameButOverrides
      (hideWithin setting scope id kind fun scope => hideAll setting scope children)
      (hideWithin setting scope id kind fun scope => hideAll setting scope children') := by
  have hcongruent := congruent_sameButOverrides setting
  refine (hcongruent.scopes (fun inner => ?_) scope id kind).2
  rw [hideAll_congr setting inner h]
  exact hcongruent.hideAll inner children

theorem visit_hidden_lockstep (h : Element.DiffersBelow e e') (above : List Instance)
    (scope : Option String) :
    LockstepWhile SameButOverrides (instancesAt setting e above scope [])
      (visit setting scope e) (visit setting scope e') := by
  have hcongruent := congruent_sameButOverrides setting
  cases h with
  | refl => exact fun walk walk' hrelated _ => hcongruent.visit scope e walk walk' hrelated
  | @container attributes kind children children' houtlines =>
      intro walk walk' hrelated hhidden
      have hvisible := List.forall_mem_singleton.mp hhidden
      have htwins := twins_container attributes kind children children'
      rw [visit, visit]
      refine (hcongruent.enter scope htwins walk walk' hrelated).bind
        fun visible entered entered' hrun hentered => ?_
      rw [enteredInstance_visible setting hrun] at hvisible
      subst hvisible
      exact hide_children_lockstep setting houtlines scope attributes.id kind entered entered' hentered

theorem visit_plug_lockstep (h : Element.DiffersBelow e e') (above : List Instance)
    (scope : Option String) (frames : List Frame) :
    LockstepWhile SameButOverrides (instancesAt setting e above scope frames)
      (visit setting scope (e.plug frames)) (visit setting scope (e'.plug frames)) := by
  have hcongruent := congruent_sameButOverrides setting
  induction frames generalizing above scope with
  | nil => exact visit_hidden_lockstep setting h above scope
  | cons frame frames ih =>
      intro walk walk' hrelated hhidden
      rw [instancesAt] at hhidden
      rw [Element.plug, Element.plug, Frame.around, Frame.around, visit, visit]
      have htwins := twins_container frame.attributes frame.kind (frame.children (e.plug frames))
        (frame.children (e'.plug frames))
      refine (hcongruent.enter scope htwins walk walk' hrelated).bind
        fun visible entered entered' hrun hentered => ?_
      cases visible with
      | true =>
          -- In each scope the siblings before the place are visited first, in both walks alike.
          have hinner : ∀ scope' above', LockstepWhile SameButOverrides
              (listFrom (visitAll setting scope' frame.before)
                (instancesAt setting e above' scope' frames))
              (visitAll setting scope' (frame.children (e.plug frames)))
              (visitAll setting scope' (frame.children (e'.plug frames))) := by
            intro scope' above'
            rw [Frame.children, Frame.children, visitAll_append, visitAll_append, visitAll, visitAll]
            exact .between (hcongruent.visitAll scope' frame.before) (ih above' scope')
              (hcongruent.visitAll scope' frame.after)
          rw [if_pos rfl, if_pos rfl, visitWithin_run, visitWithin_run,
            hcongruent.scopesBelow_eq hentered]
          simp only [Frame.around, hrun] at hhidden
          exact LockstepWhile.forM (fun scope' => hinner scope' _) _ _ _
            (hcongruent.spread hentered scope frame.attributes.id frame.kind) hhidden
      | false =>
          have houtlines := Element.outlines_children frame
            (Element.outline_plug h.outline_eq frames)
          exact hide_children_lockstep setting houtlines scope frame.attributes.id frame.kind entered
            entered' hentered

end Plugged

end Walk

/-! ## Derivations -/

namespace FormEngine

def instancesAt (engine : FormEngine) (e : Element) (frames : List Frame)
    (inputs globals : KeyMap Json) : List Instance :=
  match prepare (.fresh engine.host engine.config.script) globals.toList with
  | .error _ => []
  | .ok scripts =>
    Walk.instancesAt ⟨engine.operators, engine.config⟩ e [] none frames (.start scripts inputs)

theorem mem_instances_of_mem_instancesAt {engine : FormEngine} {e : Element} {frames : List Frame}
    {inputs globals : KeyMap Json} :
    ∀ v ∈ engine.instancesAt e frames inputs globals,
      v ∈ engine.instances (e.plug frames) inputs globals ∧ v.element = e := by
  unfold instancesAt instances
  cases prepare (.fresh engine.host engine.config.script) globals.toList with
  | error error => simp
  | ok scripts =>
      intro v hv
      exact ⟨Walk.instancesAt_subset _ e [] none frames _ hv,
        Walk.instancesAt_element _ e [] none frames _ v hv⟩

/--
What is strictly below an element is of no account, besides its outline, if every instance of the
element is hidden: another tree then fails with the same error, or its state is the same up to
overrides.  The instances meant are among those of the derivation, and they are of that element.
-/
theorem derive_hidden_inert (engine : FormEngine) (e e' : Element) (h : e.DiffersBelow e')
    (frames : List Frame) (inputs globals : KeyMap Json)
    (hhidden : ∀ v ∈ engine.instancesAt e frames inputs globals, v.visible = false) :
    (∀ v ∈ engine.instancesAt e frames inputs globals,
      v ∈ engine.instances (e.plug frames) inputs globals ∧ v.element = e) ∧
    ((∃ error, engine.derive (e.plug frames) inputs globals = .error error ∧
      engine.derive (e'.plug frames) inputs globals = .error error) ∨
    (∃ state state', engine.derive (e.plug frames) inputs globals = .ok state ∧
      engine.derive (e'.plug frames) inputs globals = .ok state' ∧
      state'.visibilities = state.visibilities ∧ state'.values = state.values ∧
      state'.errors = state.errors ∧ state'.repetitions = state.repetitions ∧
      state'.failures = state.failures)) := by
  have hwalks : ∀ scripts,
      prepare (.fresh engine.host engine.config.script) globals.toList = .ok scripts →
      Walk.Matched Walk.SameButOverrides
        ((Walk.visit ⟨engine.operators, engine.config⟩ none (e.plug frames)).run
          (.start scripts inputs))
        ((Walk.visit ⟨engine.operators, engine.config⟩ none (e'.plug frames)).run
          (.start scripts inputs)) := by
    intro scripts hprepare
    simp only [instancesAt, hprepare] at hhidden
    exact Walk.visit_plug_lockstep _ h [] none frames _ _ ⟨_, rfl⟩ hhidden
  refine ⟨mem_instances_of_mem_instancesAt, ?_⟩
  rcases engine.derive_matched_of_prepare (h.plug_id frames) hwalks with
    herror | ⟨walk, _, hstate, hstate', overrides, rfl⟩
  · exact .inl herror
  · exact .inr ⟨_, _, hstate, hstate', rfl, rfl, rfl, rfl, rfl⟩

theorem derive_hidden_inert_box :
    let engine : FormEngine := ⟨⟨.ofList [("logic.not", Operator.notOperator)]⟩, .empty, {}⟩
    let never : Expression := .formula (.apply "logic.not" [.constant (.bool true)])
    let required : FieldTraits := ⟨.text, true, none, none, none, none⟩
    let failing : FieldTraits := ⟨.number, false, none, none, none,
      some (.formula (.apply "unknown" []))⟩
    let box (traits : FieldTraits) : Element := .container ⟨"box", "", none, some never, none⟩ .group
      [.field ⟨"inside", "", none, none, none⟩ traits]
    let frame : Frame := ⟨⟨"form", "", none, none, none⟩, .group, [],
      [.field ⟨"beside", "", none, none, none⟩ required]⟩
    ∃ state state', engine.derive ((box required).plug [frame]) .empty .empty = .ok state ∧
      engine.derive ((box failing).plug [frame]) .empty .empty = .ok state' ∧
      state.errors.keys = ["beside"] ∧ state'.errors = state.errors ∧
      state'.failures = state.failures := by
  intro engine never required failing box frame
  have hhidden : ∀ v ∈ engine.instancesAt (box required) [frame] .empty .empty,
      v.visible = false := List.forall_mem_singleton.mpr rfl
  have hderived : engine.derive ((box required).plug [frame]) .empty .empty = .ok _ := rfl
  obtain ⟨-, hinert⟩ := derive_hidden_inert engine (box required) (box failing)
    (.container _ _ rfl) [frame] .empty .empty hhidden
  rcases hinert with
    ⟨error, herror, -⟩ | ⟨state, state', hstate, hstate', -, -, herrors, -, hfailures⟩
  · cases hderived.symm.trans herror
  · refine ⟨state, state', hstate, hstate', ?_, herrors, hfailures⟩
    cases hderived.symm.trans hstate
    decide

end FormEngine

end FormDerivation
