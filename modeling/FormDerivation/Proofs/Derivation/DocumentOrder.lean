import FormDerivation.Proofs.Derivation.HiddenInert
import FormDerivation.Proofs.Derivation.Siblings

/-!
# Derivations in document order

What a derivation finds out about an element depends on the elements that it has come to before, and
on none that it comes to later.  A form that ends at some point, with the containers around that
point left open, is derived like the beginning of the whole form (`FormEngine.derive_begins`), so two
forms that begin alike are derived alike up to there (`FormEngine.derive_document_order`).
-/

namespace FormDerivation

open KeyMap (lookupEntry lookupEntry_append)

namespace Container

def isRepeating : Container → Bool
  | .repeating _ => true
  | _ => false

end Container

def Frame.cut (frame : Frame) : Frame :=
  { frame with after := [] }

namespace Walk

variable {setting : WalkSetting}

/-! ## Keys of two walks -/

def SameKeysFrom (R : Walk → Walk → Prop) (list list' : Walk → List Instance) : Prop :=
  ∀ walk walk', R walk walk' →
    (list' walk').map Instance.key = (list walk).map Instance.key

namespace SameKeysFrom

variable {R : Walk → Walk → Prop} {part part' : WalkM Unit}
  {list list' next next' : Walk → List Instance}

theorem listFrom (hpart : Lockstep R part part') (h : SameKeysFrom R next next') :
    SameKeysFrom R (listFrom part next) (listFrom part' next') := by
  intro walk walk' hrelated
  unfold Walk.listFrom
  rcases (hpart walk walk' hrelated).error_or_ok with
    ⟨error, hrun, hrun'⟩ | ⟨⟨⟩, between, between', hrun, hrun', hbetween⟩
  · rw [hrun, hrun']
  · rw [hrun, hrun']
    exact h between between' hbetween

theorem append (h : SameKeysFrom R list list') (hnext : SameKeysFrom R next next') :
    SameKeysFrom R (fun walk => list walk ++ next walk) (fun walk => list' walk ++ next' walk) := by
  intro walk walk' hrelated
  rw [List.map_append, List.map_append, h walk walk' hrelated, hnext walk walk' hrelated]

theorem listScopes {parts parts' : Option String → WalkM Unit}
    {inner inner' : Option String → Walk → List Instance}
    (hparts : ∀ scope, Lockstep R (parts scope) (parts' scope))
    (h : ∀ scope, SameKeysFrom R (inner scope) (inner' scope)) (scopes : List (Option String)) :
    SameKeysFrom R (listScopes parts inner scopes) (listScopes parts' inner' scopes) := by
  induction scopes with
  | nil => exact fun _ _ _ => rfl
  | cons scope rest ih => exact (h scope).append (ih.listFrom (hparts scope))

end SameKeysFrom

namespace Congruent

variable {T : Element → Element → Prop} {R : Walk → Walk → Prop} (h : Congruent setting T R)

include h

mutual

theorem hiddenFrom_keys (above above' : List Instance) (scope : Option String) : (e : Element) →
    SameKeysFrom R (hiddenFrom setting above scope e) (hiddenFrom setting above' scope e)
  | .container attributes kind children => by
      intro walk walk' hrelated
      have hmarked : R (markVisibility (scopedKey scope attributes.id) false walk)
          (markVisibility (scopedKey scope attributes.id) false walk') :=
        h.markVisibility false hrelated trivial
      rw [hiddenFrom, hiddenFrom, h.scopesBelow_eq hmarked]
      refine congrArg (_ :: ·) (SameKeysFrom.listScopes ?_ ?_ _ _ _ hmarked)
      · exact fun inner => h.hideAll inner children
      · exact fun inner => hiddenFromAll_keys _ _ inner children
  | .field attributes traits => by
      intro walk walk' _
      rw [hiddenFrom, hiddenFrom]
      rfl
  | .content attributes text => by
      intro walk walk' _
      rw [hiddenFrom, hiddenFrom]
      rfl

theorem hiddenFromAll_keys (above above' : List Instance) (scope : Option String) :
    (es : List Element) → SameKeysFrom R (hiddenFromAll setting above scope es)
      (hiddenFromAll setting above' scope es)
  | [] => fun _ _ _ => by rw [hiddenFromAll, hiddenFromAll]
  | e :: rest => by
      intro walk walk' hrelated
      rw [hiddenFromAll, hiddenFromAll]
      exact (hiddenFrom_keys above above' scope e).append
        ((hiddenFromAll_keys above above' scope rest).listFrom (h.hide scope e)) walk walk' hrelated

end

mutual

theorem instancesFrom_keys (above above' : List Instance) (scope : Option String) :
    (e : Element) → SameKeysFrom R (instancesFrom setting above scope e)
      (instancesFrom setting above' scope e)
  | .container attributes kind children => by
      intro walk walk' hrelated
      have htwins := h.twins (.container attributes kind children)
      rcases (h.enter scope htwins walk walk' hrelated).error_or_ok with
        ⟨error, hrun, hrun'⟩ | ⟨visible, entered, entered', hrun, hrun', hentered⟩
      · rw [instancesFrom, instancesFrom]
        simp only [hrun, hrun', List.map_singleton, enteredInstance_key]
      · cases visible with
        | true =>
            rw [instancesFrom_of_visible setting hrun, instancesFrom_of_visible setting hrun',
              List.map_cons, List.map_cons, enteredInstance_key, enteredInstance_key,
              h.scopesBelow_eq hentered]
            refine congrArg (_ :: ·) (SameKeysFrom.listScopes ?_ ?_ _ _ _
              (h.spread hentered scope attributes.id kind))
            · exact fun inner => h.visitAll inner children
            · exact fun inner => instancesFromAll_keys _ _ inner children
        | false =>
            rw [instancesFrom_of_hidden setting hrun, instancesFrom_of_hidden setting hrun',
              List.map_cons, List.map_cons, enteredInstance_key, enteredInstance_key,
              h.scopesBelow_eq hentered]
            refine congrArg (_ :: ·) (SameKeysFrom.listScopes ?_ ?_ _ _ _ hentered)
            · exact fun inner => h.hideAll inner children
            · exact fun inner => h.hiddenFromAll_keys _ _ inner children
  | .field attributes traits => by
      intro walk walk' _
      rw [instancesFrom, instancesFrom, List.map_singleton, List.map_singleton,
        enteredInstance_key, enteredInstance_key]
  | .content attributes text => by
      intro walk walk' _
      rw [instancesFrom, instancesFrom, List.map_singleton, List.map_singleton,
        enteredInstance_key, enteredInstance_key]

theorem instancesFromAll_keys (above above' : List Instance) (scope : Option String) :
    (es : List Element) → SameKeysFrom R (instancesFromAll setting above scope es)
      (instancesFromAll setting above' scope es)
  | [] => fun _ _ _ => by rw [instancesFromAll, instancesFromAll]
  | e :: rest => by
      intro walk walk' hrelated
      rw [instancesFromAll, instancesFromAll]
      exact (instancesFrom_keys above above' scope e).append
        ((instancesFromAll_keys above above' scope rest).listFrom (h.visit scope e))
        walk walk' hrelated

end

end Congruent

/-! ## Walks that begin alike -/

def Begins (R : Walk → Walk → Prop) (part part' : WalkM Unit)
    (list list' : Walk → List Instance) : Prop :=
  ∀ walk walk' last, R walk walk' → part.run walk = .ok ((), last) →
    ∃ between between' later, part'.run walk' = .ok ((), between') ∧ R between between' ∧
      (list walk).map Instance.key = (list' walk').map Instance.key ++ later.map Instance.key ∧
      Records later between last

namespace Begins

variable {R : Walk → Walk → Prop} {part part' : WalkM Unit} {list list' : Walk → List Instance}

theorem nothing (hrecords : ∀ walk last, part.run walk = .ok ((), last) →
    Records (list walk) walk last) : Begins R part (pure ()) list fun _ => [] := by
  intro walk walk' last hrelated hrun
  exact ⟨walk, walk', list walk, rfl, hrelated, by simp, hrecords walk last hrun⟩

theorem after {before before' : WalkM Unit} {first first' : Walk → List Instance}
    (hbefore : Lockstep R before before') (hfirst : SameKeysFrom R first first')
    (h : Begins R part part' list list') :
    Begins R (before >>= fun _ => part) (before' >>= fun _ => part')
      (fun walk => first walk ++ listFrom before list walk)
      (fun walk => first' walk ++ listFrom before' list' walk) := by
  intro walk walk' last hrelated hrun
  obtain ⟨⟨⟩, start, hstart, hpart⟩ := exists_of_run_bind_eq_ok hrun
  rcases (hbefore walk walk' hrelated).error_or_ok with
    ⟨error, herror, -⟩ | ⟨⟨⟩, _, start', hstarted, hstart', hrelated'⟩
  · cases hstart.symm.trans herror
  · cases hstart.symm.trans hstarted
    obtain ⟨between, between', later, hpart', hbetween, hkeys, hlater⟩ :=
      h start start' last hrelated' hpart
    refine ⟨between, between', later, ?_, hbetween, ?_, hlater⟩
    · rw [run_bind_of_ok hstart', hpart']
    · beta_reduce
      rw [listFrom_of_run hstart, listFrom_of_run hstart', List.map_append, List.map_append,
        hfirst walk walk' hrelated, hkeys, List.append_assoc]

theorem followedBy {next : WalkM Unit} {following : Walk → List Instance}
    (h : Begins R part part' list list')
    (hrecords : ∀ walk last, next.run walk = .ok ((), last) →
      Records (following walk) walk last) :
    Begins R (part >>= fun _ => next) part'
      (fun walk => list walk ++ listFrom part following walk) list' := by
  intro walk walk' last hrelated hrun
  obtain ⟨⟨⟩, start, hpart, hnext⟩ := exists_of_run_bind_eq_ok hrun
  obtain ⟨between, between', later, hpart', hbetween, hkeys, hlater⟩ :=
    h walk walk' start hrelated hpart
  refine ⟨between, between', later ++ following start, hpart', hbetween, ?_,
    hlater.append (hrecords start last hnext)⟩
  beta_reduce
  rw [listFrom_of_run hpart, List.map_append, hkeys, List.map_append, List.append_assoc]

end Begins

/-! ## Siblings that begin alike -/

structure BeginLike (setting : WalkSetting) (es es' : List Element) : Prop where
  visited : ∀ scope above above', Begins SameButOverrides (visitAll setting scope es)
    (visitAll setting scope es') (instancesFromAll setting above scope es)
    (instancesFromAll setting above' scope es')
  hidden : ∀ scope above above', Begins SameButOverrides (hideAll setting scope es)
    (hideAll setting scope es') (hiddenFromAll setting above scope es)
    (hiddenFromAll setting above' scope es')

namespace BeginLike

variable {es es' : List Element}

theorem visitAll_records (above : List Instance) (scope : Option String) (es : List Element)
    (walk last : Walk) (h : (visitAll setting scope es).run walk = .ok ((), last)) :
    Records (instancesFromAll setting above scope es walk) walk last :=
  (compositional_records setting).visitAll above h

theorem hideAll_records (above : List Instance) (scope : Option String) (es : List Element)
    (walk last : Walk) (h : (hideAll setting scope es).run walk = .ok ((), last)) :
    Records (hiddenFromAll setting above scope es walk) walk last :=
  (compositional_records setting).hideAll above h

theorem nil (es : List Element) : BeginLike setting es [] where
  visited := by
    intro scope above above'
    have hnone : instancesFromAll setting above' scope [] = fun _ => [] := by
      funext walk
      rw [instancesFromAll]
    rw [visitAll, hnone]
    exact .nothing (visitAll_records above scope es)
  hidden := by
    intro scope above above'
    have hnone : hiddenFromAll setting above' scope [] = fun _ => [] := by
      funext walk
      rw [hiddenFromAll]
    rw [hideAll, hnone]
    exact .nothing (hideAll_records above scope es)

theorem after (before : List Element) (h : BeginLike setting es es') :
    BeginLike setting (before ++ es) (before ++ es') where
  visited := by
    intro scope above above'
    have hcongruent := congruent_sameButOverrides setting
    rw [visitAll_append, visitAll_append, funext (instancesFromAll_append above scope before es),
      funext (instancesFromAll_append above' scope before es')]
    exact (h.visited scope above above').after (hcongruent.visitAll scope before)
      (hcongruent.instancesFromAll_keys above above' scope before)
  hidden := by
    intro scope above above'
    have hcongruent := congruent_sameButOverrides setting
    rw [hideAll_append, hideAll_append, funext (hiddenFromAll_append above scope before es),
      funext (hiddenFromAll_append above' scope before es')]
    exact (h.hidden scope above above').after (hcongruent.hideAll scope before)
      (hcongruent.hiddenFromAll_keys above above' scope before)

theorem followedBy (h : BeginLike setting es es') (after : List Element) :
    BeginLike setting (es ++ after) es' where
  visited := by
    intro scope above above'
    rw [visitAll_append, funext (instancesFromAll_append above scope es after)]
    exact (h.visited scope above above').followedBy (visitAll_records above scope after)
  hidden := by
    intro scope above above'
    rw [hideAll_append, funext (hiddenFromAll_append above scope es after)]
    exact (h.hidden scope above above').followedBy (hideAll_records above scope after)

end BeginLike

/-! ## Containers that are not repeated -/

section Plain

variable {attributes : Attributes} {kind kind' : Container} {children children' : List Element}
  {scope : Option String} {above above' : List Instance}

theorem visit_plain (hkind : kind.isRepeating = false) :
    visit setting scope (.container attributes kind children) =
      enter setting scope (.container attributes kind children) >>= fun visible =>
        if visible then visitAll setting scope children else hideAll setting scope children := by
  rw [visit]
  cases kind with
  | repeating bounds => cases hkind
  | _ => rfl

theorem hide_plain (hkind : kind.isRepeating = false) :
    hide setting scope (.container attributes kind children) =
      modify (markVisibility (scopedKey scope attributes.id) false) >>= fun _ =>
        hideAll setting scope children := by
  rw [hide]
  cases kind with
  | repeating bounds => cases hkind
  | _ => rfl

variable (setting scope) in
theorem scopesBelow_plain (hkind : kind.isRepeating = false) (id : String) (walk : Walk) :
    scopesBelow setting scope id walk kind = [scope] ∧ spread setting scope id walk kind = walk := by
  cases kind with
  | repeating bounds => cases hkind
  | _ => exact ⟨rfl, rfl⟩

theorem instancesFrom_plain (hkind : kind.isRepeating = false) {visible : Bool}
    {walk entered : Walk}
    (henter : (enter setting scope (.container attributes kind children)).run walk =
      .ok (visible, entered)) :
    let v := enteredInstance setting above scope (.container attributes kind children) walk
    instancesFrom setting above scope (.container attributes kind children) walk =
      v :: (if visible then instancesFromAll setting (v :: above) scope children
        else hiddenFromAll setting (v :: above) scope children) entered := by
  obtain ⟨hscopes, hspread⟩ := scopesBelow_plain setting scope hkind attributes.id entered
  cases visible with
  | true =>
      rw [instancesFrom_of_visible setting henter, hscopes, hspread, listScopes_singleton]
      rfl
  | false =>
      rw [instancesFrom_of_hidden setting henter, hscopes, listScopes_singleton]
      rfl

theorem hiddenFrom_plain (hkind : kind.isRepeating = false) (walk : Walk) :
    let v := hiddenInstance above scope (.container attributes kind children) walk
    hiddenFrom setting above scope (.container attributes kind children) walk =
      v :: hiddenFromAll setting (v :: above) scope children
        (markVisibility (scopedKey scope attributes.id) false walk) := by
  rw [hiddenFrom, (scopesBelow_plain setting scope hkind _ _).1, listScopes_singleton]

theorem lookupEntry_members_plain {key : String} (hkind : kind.isRepeating = false)
    (hkey : key ∉ childKeys) (stored : List Json) : lookupEntry key (kind.members stored) = none := by
  simp only [childKeys, List.mem_cons, List.not_mem_nil, or_false, not_or] at hkey
  obtain ⟨hchildren, hintroduction, hsummary, hsubmit⟩ := hkey
  cases kind with
  | repeating bounds => cases hkind
  | root steps =>
      simp [Container.members, RootParts.members, hchildren, hintroduction, hsummary, hsubmit]
  | step => simp [Container.members, hchildren]
  | group => simp [Container.members, hchildren]

theorem twins_plain (attributes : Attributes) (hkind : kind.isRepeating = false)
    (hkind' : kind'.isRepeating = false) (hname : kind'.name = kind.name) :
    Twins SameSteps (.container attributes kind children) (.container attributes kind' children') := by
  refine twins_of_lookupEntry rfl rfl fun key hkey => ?_
  rw [Element.members, Element.members, lookupEntry_append, lookupEntry_append, hname,
    lookupEntry_members_plain hkind hkey, lookupEntry_members_plain hkind' hkey]

end Plain

namespace BeginLike

variable {es es' : List Element}

theorem container (attributes : Attributes) {kind kind' : Container}
    (hkind : kind.isRepeating = false) (hkind' : kind'.isRepeating = false)
    (hname : kind'.name = kind.name) (h : BeginLike setting es es') :
    BeginLike setting [.container attributes kind es] [.container attributes kind' es'] where
  visited := by
    intro scope above above'
    simp only [visitAll_singleton, instancesFromAll_singleton]
    intro walk walk' last hrelated hrun
    have htwins : Twins SameSteps (.container attributes kind es) (.container attributes kind' es') :=
      twins_plain attributes hkind hkind' hname
    rw [visit_plain hkind] at hrun
    obtain ⟨visible, entered, henter, hrest⟩ := exists_of_run_bind_eq_ok hrun
    rcases ((congruent_sameButOverrides setting).enter scope htwins walk walk' hrelated).error_or_ok
      with ⟨error, herror, -⟩ | ⟨_, _, entered', hentered, henter', hrelated'⟩
    · cases henter.symm.trans herror
    · cases henter.symm.trans hentered
      have hbelow : ∀ around around', Begins SameButOverrides
          (if visible then visitAll setting scope es else hideAll setting scope es)
          (if visible then visitAll setting scope es' else hideAll setting scope es')
          (if visible then instancesFromAll setting around scope es
            else hiddenFromAll setting around scope es)
          (if visible then instancesFromAll setting around' scope es'
            else hiddenFromAll setting around' scope es') := by
        intro around around'
        cases visible with
        | true => exact h.visited scope around around'
        | false => exact h.hidden scope around around'
      obtain ⟨between, between', later, hrest', hbetween, hkeys, hlater⟩ :=
        hbelow _ _ entered entered' last hrelated' hrest
      refine ⟨between, between', later, ?_, hbetween, ?_, hlater⟩
      · rw [visit_plain hkind', run_bind_of_ok henter', hrest']
      · rw [instancesFrom_plain hkind henter, instancesFrom_plain hkind' henter', List.map_cons,
          List.map_cons, enteredInstance_key, enteredInstance_key, hkeys, List.cons_append]
        rfl
  hidden := by
    intro scope above above'
    simp only [hideAll_singleton, hiddenFromAll_singleton]
    intro walk walk' last hrelated hrun
    rw [hide_plain hkind] at hrun
    have hmarked : SameButOverrides (markVisibility (scopedKey scope attributes.id) false walk)
        (markVisibility (scopedKey scope attributes.id) false walk') :=
      (congruent_sameButOverrides setting).markVisibility false hrelated trivial
    obtain ⟨between, between', later, hrest', hbetween, hkeys, hlater⟩ :=
      h.hidden scope _ _ _ _ last hmarked hrun
    refine ⟨between, between', later, ?_, hbetween, ?_, hlater⟩
    · rw [hide_plain hkind']
      exact hrest'
    · rw [hiddenFrom_plain hkind, hiddenFrom_plain hkind', List.map_cons, List.map_cons, hkeys]
      rfl

theorem plug {e e' : Element} (h : BeginLike setting [e] [e']) {frames : List Frame}
    (hframes : ∀ frame ∈ frames, frame.kind.isRepeating = false) :
    BeginLike setting [e.plug frames] [e'.plug (frames.map Frame.cut)] := by
  induction frames with
  | nil => exact h
  | cons frame frames ih =>
      rw [List.forall_mem_cons] at hframes
      exact .container frame.attributes hframes.1 hframes.1 rfl
        (((ih hframes.2).followedBy frame.after).after frame.before)

theorem container_append (attributes : Attributes) {kind kind' : Container}
    (hkind : kind.isRepeating = false) (hkind' : kind'.isRepeating = false)
    (hname : kind'.name = kind.name) (first second : List Element) :
    BeginLike setting [.container attributes kind (first ++ second)]
      [.container attributes kind' first] := by
  have hchildren : BeginLike setting (first ++ second) (first ++ []) := (nil second).after first
  rw [List.append_nil] at hchildren
  exact .container attributes hkind hkind' hname hchildren

end BeginLike

end Walk

/-! ## Derivations -/

namespace FormEngine

/--
The state of a form has under the keys that its beginning comes to what the beginning alone is
derived to.
-/
theorem derive_begins {engine : FormEngine} {form beginning : Element}
    (hbegin : Walk.BeginLike ⟨engine.operators, engine.config⟩ [form] [beginning])
    {inputs globals : KeyMap Json} {state : FormState}
    (h : engine.derive form inputs globals = .ok state)
    (distinct : ((engine.instances form inputs globals).map Instance.key).Nodup) :
    ∃ begun later, engine.derive beginning inputs globals = .ok begun ∧
      (engine.instances form inputs globals).map Instance.key =
        (engine.instances beginning inputs globals).map Instance.key ++ later ∧
      ∀ key ∈ (engine.instances beginning inputs globals).map Instance.key,
        state.visibilities.get? key = begun.visibilities.get? key ∧
        state.errors.get? key = begun.errors.get? key := by
  obtain ⟨scripts, walk, hprepare, hvisit, rfl⟩ := exists_visit_of_derive engine _ _ _ h
  have hwalks := hbegin.visited none [] []
  rw [Walk.visitAll_singleton, Walk.visitAll_singleton, Walk.instancesFromAll_singleton,
    Walk.instancesFromAll_singleton] at hwalks
  obtain ⟨between, between', later, hvisit', ⟨overrides, rfl⟩, hkeys, hlater⟩ :=
    hwalks _ _ walk ⟨_, rfl⟩ hvisit
  rw [instances_of_prepare hprepare] at distinct ⊢
  rw [instances_of_prepare hprepare]
  refine ⟨_, _, derive_of_visit_ok engine beginning inputs globals hprepare hvisit', hkeys, ?_⟩
  intro key hkey
  rw [hkeys, List.nodup_append] at distinct
  have hother : key ∉ later.map Instance.key := fun hmem => distinct.2.2 key hkey key hmem rfl
  have hagrees := hlater.frame key hother
  exact ⟨hagrees.visibilities, hagrees.errors⟩

/--
Document order.  A root, step or group that is not inside a repetition has first children, and behind
them others.  Whatever these are (with them a root may lose fixed steps or gain some), the walk begins
with the keys of the form that ends at the place between them, and the visibilities and errors under
these keys are the same.
-/
theorem derive_document_order (engine : FormEngine) (frames : List Frame)
    (hframes : ∀ frame ∈ frames, frame.kind.isRepeating = false) (attributes : Attributes)
    (kind kind' : Container) (hkind : kind.isRepeating = false)
    (hkind' : kind'.isRepeating = false) (hname : kind'.name = kind.name)
    (first second second' : List Element) (inputs globals : KeyMap Json) (state state' : FormState) :
    let form := (Element.container attributes kind (first ++ second)).plug frames
    let form' := (Element.container attributes kind' (first ++ second')).plug frames
    let beginning := (Element.container attributes kind first).plug (frames.map Frame.cut)
    let keys := (engine.instances beginning inputs globals).map Instance.key
    engine.derive form inputs globals = .ok state →
    engine.derive form' inputs globals = .ok state' →
    ((engine.instances form inputs globals).map Instance.key).Nodup →
    ((engine.instances form' inputs globals).map Instance.key).Nodup →
    (∃ begun, engine.derive beginning inputs globals = .ok begun) ∧
    (∃ later, (engine.instances form inputs globals).map Instance.key = keys ++ later) ∧
    (∃ later, (engine.instances form' inputs globals).map Instance.key = keys ++ later) ∧
    ∀ key ∈ keys, state'.visibilities.get? key = state.visibilities.get? key ∧
      state'.errors.get? key = state.errors.get? key := by
  intro form form' beginning keys h h' distinct distinct'
  have hbegin : ∀ setting, Walk.BeginLike setting [form] [beginning] := fun setting =>
    (Walk.BeginLike.container_append attributes hkind hkind rfl first second).plug hframes
  have hbegin' : ∀ setting, Walk.BeginLike setting [form'] [beginning] := fun setting =>
    (Walk.BeginLike.container_append attributes hkind' hkind hname.symm first second').plug hframes
  obtain ⟨begun, later, hbegun, hkeys, hsame⟩ := derive_begins (hbegin _) h distinct
  obtain ⟨_, later', hbegun', hkeys', hsame'⟩ := derive_begins (hbegin' _) h' distinct'
  cases hbegun.symm.trans hbegun'
  refine ⟨⟨begun, hbegun⟩, ⟨later, hkeys⟩, ⟨later', hkeys'⟩, fun key hkey => ?_⟩
  obtain ⟨hvisibility, herror⟩ := hsame key hkey
  obtain ⟨hvisibility', herror'⟩ := hsame' key hkey
  exact ⟨hvisibility'.trans hvisibility.symm, herror'.trans herror.symm⟩

theorem derive_document_order_agreed :
    let engine : FormEngine := ⟨⟨.ofList [("logic.not", Operator.notOperator)]⟩, .empty, {}⟩
    let disagreed : Expression := .formula (.apply "logic.not" [.reference "agreed"])
    let always : Expression := .formula (.apply "logic.not" [.constant (.bool false)])
    let first : List Element := [.field ⟨"reason", "", none, some disagreed, none⟩
      ⟨.text, true, none, none, none, none⟩]
    let second : List Element := [.field ⟨"agreed", "", none, none, none⟩
      ⟨.checkbox, false, none, none, none, some always⟩]
    let frames : List Frame := [⟨⟨"form", "", none, none, none⟩, .group, [],
      [.content ⟨"end", "", none, none, none⟩ ""]⟩]
    let form (children : List Element) : Element :=
      (Element.container ⟨"questions", "", none, none, none⟩ .step children).plug frames
    let inputs : KeyMap Json := .ofList [("agreed", .bool false)]
    ∃ state state', engine.derive (form (first ++ second)) inputs .empty = .ok state ∧
      engine.derive (form first) inputs .empty = .ok state' ∧
      (state.values.get? "agreed").bind Json.bool? = some true ∧
      (state'.values.get? "agreed").bind Json.bool? = some false ∧
      state.visibilities.get? "reason" = some true ∧
      state'.visibilities.get? "reason" = state.visibilities.get? "reason" := by
  intro engine disagreed always first second frames form inputs
  have hframes : ∀ frame ∈ frames, frame.kind.isRepeating = false :=
    List.forall_mem_singleton.mpr rfl
  have hkeys : (engine.instances (form (first ++ second)) inputs .empty).map Instance.key =
      ["form", "questions", "reason", "agreed", "end"] := by decide +kernel +zetaReduce
  have hkeys' : (engine.instances (form (first ++ [])) inputs .empty).map Instance.key =
      ["form", "questions", "reason", "end"] := rfl
  have hderived : (engine.derive (form (first ++ second)) inputs .empty).toOption.map (fun state =>
      ((state.values.get? "agreed").bind Json.bool?, state.visibilities.get? "reason")) =
      some (some true, some true) := by decide +kernel +zetaReduce
  have hderived' : (engine.derive (form (first ++ [])) inputs .empty).toOption.map (fun state =>
      (state.values.get? "agreed").bind Json.bool?) = some (some false) := by
    decide +kernel +zetaReduce
  obtain ⟨state, h, hfacts⟩ := exists_ok_of_map hderived
  obtain ⟨state', h', hvalue'⟩ := exists_ok_of_map hderived'
  obtain ⟨hvalue, hvisible⟩ := Prod.mk.inj hfacts
  obtain ⟨-, -, -, hsame⟩ := derive_document_order engine frames hframes
    ⟨"questions", "", none, none, none⟩ .step .step rfl rfl rfl first second [] inputs .empty state
    state' h h' (by rw [hkeys]; decide) (by rw [hkeys']; decide)
  have hreason : "reason" ∈ ["form", "questions", "reason"] := by decide
  exact ⟨state, state', h, h', hvalue, hvalue', hvisible, (hsame "reason" hreason).1⟩

end FormEngine

end FormDerivation
