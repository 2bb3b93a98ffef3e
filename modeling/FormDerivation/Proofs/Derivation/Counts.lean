import FormDerivation.Proofs.Derivation.Inheritance
import FormDerivation.Proofs.Derivation.Values
import FormDerivation.Proofs.Derivation.Visibility

/-!
# Counts of repeating containers

A visible repeating container records how often it is repeated: as often as its value asks for when
it is visited, within its bounds.  The walk comes to every child in every one of these repetitions and
to nothing in others (`FormEngine.derive_counts`).

`Instance.Rooted` is what the place of an instance owes to those around it: it is a child of the
nearest one, in a scope that this one has for its children.  A walk lists rooted instances only, also
where it stops.
-/

namespace FormDerivation

def RepetitionPolicy.requested (policy : RepetitionPolicy) : Option Json → Nat
  | some (.array rows) => rows.length
  | some (.int n) => if 0 ≤ n then n.toNat else policy.standard
  | _ => policy.standard

inductive Instance.Rooted : Instance → Prop where
  | root {u : Instance} : u.above = [] → Rooted u
  | child {u v : Instance} : u.above = v :: v.above → u.element ∈ v.element.children →
      (v.visible = true → u.scope ∈ v.after.scopesWithin v.scope v.element) → Rooted v → Rooted u

theorem Instance.Rooted.exists_child {u : Instance} (h : u.Rooted) {v : Instance}
    (hv : v ∈ u.above) :
    ∃ w ∈ u :: u.above, w.above = v :: v.above ∧ w.element ∈ v.element.children ∧
      (v.visible = true → w.scope ∈ v.after.scopesWithin v.scope v.element) := by
  induction h with
  | root habove =>
      rw [habove] at hv
      cases hv
  | @child u w habove hchild hscope _ ih =>
      rw [habove] at hv ⊢
      rcases List.mem_cons.mp hv with rfl | hv
      · exact ⟨u, List.mem_cons_self, habove, hchild, hscope⟩
      · obtain ⟨x, hx, hbelow⟩ := ih hv
        exact ⟨x, List.mem_cons_of_mem _ hx, hbelow⟩

namespace Walk

variable (setting : WalkSetting)

/-! ## Counts -/

theorem repetitions_eq (policy : RepetitionPolicy) (bounds : RepetitionBounds)
    (value : Option Json) : repetitions policy bounds value =
      min (max (policy.requested value) bounds.min) (bounds.max.getD policy.max) := by
  cases value with
  | none => rfl
  | some value =>
      cases value with
      | int n =>
          simp only [repetitions, RepetitionPolicy.requested, Json.natural?]
          split <;> rfl
      | _ => rfl

theorem Own.count {setting : WalkSetting} {v : Instance} {walk walk' : Walk}
    (h : Own setting v walk walk') (hvisible : v.visible = true) {attributes : Attributes}
    {bounds : RepetitionBounds} {children : List Element}
    (helement : v.element = .container attributes (.repeating bounds) children) :
    v.after.repetitions.get? v.key =
      some (repetitions setting.config.repetition bounds (v.after.values.get? v.key)) := by
  cases h with
  | hidden above scope e walk => cases hvisible
  | @entered above scope e visible walk entered henter =>
      rw [enteredInstance_element] at helement
      subst helement
      rw [enteredInstance_eq setting above henter] at hvisible ⊢
      cases hvisible
      have hvalue := get?_spreadRows_self (scopedKey scope attributes.id)
        (repetitions setting.config.repetition bounds
          (entered.state.values.get? (scopedKey scope attributes.id))) entered.state.values
      simp [opened, spread, recordCount, expandRows_eq, Instance.key, Element.id,
        Element.attributes, hvalue]

/-! ## Places of instances -/

def RootedAt (above : List Instance) (scope : Option String) (e : Element) : Prop :=
  ∀ u : Instance, u.above = above → u.scope = scope → u.element = e → u.Rooted

variable {setting}

theorem RootedAt.child {v : Instance} {above : List Instance} (hv : v.Rooted)
    (habove : v.above = above) {child : Element} (hchild : child ∈ v.element.children)
    {scope : Option String}
    (hscope : v.visible = true → scope ∈ v.after.scopesWithin v.scope v.element) :
    RootedAt (v :: above) scope child := by
  rintro u hu rfl rfl
  exact .child (by rw [hu, habove]) hchild hscope hv

variable (setting)

abbrev AllRooted (list : List Instance) : Prop :=
  ∀ u ∈ list, u.Rooted

theorem hereditary_allRooted : Hereditary AllRooted :=
  .forall_mem _

mutual

theorem hiddenFrom_rooted {above : List Instance} {scope : Option String} : (e : Element) →
    RootedAt above scope e → ∀ walk, AllRooted (hiddenFrom setting above scope e walk)
  | .container attributes kind children => by
      intro hrooted walk
      rw [hiddenFrom]
      have hown := hrooted (hiddenInstance above scope (.container attributes kind children) walk)
        rfl rfl rfl
      refine List.forall_mem_cons.mpr ⟨hown, ?_⟩
      refine hereditary_allRooted.scopes (fun scope' _ => ?_) _
      exact hiddenFromAll_rooted children fun child hchild =>
        .child hown rfl hchild fun hvisible => by cases hvisible
  | .field attributes traits => by
      intro hrooted walk
      rw [hiddenFrom]
      exact List.forall_mem_singleton.mpr (hrooted _ rfl rfl rfl)
  | .content attributes text => by
      intro hrooted walk
      rw [hiddenFrom]
      exact List.forall_mem_singleton.mpr (hrooted _ rfl rfl rfl)

theorem hiddenFromAll_rooted {above : List Instance} {scope : Option String} :
    (es : List Element) → (∀ e ∈ es, RootedAt above scope e) →
    ∀ walk, AllRooted (hiddenFromAll setting above scope es walk)
  | [] => fun _ _ => hereditary_allRooted.nil
  | e :: rest => by
      intro hrooted walk
      obtain ⟨hfirst, hrest⟩ := List.forall_mem_cons.mp hrooted
      rw [hiddenFromAll]
      exact hereditary_allRooted.append (hiddenFrom_rooted e hfirst walk)
        (hereditary_allRooted.listFrom (hiddenFromAll_rooted rest hrest) walk)

end

mutual

theorem instancesFrom_rooted {above : List Instance} {scope : Option String} : (e : Element) →
    RootedAt above scope e → ∀ walk, AllRooted (instancesFrom setting above scope e walk)
  | .container attributes kind children => by
      intro hrooted walk
      rw [instancesFrom]
      have hown := hrooted (enteredInstance setting above scope
        (.container attributes kind children) walk) (by simp) (by simp) (by simp)
      refine List.forall_mem_cons.mpr ⟨hown, ?_⟩
      split
      · next entered henter =>
        refine hereditary_allRooted.scopes (fun scope' hscope => ?_) _
        refine instancesFromAll_rooted children fun child hchild => ?_
        refine .child hown (by simp) (by rwa [enteredInstance_element]) fun _ => ?_
        rwa [enteredInstance_scope, enteredInstance_element,
          enteredInstance_scopesWithin setting henter]
      · next entered henter =>
        refine hereditary_allRooted.scopes (fun scope' _ => ?_) _
        refine hiddenFromAll_rooted setting children fun child hchild => ?_
        refine .child hown (by simp) (by rwa [enteredInstance_element]) fun hvisible => ?_
        rw [enteredInstance_visible setting henter] at hvisible
        cases hvisible
      · exact hereditary_allRooted.nil
  | .field attributes traits => by
      intro hrooted walk
      rw [instancesFrom]
      exact List.forall_mem_singleton.mpr (hrooted _ (by simp) (by simp) (by simp))
  | .content attributes text => by
      intro hrooted walk
      rw [instancesFrom]
      exact List.forall_mem_singleton.mpr (hrooted _ (by simp) (by simp) (by simp))

theorem instancesFromAll_rooted {above : List Instance} {scope : Option String} :
    (es : List Element) → (∀ e ∈ es, RootedAt above scope e) →
    ∀ walk, AllRooted (instancesFromAll setting above scope es walk)
  | [] => fun _ _ => hereditary_allRooted.nil
  | e :: rest => by
      intro hrooted walk
      obtain ⟨hfirst, hrest⟩ := List.forall_mem_cons.mp hrooted
      rw [instancesFromAll]
      exact hereditary_allRooted.append (instancesFrom_rooted e hfirst walk)
        (hereditary_allRooted.listFrom (instancesFromAll_rooted rest hrest) walk)

end

end Walk

namespace FormEngine

theorem instances_rooted (engine : FormEngine) (tree : Element) (inputs globals : KeyMap Json) :
    ∀ u ∈ engine.instances tree inputs globals, u.Rooted := by
  unfold instances
  split
  · exact Walk.hereditary_allRooted.nil
  · exact Walk.instancesFrom_rooted _ tree (fun u habove _ _ => .root habove) _

variable {engine : FormEngine} {tree : Element} {inputs globals : KeyMap Json} {state : FormState}

theorem derive_count (h : engine.derive tree inputs globals = .ok state)
    (distinct : ((engine.instances tree inputs globals).map Instance.key).Nodup) {v : Instance}
    (hv : v ∈ engine.instances tree inputs globals) (hvisible : v.visible = true)
    {attributes : Attributes} {bounds : RepetitionBounds} {children : List Element}
    (helement : v.element = .container attributes (.repeating bounds) children) :
    state.repetitions.get? v.key = some (Walk.repetitions engine.config.repetition bounds
      (v.after.values.get? v.key)) := by
  obtain ⟨before, later, hlist⟩ := List.append_of_mem hv
  obtain ⟨-, start, between, -, -, -, hown, -, -⟩ := exists_around Walk.Sequential.records h hlist
  rw [(derive_settled h distinct v hv).agrees.repetitions, hown.count hvisible helement]

/--
The count of a visible repeating container.  It is at most the greatest allowed number, at least the
smallest one unless that is greater still, and what the value of the container asked for at its visit
if that is within the bounds.  Every child has a visibility in each repetition below the count, and
all that the walk comes to within the container is in one of these.
-/
theorem derive_counts (engine : FormEngine) (tree : Element) (inputs globals : KeyMap Json)
    (state : FormState) (h : engine.derive tree inputs globals = .ok state)
    (distinct : ((engine.instances tree inputs globals).map Instance.key).Nodup) (v : Instance)
    (hv : v ∈ engine.instances tree inputs globals) (attributes : Attributes)
    (bounds : RepetitionBounds) (children : List Element)
    (helement : v.element = .container attributes (.repeating bounds) children)
    (hvisible : state.visibilities.get? v.key = some true) :
    let policy := engine.config.repetition
    let greatest := bounds.max.getD policy.max
    let requested := policy.requested (v.after.values.get? v.key)
    ∃ count, state.repetitions.get? v.key = some count ∧ count ≤ greatest ∧
      (bounds.min ≤ greatest → bounds.min ≤ count) ∧
      (bounds.min ≤ requested → requested ≤ greatest → count = requested) ∧
      (∀ index < count, ∀ child ∈ children, state.visibilities.contains
        (v.key ++ "_" ++ toString index ++ "_" ++ child.id) = true) ∧
      ∀ u ∈ engine.instances tree inputs globals, v ∈ u.above → ∃ w ∈ u :: u.above,
        w.above = v :: v.above ∧ w.element ∈ children ∧
          ∃ index < count, w.scope = some (rowScope v.key index) := by
  intro policy greatest requested
  rw [(derive_settled h distinct v hv).visible] at hvisible
  replace hvisible := Option.some.inj hvisible
  have hcount := derive_count h distinct hv hvisible helement
  have hkey : scopedKey v.scope attributes.id = v.key := by
    rw [Instance.key, helement]
    rfl
  rw [Walk.repetitions_eq] at hcount
  have hscopes : ∀ s : FormState, s.repetitions.get? v.key = state.repetitions.get? v.key →
      s.scopesWithin v.scope v.element = (List.range (min (max requested bounds.min) greatest)).map
        fun index => some (rowScope v.key index) := by
    intro s hs
    rw [helement, FormState.scopesWithin, hkey, hs, hcount]
    rfl
  refine ⟨_, hcount, Nat.min_le_right _ _,
    fun hle => Nat.le_min.mpr ⟨Nat.le_max_right _ _, hle⟩, ?_, ?_, ?_⟩
  · intro hmin hmax
    rw [Nat.max_eq_left hmin, Nat.min_eq_left hmax]
  · intro index hindex child hchild
    have hscope : some (rowScope v.key index) ∈ state.scopesWithin v.scope v.element := by
      rw [hscopes state rfl]
      exact List.mem_map_of_mem (List.mem_range.mpr hindex)
    obtain ⟨u, hu, rfl, hrow, -⟩ := derive_children h distinct hv hvisible child
      (by rwa [helement]) _ hscope
    have hname : u.key = v.key ++ "_" ++ toString index ++ "_" ++ u.element.id := by
      rw [Instance.key, hrow, scopedKey_row]
      rfl
    rw [← hname, derive_visibilities h distinct]
    exact List.mem_map_of_mem hu
  · intro u hu hbelow
    obtain ⟨w, hw, habove, hchild, hscope⟩ :=
      (instances_rooted engine tree inputs globals u hu).exists_child hbelow
    have hafter := (derive_settled h distinct v hv).agrees.repetitions
    rw [hscopes v.after hafter.symm] at hscope
    obtain ⟨index, hindex, hrow⟩ := List.mem_map.mp (hscope hvisible)
    rw [helement] at hchild
    exact ⟨w, hw, habove, hchild, index, List.mem_range.mp hindex, hrow.symm⟩

theorem derive_counts_people :
    let engine : FormEngine := ⟨.empty, .empty, {}⟩
    let tree : Element := .container ⟨"form", "", none, none, none⟩ .group [
      .container ⟨"people", "", none, none, none⟩ (.repeating ⟨1, some 2⟩) [
        .field ⟨"name", "", none, none, none⟩ ⟨.text, true, none, none, none, none⟩]]
    let inputs : KeyMap Json := .ofList [("people", .array [.null, .null, .null])]
    ∃ state, engine.derive tree inputs .empty = .ok state ∧
      state.visibilities.get? "people" = some true ∧
      ∃ count, state.repetitions.get? "people" = some count ∧ count ≤ 2 ∧ 1 ≤ count ∧
        ∀ index < count, state.visibilities.contains
          ("people" ++ "_" ++ toString index ++ "_" ++ "name") = true := by
  intro engine tree inputs
  have hlist : (engine.instances tree inputs .empty).map (fun u =>
      (u.key, u.element.bounds?.map fun bounds =>
        (bounds.min, bounds.max, u.element.children.map Element.id))) =
      [("form", none), ("people", some (1, some 2, ["name"])), ("people_0_name", none),
        ("people_1_name", none)] := by decide +kernel +zetaReduce
  have hkeys := congrArg (List.map Prod.fst) hlist
  simp only [List.map_map, Function.comp_def, List.map_cons, List.map_nil] at hkeys
  have distinct : ((engine.instances tree inputs .empty).map Instance.key).Nodup := by
    rw [hkeys]
    decide
  have hentry : ("people", some (1, some 2, ["name"])) ∈ [("form", none),
      ("people", some (1, some 2, ["name"])), ("people_0_name", none), ("people_1_name", none)] :=
    .tail _ (.head _)
  rw [← hlist] at hentry
  obtain ⟨people, hpeople, hentry⟩ := List.mem_map.mp hentry
  obtain ⟨hkey, hkind⟩ := Prod.mk.inj hentry
  obtain ⟨bounds, hbounds, hkind⟩ := Option.map_eq_some_iff.mp hkind
  obtain ⟨hmin, hmax, hchildren⟩ : bounds.min = 1 ∧ bounds.max = some 2 ∧
      people.element.children.map Element.id = ["name"] := by simpa using hkind
  obtain ⟨attributes, helement⟩ := Element.eq_of_bounds? hbounds
  have hvisible : (engine.derive tree inputs .empty).toOption.map (fun state =>
      state.visibilities.get? "people") = some (some true) := by decide +kernel +zetaReduce
  obtain ⟨state, h, hvisible⟩ := exists_ok_of_map hvisible
  obtain ⟨count, hcount, hle, hge, -, hrows, -⟩ := derive_counts engine tree inputs .empty
    state h distinct people hpeople attributes bounds _ helement (by rwa [hkey])
  obtain ⟨name, hname, hid⟩ := List.mem_map.mp (hchildren ▸ List.mem_singleton_self "name")
  rw [hmin, hmax] at hge
  rw [hmax] at hle
  rw [hkey] at hcount hrows
  refine ⟨state, h, hvisible, count, hcount, hle, hge (by decide), fun index hindex => ?_⟩
  have hrow := hrows index hindex name hname
  rwa [hid] at hrow

end FormEngine

end FormDerivation
