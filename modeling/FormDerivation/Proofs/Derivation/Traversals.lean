import FormDerivation.Proofs.Derivation.DocumentOrder
import FormDerivation.Proofs.Derivation.HiddenRows
import FormDerivation.Proofs.Element.Positions

/-!
# Traversals that agree

A tree is walked over to list its elements, to find one by its id and to derive the state of a form.
Where nothing is repeated, patched or hidden by an expression, a derivation comes to the elements of
the walk in its order, each once and visible (`Walk.instancesFrom_shows`), and marks no other key
(`FormEngine.get?_visibilities`).  So the three go the same way (`Element.traversals_agree`).
-/

namespace FormDerivation

structure Element.Unconditional (e : Element) : Prop where
  single : e.isRepeating = false
  visibility : e.attributes.visibility = none
  patch : e.attributes.patch = none

instance (e : Element) : Decidable e.Unconditional :=
  decidable_of_iff (e.isRepeating = false ∧ e.attributes.visibility.isNone = true ∧
      e.attributes.patch.isNone = true) <| by
    rw [Option.isNone_iff_eq_none, Option.isNone_iff_eq_none]
    exact ⟨fun ⟨hsingle, hvisibility, hpatch⟩ => ⟨hsingle, hvisibility, hpatch⟩,
      fun h => ⟨h.single, h.visibility, h.patch⟩⟩

structure Instance.Shows (scope : Option String) (v : Instance) (e : Element) : Prop where
  element : v.element = e
  scope : v.scope = scope
  visible : v.visible = true

namespace Walk

variable {setting : WalkSetting}

theorem enteredInstance_shows (above : List Instance) {scope : Option String} {e : Element}
    (he : e.Unconditional) {visible : Bool} {walk entered : Walk}
    (h : (enter setting scope e).run walk = .ok (visible, entered)) :
    (enteredInstance setting above scope e walk).Shows scope e where
  element := enteredInstance_element setting above scope e walk
  scope := enteredInstance_scope setting above scope e walk
  visible := by
    rw [enteredInstance_visible setting h]
    exact visible_of_enter setting he.visibility he.patch h

mutual

/-- The visit of an element without conditions comes to the elements of the walk, in its order. -/
theorem instancesFrom_shows (above : List Instance) (scope : Option String) {walk walk' : Walk} :
    (e : Element) → (∀ x ∈ e.elements, x.Unconditional) →
    (visit setting scope e).run walk = .ok ((), walk') →
    List.Forall₂ (Instance.Shows scope) (instancesFrom setting above scope e walk) e.elements
  | .container attributes kind children, he, h => by
      rw [Element.elements, List.forall_mem_cons] at he
      have hkind : kind.isRepeating = false := by
        cases kind with
        | repeating bounds => cases he.1.single
        | _ => rfl
      -- A container that is visible and not repeated has its children visited in its own scope.
      rw [visit_plain hkind] at h
      obtain ⟨visible, entered, henter, hbelow⟩ := exists_of_run_bind_eq_ok h
      obtain rfl := visible_of_enter setting he.1.visibility he.1.patch henter
      rw [instancesFrom_plain hkind henter, Element.elements]
      exact .cons (enteredInstance_shows above he.1 henter)
        (instancesFromAll_shows _ scope children he.2 hbelow)
  | .field attributes traits, he, h => by
      obtain ⟨visible, henter⟩ := exists_of_run_discard_eq_ok h
      rw [instancesFrom]
      exact .cons (enteredInstance_shows above (he _ (List.mem_singleton_self _)) henter) .nil
  | .content attributes text, he, h => by
      obtain ⟨visible, henter⟩ := exists_of_run_discard_eq_ok h
      rw [instancesFrom]
      exact .cons (enteredInstance_shows above (he _ (List.mem_singleton_self _)) henter) .nil

theorem instancesFromAll_shows (above : List Instance) (scope : Option String)
    {walk walk' : Walk} : (es : List Element) → (∀ x ∈ Element.elementsAll es, x.Unconditional) →
    (visitAll setting scope es).run walk = .ok ((), walk') →
    List.Forall₂ (Instance.Shows scope) (instancesFromAll setting above scope es walk)
      (Element.elementsAll es)
  | [], _, _ => .nil
  | e :: rest, hes, h => by
      rw [Element.elementsAll, List.forall_mem_append] at hes
      rw [visitAll] at h
      obtain ⟨⟨⟩, between, hfirst, hrest⟩ := exists_of_run_bind_eq_ok h
      rw [instancesFromAll, Element.elementsAll, listFrom_of_run hfirst]
      exact List.rel_append (instancesFrom_shows above scope e hes.1 hfirst)
        (instancesFromAll_shows above scope rest hes.2 hrest)

end

end Walk

namespace FormEngine

variable {engine : FormEngine} {tree : Element} {inputs globals : KeyMap Json} {state : FormState}

theorem instances_shows (htree : ∀ x ∈ tree.elements, x.Unconditional)
    (h : engine.derive tree inputs globals = .ok state) :
    List.Forall₂ (Instance.Shows none) (engine.instances tree inputs globals) tree.elements := by
  obtain ⟨scripts, walk', hprepare, hvisit, -⟩ := exists_visit_of_derive _ _ _ _ h
  rw [instances_of_prepare hprepare]
  exact Walk.instancesFrom_shows [] none tree htree hvisit

theorem instances_elements (htree : ∀ x ∈ tree.elements, x.Unconditional)
    (h : engine.derive tree inputs globals = .ok state) :
    (engine.instances tree inputs globals).map Instance.element = tree.elements := by
  rw [← List.forall₂_eq_eq_eq, List.forall₂_map_left_iff]
  exact (instances_shows htree h).imp fun v e hshows => hshows.element

theorem instances_marks (htree : ∀ x ∈ tree.elements, x.Unconditional)
    (h : engine.derive tree inputs globals = .ok state) :
    (engine.instances tree inputs globals).map (fun v => (v.key, v.visible)) =
      tree.ids.map fun id => (id, true) := by
  rw [Element.ids_eq, List.map_map, ← List.forall₂_eq_eq_eq, List.forall₂_map_left_iff,
    List.forall₂_map_right_iff]
  refine (instances_shows htree h).imp ?_
  rintro v e ⟨rfl, hscope, hvisible⟩
  rw [Instance.key, hscope, hvisible]
  rfl

theorem get?_visibilities (htree : ∀ x ∈ tree.elements, x.Unconditional)
    (h : engine.derive tree inputs globals = .ok state) (key : String) :
    state.visibilities.get? key = if key ∈ tree.ids then some true else none := by
  have hmarks := instances_marks htree h
  cases hfound : state.visibilities.get? key with
  | some visible =>
      obtain ⟨v, hv, rfl, rfl⟩ := (derive_marks h).2 key visible hfound
      have hmark : (v.key, v.visible) ∈ tree.ids.map fun id => (id, true) := by
        rw [← hmarks]
        exact List.mem_map_of_mem hv
      obtain ⟨id, hid, hentry⟩ := List.mem_map.mp hmark
      obtain ⟨hkey, hvisible⟩ := Prod.mk.inj hentry
      rw [← hkey, ← hvisible, if_pos hid]
  | none =>
      have hnot : key ∉ tree.ids := by
        intro hid
        have hmark := List.mem_map_of_mem (f := fun id => (id, true)) hid
        rw [← hmarks] at hmark
        obtain ⟨v, hv, hentry⟩ := List.mem_map.mp hmark
        have hmarked := (derive_marks h).1 v hv
        rw [(Prod.mk.inj hentry).1, KeyMap.contains, hfound] at hmarked
        cases hmarked
      rw [if_neg hnot]

end FormEngine

namespace Element

/--
The traversals of a tree.  The walk goes through all positions in document order, each once and at a
depth that grows by one with each step down; it goes through a root by its introduction, its other
children, its summary and its submit step, which are read from the members of these names.  A search
finds the first node of the walk that has the id, and none only if no node has it.  Where nothing is
repeated, patched or hidden by an expression, a derivation that ends has come to the elements of the
walk, in its order, and has marked the ids of the tree as visible and no other key.
-/
theorem traversals_agree (tree : Element) :
    (∃ positions, tree.InDocumentOrder positions ∧
      ∀ depth, List.Forall₂ (tree.Stands depth) positions (tree.nodesFrom depth)) ∧
    (∀ (attributes : Attributes) (parts : RootParts Element) (depth : Nat),
      (parts.root attributes).nodesFrom depth = (depth, parts.root attributes) ::
        (nodesFromAll (depth + 1) parts.introduction.toList ++
          nodesFromAll (depth + 1) parts.regular ++
          nodesFromAll (depth + 1) parts.summary.toList ++
          nodesFromAll (depth + 1) parts.submit.toList)) ∧
    (∀ members, StoredType.ofMembers members = .root →
      ofJson (.object members) = (storedParts members).root (.ofMembers members)) ∧
    (∀ id,
      (∀ found, tree.find? id = some found ↔ ∃ before depth after,
        tree.nodes = before ++ (depth, found) :: after ∧ found.id = id ∧
          ∀ node ∈ before, node.2.id ≠ id) ∧
      (tree.find? id = none ↔ id ∉ tree.ids)) ∧
    ((∀ node ∈ tree.nodes, node.2.Unconditional) →
      ∀ (engine : FormEngine) (inputs globals : KeyMap Json) (state : FormState),
        engine.derive tree inputs globals = .ok state →
          (engine.instances tree inputs globals).map Instance.element =
              tree.nodes.map Prod.snd ∧
            ∀ key, state.visibilities.get? key =
              if key ∈ tree.ids then some true else none) := by
  have hnodes : tree.nodes.map Prod.snd = tree.elements := map_nodesFrom 0 tree
  refine ⟨⟨tree.positions, tree.positions_inOrder, fun depth => nodesFrom_stand depth tree⟩,
    nodesFrom_root, fun members => ofJson_root,
    fun id => ⟨tree.find?_eq_some_iff id, tree.find?_eq_none_iff id⟩, ?_⟩
  intro hall engine inputs globals state h
  have htree : ∀ x ∈ tree.elements, x.Unconditional := by
    rw [← hnodes]
    exact List.forall_mem_map.mpr hall
  rw [hnodes]
  exact ⟨FormEngine.instances_elements htree h, FormEngine.get?_visibilities htree h⟩

theorem traversals_agree_names :
    let step (id : String) (children : List Element) : Element :=
      .container ⟨id, "", none, none, none⟩ .step children
    let name (label : String) : Element :=
      .field ⟨"name", label, none, none, none⟩ ⟨.text, true, none, none, none, none⟩
    let engine : FormEngine := ⟨.empty, .empty, {}⟩
    let tree : Element := RootParts.root ⟨"form", "", none, none, none⟩
      ⟨some (step "start" []), [step "page" [step "box" [name "First"], name "Last"]],
        some (step "check" []), some (step "send" [])⟩
    let ids := ["form", "start", "page", "box", "name", "name", "check", "send"]
    tree.nodes.map (fun node => (node.1, node.2.id)) = [0, 1, 1, 2, 3, 2, 1, 1].zip ids ∧
      tree.find? "name" = some (name "First") ∧ tree.find? "names" = none ∧
      ∃ state, engine.derive tree .empty .empty = .ok state ∧
        ∀ key, state.visibilities.get? key = if key ∈ ids then some true else none := by
  intro step name engine tree ids
  obtain ⟨-, -, -, hfind, hderived⟩ := traversals_agree tree
  have hall : ∀ node ∈ tree.nodes, node.2.Unconditional := by decide
  refine ⟨rfl, ?_, (hfind "names").2.mpr (by decide), _, rfl,
    (hderived hall engine .empty .empty _ rfl).2⟩
  exact ((hfind "name").1 (name "First")).mpr
    ⟨tree.nodes.take 4, 3, tree.nodes.drop 5, rfl, rfl, by decide⟩

end Element

end FormDerivation
