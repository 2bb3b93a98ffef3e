import FormDerivation.Proofs.Derivation.Record
import FormDerivation.Proofs.Element.Names

/-!
# Keys of instances

Ids may have underscores and digits themselves, so distinct ids do not make distinct keys.  They do
where no id looks like the beginning of a key inside a repetition of a container beside it
(`FormEngine.instances_keys_nodup`).
-/

namespace FormDerivation

namespace Walk

open Element (Apart Separate inScope inScopeAll elements elementsAll)

/-! ## Keys of a list of instances -/

structure Keyed (group : List Element) (scope : Option String) (list : List Instance) : Prop where
  named : ∀ v ∈ list, ∃ x ∈ group, ∃ name, x.Names name ∧ v.key = scopedKey scope name
  nodup : (list.map Instance.key).Nodup

namespace Keyed

variable {group group' : List Element} {scope : Option String} {list list' : List Instance}

theorem nil : Keyed group scope [] :=
  ⟨by simp, by simp⟩

theorem singleton {e : Element} {v : Instance} (h : v.key = scopedKey scope e.id) :
    Keyed [e] scope [v] where
  named := by
    intro u hu
    cases List.mem_singleton.mp hu
    exact ⟨e, List.mem_singleton_self e, e.id, .inl rfl, h⟩
  nodup := by simp

theorem subset (h : Keyed group scope list) (hsub : group ⊆ group') : Keyed group' scope list where
  named := by
    intro v hv
    obtain ⟨x, hx, hname⟩ := h.named v hv
    exact ⟨x, hsub hx, hname⟩
  nodup := h.nodup

theorem append (h : Keyed group scope list) (h' : Keyed group' scope list')
    (hapart : Apart (group ++ group')) (hids : ∀ x ∈ group, ∀ y ∈ group', x.id ≠ y.id) :
    Keyed (group ++ group') scope (list ++ list') where
  named := by
    intro v hv
    rcases List.mem_append.mp hv with hv | hv
    · obtain ⟨x, hx, hname⟩ := h.named v hv
      exact ⟨x, List.mem_append_left _ hx, hname⟩
    · obtain ⟨x, hx, hname⟩ := h'.named v hv
      exact ⟨x, List.mem_append_right _ hx, hname⟩
  nodup := by
    rw [List.map_append, List.nodup_append]
    refine ⟨h.nodup, h'.nodup, ?_⟩
    intro key hkey key' hkey' hsame
    obtain ⟨v, hv, rfl⟩ := List.mem_map.mp hkey
    obtain ⟨u, hu, rfl⟩ := List.mem_map.mp hkey'
    obtain ⟨x, hx, name, hname, hv'⟩ := h.named v hv
    obtain ⟨y, hy, name', hname', hu'⟩ := h'.named u hu
    rw [hv', hu'] at hsame
    cases scopedKey_inj hsame
    exact Element.names_disjoint hapart (List.mem_append_left _ hx) (List.mem_append_right _ hy)
      (hids x hx y hy) hname hname'

theorem listFrom {part : WalkM Unit} {next : Walk → List Instance}
    (h : ∀ walk, Keyed group scope (next walk)) (walk : Walk) :
    Keyed group scope (listFrom part next walk) := by
  unfold Walk.listFrom
  split
  · exact h _
  · exact .nil

end Keyed

theorem exists_mem_of_mem_listFrom {part : WalkM Unit} {next : Walk → List Instance} {walk : Walk}
    {v : Instance} (h : v ∈ listFrom part next walk) : ∃ between, v ∈ next between := by
  unfold listFrom at h
  split at h
  · exact ⟨_, h⟩
  · cases h

section Rows

variable {scope : Option String} {id : String} {part : Option String → WalkM Unit}
  {inner : Option String → Walk → List Instance} {indices : List Nat}

def rowScopes (scope : Option String) (id : String) (indices : List Nat) :
    List (Option String) :=
  indices.map fun index => some (rowScope (scopedKey scope id) index)

theorem rows_named
    (hinner : ∀ scope walk, ∀ v ∈ inner scope walk, ∃ name, v.key = scopedKey scope name)
    (walk : Walk) :
    ∀ v ∈ listScopes part inner (rowScopes scope id indices) walk,
      ∃ index ∈ indices, ∃ rest, v.key = scopedKey scope (rowStart id index ++ rest) := by
  refine Hereditary.scopes (.forall_mem _) ?_ walk
  intro row hrow between v hv
  obtain ⟨index, hindex, rfl⟩ := List.mem_map.mp hrow
  obtain ⟨name, hkey⟩ := hinner _ between v hv
  exact ⟨index, hindex, name, by rw [hkey, scopedKey_rowScope]⟩

theorem rows_nodup
    (hinner : ∀ scope walk, ∀ v ∈ inner scope walk, ∃ name, v.key = scopedKey scope name)
    (hnodup : ∀ scope walk, ((inner scope walk).map Instance.key).Nodup)
    (hindices : indices.Nodup) (walk : Walk) :
    ((listScopes part inner (rowScopes scope id indices) walk).map Instance.key).Nodup := by
  induction indices generalizing walk with
  | nil => simp [rowScopes, listScopes]
  | cons index indices ih =>
      obtain ⟨hother, hindices⟩ := List.nodup_cons.mp hindices
      rw [rowScopes, List.map_cons, listScopes, List.map_append, List.nodup_append]
      refine ⟨hnodup _ walk, ?_, ?_⟩
      · unfold listFrom
        split
        · exact ih hindices _
        · exact List.nodup_nil
      · intro key hkey key' hkey' hsame
        obtain ⟨v, hv, rfl⟩ := List.mem_map.mp hkey
        obtain ⟨u, hu, rfl⟩ := List.mem_map.mp hkey'
        obtain ⟨name, hv'⟩ := hinner _ walk v hv
        obtain ⟨between, hu⟩ := exists_mem_of_mem_listFrom hu
        obtain ⟨index', hindex', rest, hu'⟩ := rows_named hinner between u hu
        rw [hv', hu', scopedKey_rowScope] at hsame
        cases Element.rowStart_append_inj (scopedKey_inj hsame)
        exact hother hindex'

end Rows

section Containers

variable {setting : WalkSetting} {scope : Option String} {attributes : Attributes}
  {kind : Container} {children : List Element} {part : Option String → WalkM Unit}
  {inner : Option String → Walk → List Instance} {v : Instance}

@[simp] theorem listScopes_singleton (walk : Walk) :
    listScopes part inner [scope] walk = inner scope walk := by
  have hnone : listFrom (part scope) (listScopes part inner []) walk = [] := by
    unfold listFrom
    split <;> rfl
  rw [listScopes, hnone, List.append_nil]

theorem keyed_repeating {bounds : RepetitionBounds} (hv : v.key = scopedKey scope attributes.id)
    (hinner : ∀ scope walk, Keyed (inScopeAll children) scope (inner scope walk))
    {indices : List Nat} (hindices : indices.Nodup) (walk : Walk) :
    Keyed [.container attributes (.repeating bounds) children] scope
      (v :: listScopes part inner (rowScopes scope attributes.id indices) walk) := by
  have hrow : ∀ scope walk, ∀ v ∈ inner scope walk, ∃ name, v.key = scopedKey scope name := by
    intro scope walk v hv
    obtain ⟨-, -, name, -, hkey⟩ := (hinner scope walk).named v hv
    exact ⟨name, hkey⟩
  have hrows : ∀ u ∈ listScopes part inner (rowScopes scope attributes.id indices) walk,
      ∃ index ∈ indices, ∃ rest,
        u.key = scopedKey scope (rowStart attributes.id index ++ rest) := rows_named hrow walk
  constructor
  · intro u hu
    refine ⟨_, List.mem_singleton_self _, ?_⟩
    rcases List.mem_cons.mp hu with rfl | hu
    · exact ⟨attributes.id, .inl rfl, hv⟩
    · obtain ⟨index, -, rest, hkey⟩ := hrows u hu
      exact ⟨_, .inr ⟨rfl, index, rest, rfl⟩, hkey⟩
  · rw [List.map_cons, List.nodup_cons]
    refine ⟨?_, rows_nodup hrow (fun scope walk => (hinner scope walk).nodup) hindices walk⟩
    intro hmem
    obtain ⟨u, hu, hsame⟩ := List.mem_map.mp hmem
    obtain ⟨index, -, rest, hkey⟩ := hrows u hu
    rw [hkey, hv] at hsame
    exact Element.id_ne_rowStart_append _ rest index (scopedKey_inj hsame).symm

theorem keyed_container (hseparate : Separate (inScope (.container attributes kind children))
      (elements (.container attributes kind children)))
    (hv : v.key = scopedKey scope attributes.id)
    (hinner : ∀ scope walk, Keyed (inScopeAll children) scope (inner scope walk))
    (walk walk' : Walk) :
    Keyed (inScope (.container attributes kind children)) scope
      (v :: listScopes part inner (scopesBelow setting scope attributes.id walk kind) walk') := by
  cases hrepeating : (Element.container attributes kind children).isRepeating with
  | true =>
      cases kind with
      | repeating bounds => exact keyed_repeating hv hinner List.nodup_range walk'
      | _ => cases hrepeating
  | false =>
      have hscopes : scopesBelow setting scope attributes.id walk kind = [scope] := by
        cases kind with
        | repeating bounds => cases hrepeating
        | _ => rfl
      have hids := hseparate.ids
      have hapart := hseparate.apart
      rw [Element.inScope_of_not_repeating hrepeating] at hapart ⊢
      rw [hscopes, listScopes_singleton]
      rw [elements, List.map_cons, List.nodup_cons] at hids
      refine (Keyed.singleton hv).append (hinner scope walk') hapart ?_
      intro x hx y hy hsame
      cases List.mem_singleton.mp hx
      have hmem := List.mem_map_of_mem (f := Element.id)
        ((Element.inScopeAll_sublist children).subset hy)
      rw [← hsame] at hmem
      exact hids.1 hmem

end Containers

theorem keyed_siblings {e : Element} {rest : List Element} {scope : Option String}
    {part : WalkM Unit} {first : List Instance} {next : Walk → List Instance}
    (hseparate : Separate (inScopeAll (e :: rest)) (elementsAll (e :: rest)))
    (hfirst : Keyed e.inScope scope first)
    (hnext : ∀ walk, Keyed (inScopeAll rest) scope (next walk)) (walk : Walk) :
    Keyed (inScopeAll (e :: rest)) scope (first ++ listFrom part next walk) := by
  have hapart := hseparate.apart
  rw [inScopeAll] at hapart ⊢
  exact hfirst.append (.listFrom hnext walk) hapart fun x hx y hy => hseparate.id_ne hx hy

/-! ## Keys of a walk -/

variable (setting : WalkSetting)

mutual

theorem hiddenFrom_keyed (above : List Instance) (scope : Option String) : (e : Element) →
    Separate e.inScope e.elements → ∀ walk,
    Keyed e.inScope scope (hiddenFrom setting above scope e walk)
  | .container attributes kind children, hseparate => by
      intro walk
      rw [hiddenFrom]
      refine keyed_container hseparate rfl (fun scope' walk' => ?_) _ _
      exact hiddenFromAll_keyed _ scope' children hseparate.children walk'
  | .field attributes traits, _ => by
      intro walk
      rw [hiddenFrom]
      exact .singleton rfl
  | .content attributes text, _ => by
      intro walk
      rw [hiddenFrom]
      exact .singleton rfl

theorem hiddenFromAll_keyed (above : List Instance) (scope : Option String) :
    (es : List Element) → Separate (inScopeAll es) (elementsAll es) → ∀ walk,
    Keyed (inScopeAll es) scope (hiddenFromAll setting above scope es walk)
  | [], _ => fun _ => .nil
  | e :: rest, hseparate => by
      intro walk
      rw [hiddenFromAll]
      exact keyed_siblings hseparate (hiddenFrom_keyed above scope e hseparate.head walk)
        (hiddenFromAll_keyed above scope rest hseparate.tail) walk

end

mutual

theorem instancesFrom_keyed (above : List Instance) (scope : Option String) : (e : Element) →
    Separate e.inScope e.elements → ∀ walk,
    Keyed e.inScope scope (instancesFrom setting above scope e walk)
  | .container attributes kind children, hseparate => by
      intro walk
      have hkey := enteredInstance_key setting above scope
        (.container attributes kind children) walk
      rw [instancesFrom]
      split
      · refine keyed_container hseparate hkey (fun scope' walk' => ?_) _ _
        exact instancesFromAll_keyed _ scope' children hseparate.children walk'
      · refine keyed_container hseparate hkey (fun scope' walk' => ?_) _ _
        exact hiddenFromAll_keyed setting _ scope' children hseparate.children walk'
      · refine (Keyed.singleton hkey).subset fun x hx => ?_
        cases List.mem_singleton.mp hx
        exact Element.mem_inScope_self attributes kind children
  | .field attributes traits, _ => by
      intro walk
      rw [instancesFrom]
      exact .singleton (enteredInstance_key setting above scope _ walk)
  | .content attributes text, _ => by
      intro walk
      rw [instancesFrom]
      exact .singleton (enteredInstance_key setting above scope _ walk)

theorem instancesFromAll_keyed (above : List Instance) (scope : Option String) :
    (es : List Element) → Separate (inScopeAll es) (elementsAll es) → ∀ walk,
    Keyed (inScopeAll es) scope (instancesFromAll setting above scope es walk)
  | [], _ => fun _ => .nil
  | e :: rest, hseparate => by
      intro walk
      rw [instancesFromAll]
      exact keyed_siblings hseparate (instancesFrom_keyed above scope e hseparate.head walk)
        (instancesFromAll_keyed above scope rest hseparate.tail) walk

end

end Walk

namespace FormEngine

theorem instances_keys_nodup {tree : Element} (hids : tree.ids.Nodup) (hapart : tree.RowsApart)
    (engine : FormEngine) (inputs globals : KeyMap Json) :
    ((engine.instances tree inputs globals).map Instance.key).Nodup := by
  have hseparate : Element.Separate tree.inScope tree.elements :=
    ⟨tree.ids_eq ▸ hids, hapart.outer, hapart.inner⟩
  unfold instances
  split
  · exact List.nodup_nil
  · exact (Walk.instancesFrom_keyed _ [] none tree hseparate _).nodup

/--
Keys of instances.  If ids are distinct and no element of a scope looks as if it were in a
repetition of a container of that scope, the instances that a derivation comes to have distinct
keys, and if it does not stop, the state has in the end what every instance has put there.
-/
theorem derive_keys_distinct (engine : FormEngine) (tree : Element)
    (inputs globals : KeyMap Json) (hids : tree.ids.Nodup) (hapart : tree.RowsApart) :
    ((engine.instances tree inputs globals).map Instance.key).Nodup ∧
    ∀ state, engine.derive tree inputs globals = .ok state →
      ∀ v ∈ engine.instances tree inputs globals, FormState.AgreesAt v.key v.after state := by
  have hdistinct := instances_keys_nodup hids hapart engine inputs globals
  refine ⟨hdistinct, ?_⟩
  intro state h v hv
  exact (derive_settled h hdistinct v hv).agrees

theorem derive_keys_distinct_people :
    let engine : FormEngine := ⟨.empty, .empty, {}⟩
    let required : FieldTraits := ⟨.text, true, none, none, none, none⟩
    let tree : Element := .container ⟨"form", "", none, none, none⟩ .group [
      .field ⟨"title", "", none, none, none⟩ required,
      .container ⟨"people", "", none, none, none⟩ (.repeating ⟨2, none⟩)
        [.field ⟨"name", "", none, none, none⟩ required]]
    ((engine.instances tree .empty .empty).map Instance.key).Nodup ∧
    ∀ state, engine.derive tree .empty .empty = .ok state →
      ∀ v ∈ engine.instances tree .empty .empty, FormState.AgreesAt v.key v.after state := by
  intro engine required tree
  have houter : Element.Apart tree.inScope := .of_not_begins (by decide)
  have hinner : ∀ x ∈ tree.elements, x.isRepeating = true →
      Element.Apart (Element.inScopeAll x.children) := by
    have hbegins : ∀ x ∈ tree.elements, x.isRepeating = true →
        ∀ y ∈ Element.inScopeAll x.children, y.isRepeating = true →
          ∀ z ∈ Element.inScopeAll x.children, ¬ y.id.toList ++ ['_'] <+: z.id.toList := by
      decide
    exact fun x hx hrepeating => .of_not_begins (hbegins x hx hrepeating)
  exact derive_keys_distinct engine tree .empty .empty (by decide) ⟨houter, hinner⟩

/--
A field whose id is the key of another one inside a repetition.  The ids are distinct, but the
visible field and the hidden one share a key, and what the first one has put there is lost.
-/
theorem derive_keys_collide :
    let engine : FormEngine := ⟨⟨.ofList [("logic.not", Operator.notOperator)]⟩, .empty, {}⟩
    let never : Expression := .formula (.apply "logic.not" [.constant (.bool true)])
    let required : FieldTraits := ⟨.text, true, none, none, none, none⟩
    let tree : Element := .container ⟨"form", "", none, none, none⟩ (.root ⟨false, false, false⟩) [
      .container ⟨"a", "", none, none, none⟩ (.repeating ⟨1, none⟩)
        [.field ⟨"b", "", none, none, none⟩ required],
      .field ⟨"a_0_b", "", none, some never, none⟩ required]
    tree.ids.Nodup ∧ (∀ id ∈ tree.ids, id ≠ "") ∧
    ¬ ((engine.instances tree .empty .empty).map Instance.key).Nodup ∧
    ∃ state, engine.derive tree .empty .empty = .ok state ∧
      ∃ v ∈ engine.instances tree .empty .empty,
        v.after.visibilities.get? v.key = some true ∧
          state.visibilities.get? v.key = some false := by
  refine ⟨?_, ?_, ?_, _, rfl, ?_⟩
  · decide
  · decide
  · decide
  · decide

/-- A container whose id is the prefix of a repetition of another one shares keys with it too. -/
example :
    let engine : FormEngine := ⟨.empty, .empty, {}⟩
    let optional : FieldTraits := ⟨.text, false, none, none, none, none⟩
    let tree : Element := .container ⟨"form", "", none, none, none⟩ .group [
      .container ⟨"a", "", none, none, none⟩ (.repeating ⟨1, none⟩)
        [.field ⟨"0_c", "", none, none, none⟩ optional],
      .container ⟨"a_0", "", none, none, none⟩ (.repeating ⟨1, none⟩)
        [.field ⟨"c", "", none, none, none⟩ optional]]
    tree.ids.Nodup ∧ ¬ ((engine.instances tree .empty .empty).map Instance.key).Nodup := by
  decide

end FormEngine

end FormDerivation
