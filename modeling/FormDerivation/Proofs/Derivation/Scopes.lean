import FormDerivation.Proofs.Derivation.RowIsolation
import FormDerivation.Proofs.Derivation.Siblings
import FormDerivation.Proofs.Derivation.Values

/-!
# What is reached in a scope

What is visited in a scope has instances of its own elements there (`Walk.instancesFrom_within`) and
changes values of the scope only (`Walk.visit_confined`).  Hiding comes to an end and changes none
(`Walk.hideAll_keepsValues`).  Repetitions have no key in common, so what is in one of them is found
where that one is walked through (`Walk.mem_inner_of_apart`).
-/

namespace FormDerivation.Walk

open Element (elements elementsAll)

/-! ## Keys of a scope -/

def InScope (scope : Option String) (key : String) : Prop :=
  ∃ name, key = scopedKey scope name

theorem inScope_row {id key : String} {index : Nat} :
    InScope (some (rowScope id index)) key ↔ InRow id index key := by
  simp only [InScope, InRow, scopedKey_row]

variable {setting : WalkSetting}

theorem InScope.outward {scope inner : Option String} {id key : String} {kind : Container}
    {walk : Walk} (h : InScope inner key) (hinner : inner ∈ scopesBelow setting scope id walk kind) :
    InScope scope key := by
  cases kind with
  | repeating bounds =>
      obtain ⟨index, -, rfl⟩ := List.mem_map.mp hinner
      obtain ⟨name, rfl⟩ := h
      exact ⟨_, scopedKey_rowScope scope id name index⟩
  | _ =>
      cases List.mem_singleton.mp hinner
      exact h

def Apart (scope scope' : Option String) : Prop :=
  ∀ key, InScope scope key → ¬ InScope scope' key

theorem scopesBelow_apart (scope : Option String) (id : String) (kind : Container) (walk : Walk) :
    (scopesBelow setting scope id walk kind).Pairwise Apart := by
  cases kind with
  | repeating bounds =>
      refine List.pairwise_map.mpr (List.nodup_range.imp fun hne key hkey hkey' => ?_)
      exact not_inRow_of_inRow (inScope_row.mp hkey) hne (inScope_row.mp hkey')
  | _ => exact List.pairwise_singleton _ _

/-! ## Instances of a scope -/

def Within (scope : Option String) (elements : List Element) (list : List Instance) : Prop :=
  ∀ v ∈ list, v.element ∈ elements ∧ InScope scope v.key

theorem hereditary_within (scope : Option String) (elements : List Element) :
    Hereditary (Within scope elements) :=
  .forall_mem _

theorem Within.outward {scope inner : Option String} {id : String} {kind : Container} {walk : Walk}
    {elements elements' : List Element} {list : List Instance} (h : Within inner elements list)
    (hinner : inner ∈ scopesBelow setting scope id walk kind) (hsub : elements ⊆ elements') :
    Within scope elements' list :=
  fun v hv => ⟨hsub (h v hv).1, (h v hv).2.outward hinner⟩

theorem Within.mono {scope : Option String} {elements elements' : List Element}
    {list : List Instance} (h : Within scope elements list) (hsub : elements ⊆ elements') :
    Within scope elements' list :=
  fun v hv => ⟨hsub (h v hv).1, (h v hv).2⟩

theorem Within.cons {scope : Option String} {e : Element} {v : Instance} {list : List Instance}
    (h : Within scope e.elements list) (hv : v.element = e) (hscope : v.scope = scope) :
    Within scope e.elements (v :: list) := by
  intro u hu
  rcases List.mem_cons.mp hu with rfl | hu
  · refine ⟨?_, u.element.id, by rw [Instance.key, hscope]⟩
    rw [hv]
    cases e <;> simp [elements]
  · exact h u hu

theorem within_singleton {scope : Option String} {e : Element} {v : Instance} (hv : v.element = e)
    (hscope : v.scope = scope) : Within scope e.elements [v] :=
  Within.cons (hereditary_within scope _).nil hv hscope

mutual

theorem hiddenFrom_within (above : List Instance) (scope : Option String) : (e : Element) →
    ∀ walk, Within scope e.elements (hiddenFrom setting above scope e walk)
  | .container attributes kind children => by
      intro walk
      rw [hiddenFrom]
      refine Within.cons ((hereditary_within _ _).scopes ?_ _) rfl rfl
      intro inner hinner between
      refine (hiddenFromAll_within _ inner children between).outward hinner ?_
      rw [elements]
      exact List.subset_cons_self _ _
  | .field attributes traits => by
      intro walk
      rw [hiddenFrom]
      exact within_singleton rfl rfl
  | .content attributes text => by
      intro walk
      rw [hiddenFrom]
      exact within_singleton rfl rfl

theorem hiddenFromAll_within (above : List Instance) (scope : Option String) :
    (es : List Element) → ∀ walk,
      Within scope (elementsAll es) (hiddenFromAll setting above scope es walk)
  | [] => fun _ => (hereditary_within scope _).nil
  | e :: rest => by
      intro walk
      rw [hiddenFromAll, elementsAll]
      have hrest := hiddenFromAll_within above scope rest
      exact (hereditary_within _ _).append
        ((hiddenFrom_within above scope e walk).mono (List.subset_append_left _ _))
        ((hereditary_within _ _).listFrom
          (fun between => (hrest between).mono (List.subset_append_right _ _)) walk)

end

mutual

theorem instancesFrom_within (above : List Instance) (scope : Option String) : (e : Element) →
    ∀ walk, Within scope e.elements (instancesFrom setting above scope e walk)
  | .container attributes kind children => by
      intro walk
      rw [instancesFrom]
      refine Within.cons ?_ (by simp) (by simp)
      have hsub : elementsAll children ⊆ elements (.container attributes kind children) := by
        rw [elements]
        exact List.subset_cons_self _ _
      split
      · refine (hereditary_within _ _).scopes (fun inner hinner between => ?_) _
        exact (instancesFromAll_within _ inner children between).outward hinner hsub
      · refine (hereditary_within _ _).scopes (fun inner hinner between => ?_) _
        exact (hiddenFromAll_within _ inner children between).outward hinner hsub
      · exact (hereditary_within _ _).nil
  | .field attributes traits => by
      intro walk
      rw [instancesFrom]
      exact within_singleton (by simp) (by simp)
  | .content attributes text => by
      intro walk
      rw [instancesFrom]
      exact within_singleton (by simp) (by simp)

theorem instancesFromAll_within (above : List Instance) (scope : Option String) :
    (es : List Element) → ∀ walk,
      Within scope (elementsAll es) (instancesFromAll setting above scope es walk)
  | [] => fun _ => (hereditary_within scope _).nil
  | e :: rest => by
      intro walk
      rw [instancesFromAll, elementsAll]
      have hrest := instancesFromAll_within above scope rest
      exact (hereditary_within _ _).append
        ((instancesFrom_within above scope e walk).mono (List.subset_append_left _ _))
        ((hereditary_within _ _).listFrom
          (fun between => (hrest between).mono (List.subset_append_right _ _)) walk)

end

/-! ## Values of a scope -/

def Confined {α : Type} (region : String → Prop) (part : WalkM α) : Prop :=
  ∀ walk a last, part.run walk = .ok (a, last) → ∀ key, ¬ region key →
    last.state.values.get? key = walk.state.values.get? key

theorem Confined.bind {α β : Type} {region : String → Prop} {part : WalkM α} {next : α → WalkM β}
    (h : Confined region part) (hnext : ∀ a, Confined region (next a)) :
    Confined region (part >>= next) := by
  intro walk b last hrun key hkey
  obtain ⟨a, between, hpart, hrest⟩ := exists_of_run_bind_eq_ok hrun
  exact (hnext a between b last hrest key hkey).trans (h walk a between hpart key hkey)

theorem Confined.discard {α : Type} {region : String → Prop} {part : WalkM α}
    (h : Confined region part) : Confined region (discard part) := by
  intro walk _ last hrun
  obtain ⟨a, hpart⟩ := exists_of_run_discard_eq_ok hrun
  exact h walk a last hpart

theorem Confined.forM {α : Type} {region : String → Prop} {act : α → WalkM Unit} {items : List α}
    (h : ∀ item ∈ items, Confined region (act item)) : Confined region (forM items act) := by
  induction items with
  | nil =>
      intro walk a last hrun key _
      cases hrun
      rfl
  | cons item rest ih =>
      rw [List.forall_mem_cons] at h
      rw [List.forM_cons]
      exact h.1.bind fun _ => ih h.2

theorem Confined.mono {α : Type} {region region' : String → Prop} {part : WalkM α}
    (h : Confined region part) (hsub : ∀ key, region key → region' key) : Confined region' part :=
  fun walk a last hrun key hkey => h walk a last hrun key fun hregion => hkey (hsub key hregion)

theorem enter_confined (scope : Option String) (e : Element) :
    Confined (InScope scope) (enter setting scope e) := by
  intro walk visible entered henter key hkey
  by_contra hchanged
  obtain ⟨rfl, -⟩ := enter_changed setting henter hchanged
  exact hkey ⟨e.id, rfl⟩

theorem spread_confined {scope : Option String} {attributes : Attributes} {kind : Container}
    {key : String} (hkey : ¬ InScope scope key) (walk : Walk) :
    (spread setting scope attributes.id walk kind).state.values.get? key =
      walk.state.values.get? key := by
  by_contra hchanged
  have hopened : (opened setting scope (.container attributes kind []) walk).state.values.get? key ≠
      walk.state.values.get? key := hchanged
  obtain ⟨-, -, value, -, hentry⟩ := exists_of_opened_ne setting hopened
  obtain ⟨_, _, index, _, name, -, -, -, -, -, rfl⟩ := hentry
  exact hkey ⟨_, scopedKey_rowScope scope attributes.id name index⟩

/-! ## Hiding -/

def KeepsValues (part : WalkM Unit) : Prop :=
  ∀ walk, ∃ last, part.run walk = .ok ((), last) ∧ last.state.values = walk.state.values

theorem KeepsValues.bind {part next : WalkM Unit} (h : KeepsValues part)
    (hnext : KeepsValues next) : KeepsValues (part >>= fun _ => next) := by
  intro walk
  obtain ⟨between, hpart, hbetween⟩ := h walk
  obtain ⟨last, hrest, hlast⟩ := hnext between
  exact ⟨last, by rw [run_bind_of_ok hpart, hrest], hlast.trans hbetween⟩

theorem KeepsValues.forM {α : Type} {act : α → WalkM Unit} (h : ∀ item, KeepsValues (act item))
    (items : List α) : KeepsValues (forM items act) := by
  induction items with
  | nil => exact fun walk => ⟨walk, rfl, rfl⟩
  | cons item rest ih =>
      rw [List.forM_cons]
      exact (h item).bind ih

theorem KeepsValues.confined {part : WalkM Unit} (h : KeepsValues part) (region : String → Prop) :
    Confined region part := by
  intro walk _ last hrun key _
  obtain ⟨last', hrun', hvalues⟩ := h walk
  cases hrun.symm.trans hrun'
  rw [hvalues]

theorem mark_keepsValues (key : String) (visible : Bool) :
    KeepsValues (modify (markVisibility key visible)) :=
  fun _ => ⟨_, rfl, rfl⟩

mutual

theorem hide_keepsValues (scope : Option String) : (e : Element) →
    KeepsValues (hide setting scope e)
  | .container attributes kind children => by
      rw [hide]
      refine (mark_keepsValues _ false).bind fun walk => ?_
      rw [hideWithin_run]
      exact KeepsValues.forM (fun inner => hideAll_keepsValues inner children) _ walk
  | .field attributes traits => by
      rw [hide]
      exact mark_keepsValues _ false
  | .content attributes text => by
      rw [hide]
      exact mark_keepsValues _ false

theorem hideAll_keepsValues (scope : Option String) : (es : List Element) →
    KeepsValues (hideAll setting scope es)
  | [] => fun walk => ⟨walk, rfl, rfl⟩
  | e :: rest => by
      rw [hideAll]
      exact (hide_keepsValues scope e).bind (hideAll_keepsValues scope rest)

end

mutual

/-- A visit in a scope changes values of the scope only. -/
theorem visit_confined (scope : Option String) : (e : Element) →
    Confined (InScope scope) (visit setting scope e)
  | .container attributes kind children => by
      rw [visit]
      refine (enter_confined scope _).bind fun visible walk _ last hrun key hkey => ?_
      cases visible with
      | true =>
          rw [if_pos rfl, visitWithin_run] at hrun
          have hconfined : Confined (InScope scope)
              (forM (scopesBelow setting scope attributes.id walk kind)
                fun inner => visitAll setting inner children) :=
            .forM fun inner hinner => (visitAll_confined inner children).mono
              fun _ h => h.outward hinner
          exact (hconfined _ _ last hrun key hkey).trans (spread_confined hkey walk)
      | false =>
          rw [if_neg Bool.false_ne_true, hideWithin_run] at hrun
          have hkept : KeepsValues (forM (scopesBelow setting scope attributes.id walk kind)
              fun inner => hideAll setting inner children) :=
            .forM (fun inner => hideAll_keepsValues inner children) _
          exact hkept.confined _ _ _ last hrun key hkey
  | .field attributes traits => by
      rw [visit]
      exact (enter_confined scope _).discard
  | .content attributes text => by
      rw [visit]
      exact (enter_confined scope _).discard

theorem visitAll_confined (scope : Option String) : (es : List Element) →
    Confined (InScope scope) (visitAll setting scope es)
  | [] => fun walk _ last hrun _ _ => by
      cases hrun
      rfl
  | e :: rest => by
      rw [visitAll]
      exact (visit_confined scope e).bind fun _ => visitAll_confined scope rest

end

/-! ## Values in a scope of two walks -/

def SameValues (region : String → Prop) (walk walk' : Walk) : Prop :=
  ∀ key, region key → walk'.state.values.get? key = walk.state.values.get? key

theorem shared_sameValues (region : String → Prop) : Shared (SameValues region) region where
  values := fun h hkey => h _ hkey
  recordFailure := fun _ _ h _ => h
  markVisibility := fun _ h _ => h
  setValue := by
    intro walk walk' own value h _ key hkey
    simp only [setValue, KeyMap.get?_insert, h key hkey]
  recordError := fun _ h _ => h
  recordCount := fun _ h _ => h

section Same

variable {scope : Option String} {walk walk' : Walk}

theorem SameValues.scopesBelow_eq (h : SameValues (InScope scope) walk walk') (id : String)
    (kind : Container) :
    scopesBelow setting scope id walk' kind = scopesBelow setting scope id walk kind := by
  cases kind <;> simp only [scopesBelow, h _ ⟨id, rfl⟩]

theorem SameValues.spread (h : SameValues (InScope scope) walk walk') (id : String)
    (kind : Container) : SameValues (InScope scope) (spread setting scope id walk kind)
      (spread setting scope id walk' kind) := by
  cases kind with
  | repeating bounds =>
      have hexpanded : ∀ count, SameValues (InScope scope)
          (expandRows (scopedKey scope id) count walk)
          (expandRows (scopedKey scope id) count walk') :=
        (shared_sameValues _).expandRows h (fun name => ⟨name, rfl⟩) id
      simp only [Walk.spread, h _ ⟨id, rfl⟩]
      exact hexpanded _
  | _ => exact h

theorem SameValues.visitAll (h : SameValues (InScope scope) walk walk') {es : List Element}
    (hplain : ∀ x ∈ elementsAll es, x.expressions = []) {last last' : Walk}
    (hrun : (visitAll setting scope es).run walk = .ok ((), last))
    (hrun' : (Walk.visitAll setting scope es).run walk' = .ok ((), last')) :
    SameValues (InScope scope) last last' := by
  have hself : SameKeys (InScope scope) (fun name => name) scope scope :=
    ⟨fun _ => rfl, fun name => ⟨name, rfl⟩⟩
  have hplain' : ∀ x ∈ elementsAll es, x.Plain := by
    intro x hx
    exact ⟨(Element.no_attribute_expressions (hplain x hx)).2, by simp [hplain x hx]⟩
  have hlockstep := visitAll_lockstep setting (shared_sameValues _) es hplain' hself walk walk' h
  rw [Element.renameAll_self, hrun, hrun'] at hlockstep
  cases hlockstep with
  | ok _ hrelated => exact hrelated

end Same

/-! ## Scopes that are walked through -/

theorem exists_mem_listScopes {part : Option String → WalkM Unit}
    {inner : Option String → Walk → List Instance} {scopes : List (Option String)}
    {scope : Option String} {values : KeyMap Json} {P : Instance → Prop}
    (hpart : ∀ scope, KeepsValues (part scope)) (hscope : scope ∈ scopes)
    (h : ∀ between, between.state.values = values → ∃ v ∈ inner scope between, P v) {walk : Walk}
    (hwalk : walk.state.values = values) : ∃ v ∈ listScopes part inner scopes walk, P v := by
  induction scopes generalizing walk with
  | nil => cases hscope
  | cons first rest ih =>
      rw [listScopes]
      rcases List.mem_cons.mp hscope with rfl | hscope
      · obtain ⟨v, hv, hP⟩ := h walk hwalk
        exact ⟨v, List.mem_append_left _ hv, hP⟩
      · obtain ⟨between, hrun, hbetween⟩ := hpart first walk
        obtain ⟨v, hv, hP⟩ := ih hscope (hbetween.trans hwalk)
        rw [listFrom_of_run hrun]
        exact ⟨v, List.mem_append_right _ hv, hP⟩

section Rows

variable {part : Option String → WalkM Unit} {inner : Option String → Walk → List Instance}
  {before after : List (Option String)} {scope : Option String} {walk start : Walk}

theorem inner_subset (h : (forM before part).run walk = .ok ((), start)) :
    inner scope start ⊆ listScopes part inner (before ++ scope :: after) walk := by
  rw [listScopes_split h]
  exact List.subset_append_of_subset_right _ (List.subset_append_left _ _)

theorem mem_inner_of_apart (h : (forM before part).run walk = .ok ((), start))
    (hapart : (before ++ scope :: after).Pairwise Apart) {key : String} (hkey : InScope scope key)
    {x : Instance} (hx : ∀ other between, x ∈ inner other between → InScope other key)
    (hmem : x ∈ listScopes part inner (before ++ scope :: after) walk) : x ∈ inner scope start := by
  obtain ⟨-, hafter, hbefore⟩ := List.pairwise_append.mp hapart
  rw [listScopes_split h] at hmem
  rcases List.mem_append.mp hmem with hmem | hmem
  · obtain ⟨other, hother, between, hmem⟩ := exists_mem_of_mem_listScopes hmem
    exact absurd hkey (hbefore other hother scope List.mem_cons_self key (hx other between hmem))
  · rcases List.mem_append.mp hmem with hmem | hmem
    · exact hmem
    · obtain ⟨last, hmem⟩ := exists_mem_of_mem_listFrom hmem
      obtain ⟨other, hother, between, hmem⟩ := exists_mem_of_mem_listScopes hmem
      exact absurd (hx other between hmem) ((List.pairwise_cons.mp hafter).1 other hother key hkey)

theorem confined_before (hpart : ∀ other, Confined (InScope other) (part other))
    (hapart : ∀ other ∈ before, Apart other scope) :
    Confined (fun key => ¬ InScope scope key) (forM before part) :=
  .forM fun other hother => (hpart other).mono fun key hkey => hapart other hother key hkey

end Rows

end FormDerivation.Walk
