import FormDerivation.Element.Traversal
import FormDerivation.Value

/-!
# Names of elements within a scope

A key is put together from ids and numbers of repetitions with underscores between them.  The part
of a key within a scope is a name: the id of an element, or the id of a repeating container, a
number and what comes inside the repetition.  Elements have no name in common if their ids differ
and none of them looks as if it were in a repetition of another (`Element.names_disjoint`).
-/

namespace FormDerivation

/-! ## Numbers between underscores -/

@[simp] theorem toList_rowScope (key : String) (index : Nat) :
    (rowScope key index).toList = key.toList ++ '_' :: Nat.toDigits 10 index := by
  simp [rowScope]

def rowStart (id : String) (index : Nat) : String :=
  rowScope id index ++ "_"

@[simp] theorem toList_rowStart (id : String) (index : Nat) :
    (rowStart id index).toList = id.toList ++ '_' :: Nat.toDigits 10 index ++ ['_'] := by
  simp [rowStart]

theorem toDigits_injective {i j : Nat} (h : Nat.toDigits 10 i = Nat.toDigits 10 j) : i = j := by
  have hvalue := congrArg (fun digits => Nat.ofDigitChars 10 digits 0) h
  simpa using hvalue

theorem append_cons_inj_left {α : Type} {c : α} {first second rest rest' : List α}
    (hfirst : c ∉ first) (hsecond : c ∉ second) (h : first ++ c :: rest = second ++ c :: rest') :
    first = second ∧ rest = rest' := by
  induction first generalizing second with
  | nil =>
      cases second with
      | nil => simpa using h
      | cons d second =>
          rw [List.nil_append, List.cons_append, List.cons.injEq] at h
          exact absurd List.mem_cons_self (h.1 ▸ hsecond)
  | cons d first ih =>
      cases second with
      | nil =>
          rw [List.nil_append, List.cons_append, List.cons.injEq] at h
          exact absurd List.mem_cons_self (h.1 ▸ hfirst)
      | cons e second =>
          rw [List.cons_append, List.cons_append, List.cons.injEq] at h
          rw [List.mem_cons, not_or] at hfirst hsecond
          obtain ⟨hsame, hrest⟩ := ih hfirst.2 hsecond.2 h.2
          exact ⟨by rw [h.1, hsame], hrest⟩

theorem append_cons_inj_right {α : Type} {c : α} {first second rest rest' : List α}
    (hrest : c ∉ rest) (hrest' : c ∉ rest') (h : first ++ c :: rest = second ++ c :: rest') :
    first = second ∧ rest = rest' := by
  have hreverse := congrArg List.reverse h
  simp only [List.reverse_append, List.reverse_cons, List.append_assoc, List.singleton_append]
    at hreverse
  obtain ⟨hsame, hbefore⟩ := append_cons_inj_left (by simpa using hrest) (by simpa using hrest')
    hreverse
  exact ⟨List.reverse_inj.mp hbefore, List.reverse_inj.mp hsame⟩

theorem prefix_of_prefix_append {α : Type} {c : α} {list before rest : List α} (hrest : c ∉ rest)
    (h : list ++ [c] <+: before ++ rest) : list ++ [c] <+: before := by
  rcases List.prefix_or_prefix_of_prefix h (List.prefix_append before rest) with h' | h'
  · exact h'
  · rcases List.prefix_concat_iff.mp h' with rfl | ⟨between, rfl⟩
    · exact List.prefix_refl _
    · rw [List.append_assoc, List.prefix_append_right_inj] at h
      have hmem : c ∈ rest := h.subset (List.mem_append_right between List.mem_cons_self)
      exact absurd hmem hrest

/-! ## Names within a scope -/

namespace Element

def isRepeating : Element → Bool
  | .container _ (.repeating _) _ => true
  | _ => false

def stem (e : Element) : String :=
  if e.isRepeating then e.id ++ "_" else e.id

def Names (e : Element) (name : String) : Prop :=
  name = e.id ∨ e.isRepeating = true ∧ ∃ index rest, name = rowStart e.id index ++ rest

/-- No element looks as if it were in a repetition of a container of the same scope. -/
def Apart (group : List Element) : Prop :=
  ∀ x ∈ group, x.isRepeating = true → ∀ y ∈ group, ∀ index,
    ¬ (rowStart x.id index).toList <+: y.stem.toList

theorem Apart.subset {group part : List Element} (h : Apart group) (hpart : part ⊆ group) :
    Apart part :=
  fun x hx hrepeating y hy => h x (hpart hx) hrepeating y (hpart hy)

/-- It is enough that no id begins with that of a container and an underscore. -/
theorem Apart.of_not_begins {group : List Element}
    (h : ∀ x ∈ group, x.isRepeating = true → ∀ y ∈ group,
      ¬ (x.id.toList ++ ['_']) <+: y.id.toList) : Apart group := by
  intro x hx hrepeating y hy index hstart
  have hid : x.id.toList ++ ['_'] <+: x.id.toList ++ '_' :: Nat.toDigits 10 index :=
    ⟨Nat.toDigits 10 index, by simp⟩
  rw [toList_rowStart] at hstart
  refine h x hx hrepeating y hy ?_
  unfold stem at hstart
  split at hstart
  · rw [String.toList_append] at hstart
    rcases List.prefix_concat_iff.mp hstart with hsame | hstart
    · rw [← List.append_cancel_right hsame]
      exact hid
    · exact hid.trans ((List.prefix_append _ _).trans hstart)
  · exact hid.trans ((List.prefix_append _ _).trans hstart)

theorem id_prefix_stem (e : Element) : e.id.toList <+: e.stem.toList := by
  unfold stem
  split
  · simp
  · exact List.prefix_refl _

theorem not_rowStart_prefix_rowStart {group : List Element} (h : Apart group) {x y : Element}
    (hx : x ∈ group) (hy : y ∈ group) (hrepeating : x.isRepeating = true)
    (hrepeating' : y.isRepeating = true) (hne : x.id ≠ y.id) (i j : Nat) :
    ¬ (rowStart x.id i).toList <+: (rowStart y.id j).toList := by
  intro hbegins
  have hstart : (rowStart y.id j).toList = (y.stem.toList ++ Nat.toDigits 10 j) ++ ['_'] := by
    simp [stem, hrepeating']
  rw [hstart] at hbegins
  rcases List.prefix_concat_iff.mp hbegins with hsame | hbegins
  · rw [← hstart, toList_rowStart, toList_rowStart, List.append_cancel_right_eq] at hsame
    obtain ⟨hid, -⟩ := append_cons_inj_right (by simp) (by simp) hsame
    exact hne (String.toList_inj.mp hid)
  · rw [toList_rowStart] at hbegins
    have hstem := prefix_of_prefix_append (by simp) hbegins
    rw [← toList_rowStart] at hstem
    exact h x hx hrepeating y hy i hstem

theorem names_disjoint {group : List Element} (h : Apart group) {x y : Element} (hx : x ∈ group)
    (hy : y ∈ group) (hne : x.id ≠ y.id) {name : String} (hname : x.Names name) :
    ¬ y.Names name := by
  intro hname'
  rcases hname with rfl | ⟨hrepeating, i, rest, rfl⟩
  · rcases hname' with hid | ⟨hrepeating, i, rest, hid⟩
    · exact hne hid
    · refine h y hy hrepeating x hx i (List.IsPrefix.trans ?_ x.id_prefix_stem)
      rw [hid, String.toList_append]
      exact List.prefix_append _ _
  · rcases hname' with hid | ⟨hrepeating', j, rest', hid⟩
    · refine h x hx hrepeating y hy i (List.IsPrefix.trans ?_ y.id_prefix_stem)
      rw [← hid, String.toList_append]
      exact List.prefix_append _ _
    · have hbegins := List.prefix_append (rowStart x.id i).toList rest.toList
      have hbegins' := List.prefix_append (rowStart y.id j).toList rest'.toList
      rw [← String.toList_append, ← hid, String.toList_append] at hbegins'
      rcases List.prefix_or_prefix_of_prefix hbegins hbegins' with hrows | hrows
      · exact not_rowStart_prefix_rowStart h hx hy hrepeating hrepeating' hne i j hrows
      · exact not_rowStart_prefix_rowStart h hy hx hrepeating' hrepeating (Ne.symm hne) j i hrows

theorem rowStart_append_inj {id rest rest' : String} {i j : Nat}
    (h : rowStart id i ++ rest = rowStart id j ++ rest') : i = j := by
  have hlists := congrArg String.toList h
  simp only [String.toList_append, toList_rowStart, List.append_assoc, List.cons_append,
    List.append_cancel_left_eq, List.cons.injEq, true_and] at hlists
  obtain ⟨hdigits, -⟩ := append_cons_inj_left (by simp) (by simp) hlists
  exact toDigits_injective hdigits

theorem id_ne_rowStart_append (id rest : String) (index : Nat) :
    id ≠ rowStart id index ++ rest := by
  intro h
  have hlength := congrArg (fun text => text.toList.length) h
  simp at hlength

/-! ## Elements of one scope -/

mutual

def inScope : Element → List Element
  | .container attributes kind children =>
    .container attributes kind children ::
      match kind with
      | .repeating _ => []
      | _ => inScopeAll children
  | .field attributes traits => [.field attributes traits]
  | .content attributes text => [.content attributes text]

def inScopeAll : List Element → List Element
  | [] => []
  | e :: rest => inScope e ++ inScopeAll rest

end

theorem inScope_of_not_repeating {attributes : Attributes} {kind : Container}
    {children : List Element} (h : (container attributes kind children).isRepeating = false) :
    inScope (.container attributes kind children) =
      .container attributes kind children :: inScopeAll children := by
  cases kind with
  | repeating bounds => cases h
  | root steps => rfl
  | step => rfl
  | group => rfl

theorem mem_inScope_self (attributes : Attributes) (kind : Container) (children : List Element) :
    .container attributes kind children ∈ inScope (.container attributes kind children) := by
  cases kind <;> exact List.mem_cons_self

mutual

def elements : Element → List Element
  | .container attributes kind children =>
    .container attributes kind children :: elementsAll children
  | .field attributes traits => [.field attributes traits]
  | .content attributes text => [.content attributes text]

def elementsAll : List Element → List Element
  | [] => []
  | e :: rest => elements e ++ elementsAll rest

end

mutual

@[simp] theorem map_nodesFrom (depth : Nat) : (e : Element) →
    (e.nodesFrom depth).map Prod.snd = e.elements
  | .container attributes kind children => by
      rw [nodesFrom, elements, List.map_cons, map_nodesFromAll]
  | .field attributes traits => rfl
  | .content attributes text => rfl

theorem map_nodesFromAll (depth : Nat) : (es : List Element) →
    (nodesFromAll depth es).map Prod.snd = elementsAll es
  | [] => rfl
  | e :: rest => by
      rw [nodesFromAll, elementsAll, List.map_append, map_nodesFrom, map_nodesFromAll]

end

theorem attribute_expressions_subset (e : Element) :
    e.attributes.visibility.toList ++ e.attributes.patch.toList ⊆ e.expressions := by
  cases e with
  | field attributes traits =>
      rw [expressions, List.append_assoc]
      exact List.subset_append_left _ _
  | _ => exact List.Subset.refl _

theorem no_attribute_expressions {e : Element} (h : e.expressions = []) :
    e.attributes.visibility = none ∧ e.attributes.patch = none := by
  have hsub := e.attribute_expressions_subset
  rw [h, List.subset_nil, List.append_eq_nil_iff] at hsub
  simpa using hsub

theorem elementsAll_append (first second : List Element) :
    elementsAll (first ++ second) = elementsAll first ++ elementsAll second := by
  induction first with
  | nil => rw [elementsAll, List.nil_append, List.nil_append]
  | cons e rest ih => rw [List.cons_append, elementsAll, elementsAll, ih, List.append_assoc]

theorem ids_eq (e : Element) : e.ids = e.elements.map Element.id := by
  rw [← map_nodesFrom 0 e, List.map_map]
  rfl

mutual

theorem inScope_sublist : (e : Element) → e.inScope.Sublist e.elements
  | .container attributes kind children => by
      rw [elements]
      cases hrepeating : (container attributes kind children).isRepeating with
      | true =>
          cases kind with
          | repeating bounds => exact (List.nil_sublist _).cons_cons _
          | _ => cases hrepeating
      | false =>
          rw [inScope_of_not_repeating hrepeating]
          exact (inScopeAll_sublist children).cons_cons _
  | .field attributes traits => List.Sublist.refl _
  | .content attributes text => List.Sublist.refl _

theorem inScopeAll_sublist : (es : List Element) → (inScopeAll es).Sublist (elementsAll es)
  | [] => List.Sublist.refl _
  | e :: rest => by
      rw [inScopeAll, elementsAll]
      exact (inScope_sublist e).append (inScopeAll_sublist rest)

end

/-- Within every scope of a tree, no element looks as if it were in a repetition of another. -/
structure RowsApart (e : Element) : Prop where
  outer : Apart e.inScope
  inner : ∀ x ∈ e.elements, x.isRepeating = true → Apart (inScopeAll x.children)

structure Separate (group all : List Element) : Prop where
  ids : (all.map Element.id).Nodup
  apart : Apart group
  inner : ∀ x ∈ all, x.isRepeating = true → Apart (inScopeAll x.children)

namespace Separate

theorem head {e : Element} {rest : List Element}
    (h : Separate (inScopeAll (e :: rest)) (elementsAll (e :: rest))) :
    Separate e.inScope e.elements := by
  rw [inScopeAll, elementsAll] at h
  refine ⟨h.ids.sublist ((List.sublist_append_left _ _).map _), ?_, ?_⟩
  · exact h.apart.subset (List.subset_append_left _ _)
  · exact fun x hx => h.inner x (List.mem_append_left _ hx)

theorem tail {e : Element} {rest : List Element}
    (h : Separate (inScopeAll (e :: rest)) (elementsAll (e :: rest))) :
    Separate (inScopeAll rest) (elementsAll rest) := by
  rw [inScopeAll, elementsAll] at h
  refine ⟨h.ids.sublist ((List.sublist_append_right _ _).map _), ?_, ?_⟩
  · exact h.apart.subset (List.subset_append_right _ _)
  · exact fun x hx => h.inner x (List.mem_append_right _ hx)

theorem children {attributes : Attributes} {kind : Container} {children : List Element}
    (h : Separate (inScope (.container attributes kind children))
      (elements (.container attributes kind children))) :
    Separate (inScopeAll children) (elementsAll children) := by
  obtain ⟨hids, hapart, hinner⟩ := h
  rw [elements] at hids hinner
  refine ⟨hids.sublist ((List.sublist_cons_self _ _).map _), ?_, ?_⟩
  · cases hrepeating : (container attributes kind children).isRepeating with
    | true => exact hinner _ List.mem_cons_self hrepeating
    | false =>
        rw [inScope_of_not_repeating hrepeating] at hapart
        exact hapart.subset (List.subset_cons_self _ _)
  · exact fun x hx => hinner x (List.mem_cons_of_mem _ hx)

theorem id_ne {e : Element} {rest : List Element}
    (h : Separate (inScopeAll (e :: rest)) (elementsAll (e :: rest))) {x y : Element}
    (hx : x ∈ e.inScope) (hy : y ∈ inScopeAll rest) : x.id ≠ y.id := by
  have hids := h.ids
  rw [elementsAll, List.map_append, List.nodup_append] at hids
  have hx' := (inScope_sublist e).subset hx
  have hy' := (inScopeAll_sublist rest).subset hy
  exact hids.2.2 x.id (List.mem_map_of_mem hx') y.id (List.mem_map_of_mem hy')

end Separate

end Element

/-! ## Keys of names -/

theorem exists_scopedKey_eq_append (scope : Option String) :
    ∃ before, ∀ name, scopedKey scope name = before ++ name := by
  cases scope with
  | none => exact ⟨"", fun name => by simp [scopedKey]⟩
  | some scope =>
      by_cases hscope : scope = ""
      · exact ⟨"", fun name => by simp [scopedKey, hscope]⟩
      · exact ⟨scope ++ "_", fun name => by simp [scopedKey, hscope]⟩

theorem scopedKey_inj {scope : Option String} {name name' : String}
    (h : scopedKey scope name = scopedKey scope name') : name = name' := by
  obtain ⟨before, hbefore⟩ := exists_scopedKey_eq_append scope
  rw [hbefore, hbefore] at h
  exact (String.append_right_inj before).mp h

theorem rowScope_ne_empty (key : String) (index : Nat) : rowScope key index ≠ "" := by
  intro h
  have hlist := congrArg String.toList h
  simp at hlist

theorem scopedKey_rowScope (scope : Option String) (id name : String) (index : Nat) :
    scopedKey (some (rowScope (scopedKey scope id) index)) name =
      scopedKey scope (rowStart id index ++ name) := by
  obtain ⟨before, hbefore⟩ := exists_scopedKey_eq_append scope
  rw [hbefore, hbefore, scopedKey, if_neg (rowScope_ne_empty _ index)]
  simp only [rowStart, rowScope, String.append_assoc]

end FormDerivation
