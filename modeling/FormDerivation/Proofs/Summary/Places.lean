import FormDerivation.Proofs.Summary.Coverage
import Mathlib.Data.List.Lex
import Mathlib.Logic.Relation

/-!
# The places that the rows of a summary stand for

A summary is made from a tree and a state, and nothing says that the two belong together.  Whatever
the state is, it expands the tree to places: the root, and below every place the children of its
element, once for each repetition that the state records.  The rows are those of the places that can
be seen from the root (`Place.Shown`), in the order of their positions (`Summary.rows_of_places`).
-/

namespace FormDerivation

/-- An element at a place of the form that a state expands a tree to. -/
structure Place where
  element : Element
  scope : Option String
  /-- The way from the root: for each step down the repetition and the number of the child. -/
  position : List Nat
  /-- The places around it, the nearest one first. -/
  above : List Place

namespace Place

def key (p : Place) : String :=
  scopedKey p.scope p.element.id

def root (tree : Element) : Place :=
  ⟨tree, none, [], []⟩

def effective (state : FormState) (p : Place) : Element :=
  (state.overrides.get? p.key).getD p.element

/-- `p.Holds state q`: at the place `q` is a child of the element at the place `p`. -/
inductive Holds (state : FormState) (p : Place) : Place → Prop where
  | repeated {attributes : Attributes} {bounds : RepetitionBounds} {children : List Element}
      {count row index : Nat} {child : Element} :
      p.element = .container attributes (.repeating bounds) children →
      state.repetitions.get? p.key = some count → row < count → children[index]? = some child →
      Holds state p ⟨child, some (rowScope p.key row), p.position ++ [row, index], p :: p.above⟩
  | single {attributes : Attributes} {kind : Container} {children : List Element} {index : Nat}
      {child : Element} :
      p.element = .container attributes kind children → (∀ bounds, kind ≠ .repeating bounds) →
      children[index]? = some child →
      Holds state p ⟨child, p.scope, p.position ++ [0, index], p :: p.above⟩

abbrev Reaches (state : FormState) : Place → Place → Prop :=
  Relation.ReflTransGen (Holds state)

/-- A summary looks below a place: it is visible and no field. -/
def Open (state : FormState) (p : Place) : Prop :=
  state.isVisible p.key = true ∧ (p.effective state).isField = false

/-- A visible field that nothing around it hides or stands for. -/
def Shown (state : FormState) (p : Place) : Prop :=
  state.isVisible p.key = true ∧ (p.effective state).isField = true ∧
    ∀ q ∈ p.above, q.Open state

/-! ## Steps down -/

section Reaches

variable {state : FormState} {p q : Place}

theorem holds_iff {attributes : Attributes} {kind : Container} {children : List Element}
    (h : p.element = .container attributes kind children) :
    p.Holds state q ↔ ∃ row scope index child,
      (state.scopesWithin p.scope p.element)[row]? = some scope ∧ children[index]? = some child ∧
        q = ⟨child, scope, p.position ++ [row, index], p :: p.above⟩ := by
  have hkey : p.key = scopedKey p.scope attributes.id := by
    rw [key, h]
    rfl
  constructor
  · intro hstep
    cases hstep with
    | @repeated _ bounds _ count row index child helement hcount hrow hchild =>
        rw [h] at helement
        cases helement
        refine ⟨row, some (rowScope p.key row), index, child, ?_, hchild, rfl⟩
        rw [h, FormState.scopesWithin, ← hkey, hcount, List.getElem?_map, Option.getD_some,
          List.getElem?_range hrow]
        rfl
    | @single _ _ _ index child helement hsingle hchild =>
        rw [h] at helement
        cases helement
        refine ⟨0, p.scope, index, child, ?_, hchild, rfl⟩
        cases kind with
        | repeating bounds => exact absurd rfl (hsingle bounds)
        | _ =>
            rw [h]
            rfl
  · rintro ⟨row, scope, index, child, hscope, hchild, rfl⟩
    rw [h] at hscope
    cases kind with
    | repeating bounds =>
        rw [FormState.scopesWithin, ← hkey] at hscope
        cases hcount : state.repetitions.get? p.key with
        | none => simp [hcount] at hscope
        | some count =>
            obtain ⟨hrow, rfl⟩ : row < count ∧ some (rowScope p.key row) = scope := by
              simpa [hcount, List.getElem?_range, Option.map_eq_some_iff,
                List.getElem?_eq_some_iff] using hscope
            exact .repeated h hcount hrow hchild
    | _ =>
        obtain ⟨rfl, rfl⟩ : row = 0 ∧ p.scope = scope := by
          simpa [FormState.scopesWithin, List.getElem?_singleton] using hscope
        exact .single h (by simp) hchild

theorem Reaches.mem_above (h : p.Reaches state q) : p ∈ q :: q.above := by
  induction h with
  | refl => exact List.mem_cons_self
  | tail _ hstep ih => cases hstep <;> exact List.mem_cons_of_mem _ ih

theorem Reaches.position_extends (h : p.Reaches state q) : p.position <+: q.position := by
  induction h with
  | refl => exact List.prefix_rfl
  | tail _ hstep ih => cases hstep <;> exact ih.trans (List.prefix_append _ _)

theorem not_holds_of_leaf (h : p.element.children = []) : ¬ p.Holds state q := by
  intro hstep
  cases hstep with
  | repeated helement _ _ hchild =>
      rw [helement, Element.children] at h
      simp [h] at hchild
  | single helement _ hchild =>
      rw [helement, Element.children] at h
      simp [h] at hchild

theorem eq_of_shown_of_not_open (h : p.Reaches state q) (hq : q.Shown state)
    (hp : ¬ p.Open state) : q = p := by
  rcases List.mem_cons.mp h.mem_above with heq | hmem
  · exact heq.symm
  · exact absurd (hq.2.2 p hmem) hp

end Reaches

/-! ## Positions -/

theorem lt_of_prefixes {start first second : List Nat} {i j : Nat} (hlt : i < j)
    (hfirst : start ++ [i] <+: first) (hsecond : start ++ [j] <+: second) : first < second := by
  obtain ⟨rest, rfl⟩ := hfirst
  obtain ⟨rest', rfl⟩ := hsecond
  rw [List.append_assoc, List.append_assoc]
  exact List.append_left_lt (List.cons_lt_cons_iff.mpr (.inl hlt))

end Place

namespace Summary

/-! ## The places of the rows -/

def placesAt (state : FormState) (p : Place) (below : List Place) : List Place :=
  if !state.isVisible p.key then []
  else if (p.effective state).isField then [p]
  else below

mutual

def placesFrom (state : FormState) (scope : Option String) (position : List Nat)
    (above : List Place) : Element → List Place
  | .container attributes kind children =>
    let p : Place := ⟨.container attributes kind children, scope, position, above⟩
    placesAt state p ((state.scopesWithin scope p.element).zipIdx.flatMap fun (scope, row) =>
      placesFromAll state scope (position ++ [row]) (p :: above) 0 children)
  | .field attributes traits => placesAt state ⟨.field attributes traits, scope, position, above⟩ []
  | .content attributes text => placesAt state ⟨.content attributes text, scope, position, above⟩ []

def placesFromAll (state : FormState) (scope : Option String) (position : List Nat)
    (above : List Place) (index : Nat) : List Element → List Place
  | [] => []
  | e :: rest =>
    placesFrom state scope (position ++ [index]) above e ++
      placesFromAll state scope position above (index + 1) rest

end

def placeRow (state : FormState) (p : Place) : SummaryRow where
  key := p.key
  label := (p.effective state).label
  value := state.values.get? p.key
  error := state.errors.get? p.key
  depth := p.above.length

variable (state : FormState)

theorem leafRows_eq_map (p : Place) : leafRows state p.scope p.above.length p.element =
    (placesAt state p []).map (placeRow state) := by
  have hrows : leafRows state p.scope p.above.length p.element =
      if state.isVisible p.key && (p.effective state).isField then [placeRow state p] else [] := rfl
  rw [hrows, placesAt]
  cases state.isVisible p.key with
  | false => rfl
  | true => cases (p.effective state).isField <;> rfl

mutual

theorem rowsFrom_eq_map (scope : Option String) (position : List Nat) (above : List Place) :
    (e : Element) → rowsFrom state scope above.length e =
      (placesFrom state scope position above e).map (placeRow state)
  | .container attributes kind children => by
      rw [rowsFrom_container, placesFrom, placesAt, apply_ite (List.map (placeRow state)),
        apply_ite (List.map (placeRow state))]
      have hscopes := List.zipIdx_map_fst 0
        (state.scopesWithin scope (.container attributes kind children))
      rw [List.map_flatMap, ← hscopes, List.flatMap_map, hscopes]
      congr 2
      refine List.flatMap_congr fun ⟨scope', row⟩ _ => ?_
      exact rowsFromAll_eq_map scope' (position ++ [row]) (_ :: above) 0 children
  | .field attributes traits => by
      rw [rowsFrom, placesFrom]
      exact leafRows_eq_map state ⟨.field attributes traits, scope, position, above⟩
  | .content attributes text => by
      rw [rowsFrom, placesFrom]
      exact leafRows_eq_map state ⟨.content attributes text, scope, position, above⟩

theorem rowsFromAll_eq_map (scope : Option String) (position : List Nat) (above : List Place)
    (index : Nat) : (es : List Element) → rowsFromAll state scope above.length es =
      (placesFromAll state scope position above index es).map (placeRow state)
  | [] => rfl
  | e :: rest => by
      rw [rowsFromAll, placesFromAll, List.map_append, rowsFrom_eq_map scope _ above e,
        rowsFromAll_eq_map scope position above (index + 1) rest]

end

/-! ## Which places have rows -/

section Shown

variable {state} {p q : Place} {below : List Place}

/-- Among the places that a place reaches, those have rows that are shown. -/
theorem mem_placesAt_iff (habove : ∀ r ∈ p.above, r.Open state)
    (hbelow : p.Open state →
      (q ∈ below ↔ ∃ r, p.Holds state r ∧ r.Reaches state q ∧ q.Shown state)) :
    q ∈ placesAt state p below ↔ p.Reaches state q ∧ q.Shown state := by
  unfold placesAt
  cases hvisible : state.isVisible p.key with
  | false =>
      have hclosed : ¬ p.Open state := by simp [Place.Open, hvisible]
      refine iff_of_false List.not_mem_nil fun ⟨hreach, hshown⟩ => ?_
      obtain rfl := Place.eq_of_shown_of_not_open hreach hshown hclosed
      rw [hshown.1] at hvisible
      cases hvisible
  | true =>
      cases hfield : (p.effective state).isField with
      | true =>
          have hclosed : ¬ p.Open state := by simp [Place.Open, hfield]
          refine List.mem_singleton.trans ⟨?_, fun ⟨hreach, hshown⟩ =>
            Place.eq_of_shown_of_not_open hreach hshown hclosed⟩
          rintro rfl
          exact ⟨.refl, hvisible, hfield, habove⟩
      | false =>
          refine (hbelow ⟨hvisible, hfield⟩).trans ⟨?_, fun ⟨hreach, hshown⟩ => ?_⟩
          · rintro ⟨r, hstep, hreach, hshown⟩
            exact ⟨.head hstep hreach, hshown⟩
          · rcases hreach.cases_head with rfl | ⟨r, hstep, hreach⟩
            · rw [hshown.2.1] at hfield
              cases hfield
            · exact ⟨r, hstep, hreach, hshown⟩

theorem mem_placesAt_leaf_iff (habove : ∀ r ∈ p.above, r.Open state)
    (hleaf : p.element.children = []) :
    q ∈ placesAt state p [] ↔ p.Reaches state q ∧ q.Shown state := by
  refine mem_placesAt_iff habove fun _ => iff_of_false List.not_mem_nil ?_
  rintro ⟨r, hstep, -⟩
  exact Place.not_holds_of_leaf hleaf hstep

end Shown

mutual

theorem mem_placesFrom_iff (scope : Option String) (position : List Nat) {above : List Place}
    (habove : ∀ r ∈ above, r.Open state) : (e : Element) → ∀ q,
      q ∈ placesFrom state scope position above e ↔
        (⟨e, scope, position, above⟩ : Place).Reaches state q ∧ q.Shown state
  | .container attributes kind children, q => by
      rw [placesFrom]
      refine mem_placesAt_iff habove fun hopen => ?_
      have habove' := List.forall_mem_cons.mpr ⟨hopen, habove⟩
      rw [List.mem_flatMap]
      constructor
      · rintro ⟨⟨scope', row⟩, hscope, hq⟩
        obtain ⟨index, child, hchild, hreach, hshown⟩ :=
          (mem_placesFromAll_iff scope' (position ++ [row]) habove' 0 children q).mp hq
        rw [List.mem_zipIdx_iff_getElem?] at hscope
        exact ⟨_, (Place.holds_iff rfl).mpr
          ⟨row, scope', index, child, hscope, hchild, by simp⟩, hreach, hshown⟩
      · rintro ⟨r, hstep, hreach, hshown⟩
        obtain ⟨row, scope', index, child, hscope, hchild, rfl⟩ := (Place.holds_iff rfl).mp hstep
        refine ⟨(scope', row), List.mem_zipIdx_iff_getElem?.mpr hscope, ?_⟩
        exact (mem_placesFromAll_iff scope' (position ++ [row]) habove' 0 children q).mpr
          ⟨index, child, hchild, by simpa using hreach, hshown⟩
  | .field attributes traits, q => by
      rw [placesFrom]
      exact mem_placesAt_leaf_iff habove rfl
  | .content attributes text, q => by
      rw [placesFrom]
      exact mem_placesAt_leaf_iff habove rfl

theorem mem_placesFromAll_iff (scope : Option String) (position : List Nat) {above : List Place}
    (habove : ∀ r ∈ above, r.Open state) (index : Nat) : (es : List Element) → ∀ q,
      q ∈ placesFromAll state scope position above index es ↔
        ∃ i child, es[i]? = some child ∧
          (⟨child, scope, position ++ [index + i], above⟩ : Place).Reaches state q ∧ q.Shown state
  | [], q => by simp [placesFromAll]
  | e :: rest, q => by
      rw [placesFromAll, List.mem_append, mem_placesFrom_iff scope _ habove e q,
        mem_placesFromAll_iff scope position habove (index + 1) rest q]
      constructor
      · rintro (hfirst | ⟨i, child, hchild, hreach⟩)
        · exact ⟨0, e, rfl, hfirst⟩
        · exact ⟨i + 1, child, hchild, by rwa [Nat.add_right_comm] at hreach⟩
      · rintro ⟨i, child, hchild, hreach⟩
        cases i with
        | zero =>
            cases hchild
            exact .inl hreach
        | succ i =>
            refine .inr ⟨i, child, hchild, ?_⟩
            rwa [Nat.add_right_comm]

end

/-! ## The order of the rows -/

abbrev InOrder (places : List Place) : Prop :=
  places.Pairwise fun p q => p.position < q.position

theorem placesAt_inOrder {p : Place} {below : List Place} (h : p.Open state → InOrder below) :
    InOrder (placesAt state p below) := by
  unfold placesAt
  cases hvisible : state.isVisible p.key with
  | false => exact .nil
  | true =>
      cases hfield : (p.effective state).isField with
      | true => exact List.pairwise_singleton _ _
      | false => exact h ⟨hvisible, hfield⟩

theorem exists_prefix_of_mem_placesFromAll {scope : Option String} {position : List Nat}
    {above : List Place} (habove : ∀ r ∈ above, r.Open state) {index : Nat} {es : List Element}
    {q : Place} (hq : q ∈ placesFromAll state scope position above index es) :
    ∃ i, index ≤ i ∧ position ++ [i] <+: q.position := by
  obtain ⟨i, child, -, hreach, -⟩ :=
    (mem_placesFromAll_iff state scope position habove index es q).mp hq
  exact ⟨index + i, Nat.le_add_right _ _, hreach.position_extends⟩

mutual

theorem placesFrom_inOrder (scope : Option String) (position : List Nat) {above : List Place}
    (habove : ∀ r ∈ above, r.Open state) : (e : Element) →
      InOrder (placesFrom state scope position above e)
  | .container attributes kind children => by
      rw [placesFrom]
      refine placesAt_inOrder state fun hopen => ?_
      have habove' := List.forall_mem_cons.mpr ⟨hopen, habove⟩
      refine List.pairwise_flatMap.mpr ⟨fun ⟨scope', row⟩ _ =>
        placesFromAll_inOrder scope' (position ++ [row]) habove' 0 children, ?_⟩
      have hrows : ((state.scopesWithin scope
          (.container attributes kind children)).zipIdx.map Prod.snd).Pairwise (· < ·) := by
        rw [List.zipIdx_map_snd]
        exact List.pairwise_lt_range'
      refine (List.pairwise_map.mp hrows).imp fun {first second} hlt x hx y hy => ?_
      obtain ⟨i, -, hfirst⟩ := exists_prefix_of_mem_placesFromAll state habove' hx
      obtain ⟨j, -, hsecond⟩ := exists_prefix_of_mem_placesFromAll state habove' hy
      exact Place.lt_of_prefixes hlt ((List.prefix_append _ _).trans hfirst)
        ((List.prefix_append _ _).trans hsecond)
  | .field attributes traits => by
      rw [placesFrom]
      exact placesAt_inOrder state fun _ => .nil
  | .content attributes text => by
      rw [placesFrom]
      exact placesAt_inOrder state fun _ => .nil

theorem placesFromAll_inOrder (scope : Option String) (position : List Nat) {above : List Place}
    (habove : ∀ r ∈ above, r.Open state) (index : Nat) : (es : List Element) →
      InOrder (placesFromAll state scope position above index es)
  | [] => .nil
  | e :: rest => by
      rw [placesFromAll]
      refine List.pairwise_append.mpr ⟨placesFrom_inOrder scope _ habove e,
        placesFromAll_inOrder scope position habove (index + 1) rest, fun x hx y hy => ?_⟩
      have hfirst := ((mem_placesFrom_iff state scope _ habove e x).mp hx).1.position_extends
      obtain ⟨i, hlt, hsecond⟩ := exists_prefix_of_mem_placesFromAll state habove hy
      exact Place.lt_of_prefixes hlt hfirst hsecond

end

/--
The rows of a summary, whatever the state is.  They stand for places that are reached from the root
by the counts that the state records, and come in the order of these places.  A place has a row
exactly if the state has it visible, and everything around it, and if its effective element is a
field and no element around it is one; so nothing below a place that is marked invisible has a row,
whatever the state says about it.
-/
theorem rows_of_places (tree : Element) (state : FormState) :
    ∃ places : List Place,
      rows tree state = (places.map fun p =>
        { key := p.key
          label := (p.effective state).label
          value := state.values.get? p.key
          error := state.errors.get? p.key
          depth := p.above.length }) ∧
      places.Pairwise (fun p q => p.position < q.position) ∧
      ∀ p, p ∈ places ↔ (Place.root tree).Reaches state p ∧
        (∀ q ∈ p :: p.above, state.isVisible q.key = true) ∧
        (p.effective state).isField = true ∧
        ∀ q ∈ p.above, (q.effective state).isField = false := by
  refine ⟨placesFrom state none [] [] tree, rowsFrom_eq_map state none [] [] tree,
    placesFrom_inOrder state none [] (by simp) tree, fun p => ?_⟩
  rw [mem_placesFrom_iff state none [] (by simp) tree p]
  refine and_congr_right fun _ => ?_
  simp only [Place.Shown, Place.Open, List.forall_mem_cons, forall_and]
  tauto

end Summary

end FormDerivation
