import FormDerivation.Proofs.Element.Rereading
import Mathlib.Data.List.Forall2

/-!
# The order of a walk over a tree

The position of an element is the way to it from the root, by the numbers of the children.  A walk
comes to every position once and in document order (`Element.positions_inOrder`), at a depth that is
the length of the way (`Element.nodesFrom_stand`).  A search by id goes the same way, up to the
first element that it is for (`Element.find?_eq_some_iff`).
-/

namespace FormDerivation

def RootParts.root (attributes : Attributes) (parts : RootParts Element) : Element :=
  .container attributes (.root parts.steps) parts.list

namespace Element

/-! ## Positions -/

def elementAt? (e : Element) : List Nat → Option Element
  | [] => some e
  | index :: rest => e.children[index]?.bind fun child => child.elementAt? rest

/-- An element comes before what lies below it, and together with that before its later siblings. -/
inductive Precedes : List Nat → List Nat → Prop where
  | below (position : List Nat) (index : Nat) (rest : List Nat) :
      Precedes position (position ++ index :: rest)
  | beside (position : List Nat) {index later : Nat} (h : index < later) (rest rest' : List Nat) :
      Precedes (position ++ index :: rest) (position ++ later :: rest')

theorem Precedes.cons {position position' : List Nat} (h : Precedes position position')
    (index : Nat) : Precedes (index :: position) (index :: position') := by
  cases h with
  | below position below rest => exact .below (index :: position) below rest
  | beside position hlt rest rest' => exact .beside (index :: position) hlt rest rest'

theorem Precedes.ne {position position' : List Nat} (h : Precedes position position') :
    position ≠ position' := by
  cases h with
  | below position index rest => simp
  | beside position hlt rest rest' =>
      intro hsame
      rw [List.append_cancel_left_eq, List.cons.injEq] at hsame
      exact Nat.ne_of_lt hlt hsame.1

/-- All positions of a tree, each once and in document order. -/
structure InDocumentOrder (tree : Element) (positions : List (List Nat)) : Prop where
  all : ∀ position, position ∈ positions ↔ ∃ e, tree.elementAt? position = some e
  once : positions.Nodup
  ordered : positions.Pairwise Precedes

mutual

def positions : Element → List (List Nat)
  | .container _ _ children => [] :: positionsFrom 0 children
  | .field _ _ => [[]]
  | .content _ _ => [[]]

def positionsFrom (index : Nat) : List Element → List (List Nat)
  | [] => []
  | e :: rest => (positions e).map (index :: ·) ++ positionsFrom (index + 1) rest

end

def Among (es : List Element) (index : Nat) (Q : Element → List Nat → Prop)
    (position : List Nat) : Prop :=
  ∃ i child below, es[i]? = some child ∧ Q child below ∧ (index + i) :: below = position

theorem among_cons {e : Element} {rest : List Element} {index : Nat}
    {Q : Element → List Nat → Prop} {position : List Nat} :
    Among (e :: rest) index Q position ↔
      (∃ below, Q e below ∧ index :: below = position) ∨ Among rest (index + 1) Q position := by
  -- The siblings behind the first one are numbered from the next number.
  have hnext : ∀ i, index + (i + 1) = index + 1 + i := fun i => by omega
  constructor
  · rintro ⟨i, child, below, hchild, hbelow, rfl⟩
    cases i with
    | zero =>
        obtain rfl := Option.some.inj hchild
        exact .inl ⟨below, hbelow, rfl⟩
    | succ i => exact .inr ⟨i, child, below, hchild, hbelow, by rw [hnext i]⟩
  · rintro (⟨below, hbelow, rfl⟩ | ⟨i, child, below, hchild, hbelow, rfl⟩)
    · exact ⟨0, e, below, rfl, hbelow, rfl⟩
    · exact ⟨i + 1, child, below, hchild, hbelow, by rw [hnext i]⟩

theorem mem_positionsFrom {index : Nat} {es : List Element} {position : List Nat} :
    position ∈ positionsFrom index es ↔
      Among es index (fun child below => below ∈ child.positions) position := by
  induction es generalizing index with
  | nil => simp [positionsFrom, Among]
  | cons e rest ih => rw [positionsFrom, List.mem_append, List.mem_map, ih, among_cons]

theorem nil_mem_positions (e : Element) : [] ∈ e.positions := by
  cases e <;> exact List.mem_cons_self

theorem cons_mem_positions {e : Element} {index : Nat} {rest : List Nat} :
    index :: rest ∈ e.positions ↔
      ∃ child, e.children[index]? = some child ∧ rest ∈ child.positions := by
  cases e with
  | container attributes kind children =>
      simp [positions, mem_positionsFrom, Among]
  | field attributes traits => simp [positions]
  | content attributes text => simp [positions]

theorem mem_positions_iff {e : Element} {position : List Nat} :
    position ∈ e.positions ↔ ∃ x, e.elementAt? position = some x := by
  induction position generalizing e with
  | nil => simp [elementAt?, nil_mem_positions]
  | cons index rest ih =>
      simp only [cons_mem_positions, ih, elementAt?, Option.bind_eq_some_iff, ← exists_and_left]
      exact exists_comm

mutual

theorem positions_precede : (e : Element) → e.positions.Pairwise Precedes
  | .container attributes kind children => by
      rw [positions, List.pairwise_cons]
      refine ⟨fun position hposition => ?_, positionsFrom_precede 0 children⟩
      obtain ⟨i, child, below, -, -, rfl⟩ := mem_positionsFrom.mp hposition
      exact .below [] (0 + i) below
  | .field attributes traits => List.pairwise_singleton _ _
  | .content attributes text => List.pairwise_singleton _ _

theorem positionsFrom_precede (index : Nat) : (es : List Element) →
    (positionsFrom index es).Pairwise Precedes
  | [] => .nil
  | e :: rest => by
      rw [positionsFrom, List.pairwise_append, List.pairwise_map]
      -- Between two siblings the order is that of their numbers, whatever lies below them.
      refine ⟨(positions_precede e).imp fun h => h.cons index,
        positionsFrom_precede (index + 1) rest, fun position hposition later hlater => ?_⟩
      obtain ⟨below, -, rfl⟩ := List.mem_map.mp hposition
      obtain ⟨i, child, below', -, -, rfl⟩ := mem_positionsFrom.mp hlater
      exact .beside [] (by omega) below below'

end

theorem positions_inOrder (tree : Element) : tree.InDocumentOrder tree.positions where
  all := fun _ => mem_positions_iff
  once := (positions_precede tree).imp Precedes.ne
  ordered := positions_precede tree

/-! ## The nodes of a walk -/

def Stands (e : Element) (depth : Nat) (position : List Nat) (node : Nat × Element) : Prop :=
  node.1 = depth + position.length ∧ e.elementAt? position = some node.2

theorem Stands.container {attributes : Attributes} {kind : Container} {children : List Element}
    {depth : Nat} {position : List Nat} {node : Nat × Element}
    (h : Among children 0 (fun child below => child.Stands (depth + 1) below node) position) :
    (container attributes kind children).Stands depth position node := by
  obtain ⟨i, child, below, hchild, ⟨hdepth, helement⟩, rfl⟩ := h
  rw [Nat.zero_add]
  constructor
  · rw [hdepth, List.length_cons]
    omega
  · rw [elementAt?, Element.children, hchild, Option.bind_some, helement]

mutual

theorem nodesFrom_stand (depth : Nat) : (e : Element) →
    List.Forall₂ (e.Stands depth) e.positions (e.nodesFrom depth)
  | .container attributes kind children => by
      rw [positions, nodesFrom]
      have hbelow := nodesFromAll_stand (depth + 1) 0 children
      exact .cons ⟨rfl, rfl⟩ (hbelow.imp fun _ _ h => .container h)
  | .field attributes traits => .cons ⟨rfl, rfl⟩ .nil
  | .content attributes text => .cons ⟨rfl, rfl⟩ .nil

theorem nodesFromAll_stand (depth index : Nat) : (es : List Element) →
    List.Forall₂ (fun position node =>
        Among es index (fun child below => child.Stands depth below node) position)
      (positionsFrom index es) (nodesFromAll depth es)
  | [] => .nil
  | e :: rest => by
      simp only [positionsFrom, nodesFromAll, among_cons]
      refine List.rel_append (List.forall₂_map_left_iff.mpr ?_) ?_
      · exact (nodesFrom_stand depth e).imp fun position node h => .inl ⟨position, h, rfl⟩
      · exact (nodesFromAll_stand depth (index + 1) rest).imp fun position node h => .inr h

end

theorem nodesFromAll_append (depth : Nat) (first second : List Element) :
    nodesFromAll depth (first ++ second) =
      nodesFromAll depth first ++ nodesFromAll depth second := by
  induction first with
  | nil => rfl
  | cons e rest ih => rw [List.cons_append, nodesFromAll, nodesFromAll, ih, List.append_assoc]

/-! ## Roots -/

/-- The walk over a root goes through its introduction, then its other children, then its summary
and its submit step. -/
theorem nodesFrom_root (attributes : Attributes) (parts : RootParts Element) (depth : Nat) :
    (parts.root attributes).nodesFrom depth = (depth, parts.root attributes) ::
      (nodesFromAll (depth + 1) parts.introduction.toList ++
        nodesFromAll (depth + 1) parts.regular ++
        nodesFromAll (depth + 1) parts.summary.toList ++
        nodesFromAll (depth + 1) parts.submit.toList) := by
  rw [RootParts.root, nodesFrom, RootParts.list, nodesFromAll_append, nodesFromAll_append,
    nodesFromAll_append]

theorem ofJson_root {m : List (String × Json)} (h : StoredType.ofMembers m = .root) :
    ofJson (.object m) = (storedParts m).root (.ofMembers m) := by
  rw [ofJson_object, h, ofType, RootParts.root]

/-! ## Finding by id -/

mutual

theorem find?_eq (id : String) : (e : Element) →
    e.find? id = e.elements.find? fun x => x.id == id
  | .container attributes kind children => by
      rw [Element.find?, elements, List.find?_cons, findAmong?_eq id children]
      by_cases hid : attributes.id = id
      · have hfound : ((container attributes kind children).id == id) = true :=
          beq_iff_eq.mpr hid
        rw [if_pos hid, hfound]
      · have hother : ((container attributes kind children).id == id) = false :=
          beq_eq_false_iff_ne.mpr hid
        rw [if_neg hid, hother]
  | .field attributes traits => by
      rw [Element.find?, elements, List.find?_singleton]
      simp
  | .content attributes text => by
      rw [Element.find?, elements, List.find?_singleton]
      simp

theorem findAmong?_eq (id : String) : (es : List Element) →
    findAmong? id es = (elementsAll es).find? fun x => x.id == id
  | [] => rfl
  | e :: rest => by
      rw [findAmong?, elementsAll, List.find?_append, find?_eq id e, findAmong?_eq id rest]
      cases e.elements.find? fun x => x.id == id <;> rfl

end

theorem find?_eq_some_iff (tree : Element) (id : String) (found : Element) :
    tree.find? id = some found ↔ ∃ before depth after,
      tree.nodes = before ++ (depth, found) :: after ∧ found.id = id ∧
        ∀ node ∈ before, node.2.id ≠ id := by
  rw [find?_eq, ← map_nodesFrom 0 tree, List.find?_map, Option.map_eq_some_iff]
  constructor
  · rintro ⟨⟨depth, x⟩, hfind, rfl⟩
    obtain ⟨hid, before, after, hnodes, hbefore⟩ := List.find?_eq_some_iff_append.mp hfind
    refine ⟨before, depth, after, hnodes, by simpa using hid, fun node hnode => ?_⟩
    simpa using hbefore node hnode
  · rintro ⟨before, depth, after, hnodes, hid, hbefore⟩
    refine ⟨(depth, found), List.find?_eq_some_iff_append.mpr ⟨by simpa using hid, before, after,
      hnodes, fun node hnode => ?_⟩, rfl⟩
    simpa using hbefore node hnode

theorem find?_eq_none_iff (tree : Element) (id : String) :
    tree.find? id = none ↔ id ∉ tree.ids := by
  rw [find?_eq, ids_eq, List.find?_eq_none, List.mem_map]
  simp

end Element

end FormDerivation
