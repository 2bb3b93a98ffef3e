import FormDerivation.Proofs.Element.Rereading
import FormDerivation.References
import Mathlib.Data.List.Nodup

/-!
# Which references of a form are collected

References are collected under the ids of the elements, element by element, and what is collected
under an id replaces what stood there.  So of several elements with one id only the last one that
refers to anything counts (`Element.get?_references`).  Nothing is lost exactly if whatever one
element refers to is referred to by that last one of its id as well, which is so whenever no id is
used twice (`Element.references_complete`).
-/

namespace FormDerivation

/-! ## What one element refers to -/

namespace Element

def RefersTo (e : Element) (reference : String) : Prop :=
  ∃ expression ∈ e.expressions, expression.references.contains reference = true

theorem contains_foldl_references (expressions : List Expression) (set : KeySet)
    (reference : String) :
    (expressions.foldl (fun set expression => KeySet.insertAll set expression.references.keys)
        set).contains reference = true ↔
      set.contains reference = true ∨
        ∃ expression ∈ expressions, expression.references.contains reference = true := by
  induction expressions generalizing set with
  | nil => simp
  | cons expression rest ih =>
      rw [List.foldl_cons, ih, KeySet.contains_insertAll, KeyMap.mem_keys_iff]
      simp only [List.mem_cons, exists_eq_or_imp, or_assoc, or_left_comm]

@[simp] theorem contains_ownReferences (e : Element) (reference : String) :
    e.ownReferences.contains reference = true ↔ e.RefersTo reference := by
  rw [ownReferences, contains_foldl_references]
  exact or_iff_right (by simp)

theorem ownReferences_not_isEmpty {e : Element} {reference : String} (h : e.RefersTo reference) :
    e.ownReferences.isEmpty = false :=
  KeyMap.not_isEmpty_of_contains ((e.contains_ownReferences reference).mpr h)

/-! ## What is collected under an id -/

def collect (map : KeyMap KeySet) (e : Element) : KeyMap KeySet :=
  if e.ownReferences.isEmpty then map else map.insert e.id e.ownReferences

theorem references_eq_foldl (tree : Element) :
    tree.references = tree.elements.foldl collect KeyMap.empty := by
  rw [references, ← map_nodesFrom 0 tree, List.foldl_map]
  rfl

def lastReferring? (id : String) (elements : List Element) : Option Element :=
  elements.reverse.find? fun e => e.id == id && !e.ownReferences.isEmpty

theorem lastReferring?_cons (id : String) (e : Element) (rest : List Element) :
    lastReferring? id (e :: rest) =
      (lastReferring? id rest).or
        (if e.id = id ∧ e.ownReferences.isEmpty = false then some e else none) := by
  rw [lastReferring?, List.reverse_cons, List.find?_append, List.find?_singleton]
  simp [lastReferring?]

theorem get?_collect (map : KeyMap KeySet) (e : Element) (id : String) :
    (collect map e).get? id =
      if e.id = id ∧ e.ownReferences.isEmpty = false then some e.ownReferences
      else map.get? id := by
  rw [collect]
  cases hempty : e.ownReferences.isEmpty with
  | true => simp
  | false => simp [eq_comm]

theorem get?_foldl_collect (elements : List Element) (map : KeyMap KeySet) (id : String) :
    (elements.foldl collect map).get? id =
      ((lastReferring? id elements).map ownReferences).or (map.get? id) := by
  induction elements generalizing map with
  | nil => rfl
  | cons e rest ih =>
      -- What is collected from the rest hides what was there, the first element included.
      rw [List.foldl_cons, ih, get?_collect, lastReferring?_cons, Option.map_or, Option.or_assoc]
      split <;> simp

/-- Under an id stands what the last element of that id refers to, of those that refer to
anything. -/
theorem get?_references (tree : Element) (id : String) :
    tree.references.get? id = (lastReferring? id tree.elements).map ownReferences := by
  rw [references_eq_foldl, get?_foldl_collect, KeyMap.get?_empty, Option.or_none]

theorem lastReferring?_eq_some {id : String} {elements : List Element} {last : Element}
    (h : lastReferring? id elements = some last) : last ∈ elements ∧ last.id = id := by
  refine ⟨List.mem_reverse.mp (List.mem_of_find?_eq_some h), ?_⟩
  have hlast := List.find?_some h
  rw [Bool.and_eq_true, beq_iff_eq] at hlast
  exact hlast.1

theorem exists_lastReferring? {elements : List Element} {e : Element} {reference : String}
    (he : e ∈ elements) (h : e.RefersTo reference) :
    ∃ last, lastReferring? e.id elements = some last := by
  rw [← Option.isSome_iff_exists, lastReferring?, List.find?_isSome]
  exact ⟨e, List.mem_reverse.mpr he, by simp [ownReferences_not_isEmpty h]⟩

def Reports (tree : Element) (id reference : String) : Prop :=
  ∃ ids, tree.references.get? id = some ids ∧ ids.contains reference = true

theorem reports_iff (tree : Element) (id reference : String) :
    tree.Reports id reference ↔
      ∃ last, lastReferring? id tree.elements = some last ∧ last.RefersTo reference := by
  rw [Reports, get?_references]
  constructor
  · rintro ⟨ids, hids, hreference⟩
    obtain ⟨last, hlast, rfl⟩ := Option.map_eq_some_iff.mp hids
    exact ⟨last, hlast, (last.contains_ownReferences reference).mp hreference⟩
  · rintro ⟨last, hlast, hreference⟩
    exact ⟨last.ownReferences, by rw [hlast, Option.map_some],
      (last.contains_ownReferences reference).mpr hreference⟩

theorem Reports.referring {tree : Element} {id reference : String}
    (h : tree.Reports id reference) :
    ∃ e ∈ tree.elements, e.id = id ∧ e.RefersTo reference := by
  obtain ⟨last, hlast, hreference⟩ := (tree.reports_iff id reference).mp h
  obtain ⟨hmem, hid⟩ := lastReferring?_eq_some hlast
  exact ⟨last, hmem, hid, hreference⟩

theorem exists_reports_iff (tree : Element) (reference : String) :
    (∃ id, tree.Reports id reference) ↔
      ∃ ids ∈ tree.references.values, ids.contains reference = true := by
  constructor
  · rintro ⟨id, ids, hids, hreference⟩
    exact ⟨ids, (KeyMap.mem_values_iff _ ids).mpr ⟨id, hids⟩, hreference⟩
  · rintro ⟨ids, hids, hreference⟩
    obtain ⟨id, hid⟩ := (KeyMap.mem_values_iff _ ids).mp hids
    exact ⟨id, ids, hid, hreference⟩

/-! ## Nothing is lost -/

/-- Whatever an element refers to, the last element of the same id that refers to anything refers
to as well. -/
def LastRefersToAll (tree : Element) : Prop :=
  ∀ e ∈ tree.elements, ∀ last, lastReferring? e.id tree.elements = some last →
    ∀ reference, e.RefersTo reference → last.RefersTo reference

theorem reports_all_iff (tree : Element) :
    (∀ e ∈ tree.elements, ∀ reference, e.RefersTo reference → tree.Reports e.id reference) ↔
      tree.LastRefersToAll := by
  constructor
  · intro h e he last hlast reference hreference
    obtain ⟨found, hfound, hrefers⟩ := (tree.reports_iff e.id reference).mp (h e he reference hreference)
    obtain rfl : found = last := Option.some.inj (hfound.symm.trans hlast)
    exact hrefers
  · intro h e he reference hreference
    obtain ⟨last, hlast⟩ := exists_lastReferring? he hreference
    exact (tree.reports_iff e.id reference).mpr ⟨last, hlast, h e he last hlast reference hreference⟩

theorem lastRefersToAll_of_nodup {tree : Element} (h : tree.ids.Nodup) :
    tree.LastRefersToAll := by
  intro e he last hlast reference hreference
  obtain ⟨hmem, hid⟩ := lastReferring?_eq_some hlast
  rw [ids_eq] at h
  rw [List.inj_on_of_nodup_map h hmem he hid]
  exact hreference

end Element

/-! ## References that no element explains -/

namespace ReferenceReport

def Explains (id reference : String) : Prop :=
  reference = id ∨ ∃ start, reference = start ++ "_" ++ id

theorem endsWith_iff (text ending : String) :
    endsWith text ending = true ↔ ∃ start, text = start ++ ending := by
  rw [endsWith, Option.isSome_iff_exists]
  simp only [Text.dropBeginning?_eq_some_iff]
  constructor
  · rintro ⟨rest, hrest⟩
    refine ⟨String.ofList rest.reverse, String.toList_inj.mp ?_⟩
    rw [String.toList_append, String.toList_ofList, ← List.reverse_inj, List.reverse_append,
      List.reverse_reverse, hrest]
  · rintro ⟨start, rfl⟩
    exact ⟨start.toList.reverse, by rw [String.toList_append, List.reverse_append]⟩

theorem explains_iff (id reference : String) :
    explains id reference = true ↔ Explains id reference := by
  rw [explains, Bool.or_eq_true, beq_iff_eq, endsWith_iff, Explains]
  simp only [String.append_assoc, eq_comm]

theorem unresolved_contains (tree : Element) (reference : String) :
    (ofTree tree).unresolved.contains reference = true ↔
      (∃ id, tree.Reports id reference) ∧ ∀ id ∈ tree.ids, ¬ Explains id reference := by
  rw [tree.exists_reports_iff, ofTree, KeySet.contains_ofList, List.mem_filter, List.mem_flatMap]
  simp only [KeyMap.mem_keys_iff, Bool.not_eq_true', List.any_eq_false, explains_iff]

end ReferenceReport

namespace Element

/-- Nothing that an expression refers to is lost exactly if the last element of each id refers to
all that any element of that id refers to.  Then the references that are collected are those of the
expressions, and those that no id explains are all reported. -/
theorem references_complete (tree : Element) :
    ((∀ e ∈ tree.elements, ∀ reference, e.RefersTo reference → tree.Reports e.id reference) ↔
      tree.LastRefersToAll) ∧
    (tree.LastRefersToAll → ∀ reference,
      ((∃ ids ∈ tree.references.values, ids.contains reference = true) ↔
        ∃ e ∈ tree.elements, e.RefersTo reference) ∧
      ((ReferenceReport.ofTree tree).unresolved.contains reference = true ↔
        (∃ e ∈ tree.elements, e.RefersTo reference) ∧
          ∀ id ∈ tree.ids, ¬ ReferenceReport.Explains id reference)) ∧
    (tree.ids.Nodup → tree.LastRefersToAll) := by
  refine ⟨tree.reports_all_iff, fun hlast reference => ?_, lastRefersToAll_of_nodup⟩
  have hreported : (∃ id, tree.Reports id reference) ↔ ∃ e ∈ tree.elements, e.RefersTo reference := by
    constructor
    · rintro ⟨id, hid⟩
      obtain ⟨e, he, -, hreference⟩ := hid.referring
      exact ⟨e, he, hreference⟩
    · rintro ⟨e, he, hreference⟩
      exact ⟨e.id, tree.reports_all_iff.mpr hlast e he reference hreference⟩
  exact ⟨(tree.exists_reports_iff reference).symm.trans hreported,
    by rw [ReferenceReport.unresolved_contains, hreported]⟩

/-! ## Two elements of one id -/

def isMissing (id : String) : Expression :=
  .formula (.apply "compare.is-null" [.reference id])

def namesake (reference : String) : Element :=
  .content ⟨"a", "", none, some (isMissing reference), none⟩ ""

def storedNamesake (reference : String) : List (String × Json) :=
  [("type", .string "content"), ("id", .string "a"), ("visibility", (isMissing reference).toJson)]

def storedNamesakes (first second : String) : List (String × Json) :=
  [("type", .string "group"), ("id", .string "g"),
    ("children", .array [.object (storedNamesake first), .object (storedNamesake second)])]

theorem ofJson_storedNamesake (reference : String) :
    ofJson (.object (storedNamesake reference)) = namesake reference := by
  have htype : StoredType.ofMembers (storedNamesake reference) = .content :=
    (by decide : StoredType.ofName "content" = .content)
  rw [ofJson_object, htype]
  rfl

theorem ofJson_storedNamesakes (first second : String) :
    ofJson (.object (storedNamesakes first second)) =
      .container ⟨"g", "", none, none, none⟩ .group [namesake first, namesake second] := by
  have htype : StoredType.ofMembers (storedNamesakes first second) = .group :=
    (by decide : StoredType.ofName "group" = .group)
  have hchildren : childrenOf (storedNamesakes first second) =
      [namesake first, namesake second] := by
    rw [← ofJson_storedNamesake, ← ofJson_storedNamesake]
    rfl
  rw [ofJson_object, htype, ofType, hchildren]
  rfl

theorem namesake_refersTo (reference : String) : (namesake reference).RefersTo reference :=
  ⟨isMissing reference, List.mem_cons_self,
    (KeySet.contains_ofList [reference] reference).mpr List.mem_cons_self⟩

theorem references_complete_namesakes :
    let tree := ofJson (.object (storedNamesakes "x" "x"))
    tree.ids = ["g", "a", "a"] ∧
    (∀ e ∈ tree.elements, ∀ reference, e.RefersTo reference → tree.Reports e.id reference) ∧
    (ReferenceReport.ofTree tree).unresolved.contains "x" = true := by
  rw [ofJson_storedNamesakes]
  intro tree
  have hlast : tree.LastRefersToAll := by
    intro e he last hlast reference hreference
    simp only [tree, elements, elementsAll, namesake, List.append_nil, List.mem_cons,
      List.not_mem_nil, List.cons_append, List.nil_append, or_false, or_self] at he
    rcases he with rfl | rfl
    · obtain ⟨expression, hexpression, -⟩ := hreference
      cases hexpression
    · obtain rfl : namesake "x" = last := Option.some.inj hlast
      exact hreference
  obtain ⟨hreports, hcomplete, -⟩ := references_complete tree
  refine ⟨rfl, hreports.mpr hlast, (hcomplete hlast "x").2.mpr ⟨?_, fun id hid => ?_⟩⟩
  · exact ⟨namesake "x", List.mem_cons_of_mem _ List.mem_cons_self, namesake_refersTo "x"⟩
  · rw [← ReferenceReport.explains_iff]
    revert id
    decide

/-- What the first of two elements of one id refers to is neither collected nor reported. -/
theorem references_replaced :
    let tree := ofJson (.object (storedNamesakes "x" "y"))
    ∃ e ∈ tree.elements, e.RefersTo "x" ∧ ¬ tree.Reports e.id "x" ∧
      (∀ ids ∈ tree.references.values, ids.contains "x" = false) ∧
      (∀ id ∈ tree.ids, ¬ ReferenceReport.Explains id "x") ∧
      (ReferenceReport.ofTree tree).unresolved.contains "x" = false := by
  rw [ofJson_storedNamesakes]
  refine ⟨namesake "x", List.mem_cons_of_mem _ List.mem_cons_self, namesake_refersTo "x", ?_, ?_,
    fun id hid => ?_, rfl⟩
  · rintro ⟨ids, hids, hreference⟩
    obtain rfl := Option.some.inj hids
    cases hreference
  · intro ids hids
    obtain rfl := List.mem_singleton.mp hids
    rfl
  · rw [← ReferenceReport.explains_iff]
    revert id
    decide

end Element

end FormDerivation
