import FormDerivation.Proofs.Element.Rereading

/-!
# Which elements survive being written and read

Reading a written element gives the element back, expressions apart, and each expression unless it
is malformed (`Element.ofJson_toJson`).  A malformed expression never comes back: what is kept of it
is the whole of what was written, which holds the value that was kept before.  So exactly the trees
without malformed expressions are read back as they are (`Element.ofJson_toJson_eq_iff`).
-/

namespace FormDerivation

/-! ## Sizes of stored values -/

namespace Json

mutual

def size : Json → Nat
  | .array items => sizeItems items + 1
  | .object members => sizeMembers members + 1
  | _ => 1

def sizeItems : List Json → Nat
  | [] => 0
  | item :: rest => size item + sizeItems rest

def sizeMembers : List (String × Json) → Nat
  | [] => 0
  | (_, value) :: rest => size value + sizeMembers rest

end

mutual

theorem size_eq_of_same : (a b : Json) → same a b = true → a.size = b.size
  | .array as, .array bs, h => by
      rw [size, size, sizeItems_eq_of_same as bs (by simpa [same] using h)]
  | .object as, .object bs, h => by
      rw [size, size, sizeMembers_eq_of_same as bs (by simpa [same] using h)]
  | .null, b, h | .bool _, b, h | .int _, b, h | .float _, b, h | .string _, b, h => by
      cases b <;> simp_all [same, size]
  | .array _, .null, h | .array _, .bool _, h | .array _, .int _, h | .array _, .float _, h
  | .array _, .string _, h | .array _, .object _, h => by simp [same] at h
  | .object _, .null, h | .object _, .bool _, h | .object _, .int _, h | .object _, .float _, h
  | .object _, .string _, h | .object _, .array _, h => by simp [same] at h

theorem sizeItems_eq_of_same : (as bs : List Json) → sameItems as bs = true →
    sizeItems as = sizeItems bs
  | [], [], _ => rfl
  | [], _ :: _, h => by simp [sameItems] at h
  | _ :: _, [], h => by simp [sameItems] at h
  | a :: as, b :: bs, h => by
      simp only [sameItems, Bool.and_eq_true] at h
      rw [sizeItems, sizeItems, size_eq_of_same a b h.1, sizeItems_eq_of_same as bs h.2]

theorem sizeMembers_eq_of_same : (as bs : List (String × Json)) → sameMembers as bs = true →
    sizeMembers as = sizeMembers bs
  | [], [], _ => rfl
  | [], _ :: _, h => by simp [sameMembers] at h
  | _ :: _, [], h => by simp [sameMembers] at h
  | (_, a) :: as, (_, b) :: bs, h => by
      simp only [sameMembers, Bool.and_eq_true] at h
      rw [sizeMembers, sizeMembers, size_eq_of_same a b h.1.2, sizeMembers_eq_of_same as bs h.2]

end

end Json

/-! ## Expressions -/

namespace Expression

def keptSize : Expression → Nat
  | .malformed raw _ => raw.size
  | _ => 0

theorem keptSize_eq_of_same {e f : Expression} (h : e.same f = true) : e.keptSize = f.keptSize := by
  cases e with
  | malformed raw reason =>
      cases f with
      | malformed raw' reason' =>
          simp only [same, Bool.and_eq_true] at h
          exact Json.size_eq_of_same raw raw' h.1
      | _ => simp [same] at h
  | _ => cases f <;> simp_all [same, keptSize]

theorem keptSize_lt_reread {e : Expression} (h : e.isMalformed = true) :
    e.keptSize < e.reread.keptSize := by
  cases e with
  | script code => cases h
  | formula formula => cases h
  | malformed raw reason =>
      simp only [reread, toJson, keptSize, Json.size, Json.sizeMembers]
      omega

theorem not_malformed_of_reread_same {e : Expression} (h : e.reread.same e = true) :
    e.isMalformed = false := by
  cases hmalformed : e.isMalformed with
  | false => rfl
  | true =>
      have hsize := keptSize_eq_of_same h
      have hlt := keptSize_lt_reread hmalformed
      omega

theorem reread_eq_self_iff {e : Expression} : e.reread = e ↔ e.isMalformed = false := by
  refine ⟨fun h => ?_, reread_eq_self⟩
  cases hmalformed : e.isMalformed with
  | false => rfl
  | true =>
      have hlt := keptSize_lt_reread hmalformed
      rw [h] at hlt
      omega

end Expression

namespace Element

/-! ## Expressions of a tree -/

def allExpressions (e : Element) : List Expression :=
  e.elements.flatMap expressions

theorem expressions_reread (e : Element) :
    e.reread.expressions = e.expressions.map Expression.reread := by
  cases e <;>
    simp [reread, expressions, Attributes.reread, FieldTraits.reread, Option.toList_map]

mutual

theorem elements_reread : (e : Element) → e.reread.elements = e.elements.map reread
  | .container attributes kind children => by
      rw [reread, elements, elements, List.map_cons, elementsAll_reread children, reread]
  | .field attributes traits => rfl
  | .content attributes text => rfl

theorem elementsAll_reread : (es : List Element) →
    elementsAll (rereadAll es) = (elementsAll es).map reread
  | [] => rfl
  | e :: rest => by
      rw [rereadAll, elementsAll, elementsAll, List.map_append, elements_reread e,
        elementsAll_reread rest]

end

theorem allExpressions_reread (e : Element) :
    e.reread.allExpressions = e.allExpressions.map Expression.reread := by
  simp only [allExpressions, elements_reread, List.flatMap_map, List.map_flatMap,
    expressions_reread]

/-! ## Expressions of equal trees -/

def SameExpressions (es fs : List Expression) : Prop :=
  List.Forall₂ (fun e f => e.same f = true) es fs

theorem sameExpressions_toList {e f : Option Expression}
    (h : sameOption Expression.same e f = true) : SameExpressions e.toList f.toList := by
  cases e <;> cases f <;> simp_all [sameOption, SameExpressions]

theorem SameExpressions.append {es fs es' fs' : List Expression} (h : SameExpressions es fs)
    (h' : SameExpressions es' fs') : SameExpressions (es ++ es') (fs ++ fs') :=
  List.rel_append h h'

theorem sameExpressions_attributes {a b : Attributes} (h : a.same b = true) :
    SameExpressions (a.visibility.toList ++ a.patch.toList)
      (b.visibility.toList ++ b.patch.toList) := by
  simp only [Attributes.same, Bool.and_eq_true] at h
  exact (sameExpressions_toList h.1.2).append (sameExpressions_toList h.2)

theorem sameExpressions_traits {s t : FieldTraits} (h : s.same t = true) :
    SameExpressions (s.validation.toList ++ s.compute.toList)
      (t.validation.toList ++ t.compute.toList) := by
  simp only [FieldTraits.same, Bool.and_eq_true] at h
  exact (sameExpressions_toList h.1.1.2).append (sameExpressions_toList h.2)

mutual

theorem sameExpressions_of_same : (e f : Element) → e.same f = true →
    SameExpressions e.allExpressions f.allExpressions
  | .container a kind children, .container b other others, h => by
      simp only [same, Bool.and_eq_true] at h
      simp only [allExpressions, elements, List.flatMap_cons]
      exact (sameExpressions_attributes h.1.1).append
        (sameExpressions_of_sameAll children others h.2)
  | .field a traits, .field b others, h => by
      simp only [same, Bool.and_eq_true] at h
      simp only [allExpressions, elements, List.flatMap_singleton, expressions]
      simpa [SameExpressions, List.append_assoc] using
        (sameExpressions_attributes h.1).append (sameExpressions_traits h.2)
  | .content a text, .content b other, h => by
      simp only [same, Bool.and_eq_true] at h
      simp only [allExpressions, elements, List.flatMap_singleton]
      exact sameExpressions_attributes h.1
  | .container _ _ _, .field _ _, h | .container _ _ _, .content _ _, h
  | .field _ _, .container _ _ _, h | .field _ _, .content _ _, h
  | .content _ _, .container _ _ _, h | .content _ _, .field _ _, h => by simp [same] at h

theorem sameExpressions_of_sameAll : (es fs : List Element) → sameAll es fs = true →
    SameExpressions ((elementsAll es).flatMap expressions) ((elementsAll fs).flatMap expressions)
  | [], [], _ => List.Forall₂.nil
  | [], _ :: _, h => by simp [sameAll] at h
  | _ :: _, [], h => by simp [sameAll] at h
  | e :: es, f :: fs, h => by
      simp only [sameAll, Bool.and_eq_true] at h
      simp only [elementsAll, List.flatMap_append]
      exact (sameExpressions_of_same e f h.1).append (sameExpressions_of_sameAll es fs h.2)

end

/-! ## Trees that are read back -/

theorem not_malformed_of_reread_eq {e : Element} (h : e.reread = e) :
    ∀ x ∈ e.allExpressions, x.isMalformed = false := by
  have hmap : e.allExpressions.map Expression.reread = e.allExpressions.map fun x => x := by
    rw [← allExpressions_reread, h, List.map_id']
  exact fun x hx => Expression.reread_eq_self_iff.mp (List.map_inj_left.mp hmap x hx)

theorem not_malformed_of_reread_same {e : Element} (h : e.reread.same e = true) :
    ∀ x ∈ e.allExpressions, x.isMalformed = false := by
  have hsame := sameExpressions_of_same _ _ h
  rw [allExpressions_reread, SameExpressions, List.forall₂_map_left_iff,
    List.forall₂_same] at hsame
  exact fun x hx => Expression.not_malformed_of_reread_same (hsame x hx)

/--
An element that has been read is written and read back as it is exactly if no element of its tree
has a malformed expression; otherwise it is another one also by the equality of trees.  In any case
nothing but malformed expressions changes.
-/
theorem ofJson_toJson_eq_iff (j : Json) :
    (ofJson (ofJson j).toJson = ofJson j ↔
      ∀ e ∈ (ofJson j).elements, ∀ x ∈ e.expressions, x.isMalformed = false) ∧
    ((ofJson (ofJson j).toJson == ofJson j) = true →
      ∀ e ∈ (ofJson j).elements, ∀ x ∈ e.expressions, x.isMalformed = false) ∧
    ofJson (ofJson j).toJson = (ofJson j).reread := by
  have hread : ofJson (ofJson j).toJson = (ofJson j).reread :=
    ofJson_toJson _ (ofJson_readable j)
  have hall : (∀ x ∈ (ofJson j).allExpressions, x.isMalformed = false) ↔
      ∀ e ∈ (ofJson j).elements, ∀ x ∈ e.expressions, x.isMalformed = false := by
    simp only [allExpressions, List.forall_mem_flatMap]
  -- The equality of trees compares floats by value, so it is no instance of the first part.
  rw [hread, ← hall]
  exact ⟨⟨not_malformed_of_reread_eq, reread_eq_self _⟩, not_malformed_of_reread_same, rfl⟩

end Element

end FormDerivation
