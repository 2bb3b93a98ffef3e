import FormDerivation.Proofs.Derivation.Steps
import FormDerivation.Proofs.Element.Rereading

/-!
# What a patched element inherits

A patch names attributes by the keys of their stored form.  An element that is patched keeps its
kind unless the patch names a type, and it keeps every attribute that the patch does not name, up
to malformed expressions, which are read once more (`Walk.patch_inherits`).  The reason that such
an expression gives is then another one (`Walk.patch_replaces_reason`).
-/

namespace FormDerivation

open KeyMap (lookupEntry lookupEntry_append get?_insertAll get?_ofList)

/-! ## Attributes by name -/

namespace Element

def traits? : Element → Option FieldTraits
  | .field _ traits => some traits
  | _ => none

def bounds? : Element → Option RepetitionBounds
  | .container _ (.repeating bounds) _ => some bounds
  | _ => none

theorem eq_of_bounds? {element : Element} {bounds : RepetitionBounds}
    (h : element.bounds? = some bounds) :
    ∃ attributes, element = .container attributes (.repeating bounds) element.children := by
  unfold bounds? at h
  split at h
  · cases h
    exact ⟨_, rfl⟩
  · cases h

def text? : Element → Option String
  | .content _ text => some text
  | _ => none

/-- The children of an element; only those of a root fall into several parts. -/
def parts : Element → RootParts Element
  | .container _ (.root steps) children => steps.parts children
  | e => ⟨none, e.children, none, none⟩

end Element

inductive Attribute where
  | id
  | label
  | weight
  | visibility
  | patch
  | children
  | introduction
  | summary
  | submit
  | minRepetitions
  | maxRepetitions
  | fieldKind
  | required
  | constraint
  | validation
  | validationMessage
  | compute
  | text
  deriving DecidableEq

namespace Attribute

def spellings : Attribute → List String
  | .id => ["id"]
  | .label => ["label"]
  | .weight => ["weight"]
  | .visibility => Attributes.visibilityKeys
  | .patch => Attributes.patchKeys
  | .children => ["children"]
  | .introduction => ["introduction"]
  | .summary => ["summary"]
  | .submit => ["submit"]
  | .minRepetitions => ["min_repetitions"]
  | .maxRepetitions => ["max_repetitions"]
  | .fieldKind => ["field_type"]
  | .required => ["required"]
  | .constraint => ["constraint"]
  | .validation => ["validation"]
  | .validationMessage => ["validation_message"]
  | .compute => FieldTraits.computeKeys
  | .text => ["content"]

abbrev Value : Attribute → Type
  | .id => String
  | .label => String
  | .weight => Option Int
  | .children => List Element
  | .introduction => Option Element
  | .summary => Option Element
  | .submit => Option Element
  | .minRepetitions => Option Nat
  | .maxRepetitions => Option (Option Nat)
  | .fieldKind => Option FieldKind
  | .required => Option Bool
  | .constraint => Option (Option Constraint)
  | .visibility => Option Expression
  | .patch => Option Expression
  | .validation => Option (Option Expression)
  | .compute => Option (Option Expression)
  | .validationMessage => Option (Option String)
  | .text => Option String

/-- The value of an attribute; where an element may lack it, `none` stands for that. -/
def of (e : Element) : (a : Attribute) → a.Value
  | .id => e.attributes.id
  | .label => e.attributes.label
  | .weight => e.attributes.weight
  | .visibility => e.attributes.visibility
  | .patch => e.attributes.patch
  | .children => e.parts.regular
  | .introduction => e.parts.introduction
  | .summary => e.parts.summary
  | .submit => e.parts.submit
  | .minRepetitions => e.bounds?.map RepetitionBounds.min
  | .maxRepetitions => e.bounds?.map RepetitionBounds.max
  | .fieldKind => e.traits?.map FieldTraits.kind
  | .required => e.traits?.map FieldTraits.required
  | .constraint => e.traits?.map FieldTraits.constraint
  | .validation => e.traits?.map FieldTraits.validation
  | .validationMessage => e.traits?.map FieldTraits.validationMessage
  | .compute => e.traits?.map FieldTraits.compute
  | .text => e.text?

def expressions (e : Element) : Attribute → List Expression
  | .visibility => e.attributes.visibility.toList
  | .patch => e.attributes.patch.toList
  | .validation => (e.traits?.bind FieldTraits.validation).toList
  | .compute => (e.traits?.bind FieldTraits.compute).toList
  | .children => (Element.elementsAll e.parts.regular).flatMap Element.expressions
  | .introduction => (Element.elementsAll e.parts.introduction.toList).flatMap Element.expressions
  | .summary => (Element.elementsAll e.parts.summary.toList).flatMap Element.expressions
  | .submit => (Element.elementsAll e.parts.submit.toList).flatMap Element.expressions
  | _ => []

end Attribute

namespace Element

variable {m m' : List (String × Json)}

@[simp] theorem attributes_ofType (m : List (String × Json)) (type : StoredType) :
    (ofType m type).attributes = .ofMembers m := by
  cases type <;> rfl

theorem parts_ofType_root (m : List (String × Json)) :
    (ofType m .root).parts = storedParts m := by
  rw [ofType, parts, RootSteps.parts_list]

theorem kindName_ofType (type : StoredType) :
    (ofType m type).kindName = (ofType m' type).kindName := by
  cases type <;> rfl

theorem attribute_ofType_first (a : Attribute) (type : StoredType)
    (h : Json.firstMember? m a.spellings = Json.firstMember? m' a.spellings) :
    a.of (ofType m type) = a.of (ofType m' type) := by
  cases a with
  | id | label | weight =>
      simp only [Attribute.spellings, Json.firstMember?_singleton] at h
      simp only [Attribute.of, attributes_ofType, Attributes.ofMembers, Json.textMember, h]
  | visibility | patch =>
      simp only [Attribute.spellings] at h
      simp only [Attribute.of, attributes_ofType, Attributes.ofMembers, Json.expressionMember?, h]
  | children | introduction | summary | submit =>
      simp only [Attribute.spellings, Json.firstMember?_singleton] at h
      cases type with
      | root =>
          simp only [Attribute.of, parts_ofType_root, storedParts, fixedStep?_eq, childrenOf_eq, h]
      | _ => simp only [Attribute.of, ofType, parts, children, childrenOf_eq, h]
  | minRepetitions | maxRepetitions =>
      simp only [Attribute.spellings, Json.firstMember?_singleton] at h
      cases type <;> simp only [Attribute.of, ofType, bounds?, storedBounds,
        Option.map_some, Option.map_none, Json.naturalMember?, h]
  | fieldKind | required | constraint | validationMessage =>
      simp only [Attribute.spellings, Json.firstMember?_singleton] at h
      cases type <;> simp only [Attribute.of, ofType, traits?, FieldTraits.ofMembers,
        Option.map_some, Option.map_none, h]
  | validation | compute =>
      simp only [Attribute.spellings] at h
      cases type <;> simp only [Attribute.of, ofType, traits?, FieldTraits.ofMembers,
        Option.map_some, Option.map_none, Json.expressionMember?, h]
  | text =>
      simp only [Attribute.spellings, Json.firstMember?_singleton] at h
      cases type <;> simp only [Attribute.of, ofType, text?, Json.textMember, h]

theorem attribute_ofType_congr (a : Attribute) (type : StoredType)
    (h : ∀ key ∈ a.spellings, lookupEntry key m = lookupEntry key m') :
    a.of (ofType m type) = a.of (ofType m' type) :=
  attribute_ofType_first a type (Json.firstMember?_congr h)

theorem parts_reread (e : Element) : e.reread.parts = e.parts.map reread := by
  cases e with
  | container attributes kind children =>
      cases kind with
      | root steps => rw [reread, rereadAll_eq, parts, parts, RootSteps.parts_map]
      | _ => simp [reread, parts, RootParts.map]
  | _ => rfl

theorem map_reread_eq_self {e : Option Element}
    (h : ∀ x ∈ (elementsAll e.toList).flatMap expressions, x.isMalformed = false) :
    e.map reread = e := by
  cases e with
  | none => rfl
  | some e =>
      have hread := rereadAll_eq_self [e] h
      rw [rereadAll, rereadAll, List.singleton_inj] at hread
      rw [Option.map_some, hread]

theorem attribute_reread (a : Attribute) {e : Element}
    (h : ∀ x ∈ a.expressions e, x.isMalformed = false) : a.of e.reread = a.of e := by
  cases a with
  | visibility | patch => cases e <;> exact map_reread h
  | children =>
      have hread := rereadAll_eq_self e.parts.regular h
      rw [rereadAll_eq] at hread
      simp only [Attribute.of, parts_reread, RootParts.map, hread]
  | introduction | summary | submit =>
      simp only [Attribute.of, parts_reread, RootParts.map]
      exact map_reread_eq_self h
  | validation | compute =>
      cases e with
      | field attributes traits => exact congrArg some (map_reread h)
      | _ => rfl
  | minRepetitions | maxRepetitions =>
      cases e with
      | container attributes kind children => cases kind <;> rfl
      | _ => rfl
  | _ => cases e <;> rfl

end Element

/-! ## Overlays -/

theorem keys_optionalMember (key : String) (value : Option Json) :
    ((optionalMember key value).map Prod.fst).Sublist [key] := by
  cases value <;> simp [optionalMember]

theorem Attributes.keys_toMembers (a : Attributes) :
    (a.toMembers.map Prod.fst).Sublist ["id", "label", "weight", "visibility", "patch"] := by
  simp only [toMembers, List.map_append]
  exact (((List.Sublist.refl ["id", "label"]).append (keys_optionalMember _ _)).append
    (keys_optionalMember _ _)).append (keys_optionalMember _ _)

theorem FieldTraits.keys_toMembers (t : FieldTraits) :
    (t.toMembers.map Prod.fst).Sublist
      ["field_type", "required", "constraint", "validation", "validation_message",
        "compute_value"] := by
  simp only [toMembers, List.map_append]
  exact (((List.Sublist.refl ["field_type", "required"]).append (keys_optionalMember _ _)).append
    (keys_optionalMember _ _)).append (keys_optionalMember _ _) |>.append (keys_optionalMember _ _)

namespace Element

theorem keys_nodup_written (keys : List String) {own : List (String × Json)}
    (hown : (own.map Prod.fst).Sublist keys)
    (hkeys : (["type", "id", "label", "weight", "visibility", "patch"] ++ keys).Nodup)
    (type : Json) (a : Attributes) :
    ((("type", type) :: a.toMembers ++ own).map Prod.fst).Nodup := by
  refine hkeys.sublist ?_
  rw [List.map_append, List.map_cons]
  exact (a.keys_toMembers.cons_cons "type").append hown

theorem keys_members_nodup (e : Element) : (e.members.map Prod.fst).Nodup := by
  cases e with
  | container attributes kind children =>
      cases kind with
      | root steps =>
          have hown : (((steps.parts (children.map toJson)).members).map Prod.fst).Sublist
              (["introduction"] ++ ["children"] ++ ["summary"] ++ ["submit"]) := by
            simp only [RootParts.members, List.map_append]
            exact (((keys_optionalMember _ _).append (.refl _)).append
              (keys_optionalMember _ _)).append (keys_optionalMember _ _)
          exact keys_nodup_written _ hown (by decide) _ _
      | step | group =>
          exact keys_nodup_written ["children"] (.refl _) (by decide) _ _
      | repeating bounds =>
          have hown : (((Container.repeating bounds).members (children.map toJson)).map
              Prod.fst).Sublist (["children", "min_repetitions"] ++ ["max_repetitions"]) := by
            rw [Container.members, List.map_append]
            exact (List.Sublist.refl _).append (keys_optionalMember _ _)
          exact keys_nodup_written _ hown (by decide) _ _
  | field attributes traits => exact keys_nodup_written _ traits.keys_toMembers (by decide) _ _
  | content attributes text => exact keys_nodup_written ["content"] (.refl _) (by decide) _ _

@[simp] theorem lookupEntry_id_members (e : Element) :
    lookupEntry "id" e.members = some (.string e.id) := by
  cases e <;> simp [members, Attributes.toMembers]

end Element

namespace Walk

def overlaid (e : Element) (overlay : KeyMap Json) : KeyMap Json :=
  ((KeyMap.ofList e.members).insertAll overlay.toList).insertIfNew "id" (.string e.id)

theorem replacement_eq (e : Element) (overlay : KeyMap Json) :
    replacement e overlay = Element.ofType (overlaid e overlay).toList
      (.ofMembers (overlaid e overlay).toList) := by
  rw [replacement, Element.toJson_eq, Json.object?, Option.getD_some, Json.ofMap,
    Element.ofJson_object]
  rfl

/-- What an overlay has under a key goes before what the element itself has there. -/
theorem lookupEntry_overlaid (e : Element) (overlay : KeyMap Json) (key : String) :
    lookupEntry key (overlaid e overlay).toList =
      (overlay.get? key).or (lookupEntry key e.members) := by
  change (overlaid e overlay).get? key = _
  rw [overlaid, KeyMap.get?_insertIfNew, get?_insertAll overlay.keys_nodup,
    get?_ofList e.keys_members_nodup]
  change (overlay.get? key |>.or _).or _ = _
  by_cases hid : key = "id"
  · rw [hid, e.lookupEntry_id_members, if_pos rfl, Option.or_assoc, Option.or_self]
  · rw [if_neg hid, Option.or_none]

theorem replacement_eq_ofType (e : Element) {overlay : KeyMap Json}
    (htype : overlay.get? "type" = none) :
    replacement e overlay = Element.ofType (overlaid e overlay).toList (.ofMembers e.members) := by
  rw [replacement_eq, StoredType.ofMembers, lookupEntry_overlaid, htype, Option.none_or]
  rfl

theorem replacement_kindName {e : Element} (he : e.Readable) {overlay : KeyMap Json}
    (htype : overlay.get? "type" = none) : (replacement e overlay).kindName = e.kindName := by
  rw [replacement_eq_ofType e htype, ← e.kindName_reread, Element.reread_eq_ofType he]
  exact Element.kindName_ofType _

theorem replacement_inherits {e : Element} (he : e.Readable) {overlay : KeyMap Json}
    (htype : overlay.get? "type" = none) {a : Attribute}
    (ha : ∀ key ∈ a.spellings, overlay.get? key = none) :
    a.of (replacement e overlay) = a.of e.reread := by
  rw [replacement_eq_ofType e htype, Element.reread_eq_ofType he]
  refine Element.attribute_ofType_congr a _ fun key hkey => ?_
  rw [lookupEntry_overlaid, ha key hkey, Option.none_or]

/-! ## Patches -/

variable (setting : WalkSetting) (site : Site)

theorem patch_run {e : Element} {expression : Expression} {walk walk' : Walk} {value : Json}
    {overlay : KeyMap Json} (hpatch : e.attributes.patch = some expression)
    (hvalue : walk.evaluate setting site expression = (.ok value, walk'))
    (hoverlay : value.object? = some overlay) :
    (patch setting site e).run walk =
      .ok (some (replacement e overlay), recordOverride site.key (replacement e overlay) walk') := by
  have hrun : (Walk.value setting site expression).run walk = .ok (.ok value, walk') := by
    rw [value_run, hvalue]
  unfold patch
  rw [hpatch]
  rw [run_bind_of_ok hrun, settle]
  simp only [pure_bind, hoverlay]
  rfl

theorem evaluate_reread (walk : Walk) (x : Expression) :
    walk.evaluate setting site x.reread =
      if x.isMalformed then
        (.error (.formula (.malformedExpression "unknown expression kind 'malformed'")), walk)
      else walk.evaluate setting site x := by
  cases x <;> rfl

/--
What an element inherits that is patched with an object without a type.  It keeps its kind and every
attribute that the object does not name, up to malformed expressions; every other expression that it
inherits is evaluated as its own.
-/
theorem patch_inherits (j : Json) (e : Element) (he : e ∈ (Element.ofJson j).elements)
    (expression : Expression) (hpatch : e.attributes.patch = some expression) (walk walk' : Walk)
    (value : Json) (hvalue : walk.evaluate setting site expression = (.ok value, walk'))
    (overlay : KeyMap Json) (hoverlay : value.object? = some overlay)
    (htype : overlay.get? "type" = none) :
    ∃ replaced patched, (patch setting site e).run walk = .ok (some replaced, patched) ∧
      patched.state.overrides.get? site.key = some replaced ∧
      replaced.kindName = e.kindName ∧
      (∀ a : Attribute, (∀ key ∈ a.spellings, overlay.get? key = none) →
        a.of replaced = a.of e.reread ∧
        ((∀ x ∈ a.expressions e, x.isMalformed = false) → a.of replaced = a.of e)) ∧
      ∀ (later : Walk) (x : Expression), later.evaluate setting site x.reread =
        if x.isMalformed then
          (.error (.formula (.malformedExpression "unknown expression kind 'malformed'")), later)
        else later.evaluate setting site x := by
  have hreadable : e.Readable := (Element.ofJson_readable j).of_mem he
  refine ⟨_, _, patch_run setting site hpatch hvalue hoverlay, ?_,
    replacement_kindName hreadable htype, ?_, evaluate_reread setting site⟩
  · exact KeyMap.get?_insert_self _ _ _
  · intro a ha
    have hinherits := replacement_inherits hreadable htype ha
    refine ⟨hinherits, ?_⟩
    intro hunderstood
    rw [hinherits, Element.attribute_reread a hunderstood]

theorem patch_inherits_age :
    let setting : WalkSetting := ⟨⟨.ofList [("logic.if-else", Operator.ifElseOperator)]⟩, {}⟩
    let relabel : Expression := .formula (.apply "logic.if-else" [.constant (.bool true),
      .constant (.object [("label", .string "Years")]), .constant .null])
    let age : Element := .field ⟨"age", "Age", some 1, none, some relabel⟩
      ⟨.number, true, some ⟨none, none, some 3, none, none⟩, none, some "too young", none⟩
    ∃ replaced patched,
      (patch setting ⟨"age", none⟩ age).run (.start (.fresh .empty {}) .empty) =
        .ok (some replaced, patched) ∧
      replaced.kindName = "field" ∧ replaced.attributes.weight = some 1 ∧
      replaced.attributes.patch = some relabel ∧
      replaced.traits?.map FieldTraits.validationMessage = some (some "too young") := by
  intro setting relabel age
  have hreadable : age.Readable := by
    simp [age, Element.Readable, Element.elements, Element.Tidy, Attributes.InRange]
  have hage : age ∈ (Element.ofJson age.toJson).elements := by
    rw [Element.ofJson_toJson age hreadable]
    exact List.mem_singleton_self age
  obtain ⟨replaced, patched, hrun, -, hkind, hinherits, -⟩ :=
    patch_inherits setting ⟨"age", none⟩ age.toJson age hage relabel rfl
      (.start (.fresh .empty {}) .empty) _ _ rfl _ rfl rfl
  refine ⟨replaced, patched, hrun, hkind, ?_, ?_, ?_⟩
  · exact (hinherits .weight (by decide)).1
  · exact (hinherits .patch (by decide)).1
  · exact (hinherits .validationMessage (by decide)).1

/-- A group that is given another label fails with another reason than its own visibility does. -/
theorem patch_replaces_reason :
    let engine : FormEngine := ⟨⟨.ofList [("logic.if-else", Operator.ifElseOperator)]⟩, .empty, {}⟩
    let relabel : Expression := .formula (.apply "logic.if-else" [.constant (.bool true),
      .constant (.object [("label", .string "new")]), .constant .null])
    let tree : Element := .ofJson (.object [("id", .string "g"), ("type", .string "group"),
      ("visibility", .int 5), ("patch", relabel.toJson)])
    let own : Expression := .malformed (.int 5) "expression must be an object"
    tree.attributes.visibility = some own ∧
    ((Walk.start (.fresh .empty {}) .empty).evaluate ⟨engine.operators, {}⟩ ⟨"g", none⟩ own).1 =
      .error (.formula (.malformedExpression "expression must be an object")) ∧
    engine.derive tree .empty .empty = .error ⟨"g", .visibility,
      .formula (.malformedExpression "unknown expression kind 'malformed'")⟩ :=
  ⟨rfl, rfl, rfl⟩

end Walk

end FormDerivation
