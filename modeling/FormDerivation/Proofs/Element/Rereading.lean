import FormDerivation.Element.Stored
import FormDerivation.Proofs.Element.Names
import FormDerivation.Proofs.Expression.Rereading
import FormDerivation.Proofs.KeyMap
import Mathlib.Data.List.Sort

/-!
# Reading written elements

An element that has been read is written and read back as it is, except that its malformed
expressions are read once more (`Element.ofJson_toJson`).  What `ofJson` makes of an object depends
on its members only through lookups (`Element.ofJson_object`).
-/

namespace FormDerivation

open KeyMap (lookupEntry lookupEntry_append)

/-! ## Members -/

@[simp] theorem lookupEntry_optionalMember (key name : String) (value : Option Json) :
    lookupEntry key (optionalMember name value) = if key = name then value else none := by
  cases value <;> simp [optionalMember]

namespace Json

variable {m m' : List (String × Json)}

@[simp] theorem firstMember?_singleton (m : List (String × Json)) (key : String) :
    firstMember? m [key] = lookupEntry key m :=
  Option.or_none

theorem firstMember?_congr {keys : List String}
    (h : ∀ key ∈ keys, lookupEntry key m = lookupEntry key m') :
    firstMember? m keys = firstMember? m' keys := by
  induction keys with
  | nil => rfl
  | cons key rest ih =>
      rw [firstMember?, firstMember?, h key List.mem_cons_self,
        ih fun key hkey => h key (List.mem_cons_of_mem _ hkey)]

theorem expressionMember?_congr {keys : List String}
    (h : ∀ key ∈ keys, lookupEntry key m = lookupEntry key m') :
    expressionMember? m keys = expressionMember? m' keys := by
  simp only [expressionMember?, firstMember?_congr h]

theorem expressionMember?_written {keys : List String} {expression : Option Expression}
    (h : firstMember? m keys = expression.map Expression.toJson) :
    expressionMember? m keys = expression.map Expression.reread := by
  rw [expressionMember?, h]
  cases expression with
  | none => rfl
  | some e =>
      rw [Option.map_some, Option.map_some, ← Expression.ofJson_toJson]
      cases e with
      | script code => rfl
      | formula formula => cases formula; rfl
      | malformed raw reason => rfl

end Json

/-! ## Attributes and traits -/

def Attributes.InRange (a : Attributes) : Prop :=
  ∀ weight, a.weight = some weight → weight ≤ 9223372036854775807

def Attributes.reread (a : Attributes) : Attributes :=
  { a with
    visibility := a.visibility.map Expression.reread
    patch := a.patch.map Expression.reread }

def FieldTraits.reread (t : FieldTraits) : FieldTraits :=
  { t with
    validation := t.validation.map Expression.reread
    compute := t.compute.map Expression.reread }

theorem Attributes.ofMembers_inRange (m : List (String × Json)) : (ofMembers m).InRange := by
  intro weight h
  simp only [ofMembers] at h
  obtain ⟨j, -, hj⟩ := Option.bind_eq_some_iff.mp h
  cases j with
  | int n =>
      simp only [Json.int64?, Option.ite_none_right_eq_some, Option.some.injEq] at hj
      omega
  | _ => cases hj

def Attributes.keys : List String :=
  ["id", "label", "weight"] ++ visibilityKeys ++ patchKeys

def FieldTraits.keys : List String :=
  ["field_type", "required", "constraint", "validation", "validation_message"] ++ computeKeys

theorem Attributes.ofMembers_toMembers {a : Attributes} (h : a.InRange)
    {m : List (String × Json)} (hm : ∀ key ∈ keys, lookupEntry key m = lookupEntry key a.toMembers) :
    ofMembers m = a.reread := by
  simp only [keys, visibilityKeys, patchKeys, List.cons_append, List.nil_append, List.mem_cons,
    List.not_mem_nil, or_false, forall_eq_or_imp, forall_eq, toMembers, lookupEntry_append,
    lookupEntry_optionalMember, lookupEntry] at hm
  obtain ⟨hid, hlabel, hweight, hvisibility, hvisible, hpatch, hoverride⟩ := hm
  have hread : (a.weight.map Json.int).bind Json.int64? = a.weight := by
    cases hw : a.weight with
    | none => rfl
    | some weight => simp [Json.int64?, h weight hw]
  unfold ofMembers reread
  congr 1
  · simp [Json.textMember, hid]
  · simp [Json.textMember, hlabel]
  · simpa [hweight] using hread
  · exact Json.expressionMember?_written (by
      simp [visibilityKeys, Json.firstMember?, hvisibility, hvisible])
  · exact Json.expressionMember?_written (by
      simp [patchKeys, Json.firstMember?, hpatch, hoverride])

@[simp] theorem FieldKind.ofName?_name (kind : FieldKind) : ofName? kind.name = some kind := by
  cases kind <;> decide

namespace Json.Shape

theorem membersMismatch?_append (m m' : List (String × Json))
    (fields : List (String × Bool × Shape)) :
    membersMismatch? (m ++ m') fields =
      (membersMismatch? m fields).or (membersMismatch? m' fields) := by
  induction m with
  | nil => simp [membersMismatch?]
  | cons entry rest ih =>
      obtain ⟨key, value⟩ := entry
      rw [List.cons_append, membersMismatch?, membersMismatch?, ih, Option.or_assoc]

theorem membersMismatch?_optionalMember {α : Type} {write : α → Json} {key : String}
    {fields : List (String × Bool × Shape)} {shape : Shape}
    (hwrite : ∀ a, mismatch? (write a) shape = none) (value : Option α)
    (hfield : field? key fields = some shape) :
    membersMismatch? (optionalMember key (value.map write)) fields = none := by
  cases value with
  | none => rfl
  | some a => simp [optionalMember, membersMismatch?, hfield, hwrite]

end Json.Shape

theorem Constraint.mismatch?_toJson (c : Constraint) :
    Json.Shape.mismatch? c.toJson (.record "Constraint" fields) = none := by
  have htext : ∀ s, Json.Shape.mismatch? (.string s) (.optional .text) = none := fun _ => rfl
  have hnatural : ∀ n, Json.Shape.mismatch? (Json.ofNat n) (.optional (.natural "usize")) = none := by
    intro n
    simp [Json.ofNat, Json.Shape.mismatch?, Json.Shape.withoutOption]
  have hfloat : ∀ x, Json.Shape.mismatch? (.float x) (.optional .float) = none := fun _ => rfl
  have hmissing : ∀ m, Json.Shape.missing? m fields = none := fun _ => rfl
  simp only [toJson, Json.Shape.mismatch?, Json.Shape.withoutOption,
    Json.Shape.membersMismatch?_append, hmissing]
  rw [Json.Shape.membersMismatch?_optionalMember htext,
    Json.Shape.membersMismatch?_optionalMember hnatural,
    Json.Shape.membersMismatch?_optionalMember hnatural,
    Json.Shape.membersMismatch?_optionalMember hfloat,
    Json.Shape.membersMismatch?_optionalMember hfloat]
  all_goals rfl

theorem Constraint.ofJson?_toJson (c : Constraint) : ofJson? c.toJson = some c := by
  rw [ofJson?, mismatch?_toJson]
  obtain ⟨pattern, minLength, maxLength, min, max⟩ := c
  simp only [toJson, Json.recordMembers, Json.naturalMember?, lookupEntry_append,
    lookupEntry_optionalMember, String.reduceEq, if_true, if_false, Option.or_none,
    Option.none_or]
  cases pattern <;> cases minLength <;> cases maxLength <;> cases min <;> cases max <;> rfl

theorem FieldTraits.ofMembers_toMembers (t : FieldTraits) {m : List (String × Json)}
    (hm : ∀ key ∈ keys, lookupEntry key m = lookupEntry key t.toMembers) :
    ofMembers none m = t.reread := by
  simp only [keys, computeKeys, List.cons_append, List.nil_append, List.mem_cons,
    List.not_mem_nil, or_false, forall_eq_or_imp, forall_eq, toMembers, lookupEntry_append,
    lookupEntry_optionalMember, lookupEntry] at hm
  obtain ⟨hkind, hrequired, hconstraint, hvalidation, hmessage, hcompute, hcomputed⟩ := hm
  unfold ofMembers reread
  congr 1
  · simp [hkind, Json.string?]
  · simp [hrequired, Json.bool?]
  · rw [hconstraint]
    cases t.constraint with
    | none => simp
    | some c => simp [Constraint.ofJson?_toJson]
  · exact Json.expressionMember?_written (by simp [hvalidation])
  · rw [hmessage]
    cases t.validationMessage <;> simp [Json.string?]
  · exact Json.expressionMember?_written (by
      simp [computeKeys, Json.firstMember?, hcompute, hcomputed])

/-! ## Children by the member that they are stored in -/

/-- Children of a root: its fixed steps and, between them, the others. -/
structure RootParts (α : Type) where
  introduction : Option α
  regular : List α
  summary : Option α
  submit : Option α

namespace RootParts

variable {α β : Type}

def list (p : RootParts α) : List α :=
  p.introduction.toList ++ p.regular ++ p.summary.toList ++ p.submit.toList

def steps (p : RootParts α) : RootSteps :=
  ⟨p.introduction.isSome, p.summary.isSome, p.submit.isSome⟩

def map (f : α → β) (p : RootParts α) : RootParts β :=
  ⟨p.introduction.map f, p.regular.map f, p.summary.map f, p.submit.map f⟩

def members (p : RootParts Json) : List (String × Json) :=
  optionalMember "introduction" p.introduction ++ [("children", .array p.regular)] ++
    optionalMember "summary" p.summary ++ optionalMember "submit" p.submit

theorem list_map (f : α → β) (p : RootParts α) : (p.map f).list = p.list.map f := by
  obtain ⟨introduction, regular, summary, submit⟩ := p
  cases introduction <;> cases summary <;> cases submit <;> simp [list, map]

theorem steps_map (f : α → β) (p : RootParts α) : (p.map f).steps = p.steps := by
  simp [steps, map]

end RootParts

def RootSteps.parts {α : Type} (steps : RootSteps) (children : List α) : RootParts α :=
  let first := steps.introduction.toNat
  let last := steps.summary.toNat + steps.submit.toNat
  let trailing := children.drop (children.length - last)
  { introduction := if steps.introduction then children.head? else none
    regular := (children.drop first).take (children.length - last - first)
    summary := if steps.summary then trailing.head? else none
    submit := if steps.submit then trailing.getLast? else none }

theorem RootSteps.parts_list {α : Type} (p : RootParts α) : p.steps.parts p.list = p := by
  obtain ⟨introduction, regular, summary, submit⟩ := p
  cases introduction <;> cases summary <;> cases submit <;>
    simp [RootParts.list, RootParts.steps, RootSteps.parts]

theorem RootSteps.parts_map {α β : Type} (f : α → β) (steps : RootSteps) (children : List α) :
    steps.parts (children.map f) = (steps.parts children).map f := by
  simp only [parts, RootParts.map, List.length_map, ← List.map_drop, ← List.map_take,
    List.head?_map, List.getLast?_map]
  obtain ⟨introduction, summary, submit⟩ := steps
  cases introduction <;> cases summary <;> cases submit <;> rfl

theorem RootSteps.members_eq (steps : RootSteps) (children : List Json) :
    steps.members children = (steps.parts children).members := by
  obtain ⟨introduction, summary, submit⟩ := steps
  cases introduction <;> cases summary <;> cases submit <;> rfl

namespace Element

/-! ## Siblings in order -/

def NotHeavier (a b : Element) : Prop :=
  a.rank ≤ b.rank

instance : DecidableRel NotHeavier :=
  fun a b => inferInstanceAs (Decidable (a.rank ≤ b.rank))

instance : Std.Total NotHeavier :=
  ⟨fun a b => le_total a.rank b.rank⟩

instance : IsTrans Element NotHeavier :=
  ⟨fun _ _ _ => le_trans⟩

theorem insertByRank_eq (e : Element) (es : List Element) :
    insertByRank e es = es.orderedInsert NotHeavier e := by
  induction es with
  | nil => rfl
  | cons sibling rest ih =>
      rw [insertByRank, List.orderedInsert_cons, ih]
      rfl

theorem sortByRank_eq (es : List Element) : sortByRank es = es.insertionSort NotHeavier := by
  induction es with
  | nil => rfl
  | cons e rest ih => rw [sortByRank, ih, insertByRank_eq, List.insertionSort_cons]

/-! ## Reading by lookups -/

theorem ofItems_eq (items : List Json) : ofItems items = items.map ofJson := by
  induction items with
  | nil => rfl
  | cons item rest ih => rw [ofItems, ih, List.map_cons]

theorem toJsonAll_eq (es : List Element) : toJsonAll es = es.map toJson := by
  induction es with
  | nil => rfl
  | cons e rest ih => rw [toJsonAll, ih, List.map_cons]

theorem childrenOf_eq (m : List (String × Json)) :
    childrenOf m = ((lookupEntry "children" m).map elementsOf).getD [] := by
  induction m with
  | nil => rfl
  | cons entry rest ih =>
      obtain ⟨key, value⟩ := entry
      rw [childrenOf, lookupEntry, ih]
      by_cases hkey : "children" = key
      · simp [← hkey]
      · simp [hkey, Ne.symm hkey]

def storedStep? (j : Json) : Option Element :=
  if j.isObject then some (asStep (ofJson j)) else none

theorem fixedStep?_eq (name : String) (m : List (String × Json)) :
    fixedStep? name m = (lookupEntry name m).bind storedStep? := by
  induction m with
  | nil => rfl
  | cons entry rest ih =>
      obtain ⟨key, value⟩ := entry
      rw [fixedStep?, lookupEntry, ih]
      by_cases hkey : name = key
      · simp [← hkey, storedStep?]
      · simp [hkey, Ne.symm hkey]

def storedParts (m : List (String × Json)) : RootParts Element where
  introduction := fixedStep? "introduction" m
  regular := sortByRank (childrenOf m)
  summary := fixedStep? "summary" m
  submit := fixedStep? "submit" m

def storedBounds (m : List (String × Json)) : RepetitionBounds where
  min := (Json.naturalMember? m "min_repetitions").getD 0
  max := Json.naturalMember? m "max_repetitions"

def ofType (m : List (String × Json)) : StoredType → Element
  | .root => .container (.ofMembers m) (.root (storedParts m).steps) (storedParts m).list
  | .step => .container (.ofMembers m) .step (sortByRank (childrenOf m))
  | .group => .container (.ofMembers m) .group (sortByRank (childrenOf m))
  | .repeating =>
    .container (.ofMembers m) (.repeating (storedBounds m)) (sortByRank (childrenOf m))
  | .field kind => .field (.ofMembers m) (.ofMembers kind m)
  | .content => .content (.ofMembers m) (Json.textMember m "content")

theorem ofJson_object (m : List (String × Json)) :
    ofJson (.object m) = ofType m (.ofMembers m) := by
  unfold ofJson
  cases StoredType.ofMembers m <;> rfl

/-! ## Elements that have been read -/

theorem mem_elementsAll {x : Element} {es : List Element} :
    x ∈ elementsAll es ↔ ∃ e ∈ es, x ∈ e.elements := by
  induction es with
  | nil => simp [elementsAll]
  | cons e rest ih => simp [elementsAll, ih]

mutual

theorem elements_subset {x : Element} : (e : Element) → x ∈ e.elements →
    x.elements ⊆ e.elements
  | .container attributes kind children, h => by
      rw [elements] at h ⊢
      rcases List.mem_cons.mp h with rfl | h
      · rw [elements]
        exact List.Subset.refl _
      · exact List.Subset.trans (elementsAll_subset children h) (List.subset_cons_self _ _)
  | .field attributes traits, h => by
      cases List.mem_singleton.mp h
      exact List.Subset.refl _
  | .content attributes text, h => by
      cases List.mem_singleton.mp h
      exact List.Subset.refl _

theorem elementsAll_subset {x : Element} : (es : List Element) → x ∈ elementsAll es →
    x.elements ⊆ elementsAll es
  | [], h => by cases h
  | e :: rest, h => by
      rw [elementsAll] at h ⊢
      rcases List.mem_append.mp h with h | h
      · exact List.Subset.trans (elements_subset e h) (List.subset_append_left _ _)
      · exact List.Subset.trans (elementsAll_subset rest h) (List.subset_append_right _ _)

end

/-- How the children of a container stand: those of a root around its fixed steps. -/
def Arranged (children : List Element) : Container → Prop
  | .root steps => ∃ p : RootParts Element, p.steps = steps ∧ p.list = children ∧
      p.regular.Pairwise NotHeavier ∧
      (∀ e, p.introduction = some e ∨ p.summary = some e ∨ p.submit = some e → asStep e = e)
  | _ => children.Pairwise NotHeavier

def Tidy : Element → Prop
  | .container attributes kind children => attributes.InRange ∧ Arranged children kind
  | .field attributes _ => attributes.InRange
  | .content attributes _ => attributes.InRange

/-- An element that might have been read. -/
def Readable (e : Element) : Prop :=
  ∀ x ∈ e.elements, x.Tidy

theorem Readable.of_mem {e x : Element} (h : e.Readable) (hx : x ∈ e.elements) : x.Readable :=
  fun y hy => h y (elements_subset e hx hy)

theorem readable_container {attributes : Attributes} {kind : Container} {children : List Element} :
    (container attributes kind children).Readable ↔
      attributes.InRange ∧ Arranged children kind ∧ ∀ child ∈ children, child.Readable := by
  simp only [Readable, elements, List.forall_mem_cons, Tidy, mem_elementsAll, and_assoc]
  constructor
  · rintro ⟨hrange, harranged, hbelow⟩
    exact ⟨hrange, harranged, fun child hchild x hx => hbelow x ⟨child, hchild, hx⟩⟩
  · rintro ⟨hrange, harranged, hbelow⟩
    refine ⟨hrange, harranged, ?_⟩
    rintro x ⟨child, hchild, hx⟩
    exact hbelow child hchild x hx

theorem Readable.asStep {e : Element} (h : e.Readable) : (asStep e).Readable := by
  cases e with
  | container attributes kind children =>
      cases kind with
      | group => rwa [Element.asStep, readable_container] at *
      | _ => exact h
  | _ => exact h

theorem asStep_asStep (e : Element) : asStep (asStep e) = asStep e := by
  cases e with
  | container attributes kind children => cases kind <;> rfl
  | _ => rfl

theorem ofType_readable {m : List (String × Json)} (hchildren : ∀ e ∈ childrenOf m, e.Readable)
    (hfixed : ∀ name e, fixedStep? name m = some e → e.Readable ∧ asStep e = e)
    (type : StoredType) : (ofType m type).Readable := by
  have hrange := Attributes.ofMembers_inRange m
  have hranked : (sortByRank (childrenOf m)).Pairwise NotHeavier := by
    rw [sortByRank_eq]
    exact List.pairwise_insertionSort NotHeavier _
  have hsorted : ∀ e ∈ sortByRank (childrenOf m), e.Readable := by
    intro e he
    rw [sortByRank_eq, List.mem_insertionSort] at he
    exact hchildren e he
  cases type with
  | root =>
      refine readable_container.mpr ⟨hrange, ⟨storedParts m, rfl, rfl, hranked, ?_⟩, ?_⟩
      · rintro e (he | he | he)
        all_goals exact (hfixed _ e he).2
      · intro e he
        simp only [RootParts.list, List.mem_append, Option.mem_toList, storedParts] at he
        rcases he with ((he | he) | he) | he
        · exact (hfixed _ e he).1
        · exact hsorted e he
        · exact (hfixed _ e he).1
        · exact (hfixed _ e he).1
  | step => exact readable_container.mpr ⟨hrange, hranked, hsorted⟩
  | group => exact readable_container.mpr ⟨hrange, hranked, hsorted⟩
  | repeating => exact readable_container.mpr ⟨hrange, hranked, hsorted⟩
  | field kind => simpa [ofType, Readable, elements, Tidy] using hrange
  | content => simpa [ofType, Readable, elements, Tidy] using hrange

theorem bare_readable : (container (.ofMembers []) .group []).Readable :=
  readable_container.mpr ⟨Attributes.ofMembers_inRange [], .nil, by simp⟩

mutual

theorem ofJson_readable : (j : Json) → (ofJson j).Readable
  | .object m => by
      rw [ofJson_object]
      exact ofType_readable (childrenOf_readable m) (fixedStep?_readable m) _
  | .null | .bool _ | .int _ | .float _ | .string _ | .array _ => by
      exact bare_readable

theorem childrenOf_readable : (m : List (String × Json)) → ∀ e ∈ childrenOf m, e.Readable
  | [] => by simp [childrenOf]
  | (key, value) :: rest => by
      rw [childrenOf]
      split
      · exact elementsOf_readable value
      · exact childrenOf_readable rest

theorem elementsOf_readable : (j : Json) → ∀ e ∈ elementsOf j, e.Readable
  | .array items => by
      rw [elementsOf]
      exact ofItems_readable items
  | .null | .bool _ | .int _ | .float _ | .string _ | .object _ => by
      simp [elementsOf]

theorem ofItems_readable : (items : List Json) → ∀ e ∈ ofItems items, e.Readable
  | [] => by simp [ofItems]
  | item :: rest => by
      rw [ofItems, List.forall_mem_cons]
      exact ⟨ofJson_readable item, ofItems_readable rest⟩

theorem fixedStep?_readable : (m : List (String × Json)) → ∀ name e,
    fixedStep? name m = some e → e.Readable ∧ asStep e = e
  | [], name, e, h => by cases h
  | (key, value) :: rest, name, e, h => by
      rw [fixedStep?] at h
      split at h
      · split at h
        · cases h
          exact ⟨(ofJson_readable value).asStep, asStep_asStep _⟩
        · cases h
      · exact fixedStep?_readable rest name e h

end

/-! ## Writing and reading -/

mutual

def reread : Element → Element
  | .container attributes kind children => .container attributes.reread kind (rereadAll children)
  | .field attributes traits => .field attributes.reread traits.reread
  | .content attributes text => .content attributes.reread text

def rereadAll : List Element → List Element
  | [] => []
  | e :: rest => reread e :: rereadAll rest

end

@[simp] theorem rereadAll_eq (es : List Element) : rereadAll es = es.map reread := by
  induction es with
  | nil => rfl
  | cons e rest ih => rw [rereadAll, ih, List.map_cons]

@[simp] theorem kindName_reread (e : Element) : e.reread.kindName = e.kindName := by
  cases e <;> rfl

@[simp] theorem rank_reread (e : Element) : e.reread.rank = e.rank := by
  cases e <;> rfl

theorem asStep_reread {e : Element} (h : asStep e = e) : asStep e.reread = e.reread := by
  cases e with
  | container attributes kind children =>
      cases kind with
      | group => cases h
      | _ => rfl
  | _ => rfl

@[simp] theorem isObject_toJson (e : Element) : e.toJson.isObject = true := by
  cases e <;> simp [toJson, Json.isObject]

theorem sortByRank_written {m : List (String × Json)} {es : List Element}
    (hm : lookupEntry "children" m = some (.array (es.map toJson)))
    (hranked : es.Pairwise NotHeavier) (hread : ∀ e ∈ es, ofJson e.toJson = e.reread) :
    sortByRank (childrenOf m) = es.map reread := by
  have hitems : childrenOf m = es.map reread := by
    rw [childrenOf_eq, hm, Option.map_some, Option.getD_some, elementsOf, ofItems_eq, List.map_map]
    exact List.map_congr_left hread
  rw [hitems, sortByRank_eq]
  refine List.Pairwise.insertionSort_eq (List.pairwise_map.mpr (hranked.imp ?_))
  intro a b h
  simpa [NotHeavier] using h

theorem fixedStep?_written {m : List (String × Json)} {name : String} {e : Option Element}
    (hm : lookupEntry name m = e.map toJson) (hstep : ∀ x, e = some x → asStep x = x)
    (hread : ∀ x, e = some x → ofJson x.toJson = x.reread) :
    fixedStep? name m = e.map reread := by
  rw [fixedStep?_eq, hm]
  cases e with
  | none => rfl
  | some x => simp [storedStep?, hread, asStep_reread (hstep x rfl)]

end Element

def Container.members (children : List Json) : Container → List (String × Json)
  | .root steps => (steps.parts children).members
  | .step => [("children", .array children)]
  | .group => [("children", .array children)]
  | .repeating bounds =>
    [("children", .array children), ("min_repetitions", Json.ofNat bounds.min)] ++
      optionalMember "max_repetitions" (bounds.max.map Json.ofNat)

namespace Element

def members : Element → List (String × Json)
  | .container attributes kind children =>
    ("type", .string kind.name) :: attributes.toMembers ++ kind.members (children.map toJson)
  | .field attributes traits =>
    ("type", .string "field") :: attributes.toMembers ++ traits.toMembers
  | .content attributes text =>
    ("type", .string "content") :: attributes.toMembers ++ [("content", .string text)]

theorem toJson_eq (e : Element) : e.toJson = .object e.members := by
  cases e with
  | container attributes kind children =>
      cases kind <;> simp [toJson, members, Container.members, toJsonAll_eq, RootSteps.members_eq]
  | field attributes traits => simp [toJson, members]
  | content attributes text => simp [toJson, members]

theorem lookupEntry_own {key : String} (htype : key ≠ "type") (hkey : key ∉ Attributes.keys)
    (type : Json) (a : Attributes) (own : List (String × Json)) :
    lookupEntry key (("type", type) :: a.toMembers ++ own) = lookupEntry key own := by
  simp only [Attributes.keys, Attributes.visibilityKeys, Attributes.patchKeys, List.cons_append,
    List.nil_append, List.mem_cons, List.not_mem_nil, or_false, not_or] at hkey
  simp [Attributes.toMembers, htype, hkey]

theorem ofMembers_written {a : Attributes} (h : a.InRange) {own : List (String × Json)}
    (hown : ∀ key ∈ Attributes.keys, lookupEntry key own = none) (type : Json) :
    Attributes.ofMembers (("type", type) :: a.toMembers ++ own) = a.reread := by
  refine Attributes.ofMembers_toMembers h fun key hkey => ?_
  have htype : key ≠ "type" := by
    rintro rfl
    revert hkey
    decide
  simp [htype, hown key hkey]

@[simp] theorem storedType_written {name : String} (rest : List (String × Json)) :
    StoredType.ofMembers (("type", .string name) :: rest) = .ofName name := by
  simp [StoredType.ofMembers, Json.string?]

theorem ofJson_toJson_container {attributes : Attributes} {kind : Container}
    {children : List Element} (hrange : attributes.InRange) (harranged : Arranged children kind)
    (hread : ∀ e ∈ children, ofJson e.toJson = e.reread) :
    ofJson (toJson (.container attributes kind children)) =
      reread (.container attributes kind children) := by
  rw [toJson_eq, ofJson_object, members, reread, rereadAll_eq]
  generalize hm : ("type", Json.string kind.name) :: attributes.toMembers ++
    kind.members (children.map toJson) = m
  have hattributes : Attributes.ofMembers m = attributes.reread := by
    rw [← hm]
    refine ofMembers_written hrange ?_ _
    cases kind <;>
      simp [Attributes.keys, Attributes.visibilityKeys, Attributes.patchKeys, Container.members,
        RootParts.members]
  have htype : StoredType.ofMembers m = .ofName kind.name := by
    rw [← hm]
    exact storedType_written _
  have hown : ∀ key, key ≠ "type" → key ∉ Attributes.keys →
      lookupEntry key m = lookupEntry key (kind.members (children.map toJson)) := by
    intro key hkey hattribute
    rw [← hm]
    exact lookupEntry_own hkey hattribute _ attributes _
  have hchildren := hown "children" (by decide) (by decide)
  cases kind with
  | root steps =>
      obtain ⟨p, rfl, rfl, hranked, hfixed⟩ := harranged
      have hintroduction := hown "introduction" (by decide) (by decide)
      have hsummary := hown "summary" (by decide) (by decide)
      have hsubmit := hown "submit" (by decide) (by decide)
      have hname : StoredType.ofName "root" = .root := by decide
      rw [Container.members, ← RootParts.list_map, ← RootParts.steps_map toJson,
        RootSteps.parts_list] at hchildren hintroduction hsummary hsubmit
      simp only [RootParts.members, RootParts.map, lookupEntry_append, lookupEntry_optionalMember,
        lookupEntry, String.reduceEq, if_true, if_false, Option.none_or, Option.or_none]
        at hchildren hintroduction hsummary hsubmit
      simp only [RootParts.list, List.mem_append, Option.mem_toList] at hread
      have hparts : storedParts m = p.map reread := by
        rw [storedParts, RootParts.map,
          fixedStep?_written hintroduction (fun e he => hfixed e (.inl he))
            fun e he => hread e (by simp [he]),
          sortByRank_written hchildren hranked fun e he => hread e (by simp [he]),
          fixedStep?_written hsummary (fun e he => hfixed e (.inr (.inl he)))
            fun e he => hread e (by simp [he]),
          fixedStep?_written hsubmit (fun e he => hfixed e (.inr (.inr he)))
            fun e he => hread e (by simp [he])]
      rw [htype, Container.name, hname, ofType, hattributes, hparts, RootParts.list_map,
        RootParts.steps_map]
  | step =>
      have hname : StoredType.ofName (Container.name .step) = .step := by decide
      rw [htype, hname, ofType, hattributes, sortByRank_written hchildren harranged hread]
  | group =>
      have hname : StoredType.ofName (Container.name .group) = .group := by decide
      rw [htype, hname, ofType, hattributes, sortByRank_written hchildren harranged hread]
  | repeating bounds =>
      have hname : StoredType.ofName "repeating" = .repeating := by decide
      have hmin := hown "min_repetitions" (by decide) (by decide)
      have hmax := hown "max_repetitions" (by decide) (by decide)
      have hbounds : storedBounds m = bounds := by
        obtain ⟨min, max⟩ := bounds
        simp only [Container.members, lookupEntry_append, lookupEntry_optionalMember] at hmin hmax
        simp only [storedBounds, Json.naturalMember?, hmin, hmax]
        cases max <;> simp [Json.ofNat, Json.natural?]
      rw [htype, Container.name, hname, ofType, hattributes, hbounds,
        sortByRank_written hchildren harranged hread]

mutual

/-- An element that has been read is read back, with its malformed expressions read once more. -/
theorem ofJson_toJson : (e : Element) → e.Readable → ofJson e.toJson = e.reread
  | .container attributes kind children, h => by
      obtain ⟨hrange, harranged, hbelow⟩ := readable_container.mp h
      exact ofJson_toJson_container hrange harranged (ofJson_toJsonAll children hbelow)
  | .field attributes traits, h => by
      have hrange : attributes.InRange := h _ (List.mem_singleton_self _)
      have hname : StoredType.ofName "field" = .field none := by decide
      have hown : ∀ key ∈ Attributes.keys, lookupEntry key traits.toMembers = none := by
        simp [Attributes.keys, Attributes.visibilityKeys, Attributes.patchKeys,
          FieldTraits.toMembers]
      have hother : ∀ key ∈ FieldTraits.keys, key ≠ "type" ∧ key ∉ Attributes.keys := by decide
      have htraits : FieldTraits.ofMembers none (members (.field attributes traits)) =
          traits.reread := by
        refine FieldTraits.ofMembers_toMembers traits fun key hkey => ?_
        obtain ⟨htype, hattribute⟩ := hother key hkey
        exact lookupEntry_own htype hattribute _ attributes _
      rw [members] at htraits
      rw [toJson_eq, ofJson_object, members, List.cons_append, storedType_written, hname, ofType,
        ← List.cons_append, ofMembers_written hrange hown, htraits, reread]
  | .content attributes text, h => by
      have hrange : attributes.InRange := h _ (List.mem_singleton_self _)
      have hname : StoredType.ofName "content" = .content := by decide
      have hown : ∀ key ∈ Attributes.keys, lookupEntry key [("content", Json.string text)] = none := by
        simp [Attributes.keys, Attributes.visibilityKeys, Attributes.patchKeys]
      have htext : Json.textMember (members (.content attributes text)) "content" = text := by
        rw [members, Json.textMember, lookupEntry_own (by decide) (by decide)]
        simp
      rw [members] at htext
      rw [toJson_eq, ofJson_object, members, List.cons_append, storedType_written, hname, ofType,
        ← List.cons_append, ofMembers_written hrange hown, htext, reread]

theorem ofJson_toJsonAll : (es : List Element) → (∀ e ∈ es, e.Readable) →
    ∀ e ∈ es, ofJson e.toJson = e.reread
  | [], _ => by simp
  | e :: rest, h => by
      rw [List.forall_mem_cons] at h ⊢
      exact ⟨ofJson_toJson e h.1, ofJson_toJsonAll rest h.2⟩

end

theorem reread_eq_ofType {e : Element} (h : e.Readable) :
    e.reread = ofType e.members (.ofMembers e.members) := by
  rw [← ofJson_toJson e h, toJson_eq, ofJson_object]

/-! ## Elements without malformed expressions -/

theorem map_reread {expression : Option Expression}
    (h : ∀ x ∈ expression.toList, x.isMalformed = false) :
    expression.map Expression.reread = expression := by
  cases expression with
  | none => rfl
  | some x => rw [Option.map_some, Expression.reread_eq_self (h x (by simp))]

theorem reread_attributes {e : Element} (h : ∀ x ∈ e.expressions, x.isMalformed = false) :
    e.attributes.reread = e.attributes := by
  have hown : ∀ x ∈ e.attributes.visibility.toList ++ e.attributes.patch.toList,
      x.isMalformed = false := fun x hx => h x (e.attribute_expressions_subset hx)
  rw [List.forall_mem_append] at hown
  rw [Attributes.reread, map_reread hown.1, map_reread hown.2]

theorem reread_traits {attributes : Attributes} {traits : FieldTraits}
    (h : ∀ x ∈ (field attributes traits).expressions, x.isMalformed = false) :
    traits.reread = traits := by
  rw [expressions, List.forall_mem_append, List.forall_mem_append] at h
  rw [FieldTraits.reread, map_reread h.1.2, map_reread h.2]

mutual

theorem reread_eq_self : (e : Element) →
    (∀ x ∈ e.elements.flatMap expressions, x.isMalformed = false) → e.reread = e
  | .container attributes kind children, h => by
      rw [elements, List.flatMap_cons, List.forall_mem_append] at h
      rw [reread, rereadAll_eq_self children h.2]
      exact congrArg (container · kind children) (reread_attributes h.1)
  | .field attributes traits, h => by
      rw [elements, List.flatMap_singleton] at h
      rw [reread, reread_traits h]
      exact congrArg (field · traits) (reread_attributes h)
  | .content attributes text, h => by
      rw [elements, List.flatMap_singleton] at h
      exact congrArg (content · text) (reread_attributes h)

theorem rereadAll_eq_self : (es : List Element) →
    (∀ x ∈ (elementsAll es).flatMap expressions, x.isMalformed = false) → rereadAll es = es
  | [], _ => rfl
  | e :: rest, h => by
      rw [elementsAll, List.flatMap_append, List.forall_mem_append] at h
      rw [rereadAll, reread_eq_self e h.1, rereadAll_eq_self rest h.2]

end

end Element

end FormDerivation
