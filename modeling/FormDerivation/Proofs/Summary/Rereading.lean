import FormDerivation.Proofs.Element.Rereading
import FormDerivation.Proofs.Summary.Coverage

/-!
# Summaries of stored states

A state that is stored and read back is the same one, but for the elements that patches have put in:
they pass the permissive reader, which need not return an element as it was.  It does keep the type
and the label, and a summary asks for nothing else.
-/

namespace FormDerivation

open KeyMap (lookupEntry lookupEntry_append)

/-! ## Stored maps and lists -/

namespace Json.Shape

variable {α : Type} {write : α → Json} {shape : Shape}

@[simp] theorem mismatch?_any (j : Json) : mismatch? j .any = none := by
  cases j <;> rfl

theorem valuesMismatch?_map (h : ∀ a, mismatch? (write a) shape = none)
    (entries : List (String × α)) :
    valuesMismatch? (entries.map fun entry => (entry.1, write entry.2)) shape = none := by
  induction entries with
  | nil => rfl
  | cons entry rest ih => rw [List.map_cons, valuesMismatch?, h, ih, Option.or_none]

theorem itemsMismatch?_map (h : ∀ a, mismatch? (write a) shape = none) (items : List α) :
    itemsMismatch? (items.map write) shape = none := by
  induction items with
  | nil => rfl
  | cons item rest ih => rw [List.map_cons, itemsMismatch?, h, ih, Option.or_none]

theorem mismatch?_ofMap (h : ∀ a, mismatch? (write a) shape = none) (m : KeyMap α) :
    mismatch? (Json.ofMap (m.mapValues fun _ => write)) (.map shape) = none :=
  valuesMismatch?_map h m.toList

end Json.Shape

/-! ## Elements -/

namespace Element

@[simp] theorem storedType_members (e : Element) :
    StoredType.ofMembers e.members = .ofName e.kindName := by
  cases e <;> exact storedType_written _

theorem ofJson_toJson_eq_ofType (e : Element) :
    ofJson e.toJson = ofType e.members (.ofName e.kindName) := by
  rw [toJson_eq, ofJson_object, storedType_members]

theorem label_ofJson_toJson (e : Element) : (ofJson e.toJson).label = e.label := by
  have hread : ∀ type, (ofType e.members type).label = Json.textMember e.members "label" := by
    intro type
    cases type <;> rfl
  have hwritten : lookupEntry "label" e.members = some (.string e.label) := by
    cases e <;> simp [members, Attributes.toMembers, label]
  rw [ofJson_toJson_eq_ofType, hread, Json.textMember, hwritten]

theorem isField_ofJson_toJson (e : Element) : (ofJson e.toJson).isField = e.isField := by
  rw [ofJson_toJson_eq_ofType]
  cases e with
  | container attributes kind children =>
      have hnames : ∀ name ∈ ["root", "step", "group", "repeating"],
          StoredType.ofName name ∈ [StoredType.root, .step, .group, .repeating] := by decide
      have hname : kind.name ∈ ["root", "step", "group", "repeating"] := by
        cases kind <;> simp [Container.name]
      have htype := hnames kind.name hname
      simp only [List.mem_cons, List.not_mem_nil, or_false] at htype
      rw [kindName]
      rcases htype with h | h | h | h <;> rw [h] <;> rfl
  | field attributes traits =>
      have hname : StoredType.ofName "field" = .field none := by decide
      rw [kindName, hname]
      rfl
  | content attributes text =>
      have hname : StoredType.ofName "content" = .content := by decide
      rw [kindName, hname]
      rfl

end Element

/-! ## States -/

namespace FormState

def reread (state : FormState) : FormState :=
  { state with overrides := state.overrides.mapValues fun _ e => Element.ofJson e.toJson }

@[simp] theorem readFailure_failureToJson (failure : StepFailure) :
    readFailure (failureToJson failure) = failure := by
  simp [readFailure, failureToJson, Json.recordMembers, Json.textMember]

theorem mapMember_written {α β : Type} {members : List (String × Json)} {key : String}
    {m : KeyMap α} {write : α → Json} {read : Json → Option β} {result : α → β}
    (hm : lookupEntry key members = some (Json.ofMap (m.mapValues fun _ => write)))
    (h : ∀ a, read (write a) = some (result a)) :
    mapMember members key read = m.mapValues fun _ => result := by
  have hentries : ∀ entry : String × α,
      ((read (write entry.2)).map fun a => (entry.1, a)) = some (entry.1, result entry.2) := by
    simp [h]
  rw [mapMember, hm]
  simp only [Json.ofMap]
  refine Eq.trans (congrArg KeyMap.ofList ?_) (KeyMap.ofList_perm_map (List.Perm.refl _) result)
  rw [KeyMap.mapValues, List.filterMap_map, ← List.filterMap_eq_map]
  exact List.filterMap_congr fun entry _ => hentries entry

theorem mapMember_read {α : Type} {members : List (String × Json)} {key : String} {m : KeyMap α}
    {write : α → Json} {read : Json → Option α}
    (hm : lookupEntry key members = some (Json.ofMap (m.mapValues fun _ => write)))
    (h : ∀ a, read (write a) = some a) : mapMember members key read = m :=
  (mapMember_written hm h).trans m.mapValues_id

@[simp] theorem mismatch?_toJson (state : FormState) :
    Json.Shape.mismatch? state.toJson shape = none := by
  have hflag : ∀ b, Json.Shape.mismatch? (.bool b) .flag = none := fun _ => rfl
  have htext : ∀ s, Json.Shape.mismatch? (.string s) .text = none := fun _ => rfl
  have hcount : ∀ n, Json.Shape.mismatch? (Json.ofNat n) (.natural "usize") = none := by
    intro n
    simp [Json.ofNat, Json.Shape.mismatch?, Json.Shape.withoutOption]
  have hfailure : ∀ failure, Json.Shape.mismatch? (failureToJson failure)
      (.record "DerivationFailure" failureFields) = none := fun _ => rfl
  have hvalues : Json.Shape.mismatch? (Json.ofMap state.values) (.map .any) = none := by
    rw [← state.values.mapValues_id]
    exact Json.Shape.mismatch?_ofMap Json.Shape.mismatch?_any state.values
  have hfailures : Json.Shape.mismatch? (.array (state.failures.map failureToJson))
      (.list (.record "DerivationFailure" failureFields)) = none :=
    Json.Shape.itemsMismatch?_map hfailure state.failures
  have hrecord : ∀ members, Json.Shape.membersMismatch? members fields = none →
      Json.Shape.missing? members fields = none →
      Json.Shape.mismatch? (.object members) shape = none := by
    intro members hmembers hmissing
    simp only [shape, Json.Shape.mismatch?, Json.Shape.withoutOption, hmembers, hmissing,
      Option.or_none]
  refine hrecord _ ?_ ?_
  · rw [Json.Shape.membersMismatch?_append]
    cases state.failures.isEmpty <;>
      simp [Json.Shape.membersMismatch?, fields, Json.Shape.field?, Json.Shape.mismatch?_ofMap,
        hflag, htext, hcount, Json.Shape.mismatch?_any, hvalues, hfailures]
  · rfl

theorem readFailures_toJson (state : FormState) :
    (((lookupEntry "failures" (state.toJson.recordMembers fields)).bind Json.array?).getD []).map
      readFailure = state.failures := by
  have hread : readFailure ∘ failureToJson = id := funext readFailure_failureToJson
  cases hfailures : state.failures with
  | nil =>
      simp only [toJson, hfailures]
      rfl
  | cons failure rest =>
      have hwritten : lookupEntry "failures" (state.toJson.recordMembers fields) =
          some (.array ((failure :: rest).map failureToJson)) := by
        simp only [toJson, hfailures]
        rfl
      rw [hwritten, Option.bind_some, Json.array?, Option.getD_some, List.map_map, hread, List.map_id]

theorem ofShaped_toJson (state : FormState) : ofShaped state.toJson = state.reread := by
  have hvalues : lookupEntry "values" (state.toJson.recordMembers fields) =
      some (Json.ofMap (state.values.mapValues fun _ value => value)) := by
    rw [KeyMap.mapValues_id]
    rfl
  rw [ofShaped, readFailures_toJson]
  unfold reread
  congr 1
  · exact mapMember_read rfl fun _ => rfl
  · exact mapMember_read hvalues fun _ => rfl
  · exact mapMember_read rfl fun _ => rfl
  · exact mapMember_written rfl fun _ => rfl
  · exact mapMember_read rfl fun count => by simp [Json.natural?, Json.ofNat]

@[simp] theorem ofJson_toJson (state : FormState) : ofJson state.toJson = .ok state.reread := by
  rw [ofJson, mismatch?_toJson, ofShaped_toJson]

end FormState

namespace Summary

variable (state : FormState)

theorem label_effective_reread (key : String) (e : Element) :
    ((state.reread.overrides.get? key).getD e).label =
      ((state.overrides.get? key).getD e).label := by
  rw [FormState.reread, KeyMap.get?_mapValues]
  cases state.overrides.get? key with
  | none => rfl
  | some replaced => exact Element.label_ofJson_toJson replaced

theorem isField_effective_reread (key : String) (e : Element) :
    ((state.reread.overrides.get? key).getD e).isField =
      ((state.overrides.get? key).getD e).isField := by
  rw [FormState.reread, KeyMap.get?_mapValues]
  cases state.overrides.get? key with
  | none => rfl
  | some replaced => exact Element.isField_ofJson_toJson replaced

@[simp] theorem rowOf_reread (key : String) (depth : Nat) (e : Element) :
    rowOf state.reread key depth ((state.reread.overrides.get? key).getD e) =
      rowOf state key depth ((state.overrides.get? key).getD e) := by
  rw [rowOf, label_effective_reread]
  rfl

@[simp] theorem leafRows_reread (scope : Option String) (depth : Nat) (e : Element) :
    leafRows state.reread scope depth e = leafRows state scope depth e := by
  simp only [leafRows, rowOf_reread, isField_effective_reread]
  rfl

mutual

theorem rowsFrom_reread (scope : Option String) (depth : Nat) : (e : Element) →
    rowsFrom state.reread scope depth e = rowsFrom state scope depth e
  | .container attributes kind children => by
      rw [rowsFrom_container, rowsFrom_container, isField_effective_reread, rowOf_reread]
      simp only [rowsFromAll_reread _ _ children]
      rfl
  | .field attributes traits => by
      unfold rowsFrom
      exact leafRows_reread state scope depth _
  | .content attributes text => by
      unfold rowsFrom
      exact leafRows_reread state scope depth _

theorem rowsFromAll_reread (scope : Option String) (depth : Nat) : (es : List Element) →
    rowsFromAll state.reread scope depth es = rowsFromAll state scope depth es
  | [] => by
      unfold rowsFromAll
      rfl
  | e :: rest => by
      unfold rowsFromAll
      rw [rowsFrom_reread scope depth e, rowsFromAll_reread scope depth rest]

end

@[simp] theorem rows_reread (tree : Element) : rows tree state.reread = rows tree state :=
  rowsFrom_reread state none 0 tree

/-- A summary of a derived form can be made of the state that was stored: nothing it shows, and no
answer of the state itself, is lost on the way. -/
theorem stored_state_suffices (tree : Element) :
    ∃ stored, FormState.ofJson state.toJson = .ok stored ∧
      rows tree stored = rows tree state ∧
      text tree stored = text tree state ∧
      toJson tree stored = toJson tree state ∧
      stored.visibleValues = state.visibleValues ∧
      stored.isValid = state.isValid := by
  have hrows := rows_reread state tree
  refine ⟨state.reread, state.ofJson_toJson, hrows, ?_, ?_, rfl, rfl⟩
  · rw [text, hrows]
    rfl
  · rw [toJson, hrows]
    rfl

end Summary

end FormDerivation
