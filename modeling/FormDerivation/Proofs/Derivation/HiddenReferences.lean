import FormDerivation.Proofs.Derivation.Values
import Mathlib.Data.List.Nodup

/-!
# References to hidden elements

Formulas read references off the values of the walk, and hiding an element changes no value.  So a
reference to an element that was hidden before has the value that the inputs have for it, or else
the first one that a visible repeating container has spread over its key from a row
(`Walk.sequential_carries`).  It is null exactly where there is neither
(`FormEngine.derive_hidden_references`).
-/

namespace FormDerivation

open KeyMap (lookupEntry)

/-- What a visible repeating container has for a key in its rows, within its count. -/
def Instance.entry? (v : Instance) (key : String) : Option Json :=
  if v.visible && v.element.isRepeating then
    let count := (v.after.repetitions.get? v.key).getD 0
    lookupEntry key (Walk.rowEntries v.key ((Walk.rowsOf (v.after.values.get? v.key)).take count))
  else none

def given? (inputs : KeyMap Json) (instances : List Instance) (key : String) : Option Json :=
  (inputs.get? key).or (instances.findSome? fun v => v.entry? key)

def FormState.behind (inputs : KeyMap Json) (instances : List Instance) : FormState :=
  (instances.getLast?.map Instance.after).getD (.ofInputs inputs)

namespace Walk

variable (setting : WalkSetting)

/-! ## The expressions of an element -/

inductive Evaluates (scope : Option String) (e : Element) (walk : Walk) :
    Expression → Walk → Prop where
  | patch {x : Expression} (h : e.attributes.patch = some x) : Evaluates scope e walk x walk
  | visibility {replaced : Option Element} {patched : Walk} {x : Expression}
      (hpatch : (Walk.patch setting ⟨e.id, scope⟩ e).run walk = .ok (replaced, patched))
      (h : (replaced.getD e).attributes.visibility = some x) : Evaluates scope e walk x patched
  | compute {replaced : Option Element} {patched seen : Walk} {attributes : Attributes}
      {field : FieldTraits} {x : Expression}
      (hpatch : (Walk.patch setting ⟨e.id, scope⟩ e).run walk = .ok (replaced, patched))
      (hvisibility : (Walk.visibility setting ⟨e.id, scope⟩ (replaced.getD e)).run patched =
        .ok (true, seen))
      (hfield : replaced.getD e = .field attributes field) (h : field.compute = some x) :
      Evaluates scope e walk x (markVisibility (scopedKey scope e.id) true seen)
  | validation {replaced : Option Element} {patched seen computed : Walk} {attributes : Attributes}
      {field : FieldTraits} {x : Expression}
      (hpatch : (Walk.patch setting ⟨e.id, scope⟩ e).run walk = .ok (replaced, patched))
      (hvisibility : (Walk.visibility setting ⟨e.id, scope⟩ (replaced.getD e)).run patched =
        .ok (true, seen))
      (hfield : replaced.getD e = .field attributes field)
      (hcompute : (Walk.compute setting ⟨e.id, scope⟩ field).run
        (markVisibility (scopedKey scope e.id) true seen) = .ok ((), computed))
      (hcheck : field.check (computed.state.values.get? (scopedKey scope e.id)) = none)
      (h : field.validation = some x) : Evaluates scope e walk x computed

variable {setting}

/-- The expressions of an element see the values from before it, besides its own computed one. -/
theorem Evaluates.values {scope : Option String} {e : Element} {walk here : Walk} {x : Expression}
    (h : Evaluates setting scope e walk x here) {key : String} (hkey : key ≠ scopedKey scope e.id) :
    here.state.values.get? key = walk.state.values.get? key := by
  cases h with
  | patch h => rfl
  | visibility hpatch h =>
      obtain ⟨_, hpatched⟩ := patch_state setting _ hpatch
      rw [hpatched]
  | compute hpatch hvisibility hfield h =>
      obtain ⟨_, hpatched⟩ := patch_state setting _ hpatch
      obtain ⟨_, hseen⟩ := visibility_state setting _ hvisibility
      simp only [markVisibility, hseen, hpatched]
  | validation hpatch hvisibility hfield hcompute hcheck h =>
      obtain ⟨_, hpatched⟩ := patch_state setting _ hpatch
      obtain ⟨_, hseen⟩ := visibility_state setting _ hvisibility
      obtain ⟨_, value, hcomputed⟩ := compute_state setting _ hcompute
      have hother : key ≠ Site.key ⟨e.id, scope⟩ := hkey
      rw [hcomputed, KeyMap.get?_insertSome, if_neg hother]
      simp only [markVisibility, hseen, hpatched]

/-! ## Values of hidden elements -/

def Reaches (list : List Instance) (walk walk' : Walk) : Prop :=
  walk'.state = (list.getLast?.map Instance.after).getD walk.state

theorem sequential_reaches : Sequential setting Reaches where
  nil := fun _ => rfl
  append := by
    intro first second walk between walk' hfirst hsecond
    unfold Reaches at hfirst hsecond ⊢
    rw [hsecond, List.getLast?_append]
    cases second.getLast? with
    | some v => rfl
    | none => exact hfirst
  own := fun hown => hown.state_eq

/--
A part of a walk with only hidden instances under a key leaves a value that is there, and gives it
the first one that a row has for it otherwise.
-/
def Carries (list : List Instance) (walk walk' : Walk) : Prop :=
  ∀ key, (∀ v ∈ list, v.key = key → v.visible = false) →
    walk'.state.values.get? key =
      (walk.state.values.get? key).or (list.findSome? fun v => v.entry? key)

theorem carries_entered {above : List Instance} {scope : Option String} {e : Element} {visible : Bool}
    {walk entered : Walk} (h : (enter setting scope e).run walk = .ok (visible, entered)) :
    Carries [enteredInstance setting above scope e walk] walk
      (if visible then opened setting scope e entered else entered) := by
  intro key hhidden
  rw [enteredInstance_eq setting above h] at hhidden ⊢
  have hentered : entered.state.values.get? key = walk.state.values.get? key := by
    by_contra hchanged
    obtain ⟨hkey, hvisible, -⟩ := enter_changed setting h hchanged
    have hnot : visible = false := hhidden _ (List.mem_singleton_self _) hkey
    rw [hnot] at hvisible
    cases hvisible
  rw [← hentered, List.findSome?_singleton]
  cases visible with
  | false => simp [Instance.entry?]
  | true =>
      cases he : e.isRepeating with
      | false => simp [Instance.entry?, he, opened_of_not_repeating setting he]
      | true =>
          obtain ⟨count, hopened⟩ := opened_repeating setting scope he entered
          have hrows := get?_spreadRows_self (scopedKey scope e.id) count entered.state.values
          simp only [if_true, hopened, Instance.entry?, Instance.key, he, Bool.and_self,
            KeyMap.get?_insert_self, Option.getD_some, hrows]
          rw [spreadRows, KeyMap.get?_insertAllNew]

theorem sequential_carries : Sequential setting Carries where
  nil := fun walk key _ => by simp
  append := by
    intro first second walk between walk' hfirst hsecond key hhidden
    rw [List.forall_mem_append] at hhidden
    rw [hsecond key hhidden.2, hfirst key hhidden.1, List.findSome?_append, Option.or_assoc]
  own := by
    intro v walk walk' hown
    cases hown with
    | entered above henter => exact carries_entered henter
    | hidden above scope e walk =>
        intro key _
        simp [Instance.entry?, hiddenInstance, markVisibility]

end Walk

/-! ## References of a derivation -/

theorem Operator.isNullOperator_evaluate (value : Json) :
    isNullOperator.evaluate [value] = .ok ⟨.boolean, .bool value.isNull⟩ :=
  rfl

namespace FormEngine

/--
A reference to an element that comes earlier and is hidden has the value that its key is given by the
inputs and by the rows of earlier containers, in all expressions of an element.  So it is null, and
empty for `compare.is-null`, exactly if there is no such value or that value is null.
-/
theorem derive_hidden_references (engine : FormEngine) (tree : Element)
    (inputs globals : KeyMap Json) (state : FormState)
    (h : engine.derive tree inputs globals = .ok state)
    (distinct : ((engine.instances tree inputs globals).map Instance.key).Nodup)
    (before later : List Instance) (u w : Instance)
    (hlist : engine.instances tree inputs globals = before ++ w :: later) (hu : u ∈ before)
    (hhidden : state.visibilities.get? u.key = some false) :
    let setting : WalkSetting := ⟨engine.operators, engine.config⟩
    let value := (given? inputs before u.key).getD .null
    ∃ start between, start.state = .behind inputs before ∧ Walk.Own setting w start between ∧
      ∀ x here, Walk.Evaluates setting w.scope w.element start x here →
        ∀ id, scopedKey w.scope id = u.key →
          Operand.evaluate engine.operators here.state.values w.scope (.reference id) = .ok value ∧
          (engine.operators.get? "compare.is-null" = some Operator.isNullOperator →
            Formula.evaluate engine.operators here.state.values w.scope
              (.apply "compare.is-null" [.reference id]) = .ok ⟨.boolean, .bool value.isNull⟩) := by
  intro setting value
  have hsettled := derive_settled h distinct u (by simp [hlist, hu])
  obtain ⟨walk, start, between, walk', hstart, ⟨hreaches, hcarries⟩, hown, -, rfl⟩ :=
    exists_around (Walk.sequential_reaches.both Walk.sequential_carries) h hlist
  rw [hlist, List.map_append, List.map_cons, List.nodup_append] at distinct
  obtain ⟨hbeforeNodup, -, hdisjoint⟩ := distinct
  refine ⟨start, between, ?_, hown, fun x here hevaluates id hid => ?_⟩
  · rw [hreaches, hstart]
    rfl
  have hvisible : u.visible = false := by
    rw [hsettled.visible] at hhidden
    exact Option.some.inj hhidden
  have honly : ∀ v ∈ before, v.key = u.key → v.visible = false := by
    intro v hv hkey
    rw [List.inj_on_of_nodup_map hbeforeNodup hv hu hkey, hvisible]
  have hother : u.key ≠ scopedKey w.scope w.element.id :=
    hdisjoint u.key (List.mem_map_of_mem hu) w.key List.mem_cons_self
  have hgiven : here.state.values.get? u.key = given? inputs before u.key := by
    rw [hevaluates.values hother, hcarries u.key honly, hstart]
    rfl
  have hreference : Operand.evaluate engine.operators here.state.values w.scope (.reference id) =
      .ok value := by
    rw [Operand.evaluate, hid, hgiven]
  refine ⟨hreference, fun hoperator => ?_⟩
  rw [Formula.evaluate, hoperator]
  simp only [Operand.evaluateAll, hreference, Operator.isNullOperator_evaluate]
  rfl

theorem derive_hidden_references_unanswered :
    let engine : FormEngine := ⟨⟨.ofList [("logic.not", Operator.notOperator),
      ("compare.is-null", Operator.isNullOperator)]⟩, .empty, {}⟩
    let never : Expression := .formula (.apply "logic.not" [.constant (.bool true)])
    let empty : Formula := .apply "compare.is-null" [.reference "a"]
    let tree : Element := .container ⟨"form", "", none, none, none⟩ .group [
      .field ⟨"a", "", none, some never, none⟩ ⟨.text, false, none, none, none, none⟩,
      .content ⟨"b", "", none, some (.formula empty), none⟩ ""]
    ∃ state, engine.derive tree .empty .empty = .ok state ∧
      state.visibilities.get? "a" = some false ∧ state.visibilities.get? "b" = some true ∧
      ∃ start : Walk, empty.evaluate engine.operators start.state.values none =
        .ok ⟨.boolean, .bool true⟩ := by
  intro engine never empty tree
  have hkeys : (engine.instances tree .empty .empty).map Instance.key = ["form", "a", "b"] := rfl
  have distinct : ((engine.instances tree .empty .empty).map Instance.key).Nodup := by
    rw [hkeys]
    decide
  refine ⟨_, rfl, by decide, by decide, ?_⟩
  obtain ⟨start, between, -, -, hreferences⟩ :=
    derive_hidden_references engine tree .empty .empty _ rfl distinct [_, _] [] _ _ rfl
      (List.mem_cons_of_mem _ List.mem_cons_self) (by decide)
  exact ⟨start, (hreferences (.formula empty) start (.visibility rfl rfl) "a" rfl).2 rfl⟩

/-- A hidden field with an input is not empty. -/
theorem derive_hidden_field_not_null :
    let engine : FormEngine := ⟨⟨.ofList [("logic.not", Operator.notOperator),
      ("compare.is-null", Operator.isNullOperator)]⟩, .empty, {}⟩
    let never : Expression := .formula (.apply "logic.not" [.constant (.bool true)])
    let empty : Expression := .formula (.apply "compare.is-null" [.reference "a"])
    let tree : Element := .container ⟨"form", "", none, none, none⟩ .group [
      .field ⟨"a", "", none, some never, none⟩ ⟨.text, false, none, none, none, none⟩,
      .content ⟨"b", "", none, some empty, none⟩ ""]
    let inputs : KeyMap Json := .ofList [("a", .string "x")]
    (engine.instances tree inputs .empty).map Instance.key = ["form", "a", "b"] ∧
    ∃ state, engine.derive tree inputs .empty = .ok state ∧
      state.visibilities.get? "a" = some false ∧ state.visibilities.get? "b" = some false ∧
      (Operand.reference "a").evaluate engine.operators state.values none ≠ .ok .null := by
  intro engine never empty tree inputs
  have hkeys : (engine.instances tree inputs .empty).map Instance.key = ["form", "a", "b"] := by
    decide +kernel +zetaReduce
  have hstate : (engine.derive tree inputs .empty).toOption.map (fun state =>
      (state.visibilities.get? "a", state.visibilities.get? "b",
        (state.values.get? "a").map Json.isNull)) =
        some (some false, some false, some false) := by decide +kernel +zetaReduce
  obtain ⟨state, h, hentries⟩ := exists_ok_of_map hstate
  obtain ⟨hfield, hentries⟩ := Prod.mk.inj hentries
  obtain ⟨hcontent, hvalue⟩ := Prod.mk.inj hentries
  obtain ⟨value, hvalue, hpresent⟩ := Option.map_eq_some_iff.mp hvalue
  refine ⟨hkeys, state, h, hfield, hcontent, fun hnull => ?_⟩
  have hscoped : scopedKey none "a" = "a" := rfl
  rw [Operand.evaluate, hscoped, hvalue] at hnull
  cases hnull
  cases hpresent

end FormEngine

end FormDerivation
