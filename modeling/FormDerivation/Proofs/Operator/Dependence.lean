import FormDerivation.Proofs.Element.Renaming
import FormDerivation.Proofs.Operator.Typing

/-!
# What the value of a formula depends on

A formula looks into its context under the keys of its references only, so contexts that agree on
these give it the same value or the same error (`Formula.evaluate_builtin_congr`).  Nothing but the
value of an operand counts: where constants stand for references and for nested formulas that have
values, the formula still comes to the same value or the same error
(`Formula.evaluate_builtin_folded`).
-/

namespace FormDerivation

/-! ## References -/

/-- A formula has the same value in contexts that agree on what it refers to. -/
theorem Formula.evaluate_congr (registry : OperatorRegistry) {formula : Formula}
    {scope : Option String} {context context' : KeyMap Json}
    (h : ∀ id ∈ formula.references,
      context'.get? (scopedKey scope id) = context.get? (scopedKey scope id)) :
    formula.evaluate registry context' scope = formula.evaluate registry context scope := by
  have hsame := Formula.evaluate_rename_congr (p := fun id => id) registry formula h
  rwa [Formula.rename_self] at hsame

@[simp] theorem Expression.contains_references_formula (formula : Formula) (id : String) :
    (Expression.formula formula).references.contains id = true ↔ id ∈ formula.references :=
  KeySet.contains_ofList _ _

/--
The declared references of a formula are complete: contexts that have the same under the keys of
these, or nothing, give the formula the same value or the same error.
-/
theorem Formula.evaluate_builtin_congr {formula : Formula} {scope : Option String}
    {context context' : KeyMap Json}
    (h : ∀ id, (Expression.formula formula).references.contains id = true →
      context'.get? (scopedKey scope id) = context.get? (scopedKey scope id)) :
    formula.evaluate .builtin context' scope = formula.evaluate .builtin context scope :=
  Formula.evaluate_congr .builtin fun id hid =>
    h id ((Expression.contains_references_formula formula id).mpr hid)

theorem Formula.evaluate_builtin_congr_rows :
    let formula : Formula := .apply "logic.if-else" [.reference "adult", .reference "name",
      .nested (.apply "text.concat" [.constant (.string "parents of "), .reference "name"])]
    let context : KeyMap Json := .ofList [("people_0_adult", .bool false),
      ("people_0_name", .string "Ada"), ("people_1_name", .string "Bo"), ("name", .null)]
    let context' : KeyMap Json := .ofList [("people_0_adult", .bool false),
      ("people_0_name", .string "Ada"), ("people_1_name", .int 5), ("adult", .bool true)]
    (Expression.formula formula).references.keys = ["adult", "name"] ∧
      formula.evaluate .builtin context' (some "people_0") =
        formula.evaluate .builtin context (some "people_0") := by
  intro formula context context'
  refine ⟨rfl, Formula.evaluate_builtin_congr fun id hid => ?_⟩
  rw [Expression.contains_references_formula] at hid
  simp only [formula, Formula.references, Operand.referencesAll, Operand.references,
    List.nil_append, List.append_nil, List.cons_append, List.mem_cons, List.not_mem_nil,
    or_false] at hid
  rcases hid with rfl | rfl | rfl <;> rfl

/-! ## Constants in place of operands -/

section

variable (registry : OperatorRegistry) (context : KeyMap Json) (scope : Option String)

mutual

/-- A formula with constants in place of some of its operands, at any depth. -/
inductive Formula.FoldsTo : Formula → Formula → Prop where
  | apply {operator : String} {operands folded : List Operand} :
      Operand.AllFoldTo operands folded →
      Formula.FoldsTo (.apply operator operands) (.apply operator folded)

inductive Operand.FoldsTo : Operand → Operand → Prop where
  | same (operand : Operand) : Operand.FoldsTo operand operand
  | reference (id : String) :
      Operand.FoldsTo (.reference id) (.constant ((context.get? (scopedKey scope id)).getD .null))
  | evaluated {formula : Formula} {result : TypedValue} :
      formula.evaluate registry context scope = .ok result →
      Operand.FoldsTo (.nested formula) (.constant result.value)
  | nested {formula folded : Formula} :
      Formula.FoldsTo formula folded → Operand.FoldsTo (.nested formula) (.nested folded)

inductive Operand.AllFoldTo : List Operand → List Operand → Prop where
  | nil : Operand.AllFoldTo [] []
  | cons {operand folded : Operand} {operands others : List Operand} :
      Operand.FoldsTo operand folded → Operand.AllFoldTo operands others →
      Operand.AllFoldTo (operand :: operands) (folded :: others)

end

variable {registry context scope}

mutual

theorem Formula.evaluate_folded : ∀ {formula folded : Formula},
    formula.FoldsTo registry context scope folded →
      folded.evaluate registry context scope = formula.evaluate registry context scope
  | .apply _ _, .apply _ _, .apply hoperands => by
      rw [Formula.evaluate, Formula.evaluate, Operand.evaluateAll_folded hoperands]

theorem Operand.evaluate_folded : ∀ {operand folded : Operand},
    operand.FoldsTo registry context scope folded →
      folded.evaluate registry context scope = operand.evaluate registry context scope
  | _, _, .same _ => rfl
  | _, _, .reference _ => by rw [Operand.evaluate, Operand.evaluate]
  | .nested _, _, .evaluated hresult => by
      rw [Operand.evaluate_nested, hresult, Operand.evaluate]
      rfl
  | .nested _, .nested _, .nested hfolded => by
      simp [Formula.evaluate_folded hfolded]

theorem Operand.evaluateAll_folded : ∀ {operands folded : List Operand},
    Operand.AllFoldTo registry context scope operands folded →
      Operand.evaluateAll registry context scope folded =
        Operand.evaluateAll registry context scope operands
  | [], [], .nil => rfl
  | _ :: _, _ :: _, .cons hfirst hrest => by
      rw [Operand.evaluateAll_cons, Operand.evaluateAll_cons, Operand.evaluate_folded hfirst,
        Operand.evaluateAll_folded hrest]

end

end

/--
Constants may stand for operands of a formula that they have the values of, at any depth.  Its value
has the same type as before, and an error is the same one.
-/
theorem Formula.evaluate_builtin_folded {context : KeyMap Json} {scope : Option String}
    {formula folded : Formula} (h : formula.FoldsTo .builtin context scope folded) :
    folded.evaluate .builtin context scope = formula.evaluate .builtin context scope :=
  Formula.evaluate_folded h

theorem Formula.evaluate_builtin_folded_title :
    let context : KeyMap Json := .ofList [("people_0_formal", .bool true),
      ("people_0_title", .string "Dr. "), ("people_0_name", .string "Ada")]
    let title : Formula := .apply "logic.if-else" [.reference "formal", .reference "title",
      .constant (.string "")]
    let greeting : Formula := .apply "text.concat" [.nested title,
      .nested (.apply "text.concat" [.reference "name", .constant (.string "!")])]
    let folded : Formula := .apply "text.concat" [.constant (.string "Dr. "),
      .nested (.apply "text.concat" [.constant (.string "Ada"), .constant (.string "!")])]
    let confused : Formula := .apply "logic.and" [.nested title, .reference "formal"]
    let confusedFolded : Formula := .apply "logic.and" [.constant (.string "Dr. "),
      .constant (.bool true)]
    greeting.FoldsTo .builtin context (some "people_0") folded ∧
      confused.FoldsTo .builtin context (some "people_0") confusedFolded ∧
      greeting.evaluate .builtin context (some "people_0") =
        .ok ⟨.string, .string "Dr. Ada!"⟩ ∧
      confused.evaluate .builtin context (some "people_0") =
        .error (.typeMismatch "logic.and" "left" .boolean "string") := by
  intro context title greeting folded confused confusedFolded
  have htitle : title.evaluate .builtin context (some "people_0") =
      .ok ⟨.any, .string "Dr. "⟩ := rfl
  have hgreeting : greeting.FoldsTo .builtin context (some "people_0") folded :=
    .apply (.cons (.evaluated htitle)
      (.cons (.nested (.apply (.cons (.reference "name") (.cons (.same _) .nil)))) .nil))
  have hconfused : confused.FoldsTo .builtin context (some "people_0") confusedFolded :=
    .apply (.cons (.evaluated htitle) (.cons (.reference "formal") .nil))
  refine ⟨hgreeting, hconfused, ?_, ?_⟩
  · rw [← Formula.evaluate_builtin_folded hgreeting]
    rfl
  · rw [← Formula.evaluate_builtin_folded hconfused]
    rfl

end FormDerivation
