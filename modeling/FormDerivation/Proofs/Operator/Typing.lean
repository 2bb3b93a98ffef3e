import FormDerivation.Operator.Evaluation
import FormDerivation.Proofs.KeyMap
import FormDerivation.Proofs.Operator.Soundness

/-!
# Well-typed formulas

`Formula.HasType` is the type system of formulas over a registry, in a context and the scope of a
repetition.  References are typed by what the context holds under them, so a formula has a type in
one context and none in another.

Where every operator of the registry is sound, a well-typed formula has a value of its type unless
one of its operators fails on the values that it is applied to (`Formula.evaluate_yields`).  The
induction is on the syntax; the arguments of an operator are accepted by its parameters because a
nested formula yields a value of its declared type.
-/

namespace FormDerivation

section

variable (registry : OperatorRegistry) (context : KeyMap Json) (scope : Option String)

mutual

inductive Formula.HasType : Formula → ValueType → Prop where
  | apply {identifier : String} {operator : Operator} {operands : List Operand} :
      registry.get? identifier = some operator →
      Operand.FitAll operands operator.parameters →
      Formula.HasType (.apply identifier operands) operator.returnType

inductive Operand.Fits : Operand → ValueType → Prop where
  | constant {value : Json} {type : ValueType} :
      type.accepts value = true → Operand.Fits (.constant value) type
  | reference {id : String} {type : ValueType} :
      type.accepts ((context.get? (scopedKey scope id)).getD .null) = true →
      Operand.Fits (.reference id) type
  | nested {formula : Formula} {declared type : ValueType} :
      Formula.HasType formula declared → type = .any ∨ declared = type →
      Operand.Fits (.nested formula) type

inductive Operand.FitAll : List Operand → List Parameter → Prop where
  | nil : Operand.FitAll [] []
  | cons {operand : Operand} {operands : List Operand} {parameter : Parameter}
      {parameters : List Parameter} :
      Operand.Fits operand parameter.type → Operand.FitAll operands parameters →
      Operand.FitAll (operand :: operands) (parameter :: parameters)

end

def OperatorRegistry.Sound : Prop :=
  ∀ identifier operator, registry.get? identifier = some operator → operator.Sound

end

/-- What a well-typed formula of a type ends with. -/
abbrev TypedValue.Of (type : ValueType) (v : TypedValue) : Prop :=
  v.type = type ∧ type.accepts v.value = true

theorem Operator.evaluate_of_accepted {operator : Operator} {values : List Json}
    (h : Accepted operator.parameters values) :
    operator.evaluate values = operator.apply values := by
  have hlength : values.length = operator.parameters.length := h.length_eq.symm
  simp [Operator.evaluate, hlength]

section

variable {registry : OperatorRegistry} {context : KeyMap Json} {scope : Option String}

/-! ## The steps of an evaluation -/

theorem Formula.evaluate_apply {identifier : String} {operator : Operator}
    {operands : List Operand} (h : registry.get? identifier = some operator) :
    (Formula.apply identifier operands).evaluate registry context scope = (do
      let values ← Operand.evaluateAll registry context scope operands
      match operator.evaluate values with
      | .error error => .error (error.scopedTo identifier)
      | .ok result => .ok ⟨operator.returnType, result.value⟩) := by
  rw [Formula.evaluate, h]
  dsimp only
  cases Operand.evaluateAll registry context scope operands <;> rfl

@[simp] theorem Operand.evaluate_nested (formula : Formula) :
    (Operand.nested formula).evaluate registry context scope = (do
      let result ← formula.evaluate registry context scope
      return result.value) := by
  rw [Operand.evaluate]
  cases formula.evaluate registry context scope <;> rfl

@[simp] theorem Operand.evaluateAll_cons (operand : Operand) (operands : List Operand) :
    Operand.evaluateAll registry context scope (operand :: operands) = (do
      let value ← operand.evaluate registry context scope
      let values ← Operand.evaluateAll registry context scope operands
      return value :: values) := by
  rw [Operand.evaluateAll]
  cases operand.evaluate registry context scope with
  | error error => rfl
  | ok value => cases Operand.evaluateAll registry context scope operands <;> rfl

/-! ## Well-typed formulas have values -/

mutual

theorem Formula.evaluate_yields (hregistry : registry.Sound) :
    ∀ {formula : Formula} {type : ValueType}, formula.HasType registry context scope type →
      Yields (TypedValue.Of type) (formula.evaluate registry context scope)
  | .apply identifier operands, _, .apply hfound hoperands => by
      rw [Formula.evaluate_apply hfound]
      refine .andThen (Operand.evaluateAll_yields hregistry hoperands) fun values haccepted => ?_
      rw [Operator.evaluate_of_accepted haccepted]
      obtain ⟨failing, message, herror⟩ | ⟨result, hresult, haccepts⟩ :=
        hregistry identifier _ hfound values haccepted
      · -- The error is told under the full identifier.
        rw [herror]
        exact .of_evaluation identifier message
      · rw [hresult]
        exact .of_ok ⟨rfl, haccepts⟩

theorem Operand.evaluate_yields (hregistry : registry.Sound) :
    ∀ {operand : Operand} {type : ValueType}, operand.Fits registry context scope type →
      Yields (fun value => type.accepts value = true) (operand.evaluate registry context scope)
  | .constant value, _, .constant haccepts => by
      rw [Operand.evaluate]
      exact .of_ok haccepts
  | .reference id, _, .reference haccepts => by
      rw [Operand.evaluate]
      exact .of_ok haccepts
  | .nested formula, type, .nested htyped hdeclared => by
      rw [Operand.evaluate_nested]
      refine .andThen (Formula.evaluate_yields hregistry htyped) fun result hresult => .of_ok ?_
      obtain rfl | rfl := hdeclared
      · exact ValueType.accepts_any _
      · exact hresult.2

theorem Operand.evaluateAll_yields (hregistry : registry.Sound) :
    ∀ {operands : List Operand} {parameters : List Parameter},
      Operand.FitAll registry context scope operands parameters →
      Yields (Accepted parameters) (Operand.evaluateAll registry context scope operands)
  | [], _, .nil => by
      rw [Operand.evaluateAll]
      exact .of_ok .nil
  | operand :: operands, _, .cons hfits hrest => by
      rw [Operand.evaluateAll_cons]
      refine .andThen (Operand.evaluate_yields hregistry hfits) fun value haccepts => ?_
      refine .andThen (Operand.evaluateAll_yields hregistry hrest) fun values haccepted => ?_
      exact .of_ok (.cons haccepts haccepted)

end

end

theorem OperatorRegistry.exists_builtin {identifier : String} {operator : Operator}
    (h : OperatorRegistry.builtin.get? identifier = some operator) :
    ∃ package ∈ OperatorPackage.builtin, operator ∈ package.operators ∧
      identifier = package.name ++ "." ++ operator.name := by
  have hmem := KeyMap.mem_of_get?_ofList h
  obtain ⟨package, hpackage, hmem⟩ := List.mem_flatMap.mp hmem
  obtain ⟨declared, hdeclared, heq⟩ := List.mem_map.mp hmem
  cases heq
  exact ⟨package, hpackage, hdeclared, rfl⟩

theorem OperatorRegistry.builtin_sound : OperatorRegistry.builtin.Sound := by
  intro identifier operator hfound
  obtain ⟨package, hpackage, hoperator, -⟩ := exists_builtin hfound
  exact OperatorPackage.builtin_sound package hpackage operator hoperator

/--
A well-typed formula over the built-in operators has a value of the declared type of its operator,
or an operator in it fails on its arguments.  No other error is possible.
-/
theorem Formula.evaluate_builtin_typed {context : KeyMap Json} {scope : Option String}
    {formula : Formula} {type : ValueType} (h : formula.HasType .builtin context scope type) :
    ∃ operator, OperatorRegistry.builtin.get? formula.operator = some operator ∧
      operator.returnType = type ∧
      ((∃ failing message,
          formula.evaluate .builtin context scope = .error (.evaluation failing message)) ∨
        ∃ value, formula.evaluate .builtin context scope = .ok ⟨operator.returnType, value⟩ ∧
          operator.returnType.accepts value = true) := by
  have hyields := evaluate_yields OperatorRegistry.builtin_sound h
  cases h with
  | apply hfound _ =>
      refine ⟨_, hfound, rfl, ?_⟩
      rcases hyields with herror | ⟨⟨_, value⟩, hresult, rfl, haccepts⟩
      · exact .inl herror
      · exact .inr ⟨value, hresult, haccepts⟩

theorem Formula.evaluate_builtin_typed_dates :
    let context : KeyMap Json := .ofList [("people_0_born", .string "2000-06-15")]
    let formula : Formula := .apply "logic.not" [.nested (.apply "date.before"
      [.reference "born", .constant (.string "1999-12-31")])]
    formula.HasType .builtin context (some "people_0") .boolean ∧
      ∃ value, formula.evaluate .builtin context (some "people_0") = .ok ⟨.boolean, value⟩ ∧
        ValueType.accepts .boolean value = true := by
  intro context formula
  have hnot : OperatorRegistry.builtin.get? "logic.not" = some Operator.notOperator := rfl
  have hbefore : OperatorRegistry.builtin.get? "date.before" = some Operator.beforeOperator := rfl
  have htyped : formula.HasType .builtin context (some "people_0") .boolean := by
    refine .apply hnot (.cons (.nested (.apply hbefore ?_) (.inr rfl)) .nil)
    exact .cons (.reference (by decide)) (.cons (.constant (by decide)) .nil)
  refine ⟨htyped, ?_⟩
  obtain ⟨operator, -, htype, ⟨failing, message, herror⟩ | hvalue⟩ :=
    evaluate_builtin_typed htyped
  · have hvalue : formula.evaluate .builtin context (some "people_0") =
        .ok ⟨.boolean, .bool true⟩ := rfl
    cases herror.symm.trans hvalue
  · rw [htype] at hvalue
    exact hvalue

end FormDerivation
