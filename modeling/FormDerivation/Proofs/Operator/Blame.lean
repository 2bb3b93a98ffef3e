import FormDerivation.Proofs.Operator.Typing

/-!
# Whose error a formula ends with

All operands are evaluated before an operator is applied, so a formula fails as soon as any formula
nested in it fails on its own.  The error is that of one nested formula: one whose operator is not
registered, or one whose operands all have values and whose operator fails on them
(`Formula.evaluate_builtin_blames`).  An operator names itself in its errors, without its package
(`Operator.NamesItself`); the evaluation puts the full identifier there once, where the operator is
applied, and hands errors of operands on as they are.
-/

namespace FormDerivation

def FormulaError.blamed? : FormulaError → Option String
  | .wrongArgumentCount operator _ _ => some operator
  | .typeMismatch operator _ _ _ => some operator
  | .evaluation operator _ => some operator
  | .unknownOperator _ => none
  | .malformedExpression _ => none

theorem FormulaError.blamed?_scopedTo {error : FormulaError} {name : String}
    (h : error.blamed? = some name) (identifier : String) :
    (error.scopedTo identifier).blamed? = some identifier := by
  cases error with
  | unknownOperator _ => cases h
  | malformedExpression _ => cases h
  | _ => rfl

/-! ## Errors of operators -/

def Blames {α : Type} (name : String) (result : Except FormulaError α) : Prop :=
  ∀ error, result = .error error → error.blamed? = some name

def Operator.NamesItself (operator : Operator) : Prop :=
  ∀ values, Blames operator.name (operator.apply values)

namespace Blames

variable {α β : Type} {name : String}

theorem ok (a : α) : Blames name (.ok a) := by
  intro error h
  cases h

theorem bind {x : Except FormulaError α} {f : α → Except FormulaError β} (hx : Blames name x)
    (hf : ∀ a, Blames name (f a)) : Blames name (x >>= f) := by
  cases x with
  | error error =>
      intro error' h
      cases h
      exact hx error rfl
  | ok a => exact hf a

end Blames

namespace Arguments

variable (args : Arguments)

theorem failure_blames {α : Type} (message : String) :
    Blames args.operator (.error (args.failure message) : Except FormulaError α) := by
  intro error h
  cases h
  rfl

theorem mismatch_blames {α : Type} (index : Nat) :
    Blames args.operator (.error (args.mismatch index) : Except FormulaError α) := by
  intro error h
  cases h
  rfl

theorem value_blames (index : Nat) : Blames args.operator (args.value index) := by
  unfold value
  split
  case isTrue => exact .ok _
  case isFalse => exact args.mismatch_blames index

theorem read_blames {α : Type} (view : Json → Option α) (index : Nat) :
    Blames args.operator (args.read view index) := by
  refine .bind (args.value_blames index) fun value => ?_
  cases view value with
  | some a => exact .ok a
  | none => exact args.mismatch_blames index

end Arguments

namespace Operator

open Arguments (value_blames read_blames failure_blames)

theorem reading_namesItself {name label description : String} {parameters : List Parameter}
    {returnType : ValueType} {body : Arguments → Except FormulaError TypedValue}
    (h : ∀ args, Blames args.operator (body args)) :
    (reading name label description parameters returnType body).NamesItself :=
  fun values => h ⟨name, parameters, values⟩

theorem evaluate_blames {operator : Operator} (h : operator.NamesItself) (values : List Json) :
    Blames operator.name (operator.evaluate values) := by
  unfold evaluate
  split
  case isTrue =>
    intro error herror
    cases herror
    rfl
  case isFalse => exact h values

/-! ### Logic -/

theorem connective_namesItself (name label description : String) (f : Bool → Bool → Bool) :
    (connective name label description f).NamesItself := by
  refine reading_namesItself fun args => ?_
  refine .bind (args.read_blames _ 0) fun left => ?_
  refine .bind (args.read_blames _ 1) fun right => ?_
  exact .ok _

theorem notOperator_namesItself : notOperator.NamesItself := by
  refine reading_namesItself fun args => ?_
  refine .bind (args.read_blames _ 0) fun value => ?_
  exact .ok _

theorem ifElseOperator_namesItself : ifElseOperator.NamesItself := by
  refine reading_namesItself fun args => ?_
  refine .bind (args.read_blames _ 0) fun condition => ?_
  refine .bind (args.value_blames _) fun value => ?_
  exact .ok _

/-! ### Comparison -/

theorem equality_namesItself (name label description : String) (negate : Bool) :
    (equality name label description negate).NamesItself := by
  refine reading_namesItself fun args => ?_
  refine .bind (args.value_blames 0) fun left => ?_
  refine .bind (args.value_blames 1) fun right => ?_
  exact .ok _

theorem ordering_namesItself (name label : String) (f : Float → Float → Bool) :
    (ordering name label f).NamesItself := by
  refine reading_namesItself fun args => ?_
  refine .bind (args.read_blames _ 0) fun left => ?_
  refine .bind (args.read_blames _ 1) fun right => ?_
  exact .ok _

theorem isNullOperator_namesItself : isNullOperator.NamesItself := by
  refine reading_namesItself fun args => ?_
  refine .bind (args.value_blames 0) fun value => ?_
  exact .ok _

/-! ### Arithmetic -/

theorem finite_blames (args : Arguments) (x : Float) : Blames args.operator (finite args x) := by
  unfold finite
  split
  case isTrue => exact .ok _
  case isFalse => exact args.failure_blames _

theorem arithmetic_namesItself (name label : String) (f : Float → Float → Except String Float) :
    (arithmetic name label f).NamesItself := by
  refine reading_namesItself fun args => ?_
  refine .bind (args.read_blames _ 0) fun left => ?_
  refine .bind (args.read_blames _ 1) fun right => ?_
  cases f left right with
  | ok x => exact finite_blames args x
  | error message => exact args.failure_blames message

theorem roundOperator_namesItself : roundOperator.NamesItself := by
  refine reading_namesItself fun args => ?_
  refine .bind (args.read_blames _ 0) fun x => ?_
  refine .bind (args.read_blames _ 1) fun decimals => ?_
  split
  case isTrue => exact finite_blames args _
  case isFalse => exact args.failure_blames _

/-! ### Texts -/

theorem concatOperator_namesItself : concatOperator.NamesItself := by
  refine reading_namesItself fun args => ?_
  refine .bind (args.read_blames _ 0) fun first => ?_
  refine .bind (args.read_blames _ 1) fun second => ?_
  exact .ok _

theorem lengthOperator_namesItself : lengthOperator.NamesItself := by
  refine reading_namesItself fun args => ?_
  refine .bind (args.read_blames _ 0) fun text => ?_
  exact .ok _

theorem isEmptyOperator_namesItself : isEmptyOperator.NamesItself := by
  refine reading_namesItself fun args => ?_
  refine .bind (args.value_blames 0) fun value => ?_
  exact .ok _

theorem textContainsOperator_namesItself : textContainsOperator.NamesItself := by
  refine reading_namesItself fun args => ?_
  refine .bind (args.read_blames _ 0) fun text => ?_
  refine .bind (args.read_blames _ 1) fun other => ?_
  exact .ok _

theorem matchesOperator_namesItself : matchesOperator.NamesItself := by
  refine reading_namesItself fun args => ?_
  refine .bind (args.read_blames _ 0) fun text => ?_
  refine .bind (args.read_blames _ 1) fun pattern => ?_
  split
  case h_1 => exact .ok _
  case h_2 => exact args.failure_blames _

/-! ### Lists -/

theorem sizeOperator_namesItself : sizeOperator.NamesItself := by
  refine reading_namesItself fun args => ?_
  refine .bind (args.read_blames _ 0) fun items => ?_
  exact .ok _

theorem listContainsOperator_namesItself : listContainsOperator.NamesItself := by
  refine reading_namesItself fun args => ?_
  refine .bind (args.value_blames 1) fun value => ?_
  refine .bind (args.read_blames _ 0) fun items => ?_
  exact .ok _

theorem sumOperator_namesItself : sumOperator.NamesItself := by
  refine reading_namesItself fun args => ?_
  refine .bind (args.read_blames _ 0) fun items => ?_
  cases sumFrom 0 0.0 items with
  | ok total => exact finite_blames args total
  | error message => exact args.failure_blames message

/-! ### Dates -/

theorem dateOrder_namesItself (name label : String) (f : Date → Date → Bool) :
    (dateOrder name label f).NamesItself := by
  refine reading_namesItself fun args => ?_
  refine .bind (args.read_blames _ 0) fun date => ?_
  refine .bind (args.read_blames _ 1) fun other => ?_
  exact .ok _

theorem yearsBetweenOperator_namesItself : yearsBetweenOperator.NamesItself := by
  refine reading_namesItself fun args => ?_
  refine .bind (args.read_blames _ 0) fun start => ?_
  refine .bind (args.read_blames _ 1) fun finish => ?_
  exact .ok _

end Operator

namespace OperatorPackage

open Operator

theorem builtin_namesItself :
    ∀ package ∈ builtin, ∀ operator ∈ package.operators, operator.NamesItself := by
  have hlogic : logic.operators.Forall Operator.NamesItself :=
    ⟨connective_namesItself _ _ _ _, connective_namesItself _ _ _ _,
      connective_namesItself _ _ _ _, notOperator_namesItself, ifElseOperator_namesItself⟩
  have hcompare : compare.operators.Forall Operator.NamesItself :=
    ⟨equality_namesItself _ _ _ _, equality_namesItself _ _ _ _, ordering_namesItself _ _ _,
      ordering_namesItself _ _ _, ordering_namesItself _ _ _, ordering_namesItself _ _ _,
      isNullOperator_namesItself⟩
  have hmath : math.operators.Forall Operator.NamesItself :=
    ⟨arithmetic_namesItself _ _ _, arithmetic_namesItself _ _ _, arithmetic_namesItself _ _ _,
      arithmetic_namesItself _ _ _, roundOperator_namesItself⟩
  have htext : text.operators.Forall Operator.NamesItself :=
    ⟨concatOperator_namesItself, lengthOperator_namesItself, isEmptyOperator_namesItself,
      textContainsOperator_namesItself, matchesOperator_namesItself⟩
  have hlist : list.operators.Forall Operator.NamesItself :=
    ⟨sizeOperator_namesItself, listContainsOperator_namesItself, sumOperator_namesItself⟩
  have hdate : date.operators.Forall Operator.NamesItself :=
    ⟨dateOrder_namesItself _ _ _, dateOrder_namesItself _ _ _, yearsBetweenOperator_namesItself⟩
  simp only [builtin, List.forall_mem_cons, List.not_mem_nil, false_imp_iff, implies_true,
    and_true, ← List.forall_iff_forall_mem]
  exact ⟨hlogic, hcompare, hmath, htext, hlist, hdate⟩

end OperatorPackage

/-! ## Nested formulas -/

inductive Formula.Within : Formula → Formula → Prop where
  | self (formula : Formula) : Within formula formula
  | operand {inner formula : Formula} {identifier : String} {operands : List Operand} :
      Operand.nested formula ∈ operands → Within inner formula →
      Within inner (.apply identifier operands)

section

variable {registry : OperatorRegistry} {context : KeyMap Json} {scope : Option String}

theorem Operand.exists_evaluateAll_error {operand : Operand} {operands : List Operand}
    {error : FormulaError} (hmem : operand ∈ operands)
    (h : operand.evaluate registry context scope = .error error) :
    ∃ error', evaluateAll registry context scope operands = .error error' := by
  induction operands with
  | nil => cases hmem
  | cons first rest ih =>
      rw [evaluateAll_cons]
      cases hfirst : first.evaluate registry context scope with
      | error error' => exact ⟨error', rfl⟩
      | ok value =>
          rcases List.mem_cons.mp hmem with rfl | hmem
          · rw [hfirst] at h
            cases h
          · obtain ⟨error', hrest⟩ := ih hmem
            rw [hrest]
            exact ⟨error', rfl⟩

theorem Operand.exists_mem_of_evaluateAll {operands : List Operand} {error : FormulaError}
    (h : evaluateAll registry context scope operands = .error error) :
    ∃ operand ∈ operands, operand.evaluate registry context scope = .error error := by
  induction operands with
  | nil => cases h
  | cons first rest ih =>
      rw [evaluateAll_cons] at h
      cases hfirst : first.evaluate registry context scope with
      | error cause =>
          rw [hfirst] at h
          cases h
          exact ⟨first, List.mem_cons_self, hfirst⟩
      | ok value =>
          cases hrest : evaluateAll registry context scope rest with
          | error cause =>
              rw [hfirst, hrest] at h
              cases h
              obtain ⟨operand, hmem, hoperand⟩ := ih hrest
              exact ⟨operand, List.mem_cons_of_mem _ hmem, hoperand⟩
          | ok values =>
              rw [hfirst, hrest] at h
              cases h

theorem Operand.exists_nested_of_error {operand : Operand} {error : FormulaError}
    (h : operand.evaluate registry context scope = .error error) :
    ∃ formula, operand = .nested formula ∧
      formula.evaluate registry context scope = .error error := by
  cases operand with
  | constant value =>
      rw [evaluate] at h
      cases h
  | reference id =>
      rw [evaluate] at h
      cases h
  | nested formula =>
      rw [evaluate_nested] at h
      cases hformula : formula.evaluate registry context scope with
      | error cause =>
          rw [hformula] at h
          cases h
          exact ⟨formula, rfl, hformula⟩
      | ok result =>
          rw [hformula] at h
          cases h

theorem Operand.forall₂_evaluateAll {operands : List Operand} {values : List Json}
    (h : evaluateAll registry context scope operands = .ok values) :
    List.Forall₂ (fun operand value => operand.evaluate registry context scope = .ok value)
      operands values := by
  induction operands generalizing values with
  | nil =>
      cases h
      exact .nil
  | cons first rest ih =>
      rw [evaluateAll_cons] at h
      cases hfirst : first.evaluate registry context scope with
      | error error =>
          rw [hfirst] at h
          cases h
      | ok value =>
          cases hrest : evaluateAll registry context scope rest with
          | error error =>
              rw [hfirst, hrest] at h
              cases h
          | ok others =>
              rw [hfirst, hrest] at h
              cases h
              exact .cons hfirst (ih hrest)

/-- No operator skips an operand that fails. -/
theorem Formula.exists_error_of_within {inner formula : Formula} (h : inner.Within formula)
    {error : FormulaError} (hinner : inner.evaluate registry context scope = .error error) :
    ∃ error', formula.evaluate registry context scope = .error error' := by
  induction h with
  | self => exact ⟨error, hinner⟩
  | @operand formula identifier operands hmem _ ih =>
      obtain ⟨error', hformula⟩ := ih
      have hoperand : (Operand.nested formula).evaluate registry context scope =
          .error error' := by
        rw [Operand.evaluate_nested, hformula]
        rfl
      obtain ⟨cause, hoperands⟩ := Operand.exists_evaluateAll_error hmem hoperand
      rw [evaluate]
      cases registry.get? identifier with
      | none => exact ⟨_, rfl⟩
      | some operator =>
          rw [hoperands]
          exact ⟨cause, rfl⟩

variable (registry context scope)

/--
A formula fails by itself: its operator is unknown, or all of its operands have values and its
operator fails on them.
-/
inductive Formula.FailsItself : Formula → FormulaError → Prop where
  | unknown {identifier : String} {operands : List Operand} :
      registry.get? identifier = none →
      FailsItself (.apply identifier operands) (.unknownOperator identifier)
  | applied {identifier : String} {operands : List Operand} {operator : Operator}
      {values : List Json} {error : FormulaError} :
      registry.get? identifier = some operator →
      List.Forall₂ (fun operand value => operand.evaluate registry context scope = .ok value)
        operands values →
      operator.evaluate values = .error error →
      FailsItself (.apply identifier operands) (error.scopedTo identifier)

variable {registry context scope}

/-- An error of a formula is that of a formula in it which fails by itself. -/
theorem Formula.exists_failsItself {error : FormulaError} : {formula : Formula} →
    formula.evaluate registry context scope = .error error →
    ∃ inner : Formula, inner.Within formula ∧
      inner.evaluate registry context scope = .error error ∧
      inner.FailsItself registry context scope error
  | .apply identifier operands, h => by
      have hself := Within.self (.apply identifier operands)
      have hformula := h
      rw [evaluate] at h
      cases hfound : registry.get? identifier with
      | none =>
          rw [hfound] at h
          cases h
          exact ⟨_, hself, hformula, .unknown hfound⟩
      | some operator =>
          rw [hfound] at h
          cases hoperands : Operand.evaluateAll registry context scope operands with
          | error cause =>
              rw [hoperands] at h
              cases h
              obtain ⟨operand, hmem, hoperand⟩ := Operand.exists_mem_of_evaluateAll hoperands
              obtain ⟨formula, rfl, hnested⟩ := Operand.exists_nested_of_error hoperand
              obtain ⟨inner, hwithin, hinner⟩ := exists_failsItself hnested
              exact ⟨inner, .operand hmem hwithin, hinner⟩
          | ok values =>
              simp only [hoperands] at h
              cases hcall : operator.evaluate values with
              | error raised =>
                  rw [hcall] at h
                  cases h
                  exact ⟨_, hself, hformula,
                    .applied hfound (Operand.forall₂_evaluateAll hoperands) hcall⟩
              | ok result =>
                  rw [hcall] at h
                  cases h
termination_by formula => sizeOf formula
decreasing_by
  have hsize := List.sizeOf_lt_of_mem hmem
  simp only [Operand.nested.sizeOf_spec, Formula.apply.sizeOf_spec] at hsize ⊢
  omega

end

/--
Every operand counts, and every error is about the formula that is at fault.  A formula fails if any
formula nested in it does.  Its error is that of a nested formula whose operator is not registered, or
whose operands all have values while its own operator fails on them; the error then has the full
identifier of that operator, the package in front of the name.
-/
theorem Formula.evaluate_builtin_blames (formula : Formula) (context : KeyMap Json)
    (scope : Option String) :
    (∀ inner : Formula, inner.Within formula →
      (∃ error, inner.evaluate .builtin context scope = .error error) →
      ∃ error, formula.evaluate .builtin context scope = .error error) ∧
    ∀ error, formula.evaluate .builtin context scope = .error error →
      ∃ inner : Formula, inner.Within formula ∧
        inner.evaluate .builtin context scope = .error error ∧
        (OperatorRegistry.builtin.get? inner.operator = none ∧
            error = .unknownOperator inner.operator ∨
          ∃ package ∈ OperatorPackage.builtin, ∃ operator ∈ package.operators,
            inner.operator = package.name ++ "." ++ operator.name ∧
            (∃ values,
              List.Forall₂ (fun operand value => operand.evaluate .builtin context scope = .ok value)
                inner.operands values ∧
              ∃ raised, operator.evaluate values = .error raised ∧
                error = raised.scopedTo inner.operator) ∧
            error.blamed? = some inner.operator) := by
  refine ⟨fun inner hwithin ⟨error, hinner⟩ => exists_error_of_within hwithin hinner, ?_⟩
  intro error h
  obtain ⟨inner, hwithin, hinner, hfails⟩ := exists_failsItself h
  refine ⟨inner, hwithin, hinner, ?_⟩
  cases hfails with
  | unknown hnone => exact .inl ⟨hnone, rfl⟩
  | @applied identifier operands operator values raised hfound hoperands hcall =>
      obtain ⟨package, hpackage, hoperator, hidentifier⟩ := OperatorRegistry.exists_builtin hfound
      have hraised : raised.blamed? = some operator.name :=
        Operator.evaluate_blames (OperatorPackage.builtin_namesItself package hpackage operator
          hoperator) values raised hcall
      exact .inr ⟨package, hpackage, operator, hoperator, hidentifier,
        ⟨values, hoperands, raised, hcall, rfl⟩, FormulaError.blamed?_scopedTo hraised identifier⟩

theorem Formula.evaluate_builtin_blames_unchosen :
    let broken : Formula := .apply "text.contains" [.constant (.string "abc")]
    let formula : Formula := .apply "logic.if-else" [.constant (.bool true),
      .constant (.string "yes"), .nested (.apply "logic.not" [.nested broken])]
    broken.Within formula ∧
      broken.evaluate .builtin .empty none = .error (.wrongArgumentCount "text.contains" 2 1) ∧
      (∃ error, formula.evaluate .builtin .empty none = .error error) ∧
      ∃ inner : Formula, inner.Within formula ∧
        (.wrongArgumentCount "text.contains" 2 1 : FormulaError).blamed? = some inner.operator := by
  intro broken formula
  have hwithin : broken.Within formula :=
    .operand (List.mem_of_getLast? rfl) (.operand List.mem_cons_self (.self broken))
  have hbroken : broken.evaluate .builtin .empty none =
      .error (.wrongArgumentCount "text.contains" 2 1) := rfl
  have hformula : formula.evaluate .builtin .empty none =
      .error (.wrongArgumentCount "text.contains" 2 1) := rfl
  obtain ⟨hstrict, hblame⟩ := Formula.evaluate_builtin_blames formula .empty none
  refine ⟨hwithin, hbroken, hstrict broken hwithin ⟨_, hbroken⟩, ?_⟩
  obtain ⟨inner, hinner, -, ⟨-, hunknown⟩ | ⟨-, -, -, -, -, -, hblamed⟩⟩ := hblame _ hformula
  · cases hunknown
  · exact ⟨inner, hinner, hblamed⟩

end FormDerivation
