import FormDerivation.Operator.Builtin
import Mathlib.Data.List.Forall2

/-!
# Operators keep their declarations

An operator reads its arguments by position, and nothing in its definition ties a reading to the
parameter that it declares there.  `Operator.Sound` is the tie: on arguments that the declared
parameters accept, no reading fails, and a result is one that the declared return type accepts.
-/

namespace FormDerivation

abbrev Accepted (parameters : List Parameter) (values : List Json) : Prop :=
  List.Forall₂ (fun parameter value => parameter.type.accepts value = true) parameters values

/-- An operator failed on its arguments, which is no fault of the formula, or all went well. -/
def Yields {α : Type} (good : α → Prop) (result : Except FormulaError α) : Prop :=
  (∃ operator message, result = .error (.evaluation operator message)) ∨
    ∃ a, result = .ok a ∧ good a

/-- On arguments that its parameters accept, an operator fails or yields a value of its type. -/
def Operator.Sound (operator : Operator) : Prop :=
  ∀ values, Accepted operator.parameters values →
    Yields (fun v => operator.returnType.accepts v.value = true) (operator.apply values)

/-! ## Values of a type -/

namespace ValueType

theorem accepts_boolean {value : Json} (h : accepts .boolean value = true) :
    ∃ b, value.bool? = some b := by
  cases value with
  | bool b => exact ⟨b, rfl⟩
  | _ => cases h

theorem accepts_number {value : Json} (h : accepts .number value = true) :
    ∃ x, value.number? = some x := by
  cases value with
  | int n => exact ⟨Float.ofInt n, rfl⟩
  | float x => exact ⟨x, rfl⟩
  | _ => cases h

theorem accepts_string {value : Json} (h : accepts .string value = true) :
    ∃ text, value.string? = some text := by
  cases value with
  | string text => exact ⟨text, rfl⟩
  | _ => cases h

theorem accepts_date {value : Json} (h : accepts .date value = true) :
    ∃ date, value.string?.bind Date.parse? = some date := by
  cases value with
  | string text => exact Option.isSome_iff_exists.mp h
  | _ => cases h

theorem accepts_list {value : Json} (h : accepts .list value = true) :
    ∃ items, value.array? = some items := by
  cases value with
  | array items => exact ⟨items, rfl⟩
  | _ => cases h

@[simp] theorem accepts_any (value : Json) : accepts .any value = true := by
  cases value <;> rfl

theorem accepts_numberValue {x : Float} (h : Decimal.isFinite x = true) :
    accepts .number (numberValue x) = true := by
  simp only [numberValue, h, if_true]
  split <;> rfl

end ValueType

/-! ## Readings -/

theorem Accepted.argument {parameters : List Parameter} {values : List Json}
    (h : Accepted parameters values) {index : Nat} {parameter : Parameter}
    (hparameter : parameters[index]? = some parameter) :
    parameter.type.accepts (values.getD index .null) = true := by
  induction h generalizing index with
  | nil => simp at hparameter
  | cons hhead _ ih =>
      cases index with
      | zero =>
          have heq : _ = parameter := Option.some.inj hparameter
          simpa [heq] using hhead
      | succ index => simpa using ih hparameter

namespace Arguments

variable {args : Arguments} {index : Nat} {name : String}

theorem value_of_accepted {type : ValueType} (h : Accepted args.parameters args.values)
    (hparameter : args.parameters[index]? = some ⟨name, type⟩) :
    args.value index = .ok (args.argument index) ∧
      type.accepts (args.argument index) = true := by
  have haccepts : type.accepts (args.argument index) = true := h.argument hparameter
  have hdeclared : args.parameter index = ⟨name, type⟩ := by
    simp [parameter, List.getD, hparameter]
  rw [value, hdeclared, if_pos haccepts]
  exact ⟨rfl, haccepts⟩

theorem read_of_accepted {α : Type} {view : Json → Option α} {type : ValueType}
    (hview : ∀ {value}, type.accepts value = true → ∃ a, view value = some a)
    (h : Accepted args.parameters args.values)
    (hparameter : args.parameters[index]? = some ⟨name, type⟩) :
    ∃ a, args.read view index = .ok a := by
  obtain ⟨hvalue, haccepts⟩ := value_of_accepted h hparameter
  obtain ⟨a, ha⟩ := hview haccepts
  refine ⟨a, ?_⟩
  simp [read, hvalue, bind, Except.bind, ha]

theorem boolean_of_accepted (h : Accepted args.parameters args.values)
    (hparameter : args.parameters[index]? = some ⟨name, .boolean⟩) :
    ∃ b, args.boolean index = .ok b :=
  read_of_accepted ValueType.accepts_boolean h hparameter

theorem number_of_accepted (h : Accepted args.parameters args.values)
    (hparameter : args.parameters[index]? = some ⟨name, .number⟩) :
    ∃ x, args.number index = .ok x :=
  read_of_accepted ValueType.accepts_number h hparameter

theorem text_of_accepted (h : Accepted args.parameters args.values)
    (hparameter : args.parameters[index]? = some ⟨name, .string⟩) :
    ∃ text, args.text index = .ok text :=
  read_of_accepted ValueType.accepts_string h hparameter

theorem list_of_accepted (h : Accepted args.parameters args.values)
    (hparameter : args.parameters[index]? = some ⟨name, .list⟩) :
    ∃ items, args.list index = .ok items :=
  read_of_accepted ValueType.accepts_list h hparameter

theorem date_of_accepted (h : Accepted args.parameters args.values)
    (hparameter : args.parameters[index]? = some ⟨name, .date⟩) :
    ∃ date, args.date index = .ok date :=
  read_of_accepted ValueType.accepts_date h hparameter

theorem any_of_accepted (h : Accepted args.parameters args.values)
    (hparameter : args.parameters[index]? = some ⟨name, .any⟩) :
    ∃ value, args.value index = .ok value :=
  ⟨_, (value_of_accepted h hparameter).1⟩

end Arguments

/-! ## Results -/

namespace Yields

variable {α β : Type} {good : α → Prop} {better : β → Prop}

theorem of_ok {a : α} (h : good a) : Yields good (.ok a) :=
  .inr ⟨a, rfl, h⟩

theorem of_evaluation (operator message : String) :
    Yields good (.error (.evaluation operator message)) :=
  .inl ⟨operator, message, rfl⟩

theorem read {x : Except FormulaError α} {f : α → Except FormulaError β}
    (hx : ∃ a, x = .ok a) (hf : ∀ a, Yields better (f a)) : Yields better (x >>= f) := by
  obtain ⟨a, rfl⟩ := hx
  exact hf a

theorem andThen {x : Except FormulaError α} {f : α → Except FormulaError β}
    (hx : Yields good x) (hf : ∀ a, good a → Yields better (f a)) : Yields better (x >>= f) := by
  obtain ⟨operator, message, rfl⟩ | ⟨a, rfl, ha⟩ := hx
  · exact of_evaluation operator message
  · exact hf a ha

theorem finite (args : Arguments) (x : Float) :
    Yields (fun v => ValueType.accepts .number v.value = true) (Operator.finite args x) := by
  rw [Operator.finite]
  split
  case isTrue hfinite => exact of_ok (ValueType.accepts_numberValue hfinite)
  case isFalse => exact of_evaluation _ _

end Yields

namespace Operator

/-- An operator is sound if its body is on all arguments that its parameters accept. -/
theorem reading_sound {name label description : String} {parameters : List Parameter}
    {returnType : ValueType} {body : Arguments → Except FormulaError TypedValue}
    (h : ∀ values, Accepted parameters values →
      Yields (fun v => returnType.accepts v.value = true) (body ⟨name, parameters, values⟩)) :
    (reading name label description parameters returnType body).Sound :=
  h

/-! ## Logic -/

theorem connective_sound (name label description : String) (f : Bool → Bool → Bool) :
    (connective name label description f).Sound := by
  refine reading_sound fun values h => ?_
  refine .read (Arguments.boolean_of_accepted h rfl) fun left => ?_
  refine .read (Arguments.boolean_of_accepted h rfl) fun right => ?_
  exact .of_ok rfl

theorem notOperator_sound : notOperator.Sound := by
  refine reading_sound fun values h => ?_
  refine .read (Arguments.boolean_of_accepted h rfl) fun b => ?_
  exact .of_ok rfl

theorem ifElseOperator_sound : ifElseOperator.Sound := by
  refine reading_sound fun values h => ?_
  refine .read (Arguments.boolean_of_accepted h rfl) fun condition => ?_
  refine .read ?_ fun chosen => .of_ok (ValueType.accepts_any _)
  cases condition with
  | true => exact Arguments.any_of_accepted h rfl
  | false => exact Arguments.any_of_accepted h rfl

/-! ## Comparison -/

theorem equality_sound (name label description : String) (negate : Bool) :
    (equality name label description negate).Sound := by
  refine reading_sound fun values h => ?_
  refine .read (Arguments.any_of_accepted h rfl) fun left => ?_
  refine .read (Arguments.any_of_accepted h rfl) fun right => ?_
  exact .of_ok rfl

theorem ordering_sound (name label : String) (f : Float → Float → Bool) :
    (ordering name label f).Sound := by
  refine reading_sound fun values h => ?_
  refine .read (Arguments.number_of_accepted h rfl) fun left => ?_
  refine .read (Arguments.number_of_accepted h rfl) fun right => ?_
  exact .of_ok rfl

theorem isNullOperator_sound : isNullOperator.Sound := by
  refine reading_sound fun values h => ?_
  refine .read (Arguments.any_of_accepted h rfl) fun value => ?_
  exact .of_ok rfl

/-! ## Arithmetic -/

theorem arithmetic_sound (name label : String) (f : Float → Float → Except String Float) :
    (arithmetic name label f).Sound := by
  refine reading_sound fun values h => ?_
  refine .read (Arguments.number_of_accepted h rfl) fun left => ?_
  refine .read (Arguments.number_of_accepted h rfl) fun right => ?_
  cases f left right with
  | ok x => exact .finite _ x
  | error message => exact .of_evaluation _ message

theorem roundOperator_sound : roundOperator.Sound := by
  refine reading_sound fun values h => ?_
  refine .read (Arguments.number_of_accepted h rfl) fun x => ?_
  refine .read (Arguments.number_of_accepted h rfl) fun decimals => ?_
  split
  case isTrue => exact .finite _ _
  case isFalse => exact .of_evaluation _ _

/-! ## Texts -/

theorem concatOperator_sound : concatOperator.Sound := by
  refine reading_sound fun values h => ?_
  refine .read (Arguments.text_of_accepted h rfl) fun first => ?_
  refine .read (Arguments.text_of_accepted h rfl) fun second => ?_
  exact .of_ok rfl

theorem lengthOperator_sound : lengthOperator.Sound := by
  refine reading_sound fun values h => ?_
  refine .read (Arguments.text_of_accepted h rfl) fun text => ?_
  exact .of_ok rfl

theorem isEmptyOperator_sound : isEmptyOperator.Sound := by
  refine reading_sound fun values h => ?_
  refine .read (Arguments.any_of_accepted h rfl) fun value => ?_
  exact .of_ok rfl

theorem textContainsOperator_sound : textContainsOperator.Sound := by
  refine reading_sound fun values h => ?_
  refine .read (Arguments.text_of_accepted h rfl) fun text => ?_
  refine .read (Arguments.text_of_accepted h rfl) fun other => ?_
  exact .of_ok rfl

theorem matchesOperator_sound : matchesOperator.Sound := by
  refine reading_sound fun values h => ?_
  refine .read (Arguments.text_of_accepted h rfl) fun text => ?_
  refine .read (Arguments.text_of_accepted h rfl) fun pattern => ?_
  split
  case h_1 => exact .of_ok rfl
  case h_2 => exact .of_evaluation _ _

/-! ## Lists -/

theorem sizeOperator_sound : sizeOperator.Sound := by
  refine reading_sound fun values h => ?_
  refine .read (Arguments.list_of_accepted h rfl) fun items => ?_
  exact .of_ok rfl

theorem listContainsOperator_sound : listContainsOperator.Sound := by
  refine reading_sound fun values h => ?_
  refine .read (Arguments.any_of_accepted h rfl) fun value => ?_
  refine .read (Arguments.list_of_accepted h rfl) fun items => ?_
  exact .of_ok rfl

theorem sumOperator_sound : sumOperator.Sound := by
  refine reading_sound fun values h => ?_
  refine .read (Arguments.list_of_accepted h rfl) fun items => ?_
  cases sumFrom 0 0.0 items with
  | ok total => exact .finite _ total
  | error message => exact .of_evaluation _ message

/-! ## Dates -/

theorem dateOrder_sound (name label : String) (f : Date → Date → Bool) :
    (dateOrder name label f).Sound := by
  refine reading_sound fun values h => ?_
  refine .read (Arguments.date_of_accepted h rfl) fun date => ?_
  refine .read (Arguments.date_of_accepted h rfl) fun other => ?_
  exact .of_ok rfl

theorem yearsBetweenOperator_sound : yearsBetweenOperator.Sound := by
  refine reading_sound fun values h => ?_
  refine .read (Arguments.date_of_accepted h rfl) fun start => ?_
  refine .read (Arguments.date_of_accepted h rfl) fun finish => ?_
  exact .of_ok rfl

end Operator

namespace OperatorPackage

open Operator

def Sound (package : OperatorPackage) : Prop :=
  ∀ operator ∈ package.operators, operator.Sound

theorem sound_iff (name : String) (operators : List Operator) :
    Sound ⟨name, operators⟩ ↔ operators.Forall Operator.Sound :=
  List.forall_iff_forall_mem.symm

theorem logic_sound : logic.Sound :=
  (sound_iff _ _).mpr ⟨connective_sound _ _ _ _, connective_sound _ _ _ _,
    connective_sound _ _ _ _, notOperator_sound, ifElseOperator_sound⟩

theorem compare_sound : compare.Sound :=
  (sound_iff _ _).mpr ⟨equality_sound _ _ _ _, equality_sound _ _ _ _, ordering_sound _ _ _,
    ordering_sound _ _ _, ordering_sound _ _ _, ordering_sound _ _ _, isNullOperator_sound⟩

theorem math_sound : math.Sound :=
  (sound_iff _ _).mpr ⟨arithmetic_sound _ _ _, arithmetic_sound _ _ _, arithmetic_sound _ _ _,
    arithmetic_sound _ _ _, roundOperator_sound⟩

theorem text_sound : text.Sound :=
  (sound_iff _ _).mpr ⟨concatOperator_sound, lengthOperator_sound, isEmptyOperator_sound,
    textContainsOperator_sound, matchesOperator_sound⟩

theorem list_sound : list.Sound :=
  (sound_iff _ _).mpr ⟨sizeOperator_sound, listContainsOperator_sound, sumOperator_sound⟩

theorem date_sound : date.Sound :=
  (sound_iff _ _).mpr ⟨dateOrder_sound _ _ _, dateOrder_sound _ _ _, yearsBetweenOperator_sound⟩

theorem builtin_sound : ∀ package ∈ builtin, package.Sound := by
  simp only [builtin, List.forall_mem_cons, List.not_mem_nil, false_imp_iff, implies_true,
    and_true]
  exact ⟨logic_sound, compare_sound, math_sound, text_sound, list_sound, date_sound⟩

end OperatorPackage

end FormDerivation
