import FormDerivation.Validation
import Mathlib.Data.List.DropRight

/-!
# Fields and their constraints

A value that is no answer (`FieldKind.Blank`) fails required fields only, and one of the wrong type
fails before the constraint is looked at.  Any other value has to satisfy the members of the
constraint, each of which asks for the same beside others as alone
(`Constraint.violation?_eq_findSome?`).  So a constraint accepts what all its members accept, and
members that are added only take away (`FieldTraits.check_conjunction`).
-/

namespace FormDerivation

/-! ## Blank values -/

namespace FieldKind

inductive Blank (kind : FieldKind) : Json → Prop where
  | null : Blank kind .null
  | unticked : kind = .checkbox → Blank kind (.bool false)
  | blanks {s : String} : (∀ c ∈ s.toList, Text.isBlank c = true) → Blank kind (.string s)
  | noItems : Blank kind (.array [])

theorem trim_eq_empty_iff (s : String) :
    Text.trim s = "" ↔ ∀ c ∈ s.toList, Text.isBlank c = true := by
  have hstart : (∀ c ∈ Text.trimStartChars s.toList, Text.isBlank c = true) ↔
      ∀ c ∈ s.toList, Text.isBlank c = true := by
    rw [← List.dropWhile_eq_nil_iff, ← List.dropWhile_eq_nil_iff, Text.trimStartChars,
      List.dropWhile_idempotent]
  rw [← hstart, ← String.toList_inj, Text.trim, String.toList_ofList, Text.trimEndChars]
  simp [List.dropWhile_eq_nil_iff]

theorem isBlank_iff (kind : FieldKind) (value : Json) :
    kind.isBlank value = true ↔ kind.Blank value := by
  constructor
  · intro h
    cases value with
    | null => exact .null
    | bool b =>
        simp only [isBlank, Bool.and_eq_true, Bool.not_eq_true', beq_iff_eq] at h
        rw [h.1]
        exact .unticked h.2
    | string s => exact .blanks ((trim_eq_empty_iff s).mp (of_decide_eq_true h))
    | array items =>
        rw [List.isEmpty_iff.mp h]
        exact .noItems
    | int n => cases h
    | float x => cases h
    | object members => cases h
  · intro h
    cases h with
    | null => rfl
    | unticked hkind => simp [isBlank, hkind]
    | blanks hblank => exact decide_eq_true ((trim_eq_empty_iff _).mpr hblank)
    | noItems => rfl

theorem isBlank_eq_false_iff (kind : FieldKind) (value : Json) :
    kind.isBlank value = false ↔ ¬ kind.Blank value := by
  rw [← isBlank_iff, Bool.not_eq_true]

end FieldKind

/-! ## Members of a constraint -/

namespace Constraint

inductive Member where
  | pattern
  | minLength
  | maxLength
  | min
  | max

def Member.all : List Member :=
  [.pattern, .minLength, .maxLength, .min, .max]

theorem Member.mem_all (member : Member) : member ∈ all := by
  cases member <;> simp [all]

def unset : Constraint :=
  ⟨none, none, none, none, none⟩

def keeping (c : Constraint) : Member → Constraint
  | .pattern => { unset with pattern := c.pattern }
  | .minLength => { unset with minLength := c.minLength }
  | .maxLength => { unset with maxLength := c.maxLength }
  | .min => { unset with min := c.min }
  | .max => { unset with max := c.max }

def usable (c : Constraint) : Constraint :=
  { c with pattern := c.pattern.filter fun pattern => (Pattern.parse pattern).isOk }

/-- What is set in a constraint, and can be used, is set alike in another one. -/
def Extends (c c' : Constraint) : Prop :=
  ∀ member, c.usable.keeping member = unset ∨ c'.keeping member = c.keeping member

/-- What a member asks of a value; lengths and patterns are of texts, bounds of numbers. -/
def Holds (c : Constraint) (value : Json) : Member → Prop
  | .pattern => ∀ text, c.pattern = some text → ∀ pattern, Pattern.parse text = .ok pattern →
      ∀ s, value = .string s → pattern.isMatch s = true
  | .minLength => ∀ limit, c.minLength = some limit → ∀ s, value = .string s → limit ≤ s.length
  | .maxLength => ∀ limit, c.maxLength = some limit → ∀ s, value = .string s → s.length ≤ limit
  | .min => ∀ bound, c.min = some bound → ∀ x, value.number? = some x → ¬ x < bound
  | .max => ∀ bound, c.max = some bound → ∀ x, value.number? = some x → ¬ bound < x

variable (c : Constraint) (value : Json)

def violationOf? : Member → Option Violation
  | .pattern => c.patternViolation? value
  | .minLength => c.minLengthViolation? value
  | .maxLength => c.maxLengthViolation? value
  | .min => c.minViolation? value
  | .max => c.maxViolation? value

@[simp] theorem violationOf?_eq_none_iff (member : Member) :
    c.violationOf? value member = none ↔ c.Holds value member := by
  cases member with
  | pattern =>
      unfold violationOf? patternViolation? Holds
      cases c.pattern with
      | none => simp
      | some text =>
          cases value with
          | string s =>
              cases hparse : Pattern.parse text with
              | error error => simp [hparse]
              | ok pattern => simp [hparse]
          | _ => simp
  | minLength =>
      unfold violationOf? minLengthViolation? Holds
      cases c.minLength with
      | none => simp
      | some limit => cases value <;> simp
  | maxLength =>
      unfold violationOf? maxLengthViolation? Holds
      cases c.maxLength with
      | none => simp
      | some limit => cases value <;> simp
  | min =>
      unfold violationOf? minViolation? Holds
      cases c.min <;> cases value.number? <;> simp
  | max =>
      unfold violationOf? maxViolation? Holds
      cases c.max <;> cases value.number? <;> simp

/-- The first member that a value does not satisfy decides. -/
theorem violation?_eq_findSome? :
    c.violation? value = Member.all.findSome? (c.violationOf? value) := by
  have hcons (member : Member) (rest : List Member) :
      (member :: rest).findSome? (c.violationOf? value) =
        (c.violationOf? value member).or (rest.findSome? (c.violationOf? value)) := by
    rw [List.findSome?_cons]
    cases c.violationOf? value member <;> rfl
  simp only [Member.all, hcons, List.findSome?_nil, Option.or_none]
  rfl

theorem violation?_eq_none_iff :
    c.violation? value = none ↔ ∀ member, c.Holds value member := by
  simp only [violation?_eq_findSome?, List.findSome?_eq_none_iff, violationOf?_eq_none_iff]
  exact ⟨fun h member => h member member.mem_all, fun h member _ => h member⟩

@[simp] theorem keeping_violation? (member : Member) :
    (c.keeping member).violation? value = c.violationOf? value member := by
  cases member <;>
    simp [keeping, unset, violation?, violationOf?, patternViolation?, minLengthViolation?,
      maxLengthViolation?, minViolation?, maxViolation?]

theorem violation?_ne_typeMismatch : c.violation? value ≠ some .typeMismatch := by
  unfold violation? patternViolation? minLengthViolation? maxLengthViolation? minViolation?
    maxViolation?
  intro h
  simp only [Option.or_eq_some_iff] at h
  rcases h with h | ⟨-, h | ⟨-, h | ⟨-, h | ⟨-, h⟩⟩⟩⟩
  all_goals repeat' split at h
  all_goals cases h

theorem unset_violation? : unset.violation? value = none := by
  simp [unset, violation?, patternViolation?, minLengthViolation?, maxLengthViolation?,
    minViolation?, maxViolation?]

theorem usable_violationOf? (member : Member) :
    c.usable.violationOf? value member = c.violationOf? value member := by
  cases member with
  | pattern =>
      unfold violationOf? patternViolation? usable
      cases c.pattern with
      | none => rfl
      | some text =>
          cases hparse : Pattern.parse text with
          | ok pattern => simp [Option.filter_some, hparse, Except.isOk, Except.toBool]
          | error error =>
              cases value <;> simp [Option.filter_some, hparse, Except.isOk, Except.toBool]
  | minLength | maxLength | min | max => rfl

theorem usable_violation? : c.usable.violation? value = c.violation? value := by
  rw [violation?_eq_findSome?, violation?_eq_findSome?]
  exact congrArg Member.all.findSome? (funext fun member => c.usable_violationOf? value member)

theorem Extends.holds {c c' : Constraint} (h : c.Extends c') {value : Json}
    (hvalue : ∀ member, c'.Holds value member) (member : Member) : c.Holds value member := by
  have hmember := (c'.violationOf?_eq_none_iff value member).mpr (hvalue member)
  rw [← violationOf?_eq_none_iff]
  rcases h member with hunset | hsame
  · rw [← usable_violationOf?, ← keeping_violation?, hunset, unset_violation?]
  · rwa [← keeping_violation?, hsame, keeping_violation?] at hmember

end Constraint

/-! ## Checks -/

namespace FieldTraits

def under (field : FieldTraits) (constraint : Option Constraint) : FieldTraits :=
  { field with constraint }

variable (field : FieldTraits)

theorem check_of_blank {value : Option Json}
    (h : ∀ answer, value = some answer → field.kind.Blank answer) :
    field.check value = if field.required then some .required else none := by
  have hnone : value.filter (fun value => !field.kind.isBlank value) = none := by
    rw [Option.filter_eq_none_iff]
    intro answer hanswer
    simp [(field.kind.isBlank_iff answer).mpr (h answer hanswer)]
  rw [check, hnone]

theorem check_of_answer {answer : Json} (h : field.kind.isBlank answer = false) :
    field.check (some answer) =
      if field.kind.accepts answer then
        field.constraint.bind fun constraint => constraint.violation? answer
      else some .typeMismatch := by
  rw [check, Option.filter_some, if_pos (by rw [h]; rfl)]

theorem check_eq_typeMismatch_iff {value : Json} (hblank : field.kind.isBlank value = false) :
    field.check (some value) = some .typeMismatch ↔ field.kind.accepts value = false := by
  rw [field.check_of_answer hblank]
  cases haccepts : field.kind.accepts value with
  | false => simp
  | true =>
      simp only [if_true, Bool.true_eq_false, iff_false]
      intro h
      obtain ⟨constraint, -, hviolation⟩ := Option.bind_eq_some_iff.mp h
      exact constraint.violation?_ne_typeMismatch value hviolation

/-- A value is decided on without the constraint, or by the constraint alone. -/
theorem check_under (value : Option Json) :
    (∃ outcome, ∀ c, (field.under c).check value = outcome) ∨
      ∃ answer, ∀ c, (field.under c).check value =
        c.bind fun constraint => constraint.violation? answer := by
  by_cases hblank : ∀ answer, value = some answer → field.kind.Blank answer
  · exact .inl ⟨if field.required then some .required else none,
      fun c => (field.under c).check_of_blank hblank⟩
  · push Not at hblank
    obtain ⟨answer, rfl, hanswer⟩ := hblank
    have hcheck (c : Option Constraint) := (field.under c).check_of_answer
      ((field.kind.isBlank_eq_false_iff answer).mpr hanswer)
    cases haccepts : field.kind.accepts answer with
    | true => exact .inr ⟨answer, fun c => (hcheck c).trans (if_pos haccepts)⟩
    | false =>
        exact .inl ⟨some .typeMismatch, fun c => (hcheck c).trans (if_neg (by simp [under, haccepts]))⟩

/--
A constraint is the conjunction of its members.  A value is accepted under it exactly if it is
accepted under every member alone, where a pattern that cannot be used counts for nothing, and a
constraint that extends it accepts no more.  What is no answer is refused only by required fields,
whatever they ask for, and an answer of the wrong type for that reason; any other answer is accepted
exactly if it is what every member asks for.
-/
theorem check_conjunction (value : Option Json) :
    (∀ c : Constraint,
      ((field.under (some c)).check value = none ↔
        ∀ member, (field.under (some (c.keeping member))).check value = none) ∧
      (field.under (some c.usable)).check value = (field.under (some c)).check value) ∧
    (field.under (some .unset)).check value = (field.under none).check value ∧
    (∀ c c' : Constraint, c.Extends c' → (field.under (some c)).check value ≠ none →
      (field.under (some c')).check value ≠ none) ∧
    ((∀ answer, value = some answer → field.kind.Blank answer) → ∀ constraint,
      (field.under constraint).check value = if field.required then some .required else none) ∧
    ∀ answer, value = some answer → ¬ field.kind.Blank answer →
      (∀ constraint, (field.under constraint).check value = some .typeMismatch ↔
        field.kind.accepts answer = false) ∧
      (field.kind.accepts answer = true → ∀ c : Constraint,
        (field.under (some c)).check value = none ↔ ∀ member, c.Holds answer member) := by
  refine ⟨fun c => ⟨?_, ?_⟩, ?_, fun c c' hextends => ?_, fun hblank constraint => ?_, ?_⟩
  · rcases field.check_under value with ⟨outcome, h⟩ | ⟨answer, h⟩
    · simp only [h]
      exact ⟨fun hnone _ => hnone, fun hnone => hnone .pattern⟩
    · simp only [h, Option.bind_some, Constraint.keeping_violation?,
        Constraint.violationOf?_eq_none_iff, Constraint.violation?_eq_none_iff]
  · rcases field.check_under value with ⟨outcome, h⟩ | ⟨answer, h⟩
    · rw [h, h]
    · rw [h, h]
      exact c.usable_violation? answer
  · rcases field.check_under value with ⟨outcome, h⟩ | ⟨answer, h⟩
    · rw [h, h]
    · rw [h, h]
      exact Constraint.unset_violation? answer
  · rcases field.check_under value with ⟨outcome, h⟩ | ⟨answer, h⟩
    · rw [h, h]
      exact id
    · rw [h, h, Option.bind_some, Option.bind_some, Ne, Ne, Constraint.violation?_eq_none_iff,
        Constraint.violation?_eq_none_iff]
      exact mt hextends.holds
  · exact (field.under constraint).check_of_blank hblank
  · rintro answer rfl hanswer
    have hblank := (field.kind.isBlank_eq_false_iff answer).mpr hanswer
    refine ⟨fun constraint => (field.under constraint).check_eq_typeMismatch_iff hblank,
      fun haccepts c => ?_⟩
    rw [(field.under (some c)).check_of_answer hblank, ← Constraint.violation?_eq_none_iff]
    exact iff_of_eq (congrArg (· = none) (if_pos haccepts))

theorem check_conjunction_short :
    let field : FieldTraits := ⟨.text, true, none, none, none, none⟩
    let c : Constraint := ⟨some "(", some 2, none, none, none⟩
    let c' : Constraint := ⟨none, some 2, some 3, none, none⟩
    c.Extends c' ∧
    (field.under (some c)).check (some (.string "a")) = some .tooShort ∧
    (field.under (some c')).check (some (.string "a")) ≠ none ∧
    (field.under (some c)).check (some (.string " ")) = some .required ∧
    (field.under (some c)).check (some (.int 5)) = some .typeMismatch ∧
    (field.under (some c)).check (some (.string "ab")) = none := by
  intro field c c'
  have hextends : c.Extends c' := by
    intro member
    cases member with
    | pattern => exact .inl rfl
    | minLength => exact .inr rfl
    | maxLength => exact .inl rfl
    | min => exact .inl rfl
    | max => exact .inl rfl
  have hshort : (field.under (some c)).check (some (.string "a")) = some .tooShort := by decide
  have hblank : field.kind.Blank (.string " ") := (field.kind.isBlank_iff _).mp rfl
  have hanswer (answer : Json) (h : field.kind.isBlank answer = false) :
      ¬ field.kind.Blank answer := (field.kind.isBlank_eq_false_iff answer).mp h
  refine ⟨hextends, hshort, ?_, ?_, ?_, ?_⟩
  · exact (field.check_conjunction (some (.string "a"))).2.2.1 c c' hextends (by rw [hshort]; simp)
  · refine ((field.check_conjunction (some (.string " "))).2.2.2.1 ?_ (some c)).trans rfl
    rintro answer ⟨⟩
    exact hblank
  · obtain ⟨hmismatch, -⟩ := (field.check_conjunction (some (.int 5))).2.2.2.2 _ rfl
      (hanswer _ (by decide))
    exact (hmismatch (some c)).mpr (by decide)
  · obtain ⟨-, haccepted⟩ := (field.check_conjunction (some (.string "ab"))).2.2.2.2 _ rfl
      (hanswer _ (by decide))
    refine (haccepted (by decide) c).mpr fun member => ?_
    rw [← Constraint.violationOf?_eq_none_iff]
    cases member <;> decide

end FieldTraits

end FormDerivation
