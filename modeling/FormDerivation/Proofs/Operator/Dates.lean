import FormDerivation.Proofs.Calendar.IsoTexts
import FormDerivation.Proofs.Script.MemberOrder
import FormDerivation.Proofs.Validation

/-!
# Dates as texts

Fields and operators take the same texts for dates: those that spell a day.  Among them are all
texts of four, two and two digits that name a day, and for two of these the order of days, as
formulas decide it, is the order of texts, as scripts decide it (`Formula.evaluate_dates`).  Other
spellings of days are accepted as well, and their order as texts says nothing.
-/

namespace FormDerivation

/-! ## Values that are accepted -/

def Json.date? (value : Json) : Option Date :=
  value.string?.bind Date.parse?

@[simp] theorem ValueType.accepts_date_eq (value : Json) :
    ValueType.date.accepts value = value.date?.isSome := by
  cases value <;> rfl

theorem ValueType.accepts_date_iff (value : Json) :
    ValueType.date.accepts value = true ↔
      ∃ text date, value = .string text ∧ Date.Spells text date := by
  rw [accepts_date_eq, Option.isSome_iff_exists]
  cases value with
  | string text => simp [Json.date?, Json.string?, Date.parse?_eq_some_iff]
  | _ => simp [Json.date?, Json.string?]

/-! ## Operators on two dates -/

theorem Arguments.date_eq {args : Arguments} {index : Nat} {name : String}
    (hparameter : args.parameter index = ⟨name, .date⟩) :
    args.date index =
      match (args.argument index).date? with
      | some date => .ok date
      | none => .error (args.mismatch index) := by
  have haccepts := ValueType.accepts_date_eq (args.argument index)
  rw [date, read, value, hparameter]
  dsimp only
  rw [haccepts]
  cases hdate : (args.argument index).date? with
  | none => rfl
  | some date =>
      have hview : (args.argument index).string?.bind Date.parse? = some date := hdate
      rw [if_pos Option.isSome_some]
      simp only [bind, Except.bind, hview]

namespace Operator

theorem reading_dates_evaluate (name label description first second : String)
    (returnType : ValueType) (f : Date → Date → TypedValue) (x y : Json) :
    let parameters : List Parameter := [⟨first, .date⟩, ⟨second, .date⟩]
    (reading name label description parameters returnType
        fun args => do return f (← args.date 0) (← args.date 1)).evaluate [x, y] =
      match x.date?, y.date? with
      | some date, some other => .ok (f date other)
      | some _, none => .error (Arguments.mismatch ⟨name, parameters, [x, y]⟩ 1)
      | none, _ => .error (Arguments.mismatch ⟨name, parameters, [x, y]⟩ 0) := by
  intro parameters
  let args : Arguments := ⟨name, parameters, [x, y]⟩
  have hx : args.date 0 = _ := Arguments.date_eq rfl
  have hy : args.date 1 = _ := Arguments.date_eq rfl
  change (args.date 0 >>= fun date => args.date 1 >>= fun other => .ok (f date other)) = _
  rw [hx, hy]
  change ((match x.date? with
    | some date => Except.ok date
    | none => Except.error (args.mismatch 0)) >>= fun date => (match y.date? with
    | some date => Except.ok date
    | none => Except.error (args.mismatch 1)) >>= fun other => .ok (f date other)) = _
  cases x.date? with
  | none => rfl
  | some date => cases y.date? <;> rfl

end Operator

namespace Formula

def dateOperators : List String :=
  ["date.before", "date.after", "date.years-between"]

section

variable {context : KeyMap Json} {scope : Option String} {left right : Operand} {x y : Json}

theorem evaluate_reading_dates {identifier name label description first second : String}
    {returnType : ValueType} {f : Date → Date → TypedValue}
    (hfound : OperatorRegistry.builtin.get? identifier = some (Operator.reading name label
      description [⟨first, .date⟩, ⟨second, .date⟩] returnType
        fun args => do return f (← args.date 0) (← args.date 1)))
    (hx : left.evaluate .builtin context scope = .ok x)
    (hy : right.evaluate .builtin context scope = .ok y) :
    (∃ result, Formula.evaluate .builtin context scope (.apply identifier [left, right]) =
        .ok result) ↔
      ValueType.date.accepts x = true ∧ ValueType.date.accepts y = true := by
  rw [Formula.evaluate, hfound]
  simp only [Operand.evaluateAll, hx, hy, Operator.reading_dates_evaluate,
    ValueType.accepts_date_eq]
  cases x.date? with
  | none => simp
  | some date => cases y.date? <;> simp

theorem evaluate_reading_dates_eq {identifier name label description first second : String}
    {returnType : ValueType} {f : Date → Date → TypedValue}
    (hfound : OperatorRegistry.builtin.get? identifier = some (Operator.reading name label
      description [⟨first, .date⟩, ⟨second, .date⟩] returnType
        fun args => do return f (← args.date 0) (← args.date 1)))
    (hx : left.evaluate .builtin context scope = .ok x)
    (hy : right.evaluate .builtin context scope = .ok y) {date other : Date}
    (hdate : x.date? = some date) (hother : y.date? = some other) :
    Formula.evaluate .builtin context scope (.apply identifier [left, right]) =
      .ok ⟨returnType, (f date other).value⟩ := by
  rw [Formula.evaluate, hfound]
  simp only [Operand.evaluateAll, hx, hy, Operator.reading_dates_evaluate, hdate, hother]
  rfl

/--
Fields and operators take the values for dates that `ValueType.accepts` takes: texts that spell a
day.  A text of four, two and two digits is one exactly if it names a day, and for two such texts a
script that compares them decides as `date.before` does.
-/
theorem evaluate_dates :
    (∀ value, ValueType.date.accepts value = true ↔
      ∃ text date, value = .string text ∧ Date.Spells text date) ∧
    (∀ field : FieldTraits, field.kind = .date → ∀ value, field.kind.isBlank value = false →
      (field.check (some value) = some .typeMismatch ↔ ValueType.date.accepts value = false)) ∧
    (∀ identifier ∈ dateOperators, ∀ left right : Operand, ∀ x y,
      left.evaluate .builtin context scope = .ok x →
      right.evaluate .builtin context scope = .ok y →
      ((∃ result, Formula.evaluate .builtin context scope (.apply identifier [left, right]) =
          .ok result) ↔
        ValueType.date.accepts x = true ∧ ValueType.date.accepts y = true)) ∧
    (∀ t : IsoText, ValueType.date.accepts (.string t.text) = true ↔ t.IsDay) ∧
    ∀ s t : IsoText, s.IsDay → t.IsDay →
      (∀ left right : Operand, left.evaluate .builtin context scope = .ok (.string s.text) →
        right.evaluate .builtin context scope = .ok (.string t.text) →
        Formula.evaluate .builtin context scope (.apply "date.before" [left, right]) =
          .ok (.boolean (decide (s.text < t.text)))) ∧
      ∀ (host : HostRegistry) (limits : ScriptLimits), 6 ≤ Script.Run.allowance limits →
        ∀ (calls : List ScriptCall) (values : KeyMap Json),
          values.get? "start" = some (.string s.text) → values.get? "end" = some (.string t.text) →
          ∃ engine, ((ScriptEngine.fresh host limits).afterCalls calls).register "data"
              (.ofMap values) = .ok engine ∧
            (engine.evaluate "data.start < data.end").1 =
              .ok (.bool (decide (s.text < t.text))) := by
  refine ⟨ValueType.accepts_date_iff, ?_, ?_, IsoText.accepted_iff, ?_⟩
  · intro field hkind value hblank
    rw [field.check_eq_typeMismatch_iff hblank, hkind]
    rfl
  · intro identifier hidentifier left right x y hx hy
    simp only [dateOperators, List.mem_cons, List.not_mem_nil, or_false] at hidentifier
    rcases hidentifier with rfl | rfl | rfl
    · exact evaluate_reading_dates (f := fun a b => .boolean (a.before b)) rfl hx hy
    · exact evaluate_reading_dates (f := fun a b => .boolean (b.before a)) rfl hx hy
    · exact evaluate_reading_dates (f := fun a b => .integer (Date.yearsBetween a b)) rfl hx hy
  · intro s t hs ht
    obtain ⟨date, hdate⟩ := Option.isSome_iff_exists.mp (s.accepted_iff.mpr hs)
    obtain ⟨other, hother⟩ := Option.isSome_iff_exists.mp (t.accepted_iff.mpr ht)
    have horder : date.before other = decide (s.text < t.text) := by
      rw [Bool.eq_iff_iff, decide_eq_true_iff, IsoText.lt_iff_before hdate hother]
    refine ⟨fun left right hx hy => ?_, fun host limits hlimits calls values hstart hend => ?_⟩
    · rw [← horder]
      exact evaluate_reading_dates_eq (f := fun a b => .boolean (a.before b)) rfl hx hy hdate hother
    · exact ScriptEngine.evaluate_registered_order host limits hlimits calls (by decide)
        (by decide) (by decide) values hstart hend

theorem evaluate_dates_leap :
    let values : KeyMap Json :=
      .ofList [("start", .string "2024-02-29"), ("end", .string "2024-03-01")]
    Formula.evaluate .builtin .empty none (.apply "date.before"
      [.constant (.string "2024-02-29"), .constant (.string "2024-03-01")]) =
        .ok (.boolean true) ∧
    ∃ engine, (ScriptEngine.fresh .empty {}).register "data" (.ofMap values) = .ok engine ∧
      (engine.evaluate "data.start < data.end").1 = .ok (.bool true) := by
  intro values
  let leap : IsoText := ⟨"2024".toList, "02".toList, "29".toList, List.all_eq_true.mp rfl,
    List.all_eq_true.mp rfl, List.all_eq_true.mp rfl, rfl, rfl, rfl⟩
  let march : IsoText := ⟨"2024".toList, "03".toList, "01".toList, List.all_eq_true.mp rfl,
    List.all_eq_true.mp rfl, List.all_eq_true.mp rfl, rfl, rfl, rfl⟩
  have hleap : leap.text = "2024-02-29" := by decide
  have hmarch : march.text = "2024-03-01" := by decide
  have hless : decide ("2024-02-29" < "2024-03-01") = true := by decide
  obtain ⟨-, -, -, -, horder⟩ := @evaluate_dates .empty none
  obtain ⟨hformula, hscript⟩ := horder leap march (by decide) (by decide)
  rw [hleap, hmarch, hless] at hformula hscript
  exact ⟨hformula _ _ rfl rfl, hscript .empty {} (by decide) [] values rfl rfl⟩

/-- A text without leading zeros is a date as well, and need not be ordered as its day is. -/
theorem evaluate_dates_short :
    ValueType.date.accepts (.string "2024-1-5") = true ∧
    (∀ t : IsoText, t.text ≠ "2024-1-5") ∧
    Formula.evaluate .builtin .empty none (.apply "date.before"
      [.constant (.string "2024-9-01"), .constant (.string "2024-10-01")]) = .ok (.boolean true) ∧
    ¬ "2024-9-01" < "2024-10-01" := by
  refine ⟨by decide, fun t ht => ?_, rfl, by decide⟩
  have hlength := t.length_text
  rw [ht] at hlength
  exact absurd hlength (by decide)

end

end Formula

end FormDerivation
