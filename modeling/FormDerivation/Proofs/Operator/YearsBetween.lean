import FormDerivation.Proofs.Calendar.CompletedYears
import FormDerivation.Proofs.Operator.Dates

/-!
# Years between dates

What formulas count as the years from a date to another one (`Formula.evaluate_yearsBetween`).
-/

namespace FormDerivation.Formula

section

variable {context : KeyMap Json} {scope : Option String} {left right : Operand} {x y : Json}

theorem evaluate_yearsBetween_eq (hx : left.evaluate .builtin context scope = .ok x)
    (hy : right.evaluate .builtin context scope = .ok y) {start finish : Date}
    (hstart : x.date? = some start) (hfinish : y.date? = some finish) :
    Formula.evaluate .builtin context scope (.apply "date.years-between" [left, right]) =
      .ok (.integer (start.yearsBetween finish)) :=
  evaluate_reading_dates_eq (f := fun a b => .integer (a.yearsBetween b)) rfl hx hy hstart hfinish

/--
From a date to one that is not before it, the years are those after which the first date, put into
a later year, is not behind the second one, and would be one year later.  The other way round they
are negative, and there are no fewer of them to a later date.
-/
theorem evaluate_yearsBetween (hx : left.evaluate .builtin context scope = .ok x)
    (hy : right.evaluate .builtin context scope = .ok y)
    (hxdate : ValueType.date.accepts x = true) (hydate : ValueType.date.accepts y = true) :
    ∃ start finish, x.date? = some start ∧ y.date? = some finish ∧ ∃ years : Int,
      Formula.evaluate .builtin context scope (.apply "date.years-between" [left, right]) =
        .ok (.integer years) ∧
      Formula.evaluate .builtin context scope (.apply "date.years-between" [right, left]) =
        .ok (.integer (-years)) ∧
      (start.place ≤ finish.place → 0 ≤ years ∧
        (∀ n, start.inYear (start.year + n) ≤ finish.place ∧
          finish.place < start.inYear (start.year + n + 1) ↔ n = years) ∧
        (start.month = 2 → start.day = 29 → isLeapYear finish.year = false → years =
          if 3 ≤ finish.month then finish.year - start.year else finish.year - start.year - 1)) ∧
      ∀ (operand : Operand) z later, operand.evaluate .builtin context scope = .ok z →
        z.date? = some later → finish.place ≤ later.place → ∃ more : Int, years ≤ more ∧
          Formula.evaluate .builtin context scope (.apply "date.years-between" [left, operand]) =
            .ok (.integer more) := by
  rw [ValueType.accepts_date_eq] at hxdate hydate
  obtain ⟨start, hstart⟩ := Option.isSome_iff_exists.mp hxdate
  obtain ⟨finish, hfinish⟩ := Option.isSome_iff_exists.mp hydate
  refine ⟨start, finish, hstart, hfinish, start.yearsBetween finish,
    evaluate_yearsBetween_eq hx hy hstart hfinish, ?_, fun horder => ?_, ?_⟩
  · rw [← Date.yearsBetween_swap]
    exact evaluate_yearsBetween_eq hy hx hfinish hstart
  · rw [Date.yearsBetween_of_le horder]
    exact ⟨Date.completedYears_nonneg horder, Date.completedYears_eq_iff start finish,
      Date.completedYears_leapDay⟩
  · intro operand z later hz hlater horder
    exact ⟨start.yearsBetween later, Date.yearsBetween_mono_right start horder,
      evaluate_yearsBetween_eq hx hz hstart hlater⟩

theorem evaluate_yearsBetween_leapDay :
    let years := fun first second => Formula.evaluate .builtin .empty none
      (.apply "date.years-between" [.constant (.string first), .constant (.string second)])
    years "2000-02-29" "2001-02-28" = .ok (.integer 0) ∧
      years "2000-02-29" "2001-03-01" = .ok (.integer 1) ∧
      years "2001-03-01" "2000-02-29" = .ok (.integer (-1)) := by
  let leap : Date := ⟨2000, 2, 29, by decide, by decide, by decide⟩
  have hleap : (Json.string "2000-02-29").date? = some leap := by decide
  have hcount : ∀ (text : String) (finish : Date), (Json.string text).date? = some finish →
      leap.place ≤ finish.place → isLeapYear finish.year = false →
      ∃ years, years = (if 3 ≤ finish.month then finish.year - 2000 else finish.year - 2000 - 1) ∧
        Formula.evaluate .builtin .empty none (.apply "date.years-between"
          [.constant (.string "2000-02-29"), .constant (.string text)]) = .ok (.integer years) ∧
        Formula.evaluate .builtin .empty none (.apply "date.years-between"
          [.constant (.string text), .constant (.string "2000-02-29")]) =
            .ok (.integer (-years)) := by
    intro text finish htext horder hcommon
    have haccepts : ValueType.date.accepts (.string text) = true := by
      rw [ValueType.accepts_date_eq, htext]
      rfl
    obtain ⟨start, last, hstart, hlast, years, hyears, hback, hspec, -⟩ :=
      @evaluate_yearsBetween .empty none (.constant (.string "2000-02-29"))
        (.constant (.string text)) _ _ rfl rfl (by decide) haccepts
    obtain rfl := Option.some.inj (hleap.symm.trans hstart)
    obtain rfl := Option.some.inj (htext.symm.trans hlast)
    exact ⟨years, (hspec horder).2.2 rfl rfl hcommon, hyears, hback⟩
  let february : Date := ⟨2001, 2, 28, by decide, by decide, by decide⟩
  let march : Date := ⟨2001, 3, 1, by decide, by decide, by decide⟩
  obtain ⟨_, rfl, hfebruary, -⟩ := hcount "2001-02-28" february (by decide)
    ((Date.inYear_le_inYear_iff _ _ _ _).mpr (by decide)) (by decide)
  obtain ⟨_, rfl, hmarch, hback⟩ := hcount "2001-03-01" march (by decide)
    ((Date.inYear_le_inYear_iff _ _ _ _).mpr (by decide)) (by decide)
  exact ⟨hfebruary, hmarch, hback⟩

end

end FormDerivation.Formula
