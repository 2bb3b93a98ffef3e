import FormDerivation.Calendar
import Mathlib.Data.Prod.Lex

/-!
# Completed years

Dates are compared by year, then month, then day.  The years from a date to a later one are as many
as its day of the year, put into a later year, is not behind the other date
(`Date.completedYears_eq_iff`); for a 29 February that need not be a day of that year.
-/

namespace FormDerivation.Date

def inYear (date : Date) (year : Int) : Int ×ₗ Nat ×ₗ Nat :=
  toLex (year, toLex (date.month, date.day))

def place (date : Date) : Int ×ₗ Nat ×ₗ Nat :=
  date.inYear date.year

/-! ## The order of dates -/

@[simp] theorem dayBefore_iff (a b : Date) :
    a.dayBefore b = true ↔ a.month < b.month ∨ a.month = b.month ∧ a.day < b.day := by
  simp [dayBefore]

theorem inYear_lt_inYear_iff (a b : Date) (year other : Int) :
    a.inYear year < b.inYear other ↔ year < other ∨ year = other ∧ a.dayBefore b = true := by
  rw [inYear, inYear, Prod.Lex.toLex_lt_toLex, Prod.Lex.toLex_lt_toLex, dayBefore_iff]

theorem inYear_le_inYear_iff (a b : Date) (year other : Int) :
    a.inYear year ≤ b.inYear other ↔ year < other ∨ year = other ∧ b.dayBefore a = false := by
  rw [← not_lt, inYear_lt_inYear_iff]
  cases b.dayBefore a <;> simp <;> omega

theorem before_iff_place_lt (a b : Date) : a.before b = true ↔ a.place < b.place := by
  rw [place, place, inYear_lt_inYear_iff, dayBefore_iff]
  simp [before]

theorem inYear_lt_inYear_self_iff (date : Date) (year other : Int) :
    date.inYear year < date.inYear other ↔ year < other := by
  have hself : date.dayBefore date = false := by simp [dayBefore]
  simp [inYear_lt_inYear_iff, hself]

theorem inYear_add_le_inYear_add {a b : Date} (h : a.place ≤ b.place) (years : Int) :
    a.inYear (a.year + years) ≤ b.inYear (b.year + years) := by
  rw [place, place, inYear_le_inYear_iff] at h
  rw [inYear_le_inYear_iff]
  rcases h with hyear | ⟨hyear, hday⟩
  · exact .inl (by omega)
  · exact .inr ⟨by omega, hday⟩

/-! ## Completed years -/

theorem completedYears_eq_iff (start finish : Date) (years : Int) :
    start.inYear (start.year + years) ≤ finish.place ∧
        finish.place < start.inYear (start.year + years + 1) ↔
      years = completedYears start finish := by
  rw [place, inYear_le_inYear_iff, inYear_lt_inYear_iff, completedYears]
  cases finish.dayBefore start <;> simp <;> omega

theorem inYear_completedYears_le (start finish : Date) :
    start.inYear (start.year + completedYears start finish) ≤ finish.place :=
  ((completedYears_eq_iff start finish _).mpr rfl).1

theorem lt_inYear_completedYears (start finish : Date) :
    finish.place < start.inYear (start.year + completedYears start finish + 1) :=
  ((completedYears_eq_iff start finish _).mpr rfl).2

theorem completedYears_nonneg {start finish : Date} (h : start.place ≤ finish.place) :
    0 ≤ completedYears start finish := by
  rw [place, place, inYear_le_inYear_iff] at h
  rw [completedYears]
  cases hday : finish.dayBefore start <;> simp [hday] at h ⊢ <;> omega

theorem completedYears_eq_zero {start finish : Date} (h : start.place = finish.place) :
    completedYears start finish = 0 := by
  refine ((completedYears_eq_iff start finish 0).mp ⟨?_, ?_⟩).symm
  · rw [Int.add_zero]
    exact h.le
  · rw [← h, place, inYear_lt_inYear_self_iff]
    omega

theorem completedYears_mono_right (start : Date) {finish later : Date}
    (h : finish.place ≤ later.place) :
    completedYears start finish ≤ completedYears start later := by
  have hlt := ((inYear_completedYears_le start finish).trans h).trans_lt
    (lt_inYear_completedYears start later)
  rw [inYear_lt_inYear_self_iff] at hlt
  omega

theorem completedYears_anti_left {start later : Date} (finish : Date)
    (h : start.place ≤ later.place) :
    completedYears later finish ≤ completedYears start finish := by
  have hle := (inYear_add_le_inYear_add h _).trans (inYear_completedYears_le later finish)
  have hlt := hle.trans_lt (lt_inYear_completedYears start finish)
  rw [inYear_lt_inYear_self_iff] at hlt
  omega

theorem completedYears_leapDay {start finish : Date} (hmonth : start.month = 2)
    (hday : start.day = 29) (hcommon : isLeapYear finish.year = false) :
    completedYears start finish =
      if 3 ≤ finish.month then finish.year - start.year else finish.year - start.year - 1 := by
  have hfebruary : finish.month = 2 → finish.day ≤ 28 := by
    intro hfinish
    have hdays := finish.day_range.2
    rw [hfinish] at hdays
    simpa [daysInMonth, hcommon] using hdays
  have hbefore : finish.dayBefore start = true ↔ ¬ 3 ≤ finish.month := by
    rw [dayBefore_iff, hmonth, hday]
    omega
  rw [completedYears]
  by_cases hmarch : 3 ≤ finish.month
  · rw [if_pos hmarch, if_neg (by simpa [hbefore] using hmarch), Int.sub_zero]
  · rw [if_neg hmarch, if_pos (hbefore.mpr hmarch)]

/-! ## Years between dates -/

theorem yearsBetween_of_le {start finish : Date} (h : start.place ≤ finish.place) :
    yearsBetween start finish = completedYears start finish := by
  rw [yearsBetween, if_neg]
  rw [before_iff_place_lt]
  exact h.not_gt

theorem yearsBetween_of_lt {start finish : Date} (h : finish.place < start.place) :
    yearsBetween start finish = -completedYears finish start := by
  rw [yearsBetween, if_pos ((before_iff_place_lt _ _).mpr h)]

theorem yearsBetween_swap (start finish : Date) :
    yearsBetween finish start = -yearsBetween start finish := by
  rcases lt_trichotomy start.place finish.place with hlt | heq | hgt
  · rw [yearsBetween_of_lt hlt, yearsBetween_of_le hlt.le]
  · rw [yearsBetween_of_le heq.le, yearsBetween_of_le heq.ge, completedYears_eq_zero heq,
      completedYears_eq_zero heq.symm, Int.neg_zero]
  · rw [yearsBetween_of_le hgt.le, yearsBetween_of_lt hgt, Int.neg_neg]

theorem yearsBetween_mono_right (start : Date) {finish later : Date}
    (h : finish.place ≤ later.place) : yearsBetween start finish ≤ yearsBetween start later := by
  -- The start is before both dates, between them, or behind both.
  rcases le_or_gt start.place finish.place with hfinish | hfinish
  · rw [yearsBetween_of_le hfinish, yearsBetween_of_le (hfinish.trans h)]
    exact completedYears_mono_right start h
  rw [yearsBetween_of_lt hfinish]
  rcases le_or_gt start.place later.place with hlater | hlater
  · rw [yearsBetween_of_le hlater]
    have hbefore := completedYears_nonneg hfinish.le
    have hbehind := completedYears_nonneg hlater
    omega
  · rw [yearsBetween_of_lt hlater]
    have hle := completedYears_anti_left start h
    omega

end FormDerivation.Date
