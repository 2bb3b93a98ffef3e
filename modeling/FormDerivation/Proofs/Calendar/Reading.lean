import FormDerivation.Calendar
import Mathlib.Data.List.TakeWhile

/-!
# Which texts are dates

A date is spelled by three numbers with hyphens between them, each after any blanks: the year with
one to four digits or with a sign and any digits, month and day with one or two digits
(`Date.Spells`).  `Date.parse?` reads exactly these texts, and of the three numbers it reads the day
that they name (`Date.parse?_eq_some_iff`).
-/

namespace FormDerivation.Date

/-! ## Numbers -/

structure IsNumeral (digits : List Char) : Prop where
  nonempty : digits ≠ []
  digits : ∀ c ∈ digits, Text.isDigit c = true

theorem isNumeral_of_digits? {limit n : Nat} {cs rest : List Char}
    (h : digits? limit cs = some (n, rest)) :
    ∃ digits, IsNumeral digits ∧ digits.length ≤ limit ∧ n = Decimal.ofDigits digits ∧
      cs = digits ++ rest := by
  simp only [digits?] at h
  split at h
  · cases h
  · next hnonempty =>
    cases h
    have hrun : (cs.take limit).takeWhile Text.isDigit <+: cs :=
      (List.takeWhile_prefix _).trans (List.take_prefix limit cs)
    refine ⟨_, ⟨by simpa using hnonempty, fun c hc => List.mem_takeWhile_imp hc⟩, ?_, rfl, ?_⟩
    · exact ((List.takeWhile_prefix _).length_le).trans (List.length_take_le limit cs)
    · exact List.prefix_iff_eq_append.mp hrun |>.symm

theorem IsNumeral.digits? {digits : List Char} (h : IsNumeral digits) {limit : Nat}
    (hlimit : digits.length ≤ limit) {rest : List Char}
    (hrest : rest.head?.any Text.isDigit = false) :
    digits? limit (digits ++ rest) = some (Decimal.ofDigits digits, rest) := by
  -- However many more digits the limit leaves room for, none of them comes behind the number.
  have hstop : (rest.take (limit - digits.length)).takeWhile Text.isDigit = [] := by
    cases rest with
    | nil => rw [List.take_nil, List.takeWhile_nil]
    | cons c rest =>
        rw [List.head?_cons, Option.any_some] at hrest
        cases limit - digits.length with
        | zero => rfl
        | succ more => rw [List.take_succ_cons, List.takeWhile_cons_of_neg (by simp [hrest])]
  have hrun : ((digits ++ rest).take limit).takeWhile Text.isDigit = digits := by
    rw [List.take_append, List.take_of_length_le hlimit, List.takeWhile_append_of_pos h.digits,
      hstop, List.append_nil]
  simp only [Date.digits?, hrun, List.drop_left]
  rw [if_neg (by simpa using h.nonempty)]

theorem toNat_of_isDigit {c : Char} (h : Text.isDigit c = true) : 48 ≤ c.toNat ∧ c.toNat ≤ 57 := by
  simp only [Text.isDigit, Bool.and_eq_true, decide_eq_true_eq, Char.le_def,
    UInt32.le_iff_toNat_le] at h
  exact h

theorem isBlank_of_isDigit {c : Char} (h : Text.isDigit c = true) : Text.isBlank c = false := by
  have hcode := toNat_of_isDigit h
  exact Text.isBlank_of_visible (by omega)

/-! ## Blanks -/

def IsBlanks (cs : List Char) : Prop :=
  ∀ c ∈ cs, Text.isBlank c = true

theorem IsBlanks.trimStartChars {blanks rest : List Char} (h : IsBlanks blanks)
    (hrest : rest.head?.any Text.isBlank = false) :
    Text.trimStartChars (blanks ++ rest) = rest := by
  rw [Text.trimStartChars, List.dropWhile_append_of_pos h]
  cases rest with
  | nil => rfl
  | cons c rest =>
      rw [List.head?_cons, Option.any_some] at hrest
      exact List.dropWhile_cons_of_neg (by simp [hrest])

theorem exists_blanks (cs : List Char) :
    ∃ blanks, IsBlanks blanks ∧ cs = blanks ++ Text.trimStartChars cs :=
  ⟨cs.takeWhile Text.isBlank, fun _ hc => List.mem_takeWhile_imp hc,
    List.takeWhile_append_dropWhile.symm⟩

/-! ## The numbers of a date -/

/-- How a year can be written: with up to four digits, or with a sign and any number of them. -/
inductive SpellsYear : List Char → Int → Prop
  | plain {digits : List Char} (h : IsNumeral digits) (hlength : digits.length ≤ 4) :
      SpellsYear digits (Decimal.ofDigits digits)
  | plus {digits : List Char} (h : IsNumeral digits) :
      SpellsYear ('+' :: digits) (Decimal.ofDigits digits)
  | minus {digits : List Char} (h : IsNumeral digits) :
      SpellsYear ('-' :: digits) (-(Decimal.ofDigits digits : Int))

/-- How a month or a day can be written: with one or two digits. -/
inductive SpellsPart : List Char → Nat → Prop
  | digits {digits : List Char} (h : IsNumeral digits) (hlength : digits.length ≤ 2) :
      SpellsPart digits (Decimal.ofDigits digits)

theorem SpellsPart.part? {blanks part rest : List Char} {n : Nat} (hblanks : IsBlanks blanks)
    (h : SpellsPart part n) (hrest : rest.head?.any Text.isDigit = false) :
    part? (blanks ++ (part ++ rest)) = some (n, rest) := by
  obtain ⟨hdigits, hlength⟩ := h
  have hhead : (part ++ rest).head?.any Text.isBlank = false := by
    cases part with
    | nil => exact absurd rfl hdigits.nonempty
    | cons c _ => exact isBlank_of_isDigit (hdigits.digits c List.mem_cons_self)
  rw [Date.part?, hblanks.trimStartChars hhead, hdigits.digits? hlength hrest]

theorem spellsPart_of_part? {cs rest : List Char} {n : Nat} (h : part? cs = some (n, rest)) :
    ∃ blanks part, IsBlanks blanks ∧ SpellsPart part n ∧ cs = blanks ++ (part ++ rest) := by
  obtain ⟨blanks, hblanks, hcs⟩ := exists_blanks cs
  obtain ⟨digits, hdigits, hlength, rfl, hrest⟩ := isNumeral_of_digits? h
  exact ⟨blanks, digits, hblanks, .digits hdigits hlength, by rw [← hrest, ← hcs]⟩

theorem SpellsYear.year? {blanks year rest : List Char} {y : Int} (hblanks : IsBlanks blanks)
    (h : SpellsYear year y) (hrest : rest.head?.any Text.isDigit = false) :
    year? (blanks ++ (year ++ rest)) = some (y, rest) := by
  have hsigned {digits : List Char} (hdigits : IsNumeral digits) :
      digits? (digits ++ rest).length (digits ++ rest) = some (Decimal.ofDigits digits, rest) :=
    hdigits.digits? (by rw [List.length_append]; exact Nat.le_add_right _ _) hrest
  cases h with
  | plus hdigits =>
      rw [Date.year?, List.cons_append, hblanks.trimStartChars rfl]
      simp only [hsigned hdigits, Option.map_some]
  | minus hdigits =>
      rw [Date.year?, List.cons_append, hblanks.trimStartChars rfl]
      simp only [hsigned hdigits, Option.map_some]
  | plain hdigits hlength =>
      cases year with
      | nil => exact absurd rfl hdigits.nonempty
      | cons c digits =>
          have hc := hdigits.digits c List.mem_cons_self
          have hread := hdigits.digits? hlength hrest
          have hhead : (c :: (digits ++ rest)).head?.any Text.isBlank = false :=
            isBlank_of_isDigit hc
          rw [List.cons_append] at hread
          rw [Date.year?, List.cons_append, hblanks.trimStartChars hhead]
          split
          -- No digit is a sign.
          case h_1 heq | h_2 heq =>
            cases heq
            exact absurd hc (by decide)
          case h_3 => rw [hread, Option.map_some]

theorem spellsYear_of_year? {cs rest : List Char} {y : Int} (h : year? cs = some (y, rest)) :
    ∃ blanks year, IsBlanks blanks ∧ SpellsYear year y ∧ cs = blanks ++ (year ++ rest) := by
  obtain ⟨blanks, hblanks, hcs⟩ := exists_blanks cs
  unfold Date.year? at h
  split at h <;> obtain ⟨⟨n, behind⟩, hread, heq⟩ := Option.map_eq_some_iff.mp h <;> cases heq <;>
    obtain ⟨digits, hdigits, hlength, rfl, hrest⟩ := isNumeral_of_digits? hread
  case h_1 htrim =>
    exact ⟨blanks, _, hblanks, .minus hdigits, by rw [hcs, htrim, hrest, List.cons_append]⟩
  case h_2 htrim =>
    exact ⟨blanks, _, hblanks, .plus hdigits, by rw [hcs, htrim, hrest, List.cons_append]⟩
  case h_3 => exact ⟨blanks, _, hblanks, .plain hdigits hlength, by rw [← hrest, ← hcs]⟩

/-! ## Days -/

def Names (date : Date) (year : Int) (month day : Nat) : Prop :=
  date.year = year ∧ date.month = month ∧ date.day = day

theorem of?_eq_some_iff {year : Int} {month day : Nat} {date : Date} :
    of? year month day = some date ↔ date.Names year month day := by
  unfold of? Names
  constructor
  · intro h
    split at h
    · cases h
      exact ⟨rfl, rfl, rfl⟩
    · cases h
  · rintro ⟨rfl, rfl, rfl⟩
    rw [dif_pos ⟨date.year_range, date.month_pos, date.day_range⟩]

/-- A text spells a day: three numbers with hyphens between them, each of them after blanks. -/
def Spells (text : String) (date : Date) : Prop :=
  ∃ yearBlanks year monthBlanks month dayBlanks day,
    (IsBlanks yearBlanks ∧ SpellsYear year date.year) ∧
    (IsBlanks monthBlanks ∧ SpellsPart month date.month) ∧
    (IsBlanks dayBlanks ∧ SpellsPart day date.day) ∧
    text.toList = yearBlanks ++ (year ++ '-' ::
      (monthBlanks ++ (month ++ '-' :: (dayBlanks ++ day))))

@[simp] theorem hyphen?_eq_some_iff {cs rest : List Char} :
    hyphen? cs = some rest ↔ cs = '-' :: rest := by
  unfold hyphen?
  split <;> simp_all

theorem parse?_eq_some_iff (text : String) (date : Date) :
    parse? text = some date ↔ Spells text date := by
  simp only [parse?, Option.bind_eq_bind, Option.bind_eq_some_iff, hyphen?_eq_some_iff]
  constructor
  · rintro ⟨⟨y, afterYear⟩, hyear, monthOn, rfl, ⟨m, afterMonth⟩, hmonth, dayOn, rfl,
      ⟨d, afterDay⟩, hday, hend⟩
    dsimp only at hmonth hday hend
    split at hend
    · next hempty =>
      obtain ⟨rfl, rfl, rfl⟩ := of?_eq_some_iff.mp hend
      obtain ⟨yearBlanks, year, hyearBlanks, hspelledYear, htext⟩ := spellsYear_of_year? hyear
      obtain ⟨monthBlanks, month, hmonthBlanks, hspelledMonth, rfl⟩ := spellsPart_of_part? hmonth
      obtain ⟨dayBlanks, day, hdayBlanks, hspelledDay, rfl⟩ := spellsPart_of_part? hday
      rw [List.isEmpty_iff.mp hempty, List.append_nil] at htext
      exact ⟨_, _, _, _, _, _, ⟨hyearBlanks, hspelledYear⟩, ⟨hmonthBlanks, hspelledMonth⟩,
        ⟨hdayBlanks, hspelledDay⟩, htext⟩
    · cases hend
  · rintro ⟨_, _, _, _, _, day, ⟨hyearBlanks, hyear⟩, ⟨hmonthBlanks, hmonth⟩, ⟨hdayBlanks, hday⟩,
      htext⟩
    rw [htext, ← List.append_nil day]
    exact ⟨_, hyear.year? hyearBlanks rfl, _, rfl, _, hmonth.part? hmonthBlanks rfl, _, rfl, _,
      hday.part? hdayBlanks rfl, of?_eq_some_iff.mpr ⟨rfl, rfl, rfl⟩⟩

end FormDerivation.Date
