import FormDerivation.Proofs.Calendar.Reading
import Mathlib.Data.String.Basic

/-!
# Dates of a fixed width

Among the texts that spell a day are those with exactly four, two and two digits
(`IsoText`).  Such a text is read as the day that its numbers name, if there is one
(`IsoText.accepted_iff`), and since numbers of one width are ordered as their digits are, the order
of these texts is that of the days (`IsoText.lt_iff_before`).
-/

namespace FormDerivation

/-! ## Numbers of one width -/

namespace Decimal

theorem ofDigits_cons (c : Char) (rest : List Char) :
    ofDigits (c :: rest) = 10 ^ rest.length * (c.toNat - 48) + ofDigits rest := by
  rw [ofDigits, List.foldl_cons, Nat.mul_zero, Nat.zero_add]
  exact Nat.ofDigitChars_eq_ofDigitChars_zero

theorem ofDigits_lt {digits : List Char} (h : ∀ c ∈ digits, Text.isDigit c = true) :
    ofDigits digits < 10 ^ digits.length := by
  induction digits with
  | nil => exact Nat.one_pos
  | cons c rest ih =>
      have hc := Date.toNat_of_isDigit (h c List.mem_cons_self)
      have hrest := ih fun d hd => h d (List.mem_cons_of_mem c hd)
      have hfirst : 10 ^ rest.length * (c.toNat - 48) ≤ 10 ^ rest.length * 9 :=
        Nat.mul_le_mul_left _ (by omega)
      rw [ofDigits_cons, List.length_cons, Nat.pow_succ]
      omega

theorem mul_add_lt_mul_add_iff {bound a b x y : Nat} (hx : x < bound) (hy : y < bound) :
    bound * a + x < bound * b + y ↔ a < b ∨ a = b ∧ x < y := by
  rcases Nat.lt_trichotomy a b with hab | rfl | hba
  · have hstep : bound * a + bound ≤ bound * b := Nat.mul_le_mul_left bound hab
    omega
  · omega
  · have hstep : bound * b + bound ≤ bound * a := Nat.mul_le_mul_left bound hba
    omega

theorem digit_lt_iff {c d : Char} (hc : Text.isDigit c = true) (hd : Text.isDigit d = true) :
    c.toNat - 48 < d.toNat - 48 ↔ c < d := by
  have hcode := Date.toNat_of_isDigit hc
  have hcode' := Date.toNat_of_isDigit hd
  rw [Char.lt_def, UInt32.lt_iff_toNat_lt]
  change _ ↔ c.toNat < d.toNat
  omega

theorem digit_inj {c d : Char} (hc : Text.isDigit c = true) (hd : Text.isDigit d = true) :
    c.toNat - 48 = d.toNat - 48 ↔ c = d := by
  have hcode := Date.toNat_of_isDigit hc
  have hcode' := Date.toNat_of_isDigit hd
  rw [← Char.toNat_inj]
  omega

theorem ofDigits_lt_iff {a b : List Char} (ha : ∀ c ∈ a, Text.isDigit c = true)
    (hb : ∀ c ∈ b, Text.isDigit c = true) (h : a.length = b.length) :
    ofDigits a < ofDigits b ↔ a < b := by
  induction a generalizing b with
  | nil =>
      cases b with
      | nil => simp [ofDigits]
      | cons d bs => cases h
  | cons c as ih =>
      cases b with
      | nil => cases h
      | cons d bs =>
          have hlength : as.length = bs.length := Nat.succ.inj h
          obtain ⟨hc, has⟩ := List.forall_mem_cons.mp ha
          obtain ⟨hd, hbs⟩ := List.forall_mem_cons.mp hb
          -- The rest is worth less than one in the place of the first digit.
          have hbound : ofDigits bs < 10 ^ as.length := hlength ▸ ofDigits_lt hbs
          rw [ofDigits_cons, ofDigits_cons, ← hlength, mul_add_lt_mul_add_iff (ofDigits_lt has) hbound,
            digit_lt_iff hc hd, digit_inj hc hd, ih has hbs hlength, List.cons_lt_cons_iff]

theorem ofDigits_inj {a b : List Char} (ha : ∀ c ∈ a, Text.isDigit c = true)
    (hb : ∀ c ∈ b, Text.isDigit c = true) (h : a.length = b.length) :
    ofDigits a = ofDigits b ↔ a = b := by
  refine ⟨fun heq => ?_, congrArg ofDigits⟩
  rcases lt_trichotomy a b with hlt | hsame | hgt
  · exact absurd heq ((ofDigits_lt_iff ha hb h).mpr hlt).ne
  · exact hsame
  · exact absurd heq ((ofDigits_lt_iff hb ha h.symm).mpr hgt).ne'

end Decimal

theorem append_lt_append_iff {a b x y : List Char} (h : a.length = b.length) :
    a ++ x < b ++ y ↔ a < b ∨ a = b ∧ x < y := by
  induction a generalizing b with
  | nil =>
      cases b with
      | nil => simp
      | cons d bs => cases h
  | cons c as ih =>
      cases b with
      | nil => cases h
      | cons d bs =>
          rw [List.cons_append, List.cons_append, List.cons_lt_cons_iff, List.cons_lt_cons_iff,
            ih (Nat.succ.inj h), List.cons.injEq, and_or_left, and_assoc, or_assoc]

/-! ## Four, two and two digits -/

structure IsoText where
  year : List Char
  month : List Char
  day : List Char
  year_digits : ∀ c ∈ year, Text.isDigit c = true
  month_digits : ∀ c ∈ month, Text.isDigit c = true
  day_digits : ∀ c ∈ day, Text.isDigit c = true
  year_length : year.length = 4
  month_length : month.length = 2
  day_length : day.length = 2

namespace IsoText

open Date

def text (t : IsoText) : String :=
  String.ofList (t.year ++ '-' :: (t.month ++ '-' :: t.day))

theorem length_text (t : IsoText) : t.text.length = 10 := by
  rw [text, String.length_ofList, List.length_append, List.length_cons, List.length_append,
    List.length_cons, t.year_length, t.month_length, t.day_length]

def IsDay (t : IsoText) : Prop :=
  1 ≤ Decimal.ofDigits t.month ∧ 1 ≤ Decimal.ofDigits t.day ∧
    Decimal.ofDigits t.day ≤ daysInMonth (Decimal.ofDigits t.year) (Decimal.ofDigits t.month)

instance (t : IsoText) : Decidable t.IsDay :=
  inferInstanceAs (Decidable (_ ∧ _ ∧ _))

theorem isNumeral {digits : List Char} (h : ∀ c ∈ digits, Text.isDigit c = true) {n : Nat}
    (hlength : digits.length = n + 1) : IsNumeral digits :=
  ⟨List.ne_nil_of_length_eq_add_one hlength, h⟩

theorem parse?_text (t : IsoText) :
    parse? t.text =
      of? (Decimal.ofDigits t.year) (Decimal.ofDigits t.month) (Decimal.ofDigits t.day) := by
  have hblanks : IsBlanks [] := fun c hc => absurd hc List.not_mem_nil
  have hyear : year? ([] ++ (t.year ++ '-' :: (t.month ++ '-' :: t.day))) = some (_, _) :=
    (SpellsYear.plain (isNumeral t.year_digits t.year_length) t.year_length.le).year? hblanks rfl
  have hmonth : part? ([] ++ (t.month ++ '-' :: t.day)) = some (_, _) :=
    (SpellsPart.digits (isNumeral t.month_digits t.month_length) t.month_length.le).part? hblanks rfl
  have hday : part? ([] ++ (t.day ++ [])) = some (_, _) :=
    (SpellsPart.digits (isNumeral t.day_digits t.day_length) t.day_length.le).part? hblanks rfl
  rw [List.nil_append] at hyear hmonth hday
  rw [List.append_nil] at hday
  rw [parse?, text, String.toList_ofList, hyear]
  simp only [Option.bind_eq_bind, Option.bind_some, hyphen?, hmonth, hday, List.isEmpty_nil,
    if_true]

theorem parse?_text_eq_some_iff (t : IsoText) (date : Date) :
    parse? t.text = some date ↔ date.Names (Decimal.ofDigits t.year) (Decimal.ofDigits t.month)
      (Decimal.ofDigits t.day) := by
  rw [parse?_text, of?_eq_some_iff]

/-- A text of this form is a date exactly if it names a day of the calendar. -/
theorem accepted_iff (t : IsoText) : (parse? t.text).isSome = true ↔ t.IsDay := by
  have hyear := Decimal.ofDigits_lt t.year_digits
  rw [t.year_length] at hyear
  rw [parse?_text, of?, IsDay]
  split
  · next h => simpa using h.2
  · next h =>
    simp only [Option.isSome_none, Bool.false_eq_true, false_iff]
    exact fun hday => h ⟨by omega, hday⟩

theorem lt_iff (s t : IsoText) :
    s.text < t.text ↔
      Decimal.ofDigits s.year < Decimal.ofDigits t.year ∨
      Decimal.ofDigits s.year = Decimal.ofDigits t.year ∧
        (Decimal.ofDigits s.month < Decimal.ofDigits t.month ∨
        Decimal.ofDigits s.month = Decimal.ofDigits t.month ∧
          Decimal.ofDigits s.day < Decimal.ofDigits t.day) := by
  have hyear := s.year_length.trans t.year_length.symm
  have hmonth := s.month_length.trans t.month_length.symm
  have hday := s.day_length.trans t.day_length.symm
  have hhyphen {x y : List Char} : '-' :: x < '-' :: y ↔ x < y := by
    simp
  rw [String.lt_iff_toList_lt, text, text, String.toList_ofList, String.toList_ofList,
    append_lt_append_iff hyear, hhyphen, append_lt_append_iff hmonth, hhyphen,
    Decimal.ofDigits_lt_iff s.year_digits t.year_digits hyear,
    Decimal.ofDigits_inj s.year_digits t.year_digits hyear,
    Decimal.ofDigits_lt_iff s.month_digits t.month_digits hmonth,
    Decimal.ofDigits_inj s.month_digits t.month_digits hmonth,
    Decimal.ofDigits_lt_iff s.day_digits t.day_digits hday]

theorem lt_iff_before {s t : IsoText} {date other : Date} (hs : parse? s.text = some date)
    (ht : parse? t.text = some other) : s.text < t.text ↔ date.before other = true := by
  obtain ⟨hyear, hmonth, hday⟩ := (s.parse?_text_eq_some_iff date).mp hs
  obtain ⟨hyear', hmonth', hday'⟩ := (t.parse?_text_eq_some_iff other).mp ht
  rw [lt_iff, before]
  simp only [Bool.or_eq_true, Bool.and_eq_true, decide_eq_true_eq, beq_iff_eq, hyear, hmonth, hday,
    hyear', hmonth', hday', Int.ofNat_lt, Int.ofNat_inj]

end IsoText

end FormDerivation
