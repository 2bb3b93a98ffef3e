import FormDerivation.Decimal.Reader

/-!
Calendar dates of the proleptic Gregorian calendar.

`Date.parse?` reads a date that fills a text: year, month and day with hyphens between them.  Each
number may follow blanks.  Without a sign the year has one to four digits, with a sign any number;
month and day have one or two.
-/

namespace FormDerivation

def isLeapYear (year : Int) : Bool :=
  year % 4 == 0 && (year % 100 != 0 || year % 400 == 0)

/-- The number of days of a month; zero for a number that names none. -/
def daysInMonth (year : Int) (month : Nat) : Nat :=
  if month == 2 then (if isLeapYear year then 29 else 28)
  else if month == 4 || month == 6 || month == 9 || month == 11 then 30
  else if 1 ≤ month && month ≤ 12 then 31
  else 0

/-- A day of the calendar.  Years run from -262143 to 262142. -/
structure Date where
  year : Int
  month : Nat
  day : Nat
  year_range : -262143 ≤ year ∧ year ≤ 262142
  month_pos : 1 ≤ month
  day_range : 1 ≤ day ∧ day ≤ daysInMonth year month
  deriving DecidableEq, Repr

namespace Date

def of? (year : Int) (month day : Nat) : Option Date :=
  if h : (-262143 ≤ year ∧ year ≤ 262142) ∧ 1 ≤ month ∧ (1 ≤ day ∧ day ≤ daysInMonth year month)
  then some ⟨year, month, day, h.1, h.2.1, h.2.2⟩
  else none

def before (a b : Date) : Bool :=
  a.year < b.year || (a.year == b.year &&
    (a.month < b.month || (a.month == b.month && a.day < b.day)))

def dayBefore (a b : Date) : Bool :=
  a.month < b.month || (a.month == b.month && a.day < b.day)

def completedYears (early late : Date) : Int :=
  late.year - early.year - (if late.dayBefore early then 1 else 0)

def yearsBetween (start finish : Date) : Int :=
  if finish.before start then -(completedYears finish start) else completedYears start finish

/-! ## Reading -/

/-- A number of at least one and at most `limit` digits, and the rest. -/
def digits? (limit : Nat) (cs : List Char) : Option (Nat × List Char) :=
  let run := (cs.take limit).takeWhile Text.isDigit
  if run.isEmpty then none else some (Decimal.ofDigits run, cs.drop run.length)

def year? (cs : List Char) : Option (Int × List Char) :=
  match Text.trimStartChars cs with
  | '-' :: rest => (digits? rest.length rest).map fun (n, rest) => (-(n : Int), rest)
  | '+' :: rest => (digits? rest.length rest).map fun (n, rest) => ((n : Int), rest)
  | cs => (digits? 4 cs).map fun (n, rest) => ((n : Int), rest)

def part? (cs : List Char) : Option (Nat × List Char) :=
  digits? 2 (Text.trimStartChars cs)

def hyphen? : List Char → Option (List Char)
  | '-' :: rest => some rest
  | _ => none

def parse? (text : String) : Option Date := do
  let (year, rest) ← year? text.toList
  let (month, rest) ← part? (← hyphen? rest)
  let (day, rest) ← part? (← hyphen? rest)
  if rest.isEmpty then of? year month day else none

end Date

end FormDerivation
