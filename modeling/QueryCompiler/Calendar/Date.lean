import QueryCompiler.Calendar.Field

/-! # Dates

A day of the proleptic Gregorian calendar, its text `2024-02-29`, and how that text is read.
-/

namespace QueryCompiler
set_option autoImplicit false

/-- Every fourth year, except the centuries that 400 does not divide. -/
def isLeapYear (year : Int) : Bool :=
  year % 4 == 0 && (year % 100 != 0 || year % 400 == 0)

/-- The number of days of a month, months counting from one. -/
def daysInMonth (year : Int) (month : Nat) : Nat :=
  match month with
  | 2 => if isLeapYear year then 29 else 28
  | 4 | 6 | 9 | 11 => 30
  | _ => 31

/-- Whether the calendar has such a day; years run from -262143 to 262142. -/
def isCalendarDay (year : Int) (month day : Nat) : Bool :=
  -262143 ≤ year && year ≤ 262142 && 1 ≤ month && month ≤ 12 && 1 ≤ day &&
    day ≤ daysInMonth year month

/-- A calendar day. -/
structure Date where
  year : Int
  month : Nat
  day : Nat
  valid : isCalendarDay year month day = true
  deriving DecidableEq

namespace Date

/-- The day with these numbers, if the calendar has it. -/
def ofFields? (year : Int) (month day : Nat) : Option Date :=
  if h : isCalendarDay year month day = true then some ⟨year, month, day, h⟩ else none

/-- A year as text: four digits, and a sign in front of years before 0 and after 9999. -/
def yearText (year : Int) : String :=
  if year < 0 then "-" ++ padded 4 year.natAbs
  else if 9999 < year then "+" ++ padded 4 year.natAbs
  else padded 4 year.natAbs

/-- A date as text: year, month and day with hyphens between them. -/
def text (d : Date) : String :=
  yearText d.year ++ "-" ++ padded 2 d.month ++ "-" ++ padded 2 d.day

/-- Reads a year: with a sign any number of digits, without one at most four. -/
def readYear (cs : List Char) : Option (Int × List Char) :=
  match Text.skipBlanks cs with
  | '-' :: rest => (Calendar.readDigits none rest).map fun (n, rest) => (-(n : Int), rest)
  | '+' :: rest => (Calendar.readDigits none rest).map fun (n, rest) => ((n : Int), rest)
  | cs => (Calendar.readDigits (some 4) cs).map fun (n, rest) => ((n : Int), rest)

/-- Reads a date at the front of a text. -/
def read (cs : List Char) : Option (Date × List Char) := do
  let (year, cs) ← readYear cs
  let cs ← Calendar.readSeparator '-' cs
  let (month, cs) ← Calendar.readField 2 cs
  let cs ← Calendar.readSeparator '-' cs
  let (day, cs) ← Calendar.readField 2 cs
  let date ← ofFields? year month day
  return (date, cs)

/-- The date that a text holds, blanks at its ends apart. -/
def parse? (s : String) : Option Date := do
  let (date, rest) ← read s.toList
  if (Text.skipBlanks rest).isEmpty then some date else none

end Date

end QueryCompiler
