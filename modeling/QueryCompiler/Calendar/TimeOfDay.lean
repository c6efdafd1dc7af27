import QueryCompiler.Calendar.Field
import QueryCompiler.Number.Power

/-! # Times of day

A time of day to the nanosecond, its text `13:05:09.250`, and how that text is read. Any minute may
end in a leap second, which is second 60.
-/

namespace QueryCompiler
set_option autoImplicit false

/-- Whether a clock shows such a time. -/
def isClockTime (hour minute second nanosecond : Nat) : Bool :=
  hour < 24 && minute < 60 && second ≤ 60 && nanosecond < 1000000000

/-- A time of day. -/
structure TimeOfDay where
  hour : Nat
  minute : Nat
  second : Nat
  nanosecond : Nat
  valid : isClockTime hour minute second nanosecond = true
  deriving DecidableEq

namespace TimeOfDay

/-- The time with these numbers, if a clock shows it. -/
def ofFields? (hour minute second nanosecond : Nat) : Option TimeOfDay :=
  if h : isClockTime hour minute second nanosecond = true then
    some ⟨hour, minute, second, nanosecond, h⟩
  else none

/-- As `ofFields?`, with a leap second counted as part of second 59: nanoseconds from one billion on
belong to it. -/
def ofClock? (hour minute second nanosecond : Nat) : Option TimeOfDay :=
  if second = 59 ∧ 1000000000 ≤ nanosecond then
    ofFields? hour minute 60 (nanosecond - 1000000000)
  else if second < 60 then ofFields? hour minute second nanosecond
  else none

/-- The part below a second: nothing, or a point and three, six or nine digits, the fewest that lose
nothing. -/
def fractionText (nanosecond : Nat) : String :=
  if nanosecond = 0 then ""
  else if nanosecond % 1000000 = 0 then "." ++ padded 3 (nanosecond / 1000000)
  else if nanosecond % 1000 = 0 then "." ++ padded 6 (nanosecond / 1000)
  else "." ++ padded 9 nanosecond

/-- A time as text: hour, minute and second with colons between them, and the fraction if any. -/
def text (t : TimeOfDay) : String :=
  padded 2 t.hour ++ ":" ++ padded 2 t.minute ++ ":" ++ padded 2 t.second ++
    fractionText t.nanosecond

/-- Reads the fraction after the seconds, as nanoseconds. A point needs a digit behind it, and digits
past the ninth are skipped. -/
def readFraction (cs : List Char) : Option (Nat × List Char) :=
  match cs with
  | '.' :: rest =>
    match rest.takeWhile Char.isDigit with
    | [] => none
    | digits =>
      let kept := digits.take 9
      some (ofDigits kept * tenPow (9 - kept.length), rest.drop digits.length)
  | cs => some (0, cs)

/-- Reads hour and minute at the front of a text. -/
def readMinutes (cs : List Char) : Option ((Nat × Nat) × List Char) := do
  let (hour, cs) ← Calendar.readField 2 cs
  let cs ← Calendar.readSeparator ':' cs
  let (minute, cs) ← Calendar.readField 2 cs
  return ((hour, minute), cs)

/-- Reads the separator before the seconds, the seconds and their fraction. -/
def readSeconds (cs : List Char) : Option ((Nat × Nat) × List Char) := do
  let cs ← Calendar.readSeparator ':' cs
  let (second, cs) ← Calendar.readField 2 cs
  let (nanosecond, cs) ← readFraction cs
  return ((second, nanosecond), cs)

/-- Reads a time with seconds at the front of a text. -/
def read (cs : List Char) : Option (TimeOfDay × List Char) := do
  let ((hour, minute), cs) ← readMinutes cs
  let ((second, nanosecond), cs) ← readSeconds cs
  let time ← ofFields? hour minute second nanosecond
  return (time, cs)

/-- The time that a text holds, blanks at its ends apart. The seconds may be missing. -/
def parse? (s : String) : Option TimeOfDay := do
  let ((hour, minute), cs) ← readMinutes s.toList
  let ((second, nanosecond), rest) := (readSeconds cs).getD ((0, 0), cs)
  if (Text.skipBlanks rest).isEmpty then ofFields? hour minute second nanosecond else none

end TimeOfDay

end QueryCompiler
