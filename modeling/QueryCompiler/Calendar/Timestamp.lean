import QueryCompiler.Calendar.Date
import QueryCompiler.Calendar.TimeOfDay

/-! # Timestamps

A date with a time of day and no zone, its text `2024-02-29T13:05:09`, and the formats in which
databases store it.
-/

namespace QueryCompiler
set_option autoImplicit false

/-- A date and a time of day. -/
structure Timestamp where
  date : Date
  time : TimeOfDay
  deriving DecidableEq

/-- One field of a timestamp format. -/
inductive TimestampField where
  | year
  | month
  | day
  | hour
  | minute
  | second
  /-- A point and three digits, the rest cut off. -/
  | milliseconds
  /-- A character that stands for itself. -/
  | literal (c : Char)
  deriving DecidableEq

/-- How a timestamp is written: its fields in order. -/
abbrev TimestampFormat := List TimestampField

namespace TimestampField

/-- The directive that names a field in a format's pattern. -/
def pattern : TimestampField → String
  | .year => "%Y"
  | .month => "%m"
  | .day => "%d"
  | .hour => "%H"
  | .minute => "%M"
  | .second => "%S"
  | .milliseconds => "%.3f"
  | .literal c => c.toString

/-- A field of a timestamp, as text. -/
def text (t : Timestamp) : TimestampField → String
  | .year => Date.yearText t.date.year
  | .month => padded 2 t.date.month
  | .day => padded 2 t.date.day
  | .hour => padded 2 t.time.hour
  | .minute => padded 2 t.time.minute
  | .second => padded 2 t.time.second
  | .milliseconds => "." ++ padded 3 (t.time.nanosecond / 1000000)
  | .literal c => c.toString

end TimestampField

namespace TimestampFormat

/-- The pattern of a format: the directives of its fields. -/
def pattern (format : TimestampFormat) : String :=
  String.join (format.map TimestampField.pattern)

/-- Date and time to the second, with a blank between them. -/
def seconds : TimestampFormat :=
  [.year, .literal '-', .month, .literal '-', .day, .literal ' ',
    .hour, .literal ':', .minute, .literal ':', .second]

/-- Date and time to the millisecond, with a blank between them. -/
def milliseconds : TimestampFormat := seconds ++ [.milliseconds]

end TimestampFormat

namespace Timestamp

/-- A timestamp written in a format. -/
def format (t : Timestamp) (format : TimestampFormat) : String :=
  String.join (format.map (TimestampField.text t))

/-- A timestamp as text: the date, the letter T and the time. -/
def text (t : Timestamp) : String := t.date.text ++ "T" ++ t.time.text

/-- The timestamp that a text holds, blanks at its ends apart. -/
def parse? (s : String) : Option Timestamp := do
  let (date, cs) ← Date.read s.toList
  let cs ← Calendar.readSeparator 'T' cs
  let (time, rest) ← TimeOfDay.read cs
  if (Text.skipBlanks rest).isEmpty then some ⟨date, time⟩ else none

end Timestamp

end QueryCompiler
