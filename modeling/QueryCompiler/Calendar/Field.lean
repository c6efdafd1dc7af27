import QueryCompiler.Number.Digits
import QueryCompiler.Text.Blank

/-! # Fields of a written date or time

A date or time is a sequence of decimal fields and separators. Blanks are skipped before a field and
before a separator.
-/

namespace QueryCompiler.Calendar
set_option autoImplicit false

/-- The decimal number at the front of a text and what follows it: at least one digit, and no more
than `most` of them are taken. -/
def readDigits (most : Option Nat) (cs : List Char) : Option (Nat × List Char) :=
  let window := match most with
    | some n => cs.take n
    | none => cs
  match window.takeWhile Char.isDigit with
  | [] => none
  | digits => some (ofDigits digits, cs.drop digits.length)

/-- A field of at most `most` digits, after any blanks. -/
def readField (most : Nat) (cs : List Char) : Option (Nat × List Char) :=
  readDigits (some most) (Text.skipBlanks cs)

/-- What follows the separator `c`, which may stand after blanks. -/
def readSeparator (c : Char) (cs : List Char) : Option (List Char) :=
  match Text.skipBlanks cs with
  | d :: rest => if d = c then some rest else none
  | [] => none

end QueryCompiler.Calendar
