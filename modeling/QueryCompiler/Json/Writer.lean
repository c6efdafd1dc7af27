import QueryCompiler.Number.Decimal

/-! # Writing JSON

The pieces of compact JSON text: quoted strings, lists, and objects of named members. Only the quote,
the backslash and the control characters below U+0020 are escaped.
-/

namespace QueryCompiler.Json
set_option autoImplicit false

/-- A character inside a quoted string. -/
def escapeChar (c : Char) : List Char :=
  match c with
  | '"' => ['\\', '"']
  | '\\' => ['\\', '\\']
  | '\x08' => ['\\', 'b']
  | '\x0c' => ['\\', 'f']
  | '\n' => ['\\', 'n']
  | '\r' => ['\\', 'r']
  | '\t' => ['\\', 't']
  | c =>
    if c.toNat < 0x20 then
      ['\\', 'u', '0', '0', Nat.digitChar (c.toNat / 16), Nat.digitChar (c.toNat % 16)]
    else [c]

/-- A string in quotes. -/
def quoted (s : String) : String :=
  "\"" ++ String.ofList (s.toList.flatMap escapeChar) ++ "\""

/-- Texts with commas between them. -/
def separated (items : List String) : String := String.intercalate "," items

/-- An array of items that are already written. -/
def arrayText (items : List String) : String := "[" ++ separated items ++ "]"

/-- An object of members whose values are already written. -/
def objectText (members : List (String × String)) : String :=
  "\x7b" ++ separated (members.map fun (name, value) => quoted name ++ ":" ++ value) ++ "\x7d"

/-- A double; JSON has no infinities and writes `null` for them. -/
def doubleText (x : Binary64) : String := if x.isFinite then x.text else "null"

end QueryCompiler.Json
