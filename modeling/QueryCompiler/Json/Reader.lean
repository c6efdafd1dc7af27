import QueryCompiler.Json.Basic

/-! # Reading JSON

`Json.parse?` reads a whole text as one JSON value. Only blanks may stand around it.
-/

namespace QueryCompiler.Json
set_option autoImplicit false

/-! ## Tokens -/

/-- The blanks of JSON. -/
def isJsonBlank (c : Char) : Bool := c = ' ' || c = '\t' || c = '\n' || c = '\r'

/-- The characters from the first one that is not blank. -/
def skip (cs : List Char) : List Char := cs.dropWhile isJsonBlank

/-- The value of a hexadecimal digit. -/
def hexDigit? (c : Char) : Option Nat :=
  if '0' ≤ c ∧ c ≤ '9' then some (c.toNat - '0'.toNat)
  else if 'a' ≤ c ∧ c ≤ 'f' then some (c.toNat - 'a'.toNat + 10)
  else if 'A' ≤ c ∧ c ≤ 'F' then some (c.toNat - 'A'.toNat + 10)
  else none

/-- The number that four hexadecimal digits write. -/
def hexUnit? (a b c d : Char) : Option Nat := do
  return (((← hexDigit? a) * 16 + (← hexDigit? b)) * 16 + (← hexDigit? c)) * 16 + (← hexDigit? d)

/-- The character that a one-letter escape stands for. -/
def escaped? : Char → Option Char
  | '"' => some '"'
  | '\\' => some '\\'
  | '/' => some '/'
  | 'b' => some '\x08'
  | 'f' => some '\x0c'
  | 'n' => some '\n'
  | 'r' => some '\r'
  | 't' => some '\t'
  | _ => none

/-- Whether a code unit is the first half of a surrogate pair. -/
def isHighSurrogate (n : Nat) : Bool := 0xd800 ≤ n && n < 0xdc00

/-- Whether a code unit is the second half of a surrogate pair. -/
def isLowSurrogate (n : Nat) : Bool := 0xdc00 ≤ n && n < 0xe000

/-- The character of a surrogate pair. -/
def pairChar (high low : Nat) : Char :=
  Char.ofNat (0x10000 + (high - 0xd800) * 0x400 + (low - 0xdc00))

/-- Puts a character in front of the text of a string, if it has one. -/
def consText (c : Char) (result : Option (List Char) × List Char) :
    Option (List Char) × List Char :=
  (result.1.map (c :: ·), result.2)

/-- Reads a string behind its opening quote: its characters, and what follows the closing quote. The
characters are missing when half of a surrogate pair is escaped on its own. -/
def readString : List Char → Option (Option (List Char) × List Char)
  | '"' :: rest => some (some [], rest)
  | '\\' :: 'u' :: a :: b :: c :: d :: rest =>
    match hexUnit? a b c d with
    | none => none
    | some n =>
      if isHighSurrogate n then
        match rest with
        | '\\' :: 'u' :: a' :: b' :: c' :: d' :: rest' =>
          match hexUnit? a' b' c' d' with
          | none => none
          | some n' =>
            if isLowSurrogate n' then (readString rest').map (consText (pairChar n n'))
            else (readString rest').map fun result => (none, result.2)
        | rest => (readString rest).map fun result => (none, result.2)
      else if isLowSurrogate n then (readString rest).map fun result => (none, result.2)
      else (readString rest).map (consText (Char.ofNat n))
  | '\\' :: c :: rest =>
    match escaped? c with
    | none => none
    | some e => (readString rest).map (consText e)
  | c :: rest => if c.toNat < 0x20 then none else (readString rest).map (consText c)
  | [] => none

/-- Reads the digits of an integer: a zero, or digits that do not start with one. -/
def readInteger (cs : List Char) : Option (List Char × List Char) :=
  match cs with
  | '0' :: rest => some (['0'], rest)
  | cs =>
    match cs.takeWhile Char.isDigit with
    | [] => none
    | digits => some (digits, cs.drop digits.length)

/-- Reads one or more digits. -/
def readSomeDigits (cs : List Char) : Option (List Char × List Char) :=
  match cs.takeWhile Char.isDigit with
  | [] => none
  | digits => some (digits, cs.drop digits.length)

/-- Reads the fraction of a number, if there is one. -/
def readFraction (cs : List Char) : Option (List Char × List Char) :=
  match cs with
  | '.' :: rest => readSomeDigits rest
  | cs => some ([], cs)

/-- Reads the exponent of a number, if there is one. -/
def readExponent (cs : List Char) : Option (Option Int × List Char) :=
  match cs with
  | c :: rest =>
    if c = 'e' ∨ c = 'E' then
      match rest with
      | '-' :: rest => (readSomeDigits rest).map fun (ds, rest) => (some (-(ofDigits ds : Int)), rest)
      | '+' :: rest => (readSomeDigits rest).map fun (ds, rest) => (some (ofDigits ds : Int), rest)
      | rest => (readSomeDigits rest).map fun (ds, rest) => (some (ofDigits ds : Int), rest)
    else some (none, cs)
  | [] => some (none, [])

/-- Reads a number behind its sign. -/
def readNumber (negative : Bool) (cs : List Char) : Option (Number × List Char) := do
  let (integer, cs) ← readInteger cs
  let (fraction, cs) ← readFraction cs
  let (exponent, cs) ← readExponent cs
  return (⟨negative, integer, fraction, exponent⟩, cs)

/-- What follows the given letters. -/
def readWord : List Char → List Char → Option (List Char)
  | [], cs => some cs
  | w :: ws, c :: cs => if w = c then readWord ws cs else none
  | _ :: _, [] => none

/-! ## Values

The readers below call each other at most once for each character they pass, so a budget of twice the
length of the text is never used up. -/

mutual

/-- Reads a value, which may stand after blanks. -/
def readValue : Nat → List Char → Option (Json × List Char)
  | 0, _ => none
  | budget + 1, cs =>
    match skip cs with
    | 'n' :: rest => (readWord ['u', 'l', 'l'] rest).map (.null, ·)
    | 't' :: rest => (readWord ['r', 'u', 'e'] rest).map (.bool true, ·)
    | 'f' :: rest => (readWord ['a', 'l', 's', 'e'] rest).map (.bool false, ·)
    | '"' :: rest =>
      (readString rest).map fun (text, rest) => (.string (text.map String.ofList), rest)
    | '-' :: rest => (readNumber true rest).map fun (n, rest) => (.number n, rest)
    | '[' :: rest =>
      match skip rest with
      | ']' :: rest => some (.array [], rest)
      | rest => (readItems budget rest).map fun (items, rest) => (.array items, rest)
    | '\x7b' :: rest =>
      match skip rest with
      | '\x7d' :: rest => some (.object [], rest)
      | rest => (readMembers budget rest).map fun (members, rest) => (.object members, rest)
    | rest => (readNumber false rest).map fun (n, rest) => (.number n, rest)

/-- Reads one or more items of an array and its closing bracket. -/
def readItems : Nat → List Char → Option (List Json × List Char)
  | 0, _ => none
  | budget + 1, cs =>
    match readValue budget cs with
    | none => none
    | some (item, rest) =>
      match skip rest with
      | ',' :: rest => (readItems budget rest).map fun (items, rest) => (item :: items, rest)
      | ']' :: rest => some ([item], rest)
      | _ => none

/-- Reads one or more members of an object and its closing brace. -/
def readMembers : Nat → List Char → Option (List (Option String × Json) × List Char)
  | 0, _ => none
  | budget + 1, cs =>
    match skip cs with
    | '"' :: rest =>
      match readString rest with
      | none => none
      | some (key, rest) =>
        match skip rest with
        | ':' :: rest =>
          match readValue budget rest with
          | none => none
          | some (value, rest) =>
            let member := (key.map String.ofList, value)
            match skip rest with
            | ',' :: rest =>
              (readMembers budget rest).map fun (members, rest) => (member :: members, rest)
            | '\x7d' :: rest => some ([member], rest)
            | _ => none
        | _ => none
    | _ => none

end

/-- The JSON value that a text holds, blanks around it apart. -/
def parse? (s : String) : Option Json :=
  let cs := s.toList
  match readValue (2 * cs.length + 2) cs with
  | some (json, rest) => if (skip rest).isEmpty then some json else none
  | none => none

end QueryCompiler.Json
