import QueryCompiler.Number.Decimal

/-! # JSON documents

The tree of a JSON text, and the readings of it that records, tagged values and numbers need:

* `Json.Number.toInt?`, `Json.Number.toBinary64?`: a number as a 64-bit integer or as a double.
* `Json.fields?`: the fields of a record, written as an object or as an array in field order.
* `Json.variant?`: the tag and the content of a tagged value.
-/

namespace QueryCompiler
set_option autoImplicit false

/-- A number as it is written: sign, integer digits, fraction digits and exponent. -/
structure Json.Number where
  negative : Bool
  integer : List Char
  fraction : List Char
  exponent : Option Int
  deriving DecidableEq

/-- A JSON value. A string has no text when it escapes half of a surrogate pair. The members of an
object keep their order, and a name may occur more than once. -/
inductive Json where
  | null
  | bool (b : Bool)
  | number (n : Json.Number)
  | string (text : Option String)
  | array (items : List Json)
  | object (members : List (Option String × Json))

namespace Json.Number

/-! ## Numbers -/

/-- Without fraction and exponent. -/
def isInteger (n : Number) : Bool := n.fraction.isEmpty && n.exponent.isNone

/-- A number as a signed 64-bit integer. `-0` is no integer. -/
def toInt? (n : Number) : Option Int :=
  let size := ofDigits n.integer
  if !n.isInteger then none
  else if n.negative then
    if 0 < size ∧ size ≤ twoPow 63 then some (-(size : Int)) else none
  else if size < twoPow 63 then some size
  else none

/-- A number as a byte. -/
def toByte? (n : Number) : Option UInt8 :=
  let size := ofDigits n.integer
  if n.isInteger && !n.negative && size < 256 then some (UInt8.ofNat size) else none

/-- Appends digits to `size` as long as the result stays below `2 ^ 64`; gives the result and the
number of digits taken. -/
def takeDigits (size : Nat) : List Char → Nat × Nat
  | [] => (size, 0)
  | c :: cs =>
    let next := 10 * size + (c.toNat - '0'.toNat)
    if next < twoPow 64 then
      let (size, taken) := takeDigits next cs
      (size, taken + 1)
    else (size, 0)

/-- A number as a double, unless it is too large. Only digits that fit in 64 bits count; integer
digits past them still count as places. -/
def toBinary64? (n : Number) : Option Binary64 :=
  let (whole, takenWhole) := takeDigits 0 n.integer
  let (size, takenFraction) := takeDigits whole n.fraction
  let places : Int := ((n.integer.length - takenWhole : Nat) : Int) - takenFraction
  Binary64.ofDecimal? n.negative size (places + n.exponent.getD 0)

end Json.Number

namespace Json

/-! ## Records and tagged values -/

/-- A number that is a byte. -/
def byte? : Json → Option UInt8
  | .number n => n.toByte?
  | _ => none

/-- The values of the members called `name`. -/
def valuesOf (name : String) (members : List (Option String × Json)) : List Json :=
  members.filterMap fun (key, value) => if key = some name then some value else none

/-- The fields of a record with the given names, in their order, each with its value if it has one.
An object may hold other members, but each name at most once; an array gives the values in order. -/
def fields? (names : List String) : Json → Option (List (Option Json))
  | .object members =>
    if members.all (fun member => member.1.isSome) then
      names.mapM fun name =>
        match valuesOf name members with
        | [] => some none
        | [value] => some (some value)
        | _ => none
    else none
  | .array items =>
    if items.length ≤ names.length then
      some (items.map some ++ List.replicate (names.length - items.length) none)
    else none
  | _ => none

/-- The tag of a tagged value and its content: a tag alone is written as a string, a tag with content
as an object of one member. -/
def variant? : Json → Option (String × Option Json)
  | .string (some tag) => some (tag, none)
  | .object [(some tag, content)] => some (tag, some content)
  | _ => none

/-- The tag of a tagged value that has no content; `null` stands for no content. -/
def tag? (json : Json) : Option String :=
  match json.variant? with
  | some (tag, none) => some tag
  | some (tag, some .null) => some tag
  | _ => none

end Json

end QueryCompiler
