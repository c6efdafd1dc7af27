import QueryCompiler.Json.Basic
import QueryCompiler.Json.Writer
import QueryCompiler.Value.Basic

/-! # Values as JSON

A value is tagged with its kind: `"Null"`, or an object such as `{"Int":1}` of one member.
-/

namespace QueryCompiler.Value
set_option autoImplicit false

/-- The value that a JSON document holds. -/
def ofJson? (json : Json) : Option Value :=
  match json.variant? with
  | some ("Null", none) => some .null
  | some ("Null", some .null) => some .null
  | some ("Bool", some (.bool b)) => some (.bool b)
  | some ("Int", some (.number n)) => n.toInt?.map .int
  | some ("Float", some (.number n)) => n.toBinary64?.map .float
  | some ("Text", some (.string s)) => s.map .text
  | some ("Blob", some (.array items)) => (items.mapM Json.byte?).map .blob
  | some ("Date", some (.string s)) => (s.bind Date.parse?).map .date
  | some ("Time", some (.string s)) => (s.bind TimeOfDay.parse?).map .time
  | some ("Timestamp", some (.string s)) => (s.bind Timestamp.parse?).map .timestamp
  | _ => none

/-- A value as compact JSON text. -/
def jsonText : Value → String
  | .null => Json.quoted "Null"
  | .bool b => Json.objectText [("Bool", if b then "true" else "false")]
  | .int n => Json.objectText [("Int", n.repr)]
  | .float x => Json.objectText [("Float", Json.doubleText x)]
  | .text s => Json.objectText [("Text", Json.quoted s)]
  | .blob bytes => Json.objectText [("Blob", Json.arrayText (bytes.map fun b => b.toNat.repr))]
  | .date d => Json.objectText [("Date", Json.quoted d.text)]
  | .time t => Json.objectText [("Time", Json.quoted t.text)]
  | .timestamp t => Json.objectText [("Timestamp", Json.quoted t.text)]

end QueryCompiler.Value
