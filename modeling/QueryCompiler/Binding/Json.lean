import QueryCompiler.Binding.Basic
import QueryCompiler.Value.Json

/-! # Bindings as JSON

A list of bindings is a record with the one field `entries`; a binding is a record with the fields
`value` and `purpose`.
-/

namespace QueryCompiler
set_option autoImplicit false

/-- The binding that a JSON document holds. -/
def Binding.ofJson? (json : Json) : Option Binding := do
  let [some value, some purpose] ← json.fields? ["value", "purpose"] | none
  return ⟨← Value.ofJson? value, ← Purpose.ofName? (← purpose.tag?)⟩

/-- The bindings that a JSON document holds. -/
def Bindings.ofJson? (json : Json) : Option Bindings := do
  let [some (.array entries)] ← json.fields? ["entries"] | none
  entries.mapM Binding.ofJson?

/-- A binding as compact JSON text. -/
def Binding.jsonText (b : Binding) : String :=
  Json.objectText [("value", b.value.jsonText), ("purpose", Json.quoted b.purpose.name)]

/-- Bindings as compact JSON text. -/
def Bindings.jsonText (bindings : Bindings) : String :=
  Json.objectText [("entries", Json.arrayText (bindings.map Binding.jsonText))]

end QueryCompiler
