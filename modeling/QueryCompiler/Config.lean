import QueryCompiler.Compiler
import QueryCompiler.Dialect.Engine
import QueryCompiler.Json.Reader
import QueryCompiler.Json.Writer

/-! # Configuration

What a compiler is made from: an engine and a table prefix, stored as a JSON record.
-/

namespace QueryCompiler
set_option autoImplicit false

/-- An engine and the prefix of all table names. -/
structure Config where
  engine : Engine
  tablePrefix : String := ""
  deriving DecidableEq

namespace Config

/-- The configuration that a JSON document holds. The prefix may be missing. -/
def ofJson? (json : Json) : Option Config := do
  let [some engine, tablePrefix] ← json.fields? ["dialect", "table_prefix"] | none
  let engine ← Engine.ofName? (← engine.tag?)
  match tablePrefix with
  | none => return { engine }
  | some (.string (some tablePrefix)) => return { engine, tablePrefix }
  | some _ => none

/-- The configuration that a JSON text holds. -/
def parse? (text : String) : Option Config := do ofJson? (← Json.parse? text)

/-- A configuration as compact JSON text. -/
def jsonText (config : Config) : String :=
  Json.objectText [
    ("dialect", Json.quoted config.engine.name),
    ("table_prefix", Json.quoted config.tablePrefix)]

/-- The compiler of a configuration. -/
def compiler (config : Config) : Compiler := ⟨config.engine.dialect, config.tablePrefix⟩

end Config

end QueryCompiler
