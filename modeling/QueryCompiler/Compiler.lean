import QueryCompiler.Sql.Placeholder
import QueryCompiler.Sql.Visitor

/-! # Compiler

A compiler turns plans into SQL for one dialect, with a prefix in front of all table names. Every
function here is determined by the compiler and its arguments.

* `Compiler.compileWithin`: plans that are nested no deeper than a given number.
* `Compiler.compileNested`: plans of any depth, as parts of another statement.
* `Compiler.select`, `existence`, `insert`, `insertOrIgnore`, `insertGetId`, `insertUsing`, `upsert`,
  `update`, `delete`, `truncate`: statements.
* `Compiler.quoteColumn`, `quoteTable`, `quoteSchema`: names in quotes.
-/

namespace QueryCompiler
set_option autoImplicit false

/-- A dialect, and the prefix of all table names. -/
structure Compiler where
  dialect : Dialect
  tablePrefix : String := ""

namespace Compiler

/-! ## Statements in general -/

/-- The SQL of a plan that is nested no deeper than `depth`. -/
def compileWithin (c : Compiler) : Nat → Plan → Except Error Sql
  | 0, _ => .error (.unexpectedNode .nestedTooDeep)
  | depth + 1, plan => do
    let query ← Query.ofPlan c.tablePrefix plan
    (query.visit ⟨c.dialect, c.compileWithin depth⟩ {}).sql

/-- The SQL of a plan that is part of another statement. -/
def compileNested (c : Compiler) (plan : Plan) : Except Error Sql :=
  c.compileWithin plan.depth plan

/-- What statement trees of any origin are written with. -/
def renderer (c : Compiler) : Renderer := ⟨c.dialect, c.compileNested⟩

/-- The SQL of a statement tree. -/
def render (c : Compiler) (statement : Statement) : Except Error Sql :=
  (statement.visit c.renderer).sql

/-- The number of placeholders in a text of this dialect. -/
def placeholders (c : Compiler) (sql : Sql) : Nat :=
  countPlaceholders sql.text c.dialect.placeholder

/-! ## Queries -/

/-- Selects the rows of a plan. -/
def select (c : Compiler) (plan : Plan) : Except Error Sql := do
  c.render (.query (← Query.ofPlan c.tablePrefix plan))

/-- Asks whether a plan has a row. -/
def existence (c : Compiler) (plan : Plan) : Except Error Sql := do
  c.render (.query (.select (← Select.existence c.dialect.existsStyle c.tablePrefix plan)))

/-! ## Inserts -/

/-- Inserts rows. -/
def insert (c : Compiler) (plan : Plan) (rows : List Row) : Except Error Sql := do
  c.render (.insert (← Insert.ofRows c.tablePrefix plan rows none))

/-- Inserts rows and skips those that collide with existing ones. -/
def insertOrIgnore (c : Compiler) (plan : Plan) (rows : List Row) : Except Error Sql := do
  c.render (.insert (← Insert.ofRows c.tablePrefix plan rows (some .ignore)))

/-- The column of generated keys, where no other is named. -/
def defaultIdColumn : Name := "id"

/-- Inserts one row and gives back its generated key. -/
def insertGetId (c : Compiler) (plan : Plan) (row : Row) (column : Option Name) :
    Except Error Sql := do
  let column := column.getD defaultIdColumn
  let insert ← Insert.ofRows c.tablePrefix plan [row] none
  match c.dialect.insertIdStyle with
  | .driver => c.render (.insert insert)
  | .returning => c.render (.insert { insert with returning := some column })
  | .scopeIdentity =>
    let sql ← c.render (.insert insert)
    return "SET NOCOUNT ON; " ++ sql ++ "; SELECT SCOPE_IDENTITY() AS " ++ c.dialect.quote column

/-- Inserts the rows of another plan. -/
def insertUsing (c : Compiler) (plan : Plan) (columns : List String) (source : Plan) :
    Except Error Sql := do
  c.render (.insert (← Insert.ofQuery c.tablePrefix plan columns source))

/-- Inserts rows and overwrites the columns `update` of rows that agree with them on `key`. -/
def upsert (c : Compiler) (plan : Plan) (rows : List Row) (key update : List String) :
    Except Error Sql := do
  c.render (.insert (← Insert.upsert c.dialect c.tablePrefix plan rows key update))

/-! ## Updates and deletes -/

/-- Assigns the entries of a row to all rows of a plan. -/
def update (c : Compiler) (plan : Plan) (row : Row) : Except Error Sql := do
  c.render (.update (← Update.ofPlan c.dialect c.tablePrefix plan row))

/-- Deletes the rows of a plan. -/
def delete (c : Compiler) (plan : Plan) : Except Error Sql := do
  c.render (.delete (← Delete.ofPlan c.dialect c.tablePrefix plan))

/-- Empties the table of a plan, in one or more statements. -/
def truncate (c : Compiler) (plan : Plan) : Except Error (List Sql) := do
  (← Statement.truncation c.dialect c.tablePrefix plan).mapM c.render

/-! ## Names and timestamps -/

/-- Puts an alias behind a text, if there is one. -/
def withAlias (c : Compiler) (text : String) : Option Name → String
  | none => text
  | some label => text ++ " AS " ++ c.dialect.quote label

/-- A column fragment in quotes. -/
def quoteColumn (c : Compiler) (fragment : String) : Except Error String := do
  let column ← ofFragmentResult (parseColumn fragment)
  let path := c.dialect.quotePath (column.path.prefixQualifier c.tablePrefix)
  let place := if column.json.isEmpty then path else c.dialect.hooks.jsonSelector column.json path
  return c.withAlias place column.label

/-- A table fragment in quotes. -/
def quoteTable (c : Compiler) (fragment : String) : Except Error String := do
  let table ← TableName.ofFragment c.tablePrefix fragment
  return c.withAlias (c.dialect.quotePath table.path) table.label

theorem withAlias_eq (c : Compiler) (text : String) (label : Option Name) :
    c.withAlias text label = text ++ c.dialect.aliasText label := by
  cases label with
  | none => exact String.append_empty.symm
  | some label => exact String.append_assoc

/-- A column fragment is quoted as the column that it is read as is written in a statement. -/
theorem quoteColumn_eq (c : Compiler) (fragment : String) :
    c.quoteColumn fragment = do
      return c.dialect.quoteColumn (← ColumnRef.ofFragment c.tablePrefix fragment) := by
  simp only [quoteColumn, withAlias_eq, ColumnRef.ofFragment, bind_assoc, pure_bind]
  rfl

/-- A table fragment is quoted as the table that it is read as is written in a statement. -/
theorem quoteTable_eq (c : Compiler) (fragment : String) :
    c.quoteTable fragment = do
      return c.dialect.quoteTable (← TableName.ofFragment c.tablePrefix fragment) := by
  simp only [quoteTable, withAlias_eq]
  rfl

/-- A schema name in quotes. Schemas have no prefix. -/
def quoteSchema (c : Compiler) (schema : Name) : String := c.dialect.quote schema

/-- A timestamp as the engine stores it. -/
def timestampText (c : Compiler) (timestamp : Timestamp) : String :=
  timestamp.format c.dialect.timestampFormat

end Compiler

end QueryCompiler
