/-! # References

Names, dotted paths, JSON steps, and the references to columns and tables that are made of them.
Names are kept without quotes; quoting them is the business of a dialect.
-/

namespace QueryCompiler
set_option autoImplicit false

/-- A name without quotes. The name `*` stands for all columns. -/
abbrev Name := String

/-- The name that stands for all columns. -/
def wildcard : Name := "*"

/-- A dotted name, outermost part first. -/
abbrev Path := List Name

namespace Path

/-- Whether a path has more than its own name. -/
def isQualified (path : Path) : Bool := 1 < path.length

/-- Puts a qualifier in front of a path that has none. -/
def qualify (path : Path) (qualifier : Name) : Path :=
  if path.isQualified then path else qualifier :: path

/-- Whether the last name of a path is `*`. -/
def endsInWildcard (path : Path) : Bool := path.getLast? = some wildcard

/-- Puts a table prefix in front of the last name: the path is that of a table. -/
def prefixTable (tablePrefix : String) : Path → Path
  | [] => []
  | [table] => [tablePrefix ++ table]
  | schema :: path => schema :: prefixTable tablePrefix path

/-- Puts a table prefix in front of the last name but one: the path is that of a column. -/
def prefixQualifier (tablePrefix : String) : Path → Path
  | [] => []
  | [column] => [column]
  | [table, column] => [tablePrefix ++ table, column]
  | schema :: path => schema :: prefixQualifier tablePrefix path

end Path

/-- One step into a JSON document. -/
inductive JsonStep where
  /-- A member of an object. -/
  | key (name : String)
  /-- An item of an array, counting from zero. -/
  | index (position : Nat)
  deriving DecidableEq

/-- A column with the JSON steps into it. The label is the alias that it gets. -/
structure ColumnRef where
  path : Path
  json : List JsonStep := []
  label : Option Name := none
  deriving DecidableEq

/-- The column with a prefix in front of the table that its path names. -/
def ColumnRef.withPrefix (c : ColumnRef) (tablePrefix : String) : ColumnRef :=
  { c with path := c.path.prefixQualifier tablePrefix }

/-- A table. The label is the alias that it gets. -/
structure TableName where
  path : Path
  label : Option Name := none
  deriving DecidableEq

namespace TableName

/-- The name of the table itself, without its schema. -/
def table? (t : TableName) : Option Name := t.path.getLast?

/-- The name by which other clauses refer to the table: its alias, or else its own name. -/
def referenceName (t : TableName) : Name := t.label.getD (t.table?.getD "")

/-- The table without its alias. -/
def withoutAlias (t : TableName) : TableName := { t with label := none }

/-- The table with a prefix in front of its name and of its alias. Schemas have no prefix. -/
def withPrefix (t : TableName) (tablePrefix : String) : TableName :=
  ⟨t.path.prefixTable tablePrefix, t.label.map (tablePrefix ++ ·)⟩

end TableName

end QueryCompiler
