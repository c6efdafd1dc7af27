import QueryCompiler.Binding.Basic
import QueryCompiler.Plan.Basic
import QueryCompiler.Reference

/-! # Statement trees

The tree of one SQL statement. Fragments are read, tables have their final names, and each clause has
its place; what is left to a dialect is the spelling. A tree may still hold whole plans: a nested plan
becomes a statement of its own when the tree is rendered.
-/

namespace QueryCompiler
set_option autoImplicit false

/-- A function that each dialect spells in its own way. -/
inductive FunctionName where
  /-- Extracts a part of a date and time. -/
  | datePart (part : DatePart)
  /-- The length of a JSON array. -/
  | jsonLength
  deriving DecidableEq

/-! ## Queries -/

mutual

/-- An expression or a condition. -/
inductive Expr where
  | path (path : Path)
  /-- The scalar at a place inside a JSON column. -/
  | json (column : Path) (steps : List JsonStep)
  /-- A value behind a placeholder. -/
  | bound (value : Value) (purpose : Purpose)
  | raw (raw : Raw)
  /-- A sub-query in parentheses. -/
  | nested (nested : Nested)
  | call (function : FunctionName) (arguments : List Expr)
  /-- An aggregate; without arguments it is over `*`. -/
  | aggregate (function : AggregateFunction) (distinct : Bool) (arguments : List Expr)
  | compare (left : Expr) (comparison : Comparison) (right : Expr)
  | between (operand low high : Expr) (negated : Bool)
  | inList (operand : Expr) (values : List Expr) (negated : Bool)
  | inNested (operand : Expr) (nested : Nested) (negated : Bool)
  | isNull (operand : Expr) (negated : Bool)
  | existsIn (nested : Nested) (negated : Bool)
  | like (operand pattern : Expr) (caseSensitive negated : Bool)
  /-- Terms joined by one connective. -/
  | condition (connective : Connective) (terms : List Expr)
  | parenthesized (inner : Expr)

/-- What stands in the place of a sub-query. -/
inductive Nested where
  /-- A plan, compiled on its own. -/
  | plan (plan : Plan)
  | raw (raw : Raw)
  /-- A query of this statement. -/
  | query (query : Query)

/-- An entry of a select list. -/
inductive SelectItem where
  /-- All columns, or all columns of one table. -/
  | wildcard (qualifier : Option Path)
  | column (column : ColumnRef)
  | expr (expr : Expr) (label : Option Name)

/-- What stands in FROM, or what UPDATE and DELETE write to. -/
inductive TableExpr where
  | table (table : TableName)
  /-- A sub-query with an alias. -/
  | derived (nested : Nested) (label : Name)
  | joined (first : TableExpr) (joins : List JoinExpr)
  | raw (raw : Raw)

/-- One join of a joined table. -/
structure JoinExpr where
  kind : JoinKind
  target : TableExpr
  on : Option Expr := none

/-- An entry of an ORDER BY. -/
structure SortKey where
  expr : Expr
  direction : Option Direction := none

/-- A single SELECT. -/
structure Select where
  distinct : Bool := false
  items : List SelectItem
  source : Option TableExpr := none
  filter : Option Expr := none
  groupBy : Option (List Expr) := none
  having : Option Expr := none
  orderBy : Option (List SortKey) := none
  page : Page := {}
  lock : Option Lock := none

/-- A query: one SELECT, or a union with an order and a page of its own. -/
inductive Query where
  | select (select : Select)
  | union (left right : Query) (all : Bool) (orderBy : Option (List SortKey)) (page : Page)

end

/-! ## Statements that write -/

/-- Where inserted rows come from. -/
inductive InsertSource where
  /-- Rows of expressions, each as long as the column list. -/
  | rows (rows : List (List Expr))
  | nested (nested : Nested)
  /-- One row of defaults. -/
  | defaults

/-- What happens to a row that collides with an existing one. -/
inductive Conflict where
  /-- The row is skipped. -/
  | ignore
  /-- Rows that agree on `key` get the incoming values of the columns `update`. -/
  | update (key update : List Name)
  deriving DecidableEq

/-- An INSERT. -/
structure Insert where
  table : TableName
  columns : List Name := []
  source : InsertSource := .defaults
  conflict : Option Conflict := none
  /-- The column to give back. -/
  returning : Option Name := none

/-- An assignment of an UPDATE. -/
structure Assignment where
  column : Path
  value : Expr

/-- An UPDATE. `hasJoins` says that other tables take part, so that assigned columns need their
table. -/
structure Update where
  table : TableExpr
  assignments : List Assignment
  source : Option TableExpr := none
  filter : Option Expr := none
  orderBy : Option (List SortKey) := none
  limit : Option Nat := none
  hasJoins : Bool := false

/-- A DELETE. The target names the table to delete from where FROM lists more. -/
structure Delete where
  target : Option Name := none
  source : TableExpr
  filter : Option Expr := none
  orderBy : Option (List SortKey) := none
  limit : Option Nat := none

/-- A statement. -/
inductive Statement where
  | query (query : Query)
  | insert (insert : Insert)
  | update (update : Update)
  | delete (delete : Delete)
  | truncate (table : TableName)

end QueryCompiler
