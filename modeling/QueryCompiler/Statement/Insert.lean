import QueryCompiler.Plan.Row
import QueryCompiler.Statement.Query

/-! # Inserts

An INSERT takes its table from a plan and its rows from a list. The first row names the columns; the
other rows have the same columns in any order.
-/

namespace QueryCompiler
set_option autoImplicit false

/-- The table that a plan writes to. `statement` is the word for the statement. -/
def Plan.target (plan : Plan) (tablePrefix statement : String) : Except Error TableName :=
  match plan.source with
  | some (.table fragment) => TableName.ofFragment tablePrefix fragment
  | _ => .error (.construction (.missingTable statement))

/-- A column of an INSERT or of a key: a single name. -/
def plainColumn (fragment : String) : Except Error Name := do
  match ← ofFragmentResult (parseColumn fragment) with
  | ⟨[name], [], none⟩ =>
    if name = wildcard then throw (.construction (.notPlainColumn fragment)) else return name
  | _ => throw (.construction (.notPlainColumn fragment))

/-- The expressions of a row in the order of the given columns. `index` is the row's position. -/
def Row.exprs (row : Row) (tablePrefix : String) (columns : List String) (index : Nat) :
    Except Error (List Expr) := do
  if row.size ≠ columns.length then
    throw (.construction (.rowSize index row.size columns.length))
  columns.mapM fun column =>
    match row.get? column with
    | none => throw (.construction (.rowMissing index column))
    | some operand => Expr.ofOperand tablePrefix .insert operand

/-- The expressions of rows in the order of the given columns. -/
def Row.tuples (tablePrefix : String) (columns : List String) (rows : List Row) :
    Except Error (List (List Expr)) :=
  rows.zipIdx.mapM fun (row, index) => row.exprs tablePrefix columns index

/-- An INSERT of rows. Without rows, or with a single row without columns, one row of defaults is
inserted. -/
def Insert.ofRows (tablePrefix : String) (plan : Plan) (rows : List Row)
    (conflict : Option Conflict) : Except Error Insert := do
  let table ← plan.target tablePrefix "INSERT"
  let table := table.withoutAlias
  match rows with
  | [] => return { table, conflict }
  | first :: others =>
    if first.isEmpty then
      if others.isEmpty then
        return { table, conflict }
      throw (.construction .rowsWithoutColumns)
    let tuples ← Row.tuples tablePrefix first.columns rows
    let columns ← first.columns.mapM plainColumn
    return { table, columns, source := .rows tuples, conflict }

/-- An INSERT of the rows of a query. -/
def Insert.ofQuery (tablePrefix : String) (plan : Plan) (columns : List String) (source : Plan) :
    Except Error Insert := do
  let table ← plan.target tablePrefix "INSERT"
  let columns ← columns.mapM plainColumn
  return { table := table.withoutAlias, columns, source := .nested (.plan source) }

/-- Whether the engine has to be told which columns may collide. -/
def UpsertStyle.needsKey : UpsertStyle → Bool
  | .onConflict | .merge => true
  | .unsupported | .onDuplicateKey => false

/-- Resolves collisions on `key` by overwriting `update`. With nothing to overwrite, the incoming
row is skipped. -/
def Conflict.ofColumns (style : UpsertStyle) (key update : List String) :
    Except Error Conflict := do
  if update.isEmpty then
    return .ignore
  if key.isEmpty && style.needsKey then
    throw (.construction .upsertWithoutKey)
  return .update (← key.mapM plainColumn) (← update.mapM plainColumn)

/-- An INSERT that overwrites rows that it collides with. -/
def Insert.upsert (dialect : Dialect) (tablePrefix : String) (plan : Plan) (rows : List Row)
    (key update : List String) : Except Error Insert := do
  if rows.isEmpty then
    throw (.construction .upsertWithoutRows)
  if dialect.upsertStyle = .unsupported then
    throw (.unsupported dialect.name .upsert)
  let conflict ← Conflict.ofColumns dialect.upsertStyle key update
  Insert.ofRows tablePrefix plan rows (some conflict)

end QueryCompiler
