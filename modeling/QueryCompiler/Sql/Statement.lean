import QueryCompiler.Sql.Query
import QueryCompiler.Statement.Change

/-! # SQL of statements

INSERT, UPDATE, DELETE and TRUNCATE, and statements in general: the texts of their parts, and what a
whole statement is written as.
-/

namespace QueryCompiler
set_option autoImplicit false

/-! ## Inserts -/

/-- Rows of expressions, each in parentheses. -/
def renderRows (r : Renderer) (context : Context) (rows : List (List Expr)) :
    Except Error Sql := do
  let tuples ← rows.mapM fun row => do
    return (Sql.join ", " (← Expr.renderList r context row)).parens
  return Sql.join ", " tuples

/-- The rows of an INSERT, with a blank before them. -/
def InsertSource.render (r : Renderer) (context : Context) : InsertSource → Except Error Sql
  | .defaults => .ok (" " ++ r.dialect.emptyInsertValues)
  | .rows tuples => do return " VALUES " ++ (← renderRows r context tuples)
  | .nested source => do return " " ++ (← source.render r context)

/-- The first words of an INSERT. -/
def Dialect.insertText (dialect : Dialect) (conflict : Option Conflict) : Except Error String :=
  match conflict, dialect.insertIgnoreStyle with
  | some .ignore, .keywords words => .ok words
  | some .ignore, .unsupported => .error (.unsupported dialect.name .insertOrIgnore)
  | _, _ => .ok "INSERT INTO"

/-- A column list in parentheses, if there are columns. -/
def Dialect.columnsText (dialect : Dialect) (columns : List Name) : String :=
  if columns.isEmpty then "" else " (" ++ dialect.quoteNames columns ++ ")"

/-- Assignments of the incoming values to the columns of an existing row. -/
def Dialect.overwriteText (dialect : Dialect) (incoming : String → String)
    (columns : List Name) : String :=
  Dialect.joinTexts ", "
    (columns.map fun column => dialect.quote column ++ " = " ++ incoming (dialect.quote column))

/-- The words behind the rows that say what happens on a collision. -/
def Dialect.conflictText (dialect : Dialect) : Option Conflict → Except Error String
  | none => .ok ""
  | some .ignore =>
    .ok (if dialect.insertIgnoreStyle = .onConflictDoNothing then " ON CONFLICT DO NOTHING" else "")
  | some (.update key update) =>
    match dialect.upsertStyle with
    | .onDuplicateKey =>
      .ok (" ON DUPLICATE KEY UPDATE " ++
        dialect.overwriteText (fun column => "VALUES(" ++ column ++ ")") update)
    | .onConflict =>
      .ok (" ON CONFLICT (" ++ dialect.quoteNames key ++ ") DO UPDATE SET " ++
        dialect.overwriteText (fun column => dialect.quote "excluded" ++ "." ++ column) update)
    | .merge | .unsupported => .error (.unsupported dialect.name .upsert)

/-- The column that is given back, if there is one. -/
def Dialect.returningText (dialect : Dialect) : Option Name → String
  | none => ""
  | some column => " RETURNING " ++ dialect.quote column

/-- The alias of the incoming rows of a MERGE. -/
def mergeSource : Name := "oxide_source"

/-- The condition under which an incoming row of a MERGE meets an existing one. -/
def Dialect.mergeKeyText (dialect : Dialect) (table : String) (key : List Name) : String :=
  Dialect.joinTexts " AND " (key.map fun column =>
    dialect.quote mergeSource ++ "." ++ dialect.quote column ++ " = " ++
      table ++ "." ++ dialect.quote column)

/-- What a MERGE does with the incoming rows. -/
def Dialect.mergeActionText (dialect : Dialect) (columns update : List Name) : String :=
  let incoming (column : String) := dialect.quote mergeSource ++ "." ++ column
  " WHEN MATCHED THEN UPDATE SET " ++ dialect.overwriteText incoming update ++
    " WHEN NOT MATCHED THEN INSERT (" ++ dialect.quoteNames columns ++ ") VALUES (" ++
    Dialect.joinTexts ", " (columns.map fun column => incoming (dialect.quote column)) ++ ");"

/-- An INSERT that overwrites, as a MERGE. -/
def Insert.renderMerge (r : Renderer) (context : Context) (insert : Insert)
    (key update : List Name) : Except Error Sql :=
  match insert.source with
  | .rows tuples => do
    let table := r.dialect.quoteTable insert.table
    let values ← renderRows r (context.within .insert) tuples
    return "MERGE " ++ table ++ " USING (VALUES " ++ values ++ ") AS " ++
      r.dialect.quote mergeSource ++ " (" ++ r.dialect.quoteNames insert.columns ++ ") ON " ++
      r.dialect.mergeKeyText table key ++ r.dialect.mergeActionText insert.columns update
  | _ => .error (.construction .mergeWithoutValues)

/-- An INSERT that is no MERGE. -/
def Insert.renderPlain (r : Renderer) (context : Context) (insert : Insert) :
    Except Error Sql := do
  let words ← r.dialect.insertText insert.conflict
  let source ← insert.source.render r (context.within .insert)
  let conflict ← r.dialect.conflictText insert.conflict
  return words ++ " " ++ r.dialect.quoteTable insert.table ++
    r.dialect.columnsText insert.columns ++ source ++ conflict ++
    r.dialect.returningText insert.returning

/-- The SQL of an INSERT. -/
def Insert.render (r : Renderer) (context : Context) (insert : Insert) : Except Error Sql :=
  match insert.conflict, r.dialect.upsertStyle with
  | some (.update key update), .merge => insert.renderMerge r context key update
  | _, _ => insert.renderPlain r context

/-! ## Updates and deletes -/

/-- The name of the table that an UPDATE writes to. -/
def TableExpr.target : TableExpr → Except Error Name
  | .table name => .ok name.referenceName
  | .joined first _ => first.target
  | .derived .. | .raw _ => .error (.construction .updateTarget)

/-- The left-hand side of an assignment: with joins a column needs its table, and without them it
must not have one. -/
def Dialect.assignedText (dialect : Dialect) (hasJoins : Bool) (target : Name) (column : Path) :
    String :=
  if hasJoins then dialect.quotePath (column.qualify target)
  else
    match column.getLast? with
    | some name => dialect.quote name
    | none => ""

/-- The SQL of assignments. -/
def renderAssignments (r : Renderer) (context : Context) (hasJoins : Bool) (target : Name)
    (assignments : List Assignment) : Except Error Sql := do
  let sqls ← assignments.mapM fun ⟨column, value⟩ => do
    return r.dialect.assignedText hasJoins target column ++ " = " ++ (← value.render r context)
  return Sql.join ", " sqls

/-- The order and the limit at the end of an UPDATE or DELETE. Where a limit stands at the beginning,
there is no end. -/
def renderWriteTail (r : Renderer) (context : Context) (orderBy : Option (List SortKey))
    (limit : Option Nat) : Except Error Sql :=
  if r.dialect.usesTop then .ok {}
  else do
    let order ← SortKey.renderClause r (context.within .order) orderBy
    return order ++ r.dialect.limitText ⟨limit, none⟩

/-- The SQL of an UPDATE. -/
def Update.render (r : Renderer) (context : Context) (update : Update) : Except Error Sql := do
  let target ← update.table.target
  let context := { context with updating := true }
  let table ← update.table.render r (context.within .update) none
  let assignments ←
    renderAssignments r (context.within .update) update.hasJoins target update.assignments
  let source ← TableExpr.renderClause r (context.within .from) none update.source
  let filter ← Expr.renderClause r (context.within .where) " WHERE " update.filter
  let tail ← renderWriteTail r context update.orderBy update.limit
  return "UPDATE " ++ r.dialect.writeTopText update.limit ++ table ++ " SET " ++ assignments ++
    source ++ filter ++ tail

/-- The table to delete from, where it has to be named. -/
def Dialect.deleteTargetText (dialect : Dialect) : Option Name → String
  | none => ""
  | some target => dialect.quote target ++ " "

/-- The SQL of a DELETE. -/
def Delete.render (r : Renderer) (context : Context) (delete : Delete) : Except Error Sql := do
  let source ← delete.source.render r (context.within .from) none
  let filter ← Expr.renderClause r (context.within .where) " WHERE " delete.filter
  let tail ← renderWriteTail r context delete.orderBy delete.limit
  return "DELETE " ++ r.dialect.writeTopText delete.limit ++
    r.dialect.deleteTargetText delete.target ++ "FROM " ++ source ++ filter ++ tail

/-- The text of a TRUNCATE, if the engine has one. -/
def Dialect.truncateText (dialect : Dialect) (table : TableName) : Except Error String :=
  match dialect.truncateStyle with
  | .truncateTable => .ok ("TRUNCATE TABLE " ++ dialect.quoteTable table)
  | .restartIdentity => .ok ("TRUNCATE " ++ dialect.quoteTable table ++ " RESTART IDENTITY CASCADE")
  | .sequenceReset _ => .error (.unexpectedNode (.emulatedTruncate dialect.name))

/-- The SQL of a statement. -/
def Statement.render (r : Renderer) : Statement → Except Error Sql
  | .query statement => statement.render r {}
  | .insert statement => statement.render r {}
  | .update statement => statement.render r {}
  | .delete statement => statement.render r {}
  | .truncate table => do return ← r.dialect.truncateText table

end QueryCompiler
