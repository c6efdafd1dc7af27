import QueryCompiler.Statement.Insert

/-! # Updates and deletes

UPDATE and DELETE work on the rows of one table that a plan selects. Where an engine cannot join,
order or page in such a statement, the rows are selected by their physical identifier in a
sub-query.

* `Dialect.reach`: how a statement gets at its rows, or why it cannot.
* `Update.ofPlan`, `Delete.ofPlan`, `Statement.truncation`.
-/

namespace QueryCompiler
set_option autoImplicit false

/-! ## Reaching rows -/

/-- How a statement gets at its rows. -/
inductive Reach where
  /-- The table is the only one. -/
  | single
  /-- Other tables are joined in the statement. -/
  | joined
  /-- The rows are those whose identifier a sub-query selects. -/
  | rowId (column : Name)
  deriving DecidableEq

/-- Whether a plan has joins. -/
def Plan.hasJoins (plan : Plan) : Bool := !plan.joins.isEmpty

/-- Whether a plan has an order or a limit. -/
def Plan.ordersOrLimits (plan : Plan) : Bool := !plan.orders.isEmpty || plan.page.limit.isSome

/-- The reach of a statement without a row identifier. -/
def Plan.directReach (plan : Plan) : Reach := if plan.hasJoins then .joined else .single

/-- How a statement gets at the rows of a plan. With `always`, the row identifier is used wherever the
engine has one; `operation` is what to complain of when joins meet an order or a limit. -/
def Dialect.reach (dialect : Dialect) (plan : Plan) (operation : Operation) (always : Bool) :
    Except Error Reach :=
  let offset := plan.page.offset.isSome
  match dialect.joinStrategy with
  | .rowId column =>
    if always || plan.hasJoins || offset || (plan.ordersOrLimits && !dialect.ordersWrites) then
      .ok (.rowId column)
    else .ok .single
  | .native =>
    if offset then .error (.unsupported dialect.name .writeOffset)
    else if plan.hasJoins && plan.ordersOrLimits then .error (.unsupported dialect.name operation)
    else if plan.ordersOrLimits && !dialect.ordersWrites then
      .error (.unsupported dialect.name .orderedOrLimitedWrite)
    else .ok plan.directReach
  | .updateFrom =>
    if offset then .error (.unsupported dialect.name .writeOffset)
    else if !plan.orders.isEmpty then .error (.unsupported dialect.name .orderedWrite)
    else .ok plan.directReach

/-- The rows of a plan, selected by one column: its source, filters, order and page. -/
def Select.projection (tablePrefix : String) (plan : Plan) (column : Path) :
    Except Error Select := do
  let source ← TableExpr.ofPlan tablePrefix plan
  let filter ← Expr.ofFilters tablePrefix .where plan.filters
  let orderBy ← SortKey.ofTerms tablePrefix plan.orders
  return { items := [.column ⟨column, [], none⟩], source, filter, orderBy, page := plan.page }

/-- The filter that keeps the rows of a plan by their identifier. -/
def Expr.rowIdFilter (tablePrefix : String) (plan : Plan) (table : TableName) (column : Name) :
    Except Error Expr := do
  let rowId := [table.referenceName, column]
  let projection ← Select.projection tablePrefix plan rowId
  return .inNested (.path rowId) (.query (.select projection)) false

/-! ## Updates -/

/-- A column that can be assigned. -/
def assignedColumn (tablePrefix fragment : String) : Except Error Path := do
  let column ← ColumnRef.ofFragment tablePrefix fragment
  if column.label.isSome || !column.json.isEmpty || column.path.endsInWildcard then
    throw (.construction (.notAssignable fragment))
  return column.path

/-- An assignment of a row's entry. -/
def Assignment.ofEntry (tablePrefix : String) (entry : String × Operand) :
    Except Error Assignment := do
  let column ← assignedColumn tablePrefix entry.1
  let value ← Expr.ofOperand tablePrefix .update entry.2
  return ⟨column, value⟩

/-- What an UPDATE writes to and what it selects from, when it reaches its rows directly. -/
def Update.tables (strategy : JoinStrategy) (tablePrefix : String) (plan : Plan)
    (table : TableName) (joined : Bool) : Except Error (TableExpr × Option TableExpr) :=
  if strategy = .updateFrom ∧ (joined ∨ table.label.isSome) then do
    return (.table ⟨[table.referenceName], none⟩, ← TableExpr.ofPlan tablePrefix plan)
  else if joined then do
    return ((← TableExpr.ofPlan tablePrefix plan).getD (.table table), none)
  else .ok (.table table, none)

/-- An UPDATE of the rows of a plan. -/
def Update.ofPlan (dialect : Dialect) (tablePrefix : String) (plan : Plan) (row : Row) :
    Except Error Update := do
  if row.isEmpty then
    throw (.construction .emptyUpdate)
  let table ← plan.target tablePrefix "UPDATE"
  let assignments ← row.entries.mapM (Assignment.ofEntry tablePrefix)
  match ← dialect.reach plan .orderedUpdateWithJoins false with
  | .rowId column =>
    let filter ← Expr.rowIdFilter tablePrefix plan table column
    return { table := .table table, assignments, filter := some filter }
  | reach =>
    let hasJoins := decide (reach = .joined)
    let filter ← Expr.ofFilters tablePrefix .where plan.filters
    let orderBy ← SortKey.ofTerms tablePrefix plan.orders
    let (table, source) ← Update.tables dialect.joinStrategy tablePrefix plan table hasJoins
    return { table, assignments, source, filter, orderBy, limit := plan.page.limit, hasJoins }

/-! ## Deletes -/

/-- A DELETE of the rows of a plan. -/
def Delete.ofPlan (dialect : Dialect) (tablePrefix : String) (plan : Plan) :
    Except Error Delete := do
  let table ← plan.target tablePrefix "DELETE"
  match ← dialect.reach plan .orderedDeleteWithJoins dialect.deletesByRowId with
  | .rowId column =>
    let filter ← Expr.rowIdFilter tablePrefix plan table column
    return { source := .table table, filter := some filter }
  | reach =>
    let named := reach = .joined ∨ (table.label.isSome ∧ dialect.joinStrategy = .updateFrom)
    let source ← TableExpr.ofPlan tablePrefix plan
    let filter ← Expr.ofFilters tablePrefix .where plan.filters
    let orderBy ← SortKey.ofTerms tablePrefix plan.orders
    return {
      target := if named then some table.referenceName else none
      source := source.getD (.table table)
      filter, orderBy
      limit := plan.page.limit }

/-- The column of a sequence table that holds the names of tables. -/
def sequenceNameColumn : Name := "name"

/-- Removes the counter of a table. -/
def Delete.sequence (sequenceTable table : Name) : Delete where
  source := .table ⟨[sequenceTable], none⟩
  filter := some (.compare (.path [sequenceNameColumn]) .eq (.bound (.text table) .truncate))

/-- The statements that empty the table of a plan, in order. -/
def Statement.truncation (dialect : Dialect) (tablePrefix : String) (plan : Plan) :
    Except Error (List Statement) := do
  let table ← plan.target tablePrefix "TRUNCATE"
  let table := table.withoutAlias
  match dialect.truncateStyle with
  | .sequenceReset sequenceTable =>
    return [.delete (.sequence sequenceTable (table.table?.getD "")),
      .delete { source := .table table }]
  | .truncateTable | .restartIdentity => return [.truncate table]

end QueryCompiler
