import QueryCompiler.Dialect.Basic
import QueryCompiler.Statement.Condition

/-! # Queries of a plan

* `Select.ofPlan`: the clauses of one plan, without its union branches.
* `Query.ofPlan`: a whole plan. The branches of a union are joined from the left, and the order and
  the page of the union belong to the outermost one.
* `Select.existence`: the question whether a plan has a row.
-/

namespace QueryCompiler
set_option autoImplicit false

/-- The alias of a query that another one selects from. -/
def tempTable : Name := "temp_table"

/-- The alias of the result of an aggregate. -/
def aggregateAlias : Name := "aggregate"

/-- The alias of the answer to a question of existence. -/
def existsAlias : Name := "exists"

/-! ## Clauses -/

/-- A column of a select list, which may be all columns of a table. -/
def SelectItem.ofColumn (column : ColumnRef) : SelectItem :=
  if column.path.endsInWildcard then
    .wildcard (if column.path.dropLast.isEmpty then none else some column.path.dropLast)
  else .column column

/-- An entry of a select list. -/
def SelectItem.ofSelection (tablePrefix : String) : Selection → Except Error SelectItem
  | .column fragment => do return .ofColumn (← ColumnRef.ofFragment tablePrefix fragment)
  | .raw sql => .ok (.expr (.raw sql) none)
  | .subquery plan label => .ok (.expr (.nested (.plan plan)) (some label))

/-- A select list; an empty one selects all columns. -/
def SelectItem.ofSelections (tablePrefix : String) :
    List Selection → Except Error (List SelectItem)
  | [] => .ok [.wildcard none]
  | selections => selections.mapM (SelectItem.ofSelection tablePrefix)

/-- An aggregate as the only entry of a select list. A distinct query makes an aggregate over a
column distinct. -/
def SelectItem.ofAggregate (tablePrefix : String) (distinctQuery : Bool) (aggregate : Aggregate) :
    Except Error (List SelectItem) := do
  let arguments ← match aggregate.column with
    | none => pure []
    | some fragment => do pure [← Expr.ofColumn tablePrefix fragment]
  let distinct := aggregate.distinct || (distinctQuery && !arguments.isEmpty)
  return [.expr (.aggregate aggregate.function distinct arguments) (some aggregateAlias)]

/-- The select list of a plan. An aggregate, where one is given, takes its place. -/
def SelectItem.ofPlanWith (tablePrefix : String) (plan : Plan) :
    Option Aggregate → Except Error (List SelectItem)
  | some aggregate => SelectItem.ofAggregate tablePrefix plan.distinct aggregate
  | none => SelectItem.ofSelections tablePrefix plan.selections

/-- What a plan selects from. -/
def TableExpr.ofSource (tablePrefix : String) : Source → Except Error TableExpr
  | .table fragment => do return .table (← TableName.ofFragment tablePrefix fragment)
  | .subquery plan label => .ok (.derived (.plan plan) (tablePrefix ++ label))
  | .raw sql => .ok (.raw sql)

/-- What a join attaches. -/
def TableExpr.ofTarget (tablePrefix : String) : JoinTarget → Except Error TableExpr
  | .table fragment => do return .table (← TableName.ofFragment tablePrefix fragment)
  | .subquery plan label => .ok (.derived (.plan plan) (tablePrefix ++ label))

/-- A join and its conditions. -/
def JoinExpr.ofJoin (tablePrefix : String) (join : Join) : Except Error JoinExpr := do
  let target ← TableExpr.ofTarget tablePrefix join.target
  let on ← Expr.ofFilters tablePrefix .join join.conditions
  return ⟨join.kind, target, on⟩

/-- A table with the joins that hang on it. -/
def TableExpr.withJoins (first : TableExpr) : List JoinExpr → TableExpr
  | [] => first
  | joins => .joined first joins

/-- The source of a plan with its joins. There are no joins without a source. -/
def TableExpr.ofPlan (tablePrefix : String) (plan : Plan) : Except Error (Option TableExpr) :=
  match plan.source with
  | none =>
    if plan.joins.isEmpty then .ok none else .error (.construction .joinsWithoutSource)
  | some source => do
    let first ← TableExpr.ofSource tablePrefix source
    let joins ← plan.joins.mapM (JoinExpr.ofJoin tablePrefix)
    return some (first.withJoins joins)

/-- A term of an ORDER BY. -/
def SortKey.ofTerm (tablePrefix : String) : OrderTerm → Except Error SortKey
  | .column column direction => do
    return ⟨← Expr.ofColumn tablePrefix column, some direction⟩
  | .raw sql => .ok ⟨.raw sql, none⟩

/-- An ORDER BY, if there are terms. -/
def SortKey.ofTerms (tablePrefix : String) :
    List OrderTerm → Except Error (Option (List SortKey))
  | [] => .ok none
  | terms => do return some (← terms.mapM (SortKey.ofTerm tablePrefix))

/-- A GROUP BY, if there are columns. -/
def Expr.ofGroups (tablePrefix : String) : List String → Except Error (Option (List Expr))
  | [] => .ok none
  | columns => do return some (← columns.mapM (Expr.ofColumn tablePrefix))

/-! ## Queries -/

/-- The clauses of a plan, with the aggregate that is given, if any. -/
def Select.ofPlanWith (tablePrefix : String) (plan : Plan) (aggregate : Option Aggregate) :
    Except Error Select := do
  let items ← SelectItem.ofPlanWith tablePrefix plan aggregate
  let source ← TableExpr.ofPlan tablePrefix plan
  let filter ← Expr.ofFilters tablePrefix .where plan.filters
  let groupBy ← Expr.ofGroups tablePrefix plan.groups
  let having ← Expr.ofFilters tablePrefix .having plan.havings
  let orderBy ← SortKey.ofTerms tablePrefix plan.orders
  return {
    distinct := plan.distinct && aggregate.isNone
    items, source, filter, groupBy, having, orderBy
    page := plan.page
    lock := plan.lock }

/-- The clauses of a plan, without its aggregate and its branches. -/
def Select.ofPlan (tablePrefix : String) (plan : Plan) : Except Error Select :=
  Select.ofPlanWith tablePrefix plan none

/-- A query that selects from another query. -/
def Select.over (query : Query) (items : List SelectItem) : Select where
  items := items
  source := some (.derived (.query query) tempTable)

/-- Puts an order and a page on a union. -/
def Query.withTail (orderBy : Option (List SortKey)) (page : Page) : Query → Query
  | query@(.select _) => query
  | .union left right all _ _ => .union left right all orderBy page

mutual

/-- The query of a plan. An aggregate over a union selects from the union. -/
def Query.ofPlan (tablePrefix : String) : Plan → Except Error Query
  | plan@{ branches, .. } =>
    match branches with
    | [] => do return .select (← Select.ofPlanWith tablePrefix plan plan.aggregate)
    | branch :: branches => do
      let base ← Select.ofPlan tablePrefix plan
      let united ← Query.unite tablePrefix (.select base) (branch :: branches)
      let orderBy ← SortKey.ofTerms tablePrefix plan.unionOrders
      let query := united.withTail orderBy plan.unionPage
      match plan.aggregate with
      | none => return query
      | some aggregate =>
        return .select (.over query (← SelectItem.ofAggregate tablePrefix false aggregate))

/-- A query united with branches, one after the other. -/
def Query.unite (tablePrefix : String) (left : Query) : List Branch → Except Error Query
  | [] => .ok left
  | ⟨plan, all⟩ :: branches => do
    let right ← Query.ofPlan tablePrefix plan
    Query.unite tablePrefix (.union left right all none {}) branches

end

/-! ## Existence -/

/-- The question whether a query has a row, as an expression. -/
def Select.existsIn (query : Query) : Select where
  items := [.expr (.existsIn (.query query) false) (some existsAlias)]

/-- The number one as an answer. -/
def SelectItem.one : SelectItem := .expr (.raw ⟨"1", []⟩) (some existsAlias)

/-- The question whether a plan has a row. -/
def Select.existence (style : ExistsStyle) (tablePrefix : String) (plan : Plan) :
    Except Error Select :=
  match style with
  | .selectExists => do return .existsIn (← Query.ofPlan tablePrefix plan)
  | .topOne =>
    if plan.branches.isEmpty then do
      let select ← Select.ofPlan tablePrefix plan
      return { select with
        distinct := false
        items := [.one]
        orderBy := none
        page := ⟨some 1, none⟩ }
    else do
      let query ← Query.ofPlan tablePrefix plan
      return { Select.over query [.one] with page := ⟨some 1, none⟩ }

end QueryCompiler
