import QueryCompiler.Plan.Basic

/-! # Building plans

A plan is built from the empty plan `{}` by adding clauses to it. Filters can be added to a plan, for
its WHERE, and to a join, for its ON: both are `Filterable`.
-/

namespace QueryCompiler
set_option autoImplicit false

/-- What filters can be added to. -/
class Filterable (α : Type) where
  /-- Appends a filter. -/
  addFilter : α → Filter → α

namespace Filterable

variable {α : Type} [Filterable α]

/-! ## Filters -/

/-- `AND predicate` -/
def also (target : α) (predicate : Predicate) : α := addFilter target ⟨.and, predicate⟩

/-- `OR predicate` -/
def orElse (target : α) (predicate : Predicate) : α := addFilter target ⟨.or, predicate⟩

/-- `column <comparison> operand` -/
def whereCompare (target : α) (column : String) (comparison : Comparison) (operand : Operand) : α :=
  also target (.compare column comparison operand)

/-- `OR column <comparison> operand` -/
def orWhereCompare (target : α) (column : String) (comparison : Comparison) (operand : Operand) :
    α :=
  orElse target (.compare column comparison operand)

/-- `column = operand` -/
def whereEq (target : α) (column : String) (operand : Operand) : α :=
  whereCompare target column .eq operand

/-- `OR column = operand` -/
def orWhereEq (target : α) (column : String) (operand : Operand) : α :=
  orWhereCompare target column .eq operand

/-- `first <comparison> second`, both columns. -/
def whereColumn (target : α) (first : String) (comparison : Comparison) (second : String) : α :=
  whereCompare target first comparison (.column second)

/-- `OR first <comparison> second`, both columns. -/
def orWhereColumn (target : α) (first : String) (comparison : Comparison) (second : String) : α :=
  orWhereCompare target first comparison (.column second)

/-- `column IN (values)` -/
def whereIn (target : α) (column : String) (values : List Value) : α :=
  also target (.isIn column values false)

/-- `column NOT IN (values)` -/
def whereNotIn (target : α) (column : String) (values : List Value) : α :=
  also target (.isIn column values true)

/-- `OR column IN (values)` -/
def orWhereIn (target : α) (column : String) (values : List Value) : α :=
  orElse target (.isIn column values false)

/-- `column IN (sub-query)` -/
def whereInSubquery (target : α) (column : String) (plan : Plan) : α :=
  also target (.inSubquery column plan false)

/-- `column NOT IN (sub-query)` -/
def whereNotInSubquery (target : α) (column : String) (plan : Plan) : α :=
  also target (.inSubquery column plan true)

/-- `column IS NULL` -/
def whereNull (target : α) (column : String) : α := also target (.isNull column false)

/-- `column IS NOT NULL` -/
def whereNotNull (target : α) (column : String) : α := also target (.isNull column true)

/-- `OR column IS NULL` -/
def orWhereNull (target : α) (column : String) : α := orElse target (.isNull column false)

/-- `column BETWEEN low AND high` -/
def whereBetween (target : α) (column : String) (low high : Operand) : α :=
  also target (.between column low high false)

/-- `column NOT BETWEEN low AND high` -/
def whereNotBetween (target : α) (column : String) (low high : Operand) : α :=
  also target (.between column low high true)

/-- `EXISTS (sub-query)` -/
def whereExists (target : α) (plan : Plan) : α := also target (.existsIn plan false)

/-- `NOT EXISTS (sub-query)` -/
def whereNotExists (target : α) (plan : Plan) : α := also target (.existsIn plan true)

/-- The filters of another plan, in parentheses. -/
def whereGroup (target : α) (group : Plan) : α := also target (.group group.filters)

/-- `OR` the filters of another plan, in parentheses. -/
def orWhereGroup (target : α) (group : Plan) : α := orElse target (.group group.filters)

/-- SQL text as it is. -/
def whereRaw (target : α) (raw : Raw) : α := also target (.raw raw)

/-- `OR` SQL text as it is. -/
def orWhereRaw (target : α) (raw : Raw) : α := orElse target (.raw raw)

/-- Compares a part of the date and time in `column`. -/
def whereDate (target : α) (column : String) (part : DatePart) (comparison : Comparison)
    (value : Value) : α :=
  also target (.datePart column part comparison value)

/-- Compares the length of the JSON array at `column`. -/
def whereJsonLength (target : α) (column : String) (comparison : Comparison) (value : Value) : α :=
  also target (.jsonLength column comparison value)

/-- `column LIKE pattern` -/
def whereLike (target : α) (column : String) (pattern : Value) (caseSensitive : Bool) : α :=
  also target (.like column pattern caseSensitive false)

/-- `column NOT LIKE pattern` -/
def whereNotLike (target : α) (column : String) (pattern : Value) (caseSensitive : Bool) : α :=
  also target (.like column pattern caseSensitive true)

end Filterable

/-! ## Joins -/

instance : Filterable Join where
  addFilter join filter := { join with conditions := join.conditions ++ [filter] }

namespace Join

/-- A join to a table, without conditions so far. -/
def toTable (kind : JoinKind) (table : String) : Join := { kind, target := .table table }

/-- A join to a sub-query, without conditions so far. -/
def toSubquery (kind : JoinKind) (plan : Plan) (label : String) : Join :=
  { kind, target := .subquery plan label }

/-- `ON first <comparison> second`, both columns. -/
def on (join : Join) (first : String) (comparison : Comparison) (second : String) : Join :=
  Filterable.whereColumn join first comparison second

/-- `OR first <comparison> second`, both columns. -/
def orOn (join : Join) (first : String) (comparison : Comparison) (second : String) : Join :=
  Filterable.orWhereColumn join first comparison second

end Join

/-! ## Plans -/

instance : Filterable Plan where
  addFilter plan filter := { plan with filters := plan.filters ++ [filter] }

namespace Plan

/-- Selects from a table. -/
def selectFrom (plan : Plan) (table : String) : Plan := { plan with source := some (.table table) }

/-- The plan of all rows of a table. -/
def ofTable (table : String) : Plan := selectFrom {} table

/-- Selects from a sub-query. -/
def fromSubquery (plan : Plan) (subplan : Plan) (label : String) : Plan :=
  { plan with source := some (.subquery subplan label) }

/-- Selects from SQL text as it is. -/
def fromRaw (plan : Plan) (raw : Raw) : Plan := { plan with source := some (.raw raw) }

/-- Sets the select list to columns. -/
def select (plan : Plan) (columns : List String) : Plan :=
  { plan with selections := columns.map .column }

/-- Appends to the select list. -/
def addSelection (plan : Plan) (selection : Selection) : Plan :=
  { plan with selections := plan.selections ++ [selection] }

/-- Appends a column to the select list. -/
def addSelect (plan : Plan) (column : String) : Plan := plan.addSelection (.column column)

/-- Appends SQL text to the select list. -/
def selectRaw (plan : Plan) (raw : Raw) : Plan := plan.addSelection (.raw raw)

/-- Appends a sub-query to the select list. -/
def selectSubquery (plan : Plan) (subplan : Plan) (label : String) : Plan :=
  plan.addSelection (.subquery subplan label)

/-- Keeps one of equal rows. -/
def selectDistinct (plan : Plan) : Plan := { plan with distinct := true }

/-- Appends a join. -/
def addJoin (plan : Plan) (join : Join) : Plan := { plan with joins := plan.joins ++ [join] }

/-- `<kind> JOIN table ON first <comparison> second` -/
def joinTable (plan : Plan) (kind : JoinKind) (table first : String) (comparison : Comparison)
    (second : String) : Plan :=
  plan.addJoin ((Join.toTable kind table).on first comparison second)

/-- `CROSS JOIN table` -/
def crossJoin (plan : Plan) (table : String) : Plan := plan.addJoin (Join.toTable .cross table)

/-- `INNER JOIN (sub-query) AS label ON first <comparison> second` -/
def joinSubquery (plan : Plan) (subplan : Plan) (label first : String) (comparison : Comparison)
    (second : String) : Plan :=
  plan.addJoin ((Join.toSubquery .inner subplan label).on first comparison second)

/-- Groups by further columns. -/
def groupBy (plan : Plan) (columns : List String) : Plan :=
  { plan with groups := plan.groups ++ columns }

/-- Appends a filter to HAVING. -/
def addHaving (plan : Plan) (filter : Filter) : Plan :=
  { plan with havings := plan.havings ++ [filter] }

/-- `HAVING column <comparison> operand` -/
def having (plan : Plan) (column : String) (comparison : Comparison) (operand : Operand) : Plan :=
  plan.addHaving ⟨.and, .compare column comparison operand⟩

/-- `OR column <comparison> operand` in HAVING. -/
def orHaving (plan : Plan) (column : String) (comparison : Comparison) (operand : Operand) : Plan :=
  plan.addHaving ⟨.or, .compare column comparison operand⟩

/-- SQL text in HAVING. -/
def havingRaw (plan : Plan) (raw : Raw) : Plan := plan.addHaving ⟨.and, .raw raw⟩

/-- Appends a term to ORDER BY. -/
def addOrder (plan : Plan) (term : OrderTerm) : Plan := { plan with orders := plan.orders ++ [term] }

/-- Orders by a column. -/
def orderBy (plan : Plan) (column : String) (direction : Direction) : Plan :=
  plan.addOrder (.column column direction)

/-- Orders by SQL text. -/
def orderByRaw (plan : Plan) (raw : Raw) : Plan := plan.addOrder (.raw raw)

/-- Keeps at most `count` rows. -/
def limit (plan : Plan) (count : Nat) : Plan :=
  { plan with page := { plan.page with limit := some count } }

/-- Skips the first `count` rows. -/
def offset (plan : Plan) (count : Nat) : Plan :=
  { plan with page := { plan.page with offset := some count } }

/-- Unites with another plan. -/
def unite (plan : Plan) (branch : Plan) (all : Bool) : Plan :=
  { plan with branches := plan.branches ++ [⟨branch, all⟩] }

/-- Appends a term to the order of the whole union. -/
def addUnionOrder (plan : Plan) (term : OrderTerm) : Plan :=
  { plan with unionOrders := plan.unionOrders ++ [term] }

/-- Orders the whole union by a column. -/
def unionOrderBy (plan : Plan) (column : String) (direction : Direction) : Plan :=
  plan.addUnionOrder (.column column direction)

/-- Keeps at most `count` rows of the union. -/
def unionLimit (plan : Plan) (count : Nat) : Plan :=
  { plan with unionPage := { plan.unionPage with limit := some count } }

/-- Skips the first `count` rows of the union. -/
def unionOffset (plan : Plan) (count : Nat) : Plan :=
  { plan with unionPage := { plan.unionPage with offset := some count } }

/-- Puts an aggregate in the place of the select list. -/
def aggregateBy (plan : Plan) (function : AggregateFunction) (column : Option String) : Plan :=
  { plan with aggregate := some { function, column } }

/-- Counts rows. -/
def count (plan : Plan) : Plan := plan.aggregateBy .count none

/-- Counts the different values of a column. -/
def countDistinct (plan : Plan) (column : String) : Plan :=
  { plan with aggregate := some { function := .count, column := some column, distinct := true } }

/-- Locks the rows that are read. -/
def withLock (plan : Plan) (lock : Lock) : Plan := { plan with lock := some lock }

end Plan

end QueryCompiler
