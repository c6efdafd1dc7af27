import QueryCompiler.Clause

/-! # Query plans

A plan says what a query asks for, clause by clause, before any dialect is chosen. Columns and tables
are fragments, still to be read. Plans nest: a sub-query may stand in the select list, in FROM, in a
join, as an operand, in a filter, and as a branch of a union.

* `Plan.depth`: how deeply plans are nested. The plans inside a plan have a smaller depth.
-/

namespace QueryCompiler
set_option autoImplicit false

/-- One term of an ORDER BY. -/
inductive OrderTerm where
  | column (column : String) (direction : Direction)
  | raw (raw : Raw)
  deriving DecidableEq

/-- An aggregate that takes the place of the select list; without a column it counts rows. -/
structure Aggregate where
  function : AggregateFunction
  column : Option String := none
  distinct : Bool := false
  deriving DecidableEq

mutual

/-- The right-hand side of a comparison, or a value of a row. -/
inductive Operand where
  | value (value : Value)
  | column (column : String)
  | raw (raw : Raw)
  | subquery (plan : Plan)

/-- A single condition on rows. -/
inductive Predicate where
  | compare (column : String) (comparison : Comparison) (operand : Operand)
  | isIn (column : String) (values : List Value) (negated : Bool)
  | inSubquery (column : String) (plan : Plan) (negated : Bool)
  | isNull (column : String) (negated : Bool)
  | between (column : String) (low high : Operand) (negated : Bool)
  | existsIn (plan : Plan) (negated : Bool)
  /-- Filters in parentheses. -/
  | group (filters : List Filter)
  | raw (raw : Raw)
  /-- Compares a part of a date and time. -/
  | datePart (column : String) (part : DatePart) (comparison : Comparison) (value : Value)
  /-- Compares the length of a JSON array. -/
  | jsonLength (column : String) (comparison : Comparison) (value : Value)
  | like (column : String) (pattern : Value) (caseSensitive negated : Bool)

/-- A predicate with the connective that joins it to the filters before it. -/
structure Filter where
  connective : Connective
  predicate : Predicate

/-- One entry of a select list. -/
inductive Selection where
  | column (column : String)
  | raw (raw : Raw)
  | subquery (plan : Plan) (label : String)

/-- What a query selects from. -/
inductive Source where
  | table (table : String)
  | subquery (plan : Plan) (label : String)
  | raw (raw : Raw)

/-- What a join attaches. -/
inductive JoinTarget where
  | table (table : String)
  | subquery (plan : Plan) (label : String)

/-- A join and its conditions. -/
structure Join where
  kind : JoinKind
  target : JoinTarget
  conditions : List Filter := []

/-- A query that is united with the ones before it; with `all`, equal rows are kept. -/
structure Branch where
  plan : Plan
  all : Bool

/-- A query plan. -/
structure Plan where
  distinct : Bool := false
  selections : List Selection := []
  source : Option Source := none
  joins : List Join := []
  filters : List Filter := []
  groups : List String := []
  havings : List Filter := []
  orders : List OrderTerm := []
  page : Page := {}
  branches : List Branch := []
  /-- The order of the whole union. -/
  unionOrders : List OrderTerm := []
  /-- The page of the whole union. -/
  unionPage : Page := {}
  aggregate : Option Aggregate := none
  lock : Option Lock := none

end

/-! ## Nesting -/

mutual

/-- The nesting of the plan in an operand. -/
def Operand.depth : Operand → Nat
  | .value _ => 0
  | .column _ => 0
  | .raw _ => 0
  | .subquery plan => plan.depth

/-- The deepest nesting of the plans in a predicate. -/
def Predicate.depth : Predicate → Nat
  | .compare _ _ operand => operand.depth
  | .isIn .. => 0
  | .inSubquery _ plan _ => plan.depth
  | .isNull .. => 0
  | .between _ low high _ => max low.depth high.depth
  | .existsIn plan _ => plan.depth
  | .group filters => Filter.listDepth filters
  | .raw _ => 0
  | .datePart .. => 0
  | .jsonLength .. => 0
  | .like .. => 0

/-- The deepest nesting of the plans in a filter. -/
def Filter.depth : Filter → Nat
  | ⟨_, predicate⟩ => predicate.depth

/-- The deepest nesting of the plans in a list of filters. -/
def Filter.listDepth : List Filter → Nat
  | [] => 0
  | filter :: filters => max filter.depth (Filter.listDepth filters)

/-- The nesting of the plan in a selection. -/
def Selection.depth : Selection → Nat
  | .column _ => 0
  | .raw _ => 0
  | .subquery plan _ => plan.depth

/-- The deepest nesting of the plans in a select list. -/
def Selection.listDepth : List Selection → Nat
  | [] => 0
  | selection :: selections => max selection.depth (Selection.listDepth selections)

/-- The nesting of the plan in a source. -/
def Source.depth : Source → Nat
  | .table _ => 0
  | .subquery plan _ => plan.depth
  | .raw _ => 0

/-- The nesting of the plan in a source, if there is one. -/
def Source.optionDepth : Option Source → Nat
  | none => 0
  | some source => source.depth

/-- The nesting of the plan that a join attaches. -/
def JoinTarget.depth : JoinTarget → Nat
  | .table _ => 0
  | .subquery plan _ => plan.depth

/-- The deepest nesting of the plans in a join. -/
def Join.depth : Join → Nat
  | ⟨_, target, conditions⟩ => max target.depth (Filter.listDepth conditions)

/-- The deepest nesting of the plans in a list of joins. -/
def Join.listDepth : List Join → Nat
  | [] => 0
  | join :: joins => max join.depth (Join.listDepth joins)

/-- The nesting of a branch. -/
def Branch.depth : Branch → Nat
  | ⟨plan, _⟩ => plan.depth

/-- The deepest nesting in a list of branches. -/
def Branch.listDepth : List Branch → Nat
  | [] => 0
  | branch :: branches => max branch.depth (Branch.listDepth branches)

/-- How deeply plans are nested in a plan, the plan itself included. -/
def Plan.depth : Plan → Nat
  | { selections, source, joins, filters, havings, branches, .. } =>
    1 + max (Selection.listDepth selections) (max (Source.optionDepth source)
      (max (Join.listDepth joins) (max (Filter.listDepth filters)
        (max (Filter.listDepth havings) (Branch.listDepth branches)))))

end

end QueryCompiler
