import QueryCompiler.Error
import QueryCompiler.Fragment.Parser
import QueryCompiler.Statement.Basic

/-! # Conditions of a plan

Column fragments, operands and filter lists as expressions. Filters are joined from left to right:
those after an OR, up to the next one, form a run of ANDs, and the condition is the OR of the runs.
Groups without a predicate vanish.

* `ColumnRef.ofFragment`, `TableName.ofFragment`: fragments, with the table prefix put in.
* `Filter.terms`: the expressions of a filter list, each with its connective.
* `runs`, `Expr.ofTerms`: the condition that a list of such expressions means.
* `Expr.ofFilters`: the condition of a filter list.
-/

namespace QueryCompiler
set_option autoImplicit false

/-! ## Fragments -/

/-- The result of reading a fragment. -/
def ofFragmentResult {α : Type} : Except FragmentError α → Except Error α
  | .ok a => .ok a
  | .error e => .error (.fragment e)

/-- Reads a column fragment. -/
def ColumnRef.ofFragment (tablePrefix fragment : String) : Except Error ColumnRef := do
  let column ← ofFragmentResult (parseColumn fragment)
  return column.withPrefix tablePrefix

/-- Reads a table fragment. -/
def TableName.ofFragment (tablePrefix fragment : String) : Except Error TableName := do
  let table ← ofFragmentResult (parseTable fragment)
  return table.withPrefix tablePrefix

/-- A column inside an expression. Only a select list takes aliases and wildcards. -/
def Expr.ofColumn (tablePrefix fragment : String) : Except Error Expr := do
  let column ← ColumnRef.ofFragment tablePrefix fragment
  if column.label.isSome then
    throw (.construction (.aliasedColumn fragment))
  if column.path.endsInWildcard then
    throw (.construction (.misplacedWildcard fragment))
  return if column.json.isEmpty then .path column.path else .json column.path column.json

/-- An operand; values are bound for the given purpose. -/
def Expr.ofOperand (tablePrefix : String) (purpose : Purpose) : Operand → Except Error Expr
  | .value value => .ok (.bound value purpose)
  | .column column => Expr.ofColumn tablePrefix column
  | .raw sql => .ok (.raw sql)
  | .subquery plan => .ok (.nested (.plan plan))

/-! ## Runs -/

/-- The members of the run that a list continues, and the runs after it. -/
def continueRun {α : Type} : List (Connective × α) → List α × List (List α)
  | [] => ([], [])
  | (.and, a) :: rest => (a :: (continueRun rest).1, (continueRun rest).2)
  | (.or, a) :: rest => ([], (a :: (continueRun rest).1) :: (continueRun rest).2)

/-- A list cut in front of each OR. The first connective does not matter. -/
def runs {α : Type} : List (Connective × α) → List (List α)
  | [] => []
  | (_, a) :: rest => (a :: (continueRun rest).1) :: (continueRun rest).2

/-- Expressions under one connective; a single one stands for itself. -/
def Expr.joined (connective : Connective) : List Expr → Expr
  | [expr] => expr
  | exprs => .condition connective exprs

/-- The OR of the runs of a list, each the AND of its members; an empty list is no condition. -/
def Expr.ofTerms (terms : List (Connective × Expr)) : Option Expr :=
  match runs terms with
  | [] => none
  | alternatives => some (.joined .or (alternatives.map (.joined .and)))

/-! ## Filters -/

/-- A comparison; equality with NULL asks for NULL. -/
def Expr.ofComparison (tablePrefix : String) (purpose : Purpose) (left : Expr)
    (comparison : Comparison) (operand : Operand) : Except Error Expr :=
  match comparison, operand with
  | .eq, .value .null => .ok (.isNull left false)
  | .ne, .value .null => .ok (.isNull left true)
  | comparison, operand => do
    return .compare left comparison (← Expr.ofOperand tablePrefix purpose operand)

mutual

/-- The expression of a predicate. A group without predicates has none. -/
def Predicate.expr (tablePrefix : String) (purpose : Purpose) :
    Predicate → Except Error (Option Expr)
  | .compare column comparison operand => do
    let left ← Expr.ofColumn tablePrefix column
    return some (← Expr.ofComparison tablePrefix purpose left comparison operand)
  | .isIn column values negated => do
    let operand ← Expr.ofColumn tablePrefix column
    return some (.inList operand (values.map (.bound · purpose)) negated)
  | .inSubquery column plan negated => do
    return some (.inNested (← Expr.ofColumn tablePrefix column) (.plan plan) negated)
  | .isNull column negated => do
    return some (.isNull (← Expr.ofColumn tablePrefix column) negated)
  | .between column low high negated => do
    let operand ← Expr.ofColumn tablePrefix column
    let low ← Expr.ofOperand tablePrefix purpose low
    let high ← Expr.ofOperand tablePrefix purpose high
    return some (.between operand low high negated)
  | .existsIn plan negated => .ok (some (.existsIn (.plan plan) negated))
  | .group filters => do
    let terms ← Filter.terms tablePrefix purpose filters
    return (Expr.ofTerms terms).map .parenthesized
  | .raw sql => .ok (some (.raw sql))
  | .datePart column part comparison value => do
    let call := .call (.datePart part) [← Expr.ofColumn tablePrefix column]
    return some (.compare call comparison (.bound value purpose))
  | .jsonLength column comparison value => do
    let call := .call .jsonLength [← Expr.ofColumn tablePrefix column]
    return some (.compare call comparison (.bound value purpose))
  | .like column pattern caseSensitive negated => do
    let operand ← Expr.ofColumn tablePrefix column
    return some (.like operand (.bound pattern purpose) caseSensitive negated)

/-- The expressions of a list of filters, each with its connective. -/
def Filter.terms (tablePrefix : String) (purpose : Purpose) :
    List Filter → Except Error (List (Connective × Expr))
  | [] => .ok []
  | ⟨connective, predicate⟩ :: filters => do
    let expr ← Predicate.expr tablePrefix purpose predicate
    let terms ← Filter.terms tablePrefix purpose filters
    return match expr with
      | none => terms
      | some expr => (connective, expr) :: terms

end

/-- The condition of a list of filters, if they hold a predicate. -/
def Expr.ofFilters (tablePrefix : String) (purpose : Purpose) (filters : List Filter) :
    Except Error (Option Expr) := do
  return Expr.ofTerms (← Filter.terms tablePrefix purpose filters)

end QueryCompiler
