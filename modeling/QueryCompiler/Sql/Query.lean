import QueryCompiler.Dialect.Clause
import QueryCompiler.Sql.Basic
import QueryCompiler.Sql.Context
import QueryCompiler.Statement.Query

/-! # SQL of expressions and queries

What a tree is written as, with text and bindings in one. The plans inside a tree are left to a
function that compiles them, so that writing a tree needs no more than the tree itself. The compiler
visits a tree instead (`Expr.visit`), and what it writes on the way is the SQL that is given here.

* `Renderer`: a dialect and a way to compile nested plans.
* `Expr.render`, `Nested.render`, `TableExpr.render`, `Select.render`, `Query.render`.
-/

namespace QueryCompiler
set_option autoImplicit false

/-- What writing a tree depends on. -/
structure Renderer where
  dialect : Dialect
  /-- Compiles a nested plan. -/
  nested : Plan → Except Error Sql

/-! ## Small parts -/

/-- The word NOT, where it is needed. -/
def notText (negated : Bool) : String := if negated then "NOT " else ""

/-- The word DISTINCT, where it is needed. -/
def distinctText (distinct : Bool) : String := if distinct then "DISTINCT " else ""

/-- The word for a union. -/
def unionText (all : Bool) : String := if all then " UNION ALL " else " UNION "

/-- A condition that never holds; negated, one that always does. -/
def emptyInText (negated : Bool) : String := if negated then "1 = 1" else "0 = 1"

/-- What becomes of a value that is compared with the expression. -/
def Expr.compared (dialect : Dialect) : Expr → String → String
  | .call (.datePart part) _ => dialect.hooks.dateValue part
  | _ => id

/-- Whether an expression is an OR of terms. -/
def Expr.isOr : Expr → Bool
  | .condition .or _ => true
  | _ => false

/-- Whether an expression needs parentheses in a select list. -/
def Expr.isBarePredicate : Expr → Bool
  | .compare .. | .between .. | .inList .. | .inNested .. | .isNull .. | .like ..
  | .condition .. => true
  | _ => false

/-- Whether a query is a union. -/
def Query.isUnion : Query → Bool
  | .union .. => true
  | .select _ => false

/-- A stretch in parentheses, where they are needed. -/
def Sql.parensIf (needed : Bool) (sql : Sql) : Sql := if needed then sql.parens else sql

/-- A branch of a union in parentheses, or as a table of its own. -/
def Dialect.wrapBranch (dialect : Dialect) (sql : Sql) : Sql :=
  if dialect.wrapsBranches then
    "SELECT * FROM " ++ sql.parens ++ " AS " ++ dialect.quote tempTable
  else sql.parens

/-- The length of a JSON array, of which only columns and places in columns have one. -/
def Dialect.jsonLengthText (dialect : Dialect) : List Expr → Except Error String
  | [.path path] => .ok (dialect.hooks.jsonLength [] (dialect.quotePath path))
  | [.json column steps] => .ok (dialect.hooks.jsonLength steps (dialect.quotePath column))
  | _ => .error (.unexpectedNode .jsonLengthArgument)

/-- The wording of LIKE, if the dialect has it. -/
def Dialect.likeText (dialect : Dialect) (caseSensitive : Bool) : Except Error String :=
  match dialect.likeOperator caseSensitive with
  | some word => .ok word
  | none => .error (.unsupported dialect.name .caseSensitiveLike)

/-! ## Trees -/

mutual

/-- The SQL of an expression. -/
def Expr.render (r : Renderer) (context : Context) : Expr → Except Error Sql
  | .path path => .ok (r.dialect.quotePath path)
  | .json column steps => .ok (r.dialect.hooks.jsonSelector steps (r.dialect.quotePath column))
  | .bound value purpose =>
    .ok (.bound r.dialect.placeholder value (context.purpose purpose))
  | .raw raw => .ok (.ofRaw raw context.clausePurpose)
  | .nested nested => do return (← Nested.render r context nested).parens
  | .call (.datePart part) [argument] => do
    return (← Expr.render r context argument).mapText (r.dialect.hooks.dateFunction part)
  | .call (.datePart part) arguments =>
    .error (.unexpectedNode (.argumentCount part arguments.length))
  | .call .jsonLength arguments => do return ← r.dialect.jsonLengthText arguments
  | .aggregate function distinct arguments => do
    let sqls ← Expr.renderList r context arguments
    let inner := if sqls.isEmpty then .ofText wildcard else Sql.join ", " sqls
    return function.sql ++ (distinctText distinct ++ inner).parens
  | .compare left comparison right => do
    let first ← Expr.render r context left
    let second ← Expr.render r context right
    return first ++ " " ++ comparison.sql ++ " " ++ second.mapText (left.compared r.dialect)
  | .between operand low high negated => do
    let operand ← Expr.render r context operand
    let low ← Expr.render r context low
    let high ← Expr.render r context high
    return operand ++ " " ++ notText negated ++ "BETWEEN " ++ low ++ " AND " ++ high
  | .inList operand values negated =>
    if values.isEmpty then .ok (emptyInText negated)
    else do
      let operand ← Expr.render r context operand
      let sqls ← Expr.renderList r context values
      return operand ++ " " ++ notText negated ++ "IN " ++ (Sql.join ", " sqls).parens
  | .inNested operand nested negated => do
    let operand ← Expr.render r context operand
    let nested ← Nested.render r context nested
    return operand ++ " " ++ notText negated ++ "IN " ++ nested.parens
  | .isNull operand negated => do
    return (← Expr.render r context operand) ++ " IS " ++ notText negated ++ "NULL"
  | .existsIn nested negated => do
    return notText negated ++ "EXISTS " ++ (← Nested.render r context nested).parens
  | .like operand pattern caseSensitive negated => do
    let word ← r.dialect.likeText caseSensitive
    let operand ← Expr.render r context operand
    let pattern ← Expr.render r context pattern
    return operand.mapText r.dialect.hooks.likeOperand ++ " " ++ notText negated ++ word ++ " " ++
      pattern
  | .condition connective terms =>
    if terms.isEmpty then .error (.unexpectedNode .emptyCondition)
    else do
      let sqls ← Expr.renderTerms r context connective terms
      return Sql.join (" " ++ connective.sql ++ " ") sqls
  | .parenthesized inner => do return (← Expr.render r context inner).parens

/-- The SQL of each expression of a list. -/
def Expr.renderList (r : Renderer) (context : Context) : List Expr → Except Error (List Sql)
  | [] => .ok []
  | expr :: exprs => do
    let sql ← Expr.render r context expr
    return sql :: (← Expr.renderList r context exprs)

/-- The SQL of each term under a connective. An OR inside an AND is put in parentheses. -/
def Expr.renderTerms (r : Renderer) (context : Context) (connective : Connective) :
    List Expr → Except Error (List Sql)
  | [] => .ok []
  | term :: terms => do
    let sql ← Expr.render r context term
    let sqls ← Expr.renderTerms r context connective terms
    return sql.parensIf (connective = .and && term.isOr) :: sqls

/-- A clause with one condition, if it is there. -/
def Expr.renderClause (r : Renderer) (context : Context) (keyword : String) :
    Option Expr → Except Error Sql
  | none => .ok {}
  | some expr => do return keyword ++ (← Expr.render r context expr)

/-- A clause with a list of expressions, if it is there. -/
def Expr.renderListClause (r : Renderer) (context : Context) (keyword : String) :
    Option (List Expr) → Except Error Sql
  | none => .ok {}
  | some exprs => do return keyword ++ Sql.join ", " (← Expr.renderList r context exprs)

/-- The SQL of a nested source, without parentheses. -/
def Nested.render (r : Renderer) (context : Context) : Nested → Except Error Sql
  | .plan plan => do return (← r.nested plan).retag context.clausePurpose
  | .raw raw => .ok (.ofRaw raw context.clausePurpose)
  | .query query => Query.render r context query

/-- The SQL of an entry of a select list. -/
def SelectItem.render (r : Renderer) (context : Context) : SelectItem → Except Error Sql
  | .wildcard none => .ok wildcard
  | .wildcard (some qualifier) => .ok (r.dialect.quotePath qualifier ++ "." ++ wildcard)
  | .column column => .ok (r.dialect.quoteColumn column)
  | .expr expr label => do
    let sql ← Expr.render r context expr
    return sql.parensIf expr.isBarePredicate ++ r.dialect.aliasText label

/-- The SQL of each entry of a select list. -/
def SelectItem.renderList (r : Renderer) (context : Context) :
    List SelectItem → Except Error (List Sql)
  | [] => .ok []
  | item :: items => do
    let sql ← SelectItem.render r context item
    return sql :: (← SelectItem.renderList r context items)

/-- The SQL of a table expression. A lock hint follows the first table, which has to be a table by
name. -/
def TableExpr.render (r : Renderer) (context : Context) (hint : Option String) :
    TableExpr → Except Error Sql
  | .table table => .ok (r.dialect.quoteTable table ++ Dialect.lockSuffix hint)
  | .derived nested label =>
    if hint.isSome then .error (.unexpectedNode .hintedSource)
    else do
      return (← Nested.render r context nested).parens ++ " AS " ++ r.dialect.quote label
  | .joined first joins => do
    let sql ← TableExpr.render r context hint first
    return sql ++ (← JoinExpr.renderList r context.joining joins)
  | .raw raw =>
    if hint.isSome then .error (.unexpectedNode .hintedSource)
    else .ok (.ofRaw raw context.clausePurpose)

/-- A FROM clause, if it is there. -/
def TableExpr.renderClause (r : Renderer) (context : Context) (hint : Option String) :
    Option TableExpr → Except Error Sql
  | none => .ok {}
  | some table => do return " FROM " ++ (← TableExpr.render r context hint table)

/-- The SQL of a join. -/
def JoinExpr.render (r : Renderer) (context : Context) : JoinExpr → Except Error Sql
  | ⟨kind, target, on⟩ => do
    let target ← TableExpr.render r context none target
    let on ← Expr.renderClause r context " ON " on
    return kind.sql ++ " " ++ target ++ on

/-- The SQL of joins, with a blank before each. -/
def JoinExpr.renderList (r : Renderer) (context : Context) : List JoinExpr → Except Error Sql
  | [] => .ok {}
  | join :: joins => do
    let sql ← JoinExpr.render r context join
    return " " ++ sql ++ (← JoinExpr.renderList r context joins)

/-- The SQL of an entry of an ORDER BY. -/
def SortKey.render (r : Renderer) (context : Context) : SortKey → Except Error Sql
  | ⟨expr, direction⟩ => do
    let sql ← Expr.render r context expr
    return match direction with
      | none => sql
      | some direction => sql ++ " " ++ direction.sql

/-- The SQL of each entry of an ORDER BY. -/
def SortKey.renderList (r : Renderer) (context : Context) :
    List SortKey → Except Error (List Sql)
  | [] => .ok []
  | key :: keys => do
    let sql ← SortKey.render r context key
    return sql :: (← SortKey.renderList r context keys)

/-- An ORDER BY clause, if it is there. -/
def SortKey.renderClause (r : Renderer) (context : Context) :
    Option (List SortKey) → Except Error Sql
  | none => .ok {}
  | some keys => do return " ORDER BY " ++ Sql.join ", " (← SortKey.renderList r context keys)

/-- The SQL of a SELECT. -/
def Select.render (r : Renderer) (context : Context) : Select → Except Error Sql
  | { distinct, items, source, filter, groupBy, having, orderBy, page, lock } => do
    let items ← SelectItem.renderList r (context.within .select) items
    let hint ← r.dialect.lockAt .tableHint lock
    let source ← TableExpr.renderClause r (context.within .from) hint source
    let filter ← Expr.renderClause r (context.within .where) " WHERE " filter
    let groups ← Expr.renderListClause r (context.within .groupBy) " GROUP BY " groupBy
    let having ← Expr.renderClause r (context.within .having) " HAVING " having
    let order ← SortKey.renderClause r (context.within .order) orderBy
    let suffix ← r.dialect.lockAt .suffix lock
    return "SELECT " ++ distinctText distinct ++ r.dialect.topText page.limit ++
      Sql.join ", " items ++ source ++ filter ++ groups ++ having ++ order ++
      r.dialect.pageText orderBy.isSome page ++ Dialect.lockSuffix suffix

/-- The SQL of a query. The left side of a union is written bare if it is a union itself. -/
def Query.render (r : Renderer) (context : Context) : Query → Except Error Sql
  | .select select => Select.render r context select
  | .union left right all orderBy page => do
    let first ← Query.render r context left
    let second ← Query.render r (context.overriding .union) right
    let order ← SortKey.renderClause r (context.within .unionOrder) orderBy
    return (if left.isUnion then first else r.dialect.wrapBranch first) ++ unionText all ++
      r.dialect.wrapBranch second ++ order ++ r.dialect.unionPageText orderBy.isSome page

end

attribute [simp] Expr.render Expr.renderList Expr.renderTerms Expr.renderClause
  Expr.renderListClause Nested.render SelectItem.render SelectItem.renderList TableExpr.render
  TableExpr.renderClause JoinExpr.render JoinExpr.renderList SortKey.render SortKey.renderList
  SortKey.renderClause Select.render Query.render

end QueryCompiler
