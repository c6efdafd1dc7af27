import QueryCompiler.Sql.Statement

/-! # Leaves of a statement tree

The leaves of a tree are its parts that bring values or text of the caller into the statement: bound
values, raw SQL, nested plans and locks. They are listed in the order in which they are written, each
with the purpose that its place gives to its bindings.

* `Expr.leaves`, `Nested.leaves`, `TableExpr.leaves`, `Select.leaves`, `Query.leaves`.
* `Statement.leaves`: the leaves of a whole statement.
-/

namespace QueryCompiler
set_option autoImplicit false

/-- A part of a tree that brings values or text of the caller into the statement. -/
inductive Leaf where
  | bound (value : Value) (purpose : Purpose)
  | raw (sql : Raw) (purpose : Purpose)
  | plan (plan : Plan) (purpose : Purpose)
  | lock (lock : Lock)

/-- The leaf of a lock, if there is one. -/
def Lock.leaves : Option Lock → List Leaf
  | none => []
  | some lock => [.lock lock]

/-! ## Queries -/

mutual

/-- The leaves of an expression. An IN over nothing is written without its operand. -/
def Expr.leaves (context : Context) : Expr → List Leaf
  | .path _ => []
  | .json _ _ => []
  | .bound value purpose => [.bound value (context.purpose purpose)]
  | .raw raw => [.raw raw context.clausePurpose]
  | .nested nested => Nested.leaves context nested
  | .call (.datePart _) arguments => Expr.listLeaves context arguments
  | .call .jsonLength _ => []
  | .aggregate _ _ arguments => Expr.listLeaves context arguments
  | .compare left _ right => Expr.leaves context left ++ Expr.leaves context right
  | .between operand low high _ =>
    Expr.leaves context operand ++ Expr.leaves context low ++ Expr.leaves context high
  | .inList operand values _ =>
    if values.isEmpty then [] else Expr.leaves context operand ++ Expr.listLeaves context values
  | .inNested operand nested _ => Expr.leaves context operand ++ Nested.leaves context nested
  | .isNull operand _ => Expr.leaves context operand
  | .existsIn nested _ => Nested.leaves context nested
  | .like operand pattern _ _ => Expr.leaves context operand ++ Expr.leaves context pattern
  | .condition _ terms => Expr.listLeaves context terms
  | .parenthesized inner => Expr.leaves context inner

/-- The leaves of a list of expressions. -/
def Expr.listLeaves (context : Context) : List Expr → List Leaf
  | [] => []
  | expr :: exprs => Expr.leaves context expr ++ Expr.listLeaves context exprs

/-- The leaves of a clause with one condition. -/
def Expr.clauseLeaves (context : Context) : Option Expr → List Leaf
  | none => []
  | some expr => Expr.leaves context expr

/-- The leaves of a clause with a list of expressions. -/
def Expr.listClauseLeaves (context : Context) : Option (List Expr) → List Leaf
  | none => []
  | some exprs => Expr.listLeaves context exprs

/-- The leaves of a nested source. -/
def Nested.leaves (context : Context) : Nested → List Leaf
  | .plan plan => [.plan plan context.clausePurpose]
  | .raw raw => [.raw raw context.clausePurpose]
  | .query query => Query.leaves context query

/-- The leaves of an entry of a select list. -/
def SelectItem.leaves (context : Context) : SelectItem → List Leaf
  | .wildcard _ => []
  | .column _ => []
  | .expr expr _ => Expr.leaves context expr

/-- The leaves of a select list. -/
def SelectItem.listLeaves (context : Context) : List SelectItem → List Leaf
  | [] => []
  | item :: items => SelectItem.leaves context item ++ SelectItem.listLeaves context items

/-- The leaves of a table expression. The leaves of a lock hint come behind the first table. -/
def TableExpr.leaves (context : Context) (hint : List Leaf) : TableExpr → List Leaf
  | .table _ => hint
  | .derived nested _ => Nested.leaves context nested
  | .joined first joins =>
    TableExpr.leaves context hint first ++ JoinExpr.listLeaves context.joining joins
  | .raw raw => [.raw raw context.clausePurpose]

/-- The leaves of a FROM clause. -/
def TableExpr.clauseLeaves (context : Context) (hint : List Leaf) : Option TableExpr → List Leaf
  | none => []
  | some table => TableExpr.leaves context hint table

/-- The leaves of a join. -/
def JoinExpr.leaves (context : Context) : JoinExpr → List Leaf
  | ⟨_, target, on⟩ => TableExpr.leaves context [] target ++ Expr.clauseLeaves context on

/-- The leaves of joins. -/
def JoinExpr.listLeaves (context : Context) : List JoinExpr → List Leaf
  | [] => []
  | join :: joins => JoinExpr.leaves context join ++ JoinExpr.listLeaves context joins

/-- The leaves of an entry of an ORDER BY. -/
def SortKey.leaves (context : Context) : SortKey → List Leaf
  | ⟨expr, _⟩ => Expr.leaves context expr

/-- The leaves of the entries of an ORDER BY. -/
def SortKey.listLeaves (context : Context) : List SortKey → List Leaf
  | [] => []
  | key :: keys => SortKey.leaves context key ++ SortKey.listLeaves context keys

/-- The leaves of an ORDER BY clause. -/
def SortKey.clauseLeaves (context : Context) : Option (List SortKey) → List Leaf
  | none => []
  | some keys => SortKey.listLeaves context keys

/-- The leaves of a SELECT. A lock is listed in both of the places where dialects write it. -/
def Select.leaves (context : Context) : Select → List Leaf
  | { items, source, filter, groupBy, having, orderBy, lock, .. } =>
    SelectItem.listLeaves (context.within .select) items ++
      TableExpr.clauseLeaves (context.within .from) (Lock.leaves lock) source ++
      Expr.clauseLeaves (context.within .where) filter ++
      Expr.listClauseLeaves (context.within .groupBy) groupBy ++
      Expr.clauseLeaves (context.within .having) having ++
      SortKey.clauseLeaves (context.within .order) orderBy ++ Lock.leaves lock

/-- The leaves of a query. -/
def Query.leaves (context : Context) : Query → List Leaf
  | .select select => Select.leaves context select
  | .union left right _ orderBy _ =>
    Query.leaves context left ++ Query.leaves (context.overriding .union) right ++
      SortKey.clauseLeaves (context.within .unionOrder) orderBy

end

attribute [simp] Expr.leaves Expr.listLeaves Expr.clauseLeaves Expr.listClauseLeaves Nested.leaves
  SelectItem.leaves SelectItem.listLeaves TableExpr.leaves TableExpr.clauseLeaves JoinExpr.leaves
  JoinExpr.listLeaves SortKey.leaves SortKey.listLeaves SortKey.clauseLeaves Select.leaves
  Query.leaves

/-! ## Statements that write -/

/-- The leaves of the rows of an INSERT. -/
def InsertSource.leaves (context : Context) : InsertSource → List Leaf
  | .defaults => []
  | .rows tuples => tuples.flatMap (Expr.listLeaves context)
  | .nested source => source.leaves context

/-- The leaves of assignments. -/
def Assignment.listLeaves (context : Context) (assignments : List Assignment) : List Leaf :=
  assignments.flatMap fun assignment => assignment.value.leaves context

/-- The leaves of the order at the end of an UPDATE or DELETE, where there is an end. -/
def writeTailLeaves (dialect : Dialect) (context : Context) (orderBy : Option (List SortKey)) :
    List Leaf :=
  if dialect.usesTop then [] else SortKey.clauseLeaves (context.within .order) orderBy

/-- The leaves of an UPDATE. -/
def Update.leaves (dialect : Dialect) (context : Context) (update : Update) : List Leaf :=
  let context := { context with updating := true }
  update.table.leaves (context.within .update) [] ++
    Assignment.listLeaves (context.within .update) update.assignments ++
    TableExpr.clauseLeaves (context.within .from) [] update.source ++
    Expr.clauseLeaves (context.within .where) update.filter ++
    writeTailLeaves dialect context update.orderBy

/-- The leaves of a DELETE. -/
def Delete.leaves (dialect : Dialect) (context : Context) (delete : Delete) : List Leaf :=
  delete.source.leaves (context.within .from) [] ++
    Expr.clauseLeaves (context.within .where) delete.filter ++
    writeTailLeaves dialect context delete.orderBy

/-- The leaves of a statement. -/
def Statement.leaves (dialect : Dialect) : Statement → List Leaf
  | .query statement => statement.leaves {}
  | .insert statement => statement.source.leaves (({} : Context).within .insert)
  | .update statement => statement.leaves dialect {}
  | .delete statement => statement.leaves dialect {}
  | .truncate _ => []

end QueryCompiler
