import QueryCompiler.Sql.Statement

/-! # Visits

The compiler writes a statement in one visit from left to right. A visit gives text, and appends a
binding for each placeholder of the text to the bindings of what was visited before. What is known of
a place is handed down.

* `Visit`: a visit of a part of a statement.
* `Visit.sql`: the SQL of a visit that begins without bindings.
* `Expr.visit`, `Nested.visit`, `TableExpr.visit`, `Select.visit`, `Query.visit`: queries and their
  parts.
* `Insert.visit`, `Update.visit`, `Delete.visit`, `Statement.visit`: statements.
-/

namespace QueryCompiler
set_option autoImplicit false

/-- A visit of a part of a statement. -/
abbrev Visit (α : Type) := StateT Bindings (Except Error) α

namespace Visit

/-- The SQL of a visit that begins without bindings. -/
def sql (visit : Visit String) : Except Error Sql := do
  let (text, bindings) ← visit.run []
  return ⟨text, bindings⟩

/-- Appends a value and gives its placeholder. -/
def bound (r : Renderer) (value : Value) (purpose : Purpose) : Visit String := do
  modify (·.push value purpose)
  return r.dialect.placeholder

/-- Appends the values of raw SQL one by one. -/
def raw (place : Place) (raw : Raw) : Visit String := do
  raw.values.forM fun value => modify (·.push value place.clausePurpose)
  return raw.sql

/-- Compiles a plan apart, and appends its bindings where its text is put. -/
def plan (r : Renderer) (place : Place) (plan : Plan) : Visit String := do
  let compiled ← r.nested plan
  modify (·.splice compiled.bindings place.clausePurpose)
  return compiled.text

end Visit

/-! ## Small parts -/

/-- A column in quotes. What an UPDATE assigns to is written without its table where no other tables
take part, and with it where they do. -/
def Place.columnText (place : Place) (dialect : Dialect) (column : Path) : String :=
  match place.update, place.assigning with
  | some scope, true => dialect.assignedText scope.hasJoins scope.target column
  | _, _ => dialect.quotePath column

/-- A text in parentheses. -/
def parensText (text : String) : String := "(" ++ text ++ ")"

/-- A text in parentheses, where they are needed. -/
def parensTextIf (needed : Bool) (text : String) : String := if needed then parensText text else text

/-- A branch of a union in parentheses, or as a table of its own. -/
def Dialect.wrapBranchText (dialect : Dialect) (text : String) : String :=
  if dialect.wrapsBranches then
    "SELECT * FROM " ++ parensText text ++ " AS " ++ dialect.quote tempTable
  else parensText text

open Dialect (joinTexts)

/-! ## Queries -/

mutual

/-- Visits an expression. -/
def Expr.visit (r : Renderer) (place : Place) : Expr → Visit String
  | .path path => return place.columnText r.dialect path
  | .json column steps => return r.dialect.hooks.jsonSelector steps (r.dialect.quotePath column)
  | .bound value purpose => Visit.bound r value (place.purpose purpose)
  | .raw raw => Visit.raw place raw
  | .nested nested => do return parensText (← Nested.visit r place nested)
  | .call (.datePart part) [argument] => do
    return r.dialect.hooks.dateFunction part (← Expr.visit r place argument)
  | .call (.datePart part) arguments =>
    throw (.unexpectedNode (.argumentCount part arguments.length))
  | .call .jsonLength arguments => r.dialect.jsonLengthText arguments
  | .aggregate function distinct arguments => do
    let texts ← Expr.visitList r place arguments
    let inner := if texts.isEmpty then wildcard else joinTexts ", " texts
    return function.sql ++ parensText (distinctText distinct ++ inner)
  | .compare left comparison right => do
    let first ← Expr.visit r place left
    let second ← Expr.visit r place right
    return first ++ " " ++ comparison.sql ++ " " ++ left.compared r.dialect second
  | .between operand low high negated => do
    let operand ← Expr.visit r place operand
    let low ← Expr.visit r place low
    let high ← Expr.visit r place high
    return operand ++ " " ++ notText negated ++ "BETWEEN " ++ low ++ " AND " ++ high
  | .inList operand values negated =>
    if values.isEmpty then return emptyInText negated
    else do
      let operand ← Expr.visit r place operand
      let texts ← Expr.visitList r place values
      return operand ++ " " ++ notText negated ++ "IN " ++ parensText (joinTexts ", " texts)
  | .inNested operand nested negated => do
    let operand ← Expr.visit r place operand
    let nested ← Nested.visit r place nested
    return operand ++ " " ++ notText negated ++ "IN " ++ parensText nested
  | .isNull operand negated => do
    return (← Expr.visit r place operand) ++ " IS " ++ notText negated ++ "NULL"
  | .existsIn nested negated => do
    return notText negated ++ "EXISTS " ++ parensText (← Nested.visit r place nested)
  | .like operand pattern caseSensitive negated => do
    let word ← r.dialect.likeText caseSensitive
    let operand ← Expr.visit r place operand
    let pattern ← Expr.visit r place pattern
    return r.dialect.hooks.likeOperand operand ++ " " ++ notText negated ++ word ++ " " ++ pattern
  | .condition connective terms =>
    if terms.isEmpty then throw (.unexpectedNode .emptyCondition)
    else do
      let texts ← Expr.visitTerms r place connective terms
      return joinTexts (" " ++ connective.sql ++ " ") texts
  | .parenthesized inner => do return parensText (← Expr.visit r place inner)

/-- Visits expressions one after the other. -/
def Expr.visitList (r : Renderer) (place : Place) : List Expr → Visit (List String)
  | [] => return []
  | expr :: exprs => do
    let text ← Expr.visit r place expr
    return text :: (← Expr.visitList r place exprs)

/-- Visits the terms under a connective. An OR inside an AND is put in parentheses. -/
def Expr.visitTerms (r : Renderer) (place : Place) (connective : Connective) :
    List Expr → Visit (List String)
  | [] => return []
  | term :: terms => do
    let text ← Expr.visit r place term
    let texts ← Expr.visitTerms r place connective terms
    return parensTextIf (connective = .and && term.isOr) text :: texts

/-- Visits the condition of a clause, if it is there. -/
def Expr.visitClause (r : Renderer) (place : Place) (keyword : String) : Option Expr → Visit String
  | none => return ""
  | some expr => do return keyword ++ (← Expr.visit r place expr)

/-- Visits the expressions of a clause, if it is there. -/
def Expr.visitListClause (r : Renderer) (place : Place) (keyword : String) :
    Option (List Expr) → Visit String
  | none => return ""
  | some exprs => do return keyword ++ joinTexts ", " (← Expr.visitList r place exprs)

/-- Visits a nested source, without parentheses. A query is visited in place. -/
def Nested.visit (r : Renderer) (place : Place) : Nested → Visit String
  | .plan plan => Visit.plan r place plan
  | .raw raw => Visit.raw place raw
  | .query query => Query.visit r place query

/-- Visits an entry of a select list. -/
def SelectItem.visit (r : Renderer) (place : Place) : SelectItem → Visit String
  | .wildcard none => return wildcard
  | .wildcard (some qualifier) => return r.dialect.quotePath qualifier ++ "." ++ wildcard
  | .column column => return r.dialect.quoteColumn column
  | .expr expr label => do
    let text ← Expr.visit r place expr
    return parensTextIf expr.isBarePredicate text ++ r.dialect.aliasText label

/-- Visits the entries of a select list. -/
def SelectItem.visitList (r : Renderer) (place : Place) : List SelectItem → Visit (List String)
  | [] => return []
  | item :: items => do
    let text ← SelectItem.visit r place item
    return text :: (← SelectItem.visitList r place items)

/-- Visits a table expression. A lock hint follows the first table, which has to be a table by name. -/
def TableExpr.visit (r : Renderer) (place : Place) (hint : Option String) : TableExpr → Visit String
  | .table table => return r.dialect.quoteTable table ++ Dialect.lockSuffix hint
  | .derived nested label =>
    if hint.isSome then throw (.unexpectedNode .hintedSource)
    else do return parensText (← Nested.visit r place nested) ++ " AS " ++ r.dialect.quote label
  | .joined first joins => do
    let text ← TableExpr.visit r place hint first
    return text ++ (← JoinExpr.visitList r place joins)
  | .raw raw =>
    if hint.isSome then throw (.unexpectedNode .hintedSource)
    else Visit.raw place raw

/-- Visits a FROM clause, if it is there. -/
def TableExpr.visitClause (r : Renderer) (place : Place) (hint : Option String) :
    Option TableExpr → Visit String
  | none => return ""
  | some table => do return " FROM " ++ (← TableExpr.visit r place hint table)

/-- Visits a join: its table, and then its condition. -/
def JoinExpr.visit (r : Renderer) (place : Place) : JoinExpr → Visit String
  | ⟨kind, target, on⟩ => do
    let target ← TableExpr.visit r place.joining none target
    let on ← Expr.visitClause r place.joining " ON " on
    return kind.sql ++ " " ++ target ++ on

/-- Visits joins, with a blank before each. -/
def JoinExpr.visitList (r : Renderer) (place : Place) : List JoinExpr → Visit String
  | [] => return ""
  | join :: joins => do
    let text ← JoinExpr.visit r place join
    return " " ++ text ++ (← JoinExpr.visitList r place joins)

/-- Visits an entry of an ORDER BY. -/
def SortKey.visit (r : Renderer) (place : Place) : SortKey → Visit String
  | ⟨expr, direction⟩ => do
    let text ← Expr.visit r place expr
    return match direction with
      | none => text
      | some direction => text ++ " " ++ direction.sql

/-- Visits the entries of an ORDER BY. -/
def SortKey.visitList (r : Renderer) (place : Place) : List SortKey → Visit (List String)
  | [] => return []
  | key :: keys => do
    let text ← SortKey.visit r place key
    return text :: (← SortKey.visitList r place keys)

/-- Visits an ORDER BY clause, if it is there. -/
def SortKey.visitClause (r : Renderer) (place : Place) : Option (List SortKey) → Visit String
  | none => return ""
  | some keys => do return " ORDER BY " ++ joinTexts ", " (← SortKey.visitList r place keys)

/-- Visits a SELECT, clause by clause. -/
def Select.visit (r : Renderer) (place : Place) : Select → Visit String
  | { distinct, items, source, filter, groupBy, having, orderBy, page, lock } => do
    let items ← SelectItem.visitList r (place.within .select) items
    let hint ← r.dialect.lockAt .tableHint lock
    let source ← TableExpr.visitClause r (place.within .from) hint source
    let filter ← Expr.visitClause r (place.within .where) " WHERE " filter
    let groups ← Expr.visitListClause r (place.within .groupBy) " GROUP BY " groupBy
    let having ← Expr.visitClause r (place.within .having) " HAVING " having
    let order ← SortKey.visitClause r (place.within .order) orderBy
    let suffix ← r.dialect.lockAt .suffix lock
    return "SELECT " ++ distinctText distinct ++ r.dialect.topText page.limit ++
      joinTexts ", " items ++ source ++ filter ++ groups ++ having ++ order ++
      r.dialect.pageText orderBy.isSome page ++ Dialect.lockSuffix suffix

/-- Visits a query. The left side of a union is written bare if it is a union itself. -/
def Query.visit (r : Renderer) (place : Place) : Query → Visit String
  | .select select => Select.visit r place select
  | .union left right all orderBy page => do
    let first ← Query.visit r place left
    let second ← Query.visit r (place.overriding .union) right
    let order ← SortKey.visitClause r (place.within .unionOrder) orderBy
    return (if left.isUnion then first else r.dialect.wrapBranchText first) ++ unionText all ++
      r.dialect.wrapBranchText second ++ order ++ r.dialect.unionPageText orderBy.isSome page

end

/-! ## Inserts -/

/-- Visits rows of expressions, each in parentheses. -/
def visitRows (r : Renderer) (place : Place) (rows : List (List Expr)) : Visit String := do
  let tuples ← rows.mapM fun row => do
    return parensText (joinTexts ", " (← Expr.visitList r place row))
  return joinTexts ", " tuples

/-- Visits the rows of an INSERT, with a blank before them. -/
def InsertSource.visit (r : Renderer) (place : Place) : InsertSource → Visit String
  | .defaults => return " " ++ r.dialect.emptyInsertValues
  | .rows tuples => do return " VALUES " ++ (← visitRows r place tuples)
  | .nested source => do return " " ++ (← source.visit r place)

/-- Visits an INSERT that overwrites, as a MERGE. -/
def Insert.visitMerge (r : Renderer) (place : Place) (insert : Insert) (key update : List Name) :
    Visit String :=
  match insert.source with
  | .rows tuples => do
    let table := r.dialect.quoteTable insert.table
    let values ← visitRows r (place.within .insert) tuples
    return "MERGE " ++ table ++ " USING (VALUES " ++ values ++ ") AS " ++
      r.dialect.quote mergeSource ++ " (" ++ r.dialect.quoteNames insert.columns ++ ") ON " ++
      r.dialect.mergeKeyText table key ++ r.dialect.mergeActionText insert.columns update
  | _ => throw (.construction .mergeWithoutValues)

/-- Visits an INSERT that is no MERGE. -/
def Insert.visitPlain (r : Renderer) (place : Place) (insert : Insert) : Visit String := do
  let words ← r.dialect.insertText insert.conflict
  let source ← insert.source.visit r (place.within .insert)
  let conflict ← r.dialect.conflictText insert.conflict
  return words ++ " " ++ r.dialect.quoteTable insert.table ++
    r.dialect.columnsText insert.columns ++ source ++ conflict ++
    r.dialect.returningText insert.returning

/-- Visits an INSERT. -/
def Insert.visit (r : Renderer) (place : Place) (insert : Insert) : Visit String :=
  match insert.conflict, r.dialect.upsertStyle with
  | some (.update key update), .merge => insert.visitMerge r place key update
  | _, _ => insert.visitPlain r place

/-! ## Updates and deletes -/

/-- Visits assignments. Of each, the column is the left-hand side and nothing else is. -/
def visitAssignments (r : Renderer) (place : Place) (assignments : List Assignment) :
    Visit String := do
  let texts ← assignments.mapM fun ⟨column, value⟩ => do
    return place.assigned.columnText r.dialect column ++ " = " ++
      (← value.visit r (place.within .update))
  return joinTexts ", " texts

/-- Visits the order and the limit at the end of an UPDATE or DELETE. Where a limit stands at the
beginning, there is no end. -/
def visitWriteTail (r : Renderer) (place : Place) (orderBy : Option (List SortKey))
    (limit : Option Nat) : Visit String :=
  if r.dialect.usesTop then return ""
  else do
    let order ← SortKey.visitClause r (place.within .order) orderBy
    return order ++ r.dialect.limitText ⟨limit, none⟩

/-- Visits an UPDATE. -/
def Update.visit (r : Renderer) (place : Place) (update : Update) : Visit String := do
  let target ← update.table.target
  let place := place.updating ⟨update.hasJoins, target⟩
  let table ← update.table.visit r (place.within .update) none
  let assignments ← visitAssignments r place update.assignments
  let source ← TableExpr.visitClause r (place.within .from) none update.source
  let filter ← Expr.visitClause r (place.within .where) " WHERE " update.filter
  let tail ← visitWriteTail r place update.orderBy update.limit
  return "UPDATE " ++ r.dialect.writeTopText update.limit ++ table ++ " SET " ++ assignments ++
    source ++ filter ++ tail

/-- Visits a DELETE. -/
def Delete.visit (r : Renderer) (place : Place) (delete : Delete) : Visit String := do
  let source ← delete.source.visit r (place.within .from) none
  let filter ← Expr.visitClause r (place.within .where) " WHERE " delete.filter
  let tail ← visitWriteTail r place delete.orderBy delete.limit
  return "DELETE " ++ r.dialect.writeTopText delete.limit ++
    r.dialect.deleteTargetText delete.target ++ "FROM " ++ source ++ filter ++ tail

/-- Visits a statement. -/
def Statement.visit (r : Renderer) : Statement → Visit String
  | .query statement => statement.visit r {}
  | .insert statement => statement.visit r {}
  | .update statement => statement.visit r {}
  | .delete statement => statement.visit r {}
  | .truncate table => r.dialect.truncateText table

end QueryCompiler
