import QueryCompiler.Proofs.Contents
import QueryCompiler.Proofs.Judgement
import QueryCompiler.Proofs.Simulation

/-! # Inline rendering

A statement as a sequence of pieces: literal text, holes that hold their value, and raw SQL with its
values. Each hole stands at the place of its node in the tree, so a value cannot get away from its
placeholder. The text of a statement is the text of its pieces, with a placeholder for each hole, and
its bindings are the values of the pieces in the same order (`render_factors_through_inline`).

* `Expr.inline`, `Nested.inline`, `TableExpr.inline`, `Select.inline`, `Query.inline`,
  `Statement.inline`: the pieces of trees.
* `Compiler.inlineNested`: the pieces of a plan inside another statement.
-/

namespace QueryCompiler
set_option autoImplicit false

/-! ## Pieces -/

/-- A piece of a statement. -/
inductive Piece where
  | text (text : String)
  /-- A value at its place. -/
  | hole (value : Value) (purpose : Purpose)
  /-- SQL of the caller, with the values of its placeholders. -/
  | raw (raw : Raw) (purpose : Purpose)
  deriving DecidableEq

/-- The pieces of a stretch of SQL, from left to right. -/
abbrev Inline := List Piece

namespace Piece

/-- A piece as text, with a placeholder for a hole. -/
def sqlText (placeholder : String) : Piece → String
  | .text words => words
  | .hole _ _ => placeholder
  | .raw sql _ => sql.sql

/-- The values of a piece. -/
def bindings : Piece → Bindings
  | .text _ => []
  | .hole value purpose => [⟨value, purpose⟩]
  | .raw sql purpose => sql.values.map (⟨·, purpose⟩)

/-- A piece with another purpose. -/
def retag (purpose : Purpose) : Piece → Piece
  | .text words => .text words
  | .hole value _ => .hole value purpose
  | .raw sql _ => .raw sql purpose

end Piece

namespace Inline

def ofText (text : String) : Inline := [.text text]

instance : Coe String Inline := ⟨ofText⟩

/-- Text that there may not be. -/
def ofResult : Except Error String → Inline
  | .ok text => text
  | .error _ => []

def parens (pieces : Inline) : Inline := "(" ++ pieces ++ ")"

def parensIf (needed : Bool) (pieces : Inline) : Inline := if needed then pieces.parens else pieces

def framed (frame : Frame) (pieces : Inline) : Inline := frame.before ++ pieces ++ frame.after

def join (separator : String) : List Inline → Inline
  | [] => []
  | [pieces] => pieces
  | pieces :: rest => pieces ++ separator ++ join separator rest

/-- The text of pieces, and their values. -/
def sql (placeholder : String) (pieces : Inline) : Sql :=
  ⟨String.join (pieces.map (Piece.sqlText placeholder)), pieces.flatMap Piece.bindings⟩

section Assembly

variable {placeholder : String}

theorem sql_ofText (text : String) : sql placeholder (ofText text) = Sql.ofText text := by
  show Sql.mk (String.join [text]) [] = ⟨text, []⟩
  rw [String.join_cons, String.join_nil, String.append_empty]

theorem sql_append (a b : Inline) :
    sql placeholder (a ++ b) = sql placeholder a ++ sql placeholder b := by
  show Sql.mk _ _ = Sql.mk _ _
  rw [List.map_append, String.join_append, List.flatMap_append]
  rfl

theorem sql_hole (value : Value) (purpose : Purpose) :
    sql placeholder [.hole value purpose] = .bound placeholder value purpose := by
  show Sql.mk (String.join [placeholder]) [⟨value, purpose⟩] = ⟨placeholder, [⟨value, purpose⟩]⟩
  rw [String.join_cons, String.join_nil, String.append_empty]

theorem sql_raw (raw : Raw) (purpose : Purpose) :
    sql placeholder [.raw raw purpose] = .ofRaw raw purpose := by
  show Sql.mk (String.join [raw.sql]) (raw.values.map (⟨·, purpose⟩) ++ []) = _
  rw [String.join_cons, String.join_nil, String.append_empty, List.append_nil]
  rfl

theorem sql_retag (purpose : Purpose) (pieces : Inline) :
    sql placeholder (pieces.map (Piece.retag purpose)) = (sql placeholder pieces).retag purpose := by
  have htext : ∀ piece : Piece,
      (piece.retag purpose).sqlText placeholder = piece.sqlText placeholder := by
    intro piece
    cases piece <;> rfl
  have hbindings : ∀ piece : Piece,
      (piece.retag purpose).bindings = piece.bindings.map fun b => ⟨b.value, purpose⟩ := by
    intro piece
    cases piece with
    | text words => rfl
    | hole value own => rfl
    | raw sql own => rw [Piece.bindings, List.map_map]; rfl
  show Sql.mk _ _ = Sql.mk _ _
  simp only [List.map_map, Function.comp_def, htext, List.flatMap_map, hbindings, sql,
    Bindings.retag, List.map_flatMap]

theorem sql_parens (pieces : Inline) :
    sql placeholder pieces.parens = (sql placeholder pieces).parens := by
  simp only [parens, Sql.parens, sql_append, sql_ofText]

theorem sql_parensIf (needed : Bool) (pieces : Inline) :
    sql placeholder (pieces.parensIf needed) = (sql placeholder pieces).parensIf needed := by
  cases needed with
  | true => exact sql_parens pieces
  | false => rfl

theorem sql_framed (frame : Frame) (pieces : Inline) :
    sql placeholder (pieces.framed frame) = (sql placeholder pieces).mapText frame.wrap := by
  rw [framed, sql_append, sql_append, sql_ofText, sql_ofText]
  show Sql.mk _ (([] ++ (sql placeholder pieces).bindings) ++ []) = Sql.mk _ _
  rw [List.nil_append, List.append_nil]
  rfl

theorem sql_join (separator : String) (rows : List Inline) :
    sql placeholder (join separator rows) = Sql.join separator (rows.map (sql placeholder)) := by
  induction rows with
  | nil => rfl
  | cons pieces rows ih =>
    cases rows with
    | nil => rfl
    | cons next rows =>
      show sql placeholder (pieces ++ ofText separator ++ join separator (next :: rows)) =
        sql placeholder pieces ++ Sql.ofText separator ++
          Sql.join separator ((next :: rows).map (sql placeholder))
      rw [sql_append, sql_append, sql_ofText, ih]

end Assembly

end Inline

/-! ## Queries -/

/-- What the pieces of a tree depend on. -/
structure Inliner where
  dialect : Dialect
  /-- What the dialect puts around operands. -/
  frames : Frames
  /-- The pieces of a nested plan. -/
  plans : Plan → Inline

/-- What is put around a value that is compared with the expression. -/
def Expr.comparedFrame (frames : Frames) : Expr → Frame
  | .call (.datePart part) _ => frames.dateValue part
  | _ => {}

/-- The text of a lock, where the dialect writes locks at this place. -/
def Dialect.lockText? (dialect : Dialect) (placement : LockPlacement) (lock : Option Lock) :
    Option String :=
  (dialect.lockAt placement lock).toOption.join

def Dialect.wrapBranchInline (dialect : Dialect) (pieces : Inline) : Inline :=
  if dialect.wrapsBranches then
    "SELECT * FROM " ++ pieces.parens ++ " AS " ++ dialect.quote tempTable
  else pieces.parens

mutual

/-- The pieces of an expression. An IN over nothing is written without its operand. -/
def Expr.inline (i : Inliner) (context : Context) : Expr → Inline
  | .path path => i.dialect.quotePath path
  | .json column steps => i.dialect.hooks.jsonSelector steps (i.dialect.quotePath column)
  | .bound value purpose => [.hole value (context.purpose purpose)]
  | .raw raw => [.raw raw context.clausePurpose]
  | .nested nested => (Nested.inline i context nested).parens
  | .call (.datePart part) [argument] =>
    (Expr.inline i context argument).framed (i.frames.dateFunction part)
  | .call (.datePart _) _ => []
  | .call .jsonLength arguments => .ofResult (i.dialect.jsonLengthText arguments)
  | .aggregate function distinct arguments =>
    let inner := if arguments.isEmpty then .ofText wildcard
      else Inline.join ", " (Expr.inlineList i context arguments)
    function.sql ++ (distinctText distinct ++ inner).parens
  | .compare left comparison right =>
    Expr.inline i context left ++ " " ++ comparison.sql ++ " " ++
      (Expr.inline i context right).framed (left.comparedFrame i.frames)
  | .between operand low high negated =>
    Expr.inline i context operand ++ " " ++ notText negated ++ "BETWEEN " ++
      Expr.inline i context low ++ " AND " ++ Expr.inline i context high
  | .inList operand values negated =>
    if values.isEmpty then emptyInText negated
    else
      Expr.inline i context operand ++ " " ++ notText negated ++ "IN " ++
        (Inline.join ", " (Expr.inlineList i context values)).parens
  | .inNested operand nested negated =>
    Expr.inline i context operand ++ " " ++ notText negated ++ "IN " ++
      (Nested.inline i context nested).parens
  | .isNull operand negated =>
    Expr.inline i context operand ++ " IS " ++ notText negated ++ "NULL"
  | .existsIn nested negated =>
    notText negated ++ "EXISTS " ++ (Nested.inline i context nested).parens
  | .like operand pattern caseSensitive negated =>
    (Expr.inline i context operand).framed i.frames.likeOperand ++ " " ++ notText negated ++
      .ofResult (i.dialect.likeText caseSensitive) ++ " " ++ Expr.inline i context pattern
  | .condition connective terms =>
    Inline.join (" " ++ connective.sql ++ " ") (Expr.inlineTerms i context connective terms)
  | .parenthesized inner => (Expr.inline i context inner).parens

def Expr.inlineList (i : Inliner) (context : Context) : List Expr → List Inline
  | [] => []
  | expr :: exprs => Expr.inline i context expr :: Expr.inlineList i context exprs

def Expr.inlineTerms (i : Inliner) (context : Context) (connective : Connective) :
    List Expr → List Inline
  | [] => []
  | term :: terms =>
    (Expr.inline i context term).parensIf (connective = .and && term.isOr) ::
      Expr.inlineTerms i context connective terms

def Expr.inlineClause (i : Inliner) (context : Context) (keyword : String) : Option Expr → Inline
  | none => []
  | some expr => keyword ++ Expr.inline i context expr

def Expr.inlineListClause (i : Inliner) (context : Context) (keyword : String) :
    Option (List Expr) → Inline
  | none => []
  | some exprs => keyword ++ Inline.join ", " (Expr.inlineList i context exprs)

/-- The pieces of a nested source. Those of a plan are those of its own statement. -/
def Nested.inline (i : Inliner) (context : Context) : Nested → Inline
  | .plan plan => (i.plans plan).map (Piece.retag context.clausePurpose)
  | .raw raw => [.raw raw context.clausePurpose]
  | .query query => Query.inline i context query

def SelectItem.inline (i : Inliner) (context : Context) : SelectItem → Inline
  | .wildcard none => wildcard
  | .wildcard (some qualifier) => i.dialect.quotePath qualifier ++ "." ++ wildcard
  | .column column => i.dialect.quoteColumn column
  | .expr expr label =>
    (Expr.inline i context expr).parensIf expr.isBarePredicate ++ i.dialect.aliasText label

def SelectItem.inlineList (i : Inliner) (context : Context) : List SelectItem → List Inline
  | [] => []
  | item :: items => SelectItem.inline i context item :: SelectItem.inlineList i context items

/-- The pieces of a table expression. A lock hint follows the first table. -/
def TableExpr.inline (i : Inliner) (context : Context) (hint : Option String) : TableExpr → Inline
  | .table table => i.dialect.quoteTable table ++ Dialect.lockSuffix hint
  | .derived nested label =>
    (Nested.inline i context nested).parens ++ " AS " ++ i.dialect.quote label
  | .joined first joins =>
    TableExpr.inline i context hint first ++ JoinExpr.inlineList i context.joining joins
  | .raw raw => [.raw raw context.clausePurpose]

def TableExpr.inlineClause (i : Inliner) (context : Context) (hint : Option String) :
    Option TableExpr → Inline
  | none => []
  | some table => " FROM " ++ TableExpr.inline i context hint table

def JoinExpr.inline (i : Inliner) (context : Context) : JoinExpr → Inline
  | ⟨kind, target, on⟩ =>
    kind.sql ++ " " ++ TableExpr.inline i context none target ++
      Expr.inlineClause i context " ON " on

def JoinExpr.inlineList (i : Inliner) (context : Context) : List JoinExpr → Inline
  | [] => []
  | join :: joins => " " ++ JoinExpr.inline i context join ++ JoinExpr.inlineList i context joins

def SortKey.inline (i : Inliner) (context : Context) : SortKey → Inline
  | ⟨expr, none⟩ => Expr.inline i context expr
  | ⟨expr, some direction⟩ => Expr.inline i context expr ++ " " ++ direction.sql

def SortKey.inlineList (i : Inliner) (context : Context) : List SortKey → List Inline
  | [] => []
  | key :: keys => SortKey.inline i context key :: SortKey.inlineList i context keys

def SortKey.inlineClause (i : Inliner) (context : Context) : Option (List SortKey) → Inline
  | none => []
  | some keys => " ORDER BY " ++ Inline.join ", " (SortKey.inlineList i context keys)

/-- The pieces of a SELECT, clause by clause. -/
def Select.inline (i : Inliner) (context : Context) : Select → Inline
  | { distinct, items, source, filter, groupBy, having, orderBy, page, lock } =>
    "SELECT " ++ distinctText distinct ++ i.dialect.topText page.limit ++
      Inline.join ", " (SelectItem.inlineList i (context.within .select) items) ++
      TableExpr.inlineClause i (context.within .from) (i.dialect.lockText? .tableHint lock) source ++
      Expr.inlineClause i (context.within .where) " WHERE " filter ++
      Expr.inlineListClause i (context.within .groupBy) " GROUP BY " groupBy ++
      Expr.inlineClause i (context.within .having) " HAVING " having ++
      SortKey.inlineClause i (context.within .order) orderBy ++
      i.dialect.pageText orderBy.isSome page ++ Dialect.lockSuffix (i.dialect.lockText? .suffix lock)

/-- The pieces of a query. -/
def Query.inline (i : Inliner) (context : Context) : Query → Inline
  | .select select => Select.inline i context select
  | .union left right all orderBy page =>
    let first := Query.inline i context left
    (if left.isUnion then first else i.dialect.wrapBranchInline first) ++ unionText all ++
      i.dialect.wrapBranchInline (Query.inline i (context.overriding .union) right) ++
      SortKey.inlineClause i (context.within .unionOrder) orderBy ++
      i.dialect.unionPageText orderBy.isSome page

end

/-! ## Statements that write -/

def inlineRows (i : Inliner) (context : Context) (rows : List (List Expr)) : Inline :=
  Inline.join ", " (rows.map fun row => (Inline.join ", " (Expr.inlineList i context row)).parens)

/-- The pieces of the rows of an INSERT. A plan stands here without parentheses. -/
def InsertSource.inline (i : Inliner) (context : Context) : InsertSource → Inline
  | .defaults => " " ++ i.dialect.emptyInsertValues
  | .rows tuples => " VALUES " ++ inlineRows i context tuples
  | .nested source => " " ++ source.inline i context

def Insert.inlineMerge (i : Inliner) (context : Context) (insert : Insert) (key update : List Name) :
    Inline :=
  match insert.source with
  | .rows tuples =>
    let table := i.dialect.quoteTable insert.table
    "MERGE " ++ table ++ " USING (VALUES " ++ inlineRows i (context.within .insert) tuples ++
      ") AS " ++ i.dialect.quote mergeSource ++ " (" ++ i.dialect.quoteNames insert.columns ++
      ") ON " ++ i.dialect.mergeKeyText table key ++
      i.dialect.mergeActionText insert.columns update
  | _ => []

def Insert.inlinePlain (i : Inliner) (context : Context) (insert : Insert) : Inline :=
  .ofResult (i.dialect.insertText insert.conflict) ++ " " ++ i.dialect.quoteTable insert.table ++
    i.dialect.columnsText insert.columns ++ insert.source.inline i (context.within .insert) ++
    .ofResult (i.dialect.conflictText insert.conflict) ++ i.dialect.returningText insert.returning

def Insert.inline (i : Inliner) (context : Context) (insert : Insert) : Inline :=
  match insert.conflict, i.dialect.upsertStyle with
  | some (.update key update), .merge => insert.inlineMerge i context key update
  | _, _ => insert.inlinePlain i context

/-- The pieces of assignments: each value right behind its column. -/
def inlineAssignments (i : Inliner) (context : Context) (hasJoins : Bool) (target : Name)
    (assignments : List Assignment) : Inline :=
  Inline.join ", " (assignments.map fun assignment =>
    i.dialect.assignedText hasJoins target assignment.column ++ " = " ++
      assignment.value.inline i context)

def inlineWriteTail (i : Inliner) (context : Context) (orderBy : Option (List SortKey))
    (limit : Option Nat) : Inline :=
  if i.dialect.usesTop then []
  else SortKey.inlineClause i (context.within .order) orderBy ++ i.dialect.limitText ⟨limit, none⟩

def Update.inline (i : Inliner) (context : Context) (update : Update) : Inline :=
  let context := { context with updating := true }
  let target := update.table.target.toOption.getD ""
  "UPDATE " ++ i.dialect.writeTopText update.limit ++
    update.table.inline i (context.within .update) none ++ " SET " ++
    inlineAssignments i (context.within .update) update.hasJoins target update.assignments ++
    TableExpr.inlineClause i (context.within .from) none update.source ++
    Expr.inlineClause i (context.within .where) " WHERE " update.filter ++
    inlineWriteTail i context update.orderBy update.limit

def Delete.inline (i : Inliner) (context : Context) (delete : Delete) : Inline :=
  "DELETE " ++ i.dialect.writeTopText delete.limit ++ i.dialect.deleteTargetText delete.target ++
    "FROM " ++ delete.source.inline i (context.within .from) none ++
    Expr.inlineClause i (context.within .where) " WHERE " delete.filter ++
    inlineWriteTail i context delete.orderBy delete.limit

/-- The pieces of a statement. -/
def Statement.inline (i : Inliner) : Statement → Inline
  | .query statement => statement.inline i {}
  | .insert statement => statement.inline i {}
  | .update statement => statement.inline i {}
  | .delete statement => statement.inline i {}
  | .truncate table => .ofResult (i.dialect.truncateText table)

namespace Compiler

/-- The pieces of a plan that is nested no deeper than `depth`. -/
def inlineWithin (c : Compiler) (frames : Frames) : Nat → Plan → Inline
  | 0, _ => []
  | depth + 1, plan =>
    match Query.ofPlan c.tablePrefix plan with
    | .ok query => query.inline ⟨c.dialect, frames, c.inlineWithin frames depth⟩ {}
    | .error _ => []

/-- The pieces of a plan that is part of another statement. -/
def inlineNested (c : Compiler) (frames : Frames) (plan : Plan) : Inline :=
  c.inlineWithin frames plan.depth plan

def inliner (c : Compiler) (frames : Frames) : Inliner := ⟨c.dialect, frames, c.inlineNested frames⟩

/-- The pieces of a statement tree, in a dialect that puts frames around operands. -/
def inline (c : Compiler) (frames : Frames) (statement : Statement) : Inline :=
  statement.inline (c.inliner frames)

end Compiler

/-! ## Rendering factors through the pieces -/

/-- A renderer that puts frames around operands, and the pieces of nested plans that it writes. -/
structure Inlining where
  renderer : Renderer
  frames : Frames
  hooks_eq : renderer.dialect.hooks = frames.hooks
  plans : Plan → Inline
  plans_eq (plan : Plan) :
    Ensures (renderer.nested plan) (· = (plans plan).sql renderer.dialect.placeholder)

abbrev Inlining.inliner (f : Inlining) : Inliner := ⟨f.renderer.dialect, f.frames, f.plans⟩

abbrev Inlining.placeholder (f : Inlining) : String := f.renderer.dialect.placeholder

theorem Expr.compared_eq {dialect : Dialect} {frames : Frames}
    (hhooks : dialect.hooks = frames.hooks) (expr : Expr) :
    expr.compared dialect = (expr.comparedFrame frames).wrap := by
  unfold Expr.compared
  split
  · rw [hhooks]
    rfl
  · next hother =>
    rw [Expr.comparedFrame]
    · exact Frame.wrap_empty.symm
    · exact hother

theorem Inline.sql_ofResult (placeholder : String) (x : Except Error String) :
    Ensures x fun text => Inline.sql placeholder (.ofResult x) = Sql.ofText text := by
  rintro text rfl
  exact Inline.sql_ofText text

theorem Dialect.lockAt_eq (dialect : Dialect) (placement : LockPlacement) (lock : Option Lock) :
    Ensures (dialect.lockAt placement lock) (dialect.lockText? placement lock = ·) := by
  intro text htext
  rw [Dialect.lockText?, htext]
  rfl

theorem Dialect.sql_wrapBranchInline (dialect : Dialect) (placeholder : String) (pieces : Inline) :
    Inline.sql placeholder (dialect.wrapBranchInline pieces) =
      dialect.wrapBranch (Inline.sql placeholder pieces) := by
  unfold Dialect.wrapBranchInline Dialect.wrapBranch
  split
  · simp only [Inline.sql_append, Inline.sql_ofText, Inline.sql_parens]
  · exact Inline.sql_parens pieces

section Factors

variable (f : Inlining)

mutual

theorem Expr.render_inline (context : Context) : ∀ expr : Expr,
    Ensures (expr.render f.renderer context)
      (· = (expr.inline f.inliner context).sql f.placeholder)
  | .path path => by
    rw [Expr.render, Expr.inline]
    exact .ok (Inline.sql_ofText _).symm
  | .json column steps => by
    rw [Expr.render, Expr.inline]
    exact .ok (Inline.sql_ofText _).symm
  | .bound value purpose => by
    rw [Expr.render, Expr.inline]
    exact .ok (Inline.sql_hole _ _).symm
  | .raw raw => by
    rw [Expr.render, Expr.inline]
    exact .ok (Inline.sql_raw _ _).symm
  | .nested nested => by
    rw [Expr.render, Expr.inline, Inline.sql_parens]
    exact (Nested.render_inline context nested).bind fun _ h => .ok (h ▸ rfl)
  | .call (.datePart part) [] => by
    rw [Expr.render]
    · exact .error
    · exact fun argument h => nomatch h
  | .call (.datePart part) [argument] => by
    rw [Expr.render, Expr.inline, Inline.sql_framed, f.hooks_eq]
    exact (Expr.render_inline context argument).bind fun _ h => .ok (h ▸ rfl)
  | .call (.datePart part) (first :: second :: rest) => by
    rw [Expr.render]
    · exact .error
    · exact fun argument h => nomatch h
  | .call .jsonLength arguments => by
    rw [Expr.render, Expr.inline]
    exact (Inline.sql_ofResult f.placeholder _).bind fun _ h => .ok h.symm
  | .aggregate function distinct arguments => by
    rw [Expr.render, Expr.inline]
    refine (Expr.renderList_inline context arguments).bind fun sqls h => .ok ?_
    subst h
    cases arguments with
    | nil =>
      simp only [Expr.inlineList, List.map_nil, List.isEmpty_nil, if_true, Inline.sql_append,
        Inline.sql_ofText, Inline.sql_parens]
    | cons expr exprs =>
      simp only [Expr.inlineList, List.map_cons, List.isEmpty_cons, Bool.false_eq_true, if_false,
        Inline.sql_append, Inline.sql_ofText, Inline.sql_parens, Inline.sql_join]
  | .compare left comparison right => by
    rw [Expr.render, Expr.inline]
    refine (Expr.render_inline context left).bind fun _ hleft => ?_
    refine (Expr.render_inline context right).bind fun _ hright => .ok ?_
    simp only [Inline.sql_append, Inline.sql_ofText, Inline.sql_framed, hleft, hright,
      Expr.compared_eq f.hooks_eq]
  | .between operand low high negated => by
    rw [Expr.render, Expr.inline]
    refine (Expr.render_inline context operand).bind fun _ hoperand => ?_
    refine (Expr.render_inline context low).bind fun _ hlow => ?_
    refine (Expr.render_inline context high).bind fun _ hhigh => .ok ?_
    simp only [Inline.sql_append, Inline.sql_ofText, hoperand, hlow, hhigh]
  | .inList operand values negated => by
    rw [Expr.render, Expr.inline]
    split
    · exact .ok (Inline.sql_ofText _).symm
    · refine (Expr.render_inline context operand).bind fun _ hoperand => ?_
      refine (Expr.renderList_inline context values).bind fun _ hvalues => .ok ?_
      simp only [Inline.sql_append, Inline.sql_ofText, Inline.sql_parens, Inline.sql_join, hoperand,
        hvalues]
  | .inNested operand nested negated => by
    rw [Expr.render, Expr.inline]
    refine (Expr.render_inline context operand).bind fun _ hoperand => ?_
    refine (Nested.render_inline context nested).bind fun _ hnested => .ok ?_
    simp only [Inline.sql_append, Inline.sql_ofText, Inline.sql_parens, hoperand, hnested]
  | .isNull operand negated => by
    rw [Expr.render, Expr.inline]
    refine (Expr.render_inline context operand).bind fun _ hoperand => .ok ?_
    simp only [Inline.sql_append, Inline.sql_ofText, hoperand]
  | .existsIn nested negated => by
    rw [Expr.render, Expr.inline]
    refine (Nested.render_inline context nested).bind fun _ hnested => .ok ?_
    simp only [Inline.sql_append, Inline.sql_ofText, Inline.sql_parens, hnested]
  | .like operand pattern caseSensitive negated => by
    rw [Expr.render, Expr.inline]
    refine (Inline.sql_ofResult f.placeholder _).bind fun _ hword => ?_
    refine (Expr.render_inline context operand).bind fun _ hoperand => ?_
    refine (Expr.render_inline context pattern).bind fun _ hpattern => .ok ?_
    simp only [Inline.sql_append, Inline.sql_ofText, Inline.sql_framed, hword, hoperand, hpattern,
      f.hooks_eq, Frames.hooks]
  | .condition connective terms => by
    rw [Expr.render, Expr.inline, Inline.sql_join]
    refine .ite (fun _ => .error) fun _ => ?_
    exact (Expr.renderTerms_inline context connective terms).bind fun _ h => .ok (h ▸ rfl)
  | .parenthesized inner => by
    rw [Expr.render, Expr.inline, Inline.sql_parens]
    exact (Expr.render_inline context inner).bind fun _ h => .ok (h ▸ rfl)

theorem Expr.renderList_inline (context : Context) : ∀ exprs : List Expr,
    Ensures (Expr.renderList f.renderer context exprs)
      (· = (Expr.inlineList f.inliner context exprs).map (Inline.sql f.placeholder))
  | [] => by
    rw [Expr.renderList, Expr.inlineList]
    exact .ok rfl
  | expr :: exprs => by
    rw [Expr.renderList, Expr.inlineList]
    refine (Expr.render_inline context expr).bind fun _ hhead => ?_
    exact (Expr.renderList_inline context exprs).bind fun _ htail => .ok (by rw [hhead, htail]; rfl)

theorem Expr.renderTerms_inline (context : Context) (connective : Connective) :
    ∀ terms : List Expr, Ensures (Expr.renderTerms f.renderer context connective terms)
      (· = (Expr.inlineTerms f.inliner context connective terms).map (Inline.sql f.placeholder))
  | [] => by
    rw [Expr.renderTerms, Expr.inlineTerms]
    exact .ok rfl
  | term :: terms => by
    rw [Expr.renderTerms, Expr.inlineTerms]
    refine (Expr.render_inline context term).bind fun _ hhead => ?_
    refine (Expr.renderTerms_inline context connective terms).bind fun _ htail => .ok ?_
    rw [List.map_cons, Inline.sql_parensIf, hhead, htail]

theorem Expr.renderClause_inline (context : Context) (keyword : String) : ∀ expr : Option Expr,
    Ensures (Expr.renderClause f.renderer context keyword expr)
      (· = (Expr.inlineClause f.inliner context keyword expr).sql f.placeholder)
  | none => by
    rw [Expr.renderClause, Expr.inlineClause]
    exact .ok rfl
  | some expr => by
    rw [Expr.renderClause, Expr.inlineClause]
    refine (Expr.render_inline context expr).bind fun _ h => .ok ?_
    rw [Inline.sql_append, Inline.sql_ofText, h]

theorem Expr.renderListClause_inline (context : Context) (keyword : String) :
    ∀ exprs : Option (List Expr), Ensures (Expr.renderListClause f.renderer context keyword exprs)
      (· = (Expr.inlineListClause f.inliner context keyword exprs).sql f.placeholder)
  | none => by
    rw [Expr.renderListClause, Expr.inlineListClause]
    exact .ok rfl
  | some exprs => by
    rw [Expr.renderListClause, Expr.inlineListClause]
    refine (Expr.renderList_inline context exprs).bind fun _ h => .ok ?_
    rw [Inline.sql_append, Inline.sql_ofText, Inline.sql_join, h]

theorem Nested.render_inline (context : Context) : ∀ nested : Nested,
    Ensures (nested.render f.renderer context)
      (· = (nested.inline f.inliner context).sql f.placeholder)
  | .plan plan => by
    rw [Nested.render, Nested.inline, Inline.sql_retag]
    exact (f.plans_eq plan).bind fun _ h => .ok (h ▸ rfl)
  | .raw raw => by
    rw [Nested.render, Nested.inline]
    exact .ok (Inline.sql_raw _ _).symm
  | .query query => by
    rw [Nested.render, Nested.inline]
    exact Query.render_inline context query

theorem SelectItem.render_inline (context : Context) : ∀ item : SelectItem,
    Ensures (item.render f.renderer context)
      (· = (item.inline f.inliner context).sql f.placeholder)
  | .wildcard none => by
    rw [SelectItem.render, SelectItem.inline]
    exact .ok (Inline.sql_ofText _).symm
  | .wildcard (some qualifier) => by
    rw [SelectItem.render, SelectItem.inline]
    refine .ok ?_
    simp only [Inline.sql_append, Inline.sql_ofText]
  | .column column => by
    rw [SelectItem.render, SelectItem.inline]
    exact .ok (Inline.sql_ofText _).symm
  | .expr expr label => by
    rw [SelectItem.render, SelectItem.inline]
    refine (Expr.render_inline context expr).bind fun _ h => .ok ?_
    rw [Inline.sql_append, Inline.sql_ofText, Inline.sql_parensIf, h]

theorem SelectItem.renderList_inline (context : Context) : ∀ items : List SelectItem,
    Ensures (SelectItem.renderList f.renderer context items)
      (· = (SelectItem.inlineList f.inliner context items).map (Inline.sql f.placeholder))
  | [] => by
    rw [SelectItem.renderList, SelectItem.inlineList]
    exact .ok rfl
  | item :: items => by
    rw [SelectItem.renderList, SelectItem.inlineList]
    refine (SelectItem.render_inline context item).bind fun _ hhead => ?_
    exact (SelectItem.renderList_inline context items).bind
      fun _ htail => .ok (by rw [hhead, htail]; rfl)

theorem TableExpr.render_inline (context : Context) (hint : Option String) :
    ∀ table : TableExpr, Ensures (table.render f.renderer context hint)
      (· = (table.inline f.inliner context hint).sql f.placeholder)
  | .table table => by
    rw [TableExpr.render, TableExpr.inline]
    refine .ok ?_
    simp only [Inline.sql_append, Inline.sql_ofText]
  | .derived nested label => by
    rw [TableExpr.render, TableExpr.inline]
    refine .ite (fun _ => .error) fun _ => ?_
    refine (Nested.render_inline context nested).bind fun _ h => .ok ?_
    simp only [Inline.sql_append, Inline.sql_ofText, Inline.sql_parens, h]
  | .joined first joins => by
    rw [TableExpr.render, TableExpr.inline]
    refine (TableExpr.render_inline context hint first).bind fun _ hfirst => ?_
    refine (JoinExpr.renderList_inline context.joining joins).bind fun _ hjoins => .ok ?_
    rw [Inline.sql_append, hfirst, hjoins]
  | .raw raw => by
    rw [TableExpr.render, TableExpr.inline]
    exact .ite (fun _ => .error) fun _ => .ok (Inline.sql_raw _ _).symm

theorem TableExpr.renderClause_inline (context : Context) (hint : Option String) :
    ∀ table : Option TableExpr, Ensures (TableExpr.renderClause f.renderer context hint table)
      (· = (TableExpr.inlineClause f.inliner context hint
        table).sql f.placeholder)
  | none => by
    rw [TableExpr.renderClause, TableExpr.inlineClause]
    exact .ok rfl
  | some table => by
    rw [TableExpr.renderClause, TableExpr.inlineClause]
    refine (TableExpr.render_inline context hint table).bind fun _ h => .ok ?_
    rw [Inline.sql_append, Inline.sql_ofText, h]

theorem JoinExpr.render_inline (context : Context) : ∀ join : JoinExpr,
    Ensures (join.render f.renderer context)
      (· = (join.inline f.inliner context).sql f.placeholder)
  | ⟨kind, target, on⟩ => by
    rw [JoinExpr.render, JoinExpr.inline]
    refine (TableExpr.render_inline context none target).bind fun _ htarget => ?_
    refine (Expr.renderClause_inline context " ON " on).bind fun _ hon => .ok ?_
    simp only [Inline.sql_append, Inline.sql_ofText, htarget, hon]

theorem JoinExpr.renderList_inline (context : Context) : ∀ joins : List JoinExpr,
    Ensures (JoinExpr.renderList f.renderer context joins)
      (· = (JoinExpr.inlineList f.inliner context joins).sql f.placeholder)
  | [] => by
    rw [JoinExpr.renderList, JoinExpr.inlineList]
    exact .ok rfl
  | join :: joins => by
    rw [JoinExpr.renderList, JoinExpr.inlineList]
    refine (JoinExpr.render_inline context join).bind fun _ hhead => ?_
    refine (JoinExpr.renderList_inline context joins).bind fun _ htail => .ok ?_
    simp only [Inline.sql_append, Inline.sql_ofText, hhead, htail]

theorem SortKey.render_inline (context : Context) : ∀ key : SortKey,
    Ensures (key.render f.renderer context)
      (· = (key.inline f.inliner context).sql f.placeholder)
  | ⟨expr, none⟩ => by
    rw [SortKey.render, SortKey.inline]
    exact (Expr.render_inline context expr).bind fun _ h => .ok h
  | ⟨expr, some direction⟩ => by
    rw [SortKey.render, SortKey.inline]
    refine (Expr.render_inline context expr).bind fun _ h => .ok ?_
    simp only [Inline.sql_append, Inline.sql_ofText, h]

theorem SortKey.renderList_inline (context : Context) : ∀ keys : List SortKey,
    Ensures (SortKey.renderList f.renderer context keys)
      (· = (SortKey.inlineList f.inliner context keys).map (Inline.sql f.placeholder))
  | [] => by
    rw [SortKey.renderList, SortKey.inlineList]
    exact .ok rfl
  | key :: keys => by
    rw [SortKey.renderList, SortKey.inlineList]
    refine (SortKey.render_inline context key).bind fun _ hhead => ?_
    exact (SortKey.renderList_inline context keys).bind
      fun _ htail => .ok (by rw [hhead, htail]; rfl)

theorem SortKey.renderClause_inline (context : Context) : ∀ keys : Option (List SortKey),
    Ensures (SortKey.renderClause f.renderer context keys)
      (· = (SortKey.inlineClause f.inliner context keys).sql f.placeholder)
  | none => by
    rw [SortKey.renderClause, SortKey.inlineClause]
    exact .ok rfl
  | some keys => by
    rw [SortKey.renderClause, SortKey.inlineClause]
    refine (SortKey.renderList_inline context keys).bind fun _ h => .ok ?_
    rw [Inline.sql_append, Inline.sql_ofText, Inline.sql_join, h]

theorem Select.render_inline (context : Context) : ∀ select : Select,
    Ensures (select.render f.renderer context)
      (· = (select.inline f.inliner context).sql f.placeholder)
  | { distinct, items, source, filter, groupBy, having, orderBy, page, lock } => by
    rw [Select.render, Select.inline]
    refine (SelectItem.renderList_inline _ items).bind fun _ hitems => ?_
    refine (f.renderer.dialect.lockAt_eq .tableHint lock).bind fun hint hhint => ?_
    refine (TableExpr.renderClause_inline _ hint source).bind fun _ hsource => ?_
    refine (Expr.renderClause_inline _ " WHERE " filter).bind fun _ hfilter => ?_
    refine (Expr.renderListClause_inline _ " GROUP BY " groupBy).bind fun _ hgroups => ?_
    refine (Expr.renderClause_inline _ " HAVING " having).bind fun _ hhaving => ?_
    refine (SortKey.renderClause_inline _ orderBy).bind fun _ horder => ?_
    refine (f.renderer.dialect.lockAt_eq .suffix lock).bind fun suffix hsuffix => .ok ?_
    simp only [Inline.sql_append, Inline.sql_ofText, Inline.sql_join, hhint, hsuffix, hitems,
      hsource, hfilter, hgroups, hhaving, horder]

theorem Query.render_inline (context : Context) : ∀ query : Query,
    Ensures (query.render f.renderer context)
      (· = (query.inline f.inliner context).sql f.placeholder)
  | .select select => by
    rw [Query.render, Query.inline]
    exact Select.render_inline context select
  | .union left right all orderBy page => by
    rw [Query.render, Query.inline]
    refine (Query.render_inline context left).bind fun _ hleft => ?_
    refine (Query.render_inline _ right).bind fun _ hright => ?_
    refine (SortKey.renderClause_inline _ orderBy).bind fun _ horder => .ok ?_
    simp only [Inline.sql_append, Inline.sql_ofText, Dialect.sql_wrapBranchInline, hleft, hright,
      horder, apply_ite (Inline.sql f.placeholder)]

end

/-! ### Statements that write -/

theorem renderRows_inline (context : Context) (rows : List (List Expr)) :
    Ensures (renderRows f.renderer context rows)
      (· = (inlineRows f.inliner context rows).sql f.placeholder) := by
  refine (Ensures.mapM_eq (g := fun row => Inline.sql f.placeholder
    (Inline.join ", " (Expr.inlineList f.inliner context row)).parens) fun row _ => ?_).bind
    fun sqls hsqls => .ok ?_
  · refine (Expr.renderList_inline f context row).bind fun _ h => .ok ?_
    rw [Inline.sql_parens, Inline.sql_join, h]
  · rw [inlineRows, Inline.sql_join, List.map_map, ← hsqls]
    rfl

theorem InsertSource.render_inline (context : Context) (source : InsertSource) :
    Ensures (source.render f.renderer context)
      (· = (source.inline f.inliner context).sql f.placeholder) := by
  cases source with
  | defaults =>
    refine .ok ?_
    simp only [InsertSource.inline, Inline.sql_append, Inline.sql_ofText]
  | rows tuples =>
    refine (renderRows_inline f context tuples).bind fun _ h => .ok ?_
    rw [InsertSource.inline, Inline.sql_append, Inline.sql_ofText, h]
  | nested source =>
    refine (Nested.render_inline f context source).bind fun _ h => .ok ?_
    rw [InsertSource.inline, Inline.sql_append, Inline.sql_ofText, h]

theorem Insert.renderMerge_inline (context : Context) (insert : Insert) (key update : List Name) :
    Ensures (insert.renderMerge f.renderer context key update)
      (· = (insert.inlineMerge f.inliner context key update).sql f.placeholder) := by
  cases hsource : insert.source with
  | rows tuples =>
    rw [Insert.renderMerge, Insert.inlineMerge, hsource]
    refine (renderRows_inline f _ tuples).bind fun _ h => .ok ?_
    simp only [Inline.sql_append, Inline.sql_ofText, h]
  | nested source => rw [Insert.renderMerge, hsource]; exact .error
  | defaults => rw [Insert.renderMerge, hsource]; exact .error

theorem Insert.renderPlain_inline (context : Context) (insert : Insert) :
    Ensures (insert.renderPlain f.renderer context)
      (· = (insert.inlinePlain f.inliner context).sql f.placeholder) := by
  refine (Inline.sql_ofResult f.placeholder _).bind fun _ hwords => ?_
  refine (InsertSource.render_inline f _ _).bind fun _ hsource => ?_
  refine (Inline.sql_ofResult f.placeholder _).bind fun _ hconflict => .ok ?_
  simp only [Insert.inlinePlain, Inline.sql_append, Inline.sql_ofText, hwords, hsource, hconflict]

theorem Insert.render_inline (context : Context) (insert : Insert) :
    Ensures (insert.render f.renderer context)
      (· = (insert.inline f.inliner context).sql f.placeholder) := by
  have hplain := Insert.renderPlain_inline f context insert
  rw [Insert.render, Insert.inline]
  rcases insert.conflict with _ | _ | ⟨key, update⟩
  · exact hplain
  · exact hplain
  · cases f.renderer.dialect.upsertStyle with
    | merge => exact Insert.renderMerge_inline f context insert key update
    | unsupported => exact hplain
    | onDuplicateKey => exact hplain
    | onConflict => exact hplain

theorem renderAssignments_inline (context : Context) (hasJoins : Bool) (target : Name)
    (assignments : List Assignment) :
    Ensures (renderAssignments f.renderer context hasJoins target assignments)
      (· = (inlineAssignments f.inliner context hasJoins target assignments).sql f.placeholder) := by
  refine (Ensures.mapM_eq (g := fun assignment => Inline.sql f.placeholder
    (f.renderer.dialect.assignedText hasJoins target assignment.column ++ " = " ++
      assignment.value.inline f.inliner context)) fun assignment _ => ?_).bind
    fun sqls hsqls => .ok ?_
  · refine (Expr.render_inline f context assignment.value).bind fun _ h => .ok ?_
    simp only [Inline.sql_append, Inline.sql_ofText, h]
  · rw [inlineAssignments, Inline.sql_join, List.map_map, ← hsqls]
    rfl

theorem renderWriteTail_inline (context : Context) (orderBy : Option (List SortKey))
    (limit : Option Nat) :
    Ensures (renderWriteTail f.renderer context orderBy limit)
      (· = (inlineWriteTail f.inliner context orderBy limit).sql f.placeholder) := by
  unfold renderWriteTail inlineWriteTail
  split
  · exact .ok rfl
  · refine (SortKey.renderClause_inline f _ orderBy).bind fun _ h => .ok ?_
    rw [Inline.sql_append, Inline.sql_ofText, h]

theorem Update.render_inline (context : Context) (update : Update) :
    Ensures (update.render f.renderer context)
      (· = (update.inline f.inliner context).sql f.placeholder) := by
  refine .bind_any fun target htarget => ?_
  refine (TableExpr.render_inline f _ none update.table).bind fun _ htable => ?_
  refine (renderAssignments_inline f _ _ target update.assignments).bind fun _ hassignments => ?_
  refine (TableExpr.renderClause_inline f _ none update.source).bind fun _ hsource => ?_
  refine (Expr.renderClause_inline f _ " WHERE " update.filter).bind fun _ hfilter => ?_
  refine (renderWriteTail_inline f _ update.orderBy update.limit).bind fun _ htail => .ok ?_
  simp only [Update.inline, htarget, Inline.sql_append, Inline.sql_ofText, htable, hassignments,
    hsource, hfilter, htail]
  rfl

theorem Delete.render_inline (context : Context) (delete : Delete) :
    Ensures (delete.render f.renderer context)
      (· = (delete.inline f.inliner context).sql f.placeholder) := by
  refine (TableExpr.render_inline f _ none delete.source).bind fun _ hsource => ?_
  refine (Expr.renderClause_inline f _ " WHERE " delete.filter).bind fun _ hfilter => ?_
  refine (renderWriteTail_inline f _ delete.orderBy delete.limit).bind fun _ htail => .ok ?_
  simp only [Delete.inline, Inline.sql_append, Inline.sql_ofText, hsource, hfilter, htail]

theorem Statement.render_inline (statement : Statement) :
    Ensures (statement.render f.renderer) (· = (statement.inline f.inliner).sql f.placeholder) := by
  cases statement with
  | query statement => exact Query.render_inline f {} statement
  | insert statement => exact Insert.render_inline f {} statement
  | update statement => exact Update.render_inline f {} statement
  | delete statement => exact Delete.render_inline f {} statement
  | truncate table => exact (Inline.sql_ofResult f.placeholder _).bind fun _ h => .ok h.symm

end Factors

/-! ## Nested plans

The pieces of a tree depend on the pieces of the plans among its leaves only, so a nested plan has the
pieces of its own statement, however deep it stands. -/

/-- The same pieces for the plans among leaves. -/
def SamePieces (plans plans' : Plan → Inline) (leaves : List Leaf) : Prop :=
  ∀ plan purpose, .plan plan purpose ∈ leaves → plans plan = plans' plan

section Congruence

variable {plans plans' : Plan → Inline}

theorem samePieces_append {a b : List Leaf} :
    SamePieces plans plans' (a ++ b) ↔ SamePieces plans plans' a ∧ SamePieces plans plans' b := by
  simp only [SamePieces, List.mem_append]
  exact ⟨fun h => ⟨fun plan purpose hmem => h plan purpose (.inl hmem),
    fun plan purpose hmem => h plan purpose (.inr hmem)⟩,
    fun h plan purpose hmem => hmem.elim (h.1 plan purpose) (h.2 plan purpose)⟩

variable (dialect : Dialect) (frames : Frames)

mutual

theorem Expr.inline_congr (context : Context) : ∀ expr : Expr,
    SamePieces plans plans' (expr.leaves context) →
      expr.inline ⟨dialect, frames, plans⟩ context = expr.inline ⟨dialect, frames, plans'⟩ context
  | .path _, _ | .json .., _ | .bound .., _ | .raw _, _ | .call .jsonLength _, _
  | .call (.datePart _) [], _ | .call (.datePart _) (_ :: _ :: _), _ => rfl
  | .nested nested, h => by
    rw [Expr.leaves] at h
    rw [Expr.inline, Expr.inline, Nested.inline_congr context nested h]
  | .call (.datePart part) [argument], h => by
    simp only [Expr.leaves, Expr.listLeaves, List.append_nil] at h
    rw [Expr.inline, Expr.inline, Expr.inline_congr context argument h]
  | .aggregate function distinct arguments, h => by
    rw [Expr.leaves] at h
    rw [Expr.inline, Expr.inline, Expr.inlineList_congr context arguments h]
  | .compare left comparison right, h => by
    rw [Expr.leaves, samePieces_append] at h
    rw [Expr.inline, Expr.inline, Expr.inline_congr context left h.1,
      Expr.inline_congr context right h.2]
  | .between operand low high negated, h => by
    rw [Expr.leaves, samePieces_append, samePieces_append] at h
    rw [Expr.inline, Expr.inline, Expr.inline_congr context operand h.1.1,
      Expr.inline_congr context low h.1.2, Expr.inline_congr context high h.2]
  | .inList operand values negated, h => by
    rw [Expr.inline, Expr.inline]
    split
    · rfl
    · next hvalues =>
      rw [Expr.leaves, if_neg hvalues, samePieces_append] at h
      rw [Expr.inline_congr context operand h.1, Expr.inlineList_congr context values h.2]
  | .inNested operand nested negated, h => by
    rw [Expr.leaves, samePieces_append] at h
    rw [Expr.inline, Expr.inline, Expr.inline_congr context operand h.1,
      Nested.inline_congr context nested h.2]
  | .isNull operand negated, h => by
    rw [Expr.leaves] at h
    rw [Expr.inline, Expr.inline, Expr.inline_congr context operand h]
  | .existsIn nested negated, h => by
    rw [Expr.leaves] at h
    rw [Expr.inline, Expr.inline, Nested.inline_congr context nested h]
  | .like operand pattern caseSensitive negated, h => by
    rw [Expr.leaves, samePieces_append] at h
    rw [Expr.inline, Expr.inline, Expr.inline_congr context operand h.1,
      Expr.inline_congr context pattern h.2]
  | .condition connective terms, h => by
    rw [Expr.leaves] at h
    rw [Expr.inline, Expr.inline, Expr.inlineTerms_congr context connective terms h]
  | .parenthesized inner, h => by
    rw [Expr.leaves] at h
    rw [Expr.inline, Expr.inline, Expr.inline_congr context inner h]

theorem Expr.inlineList_congr (context : Context) : ∀ exprs : List Expr,
    SamePieces plans plans' (Expr.listLeaves context exprs) →
      Expr.inlineList ⟨dialect, frames, plans⟩ context exprs =
        Expr.inlineList ⟨dialect, frames, plans'⟩ context exprs
  | [], _ => rfl
  | expr :: exprs, h => by
    rw [Expr.listLeaves, samePieces_append] at h
    rw [Expr.inlineList, Expr.inlineList, Expr.inline_congr context expr h.1,
      Expr.inlineList_congr context exprs h.2]

theorem Expr.inlineTerms_congr (context : Context) (connective : Connective) :
    ∀ terms : List Expr, SamePieces plans plans' (Expr.listLeaves context terms) →
      Expr.inlineTerms ⟨dialect, frames, plans⟩ context connective terms =
        Expr.inlineTerms ⟨dialect, frames, plans'⟩ context connective terms
  | [], _ => rfl
  | term :: terms, h => by
    rw [Expr.listLeaves, samePieces_append] at h
    rw [Expr.inlineTerms, Expr.inlineTerms, Expr.inline_congr context term h.1,
      Expr.inlineTerms_congr context connective terms h.2]

theorem Expr.inlineClause_congr (context : Context) (keyword : String) : ∀ expr : Option Expr,
    SamePieces plans plans' (Expr.clauseLeaves context expr) →
      Expr.inlineClause ⟨dialect, frames, plans⟩ context keyword expr =
        Expr.inlineClause ⟨dialect, frames, plans'⟩ context keyword expr
  | none, _ => rfl
  | some expr, h => by
    rw [Expr.clauseLeaves] at h
    rw [Expr.inlineClause, Expr.inlineClause, Expr.inline_congr context expr h]

theorem Expr.inlineListClause_congr (context : Context) (keyword : String) :
    ∀ exprs : Option (List Expr), SamePieces plans plans' (Expr.listClauseLeaves context exprs) →
      Expr.inlineListClause ⟨dialect, frames, plans⟩ context keyword exprs =
        Expr.inlineListClause ⟨dialect, frames, plans'⟩ context keyword exprs
  | none, _ => rfl
  | some exprs, h => by
    rw [Expr.listClauseLeaves] at h
    rw [Expr.inlineListClause, Expr.inlineListClause, Expr.inlineList_congr context exprs h]

theorem Nested.inline_congr (context : Context) : ∀ nested : Nested,
    SamePieces plans plans' (nested.leaves context) →
      nested.inline ⟨dialect, frames, plans⟩ context = nested.inline ⟨dialect, frames, plans'⟩ context
  | .plan plan, h => by
    rw [Nested.leaves] at h
    exact congrArg (List.map _) (h plan _ List.mem_cons_self)
  | .raw _, _ => rfl
  | .query query, h => by
    rw [Nested.leaves] at h
    rw [Nested.inline, Nested.inline, Query.inline_congr context query h]

theorem SelectItem.inline_congr (context : Context) : ∀ item : SelectItem,
    SamePieces plans plans' (item.leaves context) →
      item.inline ⟨dialect, frames, plans⟩ context = item.inline ⟨dialect, frames, plans'⟩ context
  | .wildcard none, _ | .wildcard (some _), _ | .column _, _ => rfl
  | .expr expr label, h => by
    rw [SelectItem.leaves] at h
    rw [SelectItem.inline, SelectItem.inline, Expr.inline_congr context expr h]

theorem SelectItem.inlineList_congr (context : Context) : ∀ items : List SelectItem,
    SamePieces plans plans' (SelectItem.listLeaves context items) →
      SelectItem.inlineList ⟨dialect, frames, plans⟩ context items =
        SelectItem.inlineList ⟨dialect, frames, plans'⟩ context items
  | [], _ => rfl
  | item :: items, h => by
    rw [SelectItem.listLeaves, samePieces_append] at h
    rw [SelectItem.inlineList, SelectItem.inlineList, SelectItem.inline_congr context item h.1,
      SelectItem.inlineList_congr context items h.2]

theorem TableExpr.inline_congr (context : Context) (hint : Option String) (leaves : List Leaf) :
    ∀ table : TableExpr, SamePieces plans plans' (table.leaves context leaves) →
      table.inline ⟨dialect, frames, plans⟩ context hint =
        table.inline ⟨dialect, frames, plans'⟩ context hint
  | .table _, _ | .raw _, _ => rfl
  | .derived nested label, h => by
    rw [TableExpr.leaves] at h
    rw [TableExpr.inline, TableExpr.inline, Nested.inline_congr context nested h]
  | .joined first joins, h => by
    rw [TableExpr.leaves, samePieces_append] at h
    rw [TableExpr.inline, TableExpr.inline, TableExpr.inline_congr context hint leaves first h.1,
      JoinExpr.inlineList_congr context.joining joins h.2]

theorem TableExpr.inlineClause_congr (context : Context) (hint : Option String)
    (leaves : List Leaf) : ∀ table : Option TableExpr,
    SamePieces plans plans' (TableExpr.clauseLeaves context leaves table) →
      TableExpr.inlineClause ⟨dialect, frames, plans⟩ context hint table =
        TableExpr.inlineClause ⟨dialect, frames, plans'⟩ context hint table
  | none, _ => rfl
  | some table, h => by
    rw [TableExpr.clauseLeaves] at h
    rw [TableExpr.inlineClause, TableExpr.inlineClause,
      TableExpr.inline_congr context hint leaves table h]

theorem JoinExpr.inline_congr (context : Context) : ∀ join : JoinExpr,
    SamePieces plans plans' (join.leaves context) →
      join.inline ⟨dialect, frames, plans⟩ context = join.inline ⟨dialect, frames, plans'⟩ context
  | ⟨kind, target, on⟩, h => by
    rw [JoinExpr.leaves, samePieces_append] at h
    rw [JoinExpr.inline, JoinExpr.inline, TableExpr.inline_congr context none [] target h.1,
      Expr.inlineClause_congr context " ON " on h.2]

theorem JoinExpr.inlineList_congr (context : Context) : ∀ joins : List JoinExpr,
    SamePieces plans plans' (JoinExpr.listLeaves context joins) →
      JoinExpr.inlineList ⟨dialect, frames, plans⟩ context joins =
        JoinExpr.inlineList ⟨dialect, frames, plans'⟩ context joins
  | [], _ => rfl
  | join :: joins, h => by
    rw [JoinExpr.listLeaves, samePieces_append] at h
    rw [JoinExpr.inlineList, JoinExpr.inlineList, JoinExpr.inline_congr context join h.1,
      JoinExpr.inlineList_congr context joins h.2]

theorem SortKey.inline_congr (context : Context) : ∀ key : SortKey,
    SamePieces plans plans' (key.leaves context) →
      key.inline ⟨dialect, frames, plans⟩ context = key.inline ⟨dialect, frames, plans'⟩ context
  | ⟨expr, none⟩, h => by
    rw [SortKey.leaves] at h
    rw [SortKey.inline, SortKey.inline, Expr.inline_congr context expr h]
  | ⟨expr, some direction⟩, h => by
    rw [SortKey.leaves] at h
    rw [SortKey.inline, SortKey.inline, Expr.inline_congr context expr h]

theorem SortKey.inlineList_congr (context : Context) : ∀ keys : List SortKey,
    SamePieces plans plans' (SortKey.listLeaves context keys) →
      SortKey.inlineList ⟨dialect, frames, plans⟩ context keys =
        SortKey.inlineList ⟨dialect, frames, plans'⟩ context keys
  | [], _ => rfl
  | key :: keys, h => by
    rw [SortKey.listLeaves, samePieces_append] at h
    rw [SortKey.inlineList, SortKey.inlineList, SortKey.inline_congr context key h.1,
      SortKey.inlineList_congr context keys h.2]

theorem SortKey.inlineClause_congr (context : Context) : ∀ keys : Option (List SortKey),
    SamePieces plans plans' (SortKey.clauseLeaves context keys) →
      SortKey.inlineClause ⟨dialect, frames, plans⟩ context keys =
        SortKey.inlineClause ⟨dialect, frames, plans'⟩ context keys
  | none, _ => rfl
  | some keys, h => by
    rw [SortKey.clauseLeaves] at h
    rw [SortKey.inlineClause, SortKey.inlineClause, SortKey.inlineList_congr context keys h]

theorem Select.inline_congr (context : Context) : ∀ select : Select,
    SamePieces plans plans' (select.leaves context) →
      select.inline ⟨dialect, frames, plans⟩ context = select.inline ⟨dialect, frames, plans'⟩ context
  | { items, source, filter, groupBy, having, orderBy, lock, .. }, h => by
    simp only [Select.leaves, samePieces_append] at h
    obtain ⟨⟨⟨⟨⟨⟨hitems, hsource⟩, hfilter⟩, hgroups⟩, hhaving⟩, horder⟩, -⟩ := h
    rw [Select.inline, Select.inline, SelectItem.inlineList_congr _ items hitems,
      TableExpr.inlineClause_congr _ _ _ source hsource, Expr.inlineClause_congr _ _ filter hfilter,
      Expr.inlineListClause_congr _ _ groupBy hgroups, Expr.inlineClause_congr _ _ having hhaving,
      SortKey.inlineClause_congr _ orderBy horder]

theorem Query.inline_congr (context : Context) : ∀ query : Query,
    SamePieces plans plans' (query.leaves context) →
      query.inline ⟨dialect, frames, plans⟩ context = query.inline ⟨dialect, frames, plans'⟩ context
  | .select select, h => by
    rw [Query.leaves] at h
    rw [Query.inline, Query.inline, Select.inline_congr context select h]
  | .union left right all orderBy page, h => by
    rw [Query.leaves, samePieces_append, samePieces_append] at h
    rw [Query.inline, Query.inline, Query.inline_congr context left h.1.1,
      Query.inline_congr _ right h.1.2, SortKey.inlineClause_congr _ orderBy h.2]

end

end Congruence

namespace Compiler

variable (c : Compiler) (frames : Frames)

/-- A depth that is enough gives the same pieces as any larger one. -/
theorem inlineWithin_eq (n m : Nat) (plan : Plan) (hn : plan.depth ≤ n) (hm : plan.depth ≤ m) :
    c.inlineWithin frames n plan = c.inlineWithin frames m plan := by
  induction n generalizing m plan with
  | zero =>
    have hpos := plan.depth_eq
    omega
  | succ n ih =>
    cases m with
    | zero =>
      have hpos := plan.depth_eq
      omega
    | succ m =>
      rw [inlineWithin, inlineWithin]
      cases hquery : Query.ofPlan c.tablePrefix plan with
      | error e => rfl
      | ok query =>
        refine Query.inline_congr c.dialect frames {} query fun inner purpose hmem => ?_
        rw [Query.ofPlan_leaves c.tablePrefix {} plan query hquery] at hmem
        have hinner : inner.depth ≤ plan.depth - 1 := plan.depth_leaves {} _ hmem
        exact ih m inner (by omega) (by omega)

/-- A nested plan has the pieces of its own statement. -/
theorem inlineNested_eq (plan : Plan) :
    Ensures (Query.ofPlan c.tablePrefix plan) fun query =>
      c.inlineNested frames plan = c.inline frames (.query query) := by
  intro query hquery
  have hpos := plan.depth_eq
  obtain ⟨n, hn⟩ : ∃ n, plan.depth = n + 1 := ⟨plan.depth - 1, by omega⟩
  rw [inlineNested, hn, inlineWithin, hquery]
  refine Query.inline_congr c.dialect frames {} query fun inner purpose hmem => ?_
  rw [Query.ofPlan_leaves c.tablePrefix {} plan query hquery] at hmem
  have hinner : inner.depth ≤ plan.depth - 1 := plan.depth_leaves {} _ hmem
  exact c.inlineWithin_eq frames n inner.depth inner (by omega) (Nat.le_refl _)

/-- Induction on the depth: each level hands the pieces of nested plans to the next. -/
theorem compileWithin_inline (hhooks : c.dialect.hooks = frames.hooks) (n : Nat) (plan : Plan) :
    Ensures (c.compileWithin n plan)
      (· = (c.inlineWithin frames n plan).sql c.dialect.placeholder) := by
  induction n generalizing plan with
  | zero => exact .error
  | succ n ih =>
    rw [c.compileWithin_succ]
    refine .bind_any fun query hquery => ?_
    rw [inlineWithin, hquery]
    let f : Inlining := ⟨⟨c.dialect, c.compileWithin n⟩, frames, hhooks, c.inlineWithin frames n, ih⟩
    exact Query.render_inline f {} query

def inlining (c : Compiler) (frames : Frames) (hhooks : c.dialect.hooks = frames.hooks) : Inlining :=
  ⟨c.renderer, frames, hhooks, c.inlineNested frames,
    fun plan => c.compileWithin_inline frames hhooks plan.depth plan⟩

end Compiler

/-- In a dialect that puts frames around operands, as all engines and all defaults do, rendering
factors through the pieces of a statement: its text is that of the pieces, with a placeholder for each
hole, and its bindings are the values of the pieces, in the same order. A nested plan has the pieces of
its own statement. -/
theorem render_factors_through_inline (c : Compiler) (frames : Frames)
    (hhooks : c.dialect.hooks = frames.hooks) :
    (∀ statement, Ensures (c.render statement) fun sql =>
      sql.text = String.join ((c.inline frames statement).map (Piece.sqlText c.dialect.placeholder)) ∧
        sql.bindings = (c.inline frames statement).flatMap Piece.bindings) ∧
    ∀ plan, Ensures (Query.ofPlan c.tablePrefix plan) fun query =>
      c.inlineNested frames plan = c.inline frames (.query query) := by
  refine ⟨fun statement => ?_, c.inlineNested_eq frames⟩
  rw [c.render_eq]
  refine (Statement.render_inline (c.inlining frames hhooks) statement).mono fun sql hsql => ?_
  rw [hsql]
  exact ⟨rfl, rfl⟩

/-- An assignment, and a BETWEEN of a nested plan, raw SQL and a value. -/
theorem render_factors_through_between :
    let c : Compiler := ⟨.sqlite, "p_"⟩
    let frames := Frames.sqlite
    let nested : Plan := {
      source := some (.table "t")
      filters := [⟨.and, .compare "a" .lt (.value (.int 2))⟩] }
    let statement : Statement := .update {
      table := .table ⟨["t"], none⟩
      assignments := [⟨["n"], .bound (.int 1) .update⟩]
      filter := some (.between (.nested (.plan nested)) (.raw ⟨"? + 1", [.int 3]⟩)
        (.bound (.int 4) .having) false) }
    (c.render statement).toBool ∧
    (c.inline frames statement).flatMap Piece.bindings =
      [⟨.int 1, .update⟩, ⟨.int 2, .where⟩, ⟨.int 3, .where⟩, ⟨.int 4, .having⟩] ∧
    Ensures (c.render statement) fun sql =>
      sql.text = String.join ((c.inline frames statement).map (Piece.sqlText c.dialect.placeholder)) ∧
        sql.bindings = (c.inline frames statement).flatMap Piece.bindings := by
  intro c frames nested statement
  exact ⟨by decide +kernel, by decide +kernel, (render_factors_through_inline c frames rfl).1 statement⟩

end QueryCompiler
