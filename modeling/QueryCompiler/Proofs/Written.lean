import QueryCompiler.Proofs.Judgement

/-! # What holds of every statement that is written

Whatever a tree writes is made of the parts that a judgement holds of, in an order in which they may
stand one behind the other. So the judgement holds of the whole, with the leaves of the tree
(`Query.render_written`, `Statement.render_written`). One walk through the trees serves every fact
that can be put as a judgement.
-/

namespace QueryCompiler
set_option autoImplicit false

variable {r : Renderer} (J : Judgement r)

/-! ## Lists -/

theorem WrittenList.join {J : Judgement r} {separator : String}
    (hsep : isSeparator separator.toList = true) {leaves : List Leaf} {sqls : List Sql}
    (h : WrittenList J leaves sqls) : Written J .clear .any leaves (Sql.join separator sqls) := by
  induction h with
  | nil => exact (Written.empty .clear).to_any
  | @cons leaves leaves' sql sqls hsql hsqls ih =>
    cases hsqls with
    | nil =>
      rw [List.append_nil]
      exact hsql
    | cons hnext hrest => exact (hsql.lit separator hsep).also ih

theorem WrittenList.commas {J : Judgement r} {leaves : List Leaf} {sqls : List Sql}
    (h : WrittenList J leaves sqls) : Written J .clear .any leaves (Sql.join ", " sqls) :=
  h.join (isSeparator_literal (by decide))

/-- The arguments of an aggregate, or the wildcard if there are none. -/
theorem WrittenList.arguments {J : Judgement r} {leaves : List Leaf} {sqls : List Sql}
    (h : WrittenList J leaves sqls) :
    Written J .clear .any leaves
      (if sqls.isEmpty then .ofText wildcard else Sql.join ", " sqls) := by
  cases h with
  | nil => exact (Written.lead wildcard rfl).of_any.to_any
  | cons hsql hsqls => exact (WrittenList.cons hsql hsqls).commas

/-! ## Small parts -/

theorem Expr.has_compared (dialect : Dialect) (left : Expr) :
    dialect.hooks.Has (left.compared dialect) := by
  unfold Expr.compared
  split
  · exact .dateValue _
  · exact .bare

theorem Written.wrapBranch {J : Judgement r} {leaves : List Leaf} {sql : Sql}
    (h : Written J .clear .any leaves sql) :
    Written J .clear .any leaves (r.dialect.wrapBranch sql) := by
  unfold Dialect.wrapBranch
  split
  · have htable := (Written.lead "SELECT * FROM " rfl).to_any.onto h.parens
    exact ((htable.lit " AS " rfl).text (J.name tempTable)).of_any
  · exact h.parens.of_any.to_any

theorem Dialect.jsonLengthText_written (arguments : List Expr) :
    Ensures (r.dialect.jsonLengthText arguments) fun text => Written J .clear .any [] text := by
  unfold Dialect.jsonLengthText
  split
  · next path => exact .ok (Written.hookedText (.jsonLength []) (Written.quotePath path))
  · next column steps => exact .ok (Written.hookedText (.jsonLength steps) (Written.quotePath column))
  · exact .error

theorem Dialect.likeText_written (caseSensitive : Bool) :
    Ensures (r.dialect.likeText caseSensitive) fun text => Written J .any .clear [] text := by
  unfold Dialect.likeText
  split
  · next word h => exact .ok (J.phrase (.like h))
  · exact .error

/-! ## Trees -/

mutual

theorem Expr.render_written (context : Context) :
    ∀ expr : Expr, Ensures (expr.render r context) (Written J .clear .any (expr.leaves context))
  | .path path => by
    rw [Expr.render, Expr.leaves]
    exact .ok (Written.quotePath path)
  | .json column steps => by
    rw [Expr.render, Expr.leaves]
    exact .ok (Written.hookedText (.jsonSelector steps) (Written.quotePath column))
  | .bound value purpose => by
    rw [Expr.render, Expr.leaves]
    exact .ok (J.bound value _)
  | .raw raw => by
    rw [Expr.render, Expr.leaves]
    exact .ok (J.raw raw _)
  | .nested nested => by
    rw [Expr.render, Expr.leaves]
    refine (Nested.render_written context nested).bind fun sql hsql => .ok ?_
    exact hsql.parens.of_any.to_any
  | .call (.datePart part) [] => by
    rw [Expr.render]
    · exact .error
    · intro argument h
      cases h
  | .call (.datePart part) [argument] => by
    rw [Expr.render, Expr.leaves, Expr.listLeaves, Expr.listLeaves, List.append_nil]
    refine (Expr.render_written context argument).bind fun sql hsql => .ok ?_
    exact hsql.hooked (.dateFunction part)
  | .call (.datePart part) (first :: second :: rest) => by
    rw [Expr.render]
    · exact .error
    · intro argument h
      cases h
  | .call .jsonLength arguments => by
    rw [Expr.render, Expr.leaves]
    exact (Dialect.jsonLengthText_written J arguments).bind fun text htext => .ok htext
  | .aggregate function distinct arguments => by
    rw [Expr.render, Expr.leaves]
    refine (Expr.renderList_written context arguments).bind fun sqls hsqls => .ok ?_
    have hdistinct : Written J .clear .clear [] (distinctText distinct) :=
      Written.plain (isPlainText_distinctText distinct)
    have hname : Written J .any .clear [] function.sql := .lead _ function.isSeparator_sql
    exact (hname.of_any.to_any.onto (hdistinct.onto hsqls.arguments).parens).to_any
  | .compare left comparison right => by
    rw [Expr.render, Expr.leaves]
    refine (Expr.render_written context left).bind fun first hfirst => ?_
    refine (Expr.render_written context right).bind fun second hsecond => .ok ?_
    have hsign := ((hfirst.lit " " rfl).lit _ comparison.isSeparator_sql).lit " " rfl
    exact hsign.also (hsecond.hooked (Expr.has_compared r.dialect left))
  | .between operand low high negated => by
    rw [Expr.render, Expr.leaves]
    refine (Expr.render_written context operand).bind fun operand hoperand => ?_
    refine (Expr.render_written context low).bind fun low hlow => ?_
    refine (Expr.render_written context high).bind fun high hhigh => .ok ?_
    have hword := ((hoperand.lit " " rfl).text (.plain (isPlainText_notText negated))).lit "BETWEEN " rfl
    exact ((hword.also hlow).lit " AND " rfl).also hhigh
  | .inList operand values negated => by
    rw [Expr.render, Expr.leaves]
    split
    · exact .ok (Written.lead _ (isSeparator_emptyInText negated)).of_any.to_any
    · refine (Expr.render_written context operand).bind fun operand hoperand => ?_
      refine (Expr.renderList_written context values).bind fun sqls hsqls => .ok ?_
      have hword := ((hoperand.lit " " rfl).text (.plain (isPlainText_notText negated))).lit "IN " rfl
      exact hword.also hsqls.commas.parens.of_any.to_any
  | .inNested operand nested negated => by
    rw [Expr.render, Expr.leaves]
    refine (Expr.render_written context operand).bind fun operand hoperand => ?_
    refine (Nested.render_written context nested).bind fun nested hnested => .ok ?_
    have hword := ((hoperand.lit " " rfl).text (.plain (isPlainText_notText negated))).lit "IN " rfl
    exact hword.also hnested.parens.of_any.to_any
  | .isNull operand negated => by
    rw [Expr.render, Expr.leaves]
    refine (Expr.render_written context operand).bind fun operand hoperand => .ok ?_
    have hword := (hoperand.lit " IS " rfl).text (.plain (isPlainText_notText negated))
    exact (hword.lit "NULL" rfl).to_any
  | .existsIn nested negated => by
    rw [Expr.render, Expr.leaves]
    refine (Nested.render_written context nested).bind fun nested hnested => .ok ?_
    have hnot : Written J .clear .clear [] (notText negated) :=
      .plain (isPlainText_notText negated)
    exact (hnot.lit "EXISTS " rfl).onto hnested.parens.of_any.to_any
  | .like operand pattern caseSensitive negated => by
    rw [Expr.render, Expr.leaves]
    refine (Dialect.likeText_written J caseSensitive).bind fun word hword => ?_
    refine (Expr.render_written context operand).bind fun operand hoperand => ?_
    refine (Expr.render_written context pattern).bind fun pattern hpattern => .ok ?_
    have hnot := ((hoperand.hooked .likeOperand).lit " " rfl).text (.plain (isPlainText_notText negated))
    exact ((hnot.to_any.text hword).lit " " rfl).also hpattern
  | .condition connective terms => by
    rw [Expr.render, Expr.leaves]
    split
    · exact .error
    · refine (Expr.renderTerms_written context connective terms).bind fun sqls hsqls => .ok ?_
      exact hsqls.join connective.isSeparator_sql
  | .parenthesized inner => by
    rw [Expr.render, Expr.leaves]
    refine (Expr.render_written context inner).bind fun sql hsql => .ok ?_
    exact hsql.parens.of_any.to_any

theorem Expr.renderList_written (context : Context) : ∀ exprs : List Expr,
    Ensures (Expr.renderList r context exprs) (WrittenList J (Expr.listLeaves context exprs))
  | [] => by
    rw [Expr.renderList, Expr.listLeaves]
    exact .ok .nil
  | expr :: exprs => by
    rw [Expr.renderList, Expr.listLeaves]
    refine (Expr.render_written context expr).bind fun sql hsql => ?_
    exact (Expr.renderList_written context exprs).bind fun sqls hsqls => .ok (.cons hsql hsqls)

theorem Expr.renderTerms_written (context : Context) (connective : Connective) :
    ∀ terms : List Expr, Ensures (Expr.renderTerms r context connective terms)
      (WrittenList J (Expr.listLeaves context terms))
  | [] => by
    rw [Expr.renderTerms, Expr.listLeaves]
    exact .ok .nil
  | term :: terms => by
    rw [Expr.renderTerms, Expr.listLeaves]
    refine (Expr.render_written context term).bind fun sql hsql => ?_
    refine (Expr.renderTerms_written context connective terms).bind fun sqls hsqls => .ok ?_
    exact .cons (hsql.parensIf _) hsqls

theorem Nested.render_written (context : Context) : ∀ nested : Nested,
    Ensures (nested.render r context) (Written J .clear .any (nested.leaves context))
  | .plan plan => by
    rw [Nested.render, Nested.leaves]
    exact .bind_any fun sql hsql => .ok (J.plan _ hsql)
  | .raw raw => by
    rw [Nested.render, Nested.leaves]
    exact .ok (J.raw raw _)
  | .query query => by
    rw [Nested.render, Nested.leaves]
    exact Query.render_written context query

theorem Expr.renderClause_written (context : Context) {keyword : String}
    (hkeyword : isSeparator keyword.toList = true) : ∀ expr : Option Expr,
    Ensures (Expr.renderClause r context keyword expr)
      (Written J .any .any (Expr.clauseLeaves context expr))
  | none => by
    rw [Expr.renderClause, Expr.clauseLeaves]
    exact .ok (.empty .any)
  | some expr => by
    rw [Expr.renderClause, Expr.clauseLeaves]
    refine (Expr.render_written context expr).bind fun sql hsql => .ok ?_
    exact (Written.lead keyword hkeyword).onto hsql

theorem Expr.renderListClause_written (context : Context) {keyword : String}
    (hkeyword : isSeparator keyword.toList = true) : ∀ exprs : Option (List Expr),
    Ensures (Expr.renderListClause r context keyword exprs)
      (Written J .any .any (Expr.listClauseLeaves context exprs))
  | none => by
    rw [Expr.renderListClause, Expr.listClauseLeaves]
    exact .ok (.empty .any)
  | some exprs => by
    rw [Expr.renderListClause, Expr.listClauseLeaves]
    refine (Expr.renderList_written context exprs).bind fun sqls hsqls => .ok ?_
    exact (Written.lead keyword hkeyword).onto hsqls.commas

theorem SelectItem.render_written (context : Context) : ∀ item : SelectItem,
    Ensures (item.render r context) (Written J .clear .any (item.leaves context))
  | .wildcard none => by
    rw [SelectItem.render, SelectItem.leaves]
    exact .ok (Written.lead wildcard rfl).of_any.to_any
  | .wildcard (some qualifier) => by
    rw [SelectItem.render, SelectItem.leaves]
    have hpath : Written J .clear .any [] (r.dialect.quotePath qualifier) := .quotePath qualifier
    exact .ok ((hpath.lit "." rfl).lit wildcard rfl).to_any
  | .column column => by
    rw [SelectItem.render, SelectItem.leaves]
    exact .ok (.quoteColumn column)
  | .expr expr label => by
    rw [SelectItem.render, SelectItem.leaves]
    refine (Expr.render_written context expr).bind fun sql hsql => .ok ?_
    exact (hsql.parensIf _).text (.aliasText label)

theorem SelectItem.renderList_written (context : Context) : ∀ items : List SelectItem,
    Ensures (SelectItem.renderList r context items)
      (WrittenList J (SelectItem.listLeaves context items))
  | [] => by
    rw [SelectItem.renderList, SelectItem.listLeaves]
    exact .ok .nil
  | item :: items => by
    rw [SelectItem.renderList, SelectItem.listLeaves]
    refine (SelectItem.render_written context item).bind fun sql hsql => ?_
    exact (SelectItem.renderList_written context items).bind fun sqls hsqls => .ok (.cons hsql hsqls)

theorem TableExpr.render_written (context : Context) {hint : Option String} {leaves : List Leaf}
    (hhint : Written J .any .any leaves (Dialect.lockSuffix hint)) : ∀ table : TableExpr,
    Ensures (table.render r context hint) (Written J .clear .any (table.leaves context leaves))
  | .table table => by
    rw [TableExpr.render, TableExpr.leaves]
    exact .ok ((Written.quoteTable table).onto hhint)
  | .derived nested label => by
    rw [TableExpr.render, TableExpr.leaves]
    refine .ite (fun _ => .error) fun _ => ?_
    refine (Nested.render_written context nested).bind fun sql hsql => .ok ?_
    exact (hsql.parens.lit " AS " rfl).of_any.text (J.name label)
  | .joined first joins => by
    rw [TableExpr.render, TableExpr.leaves]
    refine (TableExpr.render_written context hhint first).bind fun sql hsql => ?_
    exact (JoinExpr.renderList_written context.joining joins).bind fun rest hrest =>
      .ok (hsql.also hrest)
  | .raw raw => by
    rw [TableExpr.render, TableExpr.leaves]
    exact .ite (fun _ => .error) fun _ => .ok (J.raw raw _)

theorem TableExpr.renderClause_written (context : Context) {hint : Option String}
    {leaves : List Leaf} (hhint : Written J .any .any leaves (Dialect.lockSuffix hint)) :
    ∀ table : Option TableExpr, Ensures (TableExpr.renderClause r context hint table)
      (Written J .any .any (TableExpr.clauseLeaves context leaves table))
  | none => by
    rw [TableExpr.renderClause, TableExpr.clauseLeaves]
    exact .ok (.empty .any)
  | some table => by
    rw [TableExpr.renderClause, TableExpr.clauseLeaves]
    refine (TableExpr.render_written context hhint table).bind fun sql hsql => .ok ?_
    exact (Written.lead " FROM " rfl).onto hsql

theorem JoinExpr.render_written (context : Context) : ∀ join : JoinExpr,
    Ensures (join.render r context) (Written J .any .any (join.leaves context))
  | ⟨kind, target, on⟩ => by
    rw [JoinExpr.render, JoinExpr.leaves]
    refine (TableExpr.render_written context (.empty .any) target).bind fun target htarget => ?_
    refine (Expr.renderClause_written context (isSeparator_literal (by decide)) on).bind
      fun on hon => .ok ?_
    have hkind : Written J .any .clear [] kind.sql := .lead _ kind.isSeparator_sql
    exact ((hkind.lit " " rfl).onto htarget).also hon

theorem JoinExpr.renderList_written (context : Context) : ∀ joins : List JoinExpr,
    Ensures (JoinExpr.renderList r context joins)
      (Written J .any .any (JoinExpr.listLeaves context joins))
  | [] => by
    rw [JoinExpr.renderList, JoinExpr.listLeaves]
    exact .ok (.empty .any)
  | join :: joins => by
    rw [JoinExpr.renderList, JoinExpr.listLeaves]
    refine (JoinExpr.render_written context join).bind fun sql hsql => ?_
    refine (JoinExpr.renderList_written context joins).bind fun rest hrest => .ok ?_
    exact ((Written.lead " " rfl).to_any.onto hsql).also hrest

theorem SortKey.render_written (context : Context) : ∀ key : SortKey,
    Ensures (key.render r context) (Written J .clear .any (key.leaves context))
  | ⟨expr, direction⟩ => by
    rw [SortKey.render, SortKey.leaves]
    refine (Expr.render_written context expr).bind fun sql hsql => .ok ?_
    cases direction with
    | none => exact hsql
    | some direction => exact ((hsql.lit " " rfl).lit _ direction.isSeparator_sql).to_any

theorem SortKey.renderList_written (context : Context) : ∀ keys : List SortKey,
    Ensures (SortKey.renderList r context keys) (WrittenList J (SortKey.listLeaves context keys))
  | [] => by
    rw [SortKey.renderList, SortKey.listLeaves]
    exact .ok .nil
  | key :: keys => by
    rw [SortKey.renderList, SortKey.listLeaves]
    refine (SortKey.render_written context key).bind fun sql hsql => ?_
    exact (SortKey.renderList_written context keys).bind fun sqls hsqls => .ok (.cons hsql hsqls)

theorem SortKey.renderClause_written (context : Context) : ∀ keys : Option (List SortKey),
    Ensures (SortKey.renderClause r context keys)
      (Written J .any .any (SortKey.clauseLeaves context keys))
  | none => by
    rw [SortKey.renderClause, SortKey.clauseLeaves]
    exact .ok (.empty .any)
  | some keys => by
    rw [SortKey.renderClause, SortKey.clauseLeaves]
    refine (SortKey.renderList_written context keys).bind fun sqls hsqls => .ok ?_
    exact (Written.lead " ORDER BY " rfl).onto hsqls.commas

theorem Select.render_written (context : Context) : ∀ select : Select,
    Ensures (select.render r context) (Written J .clear .any (select.leaves context))
  | { distinct, items, source, filter, groupBy, having, orderBy, page, lock } => by
    rw [Select.render, Select.leaves]
    refine (SelectItem.renderList_written _ items).bind fun items hitems => ?_
    refine (Dialect.lockAt_written J .tableHint lock).bind fun hint hhint => ?_
    refine (TableExpr.renderClause_written _ hhint source).bind fun source hsource => ?_
    refine (Expr.renderClause_written _ (isSeparator_literal (by decide)) filter).bind
      fun filter hfilter => ?_
    refine (Expr.renderListClause_written _ (isSeparator_literal (by decide)) groupBy).bind
      fun groups hgroups => ?_
    refine (Expr.renderClause_written _ (isSeparator_literal (by decide)) having).bind
      fun having hhaving => ?_
    refine (SortKey.renderClause_written _ orderBy).bind fun order horder => ?_
    refine (Dialect.lockAt_written J .suffix lock).bind fun suffix hsuffix => .ok ?_
    have hdistinct : Written J .clear .clear [] (distinctText distinct) :=
      .plain (isPlainText_distinctText distinct)
    have hhead := ((Written.lead "SELECT " rfl).of_any.text hdistinct).text (.topText page.limit)
    have hclauses := ((((hhead.onto hitems.commas).also hsource).also hfilter).also hgroups).also hhaving
    exact ((hclauses.also horder).text (.pageText orderBy.isSome page)).also hsuffix

theorem Query.render_written (context : Context) : ∀ query : Query,
    Ensures (query.render r context) (Written J .clear .any (query.leaves context))
  | .select select => by
    rw [Query.render, Query.leaves]
    exact Select.render_written context select
  | .union left right all orderBy page => by
    rw [Query.render, Query.leaves]
    refine (Query.render_written context left).bind fun first hfirst => ?_
    refine (Query.render_written _ right).bind fun second hsecond => ?_
    refine (SortKey.renderClause_written _ orderBy).bind fun order horder => .ok ?_
    have hleft : Written J .clear .any (left.leaves context)
        (if left.isUnion then first else r.dialect.wrapBranch first) := by
      split
      · exact hfirst
      · exact hfirst.wrapBranch
    have hbranches := (hleft.lit _ (isSeparator_unionText all)).also hsecond.wrapBranch
    exact (hbranches.also horder).text (.unionPageText orderBy.isSome page)

end

/-! ## Inserts -/

theorem WrittenList.of_forall₂ {J : Judgement r} {α : Type} {f : α → List Leaf} {as : List α}
    {sqls : List Sql} (h : List.Forall₂ (fun a sql => Written J .clear .any (f a) sql) as sqls) :
    WrittenList J (as.flatMap f) sqls := by
  induction h with
  | nil => exact .nil
  | cons hsql _ ih =>
    rw [List.flatMap_cons]
    exact .cons hsql ih

theorem renderRows_written (context : Context) (rows : List (List Expr)) :
    Ensures (renderRows r context rows)
      (Written J .clear .any (rows.flatMap (Expr.listLeaves context))) := by
  have hrow : ∀ row ∈ rows, Ensures
      (do return (Sql.join ", " (← Expr.renderList r context row)).parens)
      (Written J .clear .any (Expr.listLeaves context row)) := fun row _ =>
    (Expr.renderList_written J context row).bind fun sqls hsqls =>
      .ok hsqls.commas.parens.of_any.to_any
  exact (Ensures.mapM hrow).bind fun tuples htuples => .ok (WrittenList.of_forall₂ htuples).commas

theorem InsertSource.render_written (context : Context) (source : InsertSource) :
    Ensures (source.render r context) (Written J .any .any (source.leaves context)) := by
  cases source with
  | defaults => exact .ok ((Written.lead " " rfl).to_any.text (J.phrase .emptyInsert)).to_any
  | rows tuples =>
    exact (renderRows_written J context tuples).bind fun sql hsql =>
      .ok ((Written.lead " VALUES " rfl).onto hsql)
  | nested source =>
    exact (Nested.render_written J context source).bind fun sql hsql =>
      .ok ((Written.lead " " rfl).onto hsql)

theorem Dialect.insertText_written (conflict : Option Conflict) :
    Ensures (r.dialect.insertText conflict) fun text => Written J .any .clear [] text := by
  unfold Dialect.insertText
  split
  · next words h => exact .ok (J.phrase (.insertIgnore h))
  · exact .error
  · exact .ok (.lead "INSERT INTO" rfl)

namespace Written

variable {J : Judgement r}

theorem columnsText (columns : List Name) :
    Written J .any .any [] (r.dialect.columnsText columns) := by
  unfold Dialect.columnsText
  split
  · exact empty .any
  · exact (((lead " (" rfl).onto (quoteNames columns)).lit ")" rfl).to_any

theorem overwriteText {incoming : String → String}
    (hincoming : ∀ name, Written J .clear .any [] (incoming (r.dialect.quote name)))
    (columns : List Name) : Written J .clear .any [] (r.dialect.overwriteText incoming columns) := by
  refine joinTexts (isSeparator_literal (by decide)) fun text htext => ?_
  obtain ⟨name, -, rfl⟩ := List.mem_map.mp htext
  have hname : Written J .clear .any [] (r.dialect.quote name) := J.name name
  rw [Sql.ofText_append, Sql.ofText_append]
  exact (hname.lit " = " rfl).onto (hincoming name)

/-- A name behind the name of its table. -/
theorem qualified {table : String} (htable : Written J .clear .any [] table) (name : Name) :
    Written J .clear .any [] (table ++ "." ++ r.dialect.quote name : String) := by
  rw [Sql.ofText_append, Sql.ofText_append]
  exact (htable.lit "." rfl).onto (J.name name)

theorem returningText (column : Option Name) :
    Written J .any .any [] (r.dialect.returningText column) := by
  cases column with
  | none => exact empty .any
  | some name => exact (lead " RETURNING " rfl).onto (J.name name)

theorem mergeKeyText {table : String} (htable : Written J .clear .any [] table) (key : List Name) :
    Written J .clear .any [] (r.dialect.mergeKeyText table key) := by
  refine joinTexts (isSeparator_literal (by decide)) fun text htext => ?_
  obtain ⟨name, -, rfl⟩ := List.mem_map.mp htext
  have hsource := qualified (J.name mergeSource) name
  rw [Sql.ofText_append, Sql.ofText_append, Sql.ofText_append, Sql.ofText_append]
  exact (((hsource.lit " = " rfl).onto htable).lit "." rfl).onto (J.name name)

theorem mergeActionText (columns update : List Name) :
    Written J .any .any [] (r.dialect.mergeActionText columns update) := by
  have hincoming : ∀ name, Written J .clear .any []
      (r.dialect.quote mergeSource ++ "." ++ r.dialect.quote name : String) :=
    qualified (J.name mergeSource)
  have hvalues : Written J .clear .any [] (Dialect.joinTexts ", "
      (columns.map fun column =>
        r.dialect.quote mergeSource ++ "." ++ r.dialect.quote column)) := by
    refine joinTexts (isSeparator_literal (by decide)) fun text htext => ?_
    obtain ⟨name, -, rfl⟩ := List.mem_map.mp htext
    exact hincoming name
  have hmatched := (lead " WHEN MATCHED THEN UPDATE SET " rfl).onto (overwriteText hincoming update)
  have hcolumns := (hmatched.lit " WHEN NOT MATCHED THEN INSERT (" rfl).onto (quoteNames columns)
  unfold Dialect.mergeActionText
  simp only [Sql.ofText_append]
  exact (((hcolumns.lit ") VALUES (" rfl).onto hvalues).lit ");" rfl).to_any

end Written

theorem Dialect.conflictText_written (conflict : Option Conflict) :
    Ensures (r.dialect.conflictText conflict) fun text => Written J .any .any [] text := by
  unfold Dialect.conflictText
  split
  · exact .ok (.empty .any)
  · split
    · exact .ok (Written.lead " ON CONFLICT DO NOTHING" rfl).to_any
    · exact .ok (.empty .any)
  · next key update =>
    split
    · have hvalue : ∀ name, Written J .clear .any []
          ("VALUES(" ++ r.dialect.quote name ++ ")" : String) := by
        intro name
        rw [Sql.ofText_append, Sql.ofText_append]
        exact (((Written.lead "VALUES(" rfl).onto (J.name name)).lit ")" rfl).of_any.to_any
      refine .ok ?_
      rw [Sql.ofText_append]
      exact (Written.lead " ON DUPLICATE KEY UPDATE " rfl).onto (.overwriteText hvalue update)
    · have hkey := (Written.lead " ON CONFLICT (" rfl).onto (Written.quoteNames (J := J) key)
      have hupdate : Written J .clear .any [] (r.dialect.overwriteText
          (fun column => r.dialect.quote "excluded" ++ "." ++ column) update) :=
        .overwriteText (Written.qualified (J.name "excluded")) update
      refine .ok ?_
      simp only [Sql.ofText_append]
      exact (hkey.lit ") DO UPDATE SET " rfl).onto hupdate
    · exact .error
    · exact .error

theorem Insert.renderMerge_written (insert : Insert) (key update : List Name) :
    Ensures (insert.renderMerge r {} key update)
      (Written J .clear .any (insert.source.leaves (({} : Context).within .insert))) := by
  unfold Insert.renderMerge
  split
  · next tuples hsource =>
    refine (renderRows_written J _ tuples).bind fun values hvalues => .ok ?_
    have htable : Written J .clear .any [] (r.dialect.quoteTable insert.table) := .quoteTable insert.table
    have hrows := (((Written.lead "MERGE " rfl).onto htable).lit " USING (VALUES " rfl).onto hvalues
    have hsourceName := (hrows.lit ") AS " rfl).text (J.name mergeSource)
    have hcolumns := (hsourceName.lit " (" rfl).text (.quoteNames insert.columns)
    have hkey := (hcolumns.lit ") ON " rfl).text (.mergeKeyText htable key)
    rw [hsource]
    exact (hkey.text (.mergeActionText insert.columns update)).of_any
  · exact .error

theorem Insert.renderPlain_written (insert : Insert) :
    Ensures (insert.renderPlain r {})
      (Written J .clear .any (insert.source.leaves (({} : Context).within .insert))) := by
  refine (Dialect.insertText_written J insert.conflict).bind fun words hwords => ?_
  refine (InsertSource.render_written J _ insert.source).bind fun source hsource => ?_
  refine (Dialect.conflictText_written J insert.conflict).bind fun conflict hconflict => .ok ?_
  have htable := (hwords.lit " " rfl).onto (.quoteTable insert.table)
  have hrows := (htable.text (.columnsText insert.columns)).onto hsource
  exact ((hrows.text hconflict).text (.returningText insert.returning)).of_any

theorem Insert.render_written (insert : Insert) :
    Ensures (insert.render r {})
      (Written J .clear .any (insert.source.leaves (({} : Context).within .insert))) := by
  unfold Insert.render
  split
  · exact Insert.renderMerge_written J insert _ _
  · exact Insert.renderPlain_written J insert

/-! ## Updates and deletes -/

theorem Written.assignedText {J : Judgement r} (hasJoins : Bool) (target : Name) (column : Path) :
    Written J .clear .any [] (r.dialect.assignedText hasJoins target column) := by
  unfold Dialect.assignedText
  split
  · exact quotePath _
  · split
    · next name _ => exact J.name name
    · exact (empty .clear).to_any

theorem renderAssignments_written (context : Context) (hasJoins : Bool) (target : Name)
    (assignments : List Assignment) :
    Ensures (renderAssignments r context hasJoins target assignments)
      (Written J .clear .any (Assignment.listLeaves context assignments)) := by
  have hassignment : ∀ assignment ∈ assignments, Ensures
      (do return r.dialect.assignedText hasJoins target assignment.column ++ " = " ++
        (← assignment.value.render r context))
      (Written J .clear .any (assignment.value.leaves context)) := fun assignment _ =>
    (Expr.render_written J context assignment.value).bind fun sql hsql =>
      .ok (((Written.assignedText hasJoins target assignment.column).lit " = " rfl).onto hsql)
  exact (Ensures.mapM hassignment).bind fun sqls hsqls => .ok (WrittenList.of_forall₂ hsqls).commas

theorem renderWriteTail_written (context : Context) (orderBy : Option (List SortKey))
    (limit : Option Nat) : Ensures (renderWriteTail r context orderBy limit)
      (Written J .any .any (writeTailLeaves r.dialect context orderBy)) := by
  unfold renderWriteTail writeTailLeaves
  split
  · exact .ok (.empty .any)
  · refine (SortKey.renderClause_written J _ orderBy).bind fun order horder => .ok ?_
    exact horder.text (.limitText ⟨limit, none⟩)

theorem Update.render_written (update : Update) :
    Ensures (update.render r {}) (Written J .clear .any (update.leaves r.dialect {})) := by
  refine .bind_any fun target _ => ?_
  refine (TableExpr.render_written J _ (.empty .any) update.table).bind fun table htable => ?_
  refine (renderAssignments_written J _ update.hasJoins target update.assignments).bind
    fun assignments hassignments => ?_
  refine (TableExpr.renderClause_written J _ (.empty .any) update.source).bind
    fun source hsource => ?_
  refine (Expr.renderClause_written J _ (isSeparator_literal (by decide)) update.filter).bind
    fun filter hfilter => ?_
  refine (renderWriteTail_written J _ update.orderBy update.limit).bind fun tail htail => .ok ?_
  have hhead := ((Written.lead "UPDATE " rfl).text (.writeTopText update.limit)).of_any.onto htable
  exact ((((hhead.lit " SET " rfl).also hassignments).also hsource).also hfilter).also htail

theorem Written.deleteTargetText {J : Judgement r} (target : Option Name) :
    Written J .clear .clear [] (r.dialect.deleteTargetText target) := by
  cases target with
  | none => exact empty .clear
  | some name => exact Written.lit (J.name name) " " rfl

theorem Delete.render_written (delete : Delete) :
    Ensures (delete.render r {}) (Written J .clear .any (delete.leaves r.dialect {})) := by
  refine (TableExpr.render_written J _ (.empty .any) delete.source).bind fun source hsource => ?_
  refine (Expr.renderClause_written J _ (isSeparator_literal (by decide)) delete.filter).bind
    fun filter hfilter => ?_
  refine (renderWriteTail_written J _ delete.orderBy delete.limit).bind fun tail htail => .ok ?_
  have hdelete : Written J .clear .clear [] "DELETE " := (Written.lead "DELETE " rfl).of_any
  have hhead := (hdelete.text (.writeTopText delete.limit)).text (.deleteTargetText delete.target)
  have hfrom := hhead.lit "FROM " rfl
  exact ((hfrom.onto hsource).also hfilter).also htail

theorem Dialect.truncateText_written (table : TableName) :
    Ensures (r.dialect.truncateText table) fun text => Written J .clear .any [] text := by
  unfold Dialect.truncateText
  split
  · exact .ok ((Written.lead "TRUNCATE TABLE " rfl).onto (.quoteTable table)).of_any
  · have htable := (Written.lead "TRUNCATE " rfl).onto (Written.quoteTable (J := J) table)
    exact .ok (htable.lit " RESTART IDENTITY CASCADE" rfl).of_any.to_any
  · exact .error

theorem Statement.render_written (statement : Statement) :
    Ensures (statement.render r) (Written J .clear .any (statement.leaves r.dialect)) := by
  cases statement with
  | query statement => exact Query.render_written J {} statement
  | insert statement => exact Insert.render_written J statement
  | update statement => exact Update.render_written J statement
  | delete statement => exact Delete.render_written J statement
  | truncate table =>
    exact (Dialect.truncateText_written J table).bind fun text htext => .ok htext

end QueryCompiler
