import QueryCompiler.Config
import QueryCompiler.Proofs.Fragment
import QueryCompiler.Proofs.Judgement
import QueryCompiler.Proofs.Reach
import QueryCompiler.Proofs.Simulation

/-! # Clauses that pick rows

SELECT, UPDATE and DELETE pick rows by the same clauses. `Compiler.clauses` writes those of a plan over
one table; what the statements make of a plan is put together from them.
-/

namespace QueryCompiler
set_option autoImplicit false

/-- The part of a plan that picks rows: FROM with its joins, filters, order and page. -/
def Plan.core (plan : Plan) : Plan where
  source := plan.source
  joins := plan.joins
  filters := plan.filters
  orders := plan.orders
  page := plan.page

/-- The SQL of the clauses that pick rows. -/
structure Clauses where
  /-- The table with the joins that hang on it. -/
  source : Sql
  filter : Sql
  order : Sql

/-- The clauses of a plan over a table. -/
def Compiler.clauses (c : Compiler) (context : Context) (plan : Plan) (table : TableName) :
    Except Error Clauses := do
  let joins ← plan.joins.mapM (JoinExpr.ofJoin c.tablePrefix)
  let filter ← Expr.ofFilters c.tablePrefix .where plan.filters
  let orderBy ← SortKey.ofTerms c.tablePrefix plan.orders
  let source ←
    ((TableExpr.table table).withJoins joins).render c.renderer (context.within .from) none
  let filter ← Expr.renderClause c.renderer (context.within .where) " WHERE " filter
  let order ← SortKey.renderClause c.renderer (context.within .order) orderBy
  return ⟨source, filter, order⟩

/-- The SELECT of a list of columns from the rows that clauses pick. -/
def Clauses.query (dialect : Dialect) (items : String) (ordered : Bool) (page : Page)
    (clauses : Clauses) : Sql :=
  "SELECT " ++ dialect.topText page.limit ++ items ++ " FROM " ++ clauses.source ++
    clauses.filter ++ clauses.order ++ dialect.pageText ordered page

variable (c : Compiler) {plan : Plan} {fragment : String} {table : TableName} {clauses : Clauses}

theorem SortKey.ofTerms_isSome (tablePrefix : String) (terms : List OrderTerm) :
    Ensures (SortKey.ofTerms tablePrefix terms) fun keys => keys.isSome = !terms.isEmpty := by
  unfold SortKey.ofTerms
  split
  · exact .ok rfl
  · next hterms =>
    refine .bind_any fun keys _ => .ok ?_
    cases terms with
    | nil => exact (hterms rfl).elim
    | cons term terms => rfl

theorem TableExpr.ofPlan_of_table {tablePrefix : String}
    (hsource : plan.source = some (.table fragment))
    (htable : TableName.ofFragment tablePrefix fragment = .ok table) (other : Plan)
    (hother : other.source = plan.source) (hjoins : other.joins = plan.joins) :
    TableExpr.ofPlan tablePrefix other = do
      let joins ← plan.joins.mapM (JoinExpr.ofJoin tablePrefix)
      return some ((TableExpr.table table).withJoins joins) := by
  unfold TableExpr.ofPlan TableExpr.ofSource
  rw [hother, hsource, hjoins]
  simp only [htable]
  rfl

theorem Sql.ofText_empty : Sql.ofText "" = {} := rfl

/-- A SELECT with nothing but columns and clauses that pick rows. -/
theorem Select.render_clauses (r : Renderer) (context : Context) {items : List SelectItem}
    {text : String}
    (htext : SelectItem.renderList r (context.within .select) items = .ok [Sql.ofText text])
    (source : TableExpr) (filter : Option Expr) (orderBy : Option (List SortKey)) (page : Page) :
    Select.render r context
        { items := items, source := some source, filter := filter, orderBy := orderBy,
          page := page } = do
      let source ← source.render r (context.within .from) none
      let filter ← Expr.renderClause r (context.within .where) " WHERE " filter
      let order ← SortKey.renderClause r (context.within .order) orderBy
      return Clauses.query r.dialect text orderBy.isSome page ⟨source, filter, order⟩ := by
  rw [Select.render]
  simp only [htext, Dialect.lockAt, TableExpr.renderClause, Expr.renderListClause,
    Expr.renderClause, ok_bind, bind_assoc, pure_bind]
  refine bind_congr_ok fun source _ => bind_congr_ok fun filter _ => bind_congr_ok fun order _ => ?_
  simp only [Clauses.query, Sql.join, distinctText, Dialect.lockSuffix, Sql.ofText_empty,
    Sql.append_empty, Sql.append_assoc, Bool.false_eq_true, if_false]

theorem Query.ofPlan_of_branches_nil {tablePrefix : String} (h : plan.branches = []) :
    Query.ofPlan tablePrefix plan = do
      return .select (← Select.ofPlanWith tablePrefix plan plan.aggregate) := by
  cases plan
  cases h
  rw [Query.ofPlan]

/-- A SELECT of given columns from the core of a plan. -/
theorem Compiler.select_core (hsource : plan.source = some (.table fragment))
    (htable : TableName.ofFragment c.tablePrefix fragment = .ok table) {selections : List Selection}
    {items : List SelectItem} {text : String}
    (hitems : SelectItem.ofSelections c.tablePrefix selections = .ok items)
    (htext : SelectItem.renderList c.renderer (({} : Context).within .select) items =
      .ok [Sql.ofText text]) (page : Page) :
    c.select { plan.core with selections := selections, page := page } = do
      let clauses ← c.clauses {} plan table
      return clauses.query c.dialect text (!plan.orders.isEmpty) page := by
  have hfrom := TableExpr.ofPlan_of_table hsource htable
    { plan.core with selections := selections, page := page } rfl rfl
  unfold Compiler.select Compiler.clauses
  rw [Query.ofPlan_of_branches_nil rfl]
  simp only [Select.ofPlanWith, SelectItem.ofPlanWith, hitems, hfrom, bind_assoc, pure_bind]
  simp only [Plan.core, Expr.ofGroups, Expr.ofFilters, Filter.terms, ok_bind, pure_bind]
  refine bind_congr_ok fun joins _ => bind_congr_ok fun filter _ => ?_
  refine bind_congr_ok fun orderBy horderBy => ?_
  have hordered := SortKey.ofTerms_isSome c.tablePrefix plan.orders orderBy horderBy
  rw [Compiler.render_eq, Statement.render, Query.render, ← hordered]
  exact Select.render_clauses c.renderer {} htext _ filter orderBy page

/-! ## Select lists -/

theorem Compiler.select_core_all (hsource : plan.source = some (.table fragment))
    (htable : TableName.ofFragment c.tablePrefix fragment = .ok table) (page : Page) :
    c.select { plan.core with page := page } = do
      let clauses ← c.clauses {} plan table
      return clauses.query c.dialect "*" (!plan.orders.isEmpty) page :=
  c.select_core hsource htable rfl (by rw [SelectItem.renderList]; rfl) page

theorem SelectItem.renderList_column (r : Renderer) (context : Context) (path : Path) :
    SelectItem.renderList r context [.column ⟨path, [], none⟩] =
      .ok [Sql.ofText (r.dialect.quotePath path)] := by
  rw [SelectItem.renderList, SelectItem.renderList, SelectItem.render]
  simp only [Dialect.quoteColumn, Dialect.aliasText, String.append_empty]
  rfl

theorem Compiler.select_core_column (hsource : plan.source = some (.table fragment))
    (htable : TableName.ofFragment c.tablePrefix fragment = .ok table) {column : String}
    {path : Path} (hcolumn : ColumnRef.ofFragment c.tablePrefix column = .ok ⟨path, [], none⟩)
    (hpath : path.endsInWildcard = false) :
    c.select { plan.core with selections := [.column column] } = do
      let clauses ← c.clauses {} plan table
      return clauses.query c.dialect (c.dialect.quotePath path) (!plan.orders.isEmpty) plan.page := by
  have hitems : SelectItem.ofSelections c.tablePrefix [.column column] =
      .ok [.column ⟨path, [], none⟩] := by
    simp only [SelectItem.ofSelections, List.mapM_cons, List.mapM_nil, SelectItem.ofSelection,
      hcolumn, ok_bind, pure_bind, SelectItem.ofColumn, hpath]
    rfl
  exact c.select_core hsource htable hitems (SelectItem.renderList_column c.renderer _ path)
    plan.page

/-! ## Writes through an identifier of rows -/

theorem Select.projection_eq {tablePrefix : String} (hsource : plan.source = some (.table fragment))
    (htable : TableName.ofFragment tablePrefix fragment = .ok table) (column : Path) :
    Select.projection tablePrefix plan column = do
      let joins ← plan.joins.mapM (JoinExpr.ofJoin tablePrefix)
      let filter ← Expr.ofFilters tablePrefix .where plan.filters
      let orderBy ← SortKey.ofTerms tablePrefix plan.orders
      return {
        items := [.column ⟨column, [], none⟩]
        source := some ((TableExpr.table table).withJoins joins)
        filter, orderBy
        page := plan.page } := by
  rw [Select.projection, TableExpr.ofPlan_of_table hsource htable plan rfl rfl]
  simp only [bind_assoc, pure_bind]

/-- The filter that keeps rows by their identifier is the SELECT of the identifiers in IN. -/
theorem Compiler.rowIdFilter_clauses (hsource : plan.source = some (.table fragment))
    (htable : TableName.ofFragment c.tablePrefix fragment = .ok table) (context : Context)
    (column : Name) :
    (do
      let filter ← Expr.rowIdFilter c.tablePrefix plan table column
      Expr.renderClause c.renderer (context.within .where) " WHERE " (some filter)) = do
    let clauses ← c.clauses context plan table
    let rowId := c.dialect.quotePath [table.referenceName, column]
    return " WHERE " ++ rowId ++ " IN (" ++
      clauses.query c.dialect rowId (!plan.orders.isEmpty) plan.page ++ ")" := by
  simp only [Expr.rowIdFilter, Select.projection_eq hsource htable, Compiler.clauses, bind_assoc,
    pure_bind, Expr.renderClause, Expr.render, Nested.render, Query.render, ok_bind]
  refine bind_congr_ok fun joins _ => bind_congr_ok fun filter _ => ?_
  refine bind_congr_ok fun orderBy horderBy => ?_
  have hordered := SortKey.ofTerms_isSome c.tablePrefix plan.orders orderBy horderBy
  have hin : Sql.ofText " IN (" = Sql.ofText " " ++ (Sql.ofText "IN " ++ Sql.ofText "(") := rfl
  rw [Select.render_clauses c.renderer _ (SelectItem.renderList_column c.renderer _ _), hordered]
  simp only [bind_assoc, pure_bind]
  refine bind_congr_ok fun source _ => bind_congr_ok fun filter _ => bind_congr_ok fun order _ => ?_
  simp only [Sql.parens, notText, hin, Sql.ofText_empty, Sql.empty_append, Sql.append_assoc,
    Bool.false_eq_true, if_false]
  rfl

/-! ## Ends of writes -/

theorem Dialect.writeTopText_none (dialect : Dialect) : dialect.writeTopText none = "" := by
  unfold Dialect.writeTopText
  split
  · next h => cases h
  · rfl

/-- The limit at the end of a statement, where it does not stand at the beginning. -/
def Dialect.writeLimitText (dialect : Dialect) (limit : Option Nat) : String :=
  if dialect.usesTop then "" else dialect.limitText ⟨limit, none⟩

/-- Where limits stand at the beginning, no order is asked for; so the order is always written. -/
theorem renderWriteTail_eq (r : Renderer) (context : Context) {orderBy : Option (List SortKey)}
    (htop : r.dialect.usesTop = true → orderBy = none) (limit : Option Nat) :
    renderWriteTail r context orderBy limit = do
      let order ← SortKey.renderClause r (context.within .order) orderBy
      return order ++ r.dialect.writeLimitText limit := by
  unfold renderWriteTail Dialect.writeLimitText
  split
  · next h =>
    rw [htop h, SortKey.renderClause]
    rfl
  · rfl

theorem renderWriteTail_none (r : Renderer) (context : Context) :
    renderWriteTail r context none none = .ok {} := by
  rw [renderWriteTail_eq r context (fun _ => rfl), SortKey.renderClause]
  unfold Dialect.writeLimitText
  split <;> rfl

theorem Plan.target_eq {tablePrefix : String} (hsource : plan.source = some (.table fragment))
    (htable : TableName.ofFragment tablePrefix fragment = .ok table) (statement : String) :
    plan.target tablePrefix statement = .ok table := by
  unfold Plan.target
  rw [hsource]
  exact htable

/-! ## Limits and columns of writes -/

/-- The limit of a write where it stands at the beginning. -/
def Engine.leadingLimit : Engine → Option Nat → String
  | .sqlserver, some n => "TOP (" ++ n.repr ++ ") "
  | _, _ => ""

/-- A page without the limit, where that stands at the beginning of a write. -/
def Engine.trailingPage (engine : Engine) (page : Page) : Page :=
  if engine = .sqlserver then ⟨none, page.offset⟩ else page

/-- `sql` is what selects one column, in whatever words, from the rows that a plan picks. -/
structure Compiler.SelectsColumn (c : Compiler) (plan : Plan) (path : Path) (sql : Sql) : Prop where
  hasFragment : ∃ column, ColumnRef.ofFragment c.tablePrefix column = .ok ⟨path, [], none⟩
  select_eq (column : String) :
    ColumnRef.ofFragment c.tablePrefix column = .ok ⟨path, [], none⟩ →
      c.select { plan.core with selections := [.column column] } = .ok sql

theorem Engine.leadingLimit_eq (engine : Engine) (limit : Option Nat) :
    engine.dialect.writeTopText limit = engine.leadingLimit limit := by
  cases engine <;> cases limit <;> rfl

theorem Compiler.selectsColumn (c : Compiler) (hsource : plan.source = some (.table fragment))
    (htable : TableName.ofFragment c.tablePrefix fragment = .ok table) {rowId : Name}
    (hempty : rowId ≠ "") (hwildcard : rowId ≠ wildcard)
    (hclauses : c.clauses {} plan table = .ok clauses) :
    c.SelectsColumn plan [table.referenceName, rowId]
      (clauses.query c.dialect (c.dialect.quotePath [table.referenceName, rowId])
        (!plan.orders.isEmpty) plan.page) where
  hasFragment := TableName.ofFragment_column c.tablePrefix fragment hempty table htable
  select_eq column hcolumn := by
    have hpath : Path.endsInWildcard [table.referenceName, rowId] = false := by
      simpa [Path.endsInWildcard] using hwildcard
    rw [c.select_core_column hsource htable hcolumn hpath, hclauses]
    rfl

/-- Identifiers of rows are columns like others. -/
theorem Engine.rowId_ne {engine : Engine} {always : Bool} {rowId : Name}
    (h : engine.reachOf plan always = .rowId rowId) : rowId ≠ "" ∧ rowId ≠ wildcard := by
  rcases Engine.rowId_cases h with ⟨-, rfl⟩ | ⟨-, rfl⟩ <;> decide

/-- Without an offset, the page at the end of a SELECT is the limit that a write has there. -/
theorem Engine.trailingPage_text (engine : Engine) {page : Page} (hoffset : page.offset = none)
    (ordered : Bool) :
    engine.dialect.topText (engine.trailingPage page).limit = "" ∧
      engine.dialect.pageText ordered (engine.trailingPage page) =
        engine.dialect.writeLimitText page.limit := by
  obtain ⟨limit, offset⟩ := page
  subst hoffset
  cases engine with
  | mysql | postgres | sqlite => exact ⟨rfl, String.append_empty⟩
  | sqlserver => exact ⟨rfl, rfl⟩

/-- The SELECT that shares its text with a direct write. -/
theorem Config.select_trailingPage (config : Config)
    (hsource : plan.source = some (.table fragment))
    (htable : TableName.ofFragment config.tablePrefix fragment = .ok table)
    (hoffset : plan.page.offset = none)
    (hclauses : config.compiler.clauses {} plan table = .ok clauses) :
    config.compiler.select { plan.core with page := config.engine.trailingPage plan.page } =
      .ok ("SELECT * " ++ ("FROM " ++ clauses.source ++ clauses.filter ++ clauses.order ++
        config.engine.dialect.writeLimitText plan.page.limit)) := by
  obtain ⟨htop, hpage⟩ := config.engine.trailingPage_text hoffset (!plan.orders.isEmpty)
  rw [Compiler.select_core_all _ hsource htable, hclauses, ok_bind, Clauses.query]
  simp only [Config.compiler, htop, hpage, Sql.ofText_empty, Sql.append_empty, Sql.append_assoc]
  rfl

end QueryCompiler
