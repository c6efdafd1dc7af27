import QueryCompiler.Proofs.Clauses
import QueryCompiler.Proofs.PlanLeaves

/-! # The rows of a DELETE

A DELETE takes away the rows that the SELECT of its plan finds: it is written with the text and the
bindings of that SELECT (`Config.delete_restricts_as_select`).
-/

namespace QueryCompiler
set_option autoImplicit false

variable {plan : Plan} {fragment : String} {table : TableName}

/-! ## Statements -/

/-- A DELETE that is compiled has a table, and reaches its rows. -/
theorem Compiler.delete_reached (c : Compiler) (plan : Plan) :
    Ensures (c.delete plan) fun _ => ∃ fragment table reach,
      plan.source = some (.table fragment) ∧ TableName.ofFragment c.tablePrefix fragment = .ok table ∧
      c.dialect.reach plan .orderedDeleteWithJoins c.dialect.deletesByRowId = .ok reach := by
  unfold Compiler.delete Delete.ofPlan
  simp only [bind_assoc]
  refine (plan.target_source c.tablePrefix "DELETE").bind ?_
  rintro table ⟨fragment, hsource, htable⟩
  refine .bind_any fun reach hreach _ _ => ?_
  exact ⟨fragment, table, reach, hsource, htable, hreach⟩

theorem Compiler.delete_by_rowId (c : Compiler) (hsource : plan.source = some (.table fragment))
    (htable : TableName.ofFragment c.tablePrefix fragment = .ok table) {column : Name}
    (hreach : c.dialect.reach plan .orderedDeleteWithJoins c.dialect.deletesByRowId =
      .ok (.rowId column)) :
    c.delete plan = do
      let clauses ← c.clauses {} plan table
      let rowId := c.dialect.quotePath [table.referenceName, column]
      return "DELETE FROM " ++ c.dialect.quoteTable table ++ " WHERE " ++ rowId ++ " IN (" ++
        clauses.query c.dialect rowId (!plan.orders.isEmpty) plan.page ++ ")" := by
  have hfilter := c.rowIdFilter_clauses hsource htable {} column
  have hrender : ∀ filter,
      c.render (.delete { source := .table table, filter := some filter }) = do
        let filter ← Expr.renderClause c.renderer (({} : Context).within .where) " WHERE " filter
        return "DELETE FROM " ++ c.dialect.quoteTable table ++ filter := by
    intro filter
    simp only [Compiler.render_eq, Statement.render, Delete.render, TableExpr.render,
      renderWriteTail_none, ok_bind]
    refine bind_congr_ok fun filter _ => ?_
    simp only [Dialect.writeTopText_none, Dialect.deleteTargetText, Dialect.lockSuffix,
      Sql.ofText_empty, Sql.append_empty]
    rfl
  unfold Compiler.delete Delete.ofPlan
  simp only [Plan.target_eq hsource htable, hreach, ok_bind, bind_assoc, pure_bind, hrender]
  rw [← bind_assoc, hfilter]
  simp only [bind_assoc, pure_bind, Sql.append_assoc]

theorem Compiler.delete_directly (c : Compiler) (hsource : plan.source = some (.table fragment))
    (htable : TableName.ofFragment c.tablePrefix fragment = .ok table) {reach : Reach}
    (hreach : c.dialect.reach plan .orderedDeleteWithJoins c.dialect.deletesByRowId = .ok reach)
    (hdirect : ∀ column, reach ≠ .rowId column)
    (htop : c.dialect.usesTop = true → plan.orders = []) :
    c.delete plan = do
      let clauses ← c.clauses {} plan table
      let named := reach = .joined ∨ (table.label.isSome ∧ c.dialect.joinStrategy = .updateFrom)
      return "DELETE " ++ c.dialect.writeTopText plan.page.limit ++
        c.dialect.deleteTargetText (if named then some table.referenceName else none) ++ "FROM " ++
        clauses.source ++ clauses.filter ++ clauses.order ++
        c.dialect.writeLimitText plan.page.limit := by
  have hfrom := TableExpr.ofPlan_of_table hsource htable plan rfl rfl
  unfold Compiler.delete Delete.ofPlan Compiler.clauses
  simp only [Plan.target_eq hsource htable, hreach, ok_bind, bind_assoc, pure_bind, hfrom]
  cases reach with
  | rowId column => exact (hdirect column rfl).elim
  | single | joined =>
    refine bind_congr_ok fun joins _ => bind_congr_ok fun filter _ => ?_
    refine bind_congr_ok fun orderBy horderBy => ?_
    have hnone : c.dialect.usesTop = true → orderBy = none := by
      intro h
      rw [htop h] at horderBy
      cases horderBy
      rfl
    simp only [Compiler.render_eq, Statement.render, Delete.render, Option.getD_some,
      renderWriteTail_eq c.renderer {} hnone, bind_assoc, pure_bind]
    refine bind_congr_ok fun source _ => bind_congr_ok fun filter _ => bind_congr_ok fun order _ => ?_
    simp only [Sql.append_assoc]
    rfl

/-! ## Rows -/

/-- The table that a DELETE names in front of FROM. -/
def Engine.namedTarget (engine : Engine) (plan : Plan) (table : TableName) : String :=
  if plan.hasJoins || (engine = .sqlserver && table.label.isSome) then
    engine.dialect.quote table.referenceName ++ " "
  else ""

theorem Engine.namedTarget_eq {engine : Engine} {always : Bool}
    (hdirect : ∀ column, engine.reachOf plan always ≠ .rowId column) :
    engine.dialect.deleteTargetText
        (if engine.reachOf plan always = .joined ∨
            (table.label.isSome ∧ engine.dialect.joinStrategy = .updateFrom) then
          some table.referenceName
        else none) =
      engine.namedTarget plan table := by
  have hjoined := Engine.reach_joined_iff hdirect
  unfold Engine.namedTarget
  rw [← hjoined]
  simp only [Engine.joinStrategy_eq_updateFrom, Bool.or_eq_true, Bool.and_eq_true, decide_eq_true_eq, and_comm]
  split <;> rfl

theorem Engine.deletesByRowId_eq (engine : Engine) :
    engine.dialect.deletesByRowId = decide (engine = .sqlite) := by
  cases engine <;> rfl

/-- A DELETE that the engine does not support has no SQL. -/
theorem Config.delete_reached (config : Config) (plan : Plan) :
    Ensures (config.compiler.delete plan) fun _ => config.engine.supportsWrite plan = true := by
  refine (config.compiler.delete_reached plan).mono ?_
  rintro _ ⟨_, _, reach, -, -, hreach⟩
  exact ((Engine.reach_ok_iff ..).1 hreach).1

/-- How an engine gets at the rows of a DELETE. -/
def Engine.deleteReach (engine : Engine) (plan : Plan) : Reach :=
  engine.reachOf plan (engine = .sqlite)

theorem Config.reach_of_supports (config : Config)
    (hsupports : config.engine.supportsWrite plan = true) :
    config.compiler.dialect.reach plan .orderedDeleteWithJoins
      config.compiler.dialect.deletesByRowId = .ok (config.engine.deleteReach plan) := by
  refine (Engine.reach_ok_iff ..).2 ⟨hsupports, ?_⟩
  rw [Engine.deleteReach, ← Engine.deletesByRowId_eq]
  rfl

theorem Config.delete_directly (config : Config) (hsource : plan.source = some (.table fragment))
    (htable : TableName.ofFragment config.tablePrefix fragment = .ok table)
    (hsupports : config.engine.supportsWrite plan = true)
    (hdirect : ∀ column, config.engine.deleteReach plan ≠ .rowId column) :
    config.compiler.delete plan = do
      let clauses ← config.compiler.clauses {} plan table
      return "DELETE " ++ config.engine.leadingLimit plan.page.limit ++
        config.engine.namedTarget plan table ++ ("FROM " ++ clauses.source ++ clauses.filter ++
          clauses.order ++ config.engine.dialect.writeLimitText plan.page.limit) := by
  rw [Compiler.delete_directly _ hsource htable (config.reach_of_supports hsupports) hdirect
    (Engine.orders_eq_nil hsupports)]
  refine bind_congr_ok fun clauses _ => ?_
  rw [← Engine.namedTarget_eq hdirect, ← Engine.leadingLimit_eq]
  simp only [Sql.append_assoc]
  rfl

/-- A DELETE that the engine supports is compiled exactly if its clauses are. -/
theorem Config.delete_ok_iff (config : Config) (hsource : plan.source = some (.table fragment))
    (htable : TableName.ofFragment config.tablePrefix fragment = .ok table)
    (hsupports : config.engine.supportsWrite plan = true) :
    (∃ sql, config.compiler.delete plan = .ok sql) ↔
      ∃ clauses, config.compiler.clauses {} plan table = .ok clauses := by
  cases hreach : config.engine.deleteReach plan with
  | rowId column =>
    have hreached := config.reach_of_supports hsupports
    rw [hreach] at hreached
    rw [Compiler.delete_by_rowId _ hsource htable hreached]
    exact exists_bind_pure_iff
  | single | joined =>
    rw [config.delete_directly hsource htable hsupports (fun column h => nomatch hreach.symm.trans h)]
    exact exists_bind_pure_iff

/-- A DELETE of the rows of a plan over a table is compiled exactly if the engine supports it and the
SELECT of those rows is compiled. It then has the text and the bindings of such a SELECT: through an
identifier of rows that of the identifiers, and otherwise that of whole rows, with the words up to
FROM replaced. -/
theorem Config.delete_restricts_as_select (config : Config) (plan : Plan) (fragment : String)
    (table : TableName) (hsource : plan.source = some (.table fragment))
    (htable : TableName.ofFragment config.tablePrefix fragment = .ok table) :
    ((∃ sql, config.compiler.delete plan = .ok sql) ↔
      config.engine.supportsWrite plan = true ∧
        ∃ sql, config.compiler.select plan.core = .ok sql) ∧
    Ensures (config.compiler.delete plan) fun sql =>
      match config.engine.deleteReach plan with
      | .rowId column =>
        let rowId := config.engine.dialect.quotePath [table.referenceName, column]
        ∃ inner, config.compiler.SelectsColumn plan [table.referenceName, column] inner ∧
          sql = "DELETE FROM " ++ config.engine.dialect.quoteTable table ++ " WHERE " ++ rowId ++
            " IN (" ++ inner ++ ")"
      | .single | .joined =>
        ∃ rest : Sql,
          config.compiler.select { plan.core with page := config.engine.trailingPage plan.page } =
            .ok ("SELECT * " ++ rest) ∧
          sql = "DELETE " ++ config.engine.leadingLimit plan.page.limit ++
            config.engine.namedTarget plan table ++ rest := by
  have hselect : (∃ sql, config.compiler.select plan.core = .ok sql) ↔
      ∃ clauses, config.compiler.clauses {} plan table = .ok clauses := by
    have heq := Compiler.select_core_all config.compiler hsource htable plan.page
    exact heq ▸ exists_bind_pure_iff
  refine ⟨⟨?_, ?_⟩, ?_⟩
  · rintro ⟨sql, hsql⟩
    have hsupports := config.delete_reached plan sql hsql
    exact ⟨hsupports,
      hselect.2 ((config.delete_ok_iff hsource htable hsupports).1 ⟨sql, hsql⟩)⟩
  · rintro ⟨hsupports, hsql⟩
    exact (config.delete_ok_iff hsource htable hsupports).2 (hselect.1 hsql)
  · intro sql hsql
    have hsupports := config.delete_reached plan sql hsql
    obtain ⟨clauses, hclauses⟩ := (config.delete_ok_iff hsource htable hsupports).1 ⟨sql, hsql⟩
    cases hreach : config.engine.deleteReach plan with
    | rowId column =>
      have hreached := config.reach_of_supports hsupports
      rw [hreach] at hreached
      rw [Compiler.delete_by_rowId _ hsource htable hreached, hclauses] at hsql
      obtain ⟨hempty, hwildcard⟩ := Engine.rowId_ne hreach
      cases hsql
      exact ⟨_, Compiler.selectsColumn _ hsource htable hempty hwildcard hclauses, rfl⟩
    | single | joined =>
      have hdirect : ∀ column, config.engine.deleteReach plan ≠ .rowId column :=
        fun column h => nomatch hreach.symm.trans h
      rw [config.delete_directly hsource htable hsupports hdirect, hclauses] at hsql
      cases hsql
      have hoffset := Engine.offset_eq_none hsupports hdirect
      exact ⟨_, config.select_trailingPage hsource htable hoffset hclauses, rfl⟩

/-- The first rows of a join, through the identifier of rows. -/
theorem Config.delete_restricts_first_of_join :
    let config : Config := ⟨.postgres, "app_"⟩
    let plan : Plan := {
      source := some (.table "users as u")
      joins := [⟨.left, .table "posts", [⟨.and, .compare "posts.views" .gt (.value (.int 9))⟩]⟩]
      filters := [⟨.and, .compare "u.age" .lt (.value (.int 18))⟩]
      orders := [.column "u.id" .descending]
      page := ⟨some 5, none⟩ }
    let sql : Sql := ⟨"DELETE FROM \"app_users\" AS \"app_u\" WHERE \"app_u\".\"ctid\" IN (" ++
        "SELECT \"app_u\".\"ctid\" FROM \"app_users\" AS \"app_u\" " ++
        "LEFT JOIN \"app_posts\" ON \"app_posts\".\"views\" > ? " ++
        "WHERE \"app_u\".\"age\" < ? ORDER BY \"app_u\".\"id\" DESC LIMIT 5)",
      [⟨.int 9, .join⟩, ⟨.int 18, .where⟩]⟩
    TableName.ofFragment "app_" "users as u" = .ok ⟨["app_users"], some "app_u"⟩ ∧
    config.compiler.delete plan = .ok sql ∧
    ∃ inner, config.compiler.SelectsColumn plan ["app_u", "ctid"] inner ∧
      sql = "DELETE FROM " ++ config.engine.dialect.quoteTable ⟨["app_users"], some "app_u"⟩ ++
        " WHERE " ++ config.engine.dialect.quotePath ["app_u", "ctid"] ++ " IN (" ++ inner ++
        ")" := by
  intro config plan sql
  have htable : TableName.ofFragment "app_" "users as u" = .ok ⟨["app_users"], some "app_u"⟩ := by
    decide +kernel
  have hsql : config.compiler.delete plan = .ok sql := by decide +kernel
  exact ⟨htable, hsql,
    (config.delete_restricts_as_select plan "users as u" _ rfl htable).2 sql hsql⟩

end QueryCompiler
