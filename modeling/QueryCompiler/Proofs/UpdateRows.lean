import QueryCompiler.Proofs.UpdatePurposes

/-! # The rows of an UPDATE

An UPDATE changes the rows that the SELECT of its plan finds: around its assignments it is written
with the text and the bindings of that SELECT (`Config.update_restricts_as_select`).
-/

namespace QueryCompiler
set_option autoImplicit false

/-! ## Assignments -/

/-- The assignments of a row to the columns of a table. -/
def Compiler.assignments (c : Compiler) (hasJoins : Bool) (table : TableName) (row : Row) :
    Except Error Sql := do
  let assignments ← row.entries.mapM (Assignment.ofEntry c.tablePrefix)
  renderAssignments c.renderer (({ updating := true } : Context).within .update) hasJoins
    table.referenceName assignments

theorem Operand.leaves_purpose {nested : Plan → Except Error Sql} {purpose : Purpose}
    {operand : Operand} :
    ∀ binding ∈ (operand.leaves purpose).flatMap (Leaf.bindings nested),
      binding.purpose = purpose := by
  intro binding hmem
  cases operand with
  | value value =>
    obtain rfl := List.mem_singleton.1 hmem
    rfl
  | column column => exact (List.not_mem_nil hmem).elim
  | raw raw =>
    rw [Operand.leaves, List.flatMap_singleton, Leaf.bindings, List.mem_map] at hmem
    obtain ⟨value, -, rfl⟩ := hmem
    rfl
  | subquery plan =>
    rw [Operand.leaves, List.flatMap_singleton, Leaf.bindings] at hmem
    cases hplan : nested plan with
    | error e =>
      rw [hplan] at hmem
      exact (List.not_mem_nil hmem).elim
    | ok sql =>
      rw [hplan] at hmem
      obtain ⟨inner, -, rfl⟩ := List.mem_map.1 hmem
      rfl

/-- The bindings of assignments are the values of the row. -/
theorem Compiler.assignments_bindings (c : Compiler) (hasJoins : Bool) (table : TableName)
    (row : Row) :
    Ensures (c.assignments hasJoins table row) fun set =>
      set.bindings = (row.yield .values).map (⟨·, .update⟩) := by
  refine (Assignment.ofEntries_leaves c.tablePrefix row).bind fun assignments hleaves => ?_
  refine (renderAssignments_written (bindingsOfLeaves c.renderer) _ hasJoins _ assignments).mono
    fun set hset => ?_
  rw [hleaves] at hset
  have hvalues : set.values = row.yield .values :=
    (hset.values fun inner _ _ => c.compileNested_values inner).trans
      (row.assignedLeaves_yield .values)
  have hpurpose : ∀ binding ∈ set.bindings, binding.purpose = .update := by
    rw [hset.1, Row.assignedLeaves, List.flatMap_assoc]
    intro binding hmem
    obtain ⟨entry, -, hentry⟩ := List.mem_flatMap.1 hmem
    exact Operand.leaves_purpose binding hentry
  rw [← hvalues]
  exact Bindings.eq_of_purpose hpurpose

/-! ## Lowering -/

variable {plan : Plan} {fragment : String} {table : TableName}

theorem Update.ofPlan_by_rowId {dialect : Dialect} {tablePrefix : String}
    (hsource : plan.source = some (.table fragment))
    (htable : TableName.ofFragment tablePrefix fragment = .ok table) {column : Name}
    (hreach : dialect.reach plan .orderedUpdateWithJoins false = .ok (.rowId column)) (row : Row) :
    Ensures (Update.ofPlan dialect tablePrefix plan row) fun update =>
      ∃ assignments filter, row.entries.mapM (Assignment.ofEntry tablePrefix) = .ok assignments ∧
        Expr.rowIdFilter tablePrefix plan table column = .ok filter ∧
        update = { table := .table table, assignments, filter := some filter } := by
  unfold Update.ofPlan
  dsimp only
  refine .ite (fun _ => .error) fun _ => ?_
  rw [Plan.target_eq hsource htable, ok_bind]
  refine .bind_any fun assignments hassignments => ?_
  rw [hreach, ok_bind]
  exact .bind_any fun filter hfilter => .ok ⟨assignments, filter, hassignments, hfilter, rfl⟩

theorem Update.ofPlan_directly {dialect : Dialect} {tablePrefix : String}
    (hsource : plan.source = some (.table fragment))
    (htable : TableName.ofFragment tablePrefix fragment = .ok table) {reach : Reach}
    (hreach : dialect.reach plan .orderedUpdateWithJoins false = .ok reach)
    (hdirect : ∀ column, reach ≠ .rowId column) (row : Row) :
    Ensures (Update.ofPlan dialect tablePrefix plan row) fun update =>
      ∃ assignments filter orderBy tables,
        row.entries.mapM (Assignment.ofEntry tablePrefix) = .ok assignments ∧
        Expr.ofFilters tablePrefix .where plan.filters = .ok filter ∧
        SortKey.ofTerms tablePrefix plan.orders = .ok orderBy ∧
        Update.tables dialect.joinStrategy tablePrefix plan table (reach = .joined) = .ok tables ∧
        update = {
          table := tables.1, assignments, source := tables.2, filter, orderBy
          limit := plan.page.limit, hasJoins := reach = .joined } := by
  unfold Update.ofPlan
  dsimp only
  refine .ite (fun _ => .error) fun _ => ?_
  rw [Plan.target_eq hsource htable, ok_bind]
  refine .bind_any fun assignments hassignments => ?_
  rw [hreach, ok_bind]
  cases reach with
  | rowId column => exact (hdirect column rfl).elim
  | single | joined =>
    refine .bind_any fun filter hfilter => .bind_any fun orderBy horderBy => ?_
    refine .bind_any fun tables htables => .ok ?_
    exact ⟨assignments, filter, orderBy, tables, hassignments, hfilter, horderBy, htables, rfl⟩

/-- What an UPDATE writes to and what it selects from. -/
theorem Update.tables_eq {tablePrefix : String} (hsource : plan.source = some (.table fragment))
    (htable : TableName.ofFragment tablePrefix fragment = .ok table) (strategy : JoinStrategy) :
    Ensures (Update.tables strategy tablePrefix plan table plan.hasJoins) fun tables =>
      ∃ joins, plan.joins.mapM (JoinExpr.ofJoin tablePrefix) = .ok joins ∧
        tables =
          if strategy = .updateFrom ∧ (plan.hasJoins ∨ table.label.isSome) then
            (.table ⟨[table.referenceName], none⟩, some ((TableExpr.table table).withJoins joins))
          else ((TableExpr.table table).withJoins joins, none) := by
  unfold Update.tables
  rw [TableExpr.ofPlan_of_table hsource htable plan rfl rfl]
  simp only [bind_assoc, pure_bind]
  refine .ite (fun h => ?_) fun h => .ite (fun hjoins => ?_) fun hjoins => .ok ?_
  · exact .bind_any fun joins hlist => .ok ⟨joins, hlist, (if_pos h).symm⟩
  · exact .bind_any fun joins hlist => .ok ⟨joins, hlist, (if_neg h).symm⟩
  · have hnil : plan.joins = [] := by simpa [Plan.hasJoins] using hjoins
    refine ⟨[], ?_, (if_neg h).symm⟩
    rw [hnil, List.mapM_nil]
    rfl

/-! ## Statements -/

/-- An UPDATE that is compiled has a table, and reaches its rows. -/
theorem Compiler.update_reached (c : Compiler) (plan : Plan) (row : Row) :
    Ensures (c.update plan row) fun _ => ∃ fragment table reach,
      plan.source = some (.table fragment) ∧ TableName.ofFragment c.tablePrefix fragment = .ok table ∧
      c.dialect.reach plan .orderedUpdateWithJoins false = .ok reach := by
  have hlowered : Ensures (Update.ofPlan c.dialect c.tablePrefix plan row) fun _ =>
      ∃ fragment table reach, plan.source = some (.table fragment) ∧
        TableName.ofFragment c.tablePrefix fragment = .ok table ∧
        c.dialect.reach plan .orderedUpdateWithJoins false = .ok reach := by
    unfold Update.ofPlan
    dsimp only
    refine .ite (fun _ => .error) fun _ => ?_
    refine (plan.target_source c.tablePrefix "UPDATE").bind ?_
    rintro table ⟨fragment, hsource, htable⟩
    refine .bind_any fun assignments _ => .bind_any fun reach hreach _ _ => ?_
    exact ⟨fragment, table, reach, hsource, htable, hreach⟩
  exact hlowered.bind fun _ hreached _ _ => hreached

theorem Compiler.update_by_rowId (c : Compiler) (hsource : plan.source = some (.table fragment))
    (htable : TableName.ofFragment c.tablePrefix fragment = .ok table) {column : Name}
    (hreach : c.dialect.reach plan .orderedUpdateWithJoins false = .ok (.rowId column)) (row : Row) :
    Ensures (c.update plan row) fun sql =>
      let rowId := c.dialect.quotePath [table.referenceName, column]
      ∃ set clauses, c.assignments false table row = .ok set ∧
        c.clauses { updating := true } plan table = .ok clauses ∧
        sql = "UPDATE " ++ c.dialect.quoteTable table ++ " SET " ++ set ++ " WHERE " ++ rowId ++
          " IN (" ++ clauses.query c.dialect rowId (!plan.orders.isEmpty) plan.page ++ ")" := by
  refine (Update.ofPlan_by_rowId hsource htable hreach row).bind ?_
  rintro _ ⟨assignments, filter, hassignments, hfilter, rfl⟩
  have hrows := c.rowIdFilter_clauses hsource htable { updating := true } column
  rw [hfilter, ok_bind] at hrows
  simp only [Compiler.render_eq, Statement.render, Update.render, TableExpr.target, TableExpr.render,
    TableExpr.renderClause, renderWriteTail_none, ok_bind, hrows, bind_assoc, pure_bind]
  refine .bind_any fun set hset => .bind_any fun clauses hclauses => .ok ?_
  refine ⟨set, clauses, ?_, hclauses, ?_⟩
  · rw [Compiler.assignments, hassignments]
    exact hset
  · simp only [Dialect.writeTopText_none, Dialect.lockSuffix, Sql.ofText_empty, Sql.append_empty,
      Sql.append_assoc]
    rfl

theorem TableExpr.withJoins_target (joins : List JoinExpr) :
    ((TableExpr.table table).withJoins joins).target = .ok table.referenceName := by
  unfold TableExpr.withJoins
  split <;> rfl

/-- The clause does not matter to a table: its joins are a clause of their own. -/
theorem TableExpr.withJoins_render_within (r : Renderer) (context : Context)
    (clause clause' : Purpose) (joins : List JoinExpr) :
    ((TableExpr.table table).withJoins joins).render r (context.within clause) none =
      ((TableExpr.table table).withJoins joins).render r (context.within clause') none := by
  unfold TableExpr.withJoins
  split
  · rw [TableExpr.render, TableExpr.render]
  · rw [TableExpr.render, TableExpr.render, TableExpr.render, TableExpr.render]
    rfl

theorem Compiler.clauses_ok (c : Compiler) {context : Context} {joins : List JoinExpr}
    {filter : Option Expr} {orderBy : Option (List SortKey)} {clauses : Clauses}
    (hjoins : plan.joins.mapM (JoinExpr.ofJoin c.tablePrefix) = .ok joins)
    (hfilter : Expr.ofFilters c.tablePrefix .where plan.filters = .ok filter)
    (horderBy : SortKey.ofTerms c.tablePrefix plan.orders = .ok orderBy)
    (hsource : ((TableExpr.table table).withJoins joins).render c.renderer (context.within .from)
      none = .ok clauses.source)
    (hwhere : Expr.renderClause c.renderer (context.within .where) " WHERE " filter =
      .ok clauses.filter)
    (horder : SortKey.renderClause c.renderer (context.within .order) orderBy =
      .ok clauses.order) :
    c.clauses context plan table = .ok clauses := by
  unfold Compiler.clauses
  rw [hjoins, ok_bind, hfilter, ok_bind, horderBy, ok_bind, hsource, ok_bind, hwhere, ok_bind,
    horder]
  rfl

/-- An UPDATE that reaches its rows directly. -/
def Clauses.update (dialect : Dialect) (table : TableName) (hasJoins : Bool) (limit : Option Nat)
    (set : Sql) (clauses : Clauses) : Sql :=
  if dialect.joinStrategy = .updateFrom ∧ (hasJoins ∨ table.label.isSome) then
    "UPDATE " ++ dialect.writeTopText limit ++ dialect.quote table.referenceName ++ " SET " ++ set ++
      " FROM " ++ clauses.source ++ clauses.filter ++ clauses.order ++ dialect.writeLimitText limit
  else
    "UPDATE " ++ dialect.writeTopText limit ++ clauses.source ++ " SET " ++ set ++ clauses.filter ++
      clauses.order ++ dialect.writeLimitText limit

theorem Compiler.update_directly (c : Compiler) (hsource : plan.source = some (.table fragment))
    (htable : TableName.ofFragment c.tablePrefix fragment = .ok table) {reach : Reach}
    (hreach : c.dialect.reach plan .orderedUpdateWithJoins false = .ok reach)
    (hdirect : ∀ column, reach ≠ .rowId column) (hjoined : decide (reach = .joined) = plan.hasJoins)
    (htop : c.dialect.usesTop = true → plan.orders = []) (row : Row) :
    Ensures (c.update plan row) fun sql =>
      ∃ set clauses, c.assignments plan.hasJoins table row = .ok set ∧
        c.clauses { updating := true } plan table = .ok clauses ∧
        sql = clauses.update c.dialect table plan.hasJoins plan.page.limit set := by
  refine (Update.ofPlan_directly hsource htable hreach hdirect row).bind ?_
  rintro _ ⟨assignments, filter, orderBy, tables, hassignments, hfilter, horderBy, htables, rfl⟩
  rw [hjoined] at htables ⊢
  obtain ⟨joins, hjoins, rfl⟩ := Update.tables_eq hsource htable _ tables htables
  have hnone : c.dialect.usesTop = true → orderBy = none := by
    intro h
    rw [htop h] at horderBy
    cases horderBy
    rfl
  simp only [Compiler.render_eq, Statement.render, Update.render,
    renderWriteTail_eq c.renderer _ hnone, bind_assoc, pure_bind, Clauses.update]
  split
  · simp only [TableExpr.target, TableExpr.render, TableExpr.renderClause, ok_bind, bind_assoc,
      pure_bind]
    refine .bind_any fun set hset => .bind_any fun source hsource => ?_
    refine .bind_any fun filter hwhere => .bind_any fun order horder => .ok ?_
    refine ⟨set, ⟨source, filter, order⟩, ?_, ?_, ?_⟩
    · rw [Compiler.assignments, hassignments]
      exact hset
    · exact c.clauses_ok hjoins hfilter horderBy hsource hwhere horder
    · have hquote : c.dialect.quoteTable ⟨[table.referenceName], none⟩ =
          c.dialect.quote table.referenceName := String.append_empty
      rw [← hquote]
      simp only [Dialect.lockSuffix, Sql.ofText_empty, Sql.append_empty, Sql.append_assoc]
      rfl
  · simp only [TableExpr.withJoins_target, TableExpr.renderClause, ok_bind]
    refine .bind_any fun source hsource => .bind_any fun set hset => ?_
    refine .bind_any fun filter hwhere => .bind_any fun order horder => .ok ?_
    refine ⟨set, ⟨source, filter, order⟩, ?_, ?_, ?_⟩
    · rw [Compiler.assignments, hassignments]
      exact hset
    · rw [TableExpr.withJoins_render_within _ _ .update .from] at hsource
      exact c.clauses_ok hjoins hfilter horderBy hsource hwhere horder
    · simp only [Sql.append_empty, Sql.append_assoc]
      rfl

/-! ## Rows -/

/-- How an engine gets at the rows of an UPDATE. -/
def Engine.updateReach (engine : Engine) (plan : Plan) : Reach := engine.reachOf plan false

/-- An UPDATE that the engine does not support has no SQL. -/
theorem Config.update_reached (config : Config) (plan : Plan) (row : Row) :
    Ensures (config.compiler.update plan row) fun _ =>
      config.engine.supportsWrite plan = true := by
  refine (config.compiler.update_reached plan row).mono ?_
  rintro _ ⟨_, _, reach, -, -, hreach⟩
  exact ((Engine.reach_ok_iff ..).1 hreach).1

/-- FROM of a plan is that of the plan without its other clauses. -/
theorem Compiler.clauses_source (c : Compiler) (context : Context) :
    Ensures (c.clauses context plan table) fun clauses =>
      c.clauses context { source := plan.source, joins := plan.joins } table =
        .ok ⟨clauses.source, {}, {}⟩ := by
  refine .bind_any fun joins hjoins => .bind_any fun filter _ => .bind_any fun orderBy _ => ?_
  refine .bind_any fun source hsource => .bind_any fun where_ _ => .bind_any fun order _ => .ok ?_
  have hfilter : Expr.ofFilters c.tablePrefix .where [] = .ok none := rfl
  have horderBy : SortKey.ofTerms c.tablePrefix [] = .ok none := rfl
  refine c.clauses_ok hjoins hfilter horderBy hsource ?_ ?_
  · rw [Expr.renderClause]
  · rw [SortKey.renderClause]

theorem Compiler.clauses_source_of_single (c : Compiler) (context : Context)
    (hjoins : plan.hasJoins = false) :
    Ensures (c.clauses context plan table) fun clauses =>
      clauses.source = Sql.ofText (c.dialect.quoteTable table) := by
  have hnil : plan.joins = [] := by simpa [Plan.hasJoins] using hjoins
  unfold Compiler.clauses
  rw [hnil, List.mapM_nil, pure_bind]
  refine .bind_any fun filter _ => .bind_any fun orderBy _ => ?_
  rw [TableExpr.withJoins, TableExpr.render, ok_bind]
  refine .bind_any fun where_ _ => .bind_any fun order _ => .ok ?_
  exact Sql.append_empty _

theorem Sql.ofText_selectAll :
    Sql.ofText "SELECT * FROM " = Sql.ofText "SELECT * " ++ Sql.ofText "FROM " := rfl

theorem Config.select_source (config : Config) (hsource : plan.source = some (.table fragment))
    (htable : TableName.ofFragment config.tablePrefix fragment = .ok table) {clauses : Clauses}
    (hclauses : config.compiler.clauses {} plan table = .ok clauses) :
    config.compiler.select { source := plan.source, joins := plan.joins } =
      .ok ("SELECT * FROM " ++ clauses.source) := by
  let only : Plan := { source := plan.source, joins := plan.joins }
  have honly : only.source = some (.table fragment) := hsource
  have hselect : config.compiler.select { only.core with page := config.engine.trailingPage {} } = _ :=
    config.select_trailingPage honly htable rfl
      (Compiler.clauses_source config.compiler {} clauses hclauses)
  have hpage : config.engine.trailingPage {} = {} := by
    unfold Engine.trailingPage
    split <;> rfl
  have hlimit : config.engine.dialect.writeLimitText none = "" := by
    cases config.engine <;> rfl
  rw [hpage] at hselect
  refine hselect.trans ?_
  show Except.ok (_ ++ (_ ++ _ ++ _ ++ _ ++ Sql.ofText (config.engine.dialect.writeLimitText none))) = _
  rw [hlimit, Sql.ofText_selectAll]
  simp only [Sql.ofText_empty, Sql.append_empty, Sql.append_assoc]

/-- An UPDATE with the clauses of a SELECT behind its assignments. -/
theorem Clauses.update_inUpdate_server (engine : Engine) (hasJoins : Bool) (limit : Option Nat)
    (set : Sql) (clauses : Clauses) (hserver : engine = .sqlserver ∧ (hasJoins ∨ table.label.isSome)) :
    clauses.inUpdate.update engine.dialect table hasJoins limit set =
      "UPDATE " ++ engine.leadingLimit limit ++ engine.dialect.quote table.referenceName ++ " SET " ++
        set ++ " " ++ Sql.inUpdate ("FROM " ++ clauses.source ++ clauses.filter ++ clauses.order ++
          engine.dialect.writeLimitText limit) := by
  have hfrom : Sql.ofText " FROM " = Sql.ofText " " ++ Sql.ofText "FROM " := rfl
  have hstrategy := (Engine.joinStrategy_eq_updateFrom engine).2 hserver.1
  rw [Clauses.update, if_pos ⟨hstrategy, hserver.2⟩, Engine.leadingLimit_eq, hfrom]
  simp only [Sql.inUpdate_append, Sql.inUpdate_ofText, Sql.append_assoc]
  rfl

/-- An UPDATE with the source of a SELECT in front of its assignments, and the other clauses behind. -/
theorem Clauses.update_inUpdate_other (engine : Engine) (hasJoins : Bool) (limit : Option Nat)
    (set : Sql) (clauses : Clauses)
    (hserver : ¬(engine = .sqlserver ∧ (hasJoins ∨ table.label.isSome)))
    (hfilter : clauses.filter.inUpdate = clauses.filter)
    (horder : clauses.order.inUpdate = clauses.order) :
    clauses.inUpdate.update engine.dialect table hasJoins limit set =
      "UPDATE " ++ engine.leadingLimit limit ++ clauses.source.inUpdate ++ " SET " ++ set ++
        (clauses.filter ++ clauses.order ++ engine.dialect.writeLimitText limit) := by
  have hstrategy := (Engine.joinStrategy_eq_updateFrom engine).1
  rw [Clauses.update, if_neg fun h => hserver ⟨hstrategy h.1, h.2⟩, Engine.leadingLimit_eq,
    Clauses.inUpdate, hfilter, horder]
  simp only [Sql.append_assoc]

theorem Config.update_directly (config : Config) (hsource : plan.source = some (.table fragment))
    (htable : TableName.ofFragment config.tablePrefix fragment = .ok table)
    (hsupports : config.engine.supportsWrite plan = true)
    (hdirect : ∀ column, config.engine.updateReach plan ≠ .rowId column) (row : Row) :
    Ensures (config.compiler.update plan row) fun sql =>
      ∃ set clauses, config.compiler.assignments plan.hasJoins table row = .ok set ∧
        config.compiler.clauses {} plan table = .ok clauses ∧
        sql = clauses.inUpdate.update config.engine.dialect table plan.hasJoins plan.page.limit set := by
  intro sql hsql
  have hreached := (Engine.reach_ok_iff config.engine plan .orderedUpdateWithJoins false _).2
    ⟨hsupports, rfl⟩
  have hjoined := Engine.reach_joined_iff hdirect
  obtain ⟨set, clauses', hset, hclauses', rfl⟩ := Compiler.update_directly config.compiler hsource
    htable hreached hdirect hjoined (Engine.orders_eq_nil hsupports) row sql hsql
  rw [Compiler.clauses_updating, bind_pure_eq_ok_iff] at hclauses'
  obtain ⟨clauses, hclauses, rfl⟩ := hclauses'
  exact ⟨set, clauses, hset, hclauses, rfl⟩

/-- An UPDATE of the rows of a plan over a table assigns the values of its row, and picks the rows with
the text and the bindings of their SELECT. The bindings of joins get a purpose of their own, and no
others change theirs. -/
theorem Config.update_restricts_as_select (config : Config) (plan : Plan) (row : Row)
    (fragment : String) (table : TableName) (hsource : plan.source = some (.table fragment))
    (htable : TableName.ofFragment config.tablePrefix fragment = .ok table) :
    Ensures (config.compiler.update plan row) fun sql =>
      ∃ set,
        config.compiler.assignments (config.engine.updateReach plan = .joined) table row = .ok set ∧
        set.bindings = (row.yield .values).map (⟨·, .update⟩) ∧
        match config.engine.updateReach plan with
        | .rowId column =>
          let rowId := config.engine.dialect.quotePath [table.referenceName, column]
          ∃ inner, config.compiler.SelectsColumn plan [table.referenceName, column] inner ∧
            sql = "UPDATE " ++ config.engine.dialect.quoteTable table ++ " SET " ++ set ++ " WHERE " ++
              rowId ++ " IN (" ++ inner.inUpdate ++ ")"
        | .single | .joined =>
          let core := { plan.core with page := config.engine.trailingPage plan.page }
          if config.engine = .sqlserver ∧ (plan.hasJoins ∨ table.label.isSome) then
            ∃ rest : Sql, config.compiler.select core = .ok ("SELECT * " ++ rest) ∧
              sql = "UPDATE " ++ config.engine.leadingLimit plan.page.limit ++
                config.engine.dialect.quote table.referenceName ++ " SET " ++ set ++ " " ++
                rest.inUpdate
          else
            ∃ source rest : Sql,
              config.compiler.select { source := plan.source, joins := plan.joins } =
                .ok ("SELECT * FROM " ++ source) ∧
              config.compiler.select core = .ok ("SELECT * FROM " ++ source ++ rest) ∧
              (plan.hasJoins = false →
                source = Sql.ofText (config.engine.dialect.quoteTable table)) ∧
              sql = "UPDATE " ++ config.engine.leadingLimit plan.page.limit ++ source.inUpdate ++
                " SET " ++ set ++ rest := by
  intro sql hsql
  have hsupports := config.update_reached plan row sql hsql
  cases hreach : config.engine.updateReach plan with
  | rowId column =>
    have hreached := (Engine.reach_ok_iff config.engine plan .orderedUpdateWithJoins false _).2
      ⟨hsupports, hreach⟩
    obtain ⟨set, clauses', hset, hclauses', rfl⟩ :=
      Compiler.update_by_rowId config.compiler hsource htable hreached row sql hsql
    rw [Compiler.clauses_updating, bind_pure_eq_ok_iff] at hclauses'
    obtain ⟨clauses, hclauses, rfl⟩ := hclauses'
    obtain ⟨hempty, hwildcard⟩ := Engine.rowId_ne hreach
    refine ⟨set, hset, Compiler.assignments_bindings _ _ _ _ set hset, ?_⟩
    refine ⟨_, Compiler.selectsColumn _ hsource htable hempty hwildcard hclauses, ?_⟩
    rw [Clauses.query_inUpdate]
    rfl
  | single | joined =>
    have hdirect : ∀ column, config.engine.updateReach plan ≠ .rowId column :=
      fun column h => nomatch hreach.symm.trans h
    obtain ⟨set, clauses, hset, hclauses, hsql⟩ :=
      config.update_directly hsource htable hsupports hdirect row sql hsql
    have hoffset := Engine.offset_eq_none hsupports hdirect
    have hselect := config.select_trailingPage hsource htable hoffset hclauses
    have hfrom := config.select_source hsource htable hclauses
    obtain ⟨hfilter, horder⟩ := config.compiler.clauses_inUpdate_eq clauses hclauses
    have hsingle := fun hjoins =>
      config.compiler.clauses_source_of_single {} hjoins clauses hclauses
    rw [← Engine.reach_joined_iff hdirect, ← Engine.updateReach, hreach] at hset
    refine ⟨set, hset, config.compiler.assignments_bindings _ _ _ set hset, ?_⟩
    dsimp only
    split
    · next hserver =>
      exact ⟨_, hselect, hsql.trans (clauses.update_inUpdate_server _ _ _ _ hserver)⟩
    · next hserver =>
      refine ⟨clauses.source, clauses.filter ++ clauses.order ++
        config.engine.dialect.writeLimitText plan.page.limit, hfrom, ?_, hsingle,
        hsql.trans (clauses.update_inUpdate_other _ _ _ _ hserver hfilter horder)⟩
      rw [hselect, Sql.ofText_selectAll]
      simp only [Sql.append_assoc]

/-- A limited UPDATE with a join: the clauses stand behind the assignments, and the limit in front. -/
theorem Config.update_restricts_limited_join :
    let config : Config := ⟨.sqlserver, "app_"⟩
    let plan : Plan := {
      source := some (.table "users as u")
      joins := [⟨.left, .table "posts", [⟨.and, .compare "posts.views" .gt (.value (.int 9))⟩]⟩]
      filters := [⟨.and, .compare "u.age" .lt (.value (.int 18))⟩]
      page := ⟨some 5, none⟩ }
    let row := Row.ofList [("age", .value (.int 20))]
    let sql : Sql := ⟨"UPDATE TOP (5) [app_u] SET [app_u].[age] = ? FROM [app_users] AS [app_u] " ++
        "LEFT JOIN [app_posts] ON [app_posts].[views] > ? WHERE [app_u].[age] < ?",
      [⟨.int 20, .update⟩, ⟨.int 9, .updateJoin⟩, ⟨.int 18, .where⟩]⟩
    TableName.ofFragment "app_" "users as u" = .ok ⟨["app_users"], some "app_u"⟩ ∧
    config.compiler.update plan row = .ok sql ∧
    ∃ set, set.bindings = [⟨.int 20, .update⟩] ∧
      ∃ rest : Sql,
        config.compiler.select { plan.core with page := {} } = .ok ("SELECT * " ++ rest) ∧
        sql = "UPDATE " ++ Sql.ofText "TOP (5) " ++ config.engine.dialect.quote "app_u" ++ " SET " ++
          set ++ " " ++ rest.inUpdate := by
  intro config plan row sql
  have htable : TableName.ofFragment "app_" "users as u" = .ok ⟨["app_users"], some "app_u"⟩ := by
    decide +kernel
  have hsql : config.compiler.update plan row = .ok sql := by decide +kernel
  obtain ⟨set, -, hbindings, hshape⟩ :=
    config.update_restricts_as_select plan row "users as u" _ rfl htable sql hsql
  exact ⟨htable, hsql, set, hbindings, hshape⟩

end QueryCompiler
