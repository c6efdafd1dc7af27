import QueryCompiler.Proofs.InsertRows
import QueryCompiler.Proofs.UpdateRows

/-! # The columns that an UPDATE assigns

An UPDATE over joined tables writes the qualifier of every column that it assigns. All others write the
last name of a column alone, whatever stood in front of it. So an assigned column is the one that was
named exactly if the statement has joins, or the column has no qualifier, or it has that of the table
that is written to (`Config.update_assigns_named_columns`). A plan with joins whose rows are reached by
their identifier assigns a column of another table to a column of its own
(`Config.update_drops_joined_qualifier`).
-/

namespace QueryCompiler
set_option autoImplicit false

/-! ## Paths -/

namespace Path

variable {target : Name} {path : Path}

theorem qualify_of_isQualified (h : path.isQualified = true) : path.qualify target = path := if_pos h

theorem isQualified_iff : path.isQualified = true ↔ 1 < path.length := decide_eq_true_iff

theorem qualify_qualify (h : path ≠ []) : (path.qualify target).qualify target = path.qualify target := by
  match path, h with
  | [name], _ => rfl
  | first :: second :: rest, _ =>
    have hqualified : isQualified (first :: second :: rest) = true := isQualified_iff.2 (by simp)
    rw [qualify_of_isQualified hqualified, qualify_of_isQualified hqualified]

theorem eq_singleton_of_last {name : Name} (hlast : path.getLast? = some name)
    (h : ¬path.isQualified = true) : path = [name] := by
  rw [isQualified_iff] at h
  match path, hlast with
  | [_], hlast =>
    rw [List.getLast?_singleton, Option.some.injEq] at hlast
    rw [hlast]
  | _ :: _ :: _, _ => simp at h

theorem length_prefixQualifier (tablePrefix : String) (path : Path) :
    (path.prefixQualifier tablePrefix).length = path.length := by
  by_cases hlength : path.length < 2
  · rw [prefixQualifier_of_length_lt tablePrefix hlength]
  · obtain ⟨schema, table, column, rfl⟩ := exists_column (Nat.not_lt.1 hlength)
    rw [prefixQualifier_append]
    simp

theorem prefixQualifier_eq_singleton_iff (tablePrefix : String) (name : Name) :
    path.prefixQualifier tablePrefix = [name] ↔ path = [name] := by
  constructor
  · intro h
    have hlength := length_prefixQualifier tablePrefix path
    rw [h, List.length_singleton] at hlength
    rwa [prefixQualifier_of_length_lt tablePrefix (by omega)] at h
  · rintro rfl
    rfl

/-- The prefix makes no difference to whether a column is qualified with the name of a table. -/
theorem prefixQualifier_eq_pair_iff (tablePrefix : String) (table name : Name) :
    path.prefixQualifier tablePrefix = [tablePrefix ++ table, name] ↔ path = [table, name] := by
  match path with
  | [] => simp [prefixQualifier]
  | [_] => simp [prefixQualifier]
  | [_, _] => simp [prefixQualifier]
  | first :: second :: third :: rest =>
    refine iff_of_false (fun h => ?_) (by simp)
    have hlength := length_prefixQualifier tablePrefix (first :: second :: third :: rest)
    rw [h] at hlength
    simp at hlength

end Path

/-! ## Texts -/

namespace Dialect

variable (dialect : Dialect) {target : Name} {path : Path}

/-- The text writes the column of a path, where the columns of `target` may go without their table. -/
def Denotes (target : Name) (path : Path) (text : String) : Prop :=
  ∃ written : Path, text = dialect.quotePath written ∧ written.qualify target = path.qualify target

theorem length_quote_le {name : Name} (hlast : path.getLast? = some name) :
    (dialect.quote name).length ≤ (dialect.quotePath path).length := by
  induction path with
  | nil => simp at hlast
  | cons first rest ih =>
    by_cases hrest : rest = []
    · subst hrest
      rw [List.getLast?_singleton, Option.some.injEq] at hlast
      exact Nat.le_of_eq (by rw [hlast, quotePath_singleton])
    · have hle := ih (by rwa [List.getLast?_cons_of_ne_nil hrest] at hlast)
      rw [quotePath_cons dialect first hrest, String.length_append]
      omega

/-- A qualifier takes room. -/
theorem length_quote_lt {name : Name} (hlast : path.getLast? = some name)
    (hqualified : path.isQualified = true) :
    (dialect.quote name).length < (dialect.quotePath path).length := by
  match path, hlast, Path.isQualified_iff.1 hqualified with
  | first :: second :: rest, hlast, _ =>
    have hle : (dialect.quote name).length ≤ (dialect.quotePath (second :: rest)).length :=
      dialect.length_quote_le hlast
    have hdot : ".".length = 1 := rfl
    rw [quotePath_cons dialect first (List.cons_ne_nil second rest), String.length_append,
      String.length_append, hdot]
    omega

/-- With its qualifier kept or added, a column is the one that was named. -/
theorem denotes_qualify (h : path ≠ []) :
    dialect.Denotes target path (dialect.quotePath (path.qualify target)) :=
  ⟨path.qualify target, rfl, Path.qualify_qualify h⟩

/-- Without its qualifier, a column is the one that was named if it had none, or had that of the table
that is written to. -/
theorem denotes_quote_iff {name : Name} (hlast : path.getLast? = some name) :
    dialect.Denotes target path (dialect.quote name) ↔ path = [name] ∨ path = [target, name] := by
  constructor
  · rintro ⟨written, htext, hsame⟩
    by_cases hpath : path.isQualified = true
    · rw [Path.qualify_of_isQualified hpath] at hsame
      by_cases hwritten : written.isQualified = true
      · rw [Path.qualify_of_isQualified hwritten] at hsame
        subst hsame
        have hlt := dialect.length_quote_lt hlast hpath
        rw [htext] at hlt
        exact (Nat.lt_irrefl _ hlt).elim
      · -- what is written has lost the target's own name
        rw [Path.qualify, if_neg hwritten] at hsame
        subst hsame
        have hne : written ≠ [] := by
          rintro rfl
          simp [Path.isQualified] at hpath
        rw [List.getLast?_cons_of_ne_nil hne] at hlast
        rw [Path.eq_singleton_of_last hlast hwritten]
        exact .inr rfl
    · exact .inl (Path.eq_singleton_of_last hlast hpath)
  · rintro (rfl | rfl)
    · exact ⟨[name], rfl, rfl⟩
    · exact ⟨[name], rfl, rfl⟩

theorem assignedText_eq (hasJoins : Bool) {name : Name} (hlast : path.getLast? = some name) :
    dialect.assignedText hasJoins target path =
      if hasJoins = true then dialect.quotePath (path.qualify target) else dialect.quote name := by
  rw [assignedText, hlast]

theorem denotes_assignedText_iff (hasJoins : Bool) {name : Name}
    (hlast : path.getLast? = some name) :
    dialect.Denotes target path (dialect.assignedText hasJoins target path) ↔
      hasJoins = true ∨ path = [name] ∨ path = [target, name] := by
  rw [assignedText_eq dialect hasJoins hlast]
  cases hasJoins with
  | true =>
    have hne : path ≠ [] := by
      rintro rfl
      cases hlast
    exact iff_of_true (dialect.denotes_qualify hne) (.inl rfl)
  | false =>
    simp only [Bool.false_eq_true, if_false, false_or]
    exact dialect.denotes_quote_iff hlast

end Dialect

/-! ## Assignments -/

namespace Compiler

variable (c : Compiler)

/-- The SQL of an operand that an UPDATE assigns. -/
def updateOperand : Operand → Except Error Sql :=
  c.operandAt (({ updating := true } : Context).within .update)

/-- The SQL of one assignment: a column without alias and JSON steps, and the operand. -/
def Assigns (hasJoins : Bool) (target : Name) (entry : String × Operand) (sql : Sql) : Prop :=
  ∃ path value, parseColumn entry.1 = .ok ⟨path, [], none⟩ ∧ c.updateOperand entry.2 = .ok value ∧
    sql = c.dialect.assignedText hasJoins target (path.prefixQualifier c.tablePrefix) ++ " = " ++ value

theorem assignedColumn_shape (tablePrefix fragment : String) :
    Ensures (assignedColumn tablePrefix fragment) fun column =>
      ∃ path, parseColumn fragment = .ok ⟨path, [], none⟩ ∧
        column = path.prefixQualifier tablePrefix := by
  refine .bind_any fun column hcolumn => .ite (fun _ => .error) fun hplain => .ok ?_
  obtain ⟨⟨path, json, label⟩, hparse, rfl⟩ := ColumnRef.ofFragment_eq_ok_iff.1 hcolumn
  simp only [ColumnRef.withPrefix, Bool.or_eq_true, Bool.not_eq_true', not_or] at hplain
  obtain ⟨⟨hlabel, hjson⟩, -⟩ := hplain
  rw [Option.not_isSome_iff_eq_none] at hlabel
  rw [Bool.not_eq_false, List.isEmpty_iff] at hjson
  exact ⟨path, by rw [hparse, hlabel, hjson], rfl⟩

/-- The SET list of an UPDATE has one entry for each entry of the row, in order. -/
theorem assignments_entries (hasJoins : Bool) (table : TableName) (row : Row) :
    Ensures (c.assignments hasJoins table row) fun set =>
      ∃ sqls, List.Forall₂ (c.Assigns hasJoins table.referenceName) row.entries sqls ∧
        set = Sql.join ", " sqls := by
  intro set hset
  rw [assignments, bind_eq_ok_iff] at hset
  obtain ⟨assignments, hentries, hset⟩ := hset
  rw [renderAssignments, bind_pure_eq_ok_iff] at hset
  obtain ⟨sqls, hsqls, rfl⟩ := hset
  refine ⟨sqls, ?_, rfl⟩
  rw [mapM_eq_ok_iff] at hentries hsqls
  refine (exists_forall₂_and_iff.1 ⟨assignments, hentries, hsqls⟩).imp ?_
  rintro entry sql ⟨⟨column, expr⟩, hentry, hsql⟩
  obtain ⟨value, hvalue, rfl⟩ := bind_pure_eq_ok_iff.1 hsql
  obtain ⟨_, hcolumn, hentry⟩ := bind_eq_ok_iff.1 hentry
  obtain ⟨_, hexpr, heq⟩ := bind_pure_eq_ok_iff.1 hentry
  cases heq
  obtain ⟨path, hparse, rfl⟩ := assignedColumn_shape c.tablePrefix entry.1 column hcolumn
  exact ⟨path, value, hparse, bind_eq_ok_iff.2 ⟨expr, hexpr, hvalue⟩, rfl⟩

end Compiler

/-! ## Statements -/

namespace Config

/-- An UPDATE with a given SET list. -/
def updateSql (config : Config) (plan : Plan) (table : TableName) (set : Sql) (clauses : Clauses) :
    Sql :=
  match config.engine.updateReach plan with
  | .rowId column =>
    "UPDATE " ++ config.engine.dialect.quoteTable table ++ " SET " ++ set ++ " WHERE " ++
      config.engine.dialect.quotePath [table.referenceName, column] ++ " IN (" ++
      clauses.query config.engine.dialect
        (config.engine.dialect.quotePath [table.referenceName, column]) (!plan.orders.isEmpty)
        plan.page ++ ")"
  | .single | .joined =>
    clauses.update config.engine.dialect table plan.hasJoins plan.page.limit set

/-- An UPDATE is put together from its SET list and the clauses of its plan. -/
theorem update_eq_updateSql (config : Config) {plan : Plan} {fragment : String} {table : TableName}
    (hsource : plan.source = some (.table fragment))
    (htable : TableName.ofFragment config.tablePrefix fragment = .ok table) (row : Row) :
    Ensures (config.compiler.update plan row) fun sql => ∃ set clauses,
      config.compiler.assignments (config.engine.updateReach plan = .joined) table row = .ok set ∧
        config.compiler.clauses { updating := true } plan table = .ok clauses ∧
        sql = config.updateSql plan table set clauses := by
  intro sql hsql
  have hsupports := config.update_reached plan row sql hsql
  have hreached : ∀ {reach}, config.engine.updateReach plan = reach →
      config.engine.dialect.reach plan .orderedUpdateWithJoins false = .ok reach := fun h =>
    (Engine.reach_ok_iff config.engine plan .orderedUpdateWithJoins false _).2 ⟨hsupports, h⟩
  unfold updateSql
  cases hreach : config.engine.updateReach plan with
  | rowId column =>
    exact config.compiler.update_by_rowId hsource htable (hreached hreach) row sql hsql
  | single | joined =>
    have hdirect : ∀ column, config.engine.updateReach plan ≠ .rowId column := by
      intro column h
      cases hreach.symm.trans h
    have hjoined := Engine.reach_joined_iff hdirect
    obtain ⟨set, clauses, hset, hclauses, rfl⟩ := config.compiler.update_directly hsource htable
      (hreached rfl) hdirect hjoined (Engine.orders_eq_nil hsupports) row sql hsql
    rw [← hjoined, ← Engine.updateReach, hreach] at hset
    exact ⟨set, clauses, hset, hclauses, rfl⟩

/-- The SET list of an UPDATE has one entry for each entry of the row, in order. With joined tables every
column is written with its qualifier, or else that of the table that is written to; without them it is
written with its last name alone. The column is then the one that was named exactly if it had no
qualifier, or had the alias of the table that is written to, or else its name. -/
theorem update_assigns_named_columns (config : Config) (plan : Plan) (row : Row) :
    Ensures (config.compiler.update plan row) fun sql => ∃ fragment table clauses sqls,
      plan.source = some (.table fragment) ∧ parseTable fragment = .ok table ∧
        config.compiler.clauses { updating := true } plan (table.withPrefix config.tablePrefix) =
          .ok clauses ∧
        sql = config.updateSql plan (table.withPrefix config.tablePrefix) (Sql.join ", " sqls) clauses ∧
        List.Forall₂ (fun entry sql => ∃ (path : Path) (name : Name) (text : String) (value : Sql),
          parseColumn entry.1 = .ok ⟨path, [], none⟩ ∧ path.getLast? = some name ∧
            config.compiler.updateOperand entry.2 = .ok value ∧ sql = text ++ " = " ++ value ∧
            text = (if config.engine.updateReach plan = .joined then
                config.engine.dialect.quotePath ((path.prefixQualifier config.tablePrefix).qualify
                  (config.tablePrefix ++ table.referenceName))
              else config.engine.dialect.quote name) ∧
            (config.engine.dialect.Denotes (config.tablePrefix ++ table.referenceName)
                (path.prefixQualifier config.tablePrefix) text ↔
              config.engine.updateReach plan = .joined ∨ path = [name] ∨
                path = [table.referenceName, name])) row.entries sqls := by
  intro sql hsql
  obtain ⟨fragment, _, -, hsource, htable, -⟩ := config.compiler.update_reached plan row sql hsql
  obtain ⟨table, hparse, rfl⟩ := TableName.ofFragment_eq_ok_iff.1 htable
  obtain ⟨set, clauses, hset, hclauses, rfl⟩ :=
    config.update_eq_updateSql hsource htable row sql hsql
  obtain ⟨sqls, hsqls, rfl⟩ := config.compiler.assignments_entries _ _ row set hset
  refine ⟨fragment, table, clauses, sqls, hsource, hparse, hclauses, rfl, hsqls.imp ?_⟩
  rintro entry sql ⟨path, value, hcolumn, hvalue, rfl⟩
  have hpath := (parseColumn_writable entry.1 _ hcolumn).path
  obtain ⟨name, hlast⟩ := Option.ne_none_iff_exists'.1 (mt List.getLast?_eq_none_iff.1 hpath)
  have htarget : (table.withPrefix config.compiler.tablePrefix).referenceName =
      config.tablePrefix ++ table.referenceName :=
    TableName.referenceName_withPrefix (parseTable_writable fragment table hparse).path config.tablePrefix
  have hlast' : (path.prefixQualifier config.tablePrefix).getLast? = some name := by
    rw [Path.getLast?_prefixQualifier, hlast]
  refine ⟨path, name, _, value, hcolumn, hlast, hvalue, rfl, ?_, ?_⟩
  · rw [htarget]
    refine (Dialect.assignedText_eq _ _ hlast').trans ?_
    simp only [decide_eq_true_eq]
    rfl
  · rw [htarget]
    refine (Dialect.denotes_assignedText_iff _ _ hlast').trans ?_
    rw [decide_eq_true_eq, Path.prefixQualifier_eq_singleton_iff, Path.prefixQualifier_eq_pair_iff]

/-- A user of a joined plan is renamed through the alias of the table. -/
theorem update_assigns_named_columns_alias :
    let config : Config := ⟨.postgres, "app_"⟩
    let plan : Plan := {
      source := some (.table "users as u")
      joins := [⟨.inner, .table "posts", [⟨.and, .compare "posts.user_id" .eq (.column "u.id")⟩]⟩] }
    let row := Row.ofList [("u.name", .value (.text "x"))]
    let table : TableName := ⟨["app_users"], some "app_u"⟩
    (config.compiler.update plan row).toBool ∧
      Ensures (config.compiler.update plan row) fun sql =>
        ∃ (text : String) (value : Sql) (clauses : Clauses),
          sql = config.updateSql plan table (text ++ " = " ++ value) clauses ∧
            config.engine.dialect.Denotes "app_u" ["app_u", "name"] text := by
  intro config plan row table
  refine ⟨by decide +kernel, fun sql hsql => ?_⟩
  obtain ⟨fragment, own, clauses, sqls, hsource, hparse, -, hshape, hentries⟩ :=
    config.update_assigns_named_columns plan row sql hsql
  have htable : parseTable "users as u" = .ok ⟨["users"], some "u"⟩ := by decide +kernel
  have hcolumn : parseColumn "u.name" = .ok ⟨["u", "name"], [], none⟩ := by decide +kernel
  cases hsource
  cases hparse.symm.trans htable
  obtain ⟨entry, rest, hentry, hrest, rfl⟩ := List.forall₂_cons_left_iff.1 hentries
  obtain rfl := List.forall₂_nil_left_iff.1 hrest
  obtain ⟨path, name, text, value, hpath, hlast, -, rfl, -, hdenotes⟩ := hentry
  cases hpath.symm.trans hcolumn
  cases hlast
  exact ⟨text, value, clauses, hshape, hdenotes.2 (.inr (.inr rfl))⟩

/-- The title of a post becomes that of a user: the rows are reached by their identifier, and the
qualifier is gone. -/
theorem update_drops_joined_qualifier :
    let config : Config := ⟨.postgres, ""⟩
    let plan : Plan := {
      source := some (.table "users")
      joins := [⟨.inner, .table "posts", [⟨.and, .compare "posts.user_id" .eq (.column "users.id")⟩]⟩] }
    config.compiler.update plan (Row.ofList [("posts.title", .value (.text "x"))]) =
        .ok ⟨"UPDATE \"users\" SET \"title\" = ? WHERE \"users\".\"ctid\" IN (SELECT \"users\".\"ctid\" " ++
          "FROM \"users\" INNER JOIN \"posts\" ON \"posts\".\"user_id\" = \"users\".\"id\")",
          [⟨.text "x", .update⟩]⟩ ∧
      ¬config.engine.dialect.Denotes "users" ["posts", "title"] "\"title\"" := by
  intro config plan
  refine ⟨by decide +kernel, fun h => ?_⟩
  have hquote : config.engine.dialect.quote "title" = "\"title\"" := by decide +kernel
  rw [← hquote, Dialect.denotes_quote_iff _ rfl] at h
  simp at h

end Config

end QueryCompiler
