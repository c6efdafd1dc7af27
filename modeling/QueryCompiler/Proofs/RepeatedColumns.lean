import QueryCompiler.Proofs.AssignedColumns
import QueryCompiler.Proofs.JsonSelectors

/-! # Columns that are written twice

A row has no fragment twice, since setting a column replaces what was set for it before. But a
fragment is compared as it is written, and a column has more than one spelling: `id` and `"id"` are
read as the same name, and an UPDATE of one table writes `users.id` as it writes `id`. A statement has
a column twice exactly if its row has two spellings of it (`Compiler.column_repeats_iff_respelled`),
and then it is compiled all the same (`Compiler.respelled_column_repeats`).
-/

namespace QueryCompiler
set_option autoImplicit false

/-! ## Rows -/

namespace Row

/-- The calls set a column under two spellings: fragments that differ, and are read alike. -/
def Respells (alike : ColumnRef → ColumnRef → Prop) (calls : List (String × Operand)) : Prop :=
  ∃ column ∈ calls.map (·.1), ∃ other ∈ calls.map (·.1), column ≠ other ∧
    ∃ read read', parseColumn column = .ok read ∧ parseColumn other = .ok read' ∧ alike read read'

/-- It is enough to know what is alike among columns as the calls have them. -/
theorem Respells.imp {alike alike' : ColumnRef → ColumnRef → Prop} {calls : List (String × Operand)}
    (h : Respells alike calls)
    (himp : ∀ column ∈ calls.map (·.1), ∀ other ∈ calls.map (·.1), ∀ read read',
      parseColumn column = .ok read → parseColumn other = .ok read' → alike read read' →
        alike' read read') :
    Respells alike' calls := by
  obtain ⟨column, hcolumn, other, hother, hne, read, read', hread, hread', halike⟩ := h
  exact ⟨column, hcolumn, other, hother, hne, read, read', hread, hread',
    himp column hcolumn other hother read read' hread hread' halike⟩

/-- Of what is written for the columns of a row, one entry is like another exactly if the row has two
spellings that are written alike. -/
theorem nodup_iff_not_respells {α : Type} (write : ColumnRef → α) {calls : List (String × Operand)}
    {texts : List α}
    (h : List.Forall₂ (fun column text => ∃ read, parseColumn column = .ok read ∧ write read = text)
      (firstSet calls) texts) :
    texts.Nodup ↔ ¬Respells (fun read read' => write read = write read') calls := by
  let written (column : String) : Option α := (parseColumn column).toOption.map write
  have hwritten : (firstSet calls).map written = texts.map some := by
    rw [← List.forall₂_eq_eq_eq, List.forall₂_map_left_iff, List.forall₂_map_right_iff]
    refine h.imp ?_
    rintro column text ⟨read, hread, rfl⟩
    simp only [written, hread]
    rfl
  have hread : ∀ column ∈ calls.map (·.1), ∃ read, parseColumn column = .ok read := by
    intro column hcolumn
    obtain ⟨_, read, hparse, -⟩ := exists_forall₂_iff.1 ⟨texts, h⟩ column (List.mem_eraseDups.2 hcolumn)
    exact ⟨read, hparse⟩
  rw [← List.nodup_map_iff (fun _ _ => Option.some.inj), ← hwritten,
    List.nodup_map_iff_inj_on (columns_ofList calls ▸ (ofList calls).nodup)]
  simp only [firstSet, List.mem_eraseDups]
  constructor
  · rintro hinj ⟨column, hcolumn, other, hother, hne, read, read', hparse, hparse', hsame⟩
    refine hne (hinj column hcolumn other hother ?_)
    simp only [written, hparse, hparse', Except.toOption, Option.map_some, hsame]
  · intro hnone column hcolumn other hother hsame
    obtain ⟨read, hparse⟩ := hread column hcolumn
    obtain ⟨read', hparse'⟩ := hread other hother
    simp only [written, hparse, hparse', Except.toOption, Option.map_some, Option.some.injEq] at hsame
    by_contra hne
    exact hnone ⟨column, hcolumn, other, hother, hne, read, read', hparse, hparse', hsame⟩

end Row

/-! ## Quoted names -/

namespace Dialect

variable {dialect : Dialect} (hquotes : dialect.DefaultQuotes)

include hquotes in
/-- No two names are quoted alike. -/
theorem quote_injective : Function.Injective dialect.quote := by
  intro name name' h
  have hstar : wildcard.toList = ['*'] := rfl
  have hchars : (quoteBetween dialect.openQuote dialect.closeQuote name).toList =
      (quoteBetween dialect.openQuote dialect.closeQuote name').toList := by
    rw [← hquotes, h]
  by_cases hwild : name = wildcard
  · by_cases hwild' : name' = wildcard
    · rw [hwild, hwild']
    · simp [quoteBetween, hwild, hwild', hstar] at hchars
  · by_cases hwild' : name' = wildcard
    · simp [quoteBetween, hwild, hwild', hstar] at hchars
    · have hends : ([] : List Char).head? ≠ some dialect.closeQuote := by simp
      have hwhole : (dialect.quote name).toList ++ [] = (dialect.quote name').toList ++ [] := by
        rw [h]
      exact (quote_append_inj hquotes (absurd · hwild) (absurd · hwild') hends hends hwhole).1

variable (dialect) in
/-- Quotes that neither a dot nor a star can be taken for. -/
def KeepsNamesApart : Prop := dialect.openQuote ≠ '*' ∧ dialect.closeQuote ≠ '.'

include hquotes in
theorem quotePath_inj (hapart : dialect.KeepsNamesApart) {path path' : Path} (hpath : path ≠ [])
    (hpath' : path' ≠ []) : dialect.quotePath path = dialect.quotePath path' ↔ path = path' := by
  refine ⟨fun h => ?_, congrArg _⟩
  have hends : dialect.EndsPath [] := ⟨by simp, by simp⟩
  have hwhole : (dialect.quotePath path).toList ++ [] = (dialect.quotePath path').toList ++ [] := by
    rw [h]
  exact (quotePath_append_inj hquotes hapart.2 hends hends hpath hpath' (fun _ _ _ => hapart.1)
    (fun _ _ _ => hapart.1) hwhole).1

end Dialect

theorem Engine.keepsNamesApart (engine : Engine) : engine.dialect.KeepsNamesApart := by
  cases engine <;> exact ⟨by decide, by decide⟩

/-! ## Paths -/

namespace Path

theorem prefixQualifier_injective (tablePrefix : String) :
    Function.Injective (prefixQualifier tablePrefix) := by
  intro path path' h
  have hlength : path.length = path'.length := by
    rw [← length_prefixQualifier tablePrefix path, h, length_prefixQualifier]
  by_cases hshort : path.length < 2
  · rwa [prefixQualifier_of_length_lt tablePrefix hshort,
      prefixQualifier_of_length_lt tablePrefix (hlength ▸ hshort)] at h
  · obtain ⟨schema, table, column, rfl⟩ := exists_column (Nat.not_lt.1 hshort)
    obtain ⟨schema', table', column', rfl⟩ := exists_column (hlength ▸ Nat.not_lt.1 hshort)
    rw [prefixQualifier_append, prefixQualifier_append] at h
    obtain ⟨hschema, hends⟩ := List.append_inj' h rfl
    simpa [hschema] using hends

theorem qualify_prefixQualifier (tablePrefix : String) (target : Name) {path : Path} (h : path ≠ []) :
    (path.prefixQualifier tablePrefix).qualify (tablePrefix ++ target) =
      (path.qualify target).prefixQualifier tablePrefix := by
  match path, h with
  | [name], _ => rfl
  | first :: second :: rest, _ =>
    have hqualified : isQualified (first :: second :: rest) = true := isQualified_iff.2 (by simp)
    have hprefixed : (prefixQualifier tablePrefix (first :: second :: rest)).isQualified = true := by
      rw [isQualified_iff, length_prefixQualifier]
      simp
    rw [qualify_of_isQualified hqualified, qualify_of_isQualified hprefixed]

theorem prefixQualifier_qualify_ne_nil {tablePrefix : String} {target : Name} {path : Path}
    (h : path ≠ []) : (path.qualify target).prefixQualifier tablePrefix ≠ [] := by
  rw [← List.length_pos_iff, length_prefixQualifier, List.length_pos_iff, qualify]
  split
  · exact h
  · exact List.cons_ne_nil target path

end Path

/-! ## Columns of an INSERT -/

/-- An INSERT that overwrites nothing has its column list behind the table. -/
theorem Insert.render_columns (r : Renderer) {insert : Insert}
    (hconflict : insert.conflict = none ∨ insert.conflict = some .ignore) :
    Ensures (insert.render r {}) fun sql => ∃ (words : String) (rest : Sql),
      sql = words ++ " " ++ r.dialect.quoteTable insert.table ++
        r.dialect.columnsText insert.columns ++ rest := by
  have hplain : insert.render r {} = insert.renderPlain r {} := by
    rcases hconflict with h | h <;> rw [Insert.render, h]
  rw [hplain]
  refine .bind_any fun words _ => .bind_any fun source _ => .bind_any fun conflict _ => .ok ?_
  refine ⟨words, source ++ conflict ++ r.dialect.returningText insert.returning, ?_⟩
  simp only [Sql.append_assoc]

/-- The column list of an INSERT has the columns of the first row. -/
theorem Insert.ofRows_columns (tablePrefix : String) (plan : Plan)
    (rows : List (List (String × Operand))) (conflict : Option Conflict) :
    Ensures (Insert.ofRows tablePrefix plan (rows.map Row.ofList) conflict) fun insert =>
      insert.conflict = conflict ∧
        List.Forall₂ IsPlainColumn (Row.firstSet (rows.head?.getD [])) insert.columns := by
  unfold Insert.ofRows
  refine .bind_any fun table _ => ?_
  cases rows with
  | nil => exact .ok ⟨rfl, .nil⟩
  | cons first others =>
    dsimp only [List.map_cons]
    refine .ite (fun hempty => .ite (fun _ => .ok ⟨rfl, ?_⟩) fun _ => .error) fun _ => ?_
    · rw [List.head?_cons, Option.getD_some, ← Row.columns_ofList, Row.columns,
        List.isEmpty_iff.1 hempty]
      exact .nil
    · refine .bind_any fun tuples _ => .bind_any fun columns hcolumns => .ok ⟨rfl, ?_⟩
      rw [mapM_eq_ok_iff, Row.columns_ofList] at hcolumns
      exact hcolumns.imp fun column name => (plainColumn_eq_ok_iff column name).1

/-- An INSERT with the columns that the calls set in its column list. -/
def Dialect.ListsColumns (dialect : Dialect) (calls : List (String × Operand)) (names : List Name)
    (sql : Sql) : Prop :=
  List.Forall₂ IsPlainColumn (Row.firstSet calls) names ∧
    ∃ (words : String) (table : TableName) (rest : Sql),
      sql = words ++ " " ++ dialect.quoteTable table ++ dialect.columnsText names ++ rest

theorem Compiler.render_ofRows_listsColumns (c : Compiler) (plan : Plan) {conflict : Option Conflict}
    (hconflict : conflict = none ∨ conflict = some .ignore)
    (rows : List (List (String × Operand))) :
    Ensures (do c.render (.insert (← Insert.ofRows c.tablePrefix plan (rows.map Row.ofList) conflict)))
      fun sql => ∃ names, c.dialect.ListsColumns (rows.head?.getD []) names sql := by
  refine (Insert.ofRows_columns c.tablePrefix plan rows conflict).bind ?_
  rintro insert ⟨rfl, hnames⟩
  rw [c.render_eq]
  refine (Insert.render_columns c.renderer hconflict).mono ?_
  rintro _ ⟨words, rest, rfl⟩
  exact ⟨insert.columns, hnames, words, insert.table, rest, rfl⟩

/-- A column list has a column twice exactly if the row has two spellings of its name. -/
theorem Dialect.ListsColumns.nodup_iff {dialect : Dialect} {calls : List (String × Operand)}
    {names : List Name} {sql : Sql} (h : dialect.ListsColumns calls names sql) :
    names.Nodup ↔ ¬Row.Respells (· = ·) calls := by
  let column (name : Name) : ColumnRef := ⟨[name], [], none⟩
  have hcolumn : Function.Injective column := by
    intro name name' hsame
    exact (List.cons.inj (congrArg ColumnRef.path hsame)).1
  have hread : List.Forall₂ (fun fragment read' => ∃ read, parseColumn fragment = .ok read ∧
      id read = read') (Row.firstSet calls) (names.map column) := by
    rw [List.forall₂_map_right_iff]
    exact h.1.imp fun fragment name hplain => ⟨column name, hplain.1, rfl⟩
  rw [← List.nodup_map_iff hcolumn]
  exact Row.nodup_iff_not_respells id hread

/-! ## Columns of an UPDATE -/

/-- The columns are assigned alike: where other tables take part, they are the same column of the same
table, and where none do, they have the same last name. -/
def ColumnRef.AssignedAlike (joined : Bool) (target : Name) (column other : ColumnRef) : Prop :=
  if joined then column.path.qualify target = other.path.qualify target
  else column.path.getLast? = other.path.getLast?

instance (joined : Bool) (target : Name) (column other : ColumnRef) :
    Decidable (column.AssignedAlike joined target other) :=
  inferInstanceAs (Decidable (if joined then column.path.qualify target = other.path.qualify target
    else column.path.getLast? = other.path.getLast?))

namespace Dialect

variable (dialect : Dialect) (tablePrefix : String) (target : Name)

/-- The left-hand side of an assignment, by the column as it is read. -/
def assignedColumnText (joined : Bool) (column : ColumnRef) : String :=
  dialect.assignedText joined (tablePrefix ++ target) (column.path.prefixQualifier tablePrefix)

theorem assignedColumnText_joined {column : ColumnRef} (h : column.path ≠ []) :
    dialect.assignedColumnText tablePrefix target true column =
      dialect.quotePath ((column.path.qualify target).prefixQualifier tablePrefix) := by
  rw [assignedColumnText, assignedText, if_pos rfl, Path.qualify_prefixQualifier tablePrefix target h]

theorem assignedColumnText_single {column : ColumnRef} {name : Name}
    (hlast : column.path.getLast? = some name) :
    dialect.assignedColumnText tablePrefix target false column = dialect.quote name := by
  have hlast' := (Path.getLast?_prefixQualifier tablePrefix column.path).trans hlast
  rw [assignedColumnText, assignedText_eq dialect false hlast']
  rfl

theorem assignedColumnText_congr {joined : Bool} {column other : ColumnRef}
    (hcolumn : column.path ≠ []) (hother : other.path ≠ [])
    (h : column.AssignedAlike joined target other) :
    dialect.assignedColumnText tablePrefix target joined column =
      dialect.assignedColumnText tablePrefix target joined other := by
  cases joined with
  | true =>
    rw [assignedColumnText_joined _ _ _ hcolumn, assignedColumnText_joined _ _ _ hother]
    exact congrArg (fun path => dialect.quotePath (Path.prefixQualifier tablePrefix path)) h
  | false =>
    have hlast := List.getLast?_eq_some_getLast hcolumn
    rw [assignedColumnText_single _ _ _ hlast, assignedColumnText_single _ _ _ (h ▸ hlast)]

theorem assignedColumnText_inj (hquotes : dialect.DefaultQuotes) {joined : Bool}
    (hapart : joined = true → dialect.KeepsNamesApart) {column other : ColumnRef}
    (hcolumn : column.path ≠ []) (hother : other.path ≠ [])
    (h : dialect.assignedColumnText tablePrefix target joined column =
      dialect.assignedColumnText tablePrefix target joined other) :
    column.AssignedAlike joined target other := by
  cases joined with
  | true =>
    rw [assignedColumnText_joined _ _ _ hcolumn, assignedColumnText_joined _ _ _ hother,
      quotePath_inj hquotes (hapart rfl) (Path.prefixQualifier_qualify_ne_nil hcolumn)
        (Path.prefixQualifier_qualify_ne_nil hother)] at h
    exact Path.prefixQualifier_injective tablePrefix h
  | false =>
    have hlast := List.getLast?_eq_some_getLast hcolumn
    have hlast' := List.getLast?_eq_some_getLast hother
    rw [assignedColumnText_single _ _ _ hlast, assignedColumnText_single _ _ _ hlast'] at h
    exact (hlast.trans (congrArg some (quote_injective hquotes h))).trans hlast'.symm

end Dialect

variable {plan : Plan} {fragment : String} {table : TableName}

theorem Update.tables_target {tablePrefix : String} (hsource : plan.source = some (.table fragment))
    (htable : TableName.ofFragment tablePrefix fragment = .ok table) (strategy : JoinStrategy)
    (joined : Bool) :
    Ensures (Update.tables strategy tablePrefix plan table joined) fun tables =>
      tables.1.target = .ok table.referenceName := by
  unfold Update.tables
  rw [TableExpr.ofPlan_of_table hsource htable plan rfl rfl]
  simp only [bind_assoc, pure_bind]
  refine .ite (fun _ => ?_) fun _ => .ite (fun _ => ?_) fun _ => .ok rfl
  · exact .bind_any fun joins _ => .ok rfl
  · exact .bind_any fun joins _ => .ok (TableExpr.withJoins_target joins)

/-- Whatever way it reaches its rows, an UPDATE assigns the entries of the row to columns of the
plan's table. -/
theorem Update.ofPlan_assigns {dialect : Dialect} {tablePrefix : String}
    (hsource : plan.source = some (.table fragment))
    (htable : TableName.ofFragment tablePrefix fragment = .ok table) {reach : Reach}
    (hreach : dialect.reach plan .orderedUpdateWithJoins false = .ok reach) (row : Row) :
    Ensures (Update.ofPlan dialect tablePrefix plan row) fun update =>
      update.table.target = .ok table.referenceName ∧ update.hasJoins = decide (reach = .joined) ∧
        row.entries.mapM (Assignment.ofEntry tablePrefix) = .ok update.assignments := by
  by_cases hrowId : ∃ column, reach = .rowId column
  · obtain ⟨column, rfl⟩ := hrowId
    refine (Update.ofPlan_by_rowId hsource htable hreach row).mono ?_
    rintro _ ⟨assignments, filter, hassignments, -, rfl⟩
    exact ⟨rfl, rfl, hassignments⟩
  · refine (Update.ofPlan_directly hsource htable hreach (not_exists.1 hrowId) row).mono ?_
    rintro _ ⟨assignments, filter, orderBy, tables, hassignments, -, -, htables, rfl⟩
    exact ⟨Update.tables_target hsource htable _ _ tables htables, rfl, hassignments⟩

/-- The SET list of an UPDATE stands behind its word. -/
theorem Update.render_sets (r : Renderer) (update : Update) :
    Ensures (update.render r {}) fun sql => ∃ target, ∃ set before after : Sql,
      update.table.target = .ok target ∧
        renderAssignments r (({ updating := true } : Context).within .update) update.hasJoins target
          update.assignments = .ok set ∧
        sql = before ++ " SET " ++ set ++ after := by
  refine .bind_any fun target htarget => .bind_any fun written _ => .bind_any fun set hset => ?_
  refine .bind_any fun source _ => .bind_any fun filter _ => .bind_any fun tail _ => .ok ?_
  refine ⟨target, set, "UPDATE " ++ r.dialect.writeTopText update.limit ++ written,
    source ++ filter ++ tail, htarget, hset, ?_⟩
  simp only [Sql.append_assoc]

namespace Compiler

variable (c : Compiler)

theorem update_sets (plan : Plan) (row : Row) :
    Ensures (c.update plan row) fun sql => ∃ fragment table reach, ∃ set before after : Sql,
      plan.source = some (.table fragment) ∧ TableName.ofFragment c.tablePrefix fragment = .ok table ∧
        c.dialect.reach plan .orderedUpdateWithJoins false = .ok reach ∧
        c.assignments (reach = .joined) table row = .ok set ∧
        sql = before ++ " SET " ++ set ++ after := by
  intro sql hsql
  obtain ⟨fragment, table, reach, hsource, htable, hreach⟩ := c.update_reached plan row sql hsql
  obtain ⟨update, hupdate, hsql⟩ := bind_eq_ok_iff.1 hsql
  rw [c.render_eq] at hsql
  obtain ⟨htarget, hjoined, hassignments⟩ :=
    Update.ofPlan_assigns hsource htable hreach row update hupdate
  obtain ⟨target, set, before, after, htarget', hset, rfl⟩ :=
    Update.render_sets c.renderer update sql hsql
  obtain rfl : target = table.referenceName := Except.ok.inj (htarget'.symm.trans htarget)
  refine ⟨fragment, table, reach, set, before, after, hsource, htable, hreach, ?_, rfl⟩
  rw [assignments, hassignments, ← hjoined]
  exact hset

/-- The entry of a SET list for a call: the column as it is written, and the SQL of the operand. -/
def AssignsTo (joined : Bool) (target : Name) (call : String × Operand) (entry : String × Sql) :
    Prop :=
  ∃ path, parseColumn call.1 = .ok ⟨path, [], none⟩ ∧
    c.dialect.assignedColumnText c.tablePrefix target joined ⟨path, [], none⟩ = entry.1 ∧
    c.updateOperand call.2 = .ok entry.2

/-- An UPDATE with one entry in its SET list for each column that the calls set. -/
def SetsEntries (joined : Bool) (target : Name) (calls : List (String × Operand))
    (entries : List (String × Sql)) (sql : Sql) : Prop :=
  List.Forall₂ (c.AssignsTo joined target) (Row.ofList calls).entries entries ∧
    ∃ before after : Sql, sql = before ++ " SET " ++
      Sql.join ", " (entries.map fun entry => entry.1 ++ " = " ++ entry.2) ++ after

/-- The SET list has one entry for each entry of the row. -/
theorem assignments_assignsTo {joined : Bool} {fragment : String} {table : TableName}
    (htable : parseTable fragment = .ok table) (row : Row) :
    Ensures (c.assignments joined (table.withPrefix c.tablePrefix) row) fun set => ∃ entries,
      List.Forall₂ (c.AssignsTo joined table.referenceName) row.entries entries ∧
        set = Sql.join ", " (entries.map fun entry => entry.1 ++ " = " ++ entry.2) := by
  have htarget := TableName.referenceName_withPrefix (parseTable_writable fragment table htable).path
    c.tablePrefix
  refine (c.assignments_entries joined (table.withPrefix c.tablePrefix) row).mono ?_
  rintro _ ⟨sqls, hsqls, rfl⟩
  have hsplit : List.Forall₂ (fun call sql => ∃ entry : String × Sql,
      c.AssignsTo joined table.referenceName call entry ∧ entry.1 ++ " = " ++ entry.2 = sql)
      row.entries sqls := by
    refine hsqls.imp ?_
    rintro call _ ⟨path, value, hparse, hvalue, rfl⟩
    rw [htarget]
    exact ⟨(_, value), ⟨path, hparse, rfl, hvalue⟩, rfl⟩
  obtain ⟨entries, hentries, hwritten⟩ := exists_forall₂_and_iff.2 hsplit
  rw [← List.forall₂_map_left_iff, List.forall₂_eq_eq_eq] at hwritten
  exact ⟨entries, hentries, by rw [hwritten]⟩

theorem update_setsEntries (plan : Plan) (calls : List (String × Operand)) :
    Ensures (c.update plan (Row.ofList calls)) fun sql => ∃ fragment table reach entries,
      plan.source = some (.table fragment) ∧ parseTable fragment = .ok table ∧
        c.dialect.reach plan .orderedUpdateWithJoins false = .ok reach ∧
        c.SetsEntries (reach = .joined) table.referenceName calls entries sql := by
  refine (c.update_sets plan (Row.ofList calls)).mono ?_
  rintro _ ⟨fragment, _, reach, set, before, after, hsource, htable, hreach, hset, rfl⟩
  obtain ⟨table, hparse, rfl⟩ := TableName.ofFragment_eq_ok_iff.1 htable
  obtain ⟨entries, hentries, rfl⟩ := c.assignments_assignsTo hparse (Row.ofList calls) set hset
  exact ⟨fragment, table, reach, entries, hsource, hparse, hreach, hentries, before, after, rfl⟩

variable {c}

theorem SetsEntries.nodup_iff {joined : Bool} {target : Name} {calls : List (String × Operand)}
    {entries : List (String × Sql)} {sql : Sql} (h : c.SetsEntries joined target calls entries sql) :
    (entries.map (·.1)).Nodup ↔ ¬Row.Respells (fun read read' =>
      c.dialect.assignedColumnText c.tablePrefix target joined read =
        c.dialect.assignedColumnText c.tablePrefix target joined read') calls := by
  refine Row.nodup_iff_not_respells _ ?_
  rw [← Row.columns_ofList, Row.columns, List.forall₂_map_left_iff, List.forall₂_map_right_iff]
  refine h.1.imp ?_
  rintro call entry ⟨path, hpath, htext, -⟩
  exact ⟨_, hpath, htext⟩

/-- Two spellings of a column are two assignments to it. -/
theorem SetsEntries.not_respells {joined : Bool} {target : Name} {calls : List (String × Operand)}
    {entries : List (String × Sql)} {sql : Sql} (h : c.SetsEntries joined target calls entries sql)
    (hnodup : (entries.map (·.1)).Nodup) :
    ¬Row.Respells (ColumnRef.AssignedAlike joined target) calls := by
  refine mt (fun hrespells => hrespells.imp ?_) (h.nodup_iff.1 hnodup)
  intro column _ other _ read read' hread hread' halike
  exact c.dialect.assignedColumnText_congr _ _ (parseColumn_writable column read hread).path
    (parseColumn_writable other read' hread').path halike

/-- Without two spellings no column is assigned twice. A qualified column is told from another one by
the quotes around its names. -/
theorem SetsEntries.nodup {joined : Bool} {target : Name} {calls : List (String × Operand)}
    {entries : List (String × Sql)} {sql : Sql} (h : c.SetsEntries joined target calls entries sql)
    (hquotes : c.dialect.DefaultQuotes) (hapart : joined = true → c.dialect.KeepsNamesApart)
    (hnone : ¬Row.Respells (ColumnRef.AssignedAlike joined target) calls) :
    (entries.map (·.1)).Nodup := by
  refine h.nodup_iff.2 (mt (fun hrespells => hrespells.imp ?_) hnone)
  intro column _ other _ read read' hread hread' hsame
  exact c.dialect.assignedColumnText_inj _ _ hquotes hapart (parseColumn_writable column read hread).path
    (parseColumn_writable other read' hread').path hsame

variable (c)

/-! ## Statements -/

/-- An INSERT or UPDATE that is compiled has a column twice if its row has two spellings of it. It has
none twice otherwise: an INSERT in every dialect, and an UPDATE in one with a pair of quotes, unless it
qualifies columns and the quotes can be taken for a dot or a star.

Spellings are alike in an INSERT if they are read as the same name. In an UPDATE they are alike if
they are the same column of the same table, or, where no other tables take part, if they have the same
last name. -/
theorem column_repeats_iff_respelled (plan : Plan) :
    (∀ insert ∈ [c.insert, c.insertOrIgnore], ∀ rows : List (List (String × Operand)),
      Ensures (insert plan (rows.map Row.ofList)) fun sql => ∃ names,
        c.dialect.ListsColumns (rows.head?.getD []) names sql ∧
          (names.Nodup ↔ ¬Row.Respells (· = ·) (rows.head?.getD [])) ∧
          (c.dialect.DefaultQuotes → ((names.map c.dialect.quote).Nodup ↔ names.Nodup))) ∧
    ∀ calls : List (String × Operand),
      Ensures (c.update plan (Row.ofList calls)) fun sql => ∃ fragment table reach entries,
        plan.source = some (.table fragment) ∧ parseTable fragment = .ok table ∧
          c.dialect.reach plan .orderedUpdateWithJoins false = .ok reach ∧
          c.SetsEntries (reach = .joined) table.referenceName calls entries sql ∧
          ((entries.map (·.1)).Nodup →
            ¬Row.Respells (ColumnRef.AssignedAlike (reach = .joined) table.referenceName) calls) ∧
          (c.dialect.DefaultQuotes → (reach = .joined → c.dialect.KeepsNamesApart) →
            ¬Row.Respells (ColumnRef.AssignedAlike (reach = .joined) table.referenceName) calls →
              (entries.map (·.1)).Nodup) := by
  constructor
  · intro insert hinsert rows
    have hlists : Ensures (insert plan (rows.map Row.ofList)) fun sql => ∃ names,
        c.dialect.ListsColumns (rows.head?.getD []) names sql := by
      rcases List.mem_pair.1 hinsert with rfl | rfl
      · exact c.render_ofRows_listsColumns plan (.inl rfl) rows
      · exact c.render_ofRows_listsColumns plan (.inr rfl) rows
    refine hlists.mono ?_
    rintro sql ⟨names, hnames⟩
    exact ⟨names, hnames, hnames.nodup_iff,
      fun hquotes => List.nodup_map_iff (Dialect.quote_injective hquotes)⟩
  · intro calls
    refine (c.update_setsEntries plan calls).mono ?_
    rintro sql ⟨fragment, table, reach, entries, hsource, htable, hreach, hentries⟩
    refine ⟨fragment, table, reach, entries, hsource, htable, hreach, hentries,
      hentries.not_respells, fun hquotes hapart => hentries.nodup hquotes fun h => ?_⟩
    exact hapart (of_decide_eq_true h)

/-- Columns of two tables that share their last name are two columns where both tables take part. -/
theorem column_repeats_iff_respelled_joined :
    let c : Compiler := ⟨.mysql, "app_"⟩
    let plan : Plan := {
      source := some (.table "users")
      joins := [⟨.inner, .table "posts", [⟨.and, .compare "posts.user_id" .eq (.column "users.id")⟩]⟩] }
    let calls : List (String × Operand) :=
      [("name", .value (.text "x")), ("posts.name", .value (.text "y"))]
    (c.update plan (Row.ofList calls)).toBool ∧
      Ensures (c.update plan (Row.ofList calls)) fun sql =>
        ∃ entries, c.SetsEntries true "users" calls entries sql ∧ (entries.map (·.1)).Nodup := by
  intro c plan calls
  refine ⟨by decide +kernel, fun sql hsql => ?_⟩
  obtain ⟨fragment, table, reach, entries, hsource, htable, hreach, hentries, -, hnodup⟩ :=
    (c.column_repeats_iff_respelled plan).2 calls sql hsql
  cases hsource
  have hparse : parseTable "users" = .ok ⟨["users"], none⟩ := by decide +kernel
  cases htable.symm.trans hparse
  have hjoined : c.dialect.reach plan .orderedUpdateWithJoins false = .ok .joined := by decide +kernel
  cases hreach.symm.trans hjoined
  refine ⟨entries, hentries, hnodup rfl (fun _ => Engine.keepsNamesApart .mysql) ?_⟩
  have hname : parseColumn "name" = .ok ⟨["name"], [], none⟩ := by decide +kernel
  have hpost : parseColumn "posts.name" = .ok ⟨["posts", "name"], [], none⟩ := by decide +kernel
  rintro ⟨column, hcolumn, other, hother, hne, read, read', hread, hread', halike⟩
  rcases List.mem_pair.1 hcolumn with rfl | rfl <;> rcases List.mem_pair.1 hother with rfl | rfl
  · exact hne rfl
  · cases hread.symm.trans hname
    cases hread'.symm.trans hpost
    exact absurd halike (by decide)
  · cases hread.symm.trans hpost
    cases hread'.symm.trans hname
    exact absurd halike (by decide)
  · exact hne rfl

/-- A column in quotes is written beside the same column without them, and a column of the table that
is written to beside the same column without its table. -/
theorem respelled_column_repeats :
    let c : Compiler := ⟨.postgres, ""⟩
    let plan : Plan := { source := some (.table "users") }
    c.insert plan [Row.ofList [("id", .value (.int 1)), ("\"id\"", .value (.int 2))]] =
        .ok ⟨"INSERT INTO \"users\" (\"id\", \"id\") VALUES (?, ?)",
          [⟨.int 1, .insert⟩, ⟨.int 2, .insert⟩]⟩ ∧
      c.update plan (Row.ofList [("id", .value (.int 1)), ("users.id", .value (.int 2))]) =
        .ok ⟨"UPDATE \"users\" SET \"id\" = ?, \"id\" = ?", [⟨.int 1, .update⟩, ⟨.int 2, .update⟩]⟩ := by
  intro c plan
  exact ⟨by decide +kernel, by decide +kernel⟩

end Compiler

end QueryCompiler
