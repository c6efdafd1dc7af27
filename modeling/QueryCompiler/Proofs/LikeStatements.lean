import QueryCompiler.Proofs.LikeRendering
import QueryCompiler.Proofs.Simulation

/-! # Compiling alike plans

Alike INSERT, UPDATE, DELETE and TRUNCATE statements are written as paired stretches
(`Statement.render_like`). With the lowering of alike plans this gives every function of the compiler:
on alike arguments, both runs fail or both results are paired (`Compiler.select_like`,
`Compiler.insert_like`, and so on).
-/

namespace QueryCompiler
set_option autoImplicit false

variable {L : Likeness} {E : Error → Error → Prop} {dialect : Dialect}
  {nested nested' : Plan → Except Error Sql}

theorem Path.qualify_like {path path' : Path} (h : List.Forall₂ L.name path path')
    {qualifier qualifier' : Name} (hqualifier : L.name qualifier qualifier') :
    List.Forall₂ L.name (path.qualify qualifier) (path'.qualify qualifier') := by
  unfold Path.qualify Path.isQualified
  rw [h.length_eq]
  split
  · exact h
  · exact .cons hqualifier h

/-! ## Parts of statements -/

namespace Paired

variable {P : Pairing L E dialect}

theorem columnsText {columns columns' : List Name} (h : List.Forall₂ L.name columns columns') :
    Paired P .any .any (dialect.columnsText columns) (dialect.columnsText columns') := by
  unfold Dialect.columnsText
  rw [forall₂_isEmpty_eq h]
  split
  · exact empty .any
  · exact (((lead " (" rfl).also (quoteNames h)).lit ")" rfl).to_any

/-- A name behind the name of its table. -/
theorem qualified {table table' : String} (htable : Paired P .clear .any table table')
    {name name' : Name} (h : L.name name name') :
    Paired P .clear .any (table ++ "." ++ dialect.quote name : String)
      (table' ++ "." ++ dialect.quote name' : String) := by
  simp only [Sql.ofText_append]
  exact (htable.lit "." rfl).also (P.name h)

theorem overwriteText {incoming : String → String}
    (hincoming : ∀ name name', L.name name name' →
      Paired P .clear .any (incoming (dialect.quote name)) (incoming (dialect.quote name')))
    {columns columns' : List Name} (h : List.Forall₂ L.name columns columns') :
    Paired P .clear .any (dialect.overwriteText incoming columns)
      (dialect.overwriteText incoming columns') := by
  refine joinNames (isSeparator_literal (by decide)) (fun name name' hname => ?_) h
  have hcolumn : Paired P .clear .any (dialect.quote name) (dialect.quote name') := P.name hname
  simp only [Sql.ofText_append]
  exact (hcolumn.lit " = " rfl).also (hincoming name name' hname)

theorem returningText {column column' : Option Name} (h : Option.Rel L.name column column') :
    Paired P .any .any (dialect.returningText column) (dialect.returningText column') := by
  cases h with
  | none => exact empty .any
  | some hname => exact (lead " RETURNING " rfl).also (P.name hname)

theorem mergeKeyText {table table' : String} (htable : Paired P .clear .any table table')
    {key key' : List Name} (h : List.Forall₂ L.name key key') :
    Paired P .clear .any (dialect.mergeKeyText table key) (dialect.mergeKeyText table' key') := by
  refine joinNames (isSeparator_literal (by decide)) (fun name name' hname => ?_) h
  have hsource := qualified (P.name (P.name_self mergeSource)) hname
  simp only [Sql.ofText_append] at hsource ⊢
  exact (((hsource.lit " = " rfl).also htable).lit "." rfl).also (P.name hname)

theorem mergeActionText {columns columns' update update' : List Name}
    (hcolumns : List.Forall₂ L.name columns columns') (hupdate : List.Forall₂ L.name update update') :
    Paired P .any .any (dialect.mergeActionText columns update)
      (dialect.mergeActionText columns' update') := by
  have hincoming := fun (name name' : Name) (h : L.name name name') =>
    qualified (P.name (P.name_self mergeSource)) h
  have hvalues := joinNames (show isSeparator ", ".toList = true from rfl) hincoming hcolumns
  have hmatched := (lead " WHEN MATCHED THEN UPDATE SET " rfl).also (overwriteText hincoming hupdate)
  have hnames := (hmatched.lit " WHEN NOT MATCHED THEN INSERT (" rfl).also (quoteNames hcolumns)
  unfold Dialect.mergeActionText
  simp only [Sql.ofText_append]
  exact (((hnames.lit ") VALUES (" rfl).also hvalues).lit ");" rfl).to_any

theorem deleteTargetText {target target' : Option Name} (h : Option.Rel L.name target target') :
    Paired P .clear .clear (dialect.deleteTargetText target) (dialect.deleteTargetText target') := by
  cases h with
  | none => exact empty .clear
  | some hname => exact lit (P.name hname) " " rfl

theorem assignedText (hasJoins : Bool) {target target' : Name} (htarget : L.name target target')
    {column column' : Path} (h : List.Forall₂ L.name column column') :
    Paired P .clear .any (dialect.assignedText hasJoins target column)
      (dialect.assignedText hasJoins target' column') := by
  have hlast := forall₂_getLast? h
  unfold Dialect.assignedText
  cases hasJoins with
  | true => exact quotePath (Path.qualify_like h htarget)
  | false =>
    generalize column.getLast? = last at hlast ⊢
    generalize column'.getLast? = last' at hlast ⊢
    cases hlast with
    | none => exact (empty .clear).to_any
    | some hname => exact P.name hname

end Paired

section Statements

theorem TableExpr.target_like (P : Pairing L E dialect) :
    ∀ (table table' : TableExpr), TableExpr.Like L table table' →
      Matched E L.name table.target table'.target
  | .table _ => by
    intro _ h
    cases h with
    | table htable =>
      exact .ok (rel_getD htable.label (rel_getD (forall₂_getLast? htable.path) (P.name_self "")))
  | .joined first _ => by
    intro _ h
    cases h with
    | joined hfirst =>
      rw [TableExpr.target, TableExpr.target]
      exact TableExpr.target_like P first _ hfirst
  | .derived .. | .raw _ => by
    rintro _ ⟨⟩
    exact .error (P.blame _)

variable (P : Pairing L E dialect)

theorem Dialect.truncateText_like {table table' : TableName} (h : TableName.Like L table table') :
    Matched E (fun text text' : String => Paired P .clear .any text text')
      (dialect.truncateText table) (dialect.truncateText table') := by
  have htable := Paired.quoteTable (P := P) h
  unfold Dialect.truncateText
  cases dialect.truncateStyle with
  | truncateTable => exact .ok ((Paired.lead "TRUNCATE TABLE " rfl).also htable).of_any
  | restartIdentity =>
    have hwords := (Paired.lead "TRUNCATE " rfl).also htable
    exact .ok (hwords.lit " RESTART IDENTITY CASCADE" rfl).of_any.to_any
  | sequenceReset => exact .error (P.blame _)

theorem Dialect.insertText_like {conflict conflict' : Option Conflict}
    (h : Option.Rel (Conflict.Like L) conflict conflict') :
    Matched E (fun text text' : String => Paired P .any .clear text text')
      (dialect.insertText conflict) (dialect.insertText conflict') := by
  have hplain : Paired P .any .clear "INSERT INTO" "INSERT INTO" := .lead "INSERT INTO" rfl
  cases h with
  | none => exact .ok hplain
  | some hconflict =>
    cases hconflict with
    | update => exact .ok hplain
    | ignore =>
      unfold Dialect.insertText
      split
      · next words hstyle => exact .ok (P.phrase (.insertIgnore hstyle))
      · exact .error (P.blame _)
      · exact .ok hplain

theorem Dialect.conflictText_like {conflict conflict' : Option Conflict}
    (h : Option.Rel (Conflict.Like L) conflict conflict') :
    Matched E (fun text text' : String => Paired P .any .any text text')
      (dialect.conflictText conflict) (dialect.conflictText conflict') := by
  cases h with
  | none => exact .ok (.empty .any)
  | some hconflict =>
    cases hconflict with
    | ignore =>
      refine .ok ?_
      split
      · exact (Paired.lead " ON CONFLICT DO NOTHING" rfl).to_any
      · exact .empty .any
    | update hkey hupdate =>
      unfold Dialect.conflictText
      cases dialect.upsertStyle with
      | onDuplicateKey =>
        have hvalue : ∀ name name', L.name name name' → Paired P .clear .any
            ("VALUES(" ++ dialect.quote name ++ ")" : String)
            ("VALUES(" ++ dialect.quote name' ++ ")" : String) := by
          intro name name' hname
          simp only [Sql.ofText_append]
          exact (((Paired.lead "VALUES(" rfl).also (P.name hname)).lit ")" rfl).of_any.to_any
        refine .ok ?_
        simp only [Sql.ofText_append]
        exact (Paired.lead " ON DUPLICATE KEY UPDATE " rfl).also (.overwriteText hvalue hupdate)
      | onConflict =>
        have hkeys := (Paired.lead " ON CONFLICT (" rfl).also (Paired.quoteNames (P := P) hkey)
        have hincoming := fun (name name' : Name) (h : L.name name name') =>
          Paired.qualified (P.name (P.name_self "excluded")) h
        refine .ok ?_
        simp only [Sql.ofText_append]
        exact (hkeys.lit ") DO UPDATE SET " rfl).also (.overwriteText hincoming hupdate)
      | merge | unsupported => exact .error (P.blame _)

/-! ## Inserts -/

variable (hnested : P.Nests nested nested')

include hnested

theorem renderRows_like (context : Context) {rows rows' : List (List Expr)}
    (h : List.Forall₂ (List.Forall₂ (Expr.Like L)) rows rows') :
    Matched E (Paired P .clear .any) (renderRows ⟨dialect, nested⟩ context rows)
      (renderRows ⟨dialect, nested'⟩ context rows') := by
  refine (Matched.mapM h fun row row' hrow => ?_).bind fun _ _ htuples => .ok (.commas htuples)
  exact (Expr.renderList_like P hnested context row row' hrow).bind
    fun _ _ hsqls => .ok (Paired.commas hsqls).enclosed

theorem InsertSource.render_like (context : Context) {source source' : InsertSource}
    (h : InsertSource.Like L source source') :
    Matched E (Paired P .any .any) (source.render ⟨dialect, nested⟩ context)
      (source'.render ⟨dialect, nested'⟩ context) := by
  cases h with
  | defaults => exact .ok ((Paired.lead " " rfl).to_any.also (P.phrase .emptyInsert)).to_any
  | rows hrows =>
    exact (renderRows_like P hnested context hrows).bind
      fun _ _ hsql => .ok ((Paired.lead " VALUES " rfl).also hsql)
  | nested hsource =>
    exact (Nested.render_like P hnested context _ _ hsource).bind
      fun _ _ hsql => .ok ((Paired.lead " " rfl).also hsql)

theorem Insert.renderMerge_like {insert insert' : Insert} (h : Insert.Like L insert insert')
    {key key' update update' : List Name} (hkey : List.Forall₂ L.name key key')
    (hupdate : List.Forall₂ L.name update update') :
    Matched E (Paired P .clear .any) (insert.renderMerge ⟨dialect, nested⟩ {} key update)
      (insert'.renderMerge ⟨dialect, nested'⟩ {} key' update') := by
  obtain ⟨htable, hcolumns, hsource, -, -⟩ := h
  unfold Insert.renderMerge
  generalize insert.source = source at hsource ⊢
  generalize insert'.source = source' at hsource ⊢
  cases hsource with
  | rows hrows =>
    refine (renderRows_like P hnested _ hrows).bind fun _ _ hvalues => .ok ?_
    have htable := Paired.quoteTable (P := P) htable
    have hrows := (((Paired.lead "MERGE " rfl).also htable).lit " USING (VALUES " rfl).also hvalues
    have hname := (hrows.lit ") AS " rfl).also (P.name (P.name_self mergeSource))
    have hlist := (hname.lit " (" rfl).also (.quoteNames hcolumns)
    have hon := (hlist.lit ") ON " rfl).also (.mergeKeyText htable hkey)
    exact (hon.also (.mergeActionText hcolumns hupdate)).of_any
  | nested | defaults => exact .error (P.blame _)

theorem Insert.renderPlain_like {insert insert' : Insert} (h : Insert.Like L insert insert') :
    Matched E (Paired P .clear .any) (insert.renderPlain ⟨dialect, nested⟩ {})
      (insert'.renderPlain ⟨dialect, nested'⟩ {}) := by
  refine (Dialect.insertText_like P h.conflict).bind fun _ _ hwords => ?_
  refine (InsertSource.render_like P hnested _ h.source).bind fun _ _ hsource => ?_
  refine (Dialect.conflictText_like P h.conflict).bind fun _ _ hconflict => .ok ?_
  have htable := (hwords.lit " " rfl).also (.quoteTable h.table)
  have hrows := (htable.also (.columnsText h.columns)).also hsource
  exact ((hrows.also hconflict).also (.returningText h.returning)).of_any

theorem Insert.render_like {insert insert' : Insert} (h : Insert.Like L insert insert') :
    Matched E (Paired P .clear .any) (insert.render ⟨dialect, nested⟩ {})
      (insert'.render ⟨dialect, nested'⟩ {}) := by
  have hplain := Insert.renderPlain_like P hnested h
  have hconflict := h.conflict
  unfold Insert.render
  generalize insert.conflict = conflict at hconflict ⊢
  generalize insert'.conflict = conflict' at hconflict ⊢
  cases hconflict with
  | none => exact hplain
  | some hconflict =>
    cases hconflict with
    | ignore => exact hplain
    | update hkey hupdate =>
      dsimp only
      cases dialect.upsertStyle with
      | merge => exact Insert.renderMerge_like P hnested h hkey hupdate
      | onConflict | onDuplicateKey | unsupported => exact hplain

/-! ## Updates and deletes -/

theorem renderAssignments_like (context : Context) (hasJoins : Bool) {target target' : Name}
    (htarget : L.name target target') {assignments assignments' : List Assignment}
    (h : List.Forall₂ (Assignment.Like L) assignments assignments') :
    Matched E (Paired P .clear .any)
      (renderAssignments ⟨dialect, nested⟩ context hasJoins target assignments)
      (renderAssignments ⟨dialect, nested'⟩ context hasJoins target' assignments') := by
  refine (Matched.mapM h fun assignment assignment' hassignment => ?_).bind
    fun _ _ hsqls => .ok (.commas hsqls)
  refine (Expr.render_like P hnested context _ _ hassignment.value).bind fun _ _ hsql => .ok ?_
  exact ((Paired.assignedText hasJoins htarget hassignment.column).lit " = " rfl).also hsql

theorem renderWriteTail_like (context : Context) {orderBy orderBy' : Option (List SortKey)}
    (h : Option.Rel (List.Forall₂ (SortKey.Like L)) orderBy orderBy') (limit : Option Nat) :
    Matched E (Paired P .any .any) (renderWriteTail ⟨dialect, nested⟩ context orderBy limit)
      (renderWriteTail ⟨dialect, nested'⟩ context orderBy' limit) := by
  refine .ite Iff.rfl (fun _ => .ok (.empty .any)) fun _ => ?_
  exact (SortKey.renderClause_like P hnested _ orderBy orderBy' h).bind
    fun _ _ horder => .ok (horder.also (.same (.limitText ⟨limit, none⟩)))

theorem Update.render_like {update update' : Update} (h : Update.Like L update update') :
    Matched E (Paired P .clear .any) (update.render ⟨dialect, nested⟩ {})
      (update'.render ⟨dialect, nested'⟩ {}) := by
  refine (TableExpr.target_like P _ _ h.table).bind fun _ _ htarget => ?_
  refine (TableExpr.render_like P hnested _ (.empty .any) _ _ h.table).bind fun _ _ htable => ?_
  rw [h.hasJoins, h.limit]
  refine (renderAssignments_like P hnested _ _ htarget h.assignments).bind
    fun _ _ hassignments => ?_
  refine (TableExpr.renderClause_like P hnested _ (.empty .any) _ _ h.source).bind
    fun _ _ hsource => ?_
  refine (Expr.renderClause_like P hnested _ (isSeparator_literal (by decide)) _ _ h.filter).bind
    fun _ _ hfilter => ?_
  refine (renderWriteTail_like P hnested _ h.orderBy _).bind fun _ _ htail => .ok ?_
  have htop := (Paired.lead (P := P) "UPDATE " rfl).also (.same (.writeTopText update'.limit))
  have hhead := htop.of_any.also htable
  exact ((((hhead.lit " SET " rfl).also hassignments).also hsource).also hfilter).also htail

theorem Delete.render_like {delete delete' : Delete} (h : Delete.Like L delete delete') :
    Matched E (Paired P .clear .any) (delete.render ⟨dialect, nested⟩ {})
      (delete'.render ⟨dialect, nested'⟩ {}) := by
  unfold Delete.render
  rw [h.limit]
  refine (TableExpr.render_like P hnested _ (.empty .any) _ _ h.source).bind fun _ _ hsource => ?_
  refine (Expr.renderClause_like P hnested _ (isSeparator_literal (by decide)) _ _ h.filter).bind
    fun _ _ hfilter => ?_
  refine (renderWriteTail_like P hnested _ h.orderBy _).bind fun _ _ htail => .ok ?_
  have htop := (Paired.lead (P := P) "DELETE " rfl).of_any.also (.same (.writeTopText delete'.limit))
  have hfrom := (htop.also (.deleteTargetText h.target)).lit "FROM " rfl
  exact ((hfrom.also hsource).also hfilter).also htail

theorem Statement.render_like {statement statement' : Statement}
    (h : Statement.Like L statement statement') :
    Matched E (Paired P .clear .any) (statement.render ⟨dialect, nested⟩)
      (statement'.render ⟨dialect, nested'⟩) := by
  cases h with
  | query hquery => exact Query.render_like P hnested {} _ _ hquery
  | insert hinsert => exact Insert.render_like P hnested hinsert
  | update hupdate => exact Update.render_like P hnested hupdate
  | delete hdelete => exact Delete.render_like P hnested hdelete
  | truncate htable => exact (Dialect.truncateText_like P htable).bind fun _ _ htext => .ok htext

end Statements

/-! ## Compilers -/

namespace Compiler

variable {tablePrefix tablePrefix' : String} (P : Pairing L E dialect)
  (hL : L.Reading E tablePrefix tablePrefix')

include hL

theorem compileWithin_like (depth : Nat) :
    P.Nests (compileWithin ⟨dialect, tablePrefix⟩ depth)
      (compileWithin ⟨dialect, tablePrefix'⟩ depth) := by
  induction depth with
  | zero => exact fun _ _ _ => .error (P.blame _)
  | succ depth ih =>
    intro plan plan' h
    rw [compileWithin_succ, compileWithin_succ]
    exact (Query.ofPlan_like hL plan plan' h).bind
      fun query query' hquery => Query.render_like P ih {} query query' hquery

theorem compileNested_like :
    P.Nests (compileNested ⟨dialect, tablePrefix⟩) (compileNested ⟨dialect, tablePrefix'⟩) := by
  intro plan plan' h
  rw [compileNested, compileNested, Plan.Like.depth_eq plan plan' h]
  exact compileWithin_like P hL _ plan plan' h

theorem render_like {statement statement' : Statement} (h : Statement.Like L statement statement') :
    Matched E (Paired P .clear .any) (render ⟨dialect, tablePrefix⟩ statement)
      (render ⟨dialect, tablePrefix'⟩ statement') := by
  rw [render_eq, render_eq]
  exact Statement.render_like P (compileNested_like P hL) h

theorem select_like {plan plan' : Plan} (h : Plan.Like L plan plan') :
    Matched E (Paired P .clear .any) (select ⟨dialect, tablePrefix⟩ plan)
      (select ⟨dialect, tablePrefix'⟩ plan') :=
  (Query.ofPlan_like hL plan plan' h).bind fun _ _ hquery => render_like P hL (.query hquery)

theorem existence_like {plan plan' : Plan} (h : Plan.Like L plan plan') :
    Matched E (Paired P .clear .any) (existence ⟨dialect, tablePrefix⟩ plan)
      (existence ⟨dialect, tablePrefix'⟩ plan') :=
  (Select.existence_like hL dialect.existsStyle h).bind
    fun _ _ hselect => render_like P hL (.query (.select hselect))

theorem insert_like {plan plan' : Plan} (h : Plan.Like L plan plan') {rows rows' : List Row}
    (hrows : Row.ListLike L rows rows') :
    Matched E (Paired P .clear .any) (insert ⟨dialect, tablePrefix⟩ plan rows)
      (insert ⟨dialect, tablePrefix'⟩ plan' rows') :=
  (Insert.ofRows_like hL h hrows .none).bind fun _ _ hinsert => render_like P hL (.insert hinsert)

theorem insertOrIgnore_like {plan plan' : Plan} (h : Plan.Like L plan plan') {rows rows' : List Row}
    (hrows : Row.ListLike L rows rows') :
    Matched E (Paired P .clear .any) (insertOrIgnore ⟨dialect, tablePrefix⟩ plan rows)
      (insertOrIgnore ⟨dialect, tablePrefix'⟩ plan' rows') :=
  (Insert.ofRows_like hL h hrows (.some .ignore)).bind
    fun _ _ hinsert => render_like P hL (.insert hinsert)

/-- The forms of an INSERT that give back a key, for inserts that are lowered alike. -/
theorem insertGetId_of_like {plan plan' : Plan} {row row' : Row}
    (h : Matched E (Insert.Like L) (Insert.ofRows tablePrefix plan [row] none)
      (Insert.ofRows tablePrefix' plan' [row'] none))
    {column column' : Option Name} (hcolumn : Option.Rel L.name column column') :
    Matched E (Paired P .clear .any) (insertGetId ⟨dialect, tablePrefix⟩ plan row column)
      (insertGetId ⟨dialect, tablePrefix'⟩ plan' row' column') := by
  have hname := rel_getD hcolumn (P.name_self defaultIdColumn)
  refine h.bind fun _ _ hinsert => ?_
  have hplain := render_like P hL (.insert hinsert)
  dsimp only
  cases dialect.insertIdStyle with
  | driver => exact hplain
  | returning =>
    obtain ⟨htable, hcolumns, hsource, hconflict, -⟩ := hinsert
    exact render_like P hL (.insert ⟨htable, hcolumns, hsource, hconflict, .some hname⟩)
  | scopeIdentity =>
    refine hplain.bind fun _ _ hsql => .ok ?_
    have hbatch := (Paired.lead "SET NOCOUNT ON; " rfl).of_any.also hsql
    exact (hbatch.lit "; SELECT SCOPE_IDENTITY() AS " rfl).also (P.name hname)

theorem insertGetId_like {plan plan' : Plan} (h : Plan.Like L plan plan') {row row' : Row}
    (hrow : Row.ListLike L [row] [row']) {column column' : Option Name}
    (hcolumn : Option.Rel L.name column column') :
    Matched E (Paired P .clear .any) (insertGetId ⟨dialect, tablePrefix⟩ plan row column)
      (insertGetId ⟨dialect, tablePrefix'⟩ plan' row' column') :=
  insertGetId_of_like P hL (Insert.ofRows_like hL h hrow .none) hcolumn

theorem insertUsing_like {plan plan' : Plan} (h : Plan.Like L plan plan')
    {columns columns' : List String} (hcolumns : List.Forall₂ L.column columns columns')
    {source source' : Plan} (hsource : Plan.Like L source source') :
    Matched E (Paired P .clear .any) (insertUsing ⟨dialect, tablePrefix⟩ plan columns source)
      (insertUsing ⟨dialect, tablePrefix'⟩ plan' columns' source') :=
  (Insert.ofQuery_like hL h hcolumns hsource).bind
    fun _ _ hinsert => render_like P hL (.insert hinsert)

theorem upsert_like {plan plan' : Plan} (h : Plan.Like L plan plan') {rows rows' : List Row}
    (hrows : Row.ListLike L rows rows') {key key' update update' : List String}
    (hkey : List.Forall₂ L.column key key') (hupdate : List.Forall₂ L.column update update') :
    Matched E (Paired P .clear .any) (upsert ⟨dialect, tablePrefix⟩ plan rows key update)
      (upsert ⟨dialect, tablePrefix'⟩ plan' rows' key' update') :=
  (Insert.upsert_like hL dialect h hrows hkey hupdate).bind
    fun _ _ hinsert => render_like P hL (.insert hinsert)

theorem update_like {plan plan' : Plan} (h : Plan.Like L plan plan') {row row' : Row}
    (hrow : Row.Like L row row') :
    Matched E (Paired P .clear .any) (update ⟨dialect, tablePrefix⟩ plan row)
      (update ⟨dialect, tablePrefix'⟩ plan' row') :=
  (Update.ofPlan_like hL dialect h hrow).bind fun _ _ hupdate => render_like P hL (.update hupdate)

theorem delete_like {plan plan' : Plan} (h : Plan.Like L plan plan') :
    Matched E (Paired P .clear .any) (delete ⟨dialect, tablePrefix⟩ plan)
      (delete ⟨dialect, tablePrefix'⟩ plan') :=
  (Delete.ofPlan_like hL dialect h).bind fun _ _ hdelete => render_like P hL (.delete hdelete)

theorem truncate_like
    (hvalue : ∀ name name', L.name name name' → L.value (.text name) (.text name'))
    {plan plan' : Plan} (h : Plan.Like L plan plan') :
    Matched E (List.Forall₂ (Paired P .clear .any)) (truncate ⟨dialect, tablePrefix⟩ plan)
      (truncate ⟨dialect, tablePrefix'⟩ plan') :=
  (Statement.truncation_like hL hvalue dialect h).bind
    fun _ _ hstatements => Matched.mapM hstatements fun _ _ => render_like P hL

end Compiler

end QueryCompiler
