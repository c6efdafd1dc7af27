import QueryCompiler.Plan.Build
import QueryCompiler.Proofs.Unions

/-! # Quoted names and SELECTs

Column and table fragments can be put in quotes without a plan. What comes out is what a SELECT writes
of them: the same prefix, JSON steps and alias, or the same error
(`Compiler.quoting_agrees_with_select`). Wildcards are the case in point. A quoted path has its
wildcard as a last name, which is never put in quotes; a select list has it as an entry of its own,
with or without a qualifier.
-/

namespace QueryCompiler
set_option autoImplicit false

/-! ## Columns -/

namespace Dialect

variable (dialect : Dialect)

theorem quotePath_concat {path : Path} (hpath : path ≠ []) (name : Name) :
    dialect.quotePath (path ++ [name]) = dialect.quotePath path ++ "." ++ dialect.quote name := by
  induction path with
  | nil => exact (hpath rfl).elim
  | cons first rest ih =>
    by_cases hrest : rest = []
    · subst hrest
      rfl
    · have hmore : rest ++ [name] ≠ [] := List.append_ne_nil_of_left_ne_nil hrest [name]
      rw [List.cons_append, quotePath_cons dialect first hmore, ih hrest,
        quotePath_cons dialect first hrest]
      simp only [String.append_assoc]

end Dialect

theorem Path.eq_concat_wildcard {path : Path} (h : path.endsInWildcard = true) :
    path = path.dropLast ++ [wildcard] := by
  have hlast : path.getLast? = some wildcard := of_decide_eq_true h
  exact (List.dropLast_append_getLast? wildcard hlast).symm

/-- A column as an entry of a select list is written as it is quoted. -/
theorem SelectItem.render_ofColumn (r : Renderer) (hquotes : r.dialect.DefaultQuotes)
    (context : Context) {column : ColumnRef}
    (hwildcard : column.path.endsInWildcard = true → column.json = [] ∧ column.label = none) :
    (SelectItem.ofColumn column).render r context = .ok (r.dialect.quoteColumn column) := by
  unfold SelectItem.ofColumn
  by_cases hends : column.path.endsInWildcard = true
  · obtain ⟨hjson, hlabel⟩ := hwildcard hends
    have hquoted : r.dialect.quoteColumn column = r.dialect.quotePath column.path := by
      rw [Dialect.quoteColumn, hjson, hlabel]
      exact String.append_empty
    have hpath := Path.eq_concat_wildcard hends
    rw [if_pos hends, hquoted]
    by_cases hqualifier : column.path.dropLast = []
    · rw [hqualifier, List.nil_append] at hpath
      rw [hqualifier, hpath, Dialect.quotePath_singleton, hquotes.quote_wildcard]
      rw [List.isEmpty_nil, if_pos rfl, SelectItem.render]
    · rw [List.isEmpty_eq_false_iff.2 hqualifier, if_neg Bool.false_ne_true, SelectItem.render]
      conv_rhs => rw [hpath, Dialect.quotePath_concat _ hqualifier, hquotes.quote_wildcard]
      rfl
  · rw [if_neg hends, SelectItem.render]

/-! ## Plans of one name -/

section Plans

variable (r : Renderer) (tablePrefix fragment : String)

/-- What is read as a column is selected as it is quoted. -/
theorem ColumnRef.ofFragment_render (hquotes : r.dialect.DefaultQuotes) :
    Ensures (ColumnRef.ofFragment tablePrefix fragment) fun column =>
      (SelectItem.ofColumn column).render r (({} : Context).within .select) =
        .ok (r.dialect.quoteColumn column) := by
  intro column hcolumn
  obtain ⟨own, hparse, rfl⟩ := ColumnRef.ofFragment_eq_ok_iff.1 hcolumn
  have hwritable := parseColumn_writable fragment own hparse
  refine SelectItem.render_ofColumn r hquotes _ fun hends => hwritable.wildcard ?_
  rwa [ColumnRef.withPrefix, Path.endsInWildcard, Path.getLast?_prefixQualifier] at hends

/-- A plan that selects one column. -/
theorem Renderer.compile_column (hquotes : r.dialect.DefaultQuotes) :
    r.compile tablePrefix (({} : Plan).select [fragment]) = do
      let column ← ColumnRef.ofFragment tablePrefix fragment
      return "SELECT " ++ Sql.ofText (r.dialect.quoteColumn column) := by
  refine (Renderer.compile_bare r [.column fragment] none []).trans ?_
  have hsource : TableExpr.ofPlan tablePrefix { source := none } = .ok none := rfl
  simp only [hsource, SelectItem.ofSelections, SelectItem.ofSelection, SortKey.ofTerms,
    List.mapM_cons, List.mapM_nil, ok_bind, pure_bind, bind_assoc]
  refine bind_congr_ok fun column hcolumn => ?_
  have hitem := ColumnRef.ofFragment_render r tablePrefix fragment hquotes column hcolumn
  simp only [SelectItem.renderList, hitem, TableExpr.renderClause, SortKey.renderClause, Sql.join,
    ok_bind, pure_bind, Sql.append_empty]

/-- A plan of a table. -/
theorem Renderer.compile_table :
    r.compile tablePrefix (Plan.ofTable fragment) = do
      let table ← TableName.ofFragment tablePrefix fragment
      return "SELECT * FROM " ++ Sql.ofText (r.dialect.quoteTable table) := by
  refine (Renderer.compile_bare r [] (some (.table fragment)) []).trans ?_
  simp only [SelectItem.ofSelections, TableExpr.ofPlan, TableExpr.ofSource, TableExpr.withJoins,
    SortKey.ofTerms, List.mapM_nil, ok_bind, pure_bind, bind_assoc]
  refine bind_congr_ok fun table _ => ?_
  have hwords : Sql.ofText "SELECT * FROM " =
    Sql.ofText "SELECT " ++ Sql.ofText wildcard ++ Sql.ofText " FROM " := by decide
  simp only [SelectItem.renderList, SelectItem.render, TableExpr.renderClause, TableExpr.render,
    SortKey.renderClause, Dialect.lockSuffix, Sql.join, hwords, ok_bind, pure_bind, Sql.ofText_empty,
    Sql.append_empty, Sql.append_assoc]

end Plans

namespace Compiler

variable (c : Compiler) (fragment : String)

theorem quoteColumn_eq_error_iff (e : Error) :
    c.quoteColumn fragment = .error e ↔
      ∃ fault, parseColumn fragment = .error fault ∧ e = .fragment fault := by
  rw [quoteColumn_eq, bind_pure_eq_error_iff, ColumnRef.ofFragment, bind_pure_eq_error_iff,
    ofFragmentResult_eq_error_iff]

theorem quoteTable_eq_error_iff (e : Error) :
    c.quoteTable fragment = .error e ↔
      ∃ fault, parseTable fragment = .error fault ∧ e = .fragment fault := by
  rw [quoteTable_eq, bind_pure_eq_error_iff, TableName.ofFragment, bind_pure_eq_error_iff,
    ofFragmentResult_eq_error_iff]

/-- In a dialect with a pair of quotes, a column in quotes is what a plan selects that selects nothing
else, and a table in quotes is what a plan of the table selects from. Both fail for a fragment that
cannot be read, with the error of the reader, and for no other. -/
theorem quoting_agrees_with_select (hquotes : c.dialect.DefaultQuotes) :
    (c.select (({} : Plan).select [fragment]) = do
        return Sql.ofText ("SELECT " ++ (← c.quoteColumn fragment))) ∧
      (c.select (Plan.ofTable fragment) = do
        return Sql.ofText ("SELECT * FROM " ++ (← c.quoteTable fragment))) ∧
      (∀ e, c.quoteColumn fragment = .error e ↔
        ∃ fault, parseColumn fragment = .error fault ∧ e = .fragment fault) ∧
      ∀ e, c.quoteTable fragment = .error e ↔
        ∃ fault, parseTable fragment = .error fault ∧ e = .fragment fault := by
  refine ⟨?_, ?_, c.quoteColumn_eq_error_iff fragment, c.quoteTable_eq_error_iff fragment⟩
  · rw [select_eq_compile, Renderer.compile_column c.renderer _ _ hquotes, quoteColumn_eq]
    simp only [bind_assoc, pure_bind, Sql.ofText_append]
    rfl
  · rw [select_eq_compile, Renderer.compile_table, quoteTable_eq]
    simp only [bind_assoc, pure_bind, Sql.ofText_append]
    rfl

/-- A wildcard in quotes, behind a schema and a table, in a dialect with quotes of its own. -/
theorem quoting_agrees_with_select_angles :
    let c : Compiler := ⟨{ name := "angles", openQuote := '<', closeQuote := '>' }, "app_"⟩
    let fragment := "shop.users.[*]"
    c.quoteColumn fragment = .ok "<shop>.<app_users>.*" ∧
      c.select (({} : Plan).select [fragment]) = .ok (.ofText "SELECT <shop>.<app_users>.*") := by
  intro c fragment
  have hquoted : c.quoteColumn fragment = .ok "<shop>.<app_users>.*" := by decide +kernel
  refine ⟨hquoted, ?_⟩
  rw [(c.quoting_agrees_with_select fragment rfl).1, hquoted]
  decide

end Compiler

end QueryCompiler
