import Mathlib.Data.List.Forall2
import Mathlib.Data.List.Induction
import Mathlib.Data.List.Nodup
import Mathlib.Data.List.Perm.Subperm
import QueryCompiler.Proofs.Clauses

/-! # The rows of an INSERT

A row is built by setting columns one after the other. Its columns stand in the order in which they were
first set, each with the operand that was set last. An INSERT takes its column list from the first row,
and every other row is read by name in that order (`Compiler.insert_aligns_columns`).

* `Row.columns_ofList`, `Row.get?_ofList`: what a sequence of calls leaves in a row.
* `Compiler.insert_eq_ok_iff`: when an INSERT has SQL, and which.
-/

namespace QueryCompiler
set_option autoImplicit false

/-! ## Rows -/

namespace Row

/-- The columns that calls set, in the order in which they are first set. -/
def firstSet (calls : List (String × Operand)) : List String := (calls.map (·.1)).eraseDups

/-- The operand of the last call for a column. -/
def lastSet (calls : List (String × Operand)) (column : String) : Option Operand :=
  (calls.filter (·.1 = column)).getLast?.map (·.2)

/-- The same columns with the same operands, set in whatever order. -/
def SetAlike (calls calls' : List (String × Operand)) : Prop :=
  ∀ column, lastSet calls column = lastSet calls' column

theorem columns_set (row : Row) (column : String) (operand : Operand) :
    (row.set column operand).columns =
      if column ∈ row.columns then row.columns else row.columns ++ [column] :=
  columns_setEntry column operand row.entries

theorem get?_set (row : Row) (column other : String) (operand : Operand) :
    (row.set column operand).get? other = if column = other then some operand else row.get? other := by
  unfold set get?
  dsimp only
  induction row.entries with
  | nil => by_cases h : column = other <;> simp [setEntry, h]
  | cons entry entries ih =>
    obtain ⟨name, old⟩ := entry
    rw [setEntry]
    by_cases hname : name = column
    · subst hname
      rw [if_pos rfl]
      by_cases hother : name = other <;> simp [hother]
    · rw [if_neg hname]
      by_cases hother : name = other
      · subst hother
        simp [Ne.symm hname]
      · simp only [List.find?_cons, hother, decide_false]
        exact ih

theorem ofList_concat (calls : List (String × Operand)) (call : String × Operand) :
    ofList (calls ++ [call]) = (ofList calls).set call.1 call.2 := by
  rw [ofList, List.foldl_append]
  rfl

/-- A row has the columns of its calls in the order in which they were first set. -/
theorem columns_ofList (calls : List (String × Operand)) :
    (ofList calls).columns = firstSet calls := by
  induction calls using List.reverseRecOn with
  | nil => rfl
  | append_singleton calls call ih =>
    rw [ofList_concat, columns_set, ih, firstSet, firstSet, List.map_append, List.map_singleton,
      List.eraseDups_append]
    by_cases hmem : call.1 ∈ calls.map (·.1)
    · rw [if_pos (List.mem_eraseDups.2 hmem)]
      simp [List.removeAll, List.mem_map.1 hmem]
    · rw [if_neg (mt List.mem_eraseDups.1 hmem)]
      have hnew : ([call.1].removeAll (calls.map (·.1))) = [call.1] := by
        simp only [List.removeAll, List.filter_singleton, List.elem_eq_mem, hmem]
        rfl
      rw [hnew]
      rfl

/-- A row has the operands that its calls set last. -/
theorem get?_ofList (calls : List (String × Operand)) (column : String) :
    (ofList calls).get? column = lastSet calls column := by
  induction calls using List.reverseRecOn with
  | nil => rfl
  | append_singleton calls call ih =>
    rw [ofList_concat, get?_set, ih, lastSet, lastSet, List.filter_append, List.filter_singleton]
    by_cases hcall : call.1 = column
    · simp [hcall]
    · simp [hcall]

theorem mem_of_lastSet {calls : List (String × Operand)} {column : String} {operand : Operand}
    (h : lastSet calls column = some operand) : (column, operand) ∈ calls := by
  obtain ⟨call, hlast, rfl⟩ := Option.map_eq_some_iff.1 h
  obtain ⟨hmem, hcolumn⟩ := List.mem_filter.1 (List.mem_of_getLast? hlast)
  rw [← of_decide_eq_true hcolumn]
  exact hmem

theorem mem_columns_iff (calls : List (String × Operand)) (column : String) :
    column ∈ (ofList calls).columns ↔ column ∈ calls.map (·.1) := by
  rw [columns_ofList, firstSet, List.mem_eraseDups]

/-- Calls that set no column twice can come in any order. -/
theorem SetAlike.of_perm {calls calls' : List (String × Operand)} (hperm : calls.Perm calls')
    (hnodup : (calls.map (·.1)).Nodup) : SetAlike calls calls' := by
  intro column
  have hfilter := hperm.filter (·.1 = column)
  -- one call at most is for the column, so the order of these calls does not matter
  have hlength : (calls.filter (·.1 = column)).length ≤ 1 := by
    have hnames : (calls.filter (·.1 = column)).map (·.1) =
        List.replicate (calls.filter (·.1 = column)).length column := by
      refine List.eq_replicate_iff.2 ⟨by simp, fun name hname => ?_⟩
      obtain ⟨call, hcall, rfl⟩ := List.mem_map.1 hname
      exact of_decide_eq_true (List.mem_filter.1 hcall).2
    have hsub := (List.filter_sublist (p := fun call => call.1 = column) (l := calls)).map (·.1)
    exact List.nodup_replicate.1 (hnames ▸ hnodup.sublist hsub)
  rw [lastSet, lastSet]
  rcases Nat.le_one_iff_eq_zero_or_eq_one.1 hlength with hnone | hone
  · rw [List.length_eq_zero_iff] at hnone
    rw [hnone] at hfilter ⊢
    rw [List.nil_perm.1 hfilter]
  · obtain ⟨call, hcall⟩ := List.length_eq_one_iff.1 hone
    rw [hcall] at hfilter ⊢
    rw [List.singleton_perm.1 hfilter]

end Row

/-! ## Columns -/

/-- A row has the columns of a list, in whatever order, if it has as many and none is missing. -/
theorem Row.size_eq_and_iff (calls calls' : List (String × Operand)) :
    ((Row.ofList calls').size = (Row.ofList calls).columns.length ∧
        ∀ column ∈ (Row.ofList calls).columns, column ∈ (Row.ofList calls').columns) ↔
      ∀ column, column ∈ calls'.map (·.1) ↔ column ∈ calls.map (·.1) := by
  have hsize : (Row.ofList calls').size = (Row.ofList calls').columns.length := by
    rw [Row.size, Row.columns, List.length_map]
  simp only [hsize, ← Row.mem_columns_iff]
  constructor
  · rintro ⟨hlength, hsubset⟩
    -- neither row has a column twice, so the inclusion is a permutation
    have hsubperm := List.subperm_of_subset (Row.ofList calls).nodup hsubset
    exact fun column => (hsubperm.perm_of_length_le (Nat.le_of_eq hlength)).mem_iff.symm
  · intro h
    have hperm := (List.perm_ext_iff_of_nodup (Row.ofList calls').nodup (Row.ofList calls).nodup).2 h
    exact ⟨hperm.length_eq, fun column => (h column).2⟩

theorem Row.isEmpty_of_columns {row : Row} (h : row.columns ≠ []) : row.isEmpty = false := by
  rw [Row.isEmpty, List.isEmpty_eq_false_iff]
  exact fun hentries => h (by rw [Row.columns, hentries, List.map_nil])

theorem Row.get?_eq_some_iff_mem (row : Row) (column : String) :
    (∃ operand, row.get? column = some operand) ↔ column ∈ row.columns := by
  rw [Row.columns, ← Option.isSome_iff_exists, Row.get?, Option.isSome_map, List.find?_isSome]
  simp

theorem Row.exprs_congr {calls calls' : List (String × Operand)} (h : Row.SetAlike calls calls')
    (tablePrefix : String) (columns : List String) (index : Nat) :
    (Row.ofList calls).exprs tablePrefix columns index =
      (Row.ofList calls').exprs tablePrefix columns index := by
  have hget : ∀ column, (Row.ofList calls).get? column = (Row.ofList calls').get? column := by
    intro column
    rw [Row.get?_ofList, Row.get?_ofList, h column]
  have hmem : ∀ column, column ∈ calls.map (·.1) ↔ column ∈ calls'.map (·.1) := by
    intro column
    rw [← Row.mem_columns_iff, ← Row.mem_columns_iff, ← Row.get?_eq_some_iff_mem,
      ← Row.get?_eq_some_iff_mem, hget column]
  have hsize : (Row.ofList calls).size = (Row.ofList calls').size := by
    have hlength := ((Row.size_eq_and_iff calls' calls).2 hmem).1
    rw [hlength, Row.columns, List.length_map, Row.size]
  rw [Row.exprs, Row.exprs, hsize]
  simp only [hget]

/-- The fragment is a plain column with the given name. -/
def IsPlainColumn (fragment : String) (name : Name) : Prop :=
  parseColumn fragment = .ok ⟨[name], [], none⟩ ∧ name ≠ wildcard

theorem plainColumn_eq_ok_iff (fragment : String) (name : Name) :
    plainColumn fragment = .ok name ↔ IsPlainColumn fragment name := by
  unfold plainColumn IsPlainColumn
  cases parseColumn fragment with
  | error e => simp [ofFragmentResult, bind, Except.bind]
  | ok column =>
    simp only [ofFragmentResult, ok_bind, Except.ok.injEq]
    split
    · next own =>
      simp only [ColumnRef.mk.injEq, List.cons.injEq, and_true]
      by_cases hown : own = wildcard
      · rw [if_pos hown]
        refine iff_of_false (by rintro ⟨⟩) ?_
        rintro ⟨rfl, hne⟩
        exact hne hown
      · rw [if_neg hown]
        constructor
        · rintro ⟨⟩
          exact ⟨rfl, hown⟩
        · rintro ⟨rfl, -⟩
          rfl
    · next hshape =>
      refine iff_of_false (by rintro ⟨⟩) ?_
      rintro ⟨rfl, -⟩
      exact hshape name rfl

/-! ## Tuples -/

/-- The expressions are those of the row for the columns, one by one. -/
def Row.HasExprs (tablePrefix : String) (columns : List String) (row : Row) (exprs : List Expr) :
    Prop :=
  row.size = columns.length ∧ List.Forall₂ (fun column expr => ∃ operand,
    row.get? column = some operand ∧ Expr.ofOperand tablePrefix .insert operand = .ok expr)
    columns exprs

theorem Row.exprs_eq_ok_iff (row : Row) (tablePrefix : String) (columns : List String) (index : Nat)
    (exprs : List Expr) :
    row.exprs tablePrefix columns index = .ok exprs ↔ row.HasExprs tablePrefix columns exprs := by
  rw [Row.exprs, Row.HasExprs]
  by_cases hsize : row.size = columns.length
  · simp only [hsize, ne_eq, not_true_eq_false, if_false, true_and]
    rw [mapM_eq_ok_iff]
    refine iff_of_eq (congrArg (List.Forall₂ · columns exprs) ?_)
    funext column expr
    cases row.get? column with
    | none => exact propext ⟨nofun, nofun⟩
    | some operand => simp
  · simp only [ne_eq, hsize, not_false_eq_true, if_true, false_and, iff_false]
    exact nofun

/-- The position of a row shows in errors only. -/
theorem Row.tuples_eq_ok_iff (tablePrefix : String) (columns : List String) (rows : List Row)
    (tuples : List (List Expr)) :
    Row.tuples tablePrefix columns rows = .ok tuples ↔
      List.Forall₂ (Row.HasExprs tablePrefix columns) rows tuples := by
  simp only [Row.tuples, mapM_eq_ok_iff, Row.exprs_eq_ok_iff]
  rw [← List.forall₂_map_left_iff (f := Prod.fst), List.zipIdx_map_fst]

theorem Expr.renderList_eq_mapM (r : Renderer) (context : Context) (exprs : List Expr) :
    Expr.renderList r context exprs = exprs.mapM (Expr.render r context) := by
  induction exprs with
  | nil => rw [Expr.renderList, List.mapM_nil]; rfl
  | cons expr exprs ih => rw [Expr.renderList, List.mapM_cons, ih]

theorem Dialect.joinTexts_eq_intercalate (separator : String) : ∀ texts : List String,
    Dialect.joinTexts separator texts = separator.intercalate texts
  | [] => String.intercalate_nil.symm
  | [_] => String.intercalate_singleton.symm
  | text :: next :: texts => by
    show text ++ separator ++ Dialect.joinTexts separator (next :: texts) = _
    rw [joinTexts_eq_intercalate separator (next :: texts), String.intercalate_cons_cons]

/-- Entries of the tuples of an INSERT, each tuple in parentheses. -/
def Sql.tuples (entries : List (List Sql)) : Sql :=
  Sql.join ", " (entries.map fun tuple => (Sql.join ", " tuple).parens)

theorem renderRows_eq_ok_iff (r : Renderer) (context : Context) (rows : List (List Expr)) (sql : Sql) :
    renderRows r context rows = .ok sql ↔ ∃ entries,
      List.Forall₂ (List.Forall₂ fun expr entry => expr.render r context = .ok entry) rows entries ∧
        sql = Sql.tuples entries := by
  have hrow : ∀ (row : List Expr) (sql : Sql),
      (do return (Sql.join ", " (← Expr.renderList r context row)).parens) = .ok sql ↔ ∃ tuple,
        List.Forall₂ (fun expr entry => expr.render r context = .ok entry) row tuple ∧
          (Sql.join ", " tuple).parens = sql := by
    intro row sql
    rw [bind_pure_eq_ok_iff]
    simp only [Expr.renderList_eq_mapM, mapM_eq_ok_iff]
  simp only [renderRows, bind_pure_eq_ok_iff, mapM_eq_ok_iff, hrow, ← exists_forall₂_and_iff]
  constructor
  · rintro ⟨sqls, ⟨entries, hentries, hsqls⟩, rfl⟩
    refine ⟨entries, hentries, ?_⟩
    rw [← List.forall₂_map_left_iff (f := fun tuple => (Sql.join ", " tuple).parens),
      List.forall₂_eq_eq_eq] at hsqls
    rw [Sql.tuples, hsqls]
  · rintro ⟨entries, hentries, rfl⟩
    refine ⟨_, ⟨entries, hentries, ?_⟩, rfl⟩
    rw [← List.forall₂_map_left_iff (f := fun tuple => (Sql.join ", " tuple).parens),
      List.forall₂_eq_eq_eq]

/-- A place in blocks of equal length that stand one behind the other. -/
theorem getElem?_flatten_blocks {α : Type} {n j : Nat} (hj : j < n) :
    ∀ {blocks : List (List α)}, (∀ block ∈ blocks, block.length = n) → ∀ k : Nat,
      blocks.flatten[k * n + j]? = blocks[k]?.bind (·[j]?)
  | [], _, _ => by simp
  | block :: blocks, hlength, 0 => by
    have hblock := hlength block List.mem_cons_self
    rw [List.flatten_cons, Nat.zero_mul, Nat.zero_add, List.getElem?_append_left (hblock ▸ hj)]
    rfl
  | block :: blocks, hlength, k + 1 => by
    have hblock := hlength block List.mem_cons_self
    have hplace : (k + 1) * n + j = n + (k * n + j) := by rw [Nat.succ_mul]; omega
    rw [List.flatten_cons, hplace, List.getElem?_append_right (by omega), hblock,
      Nat.add_sub_cancel_left, List.getElem?_cons_succ]
    exact getElem?_flatten_blocks hj (fun b hb => hlength b (List.mem_cons_of_mem _ hb)) k

namespace Compiler

variable (c : Compiler)

/-- The SQL of an operand at a place in a statement, compiled on its own. -/
def operandAt (context : Context) (operand : Operand) : Except Error Sql := do
  (← Expr.ofOperand c.tablePrefix context.clause operand).render c.renderer context

/-- The SQL of an operand of an INSERT. -/
def insertOperand : Operand → Except Error Sql := c.operandAt (({} : Context).within .insert)

/-- The entry is what a row has for the column. -/
def HasEntry (row : Row) (column : String) (entry : Sql) : Prop :=
  ∃ operand, row.get? column = some operand ∧ c.insertOperand operand = .ok entry

/-- The tuple has the entries of a row for the columns, one by one, and the row has no other
columns. -/
def Fills (columns : List String) (row : Row) (tuple : List Sql) : Prop :=
  row.size = columns.length ∧ List.Forall₂ (c.HasEntry row) columns tuple

theorem exists_hasExprs_iff (columns : List String) (row : Row) (tuple : List Sql) :
    (∃ exprs, row.HasExprs c.tablePrefix columns exprs ∧ List.Forall₂ (fun expr entry =>
        expr.render c.renderer (({} : Context).within .insert) = .ok entry) exprs tuple) ↔
      c.Fills columns row tuple := by
  have hentry : ∀ column entry, (∃ expr, (∃ operand, row.get? column = some operand ∧
      Expr.ofOperand c.tablePrefix .insert operand = .ok expr) ∧
        expr.render c.renderer (({} : Context).within .insert) = .ok entry) ↔
      c.HasEntry row column entry := by
    intro column entry
    simp only [HasEntry, insertOperand, operandAt, bind_eq_ok_iff]
    constructor
    · rintro ⟨expr, ⟨operand, hget, hexpr⟩, hentry⟩
      exact ⟨operand, hget, expr, hexpr, hentry⟩
    · rintro ⟨operand, hget, expr, hexpr, hentry⟩
      exact ⟨expr, ⟨operand, hget, hexpr⟩, hentry⟩
  simp only [Row.HasExprs, Fills, and_assoc, exists_and_left, exists_forall₂_and_iff, hentry]

/-- The text of an INSERT: the table, the columns, and one tuple of entries for each row. -/
def insertSql (table : Path) (names : List Name) (entries : List (List Sql)) : Sql :=
  "INSERT INTO " ++ ".".intercalate (table.map c.dialect.quote) ++
    " (" ++ ", ".intercalate (names.map c.dialect.quote) ++ ") VALUES " ++ Sql.tuples entries

theorem render_rows_eq_ok_iff (table : Path) {names : List Name} (hnames : names ≠ [])
    (tuples : List (List Expr)) (sql : Sql) :
    c.render (.insert { table := ⟨table, none⟩, columns := names, source := .rows tuples }) =
        .ok sql ↔
      ∃ entries, List.Forall₂ (List.Forall₂ fun expr entry =>
          expr.render c.renderer (({} : Context).within .insert) = .ok entry) tuples entries ∧
        sql = c.insertSql table names entries := by
  have hinto : Sql.ofText "INSERT INTO " = Sql.ofText "INSERT INTO" ++ Sql.ofText " " := by decide
  have hvalues : Sql.ofText ") VALUES " = Sql.ofText ")" ++ Sql.ofText " VALUES " := by decide
  have hcolumns : names.isEmpty = false := by simp [hnames]
  have hrender :
      c.render (.insert { table := ⟨table, none⟩, columns := names, source := .rows tuples }) = do
        let rows ← renderRows c.renderer (({} : Context).within .insert) tuples
        return "INSERT INTO " ++ ".".intercalate (table.map c.dialect.quote) ++
          " (" ++ ", ".intercalate (names.map c.dialect.quote) ++ ") VALUES " ++ rows := by
    simp only [Compiler.render_eq, Statement.render, Insert.render, Insert.renderPlain,
      InsertSource.render, Dialect.insertText, Dialect.conflictText, Dialect.returningText, ok_bind,
      bind_assoc, pure_bind]
    refine bind_congr_ok fun rows _ => ?_
    simp only [Compiler.renderer, Dialect.quoteTable, Dialect.quotePath, Dialect.aliasText,
      Dialect.columnsText, Dialect.quoteNames, Dialect.joinTexts_eq_intercalate, hcolumns, hinto,
      hvalues, Sql.ofText_append, Sql.ofText_empty, Sql.append_empty, Sql.append_assoc,
      Bool.false_eq_true, if_false]
  rw [hrender, bind_pure_eq_ok_iff]
  simp only [renderRows_eq_ok_iff]
  constructor
  · rintro ⟨_, ⟨entries, hentries, rfl⟩, rfl⟩
    exact ⟨entries, hentries, rfl⟩
  · rintro ⟨entries, hentries, rfl⟩
    exact ⟨_, ⟨entries, hentries, rfl⟩, rfl⟩

/-- An INSERT has SQL exactly if its columns are plain and every row fills a tuple, and that SQL consists
of these names and tuples. -/
theorem insert_eq_ok_iff {plan : Plan} {fragment : String} {table : TableName}
    (hsource : plan.source = some (.table fragment)) (htable : parseTable fragment = .ok table)
    {first : Row} (hfirst : first.columns ≠ []) (others : List Row) (sql : Sql) :
    c.insert plan (first :: others) = .ok sql ↔ ∃ names entries,
      List.Forall₂ IsPlainColumn first.columns names ∧
        List.Forall₂ (c.Fills first.columns) (first :: others) entries ∧
        sql = c.insertSql (table.path.prefixTable c.tablePrefix) names entries := by
  have hempty := Row.isEmpty_of_columns hfirst
  have htarget : plan.target c.tablePrefix "INSERT" = .ok (table.withPrefix c.tablePrefix) :=
    Plan.target_eq hsource (TableName.ofFragment_eq_ok_iff.2 ⟨table, htable, rfl⟩) "INSERT"
  rw [insert, Insert.ofRows, htarget]
  simp only [ok_bind, hempty, Bool.false_eq_true, if_false, bind_assoc, pure_bind, bind_eq_ok_iff,
    Row.tuples_eq_ok_iff, mapM_eq_ok_iff, plainColumn_eq_ok_iff]
  have hne : ∀ {names : List Name}, List.Forall₂ IsPlainColumn first.columns names → names ≠ [] := by
    rintro names hnames rfl
    exact hfirst (List.forall₂_nil_right_iff.1 hnames)
  constructor
  · rintro ⟨tuples, htuples, names, hnames, hsql⟩
    obtain ⟨entries, hentries, hsql⟩ := (c.render_rows_eq_ok_iff _ (hne hnames) tuples sql).1 hsql
    refine ⟨names, entries, hnames, ?_, hsql⟩
    exact (exists_forall₂_and_iff.1 ⟨tuples, htuples, hentries⟩).imp fun row tuple =>
      (c.exists_hasExprs_iff first.columns row tuple).1
  · rintro ⟨names, entries, hnames, hentries, hsql⟩
    obtain ⟨tuples, htuples, hentries⟩ := exists_forall₂_and_iff.2 (hentries.imp fun row tuple =>
      (c.exists_hasExprs_iff first.columns row tuple).2)
    exact ⟨tuples, htuples, names, hnames,
      (c.render_rows_eq_ok_iff _ (hne hnames) tuples sql).2 ⟨entries, hentries, hsql⟩⟩

theorem insert_congr (plan : Plan) {first : Row} (hfirst : first.columns ≠ [])
    {others others' : List (List (String × Operand))}
    (h : List.Forall₂ Row.SetAlike others others') :
    c.insert plan (first :: others.map Row.ofList) =
      c.insert plan (first :: others'.map Row.ofList) := by
  have htuples : Row.tuples c.tablePrefix first.columns (first :: others.map Row.ofList) =
      Row.tuples c.tablePrefix first.columns (first :: others'.map Row.ofList) := by
    have hrows : List.Forall₂ (fun row row' => ∀ index,
        Row.exprs row c.tablePrefix first.columns index =
          Row.exprs row' c.tablePrefix first.columns index)
        (first :: others.map Row.ofList) (first :: others'.map Row.ofList) := by
      refine .cons (fun _ => rfl) ?_
      rw [List.forall₂_map_left_iff, List.forall₂_map_right_iff]
      exact h.imp fun _ _ halike => Row.exprs_congr halike c.tablePrefix first.columns
    refine mapM_congr_forall₂ ((forall₂_zipIdx hrows 0).imp ?_)
    rintro ⟨row, index⟩ ⟨row', index'⟩ ⟨hrow, rfl⟩
    exact hrow index
  have hempty := Row.isEmpty_of_columns hfirst
  rw [insert, insert, Insert.ofRows, Insert.ofRows]
  simp only [hempty, htuples, Bool.false_eq_true, if_false]

theorem succeeds_insert_iff {plan : Plan} {fragment : String} {table : TableName}
    (hsource : plan.source = some (.table fragment)) (htable : parseTable fragment = .ok table)
    {first : Row} (hfirst : first.columns ≠ []) (others : List Row) :
    Succeeds (c.insert plan (first :: others)) ↔
      (∀ column ∈ first.columns, ∃ name, IsPlainColumn column name) ∧
        ∀ row ∈ first :: others, ∃ tuple, c.Fills first.columns row tuple := by
  rw [← exists_forall₂_iff, ← exists_forall₂_iff]
  simp only [Succeeds, c.insert_eq_ok_iff hsource htable hfirst]
  constructor
  · rintro ⟨_, names, entries, hnames, hentries, -⟩
    exact ⟨⟨names, hnames⟩, entries, hentries⟩
  · rintro ⟨⟨names, hnames⟩, entries, hentries⟩
    exact ⟨_, names, entries, hnames, hentries, rfl⟩

theorem exists_fills_iff (first calls : List (String × Operand)) :
    (∃ tuple, c.Fills (Row.ofList first).columns (Row.ofList calls) tuple) ↔
      (∀ column, column ∈ calls.map (·.1) ↔ column ∈ first.map (·.1)) ∧
        ∀ column operand, Row.lastSet calls column = some operand →
          Succeeds (c.insertOperand operand) := by
  simp only [Fills, exists_and_left, exists_forall₂_iff, ← Row.size_eq_and_iff, HasEntry,
    and_assoc, and_congr_right_iff]
  intro hsize
  constructor
  · intro h
    have hcolumns : ∀ column ∈ (Row.ofList first).columns, column ∈ (Row.ofList calls).columns := by
      intro column hcolumn
      obtain ⟨_, operand, hget, -⟩ := h column hcolumn
      exact (Row.get?_eq_some_iff_mem _ _).1 ⟨operand, hget⟩
    refine ⟨hcolumns, fun column operand hlast => ?_⟩
    have hmem := (Row.size_eq_and_iff first calls).1 ⟨hsize, hcolumns⟩ column
    rw [← Row.mem_columns_iff, ← Row.mem_columns_iff, ← Row.get?_eq_some_iff_mem,
      Row.get?_ofList] at hmem
    obtain ⟨entry, own, hown, hentry⟩ := h column (hmem.1 ⟨operand, hlast⟩)
    rw [Row.get?_ofList, hlast, Option.some.injEq] at hown
    exact ⟨entry, hown ▸ hentry⟩
  · rintro ⟨hcolumns, hoperands⟩ column hcolumn
    obtain ⟨operand, hget⟩ := (Row.get?_eq_some_iff_mem _ _).2 (hcolumns column hcolumn)
    obtain ⟨entry, hentry⟩ := hoperands column operand (by rw [← Row.get?_ofList, hget])
    exact ⟨entry, operand, hget, hentry⟩

/-! ## Bindings -/

theorem insertOperand_value (value : Value) :
    c.insertOperand (.value value) = .ok (.bound c.dialect.placeholder value .insert) := by
  rw [insertOperand, operandAt, Expr.ofOperand, ok_bind, Expr.render]
  rfl

theorem bindings_insertSql (table : Path) (names : List Name) (entries : List (List Sql)) :
    (c.insertSql table names entries).bindings =
      entries.flatMap fun tuple => tuple.flatMap (·.bindings) := by
  have hparens : ∀ sql : Sql, sql.parens.bindings = sql.bindings := by
    intro sql
    simp [Sql.parens]
  simp only [insertSql, Sql.tuples, Sql.bindings_append, Sql.bindings_ofText, List.nil_append,
    Sql.bindings_join, List.flatMap_map, hparens]

/-- A row of plain values has one binding for each column. -/
theorem Fills.bindings {columns : List String} {row : Row} {tuple : List Sql}
    (h : c.Fills columns row tuple)
    (hvalues : ∀ column operand, row.get? column = some operand → ∃ value, operand = .value value) :
    List.Forall₂ (fun column binding => ∃ value,
      row.get? column = some (.value value) ∧ binding = ⟨value, .insert⟩)
      columns (tuple.flatMap (·.bindings)) := by
  obtain ⟨-, hentries⟩ := h
  induction hentries with
  | nil => exact .nil
  | cons hentry _ ih =>
    obtain ⟨operand, hget, hoperand⟩ := hentry
    obtain ⟨value, rfl⟩ := hvalues _ operand hget
    rw [insertOperand_value, Except.ok.injEq] at hoperand
    subst hoperand
    exact .cons ⟨value, hget, rfl⟩ ih

/-- In rows of plain values, the bindings of a row stand behind those of the rows before it. -/
theorem insertSql_binding {columns : List String} {rows : List Row} {entries : List (List Sql)}
    (hentries : List.Forall₂ (c.Fills columns) rows entries)
    (hvalues : ∀ row ∈ rows, ∀ column operand, row.get? column = some operand →
      ∃ value, operand = .value value)
    {k j : Nat} {row : Row} {column : String} (hrow : rows[k]? = some row)
    (hcolumn : columns[j]? = some column) (table : Path) (names : List Name) :
    ∃ value, row.get? column = some (.value value) ∧
      (c.insertSql table names entries).bindings[k * columns.length + j]? = some ⟨value, .insert⟩ := by
  have hblocks := ((List.forall₂_and_left _ _).2 ⟨hvalues, hentries⟩).imp fun row tuple h =>
    Fills.bindings c h.2 h.1
  have hlength := forall₂_right hblocks fun _ tuple hblock => hblock.length_eq.symm
  obtain ⟨tuple, htuple, hbindings⟩ := forall₂_getElem? hblocks hrow
  obtain ⟨binding, hbinding, value, hvalue, rfl⟩ := forall₂_getElem? hbindings hcolumn
  have hj : j < columns.length := (List.getElem?_eq_some_iff.1 hcolumn).1
  refine ⟨value, hvalue, ?_⟩
  rw [bindings_insertSql, List.flatMap_def,
    getElem?_flatten_blocks hj (List.forall_mem_map.2 hlength), List.getElem?_map, htuple]
  exact hbinding

/-! ## Alignment -/

/-- Every value of an INSERT stands in the place of its column. The INSERT has SQL exactly if all rows have
the columns of the first one, these are plain, and every operand has SQL. Its columns are those of the
first row in the order in which they were first set, and the tuple of a row has the operands that were
set last. The order in which another row was set does not matter. In rows of plain values, the row with
number `k` has its bindings from `k` times the number of columns on. -/
theorem insert_aligns_columns {plan : Plan} {fragment : String} {table : TableName}
    (hsource : plan.source = some (.table fragment)) (htable : parseTable fragment = .ok table)
    {first : List (String × Operand)} (hfirst : first ≠ [])
    (others : List (List (String × Operand))) :
    (Succeeds (c.insert plan ((first :: others).map Row.ofList)) ↔
      (∀ calls ∈ others, ∀ column, column ∈ calls.map (·.1) ↔ column ∈ first.map (·.1)) ∧
        (∀ column ∈ first.map (·.1), ∃ name, IsPlainColumn column name) ∧
        ∀ calls ∈ first :: others, ∀ column operand, Row.lastSet calls column = some operand →
          Succeeds (c.insertOperand operand)) ∧
      (Ensures (c.insert plan ((first :: others).map Row.ofList)) fun sql => ∃ names entries,
        List.Forall₂ IsPlainColumn (Row.firstSet first) names ∧
          List.Forall₂ (fun calls tuple => List.Forall₂ (fun column entry => ∃ operand,
            Row.lastSet calls column = some operand ∧ c.insertOperand operand = .ok entry)
            (Row.firstSet first) tuple) (first :: others) entries ∧
          sql = c.insertSql (table.path.prefixTable c.tablePrefix) names entries) ∧
      (∀ others', List.Forall₂ Row.SetAlike others others' →
        c.insert plan ((first :: others).map Row.ofList) =
          c.insert plan ((first :: others').map Row.ofList)) ∧
      ((∀ calls ∈ first :: others, ∀ column operand, Row.lastSet calls column = some operand →
          ∃ value, operand = .value value) →
        Ensures (c.insert plan ((first :: others).map Row.ofList)) fun sql =>
          ∀ k j calls column, (first :: others)[k]? = some calls →
            (Row.firstSet first)[j]? = some column → ∃ value,
              Row.lastSet calls column = some (.value value) ∧
                sql.bindings[k * (Row.firstSet first).length + j]? = some ⟨value, .insert⟩) := by
  have hcolumns : (Row.ofList first).columns ≠ [] := by
    obtain ⟨call, calls, rfl⟩ := List.exists_cons_of_ne_nil hfirst
    refine List.ne_nil_of_mem (a := call.1) ((Row.mem_columns_iff _ _).2 ?_)
    exact List.mem_map_of_mem List.mem_cons_self
  have hok := c.insert_eq_ok_iff hsource htable hcolumns (others.map Row.ofList)
  refine ⟨?_, ?_, ?_, ?_⟩
  · rw [List.map_cons, c.succeeds_insert_iff hsource htable hcolumns, ← List.map_cons]
    simp only [List.forall_mem_map, exists_fills_iff, Row.mem_columns_iff, List.forall_mem_cons]
    constructor
    · rintro ⟨hplain, ⟨-, hown⟩, hothers⟩
      exact ⟨fun calls hcalls => (hothers calls hcalls).1, hplain, hown,
        fun calls hcalls => (hothers calls hcalls).2⟩
    · rintro ⟨hsame, hplain, hown, hothers⟩
      exact ⟨hplain, ⟨fun _ => trivial, hown⟩,
        fun calls hcalls => ⟨hsame calls hcalls, hothers calls hcalls⟩⟩
  · intro sql hsql
    obtain ⟨names, entries, hnames, hentries, rfl⟩ := (hok sql).1 hsql
    rw [← List.map_cons, List.forall₂_map_left_iff] at hentries
    rw [Row.columns_ofList] at hnames hentries
    refine ⟨names, entries, hnames, hentries.imp fun calls tuple htuple => ?_, rfl⟩
    exact htuple.2.imp fun column entry ⟨operand, hget, hentry⟩ =>
      ⟨operand, (Row.get?_ofList calls column).symm.trans hget, hentry⟩
  · intro others' halike
    exact c.insert_congr plan hcolumns halike
  · intro hvalues sql hsql k j calls column hcalls hcolumn
    obtain ⟨names, entries, -, hentries, rfl⟩ := (hok sql).1 hsql
    rw [Row.columns_ofList, ← List.map_cons] at hentries
    have hplain : ∀ row ∈ (first :: others).map Row.ofList, ∀ column operand,
        row.get? column = some operand → ∃ value, operand = .value value := by
      simp only [List.forall_mem_map, Row.get?_ofList]
      exact hvalues
    have hrow : ((first :: others).map Row.ofList)[k]? = some (Row.ofList calls) := by
      rw [List.getElem?_map, hcalls, Option.map_some]
    obtain ⟨value, hvalue, hbinding⟩ := c.insertSql_binding hentries hplain hrow hcolumn _ names
    exact ⟨value, (Row.get?_ofList calls column).symm.trans hvalue, hbinding⟩

/-- A price is set twice, and the second row names the columns the other way round. -/
theorem insert_aligns_columns_reordered :
    let c := (Config.mk .postgres "app_").compiler
    let plan : Plan := { source := some (.table "shop.orders as o") }
    let first := [("price", Operand.value (.int 1)), ("item", .value (.text "a")),
      ("price", .value (.int 2))]
    let second := [("item", Operand.value (.text "b")), ("price", .value (.int 3))]
    Row.firstSet first = ["price", "item"] ∧
      c.insert plan [Row.ofList first, Row.ofList second] = .ok
        ⟨"INSERT INTO \"shop\".\"app_orders\" (\"price\", \"item\") VALUES (?, ?), (?, ?)",
          [⟨.int 2, .insert⟩, ⟨.text "a", .insert⟩, ⟨.int 3, .insert⟩, ⟨.text "b", .insert⟩]⟩ ∧
      c.insert plan [Row.ofList first, Row.ofList second] =
        c.insert plan [Row.ofList first, Row.ofList second.reverse] ∧
      Ensures (c.insert plan [Row.ofList first, Row.ofList second]) fun sql =>
        sql.bindings[1 * 2 + 0]? = some ⟨.int 3, .insert⟩ := by
  intro c plan first second
  have hsource : plan.source = some (.table "shop.orders as o") := rfl
  have htable : parseTable "shop.orders as o" = .ok ⟨["shop", "orders"], some "o"⟩ := by
    decide +kernel
  have hfirst : first ≠ [] := List.cons_ne_nil _ _
  have hcolumns : Row.firstSet first = ["price", "item"] := by decide
  obtain ⟨-, -, hreorder, hbindings⟩ := c.insert_aligns_columns hsource htable hfirst [second]
  refine ⟨hcolumns, by decide +kernel, ?_, ?_⟩
  · have halike : Row.SetAlike second second.reverse :=
      .of_perm second.reverse_perm.symm (by decide)
    exact hreorder [second.reverse] (.cons halike .nil)
  · have hvalues : ∀ calls ∈ [first, second], ∀ column operand,
        Row.lastSet calls column = some operand → ∃ value, operand = .value value := by
      intro calls hcalls column operand hlast
      have hmem := Row.mem_of_lastSet hlast
      rcases List.mem_pair.1 hcalls with rfl | rfl
      · simp only [first, List.mem_cons, Prod.mk.injEq, List.not_mem_nil, or_false] at hmem
        rcases hmem with ⟨-, rfl⟩ | ⟨-, rfl⟩ | ⟨-, rfl⟩ <;> exact ⟨_, rfl⟩
      · simp only [second, List.mem_cons, Prod.mk.injEq, List.not_mem_nil, or_false] at hmem
        rcases hmem with ⟨-, rfl⟩ | ⟨-, rfl⟩ <;> exact ⟨_, rfl⟩
    intro sql hsql
    obtain ⟨value, hlast, hbinding⟩ :=
      hbindings hvalues sql hsql 1 0 second "price" rfl (by rw [hcolumns]; rfl)
    have hprice : Row.lastSet second "price" = some (.value (.int 3)) := rfl
    cases hlast.symm.trans hprice
    exact hbinding

end Compiler

end QueryCompiler
