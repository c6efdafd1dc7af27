import QueryCompiler.Proofs.FilterMeaning
import QueryCompiler.Proofs.Unions

/-! # Well-formed plans

Whether a plan has SQL depends on the plan and the engine alone, and can be read off the plan:
fragments have to be what their place asks for, joins need something to join, some engines have no
LIKE that tells capitals, and a lock needs words and a place (`Plan.isWellFormed`). These are all the
reasons to fail (`Config.select_succeeds_iff`). Text in the user's own words is never one.
-/

namespace QueryCompiler
set_option autoImplicit false

/-! ## Parts without plans -/

/-- Whether a fragment can be read as a column, of a select list for example. -/
def Fragment.isColumn (fragment : String) : Bool := (parseColumn fragment).isOk

/-- Whether a fragment can be read as a table. -/
def Fragment.isTable (fragment : String) : Bool := (parseTable fragment).isOk

/-- Whether an engine has a LIKE that tells capitals from small letters. -/
def Engine.likesCapitals : Engine → Bool
  | .mysql | .postgres => true
  | .sqlite | .sqlserver => false

def OrderTerm.isWellFormed : OrderTerm → Bool
  | .column fragment _ => Fragment.isPlainColumn fragment
  | .raw _ => true

def Source.isTable : Source → Bool
  | .table _ => true
  | _ => false

/-- Whether a lock is given in words, and there are none. -/
def Lock.isBlank : Lock → Bool
  | .raw sql => Text.isBlankText sql
  | _ => false

/-- Whether a lock can be put on a source. SQL Server writes it behind the first table, which has to be
there by name. -/
def Lock.isWellFormed (engine : Engine) (source : Option Source) (lock : Lock) : Bool :=
  !lock.isBlank && (engine != .sqlserver || source.all Source.isTable)

/-! ## Plans -/

mutual

def Operand.isWellFormed (engine : Engine) : Operand → Bool
  | .value _ => true
  | .column fragment => Fragment.isPlainColumn fragment
  | .raw _ => true
  | .subquery plan => plan.isWellFormed engine

def Predicate.isWellFormed (engine : Engine) : Predicate → Bool
  | .compare column _ operand => Fragment.isPlainColumn column && operand.isWellFormed engine
  | .isIn column _ _ => Fragment.isPlainColumn column
  | .inSubquery column plan _ => Fragment.isPlainColumn column && plan.isWellFormed engine
  | .isNull column _ => Fragment.isPlainColumn column
  | .between column low high _ =>
    Fragment.isPlainColumn column && low.isWellFormed engine && high.isWellFormed engine
  | .existsIn plan _ => plan.isWellFormed engine
  | .group filters => Filter.listWellFormed engine filters
  | .raw _ => true
  | .datePart column _ _ _ => Fragment.isPlainColumn column
  | .jsonLength column _ _ => Fragment.isPlainColumn column
  | .like column _ caseSensitive _ =>
    Fragment.isPlainColumn column && (!caseSensitive || engine.likesCapitals)

def Filter.listWellFormed (engine : Engine) : List Filter → Bool
  | [] => true
  | ⟨_, predicate⟩ :: filters => predicate.isWellFormed engine && Filter.listWellFormed engine filters

def Selection.isWellFormed (engine : Engine) : Selection → Bool
  | .column fragment => Fragment.isColumn fragment
  | .raw _ => true
  | .subquery plan _ => plan.isWellFormed engine

def Selection.listWellFormed (engine : Engine) : List Selection → Bool
  | [] => true
  | selection :: selections =>
    selection.isWellFormed engine && Selection.listWellFormed engine selections

def Source.isWellFormed (engine : Engine) : Source → Bool
  | .table fragment => Fragment.isTable fragment
  | .subquery plan _ => plan.isWellFormed engine
  | .raw _ => true

/-- Joins need a source. -/
def Source.optionWellFormed (engine : Engine) (hasJoins : Bool) : Option Source → Bool
  | none => !hasJoins
  | some source => source.isWellFormed engine

def JoinTarget.isWellFormed (engine : Engine) : JoinTarget → Bool
  | .table fragment => Fragment.isTable fragment
  | .subquery plan _ => plan.isWellFormed engine

def Join.listWellFormed (engine : Engine) : List Join → Bool
  | [] => true
  | ⟨_, target, conditions⟩ :: joins =>
    target.isWellFormed engine && Filter.listWellFormed engine conditions &&
      Join.listWellFormed engine joins

def Branch.listWellFormed (engine : Engine) : List Branch → Bool
  | [] => true
  | ⟨plan, _⟩ :: branches => plan.isWellFormed engine && Branch.listWellFormed engine branches

/-- Whether an engine has SQL for a plan. The select list does not matter where an aggregate takes its
place, and an order of the union matters only where there is a union. -/
def Plan.isWellFormed (engine : Engine) : Plan → Bool
  | { selections, source, joins, filters, groups, havings, orders, branches, unionOrders, aggregate,
      lock, .. } =>
    (aggregate.isSome && branches.isEmpty || Selection.listWellFormed engine selections) &&
    aggregate.all Aggregate.isWellFormed &&
    Source.optionWellFormed engine (!joins.isEmpty) source &&
    Join.listWellFormed engine joins &&
    Filter.listWellFormed engine filters &&
    groups.all Fragment.isPlainColumn &&
    Filter.listWellFormed engine havings &&
    orders.all OrderTerm.isWellFormed &&
    lock.all (Lock.isWellFormed engine source) &&
    (branches.isEmpty ||
      Branch.listWellFormed engine branches && unionOrders.all OrderTerm.isWellFormed)

end

/-- A way to write trees for an engine that has SQL for exactly the well-formed ones among the plans
that are nested up to a depth. -/
structure Renderer.Decides (r : Renderer) (engine : Engine) (depth : Nat) : Prop where
  dialect_eq : r.dialect = engine.dialect
  nested_iff : ∀ plan : Plan, plan.depth ≤ depth →
    (Succeeds (r.nested plan) ↔ plan.isWellFormed engine = true)

section Parts

variable {r : Renderer} {engine : Engine} {depth : Nat} {tablePrefix : String} {purpose : Purpose}
  {context : Context}

/-! ## Expressions -/

theorem Expr.yields_renders_ofColumn {fragment : String} :
    (Yields (Expr.ofColumn tablePrefix fragment) fun expr => Succeeds (expr.render r context)) ↔
      Fragment.isPlainColumn fragment = true :=
  Expr.yields_ofColumn (by simp) (by simp)

theorem Operand.yields_ofOperand (hr : r.Decides engine depth) (operand : Operand)
    (hdepth : operand.depth ≤ depth) :
    (Yields (Expr.ofOperand tablePrefix purpose operand) fun expr =>
        Succeeds (expr.render r context)) ↔
      operand.isWellFormed engine = true := by
  cases operand with
  | value value => simp [Expr.ofOperand, Operand.isWellFormed]
  | column column =>
    rw [Expr.ofOperand, Operand.isWellFormed]
    exact Expr.yields_renders_ofColumn
  | raw sql => simp [Expr.ofOperand, Operand.isWellFormed]
  | subquery plan =>
    rw [Operand.depth] at hdepth
    simpa [Expr.ofOperand, Operand.isWellFormed] using hr.nested_iff plan hdepth

theorem Expr.succeeds_renderList (exprs : List Expr) :
    Succeeds (Expr.renderList r context exprs) ↔
      ∀ expr ∈ exprs, Succeeds (expr.render r context) := by
  induction exprs with
  | nil => simp
  | cons expr exprs ih => simp [Expr.renderList, ih, -Expr.render]

theorem Expr.succeeds_renderTerms (connective : Connective) (terms : List Expr) :
    Succeeds (Expr.renderTerms r context connective terms) ↔
      ∀ term ∈ terms, Succeeds (term.render r context) := by
  induction terms with
  | nil => simp
  | cons term terms ih => simp [Expr.renderTerms, ih, -Expr.render]

theorem Expr.succeeds_joined (connective : Connective) {exprs : List Expr} (hne : exprs ≠ []) :
    Succeeds ((Expr.joined connective exprs).render r context) ↔
      ∀ expr ∈ exprs, Succeeds (expr.render r context) := by
  unfold Expr.joined
  split
  · simp
  · have hempty : exprs.isEmpty = false := by simpa using hne
    simp [Expr.render, hempty, Expr.succeeds_renderTerms]

theorem Expr.succeeds_ofTerms (terms : List (Connective × Expr)) :
    (∀ expr ∈ Expr.ofTerms terms, Succeeds (expr.render r context)) ↔
      ∀ term ∈ terms, Succeeds (term.2.render r context) := by
  have hterms : (∀ term ∈ terms, Succeeds (term.2.render r context)) ↔
      ∀ run ∈ runs terms, ∀ expr ∈ run, Succeeds (expr.render r context) := by
    rw [← List.forall_mem_flatten, runs_flatten, List.forall_mem_map]
  have hnil := nil_notMem_runs terms
  rw [hterms]
  unfold Expr.ofTerms
  split
  · next hruns => simp [hruns]
  · next hne =>
    have hmap : (runs terms).map (Expr.joined .and) ≠ [] := by simpa using hne
    simp only [Option.mem_some_iff, forall_eq', Expr.succeeds_joined .or hmap, List.forall_mem_map]
    refine forall_congr' fun run => forall_congr' fun hrun => ?_
    exact Expr.succeeds_joined .and fun h => hnil (h ▸ hrun)

theorem Engine.succeeds_likeText (engine : Engine) (caseSensitive : Bool) :
    Succeeds (engine.dialect.likeText caseSensitive) ↔
      (!caseSensitive || engine.likesCapitals) = true := by
  cases engine <;> cases caseSensitive <;>
    simp [Dialect.likeText, Engine.dialect, Dialect.mysql, Dialect.postgres, Dialect.sqlite,
      Dialect.sqlserver, Engine.likesCapitals]

/-! ## Filters -/

theorem Operand.isWellFormed_of_asksNull {comparison : Comparison} {operand : Operand}
    (h : comparison.asksNull operand = true) : operand.isWellFormed engine = true := by
  cases operand with
  | value value => rw [Operand.isWellFormed]
  | column fragment => cases comparison <;> cases h
  | raw sql => cases comparison <;> cases h
  | subquery plan => cases comparison <;> cases h

theorem Expr.yields_ofComparison (hr : r.Decides engine depth) (left : Expr)
    (comparison : Comparison) (operand : Operand) (hdepth : operand.depth ≤ depth) :
    (Yields (Expr.ofComparison tablePrefix purpose left comparison operand) fun expr =>
        Succeeds (expr.render r context)) ↔
      Succeeds (left.render r context) ∧ operand.isWellFormed engine = true := by
  rw [Expr.ofComparison_eq]
  split
  · next hnull => simp [Operand.isWellFormed_of_asksNull hnull]
  · simp [Operand.yields_ofOperand hr operand hdepth]

theorem Expr.succeeds_inList {operand : Expr} (hoperand : Succeeds (operand.render r context))
    (values : List Value) (negated : Bool) :
    Succeeds ((Expr.inList operand (values.map (.bound · purpose)) negated).render r context) := by
  cases values with
  | nil => simp
  | cons value values => simp [hoperand, Expr.succeeds_renderList]

mutual

theorem Predicate.yields_expr (hr : r.Decides engine depth) : ∀ predicate : Predicate,
    predicate.depth ≤ depth →
    ((Yields (Predicate.expr tablePrefix purpose predicate) fun expr =>
        ∀ e ∈ expr, Succeeds (e.render r context)) ↔
      predicate.isWellFormed engine = true)
  | .compare column comparison operand, hdepth => by
    rw [Predicate.depth] at hdepth
    simp [Predicate.expr, Predicate.isWellFormed, Expr.yields_ofComparison hr _ _ _ hdepth,
      Expr.yields_renders_ofColumn]
  | .isIn column values negated, _ => by
    have hlist {operand : Expr} := @Expr.succeeds_inList r purpose context operand
    simp only [Predicate.expr, Predicate.isWellFormed, yields_bind, yields_pure, Option.mem_some_iff,
      forall_eq']
    exact Expr.yields_ofColumn (fun path => hlist (by simp) values negated)
      fun path steps => hlist (by simp) values negated
  | .inSubquery column plan negated, hdepth => by
    rw [Predicate.depth] at hdepth
    simp [Predicate.expr, Predicate.isWellFormed, Expr.yields_renders_ofColumn,
      hr.nested_iff plan hdepth]
  | .isNull column negated, _ => by
    simp [Predicate.expr, Predicate.isWellFormed, Expr.yields_renders_ofColumn]
  | .between column low high negated, hdepth => by
    rw [Predicate.depth, Nat.max_le] at hdepth
    simp [Predicate.expr, Predicate.isWellFormed, Expr.yields_renders_ofColumn,
      Operand.yields_ofOperand hr low hdepth.1, Operand.yields_ofOperand hr high hdepth.2, and_assoc]
  | .existsIn plan negated, hdepth => by
    rw [Predicate.depth] at hdepth
    simp [Predicate.expr, Predicate.isWellFormed, hr.nested_iff plan hdepth]
  | .group filters, hdepth => by
    rw [Predicate.depth] at hdepth
    have hgroup : ∀ terms : List (Connective × Expr),
        (∀ e ∈ (Expr.ofTerms terms).map Expr.parenthesized, Succeeds (e.render r context)) ↔
          ∀ term ∈ terms, Succeeds (term.2.render r context) := by
      intro terms
      rw [← Expr.succeeds_ofTerms]
      cases Expr.ofTerms terms <;> simp
    simp only [Predicate.expr, Predicate.isWellFormed, yields_bind, yields_pure, hgroup]
    exact Filter.yields_terms hr filters hdepth
  | .raw sql, _ => by simp [Predicate.expr, Predicate.isWellFormed]
  | .datePart column part comparison value, _ => by
    simp [Predicate.expr, Predicate.isWellFormed, Expr.yields_renders_ofColumn]
  | .jsonLength column comparison value, _ => by
    simp only [Predicate.expr, Predicate.isWellFormed, yields_bind, yields_pure, Option.mem_some_iff,
      forall_eq']
    exact Expr.yields_ofColumn (by simp [Dialect.jsonLengthText]) (by simp [Dialect.jsonLengthText])
  | .like column pattern caseSensitive negated, _ => by
    simp [Predicate.expr, Predicate.isWellFormed, Expr.yields_renders_ofColumn, hr.dialect_eq,
      Engine.succeeds_likeText, and_comm]

theorem Filter.yields_terms (hr : r.Decides engine depth) : ∀ filters : List Filter,
    Filter.listDepth filters ≤ depth →
    ((Yields (Filter.terms tablePrefix purpose filters) fun terms =>
        ∀ term ∈ terms, Succeeds (term.2.render r context)) ↔
      Filter.listWellFormed engine filters = true)
  | [], _ => by simp [Filter.terms, Filter.listWellFormed]
  | ⟨connective, predicate⟩ :: filters, hdepth => by
    rw [Filter.listDepth, Filter.depth, Nat.max_le] at hdepth
    have hhead : (Yields (Predicate.expr tablePrefix purpose predicate) fun expr =>
        ∀ e ∈ expr, Succeeds (e.render r context)) ↔ _ :=
      Predicate.yields_expr hr predicate hdepth.1
    have htail : (Yields (Filter.terms tablePrefix purpose filters) fun terms =>
        ∀ term ∈ terms, Succeeds (term.2.render r context)) ↔ _ :=
      Filter.yields_terms hr filters hdepth.2
    rw [Filter.listWellFormed, Bool.and_eq_true, ← hhead, ← htail, ← yields_and_right]
    simp only [Filter.terms, yields_bind, yields_pure]
    refine yields_congr fun expr _ => ?_
    cases expr with
    | none => simp
    | some expr => simp

end

variable (tablePrefix purpose context) in
theorem Expr.yields_ofFilters (hr : r.Decides engine depth) (filters : List Filter)
    (hdepth : Filter.listDepth filters ≤ depth) (keyword : String) :
    (Yields (Expr.ofFilters tablePrefix purpose filters) fun condition =>
        Succeeds (Expr.renderClause r context keyword condition)) ↔
      Filter.listWellFormed engine filters = true := by
  have hclause : ∀ condition, Succeeds (Expr.renderClause r context keyword condition) ↔
      ∀ expr ∈ condition, Succeeds (expr.render r context) := by
    intro condition
    cases condition <;> simp
  simp only [Expr.ofFilters, yields_bind, yields_pure, hclause, Expr.succeeds_ofTerms]
  exact Filter.yields_terms hr filters hdepth

/-! ## Select lists -/

theorem ColumnRef.succeeds_ofFragment (fragment : String) :
    Succeeds (ColumnRef.ofFragment tablePrefix fragment) ↔ Fragment.isColumn fragment = true := by
  unfold ColumnRef.ofFragment Fragment.isColumn
  cases parseColumn fragment <;> simp [ofFragmentResult, Except.isOk, Except.toBool]

theorem TableName.succeeds_ofFragment (fragment : String) :
    Succeeds (TableName.ofFragment tablePrefix fragment) ↔ Fragment.isTable fragment = true := by
  unfold TableName.ofFragment Fragment.isTable
  cases parseTable fragment <;> simp [ofFragmentResult, Except.isOk, Except.toBool]

theorem SelectItem.succeeds_renderList (items : List SelectItem) :
    Succeeds (SelectItem.renderList r context items) ↔
      ∀ item ∈ items, Succeeds (item.render r context) := by
  induction items with
  | nil => simp
  | cons item items ih => simp [SelectItem.renderList, ih, -SelectItem.render]

theorem SelectItem.succeeds_ofColumn (column : ColumnRef) :
    Succeeds ((SelectItem.ofColumn column).render r context) := by
  unfold SelectItem.ofColumn
  split
  · split <;> simp
  · simp

theorem Selection.yields_ofSelection (hr : r.Decides engine depth) (selection : Selection)
    (hdepth : selection.depth ≤ depth) :
    (Yields (SelectItem.ofSelection tablePrefix selection) fun item =>
        Succeeds (item.render r context)) ↔
      selection.isWellFormed engine = true := by
  cases selection with
  | column fragment =>
    simp [SelectItem.ofSelection, Selection.isWellFormed, SelectItem.succeeds_ofColumn,
      ColumnRef.succeeds_ofFragment]
  | raw sql => simp [SelectItem.ofSelection, Selection.isWellFormed]
  | subquery plan label =>
    rw [Selection.depth] at hdepth
    simpa [SelectItem.ofSelection, Selection.isWellFormed] using hr.nested_iff plan hdepth

theorem Selection.yields_ofSelections (hr : r.Decides engine depth) (selections : List Selection)
    (hdepth : Selection.listDepth selections ≤ depth) :
    (Yields (SelectItem.ofSelections tablePrefix selections) fun items =>
        Succeeds (SelectItem.renderList r context items)) ↔
      Selection.listWellFormed engine selections = true := by
  have hall : ∀ selections : List Selection, Selection.listDepth selections ≤ depth →
      ((∀ selection ∈ selections, Yields (SelectItem.ofSelection tablePrefix selection) fun item =>
          Succeeds (item.render r context)) ↔
        Selection.listWellFormed engine selections = true) := by
    intro selections hdepth
    induction selections with
    | nil => simp [Selection.listWellFormed]
    | cons selection selections ih =>
      rw [Selection.listDepth, Nat.max_le] at hdepth
      rw [List.forall_mem_cons, Selection.listWellFormed, Bool.and_eq_true, ih hdepth.2,
        Selection.yields_ofSelection hr selection hdepth.1]
  unfold SelectItem.ofSelections
  split
  · simp [Selection.listWellFormed]
  · simp only [SelectItem.succeeds_renderList, yields_mapM_all]
    exact hall selections hdepth

theorem Aggregate.yields_ofAggregate (distinctQuery : Bool) (aggregate : Aggregate) :
    (Yields (SelectItem.ofAggregate tablePrefix distinctQuery aggregate) fun items =>
        Succeeds (SelectItem.renderList r context items)) ↔
      aggregate.isWellFormed = true := by
  unfold SelectItem.ofAggregate Aggregate.isWellFormed
  cases aggregate.column with
  | none => simp
  | some fragment => simp [Expr.yields_renders_ofColumn]

/-! ## Sources and joins -/

theorem Source.yields_ofSource (hr : r.Decides engine depth) (source : Source)
    (hdepth : source.depth ≤ depth) (hint : Option String) :
    (Yields (TableExpr.ofSource tablePrefix source) fun table =>
        Succeeds (table.render r context hint)) ↔
      source.isWellFormed engine = true ∧ (hint.isSome = true → source.isTable = true) := by
  cases source with
  | table fragment =>
    simp [TableExpr.ofSource, Source.isWellFormed, Source.isTable, TableName.succeeds_ofFragment]
  | subquery plan label =>
    rw [Source.depth] at hdepth
    cases hint <;>
      simp [TableExpr.ofSource, Source.isWellFormed, Source.isTable, hr.nested_iff plan hdepth]
  | raw sql => cases hint <;> simp [TableExpr.ofSource, Source.isWellFormed, Source.isTable]

theorem JoinTarget.yields_ofTarget (hr : r.Decides engine depth) (target : JoinTarget)
    (hdepth : target.depth ≤ depth) :
    (Yields (TableExpr.ofTarget tablePrefix target) fun table =>
        Succeeds (table.render r context none)) ↔
      target.isWellFormed engine = true := by
  cases target with
  | table fragment =>
    simp [TableExpr.ofTarget, JoinTarget.isWellFormed, TableName.succeeds_ofFragment]
  | subquery plan label =>
    rw [JoinTarget.depth] at hdepth
    simp [TableExpr.ofTarget, JoinTarget.isWellFormed, hr.nested_iff plan hdepth]

theorem JoinExpr.succeeds_renderList (joins : List JoinExpr) :
    Succeeds (JoinExpr.renderList r context joins) ↔
      ∀ join ∈ joins, Succeeds (join.render r context) := by
  induction joins with
  | nil => simp
  | cons join joins ih => simp [JoinExpr.renderList, ih, -JoinExpr.render]

theorem Join.yields_ofJoin (hr : r.Decides engine depth) (join : Join)
    (hdepth : join.depth ≤ depth) :
    (Yields (JoinExpr.ofJoin tablePrefix join) fun join => Succeeds (join.render r context)) ↔
      join.target.isWellFormed engine = true ∧
        Filter.listWellFormed engine join.conditions = true := by
  obtain ⟨kind, target, conditions⟩ := join
  rw [Join.depth, Nat.max_le] at hdepth
  simp [JoinExpr.ofJoin, JoinTarget.yields_ofTarget hr target hdepth.1,
    Expr.yields_ofFilters _ _ _ hr conditions hdepth.2, -Expr.renderClause]

theorem Join.yields_all (hr : r.Decides engine depth) (joins : List Join)
    (hdepth : Join.listDepth joins ≤ depth) :
    (∀ join ∈ joins, Yields (JoinExpr.ofJoin tablePrefix join) fun join =>
        Succeeds (join.render r context)) ↔
      Join.listWellFormed engine joins = true := by
  induction joins with
  | nil => simp [Join.listWellFormed]
  | cons join joins ih =>
    rw [Join.listDepth, Nat.max_le] at hdepth
    rw [List.forall_mem_cons, ih hdepth.2, Join.yields_ofJoin hr join hdepth.1]
    obtain ⟨kind, target, conditions⟩ := join
    rw [Join.listWellFormed, Bool.and_eq_true, Bool.and_eq_true]

theorem TableExpr.succeeds_withJoins (first : TableExpr) (joins : List JoinExpr)
    (hint : Option String) :
    Succeeds ((first.withJoins joins).render r context hint) ↔
      Succeeds (first.render r context hint) ∧
        ∀ join ∈ joins, Succeeds (join.render r context.joining) := by
  rw [← JoinExpr.succeeds_renderList]
  cases joins with
  | nil => simp [TableExpr.withJoins]
  | cons join joins => simp [TableExpr.withJoins]

variable (tablePrefix context) in
theorem Plan.yields_source (hr : r.Decides engine depth) (plan : Plan)
    (hsource : Source.optionDepth plan.source ≤ depth) (hjoins : Join.listDepth plan.joins ≤ depth)
    (hint : Option String) :
    (Yields (TableExpr.ofPlan tablePrefix plan) fun table =>
        Succeeds (TableExpr.renderClause r context hint table)) ↔
      (Source.optionWellFormed engine (!plan.joins.isEmpty) plan.source = true ∧
        Join.listWellFormed engine plan.joins = true) ∧
      (hint.isSome = true → plan.source.all Source.isTable = true) := by
  unfold TableExpr.ofPlan
  cases hplan : plan.source with
  | none =>
    cases hnil : plan.joins <;> simp [Source.optionWellFormed, Join.listWellFormed]
  | some source =>
    rw [hplan, Source.optionDepth] at hsource
    simp [Source.optionWellFormed, TableExpr.succeeds_withJoins,
      Source.yields_ofSource hr source hsource, Join.yields_all hr plan.joins hjoins,
      -TableExpr.render, -JoinExpr.render]
    tauto

/-! ## Other clauses -/

theorem SortKey.succeeds_ofTerms (terms : List OrderTerm) :
    Succeeds (SortKey.ofTerms tablePrefix terms) ↔ terms.all OrderTerm.isWellFormed = true := by
  have hterm : ∀ term : OrderTerm,
      Succeeds (SortKey.ofTerm tablePrefix term) ↔ term.isWellFormed = true := by
    intro term
    cases term with
    | column fragment direction =>
      have hcolumn := @Expr.yields_ofColumn tablePrefix fragment (fun _ => True) (by simp) (by simp)
      simpa [SortKey.ofTerm, OrderTerm.isWellFormed] using hcolumn
    | raw sql => simp [SortKey.ofTerm, OrderTerm.isWellFormed]
  unfold SortKey.ofTerms
  split
  · simp
  · simp [hterm]

variable (r tablePrefix context) in
theorem Expr.yields_ofGroups (columns : List String) (keyword : String) :
    (Yields (Expr.ofGroups tablePrefix columns) fun groups =>
        Succeeds (Expr.renderListClause r context keyword groups)) ↔
      columns.all Fragment.isPlainColumn = true := by
  unfold Expr.ofGroups
  split
  · simp
  · simp [Expr.succeeds_renderList, Expr.yields_renders_ofColumn]

/-- Locks are written at one place, and SQL Server's only behind a table. -/
theorem Engine.yields_lock (engine : Engine) (lock : Option Lock) (source : Option Source) :
    ((Yields (engine.dialect.lockAt .tableHint lock) fun hint =>
        hint.isSome = true → source.all Source.isTable = true) ∧
      Succeeds (engine.dialect.lockAt .suffix lock)) ↔
      lock.all (Lock.isWellFormed engine source) = true := by
  cases lock with
  | none => simp [Dialect.lockAt]
  | some lock =>
    cases lock with
    | update | shared =>
      cases engine <;>
        simp [Dialect.lockAt, Engine.dialect, Dialect.mysql, Dialect.postgres, Dialect.sqlite,
          Dialect.sqlserver, Lock.isWellFormed, Lock.isBlank]
    | raw sql =>
      cases hblank : Text.isBlankText sql <;> cases engine <;>
        simp [Dialect.lockAt, Engine.dialect, Dialect.mysql, Dialect.postgres, Dialect.sqlite,
          Dialect.sqlserver, Lock.isWellFormed, Lock.isBlank, hblank]

/-! ## Plans -/

variable (tablePrefix context) in
theorem Plan.yields_items (hr : r.Decides engine depth) (plan : Plan)
    (hdepth : Selection.listDepth plan.selections ≤ depth) (aggregate : Option Aggregate) :
    (Yields (SelectItem.ofPlanWith tablePrefix plan aggregate) fun items =>
        Succeeds (SelectItem.renderList r context items)) ↔
      (aggregate.isSome || Selection.listWellFormed engine plan.selections) = true ∧
        aggregate.all Aggregate.isWellFormed = true := by
  cases aggregate with
  | none => simpa [SelectItem.ofPlanWith] using Selection.yields_ofSelections hr _ hdepth
  | some aggregate => simpa [SelectItem.ofPlanWith] using Aggregate.yields_ofAggregate _ aggregate

/-- A plan without branches is well-formed clause by clause. -/
theorem Select.yields_ofPlanWith (hr : r.Decides engine depth) (plan : Plan)
    (hdepth : plan.depth ≤ depth + 1) (aggregate : Option Aggregate) :
    (Yields (Select.ofPlanWith tablePrefix plan aggregate) fun select =>
        Succeeds (select.render r context)) ↔
      ({ plan with branches := [], aggregate := aggregate } : Plan).isWellFormed engine = true := by
  have hplan := plan.depth_eq
  have hitems := plan.yields_items tablePrefix (context.within .select) hr (by omega) aggregate
  have hsource := plan.yields_source tablePrefix (context.within .from) hr (by omega) (by omega)
  have hfilters := Expr.yields_ofFilters tablePrefix .where (context.within .where) hr plan.filters
    (by omega) " WHERE "
  have hgroups := Expr.yields_ofGroups r tablePrefix (context.within .groupBy) plan.groups " GROUP BY "
  have hhavings := Expr.yields_ofFilters tablePrefix .having (context.within .having) hr plan.havings
    (by omega) " HAVING "
  have horders : (Yields (SortKey.ofTerms tablePrefix plan.orders) fun keys =>
      Succeeds (SortKey.renderClause r (context.within .order) keys)) ↔ _ :=
    (SortKey.ofTerms_renders r (context.within .order) plan.orders).yields_iff
  have hlock := Engine.yields_lock engine plan.lock plan.source
  simp only [Select.ofPlanWith, Select.render, yields_bind, yields_pure, succeeds_bind, succeeds_pure,
    yields_const, yields_and_left, yields_and_right, and_true, hr.dialect_eq, hitems, hfilters,
    hgroups, hhavings, horders, SortKey.succeeds_ofTerms]
  -- the lock decides on the hint before the source is written
  rw [yields_comm]
  simp only [hsource, yields_and_left, Plan.isWellFormed, Bool.and_eq_true, ← hlock, List.isEmpty_nil,
    Bool.and_true, Bool.true_or]
  constructor
  · rintro ⟨hselect, ⟨⟨hfrom, hjoins⟩, hhint⟩, hwhere, hgroup, hhaving, horder, hsuffix⟩
    exact ⟨⟨⟨⟨⟨⟨⟨hselect, hfrom⟩, hjoins⟩, hwhere⟩, hgroup⟩, hhaving⟩, horder⟩, hhint, hsuffix⟩
  · rintro ⟨⟨⟨⟨⟨⟨⟨hselect, hfrom⟩, hjoins⟩, hwhere⟩, hgroup⟩, hhaving⟩, horder⟩, hhint, hsuffix⟩
    exact ⟨hselect, ⟨⟨hfrom, hjoins⟩, hhint⟩, hwhere, hgroup, hhaving, horder, hsuffix⟩

theorem Plan.succeeds_compile_of_nil (hr : r.Decides engine depth) {plan : Plan}
    (hdepth : plan.depth ≤ depth + 1) (h : plan.branches = []) :
    Succeeds (r.compile tablePrefix plan) ↔ plan.isWellFormed engine = true := by
  cases plan
  cases h
  rw [Renderer.compile, Query.ofPlan_of_branches_nil rfl]
  simp only [bind_assoc, pure_bind, succeeds_bind, Query.render]
  exact Select.yields_ofPlanWith hr _ hdepth _

theorem Plan.isWellFormed_of_branches {plan : Plan} (h : plan.branches ≠ []) :
    plan.isWellFormed engine = true ↔
      (plan.unionBase.isWellFormed engine = true ∧
        Branch.listWellFormed engine plan.branches = true ∧
        plan.unionOrders.all OrderTerm.isWellFormed = true) ∧
      plan.aggregate.all Aggregate.isWellFormed = true := by
  obtain ⟨distinct, selections, source, joins, filters, groups, havings, orders, page, branches,
    unionOrders, unionPage, aggregate, lock⟩ := plan
  have hempty : branches.isEmpty = false := by simpa using h
  simp only [Plan.unionBase, Plan.isWellFormed, hempty, Bool.and_eq_true, Bool.and_false,
    Bool.false_or, Option.isSome_none, Option.all_none, List.isEmpty_nil, Bool.true_or, Bool.false_and]
  tauto

theorem Plan.depth_unionBase (plan : Plan) : plan.unionBase.depth ≤ plan.depth := by
  have hnil : Branch.listDepth [] ≤ Branch.listDepth plan.branches := by
    rw [Branch.listDepth]
    exact Nat.zero_le _
  have hmax (a : Nat) {b c : Nat} (h : b ≤ c) : max a b ≤ max a c := by omega
  rw [Plan.depth_eq, Plan.depth_eq plan]
  exact Nat.add_le_add_left (hmax _ (hmax _ (hmax _ (hmax _ (hmax _ hnil))))) 1

theorem Plan.succeeds_compile_of_branches (hr : r.Decides engine depth) {plan : Plan}
    (hdepth : plan.depth ≤ depth + 1) (h : plan.branches ≠ [])
    (hbranches : (∀ branch ∈ plan.branches, Succeeds (r.compile tablePrefix branch.plan)) ↔
      Branch.listWellFormed engine plan.branches = true) :
    Succeeds (r.compile tablePrefix plan) ↔ plan.isWellFormed engine = true := by
  have hbase : Succeeds (r.compile tablePrefix plan.unionBase) ↔
      plan.unionBase.isWellFormed engine = true :=
    Plan.succeeds_compile_of_nil hr (plan.depth_unionBase.trans hdepth) rfl
  have hunion : Succeeds (r.compile tablePrefix plan.withoutAggregate) ↔ _ :=
    Renderer.succeeds_compile_union r h
  rw [hbase, hbranches, SortKey.succeeds_ofTerms] at hunion
  rw [Plan.isWellFormed_of_branches h, ← hunion]
  cases haggregate : plan.aggregate with
  | none => simp [Plan.withoutAggregate_of_none haggregate]
  | some aggregate =>
    rw [Renderer.succeeds_compile_aggregate r h haggregate, Option.all_some]

mutual

theorem Plan.succeeds_compile (hr : r.Decides engine depth) : ∀ plan : Plan,
    plan.depth ≤ depth + 1 →
    (Succeeds (r.compile tablePrefix plan) ↔ plan.isWellFormed engine = true)
  | { branches, .. }, hdepth => by
    match branches with
    | [] => exact Plan.succeeds_compile_of_nil hr hdepth rfl
    | branch :: branches =>
      have hlist : Branch.listDepth (branch :: branches) ≤ depth + 1 := by
        rw [Plan.depth] at hdepth
        omega
      exact Plan.succeeds_compile_of_branches hr hdepth (List.cons_ne_nil _ _)
        (Branch.succeeds_compile hr (branch :: branches) hlist)

theorem Branch.succeeds_compile (hr : r.Decides engine depth) : ∀ branches : List Branch,
    Branch.listDepth branches ≤ depth + 1 →
    ((∀ branch ∈ branches, Succeeds (r.compile tablePrefix branch.plan)) ↔
      Branch.listWellFormed engine branches = true)
  | [], _ => by simp [Branch.listWellFormed]
  | ⟨plan, all⟩ :: branches, hdepth => by
    rw [Branch.listDepth, Branch.depth, Nat.max_le] at hdepth
    rw [List.forall_mem_cons, Branch.listWellFormed, Bool.and_eq_true,
      Plan.succeeds_compile hr plan hdepth.1, Branch.succeeds_compile hr branches hdepth.2]

end

end Parts

/-! ## Engines -/

namespace Config

theorem succeeds_compileWithin (config : Config) (n : Nat) (plan : Plan) (hdepth : plan.depth ≤ n) :
    Succeeds (config.compiler.compileWithin n plan) ↔ plan.isWellFormed config.engine = true := by
  induction n generalizing plan with
  | zero =>
    have hplan := plan.depth_eq
    omega
  | succ n ih =>
    have hr : Renderer.Decides ⟨config.compiler.dialect, config.compiler.compileWithin n⟩
        config.engine n := ⟨rfl, ih⟩
    rw [Compiler.compileWithin_succ]
    exact Plan.succeeds_compile hr plan hdepth

/-- An engine has SQL for exactly the well-formed plans, whatever the prefix of its tables. -/
theorem select_succeeds_iff (config : Config) (plan : Plan) :
    Succeeds (config.compiler.select plan) ↔ plan.isWellFormed config.engine = true := by
  have hr : config.compiler.renderer.Decides config.engine plan.depth :=
    ⟨rfl, fun inner _ => config.succeeds_compileWithin inner.depth inner (Nat.le_refl _)⟩
  rw [Compiler.select_eq_compile]
  exact Plan.succeeds_compile hr plan (Nat.le_succ _)

/-- A query in the place of a table can be locked on MySQL, but not on SQL Server. -/
example :
    let plan : Plan := {
      source := some (.subquery { source := some (.table "users") } "u")
      lock := some .update }
    plan.isWellFormed .mysql = true ∧ plan.isWellFormed .sqlserver = false := by
  decide +kernel

end Config

end QueryCompiler
