import Mathlib.Tactic.Tauto
import QueryCompiler.Compiler
import QueryCompiler.Proofs.Leaves
import QueryCompiler.Proofs.Outcome
import QueryCompiler.Proofs.Reach

/-! # Leaves of a plan

The leaves of a plan are those of the statement tree that it becomes, read off the plan clause by
clause: `Query.ofPlan_leaves` says that the tree has exactly these leaves, in this order and with
these purposes. The plans that are nested in a plan are leaves; only the branches of a union are
entered, because their trees become part of the tree of the union.
-/

namespace QueryCompiler
set_option autoImplicit false

/-! ## Filters -/

/-- The leaves of an operand. -/
def Operand.leaves (purpose : Purpose) : Operand → List Leaf
  | .value v => [.bound v purpose]
  | .column _ => []
  | .raw sql => [.raw sql purpose]
  | .subquery plan => [.plan plan purpose]

/-- Whether a comparison becomes a test for NULL, which has no operand. -/
def Comparison.asksNull : Comparison → Operand → Bool
  | .eq, .value .null => true
  | .ne, .value .null => true
  | _, _ => false

mutual

/-- The leaves of a predicate. -/
def Predicate.leaves (purpose : Purpose) : Predicate → List Leaf
  | .compare _ comparison operand =>
    if comparison.asksNull operand then [] else operand.leaves purpose
  | .isIn _ values _ => values.map (.bound · purpose)
  | .inSubquery _ plan _ => [.plan plan purpose]
  | .isNull .. => []
  | .between _ low high _ => low.leaves purpose ++ high.leaves purpose
  | .existsIn plan _ => [.plan plan purpose]
  | .group filters => Filter.listLeaves purpose filters
  | .raw sql => [.raw sql purpose]
  | .datePart _ _ _ value => [.bound value purpose]
  | .jsonLength _ _ value => [.bound value purpose]
  | .like _ pattern _ _ => [.bound pattern purpose]

/-- The leaves of a list of filters. -/
def Filter.listLeaves (purpose : Purpose) : List Filter → List Leaf
  | [] => []
  | ⟨_, predicate⟩ :: filters => predicate.leaves purpose ++ Filter.listLeaves purpose filters

end

theorem Expr.ofColumn_cases (tablePrefix fragment : String) :
    Ensures (Expr.ofColumn tablePrefix fragment) fun expr =>
      (∃ path, expr = .path path) ∨ ∃ column steps, expr = .json column steps := by
  refine .bind_any fun column _ => ?_
  dsimp only
  refine .ite (fun _ => .error) fun _ => .ite (fun _ => .error) fun _ => .ok ?_
  split
  · exact .inl ⟨_, rfl⟩
  · exact .inr ⟨_, _, rfl⟩

theorem Expr.ofColumn_leaves (tablePrefix fragment : String) :
    Ensures (Expr.ofColumn tablePrefix fragment) fun expr => ∀ context, expr.leaves context = [] := by
  refine (Expr.ofColumn_cases tablePrefix fragment).mono ?_
  rintro expr (⟨path, rfl⟩ | ⟨column, steps, rfl⟩) context
  · rw [Expr.leaves]
  · rw [Expr.leaves]

theorem Expr.ofOperand_leaves (tablePrefix : String) (context : Context) (operand : Operand) :
    Ensures (Expr.ofOperand tablePrefix context.clause operand) fun expr =>
      expr.leaves context = operand.leaves context.clausePurpose := by
  cases operand with
  | value v => exact .ok (by rw [Expr.leaves]; rfl)
  | column column =>
    exact (Expr.ofColumn_leaves tablePrefix column).mono fun expr h => by rw [h]; rfl
  | raw sql => exact .ok (by rw [Expr.leaves]; rfl)
  | subquery plan => exact .ok (by rw [Expr.leaves, Nested.leaves]; rfl)

/-! ## Runs -/

theorem continueRun_flatten {α : Type} (terms : List (Connective × α)) :
    (continueRun terms).1 ++ (continueRun terms).2.flatten = terms.map (·.2) := by
  induction terms with
  | nil => rfl
  | cons term terms ih =>
    obtain ⟨connective, a⟩ := term
    cases connective with
    | and => rw [continueRun, List.cons_append, ih, List.map_cons]
    | or => rw [continueRun, List.nil_append, List.flatten_cons, List.cons_append, ih, List.map_cons]

/-- Cutting a list into runs loses and moves nothing. -/
theorem runs_flatten {α : Type} (terms : List (Connective × α)) :
    (runs terms).flatten = terms.map (·.2) := by
  cases terms with
  | nil => rfl
  | cons term terms =>
    obtain ⟨connective, a⟩ := term
    rw [runs, List.flatten_cons, List.cons_append, continueRun_flatten, List.map_cons]

theorem Expr.listLeaves_eq (context : Context) (exprs : List Expr) :
    Expr.listLeaves context exprs = exprs.flatMap (Expr.leaves context) := by
  induction exprs with
  | nil => rw [Expr.listLeaves, List.flatMap_nil]
  | cons expr exprs ih => rw [Expr.listLeaves, List.flatMap_cons, ih]

theorem Expr.listLeaves_bound (context : Context) (purpose : Purpose) (values : List Value) :
    Expr.listLeaves context (values.map (.bound · purpose)) =
      values.map (.bound · (context.purpose purpose)) := by
  induction values with
  | nil => rw [List.map_nil, List.map_nil, Expr.listLeaves]
  | cons value values ih => rw [List.map_cons, List.map_cons, Expr.listLeaves, ih, Expr.leaves]; rfl

theorem Expr.joined_leaves (context : Context) (connective : Connective) (exprs : List Expr) :
    (Expr.joined connective exprs).leaves context = exprs.flatMap (Expr.leaves context) := by
  unfold Expr.joined
  split
  · rw [List.flatMap_cons, List.flatMap_nil, List.append_nil]
  · rw [Expr.leaves, Expr.listLeaves_eq]

theorem Expr.ofTerms_leaves (context : Context) (terms : List (Connective × Expr)) :
    Expr.clauseLeaves context (Expr.ofTerms terms) =
      (terms.map (·.2)).flatMap (Expr.leaves context) := by
  rw [← runs_flatten]
  unfold Expr.ofTerms
  split
  · next h => rw [h, Expr.clauseLeaves, List.flatten_nil, List.flatMap_nil]
  · rw [Expr.clauseLeaves, Expr.joined_leaves, List.flatMap_map]
    simp only [Expr.joined_leaves]
    rw [← List.flatMap_id (L := runs terms), List.flatMap_assoc]
    rfl

/-! ## Conditions -/

/-- A comparison that asks for NULL has no operand. -/
theorem Expr.ofComparison_eq (tablePrefix : String) (purpose : Purpose) (left : Expr)
    (comparison : Comparison) (operand : Operand) :
    Expr.ofComparison tablePrefix purpose left comparison operand =
      if comparison.asksNull operand then .ok (.isNull left (decide (comparison = .ne)))
      else do return .compare left comparison (← Expr.ofOperand tablePrefix purpose operand) := by
  unfold Expr.ofComparison
  split
  · rfl
  · rfl
  · next notEq notNe =>
    have hasks : comparison.asksNull operand = false := by
      unfold Comparison.asksNull
      split
      · exact (notEq rfl rfl).elim
      · exact (notNe rfl rfl).elim
      · rfl
    rw [hasks]
    rfl

theorem Expr.ofComparison_leaves (tablePrefix : String) (context : Context) {left : Expr}
    (hleft : left.leaves context = []) (comparison : Comparison) (operand : Operand) :
    Ensures (Expr.ofComparison tablePrefix context.clause left comparison operand) fun expr =>
      expr.leaves context =
        if comparison.asksNull operand then [] else operand.leaves context.clausePurpose := by
  rw [Expr.ofComparison_eq]
  split
  · exact .ok (by rw [Expr.leaves, hleft])
  · refine (Expr.ofOperand_leaves tablePrefix context operand).bind fun right hright => .ok ?_
    rw [Expr.leaves, hleft, hright, List.nil_append]

mutual

theorem Predicate.expr_leaves (tablePrefix : String) (context : Context) :
    ∀ predicate : Predicate, Ensures (predicate.expr tablePrefix context.clause) fun expr =>
      Expr.clauseLeaves context expr = predicate.leaves context.clausePurpose
  | .compare column comparison operand => by
    rw [Predicate.expr, Predicate.leaves]
    refine (Expr.ofColumn_leaves tablePrefix column).bind fun left hleft => ?_
    refine (Expr.ofComparison_leaves tablePrefix context (hleft context) comparison operand).bind
      fun expr hexpr => .ok ?_
    rw [Expr.clauseLeaves, hexpr]
  | .isIn column values negated => by
    rw [Predicate.expr, Predicate.leaves]
    refine (Expr.ofColumn_leaves tablePrefix column).bind fun operand hoperand => .ok ?_
    cases values with
    | nil => rw [Expr.clauseLeaves, Expr.leaves]; rfl
    | cons value values =>
      rw [Expr.clauseLeaves, Expr.leaves, hoperand, Expr.listLeaves_bound]
      rfl
  | .inSubquery column plan negated => by
    rw [Predicate.expr, Predicate.leaves]
    refine (Expr.ofColumn_leaves tablePrefix column).bind fun operand hoperand => .ok ?_
    rw [Expr.clauseLeaves, Expr.leaves, hoperand, Nested.leaves, List.nil_append]
  | .isNull column negated => by
    rw [Predicate.expr, Predicate.leaves]
    refine (Expr.ofColumn_leaves tablePrefix column).bind fun operand hoperand => .ok ?_
    rw [Expr.clauseLeaves, Expr.leaves, hoperand]
  | .between column low high negated => by
    rw [Predicate.expr, Predicate.leaves]
    refine (Expr.ofColumn_leaves tablePrefix column).bind fun operand hoperand => ?_
    refine (Expr.ofOperand_leaves tablePrefix context low).bind fun low hlow => ?_
    refine (Expr.ofOperand_leaves tablePrefix context high).bind fun high hhigh => .ok ?_
    rw [Expr.clauseLeaves, Expr.leaves, hoperand, hlow, hhigh, List.nil_append]
  | .existsIn plan negated => by
    rw [Predicate.expr, Predicate.leaves]
    exact .ok (by rw [Expr.clauseLeaves, Expr.leaves, Nested.leaves])
  | .group filters => by
    rw [Predicate.expr, Predicate.leaves]
    refine (Filter.terms_leaves tablePrefix context filters).bind fun terms hterms => .ok ?_
    rw [← hterms, ← Expr.ofTerms_leaves]
    cases Expr.ofTerms terms with
    | none => rfl
    | some expr => rw [Option.map_some, Expr.clauseLeaves, Expr.leaves, Expr.clauseLeaves]
  | .raw sql => by
    rw [Predicate.expr, Predicate.leaves]
    exact .ok (by rw [Expr.clauseLeaves, Expr.leaves])
  | .datePart column part comparison value => by
    rw [Predicate.expr, Predicate.leaves]
    refine (Expr.ofColumn_leaves tablePrefix column).bind fun operand hoperand => .ok ?_
    simp only [Expr.clauseLeaves, Expr.leaves, Expr.listLeaves, hoperand]
    rfl
  | .jsonLength column comparison value => by
    rw [Predicate.expr, Predicate.leaves]
    refine (Expr.ofColumn_leaves tablePrefix column).bind fun operand hoperand => .ok ?_
    rw [Expr.clauseLeaves, Expr.leaves, Expr.leaves, Expr.leaves]
    rfl
  | .like column pattern caseSensitive negated => by
    rw [Predicate.expr, Predicate.leaves]
    refine (Expr.ofColumn_leaves tablePrefix column).bind fun operand hoperand => .ok ?_
    rw [Expr.clauseLeaves, Expr.leaves, hoperand, Expr.leaves]
    rfl

theorem Filter.terms_leaves (tablePrefix : String) (context : Context) :
    ∀ filters : List Filter, Ensures (Filter.terms tablePrefix context.clause filters) fun terms =>
      (terms.map (·.2)).flatMap (Expr.leaves context) =
        Filter.listLeaves context.clausePurpose filters
  | [] => by
    rw [Filter.terms, Filter.listLeaves]
    exact .ok rfl
  | ⟨connective, predicate⟩ :: filters => by
    rw [Filter.terms, Filter.listLeaves]
    refine (Predicate.expr_leaves tablePrefix context predicate).bind fun expr hexpr => ?_
    refine (Filter.terms_leaves tablePrefix context filters).bind fun terms hterms => .ok ?_
    rw [← hexpr, ← hterms]
    cases expr with
    | none => rw [Expr.clauseLeaves, List.nil_append]
    | some expr => rw [Expr.clauseLeaves, List.map_cons, List.flatMap_cons]

end

theorem Expr.ofFilters_leaves (tablePrefix : String) (context : Context) (filters : List Filter) :
    Ensures (Expr.ofFilters tablePrefix context.clause filters) fun expr =>
      Expr.clauseLeaves context expr = Filter.listLeaves context.clausePurpose filters := by
  refine (Filter.terms_leaves tablePrefix context filters).bind fun terms hterms => .ok ?_
  rw [Expr.ofTerms_leaves, hterms]

/-! ## Clauses -/

/-- The leaves of an entry of a select list. -/
def Selection.leaves (purpose : Purpose) : Selection → List Leaf
  | .column _ => []
  | .raw sql => [.raw sql purpose]
  | .subquery plan _ => [.plan plan purpose]

/-- The leaves of a source; those of a lock hint stand behind a table. -/
def Source.leaves (purpose : Purpose) (hint : List Leaf) : Source → List Leaf
  | .table _ => hint
  | .subquery plan _ => [.plan plan purpose]
  | .raw sql => [.raw sql purpose]

/-- The leaves of what a join attaches. -/
def JoinTarget.leaves (purpose : Purpose) : JoinTarget → List Leaf
  | .table _ => []
  | .subquery plan _ => [.plan plan purpose]

/-- The leaves of a join. -/
def Join.leaves (purpose : Purpose) (join : Join) : List Leaf :=
  join.target.leaves purpose ++ Filter.listLeaves purpose join.conditions

/-- The leaves of a term of an ORDER BY. -/
def OrderTerm.leaves (purpose : Purpose) : OrderTerm → List Leaf
  | .column _ _ => []
  | .raw sql => [.raw sql purpose]

/-- The leaves of FROM with its joins. -/
def Plan.sourceLeaves (context : Context) (hint : List Leaf) (plan : Plan) : List Leaf :=
  (plan.source.map (Source.leaves context.clausePurpose hint)).getD [] ++
    plan.joins.flatMap (Join.leaves context.joining.clausePurpose)

theorem forall₂_flatMap {α β γ : Type} {f : α → List γ} {g : β → List γ} {as : List α}
    {bs : List β} (h : List.Forall₂ (fun a b => g b = f a) as bs) :
    bs.flatMap g = as.flatMap f := by
  induction h with
  | nil => rfl
  | cons hhead _ ih => rw [List.flatMap_cons, List.flatMap_cons, hhead, ih]

theorem SelectItem.listLeaves_eq (context : Context) (items : List SelectItem) :
    SelectItem.listLeaves context items = items.flatMap (SelectItem.leaves context) := by
  induction items with
  | nil => rw [SelectItem.listLeaves, List.flatMap_nil]
  | cons item items ih => rw [SelectItem.listLeaves, List.flatMap_cons, ih]

theorem SelectItem.ofSelection_leaves (tablePrefix : String) (context : Context)
    (selection : Selection) :
    Ensures (SelectItem.ofSelection tablePrefix selection) fun item =>
      item.leaves context = selection.leaves context.clausePurpose := by
  cases selection with
  | column fragment =>
    refine .bind_any fun column _ => .ok ?_
    unfold SelectItem.ofColumn
    split
    · rw [SelectItem.leaves]; rfl
    · rw [SelectItem.leaves]; rfl
  | raw sql => exact .ok (by rw [SelectItem.leaves, Expr.leaves]; rfl)
  | subquery plan label =>
    exact .ok (by rw [SelectItem.leaves, Expr.leaves, Nested.leaves]; rfl)

theorem SelectItem.ofSelections_leaves (tablePrefix : String) (context : Context)
    (selections : List Selection) :
    Ensures (SelectItem.ofSelections tablePrefix selections) fun items =>
      SelectItem.listLeaves context items =
        selections.flatMap (Selection.leaves context.clausePurpose) := by
  unfold SelectItem.ofSelections
  split
  · exact .ok (by rw [SelectItem.listLeaves, SelectItem.listLeaves, SelectItem.leaves]; rfl)
  · refine (Ensures.mapM fun selection _ =>
      SelectItem.ofSelection_leaves tablePrefix context selection).mono fun items hitems => ?_
    rw [SelectItem.listLeaves_eq, forall₂_flatMap hitems]

theorem SelectItem.ofAggregate_leaves (tablePrefix : String) (context : Context) (distinct : Bool)
    (aggregate : Aggregate) :
    Ensures (SelectItem.ofAggregate tablePrefix distinct aggregate) fun items =>
      SelectItem.listLeaves context items = [] := by
  unfold SelectItem.ofAggregate
  cases aggregate.column with
  | none =>
    refine .ok ?_
    simp only [SelectItem.listLeaves, SelectItem.leaves, Expr.leaves, Expr.listLeaves,
      List.append_nil]
  | some fragment =>
    refine (Expr.ofColumn_leaves tablePrefix fragment).bind fun column hcolumn => .ok ?_
    simp only [SelectItem.listLeaves, SelectItem.leaves, Expr.leaves, Expr.listLeaves, hcolumn,
      List.append_nil]

theorem TableExpr.ofSource_leaves (tablePrefix : String) (context : Context) (hint : List Leaf)
    (source : Source) :
    Ensures (TableExpr.ofSource tablePrefix source) fun table =>
      table.leaves context hint = source.leaves context.clausePurpose hint := by
  cases source with
  | table fragment =>
    refine .bind_any fun table _ => .ok ?_
    rw [TableExpr.leaves]; rfl
  | subquery plan label => exact .ok (by rw [TableExpr.leaves, Nested.leaves]; rfl)
  | raw sql => exact .ok (by rw [TableExpr.leaves]; rfl)

theorem TableExpr.ofTarget_leaves (tablePrefix : String) (context : Context)
    (target : JoinTarget) :
    Ensures (TableExpr.ofTarget tablePrefix target) fun table =>
      table.leaves context [] = target.leaves context.clausePurpose := by
  cases target with
  | table fragment =>
    refine .bind_any fun table _ => .ok ?_
    rw [TableExpr.leaves]; rfl
  | subquery plan label => exact .ok (by rw [TableExpr.leaves, Nested.leaves]; rfl)

theorem JoinExpr.ofJoin_leaves (tablePrefix : String) (context : Context) (join : Join) :
    Ensures (JoinExpr.ofJoin tablePrefix join) fun expr =>
      expr.leaves context.joining = join.leaves context.joining.clausePurpose := by
  refine (TableExpr.ofTarget_leaves tablePrefix context.joining join.target).bind
    fun target htarget => ?_
  refine (Expr.ofFilters_leaves tablePrefix context.joining join.conditions).bind
    fun on hon => .ok ?_
  rw [JoinExpr.leaves, htarget, hon]; rfl

theorem JoinExpr.listLeaves_eq (context : Context) (joins : List JoinExpr) :
    JoinExpr.listLeaves context joins = joins.flatMap (JoinExpr.leaves context) := by
  induction joins with
  | nil => rw [JoinExpr.listLeaves, List.flatMap_nil]
  | cons join joins ih => rw [JoinExpr.listLeaves, List.flatMap_cons, ih]

theorem TableExpr.withJoins_leaves (context : Context) (hint : List Leaf) (first : TableExpr)
    (joins : List JoinExpr) :
    (first.withJoins joins).leaves context hint =
      first.leaves context hint ++ joins.flatMap (JoinExpr.leaves context.joining) := by
  unfold TableExpr.withJoins
  split
  · rw [List.flatMap_nil, List.append_nil]
  · rw [TableExpr.leaves, JoinExpr.listLeaves_eq]

theorem TableExpr.ofPlan_leaves (tablePrefix : String) (context : Context) (hint : List Leaf)
    (plan : Plan) :
    Ensures (TableExpr.ofPlan tablePrefix plan) fun table =>
      TableExpr.clauseLeaves context hint table = plan.sourceLeaves context hint := by
  unfold TableExpr.ofPlan Plan.sourceLeaves
  cases plan.source with
  | none =>
    refine .ite (fun h => .ok ?_) fun _ => .error
    rw [List.isEmpty_iff.1 h, TableExpr.clauseLeaves]; rfl
  | some source =>
    refine (TableExpr.ofSource_leaves tablePrefix context hint source).bind fun first hfirst => ?_
    refine (Ensures.mapM fun join _ => JoinExpr.ofJoin_leaves tablePrefix context join).bind
      fun joins hjoins => .ok ?_
    rw [TableExpr.clauseLeaves, TableExpr.withJoins_leaves, hfirst, forall₂_flatMap hjoins]; rfl

theorem SortKey.listLeaves_eq (context : Context) (keys : List SortKey) :
    SortKey.listLeaves context keys = keys.flatMap (SortKey.leaves context) := by
  induction keys with
  | nil => rw [SortKey.listLeaves, List.flatMap_nil]
  | cons key keys ih => rw [SortKey.listLeaves, List.flatMap_cons, ih]

theorem SortKey.ofTerm_leaves (tablePrefix : String) (context : Context) (term : OrderTerm) :
    Ensures (SortKey.ofTerm tablePrefix term) fun key =>
      key.leaves context = term.leaves context.clausePurpose := by
  cases term with
  | column column direction =>
    refine (Expr.ofColumn_leaves tablePrefix column).bind fun expr hexpr => .ok ?_
    rw [SortKey.leaves, hexpr]; rfl
  | raw sql => exact .ok (by rw [SortKey.leaves, Expr.leaves]; rfl)

theorem SortKey.ofTerms_leaves (tablePrefix : String) (context : Context)
    (terms : List OrderTerm) :
    Ensures (SortKey.ofTerms tablePrefix terms) fun keys =>
      SortKey.clauseLeaves context keys =
        terms.flatMap (OrderTerm.leaves context.clausePurpose) := by
  unfold SortKey.ofTerms
  split
  · exact .ok (by rw [SortKey.clauseLeaves]; rfl)
  · refine (Ensures.mapM fun term _ => SortKey.ofTerm_leaves tablePrefix context term).bind
      fun keys hkeys => .ok ?_
    rw [SortKey.clauseLeaves, SortKey.listLeaves_eq, forall₂_flatMap hkeys]

theorem Expr.ofGroups_leaves (tablePrefix : String) (context : Context) (columns : List String) :
    Ensures (Expr.ofGroups tablePrefix columns) fun groups =>
      Expr.listClauseLeaves context groups = [] := by
  unfold Expr.ofGroups
  split
  · exact .ok (by rw [Expr.listClauseLeaves])
  · refine (Ensures.mapM (R := fun _ expr => Expr.leaves context expr = []) fun column _ =>
      (Expr.ofColumn_leaves tablePrefix column).mono fun _ h => h context).bind
      fun exprs hexprs => .ok ?_
    rw [Expr.listClauseLeaves, Expr.listLeaves_eq, forall₂_flatMap hexprs, List.flatMap_eq_nil_iff]
    exact fun _ _ => rfl

/-! ## Queries -/

/-- The leaves of the select list of a plan. An aggregate takes its place. -/
def Plan.itemLeaves (purpose : Purpose) (plan : Plan) : Option Aggregate → List Leaf
  | some _ => []
  | none => plan.selections.flatMap (Selection.leaves purpose)

/-- The leaves of the clauses of a plan. -/
def Plan.ownLeaves (context : Context) (plan : Plan) (aggregate : Option Aggregate) : List Leaf :=
  plan.itemLeaves (context.purpose .select) aggregate ++
    plan.sourceLeaves (context.within .from) (Lock.leaves plan.lock) ++
    Filter.listLeaves (context.purpose .where) plan.filters ++
    Filter.listLeaves (context.purpose .having) plan.havings ++
    plan.orders.flatMap (OrderTerm.leaves (context.purpose .order)) ++ Lock.leaves plan.lock

mutual

/-- The leaves of a plan. A union overrides the purposes of its branches. -/
def Plan.leaves (context : Context) : Plan → List Leaf
  | plan@{ branches, .. } =>
    match branches with
    | [] => plan.ownLeaves context plan.aggregate
    | branch :: branches =>
      plan.ownLeaves context none ++
        Branch.listLeaves (context.overriding .union) (branch :: branches) ++
        plan.unionOrders.flatMap (OrderTerm.leaves (context.purpose .unionOrder))

/-- The leaves of the branches of a union. -/
def Branch.listLeaves (context : Context) : List Branch → List Leaf
  | [] => []
  | ⟨plan, _⟩ :: branches => plan.leaves context ++ Branch.listLeaves context branches

end

theorem Plan.leaves_of_branches_nil (context : Context) {plan : Plan} (h : plan.branches = []) :
    plan.leaves context = plan.ownLeaves context plan.aggregate := by
  cases plan
  cases h
  rw [Plan.leaves]

theorem Select.leaves_eq (context : Context) (select : Select) :
    select.leaves context =
      SelectItem.listLeaves (context.within .select) select.items ++
        TableExpr.clauseLeaves (context.within .from) (Lock.leaves select.lock) select.source ++
        Expr.clauseLeaves (context.within .where) select.filter ++
        Expr.listClauseLeaves (context.within .groupBy) select.groupBy ++
        Expr.clauseLeaves (context.within .having) select.having ++
        SortKey.clauseLeaves (context.within .order) select.orderBy ++ Lock.leaves select.lock := by
  cases select
  rw [Select.leaves]

/-- The clauses of a SELECT have the leaves of the clauses of a plan. -/
structure Select.HasLeavesOf (context : Context) (plan : Plan) (aggregate : Option Aggregate)
    (select : Select) : Prop where
  items : SelectItem.listLeaves (context.within .select) select.items =
    plan.itemLeaves (context.purpose .select) aggregate
  source : TableExpr.clauseLeaves (context.within .from) (Lock.leaves plan.lock) select.source =
    plan.sourceLeaves (context.within .from) (Lock.leaves plan.lock)
  filter : Expr.clauseLeaves (context.within .where) select.filter =
    Filter.listLeaves (context.purpose .where) plan.filters
  groupBy : Expr.listClauseLeaves (context.within .groupBy) select.groupBy = []
  having : Expr.clauseLeaves (context.within .having) select.having =
    Filter.listLeaves (context.purpose .having) plan.havings
  orderBy : SortKey.clauseLeaves (context.within .order) select.orderBy =
    plan.orders.flatMap (OrderTerm.leaves (context.purpose .order))
  lock : select.lock = plan.lock

theorem SelectItem.ofPlanWith_leaves (tablePrefix : String) (context : Context) (plan : Plan)
    (aggregate : Option Aggregate) :
    Ensures (SelectItem.ofPlanWith tablePrefix plan aggregate) fun items =>
      SelectItem.listLeaves context items = plan.itemLeaves context.clausePurpose aggregate := by
  cases aggregate with
  | none => exact SelectItem.ofSelections_leaves tablePrefix context plan.selections
  | some aggregate => exact SelectItem.ofAggregate_leaves tablePrefix context plan.distinct aggregate

theorem Select.ofPlanWith_clauses (tablePrefix : String) (context : Context) (plan : Plan)
    (aggregate : Option Aggregate) :
    Ensures (Select.ofPlanWith tablePrefix plan aggregate)
      (Select.HasLeavesOf context plan aggregate) := by
  refine (SelectItem.ofPlanWith_leaves tablePrefix (context.within .select) plan aggregate).bind
    fun items hitems => ?_
  refine (TableExpr.ofPlan_leaves tablePrefix (context.within .from) (Lock.leaves plan.lock)
    plan).bind fun source hsource => ?_
  refine (Expr.ofFilters_leaves tablePrefix (context.within .where) plan.filters).bind
    fun filter hfilter => ?_
  refine (Expr.ofGroups_leaves tablePrefix (context.within .groupBy) plan.groups).bind
    fun groupBy hgroupBy => ?_
  refine (Expr.ofFilters_leaves tablePrefix (context.within .having) plan.havings).bind
    fun having hhaving => ?_
  refine (SortKey.ofTerms_leaves tablePrefix (context.within .order) plan.orders).bind
    fun orderBy horderBy => ?_
  exact .ok ⟨hitems, hsource, hfilter, hgroupBy, hhaving, horderBy, rfl⟩

theorem Select.HasLeavesOf.leaves {context : Context} {plan : Plan}
    {aggregate : Option Aggregate} {select : Select}
    (h : select.HasLeavesOf context plan aggregate) :
    select.leaves context = plan.ownLeaves context aggregate := by
  rw [Select.leaves_eq, h.lock, h.items, h.source, h.filter, h.groupBy, h.having, h.orderBy,
    List.append_nil]
  rfl

/-- The clause around a query does not matter to its leaves. -/
theorem Query.leaves_within (context : Context) (clause : Purpose) (query : Query) :
    query.leaves (context.within clause) = query.leaves context := by
  cases query with
  | select tree =>
    rw [Query.leaves, Query.leaves, Select.leaves_eq, Select.leaves_eq]
    rfl
  | union left right all orderBy page =>
    rw [Query.leaves, Query.leaves, Query.leaves_within context clause left]
    have hright := Query.leaves_within (context.overriding .union) clause right
    rw [← hright]
    rfl

theorem Select.over_leaves (context : Context) (query : Query) (items : List SelectItem) :
    (Select.over query items).leaves context =
      SelectItem.listLeaves (context.within .select) items ++ query.leaves context := by
  have hquery := Query.leaves_within context .from query
  simp only [Select.over, Select.leaves, TableExpr.clauseLeaves, TableExpr.leaves, Nested.leaves,
    Expr.clauseLeaves, Expr.listClauseLeaves, SortKey.clauseLeaves, Lock.leaves, hquery,
    List.append_nil]

/-- A union that has no order yet. -/
def Query.IsOpenUnion (query : Query) : Prop :=
  ∃ left right all, query = .union left right all none {}

theorem Query.withTail_leaves (context : Context) {query : Query} (h : query.IsOpenUnion)
    (orderBy : Option (List SortKey)) (page : Page) :
    (query.withTail orderBy page).leaves context =
      query.leaves context ++ SortKey.clauseLeaves (context.within .unionOrder) orderBy := by
  obtain ⟨left, right, all, rfl⟩ := h
  rw [Query.withTail, Query.leaves, Query.leaves, SortKey.clauseLeaves, List.append_nil]

mutual

theorem Query.ofPlan_leaves (tablePrefix : String) (context : Context) :
    ∀ plan : Plan, Ensures (Query.ofPlan tablePrefix plan) fun query =>
      query.leaves context = plan.leaves context
  | plan@{ branches, .. } => by
    match branches with
    | [] =>
      rw [Query.ofPlan, Plan.leaves]
      refine (Select.ofPlanWith_clauses tablePrefix context _ _).bind fun select hselect => .ok ?_
      rw [Query.leaves, hselect.leaves]
    | ⟨branch, all⟩ :: branches =>
      rw [Query.ofPlan, Plan.leaves]
      refine (Select.ofPlanWith_clauses tablePrefix context _ none).bind fun base hbase => ?_
      refine (Query.unite_leaves tablePrefix context (.select base) (⟨branch, all⟩ :: branches)).bind
        fun united ⟨hunited, hopen⟩ => ?_
      refine (SortKey.ofTerms_leaves tablePrefix (context.within .unionOrder) _).bind
        fun orderBy horderBy => ?_
      rw [Query.leaves, hbase.leaves] at hunited
      have hquery := Query.withTail_leaves context (hopen (.inr (List.cons_ne_nil _ _))) orderBy
      rw [hunited, horderBy] at hquery
      dsimp only
      split
      · exact .ok (hquery _)
      · refine (SelectItem.ofAggregate_leaves tablePrefix (context.within .select) false _).bind
          fun items hitems => .ok ?_
        rw [Query.leaves, Select.over_leaves, hitems, hquery]
        rfl

theorem Query.unite_leaves (tablePrefix : String) (context : Context) (left : Query) :
    ∀ branches : List Branch, Ensures (Query.unite tablePrefix left branches) fun query =>
      query.leaves context =
        left.leaves context ++ Branch.listLeaves (context.overriding .union) branches ∧
      (left.IsOpenUnion ∨ branches ≠ [] → query.IsOpenUnion)
  | [] => by
    rw [Query.unite, Branch.listLeaves, List.append_nil]
    exact .ok ⟨rfl, fun h => h.resolve_right fun h => h rfl⟩
  | ⟨plan, all⟩ :: branches => by
    rw [Query.unite, Branch.listLeaves]
    refine (Query.ofPlan_leaves tablePrefix (context.overriding .union) plan).bind
      fun right hright => ?_
    refine (Query.unite_leaves tablePrefix context (.union left right all none {}) branches).mono
      fun query ⟨hquery, hopen⟩ => ⟨?_, fun _ => hopen (.inl ⟨left, right, all, rfl⟩)⟩
    rw [hquery, Query.leaves, hright, SortKey.clauseLeaves, List.append_nil, List.append_assoc]

end

/-! ## Existence -/

/-- The question whether a plan has a row has no other leaves than the plan, apart from the number
that is its answer. -/
theorem Select.existence_leaves (style : ExistsStyle) (tablePrefix : String) (plan : Plan) :
    Ensures (Select.existence style tablePrefix plan) fun select =>
      ∀ leaf ∈ select.leaves {}, leaf = .raw ⟨"1", []⟩ .select ∨ leaf ∈ plan.leaves {} := by
  have hone : SelectItem.listLeaves (({} : Context).within .select) [SelectItem.one] =
      [.raw ⟨"1", []⟩ .select] := by
    simp only [SelectItem.one, SelectItem.listLeaves, SelectItem.leaves, Expr.leaves,
      List.append_nil]
    rfl
  cases style with
  | selectExists =>
    refine (Query.ofPlan_leaves tablePrefix {} plan).bind fun query hquery => .ok ?_
    have hwithin := Query.leaves_within {} .select query
    rw [hquery] at hwithin
    simp only [Select.existsIn, Select.leaves, SelectItem.listLeaves, SelectItem.leaves,
      Expr.leaves, Nested.leaves, TableExpr.clauseLeaves, Expr.clauseLeaves, Expr.listClauseLeaves,
      SortKey.clauseLeaves, Lock.leaves, List.append_nil, hwithin]
    exact fun leaf hleaf => .inr hleaf
  | topOne =>
    refine .ite (fun hbranches => ?_) fun _ => ?_
    · refine (Select.ofPlanWith_clauses tablePrefix {} plan none).bind fun select hselect => .ok ?_
      intro leaf hleaf
      rw [Select.leaves_eq, hone, hselect.lock, hselect.source, hselect.filter, hselect.groupBy,
        hselect.having, SortKey.clauseLeaves] at hleaf
      rw [Plan.leaves_of_branches_nil {} (List.isEmpty_iff.1 hbranches), Plan.ownLeaves]
      simp only [List.mem_append, List.mem_singleton, List.not_mem_nil, or_false] at hleaf ⊢
      tauto
    · refine (Query.ofPlan_leaves tablePrefix {} plan).bind fun query hquery => .ok ?_
      intro leaf hleaf
      have hover : leaf ∈ (Select.over query [.one]).leaves {} := by
        rw [Select.leaves_eq] at hleaf ⊢
        exact hleaf
      rw [Select.over_leaves, hone, hquery] at hover
      exact List.mem_cons.1 hover

/-! ## Rows -/

/-- The leaves of a row, read in the order of the given columns. -/
def Row.leavesIn (columns : List String) (row : Row) : List Leaf :=
  columns.flatMap fun column => ((row.get? column).map (Operand.leaves .insert)).getD []

/-- The leaves of rows, read in the order of the columns of the first one. -/
def Row.listLeaves : List Row → List Leaf
  | [] => []
  | first :: others => (first :: others).flatMap (Row.leavesIn first.columns)

theorem Row.exprs_leaves (tablePrefix : String) (columns : List String) (row : Row) (index : Nat) :
    Ensures (row.exprs tablePrefix columns index) fun exprs =>
      Expr.listLeaves (({} : Context).within .insert) exprs = row.leavesIn columns := by
  unfold Row.exprs
  dsimp only
  refine .ite (fun _ => .error) fun _ => ?_
  refine (Ensures.mapM (R := fun column expr =>
    Expr.leaves (({} : Context).within .insert) expr =
      ((row.get? column).map (Operand.leaves .insert)).getD []) fun column _ => ?_).mono
    fun exprs hexprs => ?_
  · split
    · exact .error
    · next operand h =>
      rw [h]
      exact Expr.ofOperand_leaves tablePrefix (({} : Context).within .insert) operand
  · rw [Expr.listLeaves_eq, forall₂_flatMap hexprs]; rfl

theorem Row.tuples_leaves (tablePrefix : String) (columns : List String) (rows : List Row) :
    Ensures (Row.tuples tablePrefix columns rows) fun tuples =>
      tuples.flatMap (Expr.listLeaves (({} : Context).within .insert)) =
        rows.flatMap (Row.leavesIn columns) := by
  refine (Ensures.mapM (R := fun row tuple =>
    Expr.listLeaves (({} : Context).within .insert) tuple = row.1.leavesIn columns)
    fun row _ => Row.exprs_leaves tablePrefix columns row.1 row.2).mono fun tuples htuples => ?_
  rw [forall₂_flatMap htuples, ← List.flatMap_map Prod.fst (Row.leavesIn columns),
    List.zipIdx_map_fst]

theorem Insert.ofRows_leaves (tablePrefix : String) (plan : Plan) (rows : List Row)
    (conflict : Option Conflict) :
    Ensures (Insert.ofRows tablePrefix plan rows conflict) fun insert =>
      insert.source.leaves (({} : Context).within .insert) = Row.listLeaves rows := by
  refine .bind_any fun table _ => ?_
  dsimp only
  split
  · exact .ok rfl
  · next first others =>
    refine .ite (fun hfirst => .ite (fun hothers => .ok ?_) fun _ => .error) fun _ => ?_
    · have hcolumns : first.columns = [] := by
        rw [Row.columns, List.isEmpty_iff.1 hfirst, List.map_nil]
      rw [List.isEmpty_iff.1 hothers, Row.listLeaves, hcolumns]
      rfl
    · refine (Row.tuples_leaves tablePrefix first.columns (first :: others)).bind
        fun tuples htuples => .bind_any fun columns _ => .ok htuples

theorem Insert.upsert_leaves (dialect : Dialect) (tablePrefix : String) (plan : Plan)
    (rows : List Row) (key update : List String) :
    Ensures (Insert.upsert dialect tablePrefix plan rows key update) fun insert =>
      insert.source.leaves (({} : Context).within .insert) = Row.listLeaves rows := by
  unfold Insert.upsert
  dsimp only
  refine .ite (fun _ => .error) fun _ => .ite (fun _ => .error) fun _ => ?_
  exact .bind_any fun conflict _ => Insert.ofRows_leaves tablePrefix plan rows (some conflict)

theorem Insert.ofQuery_leaves (tablePrefix : String) (plan source : Plan) (columns : List String) :
    Ensures (Insert.ofQuery tablePrefix plan columns source) fun insert =>
      insert.source.leaves (({} : Context).within .insert) = [.plan source .insert] := by
  refine .bind_any fun table _ => .bind_any fun columns _ => .ok ?_
  rw [InsertSource.leaves, Nested.leaves]
  rfl

/-! ## Updates and deletes -/

/-- The leaves of what picks the rows of an UPDATE or DELETE: joins, filters and order. -/
def Plan.restrictionLeaves (context : Context) (plan : Plan) : List Leaf :=
  plan.joins.flatMap (Join.leaves context.joining.clausePurpose) ++
    Filter.listLeaves (context.purpose .where) plan.filters ++
    plan.orders.flatMap (OrderTerm.leaves (context.purpose .order))

/-- The leaves of the entries of a row that is assigned. -/
def Row.assignedLeaves (row : Row) : List Leaf :=
  row.entries.flatMap fun entry => entry.2.leaves .update

theorem Plan.target_source (plan : Plan) (tablePrefix statement : String) :
    Ensures (plan.target tablePrefix statement) fun table =>
      ∃ fragment, plan.source = some (.table fragment) ∧
        TableName.ofFragment tablePrefix fragment = .ok table := by
  unfold Plan.target
  split
  · next fragment h => exact fun _ htable => ⟨fragment, h, htable⟩
  · exact .error

/-- A plan that selects from a table by name has no leaves in FROM but those of its joins. -/
theorem TableExpr.ofPlan_leaves_of_table {plan : Plan} {fragment : String}
    (htable : plan.source = some (.table fragment)) (tablePrefix : String) (context : Context)
    (clause : Purpose) :
    Ensures (TableExpr.ofPlan tablePrefix plan) fun source =>
      TableExpr.clauseLeaves (context.within clause) [] source =
        plan.joins.flatMap (Join.leaves context.joining.clausePurpose) := by
  refine (TableExpr.ofPlan_leaves tablePrefix (context.within clause) [] plan).mono
    fun source hsource => ?_
  rw [hsource, Plan.sourceLeaves, htable]
  rfl

theorem Select.projection_leaves {plan : Plan} {fragment : String}
    (htable : plan.source = some (.table fragment)) (tablePrefix : String) (context : Context)
    (column : Path) :
    Ensures (Select.projection tablePrefix plan column) fun select =>
      select.leaves context = plan.restrictionLeaves context := by
  refine (TableExpr.ofPlan_leaves_of_table htable tablePrefix context .from).bind
    fun source hsource => ?_
  refine (Expr.ofFilters_leaves tablePrefix (context.within .where) plan.filters).bind
    fun filter hfilter => ?_
  refine (SortKey.ofTerms_leaves tablePrefix (context.within .order) plan.orders).bind
    fun orderBy horderBy => .ok ?_
  simp only [Select.leaves, SelectItem.listLeaves, SelectItem.leaves, Lock.leaves, hsource, hfilter,
    Expr.listClauseLeaves, Expr.clauseLeaves, horderBy, List.append_nil, List.nil_append]
  rfl

theorem Expr.rowIdFilter_leaves {plan : Plan} {fragment : String}
    (htable : plan.source = some (.table fragment)) (tablePrefix : String) (context : Context)
    (table : TableName) (column : Name) :
    Ensures (Expr.rowIdFilter tablePrefix plan table column) fun expr =>
      expr.leaves (context.within .where) = plan.restrictionLeaves context := by
  refine (Select.projection_leaves htable tablePrefix context _).bind fun select hselect => .ok ?_
  have hquery := Query.leaves_within context .where (.select select)
  rw [Expr.leaves, Expr.leaves, Nested.leaves, hquery, Query.leaves, hselect, List.nil_append]

theorem TableExpr.getD_leaves (context : Context) (source : Option TableExpr) (table : TableName) :
    (source.getD (.table table)).leaves context [] = TableExpr.clauseLeaves context [] source := by
  cases source with
  | none => rw [Option.getD_none, TableExpr.leaves, TableExpr.clauseLeaves]
  | some source => rw [Option.getD_some, TableExpr.clauseLeaves]

/-- Where a limit stands at the beginning, a write that is reached has no order. -/
theorem Engine.writeTailLeaves_of_reach {engine : Engine} {plan : Plan}
    (h : engine.supportsWrite plan = true) {context : Context} {orderBy : Option (List SortKey)}
    (horderBy : SortKey.clauseLeaves (context.within .order) orderBy =
      plan.orders.flatMap (OrderTerm.leaves (context.purpose .order))) :
    writeTailLeaves engine.dialect context orderBy =
      plan.orders.flatMap (OrderTerm.leaves (context.purpose .order)) := by
  unfold writeTailLeaves
  split
  · next htop =>
    cases engine with
    | sqlserver =>
      rw [Engine.supportsWrite, Bool.and_eq_true, List.isEmpty_iff] at h
      rw [h.2, List.flatMap_nil]
    | mysql | postgres | sqlite => cases htop
  · exact horderBy

theorem Delete.ofPlan_leaves (engine : Engine) (tablePrefix : String) (plan : Plan) :
    Ensures (Delete.ofPlan engine.dialect tablePrefix plan) fun delete =>
      delete.leaves engine.dialect {} = plan.restrictionLeaves {} := by
  refine (plan.target_source tablePrefix "DELETE").bind fun table ⟨fragment, htable, _⟩ => ?_
  refine .bind_any fun reach hreach => ?_
  obtain ⟨hsupports, -⟩ := (Engine.reach_ok_iff ..).1 hreach
  split
  · refine (Expr.rowIdFilter_leaves htable tablePrefix {} table _).bind fun filter hfilter => .ok ?_
    rw [Delete.leaves, TableExpr.leaves, Expr.clauseLeaves, hfilter]
    simp only [writeTailLeaves, SortKey.clauseLeaves, ite_self, List.append_nil, List.nil_append]
  · refine (TableExpr.ofPlan_leaves_of_table htable tablePrefix {} .from).bind
      fun source hsource => ?_
    refine (Expr.ofFilters_leaves tablePrefix (({} : Context).within .where) plan.filters).bind
      fun filter hfilter => ?_
    refine (SortKey.ofTerms_leaves tablePrefix (({} : Context).within .order) plan.orders).bind
      fun orderBy horderBy => .ok ?_
    rw [Delete.leaves, TableExpr.getD_leaves, hsource, hfilter,
      Engine.writeTailLeaves_of_reach hsupports horderBy]
    rfl

theorem Assignment.ofEntry_leaves (tablePrefix : String) (context : Context)
    (entry : String × Operand) :
    Ensures (Assignment.ofEntry tablePrefix entry) fun assignment =>
      assignment.value.leaves (context.within .update) = entry.2.leaves (context.purpose .update) :=
  .bind_any fun _ _ =>
    (Expr.ofOperand_leaves tablePrefix (context.within .update) entry.2).bind fun _ hvalue =>
      .ok hvalue

theorem Assignment.ofEntries_leaves (tablePrefix : String) (row : Row) :
    Ensures (row.entries.mapM (Assignment.ofEntry tablePrefix)) fun assignments =>
      Assignment.listLeaves (({ updating := true } : Context).within .update) assignments =
        row.assignedLeaves :=
  (Ensures.mapM fun entry _ =>
    Assignment.ofEntry_leaves tablePrefix { updating := true } entry).mono
    fun _ hassignments => forall₂_flatMap hassignments

theorem Update.tables_leaves {plan : Plan} {fragment : String}
    (htable : plan.source = some (.table fragment)) (strategy : JoinStrategy)
    (tablePrefix : String) (table : TableName) (context : Context) :
    Ensures (Update.tables strategy tablePrefix plan table plan.hasJoins) fun tables =>
      tables.1.leaves (context.within .update) [] =
        (if strategy = .updateFrom then []
          else plan.joins.flatMap (Join.leaves context.joining.clausePurpose)) ∧
      TableExpr.clauseLeaves (context.within .from) [] tables.2 =
        (if strategy = .updateFrom then
          plan.joins.flatMap (Join.leaves context.joining.clausePurpose) else []) := by
  have hplan := TableExpr.ofPlan_leaves_of_table htable tablePrefix context
  unfold Update.tables
  refine .ite (fun h => ?_) fun h => .ite (fun hjoins => ?_) fun hjoins => .ok ?_
  · refine (hplan .from).bind fun source hsource => .ok ⟨?_, ?_⟩
    · rw [if_pos h.1, TableExpr.leaves]
    · rw [if_pos h.1, hsource]
  · have hstrategy : strategy ≠ .updateFrom := fun heq => h ⟨heq, .inl hjoins⟩
    refine (hplan .update).bind fun source hsource => .ok ⟨?_, ?_⟩
    · rw [if_neg hstrategy, TableExpr.getD_leaves, hsource]
    · rw [if_neg hstrategy, TableExpr.clauseLeaves]
  · have hnone : plan.joins = [] := by simpa [Plan.hasJoins] using hjoins
    rw [hnone, List.flatMap_nil, ite_self, TableExpr.leaves, TableExpr.clauseLeaves]
    exact ⟨rfl, rfl⟩

/-- Where rows are reached directly, MySQL has the joins of an UPDATE in front of the assignments, and
the other engines behind them. -/
theorem Update.tables_leaves_of_direct {plan : Plan} {fragment : String}
    (htable : plan.source = some (.table fragment)) {engine : Engine} {always : Bool}
    (hdirect : ∀ column, engine.reachOf plan always ≠ .rowId column) (tablePrefix : String)
    (table : TableName) (context : Context) (assigned : List Leaf) :
    let joins := plan.joins.flatMap (Join.leaves context.joining.clausePurpose)
    Ensures (Update.tables engine.dialect.joinStrategy tablePrefix plan table plan.hasJoins)
      fun tables =>
        tables.1.leaves (context.within .update) [] ++ assigned ++
          TableExpr.clauseLeaves (context.within .from) [] tables.2 =
        if engine = .mysql then joins ++ assigned else assigned ++ joins := by
  intro joins
  refine (Update.tables_leaves htable engine.dialect.joinStrategy tablePrefix table context).mono
    fun tables ⟨hwritten, hfrom⟩ => ?_
  rw [hwritten, hfrom]
  have hjoins : plan.hasJoins = false → joins = [] := fun h => by
    have hnil : plan.joins = [] := by simpa [Plan.hasJoins] using h
    show plan.joins.flatMap _ = []
    rw [hnil, List.flatMap_nil]
  cases engine with
  | mysql =>
    show joins ++ assigned ++ [] = joins ++ assigned
    rw [List.append_nil]
  | sqlserver => rfl
  | postgres =>
    show joins ++ assigned ++ [] = assigned ++ joins
    rw [hjoins (Engine.hasJoins_eq_false (.inl rfl) hdirect)]
    rfl
  | sqlite =>
    show joins ++ assigned ++ [] = assigned ++ joins
    rw [hjoins (Engine.hasJoins_eq_false (.inr rfl) hdirect)]
    rfl

/-- The leaves of an UPDATE in the order in which an engine writes them. -/
def Plan.updateLeaves (engine : Engine) (plan : Plan) (row : Row) : List Leaf :=
  let context : Context := { updating := true }
  let joins := plan.joins.flatMap (Join.leaves context.joining.clausePurpose)
  (if engine = .mysql then joins ++ row.assignedLeaves else row.assignedLeaves ++ joins) ++
    Filter.listLeaves (context.purpose .where) plan.filters ++
    plan.orders.flatMap (OrderTerm.leaves (context.purpose .order))

theorem Update.ofPlan_leaves (engine : Engine) (tablePrefix : String) (plan : Plan) (row : Row) :
    Ensures (Update.ofPlan engine.dialect tablePrefix plan row) fun update =>
      update.leaves engine.dialect {} = plan.updateLeaves engine row := by
  unfold Update.ofPlan
  dsimp only
  refine .ite (fun _ => .error) fun _ => ?_
  refine (plan.target_source tablePrefix "UPDATE").bind fun table ⟨fragment, htable, _⟩ => ?_
  refine (Assignment.ofEntries_leaves tablePrefix row).bind fun assignments hassigned => ?_
  refine .bind_any fun reach hreach => ?_
  obtain ⟨hsupports, hreachOf⟩ := (Engine.reach_ok_iff ..).1 hreach
  split
  · next column =>
    refine (Expr.rowIdFilter_leaves htable tablePrefix { updating := true } table column).bind
      fun filter hfilter => .ok ?_
    have hmysql : engine ≠ .mysql := by
      rcases Engine.rowId_cases hreachOf with ⟨rfl, -⟩ | ⟨rfl, -⟩ <;> decide
    rw [Update.leaves, hassigned, TableExpr.leaves, TableExpr.clauseLeaves, Expr.clauseLeaves,
      hfilter, Plan.restrictionLeaves, Plan.updateLeaves, if_neg hmysql]
    simp only [writeTailLeaves, SortKey.clauseLeaves, ite_self, List.append_nil, List.nil_append,
      List.append_assoc]
  · next hdirect =>
    refine (Expr.ofFilters_leaves tablePrefix (({ updating := true } : Context).within .where)
      plan.filters).bind fun filter hfilter => ?_
    refine (SortKey.ofTerms_leaves tablePrefix (({ updating := true } : Context).within .order)
      plan.orders).bind fun orderBy horderBy => ?_
    subst hreachOf
    rw [Engine.reach_joined_iff hdirect]
    refine (Update.tables_leaves_of_direct htable hdirect tablePrefix table { updating := true }
      row.assignedLeaves).bind fun tables htables => .ok ?_
    rw [Update.leaves, hassigned, hfilter, Engine.writeTailLeaves_of_reach hsupports horderBy,
      htables]
    rfl

/-- The only leaves of the statements that empty a table are values. -/
theorem Statement.truncation_leaves (dialect : Dialect) (tablePrefix : String) (plan : Plan) :
    Ensures (Statement.truncation dialect tablePrefix plan) fun statements =>
      ∀ statement ∈ statements, ∀ leaf ∈ statement.leaves dialect,
        ∃ value purpose, leaf = .bound value purpose := by
  refine .bind_any fun table _ => ?_
  dsimp only
  split
  · refine .ok fun statement hstatement leaf hleaf => ?_
    simp only [List.mem_cons, List.not_mem_nil, or_false] at hstatement
    rcases hstatement with rfl | rfl
    · simp only [Statement.leaves, Delete.leaves, Delete.sequence, TableExpr.leaves,
        Expr.clauseLeaves, Expr.leaves, writeTailLeaves, SortKey.clauseLeaves, ite_self,
        List.nil_append, List.append_nil, List.mem_singleton] at hleaf
      exact ⟨_, _, hleaf⟩
    · simp only [Statement.leaves, Delete.leaves, TableExpr.leaves, Expr.clauseLeaves,
        writeTailLeaves, SortKey.clauseLeaves, ite_self, List.append_nil,
        List.not_mem_nil] at hleaf
  all_goals
    refine .ok fun statement hstatement leaf hleaf => ?_
    rw [List.mem_singleton.1 hstatement] at hleaf
    cases hleaf

end QueryCompiler
