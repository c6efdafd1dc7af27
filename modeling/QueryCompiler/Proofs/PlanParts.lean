import QueryCompiler.Proofs.Contents

/-! # Plans inside plans and trees

A statement tree may hold whole plans, and each of them comes from the plan that the tree was built
for: from one of its clauses, or from a clause of a branch of its union (`Query.ofPlan_plans`). That
holds of all plans in the tree, whether they are written or not, and of the trees that ask for
existence, update and delete as well; the plans in an INSERT are operands of its rows.

* `Plan.IsPart`: a plan stands in a clause of another one.
* `Plan.NestedIn`: a plan stands in another one at any depth. The relation is well-founded
  (`Plan.nestedIn_wellFounded`).
* `Expr.plans`, `TableExpr.plans`, `Select.plans`, `Query.plans`: the plans in a tree.
-/

namespace QueryCompiler
set_option autoImplicit false

/-! ## Parts of a plan -/

/-- The plan that is an operand, if it is one. -/
def Operand.plans : Operand → List Plan
  | .value _ => []
  | .column _ => []
  | .raw _ => []
  | .subquery plan => [plan]

mutual

/-- The plans in a predicate, those of groups included. -/
def Predicate.plans : Predicate → List Plan
  | .compare _ _ operand => operand.plans
  | .isIn .. => []
  | .inSubquery _ plan _ => [plan]
  | .isNull .. => []
  | .between _ low high _ => low.plans ++ high.plans
  | .existsIn plan _ => [plan]
  | .group filters => Filter.listPlans filters
  | .raw _ => []
  | .datePart .. => []
  | .jsonLength .. => []
  | .like .. => []

/-- The plans in a list of filters. -/
def Filter.listPlans : List Filter → List Plan
  | [] => []
  | ⟨_, predicate⟩ :: filters => predicate.plans ++ Filter.listPlans filters

end

/-- The plan that is selected as a column, if there is one. -/
def Selection.plans : Selection → List Plan
  | .column _ => []
  | .raw _ => []
  | .subquery plan _ => [plan]

/-- The plan that is a source, if it is one. -/
def Source.plans : Source → List Plan
  | .table _ => []
  | .subquery plan _ => [plan]
  | .raw _ => []

/-- The plan that a join attaches, if it is one. -/
def JoinTarget.plans : JoinTarget → List Plan
  | .table _ => []
  | .subquery plan _ => [plan]

/-- The plans in a join. -/
def Join.plans (join : Join) : List Plan :=
  join.target.plans ++ Filter.listPlans join.conditions

/-- The plans among the operands of a row. -/
def Row.plans (row : Row) : List Plan := row.entries.flatMap (·.2.plans)

/-- A plan stands in a clause of another one, or is a branch of its union. -/
inductive Plan.IsPart (inner outer : Plan) : Prop where
  | selection (h : inner ∈ outer.selections.flatMap Selection.plans)
  | source {source : Source} (hsource : outer.source = some source) (h : inner ∈ source.plans)
  | join (h : inner ∈ outer.joins.flatMap Join.plans)
  | filter (h : inner ∈ Filter.listPlans outer.filters)
  | having (h : inner ∈ Filter.listPlans outer.havings)
  | branch (h : inner ∈ outer.branches.map (·.plan))

/-- A plan stands in another one, at any depth. -/
def Plan.NestedIn : Plan → Plan → Prop := Relation.TransGen Plan.IsPart

/-! ## Depth -/

/-- None of the plans is nested deeper than `n`. -/
def Plan.NoDeeper (n : Nat) (plans : List Plan) : Prop := ∀ inner ∈ plans, inner.depth ≤ n

namespace Plan.NoDeeper

theorem nil {n : Nat} : NoDeeper n [] := List.forall_mem_nil _

theorem self (plan : Plan) : NoDeeper plan.depth [plan] :=
  List.forall_mem_singleton.2 (Nat.le_refl _)

theorem append {n m : Nat} {first second : List Plan} (hfirst : NoDeeper n first)
    (hsecond : NoDeeper m second) : NoDeeper (max n m) (first ++ second) := by
  refine List.forall_mem_append.2 ⟨fun inner h => ?_, fun inner h => ?_⟩
  · exact Nat.le_trans (hfirst inner h) (Nat.le_max_left n m)
  · exact Nat.le_trans (hsecond inner h) (Nat.le_max_right n m)

end Plan.NoDeeper

theorem Operand.depth_plans (operand : Operand) : Plan.NoDeeper operand.depth operand.plans := by
  cases operand with
  | subquery plan =>
    rw [Operand.depth]
    exact .self plan
  | value | column | raw => exact .nil

mutual

theorem Predicate.depth_plans : ∀ predicate : Predicate,
    Plan.NoDeeper predicate.depth predicate.plans
  | .compare _ _ operand => by
    rw [Predicate.plans, Predicate.depth]
    exact operand.depth_plans
  | .between _ low high _ => by
    rw [Predicate.plans, Predicate.depth]
    exact low.depth_plans.append high.depth_plans
  | .inSubquery _ plan _ => by
    rw [Predicate.plans, Predicate.depth]
    exact .self plan
  | .existsIn plan _ => by
    rw [Predicate.plans, Predicate.depth]
    exact .self plan
  | .group filters => by
    rw [Predicate.plans, Predicate.depth]
    exact Filter.depth_listPlans filters
  | .isIn .. | .isNull .. | .raw _ | .datePart .. | .jsonLength .. | .like .. => by
    rw [Predicate.plans]
    exact .nil

theorem Filter.depth_listPlans : ∀ filters : List Filter,
    Plan.NoDeeper (Filter.listDepth filters) (Filter.listPlans filters)
  | [] => by
    rw [Filter.listPlans]
    exact .nil
  | ⟨_, predicate⟩ :: filters => by
    rw [Filter.listPlans, Filter.listDepth, Filter.depth]
    exact (Predicate.depth_plans predicate).append (Filter.depth_listPlans filters)

end

theorem Selection.depth_listPlans (selections : List Selection) :
    Plan.NoDeeper (Selection.listDepth selections) (selections.flatMap Selection.plans) := by
  induction selections with
  | nil => exact .nil
  | cons selection selections ih =>
    have hhead : Plan.NoDeeper selection.depth selection.plans := by
      cases selection with
      | subquery plan label =>
        rw [Selection.depth]
        exact .self plan
      | column | raw => exact .nil
    rw [List.flatMap_cons, Selection.listDepth]
    exact hhead.append ih

theorem Source.depth_plans (source : Source) : Plan.NoDeeper source.depth source.plans := by
  cases source with
  | subquery plan label =>
    rw [Source.depth]
    exact .self plan
  | table | raw => exact .nil

theorem Join.depth_listPlans (joins : List Join) :
    Plan.NoDeeper (Join.listDepth joins) (joins.flatMap Join.plans) := by
  induction joins with
  | nil => exact .nil
  | cons join joins ih =>
    obtain ⟨kind, target, conditions⟩ := join
    have htarget : Plan.NoDeeper target.depth target.plans := by
      cases target with
      | subquery plan label =>
        rw [JoinTarget.depth]
        exact .self plan
      | table => exact .nil
    rw [List.flatMap_cons, Join.listDepth, Join.depth]
    exact (htarget.append (Filter.depth_listPlans conditions)).append ih

theorem Branch.depth_listPlans (branches : List Branch) :
    Plan.NoDeeper (Branch.listDepth branches) (branches.map (·.plan)) := by
  induction branches with
  | nil => exact .nil
  | cons branch branches ih =>
    obtain ⟨plan, all⟩ := branch
    rw [Branch.listDepth, Branch.depth]
    exact (Plan.NoDeeper.self plan).append ih

/-- Whatever stands in a plan is less deep. -/
theorem Plan.IsPart.depth_lt {inner outer : Plan} (h : inner.IsPart outer) :
    inner.depth < outer.depth := by
  have hdepth := outer.depth_eq
  cases h with
  | selection h =>
    have := Selection.depth_listPlans _ inner h
    omega
  | source hsource h =>
    have := Source.depth_plans _ inner h
    rw [hsource, Source.optionDepth] at hdepth
    omega
  | join h =>
    have := Join.depth_listPlans _ inner h
    omega
  | filter h =>
    have := Filter.depth_listPlans _ inner h
    omega
  | having h =>
    have := Filter.depth_listPlans _ inner h
    omega
  | branch h =>
    have := Branch.depth_listPlans _ inner h
    omega

theorem Plan.nestedIn_wellFounded : WellFounded Plan.NestedIn :=
  WellFounded.transGen (Subrelation.wf Plan.IsPart.depth_lt (measure Plan.depth).wf)

/-! ## Plans in a tree -/

mutual

/-- The plans in an expression, whether they are written or not. -/
def Expr.plans : Expr → List Plan
  | .path _ => []
  | .json _ _ => []
  | .bound _ _ => []
  | .raw _ => []
  | .nested nested => Nested.plans nested
  | .call _ arguments => Expr.listPlans arguments
  | .aggregate _ _ arguments => Expr.listPlans arguments
  | .compare left _ right => Expr.plans left ++ Expr.plans right
  | .between operand low high _ => Expr.plans operand ++ Expr.plans low ++ Expr.plans high
  | .inList operand values _ => Expr.plans operand ++ Expr.listPlans values
  | .inNested operand nested _ => Expr.plans operand ++ Nested.plans nested
  | .isNull operand _ => Expr.plans operand
  | .existsIn nested _ => Nested.plans nested
  | .like operand pattern _ _ => Expr.plans operand ++ Expr.plans pattern
  | .condition _ terms => Expr.listPlans terms
  | .parenthesized inner => Expr.plans inner

/-- The plans in a list of expressions. -/
def Expr.listPlans : List Expr → List Plan
  | [] => []
  | expr :: exprs => Expr.plans expr ++ Expr.listPlans exprs

/-- The plans in a clause with one condition. -/
def Expr.clausePlans : Option Expr → List Plan
  | none => []
  | some expr => Expr.plans expr

/-- The plans in a clause with a list of expressions. -/
def Expr.listClausePlans : Option (List Expr) → List Plan
  | none => []
  | some exprs => Expr.listPlans exprs

/-- The plans in a nested source. -/
def Nested.plans : Nested → List Plan
  | .plan plan => [plan]
  | .raw _ => []
  | .query query => Query.plans query

/-- The plans in an entry of a select list. -/
def SelectItem.plans : SelectItem → List Plan
  | .wildcard _ => []
  | .column _ => []
  | .expr expr _ => Expr.plans expr

/-- The plans in a select list. -/
def SelectItem.listPlans : List SelectItem → List Plan
  | [] => []
  | item :: items => SelectItem.plans item ++ SelectItem.listPlans items

/-- The plans in a table expression. -/
def TableExpr.plans : TableExpr → List Plan
  | .table _ => []
  | .derived nested _ => Nested.plans nested
  | .joined first joins => TableExpr.plans first ++ JoinExpr.listPlans joins
  | .raw _ => []

/-- The plans in a FROM clause. -/
def TableExpr.clausePlans : Option TableExpr → List Plan
  | none => []
  | some table => TableExpr.plans table

/-- The plans in a join. -/
def JoinExpr.plans : JoinExpr → List Plan
  | ⟨_, target, on⟩ => TableExpr.plans target ++ Expr.clausePlans on

/-- The plans in joins. -/
def JoinExpr.listPlans : List JoinExpr → List Plan
  | [] => []
  | join :: joins => JoinExpr.plans join ++ JoinExpr.listPlans joins

/-- The plans in an entry of an ORDER BY. -/
def SortKey.plans : SortKey → List Plan
  | ⟨expr, _⟩ => Expr.plans expr

/-- The plans in the entries of an ORDER BY. -/
def SortKey.listPlans : List SortKey → List Plan
  | [] => []
  | key :: keys => SortKey.plans key ++ SortKey.listPlans keys

/-- The plans in an ORDER BY clause. -/
def SortKey.clausePlans : Option (List SortKey) → List Plan
  | none => []
  | some keys => SortKey.listPlans keys

/-- The plans in a SELECT. -/
def Select.plans : Select → List Plan
  | { items, source, filter, groupBy, having, orderBy, .. } =>
    SelectItem.listPlans items ++ TableExpr.clausePlans source ++ Expr.clausePlans filter ++
      Expr.listClausePlans groupBy ++ Expr.clausePlans having ++ SortKey.clausePlans orderBy

/-- The plans in a query. -/
def Query.plans : Query → List Plan
  | .select select => Select.plans select
  | .union left right _ orderBy _ =>
    Query.plans left ++ Query.plans right ++ SortKey.clausePlans orderBy

end

/-- The plans in the rows of an INSERT. -/
def InsertSource.plans : InsertSource → List Plan
  | .rows tuples => tuples.flatMap Expr.listPlans
  | .nested source => source.plans
  | .defaults => []

/-- The plans in an UPDATE. -/
def Update.plans (update : Update) : List Plan :=
  update.table.plans ++ update.assignments.flatMap (·.value.plans) ++
    TableExpr.clausePlans update.source ++ Expr.clausePlans update.filter ++
    SortKey.clausePlans update.orderBy

/-- The plans in a DELETE. -/
def Delete.plans (delete : Delete) : List Plan :=
  delete.source.plans ++ Expr.clausePlans delete.filter ++ SortKey.clausePlans delete.orderBy

/-! ## Conditions -/

theorem Expr.listPlans_eq (exprs : List Expr) : Expr.listPlans exprs = exprs.flatMap Expr.plans := by
  induction exprs with
  | nil => rw [Expr.listPlans, List.flatMap_nil]
  | cons expr exprs ih => rw [Expr.listPlans, List.flatMap_cons, ih]

theorem Expr.listPlans_bound (purpose : Purpose) (values : List Value) :
    Expr.listPlans (values.map (.bound · purpose)) = [] := by
  rw [Expr.listPlans_eq, List.flatMap_map, List.flatMap_eq_nil_iff]
  intro value _
  rw [Expr.plans]

theorem Expr.joined_plans (connective : Connective) (exprs : List Expr) :
    (Expr.joined connective exprs).plans = exprs.flatMap Expr.plans := by
  unfold Expr.joined
  split
  · rw [List.flatMap_cons, List.flatMap_nil, List.append_nil]
  · rw [Expr.plans, Expr.listPlans_eq]

theorem Expr.ofTerms_plans (terms : List (Connective × Expr)) :
    Expr.clausePlans (Expr.ofTerms terms) = (terms.map (·.2)).flatMap Expr.plans := by
  rw [← runs_flatten]
  unfold Expr.ofTerms
  split
  · next h => rw [h, Expr.clausePlans, List.flatten_nil, List.flatMap_nil]
  · rw [Expr.clausePlans, Expr.joined_plans, List.flatMap_map]
    simp only [Expr.joined_plans]
    rw [← List.flatMap_id (L := runs terms), List.flatMap_assoc]
    rfl

section Lowering

variable (tablePrefix : String) (purpose : Purpose)

theorem Expr.ofColumn_plans (fragment : String) :
    Ensures (Expr.ofColumn tablePrefix fragment) fun expr => expr.plans = [] := by
  refine (Expr.ofColumn_cases tablePrefix fragment).mono ?_
  rintro expr (⟨path, rfl⟩ | ⟨column, steps, rfl⟩)
  · rw [Expr.plans]
  · rw [Expr.plans]

theorem Expr.ofOperand_plans (operand : Operand) :
    Ensures (Expr.ofOperand tablePrefix purpose operand) fun expr => expr.plans = operand.plans := by
  cases operand with
  | value v => exact .ok (by rw [Expr.plans]; rfl)
  | column column => exact Expr.ofColumn_plans tablePrefix column
  | raw sql => exact .ok (by rw [Expr.plans]; rfl)
  | subquery plan => exact .ok (by rw [Expr.plans, Nested.plans]; rfl)

theorem Operand.plans_of_asksNull {comparison : Comparison} {operand : Operand}
    (h : comparison.asksNull operand = true) : operand.plans = [] := by
  unfold Comparison.asksNull at h
  split at h
  · rfl
  · rfl
  · cases h

theorem Expr.ofComparison_plans {left : Expr} (hleft : left.plans = []) (comparison : Comparison)
    (operand : Operand) :
    Ensures (Expr.ofComparison tablePrefix purpose left comparison operand) fun expr =>
      expr.plans = operand.plans := by
  rw [Expr.ofComparison_eq]
  split
  · next hnull => exact .ok (by rw [Expr.plans, hleft, Operand.plans_of_asksNull hnull])
  · refine (Expr.ofOperand_plans tablePrefix purpose operand).bind fun right hright => .ok ?_
    rw [Expr.plans, hleft, hright, List.nil_append]

mutual

theorem Predicate.expr_plans : ∀ predicate : Predicate,
    Ensures (predicate.expr tablePrefix purpose) fun expr => Expr.clausePlans expr = predicate.plans
  | .compare column comparison operand => by
    rw [Predicate.expr, Predicate.plans]
    refine (Expr.ofColumn_plans tablePrefix column).bind fun left hleft => ?_
    refine (Expr.ofComparison_plans tablePrefix purpose hleft comparison operand).bind
      fun expr hexpr => .ok ?_
    rw [Expr.clausePlans, hexpr]
  | .isIn column values negated => by
    rw [Predicate.expr, Predicate.plans]
    refine (Expr.ofColumn_plans tablePrefix column).bind fun operand hoperand => .ok ?_
    rw [Expr.clausePlans, Expr.plans, hoperand, Expr.listPlans_bound, List.nil_append]
  | .inSubquery column plan negated => by
    rw [Predicate.expr, Predicate.plans]
    refine (Expr.ofColumn_plans tablePrefix column).bind fun operand hoperand => .ok ?_
    rw [Expr.clausePlans, Expr.plans, hoperand, Nested.plans, List.nil_append]
  | .isNull column negated => by
    rw [Predicate.expr, Predicate.plans]
    refine (Expr.ofColumn_plans tablePrefix column).bind fun operand hoperand => .ok ?_
    rw [Expr.clausePlans, Expr.plans, hoperand]
  | .between column low high negated => by
    rw [Predicate.expr, Predicate.plans]
    refine (Expr.ofColumn_plans tablePrefix column).bind fun operand hoperand => ?_
    refine (Expr.ofOperand_plans tablePrefix purpose low).bind fun low hlow => ?_
    refine (Expr.ofOperand_plans tablePrefix purpose high).bind fun high hhigh => .ok ?_
    rw [Expr.clausePlans, Expr.plans, hoperand, hlow, hhigh, List.nil_append]
  | .existsIn plan negated => by
    rw [Predicate.expr, Predicate.plans]
    exact .ok (by rw [Expr.clausePlans, Expr.plans, Nested.plans])
  | .group filters => by
    rw [Predicate.expr, Predicate.plans]
    refine (Filter.terms_plans filters).bind fun terms hterms => .ok ?_
    rw [← hterms, ← Expr.ofTerms_plans]
    cases Expr.ofTerms terms with
    | none => rfl
    | some expr => rw [Option.map_some, Expr.clausePlans, Expr.plans, Expr.clausePlans]
  | .raw sql => by
    rw [Predicate.expr, Predicate.plans]
    exact .ok (by rw [Expr.clausePlans, Expr.plans])
  | .datePart column part comparison value => by
    rw [Predicate.expr, Predicate.plans]
    refine (Expr.ofColumn_plans tablePrefix column).bind fun operand hoperand => .ok ?_
    simp only [Expr.clausePlans, Expr.plans, Expr.listPlans, hoperand, List.append_nil]
  | .jsonLength column comparison value => by
    rw [Predicate.expr, Predicate.plans]
    refine (Expr.ofColumn_plans tablePrefix column).bind fun operand hoperand => .ok ?_
    simp only [Expr.clausePlans, Expr.plans, Expr.listPlans, hoperand, List.append_nil]
  | .like column pattern caseSensitive negated => by
    rw [Predicate.expr, Predicate.plans]
    refine (Expr.ofColumn_plans tablePrefix column).bind fun operand hoperand => .ok ?_
    simp only [Expr.clausePlans, Expr.plans, hoperand, List.append_nil]

theorem Filter.terms_plans : ∀ filters : List Filter,
    Ensures (Filter.terms tablePrefix purpose filters) fun terms =>
      (terms.map (·.2)).flatMap Expr.plans = Filter.listPlans filters
  | [] => by
    rw [Filter.terms, Filter.listPlans]
    exact .ok rfl
  | ⟨connective, predicate⟩ :: filters => by
    rw [Filter.terms, Filter.listPlans]
    refine (Predicate.expr_plans predicate).bind fun expr hexpr => ?_
    refine (Filter.terms_plans filters).bind fun terms hterms => .ok ?_
    rw [← hexpr, ← hterms]
    cases expr with
    | none => rw [Expr.clausePlans, List.nil_append]
    | some expr => rw [Expr.clausePlans, List.map_cons, List.flatMap_cons]

end

theorem Expr.ofFilters_plans (filters : List Filter) :
    Ensures (Expr.ofFilters tablePrefix purpose filters) fun expr =>
      Expr.clausePlans expr = Filter.listPlans filters := by
  refine (Filter.terms_plans tablePrefix purpose filters).bind fun terms hterms => .ok ?_
  rw [Expr.ofTerms_plans, hterms]

/-! ## Clauses -/

theorem SelectItem.listPlans_eq (items : List SelectItem) :
    SelectItem.listPlans items = items.flatMap SelectItem.plans := by
  induction items with
  | nil => rw [SelectItem.listPlans, List.flatMap_nil]
  | cons item items ih => rw [SelectItem.listPlans, List.flatMap_cons, ih]

theorem SelectItem.ofSelection_plans (selection : Selection) :
    Ensures (SelectItem.ofSelection tablePrefix selection) fun item =>
      item.plans = selection.plans := by
  cases selection with
  | column fragment =>
    refine .bind_any fun column _ => .ok ?_
    unfold SelectItem.ofColumn
    split
    · rw [SelectItem.plans]; rfl
    · rw [SelectItem.plans]; rfl
  | raw sql => exact .ok (by rw [SelectItem.plans, Expr.plans]; rfl)
  | subquery plan label => exact .ok (by rw [SelectItem.plans, Expr.plans, Nested.plans]; rfl)

theorem SelectItem.ofSelections_plans (selections : List Selection) :
    Ensures (SelectItem.ofSelections tablePrefix selections) fun items =>
      SelectItem.listPlans items = selections.flatMap Selection.plans := by
  unfold SelectItem.ofSelections
  split
  · exact .ok (by rw [SelectItem.listPlans, SelectItem.listPlans, SelectItem.plans]; rfl)
  · refine (Ensures.mapM fun selection _ =>
      SelectItem.ofSelection_plans tablePrefix selection).mono fun items hitems => ?_
    rw [SelectItem.listPlans_eq, forall₂_flatMap hitems]

theorem SelectItem.ofAggregate_plans (distinct : Bool) (aggregate : Aggregate) :
    Ensures (SelectItem.ofAggregate tablePrefix distinct aggregate) fun items =>
      SelectItem.listPlans items = [] := by
  unfold SelectItem.ofAggregate
  cases aggregate.column with
  | none =>
    refine .ok ?_
    simp only [SelectItem.listPlans, SelectItem.plans, Expr.plans, Expr.listPlans, List.append_nil]
  | some fragment =>
    refine (Expr.ofColumn_plans tablePrefix fragment).bind fun column hcolumn => .ok ?_
    simp only [SelectItem.listPlans, SelectItem.plans, Expr.plans, Expr.listPlans, hcolumn,
      List.append_nil]

theorem TableExpr.ofSource_plans (source : Source) :
    Ensures (TableExpr.ofSource tablePrefix source) fun table => table.plans = source.plans := by
  cases source with
  | table fragment =>
    refine .bind_any fun table _ => .ok ?_
    rw [TableExpr.plans]; rfl
  | subquery plan label => exact .ok (by rw [TableExpr.plans, Nested.plans]; rfl)
  | raw sql => exact .ok (by rw [TableExpr.plans]; rfl)

theorem TableExpr.ofTarget_plans (target : JoinTarget) :
    Ensures (TableExpr.ofTarget tablePrefix target) fun table => table.plans = target.plans := by
  cases target with
  | table fragment =>
    refine .bind_any fun table _ => .ok ?_
    rw [TableExpr.plans]; rfl
  | subquery plan label => exact .ok (by rw [TableExpr.plans, Nested.plans]; rfl)

theorem JoinExpr.ofJoin_plans (join : Join) :
    Ensures (JoinExpr.ofJoin tablePrefix join) fun expr => expr.plans = join.plans := by
  refine (TableExpr.ofTarget_plans tablePrefix join.target).bind fun target htarget => ?_
  refine (Expr.ofFilters_plans tablePrefix .join join.conditions).bind fun on hon => .ok ?_
  rw [JoinExpr.plans, htarget, hon]; rfl

theorem JoinExpr.listPlans_eq (joins : List JoinExpr) :
    JoinExpr.listPlans joins = joins.flatMap JoinExpr.plans := by
  induction joins with
  | nil => rw [JoinExpr.listPlans, List.flatMap_nil]
  | cons join joins ih => rw [JoinExpr.listPlans, List.flatMap_cons, ih]

theorem TableExpr.withJoins_plans (first : TableExpr) (joins : List JoinExpr) :
    (first.withJoins joins).plans = first.plans ++ joins.flatMap JoinExpr.plans := by
  unfold TableExpr.withJoins
  split
  · rw [List.flatMap_nil, List.append_nil]
  · rw [TableExpr.plans, JoinExpr.listPlans_eq]

theorem TableExpr.ofPlan_plans (plan : Plan) :
    Ensures (TableExpr.ofPlan tablePrefix plan) fun table =>
      ∀ inner ∈ TableExpr.clausePlans table, inner.IsPart plan := by
  unfold TableExpr.ofPlan
  split
  · refine .ite (fun _ => .ok ?_) fun _ => .error
    rw [TableExpr.clausePlans]
    exact List.forall_mem_nil _
  · next source hsource =>
    refine (TableExpr.ofSource_plans tablePrefix source).bind fun first hfirst => ?_
    refine (Ensures.mapM fun join _ => JoinExpr.ofJoin_plans tablePrefix join).bind
      fun joins hjoins => .ok ?_
    rw [TableExpr.clausePlans, TableExpr.withJoins_plans, hfirst, forall₂_flatMap hjoins,
      List.forall_mem_append]
    exact ⟨fun inner h => .source hsource h, fun inner h => .join h⟩

theorem SortKey.listPlans_eq (keys : List SortKey) :
    SortKey.listPlans keys = keys.flatMap SortKey.plans := by
  induction keys with
  | nil => rw [SortKey.listPlans, List.flatMap_nil]
  | cons key keys ih => rw [SortKey.listPlans, List.flatMap_cons, ih]

theorem SortKey.ofTerm_plans (term : OrderTerm) :
    Ensures (SortKey.ofTerm tablePrefix term) fun key => key.plans = [] := by
  cases term with
  | column column direction =>
    refine (Expr.ofColumn_plans tablePrefix column).bind fun expr hexpr => .ok ?_
    rw [SortKey.plans, hexpr]
  | raw sql => exact .ok (by rw [SortKey.plans, Expr.plans])

theorem SortKey.ofTerms_plans (terms : List OrderTerm) :
    Ensures (SortKey.ofTerms tablePrefix terms) fun keys => SortKey.clausePlans keys = [] := by
  unfold SortKey.ofTerms
  split
  · exact .ok (by rw [SortKey.clausePlans])
  · refine (Ensures.mapM_all fun term _ => SortKey.ofTerm_plans tablePrefix term).bind
      fun keys hkeys => .ok ?_
    rw [SortKey.clausePlans, SortKey.listPlans_eq, List.flatMap_eq_nil_iff]
    exact hkeys

theorem Expr.ofGroups_plans (columns : List String) :
    Ensures (Expr.ofGroups tablePrefix columns) fun groups => Expr.listClausePlans groups = [] := by
  unfold Expr.ofGroups
  split
  · exact .ok (by rw [Expr.listClausePlans])
  · refine (Ensures.mapM_all fun column _ => Expr.ofColumn_plans tablePrefix column).bind
      fun exprs hexprs => .ok ?_
    rw [Expr.listClausePlans, Expr.listPlans_eq, List.flatMap_eq_nil_iff]
    exact hexprs

/-! ## Queries -/

/-- The plans in the clauses of a SELECT are parts of a plan. -/
structure Select.PartsOf (plan : Plan) (select : Select) : Prop where
  items : ∀ inner ∈ SelectItem.listPlans select.items, inner.IsPart plan
  source : ∀ inner ∈ TableExpr.clausePlans select.source, inner.IsPart plan
  filter : ∀ inner ∈ Expr.clausePlans select.filter, inner.IsPart plan
  groupBy : Expr.listClausePlans select.groupBy = []
  having : ∀ inner ∈ Expr.clausePlans select.having, inner.IsPart plan
  orderBy : SortKey.clausePlans select.orderBy = []

theorem Select.plans_eq (select : Select) :
    select.plans =
      SelectItem.listPlans select.items ++ TableExpr.clausePlans select.source ++
        Expr.clausePlans select.filter ++ Expr.listClausePlans select.groupBy ++
        Expr.clausePlans select.having ++ SortKey.clausePlans select.orderBy := by
  cases select
  rw [Select.plans]

theorem Select.PartsOf.isPart {plan : Plan} {select : Select} (h : select.PartsOf plan) :
    ∀ inner ∈ select.plans, inner.IsPart plan := by
  rw [Select.plans_eq, h.groupBy, h.orderBy, List.append_nil, List.append_nil]
  simp only [List.forall_mem_append]
  exact ⟨⟨⟨h.items, h.source⟩, h.filter⟩, h.having⟩

theorem SelectItem.ofPlanWith_plans (plan : Plan) (aggregate : Option Aggregate) :
    Ensures (SelectItem.ofPlanWith tablePrefix plan aggregate) fun items =>
      ∀ inner ∈ SelectItem.listPlans items, inner.IsPart plan := by
  cases aggregate with
  | none =>
    refine (SelectItem.ofSelections_plans tablePrefix plan.selections).mono fun items hitems => ?_
    rw [hitems]
    exact fun inner h => .selection h
  | some aggregate =>
    refine (SelectItem.ofAggregate_plans tablePrefix plan.distinct aggregate).mono
      fun items hitems => ?_
    rw [hitems]
    exact List.forall_mem_nil _

theorem Expr.ofFilters_isPart (plan : Plan) :
    Ensures (Expr.ofFilters tablePrefix purpose plan.filters) fun filter =>
      ∀ inner ∈ Expr.clausePlans filter, inner.IsPart plan := by
  refine (Expr.ofFilters_plans tablePrefix purpose plan.filters).mono fun filter hfilter => ?_
  rw [hfilter]
  exact fun inner h => .filter h

theorem Select.ofPlanWith_plans (plan : Plan) (aggregate : Option Aggregate) :
    Ensures (Select.ofPlanWith tablePrefix plan aggregate) (Select.PartsOf plan) := by
  refine (SelectItem.ofPlanWith_plans tablePrefix plan aggregate).bind fun items hitems => ?_
  refine (TableExpr.ofPlan_plans tablePrefix plan).bind fun source hsource => ?_
  refine (Expr.ofFilters_isPart tablePrefix .where plan).bind fun filter hfilter => ?_
  refine (Expr.ofGroups_plans tablePrefix plan.groups).bind fun groupBy hgroupBy => ?_
  refine (Expr.ofFilters_plans tablePrefix .having plan.havings).bind fun having hhaving => ?_
  refine (SortKey.ofTerms_plans tablePrefix plan.orders).bind fun orderBy horderBy => .ok ?_
  refine ⟨hitems, hsource, hfilter, hgroupBy, ?_, horderBy⟩
  rw [hhaving]
  exact fun inner h => .having h

theorem Select.over_plans (query : Query) (items : List SelectItem) :
    (Select.over query items).plans = SelectItem.listPlans items ++ query.plans := by
  simp only [Select.over, Select.plans, TableExpr.clausePlans, TableExpr.plans, Nested.plans,
    Expr.clausePlans, Expr.listClausePlans, SortKey.clausePlans, List.append_nil]

theorem Query.withTail_plans {orderBy : Option (List SortKey)}
    (horderBy : SortKey.clausePlans orderBy = []) (page : Page) (query : Query) :
    ∀ inner ∈ (query.withTail orderBy page).plans, inner ∈ query.plans := by
  cases query with
  | select tree => exact fun inner h => h
  | union left right all order tail =>
    rw [Query.withTail, Query.plans, Query.plans, horderBy, List.append_nil]
    exact fun inner h => List.mem_append_left _ h

/-- The plans in a union are parts of the plan, or stand in one of its branches. -/
theorem Query.united_plans {plan : Plan} {base : Select} (hbase : base.PartsOf plan)
    {united : Query} (hunited : ∀ inner ∈ united.plans, inner ∈ (Query.select base).plans ∨
      ∃ branch ∈ plan.branches, inner.NestedIn branch.plan)
    {orderBy : Option (List SortKey)} (horderBy : SortKey.clausePlans orderBy = []) (page : Page) :
    ∀ inner ∈ (united.withTail orderBy page).plans, inner.NestedIn plan := by
  intro inner h
  rcases hunited inner (Query.withTail_plans horderBy page united inner h) with
    hown | ⟨branch, hbranch, hinner⟩
  · rw [Query.plans] at hown
    exact .single (hbase.isPart inner hown)
  · exact hinner.tail (.branch (List.mem_map_of_mem hbranch))

mutual

/-- Every plan in the tree of a plan is nested in it. -/
theorem Query.ofPlan_plans : ∀ plan : Plan,
    Ensures (Query.ofPlan tablePrefix plan) fun query => ∀ inner ∈ query.plans, inner.NestedIn plan
  | { branches, .. } => by
    match branches with
    | [] =>
      rw [Query.ofPlan]
      refine (Select.ofPlanWith_plans tablePrefix _ _).bind fun select hselect => .ok ?_
      rw [Query.plans]
      exact fun inner h => .single (hselect.isPart inner h)
    | ⟨branch, all⟩ :: branches =>
      rw [Query.ofPlan]
      refine (Select.ofPlanWith_plans tablePrefix _ none).bind fun base hbase => ?_
      refine (Query.unite_plans (.select base) (⟨branch, all⟩ :: branches)).bind
        fun united hunited => ?_
      refine (SortKey.ofTerms_plans tablePrefix _).bind fun orderBy horderBy => ?_
      have hquery := Query.united_plans hbase hunited horderBy
      dsimp only
      split
      · exact .ok (hquery _)
      · refine (SelectItem.ofAggregate_plans tablePrefix false _).bind fun items hitems => .ok ?_
        rw [Query.plans, Select.over_plans, hitems, List.nil_append]
        exact hquery _

theorem Query.unite_plans (left : Query) : ∀ branches : List Branch,
    Ensures (Query.unite tablePrefix left branches) fun query => ∀ inner ∈ query.plans,
      inner ∈ left.plans ∨ ∃ branch ∈ branches, inner.NestedIn branch.plan
  | [] => by
    rw [Query.unite]
    exact .ok fun inner h => .inl h
  | ⟨plan, all⟩ :: branches => by
    rw [Query.unite]
    refine (Query.ofPlan_plans plan).bind fun right hright => ?_
    -- the union with this branch is the left part of what comes next
    refine (Query.unite_plans (.union left right all none {}) branches).mono
      fun query hquery inner h => ?_
    rcases hquery inner h with hunion | ⟨branch, hbranch, hnested⟩
    · rw [Query.plans, SortKey.clausePlans, List.append_nil] at hunion
      rcases List.mem_append.1 hunion with hleft | hinner
      · exact .inl hleft
      · exact .inr ⟨_, List.mem_cons_self, hright inner hinner⟩
    · exact .inr ⟨branch, List.mem_cons_of_mem _ hbranch, hnested⟩

end

theorem SelectItem.one_plans : SelectItem.listPlans [SelectItem.one] = [] := by
  rw [SelectItem.one, SelectItem.listPlans, SelectItem.listPlans, SelectItem.plans, Expr.plans]
  rfl

/-- Every plan in the question whether a plan has a row is nested in the plan. -/
theorem Select.existence_plans (style : ExistsStyle) (plan : Plan) :
    Ensures (Select.existence style tablePrefix plan) fun select =>
      ∀ inner ∈ select.plans, inner.NestedIn plan := by
  cases style with
  | selectExists =>
    refine (Query.ofPlan_plans tablePrefix plan).bind fun query hquery => .ok ?_
    simp only [Select.existsIn, Select.plans, SelectItem.listPlans, SelectItem.plans, Expr.plans,
      Nested.plans, TableExpr.clausePlans, Expr.clausePlans, Expr.listClausePlans,
      SortKey.clausePlans, List.append_nil]
    exact hquery
  | topOne =>
    refine .ite (fun _ => ?_) fun _ => ?_
    -- without a union, the clauses stay but for the select list and the order
    · refine (Select.ofPlanWith_plans tablePrefix plan none).bind fun select hselect => .ok ?_
      have hasked : Select.PartsOf plan { select with
          distinct := false, items := [.one], orderBy := none, page := ⟨some 1, none⟩ } := by
        refine ⟨?_, hselect.source, hselect.filter, hselect.groupBy, hselect.having, ?_⟩
        · rw [SelectItem.one_plans]
          exact List.forall_mem_nil _
        · rw [SortKey.clausePlans]
      exact fun inner h => .single (hasked.isPart inner h)
    · refine (Query.ofPlan_plans tablePrefix plan).bind fun query hquery => .ok ?_
      have hover := Select.over_plans query [.one]
      rw [SelectItem.one_plans, List.nil_append, Select.plans_eq] at hover
      rw [Select.plans_eq]
      exact hover ▸ hquery

/-! ## Statements that write -/

theorem Row.exprs_plans (columns : List String) (row : Row) (index : Nat) :
    Ensures (row.exprs tablePrefix columns index) fun exprs =>
      ∀ inner ∈ Expr.listPlans exprs, inner ∈ row.plans := by
  unfold Row.exprs
  dsimp only
  refine .ite (fun _ => .error) fun _ => ?_
  refine (Ensures.mapM_all (Q := fun expr => ∀ inner ∈ expr.plans, inner ∈ row.plans)
    fun column _ => ?_).mono fun exprs hexprs => ?_
  · split
    · exact .error
    · next operand hget =>
      obtain ⟨entry, hentry, rfl⟩ := Row.get?_mem hget
      refine (Expr.ofOperand_plans tablePrefix .insert entry.2).mono fun expr hexpr inner h => ?_
      rw [hexpr] at h
      exact List.mem_flatMap.2 ⟨entry, hentry, h⟩
  · rw [Expr.listPlans_eq, List.forall_mem_flatMap]
    exact hexprs

/-- The plans in an INSERT are operands of its rows. -/
theorem Insert.ofRows_plans (plan : Plan) (rows : List Row) (conflict : Option Conflict) :
    Ensures (Insert.ofRows tablePrefix plan rows conflict) fun insert =>
      ∀ inner ∈ insert.source.plans, ∃ row ∈ rows, inner ∈ row.plans := by
  refine .bind_any fun table _ => ?_
  dsimp only
  split
  · exact .ok (List.forall_mem_nil _)
  · next first others =>
    refine .ite (fun _ => .ite (fun _ => .ok (List.forall_mem_nil _)) fun _ => .error) fun _ => ?_
    refine Ensures.bind (P := fun tuples => ∀ tuple ∈ tuples, ∀ inner ∈ Expr.listPlans tuple,
      ∃ row ∈ first :: others, inner ∈ row.plans) ?_ fun tuples htuples =>
        .bind_any fun columns _ => .ok ?_
    · refine Ensures.mapM_all fun row hrow => ?_
      have hmem : row.1 ∈ first :: others := List.fst_mem_of_mem_zipIdx hrow
      exact (Row.exprs_plans tablePrefix first.columns row.1 row.2).mono
        fun exprs hexprs inner h => ⟨row.1, hmem, hexprs inner h⟩
    · rw [InsertSource.plans, List.forall_mem_flatMap]
      exact htuples

theorem Expr.rowIdFilter_plans (plan : Plan) (table : TableName) (column : Name) :
    Ensures (Expr.rowIdFilter tablePrefix plan table column) fun expr =>
      ∀ inner ∈ expr.plans, inner.IsPart plan := by
  unfold Expr.rowIdFilter Select.projection
  simp only [bind_assoc]
  refine (TableExpr.ofPlan_plans tablePrefix plan).bind fun source hsource => ?_
  refine (Expr.ofFilters_isPart tablePrefix .where plan).bind fun filter hfilter => ?_
  refine (SortKey.ofTerms_plans tablePrefix plan.orders).bind fun orderBy horderBy => .ok ?_
  simp only [Expr.plans, Nested.plans, Query.plans, Select.plans, SelectItem.listPlans,
    SelectItem.plans, Expr.listClausePlans, Expr.clausePlans, horderBy, List.append_nil,
    List.nil_append]
  exact List.forall_mem_append.2 ⟨hsource, hfilter⟩

theorem TableExpr.getD_plans (source : Option TableExpr) (table : TableName) :
    (source.getD (.table table)).plans = TableExpr.clausePlans source := by
  cases source with
  | none => rw [Option.getD_none, TableExpr.plans, TableExpr.clausePlans]
  | some source => rw [Option.getD_some, TableExpr.clausePlans]

/-- Every plan in a DELETE is a part of the plan whose rows are deleted. -/
theorem Delete.ofPlan_plans (dialect : Dialect) (plan : Plan) :
    Ensures (Delete.ofPlan dialect tablePrefix plan) fun delete =>
      ∀ inner ∈ delete.plans, inner.IsPart plan := by
  refine .bind_any fun table _ => .bind_any fun reach _ => ?_
  split
  · refine (Expr.rowIdFilter_plans tablePrefix plan table _).bind fun filter hfilter => .ok ?_
    simp only [Delete.plans, TableExpr.plans, Expr.clausePlans, SortKey.clausePlans,
      List.append_nil, List.nil_append]
    exact hfilter
  · refine (TableExpr.ofPlan_plans tablePrefix plan).bind fun source hsource => ?_
    refine (Expr.ofFilters_isPart tablePrefix .where plan).bind fun filter hfilter => ?_
    refine (SortKey.ofTerms_plans tablePrefix plan.orders).bind fun orderBy horderBy => .ok ?_
    simp only [Delete.plans, TableExpr.getD_plans, horderBy, List.append_nil]
    exact List.forall_mem_append.2 ⟨hsource, hfilter⟩

theorem Assignment.ofEntries_plans (row : Row) :
    Ensures (row.entries.mapM (Assignment.ofEntry tablePrefix)) fun assignments =>
      assignments.flatMap (·.value.plans) = row.plans := by
  refine (Ensures.mapM (R := fun entry assignment => assignment.value.plans = entry.2.plans)
    fun entry _ => .bind_any fun column _ => ?_).mono fun assignments h => forall₂_flatMap h
  exact (Expr.ofOperand_plans tablePrefix .update entry.2).bind fun value hvalue => .ok hvalue

theorem Update.tables_plans (strategy : JoinStrategy) (plan : Plan) (table : TableName)
    (joined : Bool) :
    Ensures (Update.tables strategy tablePrefix plan table joined) fun tables =>
      (∀ inner ∈ tables.1.plans, inner.IsPart plan) ∧
        ∀ inner ∈ TableExpr.clausePlans tables.2, inner.IsPart plan := by
  have hplan := TableExpr.ofPlan_plans tablePrefix plan
  have htable : ∀ name : TableName, ∀ inner ∈ (TableExpr.table name).plans, inner.IsPart plan := by
    intro name
    rw [TableExpr.plans]
    exact List.forall_mem_nil _
  have hnone : ∀ inner ∈ TableExpr.clausePlans none, inner.IsPart plan := by
    rw [TableExpr.clausePlans]
    exact List.forall_mem_nil _
  unfold Update.tables
  refine .ite (fun _ => ?_) fun _ => .ite (fun _ => ?_) fun _ => .ok ⟨htable table, hnone⟩
  · exact hplan.bind fun source hsource => .ok ⟨htable _, hsource⟩
  · refine hplan.bind fun source hsource => .ok ⟨?_, hnone⟩
    rw [TableExpr.getD_plans]
    exact hsource

/-- Every plan in an UPDATE is a part of the plan whose rows are updated, or an operand of the row. -/
theorem Update.ofPlan_plans (dialect : Dialect) (plan : Plan) (row : Row) :
    Ensures (Update.ofPlan dialect tablePrefix plan row) fun update =>
      ∀ inner ∈ update.plans, inner.IsPart plan ∨ inner ∈ row.plans := by
  unfold Update.ofPlan
  dsimp only
  refine .ite (fun _ => .error) fun _ => .bind_any fun table _ => ?_
  refine (Assignment.ofEntries_plans tablePrefix row).bind fun assignments hassigned => ?_
  refine .bind_any fun reach _ => ?_
  split
  · refine (Expr.rowIdFilter_plans tablePrefix plan table _).bind fun filter hfilter => .ok ?_
    simp only [Update.plans, hassigned, TableExpr.plans, TableExpr.clausePlans, Expr.clausePlans,
      SortKey.clausePlans, List.append_nil, List.nil_append, List.forall_mem_append]
    exact ⟨fun inner h => .inr h, fun inner h => .inl (hfilter inner h)⟩
  · refine (Expr.ofFilters_isPart tablePrefix .where plan).bind fun filter hfilter => ?_
    refine (SortKey.ofTerms_plans tablePrefix plan.orders).bind fun orderBy horderBy => ?_
    refine (Update.tables_plans tablePrefix dialect.joinStrategy plan table _).bind
      fun tables htables => .ok ?_
    simp only [Update.plans, hassigned, horderBy, List.append_nil, List.forall_mem_append]
    exact ⟨⟨⟨fun inner h => .inl (htables.1 inner h), fun inner h => .inr h⟩,
      fun inner h => .inl (htables.2 inner h)⟩, fun inner h => .inl (hfilter inner h)⟩

end Lowering

end QueryCompiler
