import QueryCompiler.Proofs.Clauses
import QueryCompiler.Proofs.Places
import QueryCompiler.Proofs.Purposes

/-! # Unions in pieces

A union is its branches, one after the other, each of them as it is compiled on its own: nothing but
the purposes of the bindings tells a branch from a statement (`Query.render_in_union`). The order and
the page of the union follow once, behind the last branch, and an aggregate selects from the whole
(`Compiler.union_in_pieces`).
-/

namespace QueryCompiler
set_option autoImplicit false

/-- A plan without its aggregate. -/
def Plan.withoutAggregate (plan : Plan) : Plan := { plan with aggregate := none }

theorem Plan.withoutAggregate_of_none {plan : Plan} (h : plan.aggregate = none) :
    plan.withoutAggregate = plan := by
  cases plan
  cases h
  rfl

/-- A plan without its union and its aggregate. -/
def Plan.unionBase (plan : Plan) : Plan :=
  { plan with branches := [], unionOrders := [], unionPage := {}, aggregate := none }

/-- The values in a term of an ORDER BY. -/
def OrderTerm.values : OrderTerm → List Value
  | .column _ _ => []
  | .raw sql => sql.values

section Pieces

variable (r : Renderer) {tablePrefix : String} {plan : Plan}

/-! ## Branches -/

theorem Sql.Same.eq_retag {a b : Sql} (h : Sql.Same a b) {purpose : Purpose}
    (hpurpose : ∀ binding ∈ a.bindings, binding.purpose = purpose) : a = b.retag purpose := by
  have hvalues : a.bindings.values = b.bindings.values := h.values_eq
  have hbindings : a.bindings = b.bindings.retag purpose := by
    rw [Bindings.eq_of_purpose hpurpose, hvalues, Bindings.values, List.map_map]
    rfl
  cases a
  exact congrArg₂ Sql.mk h.text_eq hbindings

/-- A branch is written as the same query on its own, with the purpose of the union for all of its
bindings. -/
theorem Query.render_in_union {query : Query} (hquery : Query.ofPlan tablePrefix plan = .ok query) :
    query.render r (({} : Context).overriding .union) =
      (fun sql => sql.retag .union) <$> query.render r {} := by
  have halike := Query.render_alike r (({} : Context).overriding .union) {} query
  have hwritten := Query.render_written (bindingsOfLeaves r) (({} : Context).overriding .union) query
  have hleaves := Query.ofPlan_leaves tablePrefix (({} : Context).overriding .union) plan query hquery
  have hunion := @Plan.leaves_of_union (({} : Context).overriding .union) rfl rfl plan
  revert halike hwritten
  generalize query.render r (({} : Context).overriding .union) = inside
  generalize query.render r {} = alone
  intro halike hwritten
  cases halike with
  | error e => rfl
  | @ok a b hsame =>
    have hpurpose : a.HasPurpose .union := (hwritten a rfl).hasPurpose (hleaves ▸ hunion)
    rw [hsame.eq_retag hpurpose]
    rfl

theorem Dialect.unionPageText_empty (dialect : Dialect) (ordered : Bool) :
    dialect.unionPageText ordered {} = "" := by
  unfold Dialect.unionPageText
  split <;> rfl

theorem Query.render_union_open (left right : Query) (all : Bool) :
    (Query.union left right all none {}).render r {} = do
      let first ← left.render r {}
      let second ← right.render r (({} : Context).overriding .union)
      return (if left.isUnion then first else r.dialect.wrapBranch first) ++ unionText all ++
        r.dialect.wrapBranch second := by
  rw [Query.render]
  simp only [SortKey.renderClause, ok_bind, Option.isSome_none, Dialect.unionPageText_empty,
    Sql.ofText_empty, Sql.append_empty]

/-- An order and a page follow what a union without them is. -/
theorem Query.render_withTail {query : Query} (h : query.IsOpenUnion)
    (orderBy : Option (List SortKey)) (page : Page) :
    (query.withTail orderBy page).render r {} = do
      let union ← query.render r {}
      let order ← SortKey.renderClause r (({} : Context).within .unionOrder) orderBy
      return union ++ order ++ r.dialect.unionPageText orderBy.isSome page := by
  obtain ⟨left, right, all, rfl⟩ := h
  rw [Query.withTail, Query.render_union_open, Query.render]
  simp only [bind_assoc, pure_bind]

/-- A union with more branches behind it, each with its SQL. -/
def Dialect.unite (dialect : Dialect) (union : Sql) : List Branch → List Sql → Sql
  | branch :: branches, sql :: sqls =>
    dialect.unite (union ++ unionText branch.all ++ dialect.wrapBranch (sql.retag .union))
      branches sqls
  | _, _ => union

/-- What a union is once more branches are united with it: the query so far, as a branch if it is no
union yet, and behind it the branches in turn. -/
theorem Query.yields_unite (P : Sql → Prop) : ∀ (branches : List Branch) (left : Query),
    left.isUnion = true ∨ branches ≠ [] →
    ((Yields (Query.unite tablePrefix left branches) fun query => Yields (query.render r {}) P) ↔
      Yields (left.render r {}) fun first =>
        Yields (branches.mapM fun branch => r.compile tablePrefix branch.plan) fun sqls =>
          P (r.dialect.unite (if left.isUnion then first else r.dialect.wrapBranch first)
            branches sqls))
  | [], left, hleft => by
    have hunion := hleft.resolve_right (· rfl)
    simp [Query.unite, Dialect.unite, hunion]
  | ⟨plan, all⟩ :: branches, left, _ => by
    -- the branch is lowered before the query so far is written, and written after it
    have hbranch : ∀ right, Query.ofPlan tablePrefix plan = .ok right →
        ((Yields (Query.unite tablePrefix (.union left right all none {}) branches) fun query =>
            Yields (query.render r {}) P) ↔
          Yields (left.render r {}) fun first => Yields (right.render r {}) fun sql =>
            Yields (branches.mapM fun branch => r.compile tablePrefix branch.plan) fun sqls =>
              P (r.dialect.unite (if left.isUnion then first else r.dialect.wrapBranch first)
                (⟨plan, all⟩ :: branches) (sql :: sqls))) := by
      intro right hright
      rw [Query.yields_unite P branches _ (.inl rfl), Query.render_union_open,
        Query.render_in_union r hright]
      simp [Query.isUnion, Dialect.unite]
    rw [Query.unite, yields_bind, yields_congr hbranch, yields_comm]
    simp [List.mapM_cons, Renderer.compile]

/-! ## Orders -/

/-- The order of a union. -/
def Renderer.unionOrder (r : Renderer) (tablePrefix : String) (terms : List OrderTerm) :
    Except Error Sql := do
  SortKey.renderClause r (({} : Context).within .unionOrder) (← SortKey.ofTerms tablePrefix terms)

theorem SortKey.succeeds_renderList (context : Context) (keys : List SortKey) :
    Succeeds (SortKey.renderList r context keys) ↔ ∀ key ∈ keys, Succeeds (key.render r context) := by
  induction keys with
  | nil => simp
  | cons key keys ih => simp [SortKey.renderList, ih, -SortKey.render]

/-- Terms that can be lowered can be written. -/
theorem SortKey.ofTerms_renders (context : Context) (terms : List OrderTerm) :
    Ensures (SortKey.ofTerms tablePrefix terms) fun keys =>
      Succeeds (SortKey.renderClause r context keys) := by
  have hterm : ∀ term ∈ terms, Ensures (SortKey.ofTerm tablePrefix term) fun key =>
      Succeeds (key.render r context) := by
    intro term _
    cases term with
    | raw sql => exact .ok (by simp)
    | column column direction =>
      refine (Expr.ofColumn_cases tablePrefix column).bind ?_
      rintro expr (⟨path, rfl⟩ | ⟨path, steps, rfl⟩)
      · exact .ok (by simp)
      · exact .ok (by simp)
  unfold SortKey.ofTerms
  split
  · exact .ok (by simp)
  · refine (Ensures.mapM_all hterm).bind fun keys hkeys => .ok ?_
    simpa [SortKey.succeeds_renderList] using hkeys

theorem Renderer.succeeds_unionOrder (terms : List OrderTerm) :
    Succeeds (r.unionOrder tablePrefix terms) ↔ Succeeds (SortKey.ofTerms tablePrefix terms) := by
  rw [Renderer.unionOrder, succeeds_bind]
  exact (SortKey.ofTerms_renders r _ terms).yields_iff

theorem OrderTerm.bindings_leaves (purpose : Purpose) (terms : List OrderTerm) :
    (terms.flatMap (OrderTerm.leaves purpose)).flatMap (Leaf.bindings r.nested) =
      (terms.flatMap OrderTerm.values).map (⟨·, purpose⟩) := by
  rw [List.flatMap_assoc, List.map_flatMap]
  refine congrArg (terms.flatMap ·) (funext fun term => ?_)
  cases term with
  | column column direction => rfl
  | raw sql => exact List.append_nil _

/-- The bindings of an ORDER BY are the values of its terms. -/
theorem OrderTerm.bindings_renderClause (context : Context) (terms : List OrderTerm) :
    Ensures (SortKey.ofTerms tablePrefix terms) fun keys =>
      Ensures (SortKey.renderClause r context keys) fun order =>
        order.bindings = (terms.flatMap OrderTerm.values).map (⟨·, context.clausePurpose⟩) := by
  refine (SortKey.ofTerms_leaves tablePrefix context terms).mono fun keys hkeys => ?_
  refine (SortKey.renderClause_written (bindingsOfLeaves r) context keys).mono fun order horder => ?_
  have hbindings : order.bindings = _ := horder.1
  rw [hbindings, hkeys]
  exact OrderTerm.bindings_leaves r context.clausePurpose terms

theorem Renderer.unionOrder_bindings (terms : List OrderTerm) :
    Ensures (r.unionOrder tablePrefix terms) fun order =>
      order.bindings = (terms.flatMap OrderTerm.values).map (⟨·, .unionOrder⟩) :=
  (OrderTerm.bindings_renderClause r (({} : Context).within .unionOrder) terms).bind
    fun _ horder => horder

theorem Dialect.topText_none (dialect : Dialect) : dialect.topText none = "" := by
  unfold Dialect.topText
  split <;> trivial

theorem Dialect.pageText_empty (dialect : Dialect) (ordered : Bool) :
    dialect.pageText ordered {} = "" := by
  unfold Dialect.pageText
  split <;> rfl

/-- A plan with nothing but a select list, a source and an order. -/
theorem Renderer.compile_bare (selections : List Selection) (source : Option Source)
    (terms : List OrderTerm) :
    r.compile tablePrefix { selections := selections, source := source, orders := terms } = do
      let items ← SelectItem.ofSelections tablePrefix selections
      let source ← TableExpr.ofPlan tablePrefix { source := source }
      let keys ← SortKey.ofTerms tablePrefix terms
      let items ← SelectItem.renderList r (({} : Context).within .select) items
      let source ← TableExpr.renderClause r (({} : Context).within .from) none source
      let order ← SortKey.renderClause r (({} : Context).within .order) keys
      return "SELECT " ++ Sql.join ", " items ++ source ++ order := by
  have hsource : TableExpr.ofPlan tablePrefix
      { selections := selections, source := source, orders := terms } =
    TableExpr.ofPlan tablePrefix { source := source } := rfl
  rw [Renderer.compile, Query.ofPlan_of_branches_nil rfl]
  simp only [Select.ofPlanWith, SelectItem.ofPlanWith, hsource, Expr.ofFilters, Filter.terms,
    Expr.ofTerms, runs, Expr.ofGroups, ok_bind, pure_bind, bind_assoc]
  refine bind_congr_ok fun items _ => bind_congr_ok fun source _ => bind_congr_ok fun keys _ => ?_
  simp only [Query.render, Select.render, Dialect.lockAt, Expr.renderClause, Expr.renderListClause,
    ok_bind]
  refine bind_congr_ok fun items _ => bind_congr_ok fun source _ => bind_congr_ok fun order _ => ?_
  simp only [Dialect.topText_none, Dialect.pageText_empty, Dialect.lockSuffix, distinctText,
    Sql.ofText_empty, Sql.append_empty, Bool.false_and, Bool.false_eq_true, if_false]

/-- A plan of nothing but an order. -/
theorem Renderer.compile_orders (terms : List OrderTerm) :
    r.compile tablePrefix { orders := terms } = do
      let keys ← SortKey.ofTerms tablePrefix terms
      let order ← SortKey.renderClause r (({} : Context).within .order) keys
      return "SELECT *" ++ order := by
  refine (Renderer.compile_bare r [] none terms).trans ?_
  have hsource : TableExpr.ofPlan tablePrefix { source := none } = .ok none := rfl
  have hwords : Sql.ofText "SELECT *" = Sql.ofText "SELECT " ++ Sql.ofText wildcard := by decide
  simp only [hsource, SelectItem.ofSelections, SelectItem.renderList, SelectItem.render,
    TableExpr.renderClause, Sql.join, hwords, ok_bind, pure_bind, Sql.append_empty]

/-- The order of a union reads as the same order of a plan. -/
theorem Renderer.unionOrder_text (terms : List OrderTerm) :
    Ensures (r.unionOrder tablePrefix terms) fun order =>
      ∃ ordered, r.compile tablePrefix { orders := terms } = .ok ordered ∧
        ordered.text = "SELECT *" ++ order.text := by
  rw [Renderer.compile_orders]
  refine .bind_any fun keys hkeys order horder => ?_
  have halike := SortKey.renderClause_alike r (({} : Context).within .unionOrder)
    (({} : Context).within .order) keys
  rw [horder] at halike
  rw [hkeys, ok_bind]
  revert halike
  generalize SortKey.renderClause r (({} : Context).within .order) keys = alone
  intro halike
  cases halike with
  | ok hsame => exact ⟨_, rfl, by rw [Sql.text_append, hsame.text_eq]; rfl⟩

/-! ## Whole unions -/

theorem Query.ofPlan_withoutAggregate (h : plan.branches ≠ []) :
    Query.ofPlan tablePrefix plan.withoutAggregate = do
      let base ← Select.ofPlan tablePrefix plan
      let united ← Query.unite tablePrefix (.select base) plan.branches
      let orderBy ← SortKey.ofTerms tablePrefix plan.unionOrders
      return united.withTail orderBy plan.unionPage := by
  obtain ⟨distinct, selections, source, joins, filters, groups, havings, orders, page, branches,
    unionOrders, unionPage, aggregate, lock⟩ := plan
  cases branches with
  | nil => exact (h rfl).elim
  | cons branch branches => rw [Plan.withoutAggregate, Query.ofPlan]; rfl

theorem Query.ofPlan_aggregate {aggregate : Aggregate} (h : plan.branches ≠ [])
    (haggregate : plan.aggregate = some aggregate) :
    Query.ofPlan tablePrefix plan = do
      let query ← Query.ofPlan tablePrefix plan.withoutAggregate
      let items ← SelectItem.ofAggregate tablePrefix false aggregate
      return .select (.over query items) := by
  rw [Query.ofPlan_withoutAggregate h]
  obtain ⟨distinct, selections, source, joins, filters, groups, havings, orders, page, branches,
    unionOrders, unionPage, _, lock⟩ := plan
  cases haggregate
  cases branches with
  | nil => exact (h rfl).elim
  | cons branch branches =>
    rw [Query.ofPlan]
    simp only [bind_assoc, pure_bind]

/-- A union is its base and its branches, with its order and its page behind them. -/
theorem Renderer.yields_compile_union (P : Sql → Prop) (h : plan.branches ≠ []) :
    Yields (r.compile tablePrefix plan.withoutAggregate) P ↔
      Yields (r.compile tablePrefix plan.unionBase) fun base =>
        Yields (plan.branches.mapM fun branch => r.compile tablePrefix branch.plan) fun sqls =>
          Yields (r.unionOrder tablePrefix plan.unionOrders) fun order =>
            P (r.dialect.unite (r.dialect.wrapBranch base) plan.branches sqls ++ order ++
              r.dialect.unionPageText (!plan.unionOrders.isEmpty) plan.unionPage) := by
  have hbase : Query.ofPlan tablePrefix plan.unionBase = do
      return .select (← Select.ofPlan tablePrefix plan) := Query.ofPlan_of_branches_nil rfl
  -- behind the branches, the order is lowered and written
  have htail : ∀ base query,
      Query.unite tablePrefix (.select base) plan.branches = .ok query →
      ((Yields (SortKey.ofTerms tablePrefix plan.unionOrders) fun orderBy =>
          Yields ((query.withTail orderBy plan.unionPage).render r {}) P) ↔
        Yields (query.render r {}) fun union =>
          Yields (r.unionOrder tablePrefix plan.unionOrders) fun order =>
            P (union ++ order ++
              r.dialect.unionPageText (!plan.unionOrders.isEmpty) plan.unionPage)) := by
    intro base query hquery
    have hopen := (Query.unite_leaves tablePrefix {} (.select base) plan.branches query hquery).2
      (.inr h)
    have hkeys : ∀ orderBy, SortKey.ofTerms tablePrefix plan.unionOrders = .ok orderBy →
        (Yields ((query.withTail orderBy plan.unionPage).render r {}) P ↔
          Yields (query.render r {}) fun union =>
            Yields (SortKey.renderClause r (({} : Context).within .unionOrder) orderBy) fun order =>
              P (union ++ order ++
                r.dialect.unionPageText (!plan.unionOrders.isEmpty) plan.unionPage)) := by
      intro orderBy horderBy
      have hordered := SortKey.ofTerms_isSome tablePrefix plan.unionOrders orderBy horderBy
      rw [Query.render_withTail r hopen, hordered]
      simp only [yields_bind, yields_pure]
    rw [yields_congr hkeys, yields_comm]
    simp only [Renderer.unionOrder, yields_bind]
  rw [Renderer.compile, Renderer.compile, Query.ofPlan_withoutAggregate h, hbase]
  simp only [yields_bind, yields_pure]
  refine yields_congr fun base _ => ?_
  rw [yields_congr (htail base), Query.yields_unite r _ _ _ (.inr h)]
  rfl

theorem Renderer.succeeds_compile_union (h : plan.branches ≠ []) :
    Succeeds (r.compile tablePrefix plan.withoutAggregate) ↔
      Succeeds (r.compile tablePrefix plan.unionBase) ∧
        (∀ branch ∈ plan.branches, Succeeds (r.compile tablePrefix branch.plan)) ∧
        Succeeds (SortKey.ofTerms tablePrefix plan.unionOrders) := by
  have hunion : Yields (r.compile tablePrefix plan.withoutAggregate) (fun _ => True) ↔ _ :=
    Renderer.yields_compile_union r _ h
  simpa [Renderer.succeeds_unionOrder] using hunion

/-! ## Aggregates over unions -/

/-- Whether an aggregate stands over a column, or over whole rows. -/
def Aggregate.isWellFormed (aggregate : Aggregate) : Bool :=
  aggregate.column.all Fragment.isPlainColumn

/-- What an aggregate stands over. -/
def Aggregate.argument (c : Compiler) (aggregate : Aggregate) : Except Error String :=
  match aggregate.column with
  | none => .ok wildcard
  | some fragment => c.quoteColumn fragment

/-- An aggregate over an argument. -/
def Aggregate.text (aggregate : Aggregate) (argument : String) : String :=
  aggregate.function.sql ++ "(" ++ distinctText aggregate.distinct ++ argument ++ ")"

/-- The clause around a query does not matter to its SQL. -/
theorem Query.render_within (context : Context) (clause : Purpose) (query : Query) :
    query.render r (context.within clause) = query.render r context := by
  cases query with
  | select tree =>
    cases tree
    rw [Query.render, Query.render, Select.render, Select.render]
    rfl
  | union left right all orderBy page =>
    rw [Query.render, Query.render, Query.render_within context clause left]
    have hright := Query.render_within (context.overriding .union) clause right
    rw [← hright]
    rfl

theorem Select.render_over (query : Query) (items : List SelectItem) :
    (Select.over query items).render r {} = do
      let items ← SelectItem.renderList r (({} : Context).within .select) items
      let inner ← query.render r {}
      return "SELECT " ++ Sql.join ", " items ++ " FROM " ++ inner.parens ++ " AS " ++
        r.dialect.quote tempTable := by
  rw [Select.over, Select.render]
  refine bind_congr_ok fun items _ => ?_
  simp only [Dialect.lockAt, TableExpr.renderClause, TableExpr.render, Nested.render,
    Query.render_within, Expr.renderClause, Expr.renderListClause, SortKey.renderClause, ok_bind,
    pure_bind, bind_assoc, Option.isSome_none, Bool.false_eq_true, if_false]
  refine bind_congr_ok fun inner _ => ?_
  simp only [Dialect.topText_none, Dialect.pageText_empty, Dialect.lockSuffix, distinctText,
    Sql.ofText_empty, Sql.append_empty, Sql.append_assoc, Bool.false_eq_true, if_false]

/-- A column in an expression is written as in a select list. -/
theorem Expr.ofColumn_render (fragment : String) (context : Context) :
    Ensures (Expr.ofColumn tablePrefix fragment) fun expr =>
      Sql.ofText <$> (Compiler.mk r.dialect tablePrefix).quoteColumn fragment =
        expr.render r context := by
  rw [Compiler.quoteColumn_eq]
  unfold Expr.ofColumn
  refine .bind_any fun column hcolumn => ?_
  dsimp only
  refine .ite (fun _ => .error) fun hlabel => .ite (fun _ => .error) fun _ => .ok ?_
  have hnone : column.label = none := by simpa using hlabel
  rw [hcolumn]
  cases hjson : column.json with
  | nil => simp [Dialect.quoteColumn, Dialect.aliasText, hnone, hjson]
  | cons step steps => simp [Dialect.quoteColumn, Dialect.aliasText, hnone, hjson]

/-- An aggregate that takes the place of a select list. -/
theorem SelectItem.yields_ofAggregate (P : List Sql → Prop) (context : Context)
    (aggregate : Aggregate) :
    (Yields (SelectItem.ofAggregate tablePrefix false aggregate) fun items =>
        Yields (SelectItem.renderList r context items) P) ↔
      aggregate.isWellFormed = true ∧
        Yields (aggregate.argument ⟨r.dialect, tablePrefix⟩) fun argument =>
          P [.ofText (aggregate.text argument ++ " AS " ++ r.dialect.quote aggregateAlias)] := by
  have htext (argument : String) :
      aggregate.function.sql ++ (distinctText aggregate.distinct ++ Sql.ofText argument).parens ++
          Sql.ofText (r.dialect.aliasText (some aggregateAlias)) =
        .ofText (aggregate.text argument ++ " AS " ++ r.dialect.quote aggregateAlias) := by
    show Sql.mk _ _ = Sql.mk _ _
    simp only [Aggregate.text, Sql.parens, Dialect.aliasText, Sql.text_append, Sql.text_ofText,
      Sql.bindings_append, Sql.bindings_ofText, List.append_nil, String.append_assoc]
  unfold SelectItem.ofAggregate Aggregate.isWellFormed Aggregate.argument
  cases aggregate.column with
  | none => simp [Expr.isBarePredicate, Sql.parensIf, htext]
  | some fragment =>
    have hplain := @Expr.yields_ofColumn tablePrefix fragment (fun _ => True) (by simp) (by simp)
    cases hexpr : Expr.ofColumn tablePrefix fragment with
    | error e => simp_all
    | ok expr =>
      have hrender := Expr.ofColumn_render r fragment context expr hexpr
      simp_all [Expr.isBarePredicate, Sql.parensIf, ← hrender, Sql.join]

/-- An aggregate over a union selects from the union. -/
theorem Renderer.yields_compile_aggregate (P : Sql → Prop) {aggregate : Aggregate}
    (h : plan.branches ≠ []) (haggregate : plan.aggregate = some aggregate) :
    Yields (r.compile tablePrefix plan) P ↔
      aggregate.isWellFormed = true ∧
        Yields (r.compile tablePrefix plan.withoutAggregate) fun union =>
          Yields (aggregate.argument ⟨r.dialect, tablePrefix⟩) fun argument =>
            P ("SELECT " ++ Sql.ofText
                (aggregate.text argument ++ " AS " ++ r.dialect.quote aggregateAlias) ++
              " FROM " ++ union.parens ++ " AS " ++ r.dialect.quote tempTable) := by
  have hover : ∀ query, Query.ofPlan tablePrefix plan.withoutAggregate = .ok query →
      ((Yields (SelectItem.ofAggregate tablePrefix false aggregate) fun items =>
          Yields ((Select.over query items).render r {}) P) ↔
        aggregate.isWellFormed = true ∧
          Yields (query.render r {}) fun union =>
            Yields (aggregate.argument ⟨r.dialect, tablePrefix⟩) fun argument =>
              P ("SELECT " ++ Sql.ofText
                  (aggregate.text argument ++ " AS " ++ r.dialect.quote aggregateAlias) ++
                " FROM " ++ union.parens ++ " AS " ++ r.dialect.quote tempTable)) := by
    intro query _
    simp only [Select.render_over, yields_bind, yields_pure]
    rw [SelectItem.yields_ofAggregate, yields_comm]
    rfl
  rw [Renderer.compile, Query.ofPlan_aggregate h haggregate]
  simp only [bind_assoc, pure_bind, Query.render, yields_bind]
  rw [yields_congr hover, yields_and_left]
  simp only [Renderer.compile, yields_bind]

theorem Aggregate.succeeds_argument (c : Compiler) {aggregate : Aggregate}
    (h : aggregate.isWellFormed = true) : Succeeds (aggregate.argument c) := by
  unfold Aggregate.isWellFormed at h
  unfold Aggregate.argument
  cases hcolumn : aggregate.column with
  | none => exact succeeds_ok _
  | some fragment =>
    rw [hcolumn, Option.all_some, Fragment.isPlainColumn] at h
    cases hparse : parseColumn fragment with
    | error e => simp [hparse] at h
    | ok column => simp [Compiler.quoteColumn_eq, ColumnRef.ofFragment, hparse, ofFragmentResult]

theorem Renderer.succeeds_compile_aggregate {aggregate : Aggregate} (h : plan.branches ≠ [])
    (haggregate : plan.aggregate = some aggregate) :
    Succeeds (r.compile tablePrefix plan) ↔
      Succeeds (r.compile tablePrefix plan.withoutAggregate) ∧ aggregate.isWellFormed = true := by
  have hover : Yields (r.compile tablePrefix plan) (fun _ => True) ↔ _ :=
    Renderer.yields_compile_aggregate r _ h haggregate
  simp only [yields_const, and_true] at hover
  rw [hover]
  constructor
  · rintro ⟨hcolumn, hunion, -⟩
    exact ⟨hunion, hcolumn⟩
  · rintro ⟨hunion, hcolumn⟩
    exact ⟨hcolumn, hunion, Aggregate.succeeds_argument _ hcolumn⟩

end Pieces

/-! ## Text and bindings -/

/-- The text of a query as a branch of a union. -/
def Dialect.branchText (dialect : Dialect) (text : String) : String :=
  if dialect.wrapsBranches then
    "SELECT * FROM (" ++ text ++ ") AS " ++ dialect.quote tempTable
  else "(" ++ text ++ ")"

theorem Dialect.text_wrapBranch (dialect : Dialect) (sql : Sql) :
    (dialect.wrapBranch sql).text = dialect.branchText sql.text := by
  unfold Dialect.wrapBranch Dialect.branchText
  split
  · have hopen : "SELECT * FROM (" = "SELECT * FROM " ++ "(" := rfl
    have hclose : ") AS " = ")" ++ " AS " := rfl
    simp only [Sql.parens, Sql.text_append, Sql.text_ofText, hopen, hclose, String.append_assoc]
  · simp [Sql.parens]

theorem Dialect.text_unite (dialect : Dialect) : ∀ (branches : List Branch) (sqls : List Sql)
    (union : Sql), (dialect.unite union branches sqls).text =
      union.text ++ String.join (List.zipWith
        (fun branch sql => unionText branch.all ++ dialect.branchText sql.text) branches sqls)
  | [], _, union => by simp [Dialect.unite]
  | _ :: _, [], union => by simp [Dialect.unite]
  | branch :: branches, sql :: sqls, union => by
    rw [Dialect.unite, Dialect.text_unite dialect branches sqls]
    simp [Dialect.text_wrapBranch, String.append_assoc]

theorem Dialect.bindings_unite (dialect : Dialect) : ∀ {branches : List Branch} {sqls : List Sql}
    (_ : branches.length = sqls.length) (union : Sql),
    (dialect.unite union branches sqls).bindings =
      union.bindings ++ (sqls.flatMap Sql.values).map (⟨·, .union⟩)
  | [], [], _, union => by simp [Dialect.unite]
  | branch :: branches, sql :: sqls, hlength, union => by
    rw [Dialect.unite, Dialect.bindings_unite dialect (Nat.succ.inj hlength)]
    simp [Bindings.retag, Sql.values, Bindings.values]

/-- The page of a union, spelled out. Where a page needs an order, a union without one gets one that
says nothing. -/
def Dialect.unionTail (dialect : Dialect) (ordered : Bool) (page : Page) : String :=
  let order := if ordered then "" else " ORDER BY (SELECT 0)"
  match dialect.pagination, page.limit, page.offset with
  | _, none, none => ""
  | .limitOffset, some limit, none => " LIMIT " ++ limit.repr
  | .limitOffset, some limit, some offset => " LIMIT " ++ limit.repr ++ " OFFSET " ++ offset.repr
  | .limitOffset, none, some offset =>
    match dialect.unboundedLimit with
    | some unbounded => " LIMIT " ++ unbounded ++ " OFFSET " ++ offset.repr
    | none => " OFFSET " ++ offset.repr
  | .top, some limit, none => order ++ " OFFSET 0 ROWS FETCH NEXT " ++ limit.repr ++ " ROWS ONLY"
  | .top, none, some offset => order ++ " OFFSET " ++ offset.repr ++ " ROWS"
  | .top, some limit, some offset =>
    order ++ " OFFSET " ++ offset.repr ++ " ROWS FETCH NEXT " ++ limit.repr ++ " ROWS ONLY"

theorem Dialect.unionPageText_eq_unionTail (dialect : Dialect) (ordered : Bool) (page : Page) :
    dialect.unionPageText ordered page = dialect.unionTail ordered page := by
  obtain ⟨limit, offset⟩ := page
  unfold Dialect.unionPageText Dialect.unionTail Dialect.limitOffsetText Dialect.limitText
  cases dialect.pagination with
  | limitOffset =>
    cases limit with
    | some limit => cases offset <;> simp [Dialect.offsetText, String.append_assoc]
    | none =>
      cases offset with
      | none => rfl
      | some offset => cases dialect.unboundedLimit <;> simp [Dialect.offsetText, String.append_assoc]
  | top =>
    have hjoin : ∀ limit : Nat, " ROWS" ++ Dialect.fetchText (some limit) =
        " ROWS FETCH NEXT " ++ limit.repr ++ " ROWS ONLY" := by
      intro limit
      have hwords : " ROWS FETCH NEXT " = " ROWS" ++ " FETCH NEXT " := rfl
      simp only [Dialect.fetchText, hwords, String.append_assoc]
    cases limit with
    | none => cases offset <;> simp [Dialect.noOrderText, Dialect.fetchText]
    | some limit =>
      cases offset with
      | some offset => simp [Dialect.noOrderText, hjoin, String.append_assoc]
      | none =>
        have hzero : " OFFSET 0 ROWS FETCH NEXT " =
          " OFFSET " ++ Nat.repr 0 ++ " ROWS FETCH NEXT " := by decide +kernel
        simp only [Option.isSome_some, Option.isSome_none, Bool.true_or, if_true, Option.getD_none,
          Dialect.noOrderText, hzero, String.append_assoc, hjoin]

/-! ## The whole statement -/

/-- A union compiles exactly if its base, its branches and its order do. It is then its base and its
branches in order, each as it is compiled on its own, with one order and one page behind them; the
values of the branches have the purpose of the union. An aggregate over a column, or over whole
rows, selects from that. -/
theorem Compiler.union_in_pieces (c : Compiler) (plan : Plan) (hbranches : plan.branches ≠ []) :
    (Succeeds (c.select plan.withoutAggregate) ↔
      Succeeds (c.select plan.unionBase) ∧
        (∀ branch ∈ plan.branches, Succeeds (c.select branch.plan)) ∧
        Succeeds (SortKey.ofTerms c.tablePrefix plan.unionOrders)) ∧
    (∀ union, c.select plan.withoutAggregate = .ok union → ∃ base sqls ordered order,
      c.select plan.unionBase = .ok base ∧
      List.Forall₂ (fun branch sql => c.select branch.plan = .ok sql) plan.branches sqls ∧
      (c.select { orders := plan.unionOrders } = .ok ordered ∧
        ordered.text = "SELECT *" ++ order) ∧
      union.text = c.dialect.branchText base.text ++
        String.join (List.zipWith
          (fun branch sql => unionText branch.all ++ c.dialect.branchText sql.text)
          plan.branches sqls) ++
        order ++ c.dialect.unionTail (!plan.unionOrders.isEmpty) plan.unionPage ∧
      union.bindings = base.bindings ++ (sqls.flatMap Sql.values).map (⟨·, .union⟩) ++
        (plan.unionOrders.flatMap OrderTerm.values).map (⟨·, .unionOrder⟩)) ∧
    ∀ aggregate, plan.aggregate = some aggregate →
      (Succeeds (c.select plan) ↔
        Succeeds (c.select plan.withoutAggregate) ∧ aggregate.isWellFormed = true) ∧
      ∀ sql, c.select plan = .ok sql → ∃ union argument,
        c.select plan.withoutAggregate = .ok union ∧ aggregate.argument c = .ok argument ∧
        sql.text = "SELECT " ++ aggregate.text argument ++ " AS " ++ c.dialect.quote aggregateAlias ++
          " FROM (" ++ union.text ++ ") AS " ++ c.dialect.quote tempTable ∧
        sql.bindings = union.bindings := by
  simp only [Compiler.select_eq_compile]
  refine ⟨?_, ?_, ?_⟩
  · exact Renderer.succeeds_compile_union c.renderer hbranches
  · intro union hselect
    obtain ⟨base, hbase, sqls, hsqls, order, horder, rfl⟩ :=
      (Renderer.yields_compile_union c.renderer (· = union) hbranches).1 ⟨_, hselect, rfl⟩
    obtain ⟨ordered, hordered, htext⟩ := c.renderer.unionOrder_text plan.unionOrders order horder
    have hbindings := c.renderer.unionOrder_bindings plan.unionOrders order horder
    have hall := Ensures.mapM (fun branch _ sql hsql => hsql) sqls hsqls
    refine ⟨base, sqls, ordered, order.text, hbase, hall, ⟨hordered, htext⟩, ?_, ?_⟩
    · simp only [Sql.text_append, Sql.text_ofText, Dialect.text_unite, Dialect.text_wrapBranch,
        Dialect.unionPageText_eq_unionTail]
      rfl
    · simp only [Sql.bindings_append, Sql.bindings_ofText, List.append_nil, hbindings,
        Dialect.bindings_unite _ hall.length_eq, Dialect.bindings_wrapBranch]
  · intro aggregate haggregate
    refine ⟨Renderer.succeeds_compile_aggregate c.renderer hbranches haggregate, ?_⟩
    intro sql hselect
    obtain ⟨-, union, hinner, argument, hargument, rfl⟩ :=
      (Renderer.yields_compile_aggregate c.renderer (· = sql) hbranches haggregate).1
        ⟨_, hselect, rfl⟩
    refine ⟨union, argument, hinner, hargument, ?_, ?_⟩
    · have hopen : " FROM (" = " FROM " ++ "(" := rfl
      have hclose : ") AS " = ")" ++ " AS " := rfl
      simp only [Sql.parens, Sql.text_append, Sql.text_ofText, hopen, hclose, String.append_assoc]
      rfl
    · simp [Sql.parens]

/-- Two branches behind a base, the second one a union itself, with an order of their own and counted
together; and a page of a union without an order, where the page comes with `TOP`. -/
theorem Compiler.union_in_pieces_orders :
    let c : Compiler := ⟨Engine.postgres.dialect, "app_"⟩
    let returns : Plan := {
      source := some (.table "returns")
      branches := [⟨{ source := some (.table "refunds"), aggregate := some ⟨.max, some "id", false⟩ },
        false⟩] }
    let plan : Plan := {
      source := some (.table "orders")
      filters := [⟨.and, .isIn "year" [.int 1, .int 2] false⟩]
      branches := [⟨{ source := some (.table "archive") }, true⟩, ⟨returns, false⟩]
      unionOrders := [.column "id" .descending, .raw ⟨"age > ?", [.int 3]⟩]
      unionPage := ⟨some 5, none⟩
      aggregate := some ⟨.count, none, false⟩ }
    let c' : Compiler := ⟨Engine.sqlserver.dialect, ""⟩
    let page : Plan := {
      source := some (.table "orders")
      branches := [⟨{ source := some (.table "archive"), page := ⟨some 3, none⟩ }, true⟩]
      unionPage := ⟨some 5, some 10⟩ }
    plan.branches ≠ [] ∧ page.branches ≠ [] ∧
      ((c.select plan.unionBase).toOption.map fun base => base.bindings.map (·.purpose)) =
        some [.where, .where] ∧
      (Succeeds (c.select plan.withoutAggregate) ↔
        Succeeds (c.select plan.unionBase) ∧
          (∀ branch ∈ plan.branches, Succeeds (c.select branch.plan)) ∧
          Succeeds (SortKey.ofTerms c.tablePrefix plan.unionOrders)) ∧
      (c.select plan).toOption.map Sql.text =
        some ("SELECT count(*) AS \"aggregate\" FROM (" ++
          "(SELECT * FROM \"app_orders\" WHERE \"year\" IN (?, ?))" ++
          " UNION ALL (SELECT * FROM \"app_archive\")" ++
          " UNION ((SELECT * FROM \"app_returns\")" ++
          " UNION (SELECT max(\"id\") AS \"aggregate\" FROM \"app_refunds\"))" ++
          " ORDER BY \"id\" DESC, age > ? LIMIT 5) AS \"temp_table\"") ∧
      (Succeeds (c'.select page.withoutAggregate) ↔
        Succeeds (c'.select page.unionBase) ∧
          (∀ branch ∈ page.branches, Succeeds (c'.select branch.plan)) ∧
          Succeeds (SortKey.ofTerms c'.tablePrefix page.unionOrders)) ∧
      (c'.select page).toOption.map Sql.text =
        some ("SELECT * FROM (SELECT * FROM [orders]) AS [temp_table]" ++
          " UNION ALL SELECT * FROM (SELECT TOP 3 * FROM [archive]) AS [temp_table]" ++
          " ORDER BY (SELECT 0) OFFSET 10 ROWS FETCH NEXT 5 ROWS ONLY") := by
  intro c returns plan c' page
  exact ⟨List.cons_ne_nil _ _, List.cons_ne_nil _ _, by decide +kernel,
    (Compiler.union_in_pieces c plan (List.cons_ne_nil _ _)).1, by decide +kernel,
    (Compiler.union_in_pieces c' page (List.cons_ne_nil _ _)).1, by decide +kernel⟩

end QueryCompiler
