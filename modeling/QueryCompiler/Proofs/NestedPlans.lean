import QueryCompiler.Proofs.Unions

/-! # Nested plans

A tree leaves the plans inside it to its renderer, and depends on nothing else that the renderer says
of plans (`Query.render_congr`). So the depth that the compiler is given makes no difference to a plan
that is nested no deeper, and a plan inside a statement is compiled as it is on its own
(`Compiler.compileNested_eq_select`).
-/

namespace QueryCompiler
set_option autoImplicit false

/-- Both ways to compile plans give the plan at the leaf the same SQL, or the same error. -/
def Leaf.Agrees (nested nested' : Plan → Except Error Sql) : Leaf → Prop
  | .plan inner _ => nested inner = nested' inner
  | _ => True

section Congruence

variable {dialect : Dialect} {nested nested' : Plan → Except Error Sql}

mutual

theorem Expr.render_congr (context : Context) : ∀ expr : Expr,
    (∀ leaf ∈ expr.leaves context, leaf.Agrees nested nested') →
      expr.render ⟨dialect, nested⟩ context = expr.render ⟨dialect, nested'⟩ context
  | .path path, _ => by rw [Expr.render, Expr.render]
  | .json column steps, _ => by rw [Expr.render, Expr.render]
  | .bound value purpose, _ => by rw [Expr.render, Expr.render]
  | .raw raw, _ => by rw [Expr.render, Expr.render]
  | .nested source, h => by
    rw [Expr.leaves] at h
    rw [Expr.render, Expr.render, Nested.render_congr context source h]
  | .call (.datePart part) [], _ => by
    rw [Expr.render, Expr.render]
    all_goals exact fun argument h => nomatch h
  | .call (.datePart part) [argument], h => by
    rw [Expr.leaves, Expr.listLeaves, List.forall_mem_append] at h
    rw [Expr.render, Expr.render, Expr.render_congr context argument h.1]
  | .call (.datePart part) (first :: second :: rest), _ => by
    rw [Expr.render, Expr.render]
    all_goals exact fun argument h => nomatch h
  | .call .jsonLength arguments, _ => by rw [Expr.render, Expr.render]
  | .aggregate function distinct arguments, h => by
    rw [Expr.leaves] at h
    rw [Expr.render, Expr.render, Expr.renderList_congr context arguments h]
  | .compare left comparison right, h => by
    rw [Expr.leaves, List.forall_mem_append] at h
    rw [Expr.render, Expr.render, Expr.render_congr context left h.1,
      Expr.render_congr context right h.2]
  | .between operand low high negated, h => by
    rw [Expr.leaves, List.forall_mem_append, List.forall_mem_append] at h
    rw [Expr.render, Expr.render, Expr.render_congr context operand h.1.1,
      Expr.render_congr context low h.1.2, Expr.render_congr context high h.2]
  | .inList operand values negated, h => by
    rw [Expr.render, Expr.render]
    split
    · rfl
    · next hvalues =>
      rw [Expr.leaves, if_neg hvalues, List.forall_mem_append] at h
      rw [Expr.render_congr context operand h.1, Expr.renderList_congr context values h.2]
  | .inNested operand source negated, h => by
    rw [Expr.leaves, List.forall_mem_append] at h
    rw [Expr.render, Expr.render, Expr.render_congr context operand h.1,
      Nested.render_congr context source h.2]
  | .isNull operand negated, h => by
    rw [Expr.leaves] at h
    rw [Expr.render, Expr.render, Expr.render_congr context operand h]
  | .existsIn source negated, h => by
    rw [Expr.leaves] at h
    rw [Expr.render, Expr.render, Nested.render_congr context source h]
  | .like operand pattern caseSensitive negated, h => by
    rw [Expr.leaves, List.forall_mem_append] at h
    rw [Expr.render, Expr.render, Expr.render_congr context operand h.1,
      Expr.render_congr context pattern h.2]
  | .condition connective terms, h => by
    rw [Expr.leaves] at h
    rw [Expr.render, Expr.render, Expr.renderTerms_congr context connective terms h]
  | .parenthesized inner, h => by
    rw [Expr.leaves] at h
    rw [Expr.render, Expr.render, Expr.render_congr context inner h]

theorem Expr.renderList_congr (context : Context) : ∀ exprs : List Expr,
    (∀ leaf ∈ Expr.listLeaves context exprs, leaf.Agrees nested nested') →
      Expr.renderList ⟨dialect, nested⟩ context exprs =
        Expr.renderList ⟨dialect, nested'⟩ context exprs
  | [], _ => by rw [Expr.renderList, Expr.renderList]
  | expr :: exprs, h => by
    rw [Expr.listLeaves, List.forall_mem_append] at h
    rw [Expr.renderList, Expr.renderList, Expr.render_congr context expr h.1,
      Expr.renderList_congr context exprs h.2]

theorem Expr.renderTerms_congr (context : Context) (connective : Connective) :
    ∀ terms : List Expr, (∀ leaf ∈ Expr.listLeaves context terms, leaf.Agrees nested nested') →
      Expr.renderTerms ⟨dialect, nested⟩ context connective terms =
        Expr.renderTerms ⟨dialect, nested'⟩ context connective terms
  | [], _ => by rw [Expr.renderTerms, Expr.renderTerms]
  | term :: terms, h => by
    rw [Expr.listLeaves, List.forall_mem_append] at h
    rw [Expr.renderTerms, Expr.renderTerms, Expr.render_congr context term h.1,
      Expr.renderTerms_congr context connective terms h.2]

theorem Expr.renderClause_congr (context : Context) (keyword : String) : ∀ expr : Option Expr,
    (∀ leaf ∈ Expr.clauseLeaves context expr, leaf.Agrees nested nested') →
      Expr.renderClause ⟨dialect, nested⟩ context keyword expr =
        Expr.renderClause ⟨dialect, nested'⟩ context keyword expr
  | none, _ => by rw [Expr.renderClause, Expr.renderClause]
  | some expr, h => by
    rw [Expr.clauseLeaves] at h
    rw [Expr.renderClause, Expr.renderClause, Expr.render_congr context expr h]

theorem Expr.renderListClause_congr (context : Context) (keyword : String) :
    ∀ exprs : Option (List Expr),
    (∀ leaf ∈ Expr.listClauseLeaves context exprs, leaf.Agrees nested nested') →
      Expr.renderListClause ⟨dialect, nested⟩ context keyword exprs =
        Expr.renderListClause ⟨dialect, nested'⟩ context keyword exprs
  | none, _ => by rw [Expr.renderListClause, Expr.renderListClause]
  | some exprs, h => by
    rw [Expr.listClauseLeaves] at h
    rw [Expr.renderListClause, Expr.renderListClause, Expr.renderList_congr context exprs h]

theorem Nested.render_congr (context : Context) : ∀ source : Nested,
    (∀ leaf ∈ source.leaves context, leaf.Agrees nested nested') →
      source.render ⟨dialect, nested⟩ context = source.render ⟨dialect, nested'⟩ context
  | .plan plan, h => by
    rw [Nested.leaves] at h
    have hplan : nested plan = nested' plan := h _ List.mem_cons_self
    rw [Nested.render, Nested.render]
    exact congrArg (· >>= fun sql => pure (sql.retag context.clausePurpose)) hplan
  | .raw raw, _ => by rw [Nested.render, Nested.render]
  | .query query, h => by
    rw [Nested.leaves] at h
    rw [Nested.render, Nested.render, Query.render_congr context query h]

theorem SelectItem.render_congr (context : Context) : ∀ item : SelectItem,
    (∀ leaf ∈ item.leaves context, leaf.Agrees nested nested') →
      item.render ⟨dialect, nested⟩ context = item.render ⟨dialect, nested'⟩ context
  | .wildcard none, _ => by rw [SelectItem.render, SelectItem.render]
  | .wildcard (some qualifier), _ => by rw [SelectItem.render, SelectItem.render]
  | .column column, _ => by rw [SelectItem.render, SelectItem.render]
  | .expr expr label, h => by
    rw [SelectItem.leaves] at h
    rw [SelectItem.render, SelectItem.render, Expr.render_congr context expr h]

theorem SelectItem.renderList_congr (context : Context) : ∀ items : List SelectItem,
    (∀ leaf ∈ SelectItem.listLeaves context items, leaf.Agrees nested nested') →
      SelectItem.renderList ⟨dialect, nested⟩ context items =
        SelectItem.renderList ⟨dialect, nested'⟩ context items
  | [], _ => by rw [SelectItem.renderList, SelectItem.renderList]
  | item :: items, h => by
    rw [SelectItem.listLeaves, List.forall_mem_append] at h
    rw [SelectItem.renderList, SelectItem.renderList, SelectItem.render_congr context item h.1,
      SelectItem.renderList_congr context items h.2]

theorem TableExpr.render_congr (context : Context) (hint : Option String) (lock : List Leaf) :
    ∀ table : TableExpr, (∀ leaf ∈ table.leaves context lock, leaf.Agrees nested nested') →
      table.render ⟨dialect, nested⟩ context hint = table.render ⟨dialect, nested'⟩ context hint
  | .table table, _ => by rw [TableExpr.render, TableExpr.render]
  | .derived source label, h => by
    rw [TableExpr.leaves] at h
    rw [TableExpr.render, TableExpr.render, Nested.render_congr context source h]
  | .joined first joins, h => by
    rw [TableExpr.leaves, List.forall_mem_append] at h
    rw [TableExpr.render, TableExpr.render, TableExpr.render_congr context hint lock first h.1,
      JoinExpr.renderList_congr context.joining joins h.2]
  | .raw raw, _ => by rw [TableExpr.render, TableExpr.render]

theorem TableExpr.renderClause_congr (context : Context) (hint : Option String) (lock : List Leaf) :
    ∀ table : Option TableExpr,
    (∀ leaf ∈ TableExpr.clauseLeaves context lock table, leaf.Agrees nested nested') →
      TableExpr.renderClause ⟨dialect, nested⟩ context hint table =
        TableExpr.renderClause ⟨dialect, nested'⟩ context hint table
  | none, _ => by rw [TableExpr.renderClause, TableExpr.renderClause]
  | some table, h => by
    rw [TableExpr.clauseLeaves] at h
    rw [TableExpr.renderClause, TableExpr.renderClause,
      TableExpr.render_congr context hint lock table h]

theorem JoinExpr.render_congr (context : Context) : ∀ join : JoinExpr,
    (∀ leaf ∈ join.leaves context, leaf.Agrees nested nested') →
      join.render ⟨dialect, nested⟩ context = join.render ⟨dialect, nested'⟩ context
  | ⟨kind, target, on⟩, h => by
    rw [JoinExpr.leaves, List.forall_mem_append] at h
    rw [JoinExpr.render, JoinExpr.render, TableExpr.render_congr context none [] target h.1,
      Expr.renderClause_congr context " ON " on h.2]

theorem JoinExpr.renderList_congr (context : Context) : ∀ joins : List JoinExpr,
    (∀ leaf ∈ JoinExpr.listLeaves context joins, leaf.Agrees nested nested') →
      JoinExpr.renderList ⟨dialect, nested⟩ context joins =
        JoinExpr.renderList ⟨dialect, nested'⟩ context joins
  | [], _ => by rw [JoinExpr.renderList, JoinExpr.renderList]
  | join :: joins, h => by
    rw [JoinExpr.listLeaves, List.forall_mem_append] at h
    rw [JoinExpr.renderList, JoinExpr.renderList, JoinExpr.render_congr context join h.1,
      JoinExpr.renderList_congr context joins h.2]

theorem SortKey.render_congr (context : Context) : ∀ key : SortKey,
    (∀ leaf ∈ key.leaves context, leaf.Agrees nested nested') →
      key.render ⟨dialect, nested⟩ context = key.render ⟨dialect, nested'⟩ context
  | ⟨expr, direction⟩, h => by
    rw [SortKey.leaves] at h
    rw [SortKey.render, SortKey.render, Expr.render_congr context expr h]

theorem SortKey.renderList_congr (context : Context) : ∀ keys : List SortKey,
    (∀ leaf ∈ SortKey.listLeaves context keys, leaf.Agrees nested nested') →
      SortKey.renderList ⟨dialect, nested⟩ context keys =
        SortKey.renderList ⟨dialect, nested'⟩ context keys
  | [], _ => by rw [SortKey.renderList, SortKey.renderList]
  | key :: keys, h => by
    rw [SortKey.listLeaves, List.forall_mem_append] at h
    rw [SortKey.renderList, SortKey.renderList, SortKey.render_congr context key h.1,
      SortKey.renderList_congr context keys h.2]

theorem SortKey.renderClause_congr (context : Context) : ∀ keys : Option (List SortKey),
    (∀ leaf ∈ SortKey.clauseLeaves context keys, leaf.Agrees nested nested') →
      SortKey.renderClause ⟨dialect, nested⟩ context keys =
        SortKey.renderClause ⟨dialect, nested'⟩ context keys
  | none, _ => by rw [SortKey.renderClause, SortKey.renderClause]
  | some keys, h => by
    rw [SortKey.clauseLeaves] at h
    rw [SortKey.renderClause, SortKey.renderClause, SortKey.renderList_congr context keys h]

theorem Select.render_congr (context : Context) : ∀ select : Select,
    (∀ leaf ∈ select.leaves context, leaf.Agrees nested nested') →
      select.render ⟨dialect, nested⟩ context = select.render ⟨dialect, nested'⟩ context
  | { distinct, items, source, filter, groupBy, having, orderBy, page, lock }, h => by
    simp only [Select.leaves, List.forall_mem_append] at h
    obtain ⟨⟨⟨⟨⟨⟨hitems, hsource⟩, hfilter⟩, hgroups⟩, hhaving⟩, horder⟩, -⟩ := h
    rw [Select.render, Select.render, SelectItem.renderList_congr _ items hitems,
      Expr.renderClause_congr _ _ filter hfilter, Expr.renderListClause_congr _ _ groupBy hgroups,
      Expr.renderClause_congr _ _ having hhaving, SortKey.renderClause_congr _ orderBy horder]
    simp only [TableExpr.renderClause_congr _ _ _ source hsource]

theorem Query.render_congr (context : Context) : ∀ query : Query,
    (∀ leaf ∈ query.leaves context, leaf.Agrees nested nested') →
      query.render ⟨dialect, nested⟩ context = query.render ⟨dialect, nested'⟩ context
  | .select select, h => by
    rw [Query.leaves] at h
    rw [Query.render, Query.render, Select.render_congr context select h]
  | .union left right all orderBy page, h => by
    rw [Query.leaves, List.forall_mem_append, List.forall_mem_append] at h
    rw [Query.render, Query.render, Query.render_congr context left h.1.1,
      Query.render_congr _ right h.1.2, SortKey.renderClause_congr _ orderBy h.2]

end

/-- A plan depends on the plans that are nested in it, which are less deep. -/
theorem Renderer.compile_congr (tablePrefix : String) {plan : Plan}
    (h : ∀ inner : Plan, inner.depth < plan.depth → nested inner = nested' inner) :
    Renderer.compile ⟨dialect, nested⟩ tablePrefix plan =
      Renderer.compile ⟨dialect, nested'⟩ tablePrefix plan := by
  refine bind_congr_ok fun query hquery => Query.render_congr {} query fun leaf hleaf => ?_
  rw [Query.ofPlan_leaves tablePrefix {} plan query hquery] at hleaf
  have hdepth := plan.depth_leaves {} leaf hleaf
  cases leaf with
  | plan inner purpose =>
    have hinner : inner.depth ≤ plan.depth - 1 := hdepth
    have hpos := plan.depth_eq
    exact h inner (by omega)
  | bound | raw | lock => trivial

end Congruence

namespace Compiler

variable (c : Compiler)

/-- Induction on the depth that the compiler is given, for any two depths that are enough. -/
theorem compileWithin_eq {n m : Nat} {plan : Plan} (hn : plan.depth ≤ n) (hm : plan.depth ≤ m) :
    c.compileWithin n plan = c.compileWithin m plan := by
  have hpos := plan.depth_eq
  induction n generalizing m plan with
  | zero => omega
  | succ n ih =>
    cases m with
    | zero => omega
    | succ m =>
      rw [compileWithin_succ, compileWithin_succ]
      exact Renderer.compile_congr c.tablePrefix fun inner hinner =>
        ih (by omega) (by omega) inner.depth_eq

/-- A plan inside a statement is compiled as it is on its own. -/
theorem compileNested_eq_select (plan : Plan) : c.compileNested plan = c.select plan := by
  have hpos := plan.depth_eq
  obtain ⟨n, hn⟩ : ∃ n, plan.depth = n + 1 := ⟨plan.depth - 1, by omega⟩
  rw [compileNested, hn, compileWithin_succ, select_eq_compile]
  exact Renderer.compile_congr c.tablePrefix fun inner hinner =>
    c.compileWithin_eq (by omega) (Nat.le_refl _)

end Compiler

end QueryCompiler
