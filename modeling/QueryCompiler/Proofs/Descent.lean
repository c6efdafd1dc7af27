import QueryCompiler.Proofs.NestedPlans
import QueryCompiler.Proofs.PlanParts

/-! # Compilation descends

To compile a plan, the compiler builds a tree and writes it, and for that it compiles the plans in the
tree. They are nested in the plan, so that the recursion comes to an end, and the compiler gives what
the recursion gives (`Compiler.compiles_iff`): the depth that it counts down never runs out.

* `Query.render_congr_plans`: writing a tree asks for nothing but the plans in it.
* `Compiler.Compiles`: the recursion, without a bound.
-/

namespace QueryCompiler
set_option autoImplicit false

/-! ## Leaves -/

section Leaves

variable {inner : Plan} {purpose : Purpose}

theorem Lock.plan_not_mem_leaves (inner : Plan) (purpose : Purpose) (lock : Option Lock) :
    Leaf.plan inner purpose ∉ Lock.leaves lock := by
  intro h
  cases lock with
  | none => cases h
  | some lock => cases List.mem_singleton.1 h

mutual

theorem Expr.mem_plans_of_leaf (context : Context) : ∀ expr : Expr,
    Leaf.plan inner purpose ∈ expr.leaves context → inner ∈ expr.plans
  | .path _, h | .json _ _, h | .call .jsonLength _, h => by
    rw [Expr.leaves] at h
    cases h
  | .bound _ _, h | .raw _, h => by
    rw [Expr.leaves] at h
    cases List.mem_singleton.1 h
  | .nested source, h => by
    rw [Expr.leaves] at h
    rw [Expr.plans]
    exact Nested.mem_plans_of_leaf context source h
  | .call (.datePart _) arguments, h => by
    rw [Expr.leaves] at h
    rw [Expr.plans]
    exact Expr.mem_listPlans_of_leaf context arguments h
  | .aggregate _ _ arguments, h => by
    rw [Expr.leaves] at h
    rw [Expr.plans]
    exact Expr.mem_listPlans_of_leaf context arguments h
  | .compare left _ right, h => by
    rw [Expr.leaves, List.mem_append] at h
    rw [Expr.plans, List.mem_append]
    exact h.imp (Expr.mem_plans_of_leaf context left) (Expr.mem_plans_of_leaf context right)
  | .between operand low high _, h => by
    rw [Expr.leaves, List.mem_append, List.mem_append] at h
    rw [Expr.plans, List.mem_append, List.mem_append]
    exact h.imp (Or.imp (Expr.mem_plans_of_leaf context operand) (Expr.mem_plans_of_leaf context low))
      (Expr.mem_plans_of_leaf context high)
  | .inList operand values _, h => by
    rw [Expr.leaves] at h
    rw [Expr.plans, List.mem_append]
    split at h
    · cases h
    · exact (List.mem_append.1 h).imp (Expr.mem_plans_of_leaf context operand)
        (Expr.mem_listPlans_of_leaf context values)
  | .inNested operand source _, h => by
    rw [Expr.leaves, List.mem_append] at h
    rw [Expr.plans, List.mem_append]
    exact h.imp (Expr.mem_plans_of_leaf context operand) (Nested.mem_plans_of_leaf context source)
  | .isNull operand _, h => by
    rw [Expr.leaves] at h
    rw [Expr.plans]
    exact Expr.mem_plans_of_leaf context operand h
  | .existsIn source _, h => by
    rw [Expr.leaves] at h
    rw [Expr.plans]
    exact Nested.mem_plans_of_leaf context source h
  | .like operand pattern _ _, h => by
    rw [Expr.leaves, List.mem_append] at h
    rw [Expr.plans, List.mem_append]
    exact h.imp (Expr.mem_plans_of_leaf context operand) (Expr.mem_plans_of_leaf context pattern)
  | .condition _ terms, h => by
    rw [Expr.leaves] at h
    rw [Expr.plans]
    exact Expr.mem_listPlans_of_leaf context terms h
  | .parenthesized expr, h => by
    rw [Expr.leaves] at h
    rw [Expr.plans]
    exact Expr.mem_plans_of_leaf context expr h

theorem Expr.mem_listPlans_of_leaf (context : Context) : ∀ exprs : List Expr,
    Leaf.plan inner purpose ∈ Expr.listLeaves context exprs → inner ∈ Expr.listPlans exprs
  | [], h => by
    rw [Expr.listLeaves] at h
    cases h
  | expr :: exprs, h => by
    rw [Expr.listLeaves, List.mem_append] at h
    rw [Expr.listPlans, List.mem_append]
    exact h.imp (Expr.mem_plans_of_leaf context expr) (Expr.mem_listPlans_of_leaf context exprs)

theorem Expr.mem_clausePlans_of_leaf (context : Context) : ∀ expr : Option Expr,
    Leaf.plan inner purpose ∈ Expr.clauseLeaves context expr → inner ∈ Expr.clausePlans expr
  | none, h => by
    rw [Expr.clauseLeaves] at h
    cases h
  | some expr, h => by
    rw [Expr.clauseLeaves] at h
    rw [Expr.clausePlans]
    exact Expr.mem_plans_of_leaf context expr h

theorem Expr.mem_listClausePlans_of_leaf (context : Context) : ∀ exprs : Option (List Expr),
    Leaf.plan inner purpose ∈ Expr.listClauseLeaves context exprs →
      inner ∈ Expr.listClausePlans exprs
  | none, h => by
    rw [Expr.listClauseLeaves] at h
    cases h
  | some exprs, h => by
    rw [Expr.listClauseLeaves] at h
    rw [Expr.listClausePlans]
    exact Expr.mem_listPlans_of_leaf context exprs h

theorem Nested.mem_plans_of_leaf (context : Context) : ∀ source : Nested,
    Leaf.plan inner purpose ∈ source.leaves context → inner ∈ source.plans
  | .plan _, h => by
    rw [Nested.leaves] at h
    cases List.mem_singleton.1 h
    rw [Nested.plans]
    exact List.mem_cons_self
  | .raw _, h => by
    rw [Nested.leaves] at h
    cases List.mem_singleton.1 h
  | .query query, h => by
    rw [Nested.leaves] at h
    rw [Nested.plans]
    exact Query.mem_plans_of_leaf context query h

theorem SelectItem.mem_plans_of_leaf (context : Context) : ∀ item : SelectItem,
    Leaf.plan inner purpose ∈ item.leaves context → inner ∈ item.plans
  | .wildcard _, h | .column _, h => by
    rw [SelectItem.leaves] at h
    cases h
  | .expr expr _, h => by
    rw [SelectItem.leaves] at h
    rw [SelectItem.plans]
    exact Expr.mem_plans_of_leaf context expr h

theorem SelectItem.mem_listPlans_of_leaf (context : Context) : ∀ items : List SelectItem,
    Leaf.plan inner purpose ∈ SelectItem.listLeaves context items →
      inner ∈ SelectItem.listPlans items
  | [], h => by
    rw [SelectItem.listLeaves] at h
    cases h
  | item :: items, h => by
    rw [SelectItem.listLeaves, List.mem_append] at h
    rw [SelectItem.listPlans, List.mem_append]
    exact h.imp (SelectItem.mem_plans_of_leaf context item)
      (SelectItem.mem_listPlans_of_leaf context items)

theorem TableExpr.mem_plans_of_leaf (context : Context) {hint : List Leaf}
    (hhint : Leaf.plan inner purpose ∉ hint) : ∀ table : TableExpr,
    Leaf.plan inner purpose ∈ table.leaves context hint → inner ∈ table.plans
  | .table _, h => by
    rw [TableExpr.leaves] at h
    exact (hhint h).elim
  | .derived source _, h => by
    rw [TableExpr.leaves] at h
    rw [TableExpr.plans]
    exact Nested.mem_plans_of_leaf context source h
  | .joined first joins, h => by
    rw [TableExpr.leaves, List.mem_append] at h
    rw [TableExpr.plans, List.mem_append]
    exact h.imp (TableExpr.mem_plans_of_leaf context hhint first)
      (JoinExpr.mem_listPlans_of_leaf context.joining joins)
  | .raw _, h => by
    rw [TableExpr.leaves] at h
    cases List.mem_singleton.1 h

theorem TableExpr.mem_clausePlans_of_leaf (context : Context) {hint : List Leaf}
    (hhint : Leaf.plan inner purpose ∉ hint) : ∀ table : Option TableExpr,
    Leaf.plan inner purpose ∈ TableExpr.clauseLeaves context hint table →
      inner ∈ TableExpr.clausePlans table
  | none, h => by
    rw [TableExpr.clauseLeaves] at h
    cases h
  | some table, h => by
    rw [TableExpr.clauseLeaves] at h
    rw [TableExpr.clausePlans]
    exact TableExpr.mem_plans_of_leaf context hhint table h

theorem JoinExpr.mem_plans_of_leaf (context : Context) : ∀ join : JoinExpr,
    Leaf.plan inner purpose ∈ join.leaves context → inner ∈ join.plans
  | ⟨_, target, on⟩, h => by
    rw [JoinExpr.leaves, List.mem_append] at h
    rw [JoinExpr.plans, List.mem_append]
    exact h.imp (TableExpr.mem_plans_of_leaf context List.not_mem_nil target)
      (Expr.mem_clausePlans_of_leaf context on)

theorem JoinExpr.mem_listPlans_of_leaf (context : Context) : ∀ joins : List JoinExpr,
    Leaf.plan inner purpose ∈ JoinExpr.listLeaves context joins → inner ∈ JoinExpr.listPlans joins
  | [], h => by
    rw [JoinExpr.listLeaves] at h
    cases h
  | join :: joins, h => by
    rw [JoinExpr.listLeaves, List.mem_append] at h
    rw [JoinExpr.listPlans, List.mem_append]
    exact h.imp (JoinExpr.mem_plans_of_leaf context join)
      (JoinExpr.mem_listPlans_of_leaf context joins)

theorem SortKey.mem_plans_of_leaf (context : Context) : ∀ key : SortKey,
    Leaf.plan inner purpose ∈ key.leaves context → inner ∈ key.plans
  | ⟨expr, _⟩, h => by
    rw [SortKey.leaves] at h
    rw [SortKey.plans]
    exact Expr.mem_plans_of_leaf context expr h

theorem SortKey.mem_listPlans_of_leaf (context : Context) : ∀ keys : List SortKey,
    Leaf.plan inner purpose ∈ SortKey.listLeaves context keys → inner ∈ SortKey.listPlans keys
  | [], h => by
    rw [SortKey.listLeaves] at h
    cases h
  | key :: keys, h => by
    rw [SortKey.listLeaves, List.mem_append] at h
    rw [SortKey.listPlans, List.mem_append]
    exact h.imp (SortKey.mem_plans_of_leaf context key) (SortKey.mem_listPlans_of_leaf context keys)

theorem SortKey.mem_clausePlans_of_leaf (context : Context) : ∀ keys : Option (List SortKey),
    Leaf.plan inner purpose ∈ SortKey.clauseLeaves context keys → inner ∈ SortKey.clausePlans keys
  | none, h => by
    rw [SortKey.clauseLeaves] at h
    cases h
  | some keys, h => by
    rw [SortKey.clauseLeaves] at h
    rw [SortKey.clausePlans]
    exact SortKey.mem_listPlans_of_leaf context keys h

theorem Select.mem_plans_of_leaf (context : Context) : ∀ select : Select,
    Leaf.plan inner purpose ∈ select.leaves context → inner ∈ select.plans
  | { distinct, items, source, filter, groupBy, having, orderBy, page, lock }, h => by
    have hlock := Lock.plan_not_mem_leaves inner purpose lock
    simp only [Select.leaves, List.mem_append, hlock, or_false] at h
    simp only [Select.plans, List.mem_append]
    refine h.imp (Or.imp (Or.imp (Or.imp (Or.imp ?_ ?_) ?_) ?_) ?_) ?_
    · exact SelectItem.mem_listPlans_of_leaf _ items
    · exact TableExpr.mem_clausePlans_of_leaf _ hlock source
    · exact Expr.mem_clausePlans_of_leaf _ filter
    · exact Expr.mem_listClausePlans_of_leaf _ groupBy
    · exact Expr.mem_clausePlans_of_leaf _ having
    · exact SortKey.mem_clausePlans_of_leaf _ orderBy

theorem Query.mem_plans_of_leaf (context : Context) : ∀ query : Query,
    Leaf.plan inner purpose ∈ query.leaves context → inner ∈ query.plans
  | .select select, h => by
    rw [Query.leaves] at h
    rw [Query.plans]
    exact Select.mem_plans_of_leaf context select h
  | .union left right _ orderBy _, h => by
    rw [Query.leaves, List.mem_append, List.mem_append] at h
    rw [Query.plans, List.mem_append, List.mem_append]
    exact h.imp (Or.imp (Query.mem_plans_of_leaf context left)
      (Query.mem_plans_of_leaf _ right)) (SortKey.mem_clausePlans_of_leaf _ orderBy)

end

end Leaves

/-- Two ways to compile plans that agree on the plans in a query write it alike. -/
theorem Query.render_congr_plans {dialect : Dialect} {nested nested' : Plan → Except Error Sql}
    (context : Context) {query : Query} (h : ∀ inner ∈ query.plans, nested inner = nested' inner) :
    query.render ⟨dialect, nested⟩ context = query.render ⟨dialect, nested'⟩ context := by
  refine Query.render_congr context query fun leaf hleaf => ?_
  cases leaf with
  | plan inner purpose => exact h inner (Query.mem_plans_of_leaf context query hleaf)
  | bound | raw | lock => trivial

/-! ## The recursion -/

namespace Compiler

/-- Compiling a plan gives a result: every plan in its tree gives one, and the tree is written with
them. -/
inductive Compiles (c : Compiler) : Plan → Except Error Sql → Prop
  | intro {plan : Plan} {nested : Plan → Except Error Sql}
      (h : ∀ query, Query.ofPlan c.tablePrefix plan = .ok query →
        ∀ inner ∈ query.plans, Compiles c inner (nested inner)) :
      Compiles c plan (Renderer.compile ⟨c.dialect, nested⟩ c.tablePrefix plan)

variable {c : Compiler} {plan : Plan} {result : Except Error Sql}

theorem Compiles.compileNested_eq (h : c.Compiles plan result) : c.compileNested plan = result := by
  induction h with
  | @intro plan nested _ ih =>
    rw [compileNested_eq_select, select_eq_compile]
    exact bind_congr_ok fun query hquery =>
      Query.render_congr_plans {} fun inner hinner => ih query hquery inner hinner

/-- Induction on the plans that are nested in a plan. -/
theorem compiles_compileNested (c : Compiler) (plan : Plan) :
    c.Compiles plan (c.compileNested plan) := by
  induction plan using Plan.nestedIn_wellFounded.induction with
  | _ plan ih =>
    rw [compileNested_eq_select, select_eq_compile]
    exact .intro fun query hquery inner hinner =>
      ih inner (Query.ofPlan_plans c.tablePrefix plan query hquery inner hinner)

theorem compiles_iff : c.Compiles plan result ↔ c.compileNested plan = result :=
  ⟨Compiles.compileNested_eq, fun h => h ▸ c.compiles_compileNested plan⟩

/-- Every plan in a tree that the compiler builds for a plan is nested in the plan, or an operand of
the rows that it is given. To be nested is a well-founded relation, and compiling a plan by way of the
plans in its tree always gives exactly one result, the one of the compiler. -/
theorem compilation_descends (c : Compiler) (plan : Plan) :
    Ensures (Query.ofPlan c.tablePrefix plan)
      (fun query => ∀ inner ∈ query.plans, inner.NestedIn plan) ∧
    Ensures (Select.existence c.dialect.existsStyle c.tablePrefix plan)
      (fun select => ∀ inner ∈ select.plans, inner.NestedIn plan) ∧
    (∀ row, Ensures (Update.ofPlan c.dialect c.tablePrefix plan row)
      fun update => ∀ inner ∈ update.plans, inner.NestedIn plan ∨ inner ∈ row.plans) ∧
    Ensures (Delete.ofPlan c.dialect c.tablePrefix plan)
      (fun delete => ∀ inner ∈ delete.plans, inner.NestedIn plan) ∧
    (∀ rows conflict, Ensures (Insert.ofRows c.tablePrefix plan rows conflict)
      fun insert => ∀ inner ∈ insert.source.plans, ∃ row ∈ rows, inner ∈ row.plans) ∧
    WellFounded Plan.NestedIn ∧
    ∀ result, c.Compiles plan result ↔ c.compileNested plan = result := by
  refine ⟨Query.ofPlan_plans c.tablePrefix plan, Select.existence_plans c.tablePrefix _ plan,
    fun row => ?_, ?_, Insert.ofRows_plans c.tablePrefix plan, Plan.nestedIn_wellFounded,
    fun result => compiles_iff⟩
  · exact (Update.ofPlan_plans c.tablePrefix c.dialect plan row).mono fun update h inner hinner =>
      (h inner hinner).imp_left .single
  · exact (Delete.ofPlan_plans c.tablePrefix c.dialect plan).mono fun delete h inner hinner =>
      .single (h inner hinner)

/-- A count over a union: the tree holds a plan of the branch, which is no part of the plan itself. -/
theorem compilation_descends_count :
    let inner : Plan := { source := some (.table "posts") }
    let branch : Plan := { source := some (.subquery inner "p") }
    let plan : Plan := { branches := [⟨branch, true⟩], aggregate := some { function := .count } }
    let c : Compiler := ⟨.postgres, ""⟩
    (∃ query, Query.ofPlan "" plan = .ok query ∧ query.plans = [inner]) ∧ ¬inner.IsPart plan ∧
      inner.NestedIn plan ∧ c.Compiles plan (.ok ⟨"SELECT count(*) AS \"aggregate\" FROM " ++
        "((SELECT *) UNION ALL (SELECT * FROM (SELECT * FROM \"posts\") AS \"p\")) AS \"temp_table\"",
        []⟩) := by
  intro inner branch plan c
  obtain ⟨hplans, -, -, -, -, -, hcompiles⟩ := c.compilation_descends plan
  have hquery : ∃ query, Query.ofPlan "" plan = .ok query ∧ query.plans = [inner] := ⟨_, rfl, rfl⟩
  refine ⟨hquery, ?_, ?_, (hcompiles _).2 (by decide +kernel)⟩
  · intro hpart
    cases hpart with
    | branch h =>
      have hsource : inner.source = branch.source := congrArg Plan.source (List.mem_singleton.1 h)
      cases hsource
    | selection h => cases h
    | source h => cases h
    | join h => cases h
    | filter h => cases h
    | having h => cases h
  · obtain ⟨query, hlowered, hinner⟩ := hquery
    exact hplans query hlowered inner (by rw [hinner]; exact List.mem_cons_self)

end Compiler

end QueryCompiler
