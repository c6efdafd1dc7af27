import QueryCompiler.Proofs.NestedPlans

/-! # Queries in place

A query that stands inside a statement is written there as it is on its own: the place decides the
purposes of its bindings, and nothing else (`Compiler.place_changes_purposes_only`).

* `Context.InUnion`: the places where all bindings have the purpose of a union.
* `Compiler.InPlace`: what a statement has of a query that stands in it.
-/

namespace QueryCompiler
set_option autoImplicit false

/-! ## Places in a union -/

/-- A place in a branch of a union that is no part of an UPDATE. -/
structure Context.InUnion (context : Context) : Prop where
  override_eq : context.override = some .union
  updating_eq : context.updating = false

namespace Context.InUnion

variable {context : Context}

theorem purpose (h : context.InUnion) (own : Purpose) : context.purpose own = .union := by
  rw [Context.purpose, h.override_eq]
  rfl

theorem within (h : context.InUnion) (clause : Purpose) : (context.within clause).InUnion :=
  ⟨h.override_eq, h.updating_eq⟩

theorem overriding (h : context.InUnion) : (context.overriding .union).InUnion :=
  ⟨rfl, h.updating_eq⟩

/-- A join claims its bindings for itself in an UPDATE only. -/
theorem joining (h : context.InUnion) : context.joining.InUnion := by
  refine ⟨?_, h.updating_eq⟩
  rw [Context.joining, h.updating_eq, ← h.override_eq]
  rfl

end Context.InUnion

mutual

theorem Expr.leaves_of_union {context : Context} (h : context.InUnion) : ∀ expr : Expr,
    ∀ leaf ∈ expr.leaves context, leaf.HasPurpose .union
  | .path path => by
    rw [Expr.leaves]
    exact List.forall_mem_nil _
  | .json column steps => by
    rw [Expr.leaves]
    exact List.forall_mem_nil _
  | .bound value purpose => by
    rw [Expr.leaves]
    exact List.forall_mem_singleton.2 (h.purpose purpose)
  | .raw raw => by
    rw [Expr.leaves]
    exact List.forall_mem_singleton.2 (h.purpose _)
  | .nested source => by
    rw [Expr.leaves]
    exact Nested.leaves_of_union h source
  | .call (.datePart part) arguments => by
    rw [Expr.leaves]
    exact Expr.listLeaves_of_union h arguments
  | .call .jsonLength arguments => by
    rw [Expr.leaves]
    exact List.forall_mem_nil _
  | .aggregate function distinct arguments => by
    rw [Expr.leaves]
    exact Expr.listLeaves_of_union h arguments
  | .compare left comparison right => by
    rw [Expr.leaves, List.forall_mem_append]
    exact ⟨Expr.leaves_of_union h left, Expr.leaves_of_union h right⟩
  | .between operand low high negated => by
    rw [Expr.leaves, List.forall_mem_append, List.forall_mem_append]
    exact ⟨⟨Expr.leaves_of_union h operand, Expr.leaves_of_union h low⟩,
      Expr.leaves_of_union h high⟩
  | .inList operand values negated => by
    rw [Expr.leaves]
    split
    · exact List.forall_mem_nil _
    · rw [List.forall_mem_append]
      exact ⟨Expr.leaves_of_union h operand, Expr.listLeaves_of_union h values⟩
  | .inNested operand source negated => by
    rw [Expr.leaves, List.forall_mem_append]
    exact ⟨Expr.leaves_of_union h operand, Nested.leaves_of_union h source⟩
  | .isNull operand negated => by
    rw [Expr.leaves]
    exact Expr.leaves_of_union h operand
  | .existsIn source negated => by
    rw [Expr.leaves]
    exact Nested.leaves_of_union h source
  | .like operand pattern caseSensitive negated => by
    rw [Expr.leaves, List.forall_mem_append]
    exact ⟨Expr.leaves_of_union h operand, Expr.leaves_of_union h pattern⟩
  | .condition connective terms => by
    rw [Expr.leaves]
    exact Expr.listLeaves_of_union h terms
  | .parenthesized inner => by
    rw [Expr.leaves]
    exact Expr.leaves_of_union h inner

theorem Expr.listLeaves_of_union {context : Context} (h : context.InUnion) : ∀ exprs : List Expr,
    ∀ leaf ∈ Expr.listLeaves context exprs, leaf.HasPurpose .union
  | [] => by
    rw [Expr.listLeaves]
    exact List.forall_mem_nil _
  | expr :: exprs => by
    rw [Expr.listLeaves, List.forall_mem_append]
    exact ⟨Expr.leaves_of_union h expr, Expr.listLeaves_of_union h exprs⟩

theorem Expr.clauseLeaves_of_union {context : Context} (h : context.InUnion) :
    ∀ expr : Option Expr, ∀ leaf ∈ Expr.clauseLeaves context expr, leaf.HasPurpose .union
  | none => by
    rw [Expr.clauseLeaves]
    exact List.forall_mem_nil _
  | some expr => by
    rw [Expr.clauseLeaves]
    exact Expr.leaves_of_union h expr

theorem Expr.listClauseLeaves_of_union {context : Context} (h : context.InUnion) :
    ∀ exprs : Option (List Expr),
    ∀ leaf ∈ Expr.listClauseLeaves context exprs, leaf.HasPurpose .union
  | none => by
    rw [Expr.listClauseLeaves]
    exact List.forall_mem_nil _
  | some exprs => by
    rw [Expr.listClauseLeaves]
    exact Expr.listLeaves_of_union h exprs

theorem Nested.leaves_of_union {context : Context} (h : context.InUnion) : ∀ source : Nested,
    ∀ leaf ∈ source.leaves context, leaf.HasPurpose .union
  | .plan plan => by
    rw [Nested.leaves]
    exact List.forall_mem_singleton.2 (h.purpose _)
  | .raw raw => by
    rw [Nested.leaves]
    exact List.forall_mem_singleton.2 (h.purpose _)
  | .query query => by
    rw [Nested.leaves]
    exact Query.leaves_of_union h query

theorem SelectItem.leaves_of_union {context : Context} (h : context.InUnion) : ∀ item : SelectItem,
    ∀ leaf ∈ item.leaves context, leaf.HasPurpose .union
  | .wildcard qualifier => by
    rw [SelectItem.leaves]
    exact List.forall_mem_nil _
  | .column column => by
    rw [SelectItem.leaves]
    exact List.forall_mem_nil _
  | .expr expr label => by
    rw [SelectItem.leaves]
    exact Expr.leaves_of_union h expr

theorem SelectItem.listLeaves_of_union {context : Context} (h : context.InUnion) :
    ∀ items : List SelectItem,
    ∀ leaf ∈ SelectItem.listLeaves context items, leaf.HasPurpose .union
  | [] => by
    rw [SelectItem.listLeaves]
    exact List.forall_mem_nil _
  | item :: items => by
    rw [SelectItem.listLeaves, List.forall_mem_append]
    exact ⟨SelectItem.leaves_of_union h item, SelectItem.listLeaves_of_union h items⟩

theorem TableExpr.leaves_of_union {context : Context} (h : context.InUnion) {hint : List Leaf}
    (hhint : ∀ leaf ∈ hint, leaf.HasPurpose .union) : ∀ table : TableExpr,
    ∀ leaf ∈ table.leaves context hint, leaf.HasPurpose .union
  | .table table => by
    rw [TableExpr.leaves]
    exact hhint
  | .derived source label => by
    rw [TableExpr.leaves]
    exact Nested.leaves_of_union h source
  | .joined first joins => by
    rw [TableExpr.leaves, List.forall_mem_append]
    exact ⟨TableExpr.leaves_of_union h hhint first, JoinExpr.listLeaves_of_union h.joining joins⟩
  | .raw raw => by
    rw [TableExpr.leaves]
    exact List.forall_mem_singleton.2 (h.purpose _)

theorem TableExpr.clauseLeaves_of_union {context : Context} (h : context.InUnion) {hint : List Leaf}
    (hhint : ∀ leaf ∈ hint, leaf.HasPurpose .union) : ∀ table : Option TableExpr,
    ∀ leaf ∈ TableExpr.clauseLeaves context hint table, leaf.HasPurpose .union
  | none => by
    rw [TableExpr.clauseLeaves]
    exact List.forall_mem_nil _
  | some table => by
    rw [TableExpr.clauseLeaves]
    exact TableExpr.leaves_of_union h hhint table

theorem JoinExpr.leaves_of_union {context : Context} (h : context.InUnion) : ∀ join : JoinExpr,
    ∀ leaf ∈ join.leaves context, leaf.HasPurpose .union
  | ⟨kind, target, on⟩ => by
    rw [JoinExpr.leaves, List.forall_mem_append]
    exact ⟨TableExpr.leaves_of_union h (List.forall_mem_nil _) target,
      Expr.clauseLeaves_of_union h on⟩

theorem JoinExpr.listLeaves_of_union {context : Context} (h : context.InUnion) :
    ∀ joins : List JoinExpr,
    ∀ leaf ∈ JoinExpr.listLeaves context joins, leaf.HasPurpose .union
  | [] => by
    rw [JoinExpr.listLeaves]
    exact List.forall_mem_nil _
  | join :: joins => by
    rw [JoinExpr.listLeaves, List.forall_mem_append]
    exact ⟨JoinExpr.leaves_of_union h join, JoinExpr.listLeaves_of_union h joins⟩

theorem SortKey.leaves_of_union {context : Context} (h : context.InUnion) : ∀ key : SortKey,
    ∀ leaf ∈ key.leaves context, leaf.HasPurpose .union
  | ⟨expr, direction⟩ => by
    rw [SortKey.leaves]
    exact Expr.leaves_of_union h expr

theorem SortKey.listLeaves_of_union {context : Context} (h : context.InUnion) :
    ∀ keys : List SortKey, ∀ leaf ∈ SortKey.listLeaves context keys, leaf.HasPurpose .union
  | [] => by
    rw [SortKey.listLeaves]
    exact List.forall_mem_nil _
  | key :: keys => by
    rw [SortKey.listLeaves, List.forall_mem_append]
    exact ⟨SortKey.leaves_of_union h key, SortKey.listLeaves_of_union h keys⟩

theorem SortKey.clauseLeaves_of_union {context : Context} (h : context.InUnion) :
    ∀ keys : Option (List SortKey),
    ∀ leaf ∈ SortKey.clauseLeaves context keys, leaf.HasPurpose .union
  | none => by
    rw [SortKey.clauseLeaves]
    exact List.forall_mem_nil _
  | some keys => by
    rw [SortKey.clauseLeaves]
    exact SortKey.listLeaves_of_union h keys

theorem Select.leaves_of_union {context : Context} (h : context.InUnion) : ∀ select : Select,
    ∀ leaf ∈ select.leaves context, leaf.HasPurpose .union
  | { distinct, items, source, filter, groupBy, having, orderBy, page, lock } => by
    have hlock := Lock.leaves_hasPurpose .union lock
    simp only [Select.leaves, List.forall_mem_append]
    refine ⟨⟨⟨⟨⟨⟨?_, ?_⟩, ?_⟩, ?_⟩, ?_⟩, ?_⟩, hlock⟩
    · exact SelectItem.listLeaves_of_union (h.within _) items
    · exact TableExpr.clauseLeaves_of_union (h.within _) hlock source
    · exact Expr.clauseLeaves_of_union (h.within _) filter
    · exact Expr.listClauseLeaves_of_union (h.within _) groupBy
    · exact Expr.clauseLeaves_of_union (h.within _) having
    · exact SortKey.clauseLeaves_of_union (h.within _) orderBy

theorem Query.leaves_of_union {context : Context} (h : context.InUnion) : ∀ query : Query,
    ∀ leaf ∈ query.leaves context, leaf.HasPurpose .union
  | .select select => by
    rw [Query.leaves]
    exact Select.leaves_of_union h select
  | .union left right all orderBy page => by
    rw [Query.leaves, List.forall_mem_append, List.forall_mem_append]
    exact ⟨⟨Query.leaves_of_union h left, Query.leaves_of_union h.overriding right⟩,
      SortKey.clauseLeaves_of_union (h.within _) orderBy⟩

end

/-! ## Bindings in a union -/

section Bindings

variable (r : Renderer) {context : Context}

theorem Expr.render_of_union (h : context.InUnion) (expr : Expr) :
    Ensures (expr.render r context) (Sql.HasPurpose .union) :=
  (Expr.render_written (bindingsOfLeaves r) context expr).mono fun _ hsql =>
    hsql.hasPurpose (Expr.leaves_of_union h expr)

/-- A lock hint is text without bindings. -/
theorem TableExpr.render_of_union (h : context.InUnion) (hint : Option String) (table : TableExpr) :
    Ensures (table.render r context hint) (Sql.HasPurpose .union) := by
  have hhint : Written (bindingsOfLeaves r) .any .any [] (Dialect.lockSuffix hint) :=
    ⟨rfl, List.forall_mem_nil _⟩
  exact (TableExpr.render_written (bindingsOfLeaves r) context hhint table).mono fun _ hsql =>
    hsql.hasPurpose (TableExpr.leaves_of_union h (List.forall_mem_nil _) table)

theorem Query.render_of_union (h : context.InUnion) (query : Query) :
    Ensures (query.render r context) (Sql.HasPurpose .union) :=
  (Query.render_written (bindingsOfLeaves r) context query).mono fun _ hsql =>
    hsql.hasPurpose (Query.leaves_of_union h query)

end Bindings

/-! ## Statements -/

theorem Sql.Same.retag_self (sql : Sql) (purpose : Purpose) : Sql.Same (sql.retag purpose) sql where
  text_eq := rfl
  values_eq := Bindings.values_retag purpose sql.bindings

/-- The visit gives the same text whatever was visited before, and appends the same bindings. -/
def Visit.Appends (visit : Visit String) : Prop := visit.Writes visit.sql

theorem Visit.Writes.appends {visit : Visit String} {x : Except Error Sql} (h : visit.Writes x) :
    visit.Appends := by
  rw [Visit.Appends, h.sql_eq]
  exact h

namespace Compiler

variable (c : Compiler) {place place' : Place}

/-- In a place, every query inside a tree has the text and the values that it has on its own: the one
whose rows are asked for, the branches of a union, the one that selects identifiers of rows, and the
one that an aggregate over a union selects from. So has a plan, which is compiled apart. -/
structure InPlace (place : Place) : Prop where
  bare (query : Query) :
    Alike Sql.Same (query.visit c.renderer place).sql (c.render (.query query))
  existsIn (query : Query) (negated : Bool) :
    Alike Sql.Same ((Expr.existsIn (.query query) negated).visit c.renderer place).sql do
      return notText negated ++ "EXISTS " ++ (← c.render (.query query)).parens
  union (left right : Query) (all : Bool) (orderBy : Option (List SortKey)) (page : Page) :
    Alike Sql.Same ((Query.union left right all orderBy page).visit c.renderer place).sql do
      let first ← c.render (.query left)
      let second ← c.render (.query right)
      let order ← (SortKey.visitClause c.renderer {} orderBy).sql
      return (if left.isUnion then first else c.dialect.wrapBranch first) ++ unionText all ++
        c.dialect.wrapBranch second ++ order ++ c.dialect.unionPageText orderBy.isSome page
  inNested (rowId : Path) (query : Query) (negated : Bool) :
    Alike Sql.Same ((Expr.inNested (.path rowId) (.query query) negated).visit c.renderer place).sql do
      return c.dialect.quotePath rowId ++ " " ++ notText negated ++ "IN " ++
        (← c.render (.query query)).parens
  derived (query : Query) (label : Name) :
    Alike Sql.Same ((TableExpr.derived (.query query) label).visit c.renderer place none).sql do
      return (← c.render (.query query)).parens ++ " AS " ++ c.dialect.quote label
  plan (plan : Plan) :
    Alike Sql.Same ((Nested.plan plan).visit c.renderer place).sql (c.select plan)

theorem inPlace (hplace : place.assigning = false) : c.InPlace place where
  bare query := by
    rw [(Query.visit_writes c.renderer hplace query).sql_eq, c.render_eq]
    exact Query.render_alike c.renderer place.context {} query
  existsIn query negated := by
    rw [(Expr.visit_writes c.renderer hplace _).sql_eq, c.render_eq, Expr.render, Nested.render]
    exact (Query.render_alike c.renderer place.context {} query).bind
      fun _ _ h => .ok (.ahead _ h.parens)
  union left right all orderBy page := by
    have hroot : ({} : Place).assigning = false := rfl
    rw [(Query.visit_writes c.renderer hplace _).sql_eq, c.render_eq, c.render_eq,
      (SortKey.visitClause_writes c.renderer hroot orderBy).sql_eq, Query.render]
    refine (Query.render_alike c.renderer place.context {} left).bind fun first first' hfirst => ?_
    refine (Query.render_alike c.renderer _ {} right).bind fun _ _ hsecond => ?_
    refine (SortKey.renderClause_alike c.renderer _ {} orderBy).bind fun _ _ horder => .ok ?_
    refine (((Sql.Same.behind ?_ _).append (hsecond.wrapBranch c.dialect)).append horder).behind _
    split
    · exact hfirst
    · exact hfirst.wrapBranch c.dialect
  inNested rowId query negated := by
    rw [(Expr.visit_writes c.renderer hplace _).sql_eq, c.render_eq, Expr.render, Expr.render,
      Nested.render, ok_bind]
    exact (Query.render_alike c.renderer place.context {} query).bind
      fun _ _ h => .ok (.ahead _ h.parens)
  derived query label := by
    rw [(TableExpr.visit_writes c.renderer hplace none _).sql_eq, c.render_eq, TableExpr.render,
      Nested.render]
    exact (Query.render_alike c.renderer place.context {} query).bind
      fun _ _ h => .ok ((h.parens.behind _).behind _)
  plan plan := by
    have hplan : c.renderer.nested plan = c.select plan := c.compileNested_eq_select plan
    rw [(Nested.visit_writes c.renderer hplace _).sql_eq, Nested.render, hplan]
    cases c.select plan with
    | error e => exact .error e
    | ok sql => exact .ok (.retag_self sql _)

/-- Unless it is the left-hand side of an assignment, the place of a tree changes the purposes of its
bindings, and neither its text nor its values nor its error. In a branch of a union, outside of an
UPDATE, all of its bindings have the purpose of the union. In any such place, a query has the text and
the values that it has on its own. -/
theorem place_changes_purposes_only (hplace : place.assigning = false)
    (hplace' : place'.assigning = false) :
    (∀ expr : Expr, (expr.visit c.renderer place).Appends ∧
      Alike Sql.Same (expr.visit c.renderer place).sql (expr.visit c.renderer place').sql) ∧
    (∀ (table : TableExpr) (hint : Option String), (table.visit c.renderer place hint).Appends ∧
      Alike Sql.Same (table.visit c.renderer place hint).sql
        (table.visit c.renderer place' hint).sql) ∧
    (∀ query : Query, (query.visit c.renderer place).Appends ∧
      Alike Sql.Same (query.visit c.renderer place).sql (query.visit c.renderer place').sql) ∧
    (place.override = some .union → place.update = none →
      (∀ expr : Expr, Ensures (expr.visit c.renderer place).sql (Sql.HasPurpose .union)) ∧
      (∀ (table : TableExpr) (hint : Option String),
        Ensures (table.visit c.renderer place hint).sql (Sql.HasPurpose .union)) ∧
      ∀ query : Query, Ensures (query.visit c.renderer place).sql (Sql.HasPurpose .union)) ∧
    c.InPlace place := by
  have hexpr := fun expr => Expr.visit_writes c.renderer hplace expr
  have htable := fun hint table => TableExpr.visit_writes c.renderer hplace hint table
  have hquery := fun query => Query.visit_writes c.renderer hplace query
  refine ⟨fun expr => ⟨(hexpr expr).appends, ?_⟩, fun table hint => ⟨(htable hint table).appends, ?_⟩,
    fun query => ⟨(hquery query).appends, ?_⟩, fun hoverride hupdate => ?_, c.inPlace hplace⟩
  · rw [(hexpr expr).sql_eq, (Expr.visit_writes c.renderer hplace' expr).sql_eq]
    exact Expr.render_alike c.renderer place.context place'.context expr
  · rw [(htable hint table).sql_eq, (TableExpr.visit_writes c.renderer hplace' hint table).sql_eq]
    exact TableExpr.render_alike c.renderer place.context place'.context hint table
  · rw [(hquery query).sql_eq, (Query.visit_writes c.renderer hplace' query).sql_eq]
    exact Query.render_alike c.renderer place.context place'.context query
  · have hunion : place.context.InUnion := ⟨hoverride, by rw [Place.context, hupdate]; rfl⟩
    refine ⟨fun expr => ?_, fun table hint => ?_, fun query => ?_⟩
    · rw [(hexpr expr).sql_eq]
      exact Expr.render_of_union c.renderer hunion expr
    · rw [(htable hint table).sql_eq]
      exact TableExpr.render_of_union c.renderer hunion hint table
    · rw [(hquery query).sql_eq]
      exact Query.render_of_union c.renderer hunion query

/-- A join with a nested plan, in a branch of a union and alone. -/
theorem place_changes_purposes_only_branch :
    let c : Compiler := ⟨.postgres, ""⟩
    let place : Place := ({} : Place).overriding .union
    let inner : Plan := {
      source := some (.table "posts")
      filters := [⟨.and, .compare "posts.user_id" .gt (.value (.int 3))⟩] }
    let query : Query := .select {
      items := [.wildcard none]
      source := some (.joined (.table ⟨["users"], none⟩)
        [⟨.inner, .derived (.plan inner) "p",
          some (.compare (.path ["users", "id"]) .eq (.bound (.int 7) .join))⟩]) }
    place.assigning = false ∧ place.override = some .union ∧ place.update = none ∧
      (query.visit c.renderer place).sql.toBool ∧
      Ensures (query.visit c.renderer place).sql fun sql =>
        sql.HasPurpose .union ∧ ∃ own, c.render (.query query) = .ok own ∧ sql.Same own := by
  intro c place inner query
  refine ⟨rfl, rfl, rfl, by decide +kernel, fun sql hsql => ?_⟩
  have hassigning : place.assigning = false := rfl
  have hroot : ({} : Place).assigning = false := rfl
  obtain ⟨-, -, -, hunion, hplace⟩ := c.place_changes_purposes_only hassigning hroot
  refine ⟨(hunion rfl rfl).2.2 query sql hsql, ?_⟩
  have hbare := hplace.bare query
  rw [hsql] at hbare
  generalize c.render (.query query) = own at hbare ⊢
  cases hbare with
  | ok hsame => exact ⟨_, rfl, hsame⟩

/-- The left-hand side of an assignment is the place that does change a text. -/
example :
    let column : Expr := .path ["users", "id"]
    let place : Place := ({} : Place).updating ⟨false, "users"⟩
    (column.visit (renderer ⟨.postgres, ""⟩) place).sql = .ok (.ofText "\"users\".\"id\"") ∧
      (column.visit (renderer ⟨.postgres, ""⟩) place.assigned).sql = .ok (.ofText "\"id\"") := by
  decide +kernel

end Compiler

end QueryCompiler
