import QueryCompiler.Proofs.Clauses
import QueryCompiler.Proofs.Places
import QueryCompiler.Proofs.Values

/-! # Purposes in an UPDATE

The clauses that pick rows are written in an UPDATE as in a SELECT, but for one thing: the bindings of
joins have a purpose of their own (`Compiler.clauses_updating`).
-/

namespace QueryCompiler
set_option autoImplicit false

/-- The purpose in an UPDATE of what has this purpose in a query. -/
def Purpose.inUpdate : Purpose → Purpose
  | .join => .updateJoin
  | purpose => purpose

def Binding.inUpdate (binding : Binding) : Binding := ⟨binding.value, binding.purpose.inUpdate⟩

/-- The same text and values, with the purposes that they have in an UPDATE. -/
def Sql.inUpdate (sql : Sql) : Sql := ⟨sql.text, sql.bindings.map Binding.inUpdate⟩

def Leaf.inUpdate : Leaf → Leaf
  | .bound v purpose => .bound v purpose.inUpdate
  | .raw sql purpose => .raw sql purpose.inUpdate
  | .plan inner purpose => .plan inner purpose.inUpdate
  | .lock kind => .lock kind

theorem Sql.inUpdate_append (a b : Sql) : (a ++ b).inUpdate = a.inUpdate ++ b.inUpdate := by
  show Sql.mk _ _ = Sql.mk _ _
  rw [bindings_append, List.map_append]
  rfl

theorem Sql.inUpdate_ofText (text : String) : (ofText text).inUpdate = ofText text := rfl

/-! ## Leaves -/

theorem Leaf.bindings_inUpdate (nested : Plan → Except Error Sql) (leaf : Leaf) :
    leaf.inUpdate.bindings nested = (leaf.bindings nested).map Binding.inUpdate := by
  cases leaf with
  | bound value purpose => rfl
  | raw sql purpose =>
    simp only [Leaf.inUpdate, Leaf.bindings, List.map_map]
    rfl
  | plan plan purpose =>
    simp only [Leaf.inUpdate, Leaf.bindings]
    cases nested plan with
    | error e => rfl
    | ok sql =>
      simp only [Bindings.retag, List.map_map]
      rfl
  | lock lock => rfl

theorem Operand.leaves_inUpdate (purpose : Purpose) (operand : Operand) :
    operand.leaves purpose.inUpdate = (operand.leaves purpose).map Leaf.inUpdate := by
  cases operand <;> rfl

mutual

theorem Predicate.leaves_inUpdate (purpose : Purpose) : ∀ predicate : Predicate,
    predicate.leaves purpose.inUpdate = (predicate.leaves purpose).map Leaf.inUpdate
  | .compare _ comparison operand => by
    rw [Predicate.leaves, Predicate.leaves, Operand.leaves_inUpdate]
    split <;> rfl
  | .isIn _ values _ => by
    rw [Predicate.leaves, Predicate.leaves, List.map_map]
    rfl
  | .between _ low high _ => by
    rw [Predicate.leaves, Predicate.leaves, List.map_append, Operand.leaves_inUpdate,
      Operand.leaves_inUpdate]
  | .group filters => by
    rw [Predicate.leaves, Predicate.leaves]
    exact Filter.listLeaves_inUpdate purpose filters
  | .inSubquery .. | .isNull .. | .existsIn .. | .raw _ | .datePart .. | .jsonLength ..
  | .like .. => by
    rw [Predicate.leaves, Predicate.leaves]
    rfl

theorem Filter.listLeaves_inUpdate (purpose : Purpose) : ∀ filters : List Filter,
    Filter.listLeaves purpose.inUpdate filters =
      (Filter.listLeaves purpose filters).map Leaf.inUpdate
  | [] => by
    rw [Filter.listLeaves, Filter.listLeaves]
    rfl
  | ⟨_, predicate⟩ :: filters => by
    rw [Filter.listLeaves, Filter.listLeaves, List.map_append,
      Predicate.leaves_inUpdate purpose predicate, Filter.listLeaves_inUpdate purpose filters]

end

theorem Join.leaves_inUpdate (purpose : Purpose) (join : Join) :
    join.leaves purpose.inUpdate = (join.leaves purpose).map Leaf.inUpdate := by
  have htarget : join.target.leaves purpose.inUpdate =
      (join.target.leaves purpose).map Leaf.inUpdate := by
    cases join.target <;> rfl
  rw [Join.leaves, Join.leaves, List.map_append, htarget, Filter.listLeaves_inUpdate]

theorem OrderTerm.leaves_inUpdate (purpose : Purpose) (term : OrderTerm) :
    term.leaves purpose.inUpdate = (term.leaves purpose).map Leaf.inUpdate := by
  cases term <;> rfl

/-! ## Stretches -/

section

variable {r : Renderer} {first last : Edge} {leaves : List Leaf}

/-- What is written alike, with leaves that differ as those of an UPDATE do, differs as an UPDATE
does. -/
theorem Written.inUpdate {a b : Sql} (ha : Written (bindingsOfLeaves r) first last leaves a)
    (hb : Written (bindingsOfLeaves r) first last (leaves.map Leaf.inUpdate) b)
    (hsame : Sql.Same a b) : b = a.inUpdate := by
  have hbindings : b.bindings = a.bindings.map Binding.inUpdate := by
    rw [hb.1, ha.1, List.map_flatMap, List.flatMap_map]
    exact congrArg leaves.flatMap (funext (Leaf.bindings_inUpdate r.nested))
  show b = Sql.mk _ _
  rw [hsame.text_eq, ← hbindings]

/-- What has no leaf of a join is the same in an UPDATE. -/
theorem Written.inUpdate_eq {a : Sql} (ha : Written (bindingsOfLeaves r) first last leaves a)
    (hleaves : leaves.map Leaf.inUpdate = leaves) : a.inUpdate = a :=
  (ha.inUpdate (hleaves.symm ▸ ha) (.refl a)).symm

theorem Alike.inUpdate {x y : Except Error Sql} {leaves' : List Leaf} (h : Alike Sql.Same x y)
    (hx : Ensures x (Written (bindingsOfLeaves r) first last leaves))
    (hy : Ensures y (Written (bindingsOfLeaves r) first last leaves'))
    (hleaves : leaves' = leaves.map Leaf.inUpdate) : y = do return (← x).inUpdate := by
  subst hleaves
  cases h with
  | error e => rfl
  | ok hsame => exact congrArg Except.ok ((hx _ rfl).inUpdate (hy _ rfl) hsame)

variable {context context' : Context}

theorem TableExpr.render_inUpdate {table : TableExpr}
    (h : table.leaves context' [] = (table.leaves context []).map Leaf.inUpdate) :
    table.render r context' none = do return (← table.render r context none).inUpdate :=
  (TableExpr.render_alike r context context' none table).inUpdate
    (TableExpr.render_written (bindingsOfLeaves r) context ((bindingsOfLeaves r).empty .any) table)
    (TableExpr.render_written (bindingsOfLeaves r) context' ((bindingsOfLeaves r).empty .any) table) h

theorem Expr.renderClause_inUpdate {keyword : String} (hkeyword : isSeparator keyword.toList = true)
    {expr : Option Expr}
    (h : Expr.clauseLeaves context' expr = (Expr.clauseLeaves context expr).map Leaf.inUpdate) :
    Expr.renderClause r context' keyword expr = do
      return (← Expr.renderClause r context keyword expr).inUpdate :=
  (Expr.renderClause_alike r context context' keyword expr).inUpdate
    (Expr.renderClause_written (bindingsOfLeaves r) context hkeyword expr)
    (Expr.renderClause_written (bindingsOfLeaves r) context' hkeyword expr) h

theorem SortKey.renderClause_inUpdate {keys : Option (List SortKey)}
    (h : SortKey.clauseLeaves context' keys =
      (SortKey.clauseLeaves context keys).map Leaf.inUpdate) :
    SortKey.renderClause r context' keys = do
      return (← SortKey.renderClause r context keys).inUpdate :=
  (SortKey.renderClause_alike r context context' keys).inUpdate
    (SortKey.renderClause_written (bindingsOfLeaves r) context keys)
    (SortKey.renderClause_written (bindingsOfLeaves r) context' keys) h

end

/-! ## Clauses -/

def Clauses.inUpdate (clauses : Clauses) : Clauses :=
  ⟨clauses.source.inUpdate, clauses.filter.inUpdate, clauses.order.inUpdate⟩

theorem Clauses.query_inUpdate (dialect : Dialect) (items : String) (ordered : Bool) (page : Page)
    (clauses : Clauses) :
    clauses.inUpdate.query dialect items ordered page =
      (clauses.query dialect items ordered page).inUpdate := by
  simp only [Clauses.query, Sql.inUpdate_append, Sql.inUpdate_ofText]
  rfl

variable (c : Compiler) {plan : Plan} {table : TableName}

theorem TableExpr.withJoins_leaves_of_table {tablePrefix : String} {joins : List JoinExpr}
    (hjoins : plan.joins.mapM (JoinExpr.ofJoin tablePrefix) = .ok joins) (context : Context) :
    ((TableExpr.table table).withJoins joins).leaves context [] =
      plan.joins.flatMap (Join.leaves context.joining.clausePurpose) := by
  have hlist := Ensures.mapM
    (fun join _ => JoinExpr.ofJoin_leaves tablePrefix context join) joins hjoins
  rw [TableExpr.withJoins_leaves, TableExpr.leaves, forall₂_flatMap hlist, List.nil_append]

theorem Plan.joinLeaves_inUpdate (plan : Plan) :
    plan.joins.flatMap (Join.leaves .updateJoin) =
      (plan.joins.flatMap (Join.leaves .join)).map Leaf.inUpdate := by
  rw [List.map_flatMap]
  exact congrArg plan.joins.flatMap (funext (Join.leaves_inUpdate .join))

theorem Plan.orderLeaves_inUpdate (plan : Plan) :
    plan.orders.flatMap (OrderTerm.leaves .order) =
      (plan.orders.flatMap (OrderTerm.leaves .order)).map Leaf.inUpdate := by
  rw [List.map_flatMap]
  exact congrArg plan.orders.flatMap (funext (OrderTerm.leaves_inUpdate .order))

/-- An UPDATE has the clauses of a query, with the purposes of an UPDATE. -/
theorem Compiler.clauses_updating :
    c.clauses { updating := true } plan table = do
      return (← c.clauses {} plan table).inUpdate := by
  unfold Compiler.clauses
  simp only [bind_assoc, pure_bind]
  refine bind_congr_ok fun joins hjoins => bind_congr_ok fun filter hfilter => ?_
  refine bind_congr_ok fun orderBy horderBy => ?_
  have hsource : ((TableExpr.table table).withJoins joins).render c.renderer
        (({ updating := true } : Context).within .from) none = do
      return (← ((TableExpr.table table).withJoins joins).render c.renderer
        (({} : Context).within .from) none).inUpdate := by
    refine TableExpr.render_inUpdate ?_
    rw [TableExpr.withJoins_leaves_of_table hjoins, TableExpr.withJoins_leaves_of_table hjoins]
    exact plan.joinLeaves_inUpdate
  have hwhere : Expr.renderClause c.renderer (({ updating := true } : Context).within .where)
        " WHERE " filter = do
      return (← Expr.renderClause c.renderer (({} : Context).within .where) " WHERE "
        filter).inUpdate := by
    have hleaves := fun context : Context => fun h : context.clause = .where =>
      Expr.ofFilters_leaves c.tablePrefix context plan.filters filter (h ▸ hfilter)
    refine Expr.renderClause_inUpdate (isSeparator_literal (by decide)) ?_
    rw [hleaves _ rfl, hleaves _ rfl]
    exact Filter.listLeaves_inUpdate .where plan.filters
  have horder : SortKey.renderClause c.renderer (({ updating := true } : Context).within .order)
        orderBy = do
      return (← SortKey.renderClause c.renderer (({} : Context).within .order)
        orderBy).inUpdate := by
    have hleaves := fun context =>
      SortKey.ofTerms_leaves c.tablePrefix context plan.orders orderBy horderBy
    refine SortKey.renderClause_inUpdate ?_
    rw [hleaves, hleaves]
    exact plan.orderLeaves_inUpdate
  rw [hsource, hwhere, horder]
  simp only [bind_assoc, pure_bind]
  rfl

/-- Only joins have purposes of their own. -/
theorem Compiler.clauses_inUpdate_eq :
    Ensures (c.clauses {} plan table) fun clauses =>
      clauses.filter.inUpdate = clauses.filter ∧ clauses.order.inUpdate = clauses.order := by
  have hkeyword : isSeparator " WHERE ".toList = true := isSeparator_literal (by decide)
  refine .bind_any fun joins _ => ?_
  refine (Expr.ofFilters_leaves c.tablePrefix (({} : Context).within .where) plan.filters).bind
    fun filter hfilter => ?_
  refine (SortKey.ofTerms_leaves c.tablePrefix (({} : Context).within .order) plan.orders).bind
    fun orderBy horderBy => .bind_any fun source _ => ?_
  refine (Expr.renderClause_written (bindingsOfLeaves c.renderer) _ hkeyword filter).bind
    fun where_ hwhere => ?_
  refine (SortKey.renderClause_written (bindingsOfLeaves c.renderer) _ orderBy).bind
    fun order horder => .ok ⟨hwhere.inUpdate_eq ?_, horder.inUpdate_eq ?_⟩
  · rw [hfilter]
    exact (Filter.listLeaves_inUpdate .where plan.filters).symm
  · rw [horderBy]
    exact plan.orderLeaves_inUpdate.symm

end QueryCompiler
