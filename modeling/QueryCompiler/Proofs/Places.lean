import QueryCompiler.Proofs.Judgement
import QueryCompiler.Sql.Statement

/-! # Places do not change what is written

Where in a statement a tree stands decides the purposes of its bindings and nothing else: under any
two contexts it is written with the same text and the same values, or fails alike
(`Expr.render_alike`, `TableExpr.render_alike`, `Query.render_alike`).
-/

namespace QueryCompiler
set_option autoImplicit false

/-! ## Stretches that differ in purposes -/

/-- The same text and the same values. -/
structure Sql.Same (a b : Sql) : Prop where
  text_eq : a.text = b.text
  values_eq : a.values = b.values

namespace Sql.Same

variable {a b a' b' : Sql}

theorem refl (sql : Sql) : Same sql sql := ⟨rfl, rfl⟩

theorem append (h : Same a b) (h' : Same a' b') : Same (a ++ a') (b ++ b') where
  text_eq := by rw [text_append, text_append, h.text_eq, h'.text_eq]
  values_eq := by
    have hvalues := h.values_eq
    have hvalues' := h'.values_eq
    simp only [Sql.values, bindings_append, Bindings.values_append] at *
    rw [hvalues, hvalues']

/-- The same text behind both. -/
theorem behind (h : Same a b) (sql : Sql) : Same (a ++ sql) (b ++ sql) := h.append (refl sql)

/-- The same text in front of both. -/
theorem ahead (sql : Sql) (h : Same a b) : Same (sql ++ a) (sql ++ b) := (refl sql).append h

theorem parens (h : Same a b) : Same a.parens b.parens := (ahead _ h).behind _

theorem parensIf (needed : Bool) (h : Same a b) : Same (a.parensIf needed) (b.parensIf needed) := by
  cases needed with
  | true => exact h.parens
  | false => exact h

theorem mapText (f : String → String) (h : Same a b) : Same (a.mapText f) (b.mapText f) :=
  ⟨congrArg f h.text_eq, h.values_eq⟩

theorem ofRaw (raw : Raw) (purpose purpose' : Purpose) :
    Same (.ofRaw raw purpose) (.ofRaw raw purpose') where
  text_eq := rfl
  values_eq := by
    simp only [Sql.values, Sql.ofRaw, Bindings.values, List.map_map]
    rfl

theorem retag (sql : Sql) (purpose purpose' : Purpose) :
    Same (sql.retag purpose) (sql.retag purpose') where
  text_eq := rfl
  values_eq := by
    simp only [Sql.values, Sql.bindings_retag, Bindings.values_retag]

theorem join (separator : String) {as bs : List Sql} (h : List.Forall₂ Same as bs) :
    Same (Sql.join separator as) (Sql.join separator bs) := by
  induction h with
  | nil => exact refl _
  | cons hhead htail ih =>
    cases htail with
    | nil => exact hhead
    | cons => exact (hhead.behind _).append ih

theorem wrapBranch (dialect : Dialect) (h : Same a b) :
    Same (dialect.wrapBranch a) (dialect.wrapBranch b) := by
  unfold Dialect.wrapBranch
  split
  · exact ((ahead _ h.parens).behind _).behind _
  · exact h.parens

end Sql.Same

/-! ## Computations that end alike -/

/-- Both fail in the same way, or both have values, and those are related. -/
inductive Alike {ε α β : Type} (R : α → β → Prop) : Except ε α → Except ε β → Prop where
  | ok {a : α} {b : β} : R a b → Alike R (.ok a) (.ok b)
  | error (e : ε) : Alike R (.error e) (.error e)

namespace Alike

variable {ε α β γ δ : Type} {R : α → β → Prop} {S : γ → δ → Prop} {x : Except ε α} {y : Except ε β}

theorem bind {f : α → Except ε γ} {g : β → Except ε δ} (h : Alike R x y)
    (hfg : ∀ a b, R a b → Alike S (f a) (g b)) : Alike S (x >>= f) (y >>= g) := by
  cases h with
  | ok hab => exact hfg _ _ hab
  | error e => exact .error e

/-- A step that both take in the same way. -/
theorem bind_same {x : Except ε α} {f : α → Except ε γ} {g : α → Except ε δ}
    (hfg : ∀ a, Alike S (f a) (g a)) : Alike S (x >>= f) (x >>= g) := by
  cases x with
  | ok a => exact hfg a
  | error e => exact .error e

theorem ite {c : Prop} [Decidable c] {x' : Except ε α} {y' : Except ε β} (hx : c → Alike R x y)
    (hy : ¬c → Alike R x' y') : Alike R (if c then x else x') (if c then y else y') := by
  by_cases h : c
  · rw [if_pos h, if_pos h]; exact hx h
  · rw [if_neg h, if_neg h]; exact hy h

end Alike

/-! ## Trees -/

variable (r : Renderer)

mutual

theorem Expr.render_alike (context context' : Context) : ∀ expr : Expr,
    Alike Sql.Same (expr.render r context) (expr.render r context')
  | .path path => by
    rw [Expr.render, Expr.render]
    exact .ok (.refl _)
  | .json column steps => by
    rw [Expr.render, Expr.render]
    exact .ok (.refl _)
  | .bound value purpose => by
    rw [Expr.render, Expr.render]
    exact .ok ⟨rfl, rfl⟩
  | .raw raw => by
    rw [Expr.render, Expr.render]
    exact .ok (.ofRaw raw _ _)
  | .nested nested => by
    rw [Expr.render, Expr.render]
    exact (Nested.render_alike context context' nested).bind fun _ _ h => .ok h.parens
  | .call (.datePart part) [] => by
    rw [Expr.render, Expr.render]
    · exact .error _
    all_goals exact fun argument h => nomatch h
  | .call (.datePart part) [argument] => by
    rw [Expr.render, Expr.render]
    exact (Expr.render_alike context context' argument).bind fun _ _ h => .ok (h.mapText _)
  | .call (.datePart part) (first :: second :: rest) => by
    rw [Expr.render, Expr.render]
    · exact .error _
    all_goals exact fun argument h => nomatch h
  | .call .jsonLength arguments => by
    rw [Expr.render, Expr.render]
    exact .bind_same fun text => .ok (.refl _)
  | .aggregate function distinct arguments => by
    rw [Expr.render, Expr.render]
    refine (Expr.renderList_alike context context' arguments).bind fun sqls sqls' h => .ok ?_
    refine .ahead _ (.parens (.ahead _ ?_))
    cases h with
    | nil => exact .refl _
    | cons hhead htail => exact .join ", " (.cons hhead htail)
  | .compare left comparison right => by
    rw [Expr.render, Expr.render]
    refine (Expr.render_alike context context' left).bind fun _ _ hleft => ?_
    refine (Expr.render_alike context context' right).bind fun _ _ hright => .ok ?_
    exact (((hleft.behind _).behind _).behind _).append (hright.mapText _)
  | .between operand low high negated => by
    rw [Expr.render, Expr.render]
    refine (Expr.render_alike context context' operand).bind fun _ _ hoperand => ?_
    refine (Expr.render_alike context context' low).bind fun _ _ hlow => ?_
    refine (Expr.render_alike context context' high).bind fun _ _ hhigh => .ok ?_
    exact (((((hoperand.behind _).behind _).behind _).append hlow).behind _).append hhigh
  | .inList operand values negated => by
    rw [Expr.render, Expr.render]
    refine .ite (fun _ => .ok (.refl _)) fun _ => ?_
    refine (Expr.render_alike context context' operand).bind fun _ _ hoperand => ?_
    refine (Expr.renderList_alike context context' values).bind fun _ _ hvalues => .ok ?_
    exact (((hoperand.behind _).behind _).behind _).append (Sql.Same.join _ hvalues).parens
  | .inNested operand nested negated => by
    rw [Expr.render, Expr.render]
    refine (Expr.render_alike context context' operand).bind fun _ _ hoperand => ?_
    refine (Nested.render_alike context context' nested).bind fun _ _ hnested => .ok ?_
    exact (((hoperand.behind _).behind _).behind _).append hnested.parens
  | .isNull operand negated => by
    rw [Expr.render, Expr.render]
    refine (Expr.render_alike context context' operand).bind fun _ _ hoperand => .ok ?_
    exact ((hoperand.behind _).behind _).behind _
  | .existsIn nested negated => by
    rw [Expr.render, Expr.render]
    exact (Nested.render_alike context context' nested).bind fun _ _ h => .ok (.ahead _ h.parens)
  | .like operand pattern caseSensitive negated => by
    rw [Expr.render, Expr.render]
    refine .bind_same fun word => ?_
    refine (Expr.render_alike context context' operand).bind fun _ _ hoperand => ?_
    refine (Expr.render_alike context context' pattern).bind fun _ _ hpattern => .ok ?_
    exact (((((hoperand.mapText _).behind _).behind _).behind _).behind _).append hpattern
  | .condition connective terms => by
    rw [Expr.render, Expr.render]
    refine .ite (fun _ => .error _) fun _ => ?_
    exact (Expr.renderTerms_alike context context' connective terms).bind
      fun _ _ h => .ok (.join _ h)
  | .parenthesized inner => by
    rw [Expr.render, Expr.render]
    exact (Expr.render_alike context context' inner).bind fun _ _ h => .ok h.parens

theorem Expr.renderList_alike (context context' : Context) : ∀ exprs : List Expr,
    Alike (List.Forall₂ Sql.Same) (Expr.renderList r context exprs)
      (Expr.renderList r context' exprs)
  | [] => by
    rw [Expr.renderList, Expr.renderList]
    exact .ok .nil
  | expr :: exprs => by
    rw [Expr.renderList, Expr.renderList]
    refine (Expr.render_alike context context' expr).bind fun _ _ hhead => ?_
    exact (Expr.renderList_alike context context' exprs).bind
      fun _ _ htail => .ok (.cons hhead htail)

theorem Expr.renderTerms_alike (context context' : Context) (connective : Connective) :
    ∀ terms : List Expr, Alike (List.Forall₂ Sql.Same)
      (Expr.renderTerms r context connective terms) (Expr.renderTerms r context' connective terms)
  | [] => by
    rw [Expr.renderTerms, Expr.renderTerms]
    exact .ok .nil
  | term :: terms => by
    rw [Expr.renderTerms, Expr.renderTerms]
    refine (Expr.render_alike context context' term).bind fun _ _ hhead => ?_
    exact (Expr.renderTerms_alike context context' connective terms).bind
      fun _ _ htail => .ok (.cons (hhead.parensIf _) htail)

theorem Expr.renderClause_alike (context context' : Context) (keyword : String) :
    ∀ expr : Option Expr, Alike Sql.Same (Expr.renderClause r context keyword expr)
      (Expr.renderClause r context' keyword expr)
  | none => by
    rw [Expr.renderClause, Expr.renderClause]
    exact .ok (.refl _)
  | some expr => by
    rw [Expr.renderClause, Expr.renderClause]
    exact (Expr.render_alike context context' expr).bind fun _ _ h => .ok (.ahead _ h)

theorem Expr.renderListClause_alike (context context' : Context) (keyword : String) :
    ∀ exprs : Option (List Expr), Alike Sql.Same (Expr.renderListClause r context keyword exprs)
      (Expr.renderListClause r context' keyword exprs)
  | none => by
    rw [Expr.renderListClause, Expr.renderListClause]
    exact .ok (.refl _)
  | some exprs => by
    rw [Expr.renderListClause, Expr.renderListClause]
    exact (Expr.renderList_alike context context' exprs).bind
      fun _ _ h => .ok (.ahead _ (.join _ h))

theorem Nested.render_alike (context context' : Context) : ∀ nested : Nested,
    Alike Sql.Same (nested.render r context) (nested.render r context')
  | .plan plan => by
    rw [Nested.render, Nested.render]
    exact .bind_same fun sql => .ok (.retag sql _ _)
  | .raw raw => by
    rw [Nested.render, Nested.render]
    exact .ok (.ofRaw raw _ _)
  | .query query => by
    rw [Nested.render, Nested.render]
    exact Query.render_alike context context' query

theorem SelectItem.render_alike (context context' : Context) : ∀ item : SelectItem,
    Alike Sql.Same (item.render r context) (item.render r context')
  | .wildcard none => by
    rw [SelectItem.render, SelectItem.render]
    exact .ok (.refl _)
  | .wildcard (some qualifier) => by
    rw [SelectItem.render, SelectItem.render]
    exact .ok (.refl _)
  | .column column => by
    rw [SelectItem.render, SelectItem.render]
    exact .ok (.refl _)
  | .expr expr label => by
    rw [SelectItem.render, SelectItem.render]
    exact (Expr.render_alike context context' expr).bind
      fun _ _ h => .ok ((h.parensIf _).behind _)

theorem SelectItem.renderList_alike (context context' : Context) : ∀ items : List SelectItem,
    Alike (List.Forall₂ Sql.Same) (SelectItem.renderList r context items)
      (SelectItem.renderList r context' items)
  | [] => by
    rw [SelectItem.renderList, SelectItem.renderList]
    exact .ok .nil
  | item :: items => by
    rw [SelectItem.renderList, SelectItem.renderList]
    refine (SelectItem.render_alike context context' item).bind fun _ _ hhead => ?_
    exact (SelectItem.renderList_alike context context' items).bind
      fun _ _ htail => .ok (.cons hhead htail)

theorem TableExpr.render_alike (context context' : Context) (hint : Option String) :
    ∀ table : TableExpr,
    Alike Sql.Same (table.render r context hint) (table.render r context' hint)
  | .table table => by
    rw [TableExpr.render, TableExpr.render]
    exact .ok (.refl _)
  | .derived nested label => by
    rw [TableExpr.render, TableExpr.render]
    refine .ite (fun _ => .error _) fun _ => ?_
    exact (Nested.render_alike context context' nested).bind
      fun _ _ h => .ok ((h.parens.behind _).behind _)
  | .joined first joins => by
    rw [TableExpr.render, TableExpr.render]
    refine (TableExpr.render_alike context context' hint first).bind fun _ _ hfirst => ?_
    exact (JoinExpr.renderList_alike context.joining context'.joining joins).bind
      fun _ _ hjoins => .ok (hfirst.append hjoins)
  | .raw raw => by
    rw [TableExpr.render, TableExpr.render]
    exact .ite (fun _ => .error _) fun _ => .ok (.ofRaw raw _ _)

theorem TableExpr.renderClause_alike (context context' : Context) (hint : Option String) :
    ∀ table : Option TableExpr, Alike Sql.Same (TableExpr.renderClause r context hint table)
      (TableExpr.renderClause r context' hint table)
  | none => by
    rw [TableExpr.renderClause, TableExpr.renderClause]
    exact .ok (.refl _)
  | some table => by
    rw [TableExpr.renderClause, TableExpr.renderClause]
    exact (TableExpr.render_alike context context' hint table).bind fun _ _ h => .ok (.ahead _ h)

theorem JoinExpr.render_alike (context context' : Context) : ∀ join : JoinExpr,
    Alike Sql.Same (join.render r context) (join.render r context')
  | ⟨kind, target, on⟩ => by
    rw [JoinExpr.render, JoinExpr.render]
    refine (TableExpr.render_alike context context' none target).bind fun _ _ htarget => ?_
    exact (Expr.renderClause_alike context context' " ON " on).bind
      fun _ _ hon => .ok ((Sql.Same.ahead _ htarget).append hon)

theorem JoinExpr.renderList_alike (context context' : Context) : ∀ joins : List JoinExpr,
    Alike Sql.Same (JoinExpr.renderList r context joins) (JoinExpr.renderList r context' joins)
  | [] => by
    rw [JoinExpr.renderList, JoinExpr.renderList]
    exact .ok (.refl _)
  | join :: joins => by
    rw [JoinExpr.renderList, JoinExpr.renderList]
    refine (JoinExpr.render_alike context context' join).bind fun _ _ hhead => ?_
    exact (JoinExpr.renderList_alike context context' joins).bind
      fun _ _ htail => .ok ((Sql.Same.ahead _ hhead).append htail)

theorem SortKey.render_alike (context context' : Context) : ∀ key : SortKey,
    Alike Sql.Same (key.render r context) (key.render r context')
  | ⟨expr, direction⟩ => by
    rw [SortKey.render, SortKey.render]
    refine (Expr.render_alike context context' expr).bind fun _ _ h => .ok ?_
    cases direction with
    | none => exact h
    | some direction => exact (h.behind _).behind _

theorem SortKey.renderList_alike (context context' : Context) : ∀ keys : List SortKey,
    Alike (List.Forall₂ Sql.Same) (SortKey.renderList r context keys)
      (SortKey.renderList r context' keys)
  | [] => by
    rw [SortKey.renderList, SortKey.renderList]
    exact .ok .nil
  | key :: keys => by
    rw [SortKey.renderList, SortKey.renderList]
    refine (SortKey.render_alike context context' key).bind fun _ _ hhead => ?_
    exact (SortKey.renderList_alike context context' keys).bind
      fun _ _ htail => .ok (.cons hhead htail)

theorem SortKey.renderClause_alike (context context' : Context) : ∀ keys : Option (List SortKey),
    Alike Sql.Same (SortKey.renderClause r context keys) (SortKey.renderClause r context' keys)
  | none => by
    rw [SortKey.renderClause, SortKey.renderClause]
    exact .ok (.refl _)
  | some keys => by
    rw [SortKey.renderClause, SortKey.renderClause]
    exact (SortKey.renderList_alike context context' keys).bind
      fun _ _ h => .ok (.ahead _ (.join _ h))

theorem Select.render_alike (context context' : Context) : ∀ select : Select,
    Alike Sql.Same (select.render r context) (select.render r context')
  | { distinct, items, source, filter, groupBy, having, orderBy, page, lock } => by
    rw [Select.render, Select.render]
    refine (SelectItem.renderList_alike _ _ items).bind fun _ _ hitems => ?_
    refine .bind_same fun hint => ?_
    refine (TableExpr.renderClause_alike _ _ hint source).bind fun _ _ hsource => ?_
    refine (Expr.renderClause_alike _ _ " WHERE " filter).bind fun _ _ hfilter => ?_
    refine (Expr.renderListClause_alike _ _ " GROUP BY " groupBy).bind fun _ _ hgroups => ?_
    refine (Expr.renderClause_alike _ _ " HAVING " having).bind fun _ _ hhaving => ?_
    refine (SortKey.renderClause_alike _ _ orderBy).bind fun _ _ horder => ?_
    refine .bind_same fun suffix => .ok ?_
    refine (((Sql.Same.append ?_ hhaving).append horder).behind _).behind _
    exact (((Sql.Same.ahead _ (.join ", " hitems)).append hsource).append hfilter).append hgroups

theorem Query.render_alike (context context' : Context) : ∀ query : Query,
    Alike Sql.Same (query.render r context) (query.render r context')
  | .select select => by
    rw [Query.render, Query.render]
    exact Select.render_alike context context' select
  | .union left right all orderBy page => by
    rw [Query.render, Query.render]
    refine (Query.render_alike context context' left).bind fun first first' hfirst => ?_
    refine (Query.render_alike _ _ right).bind fun _ _ hsecond => ?_
    refine (SortKey.renderClause_alike _ _ orderBy).bind fun _ _ horder => .ok ?_
    have hleft : Sql.Same (if left.isUnion then first else r.dialect.wrapBranch first)
        (if left.isUnion then first' else r.dialect.wrapBranch first') := by
      split
      · exact hfirst
      · exact hfirst.wrapBranch r.dialect
    exact (((hleft.behind _).append (hsecond.wrapBranch r.dialect)).append horder).behind _

end

end QueryCompiler
