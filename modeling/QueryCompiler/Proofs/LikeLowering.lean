import QueryCompiler.Proofs.Likeness

/-! # Lowering keeps likeness

Alike plans are lowered to alike trees, or both fail (`Query.ofPlan_like`, `Insert.ofRows_like`,
`Update.ofPlan_like`, `Delete.ofPlan_like`). What a likeness has to provide for this is a `Reading`:
alike fragments are read as alike references.
-/

namespace QueryCompiler
set_option autoImplicit false

/-- A likeness whose fragments are read alike under two table prefixes. -/
structure Likeness.Reading (L : Likeness) (E : Error → Error → Prop)
    (tablePrefix tablePrefix' : String) : Prop where
  blame (e : Error) : E e e
  /-- An error may name the fragment that it is about. -/
  blame_column {fragment fragment' : String} (cause : String → ConstructionError) :
    L.column fragment fragment' →
      E (.construction (cause fragment)) (.construction (cause fragment'))
  name_self (name : Name) : L.name name name
  name_wildcard {name name' : Name} : L.name name name' → (name = wildcard ↔ name' = wildcard)
  column {fragment fragment' : String} : L.column fragment fragment' →
    Matched E (ColumnRef.Like L) (ColumnRef.ofFragment tablePrefix fragment)
      (ColumnRef.ofFragment tablePrefix' fragment')
  plain {fragment fragment' : String} : L.column fragment fragment' →
    Matched E L.name (plainColumn fragment) (plainColumn fragment')
  table {fragment fragment' : String} : L.table fragment fragment' →
    Matched E (TableName.Like L) (TableName.ofFragment tablePrefix fragment)
      (TableName.ofFragment tablePrefix' fragment')
  source {label label' : String} : L.source label label' →
    L.name (tablePrefix ++ label) (tablePrefix' ++ label')
  one : L.raw ⟨"1", []⟩ ⟨"1", []⟩

variable {L : Likeness} {E : Error → Error → Prop} {tablePrefix tablePrefix' : String}

/-! ## Lists and options -/

theorem forall₂_isEmpty_eq {α β : Type} {R : α → β → Prop} {as : List α} {bs : List β}
    (h : List.Forall₂ R as bs) : as.isEmpty = bs.isEmpty := by
  cases h <;> rfl

theorem forall₂_getLast? {α β : Type} {R : α → β → Prop} {as : List α} {bs : List β}
    (h : List.Forall₂ R as bs) : Option.Rel R as.getLast? bs.getLast? := by
  induction h with
  | nil => exact .none
  | cons hhead htail ih =>
    cases htail with
    | nil => exact .some hhead
    | cons hnext hrest => exact ih

theorem forall₂_dropLast {α β : Type} {R : α → β → Prop} {as : List α} {bs : List β}
    (h : List.Forall₂ R as bs) : List.Forall₂ R as.dropLast bs.dropLast := by
  rw [List.dropLast_eq_take, List.dropLast_eq_take, h.length_eq]
  exact List.forall₂_take _ h

theorem rel_self {α : Type} {R : α → α → Prop} (hR : ∀ a, R a a) (a : Option α) :
    Option.Rel R a a := by
  cases a with
  | none => exact .none
  | some a => exact .some (hR a)

theorem rel_isSome_eq {α β : Type} {R : α → β → Prop} {a : Option α} {b : Option β}
    (h : Option.Rel R a b) : a.isSome = b.isSome := by
  cases h <;> rfl

theorem rel_getD {α β : Type} {R : α → β → Prop} {a : Option α} {b : Option β} {a' : α} {b' : β}
    (h : Option.Rel R a b) (hdefault : R a' b') : R (a.getD a') (b.getD b') := by
  cases h with
  | some hab => exact hab
  | none => exact hdefault

/-! ## References -/

namespace Likeness.Reading

variable (hL : L.Reading E tablePrefix tablePrefix')

include hL

theorem endsInWildcard_eq {path path' : Path} (h : List.Forall₂ L.name path path') :
    path.endsInWildcard = path'.endsInWildcard := by
  have hlast := forall₂_getLast? h
  unfold Path.endsInWildcard
  generalize path.getLast? = last at hlast ⊢
  generalize path'.getLast? = last' at hlast ⊢
  cases hlast with
  | none => rfl
  | some hname => simp only [Option.some_inj, hL.name_wildcard hname]

theorem referenceName {table table' : TableName} (h : TableName.Like L table table') :
    L.name table.referenceName table'.referenceName :=
  rel_getD h.label (rel_getD (forall₂_getLast? h.path) (hL.name_self ""))

end Likeness.Reading

theorem TableName.Like.withoutAlias {table table' : TableName} (h : TableName.Like L table table') :
    TableName.Like L table.withoutAlias table'.withoutAlias := ⟨h.path, .none⟩

/-! ## Conditions -/

/-- A term with its connective. -/
structure Filter.TermLike (L : Likeness) (term term' : Connective × Expr) : Prop where
  connective : term.1 = term'.1
  expr : Expr.Like L term.2 term'.2

theorem continueRun_like {terms terms' : List (Connective × Expr)}
    (h : List.Forall₂ (Filter.TermLike L) terms terms') :
    List.Forall₂ (Expr.Like L) (continueRun terms).1 (continueRun terms').1 ∧
      List.Forall₂ (List.Forall₂ (Expr.Like L)) (continueRun terms).2 (continueRun terms').2 := by
  induction h with
  | nil => exact ⟨.nil, .nil⟩
  | @cons term term' terms terms' hterm _ ih =>
    obtain ⟨connective, expr⟩ := term
    obtain ⟨connective', expr'⟩ := term'
    obtain ⟨hconnective, hexpr⟩ := hterm
    cases hconnective
    cases connective with
    | and => exact ⟨.cons hexpr ih.1, ih.2⟩
    | or => exact ⟨.nil, .cons (.cons hexpr ih.1) ih.2⟩

theorem runs_like {terms terms' : List (Connective × Expr)}
    (h : List.Forall₂ (Filter.TermLike L) terms terms') :
    List.Forall₂ (List.Forall₂ (Expr.Like L)) (runs terms) (runs terms') := by
  cases h with
  | nil => exact .nil
  | cons hterm hterms =>
    obtain ⟨hrun, hruns⟩ := continueRun_like hterms
    exact .cons (.cons hterm.expr hrun) hruns

theorem Expr.joined_like (connective : Connective) {exprs exprs' : List Expr}
    (h : List.Forall₂ (Expr.Like L) exprs exprs') :
    Expr.Like L (.joined connective exprs) (.joined connective exprs') := by
  cases h with
  | nil => exact .condition connective .nil
  | cons hhead htail =>
    cases htail with
    | nil => exact hhead
    | cons hnext hrest => exact .condition connective (.cons hhead (.cons hnext hrest))

theorem Expr.ofTerms_like {terms terms' : List (Connective × Expr)}
    (h : List.Forall₂ (Filter.TermLike L) terms terms') :
    Option.Rel (Expr.Like L) (Expr.ofTerms terms) (Expr.ofTerms terms') := by
  have hruns := runs_like h
  unfold Expr.ofTerms
  generalize runs terms = alternatives at hruns ⊢
  generalize runs terms' = alternatives' at hruns ⊢
  cases hruns with
  | nil => exact .none
  | cons hrun hrest =>
    refine .some (Expr.joined_like .or ?_)
    rw [List.forall₂_map_left_iff, List.forall₂_map_right_iff]
    exact (List.Forall₂.cons hrun hrest).imp fun _ _ => Expr.joined_like .and

section Conditions

variable (hL : L.Reading E tablePrefix tablePrefix') (purpose : Purpose)

include hL

theorem Expr.ofColumn_like {fragment fragment' : String} (h : L.column fragment fragment') :
    Matched E (Expr.Like L) (Expr.ofColumn tablePrefix fragment)
      (Expr.ofColumn tablePrefix' fragment') := by
  refine (hL.column h).bind fun column column' hcolumn => ?_
  dsimp only
  refine .ite (by rw [rel_isSome_eq hcolumn.label]) (fun _ => .error (hL.blame_column _ h))
    fun _ => ?_
  refine .ite (by rw [hL.endsInWildcard_eq hcolumn.path])
    (fun _ => .error (hL.blame_column _ h)) fun _ => .ok ?_
  rw [← forall₂_isEmpty_eq hcolumn.json]
  split
  · exact .path hcolumn.path
  · exact .json hcolumn.path hcolumn.json

theorem Expr.ofOperand_like {operand operand' : Operand} (h : Operand.Like L operand operand') :
    Matched E (Expr.Like L) (Expr.ofOperand tablePrefix purpose operand)
      (Expr.ofOperand tablePrefix' purpose operand') := by
  cases h with
  | value hvalue => exact .ok (.bound purpose hvalue)
  | column hcolumn => exact Expr.ofColumn_like hL hcolumn
  | raw hraw => exact .ok (.raw hraw)
  | subquery hplan => exact .ok (.nested (.plan hplan))

theorem Expr.ofComparison_like {left left' : Expr} (hleft : Expr.Like L left left')
    (comparison : Comparison) {operand operand' : Operand} (h : Operand.Like L operand operand')
    (hasks : comparison.asksNull operand = comparison.asksNull operand') :
    Matched E (Expr.Like L) (Expr.ofComparison tablePrefix purpose left comparison operand)
      (Expr.ofComparison tablePrefix' purpose left' comparison operand') := by
  rw [Expr.ofComparison_eq, Expr.ofComparison_eq]
  refine .ite (by rw [hasks]) (fun _ => .ok (.isNull _ hleft)) fun _ => ?_
  exact (Expr.ofOperand_like hL purpose h).bind
    fun _ _ hright => .ok (.compare comparison hleft hright)

end Conditions

mutual

theorem Predicate.expr_like (hL : L.Reading E tablePrefix tablePrefix') (purpose : Purpose) :
    ∀ (predicate predicate' : Predicate), Predicate.Like L predicate predicate' →
      Matched E (Option.Rel (Expr.Like L)) (predicate.expr tablePrefix purpose)
        (predicate'.expr tablePrefix' purpose)
  | .compare _ comparison _ => by
    intro _ h
    cases h with
    | compare hcolumn hoperand hasks =>
      rw [Predicate.expr, Predicate.expr]
      refine (Expr.ofColumn_like hL hcolumn).bind fun _ _ hleft => ?_
      exact (Expr.ofComparison_like hL purpose hleft comparison hoperand hasks).bind
        fun _ _ hexpr => .ok (.some hexpr)
  | .isIn .. => by
    intro _ h
    cases h with
    | isIn _ hcolumn hvalues =>
      rw [Predicate.expr, Predicate.expr]
      refine (Expr.ofColumn_like hL hcolumn).bind fun _ _ hoperand => .ok (.some ?_)
      refine .inList _ hoperand ?_
      rw [List.forall₂_map_left_iff, List.forall₂_map_right_iff]
      exact hvalues.imp fun _ _ => .bound purpose
  | .inSubquery .. => by
    intro _ h
    cases h with
    | inSubquery _ hcolumn hplan =>
      rw [Predicate.expr, Predicate.expr]
      exact (Expr.ofColumn_like hL hcolumn).bind
        fun _ _ hoperand => .ok (.some (.inNested _ hoperand (.plan hplan)))
  | .isNull .. => by
    intro _ h
    cases h with
    | isNull _ hcolumn =>
      rw [Predicate.expr, Predicate.expr]
      exact (Expr.ofColumn_like hL hcolumn).bind
        fun _ _ hoperand => .ok (.some (.isNull _ hoperand))
  | .between .. => by
    intro _ h
    cases h with
    | between _ hcolumn hlow hhigh =>
      rw [Predicate.expr, Predicate.expr]
      refine (Expr.ofColumn_like hL hcolumn).bind fun _ _ hoperand => ?_
      refine (Expr.ofOperand_like hL purpose hlow).bind fun _ _ hlow => ?_
      exact (Expr.ofOperand_like hL purpose hhigh).bind
        fun _ _ hhigh => .ok (.some (.between _ hoperand hlow hhigh))
  | .existsIn .. => by
    intro _ h
    cases h with
    | existsIn _ hplan =>
      rw [Predicate.expr, Predicate.expr]
      exact .ok (.some (.existsIn _ (.plan hplan)))
  | .group filters => by
    intro _ h
    cases h with
    | group hfilters =>
      rw [Predicate.expr, Predicate.expr]
      refine (Filter.terms_like hL purpose filters _ hfilters).bind fun terms terms' hterms => .ok ?_
      have hexpr := Expr.ofTerms_like hterms
      generalize Expr.ofTerms terms = expr at hexpr ⊢
      generalize Expr.ofTerms terms' = expr' at hexpr ⊢
      cases hexpr with
      | none => exact .none
      | some hexpr => exact .some (.parenthesized hexpr)
  | .raw _ => by
    intro _ h
    cases h with
    | raw hraw =>
      rw [Predicate.expr, Predicate.expr]
      exact .ok (.some (.raw hraw))
  | .datePart .. => by
    intro _ h
    cases h with
    | datePart _ _ hcolumn hvalue =>
      rw [Predicate.expr, Predicate.expr]
      refine (Expr.ofColumn_like hL hcolumn).bind fun _ _ hargument => .ok (.some ?_)
      exact .compare _ (.call _ (.cons hargument .nil)) (.bound purpose hvalue)
  | .jsonLength .. => by
    intro _ h
    cases h with
    | jsonLength _ hcolumn hvalue =>
      rw [Predicate.expr, Predicate.expr]
      refine (Expr.ofColumn_like hL hcolumn).bind fun _ _ hargument => .ok (.some ?_)
      exact .compare _ (.call _ (.cons hargument .nil)) (.bound purpose hvalue)
  | .like .. => by
    intro _ h
    cases h with
    | like _ _ hcolumn hpattern =>
      rw [Predicate.expr, Predicate.expr]
      exact (Expr.ofColumn_like hL hcolumn).bind fun _ _ hoperand =>
        .ok (.some (.like _ _ hoperand (.bound purpose hpattern)))

theorem Filter.terms_like (hL : L.Reading E tablePrefix tablePrefix') (purpose : Purpose) :
    ∀ (filters filters' : List Filter), List.Forall₂ (Filter.Like L) filters filters' →
      Matched E (List.Forall₂ (Filter.TermLike L)) (Filter.terms tablePrefix purpose filters)
        (Filter.terms tablePrefix' purpose filters')
  | [] => by
    rintro _ ⟨⟩
    rw [Filter.terms, Filter.terms]
    exact .ok .nil
  | ⟨_, predicate⟩ :: filters => by
    rintro _ (_ | ⟨⟨connective, hpredicate⟩, hfilters⟩)
    rw [Filter.terms, Filter.terms]
    refine (Predicate.expr_like hL purpose predicate _ hpredicate).bind fun _ _ hexpr => ?_
    refine (Filter.terms_like hL purpose filters _ hfilters).bind fun _ _ hterms => .ok ?_
    cases hexpr with
    | none => exact hterms
    | some hexpr => exact .cons ⟨rfl, hexpr⟩ hterms

end

theorem TableExpr.withJoins_like {first first' : TableExpr} {joins joins' : List JoinExpr}
    (hfirst : TableExpr.Like L first first') (hjoins : List.Forall₂ (JoinExpr.Like L) joins joins') :
    TableExpr.Like L (first.withJoins joins) (first'.withJoins joins') := by
  cases hjoins with
  | nil => exact hfirst
  | cons hhead htail => exact .joined hfirst (.cons hhead htail)

section Clauses

variable (hL : L.Reading E tablePrefix tablePrefix')

include hL

theorem Expr.ofFilters_like (purpose : Purpose) {filters filters' : List Filter}
    (h : List.Forall₂ (Filter.Like L) filters filters') :
    Matched E (Option.Rel (Expr.Like L)) (Expr.ofFilters tablePrefix purpose filters)
      (Expr.ofFilters tablePrefix' purpose filters') :=
  (Filter.terms_like hL purpose filters filters' h).bind
    fun _ _ hterms => .ok (Expr.ofTerms_like hterms)

/-! ## Clauses -/

theorem SelectItem.ofColumn_like {column column' : ColumnRef}
    (h : ColumnRef.Like L column column') :
    SelectItem.Like L (.ofColumn column) (.ofColumn column') := by
  have hdrop := forall₂_dropLast h.path
  unfold SelectItem.ofColumn
  rw [hL.endsInWildcard_eq h.path, forall₂_isEmpty_eq hdrop]
  split
  · refine .wildcard ?_
    split
    · exact .none
    · exact .some hdrop
  · exact .column h

theorem SelectItem.ofSelection_like {selection selection' : Selection}
    (h : Selection.Like L selection selection') :
    Matched E (SelectItem.Like L) (SelectItem.ofSelection tablePrefix selection)
      (SelectItem.ofSelection tablePrefix' selection') := by
  cases h with
  | column hcolumn =>
    exact (hL.column hcolumn).bind fun _ _ h => .ok (SelectItem.ofColumn_like hL h)
  | raw hraw => exact .ok (.expr (.raw hraw) .none)
  | subquery hplan hlabel => exact .ok (.expr (.nested (.plan hplan)) (.some hlabel))

theorem SelectItem.ofSelections_like {selections selections' : List Selection}
    (h : List.Forall₂ (Selection.Like L) selections selections') :
    Matched E (List.Forall₂ (SelectItem.Like L)) (SelectItem.ofSelections tablePrefix selections)
      (SelectItem.ofSelections tablePrefix' selections') := by
  have hitems := Matched.mapM h fun _ _ => SelectItem.ofSelection_like hL
  cases h with
  | nil => exact .ok (.cons (.wildcard .none) .nil)
  | cons => exact hitems

theorem SelectItem.ofAggregate_like (distinctQuery : Bool) {aggregate aggregate' : Aggregate}
    (h : Aggregate.Like L aggregate aggregate') :
    Matched E (List.Forall₂ (SelectItem.Like L))
      (SelectItem.ofAggregate tablePrefix distinctQuery aggregate)
      (SelectItem.ofAggregate tablePrefix' distinctQuery aggregate') := by
  obtain ⟨function, column, distinct⟩ := aggregate
  obtain ⟨function', column', distinct'⟩ := aggregate'
  obtain ⟨hfunction, hcolumn, hdistinct⟩ := h
  cases hfunction
  cases hdistinct
  unfold SelectItem.ofAggregate
  cases hcolumn with
  | none => exact .ok (.cons (.expr (.aggregate _ _ .nil) (.some (hL.name_self _))) .nil)
  | some hfragment =>
    exact (Expr.ofColumn_like hL hfragment).bind fun _ _ hargument =>
      .ok (.cons (.expr (.aggregate _ _ (.cons hargument .nil)) (.some (hL.name_self _))) .nil)

theorem SelectItem.ofPlanWith_like {plan plan' : Plan} (hdistinct : plan.distinct = plan'.distinct)
    (hselections : List.Forall₂ (Selection.Like L) plan.selections plan'.selections)
    {aggregate aggregate' : Option Aggregate}
    (haggregate : Option.Rel (Aggregate.Like L) aggregate aggregate') :
    Matched E (List.Forall₂ (SelectItem.Like L)) (SelectItem.ofPlanWith tablePrefix plan aggregate)
      (SelectItem.ofPlanWith tablePrefix' plan' aggregate') := by
  cases haggregate with
  | none => exact SelectItem.ofSelections_like hL hselections
  | some h =>
    rw [SelectItem.ofPlanWith, SelectItem.ofPlanWith, hdistinct]
    exact SelectItem.ofAggregate_like hL _ h

theorem TableExpr.ofSource_like {source source' : Source} (h : Source.Like L source source') :
    Matched E (TableExpr.Like L) (TableExpr.ofSource tablePrefix source)
      (TableExpr.ofSource tablePrefix' source') := by
  cases h with
  | table htable => exact (hL.table htable).bind fun _ _ h => .ok (.table h)
  | subquery hplan hlabel => exact .ok (.derived (.plan hplan) (hL.source hlabel))
  | raw hraw => exact .ok (.raw hraw)

theorem TableExpr.ofTarget_like {target target' : JoinTarget} (h : JoinTarget.Like L target target') :
    Matched E (TableExpr.Like L) (TableExpr.ofTarget tablePrefix target)
      (TableExpr.ofTarget tablePrefix' target') := by
  cases h with
  | table htable => exact (hL.table htable).bind fun _ _ h => .ok (.table h)
  | subquery hplan hlabel => exact .ok (.derived (.plan hplan) (hL.source hlabel))

theorem JoinExpr.ofJoin_like {join join' : Join} (h : Join.Like L join join') :
    Matched E (JoinExpr.Like L) (JoinExpr.ofJoin tablePrefix join)
      (JoinExpr.ofJoin tablePrefix' join') := by
  obtain ⟨kind, htarget, hconditions⟩ := h
  refine (TableExpr.ofTarget_like hL htarget).bind fun _ _ htarget => ?_
  exact (Expr.ofFilters_like hL .join hconditions).bind fun _ _ hon => .ok (.mk kind htarget hon)

theorem TableExpr.ofPlan_like {plan plan' : Plan}
    (hsource : Option.Rel (Source.Like L) plan.source plan'.source)
    (hjoins : List.Forall₂ (Join.Like L) plan.joins plan'.joins) :
    Matched E (Option.Rel (TableExpr.Like L)) (TableExpr.ofPlan tablePrefix plan)
      (TableExpr.ofPlan tablePrefix' plan') := by
  unfold TableExpr.ofPlan
  generalize plan.source = source at hsource ⊢
  generalize plan'.source = source' at hsource ⊢
  cases hsource with
  | none =>
    exact .ite (by rw [forall₂_isEmpty_eq hjoins]) (fun _ => .ok .none) fun _ => .error (hL.blame _)
  | some h =>
    refine (TableExpr.ofSource_like hL h).bind fun _ _ hfirst => ?_
    exact (Matched.mapM hjoins fun _ _ => JoinExpr.ofJoin_like hL).bind
      fun _ _ hjoins => .ok (.some (TableExpr.withJoins_like hfirst hjoins))

theorem SortKey.ofTerm_like {term term' : OrderTerm} (h : OrderTerm.Like L term term') :
    Matched E (SortKey.Like L) (SortKey.ofTerm tablePrefix term)
      (SortKey.ofTerm tablePrefix' term') := by
  cases h with
  | column direction hcolumn =>
    exact (Expr.ofColumn_like hL hcolumn).bind fun _ _ hexpr => .ok (.mk (some direction) hexpr)
  | raw hraw => exact .ok (.mk none (.raw hraw))

theorem SortKey.ofTerms_like {terms terms' : List OrderTerm}
    (h : List.Forall₂ (OrderTerm.Like L) terms terms') :
    Matched E (Option.Rel (List.Forall₂ (SortKey.Like L))) (SortKey.ofTerms tablePrefix terms)
      (SortKey.ofTerms tablePrefix' terms') := by
  have hkeys := Matched.mapM h fun _ _ => SortKey.ofTerm_like hL
  cases h with
  | nil => exact .ok .none
  | cons => exact hkeys.bind fun _ _ h => .ok (.some h)

theorem Expr.ofGroups_like {groups groups' : List String}
    (h : List.Forall₂ L.column groups groups') :
    Matched E (Option.Rel (List.Forall₂ (Expr.Like L))) (Expr.ofGroups tablePrefix groups)
      (Expr.ofGroups tablePrefix' groups') := by
  have hcolumns := Matched.mapM h fun _ _ => Expr.ofColumn_like hL
  cases h with
  | nil => exact .ok .none
  | cons => exact hcolumns.bind fun _ _ h => .ok (.some h)

/-! ## Queries -/

theorem Select.ofPlanWith_like {plan plan' : Plan} (h : Plan.Like L plan plan')
    {aggregate aggregate' : Option Aggregate}
    (haggregate : Option.Rel (Aggregate.Like L) aggregate aggregate') :
    Matched E (Select.Like L) (Select.ofPlanWith tablePrefix plan aggregate)
      (Select.ofPlanWith tablePrefix' plan' aggregate') := by
  refine (SelectItem.ofPlanWith_like hL h.distinct_eq h.selections haggregate).bind
    fun _ _ hitems => ?_
  refine (TableExpr.ofPlan_like hL h.source h.joins).bind fun _ _ hsource => ?_
  refine (Expr.ofFilters_like hL .where h.filters).bind fun _ _ hfilter => ?_
  refine (Expr.ofGroups_like hL h.groups).bind fun _ _ hgroupBy => ?_
  refine (Expr.ofFilters_like hL .having h.havings).bind fun _ _ hhaving => ?_
  refine (SortKey.ofTerms_like hL h.orders).bind fun _ _ horderBy => .ok ?_
  have hisNone : aggregate.isNone = aggregate'.isNone := by cases haggregate <;> rfl
  rw [h.distinct_eq, hisNone, h.page_eq, h.lock_eq]
  exact .mk _ _ _ hitems hsource hfilter hgroupBy hhaving horderBy (h.lock_eq ▸ h.locks)

end Clauses

theorem Query.withTail_like {query query' : Query} (h : Query.Like L query query')
    {orderBy orderBy' : Option (List SortKey)}
    (horderBy : Option.Rel (List.Forall₂ (SortKey.Like L)) orderBy orderBy') (page : Page) :
    Query.Like L (query.withTail orderBy page) (query'.withTail orderBy' page) := by
  cases h with
  | select hselect => exact .select hselect
  | union all _ hleft hright _ => exact .union all page hleft hright horderBy

theorem Select.over_like {query query' : Query} (h : Query.Like L query query')
    {items items' : List SelectItem} (hitems : List.Forall₂ (SelectItem.Like L) items items')
    (hname : L.name tempTable tempTable) :
    Select.Like L (.over query items) (.over query' items') :=
  .mk _ _ none hitems (.some (.derived (.query h) hname)) .none .none .none .none nofun

mutual

theorem Query.ofPlan_like (hL : L.Reading E tablePrefix tablePrefix') :
    ∀ (plan plan' : Plan), Plan.Like L plan plan' →
      Matched E (Query.Like L) (Query.ofPlan tablePrefix plan) (Query.ofPlan tablePrefix' plan')
  | { branches, .. } => by
    intro plan' h
    have hselect := Select.ofPlanWith_like hL h h.aggregate
    have hbase := Select.ofPlanWith_like hL h .none
    cases h with
    | mk _ _ _ _ _ _ _ _ _ _ _ hbranches hunionOrders haggregate =>
      match branches with
      | [] =>
        cases hbranches
        rw [Query.ofPlan, Query.ofPlan]
        exact hselect.bind fun _ _ h => .ok (.select h)
      | branch :: branches =>
        obtain _ | ⟨hbranch, hrest⟩ := hbranches
        rw [Query.ofPlan, Query.ofPlan]
        refine hbase.bind fun _ _ hbase => ?_
        refine (Query.unite_like hL (branch :: branches) _ (.cons hbranch hrest) _ _
          (.select hbase)).bind fun _ _ hunited => ?_
        refine (SortKey.ofTerms_like hL hunionOrders).bind fun _ _ horderBy => ?_
        have hquery := Query.withTail_like hunited horderBy
        cases haggregate with
        | none => exact .ok (hquery _)
        | some haggregate =>
          refine (SelectItem.ofAggregate_like hL false haggregate).bind fun _ _ hitems => .ok ?_
          exact .select (Select.over_like (hquery _) hitems (hL.name_self _))

theorem Query.unite_like (hL : L.Reading E tablePrefix tablePrefix') :
    ∀ (branches branches' : List Branch), List.Forall₂ (Branch.Like L) branches branches' →
      ∀ left left', Query.Like L left left' →
      Matched E (Query.Like L) (Query.unite tablePrefix left branches)
        (Query.unite tablePrefix' left' branches')
  | [] => by
    rintro _ ⟨⟩ left left' hleft
    rw [Query.unite, Query.unite]
    exact .ok hleft
  | ⟨plan, _⟩ :: branches => by
    rintro _ (_ | ⟨⟨all, hplan⟩, hrest⟩) left left' hleft
    rw [Query.unite, Query.unite]
    refine (Query.ofPlan_like hL plan _ hplan).bind fun right right' hright => ?_
    exact Query.unite_like hL branches _ hrest _ _ (.union _ {} hleft hright .none)

end

theorem Row.Like.columns {row row' : Row} (h : Row.Like L row row') :
    List.Forall₂ L.column row.columns row'.columns := by
  rw [Row.columns, Row.columns, List.forall₂_map_left_iff, List.forall₂_map_right_iff]
  exact h.imp fun _ _ => Row.EntryLike.column

/-- Columns that match the same entries of two rows have alike operands there. -/
theorem Row.get?_like {row row' : Row} (h : Row.Like L row row') {column column' : String}
    (haligned : ∀ own ∈ row.columns.zip row'.columns, (own.1 = column ↔ own.2 = column')) :
    Option.Rel (Operand.Like L) (row.get? column) (row'.get? column') := by
  unfold Row.Like at h
  unfold Row.columns at haligned
  unfold Row.get?
  generalize row.entries = entries at h haligned ⊢
  generalize row'.entries = entries' at h haligned ⊢
  induction h with
  | nil => exact .none
  | @cons entry entry' entries entries' hentry _ ih =>
    obtain ⟨hfirst, hrest⟩ := List.forall_mem_cons.1 haligned
    dsimp only at hfirst
    by_cases hcolumn : entry.1 = column
    · rw [List.find?_cons_of_pos (by simp [hcolumn]),
        List.find?_cons_of_pos (by simp [hfirst.1 hcolumn])]
      exact .some hentry.operand
    · rw [List.find?_cons_of_neg (by simp [hcolumn]),
        List.find?_cons_of_neg (by simp [mt hfirst.2 hcolumn])]
      exact ih hrest

section Statements

variable (hL : L.Reading E tablePrefix tablePrefix')

include hL

theorem Select.existence_like (style : ExistsStyle) {plan plan' : Plan} (h : Plan.Like L plan plan') :
    Matched E (Select.Like L) (Select.existence style tablePrefix plan)
      (Select.existence style tablePrefix' plan') := by
  have hone : List.Forall₂ (SelectItem.Like L) [.one] [.one] :=
    .cons (.expr (.raw hL.one) (.some (hL.name_self _))) .nil
  have hquery := Query.ofPlan_like hL plan plan' h
  cases style with
  | selectExists =>
    refine hquery.bind fun _ _ hquery => .ok ?_
    refine .mk _ _ none (.cons ?_ .nil) .none .none .none .none .none nofun
    exact .expr (.existsIn false (.query hquery)) (.some (hL.name_self _))
  | topOne =>
    refine .ite (by rw [forall₂_isEmpty_eq h.branches]) (fun _ => ?_) fun _ => ?_
    · refine (Select.ofPlanWith_like hL h .none).bind fun _ _ hselect => .ok ?_
      obtain ⟨_, _, lock, -, hsource, hfilter, hgroupBy, hhaving, -, hlock⟩ := hselect
      exact .mk _ _ lock hone hsource hfilter hgroupBy hhaving .none hlock
    · refine hquery.bind fun _ _ hquery => .ok ?_
      exact .mk _ _ none hone (.some (.derived (.query hquery) (hL.name_self _))) .none .none .none
        .none nofun

/-! ## Inserts -/

theorem Plan.target_like {plan plan' : Plan} (h : Plan.Like L plan plan') (statement : String) :
    Matched E (TableName.Like L) (plan.target tablePrefix statement)
      (plan'.target tablePrefix' statement) := by
  have hsource := h.source
  unfold Plan.target
  generalize plan.source = source at hsource ⊢
  generalize plan'.source = source' at hsource ⊢
  cases hsource with
  | none => exact .error (hL.blame _)
  | some hsource =>
    cases hsource with
    | table htable => exact hL.table htable
    | subquery | raw => exact .error (hL.blame _)

theorem Row.exprs_like {columns columns' : List String} (index : Nat)
    (hcolumns : List.Forall₂ L.column columns columns') {row row' : Row} (h : Row.Like L row row')
    (haligned : ∀ pair ∈ columns.zip columns', ∀ own ∈ row.columns.zip row'.columns,
      (own.1 = pair.1 ↔ own.2 = pair.2)) :
    Matched E (List.Forall₂ (Expr.Like L)) (row.exprs tablePrefix columns index)
      (row'.exprs tablePrefix' columns' index) := by
  have hsize : row.size = row'.size := h.length_eq
  unfold Row.exprs
  rw [hsize, hcolumns.length_eq]
  refine .ite Iff.rfl (fun _ => .error (hL.blame _)) fun _ => ?_
  have hpairs := List.forall₂_iff_zip.2 ⟨hcolumns.length_eq, fun hpair =>
    And.intro (List.forall₂_zip hcolumns hpair) (Row.get?_like h (haligned _ hpair))⟩
  refine Matched.mapM hpairs fun column column' ⟨hcolumn, hoperand⟩ => ?_
  generalize row.get? column = operand at hoperand ⊢
  generalize row'.get? column' = operand' at hoperand ⊢
  cases hoperand with
  | none => exact .error (hL.blame_column (.rowMissing index) hcolumn)
  | some hoperand => exact Expr.ofOperand_like hL .insert hoperand

theorem Row.tuples_like {columns columns' : List String}
    (hcolumns : List.Forall₂ L.column columns columns') {rows rows' : List Row}
    (h : List.Forall₂ (Row.Like L) rows rows')
    (haligned : ∀ pair ∈ columns.zip columns', ∀ own ∈ Row.columnPairs rows rows',
      (own.1 = pair.1 ↔ own.2 = pair.2)) :
    Matched E (List.Forall₂ (List.Forall₂ (Expr.Like L))) (Row.tuples tablePrefix columns rows)
      (Row.tuples tablePrefix' columns' rows') := by
  have hrows := List.forall₂_iff_zip.2 ⟨h.length_eq, fun {row row'} hpair =>
    And.intro (List.forall₂_zip h hpair) fun pair hcolumn own hown =>
      haligned pair hcolumn own (List.mem_flatMap.2 ⟨(row, row'), hpair, hown⟩)⟩
  refine Matched.mapM (forall₂_zipIdx hrows 0) fun (_, index) (_, _) ⟨⟨hrow, halign⟩, hindex⟩ => ?_
  cases hindex
  exact Row.exprs_like hL index hcolumns hrow halign

theorem Insert.ofRows_like {plan plan' : Plan} (h : Plan.Like L plan plan') {rows rows' : List Row}
    (hrows : Row.ListLike L rows rows') {conflict conflict' : Option Conflict}
    (hconflict : Option.Rel (Conflict.Like L) conflict conflict') :
    Matched E (Insert.Like L) (Insert.ofRows tablePrefix plan rows conflict)
      (Insert.ofRows tablePrefix' plan' rows' conflict') := by
  obtain ⟨hlike, haligned⟩ := hrows
  refine (Plan.target_like hL h "INSERT").bind fun _ _ htable => ?_
  cases hlike with
  | nil => exact .ok ⟨htable.withoutAlias, .nil, .defaults, hconflict, .none⟩
  | @cons first first' others others' hfirst hothers =>
    have hempty : first.isEmpty = first'.isEmpty := forall₂_isEmpty_eq hfirst
    refine .ite (by rw [hempty]) (fun _ => ?_) fun _ => ?_
    · refine .ite (by rw [forall₂_isEmpty_eq hothers]) (fun _ => .ok ?_) fun _ => .error (hL.blame _)
      exact ⟨htable.withoutAlias, .nil, .defaults, hconflict, .none⟩
    · have hcolumns := Row.Like.columns hfirst
      refine (Row.tuples_like hL hcolumns (.cons hfirst hothers) fun pair hpair own hown => ?_).bind
        fun _ _ htuples => ?_
      · exact haligned own hown pair (List.mem_append_left _ hpair)
      · exact (Matched.mapM hcolumns fun _ _ => hL.plain).bind fun _ _ hnames =>
          .ok ⟨htable.withoutAlias, hnames, .rows htuples, hconflict, .none⟩

theorem Insert.ofQuery_like {plan plan' : Plan} (h : Plan.Like L plan plan')
    {columns columns' : List String} (hcolumns : List.Forall₂ L.column columns columns')
    {source source' : Plan} (hsource : Plan.Like L source source') :
    Matched E (Insert.Like L) (Insert.ofQuery tablePrefix plan columns source)
      (Insert.ofQuery tablePrefix' plan' columns' source') := by
  refine (Plan.target_like hL h "INSERT").bind fun _ _ htable => ?_
  exact (Matched.mapM hcolumns fun _ _ => hL.plain).bind fun _ _ hnames =>
    .ok ⟨htable.withoutAlias, hnames, .nested (.plan hsource), .none, .none⟩

theorem Conflict.ofColumns_like (style : UpsertStyle) {key key' update update' : List String}
    (hkey : List.Forall₂ L.column key key') (hupdate : List.Forall₂ L.column update update') :
    Matched E (Conflict.Like L) (Conflict.ofColumns style key update)
      (Conflict.ofColumns style key' update') := by
  refine .ite (by rw [forall₂_isEmpty_eq hupdate]) (fun _ => .ok .ignore) fun _ => ?_
  refine .ite (by rw [forall₂_isEmpty_eq hkey]) (fun _ => .error (hL.blame _)) fun _ => ?_
  refine (Matched.mapM hkey fun _ _ => hL.plain).bind fun _ _ hkey => ?_
  exact (Matched.mapM hupdate fun _ _ => hL.plain).bind fun _ _ hupdate => .ok (.update hkey hupdate)

theorem Insert.upsert_like (dialect : Dialect) {plan plan' : Plan} (h : Plan.Like L plan plan')
    {rows rows' : List Row} (hrows : Row.ListLike L rows rows')
    {key key' update update' : List String} (hkey : List.Forall₂ L.column key key')
    (hupdate : List.Forall₂ L.column update update') :
    Matched E (Insert.Like L) (Insert.upsert dialect tablePrefix plan rows key update)
      (Insert.upsert dialect tablePrefix' plan' rows' key' update') := by
  refine .ite (by rw [forall₂_isEmpty_eq hrows.like]) (fun _ => .error (hL.blame _)) fun _ => ?_
  refine .ite Iff.rfl (fun _ => .error (hL.blame _)) fun _ => ?_
  exact (Conflict.ofColumns_like hL _ hkey hupdate).bind
    fun _ _ hconflict => Insert.ofRows_like hL h hrows (.some hconflict)

/-! ## Updates and deletes -/

theorem Expr.rowIdFilter_like {plan plan' : Plan} (h : Plan.Like L plan plan')
    {table table' : TableName} (htable : TableName.Like L table table') (column : Name) :
    Matched E (Expr.Like L) (Expr.rowIdFilter tablePrefix plan table column)
      (Expr.rowIdFilter tablePrefix' plan' table' column) := by
  have hrowId : List.Forall₂ L.name [table.referenceName, column] [table'.referenceName, column] :=
    .cons (hL.referenceName htable) (.cons (hL.name_self column) .nil)
  refine Matched.bind (R := Select.Like L) ?_ fun _ _ hprojection =>
    .ok (.inNested false (.path hrowId) (.query (.select hprojection)))
  refine (TableExpr.ofPlan_like hL h.source h.joins).bind fun _ _ hsource => ?_
  refine (Expr.ofFilters_like hL .where h.filters).bind fun _ _ hfilter => ?_
  refine (SortKey.ofTerms_like hL h.orders).bind fun _ _ horderBy => .ok ?_
  rw [h.page_eq]
  exact .mk _ _ none (.cons (.column ⟨hrowId, .nil, .none⟩) .nil) hsource hfilter .none .none horderBy
    nofun

theorem assignedColumn_like {fragment fragment' : String} (h : L.column fragment fragment') :
    Matched E (List.Forall₂ L.name) (assignedColumn tablePrefix fragment)
      (assignedColumn tablePrefix' fragment') := by
  refine (hL.column h).bind fun _ _ hcolumn => ?_
  refine .ite ?_ (fun _ => .error (hL.blame_column _ h)) fun _ => .ok hcolumn.path
  rw [rel_isSome_eq hcolumn.label, forall₂_isEmpty_eq hcolumn.json,
    hL.endsInWildcard_eq hcolumn.path]

theorem Assignment.ofEntry_like {entry entry' : String × Operand} (h : Row.EntryLike L entry entry') :
    Matched E (Assignment.Like L) (Assignment.ofEntry tablePrefix entry)
      (Assignment.ofEntry tablePrefix' entry') := by
  refine (assignedColumn_like hL h.column).bind fun _ _ hcolumn => ?_
  exact (Expr.ofOperand_like hL .update h.operand).bind fun _ _ hvalue => .ok ⟨hcolumn, hvalue⟩

theorem Update.tables_like (strategy : JoinStrategy) {plan plan' : Plan} (h : Plan.Like L plan plan')
    {table table' : TableName} (htable : TableName.Like L table table') (joined : Bool) :
    Matched E
      (fun tables tables' => TableExpr.Like L tables.1 tables'.1 ∧
        Option.Rel (TableExpr.Like L) tables.2 tables'.2)
      (Update.tables strategy tablePrefix plan table joined)
      (Update.tables strategy tablePrefix' plan' table' joined) := by
  have hplan := TableExpr.ofPlan_like hL h.source h.joins
  refine .ite (by rw [rel_isSome_eq htable.label]) (fun _ => ?_) fun _ => ?_
  · exact hplan.bind fun _ _ hsource =>
      .ok ⟨.table ⟨.cons (hL.referenceName htable) .nil, .none⟩, hsource⟩
  · refine .ite Iff.rfl (fun _ => ?_) fun _ => .ok ⟨.table htable, .none⟩
    exact hplan.bind fun _ _ hsource => .ok ⟨rel_getD hsource (.table htable), .none⟩

end Statements

theorem Dialect.reach_like (dialect : Dialect) {plan plan' : Plan} (h : Plan.Like L plan plan')
    (operation : Operation) (always : Bool) :
    dialect.reach plan operation always = dialect.reach plan' operation always := by
  have hjoins : plan.hasJoins = plan'.hasJoins := by
    rw [Plan.hasJoins, Plan.hasJoins, forall₂_isEmpty_eq h.joins]
  have horders : plan.orders.isEmpty = plan'.orders.isEmpty := forall₂_isEmpty_eq h.orders
  have htail : plan.ordersOrLimits = plan'.ordersOrLimits := by
    rw [Plan.ordersOrLimits, Plan.ordersOrLimits, horders, h.page_eq]
  unfold Dialect.reach Plan.directReach
  rw [hjoins, horders, htail, h.page_eq]

section Changes

variable (hL : L.Reading E tablePrefix tablePrefix')

include hL

theorem Update.ofPlan_like (dialect : Dialect) {plan plan' : Plan} (h : Plan.Like L plan plan')
    {row row' : Row} (hrow : Row.Like L row row') :
    Matched E (Update.Like L) (Update.ofPlan dialect tablePrefix plan row)
      (Update.ofPlan dialect tablePrefix' plan' row') := by
  have hempty : row.isEmpty = row'.isEmpty := forall₂_isEmpty_eq hrow
  refine .ite (by rw [hempty]) (fun _ => .error (hL.blame _)) fun _ => ?_
  refine (Plan.target_like hL h "UPDATE").bind fun _ _ htable => ?_
  refine (Matched.mapM hrow fun _ _ => Assignment.ofEntry_like hL).bind fun _ _ hassignments => ?_
  rw [Dialect.reach_like dialect h]
  cases dialect.reach plan' .orderedUpdateWithJoins false with
  | error e => exact .error (hL.blame e)
  | ok reach =>
    cases reach with
    | single | joined =>
      refine (Expr.ofFilters_like hL .where h.filters).bind fun _ _ hfilter => ?_
      refine (SortKey.ofTerms_like hL h.orders).bind fun _ _ horderBy => ?_
      refine (Update.tables_like hL dialect.joinStrategy h htable _).bind fun _ _ htables => .ok ?_
      exact ⟨htables.1, hassignments, htables.2, hfilter, horderBy, congrArg Page.limit h.page_eq,
        rfl⟩
    | rowId column =>
      exact (Expr.rowIdFilter_like hL h htable column).bind fun _ _ hfilter =>
        .ok ⟨.table htable, hassignments, .none, .some hfilter, .none, rfl, rfl⟩

theorem Delete.ofPlan_like (dialect : Dialect) {plan plan' : Plan} (h : Plan.Like L plan plan') :
    Matched E (Delete.Like L) (Delete.ofPlan dialect tablePrefix plan)
      (Delete.ofPlan dialect tablePrefix' plan') := by
  refine (Plan.target_like hL h "DELETE").bind fun table table' htable => ?_
  rw [Dialect.reach_like dialect h]
  cases dialect.reach plan' .orderedDeleteWithJoins dialect.deletesByRowId with
  | error e => exact .error (hL.blame e)
  | ok reach =>
    cases reach with
    | single | joined =>
      refine (TableExpr.ofPlan_like hL h.source h.joins).bind fun _ _ hsource => ?_
      refine (Expr.ofFilters_like hL .where h.filters).bind fun _ _ hfilter => ?_
      refine (SortKey.ofTerms_like hL h.orders).bind fun _ _ horderBy => .ok ?_
      refine ⟨?_, rel_getD hsource (.table htable), hfilter, horderBy, congrArg Page.limit h.page_eq⟩
      dsimp only
      rw [rel_isSome_eq htable.label]
      split
      · exact .some (hL.referenceName htable)
      · exact .none
    | rowId column =>
      exact (Expr.rowIdFilter_like hL h htable column).bind fun _ _ hfilter =>
        .ok ⟨.none, .table htable, .some hfilter, .none, rfl⟩

theorem Statement.truncation_like
    (hvalue : ∀ name name', L.name name name' → L.value (.text name) (.text name'))
    (dialect : Dialect) {plan plan' : Plan} (h : Plan.Like L plan plan') :
    Matched E (List.Forall₂ (Statement.Like L)) (Statement.truncation dialect tablePrefix plan)
      (Statement.truncation dialect tablePrefix' plan') := by
  refine (Plan.target_like hL h "TRUNCATE").bind fun table table' htable => ?_
  have hname := rel_getD (forall₂_getLast? htable.path) (hL.name_self "")
  cases dialect.truncateStyle with
  | sequenceReset sequenceTable =>
    refine .ok (.cons (.delete ⟨.none, ?_, .some ?_, .none, rfl⟩)
      (.cons (.delete ⟨.none, .table htable.withoutAlias, .none, .none, rfl⟩) .nil))
    · exact .table ⟨.cons (hL.name_self _) .nil, .none⟩
    · exact .compare .eq (.path (.cons (hL.name_self _) .nil)) (.bound .truncate (hvalue _ _ hname))
  | truncateTable | restartIdentity => exact .ok (.cons (.truncate htable.withoutAlias) .nil)

end Changes

end QueryCompiler
