import QueryCompiler.Proofs.PlanLeaves

/-! # Contents of a plan

What a plan yields is read off its values, its raw SQL and its locks, at every depth and in the order
in which a query has its clauses. A `Yield` says what each of them contributes.

* `Plan.values`: the values of a plan.
* `Plan.raws`: its raw SQL, the words of locks included.
* `Plan.leaves_yield`: a plan yields what its leaves yield.
* `Plan.depth_lt_of_mem_leaves`: the plans among the leaves of a plan are nested less deeply.
-/

namespace QueryCompiler
set_option autoImplicit false

/-- What the parts of a plan contribute. -/
structure Yield (α : Type) where
  value : Value → List α
  raw : Raw → List α
  lock : Lock → List α

variable {α : Type}

/-! ## Yields -/

def OrderTerm.yield (y : Yield α) : OrderTerm → List α
  | .column _ _ => []
  | .raw sql => y.raw sql

def Lock.yield (y : Yield α) : Option Lock → List α
  | none => []
  | some lock => y.lock lock

mutual

def Operand.yield (y : Yield α) : Operand → List α
  | .value v => y.value v
  | .column _ => []
  | .raw sql => y.raw sql
  | .subquery plan => plan.yield y

def Predicate.yield (y : Yield α) : Predicate → List α
  | .compare _ comparison operand => if comparison.asksNull operand then [] else operand.yield y
  | .isIn _ values _ => values.flatMap y.value
  | .inSubquery _ plan _ => plan.yield y
  | .isNull .. => []
  | .between _ low high _ => low.yield y ++ high.yield y
  | .existsIn plan _ => plan.yield y
  | .group filters => Filter.listYield y filters
  | .raw sql => y.raw sql
  | .datePart _ _ _ value => y.value value
  | .jsonLength _ _ value => y.value value
  | .like _ pattern _ _ => y.value pattern

def Filter.listYield (y : Yield α) : List Filter → List α
  | [] => []
  | ⟨_, predicate⟩ :: filters => predicate.yield y ++ Filter.listYield y filters

def Selection.yield (y : Yield α) : Selection → List α
  | .column _ => []
  | .raw sql => y.raw sql
  | .subquery plan _ => plan.yield y

def Selection.listYield (y : Yield α) : List Selection → List α
  | [] => []
  | selection :: selections => selection.yield y ++ Selection.listYield y selections

/-- What FROM yields. The lock of a plan may stand behind a table. -/
def Source.yield (y : Yield α) (hint : List α) : Option Source → List α
  | none => []
  | some (.table _) => hint
  | some (.subquery plan _) => plan.yield y
  | some (.raw sql) => y.raw sql

def JoinTarget.yield (y : Yield α) : JoinTarget → List α
  | .table _ => []
  | .subquery plan _ => plan.yield y

def Join.listYield (y : Yield α) : List Join → List α
  | [] => []
  | ⟨_, target, conditions⟩ :: joins =>
    target.yield y ++ Filter.listYield y conditions ++ Join.listYield y joins

def Branch.listYield (y : Yield α) : List Branch → List α
  | [] => []
  | ⟨plan, _⟩ :: branches => plan.yield y ++ Branch.listYield y branches

/-- What a plan yields. An aggregate takes the place of the select list, unless it is over a union;
the order of a union counts only if there is one. -/
def Plan.yield (y : Yield α) : Plan → List α
  | { selections, source, joins, filters, havings, orders, branches, unionOrders, aggregate, lock,
      .. } =>
    (if aggregate.isSome && branches.isEmpty then [] else Selection.listYield y selections) ++
      Source.yield y (Lock.yield y lock) source ++ Join.listYield y joins ++
      Filter.listYield y filters ++ Filter.listYield y havings ++
      orders.flatMap (OrderTerm.yield y) ++ Lock.yield y lock ++ Branch.listYield y branches ++
      (if branches.isEmpty then [] else unionOrders.flatMap (OrderTerm.yield y))

end

/-- What a leaf yields. -/
def Leaf.yield (y : Yield α) : Leaf → List α
  | .bound v _ => y.value v
  | .raw sql _ => y.raw sql
  | .plan nested _ => nested.yield y
  | .lock l => y.lock l

/-! ## Yields of leaves -/

variable (y : Yield α) (purpose : Purpose)

theorem Operand.leaves_yield (operand : Operand) :
    (operand.leaves purpose).flatMap (Leaf.yield y) = operand.yield y := by
  cases operand <;>
    simp only [Operand.leaves, Operand.yield, List.flatMap_cons, List.flatMap_nil, List.append_nil,
      Leaf.yield]

mutual

theorem Predicate.leaves_yield : ∀ predicate : Predicate,
    (predicate.leaves purpose).flatMap (Leaf.yield y) = predicate.yield y
  | .compare _ comparison operand => by
    rw [Predicate.leaves, Predicate.yield]
    split
    · rfl
    · exact Operand.leaves_yield y purpose operand
  | .isIn _ values _ => by
    rw [Predicate.leaves, Predicate.yield, List.flatMap_map]
    rfl
  | .between _ low high _ => by
    rw [Predicate.leaves, Predicate.yield, List.flatMap_append, Operand.leaves_yield,
      Operand.leaves_yield]
  | .group filters => by
    rw [Predicate.leaves, Predicate.yield, Filter.listLeaves_yield filters]
  | .inSubquery .. | .isNull .. | .existsIn .. | .raw _ | .datePart .. | .jsonLength ..
  | .like .. => by
    simp only [Predicate.leaves, Predicate.yield, List.flatMap_cons, List.flatMap_nil,
      List.append_nil, Leaf.yield]

theorem Filter.listLeaves_yield : ∀ filters : List Filter,
    (Filter.listLeaves purpose filters).flatMap (Leaf.yield y) = Filter.listYield y filters
  | [] => by rw [Filter.listLeaves, Filter.listYield, List.flatMap_nil]
  | ⟨_, predicate⟩ :: filters => by
    rw [Filter.listLeaves, Filter.listYield, List.flatMap_append, Predicate.leaves_yield predicate,
      Filter.listLeaves_yield filters]

end

theorem Selection.leaves_yield (selections : List Selection) :
    (selections.flatMap (Selection.leaves purpose)).flatMap (Leaf.yield y) =
      Selection.listYield y selections := by
  induction selections with
  | nil => rw [Selection.listYield]; rfl
  | cons selection selections ih =>
    rw [List.flatMap_cons, List.flatMap_append, ih, Selection.listYield]
    congr 1
    cases selection <;>
      simp only [Selection.leaves, Selection.yield, List.flatMap_cons, List.flatMap_nil,
        List.append_nil, Leaf.yield]

theorem OrderTerm.leaves_yield (terms : List OrderTerm) :
    (terms.flatMap (OrderTerm.leaves purpose)).flatMap (Leaf.yield y) =
      terms.flatMap (OrderTerm.yield y) := by
  rw [List.flatMap_assoc]
  congr 1
  funext term
  cases term with
  | column column direction => rfl
  | raw sql => exact List.append_nil _

theorem Lock.leaves_yield (lock : Option Lock) :
    (Lock.leaves lock).flatMap (Leaf.yield y) = Lock.yield y lock := by
  cases lock with
  | none => rfl
  | some lock => exact List.append_nil _

theorem Join.leaves_yield (joins : List Join) :
    (joins.flatMap (Join.leaves purpose)).flatMap (Leaf.yield y) = Join.listYield y joins := by
  induction joins with
  | nil => rw [Join.listYield]; rfl
  | cons join joins ih =>
    obtain ⟨kind, target, conditions⟩ := join
    rw [List.flatMap_cons, List.flatMap_append, ih, Join.listYield, Join.leaves,
      List.flatMap_append, Filter.listLeaves_yield]
    congr 2
    cases target <;>
      simp only [JoinTarget.leaves, JoinTarget.yield, List.flatMap_cons, List.flatMap_nil,
        List.append_nil, Leaf.yield]

theorem Plan.sourceLeaves_yield (context : Context) (hint : List Leaf) (plan : Plan) :
    (plan.sourceLeaves context hint).flatMap (Leaf.yield y) =
      Source.yield y (hint.flatMap (Leaf.yield y)) plan.source ++
        Join.listYield y plan.joins := by
  rw [Plan.sourceLeaves, List.flatMap_append, Join.leaves_yield]
  congr 1
  cases plan.source with
  | none => rw [Source.yield]; rfl
  | some source =>
    cases source <;>
      simp only [Option.map_some, Option.getD_some, Source.leaves, Source.yield, List.flatMap_cons,
        List.flatMap_nil, List.append_nil, Leaf.yield]

theorem Plan.itemLeaves_yield (plan : Plan) (aggregate : Option Aggregate) :
    (plan.itemLeaves purpose aggregate).flatMap (Leaf.yield y) =
      if aggregate.isSome then [] else Selection.listYield y plan.selections := by
  cases aggregate with
  | some aggregate => rfl
  | none => exact Selection.leaves_yield y purpose plan.selections

theorem Plan.ownLeaves_yield (context : Context) (plan : Plan) (aggregate : Option Aggregate) :
    (plan.ownLeaves context aggregate).flatMap (Leaf.yield y) =
      (if aggregate.isSome then [] else Selection.listYield y plan.selections) ++
        Source.yield y (Lock.yield y plan.lock) plan.source ++ Join.listYield y plan.joins ++
        Filter.listYield y plan.filters ++ Filter.listYield y plan.havings ++
        plan.orders.flatMap (OrderTerm.yield y) ++ Lock.yield y plan.lock := by
  simp only [Plan.ownLeaves, List.flatMap_append, Plan.itemLeaves_yield, Plan.sourceLeaves_yield,
    Filter.listLeaves_yield, OrderTerm.leaves_yield, Lock.leaves_yield, List.append_assoc]

mutual

/-- A plan yields what its leaves yield, wherever it stands. -/
theorem Plan.leaves_yield (context : Context) : ∀ plan : Plan,
    (plan.leaves context).flatMap (Leaf.yield y) = plan.yield y
  | plan@{ branches, .. } => by
    match branches with
    | [] =>
      rw [Plan.leaves, Plan.ownLeaves_yield, Plan.yield, Branch.listYield]
      simp only [List.isEmpty_nil, Bool.and_true, if_true, List.append_nil]
    | ⟨branch, all⟩ :: branches =>
      have hbranches := Branch.listLeaves_yield (context.overriding .union)
        (⟨branch, all⟩ :: branches)
      rw [Plan.leaves, List.flatMap_append, List.flatMap_append, Plan.ownLeaves_yield,
        hbranches, OrderTerm.leaves_yield, Plan.yield]
      simp only [List.isEmpty_cons, Bool.and_false, Option.isSome_none]
      rfl

theorem Branch.listLeaves_yield (context : Context) : ∀ branches : List Branch,
    (Branch.listLeaves context branches).flatMap (Leaf.yield y) = Branch.listYield y branches
  | [] => by rw [Branch.listLeaves, Branch.listYield, List.flatMap_nil]
  | ⟨plan, _⟩ :: branches => by
    rw [Branch.listLeaves, Branch.listYield, List.flatMap_append, Plan.leaves_yield context plan,
      Branch.listLeaves_yield context branches]

end

theorem Plan.yield_eq (plan : Plan) :
    plan.yield y =
      (if plan.aggregate.isSome && plan.branches.isEmpty then []
        else Selection.listYield y plan.selections) ++
        Source.yield y (Lock.yield y plan.lock) plan.source ++ Join.listYield y plan.joins ++
        Filter.listYield y plan.filters ++ Filter.listYield y plan.havings ++
        plan.orders.flatMap (OrderTerm.yield y) ++ Lock.yield y plan.lock ++
        Branch.listYield y plan.branches ++
        (if plan.branches.isEmpty then [] else plan.unionOrders.flatMap (OrderTerm.yield y)) := by
  cases plan
  rw [Plan.yield]

/-! ## Yields of writes -/

/-- What picks the rows of an UPDATE or DELETE yields. -/
def Plan.restrictionYield (plan : Plan) : List α :=
  Join.listYield y plan.joins ++ Filter.listYield y plan.filters ++
    plan.orders.flatMap (OrderTerm.yield y)

/-- What the entries of a row yield. -/
def Row.yield (row : Row) : List α := row.entries.flatMap fun entry => entry.2.yield y

/-- What the entries of a row yield, read in the order of the given columns. -/
def Row.yieldIn (columns : List String) (row : Row) : List α :=
  columns.flatMap fun column => ((row.get? column).map (Operand.yield y)).getD []

/-- What rows yield, read in the order of the columns of the first one. -/
def Row.listYield : List Row → List α
  | [] => []
  | first :: others => (first :: others).flatMap (Row.yieldIn y first.columns)

theorem Plan.restrictionLeaves_yield (context : Context) (plan : Plan) :
    (plan.restrictionLeaves context).flatMap (Leaf.yield y) = plan.restrictionYield y := by
  rw [Plan.restrictionLeaves, List.flatMap_append, List.flatMap_append, Join.leaves_yield,
    Filter.listLeaves_yield, OrderTerm.leaves_yield]
  rfl

theorem Plan.restrictionYield_subset (plan : Plan) : plan.restrictionYield y ⊆ plan.yield y := by
  intro a ha
  rw [Plan.yield_eq]
  simp only [Plan.restrictionYield, List.mem_append] at ha ⊢
  tauto

theorem Row.assignedLeaves_yield (row : Row) :
    row.assignedLeaves.flatMap (Leaf.yield y) = row.yield y := by
  rw [Row.assignedLeaves, Row.yield, List.flatMap_assoc]
  simp only [Operand.leaves_yield]

theorem Row.leavesIn_yield (columns : List String) (row : Row) :
    (row.leavesIn columns).flatMap (Leaf.yield y) = row.yieldIn y columns := by
  rw [Row.leavesIn, Row.yieldIn, List.flatMap_assoc]
  congr 1
  funext column
  cases row.get? column with
  | none => rfl
  | some operand => exact Operand.leaves_yield y .insert operand

theorem Row.listLeaves_yield (rows : List Row) :
    (Row.listLeaves rows).flatMap (Leaf.yield y) = Row.listYield y rows := by
  cases rows with
  | nil => rfl
  | cons first others =>
    rw [Row.listLeaves, Row.listYield, List.flatMap_assoc]
    simp only [Row.leavesIn_yield]

theorem Row.get?_mem {row : Row} {column : String} {operand : Operand}
    (h : row.get? column = some operand) : ∃ entry ∈ row.entries, entry.2 = operand := by
  unfold Row.get? at h
  obtain ⟨entry, hentry, rfl⟩ := Option.map_eq_some_iff.1 h
  exact ⟨entry, List.mem_of_find?_eq_some hentry, rfl⟩

theorem Row.listYield_subset (rows : List Row) : Row.listYield y rows ⊆ rows.flatMap (Row.yield y) := by
  cases rows with
  | nil => exact List.nil_subset _
  | cons first others =>
    intro a ha
    obtain ⟨row, hrow, ha⟩ := List.mem_flatMap.1 ha
    obtain ⟨column, -, ha⟩ := List.mem_flatMap.1 ha
    cases hget : row.get? column with
    | none =>
      rw [hget] at ha
      cases ha
    | some operand =>
      rw [hget] at ha
      obtain ⟨entry, hentry, rfl⟩ := Row.get?_mem hget
      exact List.mem_flatMap.2 ⟨row, hrow, List.mem_flatMap.2 ⟨entry, hentry, ha⟩⟩

/-- An UPDATE yields what the row and the restriction yield; MySQL has joins in front of the row. -/
theorem Plan.updateLeaves_yield (engine : Engine) (plan : Plan) (row : Row) :
    (plan.updateLeaves engine row).flatMap (Leaf.yield y) =
      if engine = .mysql then
        Join.listYield y plan.joins ++ row.yield y ++ Filter.listYield y plan.filters ++
          plan.orders.flatMap (OrderTerm.yield y)
      else row.yield y ++ plan.restrictionYield y := by
  unfold Plan.updateLeaves Plan.restrictionYield
  split <;>
    simp only [List.flatMap_append, Join.leaves_yield, Row.assignedLeaves_yield,
      Filter.listLeaves_yield, OrderTerm.leaves_yield, List.append_assoc]

/-! ## Nesting of leaves -/

/-- The nesting of the plan at a leaf. -/
def Leaf.depth : Leaf → Nat
  | .plan nested _ => nested.depth
  | _ => 0

/-- The plans among the leaves are nested no deeper than `n`. -/
def DepthWithin (n : Nat) (leaves : List Leaf) : Prop := ∀ leaf ∈ leaves, leaf.depth ≤ n

namespace DepthWithin

variable {m n : Nat} {leaves leaves' : List Leaf}

theorem nil : DepthWithin n [] := fun _ h => (List.not_mem_nil h).elim

theorem singleton {leaf : Leaf} (h : leaf.depth ≤ n) : DepthWithin n [leaf] := by
  intro l hl
  rw [List.mem_singleton.1 hl]
  exact h

theorem append (h : DepthWithin n leaves) (h' : DepthWithin n leaves') :
    DepthWithin n (leaves ++ leaves') := by
  intro leaf hleaf
  rcases List.mem_append.1 hleaf with hmem | hmem
  · exact h leaf hmem
  · exact h' leaf hmem

theorem mono (h : DepthWithin m leaves) (hmn : m ≤ n) : DepthWithin n leaves :=
  fun leaf hleaf => Nat.le_trans (h leaf hleaf) hmn

end DepthWithin

theorem Operand.depth_leaves (operand : Operand) :
    DepthWithin operand.depth (operand.leaves purpose) := by
  cases operand with
  | value v => exact .singleton (Nat.zero_le _)
  | column column => exact .nil
  | raw sql => exact .singleton (Nat.zero_le _)
  | subquery plan => exact .singleton (by rw [Operand.depth]; exact Nat.le_refl _)

mutual

theorem Predicate.depth_leaves : ∀ predicate : Predicate,
    DepthWithin predicate.depth (predicate.leaves purpose)
  | .compare _ comparison operand => by
    rw [Predicate.depth, Predicate.leaves]
    split
    · exact .nil
    · exact Operand.depth_leaves purpose operand
  | .isIn _ values _ => by
    rw [Predicate.leaves]
    intro leaf hleaf
    obtain ⟨value, -, rfl⟩ := List.mem_map.1 hleaf
    exact Nat.zero_le _
  | .between _ low high _ => by
    rw [Predicate.depth, Predicate.leaves]
    exact ((Operand.depth_leaves purpose low).mono (Nat.le_max_left ..)).append
      ((Operand.depth_leaves purpose high).mono (Nat.le_max_right ..))
  | .inSubquery _ plan _ => by
    rw [Predicate.depth, Predicate.leaves]
    exact .singleton (Nat.le_refl _)
  | .existsIn plan _ => by
    rw [Predicate.depth, Predicate.leaves]
    exact .singleton (Nat.le_refl _)
  | .group filters => by
    rw [Predicate.depth, Predicate.leaves]
    exact Filter.depth_listLeaves filters
  | .isNull .. => by
    rw [Predicate.leaves]
    exact .nil
  | .raw _ | .datePart .. | .jsonLength .. | .like .. => by
    rw [Predicate.leaves]
    exact .singleton (Nat.zero_le _)

theorem Filter.depth_listLeaves : ∀ filters : List Filter,
    DepthWithin (Filter.listDepth filters) (Filter.listLeaves purpose filters)
  | [] => by
    rw [Filter.listLeaves]
    exact .nil
  | ⟨_, predicate⟩ :: filters => by
    rw [Filter.listDepth, Filter.depth, Filter.listLeaves]
    exact ((Predicate.depth_leaves predicate).mono (Nat.le_max_left ..)).append
      ((Filter.depth_listLeaves filters).mono (Nat.le_max_right ..))

end

theorem Selection.depth_leaves (selections : List Selection) :
    DepthWithin (Selection.listDepth selections)
      (selections.flatMap (Selection.leaves purpose)) := by
  induction selections with
  | nil => exact .nil
  | cons selection selections ih =>
    have hselection : DepthWithin selection.depth (selection.leaves purpose) := by
      cases selection with
      | column column => exact .nil
      | raw sql => exact .singleton (Nat.zero_le _)
      | subquery plan label => exact .singleton (by rw [Selection.depth]; exact Nat.le_refl _)
    rw [Selection.listDepth, List.flatMap_cons]
    exact (hselection.mono (Nat.le_max_left ..)).append (ih.mono (Nat.le_max_right ..))

theorem Join.depth_leaves (joins : List Join) :
    DepthWithin (Join.listDepth joins) (joins.flatMap (Join.leaves purpose)) := by
  induction joins with
  | nil => exact .nil
  | cons join joins ih =>
    obtain ⟨kind, target, conditions⟩ := join
    have htarget : DepthWithin target.depth (target.leaves purpose) := by
      cases target with
      | table fragment => exact .nil
      | subquery plan label => exact .singleton (by rw [JoinTarget.depth]; exact Nat.le_refl _)
    have hconditions := Filter.depth_listLeaves purpose conditions
    have hjoin := (htarget.mono (Nat.le_max_left _ (Filter.listDepth conditions))).append
      (hconditions.mono (Nat.le_max_right target.depth _))
    rw [Join.listDepth, Join.depth, List.flatMap_cons]
    exact (hjoin.mono (Nat.le_max_left ..)).append (ih.mono (Nat.le_max_right ..))

theorem OrderTerm.depth_leaves (terms : List OrderTerm) :
    DepthWithin 0 (terms.flatMap (OrderTerm.leaves purpose)) := by
  induction terms with
  | nil => exact .nil
  | cons term terms ih =>
    rw [List.flatMap_cons]
    refine .append ?_ ih
    cases term with
    | column column direction => exact .nil
    | raw sql => exact .singleton (Nat.zero_le _)

theorem Lock.depth_leaves (lock : Option Lock) : DepthWithin 0 (Lock.leaves lock) := by
  cases lock with
  | none => exact .nil
  | some lock => exact .singleton (Nat.zero_le _)

theorem Plan.depth_eq (plan : Plan) :
    plan.depth = 1 + max (Selection.listDepth plan.selections)
      (max (Source.optionDepth plan.source) (max (Join.listDepth plan.joins)
        (max (Filter.listDepth plan.filters)
          (max (Filter.listDepth plan.havings) (Branch.listDepth plan.branches))))) := by
  cases plan
  rw [Plan.depth]

theorem Plan.depth_sourceLeaves (context : Context) {hint : List Leaf} (plan : Plan)
    (hhint : DepthWithin 0 hint) :
    DepthWithin (plan.depth - 1) (plan.sourceLeaves context hint) := by
  have hdepth := plan.depth_eq
  have hjoins := Join.depth_leaves context.joining.clausePurpose plan.joins
  have hsource : DepthWithin (Source.optionDepth plan.source)
      ((plan.source.map (Source.leaves context.clausePurpose hint)).getD []) := by
    cases plan.source with
    | none => exact .nil
    | some source =>
      cases source with
      | table fragment => exact hhint.mono (Nat.zero_le _)
      | subquery nested label =>
        exact .singleton (by rw [Source.optionDepth, Source.depth]; exact Nat.le_refl _)
      | raw sql => exact .singleton (Nat.zero_le _)
  exact (hsource.mono (by omega)).append (hjoins.mono (by omega))

theorem Plan.depth_ownLeaves (context : Context) (plan : Plan) (aggregate : Option Aggregate) :
    DepthWithin (plan.depth - 1) (plan.ownLeaves context aggregate) := by
  have hdepth := plan.depth_eq
  have hitems : DepthWithin (Selection.listDepth plan.selections)
      (plan.itemLeaves (context.purpose .select) aggregate) := by
    cases aggregate with
    | some aggregate => exact .nil
    | none => exact Selection.depth_leaves _ plan.selections
  have hsource := plan.depth_sourceLeaves (context.within .from) (Lock.depth_leaves plan.lock)
  have hfilters := Filter.depth_listLeaves (context.purpose .where) plan.filters
  have hhavings := Filter.depth_listLeaves (context.purpose .having) plan.havings
  have horders := OrderTerm.depth_leaves (context.purpose .order) plan.orders
  have hlock := Lock.depth_leaves plan.lock
  exact (((((hitems.mono (by omega)).append hsource).append (hfilters.mono (by omega))).append
    (hhavings.mono (by omega))).append (horders.mono (by omega))).append (hlock.mono (by omega))

mutual

/-- The plans among the leaves of a plan are nested less deeply than the plan. -/
theorem Plan.depth_leaves (context : Context) : ∀ plan : Plan,
    DepthWithin (plan.depth - 1) (plan.leaves context)
  | plan@{ branches, .. } => by
    match branches with
    | [] =>
      rw [Plan.leaves]
      exact Plan.depth_ownLeaves context _ _
    | ⟨branch, all⟩ :: branches =>
      have hbranches := Branch.depth_listLeaves (context.overriding .union)
        (⟨branch, all⟩ :: branches)
      rw [Plan.leaves]
      refine ((Plan.depth_ownLeaves context _ _).append (hbranches.mono ?_)).append
        ((OrderTerm.depth_leaves _ _).mono (Nat.zero_le _))
      rw [Plan.depth]
      omega

theorem Branch.depth_listLeaves (context : Context) : ∀ branches : List Branch,
    DepthWithin (Branch.listDepth branches) (Branch.listLeaves context branches)
  | [] => by
    rw [Branch.listLeaves]
    exact .nil
  | ⟨plan, _⟩ :: branches => by
    have hplan := Plan.depth_leaves context plan
    have hbranches := Branch.depth_listLeaves context branches
    rw [Branch.listLeaves, Branch.listDepth, Branch.depth]
    exact (hplan.mono (by omega)).append (hbranches.mono (by omega))

end

/-! ## Values and raw SQL -/

def Yield.values : Yield Value where
  value v := [v]
  raw := Raw.values
  lock _ := []

def Yield.raws : Yield Raw where
  value _ := []
  raw sql := [sql]
  lock
    | .raw words => [⟨words, []⟩]
    | _ => []

/-- The values of a plan, in the order of its clauses. -/
def Plan.values (plan : Plan) : List Value := plan.yield .values

/-- The raw SQL of a plan. The words of a lock are raw SQL without values. -/
def Plan.raws (plan : Plan) : List Raw := plan.yield .raws

/-- The raw SQL of a row. -/
def Row.raws (row : Row) : List Raw := row.yield .raws

end QueryCompiler
