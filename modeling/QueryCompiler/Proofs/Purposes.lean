import QueryCompiler.Proofs.Values

/-! # Purposes of leaves

All leaves of one clause of a plan have the same purpose, and so have the bindings that they bring.
In a branch of a union, all leaves have the purpose of the union (`Plan.leaves_of_union`).
-/

namespace QueryCompiler
set_option autoImplicit false

/-- Whether a leaf gives its bindings this purpose. A lock has no bindings. -/
def Leaf.HasPurpose (purpose : Purpose) : Leaf → Prop
  | .bound _ own => own = purpose
  | .raw _ own => own = purpose
  | .plan _ own => own = purpose
  | .lock _ => True

theorem Leaf.HasPurpose.bindings {purpose : Purpose} {leaf : Leaf} (h : leaf.HasPurpose purpose)
    (nested : Plan → Except Error Sql) : ∀ b ∈ leaf.bindings nested, b.purpose = purpose := by
  intro b hb
  cases leaf with
  | bound value own =>
    rw [Leaf.bindings, List.mem_singleton] at hb
    rw [hb]
    exact h
  | raw sql own =>
    obtain ⟨value, -, rfl⟩ := List.mem_map.1 hb
    exact h
  | plan inner own =>
    rw [Leaf.bindings] at hb
    split at hb
    · obtain ⟨own, -, rfl⟩ := List.mem_map.1 hb
      exact h
    · cases hb
  | lock lock => cases hb

/-- All bindings have the given purpose. -/
def Sql.HasPurpose (purpose : Purpose) (sql : Sql) : Prop :=
  ∀ binding ∈ sql.bindings, binding.purpose = purpose

theorem Written.hasPurpose {r : Renderer} {first last : Edge} {leaves : List Leaf} {sql : Sql}
    {purpose : Purpose} (hsql : Written (bindingsOfLeaves r) first last leaves sql)
    (hleaves : ∀ leaf ∈ leaves, leaf.HasPurpose purpose) : sql.HasPurpose purpose := by
  have hbindings : sql.bindings = leaves.flatMap (Leaf.bindings r.nested) := hsql.1
  rw [Sql.HasPurpose, hbindings]
  intro binding hmem
  obtain ⟨leaf, hleaf, hmem⟩ := List.mem_flatMap.1 hmem
  exact (hleaves leaf hleaf).bindings r.nested binding hmem

/-! ## Clauses -/

section Clauses

variable (purpose : Purpose)

theorem Lock.leaves_hasPurpose (lock : Option Lock) :
    ∀ leaf ∈ Lock.leaves lock, leaf.HasPurpose purpose := by
  cases lock with
  | none => simp [Lock.leaves]
  | some lock => simp [Lock.leaves, Leaf.HasPurpose]

theorem Operand.leaves_hasPurpose (operand : Operand) :
    ∀ leaf ∈ operand.leaves purpose, leaf.HasPurpose purpose := by
  cases operand <;> simp [Operand.leaves, Leaf.HasPurpose]

mutual

theorem Predicate.leaves_hasPurpose : ∀ predicate : Predicate,
    ∀ leaf ∈ predicate.leaves purpose, leaf.HasPurpose purpose
  | .compare _ comparison operand => by
    rw [Predicate.leaves]
    split
    · simp
    · exact Operand.leaves_hasPurpose purpose operand
  | .between _ low high _ => by
    rw [Predicate.leaves]
    exact List.forall_mem_append.2
      ⟨Operand.leaves_hasPurpose purpose low, Operand.leaves_hasPurpose purpose high⟩
  | .group filters => by
    rw [Predicate.leaves]
    exact Filter.listLeaves_hasPurpose filters
  | .isIn .. | .inSubquery .. | .isNull .. | .existsIn .. | .raw _ | .datePart .. | .jsonLength ..
  | .like .. => by simp [Predicate.leaves, Leaf.HasPurpose]

theorem Filter.listLeaves_hasPurpose : ∀ filters : List Filter,
    ∀ leaf ∈ Filter.listLeaves purpose filters, leaf.HasPurpose purpose
  | [] => by simp [Filter.listLeaves]
  | ⟨_, predicate⟩ :: filters => by
    rw [Filter.listLeaves]
    exact List.forall_mem_append.2
      ⟨Predicate.leaves_hasPurpose predicate, Filter.listLeaves_hasPurpose filters⟩

end

theorem Selection.leaves_hasPurpose (selection : Selection) :
    ∀ leaf ∈ selection.leaves purpose, leaf.HasPurpose purpose := by
  cases selection <;> simp [Selection.leaves, Leaf.HasPurpose]

theorem Source.leaves_hasPurpose {hint : List Leaf} (hhint : ∀ leaf ∈ hint, leaf.HasPurpose purpose)
    (source : Source) : ∀ leaf ∈ source.leaves purpose hint, leaf.HasPurpose purpose := by
  cases source with
  | table fragment => exact hhint
  | subquery plan label => simp [Source.leaves, Leaf.HasPurpose]
  | raw sql => simp [Source.leaves, Leaf.HasPurpose]

theorem Join.leaves_hasPurpose (join : Join) :
    ∀ leaf ∈ join.leaves purpose, leaf.HasPurpose purpose := by
  have htarget : ∀ leaf ∈ join.target.leaves purpose, leaf.HasPurpose purpose := by
    cases join.target <;> simp [JoinTarget.leaves, Leaf.HasPurpose]
  exact List.forall_mem_append.2 ⟨htarget, Filter.listLeaves_hasPurpose purpose join.conditions⟩

theorem OrderTerm.leaves_hasPurpose (term : OrderTerm) :
    ∀ leaf ∈ term.leaves purpose, leaf.HasPurpose purpose := by
  cases term <;> simp [OrderTerm.leaves, Leaf.HasPurpose]

theorem flatMap_hasPurpose {α : Type} {f : α → List Leaf}
    (h : ∀ a, ∀ leaf ∈ f a, leaf.HasPurpose purpose) (as : List α) :
    ∀ leaf ∈ as.flatMap f, leaf.HasPurpose purpose := by
  intro leaf hleaf
  obtain ⟨a, -, ha⟩ := List.mem_flatMap.1 hleaf
  exact h a leaf ha

theorem Plan.itemLeaves_hasPurpose (plan : Plan) (aggregate : Option Aggregate) :
    ∀ leaf ∈ plan.itemLeaves purpose aggregate, leaf.HasPurpose purpose := by
  cases aggregate with
  | some aggregate => simp [Plan.itemLeaves]
  | none => exact flatMap_hasPurpose purpose (Selection.leaves_hasPurpose purpose) plan.selections

theorem Plan.sourceOnly_hasPurpose {hint : List Leaf}
    (hhint : ∀ leaf ∈ hint, leaf.HasPurpose purpose) (source : Option Source) :
    ∀ leaf ∈ (source.map (Source.leaves purpose hint)).getD [], leaf.HasPurpose purpose := by
  cases source with
  | none => simp
  | some source => exact Source.leaves_hasPurpose purpose hhint source

end Clauses

/-! ## Places that override purposes -/

theorem Plan.leaves_of_branches (context : Context) {plan : Plan} (h : plan.branches ≠ []) :
    plan.leaves context =
      plan.ownLeaves context none ++ Branch.listLeaves (context.overriding .union) plan.branches ++
        plan.unionOrders.flatMap (OrderTerm.leaves (context.purpose .unionOrder)) := by
  obtain ⟨distinct, selections, source, joins, filters, groups, havings, orders, page, branches,
    unionOrders, unionPage, aggregate, lock⟩ := plan
  cases branches with
  | nil => exact (h rfl).elim
  | cons branch branches => rw [Plan.leaves]

/-- Outside of an UPDATE, a place with a purpose for all bindings gives it to every clause. -/
theorem Plan.ownLeaves_of_override {context : Context} {purpose : Purpose}
    (hoverride : context.override = some purpose) (hupdating : context.updating = false)
    (plan : Plan) (aggregate : Option Aggregate) :
    ∀ leaf ∈ plan.ownLeaves context aggregate, leaf.HasPurpose purpose := by
  have hpurpose (own : Purpose) : context.purpose own = purpose := by
    rw [Context.purpose, hoverride, Option.getD_some]
  have hfrom : (context.within .from).clausePurpose = purpose := hpurpose .from
  have hjoin : (context.within .from).joining.clausePurpose = purpose := by
    simp [Context.clausePurpose, Context.purpose, Context.joining, Context.within, hoverride,
      hupdating]
  have hlock := Lock.leaves_hasPurpose purpose plan.lock
  unfold Plan.ownLeaves Plan.sourceLeaves
  rw [hfrom, hjoin, hpurpose, hpurpose, hpurpose, hpurpose]
  simp only [List.forall_mem_append]
  refine ⟨⟨⟨⟨⟨?_, ?_, ?_⟩, ?_⟩, ?_⟩, ?_⟩, hlock⟩
  · exact plan.itemLeaves_hasPurpose purpose aggregate
  · exact Plan.sourceOnly_hasPurpose purpose hlock plan.source
  · exact flatMap_hasPurpose purpose (Join.leaves_hasPurpose purpose) plan.joins
  · exact Filter.listLeaves_hasPurpose purpose plan.filters
  · exact Filter.listLeaves_hasPurpose purpose plan.havings
  · exact flatMap_hasPurpose purpose (OrderTerm.leaves_hasPurpose purpose) plan.orders

mutual

/-- Where all bindings belong to a union, so do those of the unions inside of it. -/
theorem Plan.leaves_of_union {context : Context} (hoverride : context.override = some .union)
    (hupdating : context.updating = false) :
    ∀ plan : Plan, ∀ leaf ∈ plan.leaves context, leaf.HasPurpose .union
  | { branches, .. } => by
    match branches with
    | [] =>
      rw [Plan.leaves]
      exact Plan.ownLeaves_of_override hoverride hupdating _ _
    | branch :: branches =>
      have hpurpose : context.purpose .unionOrder = .union := by
        rw [Context.purpose, hoverride, Option.getD_some]
      have hinner : (context.overriding .union).override = some .union := rfl
      rw [Plan.leaves, hpurpose]
      simp only [List.forall_mem_append]
      refine ⟨⟨?_, ?_⟩, ?_⟩
      · exact Plan.ownLeaves_of_override hoverride hupdating _ _
      · exact Branch.listLeaves_of_union hinner hupdating (branch :: branches)
      · exact flatMap_hasPurpose .union (OrderTerm.leaves_hasPurpose .union) _

theorem Branch.listLeaves_of_union {context : Context} (hoverride : context.override = some .union)
    (hupdating : context.updating = false) :
    ∀ branches : List Branch, ∀ leaf ∈ Branch.listLeaves context branches, leaf.HasPurpose .union
  | [] => by simp [Branch.listLeaves]
  | ⟨plan, _⟩ :: branches => by
    rw [Branch.listLeaves]
    exact List.forall_mem_append.2 ⟨Plan.leaves_of_union hoverride hupdating plan,
      Branch.listLeaves_of_union hoverride hupdating branches⟩

end

end QueryCompiler
