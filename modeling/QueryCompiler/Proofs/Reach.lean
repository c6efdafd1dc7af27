import QueryCompiler.Dialect.Clause
import QueryCompiler.Dialect.Engine
import QueryCompiler.Statement.Change

/-! # How the engines reach rows

`Engine.reach_ok_iff` says which writes each engine supports, and how it gets at the rows of those
that it does.
-/

namespace QueryCompiler
set_option autoImplicit false

/-- Whether a plan asks for more than the rows of one table that pass its filters. -/
def Plan.isRestricted (plan : Plan) : Bool :=
  plan.hasJoins || plan.ordersOrLimits || plan.page.offset.isSome

/-- Whether UPDATE and DELETE of an engine take the joins, the order and the page of a plan. -/
def Engine.supportsWrite (engine : Engine) (plan : Plan) : Bool :=
  match engine with
  | .mysql => plan.page.offset.isNone && !(plan.hasJoins && plan.ordersOrLimits)
  | .sqlserver => plan.page.offset.isNone && plan.orders.isEmpty
  | .postgres | .sqlite => true

/-- How an engine gets at the rows of a plan that it can write to. With `always`, the physical
identifier of rows is used wherever there is one. -/
def Engine.reachOf (engine : Engine) (plan : Plan) (always : Bool) : Reach :=
  match engine with
  | .postgres => if always || plan.isRestricted then .rowId "ctid" else .single
  | .sqlite => if always || plan.isRestricted then .rowId "rowid" else .single
  | .mysql | .sqlserver => plan.directReach

theorem Plan.directReach_ne_rowId (plan : Plan) (column : Name) : plan.directReach ≠ .rowId column := by
  unfold Plan.directReach
  split <;> exact Reach.noConfusion

theorem Plan.directReach_joined (plan : Plan) : decide (plan.directReach = .joined) = plan.hasJoins := by
  unfold Plan.directReach
  cases plan.hasJoins <;> rfl

/-- A write is reached exactly if the engine supports it. -/
theorem Engine.reach_ok_iff (engine : Engine) (plan : Plan) (operation : Operation) (always : Bool)
    (reach : Reach) :
    engine.dialect.reach plan operation always = .ok reach ↔
      engine.supportsWrite plan = true ∧ engine.reachOf plan always = reach := by
  unfold Dialect.reach Engine.supportsWrite Engine.reachOf Plan.isRestricted
  cases engine with
  | mysql =>
    cases plan.page.offset <;> cases plan.hasJoins <;> cases plan.ordersOrLimits <;>
      simp [Engine.dialect, Dialect.mysql]
  | sqlserver =>
    cases plan.page.offset <;> cases plan.orders <;>
      simp [Engine.dialect, Dialect.sqlserver]
  | postgres =>
    cases plan.page.offset <;> cases plan.hasJoins <;> cases plan.ordersOrLimits <;>
      cases always <;> simp [Engine.dialect, Dialect.postgres]
  | sqlite =>
    cases plan.page.offset <;> cases plan.hasJoins <;> cases plan.ordersOrLimits <;>
      cases always <;> simp [Engine.dialect, Dialect.sqlite]

theorem Engine.joinStrategy_eq_updateFrom (engine : Engine) :
    engine.dialect.joinStrategy = .updateFrom ↔ engine = .sqlserver := by
  cases engine <;> simp [Engine.dialect, Dialect.mysql, Dialect.postgres, Dialect.sqlite,
    Dialect.sqlserver]

/-- The identifiers of rows, and the engines that write through them. -/
theorem Engine.rowId_cases {engine : Engine} {plan : Plan} {always : Bool} {column : Name}
    (h : engine.reachOf plan always = .rowId column) :
    engine = .postgres ∧ column = "ctid" ∨ engine = .sqlite ∧ column = "rowid" := by
  unfold Engine.reachOf Plan.directReach at h
  cases engine with
  | mysql | sqlserver => dsimp only at h; split at h <;> cases h
  | postgres =>
    dsimp only at h
    split at h
    · cases h; exact .inl ⟨rfl, rfl⟩
    · cases h
  | sqlite =>
    dsimp only at h
    split at h
    · cases h; exact .inr ⟨rfl, rfl⟩
    · cases h

/-- An engine that knows an identifier of rows joins through nothing else. -/
theorem Engine.hasJoins_eq_false {engine : Engine} {plan : Plan} {always : Bool}
    (hengine : engine = .postgres ∨ engine = .sqlite)
    (hdirect : ∀ column, engine.reachOf plan always ≠ .rowId column) : plan.hasJoins = false := by
  cases hjoins : plan.hasJoins with
  | false => rfl
  | true =>
    have hrestricted : (always || plan.isRestricted) = true := by
      rw [Plan.isRestricted, hjoins, Bool.true_or, Bool.true_or, Bool.or_true]
    rcases hengine with rfl | rfl
    · exact (hdirect "ctid" (if_pos hrestricted)).elim
    · exact (hdirect "rowid" (if_pos hrestricted)).elim

/-- Without an identifier of rows, other tables take part exactly if there are joins. -/
theorem Engine.reach_joined_iff {engine : Engine} {plan : Plan} {always : Bool}
    (hdirect : ∀ column, engine.reachOf plan always ≠ .rowId column) :
    decide (engine.reachOf plan always = .joined) = plan.hasJoins := by
  have hrowId : ∀ column, decide ((if always || plan.isRestricted then
      Reach.rowId column else .single) = .joined) = false := by
    intro column
    split <;> rfl
  cases engine with
  | mysql | sqlserver => exact plan.directReach_joined
  | postgres => rw [Engine.hasJoins_eq_false (.inl rfl) hdirect]; exact hrowId _
  | sqlite => rw [Engine.hasJoins_eq_false (.inr rfl) hdirect]; exact hrowId _

/-- A page that a statement reaches directly has no offset. -/
theorem Engine.offset_eq_none {engine : Engine} {plan : Plan} {always : Bool}
    (hsupports : engine.supportsWrite plan = true)
    (hdirect : ∀ column, engine.reachOf plan always ≠ .rowId column) :
    plan.page.offset = none := by
  cases hoffset : plan.page.offset with
  | none => rfl
  | some n =>
    have hrestricted : (always || plan.isRestricted) = true := by
      rw [Plan.isRestricted, hoffset, Option.isSome_some, Bool.or_true, Bool.or_true]
    cases engine with
    | mysql | sqlserver => simp [Engine.supportsWrite, hoffset] at hsupports
    | postgres => exact (hdirect "ctid" (if_pos hrestricted)).elim
    | sqlite => exact (hdirect "rowid" (if_pos hrestricted)).elim

/-- Where limits stand at the beginning of a write, it has no order. -/
theorem Engine.orders_eq_nil {engine : Engine} {plan : Plan}
    (hsupports : engine.supportsWrite plan = true) (htop : engine.dialect.usesTop = true) :
    plan.orders = [] := by
  cases engine with
  | mysql | postgres | sqlite => exact absurd htop (by decide)
  | sqlserver =>
    rw [Engine.supportsWrite, Bool.and_eq_true] at hsupports
    exact List.isEmpty_iff.1 hsupports.2

end QueryCompiler
