import QueryCompiler.Plan.Build
import QueryCompiler.Proofs.Clauses

/-! # Questions of existence

There are two ways to ask whether a plan has a row. `EXISTS` asks about the whole query of the plan,
its page included. The other way selects a number for the first row that is left by FROM, WHERE, GROUP
BY and HAVING, and puts a page of its own in the place of the page of the plan. So it asks whether any
row survives those clauses, and the two agree exactly if no row does, or if the plan leaves one of the
survivors (`Plan.existence_asks_for_survivors`).

* `Page.kept`, `Select.rowCount`: how many rows a page and a SELECT leave.
* `Select.truth?`: what a question answers that is asked with EXISTS.
-/

namespace QueryCompiler
set_option autoImplicit false

/-! ## Rows of a SELECT -/

/-- The number of rows that a page leaves of `n`: those behind the offset, as far as the limit goes. -/
def Page.kept (page : Page) (n : Nat) : Nat :=
  match page.limit with
  | none => n - page.offset.getD 0
  | some limit => min limit (n - page.offset.getD 0)

/-- How many rows are left by a source with its joins, a filter, groups and a condition on groups. -/
abbrev Survivors := Option TableExpr → Option Expr → Option (List Expr) → Option Expr → Nat

namespace Select

variable (survivors : Survivors)

/-- The number of rows that the clauses of a SELECT leave for its page. -/
def survivorCount (select : Select) : Nat :=
  survivors select.source select.filter select.groupBy select.having

/-- The number of rows of a SELECT that is neither distinct nor an aggregate. -/
def rowCount (select : Select) : Nat := select.page.kept (select.survivorCount survivors)

end Select

/-- The number of rows of a query that is a single SELECT. -/
def Query.rowCount? (survivors : Survivors) : Query → Option Nat
  | .select clauses => some (clauses.rowCount survivors)
  | .union .. => none

/-- Whether a query in parentheses has a row, as EXISTS says. -/
def Expr.existenceTruth? (survivors : Survivors) : Expr → Option Bool
  | .existsIn (.query query) negated =>
    (query.rowCount? survivors).map fun count => decide (0 < count) != negated
  | _ => none

/-- The answer of a SELECT that has nothing but a question of existence in its select list. -/
def Select.truth? (survivors : Survivors) (select : Select) : Option Bool :=
  match select.items with
  | [.expr question _] => question.existenceTruth? survivors
  | _ => none

/-! ## Pages -/

theorem Page.kept_pos_iff (page : Page) (n : Nat) :
    0 < page.kept n ↔ page.offset.getD 0 < n ∧ page.limit ≠ some 0 := by
  unfold Page.kept
  cases page.limit with
  | none =>
    rw [Nat.sub_pos_iff_lt]
    exact (and_iff_left (by simp)).symm
  | some limit =>
    simp only [Nat.lt_min, Nat.sub_pos_iff_lt, ne_eq, Option.some.injEq]
    omega

/-! ## Questions -/

/-- The question about the clauses of a SELECT that is asked by selecting a number. -/
def Select.firstRow (select : Select) : Select :=
  { select with
    distinct := false
    items := [.one]
    orderBy := none
    page := ⟨some 1, none⟩ }

/-- There is a first row exactly if a row survives, whatever the page was. -/
theorem Select.rowCount_firstRow_pos_iff (survivors : Survivors) (select : Select) :
    0 < select.firstRow.rowCount survivors ↔ 0 < select.survivorCount survivors := by
  have hcount : select.firstRow.rowCount survivors = min 1 (select.survivorCount survivors) := rfl
  rw [hcount, Nat.lt_min]
  exact and_iff_right Nat.one_pos

theorem Select.rowCount_pos_iff (survivors : Survivors) (select : Select) :
    0 < select.rowCount survivors ↔
      select.page.offset.getD 0 < select.survivorCount survivors ∧ select.page.limit ≠ some 0 :=
  Page.kept_pos_iff select.page (select.survivorCount survivors)

theorem Select.truth?_existsIn (survivors : Survivors) (select : Select) :
    (Select.existsIn (.select select)).truth? survivors =
      some (decide (0 < select.rowCount survivors)) := by
  simp [Select.truth?, Select.existsIn, Expr.existenceTruth?, Query.rowCount?]

variable {tablePrefix : String} {plan : Plan}

theorem Query.ofPlan_of_plain (hbranches : plan.branches = []) (haggregate : plan.aggregate = none) :
    Query.ofPlan tablePrefix plan = do return .select (← Select.ofPlan tablePrefix plan) := by
  rw [Query.ofPlan_of_branches_nil hbranches, haggregate]
  rfl

theorem Select.existence_topOne (hbranches : plan.branches = []) :
    Select.existence .topOne tablePrefix plan = do
      return (← Select.ofPlan tablePrefix plan).firstRow := by
  rw [Select.existence, hbranches]
  rfl

theorem Select.ofPlan_fields :
    Ensures (Select.ofPlan tablePrefix plan) fun select =>
      select.distinct = plan.distinct ∧ select.page = plan.page := by
  unfold Select.ofPlan Select.ofPlanWith
  refine .bind_any fun items _ => .bind_any fun source _ => .bind_any fun filter _ => ?_
  refine .bind_any fun groupBy _ => .bind_any fun having _ => .bind_any fun orderBy _ => .ok ?_
  exact ⟨Bool.and_true _, rfl⟩

/-- The page of a plan is that of its SELECT, and nothing else depends on it. -/
theorem Select.ofPlan_withPage (page : Page) :
    Select.ofPlan tablePrefix { plan with page := page } = do
      let select ← Select.ofPlan tablePrefix plan
      return { select with page := page } := by
  unfold Select.ofPlan Select.ofPlanWith
  simp only [bind_assoc, pure_bind]
  rfl

/-- A question has no statement exactly if the plan has none, and for the same reason. -/
theorem Select.existence_error_iff (hbranches : plan.branches = []) (haggregate : plan.aggregate = none)
    (style : ExistsStyle) (e : Error) :
    Select.existence style tablePrefix plan = .error e ↔ Query.ofPlan tablePrefix plan = .error e := by
  cases style with
  | selectExists => rw [Select.existence, bind_pure_eq_error_iff]
  | topOne =>
    rw [Select.existence_topOne hbranches, Query.ofPlan_of_plain hbranches haggregate,
      bind_pure_eq_error_iff, bind_pure_eq_error_iff]

/-- A question that is asked by selecting a number does not look at the page of its plan: it has a row
exactly if one survives the clauses of the plan. A question that is asked with EXISTS looks at the
page. So the two have the same answer exactly if no row survives, or if the plan skips fewer rows than
survive and does not ask for none of them. -/
theorem Plan.existence_asks_for_survivors (hbranches : plan.branches = [])
    (hdistinct : plan.distinct = false) (haggregate : plan.aggregate = none) (survivors : Survivors) :
    (∀ page, Select.existence .topOne tablePrefix { plan with page := page } =
      Select.existence .topOne tablePrefix plan) ∧
    (∀ style e, Select.existence style tablePrefix plan = .error e ↔
      Query.ofPlan tablePrefix plan = .error e) ∧
    Ensures (Query.ofPlan tablePrefix plan) fun query => ∃ select first question,
      query = .select select ∧ select.distinct = false ∧ select.page = plan.page ∧
        Select.existence .topOne tablePrefix plan = .ok first ∧
        Select.existence .selectExists tablePrefix plan = .ok question ∧
        (0 < first.rowCount survivors ↔ 0 < select.survivorCount survivors) ∧
        question.truth? survivors = some (decide (0 < select.rowCount survivors)) ∧
        ((0 < first.rowCount survivors ↔ 0 < select.rowCount survivors) ↔
          select.survivorCount survivors = 0 ∨
            plan.page.offset.getD 0 < select.survivorCount survivors ∧ plan.page.limit ≠ some 0) := by
  refine ⟨fun page => ?_, Select.existence_error_iff hbranches haggregate, fun query hquery => ?_⟩
  · have hother : Plan.branches { plan with page := page } = [] := hbranches
    rw [Select.existence_topOne hother, Select.existence_topOne hbranches, Select.ofPlan_withPage]
    simp only [bind_assoc, pure_bind]
    rfl
  · have hlowered := hquery
    rw [Query.ofPlan_of_plain hbranches haggregate, bind_pure_eq_ok_iff] at hlowered
    obtain ⟨select, hselect, rfl⟩ := hlowered
    obtain ⟨hselected, hpage⟩ := Select.ofPlan_fields select hselect
    refine ⟨select, select.firstRow, .existsIn (.select select), rfl, hselected.trans hdistinct, hpage,
      ?_, ?_, select.rowCount_firstRow_pos_iff survivors, select.truth?_existsIn survivors, ?_⟩
    · rw [Select.existence_topOne hbranches, hselect]
      rfl
    · rw [Select.existence, hquery]
      rfl
    · rw [select.rowCount_firstRow_pos_iff, select.rowCount_pos_iff, hpage]
      rcases Nat.eq_zero_or_pos (select.survivorCount survivors) with hnone | hsome
      · simp [hnone]
      · simp [hsome, Nat.ne_of_gt hsome]

/-- The second and the third of three rows: both questions find one. -/
theorem Plan.existence_asks_for_survivors_page :
    let plan := (((Plan.ofTable "users").groupBy ["age"]).limit 2).offset 1
    let survivors : Survivors := fun _ _ _ _ => 3
    (plan.branches = [] ∧ plan.distinct = false ∧ plan.aggregate = none) ∧
      ∃ select first question, Query.ofPlan "" plan = .ok (.select select) ∧
        Select.existence .topOne "" plan = .ok first ∧
        Select.existence .selectExists "" plan = .ok question ∧
        0 < first.rowCount survivors ∧ question.truth? survivors = some true := by
  intro plan survivors
  have hbranches : plan.branches = [] := rfl
  have hdistinct : plan.distinct = false := rfl
  have haggregate : plan.aggregate = none := rfl
  refine ⟨⟨hbranches, hdistinct, haggregate⟩, ?_⟩
  have hlowers : (Query.ofPlan "" plan).toBool = true := by decide +kernel
  cases hquery : Query.ofPlan "" plan with
  | error e =>
    rw [hquery] at hlowers
    cases hlowers
  | ok query =>
    obtain ⟨select, first, question, rfl, -, -, hfirst, hquestion, hrows, htruth, hsame⟩ :=
      (Plan.existence_asks_for_survivors hbranches hdistinct haggregate survivors).2.2 query hquery
    have hsurvivors : select.survivorCount survivors = 3 := rfl
    have hfound : 0 < first.rowCount survivors := hrows.2 (by rw [hsurvivors]; decide)
    have hleft : 0 < select.rowCount survivors :=
      (hsame.2 (.inr ⟨by rw [hsurvivors]; decide, by decide⟩)).1 hfound
    refine ⟨select, first, question, rfl, hfirst, hquestion, hfound, ?_⟩
    rw [htruth, decide_eq_true hleft]

/-- Two rows survive, and the plan skips three: it has no row, and yet the question finds one. -/
theorem Plan.existence_ignores_offset :
    let plan := (Plan.ofTable "users").offset 3
    let survivors : Survivors := fun _ _ _ _ => 2
    (Compiler.select ⟨.sqlserver, ""⟩ plan =
        .ok ⟨"SELECT * FROM [users] ORDER BY (SELECT 0) OFFSET 3 ROWS", []⟩ ∧
      Compiler.existence ⟨.sqlserver, ""⟩ plan = .ok ⟨"SELECT TOP 1 1 AS [exists] FROM [users]", []⟩) ∧
      ∃ select first, Query.ofPlan "" plan = .ok (.select select) ∧
        Select.existence .topOne "" plan = .ok first ∧
        ¬(0 < first.rowCount survivors ↔ 0 < select.rowCount survivors) := by
  intro plan survivors
  refine ⟨⟨by decide +kernel, by decide +kernel⟩, ?_⟩
  have hlowers : (Select.ofPlan "" plan).toBool = true := by decide +kernel
  cases hselect : Select.ofPlan "" plan with
  | error e =>
    rw [hselect] at hlowers
    cases hlowers
  | ok select =>
    obtain ⟨-, hpage⟩ := Select.ofPlan_fields select hselect
    refine ⟨select, select.firstRow, ?_, ?_, ?_⟩
    · rw [Query.ofPlan_of_plain rfl rfl, hselect]
      rfl
    · rw [Select.existence_topOne rfl, hselect]
      rfl
    · have hsurvivors : select.survivorCount survivors = 2 := rfl
      rw [select.rowCount_firstRow_pos_iff, select.rowCount_pos_iff, hpage, hsurvivors]
      decide

end QueryCompiler
