import QueryCompiler.Config
import QueryCompiler.Proofs.Contents
import QueryCompiler.Proofs.Simulation
import QueryCompiler.Proofs.Written

/-! # Values and bindings

The bindings of a statement are those of its leaves, one after the other (`bindingsOfLeaves`). So the
values of a compiled plan are the values of the plan, with none lost, doubled or moved.
-/

namespace QueryCompiler
set_option autoImplicit false

/-! ## Bindings of leaves -/

/-- The bindings of a leaf, given the SQL of nested plans. -/
def Leaf.bindings (nested : Plan → Except Error Sql) : Leaf → Bindings
  | .bound v purpose => [⟨v, purpose⟩]
  | .raw sql purpose => sql.values.map (⟨·, purpose⟩)
  | .plan inner purpose =>
    match nested inner with
    | .ok sql => sql.bindings.retag purpose
    | .error _ => []
  | .lock _ => []

/-- Whether the plan at a leaf has SQL. -/
def Leaf.Compiles (nested : Plan → Except Error Sql) : Leaf → Prop
  | .plan inner _ => ∃ sql, nested inner = .ok sql
  | _ => True

/-- The bindings of a stretch are those of its leaves, and the plans among them have SQL. -/
def bindingsOfLeaves (r : Renderer) : Judgement r where
  holds _ _ leaves sql :=
    sql.bindings = leaves.flatMap (Leaf.bindings r.nested) ∧
      ∀ leaf ∈ leaves, leaf.Compiles r.nested
  of_any h := h
  to_any h := h
  append {_ _ _ leaves leaves' a b} ha hb := by
    refine ⟨?_, List.forall_mem_append.2 ⟨ha.2, hb.2⟩⟩
    rw [Sql.bindings_append, List.flatMap_append, ha.1, hb.1]
  empty _ := ⟨rfl, List.forall_mem_nil _⟩
  separator _ := ⟨rfl, List.forall_mem_nil _⟩
  phrase _ := ⟨rfl, List.forall_mem_nil _⟩
  hook _ h := h
  name _ := ⟨rfl, List.forall_mem_nil _⟩
  bound _ _ := ⟨rfl, List.forall_mem_singleton.2 trivial⟩
  raw _ _ := ⟨(List.append_nil _).symm, List.forall_mem_singleton.2 trivial⟩
  plan {inner sql} purpose hsql := by
    refine ⟨?_, List.forall_mem_singleton.2 ⟨sql, hsql⟩⟩
    rw [List.flatMap_singleton, Leaf.bindings, hsql]
    rfl
  lock _ := ⟨rfl, List.forall_mem_singleton.2 trivial⟩
  unlocked _ _ := ⟨rfl, List.forall_mem_singleton.2 trivial⟩

/-! ## Values -/

theorem Bindings.eq_of_purpose {bindings : Bindings} {purpose : Purpose}
    (h : ∀ binding ∈ bindings, binding.purpose = purpose) :
    bindings = bindings.values.map (⟨·, purpose⟩) := by
  rw [Bindings.values, List.map_map]
  refine (List.map_id _).symm.trans (List.map_congr_left fun binding hmem => ?_)
  rw [Function.comp_apply, ← h binding hmem]
  rfl

theorem Leaf.values_bindings {nested : Plan → Except Error Sql} {leaf : Leaf}
    (hnested : ∀ plan purpose, leaf = .plan plan purpose →
      Ensures (nested plan) fun sql => sql.values = plan.values)
    (hcompiles : leaf.Compiles nested) :
    (leaf.bindings nested).values = leaf.yield .values := by
  cases leaf with
  | bound value purpose => rfl
  | raw sql purpose =>
    rw [Leaf.bindings, Bindings.values, List.map_map]
    exact List.map_id _
  | plan inner purpose =>
    obtain ⟨sql, hsql⟩ := hcompiles
    have hvalues := hnested inner purpose rfl sql hsql
    rw [Leaf.bindings, hsql]
    exact (Bindings.values_retag purpose sql.bindings).trans hvalues
  | lock lock => rfl

theorem Written.values {r : Renderer} {first last : Edge} {leaves : List Leaf} {sql : Sql}
    (h : Written (bindingsOfLeaves r) first last leaves sql)
    (hnested : ∀ plan purpose, .plan plan purpose ∈ leaves →
      Ensures (r.nested plan) fun sql => sql.values = plan.values) :
    sql.values = leaves.flatMap (Leaf.yield .values) := by
  obtain ⟨hbindings, hcompiles⟩ := h
  rw [Sql.values, hbindings]
  clear hbindings
  induction leaves with
  | nil => rfl
  | cons leaf leaves ih =>
    obtain ⟨hleaf, hleaves⟩ := List.forall_mem_cons.1 hcompiles
    have hhead := Leaf.values_bindings
      (fun plan purpose heq => hnested plan purpose (heq ▸ List.mem_cons_self)) hleaf
    have htail := ih (fun plan purpose hmem => hnested plan purpose (.tail _ hmem)) hleaves
    rw [List.flatMap_cons, List.flatMap_cons, Bindings.values_append, hhead, htail]

namespace Compiler

variable (c : Compiler)

/-- Induction on the depth that the compiler is given: it is enough for the plan, and one less is
enough for the plans nested in it. -/
theorem compileWithin_values (n : Nat) (plan : Plan) (hdepth : plan.depth ≤ n) :
    Ensures (c.compileWithin n plan) fun sql => sql.values = plan.values := by
  induction n generalizing plan with
  | zero =>
    have hpos := plan.depth_eq
    omega
  | succ n ih =>
    rw [c.compileWithin_succ]
    refine (Query.ofPlan_leaves c.tablePrefix {} plan).bind fun query hquery => ?_
    refine (Query.render_written (bindingsOfLeaves ⟨c.dialect, c.compileWithin n⟩) {} query).mono
      fun sql hsql => ?_
    have hnested : ∀ inner purpose, .plan inner purpose ∈ query.leaves {} →
        Ensures (c.compileWithin n inner) fun sql => sql.values = inner.values := by
      intro inner purpose hmem
      rw [hquery] at hmem
      have hinner : inner.depth ≤ plan.depth - 1 := plan.depth_leaves {} _ hmem
      exact ih inner (by omega)
    rw [hsql.values hnested, hquery, Plan.leaves_yield]
    rfl

theorem compileNested_values (plan : Plan) :
    Ensures (c.compileNested plan) fun sql => sql.values = plan.values :=
  c.compileWithin_values plan.depth plan (Nat.le_refl _)

theorem render_values (statement : Statement) :
    Ensures (c.render statement) fun sql =>
      sql.values = (statement.leaves c.dialect).flatMap (Leaf.yield .values) := by
  rw [c.render_eq]
  exact (Statement.render_written (bindingsOfLeaves c.renderer) statement).mono fun _ hsql =>
    hsql.values fun inner _ _ => c.compileNested_values inner

theorem select_values (plan : Plan) :
    Ensures (c.select plan) fun sql => sql.values = plan.values := by
  refine (Query.ofPlan_leaves c.tablePrefix {} plan).bind fun query hquery => ?_
  refine (c.render_values (.query query)).mono fun sql hsql => ?_
  rw [hsql, Statement.leaves, hquery, Plan.leaves_yield]
  rfl

end Compiler

/-- The values of rows, read in the order of the columns of the first one. -/
def Row.listValues (rows : List Row) : List Value := Row.listYield .values rows

/-- The values of an UPDATE: those of the row, then those of joins, filters and order. MySQL has the
joins in front of the row. -/
def Plan.updateValues (engine : Engine) (plan : Plan) (row : Row) : List Value :=
  if engine = .mysql then
    Join.listYield .values plan.joins ++ row.yield .values ++ Filter.listYield .values plan.filters ++
      plan.orders.flatMap (OrderTerm.yield .values)
  else row.yield .values ++ plan.restrictionYield .values

/-- The values of an INSERT of rows are those of the rows. -/
theorem Compiler.render_rows_values (c : Compiler) {insert : Insert} {rows : List Row}
    (hleaves : insert.source.leaves (({} : Context).within .insert) = Row.listLeaves rows) :
    Ensures (c.render (.insert insert)) fun sql => sql.values = Row.listValues rows := by
  refine (c.render_values (.insert insert)).mono fun sql hsql => ?_
  rw [hsql, Statement.leaves, hleaves, Row.listLeaves_yield]
  rfl

namespace Config

variable (config : Config)

theorem insert_values (plan : Plan) (rows : List Row) :
    Ensures (config.compiler.insert plan rows) fun sql => sql.values = Row.listValues rows :=
  (Insert.ofRows_leaves config.tablePrefix plan rows none).bind fun _ hinsert =>
    config.compiler.render_rows_values hinsert

theorem insertOrIgnore_values (plan : Plan) (rows : List Row) :
    Ensures (config.compiler.insertOrIgnore plan rows) fun sql =>
      sql.values = Row.listValues rows :=
  (Insert.ofRows_leaves config.tablePrefix plan rows (some .ignore)).bind fun _ hinsert =>
    config.compiler.render_rows_values hinsert

theorem upsert_values (plan : Plan) (rows : List Row) (key update : List String) :
    Ensures (config.compiler.upsert plan rows key update) fun sql =>
      sql.values = Row.listValues rows :=
  (Insert.upsert_leaves _ config.tablePrefix plan rows key update).bind fun _ hinsert =>
    config.compiler.render_rows_values hinsert

theorem insertGetId_values (plan : Plan) (row : Row) (column : Option Name) :
    Ensures (config.compiler.insertGetId plan row column) fun sql =>
      sql.values = Row.listValues [row] := by
  refine (Insert.ofRows_leaves config.tablePrefix plan [row] none).bind fun insert hinsert => ?_
  split
  · exact config.compiler.render_rows_values hinsert
  · exact config.compiler.render_rows_values hinsert
  · refine (config.compiler.render_rows_values hinsert).bind fun sql hsql => .ok ?_
    simp only [Sql.values, Sql.bindings_append, Sql.bindings_ofText, List.nil_append,
      List.append_nil]
    exact hsql

theorem insertUsing_values (plan : Plan) (columns : List String) (source : Plan) :
    Ensures (config.compiler.insertUsing plan columns source) fun sql =>
      sql.values = source.values := by
  refine (Insert.ofQuery_leaves config.tablePrefix plan source columns).bind
    fun insert hinsert => ?_
  refine (config.compiler.render_values (.insert insert)).mono fun sql hsql => ?_
  rw [hsql, Statement.leaves, hinsert, List.flatMap_singleton]
  rfl

theorem delete_values (plan : Plan) :
    Ensures (config.compiler.delete plan) fun sql => sql.values = plan.restrictionYield .values := by
  refine (Delete.ofPlan_leaves config.engine config.tablePrefix plan).bind
    fun delete hdelete => ?_
  refine (config.compiler.render_values (.delete delete)).mono fun sql hsql => ?_
  rw [hsql, ← Plan.restrictionLeaves_yield .values {} plan, ← hdelete]
  rfl

theorem update_values (plan : Plan) (row : Row) :
    Ensures (config.compiler.update plan row) fun sql =>
      sql.values = plan.updateValues config.engine row := by
  refine (Update.ofPlan_leaves config.engine config.tablePrefix plan row).bind
    fun update hupdate => ?_
  refine (config.compiler.render_values (.update update)).mono fun sql hsql => ?_
  rw [hsql, Plan.updateValues, ← Plan.updateLeaves_yield, ← hupdate]
  rfl

/-- The bindings of every engine's statements have the values of what they are made from, each once
and in order: a query those of its plan, an INSERT those of its rows, or of the plan whose rows it
takes, an UPDATE and a DELETE those of the row and of the clauses that pick rows. -/
theorem bindings_have_values_of_plan (config : Config) (plan : Plan) :
    Ensures (config.compiler.select plan) (fun sql => sql.values = plan.values) ∧
    (∀ rows : List Row,
      Ensures (config.compiler.insert plan rows) (fun sql => sql.values = Row.listValues rows) ∧
      Ensures (config.compiler.insertOrIgnore plan rows)
        (fun sql => sql.values = Row.listValues rows) ∧
      ∀ key update, Ensures (config.compiler.upsert plan rows key update)
        fun sql => sql.values = Row.listValues rows) ∧
    (∀ row column, Ensures (config.compiler.insertGetId plan row column)
      fun sql => sql.values = Row.listValues [row]) ∧
    (∀ columns source, Ensures (config.compiler.insertUsing plan columns source)
      fun sql => sql.values = source.values) ∧
    (∀ row, Ensures (config.compiler.update plan row)
      fun sql => sql.values = plan.updateValues config.engine row) ∧
    Ensures (config.compiler.delete plan)
      (fun sql => sql.values = plan.restrictionYield .values) :=
  ⟨config.compiler.select_values plan,
    fun rows => ⟨config.insert_values plan rows, config.insertOrIgnore_values plan rows,
      config.upsert_values plan rows⟩,
    config.insertGetId_values plan, config.insertUsing_values plan, config.update_values plan,
    config.delete_values plan⟩

/-- Sub-queries in FROM and in a filter, a test for NULL, a branch, and the order of the union. -/
theorem bindings_have_values_of_union :
    let config : Config := ⟨.sqlite, "app_"⟩
    let inner : Plan := {
      source := some (.table "logs")
      filters := [⟨.and, .between "day" (.value (.int 3)) (.raw ⟨"? + 1", [.int 4]⟩) false⟩] }
    let plan : Plan := {
      selections := [.raw ⟨"?", [.int 1]⟩]
      source := some (.subquery { inner with selections := [.raw ⟨"?", [.int 2]⟩] } "l")
      filters := [⟨.and, .compare "a" .ne (.value .null)⟩,
        ⟨.or, .group [⟨.and, .existsIn inner true⟩]⟩]
      branches := [⟨inner, true⟩]
      unionOrders := [.raw ⟨"abs(?)", [.int 5]⟩] }
    plan.values = [1, 2, 3, 4, 3, 4, 3, 4, 5].map Value.int ∧
    (config.compiler.select plan).toBool ∧
    Ensures (config.compiler.select plan) fun sql => sql.values = plan.values := by
  intro config inner plan
  exact ⟨by decide, by decide +kernel, (bindings_have_values_of_plan config plan).1⟩

end Config

end QueryCompiler
