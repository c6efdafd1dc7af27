import Mathlib.Data.List.Nodup
import QueryCompiler.Proofs.Purposes

/-! # Buckets

The bindings of a statement are a list in the order of the placeholders. Each bucket of it holds the
values of one purpose. Nothing is lost by looking at the buckets only: put behind one another in the
order in which their purposes first appear, they are the values of the list again.

* `Bindings.Follow`: the purposes never decrease in a given order.
* `Bindings.Contiguous`: bindings of one purpose stand together.
* `Bindings.Contiguous.faithful`: then the buckets give back the list.
* `buckets_are_faithful`: this holds of every statement of every engine.
-/

namespace QueryCompiler
set_option autoImplicit false

namespace Bindings

/-- All purposes are among the given ones, and they never decrease in their order. -/
def Follow (order : List Purpose) (bindings : Bindings) : Prop :=
  (∀ b ∈ bindings, b.purpose ∈ order) ∧
    bindings.Pairwise fun b b' => order.idxOf b.purpose ≤ order.idxOf b'.purpose

/-- Between two bindings of one purpose, there are only bindings of that purpose. -/
def Contiguous (bindings : Bindings) : Prop :=
  ∀ front first middle last back, bindings = front ++ first :: (middle ++ last :: back) →
    first.purpose = last.purpose → ∀ b ∈ middle, b.purpose = first.purpose

/-- The purposes in the order in which they first appear. -/
def purposes (bindings : Bindings) : List Purpose := (bindings.map (·.purpose)).eraseDups

/-- The buckets, one behind the other, are the values in their order. -/
def Faithful (bindings : Bindings) : Prop :=
  bindings.purposes.flatMap bindings.bucket = bindings.values

/-! ## Order, blocks and buckets -/

theorem Follow.contiguous {order : List Purpose} {bindings : Bindings} (h : Follow order bindings) :
    Contiguous bindings := by
  rintro front first middle last back rfl hends b hb
  obtain ⟨hmem, hpairwise⟩ := h
  have htail := (List.pairwise_append.1 hpairwise).2.1
  obtain ⟨hfirst, hrest⟩ := List.pairwise_cons.1 htail
  have hlow : order.idxOf first.purpose ≤ order.idxOf b.purpose := hfirst b (by simp [hb])
  have hhigh : order.idxOf b.purpose ≤ order.idxOf last.purpose :=
    (List.pairwise_append.1 hrest).2.2 b hb last (by simp)
  rw [← hends] at hhigh
  have hin : b.purpose ∈ order := hmem b (by simp [hb])
  exact (List.idxOf_inj hin).1 (by omega)

theorem Contiguous.tail {b : Binding} {bindings : Bindings} (h : Contiguous (b :: bindings)) :
    Contiguous bindings := by
  rintro front first middle last back rfl
  exact h (b :: front) first middle last back rfl

theorem Contiguous.of_append {front bindings : Bindings} (h : Contiguous (front ++ bindings)) :
    Contiguous bindings := by
  induction front with
  | nil => exact h
  | cons b front ih => exact ih h.tail

/-- Behind the first block, its purpose does not come back. -/
theorem Contiguous.dropWhile_ne {b : Binding} {bindings : Bindings}
    (h : Contiguous (b :: bindings)) :
    ∀ b' ∈ bindings.dropWhile (·.purpose = b.purpose), b'.purpose ≠ b.purpose := by
  intro b' hb' heq
  cases hrest : bindings.dropWhile (·.purpose = b.purpose) with
  | nil =>
    rw [hrest] at hb'
    cases hb'
  | cons next rest =>
    have hnext : next.purpose ≠ b.purpose := by
      have hhead := List.head?_dropWhile_not (·.purpose = b.purpose) bindings
      rw [hrest] at hhead
      simpa using hhead
    rw [hrest] at hb'
    rcases List.mem_cons.1 hb' with rfl | hmem
    · exact hnext heq
    · obtain ⟨middle, back, rfl⟩ := List.append_of_mem hmem
      have hwhole : b :: bindings =
          [] ++ b :: (bindings.takeWhile (·.purpose = b.purpose) ++ next :: middle ++ b' :: back) := by
        rw [List.nil_append, List.append_assoc, List.cons_append, ← hrest,
          List.takeWhile_append_dropWhile]
      exact hnext (h _ _ _ _ _ hwhole heq.symm next (by simp))

theorem bucket_append (a b : Bindings) (purpose : Purpose) :
    bucket (a ++ b) purpose = bucket a purpose ++ bucket b purpose := by
  simp [bucket]

theorem bucket_of_forall {bindings : Bindings} {purpose : Purpose}
    (h : ∀ b ∈ bindings, b.purpose = purpose) : bindings.bucket purpose = bindings.values := by
  rw [bucket, values, List.filter_eq_self.2]
  intro b hb
  simp [h b hb]

theorem bucket_of_forall_ne {bindings : Bindings} {purpose : Purpose}
    (h : ∀ b ∈ bindings, b.purpose ≠ purpose) : bindings.bucket purpose = [] := by
  rw [bucket, List.filter_eq_nil_iff.2, List.map_nil]
  intro b hb
  simp [h b hb]

/-- A block in front, whose purpose does not come back. -/
theorem Faithful.block {block rest : Bindings} {purpose : Purpose} (hne : block ≠ [])
    (hblock : ∀ b ∈ block, b.purpose = purpose) (hrest : ∀ b ∈ rest, b.purpose ≠ purpose)
    (h : Faithful rest) : Faithful (block ++ rest) := by
  have hpurposes : purposes (block ++ rest) = purpose :: purposes rest := by
    have hblocks : block.map (·.purpose) = List.replicate block.length purpose := by
      rw [List.eq_replicate_iff, List.length_map]
      simpa using hblock
    obtain ⟨n, hn⟩ := Nat.exists_eq_succ_of_ne_zero (mt List.length_eq_zero_iff.1 hne)
    have hfilter : (rest.map (·.purpose)).filter (fun p => !p == purpose) =
        rest.map (·.purpose) := by
      rw [List.filter_eq_self]
      simpa using hrest
    rw [purposes, List.map_append, hblocks, hn, List.replicate_succ, List.cons_append,
      List.eraseDups_cons, List.filter_append, hfilter]
    simp [purposes]
  have hothers : (purposes rest).flatMap (bucket (block ++ rest)) =
      (purposes rest).flatMap (bucket rest) := by
    refine List.flatMap_congr fun other hother => ?_
    obtain ⟨b, hb, rfl⟩ := List.mem_map.1 (List.mem_eraseDups.1 hother)
    have hdiffer : ∀ b' ∈ block, b'.purpose ≠ b.purpose := by
      intro b' hb'
      rw [hblock b' hb']
      exact (hrest b hb).symm
    rw [bucket_append, bucket_of_forall_ne hdiffer, List.nil_append]
  rw [Faithful, hpurposes, List.flatMap_cons, hothers, h, bucket_append, bucket_of_forall hblock,
    bucket_of_forall_ne hrest, List.append_nil, values_append]

/-- Blocks are taken off one after the other: each is the bucket of its purpose. -/
theorem Contiguous.faithful : ∀ {bindings : Bindings}, Contiguous bindings → Faithful bindings
  | [], _ => rfl
  | b :: bindings, h => by
    have hblock : ∀ b' ∈ b :: bindings.takeWhile (·.purpose = b.purpose),
        b'.purpose = b.purpose := by
      refine List.forall_mem_cons.2 ⟨rfl, fun b' hb' => ?_⟩
      simpa using List.all_eq_true.1 (List.all_takeWhile (l := bindings)) b' hb'
    have hsplit : b :: bindings = (b :: bindings.takeWhile (·.purpose = b.purpose)) ++
        bindings.dropWhile (·.purpose = b.purpose) := by
      rw [List.cons_append, List.takeWhile_append_dropWhile]
    have hrest : Contiguous (bindings.dropWhile (·.purpose = b.purpose)) := by
      rw [hsplit] at h
      exact h.of_append
    rw [hsplit]
    exact .block (List.cons_ne_nil _ _) hblock h.dropWhile_ne hrest.faithful
termination_by bindings => bindings.length
decreasing_by exact Nat.lt_succ_of_le (List.dropWhile_suffix _).length_le

end Bindings

/-! ## Blocks of leaves -/

/-- A list in blocks: first what goes with the first purpose, then what goes with the next one. -/
inductive InBlocks {α : Type} (goesWith : Purpose → α → Prop) : List Purpose → List α → Prop where
  | nil : InBlocks goesWith [] []
  | cons {purpose : Purpose} {purposes : List Purpose} {block rest : List α} :
    (∀ a ∈ block, goesWith purpose a) → InBlocks goesWith purposes rest →
    InBlocks goesWith (purpose :: purposes) (block ++ rest)

namespace InBlocks

variable {α β : Type} {goesWith : Purpose → α → Prop} {goesWith' : Purpose → β → Prop}
  {purposes : List Purpose} {as : List α}

theorem flatMap {f : α → List β}
    (hf : ∀ purpose a, goesWith purpose a → ∀ b ∈ f a, goesWith' purpose b)
    (h : InBlocks goesWith purposes as) : InBlocks goesWith' purposes (as.flatMap f) := by
  induction h with
  | nil => exact .nil
  | @cons purpose purposes block rest hblock _ ih =>
    rw [List.flatMap_append]
    refine .cons (fun b hb => ?_) ih
    obtain ⟨a, ha, hb⟩ := List.mem_flatMap.1 hb
    exact hf purpose a (hblock a ha) b hb

/-- The first block may get more of its kind. -/
theorem extend {purpose : Purpose} {block : List α} (hblock : ∀ a ∈ block, goesWith purpose a)
    (h : InBlocks goesWith (purpose :: purposes) as) :
    InBlocks goesWith (purpose :: purposes) (block ++ as) := by
  cases h with
  | cons hfirst hrest =>
    rw [← List.append_assoc]
    exact .cons (List.forall_mem_append.2 ⟨hblock, hfirst⟩) hrest

theorem follow {bindings : Bindings} (hnodup : purposes.Nodup)
    (h : InBlocks (fun purpose b => b.purpose = purpose) purposes bindings) :
    bindings.Follow purposes := by
  induction h with
  | nil => exact ⟨by simp, .nil⟩
  | @cons purpose purposes block rest hblock _ ih =>
    obtain ⟨hnew, hnodup⟩ := List.nodup_cons.1 hnodup
    obtain ⟨hmem, hpairwise⟩ := ih hnodup
    have hfirst : ∀ b ∈ block, (purpose :: purposes).idxOf b.purpose = 0 := by
      intro b hb
      rw [hblock b hb, List.idxOf_cons_self]
    have hlater : ∀ b ∈ rest,
        (purpose :: purposes).idxOf b.purpose = purposes.idxOf b.purpose + 1 := by
      intro b hb
      refine List.idxOf_cons_ne _ ?_
      rintro rfl
      exact hnew (hmem b hb)
    refine ⟨?_, List.pairwise_append.2 ⟨?_, ?_, ?_⟩⟩
    · refine List.forall_mem_append.2 ⟨fun b hb => ?_, fun b hb => .tail _ (hmem b hb)⟩
      rw [hblock b hb]
      exact List.mem_cons_self
    · refine List.pairwise_of_forall_mem_list ?_
      intro b hb b' _
      rw [hfirst b hb]
      exact Nat.zero_le _
    · refine List.Pairwise.imp_of_mem ?_ hpairwise
      intro b b' hb hb' hle
      rw [hlater b hb, hlater b' hb']
      omega
    · intro b hb b' _
      rw [hfirst b hb]
      exact Nat.zero_le _

end InBlocks

/-! ## Leaves of statements -/

/-- The purposes of a query, in the order of its clauses. -/
def Purpose.ofQuery : List Purpose :=
  [.select, .from, .join, .where, .groupBy, .having, .order, .union, .unionOrder]

/-- The purposes follow the clauses of a query, and the buckets are faithful. -/
def Sql.InClauseOrder (sql : Sql) : Prop :=
  sql.bindings.Follow Purpose.ofQuery ∧ sql.bindings.Faithful

/-- Bindings of one purpose stand together, and the buckets are faithful. -/
def Sql.HasBlocks (sql : Sql) : Prop := sql.bindings.Contiguous ∧ sql.bindings.Faithful

/-- The clauses of a plan stand in their order. What they are followed by may be branches and the order
of a union. -/
theorem Plan.ownLeaves_inBlocks (plan : Plan) (aggregate : Option Aggregate)
    {branches unionOrders : List Leaf} (hbranches : ∀ leaf ∈ branches, leaf.HasPurpose .union)
    (hunion : ∀ leaf ∈ unionOrders, leaf.HasPurpose .unionOrder) :
    InBlocks Leaf.HasPurpose Purpose.ofQuery
      (plan.ownLeaves {} aggregate ++ branches ++ unionOrders) := by
  have hsource := Plan.sourceOnly_hasPurpose .from (Lock.leaves_hasPurpose .from plan.lock) plan.source
  have hjoins := flatMap_hasPurpose .join (Join.leaves_hasPurpose .join) plan.joins
  have horders := List.forall_mem_append.2
    ⟨flatMap_hasPurpose .order (OrderTerm.leaves_hasPurpose .order) plan.orders,
      Lock.leaves_hasPurpose .order plan.lock⟩
  have hgroups : ∀ leaf ∈ ([] : List Leaf), leaf.HasPurpose .groupBy := List.forall_mem_nil _
  have hblocks := InBlocks.cons (plan.itemLeaves_hasPurpose .select aggregate)
    (.cons hsource (.cons hjoins (.cons (Filter.listLeaves_hasPurpose .where plan.filters)
      (.cons hgroups (.cons (Filter.listLeaves_hasPurpose .having plan.havings)
        (.cons horders (.cons hbranches (.cons hunion .nil))))))))
  simp only [List.append_nil, List.nil_append, List.append_assoc] at hblocks
  simp only [Plan.ownLeaves, Plan.sourceLeaves, List.append_assoc]
  exact hblocks

theorem Plan.leaves_inBlocks (plan : Plan) :
    InBlocks Leaf.HasPurpose Purpose.ofQuery (plan.leaves {}) := by
  by_cases hbranches : plan.branches = []
  · rw [plan.leaves_of_branches_nil {} hbranches]
    have hblocks := plan.ownLeaves_inBlocks plan.aggregate (List.forall_mem_nil _)
      (List.forall_mem_nil _)
    rwa [List.append_nil, List.append_nil] at hblocks
  · rw [plan.leaves_of_branches {} hbranches]
    exact plan.ownLeaves_inBlocks none (Branch.listLeaves_of_union rfl rfl plan.branches)
      (flatMap_hasPurpose .unionOrder (OrderTerm.leaves_hasPurpose .unionOrder) plan.unionOrders)

/-- The question whether a plan has a row has its leaves in the order of its clauses. -/
theorem Select.existence_inBlocks (style : ExistsStyle) (tablePrefix : String) (plan : Plan) :
    Ensures (Select.existence style tablePrefix plan) fun select =>
      InBlocks Leaf.HasPurpose Purpose.ofQuery (select.leaves {}) := by
  have hone : ∀ leaf ∈ SelectItem.listLeaves (({} : Context).within .select) [SelectItem.one],
      leaf.HasPurpose .select := by
    simp only [SelectItem.one, SelectItem.listLeaves, SelectItem.leaves, Expr.leaves,
      List.append_nil, List.mem_singleton, forall_eq]
    rfl
  have hplan := plan.leaves_inBlocks
  cases style with
  | selectExists =>
    refine (Query.ofPlan_leaves tablePrefix {} plan).bind fun query hquery => .ok ?_
    have hwithin := Query.leaves_within {} .select query
    rw [hquery] at hwithin
    simp only [Select.existsIn, Select.leaves, SelectItem.listLeaves, SelectItem.leaves,
      Expr.leaves, Nested.leaves, TableExpr.clauseLeaves, Expr.clauseLeaves, Expr.listClauseLeaves,
      SortKey.clauseLeaves, Lock.leaves, List.append_nil, hwithin]
    exact hplan
  | topOne =>
    refine .ite (fun hbranches => ?_) fun _ => ?_
    · refine (Select.ofPlanWith_clauses tablePrefix {} plan none).bind fun select hselect => .ok ?_
      -- the clauses of a plan that selects and orders nothing, behind the number that is the answer
      have hclauses := Plan.ownLeaves_inBlocks { plan with selections := [], orders := [] } none
        (List.forall_mem_nil _) (List.forall_mem_nil _)
      have hblocks := hclauses.extend hone
      rw [Select.leaves_eq]
      simp only [hselect.lock, hselect.source, hselect.filter, hselect.groupBy, hselect.having,
        SortKey.clauseLeaves, List.append_nil]
      simp only [Plan.ownLeaves, Plan.itemLeaves, List.flatMap_nil, List.nil_append,
        List.append_nil] at hblocks
      simp only [List.append_assoc] at hblocks ⊢
      exact hblocks
    · refine (Query.ofPlan_leaves tablePrefix {} plan).bind fun query hquery => .ok ?_
      have hover := Select.over_leaves {} query [.one]
      rw [hquery] at hover
      have hblocks := hplan.extend hone
      rw [← hover] at hblocks
      rw [Select.leaves_eq] at hblocks ⊢
      exact hblocks

theorem Row.listLeaves_hasPurpose (rows : List Row) :
    ∀ leaf ∈ Row.listLeaves rows, leaf.HasPurpose .insert := by
  cases rows with
  | nil => simp [Row.listLeaves]
  | cons first others =>
    refine flatMap_hasPurpose .insert (fun row => ?_) (first :: others)
    refine flatMap_hasPurpose .insert (fun column => ?_) first.columns
    cases row.get? column with
    | none => simp
    | some operand => exact Operand.leaves_hasPurpose .insert operand

theorem Plan.restrictionLeaves_inBlocks (plan : Plan) :
    InBlocks Leaf.HasPurpose [.join, .where, .order] (plan.restrictionLeaves {}) := by
  have hjoins := flatMap_hasPurpose .join (Join.leaves_hasPurpose .join) plan.joins
  have horders := flatMap_hasPurpose .order (OrderTerm.leaves_hasPurpose .order) plan.orders
  have hblocks := InBlocks.cons hjoins (.cons (Filter.listLeaves_hasPurpose .where plan.filters)
    (.cons horders .nil))
  rw [List.append_nil, ← List.append_assoc] at hblocks
  exact hblocks

/-- The purposes of an UPDATE, in the order in which an engine writes them. -/
def Engine.updatePurposes (engine : Engine) : List Purpose :=
  if engine = .mysql then [.updateJoin, .update, .where, .order]
  else [.update, .updateJoin, .where, .order]

theorem Plan.updateLeaves_inBlocks (engine : Engine) (plan : Plan) (row : Row) :
    InBlocks Leaf.HasPurpose engine.updatePurposes (plan.updateLeaves engine row) := by
  have hassigned : ∀ leaf ∈ row.assignedLeaves, leaf.HasPurpose .update := by
    intro leaf hleaf
    obtain ⟨entry, -, hentry⟩ := List.mem_flatMap.1 hleaf
    exact Operand.leaves_hasPurpose .update entry.2 leaf hentry
  have hjoins := flatMap_hasPurpose .updateJoin (Join.leaves_hasPurpose .updateJoin) plan.joins
  have horders := flatMap_hasPurpose .order (OrderTerm.leaves_hasPurpose .order) plan.orders
  have htail := InBlocks.cons (Filter.listLeaves_hasPurpose .where plan.filters)
    (.cons horders .nil)
  rw [List.append_nil] at htail
  unfold Engine.updatePurposes Plan.updateLeaves
  dsimp only
  split
  · have hblocks := InBlocks.cons hjoins (.cons hassigned htail)
    simp only [List.append_assoc]
    exact hblocks
  · have hblocks := InBlocks.cons hassigned (.cons hjoins htail)
    simp only [List.append_assoc]
    exact hblocks

theorem Statement.truncation_hasPurpose (dialect : Dialect) (tablePrefix : String) (plan : Plan) :
    Ensures (Statement.truncation dialect tablePrefix plan) fun statements =>
      ∀ statement ∈ statements, ∀ leaf ∈ statement.leaves dialect, leaf.HasPurpose .truncate := by
  refine .bind_any fun table _ => ?_
  dsimp only
  split
  · refine .ok (List.forall_mem_cons.2 ⟨?_, List.forall_mem_singleton.2 ?_⟩)
    · simp [Statement.leaves, Delete.leaves, Delete.sequence, writeTailLeaves, Leaf.HasPurpose,
        Context.purpose, Context.within]
    · simp [Statement.leaves, Delete.leaves, writeTailLeaves]
  all_goals exact .ok (List.forall_mem_singleton.2 (by simp [Statement.leaves]))

/-! ## Bindings of statements -/

theorem InBlocks.singleton {α : Type} {goesWith : Purpose → α → Prop} {purpose : Purpose}
    {as : List α} (h : ∀ a ∈ as, goesWith purpose a) : InBlocks goesWith [purpose] as := by
  have hblocks := InBlocks.cons h .nil
  rwa [List.append_nil] at hblocks

theorem Compiler.render_follow (c : Compiler) {statement : Statement} {order : List Purpose}
    (hnodup : order.Nodup)
    (hleaves : InBlocks Leaf.HasPurpose order (statement.leaves c.dialect)) :
    Ensures (c.render statement) fun sql => sql.bindings.Follow order := by
  rw [c.render_eq]
  refine (Statement.render_written (bindingsOfLeaves c.renderer) statement).mono fun sql hsql => ?_
  have hblocks := hleaves.flatMap (f := Leaf.bindings c.renderer.nested) fun purpose leaf h =>
    h.bindings c.renderer.nested
  have hbindings : sql.bindings =
      (statement.leaves c.dialect).flatMap (Leaf.bindings c.renderer.nested) := hsql.1
  rw [hbindings]
  exact hblocks.follow hnodup

namespace Config

variable (config : Config) (plan : Plan)

theorem select_follow :
    Ensures (config.compiler.select plan) fun sql => sql.bindings.Follow Purpose.ofQuery := by
  refine (Query.ofPlan_leaves config.tablePrefix {} plan).bind fun query hquery => ?_
  refine config.compiler.render_follow (by decide) ?_
  have hleaves := plan.leaves_inBlocks
  rw [← hquery] at hleaves
  exact hleaves

theorem existence_follow :
    Ensures (config.compiler.existence plan) fun sql => sql.bindings.Follow Purpose.ofQuery :=
  (Select.existence_inBlocks _ config.tablePrefix plan).bind fun select hselect =>
    config.compiler.render_follow (by decide) (by rw [Statement.leaves, Query.leaves]; exact hselect)

theorem render_rows_follow {insert : Insert} {rows : List Row}
    (hleaves : insert.source.leaves (({} : Context).within .insert) = Row.listLeaves rows) :
    Ensures (config.compiler.render (.insert insert)) fun sql => sql.bindings.Follow [.insert] := by
  refine config.compiler.render_follow (by decide) (.singleton ?_)
  rw [Statement.leaves, hleaves]
  exact Row.listLeaves_hasPurpose rows

theorem insertGetId_follow (row : Row) (column : Option Name) :
    Ensures (config.compiler.insertGetId plan row column) fun sql =>
      sql.bindings.Follow [.insert] := by
  refine (Insert.ofRows_leaves config.tablePrefix plan [row] none).bind fun insert hinsert => ?_
  have hplain := config.render_rows_follow hinsert
  split
  · exact hplain
  · exact config.render_rows_follow hinsert
  · refine hplain.bind fun sql hsql => .ok ?_
    simpa using hsql

theorem insertUsing_follow (columns : List String) (source : Plan) :
    Ensures (config.compiler.insertUsing plan columns source) fun sql =>
      sql.bindings.Follow [.insert] := by
  refine (Insert.ofQuery_leaves config.tablePrefix plan source columns).bind fun insert hinsert => ?_
  refine config.compiler.render_follow (by decide) (.singleton ?_)
  rw [Statement.leaves, hinsert]
  simp [Leaf.HasPurpose]

theorem update_follow (row : Row) :
    Ensures (config.compiler.update plan row) fun sql =>
      sql.bindings.Follow config.engine.updatePurposes := by
  refine (Update.ofPlan_leaves config.engine config.tablePrefix plan row).bind
    fun update hupdate => ?_
  have hnodup : config.engine.updatePurposes.Nodup := by cases config.engine <;> decide
  refine config.compiler.render_follow hnodup ?_
  have hleaves := plan.updateLeaves_inBlocks config.engine row
  rw [← hupdate] at hleaves
  exact hleaves

theorem delete_follow :
    Ensures (config.compiler.delete plan) fun sql =>
      sql.bindings.Follow [.join, .where, .order] := by
  refine (Delete.ofPlan_leaves config.engine config.tablePrefix plan).bind fun delete hdelete => ?_
  refine config.compiler.render_follow (by decide) ?_
  have hleaves := plan.restrictionLeaves_inBlocks
  rw [← hdelete] at hleaves
  exact hleaves

theorem truncate_follow :
    Ensures (config.compiler.truncate plan) fun sqls =>
      ∀ sql ∈ sqls, sql.bindings.Follow [.truncate] := by
  refine (Statement.truncation_hasPurpose _ config.tablePrefix plan).bind fun statements h => ?_
  exact .mapM_all fun statement hstatement =>
    config.compiler.render_follow (by decide) (.singleton (h statement hstatement))

/-- The buckets of a statement are a faithful view of its bindings. In queries, the purposes follow the
order of the clauses; in all other statements, bindings of one purpose stand together. So the buckets,
in the order in which their purposes first appear, make up the list of values. -/
theorem buckets_are_faithful :
    Ensures (config.compiler.select plan) Sql.InClauseOrder ∧
    Ensures (config.compiler.existence plan) Sql.InClauseOrder ∧
    (∀ row, Ensures (config.compiler.update plan row) Sql.HasBlocks) ∧
    Ensures (config.compiler.delete plan) Sql.HasBlocks ∧
    (∀ rows, Ensures (config.compiler.insert plan rows) Sql.HasBlocks ∧
      Ensures (config.compiler.insertOrIgnore plan rows) Sql.HasBlocks ∧
      ∀ key update, Ensures (config.compiler.upsert plan rows key update) Sql.HasBlocks) ∧
    (∀ row column, Ensures (config.compiler.insertGetId plan row column) Sql.HasBlocks) ∧
    (∀ columns source, Ensures (config.compiler.insertUsing plan columns source) Sql.HasBlocks) ∧
    Ensures (config.compiler.truncate plan) (fun sqls => ∀ sql ∈ sqls, sql.HasBlocks) := by
  have hordered (sql : Sql) (h : sql.bindings.Follow Purpose.ofQuery) : sql.InClauseOrder :=
    ⟨h, h.contiguous.faithful⟩
  have hblocks (order : List Purpose) (sql : Sql) (h : sql.bindings.Follow order) :
      sql.HasBlocks := ⟨h.contiguous, h.contiguous.faithful⟩
  have hrows {x : Except Error Insert} {rows : List Row}
      (h : Ensures x fun insert =>
        insert.source.leaves (({} : Context).within .insert) = Row.listLeaves rows) :
      Ensures (do config.compiler.render (.insert (← x))) Sql.HasBlocks :=
    h.bind fun insert hinsert => (config.render_rows_follow hinsert).mono (hblocks [.insert])
  refine ⟨(config.select_follow plan).mono hordered, (config.existence_follow plan).mono hordered,
    fun row => (config.update_follow plan row).mono (hblocks _),
    (config.delete_follow plan).mono (hblocks _), fun rows => ⟨?_, ?_, fun key update => ?_⟩,
    fun row column => (config.insertGetId_follow plan row column).mono (hblocks _),
    fun columns source => (config.insertUsing_follow plan columns source).mono (hblocks _), ?_⟩
  · exact hrows (Insert.ofRows_leaves config.tablePrefix plan rows none)
  · exact hrows (Insert.ofRows_leaves config.tablePrefix plan rows (some .ignore))
  · exact hrows (Insert.upsert_leaves _ config.tablePrefix plan rows key update)
  · exact (config.truncate_follow plan).mono fun sqls h sql hsql => hblocks _ sql (h sql hsql)

/-- An UPDATE with the values of a joined query in front of the value that is assigned, and those of a
list behind it. -/
theorem buckets_are_faithful_join :
    let config : Config := ⟨.mysql, "app_"⟩
    let logins : Plan := {
      source := some (.table "logins")
      filters := [⟨.and, .between "day" (.value (.int 3)) (.raw ⟨"? + 1", [.int 4]⟩) false⟩] }
    let plan : Plan := {
      source := some (.table "users")
      joins := [⟨.inner, .subquery logins "l", [⟨.and, .compare "l.kind" .eq (.value (.int 7))⟩]⟩]
      filters := [⟨.and, .isIn "age" [.int 5, .int 6] false⟩] }
    let row : Row := .ofList [("name", .value (.text "Ada"))]
    ((config.compiler.update plan row).toOption.map fun sql => sql.bindings.purposes) =
        some [.updateJoin, .update, .where] ∧
      Ensures (config.compiler.update plan row) Sql.HasBlocks := by
  intro config logins plan row
  exact ⟨by decide +kernel, (buckets_are_faithful config plan).2.2.1 row⟩

end Config

end QueryCompiler
