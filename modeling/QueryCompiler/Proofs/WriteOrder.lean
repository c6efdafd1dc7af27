import QueryCompiler.Proofs.DeleteRows
import QueryCompiler.Proofs.Unions
import QueryCompiler.Proofs.UpdateRows

/-! # Orders and pages of writes

What an UPDATE or a DELETE can say is settled in two places. `Dialect.reach` looks at the joins of the
engine and at whether its writes can be ordered; the text is written by where the engine puts a limit. The
two agree on the page: a write that compiles has the limit and the offset of its plan
(`Compiler.writes_keep_order_and_page`). They do not agree on the order: a dialect may put limits at the
beginning and let writes be ordered, and then an ORDER BY is left out without a word
(`Compiler.delete_drops_order`). None of the four engines has such a dialect.
-/

namespace QueryCompiler
set_option autoImplicit false

/-! ## Stretches of a statement -/

/-- What does not make a number longer that it stands behind. -/
def Sql.EndsNumber (after : Sql) : Prop := ∀ c ∈ after.text.toList.head?, c.isDigit = false

/-- `part` stands in `whole`, and a number at its end ends there. -/
def Sql.Holds (whole part : Sql) : Prop :=
  ∃ before after : Sql, whole = before ++ part ++ after ∧ after.EndsNumber

namespace Sql

variable {whole part a b : Sql}

theorem endsNumber_empty : ({} : Sql).EndsNumber := by
  intro c hc
  cases hc

/-- A word and whatever follows it. -/
theorem endsNumber_word {word : String} (h : word.toList.head?.any (!·.isDigit) = true) (rest : Sql) :
    (ofText word ++ rest).EndsNumber := by
  intro c hc
  rw [text_append, text_ofText, String.toList_append, List.head?_append] at hc
  cases hfirst : word.toList.head? with
  | none =>
    rw [hfirst] at h
    cases h
  | some first =>
    rw [hfirst] at h hc
    obtain rfl := Option.some.inj hc
    simpa using h

theorem endsNumber_ofText {text : String} (h : text.toList.head?.any (!·.isDigit) = true) :
    (ofText text).EndsNumber := by
  rw [← append_empty (ofText text)]
  exact endsNumber_word h {}

theorem EndsNumber.append (ha : a.EndsNumber) (hb : b.EndsNumber) : (a ++ b).EndsNumber := by
  intro c hc
  rw [text_append, String.toList_append, List.head?_append] at hc
  cases hhead : a.text.toList.head? with
  | none =>
    rw [hhead] at hc
    exact hb c hc
  | some d =>
    rw [hhead] at hc
    exact ha c (hhead.trans hc)

theorem Holds.self (part : Sql) : part.Holds part := by
  refine ⟨{}, {}, ?_, endsNumber_empty⟩
  rw [append_empty, empty_append]

theorem Holds.append_left (h : whole.Holds part) (before : Sql) : (before ++ whole).Holds part := by
  obtain ⟨first, after, rfl, hafter⟩ := h
  exact ⟨before ++ first, after, by simp only [append_assoc], hafter⟩

theorem Holds.append_right (h : whole.Holds part) (hb : b.EndsNumber) : (whole ++ b).Holds part := by
  obtain ⟨before, after, rfl, hafter⟩ := h
  exact ⟨before, after ++ b, by simp only [append_assoc], hafter.append hb⟩

end Sql

/-! ## Pages -/

namespace Dialect

variable (dialect : Dialect)

/-- The words for a limit. -/
def limitWords (n : Nat) : List String :=
  if dialect.usesTop then ["TOP " ++ n.repr, "TOP (" ++ n.repr ++ ")"] else [" LIMIT " ++ n.repr]

/-- The limit and the offset of a page stand in a statement. -/
structure KeepsPage (page : Page) (sql : Sql) : Prop where
  limit (n : Nat) : page.limit = some n → ∃ text ∈ dialect.limitWords n, sql.Holds (.ofText text)
  offset (n : Nat) : page.offset = some n → sql.Holds (.ofText (" OFFSET " ++ n.repr))

variable {dialect} {page : Page} {sql : Sql}

theorem KeepsPage.append_left (h : dialect.KeepsPage page sql) (before : Sql) :
    dialect.KeepsPage page (before ++ sql) where
  limit n hn := by
    obtain ⟨text, htext, hholds⟩ := h.limit n hn
    exact ⟨text, htext, hholds.append_left before⟩
  offset n hn := (h.offset n hn).append_left before

theorem KeepsPage.append_right (h : dialect.KeepsPage page sql) {after : Sql}
    (hafter : after.EndsNumber) : dialect.KeepsPage page (sql ++ after) where
  limit n hn := by
    obtain ⟨text, htext, hholds⟩ := h.limit n hn
    exact ⟨text, htext, hholds.append_right hafter⟩
  offset n hn := (h.offset n hn).append_right hafter

variable (dialect)

theorem endsNumber_offsetText (offset : Option Nat) : (Sql.ofText (offsetText offset)).EndsNumber := by
  cases offset with
  | none => exact Sql.endsNumber_empty
  | some n =>
    exact Sql.endsNumber_ofText (by simp [offsetText])

theorem endsNumber_limitText (page : Page) : (Sql.ofText (dialect.limitText page)).EndsNumber := by
  have hword : ∀ text : String, (Sql.ofText (" LIMIT " ++ text)).EndsNumber := by
    intro text
    exact Sql.endsNumber_ofText (by simp)
  unfold limitText
  split
  · exact hword _
  · split
    · exact hword _
    · exact Sql.endsNumber_empty
  · exact Sql.endsNumber_empty

theorem endsNumber_pageText (ordered : Bool) (page : Page) :
    (Sql.ofText (dialect.pageText ordered page)).EndsNumber := by
  unfold pageText
  split
  · rw [limitOffsetText, Sql.ofText_append]
    exact (dialect.endsNumber_limitText page).append (endsNumber_offsetText page.offset)
  · split
    · apply Sql.endsNumber_ofText
      cases ordered <;> simp [noOrderText]
    · exact Sql.endsNumber_empty

/-- A limit in front, as a word of its own. -/
theorem exists_limitWord_of_top (htop : dialect.usesTop = true) (n : Nat) :
    ∃ text ∈ dialect.limitWords n, dialect.topText (some n) = text ++ " " := by
  have hpagination : dialect.pagination = .top := by simpa [usesTop] using htop
  refine ⟨"TOP " ++ n.repr, ?_, ?_⟩
  · simp [limitWords, htop]
  · simp [topText, hpagination]

theorem exists_limitWord_of_writeTop (htop : dialect.usesTop = true) (n : Nat) :
    ∃ text ∈ dialect.limitWords n, dialect.writeTopText (some n) = text ++ " " := by
  have hpagination : dialect.pagination = .top := by simpa [usesTop] using htop
  refine ⟨"TOP (" ++ n.repr ++ ")", ?_, ?_⟩
  · simp [limitWords, htop]
  · simp [writeTopText, hpagination, String.append_assoc]

theorem pagination_of_not_top (htop : dialect.usesTop = false) : dialect.pagination = .limitOffset := by
  cases hpagination : dialect.pagination with
  | limitOffset => rfl
  | top => simp [usesTop, hpagination] at htop

theorem limitText_of_limit {page : Page} {n : Nat} (h : page.limit = some n) :
    dialect.limitText page = " LIMIT " ++ n.repr := by
  simp [limitText, h]

theorem pageText_holds_limit (htop : dialect.usesTop = false) (ordered : Bool) {page : Page} {n : Nat}
    (h : page.limit = some n) :
    (Sql.ofText (dialect.pageText ordered page)).Holds (.ofText (" LIMIT " ++ n.repr)) := by
  have htext : dialect.pageText ordered page = " LIMIT " ++ n.repr ++ offsetText page.offset := by
    simp only [pageText, dialect.pagination_of_not_top htop, limitOffsetText, dialect.limitText_of_limit h]
  rw [htext, Sql.ofText_append]
  exact (Sql.Holds.self _).append_right (endsNumber_offsetText page.offset)

theorem pageText_holds_offset (ordered : Bool) {page : Page} {n : Nat} (h : page.offset = some n) :
    (Sql.ofText (dialect.pageText ordered page)).Holds (.ofText (" OFFSET " ++ n.repr)) := by
  cases hpagination : dialect.pagination with
  | limitOffset =>
    have htext : dialect.pageText ordered page = dialect.limitText page ++ (" OFFSET " ++ n.repr) := by
      simp only [pageText, hpagination, limitOffsetText, offsetText, h]
    rw [htext, Sql.ofText_append]
    exact (Sql.Holds.self _).append_left _
  | top =>
    have htext : dialect.pageText ordered page =
        noOrderText ordered ++ (" OFFSET " ++ n.repr) ++ " ROWS" := by
      simp only [pageText, hpagination, h, String.append_assoc]
    have hrows : (Sql.ofText " ROWS").EndsNumber := Sql.endsNumber_ofText (by decide)
    rw [htext, Sql.ofText_append, Sql.ofText_append]
    exact ((Sql.Holds.self _).append_left _).append_right hrows

/-- A write that reaches its rows directly has its limit at the beginning or at the end. -/
theorem keepsPage_of_direct {page : Page} (hoffset : page.offset = none) (start middle : Sql) :
    dialect.KeepsPage page (start ++ .ofText (dialect.writeTopText page.limit) ++ middle ++
      .ofText (dialect.writeLimitText page.limit)) where
  limit n hn := by
    cases htop : dialect.usesTop with
    | true =>
      obtain ⟨text, hmem, htext⟩ := dialect.exists_limitWord_of_writeTop htop n
      refine ⟨text, hmem, start, .ofText " " ++ (middle ++ .ofText (dialect.writeLimitText page.limit)),
        ?_, Sql.endsNumber_word (by decide) _⟩
      rw [hn, htext, Sql.ofText_append]
      simp only [Sql.append_assoc]
    | false =>
      have hlimit : dialect.writeLimitText page.limit = " LIMIT " ++ n.repr := by
        rw [writeLimitText, htop, hn]
        rfl
      refine ⟨" LIMIT " ++ n.repr, by simp [limitWords, htop], ?_⟩
      rw [hlimit]
      exact (Sql.Holds.self _).append_left _
  offset n hn := by
    rw [hoffset] at hn
    cases hn

/-- A query has its page. -/
theorem keepsPage_query (items : String) (ordered : Bool) (page : Page) (clauses : Clauses) :
    dialect.KeepsPage page (clauses.query dialect items ordered page) where
  limit n hn := by
    cases htop : dialect.usesTop with
    | true =>
      obtain ⟨text, hmem, htext⟩ := dialect.exists_limitWord_of_top htop n
      refine ⟨text, hmem, .ofText "SELECT ", .ofText " " ++ (items ++ " FROM " ++ clauses.source ++
        clauses.filter ++ clauses.order ++ dialect.pageText ordered page), ?_,
        Sql.endsNumber_word (by decide) _⟩
      rw [Clauses.query, hn, htext, Sql.ofText_append]
      simp only [Sql.append_assoc]
    | false =>
      refine ⟨" LIMIT " ++ n.repr, by simp [limitWords, htop], ?_⟩
      exact (dialect.pageText_holds_limit htop ordered hn).append_left _
  offset n hn := (dialect.pageText_holds_offset ordered hn).append_left _

/-! ## Orders -/

/-- Whether a write with an order can do without an identifier of rows. With `always`, one is used
wherever the engine has one. -/
def ordersDirectly (always : Bool) : Bool :=
  match dialect.joinStrategy with
  | .native => dialect.ordersWrites
  | .rowId _ => dialect.ordersWrites && !always
  | .updateFrom => false

/-- Whether a write is written without the order of its plan: limits stand at the beginning, and the order
is let through. -/
def dropsOrder (plan : Plan) (always : Bool) : Bool :=
  dialect.usesTop && dialect.ordersDirectly always && !plan.orders.isEmpty && !plan.hasJoins &&
    plan.page.offset.isNone

variable {dialect} {plan : Plan} {always : Bool}

theorem orders_eq_nil_of_kept (hkept : dialect.dropsOrder plan always = false)
    (htop : dialect.usesTop = true) (hoffset : plan.page.offset = none)
    (hdirect : plan.orders ≠ [] → plan.hasJoins = false ∧ dialect.ordersDirectly always = true) :
    plan.orders = [] := by
  by_contra horders
  obtain ⟨hjoins, hordered⟩ := hdirect horders
  simp [dropsOrder, htop, horders, hoffset, hjoins, hordered] at hkept

/-- A write goes through an identifier of rows or reaches them directly. In the second case there is no
offset, and where limits stand at the beginning an order that is kept is empty. -/
theorem reach_cases {operation : Operation} {reached : Reach}
    (h : dialect.reach plan operation always = .ok reached)
    (hkept : dialect.dropsOrder plan always = false) :
    (∃ column, reached = .rowId column) ∨
      (reached = plan.directReach ∧ plan.page.offset = none ∧
        (dialect.usesTop = true → plan.orders = [])) := by
  have hrestricts : plan.orders ≠ [] → plan.ordersOrLimits = true := by
    intro horders
    simp [Plan.ordersOrLimits, horders]
  unfold reach at h
  cases hstrategy : dialect.joinStrategy with
  | native =>
    simp only [hstrategy] at h
    split at h
    · cases h
    · next hoffset =>
      split at h
      · cases h
      · next hjoins =>
        split at h
        · cases h
        · next hwrites =>
          cases h
          have hnone : plan.page.offset = none := by simpa using hoffset
          refine .inr ⟨rfl, hnone, fun htop => ?_⟩
          refine orders_eq_nil_of_kept hkept htop hnone fun horders => ?_
          rw [hrestricts horders, Bool.and_true, Bool.not_eq_true] at hjoins
          rw [hrestricts horders, Bool.true_and, Bool.not_eq_true, Bool.not_eq_false'] at hwrites
          rw [ordersDirectly, hstrategy]
          exact ⟨hjoins, hwrites⟩
  | rowId column =>
    simp only [hstrategy] at h
    split at h
    · cases h
      exact .inl ⟨column, rfl⟩
    · next hrowId =>
      cases h
      simp only [Bool.or_eq_true, not_or, Bool.not_eq_true, Option.isSome_eq_false_iff,
        Option.isNone_iff_eq_none] at hrowId
      obtain ⟨⟨⟨halways, hjoins⟩, hnone⟩, hwrites⟩ := hrowId
      have hsingle : plan.directReach = .single := by
        rw [Plan.directReach, hjoins]
        rfl
      refine .inr ⟨hsingle.symm, hnone, fun htop => ?_⟩
      refine orders_eq_nil_of_kept hkept htop hnone fun horders => ?_
      rw [hrestricts horders, Bool.true_and, Bool.not_eq_false'] at hwrites
      rw [ordersDirectly, hstrategy, hwrites, halways]
      exact ⟨hjoins, rfl⟩
  | updateFrom =>
    simp only [hstrategy] at h
    split at h
    · cases h
    · next hoffset =>
      split at h
      · cases h
      · next horders =>
        cases h
        exact .inr ⟨rfl, by simpa using hoffset, fun _ => by simpa using horders⟩

theorem usesTop_of_dropsOrder (h : dialect.dropsOrder plan always = true) : dialect.usesTop = true := by
  simp only [dropsOrder, Bool.and_eq_true] at h
  exact h.1.1.1.1

/-- Where an order is dropped, it does not matter to the reach. -/
theorem reach_of_dropsOrder (h : dialect.dropsOrder plan always = true) (operation : Operation)
    (orders : List OrderTerm) :
    dialect.reach { plan with orders := orders } operation always = .ok .single := by
  simp only [dropsOrder, Bool.and_eq_true, Bool.not_eq_true', Option.isNone_iff_eq_none] at h
  obtain ⟨⟨⟨⟨-, hdirectly⟩, -⟩, hjoins⟩, hnone⟩ := h
  have hjoins' : Plan.hasJoins { plan with orders := orders } = false := hjoins
  unfold reach
  unfold ordersDirectly at hdirectly
  cases hstrategy : dialect.joinStrategy with
  | native =>
    rw [hstrategy] at hdirectly
    simp [hjoins', hnone, hdirectly, Plan.directReach]
  | rowId column =>
    simp only [hstrategy, Bool.and_eq_true, Bool.not_eq_true'] at hdirectly
    simp [hjoins', hnone, hdirectly.1, hdirectly.2]
  | updateFrom =>
    rw [hstrategy] at hdirectly
    cases hdirectly

end Dialect

theorem Engine.dropsOrder_eq_false (engine : Engine) (plan : Plan) (always : Bool) :
    engine.dialect.dropsOrder plan always = false := by
  cases engine <;> rfl

namespace Compiler

variable (c : Compiler) {plan : Plan} {table : TableName}

/-- The ORDER BY of a plan, as it is written in a SELECT, stands in a statement with its bindings. -/
def KeepsOrder (plan : Plan) (sql : Sql) : Prop :=
  plan.orders ≠ [] → ∃ keys : Sql,
    c.select { orders := plan.orders } = .ok ("SELECT * ORDER BY " ++ keys) ∧
      keys.bindings = (plan.orders.flatMap OrderTerm.values).map (⟨·, .order⟩) ∧
      sql.Holds (" ORDER BY " ++ keys)

/-- The order and the page of a plan stand in a statement. -/
structure Keeps (plan : Plan) (sql : Sql) : Prop where
  order : c.KeepsOrder plan sql
  page : c.dialect.KeepsPage plan.page sql

variable {c}

theorem KeepsOrder.append_left {sql : Sql} (h : c.KeepsOrder plan sql) (before : Sql) :
    c.KeepsOrder plan (before ++ sql) := by
  intro horders
  obtain ⟨keys, hselect, hbindings, hholds⟩ := h horders
  exact ⟨keys, hselect, hbindings, hholds.append_left before⟩

theorem KeepsOrder.append_right {sql after : Sql} (h : c.KeepsOrder plan sql)
    (hafter : after.EndsNumber) : c.KeepsOrder plan (sql ++ after) := by
  intro horders
  obtain ⟨keys, hselect, hbindings, hholds⟩ := h horders
  exact ⟨keys, hselect, hbindings, hholds.append_right hafter⟩

variable (c)

theorem clauses_keepsOrder :
    Ensures (c.clauses {} plan table) fun clauses => c.KeepsOrder plan clauses.order := by
  refine .bind_any fun joins _ => .bind_any fun filter _ => .bind_any fun orderBy horderBy => ?_
  refine .bind_any fun source _ => .bind_any fun where_ _ => .bind_any fun order horder => .ok ?_
  intro horders
  have hselect : c.select { orders := plan.orders } = .ok ("SELECT *" ++ order) := by
    rw [Compiler.select_eq_compile, Renderer.compile_orders, horderBy, ok_bind, horder]
    rfl
  have hbindings := OrderTerm.bindings_renderClause c.renderer _ plan.orders orderBy horderBy order horder
  have hsome := SortKey.ofTerms_isSome c.tablePrefix plan.orders orderBy horderBy
  cases orderBy with
  | none => exact absurd hsome (by simpa using horders)
  | some keys =>
    rw [SortKey.renderClause] at horder
    obtain ⟨sqls, -, rfl⟩ := bind_pure_eq_ok_iff.1 horder
    exact ⟨Sql.join ", " sqls, hselect, hbindings, .self _⟩

theorem clauses_updating_keepsOrder :
    Ensures (c.clauses { updating := true } plan table) fun clauses =>
      c.KeepsOrder plan clauses.order := by
  rw [c.clauses_updating]
  refine .bind_any fun clauses hclauses => .ok ?_
  have horder : clauses.inUpdate.order = clauses.order := (c.clauses_inUpdate_eq clauses hclauses).2
  rw [horder]
  exact c.clauses_keepsOrder clauses hclauses

/-! ## Writes -/

theorem keeps_of_direct {order : Sql} (horder : c.KeepsOrder plan order)
    (hoffset : plan.page.offset = none) (start middle : Sql) :
    c.Keeps plan (start ++ .ofText (c.dialect.writeTopText plan.page.limit) ++ middle ++ order ++
      .ofText (c.dialect.writeLimitText plan.page.limit)) where
  order := by
    have hlimit : (Sql.ofText (c.dialect.writeLimitText plan.page.limit)).EndsNumber := by
      unfold Dialect.writeLimitText
      split
      · exact Sql.endsNumber_empty
      · exact c.dialect.endsNumber_limitText _
    exact (horder.append_left _).append_right hlimit
  page := by
    have hpage := c.dialect.keepsPage_of_direct hoffset start (middle ++ order)
    rwa [← Sql.append_assoc] at hpage

theorem keeps_of_rowId {clauses : Clauses} (horder : c.KeepsOrder plan clauses.order) (before : Sql)
    (items : String) (ordered : Bool) :
    c.Keeps plan (before ++ clauses.query c.dialect items ordered plan.page ++ ")") where
  order := by
    have hquery : c.KeepsOrder plan (clauses.query c.dialect items ordered plan.page) :=
      (horder.append_left _).append_right (c.dialect.endsNumber_pageText ordered plan.page)
    exact (hquery.append_left before).append_right (Sql.endsNumber_ofText (by decide))
  page := by
    have hquery := c.dialect.keepsPage_query items ordered plan.page clauses
    exact (hquery.append_left before).append_right (Sql.endsNumber_ofText (by decide))

theorem delete_keeps (hkept : c.dialect.dropsOrder plan c.dialect.deletesByRowId = false) :
    Ensures (c.delete plan) (c.Keeps plan) := by
  intro sql hsql
  obtain ⟨fragment, table, reach, hsource, htable, hreach⟩ := c.delete_reached plan sql hsql
  rcases Dialect.reach_cases hreach hkept with ⟨column, rfl⟩ | ⟨rfl, hoffset, htop⟩
  · rw [c.delete_by_rowId hsource htable hreach] at hsql
    obtain ⟨clauses, hclauses, rfl⟩ := bind_pure_eq_ok_iff.1 hsql
    exact c.keeps_of_rowId (c.clauses_keepsOrder clauses hclauses) _ _ _
  · rw [c.delete_directly hsource htable hreach plan.directReach_ne_rowId htop] at hsql
    obtain ⟨clauses, hclauses, rfl⟩ := bind_pure_eq_ok_iff.1 hsql
    generalize c.dialect.deleteTargetText _ = target
    have hkeeps := c.keeps_of_direct (c.clauses_keepsOrder clauses hclauses) hoffset "DELETE "
      (target ++ "FROM " ++ clauses.source ++ clauses.filter)
    simpa only [Sql.append_assoc] using hkeeps

theorem update_keeps (hkept : c.dialect.dropsOrder plan false = false) (row : Row) :
    Ensures (c.update plan row) (c.Keeps plan) := by
  intro sql hsql
  obtain ⟨fragment, table, reach, hsource, htable, hreach⟩ := c.update_reached plan row sql hsql
  rcases Dialect.reach_cases hreach hkept with ⟨column, rfl⟩ | ⟨rfl, hoffset, htop⟩
  · obtain ⟨set, clauses, -, hclauses, rfl⟩ := c.update_by_rowId hsource htable hreach row sql hsql
    exact c.keeps_of_rowId (c.clauses_updating_keepsOrder clauses hclauses) _ _ _
  · obtain ⟨set, clauses, -, hclauses, rfl⟩ := c.update_directly hsource htable hreach
      plan.directReach_ne_rowId plan.directReach_joined htop row sql hsql
    have horder := c.clauses_updating_keepsOrder clauses hclauses
    unfold Clauses.update
    split
    · have hkeeps := c.keeps_of_direct horder hoffset "UPDATE " (c.dialect.quote table.referenceName ++
        " SET " ++ set ++ " FROM " ++ clauses.source ++ clauses.filter)
      simpa only [Sql.append_assoc] using hkeeps
    · have hkeeps := c.keeps_of_direct horder hoffset "UPDATE " (clauses.source ++ " SET " ++ set ++
        clauses.filter)
      simpa only [Sql.append_assoc] using hkeeps

theorem renderWriteTail_of_top {r : Renderer} (htop : r.dialect.usesTop = true) (context : Context)
    (orderBy : Option (List SortKey)) (limit : Option Nat) :
    renderWriteTail r context orderBy limit = .ok {} := if_pos htop

/-- A DELETE that drops the order is the one of the plan without it. -/
theorem delete_drops (hdrops : c.dialect.dropsOrder plan c.dialect.deletesByRowId = true) :
    Ensures (c.delete plan) fun sql => c.delete { plan with orders := [] } = .ok sql := by
  have htop : c.renderer.dialect.usesTop = true := Dialect.usesTop_of_dropsOrder hdrops
  have hreach := Dialect.reach_of_dropsOrder hdrops .orderedDeleteWithJoins
  have hreached : c.dialect.reach plan .orderedDeleteWithJoins c.dialect.deletesByRowId = .ok .single :=
    hreach plan.orders
  have htarget : Plan.target { plan with orders := [] } c.tablePrefix "DELETE" =
    plan.target c.tablePrefix "DELETE" := rfl
  have hfrom : TableExpr.ofPlan c.tablePrefix { plan with orders := [] } =
    TableExpr.ofPlan c.tablePrefix plan := rfl
  have hnone : SortKey.ofTerms c.tablePrefix [] = .ok none := rfl
  unfold Compiler.delete Delete.ofPlan
  simp only [hreached, hreach [], htarget, hfrom, hnone, ok_bind, bind_assoc, pure_bind]
  refine .bind_any fun table htable => .bind_any fun source hsource => ?_
  refine .bind_any fun filter hfilter => .bind_any fun orderBy _ sql hsql => ?_
  simp only [htable, hsource, hfilter, ok_bind]
  rw [← hsql]
  simp only [Compiler.render_eq, Statement.render, Delete.render, renderWriteTail_of_top htop]

/-- An UPDATE that drops the order is the one of the plan without it. -/
theorem update_drops (hdrops : c.dialect.dropsOrder plan false = true) (row : Row) :
    Ensures (c.update plan row) fun sql => c.update { plan with orders := [] } row = .ok sql := by
  have htop : c.renderer.dialect.usesTop = true := Dialect.usesTop_of_dropsOrder hdrops
  have hreach := Dialect.reach_of_dropsOrder hdrops .orderedUpdateWithJoins
  have hreached : c.dialect.reach plan .orderedUpdateWithJoins false = .ok .single := hreach plan.orders
  have htarget : Plan.target { plan with orders := [] } c.tablePrefix "UPDATE" =
    plan.target c.tablePrefix "UPDATE" := rfl
  have htables : Update.tables c.dialect.joinStrategy c.tablePrefix { plan with orders := [] } =
    Update.tables c.dialect.joinStrategy c.tablePrefix plan := rfl
  have hnone : SortKey.ofTerms c.tablePrefix [] = .ok none := rfl
  by_cases hrow : row.isEmpty = true
  · have herror : c.update plan row = .error (.construction .emptyUpdate) := by
      rw [Compiler.update, Update.ofPlan, if_pos hrow]
      rfl
    rw [herror]
    exact .error
  · unfold Compiler.update Update.ofPlan
    simp only [if_neg hrow, hreached, hreach [], htarget, htables, hnone, ok_bind, bind_assoc, pure_bind]
    refine .bind_any fun table htable => .bind_any fun assignments hassignments => ?_
    refine .bind_any fun filter hfilter => .bind_any fun orderBy _ => ?_
    refine .bind_any fun tables htables sql hsql => ?_
    simp only [htable, hassignments, hfilter, htables, ok_bind]
    rw [← hsql]
    simp only [Compiler.render_eq, Statement.render, Update.render, renderWriteTail_of_top htop]

/-- An UPDATE or a DELETE that compiles has the order of its plan with its bindings, directly or in the
sub-query that selects the rows, and it has the limit and the offset. The one exception is a dialect that
puts limits at the beginning of a write and yet lets its order through: it writes what it would for the
plan without an order. No engine has such a dialect. -/
theorem writes_keep_order_and_page (plan : Plan) :
    (Ensures (c.delete plan) fun sql =>
      if c.dialect.dropsOrder plan c.dialect.deletesByRowId then
        c.delete { plan with orders := [] } = .ok sql ∧ c.dialect.KeepsPage plan.page sql
      else c.Keeps plan sql) ∧
    (∀ row, Ensures (c.update plan row) fun sql =>
      if c.dialect.dropsOrder plan false then
        c.update { plan with orders := [] } row = .ok sql ∧ c.dialect.KeepsPage plan.page sql
      else c.Keeps plan sql) ∧
    ∀ (engine : Engine) (always : Bool), engine.dialect.dropsOrder plan always = false := by
  have hunordered : ∀ always, c.dialect.dropsOrder { plan with orders := [] } always = false := by
    intro always
    simp [Dialect.dropsOrder]
  refine ⟨?_, ?_, fun engine always => engine.dropsOrder_eq_false plan always⟩
  · intro sql hsql
    split
    · next hdrops =>
      have hsame := c.delete_drops hdrops sql hsql
      exact ⟨hsame, (c.delete_keeps (hunordered _) sql hsame).page⟩
    · next hkept => exact c.delete_keeps (Bool.eq_false_iff.2 hkept) sql hsql
  · intro row sql hsql
    split
    · next hdrops =>
      have hsame := c.update_drops hdrops row sql hsql
      exact ⟨hsame, (c.update_keeps (hunordered _) row sql hsame).page⟩
    · next hkept => exact c.update_keeps (Bool.eq_false_iff.2 hkept) row sql hsql

/-- Limits at the beginning and writes through an identifier of rows. -/
theorem writes_keep_order_and_page_rowId :
    let plan : Plan := {
      source := some (.table "users")
      orders := [.raw ⟨"field(id, ?)", [.int 3]⟩]
      page := ⟨some 2, some 4⟩ }
    let sql : Sql := ⟨"DELETE FROM \"users\" WHERE \"users\".\"rowid\" IN (" ++
      "SELECT TOP 2 \"users\".\"rowid\" FROM \"users\" ORDER BY field(id, ?) OFFSET 4 ROWS)",
      [⟨.int 3, .order⟩]⟩
    Compiler.delete ⟨{ Dialect.sqlite with pagination := .top }, ""⟩ plan = .ok sql ∧
      Compiler.Keeps ⟨{ Dialect.sqlite with pagination := .top }, ""⟩ plan sql := by
  intro plan sql
  have hsql : Compiler.delete ⟨{ Dialect.sqlite with pagination := .top }, ""⟩ plan = .ok sql := by
    decide +kernel
  exact ⟨hsql, (writes_keep_order_and_page _ plan).1 sql hsql⟩

/-- An order of a DELETE, with its binding, that is left out. -/
theorem delete_drops_order :
    let plan : Plan := {
      source := some (.table "users")
      orders := [.raw ⟨"field(id, ?)", [.int 3]⟩]
      page := ⟨some 2, none⟩ }
    Compiler.delete ⟨{ Dialect.mysql with pagination := .top }, ""⟩ plan =
        .ok ⟨"DELETE TOP (2) FROM `users`", []⟩ ∧
      ¬Compiler.KeepsOrder ⟨{ Dialect.mysql with pagination := .top }, ""⟩ plan
        ⟨"DELETE TOP (2) FROM `users`", []⟩ := by
  intro plan
  refine ⟨by decide +kernel, fun hkeeps => ?_⟩
  obtain ⟨keys, -, hbindings, before, after, hsql, -⟩ := hkeeps (List.cons_ne_nil _ _)
  have hnone := congrArg Sql.bindings hsql
  simp [hbindings, plan, OrderTerm.values] at hnone

end Compiler

end QueryCompiler
