import QueryCompiler.Compiler

/-! # Visits write what is rendered

A visit carries the bindings along, while the rendering of a tree gives its text and its bindings in
one. Both agree: from any bindings, a visit of a tree gives the text of its rendering, and appends its
bindings (`Expr.visit_writes`, `Query.visit_writes`, `Statement.visit_writes`).

A rendering knows nothing of left-hand sides of assignments, so the two agree at all other places.
That is enough for whole statements: a visit that starts at another place never hands down the place
of a left-hand side. The columns of a SET list stand at such places, and are written there and then.

What is proved about renderings holds of the compiler, by `Compiler.render_eq`,
`Compiler.select_eq_compile` and `Compiler.compileWithin_succ`.
-/

namespace QueryCompiler
set_option autoImplicit false

open Dialect (joinTexts)

/-! ## Text and bindings of joined stretches -/

namespace Sql

theorem text_join (separator : String) (sqls : List Sql) :
    (join separator sqls).text = joinTexts separator (sqls.map text) := by
  induction sqls with
  | nil => rfl
  | cons sql rest ih =>
    cases rest with
    | nil => rfl
    | cons next rest =>
      show sql.text ++ separator ++ (join separator (next :: rest)).text = _
      rw [ih]
      rfl

@[simp] theorem bindings_join (separator : String) (sqls : List Sql) :
    (join separator sqls).bindings = sqls.flatMap bindings := by
  induction sqls with
  | nil => rfl
  | cons sql rest ih =>
    cases rest with
    | nil => exact (List.append_nil _).symm
    | cons next rest =>
      show sql.bindings ++ [] ++ (join separator (next :: rest)).bindings = _
      rw [ih, List.append_nil]
      rfl

@[simp] theorem bindings_mapText (f : String → String) (sql : Sql) :
    (sql.mapText f).bindings = sql.bindings := rfl

theorem text_parensIf (needed : Bool) (sql : Sql) :
    (sql.parensIf needed).text = parensTextIf needed sql.text := by
  cases needed <;> rfl

@[simp] theorem bindings_parens (sql : Sql) : sql.parens.bindings = sql.bindings := by
  show [] ++ sql.bindings ++ [] = sql.bindings
  rw [List.nil_append, List.append_nil]

@[simp] theorem bindings_parensIf (needed : Bool) (sql : Sql) :
    (sql.parensIf needed).bindings = sql.bindings := by
  cases needed with
  | true => exact sql.bindings_parens
  | false => rfl

end Sql

theorem Dialect.wrapBranchText_eq (dialect : Dialect) (sql : Sql) :
    dialect.wrapBranchText sql.text = (dialect.wrapBranch sql).text := by
  unfold Dialect.wrapBranch Dialect.wrapBranchText
  split <;> rfl

@[simp] theorem Dialect.bindings_wrapBranch (dialect : Dialect) (sql : Sql) :
    (dialect.wrapBranch sql).bindings = sql.bindings := by
  unfold Dialect.wrapBranch
  split
  · simp
  · exact sql.bindings_parens

/-! ## Visits and renderings -/

namespace Visit

/-- From the bindings `now`, the visit ends as the computation does. Of its result the visit gives the
text, and it leaves the bindings behind those that were there `before`. -/
def Follows {α β : Type} (text : β → α) (bindings : β → Bindings) (before now : Bindings)
    (visit : Visit α) (x : Except Error β) : Prop :=
  visit now = x.map fun result => (text result, before ++ bindings result)

/-- From any bindings, the visit gives the text of the SQL and appends its bindings. -/
def Writes (visit : Visit String) (x : Except Error Sql) : Prop :=
  ∀ before, Follows Sql.text Sql.bindings before before visit x

/-- From any bindings, the visit gives the texts of the SQL and appends all of its bindings. -/
def WritesList (visit : Visit (List String)) (x : Except Error (List Sql)) : Prop :=
  ∀ before, Follows (List.map Sql.text) (List.flatMap Sql.bindings) before before visit x

variable {α β γ δ : Type} {text : β → α} {bindings : β → Bindings} {text' : δ → γ}
  {bindings' : δ → Bindings} {before now : Bindings}

/-- What is done behind a visit starts with the bindings that it left. -/
theorem Follows.step {visit : Visit α} {x : Except Error β} {next : α → Visit γ}
    {f : β → Except Error δ} (hvisit : ∀ before, Follows text bindings before before visit x)
    (hnext : ∀ result,
      Follows text' bindings' before (now ++ bindings result) (next (text result)) (f result)) :
    Follows text' bindings' before now (visit >>= next) (x >>= f) := by
  have hfirst : (visit >>= next) now = (visit now >>= fun result => next result.1 result.2) := rfl
  unfold Follows
  rw [hfirst, hvisit now]
  cases x with
  | error e => rfl
  | ok result => exact hnext result

/-- A computation that has nothing to do with bindings. -/
theorem Follows.lift {x : Except Error α} {next : α → Visit γ} {f : α → Except Error δ}
    (hnext : ∀ result, Follows text' bindings' before now (next result) (f result)) :
    Follows text' bindings' before now ((liftM x : Visit α) >>= next) (x >>= f) := by
  cases x with
  | error e => rfl
  | ok result => exact hnext result

theorem Follows.done {a : α} {b : β} (htext : a = text b) (hbindings : now = before ++ bindings b) :
    Follows text bindings before now (pure a) (.ok b) := by
  subst htext
  subst hbindings
  rfl

theorem Follows.throw (e : Error) : Follows text bindings before now (throw e) (.error e) := rfl

theorem Writes.sql_eq {visit : Visit String} {x : Except Error Sql} (h : Writes visit x) :
    visit.sql = x := by
  have hrun : visit.run [] = x.map fun sql => (sql.text, [] ++ sql.bindings) := h []
  unfold sql
  rw [hrun]
  cases x <;> rfl

/-! ### Texts and bindings -/

theorem pure_writes (text : String) : Writes (pure text) (.ok (.ofText text)) :=
  fun before => .done rfl (List.append_nil before).symm

theorem nil_writes : WritesList (pure []) (.ok []) :=
  fun before => .done rfl (List.append_nil before).symm

theorem bound_writes (r : Renderer) (value : Value) (purpose : Purpose) :
    Writes (bound r value purpose) (.ok (.bound r.dialect.placeholder value purpose)) :=
  fun _ => rfl

theorem text_writes (x : Except Error String) :
    Writes (liftM x) (x >>= fun text => .ok (.ofText text)) := by
  cases x with
  | error e => exact fun before => rfl
  | ok text => exact pure_writes text

/-- What is done behind values that are appended one by one. -/
theorem forM_push {α : Type} (purpose : Purpose) (values : List Value) (next : PUnit → Visit α)
    (before : Bindings) :
    ((values.forM fun value => modify (·.push value purpose)) >>= next) before =
      next ⟨⟩ (before ++ values.map (⟨·, purpose⟩)) := by
  induction values generalizing before with
  | nil =>
    rw [List.map_nil, List.append_nil]
    rfl
  | cons value values ih =>
    have hvalue := ih (before.push value purpose)
    rw [Bindings.push, List.append_assoc] at hvalue
    exact hvalue

theorem raw_writes (place : Place) (raw : Raw) :
    Writes (Visit.raw place raw) (.ok (.ofRaw raw place.clausePurpose)) :=
  fun before => forM_push place.clausePurpose raw.values _ before

theorem plan_writes (r : Renderer) (place : Place) (inner : Plan) :
    Writes (Visit.plan r place inner)
      (r.nested inner >>= fun sql => .ok (sql.retag place.clausePurpose)) :=
  fun _ => .lift fun _ => rfl

theorem WritesList.mapM {ι : Type} {f : ι → Visit String} {g : ι → Except Error Sql}
    (h : ∀ i, Writes (f i) (g i)) (is : List ι) : WritesList (is.mapM f) (is.mapM g) := by
  induction is with
  | nil => exact nil_writes
  | cons i is ih =>
    intro before
    rw [List.mapM_cons, List.mapM_cons]
    refine .step (h i) fun sql => .step ih fun sqls => .done rfl ?_
    rw [List.flatMap_cons, List.append_assoc]

end Visit

/-! ## Trees -/

open Visit (Writes WritesList)

/-- A column that is not assigned to is written with all of its names. -/
theorem Place.columnText_eq {place : Place} (hplace : place.assigning = false) (dialect : Dialect)
    (column : Path) : place.columnText dialect column = dialect.quotePath column := by
  unfold columnText
  rw [hplace]
  cases place.update <;> rfl

section Trees

variable (r : Renderer)

mutual

theorem Expr.visit_writes {place : Place} (hplace : place.assigning = false) : ∀ expr : Expr,
    Writes (expr.visit r place) (expr.render r place.context)
  | .path path => by
    rw [Expr.visit, Expr.render, place.columnText_eq hplace]
    exact Visit.pure_writes _
  | .json column steps => by
    rw [Expr.visit, Expr.render]
    exact Visit.pure_writes _
  | .bound value purpose => by
    rw [Expr.visit, Expr.render]
    exact Visit.bound_writes r value _
  | .raw raw => by
    rw [Expr.visit, Expr.render]
    exact Visit.raw_writes place raw
  | .nested source => by
    rw [Expr.visit, Expr.render]
    exact fun before => .step (Nested.visit_writes hplace source) fun _ => .done rfl (by simp)
  | .call (.datePart part) [] => by
    rw [Expr.visit, Expr.render]
    · exact fun before => .throw _
    all_goals exact fun argument h => nomatch h
  | .call (.datePart part) [argument] => by
    rw [Expr.visit, Expr.render]
    exact fun before => .step (Expr.visit_writes hplace argument) fun _ => .done rfl (by simp)
  | .call (.datePart part) (first :: second :: rest) => by
    rw [Expr.visit, Expr.render]
    · exact fun before => .throw _
    all_goals exact fun argument h => nomatch h
  | .call .jsonLength arguments => by
    rw [Expr.visit, Expr.render]
    exact Visit.text_writes _
  | .aggregate function distinct arguments => by
    rw [Expr.visit, Expr.render]
    refine fun before => .step (Expr.visitList_writes hplace arguments) fun sqls => .done ?_ ?_
    · rw [List.isEmpty_map, ← Sql.text_join]
      cases sqls <;> rfl
    · cases sqls <;> simp
  | .compare left comparison right => by
    rw [Expr.visit, Expr.render]
    intro before
    refine .step (Expr.visit_writes hplace left) fun first => ?_
    exact .step (Expr.visit_writes hplace right) fun second => .done rfl (by simp)
  | .between operand low high negated => by
    rw [Expr.visit, Expr.render]
    intro before
    refine .step (Expr.visit_writes hplace operand) fun _ => ?_
    refine .step (Expr.visit_writes hplace low) fun _ => ?_
    exact .step (Expr.visit_writes hplace high) fun _ => .done rfl (by simp)
  | .inList operand values negated => by
    rw [Expr.visit, Expr.render]
    split
    · exact Visit.pure_writes _
    · intro before
      refine .step (Expr.visit_writes hplace operand) fun _ => ?_
      refine .step (Expr.visitList_writes hplace values) fun sqls => .done ?_ (by simp)
      rw [← Sql.text_join]
      rfl
  | .inNested operand source negated => by
    rw [Expr.visit, Expr.render]
    intro before
    refine .step (Expr.visit_writes hplace operand) fun _ => ?_
    exact .step (Nested.visit_writes hplace source) fun _ => .done rfl (by simp)
  | .isNull operand negated => by
    rw [Expr.visit, Expr.render]
    exact fun before => .step (Expr.visit_writes hplace operand) fun _ => .done rfl (by simp)
  | .existsIn source negated => by
    rw [Expr.visit, Expr.render]
    exact fun before => .step (Nested.visit_writes hplace source) fun _ => .done rfl (by simp)
  | .like operand pattern caseSensitive negated => by
    rw [Expr.visit, Expr.render]
    refine fun before => .lift fun word => ?_
    refine .step (Expr.visit_writes hplace operand) fun _ => ?_
    exact .step (Expr.visit_writes hplace pattern) fun _ => .done rfl (by simp)
  | .condition connective terms => by
    rw [Expr.visit, Expr.render]
    split
    · exact fun before => .throw _
    · intro before
      refine .step (Expr.visitTerms_writes hplace connective terms) fun sqls => .done ?_ (by simp)
      rw [← Sql.text_join]
  | .parenthesized inner => by
    rw [Expr.visit, Expr.render]
    exact fun before => .step (Expr.visit_writes hplace inner) fun _ => .done rfl (by simp)

theorem Expr.visitList_writes {place : Place} (hplace : place.assigning = false) :
    ∀ exprs : List Expr,
      WritesList (Expr.visitList r place exprs) (Expr.renderList r place.context exprs)
  | [] => by
    rw [Expr.visitList, Expr.renderList]
    exact Visit.nil_writes
  | expr :: exprs => by
    rw [Expr.visitList, Expr.renderList]
    intro before
    refine .step (Expr.visit_writes hplace expr) fun _ => ?_
    exact .step (Expr.visitList_writes hplace exprs) fun _ => .done rfl (by simp)

theorem Expr.visitTerms_writes {place : Place} (hplace : place.assigning = false)
    (connective : Connective) : ∀ terms : List Expr,
      WritesList (Expr.visitTerms r place connective terms)
        (Expr.renderTerms r place.context connective terms)
  | [] => by
    rw [Expr.visitTerms, Expr.renderTerms]
    exact Visit.nil_writes
  | term :: terms => by
    rw [Expr.visitTerms, Expr.renderTerms]
    intro before
    refine .step (Expr.visit_writes hplace term) fun sql => ?_
    refine .step (Expr.visitTerms_writes hplace connective terms) fun _ => .done ?_ (by simp)
    rw [List.map_cons, Sql.text_parensIf]

theorem Expr.visitClause_writes {place : Place} (hplace : place.assigning = false)
    (keyword : String) : ∀ expr? : Option Expr,
      Writes (Expr.visitClause r place keyword expr?)
        (Expr.renderClause r place.context keyword expr?)
  | none => by
    rw [Expr.visitClause, Expr.renderClause]
    exact Visit.pure_writes _
  | some expr => by
    rw [Expr.visitClause, Expr.renderClause]
    exact fun before => .step (Expr.visit_writes hplace expr) fun _ => .done rfl (by simp)

theorem Expr.visitListClause_writes {place : Place} (hplace : place.assigning = false)
    (keyword : String) : ∀ exprs? : Option (List Expr),
      Writes (Expr.visitListClause r place keyword exprs?)
        (Expr.renderListClause r place.context keyword exprs?)
  | none => by
    rw [Expr.visitListClause, Expr.renderListClause]
    exact Visit.pure_writes _
  | some exprs => by
    rw [Expr.visitListClause, Expr.renderListClause]
    intro before
    refine .step (Expr.visitList_writes hplace exprs) fun sqls => .done ?_ (by simp)
    rw [← Sql.text_join]
    rfl

theorem Nested.visit_writes {place : Place} (hplace : place.assigning = false) :
    ∀ nested : Nested, Writes (nested.visit r place) (nested.render r place.context)
  | .plan plan => by
    rw [Nested.visit, Nested.render]
    exact Visit.plan_writes r place plan
  | .raw raw => by
    rw [Nested.visit, Nested.render]
    exact Visit.raw_writes place raw
  | .query query => by
    rw [Nested.visit, Nested.render]
    exact Query.visit_writes hplace query

theorem SelectItem.visit_writes {place : Place} (hplace : place.assigning = false) :
    ∀ item : SelectItem, Writes (item.visit r place) (item.render r place.context)
  | .wildcard none => by
    rw [SelectItem.visit, SelectItem.render]
    exact Visit.pure_writes _
  | .wildcard (some qualifier) => by
    rw [SelectItem.visit, SelectItem.render]
    exact fun before => .done rfl (by simp)
  | .column column => by
    rw [SelectItem.visit, SelectItem.render]
    exact Visit.pure_writes _
  | .expr expr label => by
    rw [SelectItem.visit, SelectItem.render]
    refine fun before => .step (Expr.visit_writes hplace expr) fun sql => .done ?_ (by simp)
    rw [Sql.text_append, Sql.text_parensIf]
    rfl

theorem SelectItem.visitList_writes {place : Place} (hplace : place.assigning = false) :
    ∀ items : List SelectItem,
      WritesList (SelectItem.visitList r place items) (SelectItem.renderList r place.context items)
  | [] => by
    rw [SelectItem.visitList, SelectItem.renderList]
    exact Visit.nil_writes
  | item :: items => by
    rw [SelectItem.visitList, SelectItem.renderList]
    intro before
    refine .step (SelectItem.visit_writes hplace item) fun _ => ?_
    exact .step (SelectItem.visitList_writes hplace items) fun _ => .done rfl (by simp)

theorem TableExpr.visit_writes {place : Place} (hplace : place.assigning = false)
    (hint : Option String) : ∀ table : TableExpr,
      Writes (table.visit r place hint) (table.render r place.context hint)
  | .table table => by
    rw [TableExpr.visit, TableExpr.render]
    exact fun before => .done rfl (by simp)
  | .derived source label => by
    rw [TableExpr.visit, TableExpr.render]
    split
    · exact fun before => .throw _
    · exact fun before => .step (Nested.visit_writes hplace source) fun _ => .done rfl (by simp)
  | .joined first joins => by
    rw [TableExpr.visit, TableExpr.render]
    intro before
    refine .step (TableExpr.visit_writes hplace hint first) fun _ => ?_
    exact .step (JoinExpr.visitList_writes hplace joins) fun _ => .done rfl (by simp)
  | .raw raw => by
    rw [TableExpr.visit, TableExpr.render]
    split
    · exact fun before => .throw _
    · exact Visit.raw_writes place raw

theorem TableExpr.visitClause_writes {place : Place} (hplace : place.assigning = false)
    (hint : Option String) : ∀ table? : Option TableExpr,
      Writes (TableExpr.visitClause r place hint table?)
        (TableExpr.renderClause r place.context hint table?)
  | none => by
    rw [TableExpr.visitClause, TableExpr.renderClause]
    exact Visit.pure_writes _
  | some table => by
    rw [TableExpr.visitClause, TableExpr.renderClause]
    exact fun before => .step (TableExpr.visit_writes hplace hint table) fun _ => .done rfl (by simp)

theorem JoinExpr.visit_writes {place : Place} (hplace : place.assigning = false) :
    ∀ join : JoinExpr, Writes (join.visit r place) (join.render r place.context.joining)
  | ⟨kind, target, on⟩ => by
    rw [JoinExpr.visit, JoinExpr.render]
    have hjoining : place.joining.assigning = false := hplace
    intro before
    refine .step (TableExpr.visit_writes hjoining none target) fun _ => ?_
    exact .step (Expr.visitClause_writes hjoining " ON " on) fun _ => .done rfl (by simp)

theorem JoinExpr.visitList_writes {place : Place} (hplace : place.assigning = false) :
    ∀ joins : List JoinExpr,
      Writes (JoinExpr.visitList r place joins) (JoinExpr.renderList r place.context.joining joins)
  | [] => by
    rw [JoinExpr.visitList, JoinExpr.renderList]
    exact Visit.pure_writes _
  | join :: joins => by
    rw [JoinExpr.visitList, JoinExpr.renderList]
    intro before
    refine .step (JoinExpr.visit_writes hplace join) fun _ => ?_
    exact .step (JoinExpr.visitList_writes hplace joins) fun _ => .done rfl (by simp)

theorem SortKey.visit_writes {place : Place} (hplace : place.assigning = false) :
    ∀ key : SortKey, Writes (key.visit r place) (key.render r place.context)
  | ⟨expr, direction⟩ => by
    rw [SortKey.visit, SortKey.render]
    intro before
    refine .step (Expr.visit_writes hplace expr) fun _ => ?_
    cases direction with
    | none => exact .done rfl rfl
    | some direction => exact .done rfl (by simp)

theorem SortKey.visitList_writes {place : Place} (hplace : place.assigning = false) :
    ∀ keys : List SortKey,
      WritesList (SortKey.visitList r place keys) (SortKey.renderList r place.context keys)
  | [] => by
    rw [SortKey.visitList, SortKey.renderList]
    exact Visit.nil_writes
  | key :: keys => by
    rw [SortKey.visitList, SortKey.renderList]
    intro before
    refine .step (SortKey.visit_writes hplace key) fun _ => ?_
    exact .step (SortKey.visitList_writes hplace keys) fun _ => .done rfl (by simp)

theorem SortKey.visitClause_writes {place : Place} (hplace : place.assigning = false) :
    ∀ keys? : Option (List SortKey),
      Writes (SortKey.visitClause r place keys?) (SortKey.renderClause r place.context keys?)
  | none => by
    rw [SortKey.visitClause, SortKey.renderClause]
    exact Visit.pure_writes _
  | some keys => by
    rw [SortKey.visitClause, SortKey.renderClause]
    intro before
    refine .step (SortKey.visitList_writes hplace keys) fun sqls => .done ?_ (by simp)
    rw [← Sql.text_join]
    rfl

theorem Select.visit_writes {place : Place} (hplace : place.assigning = false) :
    ∀ select : Select, Writes (select.visit r place) (select.render r place.context)
  | { distinct, items, source, filter, groupBy, having, orderBy, page, lock } => by
    rw [Select.visit, Select.render]
    -- a clause changes the purposes only
    have hwithin : ∀ clause, (place.within clause).assigning = false := fun _ => hplace
    intro before
    refine .step (SelectItem.visitList_writes (hwithin .select) items) fun items => ?_
    refine .lift fun hint => ?_
    refine .step (TableExpr.visitClause_writes (hwithin .from) hint source) fun _ => ?_
    refine .step (Expr.visitClause_writes (hwithin .where) " WHERE " filter) fun _ => ?_
    refine .step (Expr.visitListClause_writes (hwithin .groupBy) " GROUP BY " groupBy) fun _ => ?_
    refine .step (Expr.visitClause_writes (hwithin .having) " HAVING " having) fun _ => ?_
    refine .step (SortKey.visitClause_writes (hwithin .order) orderBy) fun _ => ?_
    refine .lift fun suffix => .done ?_ (by simp)
    rw [← Sql.text_join]
    rfl

theorem Query.visit_writes {place : Place} (hplace : place.assigning = false) :
    ∀ query : Query, Writes (query.visit r place) (query.render r place.context)
  | .select select => by
    rw [Query.visit, Query.render]
    exact Select.visit_writes hplace select
  | .union left right all orderBy page => by
    rw [Query.visit, Query.render]
    have hright : (place.overriding .union).assigning = false := hplace
    have horder : (place.within .unionOrder).assigning = false := hplace
    intro before
    refine .step (Query.visit_writes hplace left) fun first => ?_
    refine .step (Query.visit_writes hright right) fun second => ?_
    refine .step (SortKey.visitClause_writes horder orderBy) fun _ => .done ?_ ?_
    · rw [Dialect.wrapBranchText_eq, Dialect.wrapBranchText_eq, ← apply_ite Sql.text]
      rfl
    · simp [apply_ite Sql.bindings]

end

/-! ## Statements -/

theorem visitRows_writes {place : Place} (hplace : place.assigning = false)
    (rows : List (List Expr)) :
    Writes (visitRows r place rows) (renderRows r place.context rows) := by
  intro before
  refine .step (WritesList.mapM (fun row before => ?_) rows) fun sqls =>
    .done (Sql.text_join ", " sqls).symm (by simp)
  refine .step (Expr.visitList_writes r hplace row) fun sqls => .done ?_ (by simp)
  rw [← Sql.text_join]
  rfl

theorem InsertSource.visit_writes {place : Place} (hplace : place.assigning = false)
    (source : InsertSource) : Writes (source.visit r place) (source.render r place.context) := by
  intro before
  cases source with
  | defaults => exact .done rfl (by simp)
  | rows tuples => exact .step (visitRows_writes r hplace tuples) fun _ => .done rfl (by simp)
  | nested source => exact .step (Nested.visit_writes r hplace source) fun _ => .done rfl (by simp)

theorem Insert.visitMerge_writes {place : Place} (hplace : place.assigning = false)
    (insert : Insert) (key update : List Name) :
    Writes (insert.visitMerge r place key update)
      (insert.renderMerge r place.context key update) := by
  unfold Insert.visitMerge Insert.renderMerge
  have hvalues : (place.within .insert).assigning = false := hplace
  intro before
  cases insert.source with
  | rows tuples => exact .step (visitRows_writes r hvalues tuples) fun _ => .done rfl (by simp)
  | nested source => exact .throw _
  | defaults => exact .throw _

theorem Insert.visitPlain_writes {place : Place} (hplace : place.assigning = false)
    (insert : Insert) :
    Writes (insert.visitPlain r place) (insert.renderPlain r place.context) := by
  have hsource : (place.within .insert).assigning = false := hplace
  refine fun before => .lift fun words => ?_
  refine .step (InsertSource.visit_writes r hsource insert.source) fun _ => ?_
  exact .lift fun conflict => .done rfl (by simp)

theorem Insert.visit_writes {place : Place} (hplace : place.assigning = false) (insert : Insert) :
    Writes (insert.visit r place) (insert.render r place.context) := by
  have hplain := Insert.visitPlain_writes r hplace insert
  rw [Insert.visit, Insert.render]
  rcases insert.conflict with _ | _ | ⟨key, update⟩
  · exact hplain
  · exact hplain
  · cases r.dialect.upsertStyle with
    | merge => exact Insert.visitMerge_writes r hplace insert key update
    | unsupported => exact hplain
    | onDuplicateKey => exact hplain
    | onConflict => exact hplain

/-- The left-hand sides alone are written as what is assigned to. -/
theorem visitAssignments_writes {place : Place} (hplace : place.assigning = false)
    (scope : UpdateScope) (assignments : List Assignment) :
    Writes (visitAssignments r (place.updating scope) assignments)
      (renderAssignments r ((place.updating scope).context.within .update) scope.hasJoins
        scope.target assignments) := by
  have hvalue : ((place.updating scope).within .update).assigning = false := hplace
  intro before
  refine .step (WritesList.mapM (fun assignment before => ?_) assignments) fun sqls =>
    .done (Sql.text_join ", " sqls).symm (by simp)
  exact .step (Expr.visit_writes r hvalue assignment.value) fun _ => .done rfl (by simp)

theorem visitWriteTail_writes {place : Place} (hplace : place.assigning = false)
    (orderBy : Option (List SortKey)) (limit : Option Nat) :
    Writes (visitWriteTail r place orderBy limit)
      (renderWriteTail r place.context orderBy limit) := by
  have horder : (place.within .order).assigning = false := hplace
  unfold visitWriteTail renderWriteTail
  split
  · exact Visit.pure_writes _
  · intro before
    exact .step (SortKey.visitClause_writes r horder orderBy) fun _ => .done rfl (by simp)

theorem Update.visit_writes {place : Place} (hplace : place.assigning = false) (update : Update) :
    Writes (update.visit r place) (update.render r place.context) := by
  refine fun before => .lift fun target => ?_
  have hupdating : (place.updating ⟨update.hasJoins, target⟩).assigning = false := hplace
  have hwithin : ∀ clause, ((place.updating ⟨update.hasJoins, target⟩).within clause).assigning =
      false := fun _ => hplace
  refine .step (TableExpr.visit_writes r (hwithin .update) none update.table) fun _ => ?_
  refine .step (visitAssignments_writes r hplace ⟨update.hasJoins, target⟩ update.assignments)
    fun _ => ?_
  refine .step (TableExpr.visitClause_writes r (hwithin .from) none update.source) fun _ => ?_
  refine .step (Expr.visitClause_writes r (hwithin .where) " WHERE " update.filter) fun _ => ?_
  refine .step (visitWriteTail_writes r hupdating update.orderBy update.limit) fun _ => ?_
  exact .done rfl (by simp)

theorem Delete.visit_writes {place : Place} (hplace : place.assigning = false) (delete : Delete) :
    Writes (delete.visit r place) (delete.render r place.context) := by
  have hwithin : ∀ clause, (place.within clause).assigning = false := fun _ => hplace
  intro before
  refine .step (TableExpr.visit_writes r (hwithin .from) none delete.source) fun _ => ?_
  refine .step (Expr.visitClause_writes r (hwithin .where) " WHERE " delete.filter) fun _ => ?_
  refine .step (visitWriteTail_writes r hplace delete.orderBy delete.limit) fun _ => ?_
  exact .done rfl (by simp)

/-- The visit of a statement writes its rendering. -/
theorem Statement.visit_writes (statement : Statement) :
    Writes (statement.visit r) (statement.render r) := by
  have hroot : ({} : Place).assigning = false := rfl
  cases statement with
  | query statement => exact Query.visit_writes r hroot statement
  | insert statement => exact Insert.visit_writes r hroot statement
  | update statement => exact Update.visit_writes r hroot statement
  | delete statement => exact Delete.visit_writes r hroot statement
  | truncate table => exact Visit.text_writes _

end Trees

/-- The SQL of a plan with a given way to write it. -/
def Renderer.compile (r : Renderer) (tablePrefix : String) (plan : Plan) : Except Error Sql := do
  (← Query.ofPlan tablePrefix plan).render r {}

namespace Compiler

variable (c : Compiler)

/-- The compiler gives the rendering of a statement. -/
theorem render_eq (statement : Statement) : c.render statement = statement.render c.renderer :=
  (Statement.visit_writes c.renderer statement).sql_eq

theorem select_eq_compile (plan : Plan) : c.select plan = c.renderer.compile c.tablePrefix plan :=
  bind_congr fun query => c.render_eq (.query query)

theorem compileWithin_succ (depth : Nat) (plan : Plan) :
    c.compileWithin (depth + 1) plan =
      Renderer.compile ⟨c.dialect, c.compileWithin depth⟩ c.tablePrefix plan := by
  have hroot : ({} : Place).assigning = false := rfl
  rw [compileWithin]
  refine bind_congr fun query => ?_
  exact (Query.visit_writes ⟨c.dialect, c.compileWithin depth⟩ hroot query).sql_eq

end Compiler

end QueryCompiler
