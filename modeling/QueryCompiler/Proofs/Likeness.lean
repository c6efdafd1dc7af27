import Mathlib.Data.Option.Defs
import QueryCompiler.Proofs.PlanLeaves

/-! # Likeness of plans and trees

Two plans are alike if they have the same shape and differ only in their leaves: fragments, names,
values and raw SQL. A `Likeness` says which leaves may stand for which. Facts about two runs of the
compiler are proved once for all likenesses, along plans (`Plan.Like`) and along trees
(`Statement.Like`).

* `Matched`: two computations that both fail or both have values.
* `Likeness`, `Plan.Like`, `Row.ListLike`: plans and rows.
* `Expr.Like`, `Query.Like`, `Statement.Like`: trees.
-/

namespace QueryCompiler
set_option autoImplicit false

/-! ## Outcomes of two runs -/

/-- Both fail, with related errors, or both have values, and those are related. -/
inductive Matched {ε α β : Type} (E : ε → ε → Prop) (R : α → β → Prop) :
    Except ε α → Except ε β → Prop where
  | ok {a : α} {b : β} : R a b → Matched E R (.ok a) (.ok b)
  | error {e e' : ε} : E e e' → Matched E R (.error e) (.error e')

namespace Matched

variable {ε α β γ δ : Type} {E : ε → ε → Prop} {R R' : α → β → Prop} {S : γ → δ → Prop}
  {x : Except ε α} {y : Except ε β}

theorem bind {f : α → Except ε γ} {g : β → Except ε δ} (h : Matched E R x y)
    (hfg : ∀ a b, R a b → Matched E S (f a) (g b)) : Matched E S (x >>= f) (y >>= g) := by
  cases h with
  | ok hab => exact hfg _ _ hab
  | error he => exact .error he

theorem mono (h : Matched E R x y) (hR : ∀ a b, R a b → R' a b) : Matched E R' x y := by
  cases h with
  | ok hab => exact .ok (hR _ _ hab)
  | error he => exact .error he

theorem exists_ok (h : Matched E R x y) (hx : x.isOk = true) :
    ∃ a b, x = .ok a ∧ y = .ok b ∧ R a b := by
  cases h with
  | ok hab => exact ⟨_, _, rfl, rfl, hab⟩
  | error he => cases hx

/-- A computation is matched with itself. -/
theorem refl (x : Except ε α) {R : α → α → Prop} (hE : ∀ e, E e e) (hR : ∀ a, R a a) :
    Matched E R x x := by
  cases x with
  | ok a => exact .ok (hR a)
  | error e => exact .error (hE e)

theorem ite {c c' : Prop} [Decidable c] [Decidable c'] {x' : Except ε α} {y' : Except ε β}
    (hc : c ↔ c') (hx : c → Matched E R x y) (hy : ¬c → Matched E R x' y') :
    Matched E R (if c then x else x') (if c' then y else y') := by
  by_cases h : c
  · rw [if_pos h, if_pos (hc.1 h)]
    exact hx h
  · rw [if_neg h, if_neg fun h' => h (hc.2 h')]
    exact hy h

/-- Steps over alike lists. -/
theorem mapM {S : γ → δ → Prop} {f : γ → Except ε α} {g : δ → Except ε β} {cs : List γ}
    {ds : List δ} (h : List.Forall₂ S cs ds) (hfg : ∀ c d, S c d → Matched E R (f c) (g d)) :
    Matched E (List.Forall₂ R) (cs.mapM f) (ds.mapM g) := by
  induction h with
  | nil =>
    rw [List.mapM_nil, List.mapM_nil]
    exact .ok .nil
  | cons hhead _ ih =>
    rw [List.mapM_cons, List.mapM_cons]
    exact (hfg _ _ hhead).bind fun _ _ hfirst => ih.bind fun _ _ hrest => .ok (.cons hfirst hrest)

end Matched

/-! ## Leaves -/

/-- Which leaves may stand for which. -/
structure Likeness where
  /-- Column fragments. -/
  column : String → String → Prop
  /-- Table fragments. -/
  table : String → String → Prop
  /-- Aliases of sub-queries in FROM and in joins. -/
  source : String → String → Prop
  /-- Names as a dialect writes them. -/
  name : Name → Name → Prop
  /-- Keys of JSON paths. -/
  key : String → String → Prop
  value : Value → Value → Prop
  raw : Raw → Raw → Prop
  /-- Locks, which are the same on both sides. -/
  lock : Lock → Prop

variable (L : Likeness)

inductive JsonStep.Like : JsonStep → JsonStep → Prop where
  | key {name name' : String} : L.key name name' → Like (.key name) (.key name')
  | index (position : Nat) : Like (.index position) (.index position)

/-- Columns with alike names and JSON steps. -/
structure ColumnRef.Like (column column' : ColumnRef) : Prop where
  path : List.Forall₂ L.name column.path column'.path
  json : List.Forall₂ (JsonStep.Like L) column.json column'.json
  label : Option.Rel L.name column.label column'.label

/-- Tables with alike names. -/
structure TableName.Like (table table' : TableName) : Prop where
  path : List.Forall₂ L.name table.path table'.path
  label : Option.Rel L.name table.label table'.label

/-! ## Plans -/

inductive OrderTerm.Like : OrderTerm → OrderTerm → Prop where
  | column {column column' : String} (direction : Direction) :
    L.column column column' → Like (.column column direction) (.column column' direction)
  | raw {raw raw' : Raw} : L.raw raw raw' → Like (.raw raw) (.raw raw')

structure Aggregate.Like (aggregate aggregate' : Aggregate) : Prop where
  function : aggregate.function = aggregate'.function
  column : Option.Rel L.column aggregate.column aggregate'.column
  distinct : aggregate.distinct = aggregate'.distinct

mutual

inductive Operand.Like : Operand → Operand → Prop where
  | value {value value' : Value} : L.value value value' →
    Operand.Like (.value value) (.value value')
  | column {column column' : String} : L.column column column' →
    Operand.Like (.column column) (.column column')
  | raw {raw raw' : Raw} : L.raw raw raw' → Operand.Like (.raw raw) (.raw raw')
  | subquery {plan plan' : Plan} : Plan.Like plan plan' →
    Operand.Like (.subquery plan) (.subquery plan')

/-- A comparison with NULL is alike only to one with NULL, where it asks for NULL. -/
inductive Predicate.Like : Predicate → Predicate → Prop where
  | compare {column column' : String} {comparison : Comparison} {operand operand' : Operand} :
    L.column column column' → Operand.Like operand operand' →
    comparison.asksNull operand = comparison.asksNull operand' →
    Predicate.Like (.compare column comparison operand) (.compare column' comparison operand')
  | isIn {column column' : String} {values values' : List Value} (negated : Bool) :
    L.column column column' → List.Forall₂ L.value values values' →
    Predicate.Like (.isIn column values negated) (.isIn column' values' negated)
  | inSubquery {column column' : String} {plan plan' : Plan} (negated : Bool) :
    L.column column column' → Plan.Like plan plan' →
    Predicate.Like (.inSubquery column plan negated) (.inSubquery column' plan' negated)
  | isNull {column column' : String} (negated : Bool) : L.column column column' →
    Predicate.Like (.isNull column negated) (.isNull column' negated)
  | between {column column' : String} {low low' high high' : Operand} (negated : Bool) :
    L.column column column' → Operand.Like low low' → Operand.Like high high' →
    Predicate.Like (.between column low high negated) (.between column' low' high' negated)
  | existsIn {plan plan' : Plan} (negated : Bool) : Plan.Like plan plan' →
    Predicate.Like (.existsIn plan negated) (.existsIn plan' negated)
  | group {filters filters' : List Filter} : List.Forall₂ Filter.Like filters filters' →
    Predicate.Like (.group filters) (.group filters')
  | raw {raw raw' : Raw} : L.raw raw raw' → Predicate.Like (.raw raw) (.raw raw')
  | datePart {column column' : String} {value value' : Value} (part : DatePart)
    (comparison : Comparison) : L.column column column' → L.value value value' →
    Predicate.Like (.datePart column part comparison value) (.datePart column' part comparison value')
  | jsonLength {column column' : String} {value value' : Value} (comparison : Comparison) :
    L.column column column' → L.value value value' →
    Predicate.Like (.jsonLength column comparison value) (.jsonLength column' comparison value')
  | like {column column' : String} {pattern pattern' : Value} (caseSensitive negated : Bool) :
    L.column column column' → L.value pattern pattern' →
    Predicate.Like (.like column pattern caseSensitive negated)
      (.like column' pattern' caseSensitive negated)

inductive Filter.Like : Filter → Filter → Prop where
  | mk {predicate predicate' : Predicate} (connective : Connective) :
    Predicate.Like predicate predicate' →
    Filter.Like ⟨connective, predicate⟩ ⟨connective, predicate'⟩

inductive Selection.Like : Selection → Selection → Prop where
  | column {column column' : String} : L.column column column' →
    Selection.Like (.column column) (.column column')
  | raw {raw raw' : Raw} : L.raw raw raw' → Selection.Like (.raw raw) (.raw raw')
  | subquery {plan plan' : Plan} {label label' : String} :
    Plan.Like plan plan' → L.name label label' →
    Selection.Like (.subquery plan label) (.subquery plan' label')

inductive Source.Like : Source → Source → Prop where
  | table {table table' : String} : L.table table table' →
    Source.Like (.table table) (.table table')
  | subquery {plan plan' : Plan} {label label' : String} :
    Plan.Like plan plan' → L.source label label' →
    Source.Like (.subquery plan label) (.subquery plan' label')
  | raw {raw raw' : Raw} : L.raw raw raw' → Source.Like (.raw raw) (.raw raw')

inductive JoinTarget.Like : JoinTarget → JoinTarget → Prop where
  | table {table table' : String} : L.table table table' →
    JoinTarget.Like (.table table) (.table table')
  | subquery {plan plan' : Plan} {label label' : String} :
    Plan.Like plan plan' → L.source label label' →
    JoinTarget.Like (.subquery plan label) (.subquery plan' label')

inductive Join.Like : Join → Join → Prop where
  | mk {target target' : JoinTarget} {conditions conditions' : List Filter} (kind : JoinKind) :
    JoinTarget.Like target target' → List.Forall₂ Filter.Like conditions conditions' →
    Join.Like ⟨kind, target, conditions⟩ ⟨kind, target', conditions'⟩

inductive Branch.Like : Branch → Branch → Prop where
  | mk {plan plan' : Plan} (all : Bool) : Plan.Like plan plan' →
    Branch.Like ⟨plan, all⟩ ⟨plan', all⟩

/-- Plans of one shape, with alike leaves. -/
inductive Plan.Like : Plan → Plan → Prop where
  | mk {selections selections' : List Selection} {source source' : Option Source}
    {joins joins' : List Join} {filters filters' : List Filter} {groups groups' : List String}
    {havings havings' : List Filter} {orders orders' : List OrderTerm}
    {branches branches' : List Branch} {unionOrders unionOrders' : List OrderTerm}
    {aggregate aggregate' : Option Aggregate} (distinct : Bool) (page unionPage : Page)
    (lock : Option Lock) :
    List.Forall₂ Selection.Like selections selections' → Option.Rel Source.Like source source' →
    List.Forall₂ Join.Like joins joins' → List.Forall₂ Filter.Like filters filters' →
    List.Forall₂ L.column groups groups' → List.Forall₂ Filter.Like havings havings' →
    List.Forall₂ (OrderTerm.Like L) orders orders' → List.Forall₂ Branch.Like branches branches' →
    List.Forall₂ (OrderTerm.Like L) unionOrders unionOrders' →
    Option.Rel (Aggregate.Like L) aggregate aggregate' → (∀ l ∈ lock, L.lock l) →
    Plan.Like
      ⟨distinct, selections, source, joins, filters, groups, havings, orders, page, branches,
        unionOrders, unionPage, aggregate, lock⟩
      ⟨distinct, selections', source', joins', filters', groups', havings', orders', page, branches',
        unionOrders', unionPage, aggregate', lock⟩

end

/-! ## Rows -/

/-- A column and its operand. -/
structure Row.EntryLike (entry entry' : String × Operand) : Prop where
  column : L.column entry.1 entry'.1
  operand : Operand.Like L entry.2 entry'.2

def Row.Like (row row' : Row) : Prop := List.Forall₂ (Row.EntryLike L) row.entries row'.entries

/-- The columns of two lists of rows, each with its counterpart. -/
def Row.columnPairs (rows rows' : List Row) : List (String × String) :=
  (rows.zip rows').flatMap fun pair => pair.1.columns.zip pair.2.columns

/-- Rows with alike entries, whose columns are equal on one side where they are on the other. -/
structure Row.ListLike (rows rows' : List Row) : Prop where
  like : List.Forall₂ (Row.Like L) rows rows'
  aligned : ∀ pair ∈ Row.columnPairs rows rows', ∀ pair' ∈ Row.columnPairs rows rows',
    (pair.1 = pair'.1 ↔ pair.2 = pair'.2)

/-! ## Trees -/

mutual

inductive Expr.Like : Expr → Expr → Prop where
  | path {path path' : Path} : List.Forall₂ L.name path path' →
    Expr.Like (.path path) (.path path')
  | json {column column' : Path} {steps steps' : List JsonStep} :
    List.Forall₂ L.name column column' → List.Forall₂ (JsonStep.Like L) steps steps' →
    Expr.Like (.json column steps) (.json column' steps')
  | bound {value value' : Value} (purpose : Purpose) : L.value value value' →
    Expr.Like (.bound value purpose) (.bound value' purpose)
  | raw {raw raw' : Raw} : L.raw raw raw' → Expr.Like (.raw raw) (.raw raw')
  | nested {nested nested' : Nested} : Nested.Like nested nested' →
    Expr.Like (.nested nested) (.nested nested')
  | call {arguments arguments' : List Expr} (function : FunctionName) :
    List.Forall₂ Expr.Like arguments arguments' →
    Expr.Like (.call function arguments) (.call function arguments')
  | aggregate {arguments arguments' : List Expr} (function : AggregateFunction) (distinct : Bool) :
    List.Forall₂ Expr.Like arguments arguments' →
    Expr.Like (.aggregate function distinct arguments) (.aggregate function distinct arguments')
  | compare {left left' right right' : Expr} (comparison : Comparison) :
    Expr.Like left left' → Expr.Like right right' →
    Expr.Like (.compare left comparison right) (.compare left' comparison right')
  | between {operand operand' low low' high high' : Expr} (negated : Bool) :
    Expr.Like operand operand' → Expr.Like low low' → Expr.Like high high' →
    Expr.Like (.between operand low high negated) (.between operand' low' high' negated)
  | inList {operand operand' : Expr} {values values' : List Expr} (negated : Bool) :
    Expr.Like operand operand' → List.Forall₂ Expr.Like values values' →
    Expr.Like (.inList operand values negated) (.inList operand' values' negated)
  | inNested {operand operand' : Expr} {nested nested' : Nested} (negated : Bool) :
    Expr.Like operand operand' → Nested.Like nested nested' →
    Expr.Like (.inNested operand nested negated) (.inNested operand' nested' negated)
  | isNull {operand operand' : Expr} (negated : Bool) : Expr.Like operand operand' →
    Expr.Like (.isNull operand negated) (.isNull operand' negated)
  | existsIn {nested nested' : Nested} (negated : Bool) : Nested.Like nested nested' →
    Expr.Like (.existsIn nested negated) (.existsIn nested' negated)
  | like {operand operand' pattern pattern' : Expr} (caseSensitive negated : Bool) :
    Expr.Like operand operand' → Expr.Like pattern pattern' →
    Expr.Like (.like operand pattern caseSensitive negated)
      (.like operand' pattern' caseSensitive negated)
  | condition {terms terms' : List Expr} (connective : Connective) :
    List.Forall₂ Expr.Like terms terms' →
    Expr.Like (.condition connective terms) (.condition connective terms')
  | parenthesized {inner inner' : Expr} : Expr.Like inner inner' →
    Expr.Like (.parenthesized inner) (.parenthesized inner')

inductive Nested.Like : Nested → Nested → Prop where
  | plan {plan plan' : Plan} : Plan.Like L plan plan' → Nested.Like (.plan plan) (.plan plan')
  | raw {raw raw' : Raw} : L.raw raw raw' → Nested.Like (.raw raw) (.raw raw')
  | query {query query' : Query} : Query.Like query query' →
    Nested.Like (.query query) (.query query')

inductive SelectItem.Like : SelectItem → SelectItem → Prop where
  | wildcard {qualifier qualifier' : Option Path} :
    Option.Rel (List.Forall₂ L.name) qualifier qualifier' →
    SelectItem.Like (.wildcard qualifier) (.wildcard qualifier')
  | column {column column' : ColumnRef} : ColumnRef.Like L column column' →
    SelectItem.Like (.column column) (.column column')
  | expr {expr expr' : Expr} {label label' : Option Name} :
    Expr.Like expr expr' → Option.Rel L.name label label' →
    SelectItem.Like (.expr expr label) (.expr expr' label')

inductive TableExpr.Like : TableExpr → TableExpr → Prop where
  | table {table table' : TableName} : TableName.Like L table table' →
    TableExpr.Like (.table table) (.table table')
  | derived {nested nested' : Nested} {label label' : Name} :
    Nested.Like nested nested' → L.name label label' →
    TableExpr.Like (.derived nested label) (.derived nested' label')
  | joined {first first' : TableExpr} {joins joins' : List JoinExpr} :
    TableExpr.Like first first' → List.Forall₂ JoinExpr.Like joins joins' →
    TableExpr.Like (.joined first joins) (.joined first' joins')
  | raw {raw raw' : Raw} : L.raw raw raw' → TableExpr.Like (.raw raw) (.raw raw')

inductive JoinExpr.Like : JoinExpr → JoinExpr → Prop where
  | mk {target target' : TableExpr} {on on' : Option Expr} (kind : JoinKind) :
    TableExpr.Like target target' → Option.Rel Expr.Like on on' →
    JoinExpr.Like ⟨kind, target, on⟩ ⟨kind, target', on'⟩

inductive SortKey.Like : SortKey → SortKey → Prop where
  | mk {expr expr' : Expr} (direction : Option Direction) : Expr.Like expr expr' →
    SortKey.Like ⟨expr, direction⟩ ⟨expr', direction⟩

inductive Select.Like : Select → Select → Prop where
  | mk {items items' : List SelectItem} {source source' : Option TableExpr}
    {filter filter' : Option Expr} {groupBy groupBy' : Option (List Expr)}
    {having having' : Option Expr} {orderBy orderBy' : Option (List SortKey)} (distinct : Bool)
    (page : Page) (lock : Option Lock) :
    List.Forall₂ SelectItem.Like items items' → Option.Rel TableExpr.Like source source' →
    Option.Rel Expr.Like filter filter' → Option.Rel (List.Forall₂ Expr.Like) groupBy groupBy' →
    Option.Rel Expr.Like having having' →
    Option.Rel (List.Forall₂ SortKey.Like) orderBy orderBy' → (∀ l ∈ lock, L.lock l) →
    Select.Like ⟨distinct, items, source, filter, groupBy, having, orderBy, page, lock⟩
      ⟨distinct, items', source', filter', groupBy', having', orderBy', page, lock⟩

inductive Query.Like : Query → Query → Prop where
  | select {select select' : Select} : Select.Like select select' →
    Query.Like (.select select) (.select select')
  | union {left left' right right' : Query} {orderBy orderBy' : Option (List SortKey)} (all : Bool)
    (page : Page) : Query.Like left left' → Query.Like right right' →
    Option.Rel (List.Forall₂ SortKey.Like) orderBy orderBy' →
    Query.Like (.union left right all orderBy page) (.union left' right' all orderBy' page)

end

inductive InsertSource.Like : InsertSource → InsertSource → Prop where
  | rows {rows rows' : List (List Expr)} : List.Forall₂ (List.Forall₂ (Expr.Like L)) rows rows' →
    Like (.rows rows) (.rows rows')
  | nested {nested nested' : Nested} : Nested.Like L nested nested' →
    Like (.nested nested) (.nested nested')
  | defaults : Like .defaults .defaults

inductive Conflict.Like : Conflict → Conflict → Prop where
  | ignore : Like .ignore .ignore
  | update {key key' update update' : List Name} : List.Forall₂ L.name key key' →
    List.Forall₂ L.name update update' → Like (.update key update) (.update key' update')

structure Insert.Like (insert insert' : Insert) : Prop where
  table : TableName.Like L insert.table insert'.table
  columns : List.Forall₂ L.name insert.columns insert'.columns
  source : InsertSource.Like L insert.source insert'.source
  conflict : Option.Rel (Conflict.Like L) insert.conflict insert'.conflict
  returning : Option.Rel L.name insert.returning insert'.returning

structure Assignment.Like (assignment assignment' : Assignment) : Prop where
  column : List.Forall₂ L.name assignment.column assignment'.column
  value : Expr.Like L assignment.value assignment'.value

structure Update.Like (update update' : Update) : Prop where
  table : TableExpr.Like L update.table update'.table
  assignments : List.Forall₂ (Assignment.Like L) update.assignments update'.assignments
  source : Option.Rel (TableExpr.Like L) update.source update'.source
  filter : Option.Rel (Expr.Like L) update.filter update'.filter
  orderBy : Option.Rel (List.Forall₂ (SortKey.Like L)) update.orderBy update'.orderBy
  limit : update.limit = update'.limit
  hasJoins : update.hasJoins = update'.hasJoins

structure Delete.Like (delete delete' : Delete) : Prop where
  target : Option.Rel L.name delete.target delete'.target
  source : TableExpr.Like L delete.source delete'.source
  filter : Option.Rel (Expr.Like L) delete.filter delete'.filter
  orderBy : Option.Rel (List.Forall₂ (SortKey.Like L)) delete.orderBy delete'.orderBy
  limit : delete.limit = delete'.limit

/-- Statements of one shape, with alike leaves. -/
inductive Statement.Like : Statement → Statement → Prop where
  | query {query query' : Query} : Query.Like L query query' → Like (.query query) (.query query')
  | insert {insert insert' : Insert} : Insert.Like L insert insert' →
    Like (.insert insert) (.insert insert')
  | update {update update' : Update} : Update.Like L update update' →
    Like (.update update) (.update update')
  | delete {delete delete' : Delete} : Delete.Like L delete delete' →
    Like (.delete delete) (.delete delete')
  | truncate {table table' : TableName} : TableName.Like L table table' →
    Like (.truncate table) (.truncate table')

/-! ## What alike plans and trees share -/

section Shared

variable {L}

mutual

theorem Operand.Like.depth_eq : ∀ (operand operand' : Operand),
    Operand.Like L operand operand' → operand.depth = operand'.depth
  | .value _ | .column _ | .raw _ => by
    rintro _ ⟨⟩
    rfl
  | .subquery plan => by
    rintro _ (_ | _ | _ | hplan)
    exact Plan.Like.depth_eq plan _ hplan

theorem Predicate.Like.depth_eq : ∀ (predicate predicate' : Predicate),
    Predicate.Like L predicate predicate' → predicate.depth = predicate'.depth
  | .isIn .. | .isNull .. | .raw _ | .datePart .. | .jsonLength .. | .like .. => by
    rintro _ ⟨⟩
    rfl
  | .compare _ _ operand => by
    intro _ h
    cases h with
    | compare _ hoperand => exact Operand.Like.depth_eq operand _ hoperand
  | .inSubquery _ plan _ => by
    intro _ h
    cases h with
    | inSubquery _ _ hplan => exact Plan.Like.depth_eq plan _ hplan
  | .between _ low high _ => by
    intro _ h
    cases h with
    | between _ _ hlow hhigh =>
      rw [Predicate.depth, Predicate.depth, Operand.Like.depth_eq low _ hlow,
        Operand.Like.depth_eq high _ hhigh]
  | .existsIn plan _ => by
    intro _ h
    cases h with
    | existsIn _ hplan => exact Plan.Like.depth_eq plan _ hplan
  | .group filters => by
    intro _ h
    cases h with
    | group hfilters => exact Filter.Like.listDepth_eq filters _ hfilters

theorem Filter.Like.listDepth_eq : ∀ (filters filters' : List Filter),
    List.Forall₂ (Filter.Like L) filters filters' →
      Filter.listDepth filters = Filter.listDepth filters'
  | [] => by
    rintro _ ⟨⟩
    rfl
  | ⟨_, predicate⟩ :: filters => by
    rintro _ (_ | ⟨⟨_, hpredicate⟩, hfilters⟩)
    rw [Filter.listDepth, Filter.listDepth, Filter.depth, Filter.depth,
      Predicate.Like.depth_eq predicate _ hpredicate, Filter.Like.listDepth_eq filters _ hfilters]

theorem Selection.Like.listDepth_eq : ∀ (selections selections' : List Selection),
    List.Forall₂ (Selection.Like L) selections selections' →
      Selection.listDepth selections = Selection.listDepth selections'
  | [] => by
    rintro _ ⟨⟩
    rfl
  | .column _ :: selections | .raw _ :: selections => by
    rintro _ (_ | ⟨⟨_⟩, hrest⟩)
    rw [Selection.listDepth, Selection.listDepth, Selection.depth, Selection.depth,
      Selection.Like.listDepth_eq selections _ hrest]
  | .subquery plan _ :: selections => by
    rintro _ (_ | ⟨_ | _ | ⟨hplan⟩, hrest⟩)
    rw [Selection.listDepth, Selection.listDepth, Selection.depth, Selection.depth,
      Plan.Like.depth_eq plan _ hplan, Selection.Like.listDepth_eq selections _ hrest]

theorem Source.Like.optionDepth_eq : ∀ (source source' : Option Source),
    Option.Rel (Source.Like L) source source' →
      Source.optionDepth source = Source.optionDepth source'
  | none => by
    rintro _ ⟨⟩
    rfl
  | some (.table _) | some (.raw _) => by
    rintro _ ⟨⟨_⟩⟩
    rfl
  | some (.subquery plan _) => by
    rintro _ ⟨_ | ⟨hplan⟩⟩
    exact Plan.Like.depth_eq plan _ hplan

theorem JoinTarget.Like.depth_eq : ∀ (target target' : JoinTarget),
    JoinTarget.Like L target target' → target.depth = target'.depth
  | .table _ => by
    rintro _ ⟨⟩
    rfl
  | .subquery plan _ => by
    rintro _ (_ | ⟨hplan⟩)
    exact Plan.Like.depth_eq plan _ hplan

theorem Join.Like.listDepth_eq : ∀ (joins joins' : List Join),
    List.Forall₂ (Join.Like L) joins joins' → Join.listDepth joins = Join.listDepth joins'
  | [] => by
    rintro _ ⟨⟩
    rfl
  | ⟨_, target, conditions⟩ :: joins => by
    rintro _ (_ | ⟨⟨_, htarget, hconditions⟩, hjoins⟩)
    rw [Join.listDepth, Join.listDepth, Join.depth, Join.depth,
      JoinTarget.Like.depth_eq target _ htarget, Filter.Like.listDepth_eq conditions _ hconditions,
      Join.Like.listDepth_eq joins _ hjoins]

theorem Branch.Like.listDepth_eq : ∀ (branches branches' : List Branch),
    List.Forall₂ (Branch.Like L) branches branches' →
      Branch.listDepth branches = Branch.listDepth branches'
  | [] => by
    rintro _ ⟨⟩
    rfl
  | ⟨plan, _⟩ :: branches => by
    rintro _ (_ | ⟨⟨_, hplan⟩, hbranches⟩)
    rw [Branch.listDepth, Branch.listDepth, Branch.depth, Branch.depth,
      Plan.Like.depth_eq plan _ hplan, Branch.Like.listDepth_eq branches _ hbranches]

/-- Alike plans are nested equally deep. -/
theorem Plan.Like.depth_eq : ∀ (plan plan' : Plan), Plan.Like L plan plan' →
    plan.depth = plan'.depth
  | { selections, source, joins, filters, havings, branches, .. } => by
    intro _ h
    cases h with
    | mk _ _ _ _ hselections hsource hjoins hfilters _ hhavings _ hbranches =>
      rw [Plan.depth, Plan.depth, Selection.Like.listDepth_eq selections _ hselections,
        Source.Like.optionDepth_eq source _ hsource, Join.Like.listDepth_eq joins _ hjoins,
        Filter.Like.listDepth_eq filters _ hfilters, Filter.Like.listDepth_eq havings _ hhavings,
        Branch.Like.listDepth_eq branches _ hbranches]

end

namespace Plan.Like

variable {plan plan' : Plan} (h : Plan.Like L plan plan')

include h

theorem distinct_eq : plan.distinct = plan'.distinct := by cases h; rfl

theorem page_eq : plan.page = plan'.page := by cases h; rfl

theorem lock_eq : plan.lock = plan'.lock := by cases h; rfl

theorem selections : List.Forall₂ (Selection.Like L) plan.selections plan'.selections := by
  cases h; assumption

theorem source : Option.Rel (Source.Like L) plan.source plan'.source := by cases h; assumption

theorem joins : List.Forall₂ (Join.Like L) plan.joins plan'.joins := by cases h; assumption

theorem filters : List.Forall₂ (Filter.Like L) plan.filters plan'.filters := by
  cases h; assumption

theorem groups : List.Forall₂ L.column plan.groups plan'.groups := by cases h; assumption

theorem havings : List.Forall₂ (Filter.Like L) plan.havings plan'.havings := by
  cases h; assumption

theorem orders : List.Forall₂ (OrderTerm.Like L) plan.orders plan'.orders := by
  cases h; assumption

theorem branches : List.Forall₂ (Branch.Like L) plan.branches plan'.branches := by
  cases h; assumption

theorem unionOrders : List.Forall₂ (OrderTerm.Like L) plan.unionOrders plan'.unionOrders := by
  cases h; assumption

theorem aggregate : Option.Rel (Aggregate.Like L) plan.aggregate plan'.aggregate := by
  cases h; assumption

theorem locks : ∀ lock ∈ plan.lock, L.lock lock := by cases h; assumption

end Plan.Like

theorem Expr.Like.isOr_eq {expr expr' : Expr} (h : Expr.Like L expr expr') :
    expr.isOr = expr'.isOr := by
  cases h with
  | condition connective => cases connective <;> rfl
  | _ => rfl

theorem Expr.Like.isBarePredicate_eq {expr expr' : Expr} (h : Expr.Like L expr expr') :
    expr.isBarePredicate = expr'.isBarePredicate := by
  cases h <;> rfl

theorem Expr.Like.compared_eq {expr expr' : Expr} (h : Expr.Like L expr expr')
    (dialect : Dialect) : expr.compared dialect = expr'.compared dialect := by
  cases h with
  | call function => cases function <;> rfl
  | _ => rfl

theorem Query.Like.isUnion_eq {query query' : Query} (h : Query.Like L query query') :
    query.isUnion = query'.isUnion := by
  cases h <;> rfl

end Shared

end QueryCompiler
