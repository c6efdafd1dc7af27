import QueryCompiler.Proofs.Leaves
import QueryCompiler.Proofs.Outcome
import QueryCompiler.Proofs.Scan

/-! # Judgements on stretches of SQL

A `Judgement` says of a stretch of SQL with given leaves whether it may stand between two edges. It is
closed under putting stretches together and under the functions of the dialect, and it holds of the
small parts: separators, names, and single leaves. This module has its rules (`Written`), the words of
clauses, and the texts that a dialect makes of names, pages and locks.
-/

namespace QueryCompiler
set_option autoImplicit false

/-! ## Parts that a dialect provides -/

/-- The functions that make texts of expressions. -/
inductive Hooks.Has (hooks : Hooks) : (String → String) → Prop where
  | bare : Has hooks id
  | dateFunction (part : DatePart) : Has hooks (hooks.dateFunction part)
  | dateValue (part : DatePart) : Has hooks (hooks.dateValue part)
  | jsonSelector (steps : List JsonStep) : Has hooks (hooks.jsonSelector steps)
  | jsonLength (steps : List JsonStep) : Has hooks (hooks.jsonLength steps)
  | likeOperand : Has hooks hooks.likeOperand

/-- The phrases of a dialect. -/
inductive Dialect.Phrase (dialect : Dialect) : String → Prop where
  | like {caseSensitive : Bool} {text : String}
    (h : dialect.likeOperator caseSensitive = some text) : Phrase dialect text
  | unbounded {text : String} (h : dialect.unboundedLimit = some text) : Phrase dialect text
  | insertIgnore {text : String} (h : dialect.insertIgnoreStyle = .keywords text) :
    Phrase dialect text
  | emptyInsert : Phrase dialect dialect.emptyInsertValues

/-! ## Judgements -/

/-- A judgement on stretches of SQL that everything written by `r` satisfies. -/
structure Judgement (r : Renderer) where
  /-- Whether a stretch with these leaves may stand between the edges. -/
  holds : Edge → Edge → List Leaf → Sql → Prop
  of_any {last : Edge} {leaves : List Leaf} {sql : Sql} :
    holds .any last leaves sql → holds .clear last leaves sql
  to_any {first : Edge} {leaves : List Leaf} {sql : Sql} :
    holds first .clear leaves sql → holds first .any leaves sql
  append {first middle last : Edge} {leaves leaves' : List Leaf} {a b : Sql} :
    holds first middle leaves a → holds middle last leaves' b →
      holds first last (leaves ++ leaves') (a ++ b)
  empty (edge : Edge) : holds edge edge [] {}
  separator {text : String} : isSeparator text.toList = true → holds .any .clear [] text
  phrase {text : String} : r.dialect.Phrase text → holds .any .clear [] text
  hook {f : String → String} {leaves : List Leaf} {sql : Sql} : r.dialect.hooks.Has f →
    holds .clear .any leaves sql → holds .clear .any leaves (sql.mapText f)
  name (name : Name) : holds .clear .any [] (r.dialect.quote name)
  bound (value : Value) (purpose : Purpose) :
    holds .clear .any [.bound value purpose] (.bound r.dialect.placeholder value purpose)
  raw (sql : Raw) (purpose : Purpose) : holds .clear .any [.raw sql purpose] (.ofRaw sql purpose)
  plan {plan : Plan} {sql : Sql} (purpose : Purpose) :
    r.nested plan = .ok sql → holds .clear .any [.plan plan purpose] (sql.retag purpose)
  lock {lock : Lock} {text : String} :
    r.dialect.lockText lock = some text → holds .clear .any [.lock lock] text
  /-- A lock may go unwritten. -/
  unlocked (edge : Edge) (lock : Lock) : holds edge edge [.lock lock] {}

variable {r : Renderer}

/-- A stretch that satisfies a judgement. -/
def Written (J : Judgement r) (first last : Edge) (leaves : List Leaf) (sql : Sql) : Prop :=
  J.holds first last leaves sql

/-- Stretches that satisfy a judgement one by one. -/
inductive WrittenList (J : Judgement r) : List Leaf → List Sql → Prop where
  | nil : WrittenList J [] []
  | cons {leaves leaves' : List Leaf} {sql : Sql} {sqls : List Sql} :
    Written J .clear .any leaves sql → WrittenList J leaves' sqls →
      WrittenList J (leaves ++ leaves') (sql :: sqls)

/-- A separator as it stands in the text of the program. -/
theorem isSeparator_literal {cs : List Char} (h : isSeparator cs = true) :
    isSeparator (String.ofList cs).toList = true := by
  rw [String.toList_ofList]
  exact h

theorem isPlainText_literal {cs : List Char} (h : isPlainText cs = true) :
    isPlainText (String.ofList cs).toList = true := by
  rw [String.toList_ofList]
  exact h

theorem Sql.ofText_append (a b : String) : Sql.ofText (a ++ b) = Sql.ofText a ++ Sql.ofText b := rfl

theorem Sql.empty_append (sql : Sql) : ({} : Sql) ++ sql = sql := by
  show Sql.mk ("" ++ sql.text) ([] ++ sql.bindings) = sql
  rw [String.empty_append, List.nil_append]

theorem Sql.append_empty (sql : Sql) : sql ++ ({} : Sql) = sql := by
  show Sql.mk (sql.text ++ "") (sql.bindings ++ []) = sql
  rw [String.append_empty, List.append_nil]

namespace Written

variable {J : Judgement r} {first middle last : Edge} {leaves leaves' : List Leaf} {a b : Sql}

theorem of_any (h : Written J .any last leaves a) : Written J .clear last leaves a := J.of_any h

theorem to_any (h : Written J first last leaves a) : Written J first .any leaves a := by
  cases last with
  | any => exact h
  | clear => exact J.to_any h

theorem also (ha : Written J first middle leaves a) (hb : Written J middle last leaves' b) :
    Written J first last (leaves ++ leaves') (a ++ b) := J.append ha hb

/-- Text without leaves behind a stretch. -/
theorem text (ha : Written J first middle leaves a) (hb : Written J middle last [] b) :
    Written J first last leaves (a ++ b) := by
  have h := ha.also hb
  rwa [List.append_nil] at h

/-- A stretch behind text without leaves. -/
theorem onto (ha : Written J first middle [] a) (hb : Written J middle last leaves b) :
    Written J first last leaves (a ++ b) := ha.also hb

/-- A separator in front of other text. -/
theorem lead (text : String) (h : isSeparator text.toList = true) :
    Written J .any .clear [] text := J.separator h

/-- A separator behind a stretch. -/
theorem lit (ha : Written J first middle leaves a) (text : String)
    (h : isSeparator text.toList = true) : Written J first .clear leaves (a ++ text) :=
  ha.to_any.text (lead text h)

/-- Plain text, which may be empty. -/
theorem plain {text : String} (h : isPlainText text.toList = true) :
    Written J .clear .clear [] text := by
  by_cases hempty : text = ""
  · rw [hempty]
    exact J.empty .clear
  · refine (lead text ?_).of_any
    rw [isSeparator, Bool.and_eq_true]
    refine ⟨?_, h⟩
    simpa using hempty

/-- A stretch without anything in it. -/
theorem empty (edge : Edge) : Written J edge edge [] {} := J.empty edge

end Written

/-! ## Words -/

theorem Comparison.isSeparator_sql (comparison : Comparison) :
    isSeparator comparison.sql.toList = true := by
  cases comparison <;> exact isSeparator_literal (by decide)

theorem Connective.isSeparator_sql (connective : Connective) :
    isSeparator (" " ++ connective.sql ++ " ").toList = true := by
  have hblank : isSeparator " ".toList = true := isSeparator_literal (by decide)
  have hword : isSeparator connective.sql.toList = true := by
    cases connective <;> exact isSeparator_literal (by decide)
  rw [String.toList_append, String.toList_append]
  exact isSeparator_append (isSeparator_append hblank hword) hblank

theorem AggregateFunction.isSeparator_sql (function : AggregateFunction) :
    isSeparator function.sql.toList = true := by
  cases function <;> exact isSeparator_literal (by decide)

theorem JoinKind.isSeparator_sql (kind : JoinKind) : isSeparator kind.sql.toList = true := by
  cases kind <;> exact isSeparator_literal (by decide)

theorem Direction.isSeparator_sql (direction : Direction) :
    isSeparator direction.sql.toList = true := by
  cases direction <;> exact isSeparator_literal (by decide)

theorem isPlainText_notText (negated : Bool) : isPlainText (notText negated).toList = true := by
  cases negated <;> exact isPlainText_literal (by decide)

theorem isPlainText_distinctText (distinct : Bool) :
    isPlainText (distinctText distinct).toList = true := by
  cases distinct <;> exact isPlainText_literal (by decide)

theorem isSeparator_unionText (all : Bool) : isSeparator (unionText all).toList = true := by
  cases all <;> exact isSeparator_literal (by decide)

theorem isSeparator_emptyInText (negated : Bool) : isSeparator (emptyInText negated).toList = true := by
  cases negated <;> exact isSeparator_literal (by decide)

/-! ## Names -/

namespace Written

variable {J : Judgement r} {leaves : List Leaf} {a : Sql}

theorem hooked {f : String → String} (hf : r.dialect.hooks.Has f)
    (h : Written J .clear .any leaves a) : Written J .clear .any leaves (a.mapText f) := J.hook hf h

theorem hookedText {f : String → String} {text : String} (hf : r.dialect.hooks.Has f)
    (h : Written J .clear .any [] text) : Written J .clear .any [] (f text) := J.hook hf h

theorem parens (h : Written J .clear .any leaves a) : Written J .any .clear leaves a.parens :=
  ((lead "(" rfl).onto h).lit ")" rfl

theorem parensIf (needed : Bool) (h : Written J .clear .any leaves a) :
    Written J .clear .any leaves (a.parensIf needed) := by
  cases needed with
  | true => exact h.parens.of_any.to_any
  | false => exact h

theorem joinTexts {separator : String} (hsep : isSeparator separator.toList = true) :
    ∀ {texts : List String}, (∀ text ∈ texts, Written J .clear .any [] text) →
      Written J .clear .any [] (Dialect.joinTexts separator texts)
  | [], _ => (empty .clear).to_any
  | [text], h => h text List.mem_cons_self
  | text :: next :: texts, h => by
    have hfirst := h text List.mem_cons_self
    have hrest := joinTexts hsep fun t ht => h t (List.mem_cons_of_mem text ht)
    exact (hfirst.lit separator hsep).onto hrest

theorem quotePath (path : Path) : Written J .clear .any [] (r.dialect.quotePath path) := by
  refine joinTexts (isSeparator_literal (by decide)) fun text htext => ?_
  obtain ⟨name, -, rfl⟩ := List.mem_map.mp htext
  exact J.name name

theorem quoteNames (names : List Name) : Written J .clear .any [] (r.dialect.quoteNames names) := by
  refine joinTexts (isSeparator_literal (by decide)) fun text htext => ?_
  obtain ⟨name, -, rfl⟩ := List.mem_map.mp htext
  exact J.name name

theorem aliasText (label : Option Name) : Written J .any .any [] (r.dialect.aliasText label) := by
  cases label with
  | none => exact empty .any
  | some name => exact (lead " AS " rfl).onto (J.name name)

theorem quoteTable (table : TableName) : Written J .clear .any [] (r.dialect.quoteTable table) :=
  (quotePath table.path).text (aliasText table.label)

theorem quoteColumn (column : ColumnRef) :
    Written J .clear .any [] (r.dialect.quoteColumn column) := by
  rw [Dialect.quoteColumn, Sql.ofText_append]
  refine text ?_ (aliasText column.label)
  split
  · exact quotePath column.path
  · exact hookedText (.jsonSelector column.json) (quotePath column.path)

/-! ## Pages and locks -/

theorem topText (limit : Option Nat) : Written J .clear .clear [] (r.dialect.topText limit) := by
  unfold Dialect.topText
  split
  · next n _ => exact (((lead "TOP " rfl).lit _ (isSeparator_repr n)).lit " " rfl).of_any
  · exact empty .clear

theorem writeTopText (limit : Option Nat) :
    Written J .clear .clear [] (r.dialect.writeTopText limit) := by
  unfold Dialect.writeTopText
  split
  · next n _ => exact (((lead "TOP (" rfl).lit _ (isSeparator_repr n)).lit ") " rfl).of_any
  · exact empty .clear

theorem limitText (page : Page) : Written J .any .any [] (r.dialect.limitText page) := by
  unfold Dialect.limitText
  split
  · next _ n _ => exact to_any ((lead " LIMIT " rfl).lit _ (isSeparator_repr n))
  · split
    · next text h => exact ((lead " LIMIT " rfl).to_any.text (J.phrase (.unbounded h))).to_any
    · exact empty .any
  · exact empty .any

theorem offsetText (offset : Option Nat) : Written J .any .any [] (Dialect.offsetText offset) := by
  cases offset with
  | none => exact empty .any
  | some n => exact to_any ((lead " OFFSET " rfl).lit _ (isSeparator_repr n))

theorem limitOffsetText (page : Page) : Written J .any .any [] (r.dialect.limitOffsetText page) :=
  (limitText page).text (offsetText page.offset)

theorem noOrderText (ordered : Bool) : Written J .any .any [] (Dialect.noOrderText ordered) := by
  cases ordered with
  | true => exact empty .any
  | false => exact to_any (lead " ORDER BY (SELECT 0)" rfl)

theorem pageText (ordered : Bool) (page : Page) :
    Written J .any .any [] (r.dialect.pageText ordered page) := by
  unfold Dialect.pageText
  split
  · exact limitOffsetText page
  · split
    · next n _ =>
      have horder : Written J .any .any [] (Dialect.noOrderText ordered) := noOrderText ordered
      exact (((horder.lit " OFFSET " rfl).lit _ (isSeparator_repr n)).lit " ROWS" rfl).to_any
    · exact empty .any

theorem fetchText (limit : Option Nat) : Written J .any .any [] (Dialect.fetchText limit) := by
  cases limit with
  | none => exact empty .any
  | some n => exact to_any (((lead " FETCH NEXT " rfl).lit _ (isSeparator_repr n)).lit " ROWS ONLY" rfl)

theorem unionPageText (ordered : Bool) (page : Page) :
    Written J .any .any [] (r.dialect.unionPageText ordered page) := by
  unfold Dialect.unionPageText
  split
  · exact limitOffsetText page
  · split
    · have horder : Written J .any .any [] (Dialect.noOrderText ordered) := noOrderText ordered
      have hoffset := (horder.lit " OFFSET " rfl).lit _ (isSeparator_repr (page.offset.getD 0))
      exact (hoffset.lit " ROWS" rfl).to_any.text (fetchText page.limit)
    · exact empty .any

end Written

/-- A lock is written in at most one of its two places. -/
theorem Dialect.lockAt_written (J : Judgement r) (placement : LockPlacement) (lock : Option Lock) :
    Ensures (r.dialect.lockAt placement lock) fun text =>
      Written J .any .any (Lock.leaves lock) (Dialect.lockSuffix text) := by
  have hlocked : ∀ lock,
      Written J .any .any [.lock lock] (Dialect.lockSuffix (r.dialect.lockText lock)) := by
    intro lock
    cases h : r.dialect.lockText lock with
    | none => exact J.unlocked .any lock
    | some text => exact (Written.lead " " rfl).onto (J.lock h)
  cases lock with
  | none => exact .ok (.empty .any)
  | some lock =>
    unfold Dialect.lockAt
    refine .ite (fun _ => ?_) fun _ => .ok (J.unlocked .any lock)
    split
    · exact .ite (fun _ => .error) fun _ => .ok (hlocked _)
    · exact .ok (hlocked _)

end QueryCompiler
