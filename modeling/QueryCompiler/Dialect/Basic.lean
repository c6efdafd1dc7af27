import QueryCompiler.Calendar.Timestamp
import QueryCompiler.Clause
import QueryCompiler.Dialect.JsonPath

/-! # Dialects

A dialect is a record of what one database engine does differently: how it quotes names, pages
results, joins in UPDATE and DELETE, locks rows, resolves conflicts, and spells a few functions. The
fields have defaults, so `{ name }` is the plain dialect of that name.

* `Hooks`: the texts that a dialect makes of operands, as functions of any kind. `Frames.hooks` are
  those that put text around an operand, as all engines do.
* `Dialect.quote`, `Dialect.quotePath`, `Dialect.quoteTable`: names in quotes. `Dialect.DefaultQuotes`
  says that the quotes are a pair of characters, as those of all engines are.
-/

namespace QueryCompiler
set_option autoImplicit false

/-! ## Decisions -/

/-- How a page is asked for. -/
inductive Pagination where
  /-- `LIMIT n OFFSET m` at the end. -/
  | limitOffset
  /-- `TOP n` at the beginning and `OFFSET m ROWS` at the end. -/
  | top
  deriving DecidableEq

/-- How UPDATE and DELETE reach rows through joins. -/
inductive JoinStrategy where
  /-- `UPDATE t JOIN … SET …` and `DELETE t FROM t JOIN …` -/
  | native
  /-- A statement on the one table, restricted to the rows whose physical identifier a sub-query
  selects. -/
  | rowId (column : Name)
  /-- `UPDATE t SET … FROM t JOIN …` and `DELETE t FROM t JOIN …` -/
  | updateFrom
  deriving DecidableEq

/-- Where a lock is written. -/
inductive LockPlacement where
  /-- After the query. -/
  | suffix
  /-- After the table in FROM. -/
  | tableHint
  deriving DecidableEq

/-- How INSERT skips rows that collide with existing ones. -/
inductive InsertIgnoreStyle where
  /-- With other keywords instead of `INSERT INTO`. -/
  | keywords (text : String)
  /-- `ON CONFLICT DO NOTHING` -/
  | onConflictDoNothing
  | unsupported
  deriving DecidableEq

/-- How the key of an inserted row is learnt. -/
inductive InsertIdStyle where
  /-- From the database driver, with nothing in the statement. -/
  | driver
  /-- `RETURNING column` -/
  | returning
  /-- A second statement that selects `SCOPE_IDENTITY()`. -/
  | scopeIdentity
  deriving DecidableEq

/-- How INSERT overwrites rows that it collides with. -/
inductive UpsertStyle where
  | unsupported
  /-- `ON DUPLICATE KEY UPDATE` -/
  | onDuplicateKey
  /-- `ON CONFLICT (…) DO UPDATE SET` -/
  | onConflict
  /-- `MERGE … USING (VALUES …)` -/
  | merge
  deriving DecidableEq

/-- How a table is emptied. -/
inductive TruncateStyle where
  /-- `TRUNCATE TABLE t` -/
  | truncateTable
  /-- `TRUNCATE t RESTART IDENTITY CASCADE` -/
  | restartIdentity
  /-- By deleting the table's counter from the sequence table and then all rows of the table. -/
  | sequenceReset (sequenceTable : Name)
  deriving DecidableEq

/-- How existence is asked for. -/
inductive ExistsStyle where
  /-- `SELECT EXISTS (…)` -/
  | selectExists
  /-- `SELECT TOP 1 1 …` -/
  | topOne
  deriving DecidableEq

/-! ## Functions of texts -/

/-- The texts that a dialect makes of operands. -/
structure Hooks where
  /-- The function that extracts a part of its operand. -/
  dateFunction : DatePart → String → String
  /-- A value that is compared with such a part. -/
  dateValue : DatePart → String → String
  /-- The scalar at a place inside a JSON column. -/
  jsonSelector : List JsonStep → String → String
  /-- The length of the array at a place inside a JSON column. -/
  jsonLength : List JsonStep → String → String
  /-- The left operand of LIKE. -/
  likeOperand : String → String

/-- Text that is put around another text. -/
structure Frame where
  before : String := ""
  after : String := ""
  deriving DecidableEq

/-- The text inside a frame. -/
def Frame.wrap (frame : Frame) (text : String) : String := frame.before ++ text ++ frame.after

theorem Frame.wrap_empty : Frame.wrap {} = id := by
  funext text
  rw [Frame.wrap, String.empty_append, String.append_empty]
  rfl

/-- What is put around operands. The defaults are those of a dialect that says nothing else. -/
structure Frames where
  dateFunction : DatePart → Frame := fun part => ⟨part.name ++ "(", ")"⟩
  dateValue : DatePart → Frame := fun _ => {}
  jsonSelector : List JsonStep → Frame := fun steps =>
    ⟨"json_unquote(json_extract(", ", " ++ jsonPath steps ++ "))"⟩
  jsonLength : List JsonStep → Frame := fun steps =>
    ⟨"json_length(", if steps.isEmpty then ")" else ", " ++ jsonPath steps ++ ")"⟩
  likeOperand : Frame := {}

/-- The functions that put text around operands. -/
def Frames.hooks (frames : Frames) : Hooks where
  dateFunction part := (frames.dateFunction part).wrap
  dateValue part := (frames.dateValue part).wrap
  jsonSelector steps := (frames.jsonSelector steps).wrap
  jsonLength steps := (frames.jsonLength steps).wrap
  likeOperand := frames.likeOperand.wrap

/-- A character of a name inside quotes: the closing quote is doubled. -/
def Dialect.escapeInName (close c : Char) : List Char := if c = close then [close, c] else [c]

/-- A name between quotes; the wildcard is never quoted. -/
def Dialect.quoteBetween (opening close : Char) (name : Name) : String :=
  if name = wildcard then wildcard
  else String.ofList (opening :: (name.toList.flatMap (escapeInName close) ++ [close]))

/-! ## Dialects -/

/-- The lock clauses of most engines. -/
def Lock.defaultText : Lock → Option String
  | .update => some "FOR UPDATE"
  | .shared => some "LOCK IN SHARE MODE"
  | .raw sql => some sql

/-- What one database engine does differently. -/
structure Dialect where
  name : String
  openQuote : Char := '"'
  closeQuote : Char := '"'
  /-- A name in quotes. -/
  quote : Name → String := Dialect.quoteBetween openQuote closeQuote
  placeholder : String := "?"
  pagination : Pagination := .limitOffset
  /-- The limit to write when only an offset is asked for, if the engine insists on one. -/
  unboundedLimit : Option String := none
  joinStrategy : JoinStrategy := .native
  /-- Whether DELETE always selects its rows by their physical identifier. -/
  deletesByRowId : Bool := false
  /-- Whether UPDATE and DELETE on one table take ORDER BY and LIMIT. -/
  ordersWrites : Bool := false
  /-- Whether the branches of a union are wrapped in derived tables. -/
  wrapsBranches : Bool := false
  lockPlacement : LockPlacement := .suffix
  /-- The text of a lock; an engine without row locks has none. -/
  lockText : Lock → Option String := Lock.defaultText
  insertIgnoreStyle : InsertIgnoreStyle := .unsupported
  insertIdStyle : InsertIdStyle := .driver
  upsertStyle : UpsertStyle := .unsupported
  truncateStyle : TruncateStyle := .truncateTable
  existsStyle : ExistsStyle := .selectExists
  /-- What follows the table in an INSERT of nothing but defaults. -/
  emptyInsertValues : String := "DEFAULT VALUES"
  /-- How timestamps are stored. -/
  timestampFormat : TimestampFormat := .seconds
  /-- The word for LIKE that does or does not tell capitals from small letters, if there is one. -/
  likeOperator : Bool → Option String := fun caseSensitive =>
    if caseSensitive then none else some "LIKE"
  hooks : Hooks := Frames.hooks {}

namespace Dialect

/-! ## Quoting -/

/-- The dialect has a pair of quotes, and puts names between them. -/
def DefaultQuotes (dialect : Dialect) : Prop :=
  dialect.quote = quoteBetween dialect.openQuote dialect.closeQuote

theorem DefaultQuotes.quote_wildcard {dialect : Dialect} (h : dialect.DefaultQuotes) :
    dialect.quote wildcard = wildcard := by
  rw [h]
  exact if_pos rfl

/-- Texts with a separator between them. -/
def joinTexts (separator : String) : List String → String
  | [] => ""
  | [text] => text
  | text :: texts => text ++ separator ++ joinTexts separator texts

/-- The names of a path in quotes, with dots between them. -/
def quotePath (dialect : Dialect) (path : Path) : String :=
  joinTexts "." (path.map dialect.quote)

theorem quotePath_singleton (dialect : Dialect) (name : Name) :
    dialect.quotePath [name] = dialect.quote name := rfl

theorem quotePath_cons (dialect : Dialect) (name : Name) {path : Path} (h : path ≠ []) :
    dialect.quotePath (name :: path) = dialect.quote name ++ "." ++ dialect.quotePath path := by
  obtain ⟨next, rest, rfl⟩ := List.exists_cons_of_ne_nil h
  rfl

/-- An alias, if there is one. -/
def aliasText (dialect : Dialect) : Option Name → String
  | none => ""
  | some label => " AS " ++ dialect.quote label

/-- A table name in quotes, with its alias. -/
def quoteTable (dialect : Dialect) (table : TableName) : String :=
  dialect.quotePath table.path ++ dialect.aliasText table.label

/-- A column reference in quotes, with its JSON steps and its alias. -/
def quoteColumn (dialect : Dialect) (column : ColumnRef) : String :=
  let path := dialect.quotePath column.path
  (if column.json.isEmpty then path else dialect.hooks.jsonSelector column.json path) ++
    dialect.aliasText column.label

/-- Names in quotes, with commas between them. -/
def quoteNames (dialect : Dialect) (names : List Name) : String :=
  joinTexts ", " (names.map dialect.quote)

end Dialect

end QueryCompiler
