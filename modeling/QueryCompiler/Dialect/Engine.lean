import QueryCompiler.Dialect.Basic
import QueryCompiler.Error

/-! # Database engines

The four engines, their dialects, and the names by which they can be chosen. Every engine makes texts of
operands by putting text around them (`Engine.frames`).
-/

namespace QueryCompiler
set_option autoImplicit false

/-! ## Functions of texts -/

namespace Frames

/-- What PostgreSQL puts around operands. -/
def postgres : Frames where
  dateFunction
    | .date => ⟨"", "::date"⟩
    | .time => ⟨"", "::time"⟩
    | part => ⟨"extract(" ++ part.name ++ " from ", ")"⟩
  jsonSelector steps := ⟨"", jsonArrows true steps⟩
  jsonLength steps := ⟨"json_array_length((", jsonArrows false steps ++ ")::json)"⟩
  likeOperand := ⟨"", "::text"⟩

/-- What SQLite puts around operands. -/
def sqlite : Frames where
  dateFunction part :=
    let format := match part with
      | .date => "%Y-%m-%d"
      | .time => "%H:%M:%S"
      | .day => "%d"
      | .month => "%m"
      | .year => "%Y"
    ⟨"strftime('" ++ format ++ "', ", ")"⟩
  -- the parts come as text, days and months with two digits
  dateValue
    | .day => ⟨"printf('%02d', ", ")"⟩
    | .month => ⟨"printf('%02d', ", ")"⟩
    | _ => ⟨"cast(", " as text)"⟩
  jsonSelector steps := ⟨"json_extract(", ", " ++ jsonPath steps ++ ")"⟩
  jsonLength steps :=
    ⟨"json_array_length(", if steps.isEmpty then ")" else ", " ++ jsonPath steps ++ ")"⟩

/-- What SQL Server puts around operands. -/
def sqlserver : Frames where
  dateFunction
    | .date => ⟨"cast(", " as date)"⟩
    | .time => ⟨"cast(", " as time)"⟩
    | part => ⟨part.name ++ "(", ")"⟩
  jsonSelector steps := ⟨"json_value(", ", " ++ jsonPath steps ++ ")"⟩
  jsonLength steps := ⟨"(select count(*) from openjson(", ", " ++ jsonPath steps ++ "))"⟩

end Frames

/-! ## Dialects -/

namespace Dialect

/-- MySQL and MariaDB. -/
def mysql : Dialect where
  name := "mysql"
  openQuote := '\x60'
  closeQuote := '\x60'
  -- the largest limit that the server takes
  unboundedLimit := some "18446744073709551615"
  ordersWrites := true
  insertIgnoreStyle := .keywords "INSERT IGNORE INTO"
  upsertStyle := .onDuplicateKey
  emptyInsertValues := "() VALUES ()"
  likeOperator caseSensitive := some (if caseSensitive then "LIKE BINARY" else "LIKE")

/-- PostgreSQL. -/
def postgres : Dialect where
  name := "postgres"
  joinStrategy := .rowId "ctid"
  lockText
    | .update => some "FOR UPDATE"
    | .shared => some "FOR SHARE"
    | .raw sql => some sql
  insertIgnoreStyle := .onConflictDoNothing
  insertIdStyle := .returning
  upsertStyle := .onConflict
  truncateStyle := .restartIdentity
  likeOperator caseSensitive := some (if caseSensitive then "LIKE" else "ILIKE")
  hooks := Frames.postgres.hooks

/-- SQLite. Locks are for the whole database, so rows have none. -/
def sqlite : Dialect where
  name := "sqlite"
  unboundedLimit := some "-1"
  joinStrategy := .rowId "rowid"
  deletesByRowId := true
  wrapsBranches := true
  lockText _ := none
  insertIgnoreStyle := .keywords "INSERT OR IGNORE INTO"
  upsertStyle := .onConflict
  truncateStyle := .sequenceReset "sqlite_sequence"
  hooks := Frames.sqlite.hooks

/-- Microsoft SQL Server. -/
def sqlserver : Dialect where
  name := "sqlserver"
  openQuote := '['
  closeQuote := ']'
  pagination := .top
  joinStrategy := .updateFrom
  wrapsBranches := true
  lockPlacement := .tableHint
  lockText
    | .update => some "WITH(ROWLOCK,UPDLOCK,HOLDLOCK)"
    | .shared => some "WITH(ROWLOCK,HOLDLOCK)"
    | .raw sql => some sql
  insertIdStyle := .scopeIdentity
  upsertStyle := .merge
  existsStyle := .topOne
  timestampFormat := .milliseconds
  hooks := Frames.sqlserver.hooks

end Dialect

/-- A database engine. -/
inductive Engine where
  | mysql
  | postgres
  | sqlite
  | sqlserver
  deriving DecidableEq

namespace Engine

/-- The engines in a fixed order. -/
def all : List Engine := [mysql, postgres, sqlite, sqlserver]

/-- The dialect of an engine. -/
def dialect : Engine → Dialect
  | .mysql => .mysql
  | .postgres => .postgres
  | .sqlite => .sqlite
  | .sqlserver => .sqlserver

/-- What an engine puts around operands. -/
def frames : Engine → Frames
  | .mysql => {}
  | .postgres => .postgres
  | .sqlite => .sqlite
  | .sqlserver => .sqlserver

theorem hooks_eq (engine : Engine) : engine.dialect.hooks = engine.frames.hooks := by
  cases engine <;> rfl

theorem defaultQuotes (engine : Engine) : engine.dialect.DefaultQuotes := by
  cases engine <;> rfl

/-- The name of an engine. -/
def name (engine : Engine) : String := engine.dialect.name

/-- The names by which an engine can be chosen. -/
def names : Engine → List String
  | .mysql => ["mysql", "mariadb"]
  | .postgres => ["postgres", "pgsql", "postgresql"]
  | .sqlite => ["sqlite"]
  | .sqlserver => ["sqlserver", "mssql", "sqlsrv"]

/-- The engine that goes by exactly this name. -/
def ofName? (name : String) : Option Engine := all.find? (·.names.contains name)

/-- The engine that goes by this name, in capitals or not. -/
def ofString (s : String) : Except Error Engine :=
  match ofName? s.toLower with
  | some engine => .ok engine
  | none => .error (.construction (.unknownDialect s.toLower))

end Engine

end QueryCompiler
