import QueryCompiler.Clause
import QueryCompiler.Fragment.Error

/-! # Errors

Why a plan or a statement tree has no SQL text. Each cause has its own wording; the four kinds of
errors add what they have in common.
-/

namespace QueryCompiler
set_option autoImplicit false

/-- Plans that cannot be built into a statement. -/
inductive ConstructionError where
  | joinsWithoutSource
  | missingTable (statement : String)
  | aliasedColumn (fragment : String)
  | misplacedWildcard (fragment : String)
  | notPlainColumn (fragment : String)
  | notAssignable (fragment : String)
  | emptyUpdate
  | upsertWithoutRows
  | upsertWithoutKey
  | mergeWithoutValues
  | rowsWithoutColumns
  | rowSize (index size expected : Nat)
  | rowMissing (index : Nat) (column : String)
  | updateTarget
  | unknownDialect (name : String)
  deriving DecidableEq

/-- The wording of a construction error. -/
def ConstructionError.message : ConstructionError → String
  | .joinsWithoutSource => "joins require a FROM table"
  | .missingTable statement => statement ++ " requires a table"
  | .aliasedColumn fragment => "column `" ++ fragment ++ "` cannot carry an alias here"
  | .misplacedWildcard fragment => "wildcard `" ++ fragment ++ "` is only valid in a select list"
  | .notPlainColumn fragment => "`" ++ fragment ++ "` is not a plain column name"
  | .notAssignable fragment => "`" ++ fragment ++ "` cannot be assigned"
  | .emptyUpdate => "update requires at least one column"
  | .upsertWithoutRows => "upsert requires at least one row"
  | .upsertWithoutKey => "upsert requires at least one unique-by column"
  | .mergeWithoutValues => "upsert requires at least one row of values"
  | .rowsWithoutColumns => "inserted rows have no columns"
  | .rowSize index size expected =>
    "row " ++ index.repr ++ " has " ++ size.repr ++ " columns, expected " ++ expected.repr
  | .rowMissing index column => "row " ++ index.repr ++ " is missing column `" ++ column ++ "`"
  | .updateTarget => "UPDATE target must be a table"
  | .unknownDialect name => "unknown dialect: " ++ name

/-- What an engine may have no syntax for. -/
inductive Operation where
  | writeOffset
  | orderedUpdateWithJoins
  | orderedDeleteWithJoins
  | orderedOrLimitedWrite
  | orderedWrite
  | insertOrIgnore
  | upsert
  | caseSensitiveLike
  deriving DecidableEq

/-- The wording of an operation. -/
def Operation.message : Operation → String
  | .writeOffset => "OFFSET in UPDATE or DELETE"
  | .orderedUpdateWithJoins => "UPDATE with joins and ORDER BY/LIMIT"
  | .orderedDeleteWithJoins => "DELETE with joins and ORDER BY/LIMIT"
  | .orderedOrLimitedWrite => "ORDER BY/LIMIT in UPDATE or DELETE"
  | .orderedWrite => "ORDER BY in UPDATE or DELETE"
  | .insertOrIgnore => "insert or ignore"
  | .upsert => "upsert"
  | .caseSensitiveLike => "case-sensitive LIKE"

/-- Parts of a statement tree that mean nothing. -/
inductive NodeError where
  | argumentCount (part : DatePart) (count : Nat)
  | jsonLengthArgument
  | emptyCondition
  | hintedSource
  | blankLock
  | emulatedTruncate (dialect : String)
  | nestedTooDeep
  deriving DecidableEq

/-- The wording of a node error. -/
def NodeError.message : NodeError → String
  | .argumentCount part count => part.name ++ " expects one argument, got " ++ count.repr
  | .jsonLengthArgument => "JSON length expects a single column argument"
  | .emptyCondition => "condition without terms"
  | .hintedSource => "lock hint on a source that is not a table"
  | .blankLock => "empty raw lock clause"
  | .emulatedTruncate dialect => dialect ++ " emulates TRUNCATE with DELETE statements"
  | .nestedTooDeep => "plan is nested too deep"

/-- Why there is no SQL text. -/
inductive Error where
  | construction (cause : ConstructionError)
  | unsupported (dialect : String) (operation : Operation)
  | unexpectedNode (cause : NodeError)
  | fragment (error : FragmentError)
  deriving DecidableEq

/-- The wording of an error. -/
def Error.message : Error → String
  | .construction cause => "invalid query construction: " ++ cause.message
  | .unsupported dialect operation => dialect ++ " does not support " ++ operation.message
  | .unexpectedNode cause => "unexpected node: " ++ cause.message
  | .fragment error => "invalid fragment: " ++ error.message

end QueryCompiler
