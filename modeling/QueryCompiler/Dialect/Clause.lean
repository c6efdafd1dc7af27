import QueryCompiler.Dialect.Basic
import QueryCompiler.Error
import QueryCompiler.Text.Blank

/-! # Pages and locks in a dialect

The text of pages and locks, and where in a statement it stands.
-/

namespace QueryCompiler
set_option autoImplicit false

namespace Dialect

/-! ## Pages -/

/-- Whether a page is asked for with `TOP`. -/
def usesTop (dialect : Dialect) : Bool := dialect.pagination = .top

/-- The beginning of a SELECT that asks for its first rows. -/
def topText (dialect : Dialect) (limit : Option Nat) : String :=
  match dialect.pagination, limit with
  | .top, some n => "TOP " ++ n.repr ++ " "
  | _, _ => ""

/-- The beginning of an UPDATE or DELETE that changes only so many rows. -/
def writeTopText (dialect : Dialect) (limit : Option Nat) : String :=
  match dialect.pagination, limit with
  | .top, some n => "TOP (" ++ n.repr ++ ") "
  | _, _ => ""

/-- A limit, or the largest one if there is only an offset and the engine insists on a limit. -/
def limitText (dialect : Dialect) (page : Page) : String :=
  match page.limit, page.offset with
  | some n, _ => " LIMIT " ++ n.repr
  | none, some _ =>
    match dialect.unboundedLimit with
    | some unbounded => " LIMIT " ++ unbounded
    | none => ""
  | none, none => ""

/-- An offset. -/
def offsetText : Option Nat → String
  | some n => " OFFSET " ++ n.repr
  | none => ""

/-- A limit and an offset. -/
def limitOffsetText (dialect : Dialect) (page : Page) : String :=
  dialect.limitText page ++ offsetText page.offset

/-- An order for queries that have none, where a page needs one. -/
def noOrderText (ordered : Bool) : String := if ordered then "" else " ORDER BY (SELECT 0)"

/-- The page at the end of a SELECT. -/
def pageText (dialect : Dialect) (ordered : Bool) (page : Page) : String :=
  match dialect.pagination with
  | .limitOffset => dialect.limitOffsetText page
  | .top =>
    match page.offset with
    | some n => noOrderText ordered ++ " OFFSET " ++ n.repr ++ " ROWS"
    | none => ""

/-- How many rows to fetch. -/
def fetchText : Option Nat → String
  | some n => " FETCH NEXT " ++ n.repr ++ " ROWS ONLY"
  | none => ""

/-- The page at the end of a union, which has no beginning of its own. -/
def unionPageText (dialect : Dialect) (ordered : Bool) (page : Page) : String :=
  match dialect.pagination with
  | .limitOffset => dialect.limitOffsetText page
  | .top =>
    if page.limit.isSome || page.offset.isSome then
      noOrderText ordered ++ " OFFSET " ++ (page.offset.getD 0).repr ++ " ROWS" ++
        fetchText page.limit
    else ""

/-! ## Locks -/

/-- The text of a lock, if the dialect writes locks at this place. A lock in the user's words must
have some. -/
def lockAt (dialect : Dialect) (placement : LockPlacement) :
    Option Lock → Except Error (Option String)
  | none => .ok none
  | some lock =>
    if dialect.lockPlacement = placement then
      match lock with
      | .raw sql =>
        if Text.isBlankText sql then .error (.unexpectedNode .blankLock) else .ok (dialect.lockText lock)
      | _ => .ok (dialect.lockText lock)
    else .ok none

/-- The lock after a blank. -/
def lockSuffix : Option String → String
  | some text => " " ++ text
  | none => ""

end Dialect

end QueryCompiler
