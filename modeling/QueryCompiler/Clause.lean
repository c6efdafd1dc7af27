import QueryCompiler.Value.Basic

/-! # Words of clauses

The small vocabularies that plans and statement trees share: comparisons, connectives, date parts,
aggregate functions, join kinds, sort directions, locks, pages, and SQL text given as it is. Each word
has its SQL spelling.
-/

namespace QueryCompiler
set_option autoImplicit false

/-! ## Comparisons and connectives -/

/-- A comparison of two operands. -/
inductive Comparison where
  | eq
  | ne
  | lt
  | le
  | gt
  | ge
  deriving DecidableEq

namespace Comparison

/-- The comparison in SQL. -/
def sql : Comparison → String
  | .eq => "="
  | .ne => "!="
  | .lt => "<"
  | .le => "<="
  | .gt => ">"
  | .ge => ">="

/-- The comparison with the given spelling. -/
def ofSql? (s : String) : Option Comparison := [eq, ne, lt, le, gt, ge].find? (·.sql = s)

end Comparison

/-- How conditions are joined. -/
inductive Connective where
  | and
  | or
  deriving DecidableEq

namespace Connective

/-- The connective in SQL. -/
def sql : Connective → String
  | .and => "AND"
  | .or => "OR"

/-- The connective with the given spelling. -/
def ofSql? (s : String) : Option Connective := [.and, .or].find? (·.sql = s)

end Connective

/-! ## Functions -/

/-- The part of a date and time that a date function extracts. -/
inductive DatePart where
  | date
  | time
  | day
  | month
  | year
  deriving DecidableEq

namespace DatePart

/-- The part's name in lower case. -/
def name : DatePart → String
  | .date => "date"
  | .time => "time"
  | .day => "day"
  | .month => "month"
  | .year => "year"

/-- The part with the given name. -/
def ofName? (s : String) : Option DatePart := [date, time, day, month, year].find? (·.name = s)

end DatePart

/-- A function over all rows of a group. -/
inductive AggregateFunction where
  | count
  | sum
  | avg
  | min
  | max
  deriving DecidableEq

namespace AggregateFunction

/-- The function in SQL. -/
def sql : AggregateFunction → String
  | .count => "count"
  | .sum => "sum"
  | .avg => "avg"
  | .min => "min"
  | .max => "max"

/-- The function with the given spelling. -/
def ofSql? (s : String) : Option AggregateFunction :=
  [count, sum, avg, .min, .max].find? (·.sql = s)

end AggregateFunction

/-! ## Joins, order, pages and locks -/

/-- How a join treats rows without a partner. -/
inductive JoinKind where
  | inner
  | left
  | right
  | cross
  deriving DecidableEq

namespace JoinKind

/-- The join in SQL. -/
def sql : JoinKind → String
  | .inner => "INNER JOIN"
  | .left => "LEFT JOIN"
  | .right => "RIGHT JOIN"
  | .cross => "CROSS JOIN"

/-- The join with the given spelling. -/
def ofSql? (s : String) : Option JoinKind := [inner, left, right, cross].find? (·.sql = s)

end JoinKind

/-- Smallest or largest first. -/
inductive Direction where
  | ascending
  | descending
  deriving DecidableEq

namespace Direction

/-- The direction in SQL. -/
def sql : Direction → String
  | .ascending => "ASC"
  | .descending => "DESC"

/-- The direction with the given spelling. -/
def ofSql? (s : String) : Option Direction := [ascending, descending].find? (·.sql = s)

end Direction

/-- Which rows of a result are kept: at most `limit` of them, after the first `offset`. -/
structure Page where
  limit : Option Nat := none
  offset : Option Nat := none
  deriving DecidableEq

/-- A lock on the rows that are read. -/
inductive Lock where
  /-- For a later update. -/
  | update
  /-- Shared with other readers. -/
  | shared
  /-- In the words given. -/
  | raw (sql : String)
  deriving DecidableEq

/-! ## SQL text given as it is -/

/-- SQL text that is passed on unchanged, with the values for its placeholders. -/
structure Raw where
  sql : String
  values : List Value := []
  deriving DecidableEq

/-- Adds a value for the next placeholder. -/
def Raw.bind {α : Type} [ToValue α] (raw : Raw) (value : α) : Raw :=
  { raw with values := raw.values ++ [toValue value] }

end QueryCompiler
