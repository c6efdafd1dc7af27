import QueryCompiler.Value.Basic

/-! # Bindings

A statement comes with one binding for each placeholder of its text, in the order of the
placeholders. A binding is a value with its purpose: the clause that it was given for. The values of
one purpose, in order, form the bucket of that purpose.
-/

namespace QueryCompiler
set_option autoImplicit false

/-- The clause that a value belongs to. -/
inductive Purpose where
  | select
  | from
  | join
  | where
  | groupBy
  | having
  | order
  | union
  | unionOrder
  | insert
  | update
  | updateJoin
  | truncate
  deriving DecidableEq

namespace Purpose

/-- A purpose that is not said is that of a filter. -/
instance : Inhabited Purpose := ⟨.where⟩

/-- The purposes in the order in which a statement has their clauses. -/
def all : List Purpose :=
  [.select, .from, .join, .where, .groupBy, .having, .order, .union, .unionOrder, .insert, .update,
    .updateJoin, .truncate]

/-- The name of a purpose. -/
def name : Purpose → String
  | .select => "select"
  | .from => "from"
  | .join => "join"
  | .where => "where"
  | .groupBy => "groupBy"
  | .having => "having"
  | .order => "order"
  | .union => "union"
  | .unionOrder => "unionOrder"
  | .insert => "insert"
  | .update => "update"
  | .updateJoin => "updateJoin"
  | .truncate => "truncate"

/-- The purpose with the given name. -/
def ofName? (name : String) : Option Purpose := all.find? (·.name = name)

end Purpose

/-- A value and the clause that it belongs to. -/
structure Binding where
  value : Value
  purpose : Purpose
  deriving DecidableEq

/-- Bindings in the order of their placeholders. -/
abbrev Bindings := List Binding

namespace Bindings

/-- Appends a value. -/
def push (bindings : Bindings) (value : Value) (purpose : Purpose) : Bindings :=
  bindings ++ [⟨value, purpose⟩]

/-- The same values, all with one purpose. -/
def retag (purpose : Purpose) (bindings : Bindings) : Bindings :=
  bindings.map fun b => ⟨b.value, purpose⟩

/-- Appends the values of a nested statement, all with one purpose. -/
def splice (bindings nested : Bindings) (purpose : Purpose) : Bindings :=
  bindings ++ nested.retag purpose

/-- The values in order. -/
def values (bindings : Bindings) : List Value := bindings.map (·.value)

/-- The values of one purpose, in order. -/
def bucket (bindings : Bindings) (purpose : Purpose) : List Value :=
  (bindings.filter (·.purpose = purpose)).map (·.value)

/-! ## Values -/

theorem values_append (a b : Bindings) : values (a ++ b) = values a ++ values b := List.map_append

theorem values_retag (purpose : Purpose) (bindings : Bindings) :
    (bindings.retag purpose).values = bindings.values := by
  rw [retag, values, List.map_map]
  rfl

end Bindings

end QueryCompiler
