import QueryCompiler.Binding.Basic
import QueryCompiler.Reference

/-! # Places in a statement

Where in a statement an expression stands decides the purpose of its bindings: the clause, whether it
is inside a join, and whether a surrounding union or update claims all bindings for itself. It also
decides how a column is written that an UPDATE assigns to.

* `Context`: what the purposes of bindings depend on.
* `Place`: all that is known of a place while a statement is written.
-/

namespace QueryCompiler
set_option autoImplicit false

/-- What the purposes of the bindings at a place depend on. -/
structure Context where
  /-- The clause. -/
  clause : Purpose := .where
  /-- Whether the place is inside a join. -/
  inJoin : Bool := false
  /-- The purpose of all bindings, whatever their clause. -/
  override : Option Purpose := none
  /-- Whether the statement is an UPDATE. -/
  updating : Bool := false
  deriving DecidableEq

namespace Context

/-- The purpose here of a binding with a purpose of its own. -/
def purpose (context : Context) (own : Purpose) : Purpose :=
  context.override.getD (if context.inJoin then .join else own)

/-- The purpose of bindings that have none of their own: that of the clause. -/
def clausePurpose (context : Context) : Purpose := context.purpose context.clause

/-- A place in a clause. -/
def within (context : Context) (clause : Purpose) : Context := { context with clause := clause }

/-- A place whose bindings all get one purpose. -/
def overriding (context : Context) (purpose : Purpose) : Context :=
  { context with override := some purpose }

/-- A place inside a join. In an UPDATE, the bindings of joins have a purpose of their own. -/
def joining (context : Context) : Context :=
  { context with
    clause := .join
    inJoin := true
    override := if context.updating then some .updateJoin else context.override }

end Context

/-- The UPDATE that is written. -/
structure UpdateScope where
  /-- Whether other tables take part. -/
  hasJoins : Bool
  /-- The name by which columns of the table are qualified. -/
  target : Name
  deriving DecidableEq

/-- A place in a statement. -/
structure Place where
  /-- The clause. -/
  clause : Purpose := .where
  /-- Whether the place is inside a join. -/
  inJoin : Bool := false
  /-- The purpose of all bindings, whatever their clause. -/
  override : Option Purpose := none
  /-- The UPDATE around the place, if there is one. -/
  update : Option UpdateScope := none
  /-- Whether the place is the left-hand side of an assignment. -/
  assigning : Bool := false
  deriving DecidableEq

namespace Place

/-- What the purposes of the bindings here depend on. -/
def context (place : Place) : Context where
  clause := place.clause
  inJoin := place.inJoin
  override := place.override
  updating := place.update.isSome

/-- The purpose here of a binding with a purpose of its own. -/
def purpose (place : Place) (own : Purpose) : Purpose := place.context.purpose own

/-- The purpose of bindings that have none of their own: that of the clause. -/
def clausePurpose (place : Place) : Purpose := place.purpose place.clause

/-- A place in a clause. -/
def within (place : Place) (clause : Purpose) : Place := { place with clause := clause }

/-- A place whose bindings all get one purpose. -/
def overriding (place : Place) (purpose : Purpose) : Place := { place with override := some purpose }

/-- A place inside a join. In an UPDATE, the bindings of joins have a purpose of their own. -/
def joining (place : Place) : Place :=
  { place with
    clause := .join
    inJoin := true
    override := if place.update.isSome then some .updateJoin else place.override }

/-- A place in an UPDATE. -/
def updating (place : Place) (scope : UpdateScope) : Place := { place with update := some scope }

/-- The left-hand side of an assignment. -/
def assigned (place : Place) : Place := { place with assigning := true }

end Place

end QueryCompiler
