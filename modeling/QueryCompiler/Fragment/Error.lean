import QueryCompiler.Fragment.Token

/-! # Faulty fragments

Why a text is no column or table reference, and where in it the fault lies.
-/

namespace QueryCompiler
set_option autoImplicit false

/-- What a fragment should have had at the place of a fault. -/
inductive Expectation where
  | identifier
  | jsonStep
  | aliasOrEnd
  deriving DecidableEq

/-- The wording of an expectation. -/
def Expectation.message : Expectation → String
  | .identifier => "expected identifier"
  | .jsonStep => "expected JSON path segment"
  | .aliasOrEnd => "expected AS or end of fragment"

/-- What is wrong with a fragment. -/
inductive FragmentFault where
  /-- Something else was expected; if what stands there is no token, its own fault is kept. -/
  | expected (what : Expectation) (fault : Option LexicalFault)
  /-- All columns cannot share one alias. -/
  | aliasedWildcard
  deriving DecidableEq

/-- The wording of a fault. -/
def FragmentFault.message : FragmentFault → String
  | .expected what none => what.message
  | .expected what (some fault) => what.message ++ ": " ++ fault.message
  | .aliasedWildcard => "a wildcard cannot be aliased"

/-- A fault, the stretch of the fragment that shows it, and the fragment. -/
structure FragmentError where
  fault : FragmentFault
  span : Span
  input : String
  deriving DecidableEq

/-- The wording of an error: the fault, the fragment and the bytes at fault. -/
def FragmentError.message (e : FragmentError) : String :=
  e.fault.message ++ " in `" ++ e.input ++ "` at position " ++ e.span.start.repr ++ ".." ++
    e.span.stop.repr

end QueryCompiler
