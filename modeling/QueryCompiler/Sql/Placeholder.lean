/-! # Counting placeholders

A placeholder counts only outside of quotes. The scan knows single quotes, double quotes, backquotes
and square brackets; inside of them a doubled closing quote is part of the text.

* `Scan.step`: what one character does to the state of the scan.
* `countPlaceholders`: the number of placeholders in a text.
-/

namespace QueryCompiler
set_option autoImplicit false

/-- Where a scan stands. -/
inductive Scan where
  /-- Outside of quotes. -/
  | outside
  /-- Inside quotes that `close` ends. -/
  | inside (close : Char)
  /-- Behind a closing quote, which is a quote inside the text if another one follows. -/
  | closing (close : Char)
  deriving DecidableEq

namespace Scan

/-- The state after a character that stands outside of quotes. -/
def enter (c : Char) : Scan :=
  if c = '\'' ∨ c = '"' ∨ c = '\x60' then .inside c else if c = '[' then .inside ']' else .outside

/-- The state after a character. -/
def step : Scan → Char → Scan
  | .outside, c => enter c
  | .inside close, c => if c = close then .closing close else .inside close
  | .closing close, c => if c = close then .inside close else enter c

/-- The state after a text. -/
def run (state : Scan) (cs : List Char) : Scan := cs.foldl step state

/-- Whether a scan stands outside of quotes. -/
def isOutside : Scan → Bool
  | .inside _ => false
  | _ => true

/-- The placeholders that start outside of quotes, from a state on. -/
def count (placeholder : List Char) : Scan → List Char → Nat
  | _, [] => 0
  | state, c :: cs =>
    let next := state.step c
    (if next = .outside && placeholder.isPrefixOf (c :: cs) then 1 else 0) +
      count placeholder next cs

end Scan

/-- The number of times that `placeholder` stands in a text outside of quotes. -/
def countPlaceholders (text placeholder : String) : Nat :=
  Scan.count placeholder.toList .outside text.toList

end QueryCompiler
