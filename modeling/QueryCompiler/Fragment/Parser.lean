import QueryCompiler.Fragment.Error
import QueryCompiler.Number.Digits
import QueryCompiler.Number.Power

/-! # Column and table references

    column := segment ('.' segment)* ('->' step)* (AS name)?
    table  := name ('.' name)* (AS name)?

The last segment of a column may be `*`, and then neither steps nor an alias follow. A name is any
word except a bare `as`; a step is any word at all. Each reader below takes the tokens that are left
and gives back what it read with the tokens behind it.

* `parseColumn`, `parseTable`: the reference that a whole fragment writes.
-/

namespace QueryCompiler
set_option autoImplicit false

namespace Fragment

/-- The error that something else was expected at the first of the tokens that are left, or at the
end of the fragment if there is none. -/
def unexpected (input : String) (what : Expectation) : List Token → FragmentError
  | [] => ⟨.expected what none, ⟨input.utf8ByteSize, input.utf8ByteSize⟩, input⟩
  | ⟨.invalid fault, span⟩ :: _ => ⟨.expected what (some fault), span, input⟩
  | ⟨_, span⟩ :: _ => ⟨.expected what none, span, input⟩

/-- Reads the names of a path. With `stars`, a star may end it. -/
def readPath (input : String) (stars : Bool) :
    List Token → Except FragmentError (Path × List Token)
  | [] => .error (unexpected input .identifier [])
  | token :: rest =>
    if stars && token.kind = .star then .ok ([wildcard], rest)
    else
      match token.kind.name? with
      | none => .error (unexpected input .identifier (token :: rest))
      | some name =>
        match rest with
        | ⟨.dot, _⟩ :: rest =>
          (readPath input stars rest).map fun (path, rest) => (name :: path, rest)
        | rest => .ok ([name], rest)

/-- The number that ASCII digits write, if it is below `2 ^ 64`. -/
def position? (name : Name) : Option Nat :=
  let digits := name.toList
  if !digits.isEmpty && digits.all Char.isDigit && ofDigits digits < twoPow 64 then
    some (ofDigits digits)
  else none

/-- The step that a word stands for: a bare number is a position, any other word a key. -/
def stepOf (name : Name) (quoted : Bool) : JsonStep :=
  match quoted, position? name with
  | false, some position => .index position
  | _, _ => .key name

/-- Reads JSON steps, as long as there are arrows. -/
def readSteps (input : String) : List Token → Except FragmentError (List JsonStep × List Token)
  | ⟨.arrow, _⟩ :: ⟨.word name quoted, _⟩ :: rest =>
    (readSteps input rest).map fun (steps, rest) => (stepOf name quoted :: steps, rest)
  | ⟨.arrow, _⟩ :: rest => .error (unexpected input .jsonStep rest)
  | rest => .ok ([], rest)

/-- Reads an alias, if the word `as` announces one, together with its place. -/
def readAlias (input : String) :
    List Token → Except FragmentError (Option (Name × Span) × List Token)
  | [] => .ok (none, [])
  | token :: rest =>
    if token.kind.isAs then
      match rest with
      | [] => .error (unexpected input .identifier [])
      | aliasToken :: rest =>
        match aliasToken.kind.name? with
        | none => .error (unexpected input .identifier (aliasToken :: rest))
        | some name => .ok (some (name, aliasToken.span), rest)
    else .ok (none, token :: rest)

/-- Refuses tokens that are left over. -/
def readEnd (input : String) : List Token → Except FragmentError Unit
  | [] => .ok ()
  | token :: rest => .error (unexpected input .aliasOrEnd (token :: rest))

end Fragment

open Fragment in
/-- The column reference that a fragment writes, such as `users.id as uid`, `users.*` or
`meta->tags->0`. -/
def parseColumn (input : String) : Except FragmentError ColumnRef := do
  let (path, rest) ← readPath input true (Token.ofString input)
  let (json, rest) ← if path.endsInWildcard then pure ([], rest) else readSteps input rest
  let (label, rest) ← readAlias input rest
  match label with
  | some (name, span) =>
    if path.endsInWildcard then .error ⟨.aliasedWildcard, span, input⟩
    else
      readEnd input rest
      return ⟨path, json, some name⟩
  | none =>
    readEnd input rest
    return ⟨path, json, none⟩

open Fragment in
/-- The table name that a fragment writes, such as `users`, `public.users` or `users as u`. -/
def parseTable (input : String) : Except FragmentError TableName := do
  let (path, rest) ← readPath input false (Token.ofString input)
  let (label, rest) ← readAlias input rest
  readEnd input rest
  return ⟨path, label.map (·.1)⟩

end QueryCompiler
