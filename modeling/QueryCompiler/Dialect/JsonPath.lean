import QueryCompiler.Reference

/-! # JSON paths in SQL

Two ways to write the steps into a JSON document: as one path string such as `'$."tags"[0]'`, and as a
chain of arrow operators such as `->'tags'->>0`.
-/

namespace QueryCompiler
set_option autoImplicit false

namespace JsonStep

/-- A character of a key inside a path string: a single quote is doubled, a double quote gets a
backslash. -/
def escapeInPath (c : Char) : List Char :=
  if c = '\'' then ['\'', '\''] else if c = '"' then ['\\', '"'] else [c]

/-- A step inside a path string. -/
def pathText : JsonStep → String
  | .key name => ".\"" ++ String.ofList (name.toList.flatMap escapeInPath) ++ "\""
  | .index position => "[" ++ position.repr ++ "]"

/-- A character of a key inside a string literal: a single quote is doubled. -/
def escapeInLiteral (c : Char) : List Char := if c = '\'' then ['\'', '\''] else [c]

/-- A step as the right-hand side of an arrow. -/
def arrowText : JsonStep → String
  | .key name => "'" ++ String.ofList (name.toList.flatMap escapeInLiteral) ++ "'"
  | .index position => position.repr

end JsonStep

/-- The steps as one path string, in single quotes. -/
def jsonPath (steps : List JsonStep) : String :=
  "'$" ++ String.join (steps.map JsonStep.pathText) ++ "'"

/-- The steps as a chain of arrows. With `asText` the last arrow yields text. -/
def jsonArrows (asText : Bool) : List JsonStep → String
  | [] => ""
  | [step] => (if asText then "->>" else "->") ++ step.arrowText
  | step :: steps => "->" ++ step.arrowText ++ jsonArrows asText steps

/-! ## Characters of a path -/

theorem JsonStep.toList_pathText_key (name : String) :
    (JsonStep.key name).pathText.toList =
      '.' :: '"' :: (name.toList.flatMap JsonStep.escapeInPath ++ ['"']) := by
  simp [JsonStep.pathText]

theorem JsonStep.toList_pathText_index (position : Nat) :
    (JsonStep.index position).pathText.toList = '[' :: (position.repr.toList ++ [']']) := by
  simp [JsonStep.pathText]

theorem JsonStep.toList_arrowText_key (name : String) :
    (JsonStep.key name).arrowText.toList =
      '\'' :: (name.toList.flatMap JsonStep.escapeInLiteral ++ ['\'']) := by
  simp [JsonStep.arrowText]

theorem toList_jsonPath (steps : List JsonStep) :
    (jsonPath steps).toList =
      '\'' :: '$' :: (steps.flatMap (fun step => step.pathText.toList) ++ ['\'']) := by
  simp [jsonPath, List.flatMap_map]

end QueryCompiler
