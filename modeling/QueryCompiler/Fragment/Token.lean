import QueryCompiler.Reference
import QueryCompiler.Text.Alphanumeric
import QueryCompiler.Text.Blank

/-! # Tokens of a fragment

A fragment is the short text of a column or table reference. Its tokens are words, bare or quoted, the
dot, the star and the arrow; what fits none of these is a token that carries its fault.

* `Token.next?`: the token at a cursor, blanks skipped, and the cursor behind it. It always moves on
  (`Token.next?_rest_lt`).
* `Token.ofString`: the tokens of a fragment in order.
-/

namespace QueryCompiler
set_option autoImplicit false

/-! ## Places -/

/-- The number of bytes of a text in UTF-8. -/
def byteLength : List Char → Nat
  | [] => 0
  | c :: cs => c.utf8Size + byteLength cs

/-- A stretch of a fragment, from the byte `start` up to but not including the byte `stop`. -/
structure Span where
  start : Nat
  stop : Nat
  deriving DecidableEq

/-- A place in a fragment: the bytes before it and the characters from it on. -/
structure Cursor where
  offset : Nat
  rest : List Char
  deriving DecidableEq

/-- The cursor further on, at the characters `rest`. -/
def Cursor.moveTo (cursor : Cursor) (rest : List Char) : Cursor :=
  ⟨cursor.offset + (byteLength cursor.rest - byteLength rest), rest⟩

/-! ## Kinds of tokens -/

/-- Why a stretch of a fragment is no token. -/
inductive LexicalFault where
  | unterminatedQuote
  | emptyQuote
  | unexpected (c : Char)
  deriving DecidableEq

/-- The wording of a fault. -/
def LexicalFault.message : LexicalFault → String
  | .unterminatedQuote => "unterminated quoted identifier"
  | .emptyQuote => "empty quoted identifier"
  | .unexpected c => "unexpected character: " ++ c.toString

/-- What a token is. -/
inductive TokenKind where
  /-- A bare or quoted name. -/
  | word (name : Name) (quoted : Bool)
  | dot
  | star
  | arrow
  | invalid (fault : LexicalFault)
  deriving DecidableEq

namespace TokenKind

/-- Whether a token is the word `as` without quotes, in capitals or not. -/
def isAs : TokenKind → Bool
  | .word name false => name.toLower = "as"
  | _ => false

/-- The name that a token gives; the bare word `as` gives none. -/
def name? : TokenKind → Option Name
  | .word name quoted => if (TokenKind.word name quoted).isAs then none else some name
  | _ => none

end TokenKind

/-- A token and where it stands. -/
structure Token where
  kind : TokenKind
  span : Span
  deriving DecidableEq

namespace Token

/-! ## Scanning -/

/-- Whether a bare word can start with `c`. -/
def isWordStart (c : Char) : Bool := Text.isAlphanumeric c || c = '_'

/-- Whether a bare word can go on with `c`. -/
def isWordPart (c : Char) : Bool := Text.isAlphanumeric c || c = '_' || c = '$'

/-- Reads a quoted name behind its opening quote, up to the closing quote `close`. A closing quote
that is doubled is part of the name. -/
def quotedName? (close : Char) : List Char → Option (List Char × List Char)
  | [] => none
  | c :: cs =>
    if c = close then
      match cs with
      | [] => some ([], [])
      | d :: ds =>
        if d = close then (quotedName? close ds).map fun (name, rest) => (close :: name, rest)
        else some ([], d :: ds)
    else (quotedName? close cs).map fun (name, rest) => (c :: name, rest)

/-- The token that a quote opens. Without a closing quote it runs to the end of the fragment. -/
def scanQuoted (close : Char) (cs : List Char) : TokenKind × List Char :=
  match quotedName? close cs with
  | none => (.invalid .unterminatedQuote, [])
  | some ([], rest) => (.invalid .emptyQuote, rest)
  | some (name, rest) => (.word (String.ofList name) true, rest)

/-- The token that starts with the character `c`, and the characters behind it. -/
def scan (c : Char) (cs : List Char) : TokenKind × List Char :=
  if c = '.' then (.dot, cs)
  else if c = '*' then (.star, cs)
  else if c = '-' ∧ cs.head? = some '>' then (.arrow, cs.tail)
  else if c = '"' ∨ c = '\x60' then scanQuoted c cs
  else if c = '[' then scanQuoted ']' cs
  else if isWordStart c then
    (.word (String.ofList (c :: cs.takeWhile isWordPart)) false, cs.dropWhile isWordPart)
  else (.invalid (.unexpected c), cs)

/-- The token at a cursor, blanks before it skipped, and the cursor behind it. -/
def next? (cursor : Cursor) : Option (Token × Cursor) :=
  let start := cursor.moveTo (Text.skipBlanks cursor.rest)
  match start.rest with
  | [] => none
  | c :: cs =>
    let (kind, rest) := scan c cs
    let stop := start.moveTo rest
    some (⟨kind, ⟨start.offset, stop.offset⟩⟩, stop)

/-! ## Scanning moves on -/

theorem quotedName?_rest_le (close : Char) (cs : List Char) :
    ∀ {name rest : List Char}, quotedName? close cs = some (name, rest) →
      rest.length ≤ cs.length := by
  fun_induction quotedName? close cs with
  | case1 => intro name rest h; cases h
  | case2 => intro name rest h; cases h; simp
  | case3 ds ih =>
    intro name rest h
    obtain ⟨⟨name', rest'⟩, h', heq⟩ := Option.map_eq_some_iff.1 h
    have hle := ih h'
    cases heq
    simp only [List.length_cons]
    omega
  | case4 d ds hd => intro name rest h; cases h; simp
  | case5 c cs hc ih =>
    intro name rest h
    obtain ⟨⟨name', rest'⟩, h', heq⟩ := Option.map_eq_some_iff.1 h
    have hle := ih h'
    cases heq
    simp only [List.length_cons]
    omega

theorem scanQuoted_rest_le (close : Char) (cs : List Char) :
    (scanQuoted close cs).2.length ≤ cs.length := by
  unfold scanQuoted
  split
  · simp
  · next rest h => exact quotedName?_rest_le close cs h
  · next name rest _ h => exact quotedName?_rest_le close cs h

theorem scan_rest_le (c : Char) (cs : List Char) : (scan c cs).2.length ≤ cs.length := by
  unfold scan
  repeat' split
  all_goals try exact Nat.le_refl _
  · simp
  · exact scanQuoted_rest_le c cs
  · exact scanQuoted_rest_le ']' cs
  · exact (List.dropWhile_suffix isWordPart).length_le

/-- A token is never empty: fewer characters are left behind it than before it. -/
theorem next?_rest_lt {cursor after : Cursor} {token : Token}
    (h : next? cursor = some (token, after)) : after.rest.length < cursor.rest.length := by
  unfold next? at h
  simp only [Cursor.moveTo] at h
  have hskip : (Text.skipBlanks cursor.rest).length ≤ cursor.rest.length :=
    (List.dropWhile_suffix Text.isBlank).length_le
  split at h
  · cases h
  · next c cs hcs =>
    rw [hcs, List.length_cons] at hskip
    have hscan := scan_rest_le c cs
    cases h
    exact Nat.lt_of_lt_of_le (Nat.lt_succ_of_le hscan) hskip

/-! ## All tokens -/

/-- The tokens from a cursor on. -/
def all (cursor : Cursor) : List Token :=
  match _h : next? cursor with
  | none => []
  | some (token, after) => token :: all after
termination_by cursor.rest.length
decreasing_by exact next?_rest_lt _h

/-- The tokens of a fragment. -/
def ofString (input : String) : List Token := all ⟨0, input.toList⟩

end Token

end QueryCompiler
