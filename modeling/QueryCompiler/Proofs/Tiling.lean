import Mathlib.Data.List.TakeWhile
import Mathlib.Data.String.Basic
import QueryCompiler.Proofs.Lexing

/-! # Tokens tile their fragment

The scanner cuts a fragment into tokens that have nothing but blanks between them, and goes on behind
a fault as behind any other token. What one step does is said once (`Token.next?_step`): it passes
blanks and takes characters that spell the token. The rest follows along the run.

* `TokenKind.Spelling`: how a token is written.
* `Token.gaps`: the stretches before, between and behind tokens.
* `Cursor.answers`: what the first calls of the scanner give.
* `Token.ofString_tiles`: the tokens of a fragment, their places and the gaps.
-/

namespace QueryCompiler
set_option autoImplicit false

/-! ## Texts of spans -/

theorem byteLength_eq_utf8Len (cs : List Char) : byteLength cs = String.utf8Len cs := by
  induction cs with
  | nil => rfl
  | cons c cs ih => rw [byteLength, ih, String.utf8Len_cons, Nat.add_comm]

theorem byteLength_pos {cs : List Char} (h : cs ≠ []) : 0 < byteLength cs := by
  cases cs with
  | nil => exact (h rfl).elim
  | cons c cs => exact Nat.add_pos_left c.utf8Size_pos _

/-- The bytes of a fragment in a span. -/
def Span.text (span : Span) (input : String) : String :=
  String.Pos.Raw.extract input ⟨span.start⟩ ⟨span.stop⟩

/-- A stretch of a fragment, from character to character, that holds nothing but blanks. -/
structure Span.IsBlank (span : Span) (input : String) : Prop where
  within : span.Within input
  blank : Text.isBlankText (span.text input) = true

namespace Cursor

variable {cursor : Cursor} {input : String} {passed rest : List Char}

theorem Within.pass (h : cursor.Within input) (hrest : cursor.rest = passed ++ rest) :
    Cursor.Within ⟨cursor.offset + byteLength passed, rest⟩ input := by
  obtain ⟨before, hinput, hoffset⟩ := h
  refine ⟨before ++ passed, ?_, ?_⟩
  · rw [hinput, hrest, List.append_assoc]
  · rw [byteLength_append, hoffset]

/-- The span of characters that a cursor passes. -/
theorem Within.span (h : cursor.Within input) (hrest : cursor.rest = passed ++ rest) :
    Span.Within ⟨cursor.offset, cursor.offset + byteLength passed⟩ input :=
  ⟨Nat.le_add_right _ _, h.isValid, (h.pass hrest).isValid⟩

theorem Within.text (h : cursor.Within input) (hrest : cursor.rest = passed ++ rest) :
    Span.text ⟨cursor.offset, cursor.offset + byteLength passed⟩ input = String.ofList passed := by
  obtain ⟨before, hinput, hoffset⟩ := h
  have hparts : input = String.ofList (before ++ passed ++ rest) := by
    rw [List.append_assoc, ← hrest, ← hinput, String.ofList_toList]
  rw [Span.text, hoffset, hparts, byteLength_eq_utf8Len, byteLength_eq_utf8Len]
  exact String.extract_of_valid before passed rest

/-- The bytes from a cursor on are the last ones of the fragment. -/
theorem Within.size (h : cursor.Within input) :
    input.utf8ByteSize = cursor.offset + byteLength cursor.rest := by
  obtain ⟨before, hinput, hoffset⟩ := h
  rw [← String.ofList_toList (s := input), utf8ByteSize_ofList, hinput, byteLength_append, hoffset]

theorem Within.isBlank (h : cursor.Within input) (hrest : cursor.rest = passed ++ rest)
    (hblank : ∀ c ∈ passed, Text.isBlank c = true) :
    Span.IsBlank ⟨cursor.offset, cursor.offset + byteLength passed⟩ input := by
  refine ⟨h.span hrest, ?_⟩
  rw [h.text hrest, Text.isBlankText, String.toList_ofList, List.all_eq_true]
  exact hblank

theorem moveTo_append (hrest : cursor.rest = passed ++ rest) :
    cursor.moveTo rest = ⟨cursor.offset + byteLength passed, rest⟩ := by
  rw [Cursor.moveTo, hrest, byteLength_append, Nat.add_sub_cancel]

end Cursor

/-! ## Spellings -/

/-- The characters that open a quoted name, each with the one that closes it. -/
def quotePairs : List (Char × Char) := [('"', '"'), ('\x60', '\x60'), ('[', ']')]

/-- How a token is written. A quote is without an end if every closing quote behind it is doubled. A
character is unexpected only if no other token starts with it, a dash that is no arrow apart. -/
def TokenKind.Spelling : TokenKind → String → Prop
  | .word name false, text => text = name
  | .word name true, text =>
    name ≠ "" ∧ ∃ pair ∈ quotePairs, text = String.ofList (quotedChars pair.1 pair.2 name)
  | .dot, text => text = "."
  | .star, text => text = "*"
  | .arrow, text => text = "->"
  | .invalid .unterminatedQuote, text =>
    ∃ pair ∈ quotePairs, ∃ cs, text = String.ofList (pair.1 :: cs) ∧
      ∀ name rest : List Char, cs = name.flatMap (Dialect.escapeInName pair.2) ++ pair.2 :: rest →
        rest.head? = some pair.2
  | .invalid .emptyQuote, text => ∃ pair ∈ quotePairs, text = String.ofList [pair.1, pair.2]
  | .invalid (.unexpected c), text =>
    text = String.ofList [c] ∧ Token.isWordStart c = false ∧ c ≠ '.' ∧ c ≠ '*' ∧
      ∀ pair ∈ quotePairs, c ≠ pair.1

namespace Token

/-- What a scan takes off the characters: they spell the token, and a quote without an end takes all. -/
structure Takes (kind : TokenKind) (lexeme rest : List Char) : Prop where
  nonempty : lexeme ≠ []
  spelling : kind.Spelling (String.ofList lexeme)
  unterminated : kind = .invalid .unterminatedQuote → rest = []

/-- A quoted name is read from its characters with the closing quote doubled, up to the quote that
closes it. -/
theorem quotedName?_eq {close : Char} {cs : List Char} :
    ∀ {name rest : List Char}, quotedName? close cs = some (name, rest) →
      cs = name.flatMap (Dialect.escapeInName close) ++ close :: rest := by
  fun_induction quotedName? close cs with
  | case1 => intro name rest h; cases h
  | case2 => intro name rest h; cases h; rfl
  | case3 ds ih =>
    intro name rest h
    obtain ⟨⟨name', rest'⟩, h', heq⟩ := Option.map_eq_some_iff.1 h
    cases heq
    rw [ih h', List.flatMap_cons, Dialect.escapeInName, if_pos rfl]
    rfl
  | case4 d ds hd => intro name rest h; cases h; rfl
  | case5 c cs hc ih =>
    intro name rest h
    obtain ⟨⟨name', rest'⟩, h', heq⟩ := Option.map_eq_some_iff.1 h
    cases heq
    rw [ih h', List.flatMap_cons, Dialect.escapeInName, if_neg hc]
    rfl

theorem scanQuoted_takes {opening close : Char} (hpair : (opening, close) ∈ quotePairs)
    (cs : List Char) :
    ∃ lexeme, opening :: cs = lexeme ++ (scanQuoted close cs).2 ∧
      Takes (scanQuoted close cs).1 lexeme (scanQuoted close cs).2 := by
  unfold scanQuoted
  split
  · next hopen =>
    refine ⟨opening :: cs, (List.append_nil _).symm, List.cons_ne_nil _ _,
      ⟨_, hpair, cs, rfl, fun name rest hcs => ?_⟩, fun _ => rfl⟩
    by_contra hrest
    rw [hcs, quotedName?_escaped close name hrest] at hopen
    cases hopen
  · next rest hname =>
    refine ⟨[opening, close], ?_, List.cons_ne_nil _ _, ⟨_, hpair, rfl⟩, fun h => by cases h⟩
    rw [quotedName?_eq hname]
    rfl
  · next name rest hne hname =>
    refine ⟨quotedChars opening close (String.ofList name), ?_, List.cons_ne_nil _ _,
      ⟨fun hempty => hne (by simpa using hempty), _, hpair, rfl⟩, fun h => by cases h⟩
    rw [quotedName?_eq hname, quotedChars, String.toList_ofList, List.cons_append, List.append_assoc]
    rfl

theorem scan_takes (c : Char) (cs : List Char) :
    ∃ lexeme, c :: cs = lexeme ++ (scan c cs).2 ∧ Takes (scan c cs).1 lexeme (scan c cs).2 := by
  unfold scan
  split
  · next hdot =>
    subst hdot
    exact ⟨['.'], rfl, List.cons_ne_nil _ _, rfl, fun h => by cases h⟩
  split
  · next hstar =>
    subst hstar
    exact ⟨['*'], rfl, List.cons_ne_nil _ _, rfl, fun h => by cases h⟩
  split
  · next harrow =>
    obtain ⟨rfl, hhead⟩ := harrow
    obtain ⟨tail, rfl⟩ := List.head?_eq_some_iff.1 hhead
    exact ⟨['-', '>'], rfl, List.cons_ne_nil _ _, rfl, fun h => by cases h⟩
  split
  · next hquote =>
    refine scanQuoted_takes ?_ cs
    rcases hquote with rfl | rfl <;> decide
  split
  · next hbracket =>
    subst hbracket
    exact scanQuoted_takes (by decide) cs
  split
  · refine ⟨c :: cs.takeWhile isWordPart, ?_, List.cons_ne_nil _ _, rfl, fun h => by cases h⟩
    rw [List.cons_append, List.takeWhile_append_dropWhile]
  · next hdot hstar _ hquote hbracket hword =>
    refine ⟨[c], rfl, List.cons_ne_nil _ _, ⟨rfl, by simpa using hword, hdot, hstar, ?_⟩,
      fun h => by cases h⟩
    simp only [quotePairs, List.forall_mem_cons]
    exact ⟨fun h => hquote (.inl h), fun h => hquote (.inr h), hbracket, List.forall_mem_nil _⟩

/-! ## Steps -/

/-- A step of the scanner: it passes `blanks` and takes `lexeme` for a token. -/
structure Step (cursor : Cursor) (token : Token) (after : Cursor) (blanks lexeme : List Char) :
    Prop where
  rest_eq : cursor.rest = blanks ++ (lexeme ++ after.rest)
  blank : ∀ c ∈ blanks, Text.isBlank c = true
  takes : Takes token.kind lexeme after.rest
  start_eq : token.span.start = cursor.offset + byteLength blanks
  stop_eq : token.span.stop = token.span.start + byteLength lexeme
  offset_eq : after.offset = token.span.stop

variable {cursor after : Cursor} {token : Token}

theorem takeWhile_append_skipBlanks (cs : List Char) :
    cs = cs.takeWhile Text.isBlank ++ Text.skipBlanks cs :=
  List.takeWhile_append_dropWhile.symm

/-- All that a call of the scanner can do, where it finds a token. -/
theorem next?_step (h : next? cursor = some (token, after)) :
    ∃ blanks lexeme, Step cursor token after blanks lexeme := by
  have hrest := takeWhile_append_skipBlanks cursor.rest
  unfold next? at h
  simp only [Cursor.moveTo_append hrest] at h
  split at h
  · cases h
  · next c cs hskip =>
    obtain ⟨lexeme, hlexeme, htakes⟩ := scan_takes c cs
    -- the second move starts where the blanks end
    have hskipped : Text.skipBlanks cursor.rest = lexeme ++ (scan c cs).2 := hskip.trans hlexeme
    rw [Cursor.moveTo_append hskipped] at h
    cases h
    refine ⟨cursor.rest.takeWhile Text.isBlank, lexeme, ?_, ?_, htakes, rfl, rfl, rfl⟩
    · rw [← hskipped]
      exact hrest
    · exact fun c hc => List.mem_takeWhile_imp hc

/-- Where a call finds no token, only blanks are left. -/
theorem next?_eq_none (h : next? cursor = none) : Text.skipBlanks cursor.rest = [] := by
  unfold next? at h
  dsimp only at h
  split at h
  · next hskip => exact hskip
  · cases h

theorem blank_of_next?_eq_none (h : next? cursor = none) :
    ∀ c ∈ cursor.rest, Text.isBlank c = true := by
  have hrest := takeWhile_append_skipBlanks cursor.rest
  rw [next?_eq_none h, List.append_nil] at hrest
  rw [hrest]
  exact fun c hc => List.mem_takeWhile_imp hc

/-- A token has its place in a fragment: between two characters of it, over a text that spells the
token. -/
structure StandsIn (token : Token) (input : String) : Prop where
  within : token.span.Within input
  nonempty : token.span.start < token.span.stop
  spelling : token.kind.Spelling (token.span.text input)
  unterminated : token.kind = .invalid .unterminatedQuote → token.span.stop = input.utf8ByteSize

namespace Step

variable {input : String} {blanks lexeme : List Char}

theorem span_eq (h : Step cursor token after blanks lexeme) :
    token.span = ⟨cursor.offset + byteLength blanks,
      cursor.offset + byteLength blanks + byteLength lexeme⟩ := by
  rw [← h.start_eq, ← h.stop_eq]

theorem standsIn (h : Step cursor token after blanks lexeme) (hcursor : cursor.Within input) :
    token.StandsIn input := by
  have hstart := hcursor.pass h.rest_eq
  have hstop := hstart.pass rfl
  refine ⟨?_, ?_, ?_, fun hopen => ?_⟩
  · rw [h.span_eq]
    exact hstart.span rfl
  · rw [h.stop_eq]
    exact Nat.lt_add_of_pos_right (byteLength_pos h.takes.nonempty)
  · rw [h.span_eq, hstart.text rfl]
    exact h.takes.spelling
  · rw [hstop.size, h.span_eq, h.takes.unterminated hopen]
    rfl

theorem gap (h : Step cursor token after blanks lexeme) (hcursor : cursor.Within input) :
    Span.IsBlank ⟨cursor.offset, token.span.start⟩ input := by
  rw [h.start_eq]
  exact hcursor.isBlank h.rest_eq h.blank

theorem offset_le (h : Step cursor token after blanks lexeme) : cursor.offset ≤ token.span.start := by
  rw [h.start_eq]
  exact Nat.le_add_right _ _

theorem start_le (h : Step cursor token after blanks lexeme) : token.span.start ≤ after.offset := by
  rw [h.offset_eq, h.stop_eq]
  exact Nat.le_add_right _ _

end Step

/-! ## Runs -/

/-- The stretches before, between and behind tokens, from the byte `start` on up to the byte `stop`. -/
def gaps (stop : Nat) : Nat → List Token → List Span
  | start, [] => [⟨start, stop⟩]
  | start, token :: tokens => ⟨start, token.span.start⟩ :: gaps stop token.span.stop tokens

variable {input : String}

theorem all_standsIn (cursor : Cursor) (hcursor : cursor.Within input) :
    ∀ token ∈ all cursor, token.StandsIn input := by
  fun_induction all cursor with
  | case1 cursor h => exact List.forall_mem_nil _
  | case2 cursor token after h ih =>
    obtain ⟨blanks, lexeme, hstep⟩ := next?_step h
    exact List.forall_mem_cons.2 ⟨hstep.standsIn hcursor, ih (next?_within hcursor h).2⟩

theorem all_gaps (cursor : Cursor) (hcursor : cursor.Within input) :
    ∀ gap ∈ gaps input.utf8ByteSize cursor.offset (all cursor), gap.IsBlank input := by
  fun_induction all cursor with
  | case1 cursor h =>
    rw [gaps, hcursor.size]
    exact List.forall_mem_singleton.2
      (hcursor.isBlank (List.append_nil _).symm (blank_of_next?_eq_none h))
  | case2 cursor token after h ih =>
    obtain ⟨blanks, lexeme, hstep⟩ := next?_step h
    rw [gaps, ← hstep.offset_eq]
    exact List.forall_mem_cons.2 ⟨hstep.gap hcursor, ih (next?_within hcursor h).2⟩

theorem offset_le_all (cursor : Cursor) : ∀ token ∈ all cursor, cursor.offset ≤ token.span.start := by
  fun_induction all cursor with
  | case1 cursor h => exact List.forall_mem_nil _
  | case2 cursor token after h ih =>
    obtain ⟨blanks, lexeme, hstep⟩ := next?_step h
    refine List.forall_mem_cons.2 ⟨hstep.offset_le, fun next hnext => ?_⟩
    exact (hstep.offset_le.trans hstep.start_le).trans (ih next hnext)

theorem all_pairwise (cursor : Cursor) :
    (all cursor).Pairwise fun token next => token.span.stop ≤ next.span.start := by
  fun_induction all cursor with
  | case1 cursor h => exact List.Pairwise.nil
  | case2 cursor token after h ih =>
    obtain ⟨blanks, lexeme, hstep⟩ := next?_step h
    refine List.pairwise_cons.2 ⟨fun next hnext => ?_, ih⟩
    rw [← hstep.offset_eq]
    exact offset_le_all after next hnext

theorem length_all_le (cursor : Cursor) : (all cursor).length ≤ cursor.rest.length := by
  fun_induction all cursor with
  | case1 cursor h => exact Nat.zero_le _
  | case2 cursor token after h ih =>
    rw [List.length_cons]
    exact Nat.lt_of_le_of_lt ih (next?_rest_lt h)

end Token

/-! ## Calls -/

/-- What a call of the scanner gives: a token, or the end of the fragment and where it is. -/
inductive Answer where
  | token (token : Token)
  | ended (span : Span)
  deriving DecidableEq

namespace Cursor

/-- One call of the scanner, which also tells where it finds the end. A call at the end stays there. -/
def call (cursor : Cursor) : Answer × Cursor :=
  match Token.next? cursor with
  | some (token, after) => (.token token, after)
  | none =>
    let stop := cursor.moveTo (Text.skipBlanks cursor.rest)
    (.ended ⟨stop.offset, stop.offset⟩, stop)

/-- What the first calls give, one after the other. -/
def answers : Nat → Cursor → List Answer
  | 0, _ => []
  | calls + 1, cursor => cursor.call.1 :: answers calls cursor.call.2

variable {cursor : Cursor} {input : String}

theorem call_of_none (hcursor : cursor.Within input) (h : Token.next? cursor = none) :
    cursor.call = (.ended ⟨input.utf8ByteSize, input.utf8ByteSize⟩, ⟨input.utf8ByteSize, []⟩) := by
  have hstop : cursor.moveTo (Text.skipBlanks cursor.rest) = ⟨input.utf8ByteSize, []⟩ := by
    rw [Token.next?_eq_none h, hcursor.size]
    exact moveTo_append (List.append_nil _).symm
  rw [call, h, hstop]

theorem answers_of_none (hcursor : cursor.Within input) (h : Token.next? cursor = none)
    (more : Nat) :
    cursor.answers more =
      List.replicate more (.ended ⟨input.utf8ByteSize, input.utf8ByteSize⟩) := by
  induction more generalizing cursor with
  | zero => rfl
  | succ more ih =>
    -- the first call goes to the very end, where the next one starts
    have hend : Cursor.Within ⟨input.utf8ByteSize, []⟩ input := by
      rw [hcursor.size]
      exact hcursor.pass (List.append_nil _).symm
    rw [answers, call_of_none hcursor h, List.replicate_succ, ih hend rfl]

/-- All tokens first, and then the end as often as one asks. -/
theorem answers_all (cursor : Cursor) (hcursor : cursor.Within input) (more : Nat) :
    cursor.answers ((Token.all cursor).length + more) =
      (Token.all cursor).map .token ++
        List.replicate more (.ended ⟨input.utf8ByteSize, input.utf8ByteSize⟩) := by
  fun_induction Token.all cursor with
  | case1 cursor h =>
    rw [List.length_nil, Nat.zero_add]
    exact answers_of_none hcursor h more
  | case2 cursor token after h ih =>
    have hcall : cursor.call = (.token token, after) := by rw [call, h]
    rw [List.length_cons, Nat.add_right_comm, answers, hcall, ih (Token.next?_within hcursor h).2]
    rfl

end Cursor

/-! ## Tilings -/

namespace Token

/-- The tokens of a fragment, faults included, tile it. There are no more of them than characters, and
the calls of the scanner give them and then the end of the fragment at its last byte. Each has its
place in the fragment and is spelled there; they stand in order without an overlap, and whatever is
before, between and behind them is blank. -/
theorem ofString_tiles (input : String) :
    (ofString input).length ≤ input.length ∧
    (∀ more, Cursor.answers ((ofString input).length + more) ⟨0, input.toList⟩ =
      (ofString input).map .token ++
        List.replicate more (.ended ⟨input.utf8ByteSize, input.utf8ByteSize⟩)) ∧
    (∀ token ∈ ofString input, token.StandsIn input) ∧
    ((ofString input).Pairwise fun token next => token.span.stop ≤ next.span.start) ∧
    ∀ gap ∈ gaps input.utf8ByteSize 0 (ofString input), gap.IsBlank input := by
  have hstart : Cursor.Within ⟨0, input.toList⟩ input := ⟨[], rfl, rfl⟩
  refine ⟨?_, Cursor.answers_all _ hstart, all_standsIn _ hstart, all_pairwise _,
    all_gaps _ hstart⟩
  rw [← String.length_toList]
  exact length_all_le ⟨0, input.toList⟩

/-- Two faults, a name with a quote in it, and blanks and letters of more than one byte. -/
theorem ofString_tiles_faults :
    let input := "é ?\u3000\"a\"\"é\".[x "
    ofString input =
      [⟨.word "é" false, ⟨0, 2⟩⟩, ⟨.invalid (.unexpected '?'), ⟨3, 4⟩⟩,
        ⟨.word "a\"é" true, ⟨7, 14⟩⟩, ⟨.dot, ⟨14, 15⟩⟩, ⟨.invalid .unterminatedQuote, ⟨15, 18⟩⟩] ∧
      Cursor.answers 6 ⟨0, input.toList⟩ =
        (ofString input).map .token ++ [.ended ⟨18, 18⟩] ∧
      StandsIn ⟨.word "a\"é" true, ⟨7, 14⟩⟩ input ∧
      Span.IsBlank ⟨4, 7⟩ input := by
  intro input
  have htokens : ofString input =
      [⟨.word "é" false, ⟨0, 2⟩⟩, ⟨.invalid (.unexpected '?'), ⟨3, 4⟩⟩,
        ⟨.word "a\"é" true, ⟨7, 14⟩⟩, ⟨.dot, ⟨14, 15⟩⟩,
        ⟨.invalid .unterminatedQuote, ⟨15, 18⟩⟩] := by decide +kernel
  obtain ⟨-, hcalls, hstands, -, hgaps⟩ := ofString_tiles input
  refine ⟨htokens, ?_, hstands _ (by rw [htokens]; decide), hgaps _ (by rw [htokens]; decide)⟩
  have hcall := hcalls 1
  rw [htokens] at hcall ⊢
  exact hcall

end Token

end QueryCompiler
