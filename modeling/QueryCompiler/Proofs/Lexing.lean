import QueryCompiler.Proofs.Fragment

/-! # Places of tokens

A cursor into a fragment splits it into the characters before and those behind it, and every step of
the scanner keeps that. So the bytes of each token start and end at characters of the fragment
(`Token.ofString_within`). The kinds of the tokens do not depend on where the scanner starts to count,
and they can be read off the characters one token at a time (`Token.kindsOf_skip`).
-/

namespace QueryCompiler
set_option autoImplicit false

/-! ## Bytes -/

theorem byteLength_append (cs ds : List Char) :
    byteLength (cs ++ ds) = byteLength cs + byteLength ds := by
  induction cs with
  | nil => simp [byteLength]
  | cons c cs ih =>
    rw [List.cons_append, byteLength, byteLength, ih]
    omega

theorem utf8ByteSize_ofList (cs : List Char) : (String.ofList cs).utf8ByteSize = byteLength cs := by
  induction cs with
  | nil => rfl
  | cons c cs ih =>
    rw [String.ofList_cons, String.utf8ByteSize_append, String.utf8ByteSize_singleton, ih, byteLength]

/-- The bytes of a span are whole characters of the fragment. -/
structure Span.Within (span : Span) (input : String) : Prop where
  ordered : span.start ≤ span.stop
  start : String.Pos.Raw.IsValid input ⟨span.start⟩
  stop : String.Pos.Raw.IsValid input ⟨span.stop⟩

/-! ## Cursors -/

namespace Cursor

def Within (cursor : Cursor) (input : String) : Prop :=
  ∃ before, input.toList = before ++ cursor.rest ∧ cursor.offset = byteLength before

variable {cursor : Cursor} {input : String} {rest : List Char}

theorem Within.isValid (h : cursor.Within input) : String.Pos.Raw.IsValid input ⟨cursor.offset⟩ := by
  obtain ⟨before, hinput, hoffset⟩ := h
  refine String.Pos.Raw.isValid_iff_exists_append.2
    ⟨String.ofList before, String.ofList cursor.rest, ?_, ?_⟩
  · rw [← String.ofList_append, ← hinput, String.ofList_toList]
  · apply String.Pos.Raw.ext
    rw [String.byteIdx_rawEndPos, utf8ByteSize_ofList, hoffset]

theorem Within.moveTo (h : cursor.Within input) (hrest : rest <:+ cursor.rest) :
    (cursor.moveTo rest).Within input := by
  obtain ⟨before, hinput, hoffset⟩ := h
  obtain ⟨passed, hpassed⟩ := hrest
  refine ⟨before ++ passed, ?_, ?_⟩
  · rw [hinput, ← hpassed, List.append_assoc]
    rfl
  · have hbytes : byteLength cursor.rest = byteLength passed + byteLength rest := by
      rw [← hpassed, byteLength_append]
    simp only [byteLength_append, Cursor.moveTo, hoffset, hbytes]
    omega

theorem offset_le_moveTo (cursor : Cursor) (rest : List Char) :
    cursor.offset ≤ (cursor.moveTo rest).offset := Nat.le_add_right _ _

end Cursor

/-! ## Scanning -/

namespace Token

theorem quotedName?_suffix (close : Char) (cs : List Char) :
    ∀ {name rest : List Char}, quotedName? close cs = some (name, rest) → rest <:+ cs := by
  fun_induction quotedName? close cs with
  | case1 => intro name rest h; cases h
  | case2 => intro name rest h; cases h; exact List.nil_suffix
  | case3 ds ih =>
    intro name rest h
    obtain ⟨⟨name', rest'⟩, h', heq⟩ := Option.map_eq_some_iff.1 h
    cases heq
    exact ((ih h').trans (List.suffix_cons _ _)).trans (List.suffix_cons _ _)
  | case4 d ds hd => intro name rest h; cases h; exact List.suffix_cons _ _
  | case5 c cs hc ih =>
    intro name rest h
    obtain ⟨⟨name', rest'⟩, h', heq⟩ := Option.map_eq_some_iff.1 h
    cases heq
    exact (ih h').trans (List.suffix_cons _ _)

theorem scanQuoted_suffix (close : Char) (cs : List Char) : (scanQuoted close cs).2 <:+ cs := by
  unfold scanQuoted
  split
  · exact List.nil_suffix
  · next rest h => exact quotedName?_suffix close cs h
  · next name rest _ h => exact quotedName?_suffix close cs h

theorem scan_suffix (c : Char) (cs : List Char) : (scan c cs).2 <:+ cs := by
  unfold scan
  repeat' split
  all_goals try exact List.suffix_refl cs
  · exact List.tail_suffix cs
  · exact scanQuoted_suffix c cs
  · exact scanQuoted_suffix ']' cs
  · exact List.dropWhile_suffix isWordPart

theorem next?_within {input : String} {cursor after : Cursor} {token : Token}
    (hcursor : cursor.Within input) (h : next? cursor = some (token, after)) :
    token.span.Within input ∧ after.Within input := by
  have hstart : (cursor.moveTo (Text.skipBlanks cursor.rest)).Within input :=
    hcursor.moveTo (List.dropWhile_suffix Text.isBlank)
  unfold next? at h
  dsimp only at h
  generalize cursor.moveTo (Text.skipBlanks cursor.rest) = start at h hstart
  split at h
  · cases h
  · next c cs hrest =>
    cases h
    have hsuffix : (scan c cs).2 <:+ start.rest := by
      rw [hrest]
      exact (scan_suffix c cs).trans (List.suffix_cons c cs)
    have hstop := hstart.moveTo hsuffix
    exact ⟨⟨start.offset_le_moveTo _, hstart.isValid, hstop.isValid⟩, hstop⟩

theorem all_within {input : String} (cursor : Cursor) (hcursor : cursor.Within input) :
    ∀ token ∈ all cursor, token.span.Within input := by
  fun_induction all cursor with
  | case1 cursor h => exact fun token hmem => (List.not_mem_nil hmem).elim
  | case2 cursor token after h ih =>
    obtain ⟨htoken, hafter⟩ := next?_within hcursor h
    exact List.forall_mem_cons.2 ⟨htoken, ih hafter⟩

theorem ofString_within (input : String) : ∀ token ∈ ofString input, token.span.Within input :=
  all_within ⟨0, input.toList⟩ ⟨[], rfl, rfl⟩

/-! ## Kinds -/

/-- The kinds of the tokens of a fragment. -/
def kinds (input : String) : List TokenKind := (ofString input).map (·.kind)

/-- The kinds of the tokens that characters spell. -/
def kindsOf (cs : List Char) : List TokenKind := (all ⟨0, cs⟩).map (·.kind)

theorem all_blank {cursor : Cursor} (hskip : Text.skipBlanks cursor.rest = []) : all cursor = [] := by
  have hnext : next? cursor = none := by
    unfold next?
    simp only [Cursor.moveTo, hskip]
  rw [all]
  split
  · rfl
  · next h =>
    rw [hnext] at h
    cases h

/-- Where the scanner starts to count does not matter to the kinds. -/
theorem map_kind_all (offset : Nat) (cs : List Char) :
    (all ⟨offset, cs⟩).map (·.kind) = kindsOf cs := by
  cases hskip : Text.skipBlanks cs with
  | nil => rw [kindsOf, all_blank hskip, all_blank hskip]
  | cons c rest =>
    obtain ⟨kind, behind, hscan⟩ : ∃ kind behind, scan c rest = (kind, behind) := ⟨_, _, rfl⟩
    have hlt : behind.length < cs.length := by
      have hle : (Text.skipBlanks cs).length ≤ cs.length :=
        (List.dropWhile_suffix Text.isBlank).length_le
      have hscanned := scan_rest_le c rest
      rw [hscan] at hscanned
      rw [hskip, List.length_cons] at hle
      exact Nat.lt_of_lt_of_le (Nat.lt_succ_of_le hscanned) hle
    obtain ⟨span, after, hall⟩ := @all_skip ⟨offset, cs⟩ c rest kind behind hskip hscan
    obtain ⟨span', after', hall'⟩ := @all_skip ⟨0, cs⟩ c rest kind behind hskip hscan
    rw [kindsOf, hall, hall', List.map_cons, List.map_cons, map_kind_all after, map_kind_all after']
termination_by cs.length

theorem kindsOf_nil : kindsOf [] = [] := by rw [kindsOf, all_nil, List.map_nil]

/-- One token after the other. -/
theorem kindsOf_skip {cs ds rest : List Char} {c : Char} {kind : TokenKind}
    (hskip : Text.skipBlanks cs = c :: ds) (hscan : scan c ds = (kind, rest)) :
    kindsOf cs = kind :: kindsOf rest := by
  obtain ⟨span, after, hall⟩ := @all_skip ⟨0, cs⟩ c ds kind rest hskip hscan
  rw [kindsOf, hall, List.map_cons, map_kind_all]

/-- Blanks do not matter. -/
theorem kindsOf_congr {cs ds : List Char} (h : Text.skipBlanks cs = Text.skipBlanks ds) :
    kindsOf cs = kindsOf ds := by
  cases hskip : Text.skipBlanks ds with
  | nil => rw [kindsOf, kindsOf, @all_blank ⟨0, cs⟩ (h.trans hskip), @all_blank ⟨0, ds⟩ hskip]
  | cons c rest => rw [kindsOf_skip (h.trans hskip) rfl, kindsOf_skip hskip rfl]

theorem kindsOf_cons {cs rest : List Char} {c : Char} {kind : TokenKind}
    (hblank : Text.isBlank c = false) (hscan : scan c cs = (kind, rest)) :
    kindsOf (c :: cs) = kind :: kindsOf rest := by
  refine kindsOf_skip ?_ hscan
  rw [Text.skipBlanks, List.dropWhile_cons, hblank]
  rfl

end Token

end QueryCompiler
