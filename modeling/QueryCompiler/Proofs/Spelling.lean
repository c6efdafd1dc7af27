import Mathlib.Algebra.Order.BigOperators.Group.List
import Mathlib.Algebra.Order.Group.Nat
import QueryCompiler.Proofs.Fragment

/-! # Spelling references

Every reference that some fragment is read as has a spelling with all names in double quotes, and that
is read back as the same reference. Blanks in front make as many spellings of a column as one likes.

* `parseColumn_spelling`, `parseTable_spelling`: the spelling of a reference is read back.
* `exists_spelling_not_mem`: a column has a spelling that is not yet in use.
-/

namespace QueryCompiler
set_option autoImplicit false

/-! ## Spellings -/

/-- A key in quotes, or the digits of a position. -/
def JsonStep.chars : JsonStep → List Char
  | .key name => quotedChars '"' '"' name
  | .index position => position.repr.toList

def stepsChars (steps : List JsonStep) : List Char :=
  steps.flatMap fun step => '-' :: '>' :: step.chars

def labelChars : Option Name → List Char
  | none => []
  | some name => ' ' :: 'a' :: 's' :: ' ' :: quotedChars '"' '"' name

/-- A column as a fragment, with its names in double quotes and blanks in front. -/
def ColumnRef.spelling (column : ColumnRef) (blanks : Nat) : String :=
  String.ofList (List.replicate blanks ' ' ++
    (pathChars '"' '"' column.path ++ (stepsChars column.json ++ labelChars column.label)))

/-- A table as a fragment, with its names in double quotes. -/
def TableName.spelling (table : TableName) : String :=
  String.ofList (pathChars '"' '"' table.path ++ labelChars table.label)

/-! ## Tokens of a spelling -/

theorem Text.inRanges_head {n first last : Nat} (hfirst : first ≤ n) (hlast : n ≤ last)
    (rest : List (Nat × Nat)) : inRanges n ((first, last) :: rest) = true := by
  rw [inRanges, if_neg (by omega), decide_eq_true hlast]
  rfl

namespace Token

theorem isWordStart_of_isDigit {c : Char} (h : c.isDigit = true) : isWordStart c = true := by
  have hrange := Char.isDigit_iff_toNat.1 h
  have halphanumeric : Text.isAlphanumeric c = true := Text.inRanges_head hrange.1 hrange.2 _
  simp [isWordStart, halphanumeric]

theorem isWordPart_of_isDigit {c : Char} (h : c.isDigit = true) : isWordPart c = true := by
  have hstart := isWordStart_of_isDigit h
  simp only [isWordStart] at hstart
  simp [isWordPart, hstart]

/-- Digits are a word of their own, unless what follows goes on with it. -/
theorem scan_digits {c : Char} {cs rest : List Char} (hc : c.isDigit = true)
    (hcs : ∀ d ∈ cs, d.isDigit = true) (hrest : ∀ d ∈ rest.head?, isWordPart d = false) :
    scan c (cs ++ rest) = (.word (String.ofList (c :: cs)) false, rest) := by
  have hmarks : c ≠ '.' ∧ c ≠ '*' ∧ c ≠ '-' ∧ c ≠ '"' ∧ c ≠ '\x60' ∧ c ≠ '[' := by
    refine ⟨?_, ?_, ?_, ?_, ?_, ?_⟩ <;> rintro rfl <;> exact absurd hc (by decide)
  obtain ⟨hdot, hstar, hdash, hquote, htick, hbracket⟩ := hmarks
  have hparts : ∀ d ∈ cs, isWordPart d = true := fun d hd => isWordPart_of_isDigit (hcs d hd)
  have hstop : rest.takeWhile isWordPart = [] ∧ rest.dropWhile isWordPart = rest := by
    cases rest with
    | nil => exact ⟨rfl, rfl⟩
    | cons d ds =>
      have hd : isWordPart d = false := hrest d rfl
      simp [hd]
  rw [scan, if_neg hdot, if_neg hstar, if_neg (by simp [hdash]), if_neg (by simp [hquote, htick]),
    if_neg hbracket, if_pos (isWordStart_of_isDigit hc), List.takeWhile_append_of_pos hparts,
    List.dropWhile_append_of_pos hparts, hstop.1, hstop.2, List.append_nil]

theorem byteLength_skipBlanks_le (cs : List Char) : byteLength (Text.skipBlanks cs) ≤ byteLength cs := by
  induction cs with
  | nil => exact Nat.le_refl _
  | cons c cs ih =>
    rw [Text.skipBlanks, List.dropWhile_cons]
    split
    · exact Nat.le_trans ih (Nat.le_add_left _ _)
    · exact Nat.le_refl _

/-- A blank moves the cursor on and does nothing else. -/
theorem next?_blank (offset : Nat) (cs : List Char) :
    next? ⟨offset, ' ' :: cs⟩ = next? ⟨offset + 1, cs⟩ := by
  have hskip : Text.skipBlanks (' ' :: cs) = Text.skipBlanks cs := rfl
  have hbytes : byteLength (' ' :: cs) = 1 + byteLength cs := rfl
  have hle := byteLength_skipBlanks_le cs
  have hoffset : offset + (1 + byteLength cs - byteLength (Text.skipBlanks cs)) =
      offset + 1 + (byteLength cs - byteLength (Text.skipBlanks cs)) := by omega
  unfold next?
  simp only [Cursor.moveTo, hskip, hbytes, hoffset]

theorem all_congr {a b : Cursor} (h : next? a = next? b) : all a = all b := by
  rw [all, all]
  split
  · next hnone =>
    split
    · rfl
    · next hsome =>
      rw [← h, hnone] at hsome
      cases hsome
  · next hsome =>
    split
    · next hnone =>
      rw [h, hnone] at hsome
      cases hsome
    · next hsome' =>
      rw [h, hsome'] at hsome
      cases hsome
      rfl

theorem all_blanks (cs : List Char) : ∀ blanks offset : Nat,
    ∃ after, all ⟨offset, List.replicate blanks ' ' ++ cs⟩ = all ⟨after, cs⟩
  | 0, offset => ⟨offset, rfl⟩
  | blanks + 1, offset => by
    obtain ⟨after, hafter⟩ := all_blanks cs blanks (offset + 1)
    exact ⟨after, (all_congr (next?_blank offset _)).trans hafter⟩

end Token

namespace Fragment

theorem position?_repr {position : Nat} (h : position < twoPow 64) :
    position? position.repr = some position := by
  have hvalue : ofDigits position.repr.toList = position := ofDigits_repr position
  have hne : position.repr.toList.isEmpty = false := by
    rw [Nat.toList_repr, List.isEmpty_eq_false_iff]
    exact Nat.toDigits_ne_nil
  have hdigits : position.repr.toList.all Char.isDigit = true :=
    List.all_eq_true.2 fun _ => isDigit_of_mem_repr
  simp only [position?, hne, hdigits, hvalue, h, Bool.not_false, Bool.and_self, decide_true, if_true]

/-- What may stand behind a step: another one, an alias or the end. -/
def EndsWord (rest : List Char) : Prop := ∀ c ∈ rest.head?, c = '-' ∨ c = ' '

theorem EndsWord.ne_quote {rest : List Char} (h : EndsWord rest) : rest.head? ≠ some '"' := by
  intro hquote
  have hmark := h '"' hquote
  revert hmark
  decide

theorem EndsWord.isWordPart {rest : List Char} (h : EndsWord rest) :
    ∀ c ∈ rest.head?, Token.isWordPart c = false := by
  intro c hc
  rcases h c hc with rfl | rfl
  · rfl
  · rfl

theorem endsWord_label (label : Option Name) : EndsWord (labelChars label) := by
  cases label with
  | none => exact nofun
  | some name => simp [EndsWord, labelChars]

theorem endsWord_steps (steps : List JsonStep) {rest : List Char} (hrest : EndsWord rest) :
    EndsWord (stepsChars steps ++ rest) := by
  cases steps with
  | nil => exact hrest
  | cons step steps => simp [EndsWord, stepsChars]

/-- A step is one word, and that stands for the step. -/
theorem all_step {step : JsonStep} (hstep : step.Writable) (offset : Nat) {rest : List Char}
    (hrest : EndsWord rest) :
    ∃ name quoted span after, stepOf name quoted = step ∧
      Token.all ⟨offset, step.chars ++ rest⟩ =
        ⟨.word name quoted, span⟩ :: Token.all ⟨after, rest⟩ := by
  cases step with
  | key name =>
    obtain ⟨span, after, hall⟩ := all_quotedChars isQuotePair_double hstep offset hrest.ne_quote
    exact ⟨name, true, span, after, rfl, hall⟩
  | index position =>
    have hindex : stepOf position.repr false = .index position := by
      unfold stepOf
      rw [position?_repr hstep]
    cases hchars : position.repr.toList with
    | nil =>
      rw [Nat.toList_repr] at hchars
      exact (Nat.toDigits_ne_nil hchars).elim
    | cons c cs =>
      have hdigits : ∀ d ∈ c :: cs, d.isDigit = true := by
        rw [← hchars]
        exact fun _ => isDigit_of_mem_repr
      obtain ⟨hc, hcs⟩ := List.forall_mem_cons.1 hdigits
      have hblank : Text.isBlank c = false := by
        have hrange := Char.isDigit_iff_toNat.1 hc
        have hfirst : '0'.toNat = 0x30 := rfl
        have hlast : '9'.toNat = 0x39 := rfl
        simp only [Text.isBlank, Bool.or_eq_false_iff, Bool.and_eq_false_iff, beq_eq_false_iff_ne,
          decide_eq_false_iff_not]
        omega
      have hword : String.ofList (c :: cs) = position.repr := by rw [← hchars, String.ofList_toList]
      have hscan := Token.scan_digits hc hcs hrest.isWordPart
      rw [hword] at hscan
      obtain ⟨span, after, hall⟩ :=
        @Token.all_cons ⟨offset, c :: (cs ++ rest)⟩ c (cs ++ rest) _ _ rfl hblank hscan
      refine ⟨position.repr, false, span, after, hindex, ?_⟩
      rw [JsonStep.chars, hchars, List.cons_append, hall]

theorem all_arrow (offset : Nat) (rest : List Char) :
    ∃ span after, Token.all ⟨offset, '-' :: '>' :: rest⟩ =
      ⟨.arrow, span⟩ :: Token.all ⟨after, rest⟩ :=
  Token.all_cons rfl (by decide) rfl

/-- The tokens of an alias, with the word before it. -/
theorem all_label {name : Name} (hname : name ≠ "") (offset : Nat) :
    ∃ span span', Token.all ⟨offset, labelChars (some name)⟩ =
      [⟨.word "as" false, span⟩, ⟨.word name true, span'⟩] := by
  have hscan : Token.scan 'a' ('s' :: ' ' :: quotedChars '"' '"' name) =
      (.word "as" false, ' ' :: quotedChars '"' '"' name) := rfl
  obtain ⟨span, middle, has⟩ :=
    @Token.all_skip ⟨offset, labelChars (some name)⟩ _ _ _ _ rfl hscan
  have hquoted := @Token.scanQuoted_escaped '"' name hname [] (by simp)
  rw [← isQuotePair_double.scan] at hquoted
  obtain ⟨span', after, hlabel⟩ :=
    @Token.all_skip ⟨middle, ' ' :: quotedChars '"' '"' name⟩ _ _ _ _ rfl hquoted
  exact ⟨span, span', by rw [has, hlabel, Token.all_nil]⟩

theorem readAlias_label (input : String) {label : Option Name} (hlabel : ∀ name ∈ label, name ≠ "")
    (offset : Nat) :
    ∃ found, readAlias input (Token.all ⟨offset, labelChars label⟩) = .ok (found, []) ∧
      found.map (·.1) = label := by
  cases label with
  | none =>
    rw [labelChars, Token.all_nil]
    exact ⟨none, rfl, rfl⟩
  | some name =>
    obtain ⟨span, span', hall⟩ := all_label (hlabel name rfl) offset
    have hword : "as".toLower = "as" := by decide +kernel
    refine ⟨some (name, span'), ?_, rfl⟩
    rw [hall]
    simp [readAlias, TokenKind.isAs, TokenKind.name?, hword]

theorem readSteps_steps (input : String) {rest : List Char} (hrest : EndsWord rest)
    (hend : ∀ offset span tokens, Token.all ⟨offset, rest⟩ ≠ ⟨.arrow, span⟩ :: tokens) :
    ∀ steps : List JsonStep, (∀ step ∈ steps, step.Writable) → ∀ offset,
      ∃ after, readSteps input (Token.all ⟨offset, stepsChars steps ++ rest⟩) =
        .ok (steps, Token.all ⟨after, rest⟩)
  | [], _, offset => by
    refine ⟨offset, ?_⟩
    rw [stepsChars, List.flatMap_nil, List.nil_append]
    exact readSteps_of_no_arrow input (hend offset)
  | step :: steps, hsteps, offset => by
    obtain ⟨hstep, hsteps⟩ := List.forall_mem_cons.1 hsteps
    obtain ⟨span, middle, harrow⟩ := all_arrow offset (step.chars ++ (stepsChars steps ++ rest))
    obtain ⟨name, quoted, span', next, hname, hword⟩ :=
      all_step hstep middle (endsWord_steps steps hrest)
    obtain ⟨after, hread⟩ := readSteps_steps input hrest hend steps hsteps next
    have hchars : stepsChars (step :: steps) ++ rest =
        '-' :: '>' :: (step.chars ++ (stepsChars steps ++ rest)) := by
      simp [stepsChars]
    refine ⟨after, ?_⟩
    rw [hchars, harrow, hword, readSteps, hread, hname]
    rfl

/-- An alias starts with a word. -/
theorem all_label_ne {label : Option Name} (hlabel : ∀ name ∈ label, name ≠ "") {kind : TokenKind}
    (hkind : ∀ name quoted, kind ≠ .word name quoted) (offset : Nat) (span : Span)
    (tokens : List Token) : Token.all ⟨offset, labelChars label⟩ ≠ ⟨kind, span⟩ :: tokens := by
  intro h
  cases label with
  | none =>
    rw [labelChars, Token.all_nil] at h
    cases h
  | some name =>
    obtain ⟨span, span', hall⟩ := all_label (hlabel name rfl) offset
    rw [hall] at h
    cases h
    exact hkind _ _ rfl

end Fragment

/-! ## Spellings are read back -/

theorem parseTable_spelling {table : TableName} (h : table.Writable) :
    parseTable table.spelling = .ok table := by
  obtain ⟨after, hpath⟩ := Fragment.readPath_pathChars table.spelling false isQuotePair_double
    (Fragment.endsWord_label table.label).ne_quote (Fragment.all_label_ne h.label nofun) table.path
    h.path h.names 0
  obtain ⟨found, hread, hfound⟩ := Fragment.readAlias_label table.spelling h.label after
  have htokens : Token.ofString table.spelling =
      Token.all ⟨0, pathChars '"' '"' table.path ++ labelChars table.label⟩ := by
    rw [Token.ofString, TableName.spelling, String.toList_ofList]
  unfold parseTable
  rw [htokens, hpath, ok_bind]
  dsimp only
  rw [hread, ok_bind]
  dsimp only
  rw [Fragment.readEnd, ok_bind, hfound]
  rfl

theorem parseColumn_spelling {column : ColumnRef} (h : column.Writable) (blanks : Nat) :
    parseColumn (column.spelling blanks) = .ok column := by
  obtain ⟨path, json, label⟩ := column
  obtain ⟨hne, hnames, hjson, hlabel, hwildcard⟩ := h
  have hends := Fragment.endsWord_steps json (Fragment.endsWord_label label)
  have hdot : ∀ offset span tokens,
      Token.all ⟨offset, stepsChars json ++ labelChars label⟩ ≠ ⟨.dot, span⟩ :: tokens := by
    cases json with
    | nil => exact Fragment.all_label_ne hlabel nofun
    | cons step steps =>
      intro offset span tokens hall
      obtain ⟨span', after, harrow⟩ :=
        Fragment.all_arrow offset (step.chars ++ (stepsChars steps ++ labelChars label))
      simp only [stepsChars, List.flatMap_cons, List.cons_append, List.append_assoc] at hall harrow
      rw [harrow] at hall
      cases hall
  obtain ⟨first, hfirst⟩ :=
    Token.all_blanks (pathChars '"' '"' path ++ (stepsChars json ++ labelChars label)) blanks 0
  obtain ⟨middle, hpath⟩ := Fragment.readPath_pathChars (ColumnRef.spelling ⟨path, json, label⟩ blanks)
    true isQuotePair_double hends.ne_quote hdot path hne hnames first
  obtain ⟨after, hsteps⟩ := Fragment.readSteps_steps (ColumnRef.spelling ⟨path, json, label⟩ blanks)
    (Fragment.endsWord_label label) (Fragment.all_label_ne hlabel nofun) json hjson middle
  have htokens : Token.ofString (ColumnRef.spelling ⟨path, json, label⟩ blanks) =
      Token.all ⟨first, pathChars '"' '"' path ++ (stepsChars json ++ labelChars label)⟩ := by
    rw [Token.ofString, ColumnRef.spelling, String.toList_ofList, hfirst]
  unfold parseColumn
  rw [htokens, hpath, ok_bind]
  dsimp only
  by_cases hwild : path.endsInWildcard = true
  · obtain ⟨rfl, rfl⟩ := hwildcard hwild
    simp only [hwild, if_true]
    rw [stepsChars, List.flatMap_nil, List.nil_append, labelChars, Token.all_nil]
    rfl
  · obtain ⟨found, hread, rfl⟩ := Fragment.readAlias_label
      (ColumnRef.spelling ⟨path, json, label⟩ blanks) hlabel after
    simp only [Bool.not_eq_true] at hwild
    simp only [hwild, Bool.false_eq_true, if_false]
    rw [hsteps, ok_bind]
    dsimp only
    rw [hread, ok_bind]
    cases found with
    | none => rfl
    | some label => rfl

/-- A column has a spelling besides those of any list: one that is longer than all of them. -/
theorem exists_spelling_not_mem {column : ColumnRef} (h : column.Writable) (used : List String) :
    ∃ fragment, fragment ∉ used ∧ parseColumn fragment = .ok column := by
  refine ⟨column.spelling ((used.map String.length).sum + 1), fun hmem => ?_, parseColumn_spelling h _⟩
  have hlength : (used.map String.length).sum + 1 ≤
      (column.spelling ((used.map String.length).sum + 1)).length := by
    rw [ColumnRef.spelling, String.length_ofList, List.length_append, List.length_replicate]
    omega
  have hsum := List.le_sum_of_mem (List.mem_map_of_mem (f := String.length) hmem)
  omega

end QueryCompiler
