import QueryCompiler.Dialect.Basic
import QueryCompiler.Fragment.Parser
import QueryCompiler.Proofs.Outcome
import QueryCompiler.Statement.Condition

/-! # Reading fragments

Every path of names that are not empty is the path of some column fragment: its names in quotes, with
dots between them (`parseColumn_fragment`). What a fragment is read as has no empty names and can be
spelled (`parseTable_writable`, `parseColumn_writable`).
-/

namespace QueryCompiler
set_option autoImplicit false

/-! ## Quoted names -/

/-- A name between quotes, with the closing quote doubled where it is part of the name. -/
def quotedChars (opening close : Char) (name : Name) : List Char :=
  opening :: (name.toList.flatMap (Dialect.escapeInName close) ++ [close])

namespace Token

theorem quotedName?_escaped (close : Char) (name : List Char) {rest : List Char}
    (hrest : rest.head? ≠ some close) :
    quotedName? close (name.flatMap (Dialect.escapeInName close) ++ close :: rest) =
      some (name, rest) := by
  induction name with
  | nil =>
    cases rest with
    | nil => simp [quotedName?]
    | cons d ds =>
      have hd : d ≠ close := fun h => hrest (by rw [h]; rfl)
      simp [quotedName?, hd]
  | cons c cs ih =>
    rw [List.flatMap_cons, List.append_assoc]
    by_cases hc : c = close
    · subst hc
      simp [Dialect.escapeInName, quotedName?, ih]
    · rw [Dialect.escapeInName, if_neg hc, List.singleton_append, quotedName?.eq_def]
      simp [hc, ih]

theorem scanQuoted_escaped (close : Char) {name : Name} (hname : name ≠ "") {rest : List Char}
    (hrest : rest.head? ≠ some close) :
    scanQuoted close (name.toList.flatMap (Dialect.escapeInName close) ++ close :: rest) =
      (.word name true, rest) := by
  have hne : name.toList ≠ [] := by simpa using hname
  rw [scanQuoted, quotedName?_escaped close name.toList hrest]
  cases hchars : name.toList with
  | nil => exact (hne hchars).elim
  | cons c cs =>
    have hback : String.ofList (c :: cs) = name := by rw [← hchars, String.ofList_toList]
    simp [hback]

/-- A token and what is behind it. -/
theorem all_skip {cursor : Cursor} {c : Char} {cs : List Char} {kind : TokenKind}
    {rest : List Char} (hskip : Text.skipBlanks cursor.rest = c :: cs)
    (hscan : scan c cs = (kind, rest)) :
    ∃ span offset, all cursor = ⟨kind, span⟩ :: all ⟨offset, rest⟩ := by
  have hnext : ∃ span offset, next? cursor = some (⟨kind, span⟩, ⟨offset, rest⟩) := by
    unfold next?
    simp only [Cursor.moveTo, hskip, hscan]
    exact ⟨_, _, rfl⟩
  obtain ⟨span, offset, hnext⟩ := hnext
  refine ⟨span, offset, ?_⟩
  rw [all]
  split
  · next h =>
    rw [hnext] at h
    cases h
  · next token after h =>
    rw [hnext] at h
    cases h
    rfl

theorem all_cons {cursor : Cursor} {c : Char} {cs : List Char} {kind : TokenKind}
    {rest : List Char} (hcursor : cursor.rest = c :: cs) (hblank : Text.isBlank c = false)
    (hscan : scan c cs = (kind, rest)) :
    ∃ span offset, all cursor = ⟨kind, span⟩ :: all ⟨offset, rest⟩ := by
  refine all_skip ?_ hscan
  rw [hcursor, Text.skipBlanks, List.dropWhile_cons, hblank]
  rfl

theorem all_nil (offset : Nat) : all ⟨offset, []⟩ = [] := by
  rw [all]
  split
  · rfl
  · next h => cases h

end Token

/-! ## Paths -/

/-- The characters that open a quoted name, and the ones that close it. -/
structure IsQuotePair (opening close : Char) : Prop where
  scan (cs : List Char) : Token.scan opening cs = Token.scanQuoted close cs
  notBlank : Text.isBlank opening = false
  notDot : close ≠ '.'

/-- The names of a path in quotes, with dots between them. -/
def pathChars (opening close : Char) : Path → List Char
  | [] => []
  | [name] => quotedChars opening close name
  | name :: path => quotedChars opening close name ++ '.' :: pathChars opening close path

namespace Fragment

theorem all_quotedChars {opening close : Char} (hpair : IsQuotePair opening close) {name : Name}
    (hname : name ≠ "") (offset : Nat) {rest : List Char} (hrest : rest.head? ≠ some close) :
    ∃ span after, Token.all ⟨offset, quotedChars opening close name ++ rest⟩ =
      ⟨.word name true, span⟩ :: Token.all ⟨after, rest⟩ := by
  have hchars : quotedChars opening close name ++ rest =
      opening :: (name.toList.flatMap (Dialect.escapeInName close) ++ close :: rest) := by
    simp [quotedChars]
  refine Token.all_cons hchars hpair.notBlank ?_
  rw [hpair.scan]
  exact Token.scanQuoted_escaped close hname hrest

theorem all_dot (offset : Nat) (rest : List Char) :
    ∃ span after, Token.all ⟨offset, '.' :: rest⟩ = ⟨.dot, span⟩ :: Token.all ⟨after, rest⟩ :=
  Token.all_cons rfl (by decide) rfl

theorem readPath_word_dot (input : String) (stars : Bool) (name : Name) (span span' : Span)
    (tokens : List Token) :
    readPath input stars (⟨.word name true, span⟩ :: ⟨.dot, span'⟩ :: tokens) =
      (readPath input stars tokens).map fun (path, rest) => (name :: path, rest) := by
  simp [readPath, TokenKind.name?, TokenKind.isAs]

theorem readPath_word_end (input : String) (stars : Bool) (name : Name) (span : Span)
    {tokens : List Token} (h : ∀ span rest, tokens ≠ ⟨.dot, span⟩ :: rest) :
    readPath input stars (⟨.word name true, span⟩ :: tokens) = .ok ([name], tokens) := by
  rw [readPath]
  simp [TokenKind.name?, TokenKind.isAs]

theorem readSteps_of_no_arrow (input : String) {tokens : List Token}
    (h : ∀ span rest, tokens ≠ ⟨.arrow, span⟩ :: rest) : readSteps input tokens = .ok ([], tokens) := by
  unfold readSteps
  split
  · exact (h _ _ rfl).elim
  · exact (h _ _ rfl).elim
  · rfl

/-- A quoted path is read back, whatever stands behind it, unless that goes on with the path or with
its last name. -/
theorem readPath_pathChars (input : String) (stars : Bool) {opening close : Char}
    (hpair : IsQuotePair opening close) {rest : List Char} (hrest : rest.head? ≠ some close)
    (hend : ∀ offset span tokens, Token.all ⟨offset, rest⟩ ≠ ⟨.dot, span⟩ :: tokens) :
    ∀ (path : Path), path ≠ [] → (∀ name ∈ path, name ≠ "") → ∀ offset,
      ∃ after, readPath input stars (Token.all ⟨offset, pathChars opening close path ++ rest⟩) =
        .ok (path, Token.all ⟨after, rest⟩)
  | [], hpath, _, _ => (hpath rfl).elim
  | [name], _, hnames, offset => by
    obtain ⟨span, after, hall⟩ := all_quotedChars hpair (hnames name List.mem_cons_self) offset hrest
    refine ⟨after, ?_⟩
    rw [pathChars, hall]
    exact readPath_word_end input stars name span (hend after)
  | name :: next :: path, _, hnames, offset => by
    have hdot : ('.' :: (pathChars opening close (next :: path) ++ rest)).head? ≠ some close :=
      fun h => hpair.notDot (Option.some.inj h).symm
    obtain ⟨span, middle, hname⟩ := all_quotedChars hpair (hnames name List.mem_cons_self) offset hdot
    obtain ⟨span', next', hdots⟩ := all_dot middle (pathChars opening close (next :: path) ++ rest)
    obtain ⟨after, hpath⟩ := readPath_pathChars input stars hpair hrest hend (next :: path)
      (List.cons_ne_nil _ _) (fun n hn => hnames n (.tail _ hn)) next'
    refine ⟨after, ?_⟩
    rw [pathChars, List.append_assoc, List.cons_append, hname, hdots, readPath_word_dot, hpath]
    · rfl
    · exact List.cons_ne_nil _ _

end Fragment

theorem isQuotePair_double : IsQuotePair '"' '"' := ⟨fun _ => rfl, by decide, by decide⟩

/-- A column fragment for a path: its names in double quotes. -/
def Path.fragment (path : Path) : String := String.ofList (pathChars '"' '"' path)

theorem parseColumn_fragment {path : Path} (hpath : path ≠ []) (hnames : ∀ name ∈ path, name ≠ "") :
    parseColumn path.fragment = .ok ⟨path, [], none⟩ := by
  have hend : ∀ offset span tokens, Token.all ⟨offset, []⟩ ≠ ⟨.dot, span⟩ :: tokens := by
    intro offset span tokens
    rw [Token.all_nil]
    exact fun h => nomatch h
  obtain ⟨after, hread⟩ := Fragment.readPath_pathChars path.fragment true isQuotePair_double
    (by simp) hend path hpath hnames 0
  have htokens : Token.ofString path.fragment = Token.all ⟨0, pathChars '"' '"' path ++ []⟩ := by
    rw [Token.ofString, Path.fragment, String.toList_ofList, List.append_nil]
  rw [Token.all_nil] at hread
  unfold parseColumn
  rw [htokens, hread]
  cases hwild : path.endsInWildcard with
  | true => simp [hwild, Fragment.readAlias, Fragment.readEnd, bind, Except.bind, pure, Except.pure]
  | false =>
    simp [hwild, Fragment.readSteps, Fragment.readAlias, Fragment.readEnd, bind, Except.bind, pure,
      Except.pure]

/-! ## Names that are read -/

namespace Token

theorem scanQuoted_word {close : Char} {cs rest : List Char} {name : Name} {quoted : Bool}
    (h : scanQuoted close cs = (.word name quoted, rest)) : name ≠ "" := by
  unfold scanQuoted at h
  split at h
  · cases h
  · cases h
  · next chars _ hne _ =>
    cases h
    intro hempty
    exact hne (by simpa using hempty)

theorem scan_word {c : Char} {cs rest : List Char} {name : Name} {quoted : Bool}
    (h : scan c cs = (.word name quoted, rest)) : name ≠ "" := by
  unfold scan at h
  split at h
  · cases h
  split at h
  · cases h
  split at h
  · cases h
  split at h
  · exact scanQuoted_word h
  split at h
  · exact scanQuoted_word h
  split at h
  · cases h
    simp
  · cases h

/-- No word of a fragment is empty. -/
theorem word_ne_empty (cursor : Cursor) :
    ∀ token ∈ all cursor, ∀ name quoted, token.kind = .word name quoted → name ≠ "" := by
  fun_induction all cursor with
  | case1 cursor h => exact fun token hmem => (List.not_mem_nil hmem).elim
  | case2 cursor token after h ih =>
    refine List.forall_mem_cons.2 ⟨?_, ih⟩
    intro name quoted hkind
    unfold next? at h
    simp only [Cursor.moveTo] at h
    split at h
    · cases h
    · next c cs hcs =>
      cases h
      exact scan_word (Prod.ext hkind rfl)

end Token

theorem TokenKind.name?_eq {kind : TokenKind} {name : Name} (h : kind.name? = some name) :
    ∃ quoted, kind = .word name quoted := by
  cases kind with
  | word word quoted =>
    rw [TokenKind.name?] at h
    split at h
    · cases h
    · cases h
      exact ⟨quoted, rfl⟩
  | dot | star | arrow | invalid => cases h

namespace Fragment

/-- Tokens whose names are not empty. -/
def Named (tokens : List Token) : Prop :=
  ∀ token ∈ tokens, ∀ name, token.kind.name? = some name → name ≠ ""

theorem readPath_named (input : String) (stars : Bool) (tokens : List Token) (h : Named tokens) :
    Ensures (readPath input stars tokens) fun result =>
      result.1 ≠ [] ∧ (∀ name ∈ result.1, name ≠ "") ∧ Named result.2 := by
  fun_induction readPath input stars tokens with
  | case1 => exact .error
  | case2 token rest hstar =>
    refine .ok ⟨List.cons_ne_nil _ _, List.forall_mem_singleton.2 (by decide), ?_⟩
    exact (List.forall_mem_cons.1 h).2
  | case3 token rest hstar hname => exact .error
  | case4 token hstar name hname span rest ih =>
    obtain ⟨htoken, hdot⟩ := List.forall_mem_cons.1 h
    refine (ih (List.forall_mem_cons.1 hdot).2).map fun result hresult => ?_
    exact ⟨List.cons_ne_nil _ _, List.forall_mem_cons.2 ⟨htoken name hname, hresult.2.1⟩,
      hresult.2.2⟩
  | case5 token hstar name hname rest hdot =>
    obtain ⟨htoken, hrest⟩ := List.forall_mem_cons.1 h
    exact .ok ⟨List.cons_ne_nil _ _, List.forall_mem_singleton.2 (htoken name hname), hrest⟩

theorem readAlias_named (input : String) {tokens : List Token} (h : Named tokens) :
    Ensures (readAlias input tokens) fun result => ∀ label ∈ result.1, label.1 ≠ "" := by
  unfold readAlias
  split
  · exact .ok (by simp)
  · refine .ite (fun _ => ?_) fun _ => .ok (by simp)
    split
    · exact .error
    · next aliasToken rest =>
      split
      · exact .error
      · next name hname =>
        refine .ok fun label hlabel => ?_
        cases hlabel
        exact h aliasToken (.tail _ List.mem_cons_self) name hname

end Fragment

theorem Fragment.named_ofString (input : String) : Fragment.Named (Token.ofString input) := by
  intro token htoken name hname
  obtain ⟨quoted, hkind⟩ := TokenKind.name?_eq hname
  exact Token.word_ne_empty _ token htoken name quoted hkind

/-! ## References that can be spelled -/

/-- Keys have a name, positions are below `2 ^ 64`. -/
def JsonStep.Writable : JsonStep → Prop
  | .key name => name ≠ ""
  | .index position => position < twoPow 64

structure ColumnRef.Writable (column : ColumnRef) : Prop where
  path : column.path ≠ []
  names : ∀ name ∈ column.path, name ≠ ""
  json : ∀ step ∈ column.json, step.Writable
  label : ∀ name ∈ column.label, name ≠ ""
  wildcard : column.path.endsInWildcard = true → column.json = [] ∧ column.label = none

structure TableName.Writable (table : TableName) : Prop where
  path : table.path ≠ []
  names : ∀ name ∈ table.path, name ≠ ""
  label : ∀ name ∈ table.label, name ≠ ""

/-- What a table fragment is read as has a path, and none of its names is empty. -/
theorem parseTable_writable (input : String) : Ensures (parseTable input) TableName.Writable := by
  refine (Fragment.readPath_named input false _ (Fragment.named_ofString input)).bind
    fun ⟨path, rest⟩ hpath => ?_
  obtain ⟨hne, hnames, hrest⟩ := hpath
  refine (Fragment.readAlias_named input hrest).bind fun ⟨label, rest⟩ hlabel => ?_
  refine .bind_any fun _ _ => .ok ⟨hne, hnames, fun name hname => ?_⟩
  obtain ⟨entry, hentry, rfl⟩ := Option.map_eq_some_iff.1 hname
  exact hlabel entry hentry

namespace Fragment

/-- Tokens whose words are not empty. -/
def Worded (tokens : List Token) : Prop :=
  ∀ token ∈ tokens, ∀ name quoted, token.kind = .word name quoted → name ≠ ""

theorem Worded.named {tokens : List Token} (h : Worded tokens) : Named tokens := by
  intro token htoken name hname
  obtain ⟨quoted, hkind⟩ := TokenKind.name?_eq hname
  exact h token htoken name quoted hkind

theorem Worded.suffix {tokens rest : List Token} (h : Worded tokens) (hrest : rest <:+ tokens) :
    Worded rest := fun token htoken => h token (hrest.subset htoken)

theorem readPath_suffix (input : String) (stars : Bool) (tokens : List Token) :
    Ensures (readPath input stars tokens) fun result => result.2 <:+ tokens := by
  fun_induction readPath input stars tokens with
  | case1 => exact .error
  | case2 token rest hstar => exact .ok (List.suffix_cons token rest)
  | case3 token rest hstar hname => exact .error
  | case4 token hstar name hname span rest ih =>
    refine ih.map fun result hresult => ?_
    exact (hresult.trans (List.suffix_cons _ rest)).trans (List.suffix_cons token _)
  | case5 token hstar name hname rest hdot => exact .ok (List.suffix_cons token rest)

theorem position?_lt {name : Name} {position : Nat} (h : position? name = some position) :
    position < twoPow 64 := by
  simp only [position?, Option.ite_none_right_eq_some, Bool.and_eq_true, decide_eq_true_eq,
    Option.some.injEq] at h
  obtain ⟨⟨-, hlt⟩, rfl⟩ := h
  exact hlt

theorem stepOf_writable {name : Name} (hname : name ≠ "") (quoted : Bool) :
    (stepOf name quoted).Writable := by
  unfold stepOf
  split
  · next h => exact position?_lt h
  · exact hname

theorem readSteps_writable (input : String) (tokens : List Token) (h : Worded tokens) :
    Ensures (readSteps input tokens) fun result =>
      (∀ step ∈ result.1, step.Writable) ∧ result.2 <:+ tokens := by
  fun_induction readSteps input tokens with
  | case1 span name quoted span' rest ih =>
    have hrest : rest <:+ ⟨.arrow, span⟩ :: ⟨.word name quoted, span'⟩ :: rest :=
      (List.suffix_cons _ rest).trans (List.suffix_cons _ _)
    have hname : name ≠ "" := h ⟨.word name quoted, span'⟩ (by simp) name quoted rfl
    refine (ih (h.suffix hrest)).map fun result ⟨hsteps, hresult⟩ => ⟨?_, hresult.trans hrest⟩
    exact List.forall_mem_cons.2 ⟨stepOf_writable hname quoted, hsteps⟩
  | case2 => exact .error
  | case3 rest => exact .ok ⟨fun step hstep => (List.not_mem_nil hstep).elim, List.suffix_refl rest⟩

end Fragment

/-- What a column fragment is read as has a path, none of its names is empty, its positions are small,
and a wildcard has neither steps nor an alias. -/
theorem parseColumn_writable (input : String) : Ensures (parseColumn input) ColumnRef.Writable := by
  have hall : Fragment.Worded (Token.ofString input) := Token.word_ne_empty _
  have hpath := Fragment.readPath_named input true _ hall.named
  have hrest := Fragment.readPath_suffix input true (Token.ofString input)
  unfold parseColumn
  refine .bind_any fun (path, rest) hread => ?_
  obtain ⟨hne, hnames, -⟩ := hpath _ hread
  have hworded : Fragment.Worded rest := hall.suffix (hrest _ hread)
  by_cases hwild : path.endsInWildcard = true
  · simp only [hwild, if_true]
    refine .bind_any fun (json, rest) hjson => .bind_any fun (label, rest) _ => ?_
    cases hjson
    cases label with
    | some label => exact .error
    | none => exact .bind_any fun _ _ => .ok ⟨hne, hnames, by simp, by simp, by simp⟩
  · have hnot : ∀ {P : Prop}, path.endsInWildcard = true → P := fun h => (hwild h).elim
    simp only [Bool.not_eq_true] at hwild
    simp only [hwild, Bool.false_eq_true, if_false]
    refine (Fragment.readSteps_writable input rest hworded).bind fun (json, rest) hjson => ?_
    have hlabel := Fragment.readAlias_named input (hworded.suffix hjson.2).named
    refine hlabel.bind fun (label, rest) hlabel => ?_
    cases label with
    | none => exact .bind_any fun _ _ => .ok ⟨hne, hnames, hjson.1, by simp, hnot⟩
    | some label =>
      have hname : label.1 ≠ "" := hlabel label rfl
      exact .bind_any fun _ _ => .ok ⟨hne, hnames, hjson.1, by simpa using hname, hnot⟩

/-! ## Prefixes -/

namespace Path

theorem prefixTable_append (tablePrefix : String) (schema : Path) (table : Name) :
    prefixTable tablePrefix (schema ++ [table]) = schema ++ [tablePrefix ++ table] := by
  induction schema with
  | nil => rfl
  | cons name schema ih =>
    rw [List.cons_append, prefixTable, ih, List.cons_append]
    simp

theorem prefixQualifier_append (tablePrefix : String) (schema : Path) (table column : Name) :
    prefixQualifier tablePrefix (schema ++ [table, column]) =
      schema ++ [tablePrefix ++ table, column] := by
  induction schema with
  | nil => rfl
  | cons name schema ih =>
    rw [List.cons_append, prefixQualifier, ih, List.cons_append]
    · simp
    · intro column h
      have hlength := congrArg List.length h
      simp at hlength

theorem prefixQualifier_of_length_lt (tablePrefix : String) {path : Path} (h : path.length < 2) :
    prefixQualifier tablePrefix path = path := by
  match path, h with
  | [], _ => rfl
  | [column], _ => rfl

theorem exists_table {path : Path} (h : path ≠ []) : ∃ schema table, path = schema ++ [table] :=
  ⟨path.dropLast, path.getLast h, (List.dropLast_append_getLast h).symm⟩

theorem exists_column {path : Path} (h : 2 ≤ path.length) :
    ∃ schema table column, path = schema ++ [table, column] := by
  have hne : path ≠ [] := by
    rintro rfl
    simp at h
  have hrest : path.dropLast ≠ [] := by
    intro hnil
    have hlength := congrArg List.length hnil
    rw [List.length_dropLast, List.length_nil] at hlength
    omega
  obtain ⟨schema, table, hschema⟩ := exists_table hrest
  obtain ⟨front, column, rfl⟩ := exists_table hne
  rw [List.dropLast_concat] at hschema
  subst hschema
  exact ⟨schema, table, column, by simp⟩

end Path

theorem ColumnRef.withPrefix_empty (column : ColumnRef) : column.withPrefix "" = column := by
  obtain ⟨path, json, label⟩ := column
  unfold ColumnRef.withPrefix
  congr 1
  by_cases hpath : path.length < 2
  · exact Path.prefixQualifier_of_length_lt "" hpath
  · obtain ⟨schema, table, column, rfl⟩ := Path.exists_column (Nat.not_lt.1 hpath)
    rw [Path.prefixQualifier_append, String.empty_append]

theorem TableName.withPrefix_empty (table : TableName) : table.withPrefix "" = table := by
  obtain ⟨path, label⟩ := table
  have hlabel : label.map ("" ++ ·) = label := by cases label <;> simp
  have hpath : path.prefixTable "" = path := by
    by_cases hpath : path = []
    · rw [hpath]
      rfl
    · obtain ⟨schema, table, rfl⟩ := Path.exists_table hpath
      rw [Path.prefixTable_append, String.empty_append]
  rw [TableName.withPrefix, hlabel, hpath]

/-! ## Columns of a table -/

theorem Path.getLast?_prefixTable (tablePrefix : String) :
    ∀ path : Path, (path.prefixTable tablePrefix).getLast? =
      path.getLast?.map (tablePrefix ++ ·)
  | [] => rfl
  | [table] => rfl
  | schema :: next :: path => by
    have ih := Path.getLast?_prefixTable tablePrefix (next :: path)
    rw [Path.prefixTable, List.getLast?_cons, ih]
    · simp [List.getLast?_cons]
    · exact List.cons_ne_nil _ _

theorem TableName.referenceName_withPrefix {table : TableName} (h : table.path ≠ [])
    (tablePrefix : String) :
    (table.withPrefix tablePrefix).referenceName = tablePrefix ++ table.referenceName := by
  unfold TableName.referenceName TableName.withPrefix TableName.table?
  cases table.label with
  | some label => rfl
  | none =>
    obtain ⟨last, hlast⟩ := Option.ne_none_iff_exists'.1 (mt List.getLast?_eq_none_iff.1 h)
    simp [Path.getLast?_prefixTable, hlast]

/-- The result of a fragment is that of its reader. -/
theorem ofFragmentResult_eq_ok_iff {α : Type} {result : Except FragmentError α} {a : α} :
    ofFragmentResult result = .ok a ↔ result = .ok a := by
  cases result with
  | error e => simp [ofFragmentResult]
  | ok own => simp [ofFragmentResult]

theorem ofFragmentResult_eq_error_iff {α : Type} {result : Except FragmentError α} {e : Error} :
    ofFragmentResult result = .error e ↔ ∃ fault, result = .error fault ∧ e = .fragment fault := by
  cases result with
  | error fault => simp [ofFragmentResult, eq_comm]
  | ok own => simp [ofFragmentResult]

theorem TableName.ofFragment_eq_ok_iff {tablePrefix fragment : String} {table : TableName} :
    TableName.ofFragment tablePrefix fragment = .ok table ↔
      ∃ own, parseTable fragment = .ok own ∧ own.withPrefix tablePrefix = table := by
  simp only [TableName.ofFragment, bind_pure_eq_ok_iff, ofFragmentResult_eq_ok_iff]

theorem ColumnRef.ofFragment_eq_ok_iff {tablePrefix fragment : String} {column : ColumnRef} :
    ColumnRef.ofFragment tablePrefix fragment = .ok column ↔
      ∃ own, parseColumn fragment = .ok own ∧ own.withPrefix tablePrefix = column := by
  simp only [ColumnRef.ofFragment, bind_pure_eq_ok_iff, ofFragmentResult_eq_ok_iff]

/-- For every column of a table there is a fragment that is read as it. -/
theorem TableName.ofFragment_column (tablePrefix fragment : String) {column : Name}
    (hcolumn : column ≠ "") :
    Ensures (TableName.ofFragment tablePrefix fragment) fun table =>
      ∃ name, ColumnRef.ofFragment tablePrefix name =
        .ok ⟨[table.referenceName, column], [], none⟩ := by
  have hparse : Ensures (ofFragmentResult (parseTable fragment)) fun table =>
      table.path ≠ [] ∧ table.referenceName ≠ "" := by
    intro table htable
    cases hresult : parseTable fragment with
    | error e =>
      rw [hresult] at htable
      cases htable
    | ok result =>
      rw [hresult] at htable
      cases htable
      obtain ⟨hpath, hnames, hlabel⟩ := parseTable_writable fragment table hresult
      refine ⟨hpath, ?_⟩
      unfold TableName.referenceName TableName.table?
      cases hlabelEq : table.label with
      | some label => exact hlabel label hlabelEq
      | none =>
        obtain ⟨last, hlast⟩ := Option.ne_none_iff_exists'.1 (mt List.getLast?_eq_none_iff.1 hpath)
        rw [hlast]
        exact hnames last (List.mem_of_getLast? hlast)
  refine hparse.bind fun table ⟨hpath, hname⟩ => .ok ⟨Path.fragment [table.referenceName, column], ?_⟩
  have hcolumns : ∀ name ∈ [table.referenceName, column], name ≠ "" := by
    simp [hname, hcolumn]
  rw [ColumnRef.ofFragment, parseColumn_fragment (List.cons_ne_nil _ _) hcolumns,
    TableName.referenceName_withPrefix hpath]
  rfl

/-! ## Columns in expressions -/

/-- Whether a fragment can stand in an expression: a column that has no alias and is no wildcard. -/
def Fragment.isPlainColumn (fragment : String) : Bool :=
  match parseColumn fragment with
  | .ok column => column.label.isNone && !column.path.endsInWildcard
  | .error _ => false

theorem Path.getLast?_prefixQualifier (tablePrefix : String) :
    ∀ path : Path, (path.prefixQualifier tablePrefix).getLast? = path.getLast?
  | [] => rfl
  | [_] => rfl
  | [_, _] => rfl
  | schema :: table :: column :: path => by
    have ih := Path.getLast?_prefixQualifier tablePrefix (table :: column :: path)
    rw [Path.prefixQualifier, List.getLast?_cons, ih, List.getLast?_cons]
    · rfl
    all_goals simp

/-- A plain column becomes a path, or a place in a JSON document; the prefix does not matter for
whether it does. -/
theorem Expr.yields_ofColumn {tablePrefix fragment : String} {P : Expr → Prop}
    (hpath : ∀ path, P (.path path)) (hjson : ∀ column steps, P (.json column steps)) :
    Yields (Expr.ofColumn tablePrefix fragment) P ↔ Fragment.isPlainColumn fragment = true := by
  unfold Expr.ofColumn ColumnRef.ofFragment Fragment.isPlainColumn
  cases parseColumn fragment with
  | error e => simp [ofFragmentResult]
  | ok column =>
    have hwildcard : (column.path.prefixQualifier tablePrefix).endsInWildcard =
        column.path.endsInWildcard := by
      rw [Path.endsInWildcard, Path.getLast?_prefixQualifier, Path.endsInWildcard]
    have hexpr : P (if column.json.isEmpty then
        .path (column.path.prefixQualifier tablePrefix)
        else .json (column.path.prefixQualifier tablePrefix) column.json) := by
      split
      · exact hpath _
      · exact hjson _ _
    cases hlabel : column.label <;> cases hwild : column.path.endsInWildcard <;>
      simp_all [ofFragmentResult, ColumnRef.withPrefix, throw, throwThe, MonadExceptOf.throw]

end QueryCompiler
