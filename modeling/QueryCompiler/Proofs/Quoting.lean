import QueryCompiler.Config
import QueryCompiler.Proofs.Grammar

/-! # Quoting and reading are inverse

Each engine has its own quotes, and the scanner knows them all. A name in the quotes of an engine is one
token, whatever its characters are, so a reference in quotes is read back as that reference, and quoting
it a second time changes nothing (`Engine.quoting_is_read_back`).

* `TableName.Quotable`, `ColumnRef.Quotable`: references that can be written with quotes alone.
* `Engine.kindsOf_quotePath`, `Engine.kindsOf_aliasText`: the tokens of quoted text.
-/

namespace QueryCompiler
set_option autoImplicit false

/-! ## References in quotes -/

/-- A name that quotes can hold: nothing stands between the quotes of an empty name, and a star is never
quoted. -/
def IsQuotable (name : Name) : Prop := name ≠ "" ∧ name ≠ "*"

instance (name : Name) : Decidable (IsQuotable name) := inferInstanceAs (Decidable (_ ∧ _))

structure TableName.Quotable (table : TableName) : Prop where
  path : table.path ≠ []
  names : ∀ name ∈ table.path, IsQuotable name
  label : ∀ name ∈ table.label, IsQuotable name

/-- A column without JSON steps. Only its last name may be a star, and then it has no alias. -/
structure ColumnRef.Quotable (column : ColumnRef) : Prop where
  path : column.path ≠ []
  json : column.json = []
  names : ∀ name ∈ column.path.dropLast, IsQuotable name
  last : ∀ name ∈ column.path.getLast?, IsQuotable name ∨ name = "*" ∧ column.label = none
  label : ∀ name ∈ column.label, IsQuotable name

/-! ## Tokens of quoted text -/

namespace Token

theorem kindsOf_quotedChars {opening close : Char} (hpair : IsQuotePair opening close) {name : Name}
    (hname : name ≠ "") {rest : List Char} (hrest : rest.head? ≠ some close) :
    kindsOf (quotedChars opening close name ++ rest) = .word name true :: kindsOf rest := by
  have hchars : quotedChars opening close name ++ rest =
      opening :: (name.toList.flatMap (Dialect.escapeInName close) ++ close :: rest) := by
    simp [quotedChars]
  rw [hchars]
  refine kindsOf_cons hpair.notBlank ?_
  rw [hpair.scan]
  exact scanQuoted_escaped close hname hrest

theorem kindsOf_dot (rest : List Char) : kindsOf ('.' :: rest) = .dot :: kindsOf rest :=
  kindsOf_cons (by decide) rfl

theorem kindsOf_star (rest : List Char) : kindsOf ('*' :: rest) = .star :: kindsOf rest :=
  kindsOf_cons (by decide) rfl

/-- The word between a reference and its alias. -/
theorem kindsOf_as (rest : List Char) :
    kindsOf (' ' :: 'A' :: 'S' :: ' ' :: rest) = .word "AS" false :: kindsOf (' ' :: rest) :=
  kindsOf_skip rfl rfl

theorem kindsOf_blank (rest : List Char) : kindsOf (' ' :: rest) = kindsOf rest :=
  kindsOf_congr rfl

end Token

namespace Engine

theorem isQuotePair (engine : Engine) :
    IsQuotePair engine.dialect.openQuote engine.dialect.closeQuote := by
  cases engine <;> exact ⟨fun _ => rfl, by decide, by decide⟩

variable (engine : Engine)

theorem kindsOf_quote {name : Name} (hname : IsQuotable name) {rest : List Char}
    (hrest : rest.head? ≠ some engine.dialect.closeQuote) :
    Token.kindsOf ((engine.dialect.quote name).toList ++ rest) =
      .word name true :: Token.kindsOf rest := by
  have hstar : name ≠ wildcard := hname.2
  have hchars : (engine.dialect.quote name).toList =
      quotedChars engine.dialect.openQuote engine.dialect.closeQuote name := by
    rw [engine.defaultQuotes, Dialect.quoteBetween, if_neg hstar, String.toList_ofList, quotedChars]
  rw [hchars]
  exact Token.kindsOf_quotedChars engine.isQuotePair hname.1 hrest

theorem kindsOf_aliasText {label : Option Name} (hlabel : ∀ name ∈ label, IsQuotable name) :
    WritesAlias (Token.kindsOf (engine.dialect.aliasText label).toList) label := by
  cases label with
  | none =>
    rw [Dialect.aliasText, String.toList_empty, Token.kindsOf_nil]
    exact .absent
  | some name =>
    have hquoted := @kindsOf_quote engine name (hlabel name rfl) [] nofun
    have hchars : (engine.dialect.aliasText (some name)).toList =
        ' ' :: 'A' :: 'S' :: ' ' :: ((engine.dialect.quote name).toList ++ []) := by
      rw [Dialect.aliasText, String.toList_append, List.append_nil]
      rfl
    rw [hchars, Token.kindsOf_as, Token.kindsOf_blank, hquoted, Token.kindsOf_nil]
    exact .label (by decide) (.quoted name)

/-- What follows a path: an alias or nothing. -/
theorem aliasText_head? (label : Option Name) :
    (engine.dialect.aliasText label).toList.head? ≠ some engine.dialect.closeQuote := by
  cases label with
  | none => exact nofun
  | some name =>
    have hblank : (engine.dialect.aliasText (some name)).toList.head? = some ' ' := by
      rw [Dialect.aliasText, String.toList_append]
      rfl
    rw [hblank]
    cases engine <;> decide

/-- The tokens of a quoted path write that path, whatever follows. -/
theorem kindsOf_quotePath (stars : Bool) {rest : List Char}
    (hrest : rest.head? ≠ some engine.dialect.closeQuote) :
    ∀ path : Path, path ≠ [] → (∀ name ∈ path.dropLast, IsQuotable name) →
      (∀ name ∈ path.getLast?, IsQuotable name ∨ stars = true ∧ name = "*") →
      ∃ kinds, Token.kindsOf ((engine.dialect.quotePath path).toList ++ rest) =
        kinds ++ Token.kindsOf rest ∧ WritesPath stars kinds path
  | [], hpath, _, _ => (hpath rfl).elim
  | [name], _, _, hlast => by
    have hjoin : engine.dialect.quotePath [name] = engine.dialect.quote name := rfl
    rw [hjoin]
    rcases hlast name rfl with hname | ⟨hstars, rfl⟩
    · exact ⟨[.word name true], engine.kindsOf_quote hname hrest, .name (.quoted name)⟩
    · have hstar : engine.dialect.quote "*" = "*" := engine.defaultQuotes.quote_wildcard
      rw [hstar]
      exact ⟨[.star], Token.kindsOf_star rest, .star hstars⟩
  | name :: next :: path, _, hnames, hlast => by
    have hjoin : (engine.dialect.quotePath (name :: next :: path)).toList ++ rest =
        (engine.dialect.quote name).toList ++
          '.' :: ((engine.dialect.quotePath (next :: path)).toList ++ rest) := by
      simp [Dialect.quotePath, Dialect.joinTexts]
    rw [List.dropLast_cons_cons] at hnames
    obtain ⟨hname, hnames⟩ := List.forall_mem_cons.1 hnames
    rw [List.getLast?_cons_cons] at hlast
    obtain ⟨kinds, hkinds, hpath⟩ := kindsOf_quotePath stars hrest (next :: path)
      (List.cons_ne_nil _ _) hnames hlast
    have hdot : ('.' :: ((engine.dialect.quotePath (next :: path)).toList ++ rest)).head? ≠
        some engine.dialect.closeQuote := fun h => engine.isQuotePair.notDot (Option.some.inj h).symm
    refine ⟨.word name true :: .dot :: kinds, ?_, .dot (.quoted name) hpath⟩
    rw [hjoin, engine.kindsOf_quote hname hdot, Token.kindsOf_dot, hkinds]
    rfl

end Engine

/-! ## Reading back -/

theorem parseTable_quoteTable (engine : Engine) {table : TableName} (h : table.Quotable) :
    parseTable (engine.dialect.quoteTable table) = .ok table := by
  obtain ⟨kinds, hkinds, hpath⟩ := engine.kindsOf_quotePath false (engine.aliasText_head? table.label)
    table.path h.path (fun name hname => h.names name (List.dropLast_subset _ hname))
    (fun name hname => .inl (h.names name (List.mem_of_getLast? hname)))
  have htokens : Token.kinds (engine.dialect.quoteTable table) =
      kinds ++ Token.kindsOf (engine.dialect.aliasText table.label).toList := by
    rw [← hkinds, ← String.toList_append]
    rfl
  rw [parseTable_iff, htokens]
  exact .mk hpath (engine.kindsOf_aliasText h.label)

theorem parseColumn_quoteColumn (engine : Engine) {column : ColumnRef} (h : column.Quotable) :
    parseColumn (engine.dialect.quoteColumn column) = .ok column := by
  obtain ⟨path, json, label⟩ := column
  obtain ⟨hne, rfl, hnames, hlast, hlabel⟩ := h
  dsimp only at hne hnames hlast hlabel
  obtain ⟨kinds, hkinds, hpath⟩ := engine.kindsOf_quotePath true (engine.aliasText_head? label) path
    hne hnames fun name hname => (hlast name hname).imp id fun hstar => ⟨rfl, hstar.1⟩
  have htokens : Token.kinds (engine.dialect.quoteColumn ⟨path, [], label⟩) =
      kinds ++ [] ++ Token.kindsOf (engine.dialect.aliasText label).toList := by
    rw [List.append_nil, ← hkinds, ← String.toList_append]
    rfl
  rw [parseColumn_iff, htokens]
  refine .mk hpath .nil (engine.kindsOf_aliasText hlabel) fun hstar => ⟨rfl, ?_⟩
  -- a star at the end has no alias behind it
  obtain hquotable | ⟨-, rfl⟩ := hlast "*" hstar
  · exact (hquotable.2 rfl).elim
  · exact Token.kindsOf_nil

/-! ## Quoting twice -/

namespace Compiler

theorem quoteTable_of_parse (dialect : Dialect) {fragment : String} {table : TableName}
    (hparse : parseTable fragment = .ok table) :
    quoteTable ⟨dialect, ""⟩ fragment = .ok (dialect.quoteTable table) := by
  rw [quoteTable_eq, TableName.ofFragment, hparse, ofFragmentResult, ok_bind,
    TableName.withPrefix_empty]
  rfl

theorem quoteColumn_of_parse (dialect : Dialect) {fragment : String} {column : ColumnRef}
    (hparse : parseColumn fragment = .ok column) :
    quoteColumn ⟨dialect, ""⟩ fragment = .ok (dialect.quoteColumn column) := by
  rw [quoteColumn_eq, ColumnRef.ofFragment, hparse, ofFragmentResult, ok_bind,
    ColumnRef.withPrefix_empty]
  rfl

end Compiler

/-- A table or a column in the quotes of an engine is read back as it is. So a fragment without names that
quotes cannot hold is quoted to a text that quoting does not change any more. -/
theorem Engine.quoting_is_read_back (engine : Engine) :
    (∀ table : TableName, table.Quotable →
      parseTable (engine.dialect.quoteTable table) = .ok table) ∧
    (∀ column : ColumnRef, column.Quotable →
      parseColumn (engine.dialect.quoteColumn column) = .ok column) ∧
    (∀ fragment table, parseTable fragment = .ok table → table.Quotable →
      ∃ text, Compiler.quoteTable ⟨engine.dialect, ""⟩ fragment = .ok text ∧
        Compiler.quoteTable ⟨engine.dialect, ""⟩ text = .ok text) ∧
    (∀ fragment column, parseColumn fragment = .ok column → column.Quotable →
      ∃ text, Compiler.quoteColumn ⟨engine.dialect, ""⟩ fragment = .ok text ∧
        Compiler.quoteColumn ⟨engine.dialect, ""⟩ text = .ok text) := by
  refine ⟨fun table => parseTable_quoteTable engine, fun column => parseColumn_quoteColumn engine,
    fun fragment table hparse htable => ?_, fun fragment column hparse hcolumn => ?_⟩
  · have hback := parseTable_quoteTable engine htable
    exact ⟨_, Compiler.quoteTable_of_parse _ hparse, Compiler.quoteTable_of_parse _ hback⟩
  · have hback := parseColumn_quoteColumn engine hcolumn
    exact ⟨_, Compiler.quoteColumn_of_parse _ hparse, Compiler.quoteColumn_of_parse _ hback⟩

/-- Names that are made of quotes, and of what looks like more than a name. -/
theorem Engine.quoting_is_read_back_brackets :
    Engine.sqlserver.dialect.quoteTable ⟨["]]", "a.b as c"], some "[\""⟩ =
      "[]]]]].[a.b as c] AS [[\"]" ∧
    parseTable "[]]]]].[a.b as c] AS [[\"]" = .ok ⟨["]]", "a.b as c"], some "[\""⟩ ∧
    parseColumn "\"]\".*" = .ok ⟨["]", "*"], [], none⟩ ∧
    ∃ text, Compiler.quoteColumn ⟨Dialect.sqlserver, ""⟩ "\"]\".*" = .ok text ∧
      Compiler.quoteColumn ⟨Dialect.sqlserver, ""⟩ text = .ok text := by
  have htable : TableName.Quotable ⟨["]]", "a.b as c"], some "[\""⟩ :=
    ⟨by simp, by decide, by simp [IsQuotable]⟩
  have hcolumn : ColumnRef.Quotable ⟨["]", "*"], [], none⟩ :=
    ⟨by simp, rfl, by decide, by simp, by simp⟩
  have htext : Engine.sqlserver.dialect.quoteTable ⟨["]]", "a.b as c"], some "[\""⟩ =
      "[]]]]].[a.b as c] AS [[\"]" := by decide +kernel
  have hparse : parseColumn "\"]\".*" = .ok ⟨["]", "*"], [], none⟩ := by decide +kernel
  obtain ⟨htables, -, -, hcolumns⟩ := Engine.sqlserver.quoting_is_read_back
  refine ⟨htext, ?_, hparse, hcolumns _ _ hparse hcolumn⟩
  rw [← htext]
  exact htables _ htable

end QueryCompiler
