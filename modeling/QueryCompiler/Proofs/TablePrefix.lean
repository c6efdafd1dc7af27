import QueryCompiler.Dialect.Engine
import QueryCompiler.Proofs.LikeStatements
import QueryCompiler.Proofs.Spelling

/-! # Table prefixes are renamings

Compiling with a table prefix is compiling without one, after the prefix has been written into the
fragments of the plan. Tables get it in front of their names and aliases, columns in front of the name
of their table, and sub-queries in FROM and in joins in front of their aliases.

* `Likeness.prefixing`: the fragments with the prefix written into them.
* `Plan.exists_prefixed`, `Row.exists_prefixed`: every plan and every row can be written so.
* `table_prefix_is_renaming`: both ways lead to the same statements.
-/

namespace QueryCompiler
set_option autoImplicit false

/-! ## Fragments -/

/-- A column fragment with a prefix at its table. Without a table it is kept as it is, and so is what
is no column. -/
inductive PrefixedColumn (tablePrefix fragment : String) : String → Prop where
  | kept : (∀ column, parseColumn fragment = .ok column → column.path.length < 2) →
    PrefixedColumn tablePrefix fragment fragment
  | renamed {fragment' : String} {schema : Path} {table column : Name} {json : List JsonStep}
    {label : Option Name} :
    parseColumn fragment = .ok ⟨schema ++ [table, column], json, label⟩ →
    parseColumn fragment' = .ok ⟨schema ++ [tablePrefix ++ table, column], json, label⟩ →
    PrefixedColumn tablePrefix fragment fragment'

/-- A table fragment with a prefix at its name and at its alias. -/
inductive PrefixedTable (tablePrefix fragment : String) : String → Prop where
  | kept : (∀ table, parseTable fragment ≠ .ok table) → PrefixedTable tablePrefix fragment fragment
  | renamed {fragment' : String} {schema : Path} {table : Name} {label : Option Name} :
    parseTable fragment = .ok ⟨schema ++ [table], label⟩ →
    parseTable fragment' = .ok ⟨schema ++ [tablePrefix ++ table], label.map (tablePrefix ++ ·)⟩ →
    PrefixedTable tablePrefix fragment fragment'

/-- Plans of which the second has the prefix of the first written into its fragments. Names of other
things, values and raw SQL are the same in both. -/
def Likeness.prefixing (tablePrefix : String) : Likeness where
  column := PrefixedColumn tablePrefix
  table := PrefixedTable tablePrefix
  source label label' := label' = tablePrefix ++ label
  name := Eq
  key := Eq
  value := Eq
  raw := Eq
  lock _ := True

/-! ## Reading -/

/-- A column with a table is no plain one. -/
theorem plainColumn_of_qualified {fragment : String} {column : ColumnRef}
    (h : parseColumn fragment = .ok column) (hpath : 2 ≤ column.path.length) :
    ∃ e, plainColumn fragment = .error e := by
  unfold plainColumn
  rw [h, ofFragmentResult, ok_bind]
  split
  · simp at hpath
  · exact ⟨_, rfl⟩

namespace PrefixedColumn

variable {tablePrefix fragment fragment' : String}

/-- Both fragments are read as one column, once each has its own prefix. -/
theorem ofFragment (h : PrefixedColumn tablePrefix fragment fragment') :
    Matched (fun _ _ => True) Eq (ColumnRef.ofFragment tablePrefix fragment)
      (ColumnRef.ofFragment "" fragment') := by
  unfold ColumnRef.ofFragment
  cases h with
  | kept hkept =>
    cases hcolumn : parseColumn fragment with
    | error e => exact .error trivial
    | ok column =>
      have hpath := Path.prefixQualifier_of_length_lt tablePrefix (hkept column hcolumn)
      have hsame : column.withPrefix tablePrefix = column := by rw [ColumnRef.withPrefix, hpath]
      exact .ok (hsame.trans column.withPrefix_empty.symm)
  | renamed hcolumn hcolumn' =>
    rw [hcolumn, hcolumn']
    refine .ok ?_
    rw [ColumnRef.withPrefix_empty, ColumnRef.withPrefix, Path.prefixQualifier_append]

theorem plain (h : PrefixedColumn tablePrefix fragment fragment') :
    Matched (fun _ _ => True) Eq (plainColumn fragment) (plainColumn fragment') := by
  cases h with
  | kept => exact .refl _ (fun _ => trivial) fun _ => rfl
  | renamed hcolumn hcolumn' =>
    obtain ⟨e, he⟩ := plainColumn_of_qualified hcolumn (by simp)
    obtain ⟨e', he'⟩ := plainColumn_of_qualified hcolumn' (by simp)
    rw [he, he']
    exact .error trivial

/-- A plain column is kept. -/
theorem eq_of_plain (h : PrefixedColumn tablePrefix fragment fragment') {name : Name}
    (hname : plainColumn fragment = .ok name) : fragment = fragment' := by
  cases h with
  | kept => rfl
  | renamed hcolumn =>
    obtain ⟨e, he⟩ := plainColumn_of_qualified hcolumn (by simp)
    rw [he] at hname
    cases hname

/-- Nothing else becomes a plain column. -/
theorem eq_of_plain' (h : PrefixedColumn tablePrefix fragment fragment') {name : Name}
    (hname : plainColumn fragment' = .ok name) : fragment = fragment' := by
  have hplain := h.plain
  rw [hname] at hplain
  generalize hresult : plainColumn fragment = result at hplain
  cases hplain with
  | ok heq =>
    subst heq
    exact h.eq_of_plain hresult

end PrefixedColumn

theorem PrefixedTable.ofFragment {tablePrefix fragment fragment' : String}
    (h : PrefixedTable tablePrefix fragment fragment') :
    Matched (fun _ _ => True) Eq (TableName.ofFragment tablePrefix fragment)
      (TableName.ofFragment "" fragment') := by
  unfold TableName.ofFragment
  cases h with
  | kept hkept =>
    cases htable : parseTable fragment with
    | error e => exact .error trivial
    | ok table => exact (hkept table htable).elim
  | renamed htable htable' =>
    rw [htable, htable']
    refine .ok ?_
    rw [TableName.withPrefix_empty, TableName.withPrefix, Path.prefixTable_append]

namespace Likeness

variable (tablePrefix : String)

theorem prefixing_reading :
    (prefixing tablePrefix).Reading (fun _ _ => True) tablePrefix "" where
  blame _ := trivial
  blame_column _ _ := trivial
  name_self _ := rfl
  name_wildcard h := by rw [h]
  column h := by
    refine h.ofFragment.mono ?_
    rintro column _ rfl
    refine ⟨List.forall₂_same.2 fun _ _ => rfl, ?_, rel_self (fun _ => rfl) column.label⟩
    exact JsonStep.like_self (fun _ => rfl) column.json
  plain h := h.plain
  table h := by
    refine h.ofFragment.mono ?_
    rintro table _ rfl
    exact ⟨List.forall₂_same.2 fun _ _ => rfl, rel_self (fun _ => rfl) table.label⟩
  source h := by
    rw [h, String.empty_append]
    rfl
  one := rfl

end Likeness

/-- At every place the same is written. -/
def Pairing.prefixing (tablePrefix : String) (dialect : Dialect) :
    Pairing (Likeness.prefixing tablePrefix) (fun _ _ => True) dialect where
  holds _ _ := Eq
  blame _ := trivial
  name_self _ := rfl
  of_any := id
  to_any := id
  append ha hb := by rw [ha, hb]
  empty _ := rfl
  separator _ := rfl
  phrase _ := rfl
  hook hf h := by rw [hf.eq fun _ _ => id, h]
  name h := by rw [h]
  bound _ h := by rw [h]
  raw _ h := by rw [h]
  retag _ h := by rw [h]
  lock _ _ := rfl

/-! ## Rows -/

section Rows

variable {tablePrefix : String} {plan plan' : Plan} {rows rows' : List Row}
  (hplan : Plan.Like (.prefixing tablePrefix) plan plan')
  (hrows : List.Forall₂ (Row.Like (.prefixing tablePrefix)) rows rows')

include hrows in
/-- A plain column is found in a row with the prefix written into it exactly where it was before. -/
theorem Row.columnPairs_prefixing {fragment : String} {name : Name}
    (hname : plainColumn fragment = .ok name) :
    ∀ own ∈ Row.columnPairs rows rows', (own.1 = fragment ↔ own.2 = fragment) := by
  intro own hown
  obtain ⟨⟨row, row'⟩, hrow, hown⟩ := List.mem_flatMap.1 hown
  have hcolumn : PrefixedColumn tablePrefix own.1 own.2 :=
    List.forall₂_zip (Row.Like.columns (List.forall₂_zip hrows hrow)) hown
  constructor
  · rintro rfl
    exact (hcolumn.eq_of_plain hname).symm
  · rintro rfl
    exact hcolumn.eq_of_plain' hname

include hplan hrows in
theorem Insert.ofRows_prefixing (conflict : Option Conflict) :
    Matched (fun _ _ => True) (Insert.Like (.prefixing tablePrefix))
      (Insert.ofRows tablePrefix plan rows conflict) (Insert.ofRows "" plan' rows' conflict) := by
  have hL := Likeness.prefixing_reading tablePrefix
  have hconflict : Option.Rel (Conflict.Like (.prefixing tablePrefix)) conflict conflict := by
    refine rel_self (fun conflict => ?_) conflict
    cases conflict with
    | ignore => exact .ignore
    | update key update =>
      exact .update (List.forall₂_same.2 fun _ _ => rfl) (List.forall₂_same.2 fun _ _ => rfl)
  refine (Plan.target_like hL hplan "INSERT").bind fun _ _ htable => ?_
  cases hrows with
  | nil => exact .ok ⟨htable.withoutAlias, .nil, .defaults, hconflict, .none⟩
  | @cons first first' others others' hfirst hothers =>
    have hempty : first.isEmpty = first'.isEmpty := forall₂_isEmpty_eq hfirst
    refine .ite (by rw [hempty]) (fun _ => ?_) fun _ => ?_
    · refine .ite (by rw [forall₂_isEmpty_eq hothers]) (fun _ => .ok ?_) fun _ => .error trivial
      exact ⟨htable.withoutAlias, .nil, .defaults, hconflict, .none⟩
    -- columns that are not plain fail on both sides, whatever the rows are; plain ones are kept
    · have hcolumns := Row.Like.columns hfirst
      have hnames := Matched.mapM hcolumns fun _ _ => hL.plain
      generalize hresult : first.columns.mapM plainColumn = names at hnames
      generalize first'.columns.mapM plainColumn = names' at hnames
      cases hnames with
      | error =>
        cases Row.tuples tablePrefix first.columns (first :: others) <;>
          cases Row.tuples "" first'.columns (first' :: others') <;> exact .error trivial
      | ok hnames =>
        have hplain := succeeds_mapM_iff.1 ⟨_, hresult⟩
        refine (Row.tuples_like hL hcolumns (.cons hfirst hothers) fun pair hpair => ?_).bind
          fun _ _ htuples => .ok ⟨htable.withoutAlias, hnames, .rows htuples, hconflict, .none⟩
        obtain ⟨name, hname⟩ := hplain pair.1 (List.of_mem_zip hpair).1
        rw [← (List.forall₂_zip hcolumns hpair).eq_of_plain hname]
        exact Row.columnPairs_prefixing (.cons hfirst hothers) hname

include hplan hrows in
theorem Insert.upsert_prefixing (dialect : Dialect) (key update : List String) :
    Matched (fun _ _ => True) (Insert.Like (.prefixing tablePrefix))
      (Insert.upsert dialect tablePrefix plan rows key update)
      (Insert.upsert dialect "" plan' rows' key update) := by
  refine .ite (by rw [forall₂_isEmpty_eq hrows]) (fun _ => .error trivial) fun _ => ?_
  refine .ite Iff.rfl (fun _ => .error trivial) fun _ => ?_
  have hconflict := Matched.refl (E := fun _ _ => True) (R := Eq)
    (Conflict.ofColumns dialect.upsertStyle key update) (fun _ => trivial) fun _ => rfl
  refine hconflict.bind ?_
  rintro conflict _ rfl
  exact Insert.ofRows_prefixing hplan hrows (some conflict)

include hplan in
theorem Insert.ofQuery_prefixing (columns : List String) {source source' : Plan}
    (hsource : Plan.Like (.prefixing tablePrefix) source source') :
    Matched (fun _ _ => True) (Insert.Like (.prefixing tablePrefix))
      (Insert.ofQuery tablePrefix plan columns source) (Insert.ofQuery "" plan' columns source') := by
  have hL := Likeness.prefixing_reading tablePrefix
  have hcolumns := Matched.refl (E := fun _ _ => True) (R := Eq) (columns.mapM plainColumn)
    (fun _ => trivial) fun _ => rfl
  refine (Plan.target_like hL hplan "INSERT").bind fun _ _ htable => hcolumns.bind ?_
  rintro names _ rfl
  have hnames : List.Forall₂ (Likeness.prefixing tablePrefix).name names names :=
    List.forall₂_same.2 fun _ _ => rfl
  exact .ok ⟨htable.withoutAlias, hnames, .nested (.plan hsource), .none, .none⟩

end Rows

/-! ## Every plan can be written with its prefix -/

variable (tablePrefix : String)

/-- A column fragment is kept as it is, or has more spellings with the prefix than are in use. -/
theorem exists_prefixedColumn_not_mem (fragment : String) (used : List String) :
    ∃ fragment', PrefixedColumn tablePrefix fragment fragment' ∧
      ((∀ column, parseColumn fragment = .ok column → column.path.length < 2) ∧ fragment' = fragment ∨
        (∃ column, parseColumn fragment' = .ok column ∧ 2 ≤ column.path.length) ∧
          fragment' ∉ used) := by
  by_cases hkept : ∀ column, parseColumn fragment = .ok column → column.path.length < 2
  · exact ⟨fragment, .kept hkept, .inl ⟨hkept, rfl⟩⟩
  · simp only [not_forall, exists_prop] at hkept
    obtain ⟨⟨path, json, label⟩, hcolumn, hpath⟩ := hkept
    obtain ⟨schema, table, column, rfl⟩ := Path.exists_column (Nat.not_lt.1 hpath)
    obtain ⟨-, hnames, hjson, hlabel, hwildcard⟩ := parseColumn_writable fragment _ hcolumn
    have hwritable : ColumnRef.Writable ⟨schema ++ [tablePrefix ++ table, column], json, label⟩ := by
      refine ⟨by simp, ?_, hjson, hlabel, ?_⟩
      · intro name hname
        simp only [List.mem_append, List.mem_cons, List.not_mem_nil, or_false] at hname
        rcases hname with hname | rfl | rfl
        · exact hnames name (by simp [hname])
        · have htable : table ≠ "" := hnames table (by simp)
          simp [htable]
        · exact hnames name (by simp)
      · simpa [Path.endsInWildcard, List.getLast?_append] using hwildcard
    obtain ⟨fragment', hfresh, hparse⟩ := exists_spelling_not_mem hwritable used
    exact ⟨fragment', .renamed hcolumn hparse, .inr ⟨⟨_, hparse, by simp⟩, hfresh⟩⟩

theorem exists_prefixedColumn (fragment : String) :
    ∃ fragment', PrefixedColumn tablePrefix fragment fragment' := by
  obtain ⟨fragment', hcolumn, -⟩ := exists_prefixedColumn_not_mem tablePrefix fragment []
  exact ⟨fragment', hcolumn⟩

theorem exists_prefixedTable (fragment : String) :
    ∃ fragment', PrefixedTable tablePrefix fragment fragment' := by
  cases htable : parseTable fragment with
  | error e => exact ⟨fragment, .kept (by simp [htable])⟩
  | ok result =>
    obtain ⟨path, label⟩ := result
    obtain ⟨hpath, hnames, hlabel⟩ := parseTable_writable fragment _ htable
    obtain ⟨schema, table, rfl⟩ := Path.exists_table hpath
    have hwritable :
        TableName.Writable ⟨schema ++ [tablePrefix ++ table], label.map (tablePrefix ++ ·)⟩ := by
      refine ⟨by simp, ?_, ?_⟩
      · intro name hname
        simp only [List.mem_append, List.mem_cons, List.not_mem_nil, or_false] at hname
        rcases hname with hname | rfl
        · exact hnames name (by simp [hname])
        · have htable : table ≠ "" := hnames table (by simp)
          simp [htable]
      · intro name hname
        obtain ⟨own, hown, rfl⟩ := Option.map_eq_some_iff.1 hname
        have hne : own ≠ "" := hlabel own hown
        simp [hne]
    exact ⟨_, .renamed htable (parseTable_spelling hwritable)⟩

theorem exists_forall₂ {α β : Type} {R : α → β → Prop} (h : ∀ a, ∃ b, R a b) (as : List α) :
    ∃ bs, List.Forall₂ R as bs :=
  exists_forall₂_iff.2 fun a _ => h a

theorem OrderTerm.exists_prefixed (term : OrderTerm) :
    ∃ term', OrderTerm.Like (.prefixing tablePrefix) term term' := by
  cases term with
  | raw raw => exact ⟨.raw raw, .raw rfl⟩
  | column column direction =>
    obtain ⟨column', hcolumn⟩ := exists_prefixedColumn tablePrefix column
    exact ⟨.column column' direction, .column direction hcolumn⟩

theorem Aggregate.exists_prefixed (aggregate : Option Aggregate) :
    ∃ aggregate', Option.Rel (Aggregate.Like (.prefixing tablePrefix)) aggregate aggregate' := by
  cases aggregate with
  | none => exact ⟨none, .none⟩
  | some aggregate =>
    obtain ⟨function, column, distinct⟩ := aggregate
    cases column with
    | none => exact ⟨some ⟨function, none, distinct⟩, .some ⟨rfl, .none, rfl⟩⟩
    | some column =>
      obtain ⟨column', hcolumn⟩ := exists_prefixedColumn tablePrefix column
      exact ⟨some ⟨function, some column', distinct⟩, .some ⟨rfl, .some hcolumn, rfl⟩⟩

mutual

/-- The operand asks for NULL where it did before. -/
theorem Operand.exists_prefixed : ∀ operand : Operand,
    ∃ operand', Operand.Like (.prefixing tablePrefix) operand operand' ∧
      ∀ comparison : Comparison, comparison.asksNull operand = comparison.asksNull operand'
  | .value value => ⟨.value value, .value rfl, fun _ => rfl⟩
  | .raw raw => ⟨.raw raw, .raw rfl, fun _ => rfl⟩
  | .column column => by
    obtain ⟨column', hcolumn⟩ := exists_prefixedColumn tablePrefix column
    exact ⟨.column column', .column hcolumn, fun comparison => by cases comparison <;> rfl⟩
  | .subquery plan => by
    obtain ⟨plan', hplan⟩ := Plan.exists_prefixed plan
    exact ⟨.subquery plan', .subquery hplan, fun comparison => by cases comparison <;> rfl⟩

theorem Predicate.exists_prefixed : ∀ predicate : Predicate,
    ∃ predicate', Predicate.Like (.prefixing tablePrefix) predicate predicate'
  | .compare column comparison operand => by
    obtain ⟨column', hcolumn⟩ := exists_prefixedColumn tablePrefix column
    obtain ⟨operand', hoperand, hnull⟩ := Operand.exists_prefixed operand
    exact ⟨.compare column' comparison operand', .compare hcolumn hoperand (hnull comparison)⟩
  | .isIn column values negated => by
    obtain ⟨column', hcolumn⟩ := exists_prefixedColumn tablePrefix column
    exact ⟨.isIn column' values negated, .isIn negated hcolumn (List.forall₂_same.2 fun _ _ => rfl)⟩
  | .inSubquery column plan negated => by
    obtain ⟨column', hcolumn⟩ := exists_prefixedColumn tablePrefix column
    obtain ⟨plan', hplan⟩ := Plan.exists_prefixed plan
    exact ⟨.inSubquery column' plan' negated, .inSubquery negated hcolumn hplan⟩
  | .isNull column negated => by
    obtain ⟨column', hcolumn⟩ := exists_prefixedColumn tablePrefix column
    exact ⟨.isNull column' negated, .isNull negated hcolumn⟩
  | .between column low high negated => by
    obtain ⟨column', hcolumn⟩ := exists_prefixedColumn tablePrefix column
    obtain ⟨low', hlow, -⟩ := Operand.exists_prefixed low
    obtain ⟨high', hhigh, -⟩ := Operand.exists_prefixed high
    exact ⟨.between column' low' high' negated, .between negated hcolumn hlow hhigh⟩
  | .existsIn plan negated => by
    obtain ⟨plan', hplan⟩ := Plan.exists_prefixed plan
    exact ⟨.existsIn plan' negated, .existsIn negated hplan⟩
  | .group filters => by
    obtain ⟨filters', hfilters⟩ := Filter.exists_prefixed filters
    exact ⟨.group filters', .group hfilters⟩
  | .raw raw => ⟨.raw raw, .raw rfl⟩
  | .datePart column part comparison value => by
    obtain ⟨column', hcolumn⟩ := exists_prefixedColumn tablePrefix column
    exact ⟨.datePart column' part comparison value, .datePart part comparison hcolumn rfl⟩
  | .jsonLength column comparison value => by
    obtain ⟨column', hcolumn⟩ := exists_prefixedColumn tablePrefix column
    exact ⟨.jsonLength column' comparison value, .jsonLength comparison hcolumn rfl⟩
  | .like column pattern caseSensitive negated => by
    obtain ⟨column', hcolumn⟩ := exists_prefixedColumn tablePrefix column
    exact ⟨.like column' pattern caseSensitive negated, .like caseSensitive negated hcolumn rfl⟩

theorem Filter.exists_prefixed : ∀ filters : List Filter,
    ∃ filters', List.Forall₂ (Filter.Like (.prefixing tablePrefix)) filters filters'
  | [] => ⟨[], .nil⟩
  | ⟨connective, predicate⟩ :: filters => by
    obtain ⟨predicate', hpredicate⟩ := Predicate.exists_prefixed predicate
    obtain ⟨filters', hfilters⟩ := Filter.exists_prefixed filters
    exact ⟨⟨connective, predicate'⟩ :: filters', .cons (.mk connective hpredicate) hfilters⟩

theorem Selection.exists_prefixed : ∀ selections : List Selection,
    ∃ selections', List.Forall₂ (Selection.Like (.prefixing tablePrefix)) selections selections'
  | [] => ⟨[], .nil⟩
  | .column column :: selections => by
    obtain ⟨column', hcolumn⟩ := exists_prefixedColumn tablePrefix column
    obtain ⟨selections', hselections⟩ := Selection.exists_prefixed selections
    exact ⟨.column column' :: selections', .cons (.column hcolumn) hselections⟩
  | .raw raw :: selections => by
    obtain ⟨selections', hselections⟩ := Selection.exists_prefixed selections
    exact ⟨.raw raw :: selections', .cons (.raw rfl) hselections⟩
  | .subquery plan label :: selections => by
    obtain ⟨plan', hplan⟩ := Plan.exists_prefixed plan
    obtain ⟨selections', hselections⟩ := Selection.exists_prefixed selections
    exact ⟨.subquery plan' label :: selections', .cons (.subquery hplan rfl) hselections⟩

theorem Source.exists_prefixed : ∀ source : Option Source,
    ∃ source', Option.Rel (Source.Like (.prefixing tablePrefix)) source source'
  | none => ⟨none, .none⟩
  | some (.table table) => by
    obtain ⟨table', htable⟩ := exists_prefixedTable tablePrefix table
    exact ⟨some (.table table'), .some (.table htable)⟩
  | some (.subquery plan label) => by
    obtain ⟨plan', hplan⟩ := Plan.exists_prefixed plan
    exact ⟨some (.subquery plan' (tablePrefix ++ label)), .some (.subquery hplan rfl)⟩
  | some (.raw raw) => ⟨some (.raw raw), .some (.raw rfl)⟩

theorem JoinTarget.exists_prefixed : ∀ target : JoinTarget,
    ∃ target', JoinTarget.Like (.prefixing tablePrefix) target target'
  | .table table => by
    obtain ⟨table', htable⟩ := exists_prefixedTable tablePrefix table
    exact ⟨.table table', .table htable⟩
  | .subquery plan label => by
    obtain ⟨plan', hplan⟩ := Plan.exists_prefixed plan
    exact ⟨.subquery plan' (tablePrefix ++ label), .subquery hplan rfl⟩

theorem Join.exists_prefixed : ∀ joins : List Join,
    ∃ joins', List.Forall₂ (Join.Like (.prefixing tablePrefix)) joins joins'
  | [] => ⟨[], .nil⟩
  | ⟨kind, target, conditions⟩ :: joins => by
    obtain ⟨target', htarget⟩ := JoinTarget.exists_prefixed target
    obtain ⟨conditions', hconditions⟩ := Filter.exists_prefixed conditions
    obtain ⟨joins', hjoins⟩ := Join.exists_prefixed joins
    exact ⟨⟨kind, target', conditions'⟩ :: joins', .cons (.mk kind htarget hconditions) hjoins⟩

theorem Branch.exists_prefixed : ∀ branches : List Branch,
    ∃ branches', List.Forall₂ (Branch.Like (.prefixing tablePrefix)) branches branches'
  | [] => ⟨[], .nil⟩
  | ⟨plan, all⟩ :: branches => by
    obtain ⟨plan', hplan⟩ := Plan.exists_prefixed plan
    obtain ⟨branches', hbranches⟩ := Branch.exists_prefixed branches
    exact ⟨⟨plan', all⟩ :: branches', .cons (.mk all hplan) hbranches⟩

/-- The prefix can be written into every plan. -/
theorem Plan.exists_prefixed : ∀ plan : Plan, ∃ plan', Plan.Like (.prefixing tablePrefix) plan plan'
  | ⟨distinct, selections, source, joins, filters, groups, havings, orders, page, branches,
      unionOrders, unionPage, aggregate, lock⟩ => by
    obtain ⟨selections', hselections⟩ := Selection.exists_prefixed selections
    obtain ⟨source', hsource⟩ := Source.exists_prefixed source
    obtain ⟨joins', hjoins⟩ := Join.exists_prefixed joins
    obtain ⟨filters', hfilters⟩ := Filter.exists_prefixed filters
    obtain ⟨groups', hgroups⟩ := exists_forall₂ (exists_prefixedColumn tablePrefix) groups
    obtain ⟨havings', hhavings⟩ := Filter.exists_prefixed havings
    obtain ⟨orders', horders⟩ := exists_forall₂ (OrderTerm.exists_prefixed tablePrefix) orders
    obtain ⟨branches', hbranches⟩ := Branch.exists_prefixed branches
    obtain ⟨unionOrders', hunion⟩ := exists_forall₂ (OrderTerm.exists_prefixed tablePrefix) unionOrders
    obtain ⟨aggregate', haggregate⟩ := Aggregate.exists_prefixed tablePrefix aggregate
    exact ⟨_, .mk distinct page unionPage lock hselections hsource hjoins hfilters hgroups hhavings
      horders hbranches hunion haggregate fun _ _ => trivial⟩

end

/-- Columns of a row with the prefix written into them, from the last one on. They stay different from each
other: those that are kept are as they were, and each of the others gets a spelling that none behind it
has. -/
theorem Row.exists_prefixed_entries : ∀ entries : List (String × Operand),
    (entries.map (·.1)).Nodup → ∃ entries',
      List.Forall₂ (Row.EntryLike (.prefixing tablePrefix)) entries entries' ∧
        (entries'.map (·.1)).Nodup ∧
        ∀ column' ∈ entries'.map (·.1), column' ∈ entries.map (·.1) ∨
          ∃ column, parseColumn column' = .ok column ∧ 2 ≤ column.path.length
  | [], _ => ⟨[], .nil, List.nodup_nil, nofun⟩
  | (column, operand) :: entries, hnodup => by
    obtain ⟨hcolumn, hrest⟩ := List.nodup_cons.1 hnodup
    obtain ⟨entries', halike, hnodup', hnames⟩ := Row.exists_prefixed_entries entries hrest
    obtain ⟨operand', hoperand, -⟩ := Operand.exists_prefixed tablePrefix operand
    obtain ⟨column', hlike, hcase⟩ :=
      exists_prefixedColumn_not_mem tablePrefix column (entries'.map (·.1))
    have hmore := fun name hname => (hnames name hname).imp_left (List.mem_cons_of_mem column)
    refine ⟨(column', operand') :: entries', .cons ⟨hlike, hoperand⟩ halike, ?_, ?_⟩
    · refine List.nodup_cons.2 ⟨?_, hnodup'⟩
      rcases hcase with ⟨hkept, rfl⟩ | ⟨-, hfresh⟩
      · -- a kept column is no column of the rest, and is not read as one with a table
        intro hmem
        rcases hnames _ hmem with hold | ⟨read, hparse, hpath⟩
        · exact hcolumn hold
        · exact absurd (hkept read hparse) (Nat.not_lt.2 hpath)
      · exact hfresh
    · refine List.forall_mem_cons.2 ⟨?_, hmore⟩
      rcases hcase with ⟨-, rfl⟩ | ⟨hread, -⟩
      · exact .inl List.mem_cons_self
      · exact .inr hread

theorem Row.exists_prefixed (row : Row) : ∃ row', Row.Like (.prefixing tablePrefix) row row' := by
  obtain ⟨entries, hentries, hnodup, -⟩ :=
    Row.exists_prefixed_entries tablePrefix row.entries row.nodup
  exact ⟨⟨entries, hnodup⟩, hentries⟩

/-! ## Statements -/

/-- Both fail, or both have the same value. -/
def SameOutcome {ε α : Type} (x y : Except ε α) : Prop := ∀ a, x = .ok a ↔ y = .ok a

theorem Matched.sameOutcome {ε α : Type} {x y : Except ε α} (h : Matched (fun _ _ => True) Eq x y) :
    SameOutcome x y := by
  intro a
  cases h with
  | ok heq => rw [heq]
  | error => exact ⟨nofun, nofun⟩

/-- A table prefix can be written into every plan and every row, and then the compiler without a
prefix makes the same statements of them as the one with it. -/
theorem table_prefix_is_renaming (dialect : Dialect) (tablePrefix : String)
    {plan plan' source source' : Plan} {rows rows' : List Row} {row row' : Row}
    (hplan : Plan.Like (.prefixing tablePrefix) plan plan')
    (hsource : Plan.Like (.prefixing tablePrefix) source source')
    (hrows : List.Forall₂ (Row.Like (.prefixing tablePrefix)) rows rows')
    (hrow : Row.Like (.prefixing tablePrefix) row row') (columns key update : List String)
    (id : Option Name) :
    let c : Compiler := ⟨dialect, tablePrefix⟩
    let c' : Compiler := ⟨dialect, ""⟩
    (∀ plan, ∃ plan', Plan.Like (.prefixing tablePrefix) plan plan') ∧
    (∀ row, ∃ row', Row.Like (.prefixing tablePrefix) row row') ∧
    SameOutcome (c.select plan) (c'.select plan') ∧
    SameOutcome (c.existence plan) (c'.existence plan') ∧
    SameOutcome (c.insert plan rows) (c'.insert plan' rows') ∧
    SameOutcome (c.insertOrIgnore plan rows) (c'.insertOrIgnore plan' rows') ∧
    SameOutcome (c.insertGetId plan row id) (c'.insertGetId plan' row' id) ∧
    SameOutcome (c.insertUsing plan columns source) (c'.insertUsing plan' columns source') ∧
    SameOutcome (c.upsert plan rows key update) (c'.upsert plan' rows' key update) ∧
    SameOutcome (c.update plan row) (c'.update plan' row') ∧
    SameOutcome (c.delete plan) (c'.delete plan') ∧
    SameOutcome (c.truncate plan) (c'.truncate plan') := by
  have hL := Likeness.prefixing_reading tablePrefix
  let P := Pairing.prefixing tablePrefix dialect
  have hinsert {x y : Except Error Insert}
      (h : Matched (fun _ _ => True) (Insert.Like (.prefixing tablePrefix)) x y) :
      SameOutcome (do Compiler.render ⟨dialect, tablePrefix⟩ (.insert (← x)))
        (do Compiler.render ⟨dialect, ""⟩ (.insert (← y))) :=
    (h.bind fun _ _ h => Compiler.render_like P hL (.insert h)).sameOutcome
  have hid := Compiler.insertGetId_of_like P hL
    (Insert.ofRows_prefixing hplan (.cons hrow .nil) none) (rel_self (fun _ => rfl) id)
  have htruncate := Compiler.truncate_like P hL
    (fun _ _ hname => congrArg Value.text hname) hplan
  refine ⟨Plan.exists_prefixed tablePrefix, Row.exists_prefixed tablePrefix, ?_⟩
  refine ⟨(Compiler.select_like P hL hplan).sameOutcome,
    (Compiler.existence_like P hL hplan).sameOutcome,
    hinsert (Insert.ofRows_prefixing hplan hrows none),
    hinsert (Insert.ofRows_prefixing hplan hrows (some .ignore)), hid.sameOutcome,
    hinsert (Insert.ofQuery_prefixing hplan columns hsource),
    hinsert (Insert.upsert_prefixing hplan hrows dialect key update),
    (Compiler.update_like P hL hplan hrow).sameOutcome,
    (Compiler.delete_like P hL hplan).sameOutcome, ?_⟩
  refine (htruncate.mono fun statements statements' h => ?_).sameOutcome
  exact List.forall₂_eq_eq_eq ▸ h

/-- Users that one of the paid orders names, with their posts. -/
def Plan.buyers (users posts orders userId author buyer : String) : Plan where
  selections := [.column userId]
  source := some (.table users)
  joins := [⟨.inner, .table posts, [⟨.and, .compare userId .eq (.column author)⟩]⟩]
  filters := [⟨.and, .inSubquery userId
    { selections := [.column buyer], source := some (.table orders),
      filters := [⟨.and, .compare "paid" .eq (.value (.bool true))⟩] } false⟩]

theorem Plan.buyers_prefixed :
    Plan.Like (.prefixing "app_")
      (.buyers "users as u" "posts" "shop.orders" "u.id" "posts.author->id" "orders.buyer")
      (.buyers "app_users as app_u" "app_posts" "shop.[app_orders]" "app_u.id"
        "app_posts.author->id" "app_orders.buyer") := by
  have hid := @PrefixedColumn.renamed "app_" "u.id" "app_u.id" [] "u" "id" [] none
    (by decide +kernel) (by decide +kernel)
  have hauthor := @PrefixedColumn.renamed "app_" "posts.author->id" "app_posts.author->id" [] "posts"
    "author" [.key "id"] none (by decide +kernel) (by decide +kernel)
  have hbuyer := @PrefixedColumn.renamed "app_" "orders.buyer" "app_orders.buyer" [] "orders" "buyer"
    [] none (by decide +kernel) (by decide +kernel)
  have hpaid : PrefixedColumn "app_" "paid" "paid" := .kept fun column hcolumn => by
    have hparse : parseColumn "paid" = .ok ⟨["paid"], [], none⟩ := by decide +kernel
    rw [hparse] at hcolumn
    cases hcolumn
    decide
  have husers := @PrefixedTable.renamed "app_" "users as u" "app_users as app_u" [] "users" (some "u")
    (by decide +kernel) (by decide +kernel)
  have hposts := @PrefixedTable.renamed "app_" "posts" "app_posts" [] "posts" none
    (by decide +kernel) (by decide +kernel)
  have horders := @PrefixedTable.renamed "app_" "shop.orders" "shop.[app_orders]" ["shop"] "orders" none
    (by decide +kernel) (by decide +kernel)
  refine .mk false {} {} none (.cons (.column hid) .nil) (.some (.table husers)) (.cons ?_ .nil)
    (.cons ?_ .nil) .nil .nil .nil .nil .nil .none nofun
  · exact .mk .inner (.table hposts) (.cons (.mk .and (.compare hid (.column hauthor) rfl)) .nil)
  · refine .mk .and (.inSubquery false hid ?_)
    exact .mk false {} {} none (.cons (.column hbuyer) .nil) (.some (.table horders)) .nil
      (.cons (.mk .and (.compare hpaid (.value rfl) rfl)) .nil) .nil .nil .nil .nil .nil .none nofun

/-- An UPDATE over a join and a nested query: aliases, schemas, JSON paths, plain columns and a
fragment in quotes. -/
theorem table_prefix_is_renaming_buyers :
    let plan := Plan.buyers "users as u" "posts" "shop.orders" "u.id" "posts.author->id" "orders.buyer"
    let plan' := Plan.buyers "app_users as app_u" "app_posts" "shop.[app_orders]" "app_u.id"
      "app_posts.author->id" "app_orders.buyer"
    let row := Row.ofList [("u.name", .value (.text "Ada"))]
    let row' := Row.ofList [("app_u.name", .value (.text "Ada"))]
    let sql : Sql :=
      ⟨"UPDATE \"app_users\" AS \"app_u\" SET \"name\" = ? WHERE \"app_u\".\"ctid\" IN " ++
          "(SELECT \"app_u\".\"ctid\" FROM \"app_users\" AS \"app_u\" " ++
          "INNER JOIN \"app_posts\" ON \"app_u\".\"id\" = \"app_posts\".\"author\"->>'id' " ++
          "WHERE \"app_u\".\"id\" IN " ++
          "(SELECT \"app_orders\".\"buyer\" FROM \"shop\".\"app_orders\" WHERE \"paid\" = ?))",
        [⟨.text "Ada", .update⟩, ⟨.bool true, .where⟩]⟩
    Plan.Like (.prefixing "app_") plan plan' ∧
      Row.Like (.prefixing "app_") row row' ∧
      SameOutcome (Compiler.update ⟨Engine.postgres.dialect, "app_"⟩ plan row)
        (Compiler.update ⟨Engine.postgres.dialect, ""⟩ plan' row') ∧
      Compiler.update ⟨Engine.postgres.dialect, "app_"⟩ plan row = .ok sql ∧
      Compiler.update ⟨Engine.postgres.dialect, ""⟩ plan' row' = .ok sql := by
  intro plan plan' row row' sql
  have hplan : Plan.Like (.prefixing "app_") plan plan' := Plan.buyers_prefixed
  have hname := @PrefixedColumn.renamed "app_" "u.name" "app_u.name" [] "u" "name" [] none
    (by decide +kernel) (by decide +kernel)
  have hrow : Row.Like (.prefixing "app_") row row' := .cons ⟨hname, .value rfl⟩ .nil
  exact ⟨hplan, hrow, (table_prefix_is_renaming Engine.postgres.dialect "app_" hplan hplan
    (.cons hrow .nil) hrow [] [] [] none).2.2.2.2.2.2.2.2.2.1, by decide +kernel, by decide +kernel⟩

end QueryCompiler
