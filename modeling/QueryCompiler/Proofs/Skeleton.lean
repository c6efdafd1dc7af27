import QueryCompiler.Proofs.Fragment
import QueryCompiler.Proofs.LikeStatements
import QueryCompiler.Proofs.Parity

/-! # Names and the structure of statements

The skeleton of a statement is its text without what stands inside of quotes. Two inputs that differ
in names, but have the same shape, are compiled to statements with the same skeleton, and no quote is
left open: a name cannot get out of its quotes.
-/

namespace QueryCompiler
set_option autoImplicit false

/-! ## Skeletons -/

/-- The closing quote behind which a scan stands. -/
def Scan.pending : Scan → List Char
  | .closing close => [close]
  | _ => []

/-- A text without what is inside of its quotes. -/
def skeleton (text : String) : String :=
  String.ofList
    (Scan.outside.outline text.toList ++ (Scan.outside.run text.toList).pending)

/-- Whether a scan of a text ends outside of quotes. -/
def isClosedText (text : String) : Bool := (Scan.outside.run text.toList).isOutside

/-- Statements with the same skeleton, neither of which leaves a quote open. -/
structure Sql.SameSkeleton (sql sql' : Sql) : Prop where
  skeleton_eq : skeleton sql.text = skeleton sql'.text
  closed : isClosedText sql.text = true
  closed' : isClosedText sql'.text = true

/-! ## Texts of which the same is shown -/

/-- A scan that enters either text at the one edge leaves it at the other, in the same state and with
the same shown. -/
def Outlined (first last : Edge) (cs cs' : List Char) : Prop :=
  ∀ state, first.admits state → last.admits (state.run cs) ∧
    state.run cs = state.run cs' ∧ state.outline cs = state.outline cs'

namespace Outlined

variable {first middle last : Edge} {a a' b b' cs cs' : List Char}

/-- Of one text, the same is shown twice. -/
theorem self {n : Nat} (h : Passes first last n cs) : Outlined first last cs cs :=
  fun state hstate => ⟨(h state hstate).1, rfl, rfl⟩

theorem append (ha : Outlined first middle a a') (hb : Outlined middle last b b') :
    Outlined first last (a ++ b) (a' ++ b') := by
  intro state hstate
  obtain ⟨hmiddle, harun, haoutline⟩ := ha state hstate
  obtain ⟨hlast, hbrun, hboutline⟩ := hb (state.run a) hmiddle
  rw [Scan.run_append, Scan.run_append, Scan.outline_append, Scan.outline_append, ← harun,
    ← haoutline, ← hbrun, ← hboutline]
  exact ⟨hlast, rfl, rfl⟩

theorem of_any (h : Outlined .any last cs cs') : Outlined .clear last cs cs' := by
  intro state hstate
  rw [Edge.eq_outside hstate]
  exact h .outside trivial

theorem to_any (h : Outlined first .clear cs cs') : Outlined first .any cs cs' := by
  intro state hstate
  obtain ⟨hlast, hrest⟩ := h state hstate
  refine ⟨?_, hrest⟩
  rw [Edge.eq_outside hlast]
  trivial

/-- Of texts in quotes, only the quotes are shown. -/
theorem inQuotes {opening close : Char} (hopen : Scan.enter opening = .inside close)
    (hclose : isPlainChar close = false) (h : InQuotes opening close cs)
    (h' : InQuotes opening close cs') : Outlined .clear .any cs cs' := by
  intro state hstate
  obtain ⟨hrun, houtline⟩ := h.scan hopen
  obtain ⟨hrun', houtline'⟩ := h'.scan hopen
  rw [Edge.eq_outside hstate, hrun, hrun', houtline, houtline']
  exact ⟨hclose, rfl, rfl⟩

end Outlined

theorem Sql.SameSkeleton.of_outlined {sql sql' : Sql}
    (h : Outlined .clear .any sql.text.toList sql'.text.toList) : Sql.SameSkeleton sql sql' := by
  obtain ⟨hlast, hrun, houtline⟩ := h .outside trivial
  refine ⟨?_, Edge.isOutside hlast, Edge.isOutside (hrun ▸ hlast)⟩
  rw [skeleton, skeleton, hrun, houtline]

/-! ## Shapes -/

/-- Two names that are both not the wildcard. -/
def Name.Proper (name name' : Name) : Prop := name ≠ wildcard ∧ name' ≠ wildcard

instance (name name' : Name) : Decidable (Name.Proper name name') :=
  inferInstanceAs (Decidable (_ ∧ _))

/-- Paths with as many names. Only the last may be the wildcard, and then in both. -/
inductive Path.SameShape : Path → Path → Prop where
  | last {name name' : Name} : (name = wildcard ↔ name' = wildcard) → SameShape [name] [name']
  | cons {name name' : Name} {path path' : Path} : Name.Proper name name' →
    SameShape path path' → SameShape (name :: path) (name' :: path')

/-- JSON steps of the same kind, and the same position in arrays. -/
inductive JsonStep.SameShape : JsonStep → JsonStep → Prop where
  | key (name name' : String) : SameShape (.key name) (.key name')
  | index (position : Nat) : SameShape (.index position) (.index position)

structure ColumnRef.SameShape (column column' : ColumnRef) : Prop where
  path : Path.SameShape column.path column'.path
  json : List.Forall₂ JsonStep.SameShape column.json column'.json
  label : Option.Rel Name.Proper column.label column'.label

structure TableName.SameShape (table table' : TableName) : Prop where
  path : List.Forall₂ Name.Proper table.path table'.path
  label : Option.Rel Name.Proper table.label table'.label

/-- Leaves of the same shape under two table prefixes: fragments are read as references of the same
shape, and names are the wildcard in both or in neither. Values may differ. -/
def Likeness.shape (tablePrefix tablePrefix' : String) : Likeness where
  column fragment fragment' := ∃ column column', parseColumn fragment = .ok column ∧
    parseColumn fragment' = .ok column' ∧ column.SameShape column'
  table fragment fragment' := ∃ table table', parseTable fragment = .ok table ∧
    parseTable fragment' = .ok table' ∧ table.SameShape table'
  source label label' := tablePrefix ++ label = wildcard ↔ tablePrefix' ++ label' = wildcard
  name name name' := name = wildcard ↔ name' = wildcard
  key _ _ := True
  value _ _ := True
  raw raw raw' := raw = raw' ∧ isClosedText raw.sql = true
  lock
    | .raw words => isClosedText words = true
    | _ => True

section Reading

variable {tablePrefix tablePrefix' : String}

theorem Name.Proper.alike {name name' : Name} (h : Name.Proper name name') :
    (Likeness.shape tablePrefix tablePrefix').name name name' := iff_of_false h.1 h.2

/-- A name that is not empty is not made the wildcard by a prefix. -/
theorem prefixed_ne_wildcard (tablePrefix : String) {name : Name} (hne : name ≠ "")
    (h : name ≠ wildcard) : tablePrefix ++ name ≠ wildcard := by
  intro heq
  have hchars : tablePrefix.toList ++ name.toList = ['*'] := by
    rw [← String.toList_append, heq]
    rfl
  obtain ⟨-, hname⟩ | ⟨-, hname⟩ := List.append_eq_singleton_iff.1 hchars
  · exact h (String.toList_injective hname)
  · exact hne (String.toList_injective hname)

theorem Name.Proper.prefixed {name name' : Name} (h : Name.Proper name name') (hne : name ≠ "")
    (hne' : name' ≠ "") : Name.Proper (tablePrefix ++ name) (tablePrefix' ++ name') :=
  ⟨prefixed_ne_wildcard tablePrefix hne h.1, prefixed_ne_wildcard tablePrefix' hne' h.2⟩

theorem Path.SameShape.alike {path path' : Path} (h : Path.SameShape path path') :
    List.Forall₂ (Likeness.shape tablePrefix tablePrefix').name path path' := by
  induction h with
  | last hname => exact .cons hname .nil
  | cons hname _ ih => exact .cons hname.alike ih

theorem Path.SameShape.prefixQualifier {path path' : Path} (h : Path.SameShape path path')
    (hne : ∀ name ∈ path, name ≠ "") (hne' : ∀ name ∈ path', name ≠ "") :
    List.Forall₂ (Likeness.shape tablePrefix tablePrefix').name (path.prefixQualifier tablePrefix)
      (path'.prefixQualifier tablePrefix') := by
  induction h with
  | last hname => exact .cons hname .nil
  | cons hname hpath ih =>
    obtain ⟨hfirst, hrest⟩ := List.forall_mem_cons.1 hne
    obtain ⟨hfirst', hrest'⟩ := List.forall_mem_cons.1 hne'
    cases hpath with
    | last hcolumn => exact .cons (hname.prefixed hfirst hfirst').alike (.cons hcolumn .nil)
    | cons _ hpath => cases hpath <;> exact .cons hname.alike (ih hrest hrest')

theorem TableName.SameShape.prefixTable {path path' : Path}
    (h : List.Forall₂ Name.Proper path path') (hne : ∀ name ∈ path, name ≠ "")
    (hne' : ∀ name ∈ path', name ≠ "") :
    List.Forall₂ (Likeness.shape tablePrefix tablePrefix').name (path.prefixTable tablePrefix)
      (path'.prefixTable tablePrefix') := by
  induction h with
  | nil => exact .nil
  | cons hname hpath ih =>
    obtain ⟨hfirst, hrest⟩ := List.forall_mem_cons.1 hne
    obtain ⟨hfirst', hrest'⟩ := List.forall_mem_cons.1 hne'
    cases hpath with
    | nil => exact .cons (hname.prefixed hfirst hfirst').alike .nil
    | cons => exact .cons hname.alike (ih hrest hrest')

theorem TableName.SameShape.withPrefix {table table' : TableName} (h : table.SameShape table')
    {fragment fragment' : String} (hparse : parseTable fragment = .ok table)
    (hparse' : parseTable fragment' = .ok table') :
    TableName.Like (.shape tablePrefix tablePrefix') (table.withPrefix tablePrefix)
      (table'.withPrefix tablePrefix') := by
  obtain ⟨-, hnames, hlabel⟩ := parseTable_writable fragment table hparse
  obtain ⟨-, hnames', hlabel'⟩ := parseTable_writable fragment' table' hparse'
  refine ⟨TableName.SameShape.prefixTable h.path hnames hnames', ?_⟩
  obtain ⟨path, label⟩ := table
  obtain ⟨path', label'⟩ := table'
  obtain ⟨-, hboth⟩ := h
  cases hboth with
  | none => exact .none
  | some hproper => exact .some (hproper.prefixed (hlabel _ rfl) (hlabel' _ rfl)).alike

theorem ColumnRef.SameShape.withPrefix {column column' : ColumnRef} (h : column.SameShape column')
    {fragment fragment' : String} (hparse : parseColumn fragment = .ok column)
    (hparse' : parseColumn fragment' = .ok column') :
    ColumnRef.Like (.shape tablePrefix tablePrefix') (column.withPrefix tablePrefix)
      (column'.withPrefix tablePrefix') := by
  have hnames := (parseColumn_writable fragment column hparse).names
  have hnames' := (parseColumn_writable fragment' column' hparse').names
  refine ⟨h.path.prefixQualifier hnames hnames', h.json.imp fun _ _ hstep => ?_, ?_⟩
  · cases hstep with
    | key => exact .key trivial
    | index => exact .index _
  · obtain ⟨path, json, label⟩ := column
    obtain ⟨path', json', label'⟩ := column'
    obtain ⟨-, -, hlabel⟩ := h
    cases hlabel with
    | none => exact .none
    | some hproper => exact .some hproper.alike

/-- Of two columns with the same shape, both are single names or none is. -/
theorem ColumnRef.SameShape.plain {column column' : ColumnRef} (h : column.SameShape column')
    {fragment fragment' : String} (hparse : parseColumn fragment = .ok column)
    (hparse' : parseColumn fragment' = .ok column') :
    Matched (fun _ _ => True) (Likeness.shape tablePrefix tablePrefix').name (plainColumn fragment)
      (plainColumn fragment') := by
  obtain ⟨path, json, label⟩ := column
  obtain ⟨path', json', label'⟩ := column'
  obtain ⟨hpath, hjson, hlabel⟩ := h
  unfold plainColumn
  rw [hparse, hparse']
  cases hpath with
  | cons _ hpath => cases hpath <;> exact .error trivial
  | last hname =>
    cases hjson with
    | cons => exact .error trivial
    | nil =>
      cases hlabel with
      | some => exact .error trivial
      | none => exact .ite hname (fun _ => .error trivial) fun _ => .ok hname

theorem Likeness.shape_reading (tablePrefix tablePrefix' : String) :
    (Likeness.shape tablePrefix tablePrefix').Reading (fun _ _ => True) tablePrefix tablePrefix' where
  blame _ := trivial
  blame_column _ _ := trivial
  name_self _ := Iff.rfl
  name_wildcard h := h
  column := by
    rintro fragment fragment' ⟨column, column', hparse, hparse', h⟩
    rw [ColumnRef.ofFragment, ColumnRef.ofFragment, hparse, hparse']
    exact .ok (h.withPrefix hparse hparse')
  plain := fun ⟨_, _, hparse, hparse', h⟩ => h.plain hparse hparse'
  table := by
    rintro fragment fragment' ⟨table, table', hparse, hparse', h⟩
    rw [TableName.ofFragment, TableName.ofFragment, hparse, hparse']
    exact .ok (h.withPrefix hparse hparse')
  source h := h
  one := ⟨rfl, rfl⟩

end Reading

/-! ## What the engines write of the same shape -/

theorem Outlined.listed {text text' : String} (h : Outlined .clear .any text.toList text'.toList)
    {cs : List Char} (hcs : isSeparator cs = true) :
    Outlined .any .any (", " ++ text ++ String.ofList cs).toList
      (", " ++ text' ++ String.ofList cs).toList := by
  have hcomma : Passes .any .clear 0 ", ".toList := .literal (by decide)
  simp only [String.toList_append]
  exact ((Outlined.self hcomma).append h).append (.self (.ending hcs))

theorem Outlined.jsonPath (steps steps' : List JsonStep) :
    Outlined .clear .any (QueryCompiler.jsonPath steps).toList
      (QueryCompiler.jsonPath steps').toList :=
  .inQuotes rfl (by decide) (.jsonPath steps) (.jsonPath steps')

section Json

variable {L : Likeness}

theorem Outlined.arrowText {step step' : JsonStep} (h : JsonStep.Like L step step') :
    Outlined .clear .any step.arrowText.toList step'.arrowText.toList := by
  cases h with
  | key => exact .inQuotes rfl (by decide) (.arrowText _) (.arrowText _)
  | index position => exact .self (Passes.arrowText (.index position))

theorem Outlined.jsonArrows (asText : Bool) {steps steps' : List JsonStep}
    (h : List.Forall₂ (JsonStep.Like L) steps steps') :
    Outlined .any .any (QueryCompiler.jsonArrows asText steps).toList
      (QueryCompiler.jsonArrows asText steps').toList := by
  induction h with
  | nil => exact .self (Passes.nil .any)
  | cons hstep hsteps ih =>
    cases hsteps with
    | nil =>
      have harrow : Passes .any .clear 0 (if asText then "->>" else "->").toList := by
        cases asText with
        | true => exact .literal (by decide)
        | false => exact .literal (by decide)
      simp only [QueryCompiler.jsonArrows, String.toList_append]
      exact (Outlined.self harrow).append (.arrowText hstep)
    | cons =>
      have harrow : Passes .any .clear 0 "->".toList := .literal (by decide)
      simp only [QueryCompiler.jsonArrows, String.toList_append] at ih ⊢
      exact ((Outlined.self harrow).append (.arrowText hstep)).append ih

theorem Engine.outlined_jsonSelector (engine : Engine) {steps steps' : List JsonStep}
    (h : List.Forall₂ (JsonStep.Like L) steps steps') :
    Outlined .clear .clear (engine.frames.jsonSelector steps).before.toList
        (engine.frames.jsonSelector steps').before.toList ∧
      Outlined .any .any (engine.frames.jsonSelector steps).after.toList
        (engine.frames.jsonSelector steps').after.toList := by
  have hbefore := (engine.passes_jsonSelector steps).1
  have hpath := Outlined.jsonPath steps steps'
  cases engine with
  | mysql | sqlite | sqlserver => exact ⟨.self hbefore, hpath.listed (by decide)⟩
  | postgres => exact ⟨.self hbefore, .jsonArrows true h⟩

theorem Engine.outlined_jsonLength (engine : Engine) {steps steps' : List JsonStep}
    (h : List.Forall₂ (JsonStep.Like L) steps steps') :
    Outlined .clear .clear (engine.frames.jsonLength steps).before.toList
        (engine.frames.jsonLength steps').before.toList ∧
      Outlined .any .any (engine.frames.jsonLength steps).after.toList
        (engine.frames.jsonLength steps').after.toList := by
  have hbefore := (engine.passes_jsonLength steps).1
  have hpath := Outlined.jsonPath steps steps'
  have hargument : Outlined .any .any
      (if steps.isEmpty then ")" else ", " ++ jsonPath steps ++ ")").toList
      (if steps'.isEmpty then ")" else ", " ++ jsonPath steps' ++ ")").toList := by
    rw [forall₂_isEmpty_eq h]
    split
    · exact .self (.ending (by decide))
    · exact hpath.listed (by decide)
  cases engine with
  | mysql | sqlite => exact ⟨.self hbefore, hargument⟩
  | sqlserver => exact ⟨.self hbefore, hpath.listed (by decide)⟩
  | postgres =>
    refine ⟨.self hbefore, ?_⟩
    show Outlined .any .any (jsonArrows false steps ++ ")::json)").toList
      (jsonArrows false steps' ++ ")::json)").toList
    rw [String.toList_append, String.toList_append]
    exact (Outlined.jsonArrows false h).append (.self (.ending (by decide)))

/-- Alike functions of an engine keep what a scan shows alike. -/
theorem Engine.outlined_hook (engine : Engine) {f f' : String → String}
    (h : engine.dialect.hooks.Pairs L f f') {text text' : String}
    (htext : Outlined .clear .any text.toList text'.toList) :
    Outlined .clear .any (f text).toList (f' text').toList := by
  have hwrap {frame frame' : Frame}
      (hframe : Outlined .clear .clear frame.before.toList frame'.before.toList ∧
        Outlined .any .any frame.after.toList frame'.after.toList) :
      Outlined .clear .any (frame.wrap text).toList (frame'.wrap text').toList := by
    rw [Frame.wrap, Frame.wrap]
    simp only [String.toList_append]
    exact (hframe.1.append htext).append hframe.2
  cases h with
  | same hf =>
    obtain ⟨frame, hframe, rfl⟩ := engine.exists_frame hf
    obtain ⟨hbefore, hafter⟩ := engine.passes_frame hframe
    exact hwrap ⟨.self hbefore, .self hafter⟩
  | jsonSelector hsteps =>
    rw [engine.hooks_eq]
    exact hwrap (engine.outlined_jsonSelector hsteps)
  | jsonLength hsteps =>
    rw [engine.hooks_eq]
    exact hwrap (engine.outlined_jsonLength hsteps)

end Json

/-- The quotes of an engine are quotes for a scan. -/
theorem Engine.enter_openQuote (engine : Engine) :
    Scan.enter engine.dialect.openQuote = .inside engine.dialect.closeQuote ∧
      isPlainChar engine.dialect.closeQuote = false := by
  cases engine <;> decide

theorem Engine.outlined_name (engine : Engine) {name name' : Name}
    (h : name = wildcard ↔ name' = wildcard) :
    Outlined .clear .any (engine.dialect.quote name).toList (engine.dialect.quote name').toList := by
  by_cases hname : name = wildcard
  · rw [hname, h.1 hname]
    exact .self (engine.passes_name wildcard)
  · obtain ⟨hopen, hclose⟩ := engine.enter_openQuote
    rw [engine.defaultQuotes]
    exact .inQuotes hopen hclose (.quoteBetween _ _ hname) (.quoteBetween _ _ (mt h.2 hname))

theorem passes_of_isClosedText {text : String} (h : isClosedText text = true) :
    ∃ n, Passes .clear .any n text.toList := ⟨_, closedFor_iff.1 ⟨h, rfl⟩⟩

/-- Stretches of which a scan shows the same, at any place of a statement. -/
def Pairing.shape (engine : Engine) (tablePrefix tablePrefix' : String) :
    Pairing (.shape tablePrefix tablePrefix') (fun _ _ => True) engine.dialect where
  holds first last sql sql' := Outlined first last sql.text.toList sql'.text.toList
  blame _ := trivial
  name_self _ := Iff.rfl
  of_any h := h.of_any
  to_any h := h.to_any
  append ha hb := by
    rw [Sql.text_append, Sql.text_append, String.toList_append, String.toList_append]
    exact ha.append hb
  empty edge := .self (Passes.nil edge)
  separator h := .self (Passes.separator h)
  phrase h := .self (engine.passes_phrase h)
  hook hf h := engine.outlined_hook hf h
  name h := engine.outlined_name h
  bound purpose _ := by
    have hmark : Passes .clear .any 1 engine.dialect.placeholder.toList := by
      rw [engine.placeholder_eq]
      exact Passes.to_any (.of_outside trivial rfl)
    exact .self hmark
  raw purpose h := by
    obtain ⟨heq, hclosed⟩ := h
    obtain ⟨n, hpasses⟩ := passes_of_isClosedText hclosed
    rw [← heq]
    exact .self hpasses
  retag purpose h := h
  lock {lock text} hlock htext := by
    cases lock with
    | raw words =>
      obtain ⟨n, hpasses⟩ := passes_of_isClosedText hlock
      cases engine <;> cases htext <;> exact .self hpasses
    | update | shared =>
      exact .self (@Engine.passes_lock engine (fun _ => .ok {}) _ _ htext trivial)

/-! ## Statements -/

/-- Leaves of the same shape under the prefixes of two configurations. -/
def Config.shape (config config' : Config) : Likeness :=
  .shape config.tablePrefix config'.tablePrefix

/-- Both runs fail, or they give statements with the same skeleton. -/
def SameStructure : Except Error Sql → Except Error Sql → Prop :=
  Matched (fun _ _ => True) Sql.SameSkeleton

/-- Names cannot change the structure of a statement: inputs of the same shape give statements with the
same skeleton, in which no quote is left open. -/
theorem names_keep_skeleton (config config' : Config) (hengine : config.engine = config'.engine)
    {plan plan' source source' : Plan} {rows rows' : List Row} {row row' : Row}
    {columns columns' key key' update update' : List String} {id id' : Option Name}
    (hplan : Plan.Like (config.shape config') plan plan')
    (hsource : Plan.Like (config.shape config') source source')
    (hrows : Row.ListLike (config.shape config') rows rows')
    (hrow : Row.ListLike (config.shape config') [row] [row'])
    (hcolumns : List.Forall₂ (config.shape config').column columns columns')
    (hkey : List.Forall₂ (config.shape config').column key key')
    (hupdate : List.Forall₂ (config.shape config').column update update')
    (hid : Option.Rel (config.shape config').name id id') :
    SameStructure (config.compiler.select plan) (config'.compiler.select plan') ∧
    SameStructure (config.compiler.existence plan) (config'.compiler.existence plan') ∧
    SameStructure (config.compiler.insert plan rows) (config'.compiler.insert plan' rows') ∧
    SameStructure (config.compiler.insertOrIgnore plan rows)
      (config'.compiler.insertOrIgnore plan' rows') ∧
    SameStructure (config.compiler.insertGetId plan row id)
      (config'.compiler.insertGetId plan' row' id') ∧
    SameStructure (config.compiler.insertUsing plan columns source)
      (config'.compiler.insertUsing plan' columns' source') ∧
    SameStructure (config.compiler.upsert plan rows key update)
      (config'.compiler.upsert plan' rows' key' update') ∧
    SameStructure (config.compiler.update plan row) (config'.compiler.update plan' row') ∧
    SameStructure (config.compiler.delete plan) (config'.compiler.delete plan') ∧
    Matched (fun _ _ => True) (List.Forall₂ Sql.SameSkeleton) (config.compiler.truncate plan)
      (config'.compiler.truncate plan') := by
  obtain ⟨engine, tablePrefix⟩ := config
  obtain ⟨_, tablePrefix'⟩ := config'
  cases hengine
  have hL := Likeness.shape_reading tablePrefix tablePrefix'
  have hskeleton : ∀ sql sql', Paired (.shape engine tablePrefix tablePrefix') .clear .any sql sql' →
      Sql.SameSkeleton sql sql' := fun _ _ => .of_outlined
  have hsingle := (List.forall₂_cons.1 hrow.like).1
  exact ⟨(Compiler.select_like _ hL hplan).mono hskeleton,
    (Compiler.existence_like _ hL hplan).mono hskeleton,
    (Compiler.insert_like _ hL hplan hrows).mono hskeleton,
    (Compiler.insertOrIgnore_like _ hL hplan hrows).mono hskeleton,
    (Compiler.insertGetId_like _ hL hplan hrow hid).mono hskeleton,
    (Compiler.insertUsing_like _ hL hplan hcolumns hsource).mono hskeleton,
    (Compiler.upsert_like _ hL hplan hrows hkey hupdate).mono hskeleton,
    (Compiler.update_like _ hL hplan hsingle).mono hskeleton,
    (Compiler.delete_like _ hL hplan).mono hskeleton,
    (Compiler.truncate_like _ hL (fun _ _ _ => trivial) hplan).mono fun _ _ h => h.imp hskeleton⟩

/-- A column of a sub-query that selects a table. -/
def Plan.labelled (table label column : String) : Plan where
  selections := [.column column]
  source := some (.subquery { source := some (.table table) } label)
  filters := [⟨.and, .isNull column true⟩]

theorem Plan.labelled_like {L : Likeness} {table table' label label' column column' : String}
    (htable : L.table table table') (hlabel : L.source label label')
    (hcolumn : L.column column column') :
    Plan.Like L (labelled table label column) (labelled table' label' column') :=
  have hinner : Plan.Like L { source := some (.table table) } { source := some (.table table') } :=
    .mk false {} {} none .nil (.some (.table htable)) .nil .nil .nil .nil .nil .nil .nil .none nofun
  .mk false {} {} none (.cons (.column hcolumn) .nil) (.some (.subquery hinner hlabel)) .nil
    (.cons (.mk .and (.isNull true hcolumn)) .nil) .nil .nil .nil .nil .nil .none nofun

/-- A table, an alias and a JSON key that stay in their quotes of themselves. -/
def Plan.tameNames : Plan := .labelled "users" "u" "u.meta->tags->0"

/-- A table, an alias and a JSON key that try to get out of their quotes. -/
def Plan.wildNames : Plan :=
  .labelled "[users\"; DROP TABLE users --]" "u\"' --" "\"u\"\"' --\".meta->\"it's\"\"?\"->0"

theorem names_keep_skeleton_wild :
    Plan.Like (Config.shape ⟨.postgres, "app_"⟩ ⟨.postgres, ""⟩) .tameNames .wildNames ∧
      ∃ sql sql', (Config.mk .postgres "app_").compiler.select .tameNames = .ok sql ∧
        (Config.mk .postgres "").compiler.select .wildNames = .ok sql' ∧
        Sql.SameSkeleton sql sql' := by
  have hplan : Plan.Like (Config.shape ⟨.postgres, "app_"⟩ ⟨.postgres, ""⟩) .tameNames .wildNames := by
    refine Plan.labelled_like ?_ (iff_of_false (by decide) (by decide)) ?_
    · exact ⟨⟨["users"], none⟩, ⟨["users\"; DROP TABLE users --"], none⟩, by decide +kernel,
        by decide +kernel, .cons (by decide) .nil, .none⟩
    · exact ⟨⟨["u", "meta"], [.key "tags", .index 0], none⟩,
        ⟨["u\"' --", "meta"], [.key "it's\"?", .index 0], none⟩, by decide +kernel,
        by decide +kernel, .cons (by decide) (.last (by decide)),
        .cons (.key _ _) (.cons (.index 0) .nil), .none⟩
  have hrow : Row.ListLike (Config.shape ⟨.postgres, "app_"⟩ ⟨.postgres, ""⟩) [{}] [{}] :=
    ⟨.cons .nil .nil, nofun⟩
  have hok : ((Config.mk .postgres "app_").compiler.select .tameNames).isOk = true := by
    decide +kernel
  have hall := names_keep_skeleton ⟨.postgres, "app_"⟩ ⟨.postgres, ""⟩ rfl hplan hplan hrow hrow .nil
    .nil .nil .none
  exact ⟨hplan, hall.1.exists_ok hok⟩

/-- All users, by way of a sub-query with an alias. -/
def Plan.usersAs (label : String) : Plan where
  source := some (.subquery { source := some (.table "users") } label)

/-- An empty alias behind the prefix `*` is written without quotes, although it is not `*` itself. -/
theorem empty_alias_unquoted :
    ("" : Name) ≠ wildcard ∧ ("u" : Name) ≠ wildcard ∧
      ∃ sql sql', (Config.mk .postgres "*").compiler.select (.usersAs "") = .ok sql ∧
        (Config.mk .postgres "*").compiler.select (.usersAs "u") = .ok sql' ∧
        skeleton sql.text ≠ skeleton sql'.text :=
  ⟨by decide, by decide, ⟨"SELECT * FROM (SELECT * FROM \"*users\") AS *", []⟩,
    ⟨"SELECT * FROM (SELECT * FROM \"*users\") AS \"*u\"", []⟩, by decide +kernel,
    by decide +kernel, by decide +kernel⟩

end QueryCompiler
