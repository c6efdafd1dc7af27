import QueryCompiler.Config
import QueryCompiler.Proofs.Contents
import QueryCompiler.Proofs.Simulation
import QueryCompiler.Proofs.Written

/-! # Placeholders and bindings

Every statement has as many placeholders outside of quotes as it has bindings, and leaves no quote
open, provided that the same is true of the raw SQL that goes into it.

* `ClosedFor`: what is asked of raw SQL and shown of statements.
* `parity`: the judgement that carries it through a statement tree.
-/

namespace QueryCompiler
set_option autoImplicit false

/-! ## Closed texts -/

/-- A scan of the text ends outside of quotes and meets `n` placeholders. -/
def ClosedFor (text : String) (n : Nat) : Prop :=
  (Scan.outside.run text.toList).isOutside = true ∧ countPlaceholders text "?" = n

instance (text : String) (n : Nat) : Decidable (ClosedFor text n) :=
  inferInstanceAs (Decidable (_ ∧ _))

/-- Raw SQL that is closed for its values. -/
def Raw.Closed (raw : Raw) : Prop := ClosedFor raw.sql raw.values.length

instance (raw : Raw) : Decidable raw.Closed := inferInstanceAs (Decidable (ClosedFor _ _))

/-- The quotes that a scan knows are not plain. -/
def Scan.Known : Scan → Prop
  | .outside => True
  | .inside close => isPlainChar close = false
  | .closing close => isPlainChar close = false

theorem Scan.known_enter (c : Char) : (Scan.enter c).Known := by
  unfold Scan.enter
  split
  · next h => rcases h with rfl | rfl | rfl <;> rfl
  · split
    · rfl
    · trivial

theorem Scan.known_step {state : Scan} (h : state.Known) (c : Char) : (state.step c).Known := by
  cases state with
  | outside => exact Scan.known_enter c
  | inside close =>
    rw [Scan.step]
    split <;> exact h
  | closing close =>
    rw [Scan.step]
    split
    · exact h
    · exact Scan.known_enter c

theorem Scan.known_run {state : Scan} (h : state.Known) (cs : List Char) :
    (state.run cs).Known := by
  induction cs generalizing state with
  | nil => exact h
  | cons c cs ih => exact ih (Scan.known_step h c)

theorem Edge.admits_any {state : Scan} (hknown : state.Known) (h : state.isOutside = true) :
    Edge.any.admits state := by
  cases state with
  | outside => trivial
  | inside close => cases h
  | closing close => exact hknown

theorem closedFor_iff {text : String} {n : Nat} :
    ClosedFor text n ↔ Passes .clear .any n text.toList := by
  constructor
  · rintro ⟨hrun, hcount⟩
    have houtside : Scan.outside.Known := trivial
    exact .of_outside (Edge.admits_any (Scan.known_run houtside _) hrun) hcount
  · intro h
    obtain ⟨hrun, hcount⟩ := h .outside trivial
    exact ⟨Edge.isOutside hrun, hcount⟩

/-! ## What the engines write -/

theorem Passes.of_run {cs : List Char} (hrun : Scan.outside.run cs = .outside)
    (hcount : Scan.count ['?'] .outside cs = 0) : Passes .clear .clear 0 cs := by
  refine .of_outside ?_ hcount
  rw [hrun]
  trivial

/-- A text of the program that stands in front of an expression. -/
theorem Passes.opening {cs : List Char} (h : isPlainText cs = true) :
    Passes .clear .clear 0 (String.ofList cs).toList := by
  rw [String.toList_ofList]
  exact .plain h

/-- A text of the program that stands behind an expression. -/
theorem Passes.ending {cs : List Char} (h : isSeparator cs = true) :
    Passes .any .any 0 (String.ofList cs).toList := (Passes.literal h).to_any

theorem Passes.listed {text : String} (h : Passes .clear .any 0 text.toList) {cs : List Char}
    (hcs : isSeparator cs = true) :
    Passes .any .any 0 (", " ++ text ++ String.ofList cs).toList := by
  have hcomma : Passes .any .clear 0 ", ".toList := .literal (by decide)
  rw [String.toList_append, String.toList_append]
  exact (hcomma.append h).append (.ending hcs)

theorem DatePart.passes_name (part : DatePart) : Passes .clear .clear 0 part.name.toList := by
  cases part <;> exact .opening (by decide)

theorem Engine.passes_phrase (engine : Engine) {text : String}
    (h : engine.dialect.Phrase text) : Passes .any .clear 0 text.toList := by
  cases h with
  | @like caseSensitive _ h =>
    cases engine <;> cases caseSensitive <;> cases h <;> exact .literal (by decide)
  | unbounded h => cases engine <;> cases h <;> exact .literal (by decide)
  | insertIgnore h => cases engine <;> cases h <;> exact .literal (by decide)
  | emptyInsert => cases engine <;> exact .literal (by decide)

theorem Engine.passes_dateFunction (engine : Engine) (part : DatePart) :
    Passes .clear .clear 0 (engine.frames.dateFunction part).before.toList ∧
      Passes .any .any 0 (engine.frames.dateFunction part).after.toList := by
  have hparen : Passes .clear .clear 0 (part.name ++ "(").toList := by
    rw [String.toList_append]
    exact part.passes_name.append (.opening (by decide))
  have hextract : Passes .clear .clear 0 ("extract(" ++ part.name ++ " from ").toList := by
    have hopen : Passes .clear .clear 0 "extract(".toList := .opening (by decide)
    rw [String.toList_append, String.toList_append]
    exact (hopen.append part.passes_name).append (.opening (by decide))
  cases engine with
  | mysql => exact ⟨hparen, .ending (by decide)⟩
  | postgres =>
    cases part with
    | date => exact ⟨.nil .clear, .ending (by decide)⟩
    | time => exact ⟨.nil .clear, .ending (by decide)⟩
    | day | month | year => exact ⟨hextract, .ending (by decide)⟩
  | sqlite =>
    refine ⟨?_, .ending (by decide)⟩
    cases part <;> exact .of_run (by decide) (by decide)
  | sqlserver =>
    cases part with
    | date => exact ⟨.opening (by decide), .ending (by decide)⟩
    | time => exact ⟨.opening (by decide), .ending (by decide)⟩
    | day | month | year => exact ⟨hparen, .ending (by decide)⟩

theorem Engine.passes_dateValue (engine : Engine) (part : DatePart) :
    Passes .clear .clear 0 (engine.frames.dateValue part).before.toList ∧
      Passes .any .any 0 (engine.frames.dateValue part).after.toList := by
  cases engine with
  | mysql | postgres | sqlserver => exact ⟨.nil .clear, .nil .any⟩
  | sqlite =>
    cases part with
    | day | month => exact ⟨.of_run (by decide) (by decide), .ending (by decide)⟩
    | date | time | year => exact ⟨.opening (by decide), .ending (by decide)⟩

theorem Engine.passes_jsonSelector (engine : Engine) (steps : List JsonStep) :
    Passes .clear .clear 0 (engine.frames.jsonSelector steps).before.toList ∧
      Passes .any .any 0 (engine.frames.jsonSelector steps).after.toList := by
  have hpath := Passes.jsonPath steps
  cases engine with
  | mysql => exact ⟨.opening (by decide), hpath.listed (by decide)⟩
  | postgres => exact ⟨.nil .clear, .jsonArrows true steps⟩
  | sqlite => exact ⟨.opening (by decide), hpath.listed (by decide)⟩
  | sqlserver => exact ⟨.opening (by decide), hpath.listed (by decide)⟩

theorem Engine.passes_jsonLength (engine : Engine) (steps : List JsonStep) :
    Passes .clear .clear 0 (engine.frames.jsonLength steps).before.toList ∧
      Passes .any .any 0 (engine.frames.jsonLength steps).after.toList := by
  have hpath := Passes.jsonPath steps
  have hargument : Passes .any .any 0
      (if steps.isEmpty then ")" else ", " ++ jsonPath steps ++ ")").toList := by
    split
    · exact .ending (by decide)
    · exact hpath.listed (by decide)
  cases engine with
  | mysql => exact ⟨.opening (by decide), hargument⟩
  | postgres =>
    refine ⟨.opening (by decide), ?_⟩
    show Passes .any .any 0 (jsonArrows false steps ++ ")::json)").toList
    rw [String.toList_append]
    exact (Passes.jsonArrows false steps).append (.ending (by decide))
  | sqlite => exact ⟨.opening (by decide), hargument⟩
  | sqlserver => exact ⟨.opening (by decide), hpath.listed (by decide)⟩

/-- The frames that are put around expressions. -/
inductive Frames.Has (frames : Frames) : Frame → Prop where
  | bare : Has frames {}
  | dateFunction (part : DatePart) : Has frames (frames.dateFunction part)
  | dateValue (part : DatePart) : Has frames (frames.dateValue part)
  | jsonSelector (steps : List JsonStep) : Has frames (frames.jsonSelector steps)
  | jsonLength (steps : List JsonStep) : Has frames (frames.jsonLength steps)
  | likeOperand : Has frames frames.likeOperand

/-- An engine makes texts of expressions by putting frames around them. -/
theorem Engine.exists_frame (engine : Engine) {f : String → String}
    (h : engine.dialect.hooks.Has f) : ∃ frame, engine.frames.Has frame ∧ f = frame.wrap := by
  rw [engine.hooks_eq] at h
  cases h with
  | bare => exact ⟨{}, .bare, Frame.wrap_empty.symm⟩
  | dateFunction part => exact ⟨_, .dateFunction part, rfl⟩
  | dateValue part => exact ⟨_, .dateValue part, rfl⟩
  | jsonSelector steps => exact ⟨_, .jsonSelector steps, rfl⟩
  | jsonLength steps => exact ⟨_, .jsonLength steps, rfl⟩
  | likeOperand => exact ⟨_, .likeOperand, rfl⟩

theorem Engine.passes_frame (engine : Engine) {frame : Frame} (h : engine.frames.Has frame) :
    Passes .clear .clear 0 frame.before.toList ∧ Passes .any .any 0 frame.after.toList := by
  cases h with
  | bare => exact ⟨.nil .clear, .nil .any⟩
  | dateFunction part => exact engine.passes_dateFunction part
  | dateValue part => exact engine.passes_dateValue part
  | jsonSelector steps => exact engine.passes_jsonSelector steps
  | jsonLength steps => exact engine.passes_jsonLength steps
  | likeOperand =>
    cases engine with
    | postgres => exact ⟨.nil .clear, .ending (by decide)⟩
    | mysql | sqlite | sqlserver => exact ⟨.nil .clear, .nil .any⟩

theorem Engine.passes_name (engine : Engine) (name : Name) :
    Passes .clear .any 0 (engine.dialect.quote name).toList := by
  rw [engine.defaultQuotes]
  unfold Dialect.quoteBetween
  split
  · exact (Passes.opening (by decide)).to_any
  · rw [String.toList_ofList]
    have hname : ∀ close, Stays close (name.toList.flatMap (Dialect.escapeInName close)) :=
      fun close => .flatMap (Stays.escapeInName close)
    cases engine with
    | mysql => exact .quoted rfl (by decide) (hname _)
    | postgres => exact .quoted rfl (by decide) (hname _)
    | sqlite => exact .quoted rfl (by decide) (hname _)
    | sqlserver => exact .quoted rfl (by decide) (hname _)

theorem Engine.placeholder_eq (engine : Engine) : engine.dialect.placeholder = "?" := by
  cases engine <;> rfl

/-! ## The judgement -/

/-- What is asked of a leaf, given the SQL of nested plans. -/
def Leaf.Closed (nested : Plan → Except Error Sql) : Leaf → Prop
  | .bound _ _ => True
  | .raw sql _ => sql.Closed
  | .plan inner _ => Ensures (nested inner) fun sql => ClosedFor sql.text sql.bindings.length
  | .lock (.raw words) => ClosedFor words 0
  | .lock _ => True

theorem Engine.passes_lock (engine : Engine) {nested : Plan → Except Error Sql} {lock : Lock}
    {text : String} (h : engine.dialect.lockText lock = some text)
    (hlock : (Leaf.lock lock).Closed nested) : Passes .clear .any 0 text.toList := by
  cases lock with
  | raw words =>
    have hwords : Passes .clear .any 0 words.toList := closedFor_iff.1 hlock
    cases engine <;> cases h <;> exact hwords
  | update => cases engine <;> cases h <;> exact (Passes.opening (by decide)).to_any
  | shared => cases engine <;> cases h <;> exact (Passes.opening (by decide)).to_any

/-- A stretch whose leaves are closed has as many placeholders as bindings. -/
def parity (engine : Engine) (nested : Plan → Except Error Sql) :
    Judgement ⟨engine.dialect, nested⟩ where
  holds first last leaves sql :=
    (∀ leaf ∈ leaves, leaf.Closed nested) →
      Passes first last sql.bindings.length sql.text.toList
  of_any h hleaves := (h hleaves).of_any
  to_any h hleaves := (h hleaves).to_any
  append {_ _ _ _ _ a b} ha hb hleaves := by
    have hfirst := ha fun leaf hleaf => hleaves leaf (List.mem_append_left _ hleaf)
    have hsecond := hb fun leaf hleaf => hleaves leaf (List.mem_append_right _ hleaf)
    rw [Sql.text_append, String.toList_append, Sql.bindings_append, List.length_append]
    exact hfirst.append hsecond
  empty edge _ := .nil edge
  separator h _ := .separator h
  phrase h _ := engine.passes_phrase h
  hook {_ _ sql} hf h hleaves := by
    obtain ⟨frame, hframe, rfl⟩ := engine.exists_frame hf
    obtain ⟨hbefore, hafter⟩ := engine.passes_frame hframe
    have hframed := (hbefore.append (h hleaves)).append hafter
    rw [Nat.zero_add, Nat.add_zero, ← String.toList_append, ← String.toList_append] at hframed
    exact hframed
  name name _ := engine.passes_name name
  bound value purpose _ := by
    show Passes .clear .any 1 engine.dialect.placeholder.toList
    rw [engine.placeholder_eq]
    exact Passes.to_any (.of_outside trivial rfl)
  raw sql purpose hleaves := by
    have hclosed : sql.Closed := hleaves _ List.mem_cons_self
    rw [Sql.ofRaw, List.length_map]
    exact closedFor_iff.1 hclosed
  plan {inner sql} purpose hsql hleaves := by
    have hclosed : (Leaf.plan inner purpose).Closed nested := hleaves _ List.mem_cons_self
    rw [Sql.retag, Bindings.retag, List.length_map]
    exact closedFor_iff.1 (hclosed sql hsql)
  lock h hleaves := engine.passes_lock h (hleaves _ List.mem_cons_self)
  unlocked edge _ _ := .nil edge

/-! ## Plans -/

/-- A plan whose raw SQL is closed, at every depth. -/
def Plan.Closed (plan : Plan) : Prop := ∀ raw ∈ plan.raws, raw.Closed

/-- A row whose raw SQL is closed, at every depth. -/
def Row.Closed (row : Row) : Prop := ∀ raw ∈ row.raws, raw.Closed

instance (plan : Plan) : Decidable plan.Closed :=
  inferInstanceAs (Decidable (∀ raw ∈ plan.raws, raw.Closed))

instance (row : Row) : Decidable row.Closed :=
  inferInstanceAs (Decidable (∀ raw ∈ row.raws, raw.Closed))

/-- SQL with as many placeholders as bindings, and no open quote. -/
def Sql.Closed (sql : Sql) : Prop := ClosedFor sql.text sql.bindings.length

theorem Leaf.closed_of_raws {nested : Plan → Except Error Sql}
    (hnested : ∀ plan : Plan, plan.Closed → Ensures (nested plan) Sql.Closed) {leaf : Leaf}
    (h : ∀ raw ∈ leaf.yield .raws, raw.Closed) : leaf.Closed nested := by
  cases leaf with
  | bound value purpose => trivial
  | raw sql purpose => exact h sql List.mem_cons_self
  | plan inner purpose => exact hnested inner h
  | lock lock =>
    cases lock with
    | raw words => exact h ⟨words, []⟩ List.mem_cons_self
    | update => trivial
    | shared => trivial

theorem Written.closed {engine : Engine} {nested : Plan → Except Error Sql} {leaves : List Leaf}
    {sql : Sql} (h : Written (parity engine nested) .clear .any leaves sql)
    (hnested : ∀ plan : Plan, plan.Closed → Ensures (nested plan) Sql.Closed)
    (hleaves : ∀ raw ∈ leaves.flatMap (Leaf.yield .raws), raw.Closed) : sql.Closed := by
  refine closedFor_iff.2 (h fun leaf hleaf => Leaf.closed_of_raws hnested fun raw hraw => ?_)
  exact hleaves raw (List.mem_flatMap.2 ⟨leaf, hleaf, hraw⟩)

namespace Config

variable (config : Config)

/-- Induction on the depth: the plans nested in a plan are compiled with one step less. -/
theorem compileWithin_closed (n : Nat) (plan : Plan) (hplan : plan.Closed) :
    Ensures (config.compiler.compileWithin n plan) Sql.Closed := by
  induction n generalizing plan with
  | zero => exact .error
  | succ n ih =>
    rw [Compiler.compileWithin_succ]
    refine (Query.ofPlan_leaves config.tablePrefix {} plan).bind fun query hquery => ?_
    refine (Query.render_written (parity config.engine (config.compiler.compileWithin n)) {}
      query).mono fun sql hsql => Written.closed hsql ih ?_
    rw [hquery, Plan.leaves_yield]
    exact hplan

theorem compileNested_closed (plan : Plan) (hplan : plan.Closed) :
    Ensures (config.compiler.compileNested plan) Sql.Closed :=
  config.compileWithin_closed plan.depth plan hplan

/-- The judgement on what the compiler of a configuration writes. -/
def parity : Judgement config.compiler.renderer :=
  QueryCompiler.parity config.engine config.compiler.compileNested

theorem render_closed {statement : Statement}
    (h : ∀ raw ∈ (statement.leaves config.engine.dialect).flatMap (Leaf.yield .raws), raw.Closed) :
    Ensures (config.compiler.render statement) Sql.Closed := by
  rw [Compiler.render_eq]
  exact (Statement.render_written config.parity statement).mono fun _ hsql =>
    Written.closed hsql config.compileNested_closed h

theorem select_closed {plan : Plan} (hplan : plan.Closed) :
    Ensures (config.compiler.select plan) Sql.Closed := by
  refine (Query.ofPlan_leaves config.tablePrefix {} plan).bind fun query hquery => ?_
  refine config.render_closed ?_
  rw [Statement.leaves, hquery, Plan.leaves_yield]
  exact hplan

theorem existence_closed {plan : Plan} (hplan : plan.Closed) :
    Ensures (config.compiler.existence plan) Sql.Closed := by
  refine (Select.existence_leaves _ config.tablePrefix plan).bind fun select hselect => ?_
  refine config.render_closed fun raw hraw => ?_
  obtain ⟨leaf, hleaf, hraw⟩ := List.mem_flatMap.1 hraw
  rw [Statement.leaves, Query.leaves] at hleaf
  rcases hselect leaf hleaf with rfl | hmem
  · rw [List.mem_singleton.1 hraw]
    decide
  · refine hplan raw ?_
    rw [Plan.raws, ← Plan.leaves_yield .raws {} plan]
    exact List.mem_flatMap.2 ⟨leaf, hmem, hraw⟩

/-- Closed rows have closed leaves, in whatever order their columns are read. -/
theorem closed_of_rows {rows : List Row} (hrows : ∀ row ∈ rows, row.Closed) {leaves : List Leaf}
    (hleaves : leaves = Row.listLeaves rows) :
    ∀ raw ∈ leaves.flatMap (Leaf.yield .raws), raw.Closed := by
  intro raw hraw
  rw [hleaves, Row.listLeaves_yield] at hraw
  obtain ⟨row, hrow, hraw⟩ := List.mem_flatMap.1 (Row.listYield_subset .raws rows hraw)
  exact hrows row hrow raw hraw

theorem insert_closed (plan : Plan) {rows : List Row} (hrows : ∀ row ∈ rows, row.Closed) :
    Ensures (config.compiler.insert plan rows) Sql.Closed :=
  (Insert.ofRows_leaves config.tablePrefix plan rows none).bind fun _ hinsert =>
    config.render_closed (closed_of_rows hrows hinsert)

theorem insertOrIgnore_closed (plan : Plan) {rows : List Row} (hrows : ∀ row ∈ rows, row.Closed) :
    Ensures (config.compiler.insertOrIgnore plan rows) Sql.Closed :=
  (Insert.ofRows_leaves config.tablePrefix plan rows (some .ignore)).bind fun _ hinsert =>
    config.render_closed (closed_of_rows hrows hinsert)

theorem upsert_closed (plan : Plan) {rows : List Row} (key update : List String)
    (hrows : ∀ row ∈ rows, row.Closed) :
    Ensures (config.compiler.upsert plan rows key update) Sql.Closed :=
  (Insert.upsert_leaves _ config.tablePrefix plan rows key update).bind fun _ hinsert =>
    config.render_closed (closed_of_rows hrows hinsert)

theorem insertGetId_closed (plan : Plan) {row : Row} (column : Option Name) (hrow : row.Closed) :
    Ensures (config.compiler.insertGetId plan row column) Sql.Closed := by
  have hrows : ∀ r ∈ [row], r.Closed := fun r hr => by
    rw [List.mem_singleton.1 hr]
    exact hrow
  refine (Insert.ofRows_leaves config.tablePrefix plan [row] none).bind fun insert hinsert => ?_
  have hleaves := closed_of_rows hrows hinsert
  split
  · exact config.render_closed hleaves
  · exact config.render_closed hleaves
  · -- the statement is one of three in a row
    rw [Compiler.render_eq]
    refine (Statement.render_written config.parity (.insert insert)).bind fun sql hsql => .ok ?_
    have hwritten : Written config.parity .clear .any _ _ :=
      ((((Written.lead "SET NOCOUNT ON; " rfl).onto hsql).lit "; SELECT SCOPE_IDENTITY() AS " rfl).text
        (config.parity.name (column.getD Compiler.defaultIdColumn))).of_any
    exact Written.closed hwritten config.compileNested_closed hleaves

theorem insertUsing_closed (plan : Plan) (columns : List String) {source : Plan}
    (hsource : source.Closed) :
    Ensures (config.compiler.insertUsing plan columns source) Sql.Closed := by
  refine (Insert.ofQuery_leaves config.tablePrefix plan source columns).bind
    fun insert hinsert => config.render_closed ?_
  rw [Statement.leaves, hinsert, List.flatMap_singleton]
  exact hsource

theorem update_closed {plan : Plan} {row : Row} (hplan : plan.Closed) (hrow : row.Closed) :
    Ensures (config.compiler.update plan row) Sql.Closed := by
  refine (Update.ofPlan_leaves config.engine config.tablePrefix plan row).bind
    fun update hupdate => config.render_closed fun raw hraw => ?_
  have hmem : raw ∈ row.raws ∨ raw ∈ plan.restrictionYield .raws := by
    rw [Statement.leaves, hupdate, Plan.updateLeaves_yield] at hraw
    unfold Plan.restrictionYield at hraw ⊢
    split at hraw
    · simp only [List.mem_append] at hraw ⊢
      tauto
    · exact List.mem_append.1 hraw
  rcases hmem with hmem | hmem
  · exact hrow raw hmem
  · exact hplan raw (Plan.restrictionYield_subset .raws plan hmem)

theorem delete_closed {plan : Plan} (hplan : plan.Closed) :
    Ensures (config.compiler.delete plan) Sql.Closed := by
  refine (Delete.ofPlan_leaves config.engine config.tablePrefix plan).bind
    fun delete hdelete => config.render_closed fun raw hraw => ?_
  rw [Statement.leaves, hdelete, Plan.restrictionLeaves_yield] at hraw
  exact hplan raw (Plan.restrictionYield_subset .raws plan hraw)

theorem truncate_closed (plan : Plan) :
    Ensures (config.compiler.truncate plan) fun sqls => ∀ sql ∈ sqls, sql.Closed := by
  refine (Statement.truncation_leaves _ config.tablePrefix plan).bind fun statements hleaves => ?_
  refine Ensures.mapM_all fun statement hstatement => config.render_closed fun raw hraw => ?_
  obtain ⟨leaf, hleaf, hraw⟩ := List.mem_flatMap.1 hraw
  obtain ⟨value, purpose, rfl⟩ := hleaves statement hstatement leaf hleaf
  cases hraw

/-- The statements of every engine, with any table prefix, have as many placeholders outside of
quotes as they have bindings, and end outside of quotes, if the raw SQL that they are made from is
closed for its values. -/
theorem placeholders_match_bindings (config : Config) (plan : Plan) (hplan : plan.Closed) :
    Ensures (config.compiler.select plan) Sql.Closed ∧
    Ensures (config.compiler.existence plan) Sql.Closed ∧
    (∀ rows : List Row, (∀ row ∈ rows, row.Closed) →
      Ensures (config.compiler.insert plan rows) Sql.Closed ∧
      Ensures (config.compiler.insertOrIgnore plan rows) Sql.Closed ∧
      ∀ key update, Ensures (config.compiler.upsert plan rows key update) Sql.Closed) ∧
    (∀ row : Row, row.Closed →
      (∀ column, Ensures (config.compiler.insertGetId plan row column) Sql.Closed) ∧
      Ensures (config.compiler.update plan row) Sql.Closed) ∧
    (∀ columns (source : Plan), source.Closed →
      Ensures (config.compiler.insertUsing plan columns source) Sql.Closed) ∧
    Ensures (config.compiler.delete plan) Sql.Closed ∧
    Ensures (config.compiler.truncate plan) fun sqls => ∀ sql ∈ sqls, sql.Closed := by
  refine ⟨config.select_closed hplan, config.existence_closed hplan, ?_, ?_, ?_,
    config.delete_closed hplan, config.truncate_closed plan⟩
  · intro rows hrows
    exact ⟨config.insert_closed plan hrows, config.insertOrIgnore_closed plan hrows,
      fun key update => config.upsert_closed plan key update hrows⟩
  · intro row hrow
    exact ⟨fun column => config.insertGetId_closed plan column hrow,
      config.update_closed hplan hrow⟩
  · intro columns source hsource
    exact config.insertUsing_closed plan columns hsource

/-- Quotes in the prefix, in raw SQL and in a lock, and raw SQL at two depths. -/
theorem placeholders_match_bindings_with_quotes :
    let config : Config := ⟨.sqlserver, "a]'?"⟩
    let nested : Plan := { source := some (.raw ⟨"t where x = ? and y = '?'", [.int 2]⟩) }
    let plan : Plan := {
      selections := [.raw ⟨"coalesce(a, ?) as \"it's\"", [.int 1]⟩]
      source := some (.table "users as u")
      filters := [⟨.and, .compare "u.name" .eq (.value (.text "it's"))⟩,
        ⟨.or, .inSubquery "u.id" nested false⟩]
      lock := some (.raw "with (index = [a?b])") }
    let row : Row := .ofList [("n", .raw ⟨"n + ?", [.int 1]⟩)]
    (plan.Closed ∧ row.Closed ∧ nested.Closed) ∧
    ((config.compiler.select plan).toBool ∧ (config.compiler.update plan row).toBool ∧
      (config.compiler.insertUsing plan ["n"] nested).toBool) ∧
    Ensures (config.compiler.select plan) Sql.Closed ∧
    Ensures (config.compiler.update plan row) Sql.Closed ∧
    Ensures (config.compiler.insertUsing plan ["n"] nested) Sql.Closed := by
  intro config nested plan row
  have hplan : plan.Closed := by decide
  have hrow : row.Closed := by decide
  have hnested : nested.Closed := by decide
  obtain ⟨hselect, -, -, hrows, husing, -, -⟩ := placeholders_match_bindings config plan hplan
  exact ⟨⟨hplan, hrow, hnested⟩, by decide +kernel, hselect, (hrows row hrow).2,
    husing ["n"] nested hnested⟩

end Config

end QueryCompiler
